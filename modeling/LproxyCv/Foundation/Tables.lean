import LproxyCv.Foundation.Run
import Mathlib.Data.List.Perm.Subperm
import Mathlib.Logic.Function.Basic

set_option autoImplicit false

/-!
# Foundation: tables of rules that programs share

A table has chains of rules, by name; a rule may send what it matches to another chain.  `Does`
says what each command may do to a table: one that cannot be done leaves it as it is, and the
ones that put something into it may fail for reasons of their own.

A program that owns some chains keeps to its part of the table when it changes only these
chains, and puts rules that send to them into one other chain, the hook (`ChainCmd.Own`).  Then
what the others have in the table stays (`others_of_run`), and a list of the program's rules
that bounds those in the hook follows from the commands alone (`Kept.run`).  Where that list is
empty the program's chains can be removed (`Kept.run_drop`).
-/

namespace LproxyCv.Foundation

open Function

/-- The rules of each chain that there is. -/
abbrev Chains (κ ρ : Type) := κ → Option (List ρ)

/-- A command. -/
inductive ChainCmd (κ ρ : Type) where
  | newChain (c : κ)
  | append (c : κ) (r : ρ)
  | insert (c : κ) (r : ρ)
  | delete (c : κ) (r : ρ)
  | flush (c : κ)
  | deleteChain (c : κ)
  deriving DecidableEq

variable {κ ρ : Type} [DecidableEq κ] [DecidableEq ρ]

/-- Some rule sends to the chain. -/
def Chains.Used (goto : ρ → Option κ) (f : Chains κ ρ) (c : κ) : Prop :=
  ∃ c' rs r, f c' = some rs ∧ r ∈ rs ∧ goto r = some c

/-- The chain that a rule sends to is there, if there is one. -/
def Chains.Leads (goto : ρ → Option κ) (f : Chains κ ρ) (r : ρ) : Prop :=
  ∀ c, goto r = some c → (f c).isSome = true

/-- The rule sends to one of the chains. -/
def sends (goto : ρ → Option κ) (own : κ → Bool) (r : ρ) : Bool := (goto r).any own

/-- What a command may do. -/
inductive Does (goto : ρ → Option κ) (f : Chains κ ρ) : ChainCmd κ ρ → Chains κ ρ → Prop where
  | newChain {c : κ} : f c = none → Does goto f (.newChain c) (update f c (some []))
  | append {c : κ} {r : ρ} {rs : List ρ} : f c = some rs → f.Leads goto r →
      Does goto f (.append c r) (update f c (some (rs ++ [r])))
  | insert {c : κ} {r : ρ} {rs : List ρ} : f c = some rs → f.Leads goto r →
      Does goto f (.insert c r) (update f c (some (r :: rs)))
  | newChainFails (c : κ) : Does goto f (.newChain c) f
  | appendFails (c : κ) (r : ρ) : Does goto f (.append c r) f
  | insertFails (c : κ) (r : ρ) : Does goto f (.insert c r) f
  /-- the first rule of the kind goes, if there is one -/
  | delete (c : κ) (r : ρ) : Does goto f (.delete c r) (update f c ((f c).map (·.erase r)))
  | flush (c : κ) : Does goto f (.flush c) (update f c ((f c).map fun _ => []))
  | deleteChain {c : κ} : f c = some [] → ¬ f.Used goto c →
      Does goto f (.deleteChain c) (update f c none)
  | deleteChainFails {c : κ} : f c ≠ some [] ∨ f.Used goto c → Does goto f (.deleteChain c) f

open Classical in
/-- A tool that fails only where it must. -/
noncomputable def ChainCmd.exec (goto : ρ → Option κ) (f : Chains κ ρ) : ChainCmd κ ρ → Chains κ ρ
  | newChain c => if f c = none then update f c (some []) else f
  | append c r => if f.Leads goto r then update f c ((f c).map (· ++ [r])) else f
  | insert c r => if f.Leads goto r then update f c ((f c).map (r :: ·)) else f
  | delete c r => update f c ((f c).map (·.erase r))
  | flush c => update f c ((f c).map fun _ => [])
  | deleteChain c => if f c = some [] ∧ ¬ f.Used goto c then update f c none else f

theorem does_exec (goto : ρ → Option κ) (f : Chains κ ρ) (cmd : ChainCmd κ ρ) :
    Does goto f cmd (cmd.exec goto f) := by
  cases cmd with
  | newChain c =>
      by_cases hc : f c = none
      · rw [ChainCmd.exec, if_pos hc]
        exact .newChain hc
      · rw [ChainCmd.exec, if_neg hc]
        exact .newChainFails c
  | append c r =>
      rw [ChainCmd.exec]
      split
      · rename_i hleads
        cases hc : f c with
        | none =>
            rw [Option.map_none, ← hc, update_eq_self]
            exact .appendFails c r
        | some rs => exact .append hc hleads
      · exact .appendFails c r
  | insert c r =>
      rw [ChainCmd.exec]
      split
      · rename_i hleads
        cases hc : f c with
        | none =>
            rw [Option.map_none, ← hc, update_eq_self]
            exact .insertFails c r
        | some rs => exact .insert hc hleads
      · exact .insertFails c r
  | delete c r => exact .delete c r
  | flush c => exact .flush c
  | deleteChain c =>
      by_cases hc : f c = some [] ∧ ¬ f.Used goto c
      · rw [ChainCmd.exec, if_pos hc]
        exact .deleteChain hc.1 hc.2
      · rw [ChainCmd.exec, if_neg hc]
        exact .deleteChainFails (by tauto)

namespace ChainCmd

/-- The chain that a command changes. -/
def chain : ChainCmd κ ρ → κ
  | newChain c => c
  | append c _ => c
  | insert c _ => c
  | delete c _ => c
  | flush c => c
  | deleteChain c => c

/-- The commands for a chain. -/
def about (c : κ) (cmds : List (ChainCmd κ ρ)) : List (ChainCmd κ ρ) :=
  cmds.filter fun cmd => cmd.chain = c

/-- The rule that a command puts into its chain. -/
def added : ChainCmd κ ρ → Option ρ
  | append _ r => some r
  | insert _ r => some r
  | _ => none

/-- A command that keeps to the part of the program that owns `own`. -/
def Own (goto : ρ → Option κ) (own : κ → Bool) (hook : κ) : ChainCmd κ ρ → Prop
  | append c r => own c = true ∧ sends goto own r = false
  | insert c r => c = hook ∧ sends goto own r = true
  | delete c r => c = hook ∧ sends goto own r = true
  | newChain c => own c = true
  | flush c => own c = true
  | deleteChain c => own c = true

instance (goto : ρ → Option κ) (own : κ → Bool) (hook : κ) (cmd : ChainCmd κ ρ) :
    Decidable (cmd.Own goto own hook) :=
  match cmd with
  | append _ _ => inferInstanceAs (Decidable (_ ∧ _))
  | insert _ _ => inferInstanceAs (Decidable (_ ∧ _))
  | delete _ _ => inferInstanceAs (Decidable (_ ∧ _))
  | newChain _ => inferInstanceAs (Decidable (_ = _))
  | flush _ => inferInstanceAs (Decidable (_ = _))
  | deleteChain _ => inferInstanceAs (Decidable (_ = _))

omit [DecidableEq ρ] in
theorem about_cons_self {cmd : ChainCmd κ ρ} {cmds : List (ChainCmd κ ρ)} :
    about cmd.chain (cmd :: cmds) = cmd :: about cmd.chain cmds :=
  List.filter_cons_of_pos (decide_eq_true rfl)

omit [DecidableEq ρ] in
theorem about_cons_of_ne {cmd : ChainCmd κ ρ} {cmds : List (ChainCmd κ ρ)} {c : κ}
    (h : cmd.chain ≠ c) : about c (cmd :: cmds) = about c cmds :=
  List.filter_cons_of_neg (by simpa using h)

/-- What the rules in the hook may be after a command, if they were of `most` before it. -/
def bound (most : List ρ) : ChainCmd κ ρ → List ρ
  | insert _ r => r :: most
  | delete _ r => most.erase r
  | _ => most

end ChainCmd

namespace Chains

/-- The rules of a chain that send to chains of the program. -/
def mine (goto : ρ → Option κ) (own : κ → Bool) (f : Chains κ ρ) (c : κ) : List ρ :=
  ((f c).getD []).filter fun r => sends goto own r

/-- The table without the program. -/
def others (goto : ρ → Option κ) (own : κ → Bool) (f : Chains κ ρ) : Chains κ ρ := fun c =>
  if own c then none else (f c).map fun rs => rs.filter fun r => !sends goto own r

/-- Only the hook has rules that send to chains of the program, and they are of `most`. -/
structure Kept (goto : ρ → Option κ) (own : κ → Bool) (hook : κ) (most : List ρ) (f : Chains κ ρ) :
    Prop where
  elsewhere : ∀ c, c ≠ hook → f.mine goto own c = []
  hook : (f.mine goto own hook).Subperm most

variable {goto : ρ → Option κ} {own : κ → Bool} {hook : κ} {most most' : List ρ} {f f' : Chains κ ρ}
  {cmd : ChainCmd κ ρ} {cmds : List (ChainCmd κ ρ)}

omit [DecidableEq κ] [DecidableEq ρ] in
theorem Kept.mono (h : f.Kept goto own hook most) (hle : most.Subperm most') :
    f.Kept goto own hook most' :=
  ⟨h.elsewhere, h.hook.trans hle⟩

/-! ## Commands -/

/-- A command changes one chain. -/
theorem does_of_ne (h : Does goto f cmd f') {c : κ} (hc : c ≠ cmd.chain) : f' c = f c := by
  cases h with
  | newChainFails => rfl
  | appendFails => rfl
  | insertFails => rfl
  | deleteChainFails _ => rfl
  | newChain _ => exact update_of_ne hc _ _
  | append _ _ => exact update_of_ne hc _ _
  | insert _ _ => exact update_of_ne hc _ _
  | delete c' r => exact update_of_ne hc _ _
  | flush c' => exact update_of_ne hc _ _
  | deleteChain _ _ => exact update_of_ne hc _ _

theorem run_of_ne (hrun : Run (Does goto) f cmds f') {c : κ} (hc : ∀ cmd ∈ cmds, c ≠ cmd.chain) :
    f' c = f c := by
  induction hrun with
  | nil _ => rfl
  | cons hfirst _ ih =>
      rw [ih fun cmd hcmd => hc cmd (List.mem_cons_of_mem _ hcmd)]
      exact does_of_ne hfirst (hc _ List.mem_cons_self)

/-- A chain that there is not comes only from its own command. -/
theorem does_none (h : Does goto f cmd f') {c : κ} (hnone : f c = none)
    (hcmd : cmd ≠ .newChain c) : f' c = none := by
  by_cases hc : c = cmd.chain
  · subst hc
    cases h with
    | newChainFails => exact hnone
    | appendFails => exact hnone
    | insertFails => exact hnone
    | deleteChainFails _ => exact hnone
    | newChain _ => exact absurd rfl hcmd
    | append hsome _ => exact nomatch hnone.symm.trans hsome
    | insert hsome _ => exact nomatch hnone.symm.trans hsome
    | delete c' r =>
        rw [ChainCmd.chain] at hnone ⊢
        rw [update_self, hnone, Option.map_none]
    | flush c' =>
        rw [ChainCmd.chain] at hnone ⊢
        rw [update_self, hnone, Option.map_none]
    | deleteChain _ _ => exact update_self _ _ _
  · rw [does_of_ne h hc, hnone]

/-- What every rule of a chain is like, when the rules that are put into it are. -/
theorem does_rules {P : ρ → Prop} (h : Does goto f cmd f') {c : κ}
    (hadds : ∀ r, cmd.chain = c → cmd.added = some r → P r) (hf : ∀ r ∈ (f c).getD [], P r) :
    ∀ r ∈ (f' c).getD [], P r := by
  by_cases hc : c = cmd.chain
  · subst hc
    cases h with
    | newChainFails => exact hf
    | appendFails => exact hf
    | insertFails => exact hf
    | deleteChainFails _ => exact hf
    | newChain _ =>
        intro r hr
        rw [ChainCmd.chain, update_self] at hr
        cases hr
    | @append c' r' rs' hsome _ =>
        intro r hr
        rw [ChainCmd.chain, update_self] at hr
        rcases List.mem_append.mp hr with hold | hnew
        · exact hf r (by rw [ChainCmd.chain, hsome]; exact hold)
        · exact hadds r rfl (by rw [List.mem_singleton.mp hnew]; rfl)
    | @insert c' r' rs' hsome _ =>
        intro r hr
        rw [ChainCmd.chain, update_self] at hr
        rcases List.mem_cons.mp hr with rfl | hold
        · exact hadds r rfl rfl
        · exact hf r (by rw [ChainCmd.chain, hsome]; exact hold)
    | delete c' r' =>
        intro r hr
        rw [ChainCmd.chain, update_self] at hr
        rw [ChainCmd.chain] at hf
        cases hsome : f c' with
        | none =>
            rw [hsome] at hr
            cases hr
        | some rs' =>
            rw [hsome] at hr hf
            exact hf r (List.mem_of_mem_erase hr)
    | flush c' =>
        intro r hr
        rw [ChainCmd.chain, update_self] at hr
        cases hsome : f c' with
        | none =>
            rw [hsome] at hr
            cases hr
        | some rs' =>
            rw [hsome] at hr
            cases hr
    | deleteChain _ _ =>
        intro r hr
        rw [ChainCmd.chain, update_self] at hr
        cases hr
  · rw [does_of_ne h hc]
    exact hf

/-- What every rule of the table is like, when the rules that are put in are. -/
theorem does_all {P : ρ → Prop} (h : Does goto f cmd f')
    (hadds : ∀ r, cmd.added = some r → P r)
    (hf : ∀ c rs r, f c = some rs → r ∈ rs → P r) :
    ∀ c rs r, f' c = some rs → r ∈ rs → P r := by
  intro c rs r hrs hr
  refine does_rules h (c := c) (fun r _ => hadds r) ?_ r (by rw [hrs]; exact hr)
  intro r hr
  cases hsome : f c with
  | none =>
      rw [hsome] at hr
      cases hr
  | some rs =>
      rw [hsome] at hr
      exact hf c rs r hsome hr

/-- Where nothing is put into a chain its rules stay, or there are none of them left. -/
theorem does_less (h : Does goto f cmd f') {c : κ} (hadds : cmd.chain = c → cmd.added = none)
    (hdelete : ∀ r, cmd ≠ .delete c r) :
    (f' c).getD [] = (f c).getD [] ∨ (f' c).getD [] = [] := by
  by_cases hc : c = cmd.chain
  · subst hc
    cases h with
    | newChainFails => exact .inl rfl
    | appendFails => exact .inl rfl
    | insertFails => exact .inl rfl
    | deleteChainFails _ => exact .inl rfl
    | append _ _ => exact absurd (hadds rfl) (Option.some_ne_none _)
    | insert _ _ => exact absurd (hadds rfl) (Option.some_ne_none _)
    | delete c r => exact absurd rfl (hdelete r)
    | newChain _ =>
        rw [ChainCmd.chain, update_self]
        exact .inr rfl
    | deleteChain _ _ =>
        rw [ChainCmd.chain, update_self]
        exact .inr rfl
    | flush c =>
        rw [ChainCmd.chain, update_self]
        cases f c <;> exact .inr rfl
  · rw [does_of_ne h hc]
    exact .inl rfl

/-- A chain stays, unless it is deleted. -/
theorem does_isSome (h : Does goto f cmd f') {c : κ} (hcmd : cmd ≠ .deleteChain c)
    (hc : (f c).isSome = true) : (f' c).isSome = true := by
  by_cases hchain : c = cmd.chain
  · subst hchain
    cases h with
    | newChainFails => exact hc
    | appendFails => exact hc
    | insertFails => exact hc
    | deleteChainFails _ => exact hc
    | deleteChain _ _ => exact absurd rfl hcmd
    | delete c r =>
        rw [ChainCmd.chain, update_self, Option.isSome_map]
        exact hc
    | flush c =>
        rw [ChainCmd.chain, update_self, Option.isSome_map]
        exact hc
    | _ =>
        rw [ChainCmd.chain, update_self]
        rfl
  · rwa [does_of_ne h hchain]

/-! ## A program and the others -/

omit [DecidableEq κ] [DecidableEq ρ] in
theorem others_own {c : κ} (h : own c = true) : f.others goto own c = none := if_pos h

omit [DecidableEq κ] [DecidableEq ρ] in
theorem others_self {c : κ} (h : own c = false) : f.others goto own c =
    (f c).map fun rs => rs.filter fun r => !sends goto own r := by
  rw [others, h]
  rfl

omit [DecidableEq κ] [DecidableEq ρ] in
/-- No rule of the others sends to a chain of the program. -/
theorem others_free {c : κ} {rs : List ρ} (h : f.others goto own c = some rs) :
    ∀ r ∈ rs, sends goto own r = false := by
  intro r hr
  cases hc : own c with
  | true =>
      rw [others_own hc] at h
      cases h
  | false =>
      rw [others_self hc] at h
      obtain ⟨rs', _, rfl⟩ := Option.map_eq_some_iff.mp h
      exact (Bool.not_eq_true' _).mp (List.mem_filter.mp hr).2

/-- What the others have in the table stays. -/
theorem others_of_does (hown : cmd.Own goto own hook) (h : Does goto f cmd f') :
    f'.others goto own = f.others goto own := by
  funext c
  by_cases hc : c = cmd.chain
  · subst hc
    cases howned : own cmd.chain with
    | true => rw [others_own howned, others_own howned]
    | false =>
        cases h with
        | newChainFails => rfl
        | appendFails => rfl
        | insertFails => rfl
        | deleteChainFails _ => rfl
        | newChain _ => exact absurd (howned.symm.trans hown) Bool.false_ne_true
        | append _ _ => exact absurd (howned.symm.trans hown.1) Bool.false_ne_true
        | flush c' => exact absurd (howned.symm.trans hown) Bool.false_ne_true
        | deleteChain _ _ => exact absurd (howned.symm.trans hown) Bool.false_ne_true
        | @insert c' r rs hsome _ =>
            rw [others_self howned, others_self howned, ChainCmd.chain, update_self, hsome,
              Option.map_some, Option.map_some, List.filter_cons_of_neg (by simp [hown.2])]
        | delete c' r =>
            rw [others_self howned, others_self howned, ChainCmd.chain, update_self,
              Option.map_map]
            refine congrArg (fun g => (f c').map g) ?_
            funext rs
            rw [Function.comp_apply, ← List.erase_filter,
              List.erase_of_not_mem (by simp [hown.2])]
  · rw [others, others, does_of_ne h hc]

theorem others_of_run (hown : ∀ cmd ∈ cmds, cmd.Own goto own hook)
    (hrun : Run (Does goto) f cmds f') : f'.others goto own = f.others goto own := by
  induction hrun with
  | nil _ => rfl
  | cons hfirst _ ih =>
      rw [ih fun cmd hcmd => hown cmd (List.mem_cons_of_mem _ hcmd)]
      exact others_of_does (hown _ List.mem_cons_self) hfirst

/-- In a chain of the program there is no rule that sends to one. -/
theorem mine_of_own (hown : cmd.Own goto own hook) (hchain : cmd.chain ≠ hook)
    (hnone : f.mine goto own cmd.chain = []) (h : Does goto f cmd f') :
    f'.mine goto own cmd.chain = [] := by
  cases h with
  | newChainFails => exact hnone
  | appendFails => exact hnone
  | insertFails => exact hnone
  | deleteChainFails _ => exact hnone
  | insert _ _ => exact absurd hown.1 hchain
  | delete c r => exact absurd hown.1 hchain
  | newChain _ => rw [mine, ChainCmd.chain, update_self, Option.getD_some, List.filter_nil]
  | deleteChain _ _ => rw [mine, ChainCmd.chain, update_self, Option.getD_none, List.filter_nil]
  | @append c r rs hsome _ =>
      rw [mine, ChainCmd.chain, hsome, Option.getD_some] at hnone
      rw [mine, ChainCmd.chain, update_self, Option.getD_some, List.filter_append, hnone,
        List.filter_cons_of_neg (by simp [hown.2]), List.filter_nil, List.append_nil]
  | flush c =>
      rw [mine, ChainCmd.chain, update_self]
      cases f c <;> rfl

/-- The rules in the hook follow the commands. -/
theorem subperm_of_own (hown : cmd.Own goto own hook) (hnot : own cmd.chain = false)
    (hchain : cmd.chain = hook) (h : (f.mine goto own hook).Subperm most)
    (hdoes : Does goto f cmd f') : (f'.mine goto own hook).Subperm (cmd.bound most) := by
  subst hchain
  cases hdoes with
  | newChainFails => exact h
  | appendFails => exact h
  | insertFails => exact List.Subperm.cons_right _ h
  | deleteChainFails _ => exact h
  | newChain _ => exact absurd (hnot.symm.trans hown) Bool.false_ne_true
  | append _ _ => exact absurd (hnot.symm.trans hown.1) Bool.false_ne_true
  | flush c => exact absurd (hnot.symm.trans hown) Bool.false_ne_true
  | deleteChain _ _ => exact absurd (hnot.symm.trans hown) Bool.false_ne_true
  | @insert c r rs hsome _ =>
      rw [mine, ChainCmd.chain, hsome, Option.getD_some] at h
      rw [mine, ChainCmd.chain, update_self, Option.getD_some,
        List.filter_cons_of_pos (p := fun r => sends goto own r) hown.2]
      exact (List.subperm_cons r).mpr h
  | delete c r =>
      have herase : ((f c).map (·.erase r)).getD [] = ((f c).getD []).erase r := by
        cases f c <;> rfl
      rw [mine, ChainCmd.chain] at h
      rw [mine, ChainCmd.chain, update_self, herase, ← List.erase_filter]
      exact h.erase r

theorem Kept.step (hhook : own hook = false) (hown : cmd.Own goto own hook)
    (h : f.Kept goto own hook most) (hdoes : Does goto f cmd f') :
    f'.Kept goto own hook (cmd.bound most) := by
  have hother : ∀ c, c ≠ cmd.chain → f'.mine goto own c = f.mine goto own c := fun c hc => by
    rw [mine, mine, does_of_ne hdoes hc]
  by_cases hchain : cmd.chain = hook
  · refine ⟨fun c hc => (hother c (hchain ▸ hc)).trans (h.elsewhere c hc), ?_⟩
    exact subperm_of_own hown (hchain ▸ hhook) hchain h.hook hdoes
  · have hbound : cmd.bound most = most := by
      cases cmd with
      | insert c r => exact absurd hown.1 hchain
      | delete c r => exact absurd hown.1 hchain
      | _ => rfl
    rw [hbound]
    refine ⟨?_, ?_⟩
    · intro c hc
      by_cases hsame : c = cmd.chain
      · rw [hsame]
        exact mine_of_own hown hchain (h.elsewhere _ hchain) hdoes
      · rw [hother c hsame]
        exact h.elsewhere c hc
    · rw [hother hook (Ne.symm hchain)]
      exact h.hook

theorem Kept.run (hhook : own hook = false) (hown : ∀ cmd ∈ cmds, cmd.Own goto own hook)
    (h : f.Kept goto own hook most) (hrun : Run (Does goto) f cmds f') :
    f'.Kept goto own hook (cmds.foldl (fun most cmd => cmd.bound most) most) := by
  induction hrun generalizing most with
  | nil _ => exact h
  | cons hfirst _ ih =>
      exact ih (fun cmd hcmd => hown cmd (List.mem_cons_of_mem _ hcmd))
        (h.step hhook (hown _ List.mem_cons_self) hfirst)

/-! ## Nothing is left -/

omit [DecidableEq ρ] in
/-- No rule sends to a chain of the program. -/
theorem Kept.not_used (h : f.Kept goto own hook []) {c : κ} (hc : own c = true) :
    ¬ f.Used goto c := by
  rintro ⟨c', rs, r, hrs, hr, hgoto⟩
  have hnone : f.mine goto own c' = [] := by
    by_cases hhook : c' = hook
    · rw [hhook]
      exact List.subperm_nil.mp h.hook
    · exact h.elsewhere c' hhook
  have hmem : r ∈ f.mine goto own c' := by
    rw [mine, hrs, Option.getD_some]
    exact List.mem_filter.mpr ⟨hr, by rw [sends, hgoto]; exact hc⟩
  rw [hnone] at hmem
  cases hmem

/-- Then a chain of the program goes when it is flushed and deleted. -/
theorem Kept.run_drop (hhook : own hook = false) (h : f.Kept goto own hook []) {c : κ}
    (hc : own c = true) (hrun : Run (Does goto) f [.flush c, .deleteChain c] f') : f' c = none := by
  cases hrun with
  | cons hflush hrun =>
      have hkept := h.step hhook (show ChainCmd.Own goto own hook (.flush c) from hc) hflush
      cases hflush
      cases hrun with
      | cons hdelete hrun =>
          cases hrun
          cases hdelete with
          | deleteChain _ _ => exact update_self _ _ _
          | deleteChainFails hfails =>
              rcases hfails with hsome | hused
              · rw [update_self] at hsome ⊢
                cases hfc : f c with
                | none => rfl
                | some rs => exact absurd (by rw [hfc]; rfl) hsome
              · exact absurd hused (hkept.not_used hc)

/-- A chain that there is not stays away. -/
theorem run_none (hrun : Run (Does goto) f cmds f') {c : κ} (hnone : f c = none)
    (hcmds : ∀ cmd ∈ cmds, cmd ≠ .newChain c) : f' c = none := by
  induction hrun with
  | nil _ => exact hnone
  | cons hfirst _ ih =>
      exact ih (does_none hfirst hnone (hcmds _ List.mem_cons_self))
        fun cmd hcmd => hcmds cmd (List.mem_cons_of_mem _ hcmd)

/-- The chains of the program go when each is flushed and deleted. -/
theorem Kept.run_drops (hhook : own hook = false) {cs : List κ} (hcs : ∀ c ∈ cs, own c = true)
    (h : f.Kept goto own hook [])
    (hrun : Run (Does goto) f (cs.flatMap fun c => [.flush c, .deleteChain c]) f') :
    f'.Kept goto own hook [] ∧ ∀ c ∈ cs, f' c = none := by
  induction cs generalizing f with
  | nil =>
      cases hrun
      exact ⟨h, fun _ hmem => absurd hmem List.not_mem_nil⟩
  | cons c cs ih =>
      obtain ⟨m, hdrop, hrest⟩ := Run.split hrun
      obtain ⟨hc, hcs⟩ := List.forall_mem_cons.mp hcs
      have hown : ∀ cmd ∈ [ChainCmd.flush c, .deleteChain c], cmd.Own goto own hook :=
        List.forall_mem_cons.mpr ⟨hc, List.forall_mem_singleton.mpr hc⟩
      obtain ⟨hkept, hnone⟩ := ih hcs (h.run hhook hown hdrop) hrest
      refine ⟨hkept, List.forall_mem_cons.mpr ⟨?_, hnone⟩⟩
      refine run_none hrest (h.run_drop hhook hc hdrop) ?_
      intro cmd hcmd
      obtain ⟨c', _, hmem⟩ := List.mem_flatMap.mp hcmd
      rintro rfl
      simp at hmem

omit [DecidableEq ρ] in
/-- The other chains are as the others have made them. -/
theorem Kept.eq_others_of (h : f.Kept goto own hook []) {c : κ} (hc : own c = false) :
    f c = f.others goto own c := by
  rw [others_self hc]
  cases hfc : f c with
  | none => rfl
  | some rs =>
      rw [Option.map_some, List.filter_eq_self.mpr]
      intro r hr
      rw [Bool.not_eq_true']
      cases hr' : sends goto own r with
      | false => rfl
      | true =>
          obtain ⟨c', hgoto, hown⟩ := (Option.any_eq_true _ _).mp hr'
          exact absurd ⟨c, rs, r, hfc, hr, hgoto⟩ (h.not_used hown)

omit [DecidableEq ρ] in
/-- Without its chains and the rules that send to them nothing of the program is left. -/
theorem Kept.eq_others (h : f.Kept goto own hook []) (hnone : ∀ c, own c = true → f c = none) :
    f = f.others goto own := by
  funext c
  cases hc : own c with
  | true => rw [others, if_pos hc, hnone c hc]
  | false => exact h.eq_others_of hc

/-- When its rules in the hook are deleted, and then its chains are, only what the others have in
the table is left. -/
theorem Kept.run_clean (hhook : own hook = false) {cs : List κ} (hcs : ∀ c, own c = true ↔ c ∈ cs)
    (h : f.Kept goto own hook most) (hown : ∀ cmd ∈ cmds, cmd.Own goto own hook)
    (hnil : cmds.foldl (fun most cmd => cmd.bound most) most = [])
    (hrun : Run (Does goto) f (cmds ++ cs.flatMap fun c => [.flush c, .deleteChain c]) f') :
    f' = f.others goto own := by
  obtain ⟨m, hdeletes, hdrops⟩ := hrun.split
  have hkept := h.run hhook hown hdeletes
  rw [hnil] at hkept
  obtain ⟨hlast, hnone⟩ := hkept.run_drops hhook (fun c => (hcs c).mpr) hdrops
  rw [hlast.eq_others fun c hc => hnone c ((hcs c).mp hc)]
  have hdropsOwn : ∀ cmd ∈ cs.flatMap fun c => [ChainCmd.flush c, .deleteChain c],
      cmd.Own goto own hook := by
    intro cmd hcmd
    obtain ⟨c, hc, hmem⟩ := List.mem_flatMap.mp hcmd
    have hc := (hcs c).mpr hc
    rcases List.mem_cons.mp hmem with rfl | hmem
    · exact hc
    · rw [List.mem_singleton.mp hmem]
      exact hc
  rw [others_of_run hdropsOwn hdrops, others_of_run hown hdeletes]

end Chains

/-! ## A tool that fails only where it must -/

/-- What a command makes of the rules of its chain. -/
def ChainCmd.write : ChainCmd κ ρ → Option (List ρ) → Option (List ρ)
  | newChain _, rs => some (rs.getD [])
  | append _ r, rs => rs.map (· ++ [r])
  | insert _ r, rs => rs.map (r :: ·)
  | delete _ r, rs => rs.map (·.erase r)
  | flush _, rs => rs.map fun _ => []
  | deleteChain _, rs => rs

/-- No chain is deleted, and each rule sends to a chain that the commands have made before. -/
def Chains.Leading (goto : ρ → Option κ) : List κ → List (ChainCmd κ ρ) → Bool
  | _, [] => true
  | made, .newChain c :: cmds => Leading goto (c :: made) cmds
  | made, .append _ r :: cmds => (goto r).all (made.contains ·) && Leading goto made cmds
  | made, .insert _ r :: cmds => (goto r).all (made.contains ·) && Leading goto made cmds
  | made, .delete _ _ :: cmds => Leading goto made cmds
  | made, .flush _ :: cmds => Leading goto made cmds
  | _, .deleteChain _ :: _ => false

namespace Chains

variable {goto : ρ → Option κ} {f : Chains κ ρ} {cmd : ChainCmd κ ρ} {cmds : List (ChainCmd κ ρ)}
  {made : List κ}

theorem run_does_exec (cmds : List (ChainCmd κ ρ)) (f : Chains κ ρ) :
    Run (Does goto) f cmds (cmds.foldl (ChainCmd.exec goto) f) := by
  induction cmds generalizing f with
  | nil => exact .nil f
  | cons cmd cmds ih => exact .cons (does_exec goto f cmd) (ih _)

theorem exec_of_ne {c : κ} (hc : c ≠ cmd.chain) : cmd.exec goto f c = f c :=
  does_of_ne (does_exec goto f cmd) hc

theorem exec_chain (hleads : ∀ r, cmd.added = some r → f.Leads goto r)
    (hdelete : ∀ c, cmd ≠ .deleteChain c) :
    cmd.exec goto f cmd.chain = cmd.write (f cmd.chain) := by
  cases cmd with
  | newChain c =>
      rw [ChainCmd.exec, ChainCmd.chain, ChainCmd.write]
      split
      · rename_i hnone
        rw [update_self, hnone]
        rfl
      · rename_i hsome
        obtain ⟨rs, hrs⟩ := Option.ne_none_iff_exists'.mp hsome
        rw [hrs]
        rfl
  | append c r =>
      rw [ChainCmd.exec, if_pos (hleads r rfl)]
      exact update_self _ _ _
  | insert c r =>
      rw [ChainCmd.exec, if_pos (hleads r rfl)]
      exact update_self _ _ _
  | delete c r => exact update_self _ _ _
  | flush c => exact update_self _ _ _
  | deleteChain c => exact absurd rfl (hdelete c)

omit [DecidableEq κ] in
theorem isSome_write {rs : Option (List ρ)} (h : rs.isSome = true) :
    (cmd.write rs).isSome = true := by
  cases cmd with
  | newChain c => rfl
  | deleteChain c => exact h
  | _ => exact Option.isSome_map.trans h

omit [DecidableEq κ] in
theorem write_appends (c : κ) (rs rs' : List ρ) :
    (rs'.map (ChainCmd.append c)).foldl (fun rs cmd => cmd.write rs) (some rs) =
      some (rs ++ rs') := by
  induction rs' generalizing rs with
  | nil => rw [List.append_nil]; rfl
  | cons r rs' ih =>
      rw [List.map_cons, List.foldl_cons]
      exact (ih (rs ++ [r])).trans (congrArg some (List.append_assoc rs [r] rs'))

omit [DecidableEq κ] in
theorem write_inserts (c : κ) (rs rs' : List ρ) :
    (rs'.reverse.map (ChainCmd.insert c)).foldl (fun rs cmd => cmd.write rs) (some rs) =
      some (rs' ++ rs) := by
  induction rs' with
  | nil => rfl
  | cons r rs' ih =>
      rw [List.reverse_cons, List.map_append, List.foldl_append, ih]
      rfl

omit [DecidableEq ρ] in
theorem leads_of_made (hmade : ∀ c ∈ made, (f c).isSome = true) {r : ρ}
    (h : (goto r).all (made.contains ·) = true) : f.Leads goto r := by
  intro c hc
  rw [hc, Option.all_some, List.contains_iff_mem] at h
  exact hmade c h

/-- Each chain is what the commands for it make of it. -/
theorem run_exec (hmade : ∀ c ∈ made, (f c).isSome = true) (h : Leading goto made cmds = true)
    (c : κ) : (cmds.foldl (ChainCmd.exec goto) f) c =
      (ChainCmd.about c cmds).foldl (fun rs cmd => cmd.write rs) (f c) := by
  induction cmds generalizing f made with
  | nil => rfl
  | cons cmd cmds ih =>
      have hstep : (∀ r, cmd.added = some r → f.Leads goto r) ∧ (∀ c, cmd ≠ .deleteChain c) ∧
          ∃ made', (∀ c ∈ made', c ∈ made ∨ cmd = .newChain c) ∧
            Leading goto made' cmds = true := by
        cases cmd with
        | newChain c =>
            refine ⟨by rintro _ ⟨⟩, by rintro _ ⟨⟩, c :: made, ?_, h⟩
            intro c' hc'
            rcases List.mem_cons.mp hc' with rfl | hmem
            · exact .inr rfl
            · exact .inl hmem
        | append c r =>
            obtain ⟨hr, hrest⟩ := Bool.and_eq_true_iff.mp h
            refine ⟨?_, by rintro _ ⟨⟩, made, fun _ => .inl, hrest⟩
            rintro _ ⟨⟩
            exact leads_of_made hmade hr
        | insert c r =>
            obtain ⟨hr, hrest⟩ := Bool.and_eq_true_iff.mp h
            refine ⟨?_, by rintro _ ⟨⟩, made, fun _ => .inl, hrest⟩
            rintro _ ⟨⟩
            exact leads_of_made hmade hr
        | delete c r => exact ⟨by rintro _ ⟨⟩, by rintro _ ⟨⟩, made, fun _ => .inl, h⟩
        | flush c => exact ⟨by rintro _ ⟨⟩, by rintro _ ⟨⟩, made, fun _ => .inl, h⟩
        | deleteChain c => exact absurd h Bool.false_ne_true
      obtain ⟨hleads, hdelete, made', hmade', hrest⟩ := hstep
      have hself := exec_chain hleads hdelete
      have hnext : ∀ c ∈ made', ((cmd.exec goto f) c).isSome = true := by
        intro c' hc'
        by_cases hchain : c' = cmd.chain
        · subst hchain
          rw [hself]
          rcases hmade' _ hc' with hmem | hnew
          · exact isSome_write (hmade _ hmem)
          · rw [hnew]
            rfl
        · rw [exec_of_ne hchain]
          rcases hmade' _ hc' with hmem | rfl
          · exact hmade _ hmem
          · exact absurd rfl hchain
      rw [List.foldl_cons, ih hnext hrest]
      by_cases hchain : cmd.chain = c
      · subst hchain
        rw [ChainCmd.about_cons_self, List.foldl_cons, hself]
      · rw [ChainCmd.about_cons_of_ne hchain, exec_of_ne (Ne.symm hchain)]

end Chains

end LproxyCv.Foundation
