import LproxyCv.Services.Divert

set_option autoImplicit false

/-!
# Services: what configurations leave

When a process is killed, another one finds what its commands have left.  The service does not
look at that: it deletes rules that may not be there and makes chains that may be there already.
For IPv4 it does not even empty its chains, so that these grow with each configuration.

Still the rules are installed whenever the service has been configured, as long as all
configurations are of one kind, all traffic or that to the sets (`Host.run_diverts`).
-/

namespace LproxyCv.Services

open LproxyCv.Foundation LproxyCv.Net

/-- What there may be in a table after configurations of one kind, of which some were broken off. -/
structure Leftover (workAsGlobal : Bool) (family : Family) (f : Chains String Rule) : Prop where
  rules : f.Kept Rule.goto ownChain "PREROUTING" (hookRules workAsGlobal family)
  hook : (f "PREROUTING").isSome = true
  unused : ∀ c rs r, f c = some rs → r ∈ rs → r.goto ≠ some "PREROUTING"
  service : workAsGlobal = false → family = .v4 →
    ∀ r ∈ (f "LPROXY_TCP").getD [], r ∈ tproxies .v4
  divert : workAsGlobal = false → family = .v4 → MarksFirst ((f "DIVERT").getD [])

/-- The commands that take the rules out before they are put in. -/
def clears (workAsGlobal : Bool) (family : Family) : List (ChainCmd String Rule) :=
  match workAsGlobal, family with
  | false, .v4 => [.delete "PREROUTING" (setRule ipsetTable),
      .delete "PREROUTING" (setRule ipsetNethashTable), .delete "PREROUTING" socketRule]
  | false, .v6 => [.delete "PREROUTING" (setRule ipsetTable6), .delete "PREROUTING" socketRule] ++
      ["LPROXY_TCP", "DIVERT"].flatMap fun c => [.flush c, .deleteChain c]
  | true, .v4 => [.delete "PREROUTING" globalRule, .delete "PREROUTING" socketRule] ++
      ["DIVERT", "LPROXY_TCP"].flatMap fun c => [.flush c, .deleteChain c]
  | true, .v6 => []

theorem table_configSys (workAsGlobal : Bool) (family : Family) :
    (configSys workAsGlobal).filterMap (SysCmd.table family) =
      clears workAsGlobal family ++
        if covers workAsGlobal family then installs workAsGlobal family else [] := by
  cases workAsGlobal <;> cases family <;> decide +kernel

section

variable {workAsGlobal : Bool} {family : Family} {f f' : Chains String Rule}

theorem isSome_others (h : (f "PREROUTING").isSome = true) :
    (f.others Rule.goto ownChain "PREROUTING").isSome = true := by
  rw [Chains.others_self (by decide), Option.isSome_map]
  exact h

/-- Then the rules can be put in. -/
theorem Leftover.cleared (h : Leftover workAsGlobal family f)
    (hcovers : covers workAsGlobal family = true)
    (hrun : Run (Does Rule.goto) f (clears workAsGlobal family) f') :
    Cleared workAsGlobal family f' (f.others Rule.goto ownChain) := by
  have hclean : f' = f.others Rule.goto ownChain →
      Cleared workAsGlobal family f' (f.others Rule.goto ownChain) := by
    rintro rfl
    refine ⟨fun _ _ => rfl, isSome_others h.hook, ?_, ?_⟩
    · rw [Chains.others_own (by decide)]
      split
      · rfl
      · exact fun r hr => absurd hr List.not_mem_nil
    · rw [Chains.others_own (by decide)]
      exact .inl rfl
  cases workAsGlobal with
  | false =>
      cases family with
      | v4 =>
          have hown : ∀ cmd ∈ clears false .v4, cmd.Own Rule.goto ownChain "PREROUTING" := by
            decide +kernel
          have hkept := h.rules.run (by decide) hown hrun
          have hnil : (clears false .v4).foldl (fun most cmd => cmd.bound most)
              (hookRules false .v4) = [] := by decide +kernel
          rw [hnil] at hkept
          have hothers := Chains.others_of_run hown hrun
          have hsame : ∀ c, ownChain c = false → f' c = f.others Rule.goto ownChain c := by
            intro c hc
            rw [← hothers]
            exact hkept.eq_others_of hc
          have hkeeps : ∀ c, c ≠ "PREROUTING" → f' c = f c := by
            intro c hc
            refine Chains.run_of_ne hrun ?_
            have hall : ∀ cmd ∈ clears false .v4, cmd.chain = "PREROUTING" := by decide +kernel
            intro cmd hcmd
            rw [hall cmd hcmd]
            exact hc
          refine ⟨hsame, ?_, ?_, ?_⟩
          · rw [hsame _ (by decide)]
            exact isSome_others h.hook
          · rw [hkeeps _ (by decide)]
            exact h.service rfl rfl
          · rw [hkeeps _ (by decide)]
            exact h.divert rfl rfl
      | v6 =>
          refine hclean (h.rules.run_clean (by decide) ?_ (by decide +kernel) (by decide +kernel)
            hrun)
          intro c
          simp [ownChain]
  | true =>
      cases family with
      | v4 =>
          refine hclean (h.rules.run_clean (by decide) ?_ (by decide +kernel) (by decide +kernel)
            hrun)
          intro c
          simp [ownChain, or_comm]
      | v6 => cases hcovers

/-- The rules are installed when nothing hinders the commands. -/
theorem Leftover.installed (h : Leftover workAsGlobal family f) :
    Installed workAsGlobal family
      (((configSys workAsGlobal).filterMap (SysCmd.table family)).foldl
        (ChainCmd.exec Rule.goto) f) (f.others Rule.goto ownChain) := by
  rw [table_configSys, List.foldl_append]
  by_cases hcovers : covers workAsGlobal family = true
  · rw [if_pos hcovers]
    exact (h.cleared hcovers (Chains.run_does_exec _ _)).installed hcovers
  · rw [if_neg hcovers]
    have hclears : clears workAsGlobal family = [] := by
      cases workAsGlobal <;> cases family
      · exact absurd rfl hcovers
      · exact absurd rfl hcovers
      · exact absurd rfl hcovers
      · rfl
    have hrules := h.rules
    rw [hookRules, if_neg hcovers] at hrules
    rw [hclears, List.foldl_nil, List.foldl_nil]
    refine ⟨?_, fun c hc _ => hrules.eq_others_of hc, fun hc => absurd hc hcovers,
      fun hc => absurd hc hcovers⟩
    obtain ⟨rs, hrs⟩ := Option.isSome_iff_exists.mp h.hook
    refine ⟨rs, (hrules.eq_others_of (by decide)).symm.trans hrs, ?_⟩
    rw [hookRules, if_neg hcovers]
    exact hrs

end

/-! ## Commands that fail only where they must -/

/-- A command is done, or it is one for a rule that asks for a set. -/
def Partly (f : Chains String Rule) (cmd : ChainCmd String Rule) (f' : Chains String Rule) : Prop :=
  f' = cmd.exec Rule.goto f ∨
    f' = f ∧ ∃ r name, cmd.added = some r ∧ Cond.matchSet name ∈ r.conds

/-- The command makes or destroys a set. -/
def SysCmd.changesSets : SysCmd → Bool
  | .ipsetNew _ _ => true
  | .ipsetDestroy _ => true
  | _ => false

namespace Sys

variable {s : Sys} {family : Family}

open Classical in
theorem tables_exec (s : Sys) (cmd : SysCmd) (family : Family) :
    (s.exec cmd).tables family =
      (cmd.table family).elim (s.tables family) fun c =>
        if s.Ready c then c.exec Rule.goto (s.tables family) else s.tables family := by
  cases cmd with
  | iptables family' c =>
      rw [exec, SysCmd.table]
      by_cases hfamily : family = family'
      · subst hfamily
        rw [if_pos rfl, Option.elim_some]
        by_cases hready : s.Ready c
        · rw [if_pos hready, if_pos hready]
          exact Function.update_self family (c.exec Rule.goto (s.tables family)) s.tables
        · rw [if_neg hready, if_neg hready]
      · rw [if_neg hfamily]
        split
        · exact Function.update_of_ne hfamily _ _
        · rfl
  | ipsetDestroy name =>
      rw [exec]
      split
      · rfl
      · rfl
  | _ => rfl

theorem partly_exec (s : Sys) (family : Family) (cmd : SysCmd) :
    (∀ c, cmd.table family = some c →
      Partly (s.tables family) c ((s.exec cmd).tables family)) ∧
    (cmd.table family = none → (s.exec cmd).tables family = s.tables family) := by
  rw [tables_exec]
  refine ⟨?_, ?_⟩
  · intro c hc
    rw [hc, Option.elim_some]
    split
    · exact .inl rfl
    · rename_i hready
      refine .inr ⟨rfl, ?_⟩
      unfold Ready at hready
      push Not at hready
      obtain ⟨r, hr, name, hname, _⟩ := hready
      exact ⟨r, name, hr, hname⟩
  · intro hc
    rw [hc, Option.elim_none]

theorem run_partly (cmds : List SysCmd) (s : Sys) (family : Family) :
    Run Partly (s.tables family) (cmds.filterMap (SysCmd.table family))
      ((cmds.foldl Sys.exec s).tables family) := by
  have hrun : Run (fun s cmd s' => s' = Sys.exec s cmd) s cmds (cmds.foldl Sys.exec s) := by
    induction cmds generalizing s with
    | nil => exact .nil s
    | cons cmd cmds ih => exact .cons rfl (ih _)
  refine hrun.filterMap (fun s => s.tables family) (SysCmd.table family) ?_ ?_
  · rintro s cmd s' c rfl hc
    exact (partly_exec s family cmd).1 c hc
  · rintro s cmd s' rfl hc
    exact (partly_exec s family cmd).2 hc

theorem sets_exec {cmd : SysCmd} (hcmd : cmd.changesSets = false) : (s.exec cmd).sets = s.sets := by
  cases cmd with
  | iptables family c =>
      rw [exec]
      split
      · rfl
      · rfl
  | ipsetNew name type => exact absurd hcmd Bool.false_ne_true.symm
  | ipsetDestroy name => exact absurd hcmd Bool.false_ne_true.symm
  | _ => rfl

/-- Where the sets are there all commands for the tables are done. -/
theorem tables_foldl {cmds : List SysCmd} (hcmds : ∀ cmd ∈ cmds, cmd.changesSets = false)
    (hsets : ∀ family, ∀ r ∈ (cmds.filterMap (SysCmd.table family)).filterMap ChainCmd.added,
      ∀ name, .matchSet name ∈ r.conds → s.sets name = true) (family : Family) :
    (cmds.foldl Sys.exec s).tables family =
      (cmds.filterMap (SysCmd.table family)).foldl (ChainCmd.exec Rule.goto) (s.tables family) := by
  induction cmds generalizing s with
  | nil => rfl
  | cons cmd cmds ih =>
      obtain ⟨hcmd, hrest⟩ := List.forall_mem_cons.mp hcmds
      have hsame : (s.exec cmd).sets = s.sets := sets_exec hcmd
      have hnext := ih (s := s.exec cmd) hrest (by
        intro family' r hr name hname
        rw [hsame]
        exact hsets family' r
          (((List.sublist_cons_self cmd cmds).filterMap _).filterMap _ |>.subset hr) name hname)
      rw [List.foldl_cons, hnext, tables_exec]
      cases htable : cmd.table family with
      | none => rw [List.filterMap_cons_none htable, Option.elim_none]
      | some c =>
          have hready : s.Ready c := by
            intro r hr name hname
            refine hsets family r ?_ name hname
            rw [List.filterMap_cons_some htable]
            exact List.mem_filterMap.mpr ⟨c, List.mem_cons_self, hr⟩
          rw [List.filterMap_cons_some htable, Option.elim_some, if_pos hready, List.foldl_cons]

end Sys

/-! ## Commands that are broken off -/

/-- Commands for the tables that leave no more than configurations of the kind do, wherever they
are broken off. -/
structure Modest (workAsGlobal : Bool) (cmds : Family → List (ChainCmd String Rule)) : Prop where
  rules : ∀ family, ∀ front ∈ (cmds family).inits,
    (front.foldl (fun most cmd => cmd.bound most) (hookRules workAsGlobal family)).Subperm
      (hookRules workAsGlobal family)
  unused : ∀ family, ∀ r ∈ (cmds family).filterMap ChainCmd.added, r.goto ≠ some "PREROUTING"
  service : workAsGlobal = false →
    ∀ cmd ∈ cmds .v4, cmd.chain = "LPROXY_TCP" → ∀ r ∈ cmd.added, r ∈ tproxies .v4
  divert : workAsGlobal = false →
    ChainCmd.about "DIVERT" (cmds .v4) =
        [.newChain "DIVERT", .append "DIVERT" markRule, .append "DIVERT" acceptRule] ∨
      ∀ cmd ∈ cmds .v4, cmd.chain = "DIVERT" → cmd.added = none

theorem modest_configSys (workAsGlobal : Bool) :
    Modest workAsGlobal fun family => (configSys workAsGlobal).filterMap (SysCmd.table family) where
  rules := by
    intro family
    cases workAsGlobal <;> cases family <;> decide +kernel
  unused := by
    intro family
    cases workAsGlobal <;> cases family <;> decide +kernel
  service := by
    rintro rfl
    decide +kernel
  divert := by
    rintro rfl
    decide +kernel

theorem modest_restoreSys (workAsGlobal : Bool) (defaultDnsServer : String) :
    Modest workAsGlobal fun family =>
      (restoreSys defaultDnsServer).filterMap (SysCmd.table family) := by
  have hsame : (fun family => (restoreSys defaultDnsServer).filterMap (SysCmd.table family)) =
      fun family => (restoreSys "").filterMap (SysCmd.table family) := rfl
  rw [hsame]
  refine ⟨?_, ?_, ?_, ?_⟩
  · intro family
    cases workAsGlobal <;> cases family <;> decide +kernel
  · intro family
    cases family <;> decide +kernel
  · intro _
    decide +kernel
  · intro _
    decide +kernel

theorem modest_nil (workAsGlobal : Bool) : Modest workAsGlobal fun _ => [] where
  rules := by
    intro family front hfront
    rw [List.mem_singleton.mp hfront]
    exact .refl _
  unused := by
    intro family r hr
    cases hr
  service := by
    intro _ cmd hcmd
    cases hcmd
  divert := by
    intro _
    refine .inr ?_
    intro cmd hcmd
    cases hcmd

/-- The kind of the configuration that is made, if one is. -/
def ServiceWorld.configures (w : ServiceWorld) : ServiceEvent → Option Bool
  | .started _ true => w.svc.configSys
  | _ => none

theorem modest_commands {workAsGlobal : Bool} (w : ServiceWorld) (e : ServiceEvent)
    (hkind : ∀ kind, w.configures e = some kind → kind = workAsGlobal) :
    Modest workAsGlobal fun family => (w.commands e).filterMap (SysCmd.table family) := by
  unfold ServiceWorld.commands
  split
  · split
    · exact modest_nil workAsGlobal
    · have hsame : (fun family => (restoreSys w.svc.defaultDnsServer ++
          setUciDnsmasqToDefault w.svc.defaultDnsServer).filterMap (SysCmd.table family)) =
            fun family => (restoreSys w.svc.defaultDnsServer).filterMap (SysCmd.table family) := by
        funext family
        rw [List.filterMap_append]
        exact List.append_nil _
      rw [hsame]
      exact modest_restoreSys workAsGlobal _
    · exact modest_nil workAsGlobal
  · split
    · rename_i kind hcfg
      rw [hkind kind hcfg]
      exact modest_configSys workAsGlobal
    · exact modest_nil workAsGlobal
  · exact modest_restoreSys workAsGlobal _
  · exact modest_nil workAsGlobal
  · exact modest_nil workAsGlobal

/-! ### The chain of the sockets -/

/-- A command that is always done. -/
def Plain : ChainCmd String Rule → Bool
  | .newChain _ => true
  | .append _ r => r.goto = none ∧ r.conds = []
  | _ => false

theorem run_plain {c : String} {cmds : List (ChainCmd String Rule)} {f f' : Chains String Rule}
    (hplain : ∀ cmd ∈ ChainCmd.about c cmds, Plain cmd = true) (hrun : Run Partly f cmds f') :
    f' c = (ChainCmd.about c cmds).foldl (fun rs cmd => cmd.write rs) (f c) := by
  induction hrun with
  | nil _ => rfl
  | @cons f m f' cmd cmds hfirst _ ih =>
      by_cases hchain : cmd.chain = c
      · subst hchain
        rw [ChainCmd.about_cons_self] at hplain ⊢
        obtain ⟨hcmd, hcmds⟩ := List.forall_mem_cons.mp hplain
        rw [ih hcmds, List.foldl_cons]
        have hadded : ∀ r, cmd.added = some r → r.goto = none ∧ r.conds = [] := by
          intro r hr
          cases cmd with
          | append c r' =>
              cases hr
              exact of_decide_eq_true hcmd
          | insert c r' => exact absurd hcmd Bool.false_ne_true
          | _ => cases hr
        rcases hfirst with rfl | ⟨_, r, name, hr, hname⟩
        · rw [Chains.exec_chain]
          · intro r hr c hc
            cases (hadded r hr).1.symm.trans hc
          · rintro c rfl
            exact absurd hcmd Bool.false_ne_true
        · rw [(hadded r hr).2] at hname
          cases hname
      · rw [ChainCmd.about_cons_of_ne hchain] at hplain ⊢
        rw [ih hplain]
        rcases hfirst with rfl | ⟨rfl, _⟩
        · rw [Chains.exec_of_ne (Ne.symm hchain)]
        · rfl

theorem MarksFirst.append {rs : List Rule} (h : MarksFirst rs) :
    MarksFirst (rs ++ [markRule]) ∧ MarksFirst (rs ++ [markRule] ++ [acceptRule]) := by
  rcases h with rfl | ⟨rest, rfl, hall⟩
  · exact ⟨.inr ⟨[], rfl, by simp⟩, .inr ⟨[acceptRule], rfl, by simp⟩⟩
  · refine ⟨.inr ⟨rest ++ [markRule], rfl, ?_⟩, .inr ⟨rest ++ [markRule] ++ [acceptRule], ?_, ?_⟩⟩
    · intro r hr
      rcases List.mem_append.mp hr with hold | hnew
      · exact hall r hold
      · rw [List.mem_singleton.mp hnew]
        exact List.mem_cons_self
    · simp
    · intro r hr
      rw [List.append_assoc] at hr
      rcases List.mem_append.mp hr with hold | hnew
      · exact hall r hold
      · exact hnew

/-- Wherever the commands for it are broken off. -/
theorem MarksFirst.write {rs : Option (List Rule)} (h : MarksFirst (rs.getD []))
    {cmds : List (ChainCmd String Rule)}
    (hcmds : cmds <+: [.newChain "DIVERT", .append "DIVERT" markRule,
      .append "DIVERT" acceptRule]) :
    MarksFirst ((cmds.foldl (fun rs cmd => cmd.write rs) rs).getD []) := by
  rw [← List.mem_inits] at hcmds
  simp only [List.inits, List.map_cons, List.map_nil, List.mem_cons, List.not_mem_nil, or_false]
    at hcmds
  rcases hcmds with rfl | rfl | rfl | rfl
  · exact h
  · exact h
  · exact h.append.1
  · exact h.append.2

/-! ### Runs -/

section

variable {workAsGlobal : Bool} {family : Family} {s : Sys} {cmds : List SysCmd}

/-- What is left stays as it is, whenever commands are broken off. -/
theorem Leftover.run_take (h : Leftover workAsGlobal family (s.tables family))
    (horderly : Orderly cmds)
    (hmodest : Modest workAsGlobal fun family => cmds.filterMap (SysCmd.table family)) (n : Nat) :
    Leftover workAsGlobal family (((cmds.take n).foldl Sys.exec s).tables family) := by
  have hpartly := Sys.run_partly (cmds.take n) s family
  have hrun : Run (Does Rule.goto) (s.tables family)
      ((cmds.take n).filterMap (SysCmd.table family))
      (((cmds.take n).foldl Sys.exec s).tables family) :=
    Sys.run_tables (sure_documented.unhindered s (cmds.take n)).run_view family
  have hfront : (cmds.take n).filterMap (SysCmd.table family) <+:
      cmds.filterMap (SysCmd.table family) := (List.take_prefix n cmds).filterMap _
  have hown : ∀ cmd ∈ (cmds.take n).filterMap (SysCmd.table family),
      cmd.Own Rule.goto ownChain "PREROUTING" := fun cmd hcmd =>
    horderly.own family cmd (hfront.subset hcmd)
  have hadded : ∀ cmd ∈ (cmds.take n).filterMap (SysCmd.table family), ∀ r, cmd.added = some r →
      r.goto ≠ some "PREROUTING" := fun cmd hcmd r hr =>
    hmodest.unused family r (List.mem_filterMap.mpr ⟨cmd, hfront.subset hcmd, hr⟩)
  refine ⟨?_, ?_, ?_, ?_, ?_⟩
  · exact (h.rules.run (by decide) hown hrun).mono
      (hmodest.rules family _ ((List.mem_inits _ _).mpr hfront))
  · refine (hrun.restrict hown).preserves (I := fun f => (f "PREROUTING").isSome = true) ?_ h.hook
    rintro f cmd f' hf ⟨hdoes, hcmd⟩
    refine Chains.does_isSome hdoes ?_ hf
    rintro rfl
    exact absurd hcmd (by decide)
  · refine (hrun.restrict hadded).preserves
      (I := fun f => ∀ c rs r, f c = some rs → r ∈ rs → r.goto ≠ some "PREROUTING") ?_ h.unused
    rintro f cmd f' hf ⟨hdoes, hcmd⟩
    exact Chains.does_all hdoes hcmd hf
  · rintro rfl rfl
    have hservice : ∀ cmd ∈ (cmds.take n).filterMap (SysCmd.table .v4), ∀ r,
        cmd.chain = "LPROXY_TCP" → cmd.added = some r → r ∈ tproxies .v4 :=
      fun cmd hcmd r hchain hr => hmodest.service rfl cmd (hfront.subset hcmd) hchain r hr
    refine (hrun.restrict hservice).preserves
      (I := fun f => ∀ r ∈ (f "LPROXY_TCP").getD [], r ∈ tproxies .v4) ?_ (h.service rfl rfl)
    rintro f cmd f' hf ⟨hdoes, hcmd⟩
    exact Chains.does_rules hdoes hcmd hf
  · rintro rfl rfl
    have hdivert := h.divert rfl rfl
    rcases hmodest.divert rfl with habout | hnone
    · have hbroken : ChainCmd.about "DIVERT" ((cmds.take n).filterMap (SysCmd.table .v4)) <+:
          [.newChain "DIVERT", .append "DIVERT" markRule, .append "DIVERT" acceptRule] := by
        rw [← habout]
        exact hfront.filter _
      have hplain : ∀ cmd ∈ ChainCmd.about "DIVERT" ((cmds.take n).filterMap (SysCmd.table .v4)),
          Plain cmd = true := by
        have hall : ∀ cmd ∈ [ChainCmd.newChain "DIVERT", .append "DIVERT" markRule,
            .append "DIVERT" acceptRule], Plain cmd = true := by decide
        exact fun cmd hcmd => hall cmd (hbroken.subset hcmd)
      rw [run_plain hplain hpartly]
      exact hdivert.write hbroken
    · have hless : ∀ cmd ∈ (cmds.take n).filterMap (SysCmd.table .v4),
          (cmd.chain = "DIVERT" → cmd.added = none) ∧ cmd.Own Rule.goto ownChain "PREROUTING" :=
        fun cmd hcmd => ⟨hnone cmd (hfront.subset hcmd), hown cmd hcmd⟩
      refine (hrun.restrict hless).preserves
        (I := fun f => MarksFirst ((f "DIVERT").getD [])) ?_ hdivert
      rintro f cmd f' hf ⟨hdoes, hcmd, hcmdOwn⟩
      have hdelete : ∀ r, cmd ≠ .delete "DIVERT" r := by
        rintro r rfl
        exact absurd hcmdOwn.1 (by decide)
      rcases Chains.does_less hdoes hcmd hdelete with hsame | hempty
      · exact hsame ▸ hf
      · exact .inl hempty

theorem Leftover.apart {s' : Sys} (h : Leftover workAsGlobal family (s.tables family))
    (hapart : s.Apart s') : Leftover workAsGlobal family (s'.tables family) where
  rules := by
    refine ⟨?_, ?_⟩
    · intro c hc
      rw [hapart.mine]
      exact h.rules.elsewhere c hc
    · rw [hapart.mine]
      exact h.rules.hook
  hook := hapart.hook family
  unused := hapart.unused family
  service := by
    intro hkind hfamily
    rw [hapart.chains family _ (by decide)]
    exact h.service hkind hfamily
  divert := by
    intro hkind hfamily
    rw [hapart.chains family _ (by decide)]
    exact h.divert hkind hfamily

end

/-- A system that has nothing of the service. -/
structure Sys.Clean (s : Sys) : Prop where
  tables : s.tables = s.others
  hook : ∀ family, (s.tables family "PREROUTING").isSome = true
  unused : ∀ family c rs r, s.tables family c = some rs → r ∈ rs → r.goto ≠ some "PREROUTING"

theorem Sys.Clean.leftover {s : Sys} (h : s.Clean) (workAsGlobal : Bool) (family : Family) :
    Leftover workAsGlobal family (s.tables family) := by
  have hown : ∀ c, ownChain c = true → s.tables family c = none := by
    intro c hc
    rw [h.tables]
    exact Chains.others_own hc
  have hmine : ∀ c, (s.tables family).mine Rule.goto ownChain c = [] := by
    intro c
    rw [Chains.mine, List.filter_eq_nil_iff]
    intro r hr hsends
    cases hrs : s.tables family c with
    | none =>
        rw [hrs] at hr
        cases hr
    | some rs =>
        rw [hrs] at hr
        rw [h.tables] at hrs
        exact Bool.false_ne_true ((Chains.others_free hrs r hr).symm.trans hsends)
  refine ⟨⟨fun c _ => hmine c, ?_⟩, h.hook family, h.unused family, ?_, ?_⟩
  · rw [hmine]
    exact List.nil_subperm
  · intro _ _ r hr
    rw [hown _ (by decide)] at hr
    cases hr
  · intro _ _
    rw [hown _ (by decide)]
    exact .inl rfl

/-- The set that a packet must go to. -/
def Cond.set : Cond → Option String
  | .matchSet name => some name
  | _ => none

/-- All traffic can be diverted without sets. -/
theorem sets_configSys (workAsGlobal : Bool) (family : Family) {r : Rule}
    (hr : r ∈ ((configSys workAsGlobal).filterMap (SysCmd.table family)).filterMap ChainCmd.added)
    {name : String} (hname : .matchSet name ∈ r.conds) :
    workAsGlobal = false ∧ name ∈ ownSets := by
  have hall : ∀ r ∈ ((configSys workAsGlobal).filterMap
      (SysCmd.table family)).filterMap ChainCmd.added,
      ∀ cond ∈ r.conds, ∀ name ∈ cond.set, workAsGlobal = false ∧ name ∈ ownSets := by
    cases workAsGlobal <;> cases family <;> decide +kernel
  exact hall r hr _ hname name rfl

theorem changesSets_configSys (workAsGlobal : Bool) :
    ∀ cmd ∈ configSys workAsGlobal, cmd.changesSets = false := by
  cases workAsGlobal <;> decide +kernel

/-- The rules of the others send to none of the chains of the service, nor to the hook. -/
theorem Leftover.closed {workAsGlobal : Bool} {family : Family} {f : Chains String Rule}
    (h : Leftover workAsGlobal family f) (c : String) (rs : List Rule)
    (hrs : f.others Rule.goto ownChain c = some rs) :
    ∀ r ∈ rs, sends Rule.goto kept r = false := by
  intro r hr
  have hfree := Chains.others_free hrs r hr
  have hhook : r.goto ≠ some "PREROUTING" := by
    cases hc : ownChain c with
    | true =>
        rw [Chains.others_own hc] at hrs
        cases hrs
    | false =>
        rw [Chains.others_self hc] at hrs
        obtain ⟨rs', hrs', rfl⟩ := Option.map_eq_some_iff.mp hrs
        exact h.unused c rs' r hrs' (List.mem_filter.mp hr).1
  rw [sends] at hfree ⊢
  cases hgoto : r.goto with
  | none => rfl
  | some c' =>
      rw [hgoto] at hfree hhook
      rw [Option.any_some, kept, Bool.or_eq_false_iff, decide_eq_false_iff_not]
      exact ⟨hfree, fun hc => hhook (congrArg some hc)⟩

/-! ## The service on its system -/

namespace Host

variable {M δ : Type} {env : Env} {T : Tools M} {h₀ h h' : Host M} {workAsGlobal : Bool}

/-- The kind of the configuration that is made, also when it is broken off. -/
def configures (h : Host M) : HostEvent → Option Bool
  | .service e => h.world.configures e
  | .killed e _ _ => h.world.configures e
  | .others => none

/-- Steps that make configurations of one kind only. -/
abbrev StepOf (env : Env) (T : Tools M) (workAsGlobal : Bool) :
    Host M → HostEvent → Host M → Prop :=
  Guarded (fun h e => ∀ kind, h.configures e = some kind → kind = workAsGlobal) (Step env T)

/-- Both tables have only what configurations of the kind leave. -/
def Bounded (T : Tools M) (workAsGlobal : Bool) (h : Host M) : Prop :=
  ∀ family, Leftover workAsGlobal family ((T.view h.system).tables family)

theorem Bounded.run_take (hsure : T.Sure) (hbounded : h.Bounded T workAsGlobal) {e : ServiceEvent}
    (hkind : ∀ kind, h.world.configures e = some kind → kind = workAsGlobal) (n : Nat)
    (w : ServiceWorld) :
    Bounded T workAsGlobal ⟨w, T.run h.system ((h.world.commands e).take n), h.others⟩ := by
  intro family
  show Leftover workAsGlobal family ((T.view (T.run h.system _)).tables family)
  rw [hsure.run]
  exact (hbounded family).run_take (orderly_commands h.world e) (modest_commands h.world e hkind) n

theorem Bounded.step (hsure : T.Sure) (hbounded : h.Bounded T workAsGlobal) {e : HostEvent}
    (hstep : StepOf env T workAsGlobal h e h') : h'.Bounded T workAsGlobal := by
  obtain ⟨hkind, hstep⟩ := hstep
  cases hstep with
  | @service e w' _ =>
      have hall := hbounded.run_take hsure hkind (h.world.commands e).length w'
      rwa [List.take_length] at hall
  | killed n hardcoreDns _ => exact hbounded.run_take hsure hkind n (.init hardcoreDns)
  | others hapart => exact fun family => (hbounded family).apart hapart

/-- After a stop there is nothing of the service, so that the next configurations may be of the
other kind. -/
theorem Bounded.clean_of_stop (hsure : T.Sure) (hkept : h.Kept T)
    (hbounded : h.Bounded T workAsGlobal) (hstop : Step env T h (.service .stop) h') :
    (T.view h'.system).Clean := by
  have hafter : h'.Bounded T workAsGlobal := by
    refine hbounded.step hsure ⟨?_, hstop⟩
    intro kind hkind
    cases hkind
  have hkept' := hkept.step (unhindered_of_sure hsure h _) hstop
  refine ⟨?_, fun family => (hafter family).hook, fun family => (hafter family).unused⟩
  cases hstop with
  | service _ =>
      obtain ⟨htables, _⟩ := hkept.tidy.run_restore
        (hsure.unhindered h.system (restoreSys h.world.svc.defaultDnsServer)).run_view
      exact (funext htables).trans (hkept.others.symm.trans hkept'.others)

theorem bounded_of_run (hsure : T.Sure) (hclean : (T.view h₀.system).Clean) {es : List HostEvent}
    (hrun : Run (StepOf env T workAsGlobal) h₀ es h) : h.Bounded T workAsGlobal :=
  hrun.preserves (I := Bounded T workAsGlobal) (fun _ _ _ hb hstep => hb.step hsure hstep)
    fun family => hclean.leftover workAsGlobal family

/-- The rules are installed when the service is configured. -/
theorem Bounded.installed (hsure : T.Sure) (hbounded : h.Bounded T workAsGlobal) {task : Starting}
    (hstarted : Step env T h (.service (.started task true)) h')
    (hconfigured : h.world.svc.configSys = some workAsGlobal)
    (hsets : workAsGlobal = false → ∀ name ∈ ownSets, (T.view h.system).sets name = true)
    (family : Family) :
    Installed workAsGlobal family ((T.view h'.system).tables family)
      ((T.view h.system).others family) := by
  have htables : (T.view h'.system).tables family =
      ((configSys workAsGlobal).filterMap (SysCmd.table family)).foldl (ChainCmd.exec Rule.goto)
        ((T.view h.system).tables family) := by
    cases hstarted with
    | service _ =>
        have hcommands : h.world.commands (.started task true) = configSys workAsGlobal := by
          rw [ServiceWorld.commands, hconfigured]
        show (T.view (T.run h.system (h.world.commands (.started task true)))).tables family = _
        rw [hcommands, hsure.run]
        refine Sys.tables_foldl (changesSets_configSys workAsGlobal) ?_ family
        intro family r hr name hname
        obtain ⟨hkind, hown⟩ := sets_configSys workAsGlobal family hr hname
        exact hsets hkind name hown
  rw [htables]
  exact (hbounded family).installed

/-- From a system that has nothing of the service on, with tools that fail only where they must:
whenever the service has been configured, and the sets that it asks for are there, and all
configurations until then, also those that were broken off, were of the same kind, the packets that
are meant for the service are delivered to it, and all others are treated as by the rules of the
other programs alone.  A configuration for all traffic means none of IPv6. -/
theorem run_diverts (hsure : T.Sure) (hclean : (T.view h₀.system).Clean) {es : List HostEvent}
    (hrun : Run (StepOf env T workAsGlobal) h₀ es h) {task : Starting}
    (hstarted : Step env T h (.service (.started task true)) h')
    (hconfigured : h.world.svc.configSys = some workAsGlobal)
    (hsets : workAsGlobal = false → ∀ name ∈ ownSets, (T.view h.system).sets name = true)
    (F : Filter δ) (family : Family) (p : Packet δ) (v : Verdict δ) :
    Treats F ((T.view h'.system).tables family) p v ↔
      (diverted F workAsGlobal family p).elim
        (Treats F ((T.view h.system).others family) p v) (v = ·) := by
  have hbounded := bounded_of_run hsure hclean hrun
  exact (hbounded.installed hsure hstarted hconfigured hsets family).treats
    (hbounded family).closed p v

/-! ### A run -/

variable (workAsGlobal) in
/-- What happens before the service is configured is in every such run. -/
theorem run_stepOf {w w' : ServiceWorld} {es : List ServiceEvent}
    (hrun : Run (ServiceWorld.Step env) w es w')
    (hes : ∀ e ∈ es, ∀ w : ServiceWorld, w.configures e = none) (m : M)
    (others : Family → Chains String Rule) :
    ∃ m', Run (StepOf env T workAsGlobal) ⟨w, m, others⟩ (es.map .service) ⟨w', m', others⟩ := by
  obtain ⟨m', hhost⟩ := run_lift (T := T) hrun m others
  have hall : ∀ e ∈ es.map HostEvent.service, ∀ h : Host M, h.configures e = none := by
    intro e he h
    obtain ⟨e', he', rfl⟩ := List.mem_map.mp he
    exact hes e' he' h.world
  refine ⟨m', (hhost.restrict hall).mono ?_⟩
  rintro h e h' ⟨hstep, hnone⟩
  refine ⟨?_, hstep⟩
  intro kind hkind
  cases (hnone h).symm.trans hkind

/-- When the service is about to have its sub-services started, its sets are made. -/
theorem made_of_instruction (hsure : T.Sure) (hstep : Step env T h (.service .instruction) h')
    (hnext : h.world.queue.head? = some .startSubServices) :
    ∀ name ∈ ownSets, (T.view h'.system).sets name = true := by
  cases hstep with
  | service _ =>
      have hcommands : h.world.commands .instruction = setIpset ++ setUciDnsmasqToMe := by
        rw [ServiceWorld.commands, hnext]
      show ∀ name ∈ ownSets,
        (T.view (T.run h.system (h.world.commands .instruction))).sets name = true
      rw [hsure.run, hcommands]
      simp [ownSets, setIpset, setUciDnsmasqToMe, Sys.exec, Function.update, ipsetTable,
        ipsetTable6, ipsetNethashTable]

/-- The service has its configuration, makes the sets, and is configured. -/
def begun : Option (ServiceWorld × ServiceWorld × Starting × ServiceWorld) := do
  let w ← (first.take 3).foldlM
    (attempt ServiceWorld.Enabled (ServiceWorld.handle ServiceWorld.machine)) (.init "")
  let made ← attempt ServiceWorld.Enabled (ServiceWorld.handle ServiceWorld.machine) w .instruction
  let task ← made.starting.head?
  let running ← attempt ServiceWorld.Enabled (ServiceWorld.handle ServiceWorld.machine) made
    (.started task true)
  some (w, made, task, running)

theorem clean_untouched : untouched.Clean where
  tables := by
    funext family c
    rw [Sys.others, untouched_tables]
    split
    · rename_i hc
      subst hc
      rfl
    · rename_i hc
      rw [Chains.others, untouched_tables, if_neg hc]
      split
      · rfl
      · rfl
  hook := fun _ => rfl
  unused := by
    intro family c rs r hrs hr
    rw [untouched_tables] at hrs
    split at hrs
    · cases hrs
      rw [List.mem_singleton.mp hr]
      decide
    · cases hrs

/-- Packets of TCP that nothing is known about. -/
def connection (dst : Ipv4Addr) : Packet Unit := ⟨.tcp, .v4 dst, false, 0, ()⟩

/-- One address is in a set of the service, and no other rule asks for such a packet. -/
def listedFilter : Filter Unit :=
  ⟨fun name ip => name = ipsetTable ∧ ip = .v4 ⟨8, 8, 8, 8⟩, fun _ _ => false,
    fun _ p => .passed p⟩

/-- A process was killed in the middle of its commands, and the next one does all of them. -/
theorem run_diverts_killed : ∃ es h h' task,
    Run (StepOf ServiceWorld.machine Tools.documented false)
      ⟨.init "", untouched, untouched.others⟩ es h ∧
    .killed (.started task true) 12 "" ∈ es ∧
    Step ServiceWorld.machine Tools.documented h (.service (.started task true)) h' ∧
    Treats listedFilter (h'.system.tables .v4) (connection ⟨8, 8, 8, 8⟩)
      (.tproxy { connection ⟨8, 8, 8, 8⟩ with mark := 1 } 5000 loopback) ∧
    ∀ v, Treats listedFilter (h'.system.tables .v4) (connection ⟨9, 9, 9, 9⟩) v ↔
      Treats listedFilter (h.system.others .v4) (connection ⟨9, 9, 9, 9⟩) v := by
  have hexec : begun.map (fun r => (r.1.queue.head?, r.2.1.svc.configSys)) =
      some (some .startSubServices, some false) := by decide +kernel
  obtain ⟨⟨w, made, task, running⟩, hbegun, hfacts⟩ := Option.map_eq_some_iff.mp hexec
  obtain ⟨hnext, hkind⟩ := Prod.mk.inj hfacts
  simp only [begun, Option.bind_eq_bind, Option.bind_eq_some_iff, Option.some.injEq,
    Prod.mk.injEq] at hbegun
  obtain ⟨w, hfirst, made, hmade, task, _, running, hrunning, rfl, rfl, rfl, rfl⟩ := hbegun
  have hfirstRun := ServiceWorld.run_of_attempts hfirst
  have hmadeStep := ServiceWorld.step_of_attempt hmade
  have hstep := ServiceWorld.step_of_attempt hrunning
  have hnone : ∀ e ∈ first.take 3, ∀ w : ServiceWorld, w.configures e = none := by
    simp [first, ServiceWorld.restarted, ServiceWorld.configures]
  -- a process comes to its configuration, and is killed there
  have hmake : ∀ m, StepOf ServiceWorld.machine Tools.documented false
      ⟨w, m, untouched.others⟩ (.service .instruction)
      ⟨made, Tools.documented.run m (w.commands .instruction), untouched.others⟩ := by
    refine fun m => ⟨?_, .service hmadeStep⟩
    rintro kind ⟨⟩
  obtain ⟨m, hrun⟩ := run_stepOf (T := Tools.documented) false hfirstRun hnone untouched
    untouched.others
  let broken := Tools.documented.run (Tools.documented.run m (w.commands .instruction))
    ((made.commands (.started task true)).take 12)
  have hkilled : StepOf ServiceWorld.machine Tools.documented false
      ⟨made, Tools.documented.run m (w.commands .instruction), untouched.others⟩
      (.killed (.started task true) 12 "") ⟨.init "", broken, untouched.others⟩ := by
    refine ⟨?_, .killed 12 "" hstep.enabled⟩
    intro kind hkind'
    exact Option.some.inj (hkind'.symm.trans hkind)
  -- the next one comes there too
  obtain ⟨m', hrun'⟩ := run_stepOf (T := Tools.documented) false hfirstRun hnone broken
    untouched.others
  have hall := (hrun.append (.cons (hmake m) (.cons hkilled hrun'))).append
    (.cons (hmake m') (.nil _))
  have hsets := made_of_instruction sure_documented (hmake m').2 hnext
  have hlast : Step ServiceWorld.machine Tools.documented
      ⟨made, Tools.documented.run m' (w.commands .instruction), untouched.others⟩
      (.service (.started task true)) _ := .service hstep
  let start : Host Sys := ⟨.init "", untouched, untouched.others⟩
  have hclean : (Tools.documented.view start.system).Clean := clean_untouched
  have htreats := fun p v => run_diverts sure_documented hclean hall hlast hkind
    (fun _ => hsets) listedFilter .v4 p v
  refine ⟨_, _, _, task, hall, by simp, hlast, ?_, fun v => htreats (connection ⟨9, 9, 9, 9⟩) v⟩
  exact (htreats (connection ⟨8, 8, 8, 8⟩) _).mpr rfl

end Host

end LproxyCv.Services
