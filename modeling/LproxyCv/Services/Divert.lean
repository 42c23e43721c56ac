import LproxyCv.Foundation.Traversal
import LproxyCv.Services.Host

set_option autoImplicit false

/-!
# Services: the traffic that is diverted

The rules of the service are there to have some packets delivered to it: those to the addresses
in its sets, or those to all addresses but the reserved ones, and those of its own sockets
(`diverted`).  For all others they should make no difference.

Where the rules are installed that is so (`Installed.treats`): a packet that is not diverted is
treated as by the rules of the other programs alone.  And they are installed whenever the service
has been configured, also when processes before it were killed among the same commands
(`Host.run_diverts`).
-/

namespace LproxyCv.Services

open LproxyCv.Foundation LproxyCv.Net

/-! ## What the rules do -/

/-- A packet, with all else that rules look at. -/
structure Packet (δ : Type) where
  proto : Proto
  dst : IpAddr
  /-- there is a socket for it -/
  socket : Bool
  mark : UInt32
  more : δ

/-- Change the bits of the mark that are in the mask. -/
def Packet.remark {δ : Type} (p : Packet δ) (mark mask : UInt32) : Packet δ :=
  { p with mark := (p.mark &&& ~~~mask) ^^^ mark }

/-- What becomes of a packet. -/
inductive Verdict (δ : Type) where
  | accept (p : Packet δ)
  /-- it is delivered to the socket there -/
  | tproxy (p : Packet δ) (onPort : UInt16) (onIp : IpAddr)
  | other (text : String) (p : Packet δ)

/-- What the rules depend on. -/
structure Filter (δ : Type) where
  /-- the addresses in the sets -/
  members : String → IpAddr → Bool
  /-- the tests of other programs -/
  asks : String → Packet δ → Bool
  /-- the targets of other programs -/
  does : String → Packet δ → Fate (Packet δ) (Verdict δ)

/-- The address as a number. -/
def ipv4Number (addr : Ipv4Addr) : Nat :=
  ((addr.a.toNat * 256 + addr.b.toNat) * 256 + addr.c.toNat) * 256 + addr.d.toNat

/-- The address begins with the bits. -/
def within (dst : IpAddr) (addr : Ipv4Addr) (len : Nat) : Bool :=
  match dst with
  | .v4 dst => ipv4Number dst >>> (32 - len) == ipv4Number addr >>> (32 - len)
  | .v6 _ => false

section

variable {δ : Type} (F : Filter δ)

def Cond.holds (cond : Cond) (p : Packet δ) : Bool :=
  match cond with
  | .matchSet name => F.members name p.dst
  | .proto named => p.proto = named
  | .dst addr len => within p.dst addr len
  | .socket => p.socket
  | .other text => F.asks text p

def Target.act (target : Target) (p : Packet δ) : Move String (Packet δ) (Verdict δ) :=
  match target with
  | .chain name => .jump name
  | .tproxy onPort onIp mark mask => .stop (.tproxy (p.remark mark mask) onPort onIp)
  | .setMark mark => .on { p with mark := mark }
  | .accept => .stop (.accept p)
  | .ret => .ret
  | .other text =>
      match F.does text p with
      | .passed p' => .on p'
      | .stopped v => .stop v

def Rule.act (r : Rule) (p : Packet δ) : Move String (Packet δ) (Verdict δ) :=
  if r.conds.all (·.holds F p) then r.target.act F p else .on p

/-- What passes all rules is accepted. -/
def verdict : Fate (Packet δ) (Verdict δ) → Verdict δ
  | .passed p => .accept p
  | .stopped v => v

/-- What becomes of a packet that comes in. -/
def Treats (f : Chains String Rule) (p : Packet δ) (v : Verdict δ) : Prop :=
  ∃ rs o, f "PREROUTING" = some rs ∧ Traverses f (Rule.act F) rs p o ∧ v = verdict o

/-! ## What they are for -/

/-- The address of the service. -/
def loopbackOf : Family → IpAddr
  | .v4 => loopback
  | .v6 => loopback6

/-- The packets that are meant for the service. -/
def wanted (workAsGlobal : Bool) (family : Family) (p : Packet δ) : Bool :=
  match workAsGlobal, family with
  | false, .v4 => F.members ipsetTable p.dst || F.members ipsetNethashTable p.dst
  | false, .v6 => F.members ipsetTable6 p.dst
  | true, .v4 => !reserved.any fun net => within p.dst net.1 net.2
  | true, .v6 => false

/-- The service has rules for the family. -/
def covers (workAsGlobal : Bool) (family : Family) : Bool :=
  match workAsGlobal, family with
  | true, .v6 => false
  | _, _ => true

/-- What should become of a packet because of the service, if anything. -/
def diverted (workAsGlobal : Bool) (family : Family) (p : Packet δ) : Option (Verdict δ) :=
  if covers workAsGlobal family then
    if p.socket then some (.accept { p with mark := 1 })
    else if wanted F workAsGlobal family p ∧ (p.proto = .tcp ∨ p.proto = .udp) then
      some (.tproxy (p.remark 1 1) localTproxyServerPort (loopbackOf family))
    else none
  else none

end

/-! ## Rules that are installed -/

/-- The rules that send to the chain for the service. -/
def senders (workAsGlobal : Bool) (family : Family) : List Rule :=
  match workAsGlobal, family with
  | false, .v4 => [setRule ipsetTable, setRule ipsetNethashTable]
  | false, .v6 => [setRule ipsetTable6]
  | true, _ => [globalRule]

/-- The rules in the hook. -/
def hookRules (workAsGlobal : Bool) (family : Family) : List Rule :=
  if covers workAsGlobal family then socketRule :: senders workAsGlobal family else []

/-- The rules at the front of the chain for the service. -/
def returns (workAsGlobal : Bool) : List Rule :=
  if workAsGlobal then reserved.map returnRule else []

/-- The rules that are behind them. -/
def tproxies (family : Family) : List Rule :=
  [tproxyRule .tcp (loopbackOf family), tproxyRule .udp (loopbackOf family)]

/-- A table with the rules of the service in front of those of the others. -/
structure Installed (workAsGlobal : Bool) (family : Family) (f others : Chains String Rule) :
    Prop where
  hook : ∃ rs, others "PREROUTING" = some rs ∧
    f "PREROUTING" = some (hookRules workAsGlobal family ++ rs)
  elsewhere : ∀ c, ownChain c = false → c ≠ "PREROUTING" → f c = others c
  service : covers workAsGlobal family = true →
    ∃ rs, f "LPROXY_TCP" = some (returns workAsGlobal ++ rs) ∧ (∀ r ∈ rs, r ∈ tproxies family) ∧
      ∀ r ∈ tproxies family, r ∈ rs
  divert : covers workAsGlobal family = true →
    ∃ rs, f "DIVERT" = some (markRule :: rs) ∧ (∀ r ∈ rs, r ∈ [markRule, acceptRule]) ∧
      acceptRule ∈ rs

section

variable {δ : Type} {F : Filter δ} {p : Packet δ} {c : String} {r : Rule}
  {o : Fate (Packet δ) (Verdict δ)} {workAsGlobal : Bool} {family : Family}
  {f others : Chains String Rule}

theorem goto_of_jump (r : Rule) (p : Packet δ) (c : String) (h : r.act F p = .jump c) :
    r.goto = some c := by
  rw [Rule.act] at h
  split at h
  · unfold Target.act at h
    unfold Rule.goto
    split at h
    · cases h
      simp [*]
    · cases h
    · cases h
    · cases h
    · cases h
    · split at h
      · cases h
      · cases h
  · cases h

/-- The packets of a socket are marked and accepted. -/
theorem Installed.traverses_divert (h : Installed workAsGlobal family f others)
    (hcovers : covers workAsGlobal family = true) (p : Packet δ) :
    ∃ body, f "DIVERT" = some body ∧
      Traverses f (Rule.act F) body p (.stopped (.accept { p with mark := 1 })) := by
  obtain ⟨rs, hrs, hall, haccept⟩ := h.divert hcovers
  refine ⟨markRule :: rs, hrs, ?_⟩
  refine .on rfl (traverses_stopped ?_ ⟨acceptRule, haccept, rfl⟩)
  intro r hr
  rcases List.mem_cons.mp (hall r hr) with rfl | hlast
  · exact .inl rfl
  · rw [List.mem_singleton.mp hlast]
    exact .inr rfl

theorem act_returnRule (net : Ipv4Addr × Nat) (p : Packet δ) :
    (returnRule net).act F p = if within p.dst net.1 net.2 then .ret else .on p := by
  simp [Rule.act, returnRule, Cond.holds, Target.act]

theorem act_tproxyRule (proto : Proto) (onIp : IpAddr) (p : Packet δ) :
    (tproxyRule proto onIp).act F p =
      if p.proto = proto then .stop (.tproxy (p.remark 1 1) localTproxyServerPort onIp)
      else .on p := by
  simp [Rule.act, tproxyRule, Cond.holds, Target.act]

/-- The packet goes to a reserved address, and these are not sent to the service. -/
def Spared (workAsGlobal : Bool) (p : Packet δ) : Prop :=
  workAsGlobal = true ∧ reserved.any (fun net => within p.dst net.1 net.2) = true

theorem Installed.traverses_service (h : Installed workAsGlobal family f others)
    (hcovers : covers workAsGlobal family = true) (p : Packet δ) :
    ∃ body, f "LPROXY_TCP" = some body ∧
      (Spared workAsGlobal p ∨ ¬ (p.proto = .tcp ∨ p.proto = .udp) →
        Traverses f (Rule.act F) body p (.passed p)) ∧
      (¬ Spared workAsGlobal p → p.proto = .tcp ∨ p.proto = .udp →
        Traverses f (Rule.act F) body p
          (.stopped (.tproxy (p.remark 1 1) localTproxyServerPort (loopbackOf family)))) := by
  obtain ⟨rs, hrs, hall, hthere⟩ := h.service hcovers
  refine ⟨returns workAsGlobal ++ rs, hrs, ?_⟩
  have hreturns : ∀ r ∈ returns workAsGlobal, r.act F p = .on p ∨ r.act F p = .ret := by
    intro r hr
    rw [returns] at hr
    split at hr
    · obtain ⟨net, _, rfl⟩ := List.mem_map.mp hr
      rw [act_returnRule]
      split
      · exact .inr rfl
      · exact .inl rfl
    · cases hr
  have hskip : ¬ Spared workAsGlobal p → ∀ r ∈ returns workAsGlobal, r.act F p = .on p := by
    intro hspared r hr
    rw [returns] at hr
    split at hr
    · rename_i hglobal
      obtain ⟨net, hnet, rfl⟩ := List.mem_map.mp hr
      rw [act_returnRule, if_neg]
      intro hwithin
      exact hspared ⟨hglobal, List.any_eq_true.mpr ⟨net, hnet, hwithin⟩⟩
    · cases hr
  have htproxy : ∀ r ∈ rs, ∃ proto ∈ [Proto.tcp, .udp],
      r = tproxyRule proto (loopbackOf family) := by
    intro r hr
    rcases List.mem_cons.mp (hall r hr) with rfl | hlast
    · exact ⟨.tcp, by simp, rfl⟩
    · exact ⟨.udp, by simp, List.mem_singleton.mp hlast⟩
  refine ⟨?_, ?_⟩
  · intro hpass
    by_cases hspared : Spared workAsGlobal p
    · obtain ⟨hglobal, hany⟩ := hspared
      obtain ⟨net, hnet, hwithin⟩ := List.any_eq_true.mp hany
      refine traverses_returned hreturns ⟨returnRule net, ?_, ?_⟩
      · rw [returns, if_pos hglobal]
        exact List.mem_map_of_mem hnet
      · rw [act_returnRule, if_pos hwithin]
    · have hproto := hpass.resolve_left hspared
      rw [traverses_skip (hskip hspared), ← List.append_nil rs, traverses_skip]
      · exact .nil p
      · intro r hr
        obtain ⟨proto, hmem, rfl⟩ := htproxy r hr
        rw [act_tproxyRule, if_neg]
        rintro rfl
        simp at hmem
        exact hproto hmem
  · intro hspared hproto
    rw [traverses_skip (hskip hspared)]
    refine traverses_stopped ?_ ⟨tproxyRule p.proto (loopbackOf family), hthere _ ?_, ?_⟩
    · intro r hr
      obtain ⟨proto, _, rfl⟩ := htproxy r hr
      rw [act_tproxyRule]
      split
      · exact .inr rfl
      · exact .inl rfl
    · rcases hproto with hproto | hproto
      · simp [hproto, tproxies]
      · simp [hproto, tproxies]
    · rw [act_tproxyRule, if_pos rfl]

theorem act_senders {r : Rule} (hr : r ∈ senders workAsGlobal family) (p : Packet δ) :
    r.act F p = .on p ∨ r.act F p = .jump "LPROXY_TCP" := by
  have hset : ∀ name, (setRule name).act F p = .on p ∨
      (setRule name).act F p = .jump "LPROXY_TCP" := by
    intro name
    rw [Rule.act]
    split
    · exact .inr rfl
    · exact .inl rfl
  unfold senders at hr
  split at hr
  · rcases List.mem_cons.mp hr with rfl | hlast
    · exact hset _
    · rw [List.mem_singleton.mp hlast]
      exact hset _
  · rw [List.mem_singleton.mp hr]
    exact hset _
  · rw [List.mem_singleton.mp hr]
    exact .inr rfl

theorem wanted_iff (hcovers : covers workAsGlobal family = true) (p : Packet δ) :
    wanted F workAsGlobal family p = true ↔
      (∃ r ∈ senders workAsGlobal family, r.act F p = .jump "LPROXY_TCP") ∧
        ¬ Spared workAsGlobal p := by
  have hset : ∀ name, (setRule name).act F p = .jump "LPROXY_TCP" ↔
      F.members name p.dst = true := by
    intro name
    simp [Rule.act, setRule, Cond.holds, Target.act]
  cases workAsGlobal with
  | false => cases family <;> simp [wanted, senders, hset, Spared]
  | true =>
      cases family with
      | v4 => simp [wanted, senders, Spared, Rule.act, globalRule, Target.act]
      | v6 => cases hcovers

/-- The rules of the service stop what is diverted, and nothing else. -/
theorem Installed.traverses_hook (h : Installed workAsGlobal family f others) (rs : List Rule)
    (p : Packet δ) (o : Fate (Packet δ) (Verdict δ)) :
    Traverses f (Rule.act F) (hookRules workAsGlobal family ++ rs) p o ↔
      (diverted F workAsGlobal family p).elim (Traverses f (Rule.act F) rs p o)
        (o = .stopped ·) := by
  unfold hookRules diverted
  split
  · rename_i hcovers
    rw [List.cons_append]
    split
    · rename_i hsocket
      obtain ⟨body, hbody, hin⟩ := h.traverses_divert (F := F) hcovers p
      have hact : socketRule.act F p = .jump "DIVERT" := by
        simp [Rule.act, socketRule, Cond.holds, Target.act, hsocket]
      exact traverses_into hact hbody hin
    · rename_i hsocket
      have hact : socketRule.act F p = .on p := by
        simp [Rule.act, socketRule, Cond.holds, hsocket]
      rw [traverses_on hact]
      have hsenders : ∀ r ∈ senders workAsGlobal family,
          r.act F p = .on p ∨ r.act F p = .jump "LPROXY_TCP" := fun _ hr => act_senders hr p
      obtain ⟨body, hbody, hpass, hstop⟩ := h.traverses_service (F := F) hcovers p
      split
      · rename_i hmeant
        obtain ⟨hjump, hspared⟩ := (wanted_iff hcovers p).mp hmeant.1
        exact traverses_caught hbody hsenders hjump (hstop hspared hmeant.2)
      · rename_i hmeant
        by_cases hpassed : Spared workAsGlobal p ∨ ¬ (p.proto = .tcp ∨ p.proto = .udp)
        · exact traverses_around hbody hsenders (hpass hpassed)
        · rw [not_or, not_not] at hpassed
          refine traverses_skip ?_
          intro r hr
          refine (hsenders r hr).resolve_right ?_
          intro hjump
          exact hmeant ⟨(wanted_iff hcovers p).mpr ⟨⟨r, hr, hjump⟩, hpassed.1⟩, hpassed.2⟩
  · rfl

theorem treats_iff {rs : List Rule} (hf : f "PREROUTING" = some rs) (v : Verdict δ) :
    Treats F f p v ↔ ∃ o, Traverses f (Rule.act F) rs p o ∧ v = verdict o := by
  refine ⟨?_, fun ⟨o, ho⟩ => ⟨rs, o, hf, ho⟩⟩
  rintro ⟨rs', o, hrs', ho⟩
  obtain rfl := Option.some.inj (hf.symm.trans hrs')
  exact ⟨o, ho⟩

/-- The chains that only rules of the service send to, or none. -/
def kept (c : String) : Bool := ownChain c || c = "PREROUTING"

/-- A packet that is not diverted is treated as by the rules of the others alone. -/
theorem Installed.treats (h : Installed workAsGlobal family f others)
    (hclosed : ∀ c rs, others c = some rs → ∀ r ∈ rs, sends Rule.goto kept r = false)
    (p : Packet δ) (v : Verdict δ) :
    Treats F f p v ↔
      (diverted F workAsGlobal family p).elim (Treats F others p v) (v = ·) := by
  obtain ⟨rs, hothers, hf⟩ := h.hook
  have hagree : ∀ c, kept c = false → f c = others c := by
    intro c hc
    rw [kept, Bool.or_eq_false_iff, decide_eq_false_iff_not] at hc
    exact h.elsewhere c hc.1 hc.2
  have hrest : ∀ o, Traverses f (Rule.act F) rs p o ↔ Traverses others (Rule.act F) rs p o :=
    fun o => Traverses.iff_of_agree goto_of_jump hagree (fun c rs _ => hclosed c rs)
      (hclosed _ rs hothers)
  have htreats : Treats F f p v ↔ ∃ o, (diverted F workAsGlobal family p).elim
      (Traverses others (Rule.act F) rs p o) (o = .stopped ·) ∧ v = verdict o := by
    rw [treats_iff hf]
    refine exists_congr fun o => and_congr_left' ?_
    rw [h.traverses_hook rs p o, hrest o]
  rw [htreats]
  cases diverted F workAsGlobal family p with
  | none => exact (treats_iff hothers v).symm
  | some w =>
      refine ⟨?_, fun hv => ⟨.stopped w, rfl, hv⟩⟩
      rintro ⟨o, rfl, hv⟩
      exact hv

end

/-! ## Rules that are put in -/

/-- The commands that put the rules of the service in. -/
def installs (workAsGlobal : Bool) (family : Family) : List (ChainCmd String Rule) :=
  .newChain "LPROXY_TCP" ::
    ((returns workAsGlobal ++ tproxies family).map (.append "LPROXY_TCP") ++
      ((senders workAsGlobal family).reverse.map (.insert "PREROUTING") ++
        [.newChain "DIVERT", .append "DIVERT" markRule, .append "DIVERT" acceptRule,
          .insert "PREROUTING" socketRule]))

theorem leading_installs (workAsGlobal : Bool) (family : Family) :
    Chains.Leading Rule.goto [] (installs workAsGlobal family) = true := by
  cases workAsGlobal <;> cases family <;> decide +kernel

/-- No packet is accepted before it is marked. -/
def MarksFirst (rs : List Rule) : Prop :=
  rs = [] ∨ ∃ rest, rs = markRule :: rest ∧ ∀ r ∈ rest, r ∈ [markRule, acceptRule]

/-- A table where the rules can be put in: what is left in the chains of the service does no
harm. -/
structure Cleared (workAsGlobal : Bool) (family : Family) (f others : Chains String Rule) :
    Prop where
  same : ∀ c, ownChain c = false → f c = others c
  hook : (f "PREROUTING").isSome = true
  service : if workAsGlobal then (f "LPROXY_TCP").getD [] = []
    else ∀ r ∈ (f "LPROXY_TCP").getD [], r ∈ tproxies family
  divert : MarksFirst ((f "DIVERT").getD [])

section

variable {f others : Chains String Rule} {workAsGlobal : Bool} {family : Family}

theorem about_service : ChainCmd.about "LPROXY_TCP" (installs workAsGlobal family) =
    .newChain "LPROXY_TCP" ::
      (returns workAsGlobal ++ tproxies family).map (.append "LPROXY_TCP") := by
  cases workAsGlobal <;> cases family <;> decide +kernel

theorem about_divert : ChainCmd.about "DIVERT" (installs workAsGlobal family) =
    [.newChain "DIVERT", .append "DIVERT" markRule, .append "DIVERT" acceptRule] := by
  cases workAsGlobal <;> cases family <;> decide +kernel

theorem about_hook : ChainCmd.about "PREROUTING" (installs workAsGlobal family) =
    (socketRule :: senders workAsGlobal family).reverse.map (.insert "PREROUTING") := by
  cases workAsGlobal <;> cases family <;> decide +kernel

theorem about_other {c : String} (hc : ownChain c = false) (hhook : c ≠ "PREROUTING") :
    ChainCmd.about c (installs workAsGlobal family) = [] := by
  have hall : ∀ cmd ∈ installs workAsGlobal family,
      cmd.chain = "PREROUTING" ∨ ownChain cmd.chain = true := by
    cases workAsGlobal <;> cases family <;> decide +kernel
  refine List.filter_eq_nil_iff.mpr ?_
  intro cmd hcmd hchain
  obtain rfl := of_decide_eq_true hchain
  rcases hall cmd hcmd with hh | hown
  · exact hhook hh
  · exact Bool.false_ne_true (hc.symm.trans hown)

theorem Cleared.installed (h : Cleared workAsGlobal family f others)
    (hcovers : covers workAsGlobal family = true) :
    Installed workAsGlobal family ((installs workAsGlobal family).foldl (ChainCmd.exec Rule.goto) f)
      others := by
  have hchain : ∀ c, ((installs workAsGlobal family).foldl (ChainCmd.exec Rule.goto) f) c =
      (ChainCmd.about c (installs workAsGlobal family)).foldl (fun rs cmd => cmd.write rs) (f c) :=
    Chains.run_exec (fun _ hc => absurd hc List.not_mem_nil)
      (leading_installs workAsGlobal family)
  refine ⟨?_, ?_, ?_, ?_⟩
  · obtain ⟨rs, hrs⟩ := Option.isSome_iff_exists.mp h.hook
    refine ⟨rs, (h.same _ (by decide)).symm.trans hrs, ?_⟩
    rw [hchain, about_hook, hrs, Chains.write_inserts, hookRules, if_pos hcovers]
  · intro c hown hhook
    rw [hchain, about_other hown hhook]
    exact h.same c hown
  · intro _
    have hservice := h.service
    refine ⟨(if workAsGlobal then [] else (f "LPROXY_TCP").getD []) ++ tproxies family, ?_, ?_, ?_⟩
    · rw [hchain, about_service, List.foldl_cons, ChainCmd.write, Chains.write_appends]
      cases workAsGlobal with
      | false => rfl
      | true =>
          rw [if_pos rfl] at hservice
          rw [hservice]
          rfl
    · intro r hr
      rcases List.mem_append.mp hr with hleft | hnew
      · cases workAsGlobal with
        | false => exact hservice r hleft
        | true => cases hleft
      · exact hnew
    · exact fun r hr => List.mem_append_right _ hr
  · intro _
    rw [hchain, about_divert]
    rcases h.divert with hnone | ⟨rs, hrs, hall⟩
    · refine ⟨[acceptRule], ?_, ?_, List.mem_singleton_self _⟩
      · simp [ChainCmd.write, hnone]
      · simp
    · refine ⟨rs ++ [markRule, acceptRule], ?_, ?_, by simp⟩
      · simp [ChainCmd.write, hrs]
      · intro r hr
        rcases List.mem_append.mp hr with hleft | hnew
        · exact hall r hleft
        · exact hnew

end

end LproxyCv.Services
