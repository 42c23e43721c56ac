import LproxyCv.Foundation.Tables
import LproxyCv.Services.ServiceWorld
import Mathlib.Data.List.Infix

set_option autoImplicit false

/-!
# Services: the rules of the system

The service has traffic sent to itself by chains and rules in the mangle tables, by sets of
addresses, and by a route and a rule for marked packets; `config_sys` makes them and `restore_sys`
takes them back, each by commands of which some may fail.  Other programs change the tables too.

A process can be killed between any two commands, and another one is started; none of them looks
at what there is.  Still there is never more than one of each rule that has to go
(`Sys.Tidy`), so that after a stop the tables are what the others have made of them
(`Sys.Tidy.run_restore`).
-/

namespace LproxyCv.Services

open LproxyCv.Foundation LproxyCv.Net

/-! ## The tools of the system -/

/-- The protocol of a table. -/
inductive Family where
  | v4
  | v6
  deriving DecidableEq

inductive Proto where
  | tcp
  | udp
  | other (number : UInt8)
  deriving DecidableEq

/-- What a rule asks of a packet. -/
inductive Cond where
  /-- the destination is in the set -/
  | matchSet (name : String)
  | proto (proto : Proto)
  /-- the destination has these leading bits -/
  | dst (addr : Ipv4Addr) (len : Nat)
  /-- there is a socket for the packet -/
  | socket
  | other (text : String)
  deriving DecidableEq

/-- What a rule does with a packet. -/
inductive Target where
  | chain (name : String)
  | tproxy (onPort : UInt16) (onIp : IpAddr) (mark mask : UInt32)
  | setMark (mark : UInt32)
  | accept
  | ret
  | other (text : String)
  deriving DecidableEq

/-- A rule of a mangle table. -/
structure Rule where
  conds : List Cond
  target : Target
  deriving DecidableEq

/-- The chain that a rule sends to. -/
def Rule.goto (r : Rule) : Option String :=
  match r.target with
  | .chain name => some name
  | _ => none

/-- What the tools show of a system. -/
structure Sys where
  /-- the mangle tables -/
  tables : Family → Chains String Rule
  /-- the sets that there are -/
  sets : String → Bool
  /-- how many there are of each route and rule -/
  entries : Family → String → Nat
  /-- where the queries of dnsmasq go -/
  servers : List String
  noresolv : Bool

/-- A command. -/
inductive SysCmd where
  | iptables (family : Family) (cmd : ChainCmd String Rule)
  | ipsetNew (name type : String)
  | ipsetFlush (name : String)
  | ipsetDestroy (name : String)
  | ipAdd (family : Family) (entry : String)
  | ipDel (family : Family) (entry : String)
  | uciDeleteServer
  | uciAddServer (server : String)
  | uciSetNoresolv
  | uciCommit
  | dnsmasqRestart
  deriving DecidableEq

/-- Some rule asks for the set. -/
def Sys.Refers (s : Sys) (name : String) : Prop :=
  ∃ family c rs r, s.tables family c = some rs ∧ r ∈ rs ∧ .matchSet name ∈ r.conds

/-- The sets that the command asks for are there. -/
def Sys.Ready (s : Sys) (cmd : ChainCmd String Rule) : Prop :=
  ∀ r, cmd.added = some r → ∀ name, .matchSet name ∈ r.conds → s.sets name = true

def Sys.setEntry (s : Sys) (family : Family) (entry : String) (count : Nat) : Sys :=
  { s with entries := fun family' entry' =>
      if family' = family ∧ entry' = entry then count else s.entries family' entry' }

open Function in
/-- What a command may do, as it is documented, when nobody else holds the lock of the tables. -/
inductive SysDoes (s : Sys) : SysCmd → Sys → Prop where
  | iptables {family : Family} {cmd : ChainCmd String Rule} {table : Chains String Rule} :
      s.Ready cmd → Does Rule.goto (s.tables family) cmd table →
      SysDoes s (.iptables family cmd) { s with tables := update s.tables family table }
  | iptablesFails {family : Family} {cmd : ChainCmd String Rule} : ¬ s.Ready cmd →
      SysDoes s (.iptables family cmd) s
  | ipsetNew (name type : String) :
      SysDoes s (.ipsetNew name type) { s with sets := update s.sets name true }
  | ipsetNewFails (name type : String) : SysDoes s (.ipsetNew name type) s
  | ipsetFlush (name : String) : SysDoes s (.ipsetFlush name) s
  | ipsetDestroy {name : String} : ¬ s.Refers name →
      SysDoes s (.ipsetDestroy name) { s with sets := update s.sets name false }
  | ipsetDestroyFails {name : String} : s.Refers name → SysDoes s (.ipsetDestroy name) s
  | ipAdd (family : Family) (entry : String) :
      SysDoes s (.ipAdd family entry) (s.setEntry family entry (s.entries family entry + 1))
  | ipAddFails (family : Family) (entry : String) : SysDoes s (.ipAdd family entry) s
  | ipDel (family : Family) (entry : String) :
      SysDoes s (.ipDel family entry) (s.setEntry family entry (s.entries family entry - 1))
  | uciDeleteServer : SysDoes s .uciDeleteServer { s with servers := [] }
  | uciAddServer (server : String) :
      SysDoes s (.uciAddServer server) { s with servers := s.servers ++ [server] }
  | uciSetNoresolv : SysDoes s .uciSetNoresolv { s with noresolv := true }
  | uciCommit : SysDoes s .uciCommit s
  | dnsmasqRestart : SysDoes s .dnsmasqRestart s

/-- What a command may do at any time; it does not wait for the lock. -/
inductive SysMay (s : Sys) : SysCmd → Sys → Prop where
  | does {cmd : SysCmd} {s' : Sys} : SysDoes s cmd s' → SysMay s cmd s'
  | locked (family : Family) (cmd : ChainCmd String Rule) : SysMay s (.iptables family cmd) s

/-- The tools of a system of type `M`. -/
structure Tools (M : Type) where
  view : M → Sys
  exec : M → SysCmd → M
  may : ∀ m cmd, SysMay (view m) cmd (view (exec m cmd))

/-! ## The commands of the service -/

def localServer : String := "127.0.0.1"

def localTproxyServerPort : UInt16 := 5000

def localDnsServerPort : UInt16 := 5001

def ipsetTable : String := "LPROXY"

def ipsetTable6 : String := "LPROXY6"

def ipsetNethashTable : String := "LPROXYN"

/-- The traffic to the addresses of a set. -/
def setRule (name : String) : Rule := ⟨[.matchSet name], .chain "LPROXY_TCP"⟩

/-- All traffic. -/
def globalRule : Rule := ⟨[], .chain "LPROXY_TCP"⟩

/-- The traffic of a socket that there is. -/
def socketRule : Rule := ⟨[.socket], .chain "DIVERT"⟩

/-- The traffic that goes to the service. -/
def tproxyRule (proto : Proto) (onIp : IpAddr) : Rule :=
  ⟨[.proto proto], .tproxy localTproxyServerPort onIp 1 1⟩

/-- The traffic that stays as it is. -/
def returnRule (net : Ipv4Addr × Nat) : Rule := ⟨[.dst net.1 net.2], .ret⟩

def markRule : Rule := ⟨[], .setMark 1⟩

def acceptRule : Rule := ⟨[], .accept⟩

def loopback : IpAddr := .v4 ⟨127, 0, 0, 1⟩

def loopback6 : IpAddr := .v6 ⟨0, 0, 0, 0, 0, 0, 0, 1⟩

/-- The addresses that are not sent to the service even when all others are. -/
def reserved : List (Ipv4Addr × Nat) :=
  [(⟨0, 0, 0, 0⟩, 8), (⟨10, 0, 0, 0⟩, 8), (⟨127, 0, 0, 0⟩, 8), (⟨169, 254, 0, 0⟩, 16),
    (⟨172, 16, 0, 0⟩, 12), (⟨192, 168, 0, 0⟩, 16), (⟨224, 0, 0, 0⟩, 4), (⟨240, 0, 0, 0⟩, 4)]

def unsetIptablesRules : List SysCmd :=
  [.iptables .v4 (.delete "PREROUTING" (setRule "LPROXY")),
    .iptables .v4 (.delete "PREROUTING" (setRule "LPROXYN")),
    .iptables .v4 (.delete "PREROUTING" socketRule),
    .iptables .v6 (.delete "PREROUTING" (setRule "LPROXY6")),
    .iptables .v6 (.delete "PREROUTING" socketRule),
    .iptables .v6 (.flush "LPROXY_TCP"),
    .iptables .v6 (.deleteChain "LPROXY_TCP"),
    .iptables .v6 (.flush "DIVERT"),
    .iptables .v6 (.deleteChain "DIVERT")]

def setIptablesRules : List SysCmd :=
  unsetIptablesRules ++
  [.iptables .v4 (.newChain "LPROXY_TCP"),
    .iptables .v4 (.append "LPROXY_TCP" (tproxyRule .tcp loopback)),
    .iptables .v4 (.append "LPROXY_TCP" (tproxyRule .udp loopback)),
    .iptables .v4 (.insert "PREROUTING" (setRule "LPROXYN")),
    .iptables .v4 (.insert "PREROUTING" (setRule "LPROXY")),
    .iptables .v4 (.newChain "DIVERT"),
    .iptables .v4 (.append "DIVERT" markRule),
    .iptables .v4 (.append "DIVERT" acceptRule),
    .iptables .v4 (.insert "PREROUTING" socketRule),
    .iptables .v6 (.newChain "LPROXY_TCP"),
    .iptables .v6 (.append "LPROXY_TCP" (tproxyRule .tcp loopback6)),
    .iptables .v6 (.append "LPROXY_TCP" (tproxyRule .udp loopback6)),
    .iptables .v6 (.insert "PREROUTING" (setRule "LPROXY6")),
    .iptables .v6 (.newChain "DIVERT"),
    .iptables .v6 (.append "DIVERT" markRule),
    .iptables .v6 (.append "DIVERT" acceptRule),
    .iptables .v6 (.insert "PREROUTING" socketRule)]

def unsetIptablesRulesForGlobal : List SysCmd :=
  [.iptables .v4 (.delete "PREROUTING" globalRule),
    .iptables .v4 (.delete "PREROUTING" socketRule),
    .iptables .v4 (.flush "DIVERT"),
    .iptables .v4 (.deleteChain "DIVERT"),
    .iptables .v4 (.flush "LPROXY_TCP"),
    .iptables .v4 (.deleteChain "LPROXY_TCP")]

def setIptablesRulesForGlobal : List SysCmd :=
  unsetIptablesRulesForGlobal ++
  [.iptables .v4 (.newChain "LPROXY_TCP")] ++
  (reserved.map fun net => .iptables .v4 (.append "LPROXY_TCP" (returnRule net))) ++
  [.iptables .v4 (.append "LPROXY_TCP" (tproxyRule .tcp loopback)),
    .iptables .v4 (.append "LPROXY_TCP" (tproxyRule .udp loopback)),
    .iptables .v4 (.insert "PREROUTING" globalRule),
    .iptables .v4 (.newChain "DIVERT"),
    .iptables .v4 (.append "DIVERT" markRule),
    .iptables .v4 (.append "DIVERT" acceptRule),
    .iptables .v4 (.insert "PREROUTING" socketRule)]

/-- The route and the rule for marked packets. -/
def ipRoute : String := "route local 0.0.0.0/0 dev lo table 100"

def ipRule : String := "rule fwmark 1 table 100"

def unsetIpRules : List SysCmd :=
  [.ipDel .v4 ipRoute, .ipDel .v6 ipRoute, .ipDel .v6 ipRule, .ipDel .v4 ipRule]

def setIpRules : List SysCmd :=
  unsetIpRules ++ [.ipAdd .v4 ipRoute, .ipAdd .v6 ipRoute, .ipAdd .v6 ipRule, .ipAdd .v4 ipRule]

def setIpset : List SysCmd :=
  [.ipsetNew ipsetTable "iphash", .ipsetNew ipsetTable6 "iphash family inet6",
    .ipsetNew ipsetNethashTable "nethash",
    .ipsetFlush ipsetTable, .ipsetFlush ipsetTable6, .ipsetFlush ipsetNethashTable]

def unsetIpset : List SysCmd :=
  [.ipsetDestroy ipsetTable, .ipsetDestroy ipsetTable6, .ipsetDestroy ipsetNethashTable]

def setUciDnsmasqToDefault (dnsServer : String) : List SysCmd :=
  [.uciDeleteServer, .uciAddServer dnsServer, .uciSetNoresolv, .uciCommit, .dnsmasqRestart]

def setUciDnsmasqToMe : List SysCmd :=
  [.uciDeleteServer, .uciAddServer s!"{localServer}#{localDnsServerPort}",
    .uciCommit, .dnsmasqRestart]

/-- Have traffic sent to the service; `workAsGlobal` is whether it is all traffic. -/
def configSys (workAsGlobal : Bool) : List SysCmd :=
  (if workAsGlobal then setIptablesRulesForGlobal else setIptablesRules) ++ setIpRules

/-- Take all of it back. -/
def restoreSys (defaultDnsServer : String) : List SysCmd :=
  unsetIptablesRules ++ unsetIptablesRulesForGlobal ++ unsetIpRules ++ unsetIpset ++
    setUciDnsmasqToDefault defaultDnsServer

/-- The commands that are given when something happens. -/
def ServiceWorld.commands (w : ServiceWorld) : ServiceEvent → List SysCmd
  | .instruction =>
      match w.queue.head? with
      | some .startSubServices => setIpset ++ setUciDnsmasqToMe
      | some .restart =>
          restoreSys w.svc.defaultDnsServer ++ setUciDnsmasqToDefault w.svc.defaultDnsServer
      | _ => []
  | .started _ true =>
      match w.svc.configSys with
      | some workAsGlobal => configSys workAsGlobal
      | none => []
  | .stop => restoreSys w.svc.defaultDnsServer
  | .start => setUciDnsmasqToDefault w.svc.defaultDnsServer
  | _ => []

/-! ## What belongs to the service -/

/-- The chains of the service. -/
def ownChain (c : String) : Bool := c = "LPROXY_TCP" ∨ c = "DIVERT"

def ownSets : List String := [ipsetTable, ipsetTable6, ipsetNethashTable]

/-- The rules that send packets to these chains. -/
def ownRules : Family → List Rule
  | .v4 => [setRule ipsetTable, setRule ipsetNethashTable, globalRule, socketRule]
  | .v6 => [setRule ipsetTable6, socketRule]

/-- The rule asks for a set of the service only where it belongs to the service. -/
def Rule.Proper (r : Rule) : Prop :=
  ∀ name ∈ ownSets, .matchSet name ∈ r.conds → sends Rule.goto ownChain r = true

instance (r : Rule) : Decidable r.Proper := inferInstanceAs (Decidable (∀ name ∈ ownSets, _))

/-- The command for the table of a family. -/
def SysCmd.table (family : Family) : SysCmd → Option (ChainCmd String Rule)
  | .iptables family' cmd => if family = family' then some cmd else none
  | _ => none

/-- The command for an entry: whether it adds one. -/
def SysCmd.entry (family : Family) (entry : String) : SysCmd → Option Bool
  | .ipAdd family' entry' => if family = family' ∧ entry = entry' then some true else none
  | .ipDel family' entry' => if family = family' ∧ entry = entry' then some false else none
  | _ => none

/-- How many there may be of an entry after a command. -/
def entryBound (most : Nat) (adds : Bool) : Nat := if adds then most + 1 else most - 1

/-- Commands that keep to what belongs to the service, and leave at most one of each thing
wherever they are broken off. -/
structure Orderly (cmds : List SysCmd) : Prop where
  own : ∀ family, ∀ cmd ∈ cmds.filterMap (SysCmd.table family),
    cmd.Own Rule.goto ownChain "PREROUTING"
  proper : ∀ family, ∀ r ∈ (cmds.filterMap (SysCmd.table family)).filterMap ChainCmd.added,
    r.Proper
  rules : ∀ family, ∀ front ∈ (cmds.filterMap (SysCmd.table family)).inits,
    (front.foldl (fun most cmd => cmd.bound most) (ownRules family)).Subperm (ownRules family)
  entries : ∀ family, ∀ entry ∈ [ipRoute, ipRule],
    ∀ front ∈ (cmds.filterMap (SysCmd.entry family entry)).inits, front.foldl entryBound 1 ≤ 1

theorem orderly_nil : Orderly [] where
  own := by
    intro family cmd hcmd
    cases hcmd
  proper := by
    intro family r hr
    cases hr
  rules := by
    intro family front hfront
    rw [List.mem_singleton.mp hfront]
    exact .refl _
  entries := by
    intro family entry _ front hfront
    rw [List.mem_singleton.mp hfront]
    exact Nat.le_refl 1

/-- Commands behind them that touch no table and no entry. -/
theorem Orderly.append {cmds cmds' : List SysCmd} (h : Orderly cmds)
    (htable : ∀ family, cmds'.filterMap (SysCmd.table family) = [])
    (hentry : ∀ family entry, cmds'.filterMap (SysCmd.entry family entry) = []) :
    Orderly (cmds ++ cmds') := by
  have htables : ∀ family, (cmds ++ cmds').filterMap (SysCmd.table family) =
      cmds.filterMap (SysCmd.table family) := fun family => by
    rw [List.filterMap_append, htable, List.append_nil]
  have hentries : ∀ family entry, (cmds ++ cmds').filterMap (SysCmd.entry family entry) =
      cmds.filterMap (SysCmd.entry family entry) := fun family entry => by
    rw [List.filterMap_append, hentry, List.append_nil]
  refine ⟨?_, ?_, ?_, ?_⟩
  · intro family
    rw [htables]
    exact h.own family
  · intro family
    rw [htables]
    exact h.proper family
  · intro family
    rw [htables]
    exact h.rules family
  · intro family entry
    rw [hentries]
    exact h.entries family entry

theorem orderly_configSys (workAsGlobal : Bool) : Orderly (configSys workAsGlobal) := by
  refine ⟨?_, ?_, ?_, ?_⟩
  · cases workAsGlobal <;> intro family <;> cases family <;> decide +kernel
  · cases workAsGlobal <;> intro family <;> cases family <;> decide +kernel
  · cases workAsGlobal <;> intro family <;> cases family <;> decide +kernel
  · cases workAsGlobal <;> intro family <;> cases family <;> decide +kernel

theorem orderly_restoreSys (defaultDnsServer : String) :
    Orderly (restoreSys defaultDnsServer) := by
  have hrules : Orderly
      (unsetIptablesRules ++ unsetIptablesRulesForGlobal ++ unsetIpRules ++ unsetIpset) := by
    refine ⟨?_, ?_, ?_, ?_⟩
    · intro family
      cases family <;> decide +kernel
    · intro family
      cases family <;> decide +kernel
    · intro family
      cases family <;> decide +kernel
    · intro family
      cases family <;> decide +kernel
  exact hrules.append (fun _ => rfl) fun _ _ => rfl

/-- Whatever happens, the commands of the service are orderly. -/
theorem orderly_commands (w : ServiceWorld) (e : ServiceEvent) : Orderly (w.commands e) := by
  unfold ServiceWorld.commands
  split
  · split
    · exact orderly_nil.append (fun _ => rfl) fun _ _ => rfl
    · exact (orderly_restoreSys _).append (fun _ => rfl) fun _ _ => rfl
    · exact orderly_nil
  · split
    · exact orderly_configSys _
    · exact orderly_nil
  · exact orderly_restoreSys _
  · exact orderly_nil.append (fun _ => rfl) fun _ _ => rfl
  · exact orderly_nil

/-! ## What the commands leave -/

namespace Sys

variable {s s' : Sys} {cmd : SysCmd} {cmds : List SysCmd} {family : Family}

/-- There is at most one of each thing that belongs to the service. -/
structure Tidy (s : Sys) : Prop where
  rules : ∀ family,
    (s.tables family).Kept Rule.goto ownChain "PREROUTING" (ownRules family)
  proper : ∀ family c rs r, s.tables family c = some rs → r ∈ rs → r.Proper
  entries : ∀ family, ∀ entry ∈ [ipRoute, ipRule], s.entries family entry ≤ 1

theorem table_of_does (h : SysDoes s cmd s') (family : Family) :
    (∀ c, cmd.table family = some c →
      Does Rule.goto (s.tables family) c (s'.tables family)) ∧
    (cmd.table family = none → s'.tables family = s.tables family) := by
  cases h with
  | @iptables family' cmd' table _ hdoes =>
      by_cases hfamily : family = family'
      · subst hfamily
        simpa [SysCmd.table] using hdoes
      · simp [SysCmd.table, hfamily]
  | @iptablesFails family' cmd' hready =>
      refine ⟨?_, fun _ => rfl⟩
      intro c hc
      rw [SysCmd.table] at hc
      split at hc
      · obtain rfl := Option.some.inj hc
        -- Only a rule can ask for a set.
        cases cmd' with
        | append c r => exact .appendFails c r
        | insert c r => exact .insertFails c r
        | _ =>
            refine absurd ?_ hready
            intro r hr
            cases hr
      · cases hc
  | _ => simp [SysCmd.table, setEntry]

/-- The tables change by the commands for them. -/
theorem run_tables (hrun : Run SysDoes s cmds s') (family : Family) :
    Run (Does Rule.goto) (s.tables family) (cmds.filterMap (SysCmd.table family))
      (s'.tables family) :=
  hrun.filterMap (fun s => s.tables family) (SysCmd.table family)
    (fun _ _ _ c hdoes => (table_of_does hdoes family).1 c)
    fun _ _ _ hdoes => (table_of_does hdoes family).2

theorem entries_of_does (h : SysDoes s cmd s') (family : Family) (entry : String) :
    (∀ adds, cmd.entry family entry = some adds →
      s'.entries family entry ≤ entryBound (s.entries family entry) adds) ∧
    (cmd.entry family entry = none → s'.entries family entry = s.entries family entry) := by
  cases h with
  | ipAdd family' entry' =>
      by_cases hsame : family = family' ∧ entry = entry'
      · obtain ⟨rfl, rfl⟩ := hsame
        simp [SysCmd.entry, setEntry, entryBound]
      · simp [SysCmd.entry, setEntry, hsame]
  | ipDel family' entry' =>
      by_cases hsame : family = family' ∧ entry = entry'
      · obtain ⟨rfl, rfl⟩ := hsame
        simp only [SysCmd.entry, setEntry, entryBound, and_self, if_true]
        exact ⟨by rintro _ ⟨⟩; exact Nat.le_refl _, nofun⟩
      · simp [SysCmd.entry, setEntry, hsame]
  | ipAddFails family' entry' =>
      by_cases hsame : family = family' ∧ entry = entry'
      · simp [SysCmd.entry, hsame, entryBound]
      · simp [SysCmd.entry, hsame]
  | _ => simp [SysCmd.entry]

/-- There are no more of an entry than the commands for it allow. -/
theorem run_entries (hrun : Run SysDoes s cmds s') (family : Family) (entry : String) {n : Nat}
    (hn : s.entries family entry ≤ n) :
    s'.entries family entry ≤ (cmds.filterMap (SysCmd.entry family entry)).foldl entryBound n := by
  induction hrun generalizing n with
  | nil _ => exact hn
  | @cons s m t cmd cmds hfirst _ ih =>
      obtain ⟨hsome, hnone⟩ := entries_of_does hfirst family entry
      cases hcmd : cmd.entry family entry with
      | none =>
          rw [List.filterMap_cons_none hcmd]
          exact ih ((hnone hcmd).trans_le hn)
      | some adds =>
          rw [List.filterMap_cons_some hcmd]
          refine ih ((hsome adds hcmd).trans ?_)
          unfold entryBound
          split
          · exact Nat.succ_le_succ hn
          · exact Nat.sub_le_sub_right hn 1

/-- What is asked of a rule is asked of those that are put into the tables. -/
theorem run_proper (hrun : Run SysDoes s cmds s')
    (hcmds : ∀ r ∈ (cmds.filterMap (SysCmd.table family)).filterMap ChainCmd.added, r.Proper)
    (h : ∀ c rs r, s.tables family c = some rs → r ∈ rs → r.Proper) :
    ∀ c rs r, s'.tables family c = some rs → r ∈ rs → r.Proper := by
  have hadds : ∀ cmd ∈ cmds.filterMap (SysCmd.table family), ∀ r, cmd.added = some r → r.Proper :=
    fun cmd hcmd r hr => hcmds r (List.mem_filterMap.mpr ⟨cmd, hcmd, hr⟩)
  refine ((run_tables hrun family).restrict hadds).preserves
    (I := fun f => ∀ c rs r, f c = some rs → r ∈ rs → r.Proper) ?_ h
  rintro f cmd f' hf ⟨hdoes, hcmd⟩
  exact Chains.does_all hdoes hcmd hf

/-- Commands that are broken off leave a tidy system tidy, and what the others have. -/
theorem Tidy.run_take (h : s.Tidy) (horderly : Orderly cmds) (n : Nat)
    (hrun : Run SysDoes s (cmds.take n) s') :
    s'.Tidy ∧ ∀ family, (s'.tables family).others Rule.goto ownChain =
      (s.tables family).others Rule.goto ownChain := by
  have hfront : ∀ {ι : Type} (g : SysCmd → Option ι),
      (cmds.take n).filterMap g ∈ (cmds.filterMap g).inits := fun g =>
    (List.mem_inits _ _).mpr ((List.take_prefix n cmds).filterMap g)
  have hown : ∀ family, ∀ cmd ∈ (cmds.take n).filterMap (SysCmd.table family),
      cmd.Own Rule.goto ownChain "PREROUTING" := fun family cmd hcmd =>
    horderly.own family cmd (((List.take_sublist n cmds).filterMap _).subset hcmd)
  refine ⟨⟨?_, ?_, ?_⟩, ?_⟩
  · intro family
    exact ((h.rules family).run (by decide) (hown family) (run_tables hrun family)).mono
      (horderly.rules family _ (hfront _))
  · intro family
    refine run_proper hrun ?_ (h.proper family)
    intro r hr
    exact horderly.proper family r
      ((((List.take_sublist n cmds).filterMap _).filterMap _).subset hr)
  · intro family entry hentry
    exact (run_entries hrun family entry (h.entries family entry hentry)).trans
      (horderly.entries family entry hentry _ (hfront _))
  · exact fun family => Chains.others_of_run (hown family) (run_tables hrun family)

/-- Where there is no rule of the service, none asks for its sets. -/
theorem not_refers (hproper : ∀ family c rs r, s.tables family c = some rs → r ∈ rs → r.Proper)
    (hfree : ∀ family c rs r, s.tables family c = some rs → r ∈ rs →
      sends Rule.goto ownChain r = false)
    {name : String} (hname : name ∈ ownSets) : ¬ s.Refers name := by
  rintro ⟨family, c, rs, r, hrs, hr, hset⟩
  have hown := hproper family c rs r hrs hr name hname hset
  exact Bool.false_ne_true ((hfree family c rs r hrs hr).symm.trans hown)

/-- A set that no rule asks for goes. -/
theorem run_destroy {names : List String} (hnames : ∀ name ∈ names, ¬ s.Refers name)
    (hrun : Run SysDoes s (names.map .ipsetDestroy) s') :
    s'.tables = s.tables ∧ s'.entries = s.entries ∧
      ∀ name, name ∈ names ∨ s.sets name = false → s'.sets name = false := by
  induction names generalizing s with
  | nil =>
      cases hrun
      exact ⟨rfl, rfl, fun name h => h.resolve_left List.not_mem_nil⟩
  | cons first names ih =>
      obtain ⟨hfirst, hrest⟩ := List.forall_mem_cons.mp hnames
      rw [List.map_cons] at hrun
      cases hrun with
      | cons hdoes hrun =>
          cases hdoes with
          | ipsetDestroyFails hrefers => exact absurd hrefers hfirst
          | ipsetDestroy _ =>
              obtain ⟨htables, hentries, hsets⟩ :=
                ih (s := { s with sets := Function.update s.sets first false }) hrest hrun
              refine ⟨htables, hentries, ?_⟩
              intro name hname
              refine hsets name ?_
              by_cases hsame : name = first
              · rw [hsame]
                exact .inr (Function.update_self _ _ _)
              · rw [List.mem_cons, or_assoc] at hname
                refine (hname.resolve_left hsame).imp_right ?_
                intro hfalse
                exact (Function.update_of_ne hsame _ _).trans hfalse

theorem run_dnsmasq {defaultDnsServer : String}
    (hrun : Run SysDoes s (setUciDnsmasqToDefault defaultDnsServer) s') :
    s' = { s with servers := [defaultDnsServer], noresolv := true } := by
  cases hrun with
  | cons hdelete hrun =>
      cases hdelete
      cases hrun with
      | cons hadd hrun =>
          cases hadd
          cases hrun with
          | cons hset hrun =>
              cases hset
              cases hrun with
              | cons hcommit hrun =>
                  cases hcommit
                  cases hrun with
                  | cons hrestart hrun =>
                      cases hrestart
                      cases hrun
                      rfl

/-- The rules that send packets to the service are deleted. -/
def deletes : Family → List (ChainCmd String Rule)
  | .v4 => [.delete "PREROUTING" (setRule ipsetTable),
      .delete "PREROUTING" (setRule ipsetNethashTable),
      .delete "PREROUTING" socketRule, .delete "PREROUTING" globalRule,
      .delete "PREROUTING" socketRule]
  | .v6 => [.delete "PREROUTING" (setRule ipsetTable6), .delete "PREROUTING" socketRule]

/-- Its chains, in the order in which they are deleted. -/
def drops : Family → List String
  | .v4 => ["DIVERT", "LPROXY_TCP"]
  | .v6 => ["LPROXY_TCP", "DIVERT"]

/-- The rules are taken back. -/
theorem Tidy.run_unset (h : s.Tidy)
    (hrun : Run SysDoes s (unsetIptablesRules ++ unsetIptablesRulesForGlobal ++ unsetIpRules) s')
    (family : Family) : s'.tables family = (s.tables family).others Rule.goto ownChain := by
  have hcs : ∀ c, ownChain c = true ↔ c ∈ drops family := by
    intro c
    cases family <;> simp [ownChain, drops, or_comm]
  have hown : ∀ cmd ∈ deletes family, cmd.Own Rule.goto ownChain "PREROUTING" := by
    cases family <;> decide +kernel
  have hnil : (deletes family).foldl (fun most cmd => cmd.bound most) (ownRules family) = [] := by
    cases family <;> decide +kernel
  have htable : Run (Does Rule.goto) (s.tables family)
      (deletes family ++ (drops family).flatMap fun c => [.flush c, .deleteChain c])
      (s'.tables family) := by
    have hall := run_tables hrun family
    cases family
    · exact hall
    · exact hall
  exact (h.rules family).run_clean (by decide) hcs hown hnil htable

/-- The service leaves the tables as the others have made them, and nothing of its own. -/
theorem Tidy.run_restore (h : s.Tidy) {defaultDnsServer : String}
    (hrun : Run SysDoes s (restoreSys defaultDnsServer) s') :
    (∀ family, s'.tables family = (s.tables family).others Rule.goto ownChain) ∧
      (∀ name ∈ ownSets, s'.sets name = false) ∧
      (∀ family, ∀ entry ∈ [ipRoute, ipRule], s'.entries family entry = 0) ∧
      s'.servers = [defaultDnsServer] := by
  obtain ⟨m₂, hrun, hdnsmasq⟩ := Run.split hrun
  obtain ⟨m₁, hunset, hdestroy⟩ := hrun.split
  have htables := h.run_unset hunset
  have hproper : ∀ family c rs r, m₁.tables family c = some rs → r ∈ rs → r.Proper := by
    intro family
    refine run_proper hunset ?_ (h.proper family)
    cases family <;> decide +kernel
  have hfree : ∀ family c rs r, m₁.tables family c = some rs → r ∈ rs →
      sends Rule.goto ownChain r = false := by
    intro family c rs r hrs hr
    rw [htables] at hrs
    exact Chains.others_free hrs r hr
  have hentries : ∀ family, ∀ entry ∈ [ipRoute, ipRule], m₁.entries family entry = 0 := by
    intro family entry hentry
    have hle := run_entries hunset family entry (h.entries family entry hentry)
    have hzero : ∀ family, ∀ entry ∈ [ipRoute, ipRule],
        ((unsetIptablesRules ++ unsetIptablesRulesForGlobal ++ unsetIpRules).filterMap
          (SysCmd.entry family entry)).foldl entryBound 1 = 0 := by
      intro family
      cases family <;> decide +kernel
    exact Nat.le_zero.mp (hle.trans_eq (hzero family entry hentry))
  have hrefers : ∀ name ∈ ownSets, ¬ m₁.Refers name := fun name hname =>
    not_refers hproper hfree hname
  obtain ⟨hsame, hkept, hsets⟩ := run_destroy hrefers hdestroy
  rw [run_dnsmasq hdnsmasq]
  refine ⟨?_, fun name hname => hsets name (.inl hname), ?_, rfl⟩
  · intro family
    exact (congrFun hsame family).trans (htables family)
  · intro family entry hentry
    exact (congrFun (congrFun hkept family) entry).trans (hentries family entry hentry)

end Sys

end LproxyCv.Services
