import Mathlib.Data.List.Nodup
import LproxyCv.Foundation.Bytes
import LproxyCv.Services.AccLog

set_option autoImplicit false

/-!
# Services: the report of the accesses

The report has the clients of each name that was asked for since the last one.  What it is to
say depends on the whole history of the log (`LoggedUnder`): an access counts under the name
that its address had at the time.  The two maps of the log keep just that (`Tracks`).
-/

namespace LproxyCv.Services

open LproxyCv.Foundation LproxyCv.Net

/-! ## The report -/

/-- A name and its clients. -/
structure AccDomain where
  domain : String
  srcIP : List UInt32
  deriving DecidableEq, Repr

/-- The report of the accesses. -/
structure AccReport where
  domains : List AccDomain
  deriving DecidableEq, Repr

/-- The number whose bytes are those of an address, the highest first. -/
def u32FromBeBytes (v4 : Ipv4Addr) : UInt32 := UInt32.ofNat (leNat v4.octets.reverse)

/-- The number of a client that has one. -/
def srcNumber : IpAddr → Option UInt32
  | .v4 v4 => some (u32FromBeBytes v4)
  | .v6 _ => none

/-- The number of an address is its own. -/
theorem u32FromBeBytes_injective : Function.Injective u32FromBeBytes := by
  intro v w h
  have hlt : ∀ u : Ipv4Addr, leNat u.octets.reverse < UInt32.size := fun u =>
    Nat.lt_of_lt_of_eq (leNat_lt u.octets.reverse) (by simp [Ipv4Addr.octets])
  have hnat := congrArg UInt32.toNat h
  unfold u32FromBeBytes at hnat
  rw [UInt32.toNat_ofNat_of_lt' (hlt v), UInt32.toNat_ofNat_of_lt' (hlt w)] at hnat
  have hbytes : v.octets.reverse = w.octets.reverse := by
    rw [← leBytes_leNat v.octets.reverse, ← leBytes_leNat w.octets.reverse, hnat]
    rfl
  have hoctets := List.reverse_injective hbytes
  cases v
  cases w
  simpa [Ipv4Addr.octets] using hoctets

namespace AccLog

/-- An order in which the names, and the clients of each, may be gone through. -/
structure Iterates (l : AccLog) (entries : List (String × List IpAddr)) : Prop where
  keys : (entries.map Prod.fst).Perm (l.accDomains.map Prod.fst)
  srcAddrs : ∀ p ∈ entries, ∃ srcAddrs, (p.1, srcAddrs) ∈ l.accDomains ∧ p.2.Perm srcAddrs

/-- The log may be gone through as it is. -/
theorem iterates_self (l : AccLog) : l.Iterates l.accDomains where
  keys := .refl _
  srcAddrs p hp := ⟨p.2, hp, .refl _⟩

/-- The report of a log that is gone through in this order. -/
def dumpToPb (entries : List (String × List IpAddr)) : AccReport :=
  ⟨entries.map fun p => ⟨p.1, p.2.filterMap srcNumber⟩⟩

end AccLog

/-! ## Histories -/

/-- A name is given to an address, a client asks for an address, and the log is cleared. -/
inductive AccEvent where
  | add (name : String) (addr : IpAddr)
  | access (src dst : IpAddr)
  | clear
  deriving DecidableEq

/-- What is done with a log. -/
inductive AccCall where
  | domainAdd (domain : DNSAddRecord)
  | log (v : List (IpAddr × IpAddr))
  | clearLog
  deriving DecidableEq

/-- What happens in a call. -/
def AccCall.events : AccCall → List AccEvent
  | domainAdd domain => domain.map fun dd => .add dd.1 dd.2
  | log v => v.map fun access => .access access.1 access.2
  | clearLog => [.clear]

namespace AccLog

/-- The log behind a call. -/
def call (ipText : IpAddr → String) (l : AccLog) : AccCall → AccLog
  | .domainAdd domain => l.domainAdd domain
  | .log v => l.log ipText v
  | .clearLog => l.clearLog

/-- The log behind some calls. -/
def run (ipText : IpAddr → String) (calls : List AccCall) : AccLog :=
  calls.foldl (call ipText) AccLog.new

/-- The log behind an event. -/
def event (ipText : IpAddr → String) (l : AccLog) : AccEvent → AccLog
  | .add name addr => { l with domains := insert l.domains addr name }
  | .access src dst => l.logOne ipText (src, dst)
  | .clear => l.clearLog

theorem call_eq_foldl (ipText : IpAddr → String) (l : AccLog) (c : AccCall) :
    l.call ipText c = c.events.foldl (event ipText) l := by
  cases c with
  | domainAdd domain => rw [AccCall.events, List.foldl_map]; rfl
  | log v => rw [AccCall.events, List.foldl_map]; rfl
  | clearLog => rfl

/-- A run goes through the events of its calls. -/
theorem run_eq_foldl (ipText : IpAddr → String) (calls : List AccCall) :
    run ipText calls = (calls.flatMap AccCall.events).foldl (event ipText) AccLog.new := by
  have hcall : call ipText = fun l c => c.events.foldl (event ipText) l := by
    funext l c
    exact call_eq_foldl ipText l c
  rw [run, hcall, List.foldl_flatMap]

end AccLog

/-- The name that an event gives to an address. -/
def AccEvent.nameFor (dst : IpAddr) : AccEvent → Option String
  | add name addr => if addr = dst then some name else none
  | access _ _ => none
  | clear => none

/-- The name that an address was given last. -/
def lastName (past : List AccEvent) (dst : IpAddr) : Option String :=
  past.reverse.findSome? (AccEvent.nameFor dst)

/-- The name of an address: the last one it was given, else its own text. -/
def nameAt (ipText : IpAddr → String) (past : List AccEvent) (dst : IpAddr) : String :=
  (lastName past dst).getD (ipText dst)

/-- A client has asked for an address that had this name at the time, and nothing was cleared
since. -/
def LoggedUnder (ipText : IpAddr → String) (history : List AccEvent) (name : String)
    (src : IpAddr) : Prop :=
  ∃ past dst rest, history = past ++ .access src dst :: rest ∧ .clear ∉ rest ∧
    nameAt ipText past dst = name

/-- The report has each name once that was asked for, with those of its clients that have a
number, each once. -/
structure Reports (ipText : IpAddr → String) (history : List AccEvent) (report : AccReport) :
    Prop where
  once : (report.domains.map AccDomain.domain).Nodup
  names : ∀ name, name ∈ report.domains.map AccDomain.domain ↔
    ∃ src, LoggedUnder ipText history name src
  srcOnce : ∀ ad ∈ report.domains, ad.srcIP.Nodup
  sources : ∀ ad ∈ report.domains, ∀ n, n ∈ ad.srcIP ↔
    ∃ v4, LoggedUnder ipText history ad.domain (.v4 v4) ∧ u32FromBeBytes v4 = n

/-! ## The maps -/

namespace AccLog

variable {α β : Type} [DecidableEq α]

theorem lookup_insert (entries : List (α × β)) (key key' : α) (value : β) :
    lookup (insert entries key value) key' = if key = key' then some value else lookup entries key' := by
  unfold lookup insert
  by_cases hkey : key = key'
  · simp [hkey]
  · have hfilter : (entries.filter fun p => p.1 ≠ key).find? (fun p => p.1 = key') =
        entries.find? fun p => p.1 = key' := by
      rw [List.find?_filter]
      congr 1
      funext p
      by_cases hp : p.1 = key'
      · simp [hp, Ne.symm hkey]
      · simp [hp]
    simp only [List.find?_cons, hkey, decide_false, hfilter, if_false]

theorem keys_insert_nodup {entries : List (α × β)} (h : (entries.map Prod.fst).Nodup) (key : α)
    (value : β) : ((insert entries key value).map Prod.fst).Nodup := by
  unfold insert
  rw [List.map_cons, List.nodup_cons]
  constructor
  · simp
  · exact h.sublist (List.filter_sublist.map _)

theorem mem_of_mem_insert {entries : List (α × β)} {key : α} {value : β} {p : α × β}
    (h : p ∈ insert entries key value) : p = (key, value) ∨ p ∈ entries := by
  rcases List.mem_cons.mp h with h | h
  · exact .inl h
  · exact .inr (List.mem_filter.mp h).1

/-- With each key once, the entries are what is found. -/
theorem lookup_eq_some_iff {entries : List (α × β)} (h : (entries.map Prod.fst).Nodup) {key : α}
    {value : β} : lookup entries key = some value ↔ (key, value) ∈ entries := by
  induction entries with
  | nil => simp [lookup]
  | cons p entries ih =>
    rw [List.map_cons, List.nodup_cons] at h
    have htail := ih h.2
    unfold lookup at htail ⊢
    rw [List.find?_cons, List.mem_cons]
    by_cases hkey : p.1 = key
    · have hnot : (key, value) ∉ entries := fun hmem =>
        h.1 (hkey ▸ List.mem_map_of_mem (f := Prod.fst) hmem)
      rw [decide_eq_true hkey, Option.map_some, Option.some.injEq, or_iff_left hnot, ← hkey]
      constructor
      · rintro rfl
        rfl
      · intro hp
        rw [← hp]
    · have hne : (key, value) ≠ p := fun hp => hkey (by rw [← hp])
      rw [decide_eq_false hkey, htail, or_iff_right hne]

end AccLog

/-! ## Histories that go on -/

theorem lastName_concat (past : List AccEvent) (e : AccEvent) (dst : IpAddr) :
    lastName (past ++ [e]) dst = (e.nameFor dst).or (lastName past dst) := by
  unfold lastName
  rw [List.reverse_append, List.reverse_singleton, List.singleton_append, List.findSome?_cons]
  cases e.nameFor dst <;> rfl

/-- What is logged behind one more event. -/
theorem loggedUnder_concat {ipText : IpAddr → String} {history : List AccEvent} {e : AccEvent}
    {name : String} {src : IpAddr} :
    LoggedUnder ipText (history ++ [e]) name src ↔
      (e ≠ .clear ∧ LoggedUnder ipText history name src) ∨
        ∃ dst, e = .access src dst ∧ nameAt ipText history dst = name := by
  constructor
  · rintro ⟨past, dst, rest, heq, hclear, hname⟩
    rcases List.eq_nil_or_concat rest with rfl | ⟨rest', e', rfl⟩
    · obtain ⟨rfl, he⟩ := List.append_inj' heq rfl
      exact .inr ⟨dst, (List.cons.inj he).1, hname⟩
    · rw [List.concat_eq_append] at heq hclear
      rw [← List.cons_append, ← List.append_assoc] at heq
      obtain ⟨rfl, he⟩ := List.append_inj' heq rfl
      obtain rfl := (List.cons.inj he).1
      rw [List.mem_append, not_or, List.mem_singleton] at hclear
      exact .inl ⟨Ne.symm hclear.2, past, dst, rest', rfl, hclear.1, hname⟩
  · rintro (⟨hclear, past, dst, rest, rfl, hrest, hname⟩ | ⟨dst, rfl, hname⟩)
    · refine ⟨past, dst, rest ++ [e], by simp, ?_, hname⟩
      simp [hrest, Ne.symm hclear]
    · exact ⟨history, dst, [], rfl, by simp, hname⟩

/-! ## What the log keeps of its history -/

/-- The log has the last name of each address, and each name that was asked for once, with its
clients, each once. -/
structure Tracks (ipText : IpAddr → String) (l : AccLog) (history : List AccEvent) : Prop where
  domains : ∀ dst, AccLog.lookup l.domains dst = lastName history dst
  once : (l.accDomains.map Prod.fst).Nodup
  srcOnce : ∀ p ∈ l.accDomains, p.2.Nodup
  nonempty : ∀ p ∈ l.accDomains, p.2 ≠ []
  logged : ∀ name src, src ∈ (AccLog.lookup l.accDomains name).getD [] ↔
    LoggedUnder ipText history name src

namespace Tracks

variable {ipText : IpAddr → String} {l : AccLog} {history : List AccEvent}

theorem new (ipText : IpAddr → String) : Tracks ipText AccLog.new [] where
  domains _ := rfl
  once := List.nodup_nil
  srcOnce _ h := absurd h List.not_mem_nil
  nonempty _ h := absurd h List.not_mem_nil
  logged name src := by
    refine iff_of_false List.not_mem_nil ?_
    rintro ⟨past, dst, rest, heq, _⟩
    simp at heq

/-- A name changes what is said of the accesses to come, not of those that were. -/
theorem add (h : Tracks ipText l history) (name : String) (addr : IpAddr) :
    Tracks ipText (l.event ipText (.add name addr)) (history ++ [.add name addr]) where
  domains dst := by
    have hname : (AccEvent.add name addr).nameFor dst = if addr = dst then some name else none :=
      rfl
    rw [lastName_concat, ← h.domains, AccLog.event, AccLog.lookup_insert, hname]
    split <;> rfl
  once := h.once
  srcOnce := h.srcOnce
  nonempty := h.nonempty
  logged name' src := by
    rw [loggedUnder_concat, ← h.logged]
    simp [AccLog.event]

theorem clear (h : Tracks ipText l history) :
    Tracks ipText (l.event ipText .clear) (history ++ [.clear]) where
  domains dst := by
    rw [lastName_concat, ← h.domains]
    rfl
  once := List.nodup_nil
  srcOnce _ hp := absurd hp List.not_mem_nil
  nonempty _ hp := absurd hp List.not_mem_nil
  logged name src := by
    rw [loggedUnder_concat]
    simp [AccLog.event, AccLog.clearLog, AccLog.lookup]

/-- The clients of a name. -/
theorem srcs_nodup (h : Tracks ipText l history) (name : String) :
    ((AccLog.lookup l.accDomains name).getD []).Nodup := by
  cases hlookup : AccLog.lookup l.accDomains name with
  | none => exact List.nodup_nil
  | some srcs => exact h.srcOnce _ ((AccLog.lookup_eq_some_iff h.once).mp hlookup)

/-- An access counts under the name of its address. -/
theorem access (h : Tracks ipText l history) (src dst : IpAddr) :
    Tracks ipText (l.event ipText (.access src dst)) (history ++ [.access src dst]) := by
  have hentry : (l.event ipText (.access src dst)).accDomains =
      AccLog.insert l.accDomains (nameAt ipText history dst)
        (((AccLog.lookup l.accDomains (nameAt ipText history dst)).getD []).insert src) := by
    unfold nameAt
    rw [← h.domains]
    rfl
  constructor
  case domains =>
    intro dst'
    rw [lastName_concat, ← h.domains]
    rfl
  case once =>
    rw [hentry]
    exact AccLog.keys_insert_nodup h.once _ _
  case srcOnce =>
    intro p hp
    rw [hentry] at hp
    rcases AccLog.mem_of_mem_insert hp with rfl | hp
    · exact List.Nodup.insert (h.srcs_nodup _)
    · exact h.srcOnce p hp
  case nonempty =>
    intro p hp
    rw [hentry] at hp
    rcases AccLog.mem_of_mem_insert hp with rfl | hp
    · exact List.ne_nil_of_mem List.mem_insert_self
    · exact h.nonempty p hp
  case logged =>
    intro name src'
    rw [hentry, AccLog.lookup_insert, loggedUnder_concat, ← h.logged]
    by_cases hname : nameAt ipText history dst = name
    · rw [if_pos hname, hname, Option.getD_some, List.mem_insert_iff]
      simp [hname, eq_comm, or_comm]
    · rw [if_neg hname]
      simp [hname]

/-- One event is kept as it happens. -/
theorem event (h : Tracks ipText l history) (e : AccEvent) :
    Tracks ipText (l.event ipText e) (history ++ [e]) := by
  cases e with
  | add name addr => exact h.add name addr
  | access src dst => exact h.access src dst
  | clear => exact h.clear

/-- What happens on and on is kept. -/
theorem foldl_event (h : Tracks ipText l history) (events : List AccEvent) :
    Tracks ipText (events.foldl (AccLog.event ipText) l) (history ++ events) := by
  induction events generalizing l history with
  | nil => rwa [List.append_nil]
  | cons e events ih =>
    have hnext := ih (h.event e)
    rwa [List.append_assoc] at hnext

theorem run (ipText : IpAddr → String) (calls : List AccCall) :
    Tracks ipText (AccLog.run ipText calls) (calls.flatMap AccCall.events) := by
  rw [AccLog.run_eq_foldl]
  exact (new ipText).foldl_event (calls.flatMap AccCall.events)

end Tracks

/-! ## What the report says -/

namespace Tracks

variable {ipText : IpAddr → String} {l : AccLog} {history : List AccEvent}

/-- The names of the log are those that were asked for. -/
theorem mem_keys_iff (h : Tracks ipText l history) (name : String) :
    name ∈ l.accDomains.map Prod.fst ↔ ∃ src, LoggedUnder ipText history name src := by
  constructor
  · intro hname
    obtain ⟨⟨name', srcs⟩, hmem, rfl⟩ := List.mem_map.mp hname
    obtain ⟨src, hsrc⟩ := List.exists_mem_of_ne_nil _ (h.nonempty _ hmem)
    refine ⟨src, (h.logged name' src).mp ?_⟩
    rw [(AccLog.lookup_eq_some_iff h.once).mpr hmem]
    exact hsrc
  · rintro ⟨src, hsrc⟩
    rw [← h.logged] at hsrc
    cases hlookup : AccLog.lookup l.accDomains name with
    | none =>
      rw [hlookup] at hsrc
      exact absurd hsrc List.not_mem_nil
    | some srcs =>
      exact List.mem_map_of_mem (f := Prod.fst) ((AccLog.lookup_eq_some_iff h.once).mp hlookup)

/-- The clients of an entry are those that have asked for its name. -/
theorem mem_entry_iff (h : Tracks ipText l history) {entries : List (String × List IpAddr)}
    (hentries : l.Iterates entries) {p : String × List IpAddr} (hp : p ∈ entries) (src : IpAddr) :
    src ∈ p.2 ↔ LoggedUnder ipText history p.1 src := by
  obtain ⟨srcs, hmem, hperm⟩ := hentries.srcAddrs p hp
  rw [hperm.mem_iff, ← h.logged, (AccLog.lookup_eq_some_iff h.once).mpr hmem]
  rfl

end Tracks

theorem srcNumber_eq_some_iff {src : IpAddr} {n : UInt32} :
    srcNumber src = some n ↔ ∃ v4, src = .v4 v4 ∧ u32FromBeBytes v4 = n := by
  cases src with
  | v4 v4 => simp [srcNumber]
  | v6 v6 => simp [srcNumber]

/-- Behind any calls, the report says what was logged since the log was cleared last, whatever
the order of the maps. -/
theorem dumpToPb_reports (ipText : IpAddr → String) (calls : List AccCall)
    (entries : List (String × List IpAddr)) (h : (AccLog.run ipText calls).Iterates entries) :
    Reports ipText (calls.flatMap AccCall.events) (AccLog.dumpToPb entries) := by
  have htracks := Tracks.run ipText calls
  have hkeys : (AccLog.dumpToPb entries).domains.map AccDomain.domain = entries.map Prod.fst := by
    simp [AccLog.dumpToPb]
  constructor
  case once =>
    rw [hkeys]
    exact h.keys.nodup_iff.mpr htracks.once
  case names =>
    intro name
    rw [hkeys, h.keys.mem_iff, htracks.mem_keys_iff]
  case srcOnce =>
    intro ad had
    obtain ⟨p, hp, rfl⟩ := List.mem_map.mp had
    obtain ⟨srcs, hmem, hperm⟩ := h.srcAddrs p hp
    refine List.Nodup.filterMap ?_ (hperm.nodup_iff.mpr (htracks.srcOnce _ hmem))
    intro src src' n hn hn'
    obtain ⟨v4, rfl, hv4⟩ := srcNumber_eq_some_iff.mp hn
    obtain ⟨v4', rfl, hv4'⟩ := srcNumber_eq_some_iff.mp hn'
    rw [u32FromBeBytes_injective (hv4.trans hv4'.symm)]
  case sources =>
    intro ad had n
    obtain ⟨p, hp, rfl⟩ := List.mem_map.mp had
    rw [List.mem_filterMap]
    constructor
    · rintro ⟨src, hsrc, hn⟩
      obtain ⟨v4, rfl, hv4⟩ := srcNumber_eq_some_iff.mp hn
      exact ⟨v4, (htracks.mem_entry_iff h hp _).mp hsrc, hv4⟩
    · rintro ⟨v4, hlogged, hv4⟩
      exact ⟨.v4 v4, (htracks.mem_entry_iff h hp _).mpr hlogged,
        srcNumber_eq_some_iff.mpr ⟨v4, rfl, hv4⟩⟩

/-- An address with a name and one without, of two clients each, one of them with an IPv6
address. -/
theorem dumpToPb_reports_two :
    let dst : IpAddr := .v4 ⟨1, 2, 3, 4⟩
    let other : IpAddr := .v4 ⟨5, 6, 7, 8⟩
    let calls : List AccCall :=
      [.domainAdd [("example.com", dst)],
        .log [(.v4 ⟨10, 0, 0, 1⟩, dst), (.v4 ⟨10, 0, 0, 1⟩, dst), (.v4 ⟨10, 0, 0, 2⟩, other),
          (.v6 ⟨0, 0, 0, 0, 0, 0, 0, 1⟩, other)]]
    Reports (fun _ => "5.6.7.8") (calls.flatMap AccCall.events)
      ⟨[⟨"5.6.7.8", [167772162]⟩, ⟨"example.com", [167772161]⟩]⟩ := by
  intro dst other calls
  have hreport : AccLog.dumpToPb (AccLog.run (fun _ => "5.6.7.8") calls).accDomains =
      ⟨[⟨"5.6.7.8", [167772162]⟩, ⟨"example.com", [167772161]⟩]⟩ := by
    decide
  rw [← hreport]
  exact dumpToPb_reports _ calls _ (AccLog.iterates_self _)

end LproxyCv.Services
