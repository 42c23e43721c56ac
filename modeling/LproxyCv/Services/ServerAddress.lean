import Mathlib.Data.List.TakeWhile
import LproxyCv.Dns.Cidr
import LproxyCv.Services.Service

set_option autoImplicit false

/-!
# Services: the address of the local DNS server

The local DNS server is named by the user or by the server's reply; what is behind a colon is
cut off, and the forwarder puts a port behind the rest.  The parser of addresses with a port is
the standard library's.  It accepts the result just when the rest is an IPv4 address, and the
forwarder does not start on anything else.
-/

namespace LproxyCv.Services

open LproxyCv.Foundation LproxyCv.Net
open LproxyCv.Config (TunCfg AuthResp)

/-! ## Addresses with a port -/

/-- A port. -/
def parsePort (s : List Char) : Option UInt16 :=
  if IsDecimal s ∧ decimal s < 65536 then some (UInt16.ofNat (decimal s)) else none

/-- An IPv4 address and a port. -/
def parseSocketAddrV4 (s : List Char) : Option SocketAddr :=
  match s.splitOn ':' with
  | [ip, port] => do
      let ip ← Dns.parseIpv4 ip
      let port ← parsePort port
      some ⟨.v4 ip, port⟩
  | _ => none

/-- A group of an IPv6 address: up to four hexadecimal digits. -/
def parseGroup (s : List Char) : Option UInt16 :=
  if s.length = 0 ∨ 4 < s.length then none
  else (s.mapM hexDigit).map fun ds => UInt16.ofNat (ds.foldl (fun n d => n * 16 + d) 0)

/-- Groups with colons between them.  The last two may be written as an IPv4 address, where
that is allowed. -/
def parseGroups (embedded : Bool) (s : List Char) : Option (List UInt16) :=
  if s = [] then some []
  else
    let parts := s.splitOn ':'
    match parts.getLast?.bind Dns.parseIpv4, embedded with
    | some v4, true =>
        (parts.dropLast.mapM parseGroup).map fun groups =>
          groups ++ [v4.a.toUInt16 * 256 + v4.b.toUInt16, v4.c.toUInt16 * 256 + v4.d.toUInt16]
    | _, _ => parts.mapM parseGroup

/-- What is in front of the first two colons in a row, and what is behind them. -/
def cutAtGap : List Char → Option (List Char × List Char)
  | [] => none
  | c :: s =>
    if c = ':' ∧ s.head? = some ':' then some ([], s.tail)
    else (cutAtGap s).map fun p => (c :: p.1, p.2)

/-- The address of eight groups. -/
def ofSegments : List UInt16 → Option Ipv6Addr
  | [a, b, c, d, e, f, g, h] => some ⟨a, b, c, d, e, f, g, h⟩
  | _ => none

/-- An IPv6 address. -/
def parseIpv6 (s : List Char) : Option Ipv6Addr :=
  match cutAtGap s with
  | some (front, back) => do
      let front ← parseGroups false front
      let back ← parseGroups true back
      if front.length + back.length < 8 then
        ofSegments (front ++ List.replicate (8 - (front.length + back.length)) 0 ++ back)
      else none
  | none => (parseGroups true s).bind ofSegments

/-- An IPv6 address with a scope, if there is one. -/
def parseScoped (s : List Char) : Option Ipv6Addr :=
  match s.splitOn '%' with
  | [ip] => parseIpv6 ip
  | [ip, scope] => if IsDecimal scope ∧ decimal scope < 4294967296 then parseIpv6 ip else none
  | _ => none

/-- An IPv6 address in brackets, and a port. -/
def parseSocketAddrV6 (s : List Char) : Option SocketAddr :=
  match s.splitOn ']' with
  | ['[' :: ip, ':' :: port] => do
      let ip ← parseScoped ip
      let port ← parsePort port
      some ⟨.v6 ip, port⟩
  | _ => none

/-- An address with a port. -/
def parseSocketAddr (s : String) : Option SocketAddr :=
  (parseSocketAddrV4 s.toList).or (parseSocketAddrV6 s.toList)

/-! ## Colons -/

theorem colon_mem_of_cutAtGap {s : List Char} {p : List Char × List Char}
    (h : cutAtGap s = some p) : ':' ∈ s := by
  induction s generalizing p with
  | nil => cases h
  | cons c s ih =>
    unfold cutAtGap at h
    split at h
    · rename_i hgap
      rw [hgap.1]
      exact List.mem_cons_self
    · obtain ⟨q, hq, _⟩ := Option.map_eq_some_iff.mp h
      exact List.mem_cons_of_mem _ (ih hq)

theorem length_ofSegments {groups : List UInt16} {addr : Ipv6Addr}
    (h : ofSegments groups = some addr) : groups.length = 8 := by
  unfold ofSegments at h
  split at h
  · rfl
  · cases h

theorem length_of_mapM {α β : Type} {f : α → Option β} {xs : List α} {ys : List β}
    (h : xs.mapM f = some ys) : ys.length = xs.length := by
  induction xs generalizing ys with
  | nil =>
    cases h
    rfl
  | cons x xs ih =>
    simp only [List.mapM_cons, Option.pure_def, Option.bind_eq_bind, Option.bind_eq_some_iff,
      Option.some.injEq] at h
    obtain ⟨y, _, ys', hys, rfl⟩ := h
    rw [List.length_cons, ih hys, List.length_cons]

/-- Without a colon there are two groups at most. -/
theorem length_parseGroups_le {embedded : Bool} {s : List Char} {groups : List UInt16}
    (hcolon : ':' ∉ s) (h : parseGroups embedded s = some groups) : groups.length ≤ 2 := by
  unfold parseGroups at h
  split at h
  · cases h
    exact Nat.zero_le _
  · rw [List.splitOn_eq_singleton hcolon] at h
    dsimp only at h
    split at h
    · cases h
      exact Nat.le_refl _
    · rw [length_of_mapM h]
      exact Nat.le_succ 1

/-- There is a colon in every IPv6 address. -/
theorem colon_mem_of_parseIpv6 {s : List Char} {addr : Ipv6Addr} (h : parseIpv6 s = some addr) :
    ':' ∈ s := by
  by_contra hcolon
  unfold parseIpv6 at h
  split at h
  · rename_i hcut
    exact hcolon (colon_mem_of_cutAtGap hcut)
  · obtain ⟨groups, hgroups, hsegments⟩ := Option.bind_eq_some_iff.mp h
    have hle := length_parseGroups_le hcolon hgroups
    have height := length_ofSegments hsegments
    omega

theorem colon_mem_of_parseScoped {s : List Char} {addr : Ipv6Addr}
    (h : parseScoped s = some addr) : ':' ∈ s := by
  have hjoin : ['%'].intercalate (s.splitOn '%') = s := List.intercalate_splitOn '%'
  unfold parseScoped at h
  split at h
  · rename_i ip hsplit
    rw [← hjoin, hsplit]
    simpa [List.intercalate] using colon_mem_of_parseIpv6 h
  · rename_i ip scope hsplit
    split at h
    · rw [← hjoin, hsplit]
      have hmem := colon_mem_of_parseIpv6 h
      simp [List.intercalate, List.intersperse, hmem]
    · cases h
  · cases h

/-- An IPv6 address and its port have two colons at least. -/
theorem two_le_count_of_parseSocketAddrV6 {s : List Char} {addr : SocketAddr}
    (h : parseSocketAddrV6 s = some addr) : 2 ≤ s.count ':' := by
  have hjoin : [']'].intercalate (s.splitOn ']') = s := List.intercalate_splitOn ']'
  unfold parseSocketAddrV6 at h
  split at h
  · rename_i ip port hsplit
    obtain ⟨v6, hv6, _⟩ := Option.bind_eq_some_iff.mp h
    have hmem := List.count_pos_iff.mpr (colon_mem_of_parseScoped hv6)
    rw [← hjoin, hsplit]
    simp only [List.intercalate, List.intersperse, List.flatten_cons, List.flatten_nil,
      List.count_append, List.count_cons, List.count_nil]
    simp
    omega
  · cases h

/-! ## Servers without a port -/

/-- With the port behind it, a text without a colon is an address just when it is one of IPv4. -/
theorem parseSocketAddr_append_isSome_iff {server : String} (h : ':' ∉ server.toList) :
    (parseSocketAddr (server ++ ":53")).isSome = true ↔
      (Dns.parseIpv4 server.toList).isSome = true := by
  have htext : (server ++ ":53").toList = server.toList ++ [':', '5', '3'] := by
    rw [String.toList_append]
    rfl
  have hv6 : parseSocketAddrV6 (server.toList ++ [':', '5', '3']) = none := by
    rw [Option.eq_none_iff_forall_ne_some]
    intro addr haddr
    have hle := two_le_count_of_parseSocketAddrV6 haddr
    rw [List.count_append, List.count_eq_zero.mpr h] at hle
    exact absurd hle (by decide)
  have hport : parsePort ['5', '3'] = some 53 := by decide
  have hsplit : (server.toList ++ [':', '5', '3']).splitOn ':' = [server.toList, ['5', '3']] := by
    rw [List.splitOn_append_cons_self_of_not_mem h]
    rfl
  unfold parseSocketAddr parseSocketAddrV4
  rw [htext, hv6, hsplit]
  simp only [hport]
  cases Dns.parseIpv4 server.toList <;> rfl

theorem toList_withoutPort (server : String) :
    (Config.withoutPort server).toList = server.toList.takeWhile (· ≠ ':') := by
  unfold Config.withoutPort
  split
  · rw [String.toList_ofList]
  · rename_i hno
    refine (List.takeWhile_eq_self_iff.mpr fun c hc => ?_).symm
    rw [decide_eq_true_iff]
    rintro rfl
    exact hno (List.contains_iff_mem.mpr hc)

theorem colon_not_mem_withoutPort (server : String) :
    ':' ∉ (Config.withoutPort server).toList := by
  rw [toList_withoutPort]
  intro hmem
  simpa using List.all_eq_true.mp List.all_takeWhile _ hmem

/-! ## The server of the forwarder -/

/-- The local DNS server that the reply names, or the default one. -/
def repliedServer (reply : Config.Value) : String :=
  ((reply.field "tuncfg").field "local_dns_server").asStr.getD Config.defaultDnsServer

/-- The local DNS server as it was named: by the user, if at all, else by the reply. -/
def namedServer (hardcoreDns : String) (reply : Config.Value) : String :=
  if 0 < hardcoreDns.length then hardcoreDns else repliedServer reply

/-- The configuration has what was named, without a port. -/
theorem defaultDnsServer_eq {json : String → Option Config.Value} {s : String}
    {reply : Config.Value} {rsp : AuthResp} {cfg : TunCfg} (hjson : json s = some reply)
    (hrsp : AuthResp.fromJsonStr json s = some rsp) (hcfg : rsp.tuncfg = some cfg)
    (hardcoreDns : String) :
    ((Service.new hardcoreDns).replaceUserDefaultDnsServer cfg).defaultDnsServer =
      Config.withoutPort (namedServer hardcoreDns reply) := by
  simp only [AuthResp.fromJsonStr, hjson, Option.bind_eq_bind, Option.bind_some,
    Option.some.injEq] at hrsp
  subst hrsp
  dsimp only at hcfg
  split at hcfg
  · cases hcfg
    unfold Service.replaceUserDefaultDnsServer namedServer
    by_cases hnamed : 0 < hardcoreDns.length
    · simp [Service.new, hnamed]
    · simp [Service.new, hnamed, repliedServer, Config.TunCfg.ofValue]
  · cases hcfg

/-- The address that the forwarder hands to its resolver is one, and the forwarder starts with
it, whatever the domains. -/
def ForwarderStarts (cfg : TunCfg) : Prop :=
  ∃ addr, parseSocketAddr (Dns.Router.dnsServerAddress cfg) = some addr ∧
    ∀ domainArray, ∃ r, Dns.Router.new parseSocketAddr cfg domainArray = some r ∧
      r.1.dnsServerAddr = addr

theorem forwarderStarts_iff {cfg : TunCfg} (h : ':' ∉ cfg.defaultDnsServer.toList) :
    ForwarderStarts cfg ↔ (Dns.parseIpv4 cfg.defaultDnsServer.toList).isSome = true := by
  have haddress : Dns.Router.dnsServerAddress cfg = cfg.defaultDnsServer ++ ":53" := by
    rw [Dns.Router.dnsServerAddress, if_neg fun hmem => h (List.contains_iff_mem.mp hmem)]
  rw [← parseSocketAddr_append_isSome_iff h, ← haddress, Option.isSome_iff_exists]
  constructor
  · rintro ⟨addr, haddr, _⟩
    exact ⟨addr, haddr⟩
  · rintro ⟨addr, haddr⟩
    refine ⟨addr, haddr, fun domainArray => ?_⟩
    rw [Dns.Router.new, haddr]
    exact ⟨_, rfl, rfl⟩

/-- The forwarder starts just when the local DNS server was named by an IPv4 address, with or
without something behind a colon. -/
theorem forwarderStarts_named_iff (json : String → Option Config.Value) (s : String)
    (reply : Config.Value) (rsp : AuthResp) (cfg : TunCfg) (hardcoreDns : String)
    (hjson : json s = some reply) (hrsp : AuthResp.fromJsonStr json s = some rsp)
    (hcfg : rsp.tuncfg = some cfg) :
    ForwarderStarts ((Service.new hardcoreDns).replaceUserDefaultDnsServer cfg) ↔
      (Dns.parseIpv4 ((namedServer hardcoreDns reply).toList.takeWhile (· ≠ ':'))).isSome =
        true := by
  have hserver := defaultDnsServer_eq hjson hrsp hcfg hardcoreDns
  have hcolon := colon_not_mem_withoutPort (namedServer hardcoreDns reply)
  rw [← toList_withoutPort, ← hserver]
  rw [← hserver] at hcolon
  exact forwarderStarts_iff hcolon

/-- A reply that names a local DNS server. -/
def replyNaming (server : String) : Config.Value :=
  .object [("tuncfg", .object [("local_dns_server", .string server)])]

/-- A server with a port is taken without it. -/
theorem forwarderStarts_withPort :
    ForwarderStarts ((Service.new "").replaceUserDefaultDnsServer
      (Config.TunCfg.ofValue ((replyNaming "8.8.8.8:5353").field "tuncfg") "")) :=
  (forwarderStarts_named_iff (fun _ => some (replyNaming "8.8.8.8:5353"))
    "\x7b\"tuncfg\":\x7b\"local_dns_server\":\"8.8.8.8:5353\"\x7d\x7d" _ _ _ "" rfl rfl rfl).mpr
    (by decide +kernel)

/-- The name of a host, an IPv6 address, nothing at all, and the name of a host from the user. -/
theorem names_not_forwarderStarts :
    let fromReply := fun server =>
      (Service.new "").replaceUserDefaultDnsServer
        (Config.TunCfg.ofValue ((replyNaming server).field "tuncfg") "")
    ¬ ForwarderStarts (fromReply "dns.lan") ∧ ¬ ForwarderStarts (fromReply "[::1]:53") ∧
      ¬ ForwarderStarts (fromReply "") ∧
      ¬ ForwarderStarts ((Service.new "localhost").replaceUserDefaultDnsServer
        (Config.TunCfg.ofValue ((replyNaming "8.8.8.8").field "tuncfg") "")) := by
  have hnot : ∀ cfg : TunCfg, ':' ∉ cfg.defaultDnsServer.toList ∧
      (Dns.parseIpv4 cfg.defaultDnsServer.toList).isSome = false → ¬ ForwarderStarts cfg := by
    intro cfg h hstarts
    have hsome := (forwarderStarts_iff h.1).mp hstarts
    rw [h.2] at hsome
    cases hsome
  refine ⟨hnot _ ?_, hnot _ ?_, hnot _ ?_, hnot _ ?_⟩ <;> decide +kernel

end LproxyCv.Services
