import LproxyCv.Tunnels.TunMgr

set_option autoImplicit false

/-!
# Config: what the server's reply says

The configuration of the program is the server's answer to its authentication, a JSON
object.  `Value` is what a text is read as; the reading itself is the `serde_json`
crate, a parameter.  A field that is missing, or of another type, has its default.
-/

namespace LproxyCv.Config

/-- The default DNS server. -/
def defaultDnsServer : String := "223.5.5.5"

/-! ## JSON -/

/-- A number: not negative, negative, or neither of the two. -/
inductive Number where
  | posInt (n : UInt64)
  | negInt (n : Int64)
  | float
  deriving DecidableEq, Repr

/-- A JSON value. -/
inductive Value where
  | null
  | bool (b : Bool)
  | number (n : Number)
  | string (s : String)
  | array (vs : List Value)
  | object (fields : List (String × Value))

namespace Value

/-- The field of an object; null if there is none. -/
def field (v : Value) (key : String) : Value :=
  match v with
  | object fields => ((fields.find? fun p => p.1 = key).map Prod.snd).getD null
  | _ => null

/-- The text of a value that is one. -/
def asStr : Value → Option String
  | string s => some s
  | _ => none

/-- The truth value of a value that is one. -/
def asBool : Value → Option Bool
  | bool b => some b
  | _ => none

/-- The number of a value that is one of 64 bits. -/
def asU64 : Value → Option UInt64
  | number (.posInt n) => some n
  | _ => none

/-- The number of a value that is one of 64 bits with a sign. -/
def asI64 : Value → Option Int64
  | number (.posInt n) => if n.toNat < 2 ^ 63 then some (Int64.ofNat n.toNat) else none
  | number (.negInt n) => some n
  | _ => none

/-- The values of an array. -/
def asArray : Value → Option (List Value)
  | array vs => some vs
  | _ => none

/-- Whether a value has fields. -/
def isObject : Value → Bool
  | object _ => true
  | _ => false

end Value

/-! ## The reply -/

/-- The configuration as the server sends it: what the tunnels take from it, and the rest. -/
structure TunCfg extends Tunnels.TunCfg where
  tunnelNumber : Nat
  domainsVer : String
  domainArray : Option (List String)
  cfgMonitorUrl : String
  cfgAccessReportUrl : String
  workAsGlobal : Bool
  deriving DecidableEq

/-- The server's reply. -/
structure AuthResp where
  error : Int64
  token : String
  restart : Bool
  needUpgrade : Bool
  upgradeUrl : String
  tuncfg : Option TunCfg
  deriving DecidableEq

/-- The address of a server without its port. -/
def withoutPort (server : String) : String :=
  if server.toList.contains ':' then String.ofList (server.toList.takeWhile (· ≠ ':')) else server

/-- The configuration of an object. -/
def TunCfg.ofValue (v : Value) (token : String) : TunCfg :=
  { tunnelNumber := (((v.field "tunnel_number").asU64.map UInt64.toNat).getD 2)
    tunnelUrl := (v.field "tunnel_url").asStr.getD "wss://127.0.0.1/tun"
    xportUrl := (v.field "xport_url").asStr.getD ""
    cfgMonitorUrl := (v.field "cfg_monitor_url").asStr.getD ""
    cfgAccessReportUrl := (v.field "cfg_access_report_url").asStr.getD ""
    tunnelReqCap := ((v.field "tunnel_req_cap").asU64.map UInt64.toNat).getD 100
    requestQuota := ((v.field "request_quota").asU64.map UInt64.toNat).getD 100
    relayDomain := (v.field "relay_domain").asStr.getD "127.0.0.1"
    relayPort := ((v.field "relay_port").asU64.map UInt64.toUInt16).getD 12345
    domainsVer := (v.field "domains_ver").asStr.getD "0.1.0"
    defaultDnsServer := withoutPort ((v.field "local_dns_server").asStr.getD defaultDnsServer)
    dnsTunnelNumber := ((v.field "dns_tunnel_number").asU64.map UInt64.toNat).getD 1
    workAsGlobal := (v.field "work_as_global").asBool.getD false
    domainArray := some (((v.field "domain_array").asArray.getD []).filterMap Value.asStr)
    token := token }

/-- The reply of a text, if it is JSON. -/
def AuthResp.fromJsonStr (json : String → Option Value) (s : String) : Option AuthResp := do
  let v ← json s
  let token := (v.field "token").asStr.getD ""
  let tuncfg := v.field "tuncfg"
  some
    { error := (v.field "error").asI64.getD 0
      token := token
      restart := (v.field "restart").asBool.getD false
      needUpgrade := (v.field "need_upgrade").asBool.getD false
      upgradeUrl := (v.field "upgrade_url").asStr.getD ""
      tuncfg := if tuncfg.isObject then some (TunCfg.ofValue tuncfg token) else none }

/-- A configuration that was just read has its domains. -/
theorem domainArray_of_fromJsonStr {json : String → Option Value} {s : String} {rsp : AuthResp}
    {cfg : TunCfg} (h : AuthResp.fromJsonStr json s = some rsp) (hcfg : rsp.tuncfg = some cfg) :
    ∃ domains, cfg.domainArray = some domains := by
  unfold AuthResp.fromJsonStr at h
  simp only [Option.bind_eq_bind, Option.bind_eq_some_iff, Option.some.injEq] at h
  obtain ⟨v, _, rfl⟩ := h
  dsimp only at hcfg
  split at hcfg
  · cases hcfg
    exact ⟨_, rfl⟩
  · cases hcfg

end LproxyCv.Config
