import LproxyCv.Net

set_option autoImplicit false

/-!
# Services: the log of the accesses

Which clients have asked for which names since the last report.  An address is known
under the name that was last resolved to it, else under its own text (`ipText`).
-/

namespace LproxyCv.Services

open LproxyCv.Net

/-- Names that were resolved, with the addresses they were resolved to. -/
abbrev DNSAddRecord : Type := List (String × IpAddr)

/-- The name of an address, and the clients of a name. -/
structure AccLog where
  domains : List (IpAddr × String)
  accDomains : List (String × List IpAddr)
  deriving DecidableEq

namespace AccLog

/-- Nothing is logged. -/
def new : AccLog := ⟨[], []⟩

/-- The value of a key. -/
def lookup {α β : Type} [DecidableEq α] (entries : List (α × β)) (key : α) : Option β :=
  (entries.find? fun p => p.1 = key).map Prod.snd

/-- Set the value of a key. -/
def insert {α β : Type} [DecidableEq α] (entries : List (α × β)) (key : α) (value : β) :
    List (α × β) :=
  (key, value) :: entries.filter fun p => p.1 ≠ key

/-- Log an access of a client to an address. -/
def logOne (ipText : IpAddr → String) (l : AccLog) (access : IpAddr × IpAddr) : AccLog :=
  let domain := (lookup l.domains access.2).getD (ipText access.2)
  let srcAddrs := (lookup l.accDomains domain).getD []
  { l with accDomains := insert l.accDomains domain (srcAddrs.insert access.1) }

/-- Log accesses. -/
def log (ipText : IpAddr → String) (l : AccLog) (v : List (IpAddr × IpAddr)) : AccLog :=
  v.foldl (logOne ipText) l

/-- Names have been resolved. -/
def domainAdd (l : AccLog) (domain : DNSAddRecord) : AccLog :=
  domain.foldl (fun l dd => { l with domains := insert l.domains dd.2 dd.1 }) l

/-- Forget the accesses. -/
def clearLog (l : AccLog) : AccLog := { l with accDomains := [] }

/-- Whether there is nothing to report. -/
def isEmpty (l : AccLog) : Bool := l.accDomains.isEmpty

end AccLog

end LproxyCv.Services
