import LproxyCv.Services.Members

set_option autoImplicit false

/-!
# Services: the gateway

What the program is for: the packets to the addresses that the server has given for the configured
domains, and to the configured ranges, go to the service; nothing else changes (`policy`).

`Gateway` puts the forwarder beside the service on its system.  The forwarder is started when the
sets are made, before the service is configured, and adds to them as it gets its answers, whatever
happens to the service meanwhile; once the service is configured the rules and the sets together
treat each packet as it should be (`run_follows`).
-/

namespace LproxyCv.Services

open LproxyCv.Foundation LproxyCv.Lws LproxyCv.Net LproxyCv.Dns

/-! ## What it is for -/

def familyOf : IpAddr → Family
  | .v4 _ => .v4
  | .v6 _ => .v6

open Classical in
/-- What should become of a packet because of the service, if anything, when these addresses are
to go to it. -/
noncomputable def policy {δ : Type} (named : IpAddr → Prop) (family : Family) (p : Packet δ) :
    Option (Verdict δ) :=
  if p.socket then some (.accept { p with mark := 1 })
  else if (named p.dst ∧ familyOf p.dst = family) ∧ (p.proto = .tcp ∨ p.proto = .udp) then
    some (.tproxy (p.remark 1 1) localTproxyServerPort (loopbackOf family))
  else none

/-! ## The forwarder beside the service -/

/-- The service on its system, and its forwarder. -/
structure Gateway (M : Type) where
  host : Host M
  router : Router

/-- What happens. -/
inductive GatewayEvent where
  | service (e : ServiceEvent)
  /-- other programs change the tables -/
  | others
  /-- a frame of the server comes through a tunnel, and this is done with it -/
  | frame (index : Nat) (msg : RMessage) (effects : List DnsEffect)
  /-- the domains are put in, when the forwarder is made, and when there are others -/
  | domains (domainArray : List String)
  /-- whatever else happens to the forwarder -/
  | forwarder

/-- The addresses that are put into the sets. -/
def saved (f : Router) : DnsEffect → List IpAddr
  | .saveIpset p => (f.saveIpset p).1
  | _ => []

namespace Gateway

section

variable {M : Type} (env : Env) {T : Tools M} (K : Kernel T) (unicode : UnicodeLower)

/-- The steps from when the sets are made until they are made again. -/
inductive Step (w : Gateway M) : GatewayEvent → Gateway M → Prop where
  | service {e : ServiceEvent} {h' : Host M} : Host.StepOf env T false w.host (.service e) h' →
      (∀ cmd ∈ w.host.world.commands e, cmd.aboutSets = false) →
      Step w (.service e) ⟨h', w.router⟩
  | others {h' : Host M} : Host.Step env T w.host .others h' →
      (∀ name ∈ ownSets, K.sets h'.system name = K.sets w.host.system name) →
      Step w .others ⟨h', w.router⟩
  | frame {index fuel : Nat} {t t' : DnsTunnel} {msg : RMessage} {elapsed : UInt64} {sent : Bool}
      {effects : List DnsEffect} {m' : M} : w.router.tunnels[index]? = some (some t) →
      t.onTunnelMsg unicode fuel msg elapsed sent = .ok (t', effects) →
      K.send w.host.system ((effects.flatMap (saved w.router)).map (ipMessage K.endian)) = some m' →
      Step w (.frame index msg effects) ⟨{ w.host with system := m' },
        { w.router with toForwarder := w.router.toForwarder.setTunnel index (some t') }⟩
  /-- as for a forwarder that is made (`Router.new_updateDomains`) -/
  | domains (domainArray : List String) {m' : M} :
      K.send w.host.system ((w.router.updateDomains domainArray).2.map (entryMessage K.endian)) =
        some m' →
      Step w (.domains domainArray)
        ⟨{ w.host with system := m' }, (w.router.updateDomains domainArray).1⟩
  /-- nothing else is sent to the kernel -/
  | forwarder {router' : Router} : router'.workAsGlobal = w.router.workAsGlobal →
      Step w .forwarder ⟨w.host, router'⟩

end

/-- No commands are given, and no others change the tables. -/
def Calm {M : Type} (w : Gateway M) : GatewayEvent → Prop
  | .service e => w.host.world.commands e = []
  | .others => False
  | _ => True

end Gateway

/-! ## The addresses that are named -/

/-- The range has the address. -/
def rangeHas (ir : IPV4range) (ip : IpAddr) : Prop :=
  if ir.mask < 32 then 0 < ir.mask ∧ within ip ir.addr ir.mask.toNat = true
  else ip = .v4 ir.addr ∧ unspecified ip = false

/-- An answer of the server, or a configured range, has the address. -/
inductive GatewayEvent.Names : GatewayEvent → IpAddr → Prop where
  | answer {index : Nat} {msg : RMessage} {effects : List DnsEffect} {p : DnsPacket}
      {domain : String} {ip : IpAddr} : .saveIpset p ∈ effects →
      (domain, ip) ∈ saveDomainRecord p → routable ip = true → unspecified ip = false →
      Names (.frame index msg effects) ip
  | range {domainArray : List String} {text : String} {ir : IPV4range} {ip : IpAddr} :
      text ∈ domainArray → ipv4rangeParse text = some ir → routable (.v4 ir.addr) = true →
      rangeHas ir ip → Names (.domains domainArray) ip

/-- The addresses that are put into the sets unless all traffic goes to the service. -/
def savedOf : DnsEffect → List IpAddr
  | .saveIpset p => ((saveDomainRecord p).map Prod.snd).filter routable
  | _ => []

/-- What is added to the sets. -/
def GatewayEvent.additions : GatewayEvent → List Addition
  | .frame _ _ effects => (effects.flatMap savedOf).map ipAddition
  | .domains domainArray => (Router.newDomap domainArray).2.map entryAddition
  | _ => []

theorem saved_eq {f : Router} (hglobal : f.workAsGlobal = false) : saved f = savedOf := by
  funext effect
  cases effect with
  | saveIpset p =>
      show (f.saveIpset p).1 = ((saveDomainRecord p).map Prod.snd).filter routable
      rw [Router.saveIpset, hglobal, saveDomainRecord]
      show List.filterMap _ _ = _
      induction p.answers.filterMap DnsRecord.address with
      | nil => rfl
      | cons r rs ih =>
          rw [List.map_cons, List.filter_cons, List.filterMap_cons, ih]
          cases routable r.2 <;> rfl
  | _ => rfl

theorem mem_newDomap_iff {domainArray : List String} {entry : IpsetEntry} :
    entry ∈ (Router.newDomap domainArray).2 ↔ ∃ text ∈ domainArray, ∃ ir,
      ipv4rangeParse text = some ir ∧ entry ∈ Router.ipsetEntries ir := by
  induction domainArray using List.reverseRecOn with
  | nil => simp [Router.newDomap]
  | append_singleton texts text ih =>
      have hsplit : (∃ text' ∈ texts ++ [text], ∃ ir,
          ipv4rangeParse text' = some ir ∧ entry ∈ Router.ipsetEntries ir) ↔
            entry ∈ (Router.newDomap texts).2 ∨ ∃ ir,
              ipv4rangeParse text = some ir ∧ entry ∈ Router.ipsetEntries ir := by
        rw [ih]
        simp only [List.mem_append, List.mem_singleton, or_and_right, exists_or, exists_eq_left]
      rw [hsplit, Router.newDomap, List.foldl_append, List.foldl_cons, List.foldl_nil]
      cases hparse : ipv4rangeParse text with
      | none =>
          simp only [reduceCtorEq, false_and, exists_false, or_false]
          rfl
      | some ir =>
          simp only [Option.some.injEq, exists_eq_left', List.mem_append]
          rfl

/-- The sets for the traffic of a family. -/
def setsOf : Family → List String
  | .v4 => [ipsetTable, ipsetNethashTable]
  | .v6 => [ipsetTable6]

theorem setsOf_subset (family : Family) : ∀ name ∈ setsOf family, name ∈ ownSets := by
  cases family <;> decide

theorem brings_ip (family : Family) (ip' ip : IpAddr) :
    (∃ name ∈ setsOf family, Brings (ipAddition ip') (name, ip)) ↔
      ip = ip' ∧ unspecified ip = false ∧ familyOf ip = family := by
  have hv4 : ∀ addr, Elem.fits (typeOf ipsetTable) (.host (.v4 addr)) =
      !unspecified (.v4 addr) := by
    intro addr
    simp [Elem.fits, typeOf]
  have hv6 : ∀ addr, Elem.fits (typeOf ipsetTable6) (.host (.v6 addr)) =
      !unspecified (.v6 addr) := by
    intro addr
    simp [Elem.fits, typeOf, ipsetTable, ipsetTable6]
  have hhome : (∃ name ∈ setsOf family, Brings (ipAddition ip') (name, ip)) ↔
      familyOf ip' = family ∧ Brings (ipAddition ip') (homeOf ip', ip) := by
    cases ip' <;> cases family <;>
      simp [setsOf, Brings, ipAddition, homeOf, familyOf, ipsetTable, ipsetTable6,
        ipsetNethashTable]
  rw [hhome]
  have hbrings : Brings (ipAddition ip') (homeOf ip', ip) ↔
      unspecified ip' = false ∧ ip = ip' := by
    cases ip' with
    | v4 addr => simp [Brings, ipAddition, homeOf, hv4, Elem.covers]
    | v6 addr => simp [Brings, ipAddition, homeOf, hv6, Elem.covers]
  rw [hbrings]
  constructor
  · rintro ⟨hfamily, hspecified, rfl⟩
    exact ⟨rfl, hspecified, hfamily⟩
  · rintro ⟨rfl, hspecified, hfamily⟩
    exact ⟨hfamily, hspecified, rfl⟩

theorem brings_range (family : Family) (ir : IPV4range) (ip : IpAddr) :
    (∃ entry ∈ Router.ipsetEntries ir, ∃ name ∈ setsOf family,
        Brings (entryAddition entry) (name, ip)) ↔
      routable (.v4 ir.addr) = true ∧ rangeHas ir ip ∧ familyOf ip = family := by
  have hroutable : routable (.v4 ir.addr) = true ↔
      ¬ (ir.addr.a = 127 ∨ (224 ≤ ir.addr.a ∧ ir.addr.a ≤ 239)) := by
    simp only [routable, Bool.and_eq_true, Bool.not_eq_true', beq_eq_false_iff_ne,
      Bool.and_eq_false_iff, decide_eq_false_iff_not, not_or, not_and_or, ne_eq]
  rw [hroutable, Router.ipsetEntries]
  split
  · rename_i hout
    simp [hout]
  · rename_i hin
    rw [rangeHas]
    split
    · rename_i hmask
      have hnet : (∃ name ∈ setsOf family,
          Brings (entryAddition (.nethash ir.addr ir.mask)) (name, ip)) ↔
            family = .v4 ∧ 0 < ir.mask ∧ within ip ir.addr ir.mask.toNat = true := by
        have hle : ir.mask ≤ 32 := UInt8.le_of_lt hmask
        cases family <;>
          simp [setsOf, Brings, entryAddition, Elem.fits, Elem.covers, typeOf, ipsetTable,
            ipsetTable6, ipsetNethashTable, hle]
      have hv4 : within ip ir.addr ir.mask.toNat = true → familyOf ip = .v4 := by
        intro hwithin
        cases ip with
        | v4 addr => rfl
        | v6 addr => cases hwithin
      simp only [List.mem_singleton, exists_eq_left, hnet]
      constructor
      · rintro ⟨rfl, hpos, hwithin⟩
        exact ⟨hin, ⟨hpos, hwithin⟩, hv4 hwithin⟩
      · rintro ⟨_, ⟨hpos, hwithin⟩, rfl⟩
        exact ⟨hv4 hwithin, hpos, hwithin⟩
    · have hhost := brings_ip family (.v4 ir.addr) ip
      simp only [List.mem_singleton, exists_eq_left]
      refine hhost.trans ?_
      rw [and_assoc]
      exact (and_iff_right hin).symm

theorem brings_iff (e : GatewayEvent) (family : Family) (ip : IpAddr) :
    (∃ b ∈ e.additions, ∃ name ∈ setsOf family, Brings b (name, ip)) ↔
      e.Names ip ∧ familyOf ip = family := by
  cases e with
  | service e =>
      refine iff_of_false ?_ ?_
      · rintro ⟨b, hb, _⟩
        cases hb
      · rintro ⟨hnames, _⟩
        cases hnames
  | others =>
      refine iff_of_false ?_ ?_
      · rintro ⟨b, hb, _⟩
        cases hb
      · rintro ⟨hnames, _⟩
        cases hnames
  | forwarder =>
      refine iff_of_false ?_ ?_
      · rintro ⟨b, hb, _⟩
        cases hb
      · rintro ⟨hnames, _⟩
        cases hnames
  | frame index msg effects =>
      constructor
      · rintro ⟨b, hb, hbrings⟩
        obtain ⟨ip', hip', rfl⟩ := List.mem_map.mp hb
        obtain ⟨rfl, hspecified, hfamily⟩ := (brings_ip family ip' ip).mp hbrings
        obtain ⟨effect, heffect, hsaved⟩ := List.mem_flatMap.mp hip'
        cases effect with
        | saveIpset p =>
            obtain ⟨hmem, hroutable⟩ := List.mem_filter.mp hsaved
            obtain ⟨⟨domain, _⟩, hrecord, rfl⟩ := List.mem_map.mp hmem
            exact ⟨.answer heffect hrecord hroutable hspecified, hfamily⟩
        | tunnel effect => cases hsaved
        | udpSend tx content addr => cases hsaved
      · rintro ⟨hnames, hfamily⟩
        cases hnames with
        | answer heffect hrecord hroutable hspecified =>
            refine ⟨ipAddition ip, List.mem_map_of_mem (List.mem_flatMap.mpr ⟨_, heffect, ?_⟩),
              (brings_ip family ip ip).mpr ⟨rfl, hspecified, hfamily⟩⟩
            exact List.mem_filter.mpr ⟨List.mem_map.mpr ⟨_, hrecord, rfl⟩, hroutable⟩
  | domains domainArray =>
      constructor
      · rintro ⟨b, hb, hbrings⟩
        obtain ⟨entry, hentry, rfl⟩ := List.mem_map.mp hb
        obtain ⟨text, htext, ir, hparse, hmem⟩ := mem_newDomap_iff.mp hentry
        obtain ⟨hroutable, hhas, hfamily⟩ := (brings_range family ir ip).mp ⟨entry, hmem, hbrings⟩
        exact ⟨.range htext hparse hroutable hhas, hfamily⟩
      · rintro ⟨hnames, hfamily⟩
        cases hnames with
        | range htext hparse hroutable hhas =>
            obtain ⟨entry, hentry, hbrings⟩ :=
              (brings_range family _ ip).mpr ⟨hroutable, hhas, hfamily⟩
            exact ⟨entryAddition entry, List.mem_map_of_mem (mem_newDomap_iff.mpr
              ⟨_, htext, _, hparse, hentry⟩), hbrings⟩

/-! ## Runs -/

namespace Gateway

section

variable {M : Type} {env : Env} {T : Tools M} {K : Kernel T} {unicode : UnicodeLower}
  {w w' : Gateway M} {e : GatewayEvent}

/-- The forwarder saves addresses, and there are sets for them. -/
structure Ready (K : Kernel T) (w : Gateway M) : Prop where
  saves : w.router.workAsGlobal = false
  made : Made (K.sets w.host.system)

/-- The sets have room. -/
structure Roomy (K : Kernel T) (w : Gateway M) : Prop where
  saves : w.router.workAsGlobal = false
  room : Room (K.sets w.host.system)

theorem Ready.step (hready : w.Ready K) (hstep : Step env K unicode w e w') : w'.Ready K := by
  have hputs : ∀ {ι : Type} {message : ι → Option Bytes} {addition : ι → Addition}
      {is : List ι} {m' : M},
      (∀ i, ∃ bs, message i = some bs ∧ Adds K.endian bs (addition i).1 (addition i).2) →
      K.send w.host.system (is.map message) = some m' → Made (K.sets m') := by
    intro ι message addition is m' hadds hsend
    exact (K.run_send hadds hsend).1.preserves (I := Made) (fun _ _ _ h hput => h.put hput)
      hready.made
  cases hstep with
  | service hhost hcmds =>
      obtain ⟨_, hhost⟩ := hhost
      cases hhost with
      | service _ =>
          have hsame := sets_of_run hcmds (K.run_cmds w.host.system _)
          exact ⟨hready.saves, hsame.symm ▸ hready.made⟩
  | others _ hsame =>
      refine ⟨hready.saves, ?_⟩
      intro name hname
      rw [hsame name hname]
      exact hready.made name hname
  | frame _ _ hsend => exact ⟨hready.saves, hputs (adds_ipMessage K.endian) hsend⟩
  | domains _ hsend => exact ⟨hready.saves, hputs (adds_entryMessage K.endian) hsend⟩
  | forwarder hsame => exact ⟨hsame.trans hready.saves, hready.made⟩

theorem Ready.run (hready : w.Ready K) {es : List GatewayEvent}
    (hrun : Run (Step env K unicode) w es w') : w'.Ready K :=
  hrun.preserves (I := Ready K) (fun _ _ _ h hstep => h.step hstep) hready

theorem Step.roomy (hstep : Step env K unicode w e w') (hroomy : w'.Roomy K) :
    w.Roomy K ∧ ∀ a, a.1 ∈ ownSets → (Has (K.sets w'.host.system) a ↔
      Has (K.sets w.host.system) a ∨ ∃ b ∈ e.additions, Brings b a) := by
  have hidle : ∀ a, ¬ ∃ b ∈ ([] : List Addition), Brings b a := by simp
  cases hstep with
  | service hhost hcmds =>
      obtain ⟨_, hhost⟩ := hhost
      cases hhost with
      | service _ =>
          have hsame := sets_of_run hcmds (K.run_cmds w.host.system _)
          refine ⟨⟨hroomy.saves, hsame ▸ hroomy.room⟩, ?_⟩
          intro a _
          show Has (K.sets (T.run w.host.system _)) a ↔ _
          rw [hsame]
          exact (or_iff_left (hidle a)).symm
  | @others h' _ hsame =>
      refine ⟨⟨hroomy.saves, ?_⟩, ?_⟩
      · intro name hname
        rw [← hsame name hname]
        exact hroomy.room name hname
      · intro a ha
        show (∃ set, K.sets h'.system a.1 = some set ∧ _) ↔ _
        rw [hsame a.1 ha]
        exact (or_iff_left (hidle a)).symm
  | @frame index fuel t t' msg elapsed sent effects m' _ _ hsend =>
      have hsaves : w.router.workAsGlobal = false := hroomy.saves
      rw [saved_eq hsaves] at hsend
      obtain ⟨hputs, _⟩ := K.run_send (adds_ipMessage K.endian) hsend
      obtain ⟨hroom, hall⟩ := run_puts hputs hroomy.room
      exact ⟨⟨hroomy.saves, hroom⟩, hall⟩
  | domains domainArray hsend =>
      obtain ⟨hputs, _⟩ := K.run_send (adds_entryMessage K.endian) hsend
      obtain ⟨hroom, hall⟩ := run_puts hputs hroomy.room
      exact ⟨⟨hroomy.saves, hroom⟩, hall⟩
  | forwarder hsame =>
      exact ⟨⟨hsame.symm.trans hroomy.saves, hroomy.room⟩,
        fun a _ => (or_iff_left (hidle a)).symm⟩

/-- The sets have what they had, and what is named in the run. -/
theorem run_roomy {es : List GatewayEvent} (hrun : Run (Step env K unicode) w es w')
    (hroomy : w'.Roomy K) :
    w.Roomy K ∧ ∀ a, a.1 ∈ ownSets → (Has (K.sets w'.host.system) a ↔
      Has (K.sets w.host.system) a ∨ ∃ e ∈ es, ∃ b ∈ e.additions, Brings b a) := by
  obtain ⟨hbefore, hall⟩ := Run.accumulates (Roomy K)
    (fun w (a : { a : String × IpAddr // a.1 ∈ ownSets }) => Has (K.sets w.host.system) a.1)
    (fun e a => ∃ b ∈ GatewayEvent.additions e, Brings b a.1)
    (fun _ _ _ hstep hroomy => (hstep.roomy hroomy).1)
    (fun _ _ _ hstep hroomy a => (hstep.roomy hroomy).2 a.1 a.2) hrun hroomy
  exact ⟨hbefore, fun a ha => hall ⟨a, ha⟩⟩

/-- What is sent to the kernel changes no table. -/
theorem Step.view (hstep : Step env K unicode w e w') (hcalm : w.Calm e) :
    T.view w'.host.system = T.view w.host.system := by
  cases hstep with
  | @service e h' hhost _ =>
      obtain ⟨_, hhost⟩ := hhost
      cases hhost with
      | service _ =>
          have hnone : w.host.world.commands e = [] := hcalm
          show T.view (T.run w.host.system (w.host.world.commands e)) = _
          rw [hnone]
          rfl
  | others _ _ => exact hcalm.elim
  | frame _ _ hsend => exact (K.run_send (adds_ipMessage K.endian) hsend).2
  | domains _ hsend => exact (K.run_send (adds_entryMessage K.endian) hsend).2
  | forwarder _ => rfl

theorem view_of_calm {es : List GatewayEvent}
    (hrun : Run (Guarded Calm (Step env K unicode)) w es w') :
    T.view w'.host.system = T.view w.host.system := by
  refine hrun.preserves (I := fun v => T.view v.host.system = T.view w.host.system) ?_ rfl
  rintro v e v' hv ⟨hcalm, hstep⟩
  exact (hstep.view hcalm).trans hv

theorem Step.bounded (hsure : T.Sure) (hstep : Step env K unicode w e w')
    (hbounded : w.host.Bounded T false) : w'.host.Bounded T false := by
  have hsame : w.Calm e → w'.host.Bounded T false := by
    intro hcalm family
    rw [hstep.view hcalm]
    exact hbounded family
  cases hstep with
  | service hhost _ => exact hbounded.step hsure hhost
  | others hhost _ =>
      refine hbounded.step hsure ⟨?_, hhost⟩
      rintro kind ⟨⟩
  | frame _ _ _ => exact hsame trivial
  | domains _ _ => exact hsame trivial
  | forwarder _ => exact hsame trivial

end

/-! ## Once the service is configured -/

section

variable {M δ : Type} {env : Env} {T : Tools M} {K : Kernel T} {unicode : UnicodeLower}
  {parse : String → Option SocketAddr} {h₀ h : Host M} {task : Starting}
  {w₀ w w₁ w' : Gateway M} {F : Filter δ}

/-- The service makes the sets, and its forwarder is started. -/
inductive Begins (env : Env) (K : Kernel T) (parse : String → Option SocketAddr) (h : Host M)
    (task : Starting) : Gateway M → Prop where
  | mk {h' : Host M} {f : Router} {entries : List IpsetEntry} :
      Host.Step env T h (.service .instruction) h' →
      h.world.queue.head? = some .startSubServices →
      Router.new parse task.cfg task.domains = some (f, entries) →
      Begins env K parse h task ⟨h', f⟩

/-- The sets are there, and empty. -/
theorem Begins.ready (hbegins : Begins env K parse h task w₀)
    (hkind : task.cfg.workAsGlobal = false) (hproper : Proper (K.sets h.system)) :
    w₀.Ready K ∧ ∀ a, a.1 ∈ ownSets → ¬ Has (K.sets w₀.host.system) a := by
  cases hbegins with
  | @mk h' f entries hmake hnext hnew =>
      have hsaves : f.workAsGlobal = false := by
        obtain ⟨addr, _, hf⟩ := Option.map_eq_some_iff.mp hnew
        cases hf
        exact hkind
      have hempty : ∀ name ∈ ownSets, K.sets h'.system name = some (.empty (typeOf name)) := by
        cases hmake with
        | service _ =>
            have hcommands : h.world.commands .instruction = setIpset ++ setUciDnsmasqToMe := by
              rw [ServiceWorld.commands, hnext]
            have hcmds := K.run_cmds h.system (h.world.commands .instruction)
            rw [hcommands] at hcmds
            obtain ⟨s, hset, hdnsmasq⟩ := hcmds.split
            intro name hname
            show K.sets (T.run h.system (h.world.commands .instruction)) name = _
            rw [hcommands, sets_of_run (by decide) hdnsmasq]
            exact hproper.run_setIpset hset name hname
      refine ⟨⟨hsaves, ?_⟩, ?_⟩
      · intro name hname
        exact ⟨_, hempty name hname, rfl⟩
      · rintro ⟨name, ip⟩ hname ⟨set, hset, hmem⟩
        cases (hempty name hname).symm.trans hset
        cases hmem

theorem Begins.bounded (hsure : T.Sure) (hbegins : Begins env K parse h task w₀)
    (hbounded : h.Bounded T false) : w₀.host.Bounded T false := by
  cases hbegins with
  | mk hmake _ _ =>
      refine hbounded.step hsure ⟨?_, hmake⟩
      rintro kind ⟨⟩

theorem wanted_iff_setsOf {family : Family} {p : Packet δ} :
    wanted F false family p = true ↔ ∃ name ∈ setsOf family, F.members name p.dst = true := by
  cases family <;> simp [wanted, setsOf]

/-- What the rules ask for is what has been named since the sets were empty. -/
theorem wanted_iff_names {es : List GatewayEvent} (hrun : Run (Step env K unicode) w₀ es w)
    (hroomy : w.Roomy K) (hempty : ∀ a, a.1 ∈ ownSets → ¬ Has (K.sets w₀.host.system) a)
    (hmembers : F.members = K.member w.host.system) (family : Family) (p : Packet δ) :
    wanted F false family p = true ↔
      (∃ e ∈ es, e.Names p.dst) ∧ familyOf p.dst = family := by
  obtain ⟨_, hhas⟩ := run_roomy hrun hroomy
  have hwanted : wanted F false family p = true ↔
      ∃ name ∈ setsOf family, Has (K.sets w.host.system) (name, p.dst) := by
    rw [wanted_iff_setsOf, hmembers]
    simp only [Kernel.member, Option.any_eq_true, Has]
  rw [hwanted]
  constructor
  · rintro ⟨name, hname, hin⟩
    have hown := setsOf_subset family name hname
    obtain hbefore | ⟨e, he, b, hb, hbrings⟩ := (hhas (name, p.dst) hown).mp hin
    · exact absurd hbefore (hempty _ hown)
    · obtain ⟨hnames, hfamily⟩ := (brings_iff e family p.dst).mp ⟨b, hb, name, hname, hbrings⟩
      exact ⟨⟨e, he, hnames⟩, hfamily⟩
  · rintro ⟨⟨e, he, hnames⟩, hfamily⟩
    obtain ⟨b, hb, name, hname, hbrings⟩ := (brings_iff e family p.dst).mpr ⟨hnames, hfamily⟩
    have hown := setsOf_subset family name hname
    exact ⟨name, hname, (hhas (name, p.dst) hown).mpr (.inr ⟨e, he, b, hb, hbrings⟩)⟩

/-- The rules do what they are for, when the addresses in the sets are those that are named. -/
theorem diverted_eq_policy {named : IpAddr → Prop} {family : Family} {p : Packet δ}
    (hnamed : wanted F false family p = true ↔ named p.dst ∧ familyOf p.dst = family) :
    diverted F false family p = policy named family p := by
  have hcovers : covers false family = true := by
    cases family <;> rfl
  rw [diverted, if_pos hcovers, policy]
  split
  · rfl
  · by_cases hgoes : (named p.dst ∧ familyOf p.dst = family) ∧ (p.proto = .tcp ∨ p.proto = .udp)
    · rw [if_pos hgoes, if_pos ⟨hnamed.mpr hgoes.1, hgoes.2⟩]
    · rw [if_neg hgoes, if_neg fun h => hgoes ⟨hnamed.mp h.1, h.2⟩]

/-- From a system that has nothing of the service on, with tools that fail only where they must:
when the service makes its sets, where any of their names are of sets of its types, and starts its
forwarder, and later is configured, and neither then nor before has there been a configuration for
all traffic, not even one that was broken off: then until it gives its next commands, whatever else
happens to it and to the forwarder, and as long as there is room in the sets, the packets to the
addresses in the answers that have come, and in the ranges of all configurations, are delivered to
it, and all others but those of open sockets are treated as by the rules of the other programs
alone. -/
theorem run_follows (hsure : T.Sure) (hclean : (T.view h₀.system).Clean) {es₀ : List HostEvent}
    (hbefore : Run (Host.StepOf env T false) h₀ es₀ h) (hproper : Proper (K.sets h.system))
    (hbegins : Begins env K parse h task w₀) (hkind : task.cfg.workAsGlobal = false)
    {es es' : List GatewayEvent} (hrun : Run (Step env K unicode) w₀ es w)
    (hstarted : Step env K unicode w (.service (.started task true)) w₁)
    (hconfigured : w.host.world.svc.configSys = some false)
    (hafter : Run (Guarded Calm (Step env K unicode)) w₁ es' w')
    (hroom : ∀ name ∈ ownSets, ∀ set, K.sets w'.host.system name = some set → set.full = false)
    (hmembers : F.members = K.member w'.host.system) (family : Family) (p : Packet δ)
    (v : Verdict δ) :
    Treats F ((T.view w'.host.system).tables family) p v ↔
      (policy (fun ip => ∃ e ∈ es ++ es', e.Names ip) family p).elim
        (Treats F ((T.view w.host.system).others family) p v) (v = ·) := by
  obtain ⟨hready, hempty⟩ := hbegins.ready hkind hproper
  have hbounded : w.host.Bounded T false :=
    hrun.preserves (I := fun w => w.host.Bounded T false)
      (fun _ _ _ hb hstep => hstep.bounded hsure hb)
      (hbegins.bounded hsure (Host.bounded_of_run hsure hclean hbefore))
  have hinstalled : Installed false family ((T.view w₁.host.system).tables family)
      ((T.view w.host.system).others family) := by
    cases hstarted with
    | service hhost _ =>
        refine hbounded.installed hsure hhost.2 hconfigured ?_ family
        intro _ name hname
        obtain ⟨set, hset, _⟩ := (hready.run hrun).made name hname
        rw [K.there, hset]
        rfl
  have hall : Run (Step env K unicode) w₀ (es ++ .service (.started task true) :: es') w' :=
    hrun.append (.cons hstarted hafter.unguard)
  have hend := hready.run hall
  have hwanted := wanted_iff_names hall ⟨hend.saves, hend.made.room hroom⟩ hempty hmembers family p
  -- an event of the service names no address
  have hservice : ∀ ip, ¬ GatewayEvent.Names (.service (.started task true)) ip := by
    rintro ip ⟨⟩
  have hnamed : wanted F false family p = true ↔
      (∃ e ∈ es ++ es', e.Names p.dst) ∧ familyOf p.dst = family := by
    rw [hwanted]
    simp only [List.mem_append, List.mem_cons, or_and_right, exists_or, exists_eq_left,
      hservice, false_or]
  rw [view_of_calm hafter, ← diverted_eq_policy hnamed]
  exact hinstalled.treats (hbounded family).closed p v

end

/-! ### An answer -/

/-- What the tunnel gets: the port and the address of the client, and the answer. -/
def answerFrame : RMessage :=
  ⟨Tunnels.frame .reqData ([0xA0, 0x0F, 2, 1, 168, 192] ++ DnsPacket.exampleAnswer), 0, none⟩

/-- What is done with it. -/
def answerEffects : List DnsEffect :=
  [.saveIpset DnsPacket.exampleAnswered,
    .udpSend 2 DnsPacket.exampleAnswer ⟨.v4 ⟨192, 168, 1, 2⟩, 4000⟩]

theorem onTunnelMsg_answerFrame : (DnsTunnel.new 1 7 2 0).onTunnelMsg (fun _ c _ => [c]) 4
    answerFrame 0 true = .ok (DnsTunnel.new 1 7 2 0, answerEffects) := by
  decide +kernel

/-- What a packet is treated by when no other rule asks for it. -/
noncomputable def filterOf (m : Sys × Stock) : Filter Unit :=
  ⟨Kernel.roomy.member m, fun _ _ => false, fun _ p => .passed p⟩

/-- A client asks for `example.com`, and its connection to the address goes to the service. -/
theorem run_follows_answer : ∃ h task w₀ es w w₁,
    Begins ServiceWorld.machine Kernel.roomy (fun _ => some ⟨.v4 ⟨223, 5, 5, 5⟩, 53⟩) h task w₀ ∧
    Run (Step ServiceWorld.machine Kernel.roomy fun _ c _ => [c]) w₀ es w ∧
    .frame 0 answerFrame answerEffects ∈ es ∧
    Step ServiceWorld.machine Kernel.roomy (fun _ c _ => [c]) w
      (.service (.started task true)) w₁ ∧
    Treats (filterOf w₁.host.system) ((Tools.withSets.view w₁.host.system).tables .v4)
      (Host.connection ⟨93, 184, 216, 34⟩)
      (.tproxy { Host.connection ⟨93, 184, 216, 34⟩ with mark := 1 } 5000 loopback) := by
  have hexec : Host.begun.map (fun r => (r.1.queue.head?, r.2.1.svc.configSys,
      r.2.2.1.cfg.workAsGlobal)) = some (some .startSubServices, some false, false) := by
    decide +kernel
  obtain ⟨⟨w, made, task, running⟩, hbegun, hfacts⟩ := Option.map_eq_some_iff.mp hexec
  simp only [Prod.mk.injEq] at hfacts
  obtain ⟨hnext, hconfigured, hkind⟩ := hfacts
  simp only [Host.begun, Option.bind_eq_bind, Option.bind_eq_some_iff, Option.some.injEq,
    Prod.mk.injEq] at hbegun
  obtain ⟨w, hfirst, made, hmade, task, _, running, hrunning, rfl, rfl, rfl, rfl⟩ := hbegun
  -- the forwarder is started
  let h : Host (Sys × Stock) :=
    ⟨w, (Host.untouched, ⟨fun _ => none, by rintro _ _ ⟨⟩⟩), Host.untouched.others⟩
  obtain ⟨⟨f, entries⟩, hnew⟩ :
      ∃ r, Router.new (fun _ => some ⟨.v4 ⟨223, 5, 5, 5⟩, 53⟩) task.cfg task.domains = some r :=
    ⟨_, rfl⟩
  have hhost : Host.Step ServiceWorld.machine Tools.withSets h (.service .instruction) _ :=
    .service (ServiceWorld.step_of_attempt hmade)
  have hbegins : Begins ServiceWorld.machine Kernel.roomy _ h task _ := .mk hhost hnext hnew
  obtain ⟨m₀, hsend₀⟩ := Kernel.roomy.exists_send (adds_entryMessage _)
    (Tools.withSets.run h.system (w.commands .instruction)) (f.updateDomains task.domains).2
  -- its tunnel is connected, and the answer comes
  let f₁ : Router :=
    { f with toForwarder := { f.toForwarder with tunnels := [some (DnsTunnel.new 1 7 2 0)] } }
  obtain ⟨m₁, hsend₁⟩ := Kernel.roomy.exists_send (adds_ipMessage _) m₀
    (answerEffects.flatMap (saved f₁))
  have hconnected : Step ServiceWorld.machine Kernel.roomy (fun _ c _ => [c])
      ⟨⟨made, m₀, Host.untouched.others⟩, (f.updateDomains task.domains).1⟩ .forwarder
      ⟨⟨made, m₀, Host.untouched.others⟩, f₁⟩ := .forwarder rfl
  have hrun : Run (Step ServiceWorld.machine Kernel.roomy fun _ c _ => [c])
      ⟨⟨made, _, Host.untouched.others⟩, f⟩
      [.domains task.domains, .forwarder, .frame 0 answerFrame answerEffects] _ :=
    .cons (.domains _ hsend₀)
      (.cons hconnected (.cons (.frame rfl onTunnelMsg_answerFrame hsend₁) (.nil _)))
  -- the service is configured
  have hcmds : made.commands (.started task true) = configSys false := by
    rw [ServiceWorld.commands, hconfigured]
  have hguard : ∀ kind, made.configures (.started task true) = some kind → kind = false :=
    fun kind h => Option.some.inj (h.symm.trans hconfigured)
  have hsets : ∀ cmd ∈ made.commands (.started task true), cmd.aboutSets = false := by
    rw [hcmds]
    decide +kernel
  have hstarted : ∀ f', Step ServiceWorld.machine Kernel.roomy (fun _ c _ => [c])
      ⟨⟨made, m₁, Host.untouched.others⟩, f'⟩ (.service (.started task true)) ⟨_, f'⟩ :=
    fun _ => .service ⟨hguard, .service (ServiceWorld.step_of_attempt hrunning)⟩ hsets
  refine ⟨h, task, _, _, _, _, hbegins, hrun, by simp, hstarted _, ?_⟩
  have hsure : Tools.withSets.Sure := withSets_exec
  have hclean : (Tools.withSets.view h.system).Clean := Host.clean_untouched
  refine (run_follows hsure hclean (.nil h) (by rintro _ _ _ ⟨⟩) hbegins hkind hrun
    (hstarted _) hconfigured (.nil _) (fun name _ set hset => Stock.room _ name set hset) rfl .v4
    (Host.connection ⟨93, 184, 216, 34⟩) _).mpr ?_
  have hnamed : ∃ e ∈ [.domains task.domains, .forwarder,
      .frame 0 answerFrame answerEffects] ++ [],
        GatewayEvent.Names e (.v4 ⟨93, 184, 216, 34⟩) := by
    refine ⟨.frame 0 answerFrame answerEffects, by simp, ?_⟩
    exact .answer (p := DnsPacket.exampleAnswered) (by simp [answerEffects])
      (by decide : ("example.com", _) ∈ _) (by decide) (by decide)
  have hsocket : ¬ (Host.connection ⟨93, 184, 216, 34⟩).socket = true := Bool.false_ne_true
  rw [policy, if_neg hsocket, if_pos ⟨⟨hnamed, rfl⟩, .inl rfl⟩]
  rfl

end Gateway

end LproxyCv.Services
