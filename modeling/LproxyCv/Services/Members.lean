import LproxyCv.Dns.Long
import LproxyCv.Dns.Netlink
import LproxyCv.Services.Leftovers

set_option autoImplicit false

/-!
# Services: what is in the sets

The rules of the service ask for three sets of addresses.  The service makes and empties them
before the forwarder is started, and the forwarder adds to them, with a message to the kernel for
each address and each range, and does not wait for an answer.

A set has exactly what it was sent since it was emptied (`run_puts`), as long as there is room in
it: one that is full takes nothing.
-/

namespace LproxyCv.Services

open LproxyCv.Foundation LproxyCv.Net LproxyCv.Dns

/-! ## The sets of the kernel -/

/-- An element of a set. -/
inductive Elem where
  | host (ip : IpAddr)
  | net (addr : Ipv4Addr) (len : UInt8)
  deriving DecidableEq

/-- The address is one of those of the element. -/
def Elem.covers : Elem → IpAddr → Bool
  | .host ip, dst => dst = ip
  | .net addr len, dst => within dst addr len.toNat

/-- The address that stands for none. -/
def unspecified : IpAddr → Bool
  | .v4 addr => addr = ⟨0, 0, 0, 0⟩
  | .v6 addr => addr = ⟨0, 0, 0, 0, 0, 0, 0, 0⟩

/-- A set of the type can have the element. -/
def Elem.fits (type : String) : Elem → Bool
  | .host (.v4 addr) => type = "iphash" ∧ !unspecified (.v4 addr)
  | .host (.v6 addr) => type = "iphash family inet6" ∧ !unspecified (.v6 addr)
  | .net _ len => type = "nethash" ∧ 0 < len ∧ len ≤ 32

structure IpSet where
  type : String
  members : IpAddr → Bool
  /-- it has as many elements as it may have -/
  full : Bool

/-- A set without elements. -/
def IpSet.empty (type : String) : IpSet := ⟨type, fun _ => false, false⟩

/-- A set with one more element. -/
def IpSet.add (set : IpSet) (elem : Elem) (full : Bool) : IpSet :=
  ⟨set.type, fun ip => set.members ip || elem.covers ip, full⟩

abbrev IpSets : Type := String → Option IpSet

open Function in
/-- What comes of a message that adds an element, as it is documented. -/
inductive Put (s : IpSets) (name : String) (elem : Elem) : IpSets → Prop where
  | added {set : IpSet} (full : Bool) : s name = some set → elem.fits set.type = true →
      set.full = false → Put s name elem (update s name (some (set.add elem full)))
  | full {set : IpSet} : s name = some set → set.full = true → Put s name elem s
  | refused {set : IpSet} : s name = some set → elem.fits set.type = false → Put s name elem s
  | none : s name = none → Put s name elem s

/-- The command is about a set. -/
def SysCmd.aboutSets : SysCmd → Bool
  | .ipsetNew _ _ => true
  | .ipsetFlush _ => true
  | .ipsetDestroy _ => true
  | _ => false

open Function in
/-- What a command does to the sets. -/
inductive SetDoes (s : IpSets) : SysCmd → IpSets → Prop where
  | made {name : String} (type : String) : s name = none →
      SetDoes s (.ipsetNew name type) (update s name (some (.empty type)))
  | there {name : String} {set : IpSet} (type : String) : s name = some set →
      SetDoes s (.ipsetNew name type) s
  | flush (name : String) :
      SetDoes s (.ipsetFlush name) (update s name ((s name).map fun set => .empty set.type))
  | destroy (name : String) : SetDoes s (.ipsetDestroy name) (update s name none)
  | destroyFails (name : String) : SetDoes s (.ipsetDestroy name) s
  | other {cmd : SysCmd} : cmd.aboutSets = false → SetDoes s cmd s

/-! ## Messages -/

/-- The address as it is sent. -/
def octets : IpAddr → Bytes
  | .v4 addr => addr.octets
  | .v6 addr => addr.segments.flatMap fun s => Endian.big.bytes 2 s.toNat

/-- What a message says of an element. -/
def Elem.attrs : Elem → List Attr
  | .host ip => [addressAttr (octets ip)]
  | .net addr len => [addressAttr (octets (.v4 addr)), .data 3 [len]]

/-- A message that adds the element to the set, whose name ends with a zero. -/
def Adds (e : Endian) (bs : Bytes) (name : String) (elem : Elem) : Prop :=
  IsMessage e bs (addAttrs (name ++ "\x00") elem.attrs)

/-- The sets of a system with tools. -/
structure Kernel {M : Type} (T : Tools M) where
  endian : Endian
  sets : M → IpSets
  receive : M → Bytes → M
  there : ∀ m name, (T.view m).sets name = (sets m name).isSome
  does : ∀ m cmd, SetDoes (sets m) cmd (sets (T.exec m cmd))
  put : ∀ m bs name elem, Adds endian bs name elem →
    Put (sets m) name elem (sets (receive m bs)) ∧ T.view (receive m bs) = T.view m

/-- The set that an address goes to. -/
def homeOf : IpAddr → String
  | .v4 _ => ipsetTable
  | .v6 _ => ipsetTable6

/-- The message for an address. -/
def ipMessage (e : Endian) : IpAddr → Option Bytes
  | .v4 addr => ipsetAddIphash e (octets (.v4 addr)) ipsetTableNull
  | .v6 addr => ipsetAddIphash e (octets (.v6 addr)) ipsetTable6Null

/-- The message for an entry. -/
def entryMessage (e : Endian) : IpsetEntry → Option Bytes
  | .nethash addr mask => ipsetAddNethash e (octets (.v4 addr)) mask
  | .iphash addr => ipsetAddIphash e (octets (.v4 addr)) ipsetTableNull

/-- What is added to which set. -/
abbrev Addition : Type := String × Elem

def ipAddition (ip : IpAddr) : Addition := (homeOf ip, .host ip)

def entryAddition : IpsetEntry → Addition
  | .nethash addr mask => (ipsetNethashTable, .net addr mask)
  | .iphash addr => (ipsetTable, .host (.v4 addr))

theorem length_octets (ip : IpAddr) : (octets ip).length = 4 ∨ (octets ip).length = 16 := by
  cases ip with
  | v4 addr => exact .inl rfl
  | v6 addr => exact .inr rfl

theorem adds_ipMessage (e : Endian) (ip : IpAddr) :
    ∃ bs, ipMessage e ip = some bs ∧ Adds e bs (ipAddition ip).1 (ipAddition ip).2 := by
  have hlen := length_octets ip
  cases ip with
  | v4 addr => exact ipsetAddIphash_isMessage e hlen (.inl rfl)
  | v6 addr => exact ipsetAddIphash_isMessage e hlen (.inr rfl)

theorem adds_entryMessage (e : Endian) (entry : IpsetEntry) :
    ∃ bs, entryMessage e entry = some bs ∧
      Adds e bs (entryAddition entry).1 (entryAddition entry).2 := by
  cases entry with
  | nethash addr mask => exact ipsetAddNethash_isMessage e rfl mask
  | iphash addr => exact ipsetAddIphash_isMessage e (.inl rfl) (.inl rfl)

namespace Kernel

variable {M : Type} {T : Tools M} (K : Kernel T)

/-- Whether the address is in the set, if there is one. -/
def member (m : M) (name : String) (ip : IpAddr) : Bool :=
  (K.sets m name).any fun set => set.members ip

/-- Send messages; one that could not be made is a panic. -/
def send (m : M) (msgs : List (Option Bytes)) : Option M :=
  msgs.foldlM (fun m msg => msg.map (K.receive m)) m

theorem run_send {ι : Type} {message : ι → Option Bytes} {addition : ι → Addition}
    (hadds : ∀ i, ∃ bs, message i = some bs ∧ Adds K.endian bs (addition i).1 (addition i).2)
    {m m' : M} {is : List ι} (hsend : K.send m (is.map message) = some m') :
    Run (fun s a s' => Put s a.1 a.2 s') (K.sets m) (is.map addition) (K.sets m') ∧
      T.view m' = T.view m := by
  induction is generalizing m with
  | nil =>
      obtain rfl := Option.some.inj hsend
      exact ⟨.nil _, rfl⟩
  | cons i is ih =>
      obtain ⟨bs, hbs, hi⟩ := hadds i
      obtain ⟨hput, hview⟩ := K.put m bs _ _ hi
      have hrest : K.send (K.receive m bs) (is.map message) = some m' := by
        rw [send, List.map_cons, List.foldlM_cons, hbs] at hsend
        exact hsend
      obtain ⟨hrun, hsame⟩ := ih hrest
      exact ⟨.cons hput hrun, hsame.trans hview⟩

/-- No message is a panic. -/
theorem exists_send {ι : Type} {message : ι → Option Bytes} {addition : ι → Addition}
    (hadds : ∀ i, ∃ bs, message i = some bs ∧ Adds K.endian bs (addition i).1 (addition i).2)
    (m : M) (is : List ι) : ∃ m', K.send m (is.map message) = some m' := by
  induction is generalizing m with
  | nil => exact ⟨m, rfl⟩
  | cons i is ih =>
      obtain ⟨bs, hbs, _⟩ := hadds i
      obtain ⟨m', hrest⟩ := ih (K.receive m bs)
      refine ⟨m', ?_⟩
      rw [send, List.map_cons, List.foldlM_cons, hbs]
      exact hrest

end Kernel

/-! ## What the sets have -/

/-- The type of a set of the service. -/
def typeOf (name : String) : String :=
  if name = ipsetTable then "iphash"
  else if name = ipsetTable6 then "iphash family inet6"
  else "nethash"

/-- The sets of the service are there. -/
def Made (s : IpSets) : Prop :=
  ∀ name ∈ ownSets, ∃ set, s name = some set ∧ set.type = typeOf name

/-- The sets of the service are there, and have room. -/
def Room (s : IpSets) : Prop :=
  ∀ name ∈ ownSets, ∃ set, s name = some set ∧ set.type = typeOf name ∧ set.full = false

/-- The address is in the set. -/
def Has (s : IpSets) (a : String × IpAddr) : Prop :=
  ∃ set, s a.1 = some set ∧ set.members a.2 = true

/-- The addition puts the address into the set. -/
def Brings (addition : Addition) (a : String × IpAddr) : Prop :=
  addition.1 = a.1 ∧ addition.2.fits (typeOf a.1) = true ∧ addition.2.covers a.2 = true

section

variable {s s' : IpSets} {name : String} {elem : Elem}

theorem Made.room (h : Made s)
    (hfull : ∀ name ∈ ownSets, ∀ set, s name = some set → set.full = false) : Room s := by
  intro name hname
  obtain ⟨set, hset, htype⟩ := h name hname
  exact ⟨set, hset, htype, hfull name hname set hset⟩

theorem Made.put (h : Made s) (hput : Put s name elem s') : Made s' := by
  cases hput with
  | @added set full hset _ _ =>
      intro name' hname'
      by_cases hsame : name' = name
      · subst hsame
        obtain ⟨set', hset', htype⟩ := h name' hname'
        obtain rfl := Option.some.inj (hset.symm.trans hset')
        exact ⟨_, Function.update_self _ _ _, htype⟩
      · obtain ⟨set', hset', htype⟩ := h name' hname'
        exact ⟨set', (Function.update_of_ne hsame _ _).trans hset', htype⟩
  | full _ _ => exact h
  | refused _ _ => exact h
  | none _ => exact h

theorem Put.room (h : Put s name elem s') (hroom : Room s') : Room s := by
  cases h with
  | @added set full hset _ hfull =>
      intro name' hname'
      by_cases hsame : name' = name
      · subst hsame
        obtain ⟨set', hset', htype, _⟩ := hroom name' hname'
        rw [Function.update_self] at hset'
        obtain rfl := Option.some.inj hset'
        exact ⟨set, hset, htype, hfull⟩
      · obtain ⟨set', hset', hrest⟩ := hroom name' hname'
        rw [Function.update_of_ne hsame] at hset'
        exact ⟨set', hset', hrest⟩
  | full _ _ => exact hroom
  | refused _ _ => exact hroom
  | none _ => exact hroom

theorem Put.has (h : Put s name elem s') (hroom : Room s') {a : String × IpAddr}
    (ha : a.1 ∈ ownSets) : Has s' a ↔ Has s a ∨ Brings (name, elem) a := by
  obtain ⟨set, hset, htype, hfull⟩ := h.room hroom a.1 ha
  by_cases hsame : name = a.1
  · subst hsame
    cases h with
    | @added set' full hset' hfits _ =>
        obtain rfl := Option.some.inj (hset.symm.trans hset')
        simp only [Has, Brings, Function.update_self, hset, Option.some.injEq, exists_eq_left',
          IpSet.add, Bool.or_eq_true, ← htype, hfits, true_and]
    | full hset' hfull' =>
        obtain rfl := Option.some.inj (hset.symm.trans hset')
        exact absurd (hfull'.symm.trans hfull) Bool.false_ne_true.symm
    | refused hset' hfits =>
        obtain rfl := Option.some.inj (hset.symm.trans hset')
        simp only [Brings, ← htype, hfits, Bool.false_eq_true, false_and, and_false, or_false]
    | none hset' => exact absurd (hset.symm.trans hset') (Option.some_ne_none set)
  · have hother : s' a.1 = s a.1 := by
      cases h with
      | added _ _ _ _ => exact Function.update_of_ne (Ne.symm hsame) _ _
      | full _ _ => rfl
      | refused _ _ => rfl
      | none _ => rfl
    simp only [Has, Brings, hother, hsame, false_and, or_false]

end

/-- A set of the service has what it had, and what it was sent. -/
theorem run_puts {s s' : IpSets} {additions : List Addition}
    (hrun : Run (fun s a s' => Put s a.1 a.2 s') s additions s') (hroom : Room s') :
    Room s ∧ ∀ a, a.1 ∈ ownSets → (Has s' a ↔ Has s a ∨ ∃ b ∈ additions, Brings b a) := by
  obtain ⟨hbefore, hall⟩ := Run.accumulates Room
    (fun s (a : { a : String × IpAddr // a.1 ∈ ownSets }) => Has s a.1) (fun b a => Brings b a.1)
    (fun _ _ _ hput => hput.room) (fun _ _ _ hput hroom a => hput.has hroom a.2) hrun hroom
  exact ⟨hbefore, fun a ha => hall ⟨a, ha⟩⟩

/-! ## The sets are made -/

/-- Nothing else makes sets of these names. -/
def Proper (s : IpSets) : Prop :=
  ∀ name ∈ ownSets, ∀ set, s name = some set → set.type = typeOf name

theorem setIpset_eq : setIpset =
    (ownSets.map fun name => .ipsetNew name (typeOf name)) ++ ownSets.map .ipsetFlush := by
  decide +kernel

section

variable {s s' : IpSets} {cmds : List SysCmd}

theorem Kernel.run_cmds {M : Type} {T : Tools M} (K : Kernel T) (m : M) (cmds : List SysCmd) :
    Run SetDoes (K.sets m) cmds (K.sets (T.run m cmds)) := by
  induction cmds generalizing m with
  | nil => exact .nil _
  | cons cmd cmds ih => exact .cons (K.does m cmd) (ih (T.exec m cmd))

/-- Commands that are not about sets leave them. -/
theorem sets_of_run (hcmds : ∀ cmd ∈ cmds, cmd.aboutSets = false) (hrun : Run SetDoes s cmds s') :
    s' = s := by
  refine (hrun.restrict hcmds).preserves (I := fun s' => s' = s) ?_ rfl
  rintro m cmd m' hm ⟨hdoes, hcmd⟩
  cases hdoes with
  | other _ => exact hm
  | _ => exact absurd hcmd Bool.false_ne_true.symm

theorem Proper.run_news {names : List String} (hproper : Proper s)
    (hrun : Run SetDoes s (names.map fun name => .ipsetNew name (typeOf name)) s') :
    Proper s' ∧ ∀ name, name ∈ names ∨ (s name).isSome = true → (s' name).isSome = true := by
  induction names generalizing s with
  | nil =>
      cases hrun
      exact ⟨hproper, fun name h => h.resolve_left List.not_mem_nil⟩
  | cons first names ih =>
      rw [List.map_cons] at hrun
      obtain _ | ⟨hdoes, hrest⟩ := hrun
      cases hdoes with
      | made _ hnone =>
          have hmade : Proper (Function.update s first (some (.empty (typeOf first)))) := by
            intro name hname set hset
            by_cases hsame : name = first
            · rw [hsame, Function.update_self] at hset
              rw [← Option.some.inj hset, hsame]
              rfl
            · rw [Function.update_of_ne hsame] at hset
              exact hproper name hname set hset
          obtain ⟨hafter, hthere⟩ := ih hmade hrest
          refine ⟨hafter, ?_⟩
          intro name hname
          refine hthere name ?_
          by_cases hsame : name = first
          · rw [hsame, Function.update_self]
            exact .inr rfl
          · rw [Function.update_of_ne hsame]
            exact hname.imp_left fun hmem => (List.mem_cons.mp hmem).resolve_left hsame
      | there _ hset =>
          obtain ⟨hafter, hthere⟩ := ih hproper hrest
          refine ⟨hafter, ?_⟩
          intro name hname
          refine hthere name ?_
          by_cases hsame : name = first
          · rw [hsame, hset]
            exact .inr rfl
          · exact hname.imp_left fun hmem => (List.mem_cons.mp hmem).resolve_left hsame
      | other hcmd => exact absurd hcmd Bool.false_ne_true.symm

theorem run_flushes {names : List String} (hrun : Run SetDoes s (names.map .ipsetFlush) s')
    (name : String) :
    s' name = if name ∈ names then (s name).map fun set => .empty set.type else s name := by
  induction names generalizing s with
  | nil =>
      cases hrun
      rfl
  | cons first names ih =>
      rw [List.map_cons] at hrun
      obtain _ | ⟨hdoes, hrest⟩ := hrun
      cases hdoes with
      | flush _ =>
          rw [ih hrest]
          by_cases hsame : name = first
          · rw [hsame, Function.update_self, if_pos List.mem_cons_self, Option.map_map]
            split
            · rfl
            · rfl
          · simp only [Function.update_of_ne hsame, List.mem_cons, hsame, false_or]
      | other hcmd => exact absurd hcmd Bool.false_ne_true.symm

/-- The sets are there, and have nothing. -/
theorem Proper.run_setIpset (hproper : Proper s) (hrun : Run SetDoes s setIpset s') :
    ∀ name ∈ ownSets, s' name = some (.empty (typeOf name)) := by
  rw [setIpset_eq] at hrun
  obtain ⟨m, hnews, hflushes⟩ := hrun.split
  obtain ⟨hmade, hthere⟩ := hproper.run_news hnews
  intro name hname
  obtain ⟨set, hset⟩ := Option.isSome_iff_exists.mp (hthere name (.inl hname))
  rw [run_flushes hflushes, if_pos hname, hset, Option.map_some, hmade name hname set hset]

end

/-! ## A kernel -/

theorem utf8_injective {s t : String} (h : utf8 s = utf8 t) : s = t :=
  String.toByteArray_inj.mp (ByteArray.ext (Array.toList_inj.mp h))

theorem flatMap_injective {α β : Type} {f : α → List β} {n : Nat} (hlen : ∀ a, (f a).length = n)
    (hf : ∀ a b, f a = f b → a = b) :
    ∀ {l l' : List α}, l.length = l'.length → l.flatMap f = l'.flatMap f → l = l' := by
  intro l
  induction l with
  | nil =>
      intro l' hl _
      exact (List.length_eq_zero_iff.mp hl.symm).symm
  | cons a l ih =>
      intro l' hl h
      cases l' with
      | nil => cases hl
      | cons b l' =>
          obtain ⟨hfirst, hrest⟩ := List.append_inj h ((hlen a).trans (hlen b).symm)
          rw [hf a b hfirst, ih (Nat.succ.inj hl) hrest]

theorem octets_injective {ip ip' : IpAddr} (h : octets ip = octets ip') : ip = ip' := by
  have hlen := congrArg List.length h
  cases ip with
  | v4 addr =>
      cases ip' with
      | v4 addr' =>
          cases addr
          cases addr'
          cases h
          rfl
      | v6 addr' => cases hlen
  | v6 addr =>
      cases ip' with
      | v4 addr' => cases hlen
      | v6 addr' =>
          have hsegment : ∀ s t : UInt16,
              Endian.big.bytes 2 s.toNat = Endian.big.bytes 2 t.toNat → s = t := by
            intro s t hst
            have hnat := congrArg Endian.big.nat hst
            rw [Endian.nat_bytes .big s.toNat_lt, Endian.nat_bytes .big t.toNat_lt] at hnat
            exact UInt16.toNat_inj.mp hnat
          have hsegments : addr.segments = addr'.segments :=
            flatMap_injective (f := fun s : UInt16 => Endian.big.bytes 2 s.toNat)
              (fun s => Endian.length_bytes .big 2 s.toNat) hsegment rfl h
          cases addr
          cases addr'
          cases hsegments
          rfl

theorem Elem.attrs_injective {elem elem' : Elem} (h : elem.attrs = elem'.attrs) :
    elem = elem' := by
  have haddress : ∀ ip ip', addressAttr (octets ip) = addressAttr (octets ip') → ip = ip' := by
    intro ip ip' haddr
    simp only [addressAttr, Attr.nested.injEq, List.cons.injEq, Attr.data.injEq] at haddr
    exact octets_injective haddr.2.1.2
  cases elem with
  | host ip =>
      cases elem' with
      | host ip' =>
          rw [haddress ip ip' (List.cons.inj h).1]
      | net addr' len' => cases (List.cons.inj h).2
  | net addr len =>
      cases elem' with
      | host ip' => cases (List.cons.inj h).2
      | net addr' len' =>
          cases haddress _ _ (List.cons.inj h).1
          cases (List.cons.inj h).2
          rfl

/-- A message adds one element to one set. -/
theorem Adds.unique {e : Endian} {bs : Bytes} {name name' : String} {elem elem' : Elem}
    (h : Adds e bs name elem) (h' : Adds e bs name' elem') : (name, elem) = (name', elem') := by
  have hattrs := Option.some.inj (h.attrs.symm.trans h'.attrs)
  simp only [addAttrs, List.cons.injEq, Attr.data.injEq, Attr.nested.injEq, and_true,
    true_and, utf8_append] at hattrs
  obtain ⟨hname, helem⟩ := hattrs
  rw [utf8_injective (List.append_cancel_right hname), Elem.attrs_injective helem]

/-- Sets of which none is full. -/
structure Stock where
  sets : IpSets
  room : ∀ name set, sets name = some set → set.full = false

/-- Change a set. -/
def Stock.change (stock : Stock) (name : String) (set : Option IpSet)
    (hset : ∀ set', set = some set' → set'.full = false) : Stock where
  sets := Function.update stock.sets name set
  room := by
    intro name' set' hname'
    by_cases hsame : name' = name
    · rw [hsame, Function.update_self] at hname'
      exact hset set' hname'
    · rw [Function.update_of_ne hsame] at hname'
      exact stock.room name' set' hname'

/-- A set without elements, of the same type. -/
def Stock.flush (stock : Stock) (name : String) : Stock :=
  stock.change name ((stock.sets name).map fun set => .empty set.type) (by
    intro set hset
    obtain ⟨_, _, rfl⟩ := Option.map_eq_some_iff.mp hset
    rfl)

/-- What commands do to the sets of a system, where they can be done. -/
noncomputable def execSets (s : Sys) (stock : Stock) (cmd : SysCmd) : Stock :=
  open Classical in
  match cmd with
  | .ipsetNew name type =>
      if stock.sets name = none then
        stock.change name (some (.empty type)) (by rintro _ ⟨⟩; rfl)
      else stock
  | .ipsetFlush name => stock.flush name
  | .ipsetDestroy name =>
      if s.Refers name then stock else stock.change name none (by rintro _ ⟨⟩)
  | _ => stock

theorem does_execSets (s : Sys) (stock : Stock) (cmd : SysCmd) :
    SetDoes stock.sets cmd (execSets s stock cmd).sets := by
  cases cmd with
  | ipsetNew name type =>
      rw [execSets]
      split
      · rename_i hnone
        exact .made type hnone
      · rename_i hsome
        obtain ⟨set, hset⟩ := Option.ne_none_iff_exists'.mp hsome
        exact .there type hset
  | ipsetFlush name => exact .flush name
  | ipsetDestroy name =>
      rw [execSets]
      split
      · exact .destroyFails name
      · exact .destroy name
  | _ => exact .other rfl

/-- A system, with what is in its sets. -/
def withSets (m : Sys × Stock) : Sys :=
  { m.1 with sets := fun name => (m.2.sets name).isSome }

theorem withSets_exec (m : Sys × Stock) (cmd : SysCmd) :
    withSets ((withSets m).exec cmd, execSets (withSets m) m.2 cmd) = (withSets m).exec cmd := by
  have hsets : (fun name => ((execSets (withSets m) m.2 cmd).sets name).isSome) =
      ((withSets m).exec cmd).sets := by
    funext name'
    cases cmd with
    | ipsetNew name type =>
        rw [execSets, Sys.exec]
        show _ = Function.update (withSets m).sets name true name'
        by_cases hsame : name' = name
        · subst hsame
          rw [Function.update_self]
          split
          · show (Function.update m.2.sets name' _ name').isSome = true
            rw [Function.update_self]
            rfl
          · rename_i hsome
            exact Option.isSome_iff_ne_none.mpr hsome
        · rw [Function.update_of_ne hsame]
          split
          · show (Function.update m.2.sets name _ name').isSome = _
            rw [Function.update_of_ne hsame]
            rfl
          · rfl
    | ipsetFlush name =>
        show (Function.update m.2.sets name _ name').isSome = (m.2.sets name').isSome
        by_cases hsame : name' = name
        · rw [hsame, Function.update_self, Option.isSome_map]
        · rw [Function.update_of_ne hsame]
    | ipsetDestroy name =>
        rw [execSets, Sys.exec]
        split
        · rfl
        · show (Function.update m.2.sets name none name').isSome =
            Function.update (withSets m).sets name false name'
          by_cases hsame : name' = name
          · rw [hsame, Function.update_self, Function.update_self]
            rfl
          · rw [Function.update_of_ne hsame, Function.update_of_ne hsame]
            rfl
    | iptables family c =>
        rw [Sys.exec]
        split
        · rfl
        · rfl
    | _ => rfl
  rw [withSets, hsets]

/-- Tools that fail only where they must, of a system with sets. -/
noncomputable def Tools.withSets : Tools (Sys × Stock) where
  view := Services.withSets
  exec m cmd := ((Services.withSets m).exec cmd, execSets (Services.withSets m) m.2 cmd)
  may := by
    intro m cmd
    rw [withSets_exec]
    exact .does ((Services.withSets m).does_exec cmd)

/-- A set with one more element, if it can have it. -/
def takeIn (stock : Stock) (a : Addition) : Stock :=
  match stock.sets a.1 with
  | some set =>
      if a.2.fits set.type then
        stock.change a.1 (some (set.add a.2 false)) (by rintro _ ⟨⟩; rfl)
      else stock
  | none => stock

theorem put_takeIn (stock : Stock) (a : Addition) :
    Put stock.sets a.1 a.2 (takeIn stock a).sets := by
  rw [takeIn]
  split
  · rename_i set hset
    split
    · rename_i hfits
      exact .added false hset hfits (stock.room a.1 set hset)
    · rename_i hfits
      exact .refused hset (Bool.not_eq_true _ ▸ hfits)
  · rename_i hnone
    exact .none hnone

open Classical in
/-- A kernel whose sets are never full. -/
noncomputable def Kernel.roomy : Kernel Tools.withSets where
  endian := .little
  sets m := m.2.sets
  receive m bs :=
    if h : ∃ a : Addition, Adds .little bs a.1 a.2 then (m.1, takeIn m.2 h.choose) else m
  there _ _ := rfl
  does m cmd := does_execSets _ _ cmd
  put := by
    intro m bs name elem hadds
    have hread : ∃ a : Addition, Adds .little bs a.1 a.2 := ⟨(name, elem), hadds⟩
    have hsame : hread.choose = (name, elem) := hread.choose_spec.unique hadds
    rw [dif_pos hread, hsame]
    refine ⟨put_takeIn m.2 (name, elem), ?_⟩
    show Services.withSets (m.1, takeIn m.2 (name, elem)) = Services.withSets m
    have hthere : ∀ s, Put m.2.sets name elem s →
        ∀ name', (s name').isSome = (m.2.sets name').isSome := by
      intro s hput name'
      cases hput with
      | added full hset _ _ =>
          by_cases hsame : name' = name
          · rw [hsame, Function.update_self, hset]
            rfl
          · rw [Function.update_of_ne hsame]
      | full _ _ => rfl
      | refused _ _ => rfl
      | none _ => rfl
    rw [Services.withSets, funext (hthere _ (put_takeIn m.2 (name, elem)))]
    rfl

end LproxyCv.Services
