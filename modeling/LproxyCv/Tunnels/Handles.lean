import LproxyCv.Foundation.Run
import LproxyCv.Tunnels.Tunnel
import Mathlib.Logic.Function.Basic

set_option autoImplicit false

/-!
# Tunnels: the handles of the request table

What `alloc` returns names a request for the lifetime of its tunnel: index and tag are sent
along with every frame, and what carries an old pair must not find a newer request.  A tag is
increased whenever its slot is handed out, taken back or cleared, so it is the number of times
that this has happened; but it is a number of 16 bits.  Handles name their requests exactly as
long as no slot has been touched 65535 times (`unique_iff_within`).

`(65535, 65535)` is no handle: it says that nothing could be handed out.
-/

namespace LproxyCv.Tunnels

open LproxyCv.Foundation

/-- A table and what has been done with it. -/
structure Uses where
  table : Reqq
  /-- what was returned, and for which request -/
  handles : List ((UInt16 × UInt16) × Request)
  /-- how often a slot was handed out, taken back or cleared -/
  touched : Nat → Nat

/-- What is done with a table. -/
inductive Use where
  | alloc (req2 : Request)
  | free (handle : UInt16 × UInt16)
  | clearAll
  deriving DecidableEq

namespace Uses

/-- A table that has not been used. -/
def new (size : Nat) : Uses := ⟨Reqq.new size, [], fun _ => 0⟩

/-- A slot is touched once more. -/
def touch (s : Uses) (i : Nat) : Nat → Nat := Function.update s.touched i (s.touched i + 1)

/-- Hand out a slot, if there is one. -/
def alloc (s : Uses) (req2 : Request) : Uses :=
  let r := s.table.alloc req2
  match s.table.freeList with
  | [] => { s with table := r.2 }
  | i :: _ => { table := r.2, handles := (r.1, req2) :: s.handles, touched := s.touch i }

/-- Take a slot back, if the handle is that of the slot. -/
def free (s : Uses) (handle : UInt16 × UInt16) : Uses :=
  let r := s.table.free handle.1 handle.2
  { s with table := r.2, touched := if r.1 then s.touch handle.1.toNat else s.touched }

/-- Clear all slots. -/
def clearAll (s : Uses) : Uses :=
  { s with table := s.table.clearAll, touched := fun i => s.touched i + 1 }

/-- What `alloc` may have returned. -/
def Returned (s : Uses) (handle : UInt16 × UInt16) : Prop :=
  handle = (65535, 65535) ∨ handle ∈ s.handles.map Prod.fst

/-- One use of a table. -/
inductive Step : Uses → Use → Uses → Prop where
  | alloc (s : Uses) (req2 : Request) : Step s (.alloc req2) (s.alloc req2)
  | free {s : Uses} {handle : UInt16 × UInt16} :
      s.Returned handle → Step s (.free handle) (s.free handle)
  | clearAll (s : Uses) : Step s .clearAll s.clearAll

/-! ## What handles are for -/

/-- No tag was increased past its largest value. -/
def NoOverflow (s t : Uses) : Prop :=
  ∀ i req req', s.table.slot i = some req → t.table.slot i = some req' → req.tag ≤ req'.tag

/-- Handles name requests. -/
structure Unique (s : Uses) : Prop where
  nodup : (s.handles.map Prod.fst).Nodup
  /-- a slot that is found with a handle holds the request of the handle -/
  own : ∀ handle req2, (handle, req2) ∈ s.handles → ∀ req,
    s.table.slot handle.1.toNat = some req → req.tag = handle.2 →
      req.requestTx = req2.requestTx ∧ req.trigger = req2.trigger

/-- A frame that carries a handle goes to the request of the handle, or to none. -/
theorem Unique.getRequestTx {s : Uses} (h : Unique s) {tunnel : Tunnel}
    (htable : tunnel.requests = s.table) {handle : UInt16 × UInt16} {req2 : Request}
    (hmem : (handle, req2) ∈ s.handles) :
    tunnel.getRequestTx handle.1 handle.2 = none ∨
      tunnel.getRequestTx handle.1 handle.2 = req2.requestTx := by
  unfold Tunnel.getRequestTx
  rw [htable]
  cases hslot : s.table.slot handle.1.toNat with
  | none => exact .inl rfl
  | some req =>
      by_cases htag : req.tag = handle.2
      · right
        simp only [if_pos htag]
        exact (h.own handle req2 hmem req hslot htag).1
      · left
        simp only [if_neg htag]

/-- The slots that are touched have not been touched too often, and one that is handed out has
an index of 16 bits. -/
def Within (s : Uses) : Use → Prop
  | .alloc _ => ∀ i, s.table.freeList.head? = some i → i < 65536 ∧ s.touched i < 65535
  | .free handle => ∀ req, s.table.slot handle.1.toNat = some req → req.tag = handle.2 →
      s.touched handle.1.toNat < 65535
  | .clearAll => ∀ i, i < s.table.elements.length → s.touched i < 65535

/-! ## The invariant -/

/-- Of the stack, what was taken back is on top of what was never handed out; the first `m`
slots were. -/
structure Stacked (s : Uses) (m : Nat) (back tail : List Nat) : Prop where
  freeList : s.table.freeList = back ++ tail
  back : ∀ i ∈ back, i < m
  small : m ≤ 65536
  first : ∀ i, i < m → (UInt16.ofNat i, 1) ∈ s.handles.map Prod.fst
  given : ∀ handle ∈ s.handles.map Prod.fst, handle.1.toNat < m
  tail : tail = [] ∨ tail = List.range' m (s.table.elements.length - m) ∧
    ∀ i req, m ≤ i → s.table.slot i = some req → req.tag = 0

/-- A tag is the number of times that its slot was touched, and so are those of handles, of
some time before. -/
structure Sound (s : Uses) : Prop where
  tag : ∀ i req, s.table.slot i = some req → req.tag.toNat = s.touched i
  past : ∀ handle ∈ s.handles.map Prod.fst, handle.2.toNat ≤ s.touched handle.1.toNat
  unique : Unique s
  stacked : ∃ m back tail, Stacked s m back tail

theorem sound_new (size : Nat) : Sound (new size) where
  tag := by
    intro i req hslot
    rw [(Reqq.new_slot hslot).2]
    rfl
  past := nofun
  unique := ⟨List.nodup_nil, nofun⟩
  stacked := by
    refine ⟨0, [], List.range size, rfl, nofun, Nat.zero_le _, nofun, nofun, .inr ⟨?_, ?_⟩⟩
    · rw [List.range_eq_range', new, Reqq.new_length, Nat.sub_zero]
    · intro i req _ hslot
      rw [(Reqq.new_slot hslot).2]
      rfl

/-! ## What a step touches -/

theorem tag_succ_toNat {tag : UInt16} (h : tag.toNat < 65535) :
    (tag + 1).toNat = tag.toNat + 1 := by
  rw [UInt16.toNat_add]
  exact Nat.mod_eq_of_lt (by simpa using Nat.succ_lt_succ h)

theorem tag_le_succ_iff {tag : UInt16} : tag ≤ tag + 1 ↔ tag.toNat < 65535 := by
  have hlt := tag.toNat_lt
  rw [UInt16.le_iff_toNat_le]
  by_cases h : tag.toNat < 65535
  · rw [tag_succ_toNat h]
    omega
  · have hmax : tag.toNat = 65535 := by omega
    have hzero : (tag + 1).toNat = 0 := by
      rw [UInt16.toNat_add, hmax]
      rfl
    omega

theorem NoOverflow.refl (s : Uses) : NoOverflow s s := by
  intro i req req' hreq hreq'
  rw [hreq] at hreq'
  cases hreq'
  exact UInt16.le_refl _

/-- A step that touches the slot `i`. -/
structure Touched (s t : Uses) (i : Nat) (req req' : Request) : Prop where
  slot : s.table.slot i = some req
  elements : t.table.elements = s.table.elements.set i req'
  tag : req'.tag = req.tag + 1
  touched : t.touched = s.touch i

namespace Touched

variable {s t : Uses} {i : Nat} {req req' : Request}

theorem slot_self (h : Touched s t i req req') : t.table.slot i = some req' := by
  rw [Reqq.slot_set h.elements, if_pos rfl, h.slot]
  rfl

theorem slot_other (h : Touched s t i req req') {j : Nat} (hj : i ≠ j) :
    t.table.slot j = s.table.slot j := by
  rw [Reqq.slot_set h.elements, if_neg hj]

theorem touched_self (h : Touched s t i req req') : t.touched i = s.touched i + 1 := by
  rw [h.touched, touch, Function.update_self]

theorem touched_other (h : Touched s t i req req') {j : Nat} (hj : i ≠ j) :
    t.touched j = s.touched j := by
  rw [h.touched, touch, Function.update_of_ne (Ne.symm hj)]

theorem touched_le (h : Touched s t i req req') (j : Nat) : s.touched j ≤ t.touched j := by
  by_cases hj : i = j
  · subst hj
    rw [h.touched_self]
    exact Nat.le_succ _
  · rw [h.touched_other hj]

/-- A tag that can be increased is increased. -/
theorem tag_toNat (h : Touched s t i req req') (hs : Sound s) (hlt : s.touched i < 65535) :
    req'.tag.toNat = s.touched i + 1 := by
  have htag := hs.tag i req h.slot
  rw [h.tag, tag_succ_toNat (by omega), htag]

theorem tag_of_slot (h : Touched s t i req req') (hs : Sound s) (hlt : s.touched i < 65535)
    (j : Nat) (r : Request) (hslot : t.table.slot j = some r) : r.tag.toNat = t.touched j := by
  by_cases hj : i = j
  · subst hj
    rw [h.slot_self] at hslot
    cases hslot
    rw [h.tag_toNat hs hlt, h.touched_self]
  · rw [h.slot_other hj] at hslot
    rw [h.touched_other hj, hs.tag j r hslot]

theorem noOverflow_iff (h : Touched s t i req req') (hs : Sound s) :
    NoOverflow s t ↔ s.touched i < 65535 := by
  have htag := hs.tag i req h.slot
  constructor
  · intro hno
    have hle := hno i req req' h.slot h.slot_self
    rw [h.tag, tag_le_succ_iff] at hle
    omega
  · intro hlt j r r' hr hr'
    by_cases hj : i = j
    · subst hj
      rw [h.slot] at hr
      rw [h.slot_self] at hr'
      cases hr
      cases hr'
      rw [h.tag, tag_le_succ_iff]
      omega
    · rw [h.slot_other hj, hr] at hr'
      cases hr'
      exact UInt16.le_refl _

/-- What is found with an old handle is what was found with it before. -/
theorem own_of_past (h : Touched s t i req req') (hs : Sound s) (hlt : s.touched i < 65535)
    {handle : UInt16 × UInt16} {req2 : Request} (hmem : (handle, req2) ∈ s.handles) {r : Request}
    (hslot : t.table.slot handle.1.toNat = some r) (htag : r.tag = handle.2) :
    r.requestTx = req2.requestTx ∧ r.trigger = req2.trigger := by
  by_cases hj : i = handle.1.toNat
  · -- the tag is larger than that of any handle before
    have hpast := hs.past handle (List.mem_map_of_mem hmem)
    rw [← hj] at hslot hpast
    rw [h.slot_self] at hslot
    cases hslot
    have hlarger := h.tag_toNat hs hlt
    rw [htag] at hlarger
    omega
  · rw [h.slot_other hj] at hslot
    exact hs.unique.own handle req2 hmem r hslot htag

end Touched

/-- `alloc` does nothing, or hands out the slot on top of the stack. -/
theorem alloc_cases (s : Uses) (req2 : Request) :
    (s.table.freeList = [] ∧ s.alloc req2 = s) ∨
    ∃ i rest req, s.table.freeList = i :: rest ∧
      Touched s (s.alloc req2) i req (Reqq.fillReq req req2) ∧
      (s.alloc req2).table.freeList = rest ∧
      (s.alloc req2).handles = ((UInt16.ofNat i, req.tag + 1), req2) :: s.handles := by
  cases hfree : s.table.freeList with
  | nil =>
      left
      refine ⟨rfl, ?_⟩
      simp only [alloc, hfree, Reqq.alloc_nil hfree]
  | cons i rest =>
      right
      obtain ⟨req, hslot, hhandle, hrest, helements⟩ := Reqq.alloc_cons hfree req2
      refine ⟨i, rest, req, rfl, ⟨hslot, ?_, rfl, ?_⟩, ?_, ?_⟩ <;>
        simp only [alloc, hfree, hhandle, hrest, helements]

/-- `free` takes back the slot whose tag is that of the handle, or does nothing. -/
theorem free_cases (s : Uses) (handle : UInt16 × UInt16) :
    (∃ req, req.tag = handle.2 ∧
      Touched s (s.free handle) handle.1.toNat req (Reqq.cleanReq req) ∧
      (s.free handle).table.freeList = handle.1.toNat :: s.table.freeList) ∨
    (s.free handle = s ∧ ∀ req, s.table.slot handle.1.toNat = some req → req.tag ≠ handle.2) := by
  rcases Reqq.free_cases s.table handle.1 handle.2 with
    ⟨req, hslot, htag, hdone, hfree, helements⟩ | ⟨hnot, hother⟩
  · left
    refine ⟨req, htag, ⟨hslot, ?_, rfl, ?_⟩, ?_⟩
    · exact helements
    · simp only [free, hdone, if_true]
    · exact hfree
  · right
    refine ⟨?_, hother⟩
    simp only [free, hnot]
    rfl

/-! ## The stack -/

namespace Stacked

variable {s t : Uses} {m i : Nat} {back tail rest : List Nat} {req req' : Request}

/-- On top of the stack there is a slot that was taken back, or the first one that was never
handed out. -/
theorem top_cases (h : Stacked s m back tail) (hfree : s.table.freeList = i :: rest) :
    (∃ back', back = i :: back' ∧ rest = back' ++ tail ∧ i < m) ∨
    (back = [] ∧ i = m ∧ m < s.table.elements.length ∧
      rest = List.range' (m + 1) (s.table.elements.length - (m + 1)) ∧
      ∀ j r, m ≤ j → s.table.slot j = some r → r.tag = 0) := by
  rw [h.freeList] at hfree
  cases back with
  | cons b back =>
      obtain ⟨rfl, hrest⟩ := List.cons.inj hfree
      exact .inl ⟨back, rfl, hrest.symm, h.back b List.mem_cons_self⟩
  | nil =>
      right
      rw [List.nil_append] at hfree
      obtain htail | ⟨htail, hzero⟩ := h.tail
      · rw [htail] at hfree
        cases hfree
      · rw [htail] at hfree
        have hlt : m < s.table.elements.length := by
          have hlen := congrArg List.length hfree
          rw [List.length_range', List.length_cons] at hlen
          omega
        have hcount : s.table.elements.length - m = s.table.elements.length - (m + 1) + 1 := by
          omega
        rw [hcount, List.range'_succ] at hfree
        obtain ⟨rfl, hrest⟩ := List.cons.inj hfree
        exact ⟨rfl, rfl, hlt, hrest.symm, hzero⟩

/-- The top of the stack is handed out. -/
theorem alloc (h : Stacked s m back tail) (hfree : s.table.freeList = i :: rest)
    (htouched : Touched s t i req req') (hrest : t.table.freeList = rest)
    (hkeys : t.handles.map Prod.fst = (UInt16.ofNat i, req.tag + 1) :: s.handles.map Prod.fst)
    (hindex : i < 65536) : ∃ m back tail, Stacked t m back tail := by
  have hi : (UInt16.ofNat i).toNat = i := UInt16.toNat_ofNat_of_lt' hindex
  have hlength : t.table.elements.length = s.table.elements.length := by
    rw [htouched.elements, List.length_set]
  have hkeep : ∀ j, j < m → (UInt16.ofNat j, 1) ∈ t.handles.map Prod.fst := by
    intro j hj
    rw [hkeys]
    exact List.mem_cons_of_mem _ (h.first j hj)
  have hgiven : ∀ m', m ≤ m' → i < m' → ∀ handle ∈ t.handles.map Prod.fst,
      handle.1.toNat < m' := by
    intro m' hm hlt handle hmem
    rw [hkeys, List.mem_cons] at hmem
    rcases hmem with rfl | hmem
    · exact hi.symm ▸ hlt
    · exact (h.given handle hmem).trans_le hm
  rcases h.top_cases hfree with ⟨back', rfl, hback, hlt⟩ | ⟨rfl, rfl, hlt, hnext, hzero⟩
  · refine ⟨m, back', tail, hrest.trans hback, fun j hj => h.back j (List.mem_cons_of_mem _ hj),
      h.small, hkeep, hgiven m le_rfl hlt, ?_⟩
    refine h.tail.imp id fun ⟨htail, hzero⟩ => ⟨by rw [htail, hlength], ?_⟩
    intro j r hj hslot
    rw [htouched.slot_other (by omega)] at hslot
    exact hzero j r hj hslot
  · refine ⟨i + 1, [], rest, hrest, nofun, hindex, ?_, hgiven (i + 1) (Nat.le_succ i) i.lt_succ_self,
      .inr ⟨by rw [hnext, hlength], ?_⟩⟩
    · intro j hj
      by_cases hji : j = i
      · rw [hji, hkeys, hzero i req le_rfl htouched.slot]
        exact List.mem_cons_self
      · exact hkeep j (by omega)
    · intro j r hj hslot
      rw [htouched.slot_other (by omega)] at hslot
      exact hzero j r (by omega) hslot

/-- A slot that was handed out is put on top of the stack. -/
theorem free (h : Stacked s m back tail) (htouched : Touched s t i req req')
    (hfree : t.table.freeList = i :: s.table.freeList) (hhandles : t.handles = s.handles)
    (hi : i < m) : Stacked t m (i :: back) tail := by
  refine ⟨by rw [hfree, h.freeList, List.cons_append], List.forall_mem_cons.mpr ⟨hi, h.back⟩,
    h.small, hhandles ▸ h.first, hhandles ▸ h.given, ?_⟩
  refine h.tail.imp id fun ⟨htail, hzero⟩ => ⟨?_, ?_⟩
  · rw [htail, htouched.elements, List.length_set]
  · intro j r hj hslot
    rw [htouched.slot_other (by omega)] at hslot
    exact hzero j r hj hslot

end Stacked

/-! ## One step -/

variable {s t : Uses}

/-- A slot within the bound is handed out under a new handle. -/
theorem Sound.alloc (h : Sound s) (req2 : Request) (hwithin : s.Within (.alloc req2)) :
    Sound (s.alloc req2) ∧ NoOverflow s (s.alloc req2) := by
  rcases s.alloc_cases req2 with ⟨_, hsame⟩ | ⟨i, rest, req, hfree, htouched, hrest, hhandles⟩
  · rw [hsame]
    exact ⟨h, .refl s⟩
  obtain ⟨hindex, hlt⟩ := hwithin i (by rw [hfree]; rfl)
  have hi : (UInt16.ofNat i).toNat = i := UInt16.toNat_ofNat_of_lt' hindex
  have htag : (req.tag + 1).toNat = s.touched i + 1 := htouched.tag_toNat h hlt
  have hkeys : (s.alloc req2).handles.map Prod.fst =
      (UInt16.ofNat i, req.tag + 1) :: s.handles.map Prod.fst := by
    rw [hhandles, List.map_cons]
  refine ⟨⟨htouched.tag_of_slot h hlt, ?_, ⟨?_, ?_⟩, ?_⟩, (htouched.noOverflow_iff h).mpr hlt⟩
  · intro handle hmem
    rw [hkeys, List.mem_cons] at hmem
    rcases hmem with rfl | hmem
    · show (req.tag + 1).toNat ≤ (s.alloc req2).touched (UInt16.ofNat i).toNat
      rw [hi, htouched.touched_self, htag]
    · exact (h.past handle hmem).trans (htouched.touched_le _)
  · rw [hkeys, List.nodup_cons]
    refine ⟨fun hmem => ?_, h.unique.nodup⟩
    have hpast : (req.tag + 1).toNat ≤ s.touched (UInt16.ofNat i).toNat := h.past _ hmem
    rw [hi, htag] at hpast
    omega
  · intro handle req2' hmem r hslot hr
    rw [hhandles, List.mem_cons] at hmem
    rcases hmem with heq | hmem
    · obtain ⟨rfl, rfl⟩ := Prod.mk.inj heq
      rw [hi, htouched.slot_self] at hslot
      cases hslot
      exact ⟨rfl, rfl⟩
    · exact htouched.own_of_past h hlt hmem hslot hr
  · obtain ⟨m, back, tail, hstack⟩ := h.stacked
    exact hstack.alloc hfree htouched hrest hkeys hindex

/-- A slot within the bound is taken back. -/
theorem Sound.free (h : Sound s) {handle : UInt16 × UInt16} (hreturned : s.Returned handle)
    (hwithin : s.Within (.free handle)) :
    Sound (s.free handle) ∧ NoOverflow s (s.free handle) := by
  rcases s.free_cases handle with ⟨req, htag, htouched, hfree⟩ | ⟨hsame, _⟩
  · have hlt := hwithin req htouched.slot htag
    refine ⟨⟨htouched.tag_of_slot h hlt, ?_, ⟨h.unique.nodup, ?_⟩, ?_⟩,
      (htouched.noOverflow_iff h).mpr hlt⟩
    · intro handle' hmem
      exact (h.past handle' hmem).trans (htouched.touched_le _)
    · intro handle' req2 hmem r hslot hr
      exact htouched.own_of_past h hlt hmem hslot hr
    · -- the sentinel has the tag of no slot within the bound
      have hgiven : handle ∈ s.handles.map Prod.fst := by
        refine hreturned.resolve_left ?_
        rintro rfl
        have htoNat := h.tag _ req htouched.slot
        rw [htag] at htoNat
        have hmax : ((65535, 65535) : UInt16 × UInt16).2.toNat = 65535 := rfl
        omega
      obtain ⟨m, back, tail, hstack⟩ := h.stacked
      exact ⟨m, _, tail, hstack.free htouched hfree rfl (hstack.given handle hgiven)⟩
  · rw [hsame]
    exact ⟨h, .refl s⟩

/-- A slot of a cleared table, by the slot it was. -/
theorem clearAll_slot_eq {i : Nat} {req' : Request}
    (hslot : s.clearAll.table.slot i = some req') :
    ∃ req, s.table.slot i = some req ∧ req' = Reqq.cleanReq req := by
  rw [clearAll, Reqq.clearAll_slot, Option.map_eq_some_iff] at hslot
  obtain ⟨req, hreq, rfl⟩ := hslot
  exact ⟨req, hreq, rfl⟩

/-- All slots are within the bound, and cleared. -/
theorem Sound.clearAll (h : Sound s) (hwithin : s.Within .clearAll) :
    Sound s.clearAll ∧ NoOverflow s s.clearAll := by
  have hlt : ∀ {i req}, s.table.slot i = some req → s.touched i < 65535 :=
    fun hslot => hwithin _ (Reqq.slot_lt hslot)
  have htag : ∀ {i req}, s.table.slot i = some req →
      (Reqq.cleanReq req).tag.toNat = s.touched i + 1 := by
    intro i req hslot
    have hreq := h.tag i req hslot
    have hbound := hlt hslot
    show (req.tag + 1).toNat = _
    rw [tag_succ_toNat (by omega), hreq]
  refine ⟨⟨?_, ?_, ⟨h.unique.nodup, ?_⟩, ?_⟩, ?_⟩
  · intro i req' hslot
    obtain ⟨req, hreq, rfl⟩ := clearAll_slot_eq hslot
    exact htag hreq
  · intro handle hmem
    exact (h.past handle hmem).trans (Nat.le_succ _)
  · intro handle req2 hmem req' hslot heq
    obtain ⟨req, hreq, rfl⟩ := clearAll_slot_eq hslot
    have hpast := h.past handle (List.mem_map_of_mem hmem)
    have hlarger := htag hreq
    rw [heq] at hlarger
    omega
  · obtain ⟨m, back, tail, hstack⟩ := h.stacked
    exact ⟨m, [], [], rfl, nofun, hstack.small, hstack.first, hstack.given, .inl rfl⟩
  · intro i req req' hreq hreq'
    obtain ⟨req'', hslot, rfl⟩ := clearAll_slot_eq hreq'
    rw [hreq] at hslot
    cases hslot
    show req.tag ≤ req.tag + 1
    have htoNat := h.tag i req hreq
    have hbound := hlt hreq
    rw [tag_le_succ_iff]
    omega

/-- A step within the bound. -/
theorem Sound.step {e : Use} (h : Sound s) (hstep : Step s e t) (hwithin : s.Within e) :
    Sound t ∧ NoOverflow s t := by
  cases hstep with
  | alloc req2 => exact h.alloc req2 hwithin
  | free hreturned => exact h.free hreturned hwithin
  | clearAll => exact h.clearAll hwithin

/-- A step that is not within the bound overflows a tag, or returns an old handle. -/
theorem Sound.within {e : Use} (h : Sound s) (hstep : Step s e t) (hno : NoOverflow s t)
    (hunique : Unique t) : s.Within e := by
  cases hstep with
  | alloc req2 =>
      intro i hhead
      rcases s.alloc_cases req2 with ⟨hnil, _⟩ | ⟨j, rest, req, hfree, htouched, _, hhandles⟩
      · rw [hnil] at hhead
        cases hhead
      rw [hfree] at hhead
      cases hhead
      refine ⟨?_, (htouched.noOverflow_iff h).mp hno⟩
      obtain ⟨m, back, tail, hstack⟩ := h.stacked
      have hsmall := hstack.small
      rcases hstack.top_cases hfree with ⟨_, _, _, hlt⟩ | ⟨_, rfl, _, _, hzero⟩
      · exact hlt.trans_le hsmall
      · by_contra hlarge
        -- slot 65536 gets the handle that slot 0 had first
        have hi : i = 65536 := by omega
        have hnodup := hunique.nodup
        rw [hhandles, List.map_cons, List.nodup_cons] at hnodup
        apply hnodup.1
        rw [hzero i req le_rfl htouched.slot, hi]
        exact hstack.first 0 (by omega)
  | @free handle hreturned =>
      intro req hslot htag
      rcases s.free_cases handle with ⟨req', _, htouched, _⟩ | ⟨_, hother⟩
      · exact (htouched.noOverflow_iff h).mp hno
      · exact absurd htag (hother req hslot)
  | clearAll =>
      intro i hi
      have hslot : s.table.slot i = some s.table.elements[i] := List.getElem?_eq_getElem hi
      have hcleared : s.clearAll.table.slot i = some (Reqq.cleanReq s.table.elements[i]) := by
        rw [Uses.clearAll, Reqq.clearAll_slot, hslot]
        rfl
      have hle : s.table.elements[i].tag ≤ s.table.elements[i].tag + 1 := hno i _ _ hslot hcleared
      rw [tag_le_succ_iff, h.tag i _ hslot] at hle
      exact hle

/-! ## Runs -/

/-- The runs in which every step is within the bound are those in which no tag overflows and
handles name requests, after every step. -/
theorem unique_iff_within (size : Nat) (es : List Use) (t : Uses) :
    Run (Guarded Within Step) (new size) es t ↔
      Run (fun s e t => Step s e t ∧ (NoOverflow s t ∧ Unique t)) (new size) es t := by
  refine Run.guarded_iff (I := Sound) ?_ ?_ (sound_new size)
  · intro s e t hs hstep
    constructor
    · rintro ⟨hno, hunique⟩
      exact hs.within hstep hno hunique
    · intro hwithin
      obtain ⟨ht, hno⟩ := hs.step hstep hwithin
      exact ⟨hno, ht.unique⟩
  · rintro s e t hs hstep ⟨hno, hunique⟩
    exact (hs.step hstep (hs.within hstep hno hunique)).1

/-- In a table of one slot, after one request after the other. -/
theorem exists_rounds (n : Nat) : ∃ es t req, Run Step (new 1) es t ∧ t.table.freeList = [0] ∧
    t.table.slot 0 = some req ∧ req.tag = UInt16.ofNat (2 * n) ∧
    (0 < n → (0, 1) ∈ t.handles.map Prod.fst) := by
  induction n with
  | zero => exact ⟨[], new 1, Request.new 0, .nil _, rfl, rfl, rfl, nofun⟩
  | succ n ih =>
      obtain ⟨es, t, req, hrun, hfree, hslot, htag, hfirst⟩ := ih
      have hodd : req.tag + 1 = UInt16.ofNat (2 * n + 1) := by
        rw [htag, UInt16.ofNat_add]
        rfl
      rcases t.alloc_cases (Request.withTx n n) with ⟨hnil, _⟩ |
        ⟨i, rest, req', hcons, halloc, hrest, hhandles⟩
      · rw [hfree] at hnil
        cases hnil
      rw [hfree] at hcons
      obtain ⟨rfl, rfl⟩ := List.cons.inj hcons
      have hreq : req = req' := Option.some.inj (hslot.symm.trans halloc.slot)
      subst hreq
      have hgiven : (0, req.tag + 1) ∈ (t.alloc (Request.withTx n n)).handles.map Prod.fst := by
        rw [hhandles, List.map_cons]
        exact List.mem_cons_self
      rcases (t.alloc (Request.withTx n n)).free_cases (0, req.tag + 1) with
        ⟨req'', hreq'', hfreed, hback⟩ | ⟨_, hother⟩
      · refine ⟨_, _, Reqq.cleanReq req'', hrun.append (.cons (.alloc t (Request.withTx n n))
          (.cons (.free (.inr hgiven)) (.nil _))), by rw [hback, hrest]; rfl, hfreed.slot_self,
          ?_, fun _ => ?_⟩
        · show req''.tag + 1 = _
          rw [hreq'', hodd, Nat.mul_succ, UInt16.ofNat_add (2 * n) 2, UInt16.ofNat_add]
          exact UInt16.add_assoc _ _ _
        · show (0, 1) ∈ (t.alloc (Request.withTx n n)).handles.map Prod.fst
          rw [hhandles, List.map_cons]
          cases n with
          | zero =>
              rw [hodd]
              exact List.mem_cons_self
          | succ n => exact List.mem_cons_of_mem _ (hfirst (Nat.succ_pos n))
      · exact absurd rfl (hother _ halloc.slot_self)

/-- The request behind 32768 others has the handle of the first one. -/
theorem handle_returned_twice :
    ∃ es t, Run Step (new 1) es t ∧ ¬ (t.handles.map Prod.fst).Nodup := by
  obtain ⟨es, t, req, hrun, hfree, hslot, htag, hfirst⟩ := exists_rounds 32768
  refine ⟨_, _, hrun.append (.cons (.alloc t (Request.withTx 0 0)) (.nil _)), ?_⟩
  rcases t.alloc_cases (Request.withTx 0 0) with ⟨hnil, _⟩ |
    ⟨i, rest, req', hcons, halloc, _, hhandles⟩
  · rw [hfree] at hnil
    cases hnil
  rw [hfree] at hcons
  obtain ⟨rfl, _⟩ := List.cons.inj hcons
  have hreq : req = req' := Option.some.inj (hslot.symm.trans halloc.slot)
  subst hreq
  have hone : req.tag + 1 = 1 := by
    rw [htag]
    decide
  rw [hhandles, List.map_cons, hone, List.nodup_cons]
  exact fun h => h.1 (hfirst (by decide))

end Uses

end LproxyCv.Tunnels
