import LproxyCv.Foundation.Once
import LproxyCv.Tunnels.THeader

set_option autoImplicit false

/-!
# Tunnels: the request table

A slot of the table is named by its index and its tag.  Both handing out a slot
and taking it back increase its tag, so that the tag also tells which of the two
was last: `alloc` makes it odd and `free` makes it even, as long as the two take
turns.

The table keeps the indices that can be handed out on a stack, which is the list
`freeList` with its top at the head; every index on it is one of a slot.  Tags
wrap, as the release builds do.
-/

namespace LproxyCv.Tunnels

open LproxyCv.Foundation

/-- The identity of a channel. -/
abbrev Channel : Type := Nat

/-- The identity of a trigger; dropping it ends the task of its request. -/
abbrev Trigger : Type := Nat

/-- A slot of the request table. -/
structure Request where
  index : UInt16
  tag : UInt16
  requestTx : Option Channel
  trigger : Option Trigger
  writeOut : UInt16
  deriving DecidableEq, Repr

namespace Request

/-- An empty slot. -/
def new (idx : UInt16) : Request :=
  { index := idx, tag := 0, requestTx := none, trigger := none, writeOut := 0 }

/-- A request on its way into the table. -/
def withTx (tx : Channel) (trigger : Trigger) : Request :=
  { index := 0, tag := 0, requestTx := some tx, trigger := some trigger, writeOut := 0 }

end Request

/-- What a request's task knows about its place. -/
structure TunStub where
  tunnelTx : Channel
  tunIdx : UInt16
  reqIdx : UInt16
  reqTag : UInt16
  requestQuota : UInt16
  deriving DecidableEq, Repr

/-- The header that names the request of a stub. -/
def TunStub.header (ts : TunStub) : THeader := ⟨ts.reqIdx, ts.reqTag⟩

/-- The request table. -/
structure Reqq where
  elements : List Request
  freeList : List Nat
  freeList_lt : ∀ i ∈ freeList, i < elements.length
  deriving DecidableEq

namespace Reqq

/-- A table of `size` empty slots; slot 0 is handed out first. -/
def new (size : Nat) : Reqq :=
  { elements := (List.range size).map fun n => Request.new (UInt16.ofNat n)
    freeList := List.range size
    freeList_lt := by simp }

/-- Empty a slot. -/
def cleanReq (req : Request) : Request :=
  { req with tag := req.tag + 1, requestTx := none, trigger := none }

/-- Fill a slot. -/
def fillReq (req req2 : Request) : Request :=
  { req with tag := req.tag + 1, requestTx := req2.requestTx, trigger := req2.trigger }

/-- Hand out the slot on top of the stack. -/
def alloc (q : Reqq) (req2 : Request) : (UInt16 × UInt16) × Reqq :=
  match h : q.freeList with
  | [] => ((65535, 65535), q)
  | idx :: rest =>
      have hidx : idx < q.elements.length := q.freeList_lt idx (by simp [h])
      let req := fillReq q.elements[idx] req2
      ((UInt16.ofNat idx, req.tag),
        { elements := q.elements.set idx req
          freeList := rest
          freeList_lt := fun i hi => by
            rw [List.length_set]
            exact q.freeList_lt i (by rw [h]; exact List.mem_cons_of_mem idx hi) })

/-- Take a slot back. -/
def free (q : Reqq) (idx tag : UInt16) : Bool × Reqq :=
  if hidx : idx.toNat < q.elements.length then
    if q.elements[idx.toNat].tag ≠ tag then (false, q)
    else
      (true,
        { elements := q.elements.set idx.toNat (cleanReq q.elements[idx.toNat])
          freeList := idx.toNat :: q.freeList
          freeList_lt := fun i hi => by
            rw [List.length_set]
            rcases List.mem_cons.mp hi with rfl | hmem
            · exact hidx
            · exact q.freeList_lt i hmem })
  else (false, q)

/-- Empty all slots; none can be handed out any more. -/
def clearAll (q : Reqq) : Reqq :=
  { elements := q.elements.map cleanReq
    freeList := []
    freeList_lt := by simp }

/-- The slot at an index. -/
def slot (q : Reqq) (i : Nat) : Option Request := q.elements[i]?

/-- Overwrite a slot in place. -/
def setSlot (q : Reqq) (i : Nat) (req : Request) : Reqq :=
  { elements := q.elements.set i req
    freeList := q.freeList
    freeList_lt := fun j hj => by
      rw [List.length_set]
      exact q.freeList_lt j hj }

/-! ## What each operation does -/

@[simp] theorem new_length (size : Nat) : (new size).elements.length = size := by
  simp [new]

theorem new_slot {size i : Nat} {req : Request} (h : (new size).slot i = some req) :
    i < size ∧ req = Request.new (UInt16.ofNat i) := by
  unfold slot new at h
  rw [List.getElem?_map] at h
  by_cases hi : i < size
  · rw [List.getElem?_range hi] at h
    exact ⟨hi, by simpa [eq_comm] using h⟩
  · rw [List.getElem?_eq_none (by simpa using hi)] at h
    simp at h

theorem slot_lt {q : Reqq} {i : Nat} {req : Request} (h : q.slot i = some req) :
    i < q.elements.length := by
  unfold slot at h
  exact (List.getElem?_eq_some_iff.mp h).1

/-- `alloc` of an empty stack changes nothing. -/
theorem alloc_nil {q : Reqq} (h : q.freeList = []) (req2 : Request) :
    q.alloc req2 = ((65535, 65535), q) := by
  unfold alloc
  split
  · rfl
  · rename_i hcons
    rw [h] at hcons
    cases hcons

/-- `alloc` fills the slot on top of the stack. -/
theorem alloc_cons {q : Reqq} {idx : Nat} {rest : List Nat} (h : q.freeList = idx :: rest)
    (req2 : Request) :
    ∃ req, q.slot idx = some req ∧
      (q.alloc req2).1 = (UInt16.ofNat idx, req.tag + 1) ∧
      (q.alloc req2).2.freeList = rest ∧
      (q.alloc req2).2.elements = q.elements.set idx (fillReq req req2) := by
  have hidx : idx < q.elements.length := q.freeList_lt idx (by simp [h])
  refine ⟨q.elements[idx], List.getElem?_eq_getElem hidx, ?_⟩
  unfold alloc
  split
  · rename_i hnil
    rw [h] at hnil
    cases hnil
  · rename_i idx' rest' hcons
    rw [h] at hcons
    cases hcons
    exact ⟨rfl, rfl, rfl⟩

/-- `free` either finds the tag and empties the slot, or changes nothing. -/
theorem free_cases (q : Reqq) (idx tag : UInt16) :
    (∃ req, q.slot idx.toNat = some req ∧ req.tag = tag ∧
      (q.free idx tag).1 = true ∧
      (q.free idx tag).2.freeList = idx.toNat :: q.freeList ∧
      (q.free idx tag).2.elements = q.elements.set idx.toNat (cleanReq req)) ∨
    (q.free idx tag = (false, q) ∧ ∀ req, q.slot idx.toNat = some req → req.tag ≠ tag) := by
  unfold free slot
  by_cases hidx : idx.toNat < q.elements.length
  · simp only [hidx, dif_pos, List.getElem?_eq_getElem hidx]
    by_cases htag : q.elements[idx.toNat].tag = tag
    · left
      exact ⟨q.elements[idx.toNat], rfl, htag, by simp [htag], by simp [htag], by simp [htag]⟩
    · right
      refine ⟨by simp [htag], ?_⟩
      intro req hreq
      cases hreq
      exact htag
  · right
    refine ⟨by simp [hidx], ?_⟩
    intro req hreq
    rw [List.getElem?_eq_none (by omega)] at hreq
    cases hreq

theorem slot_set {q q' : Reqq} {idx i : Nat} {req : Request}
    (h : q'.elements = q.elements.set idx req) :
    q'.slot i = if idx = i then (q.slot i).map fun _ => req else q.slot i := by
  unfold slot
  rw [h, List.getElem?_set']
  split <;> rfl

@[simp] theorem clearAll_slot (q : Reqq) (i : Nat) :
    q.clearAll.slot i = (q.slot i).map cleanReq := by
  simp [slot, clearAll]

end Reqq

end LproxyCv.Tunnels
