import LproxyCv.Tunnels.Reqq

set_option autoImplicit false

/-!
# Xport: the request table of the reverse tunnel

Here it is the peer that picks the slot and the tag of a request.  A slot is in
use or not; a slot that is emptied keeps its tag.  The waker and the socket of a
slot are never set in the source, so they are left out.
-/

namespace LproxyCv.Xport

open LproxyCv.Foundation LproxyCv.Tunnels

/-- A slot of the table. -/
structure XRequest where
  index : UInt16
  tag : UInt16
  isInused : Bool
  requestTx : Option Channel
  trigger : Option Trigger
  deriving DecidableEq, Repr

/-- An empty slot. -/
def XRequest.new (idx : UInt16) : XRequest :=
  { index := idx, tag := 0, isInused := false, requestTx := none, trigger := none }

/-- The request table. -/
structure XReqq where
  elements : List XRequest
  deriving DecidableEq, Repr

namespace XReqq

/-- A table of `size` empty slots. -/
def new (size : Nat) : XReqq :=
  ⟨(List.range size).map fun n => XRequest.new (UInt16.ofNat n)⟩

/-- Empty a slot. -/
def cleanReq (req : XRequest) : XRequest :=
  { req with requestTx := none, trigger := none, isInused := false }

/-- The slot at an index. -/
def slot (q : XReqq) (i : Nat) : Option XRequest := q.elements[i]?

/-- Overwrite a slot. -/
def setSlot (q : XReqq) (i : Nat) (req : XRequest) : XReqq := ⟨q.elements.set i req⟩

/-- Put the slot to use under a tag, whatever was in it. -/
def alloc (q : XReqq) (reqIdx reqTag : UInt16) : XReqq :=
  match q.slot reqIdx.toNat with
  | none => q
  | some req =>
      q.setSlot reqIdx.toNat { cleanReq req with tag := reqTag, isInused := true }

/-- Take a slot back, if it is in use under the tag. -/
def free (q : XReqq) (idx tag : UInt16) : Bool × XReqq :=
  match q.slot idx.toNat with
  | none => (false, q)
  | some req =>
      if req.tag ≠ tag then (false, q)
      else if req.isInused = false then (false, q)
      else (true, q.setSlot idx.toNat (cleanReq req))

/-- Empty all slots. -/
def clearAll (q : XReqq) : XReqq := ⟨q.elements.map cleanReq⟩

/-- Whether the slot is in use. -/
def inUse (q : XReqq) (i : Nat) : Bool := (q.slot i).any XRequest.isInused

/-! ## Which slots are in use -/

@[simp] theorem inUse_new (size i : Nat) : (new size).inUse i = false := by
  unfold inUse slot new
  rw [List.getElem?_map]
  cases (List.range size)[i]? <;> rfl

@[simp] theorem inUse_clearAll (q : XReqq) (i : Nat) : q.clearAll.inUse i = false := by
  unfold inUse slot clearAll
  rw [List.getElem?_map]
  cases q.elements[i]? <;> rfl

theorem slot_setSlot {q : XReqq} {i : Nat} {req : XRequest} (h : q.slot i = some req)
    (req' : XRequest) (j : Nat) :
    (q.setSlot i req').slot j = if i = j then some req' else q.slot j := by
  unfold slot at h
  unfold slot setSlot
  rw [List.getElem?_set']
  split
  · rename_i hij
    rw [← hij, h]
    rfl
  · rfl

@[simp] theorem setSlot_setSlot (q : XReqq) (i : Nat) (req req' : XRequest) :
    (q.setSlot i req).setSlot i req' = q.setSlot i req' := by
  simp [setSlot]

/-- Overwriting a slot without taking it up or giving it back. -/
theorem inUse_setSlot {q : XReqq} {i : Nat} {req : XRequest} (h : q.slot i = some req)
    (req' : XRequest) (j : Nat) :
    (q.setSlot i req').inUse j = if i = j then req'.isInused else q.inUse j := by
  unfold inUse
  rw [slot_setSlot h]
  split <;> rfl

/-- Only the slot that is put to use changes. -/
theorem inUse_alloc {q : XReqq} {reqIdx reqTag : UInt16} {j : Nat}
    (h : (q.alloc reqIdx reqTag).inUse j = true) : reqIdx.toNat = j ∨ q.inUse j = true := by
  unfold alloc at h
  split at h
  · exact .inr h
  · rename_i req hslot
    rw [inUse_setSlot hslot] at h
    split at h
    · exact .inl ‹_›
    · exact .inr h

/-- Taking a slot back finds it in use under the tag, or changes nothing. -/
theorem free_cases (q : XReqq) (idx tag : UInt16) :
    (∃ req, q.slot idx.toNat = some req ∧ req.tag = tag ∧ req.isInused = true ∧
      q.free idx tag = (true, q.setSlot idx.toNat (cleanReq req))) ∨
    (q.free idx tag = (false, q) ∧
      ∀ req, q.slot idx.toNat = some req → req.tag = tag → req.isInused = false) := by
  unfold free
  cases hslot : q.slot idx.toNat with
  | none =>
      right
      exact ⟨rfl, fun req hreq => by cases hreq⟩
  | some req =>
      dsimp only
      by_cases htag : req.tag = tag
      · cases huse : req.isInused with
        | true =>
            left
            exact ⟨req, rfl, htag, huse, by simp [htag]⟩
        | false =>
            right
            refine ⟨by simp, ?_⟩
            rintro req' heq _
            cases heq
            exact huse
      · right
        refine ⟨by simp [htag], ?_⟩
        rintro req' heq htag'
        cases heq
        exact absurd htag' htag

/-- Taking a slot back puts none to use. -/
theorem inUse_free {q : XReqq} {idx tag : UInt16} {j : Nat}
    (h : (q.free idx tag).2.inUse j = true) : q.inUse j = true := by
  rcases q.free_cases idx tag with ⟨req, hslot, _, _, heq⟩ | ⟨heq, _⟩
  · rw [heq, inUse_setSlot hslot] at h
    split at h
    · cases h
    · exact h
  · rwa [heq] at h

end XReqq

end LproxyCv.Xport
