import LproxyCv.Foundation.Bytes

set_option autoImplicit false

/-!
# Foundation: a scripted byte transport

A non-blocking byte stream is a pair of scripts: what the operating system
answers at each read and at each write.  Quantifying over scripts is quantifying
over every way a stream can be cut into reads, every pattern of partial writes
and every place at which a call is not ready.  A read never returns more than
the buffer it is given holds; what it leaves stays at the head of the script.
-/

namespace LproxyCv.Foundation

/-- The answer of a call that may not be ready. -/
inductive Poll (α : Type) where
  | pending
  | ready (value : α)
  deriving DecidableEq, Repr

/-! ## Reading -/

/-- What the operating system has for a reader.  `data []` is an end of file. -/
inductive ReadEvent where
  | pending
  | data (bytes : Bytes)
  | error (code : Int)
  deriving DecidableEq, Repr

/-- The answer to one read. -/
inductive ReadResult where
  | pending
  | ok (bytes : Bytes)
  | error (code : Int)
  deriving DecidableEq, Repr

/-- One read into a buffer of `cap` bytes.  A script that has run out is at the
end of file. -/
def pollRead (cap : Nat) : List ReadEvent → ReadResult × List ReadEvent
  | [] => (.ok [], [])
  | .pending :: es => (.pending, es)
  | .error code :: es => (.error code, es)
  | .data bs :: es =>
      (.ok (bs.take cap), if bs.length ≤ cap then es else .data (bs.drop cap) :: es)

/-- The bytes a script delivers before its first end of file or error. -/
def deliverable : List ReadEvent → Bytes
  | [] => []
  | .pending :: es => deliverable es
  | .error _ :: _ => []
  | .data bs :: es => if bs = [] then [] else bs ++ deliverable es

/-- The script has neither an error nor an empty read: only pieces of a stream
and moments at which nothing is ready. -/
def OnlyData (es : List ReadEvent) : Prop :=
  ∀ e ∈ es, (∀ code, e ≠ .error code) ∧ e ≠ .data []

/-- How many reads a script can answer at most before it has run out. -/
def scriptSize : List ReadEvent → Nat
  | [] => 0
  | .data bs :: es => bs.length + 1 + scriptSize es
  | _ :: es => 1 + scriptSize es

theorem scriptSize_pollRead {cap : Nat} {es : List ReadEvent} (hcap : 0 < cap)
    (hes : es ≠ []) : scriptSize (pollRead cap es).2 < scriptSize es := by
  cases es with
  | nil => exact absurd rfl hes
  | cons e es =>
      cases e with
      | pending => simp [pollRead, scriptSize]
      | error => simp [pollRead, scriptSize]
      | data bs =>
          simp only [pollRead, scriptSize]
          split
          · omega
          · simp only [scriptSize, List.length_drop]
            omega

/-- What one read takes out of the deliverable bytes. -/
theorem pollRead_spec {cap : Nat} (hcap : 0 < cap) (es : List ReadEvent) :
    (∃ bs, bs ≠ [] ∧ bs.length ≤ cap ∧ (pollRead cap es).1 = .ok bs ∧
      deliverable es = bs ++ deliverable (pollRead cap es).2) ∨
    ((pollRead cap es).1 = .ok [] ∧ deliverable es = []) ∨
    ((pollRead cap es).1 = .pending ∧ es ≠ [] ∧
      deliverable es = deliverable (pollRead cap es).2) ∨
    ((∃ code, (pollRead cap es).1 = .error code) ∧ deliverable es = []) := by
  cases es with
  | nil => exact Or.inr (Or.inl ⟨rfl, rfl⟩)
  | cons e es =>
      cases e with
      | pending => exact Or.inr (Or.inr (Or.inl ⟨rfl, by simp, rfl⟩))
      | error code => exact Or.inr (Or.inr (Or.inr ⟨⟨code, rfl⟩, rfl⟩))
      | data bs =>
          by_cases hbs : bs = []
          · subst hbs
            exact Or.inr (Or.inl ⟨by simp [pollRead], by simp [deliverable]⟩)
          · left
            have hlen : 0 < bs.length := List.length_pos_of_ne_nil hbs
            refine ⟨bs.take cap, ?_, ?_, rfl, ?_⟩
            · intro hnil
              have hzero := congrArg List.length hnil
              rw [List.length_take, List.length_nil] at hzero
              omega
            · rw [List.length_take]
              omega
            · by_cases hle : bs.length ≤ cap
              · simp [pollRead, deliverable, hbs, hle, List.take_of_length_le hle]
              · have hdrop : bs.drop cap ≠ [] := by
                  intro hnil
                  exact hle (List.drop_eq_nil_iff.mp hnil)
                simp only [pollRead, deliverable, hbs, hle, hdrop, if_false]
                rw [← List.append_assoc, List.take_append_drop]

theorem OnlyData.tail {e : ReadEvent} {es : List ReadEvent} (h : OnlyData (e :: es)) :
    OnlyData es :=
  fun x hx => h x (List.mem_cons_of_mem e hx)

/-- A script of data stays one, whatever part of it is read. -/
theorem OnlyData.pollRead {cap : Nat} {es : List ReadEvent} (h : OnlyData es) :
    OnlyData (pollRead cap es).2 := by
  cases es with
  | nil => exact h
  | cons e es =>
      cases e with
      | pending => exact h.tail
      | error => exact h.tail
      | data bs =>
          simp only [Foundation.pollRead]
          split
          · exact h.tail
          · rename_i hle
            intro x hx
            cases List.mem_cons.mp hx with
            | inl heq =>
                subst heq
                refine ⟨by simp, ?_⟩
                intro hnil
                have hdrop : bs.drop cap = [] := by simpa using hnil
                exact hle (List.drop_eq_nil_iff.mp hdrop)
            | inr hmem => exact h.tail x hmem

/-- A read from a script of data fails only when the script has run out. -/
theorem OnlyData.result {cap : Nat} (hcap : 0 < cap) {es : List ReadEvent}
    (h : OnlyData es) :
    (∀ code, (Foundation.pollRead cap es).1 ≠ .error code) ∧
      ((Foundation.pollRead cap es).1 = .ok [] → es = []) := by
  cases es with
  | nil => simp [Foundation.pollRead]
  | cons e es =>
      have he := h e List.mem_cons_self
      cases e with
      | pending => simp [Foundation.pollRead]
      | error code => exact absurd rfl (he.1 code)
      | data bs =>
          have hbs : bs ≠ [] := by
            intro hnil
            exact he.2 (by rw [hnil])
          refine ⟨by simp [Foundation.pollRead], ?_⟩
          intro hok
          have htake : bs.take cap = [] := by simpa [Foundation.pollRead] using hok
          rcases List.take_eq_nil_iff.mp htake with hzero | hnil
          · omega
          · exact absurd hnil hbs

/-! ## Writing -/

/-- What the operating system does with an offered slice. -/
inductive WriteEvent where
  | pending
  | accept (count : Nat)
  | error (code : Int)
  deriving DecidableEq, Repr

/-- The answer to one write: how many bytes were taken. -/
inductive WriteResult where
  | pending
  | ok (count : Nat)
  | error (code : Int)
  deriving DecidableEq, Repr

/-- Both directions of one connection, and the bytes the peer has been sent. -/
structure Transport where
  reads : List ReadEvent
  writes : List WriteEvent
  written : Bytes
  deriving DecidableEq, Repr

namespace Transport

/-- One read into a buffer of `cap` bytes. -/
def pollRead (cap : Nat) (io : Transport) : ReadResult × Transport :=
  let r := Foundation.pollRead cap io.reads
  (r.1, { io with reads := r.2 })

/-- One write of `bs`.  A script that has run out is not ready. -/
def pollWrite (bs : Bytes) (io : Transport) : WriteResult × Transport :=
  match io.writes with
  | [] => (.pending, io)
  | .pending :: ws => (.pending, { io with writes := ws })
  | .error code :: ws => (.error code, { io with writes := ws })
  | .accept n :: ws =>
      (.ok (min n bs.length), { io with writes := ws, written := io.written ++ bs.take n })

@[simp] theorem pollRead_fst (cap : Nat) (io : Transport) :
    (io.pollRead cap).1 = (Foundation.pollRead cap io.reads).1 := rfl

@[simp] theorem pollRead_reads (cap : Nat) (io : Transport) :
    (io.pollRead cap).2.reads = (Foundation.pollRead cap io.reads).2 := rfl

/-- One read: some bytes, the end, nothing yet, or a failure. -/
theorem pollRead_cases {cap : Nat} (hcap : 0 < cap) (io : Transport) :
    (∃ bs io', io.pollRead cap = (.ok bs, io') ∧ bs ≠ [] ∧ bs.length ≤ cap ∧
      deliverable io.reads = bs ++ deliverable io'.reads ∧
      scriptSize io'.reads < scriptSize io.reads) ∨
    (∃ io', io.pollRead cap = (.ok [], io') ∧ deliverable io.reads = []) ∨
    (∃ io', io.pollRead cap = (.pending, io') ∧ deliverable io.reads = deliverable io'.reads ∧
      scriptSize io'.reads < scriptSize io.reads) ∨
    (∃ code io', io.pollRead cap = (.error code, io') ∧ deliverable io.reads = []) := by
  have hread : ∀ result, (Foundation.pollRead cap io.reads).1 = result →
      io.pollRead cap = (result, (io.pollRead cap).2) := by
    rintro result rfl
    rfl
  have hsmall := @scriptSize_pollRead cap io.reads hcap
  rcases pollRead_spec hcap io.reads with
    ⟨bs, hne, hle, hok, hbytes⟩ | ⟨hok, hnil⟩ | ⟨hok, hscript, hbytes⟩ | ⟨⟨code, hok⟩, hnil⟩
  · have hscript : io.reads ≠ [] := by
      intro hnil
      rw [hnil] at hbytes
      exact hne (List.append_eq_nil_iff.mp hbytes.symm).1
    exact .inl ⟨bs, _, hread _ hok, hne, hle, hbytes, hsmall hscript⟩
  · exact .inr (.inl ⟨_, hread _ hok, hnil⟩)
  · exact .inr (.inr (.inl ⟨_, hread _ hok, hbytes, hsmall hscript⟩))
  · exact .inr (.inr (.inr ⟨code, _, hread _ hok, hnil⟩))

/-- One read of a script of data does not fail, and leaves one. -/
theorem onlyData_pollRead {cap : Nat} (hcap : 0 < cap) {io io' : Transport} {result : ReadResult}
    (hdata : OnlyData io.reads) (hread : io.pollRead cap = (result, io')) :
    OnlyData io'.reads ∧ ∀ code, result ≠ .error code := by
  obtain ⟨rfl, rfl⟩ := Prod.mk.inj hread
  exact ⟨hdata.pollRead, (hdata.result hcap).1⟩

end Transport

end LproxyCv.Foundation
