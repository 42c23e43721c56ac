import LproxyCv.Dns.Ranges
import LproxyCv.Dns.Utf8
import LproxyCv.Foundation.Offsets
import LproxyCv.Lws.CHandshake

set_option autoImplicit false

/-!
# Htp: what a server answered

All that a server has sent is a response when the connection is closed: a head, which is read
as text, and a body, which is unpacked if the head says so.  The status is looked for at fixed
offsets behind the version of the protocol, and that the body can be unpacked is taken for
granted; either can panic (`parse_isSome_iff`), and `none` is a panic here.
-/

namespace LproxyCv.Htp

open LproxyCv.Foundation
open String (utf8Len utf8Len_append utf8Len_cons)

/-! ## The status -/

/-- The number that digits are. -/
def digitsValue (acc : Nat) : List Char → Option Nat
  | [] => some acc
  | c :: rest => (Dns.digitOf c).bind fun d => digitsValue (acc * 10 + d) rest

/-- The sign of a number, and its digits. -/
def signed (s : List Char) : Bool × List Char :=
  if s.head? = some '-' then (true, s.tail)
  else if s.head? = some '+' then (false, s.tail)
  else (false, s)

/-- A number of 32 bits with a sign, as the standard library parses it. -/
def parseI32 (s : List Char) : Option Int :=
  let r := signed s
  if r.2 = [] then none
  else
    (digitsValue 0 r.2).bind fun n =>
      let value : Int := if r.1 then -n else n
      if -2 ^ 31 ≤ value ∧ value < 2 ^ 31 then some value else none

/-- The version of the protocol, in front of its last digit. -/
def version : List Char := ['H', 'T', 'T', 'P', '/', '1', '.']

/-- What is behind the status. -/
def okText : List Char := [' ', 'O', 'K']

structure HTTPResponse where
  status : Int
  header : Option String
  body : Option Bytes
  deriving DecidableEq, Repr

namespace HTTPResponse

/-- The status in a head, or zero. -/
def extractStatus (headerStr : List Char) : Option Int :=
  match find version headerStr with
  | some pos1 =>
      let pos1 := pos1 + 9
      (sliceFrom headerStr pos1).bind fun next =>
        match find okText next with
        | some pos2 =>
            let pos2 := pos1 + pos2
            (slice headerStr pos1 pos2).bind fun statusStr =>
              match parseI32 statusStr with
              | some i => some i
              | none => some 0
        | none => some 0
  | none => some 0

/-- The response that the bytes of a server are.  What `gunzip` does not unpack is unwrapped
all the same. -/
def parse (gunzip : Bytes → Option Bytes) (bytes : Bytes) : Option HTTPResponse :=
  match Lws.needlePosition bytes with
  | some pos =>
      let s := Dns.fromUtf8Lossy (bytes.take pos)
      (extractStatus s.toList).bind fun status =>
        let gzip := contains ['g', 'z', 'i', 'p'] s.toList
        let pos := pos + 4
        let bb := bytes.drop pos
        (if gzip then gunzip bb else some bb).bind fun s2 => some ⟨status, some s, some s2⟩
  | none => some ⟨0, none, none⟩

/-! ## Where the status is looked for -/

/-- Two bytes behind the first version, a character ends. -/
def CutBehindVersion (header : List Char) : Prop :=
  ∀ before after, FirstAt version header before after →
    ∃ front rest, after = front ++ rest ∧ utf8Len front = 2

/-- The text behind the two bytes is there if it can be cut off, and what is looked for in it
can always be cut off. -/
theorem extractStatus_isSome_iff (header : List Char) :
    (extractStatus header).isSome ↔ CutBehindVersion header := by
  unfold extractStatus
  cases hfind : find version header with
  | none =>
      refine iff_of_true rfl fun before after hfirst => ?_
      have hsome := find_eq_some_iff.mpr ⟨before, after, hfirst, rfl⟩
      rw [hfind] at hsome
      cases hsome
  | some pos1 =>
      obtain ⟨before, after, hfirst, rfl⟩ := find_eq_some_iff.mp hfind
      have hcut : sliceFrom header (utf8Len before + 9) = sliceFrom after 2 := by
        rw [hfirst.eq, ← sliceFrom_append (before ++ version) after 2, utf8Len_append]
        rfl
      dsimp only
      constructor
      · intro hsome
        obtain ⟨status, hstatus⟩ := Option.isSome_iff_exists.mp hsome
        obtain ⟨next, hnext, _⟩ := Option.bind_eq_some_iff.mp hstatus
        rw [hcut] at hnext
        obtain ⟨front, hafter, hlen⟩ := sliceFrom_eq_some_iff.mp hnext
        intro before' after' hfirst'
        obtain ⟨_, rfl⟩ := hfirst.unique hfirst'
        exact ⟨front, next, hafter, hlen⟩
      · intro h
        obtain ⟨front, next, hafter, hlen⟩ := h before after hfirst
        have hnext : sliceFrom header (utf8Len before + 9) = some next := by
          rw [hcut, sliceFrom_eq_some_iff]
          exact ⟨front, hafter, hlen⟩
        rw [hnext, Option.bind_some]
        cases hok : find okText next with
        | none => rfl
        | some pos2 =>
            obtain ⟨status, rest, hfirst', rfl⟩ := find_eq_some_iff.mp hok
            have hslice : slice header (utf8Len before + 9)
                (utf8Len before + 9 + utf8Len status) = some status := by
              rw [slice, if_pos (Nat.le_add_right _ _), hnext, Option.bind_some,
                Nat.add_sub_cancel_left, hfirst'.slice_eq]
            dsimp only
            rw [hslice, Option.bind_some]
            cases parseI32 status with
            | none => rfl
            | some _ => rfl

/-- What a server has sent is parsed without a panic exactly if it has no complete head, or two
bytes behind the version a character ends, and the body can be unpacked if the head says
so. -/
theorem parse_isSome_iff (gunzip : Bytes → Option Bytes) (bytes : Bytes) :
    (parse gunzip bytes).isSome ↔
      ∀ pos, Lws.needlePosition bytes = some pos →
        CutBehindVersion (Dns.fromUtf8Lossy (bytes.take pos)).toList ∧
        (contains ['g', 'z', 'i', 'p'] (Dns.fromUtf8Lossy (bytes.take pos)).toList = true →
          (gunzip (bytes.drop (pos + 4))).isSome) := by
  unfold parse
  cases hpos : Lws.needlePosition bytes with
  | none => exact iff_of_true rfl nofun
  | some pos =>
      have hstatus := extractStatus_isSome_iff (Dns.fromUtf8Lossy (bytes.take pos)).toList
      constructor
      · intro hsome pos' hpos'
        obtain rfl := Option.some.inj hpos'
        obtain ⟨response, hresponse⟩ := Option.isSome_iff_exists.mp hsome
        obtain ⟨status, hextract, hrest⟩ := Option.bind_eq_some_iff.mp hresponse
        obtain ⟨body, hbody, _⟩ := Option.bind_eq_some_iff.mp hrest
        refine ⟨hstatus.mp (by rw [hextract]; rfl), fun hgzip => ?_⟩
        rw [if_pos hgzip] at hbody
        rw [hbody]
        rfl
      · intro h
        obtain ⟨hcut, hgunzip⟩ := h pos rfl
        obtain ⟨status, hextract⟩ := Option.isSome_iff_exists.mp (hstatus.mpr hcut)
        dsimp only
        rw [hextract, Option.bind_some]
        by_cases hgzip :
            contains ['g', 'z', 'i', 'p'] (Dns.fromUtf8Lossy (bytes.take pos)).toList = true
        · obtain ⟨body, hbody⟩ := Option.isSome_iff_exists.mp (hgunzip hgzip)
          rw [if_pos hgzip, hbody]
          rfl
        · rw [if_neg hgzip]
          rfl

/-- A head of which nothing is behind the version, and a body that says to be packed and is
not. -/
theorem parse_panics :
    parse some (utf8 "HTTP/1.\r\n\r\n") = none ∧
      parse (fun _ => none) (utf8 "HTTP/1.0 200 OK\r\nVary: gzip\r\n\r\n") = none := by
  decide +kernel

/-! ## Responses that are well formed -/

/-- The status behind the version, one byte for its last digit and one between them. -/
theorem extractStatus_line {digit space : Char} (hdigit : digit.utf8Size = 1)
    (hspace : space.utf8Size = 1) {statusStr rest : List Char} (hstatusStr : ' ' ∉ statusStr)
    {status : Int} (hstatus : parseI32 statusStr = some status) :
    extractStatus (version ++ [digit, space] ++ (statusStr ++ okText ++ rest)) = some status := by
  have hversion : find version (version ++ [digit, space] ++ (statusStr ++ okText ++ rest)) =
      some 0 := by
    rw [find_eq_some_iff]
    exact ⟨[], [digit, space] ++ (statusStr ++ okText ++ rest),
      ⟨by rw [List.nil_append, List.append_assoc], fun _ _ _ => Nat.zero_le _⟩, rfl⟩
  have hlen : utf8Len (version ++ [digit, space]) = 0 + 9 := by
    rw [utf8Len_append, utf8Len_cons, utf8Len_cons, hdigit, hspace]
    rfl
  have hnext : sliceFrom (version ++ [digit, space] ++ (statusStr ++ okText ++ rest)) (0 + 9) =
      some (statusStr ++ okText ++ rest) :=
    sliceFrom_eq_some_iff.mpr ⟨_, rfl, hlen⟩
  have hfirst : FirstAt okText (statusStr ++ okText ++ rest) statusStr rest := by
    refine ⟨rfl, fun before' after' heq => ?_⟩
    by_contra hshort
    -- the blank of an earlier place is within the digits
    apply hstatusStr
    rw [List.append_assoc, List.append_assoc] at heq
    rcases List.append_eq_append_iff.mp heq with ⟨between, rfl, _⟩ | ⟨between, rfl, hbetween⟩
    · rw [List.length_append] at hshort
      omega
    · cases between with
      | nil =>
          rw [List.append_nil] at hshort
          omega
      | cons c between =>
          rw [show okText = ' ' :: ['O', 'K'] from rfl, List.cons_append, List.cons_append]
            at hbetween
          rw [(List.cons.inj hbetween).1]
          exact List.mem_append_right _ List.mem_cons_self
  have hfind := find_eq_some_iff.mpr ⟨statusStr, rest, hfirst, rfl⟩
  have hslice : slice (version ++ [digit, space] ++ (statusStr ++ okText ++ rest)) (0 + 9)
      (0 + 9 + utf8Len statusStr) = some statusStr := by
    rw [slice, if_pos (Nat.le_add_right _ _), hnext, Option.bind_some, Nat.add_sub_cancel_left,
      hfirst.slice_eq]
  unfold extractStatus
  rw [hversion]
  dsimp only
  rw [hnext, Option.bind_some, hfind]
  dsimp only
  rw [hslice, Option.bind_some, hstatus]

/-- A head, its end and a body are the response of the head and the body. -/
theorem parse_append {gunzip : Bytes → Option Bytes} {head : String} {body : Bytes} {status : Int}
    (hhead : Lws.needlePosition (utf8 head ++ Lws.needle) = some (utf8 head).length)
    (hstatus : extractStatus head.toList = some status)
    (hgzip : contains ['g', 'z', 'i', 'p'] head.toList = false) :
    parse gunzip (utf8 head ++ Lws.needle ++ body) = some ⟨status, some head, some body⟩ := by
  have hpos := (Lws.CHandshake.needlePosition_append (r := body) hhead).1
  have htake : (utf8 head ++ Lws.needle ++ body).take (utf8 head).length = utf8 head := by
    rw [List.append_assoc, List.take_left]
  have hdrop : (utf8 head ++ Lws.needle ++ body).drop ((utf8 head).length + 4) = body :=
    List.drop_left' (List.length_append)
  unfold parse
  rw [hpos]
  dsimp only
  rw [htake, hdrop, Dns.fromUtf8Lossy_utf8, hstatus, Option.bind_some, hgzip]
  rfl

example : parse (fun _ => none) (utf8 "HTTP/1.0 200 OK\r\n\r\n{}") =
    some ⟨200, some "HTTP/1.0 200 OK", some [123, 125]⟩ := by
  decide +kernel

end HTTPResponse

end LproxyCv.Htp
