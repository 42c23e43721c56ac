import LproxyCv.Foundation.Json

set_option autoImplicit false

/-!
# Config: the requests to the server

The bodies of the two requests that ask the server for a configuration.  They are JSON
objects put together as text, with the fields between quotes as they are: nothing in them is
escaped.
-/

namespace LproxyCv.Config

open LproxyCv.Foundation

/-! ## The requests -/

/-- The request for a configuration. -/
structure AuthReq where
  uuid : String
  currentVersion : String
  arch : String
  macs : List String
  deriving DecidableEq

namespace AuthReq

/-- The MAC addresses between quotes, with commas between them. -/
def formatMacs (r : AuthReq) : String :=
  r.macs.zipIdx.foldl
    (fun macs p =>
      let macs := macs ++ ("\"" ++ p.1 ++ "\"")
      if p.2 < r.macs.length - 1 then macs ++ "," else macs)
    ""

/-- The body of the request. -/
def toJsonStr (r : AuthReq) : String :=
  let macs := r.formatMacs
  "\x7b\"uuid\":\"" ++ r.uuid ++ "\",\"current_version\":\"" ++ r.currentVersion
    ++ "\",\"arch\":\"" ++ r.arch ++ "\", \"macs\":[" ++ macs ++ "]\x7d"

end AuthReq

/-- The question whether the configuration has changed. -/
structure CfgMonitorReq where
  currentVersion : String
  domainsVer : String
  arch : String
  deriving DecidableEq

/-- The body of the request. -/
def CfgMonitorReq.toJsonStr (r : CfgMonitorReq) : String :=
  "\x7b\"current_version\":\"" ++ r.currentVersion ++ "\",\"domains_ver\":\"" ++ r.domainsVer
    ++ "\",\"arch\":\"" ++ r.arch ++ "\"\x7d"

/-! ## What they are to say -/

/-- The object with the fields of the request, and no others. -/
def AuthReq.json (r : AuthReq) : Json :=
  .object [("uuid", .string r.uuid), ("current_version", .string r.currentVersion),
    ("arch", .string r.arch), ("macs", .array (r.macs.map .string))]

/-- The object with the fields of the request, and no others. -/
def CfgMonitorReq.json (r : CfgMonitorReq) : Json :=
  .object [("current_version", .string r.currentVersion), ("domains_ver", .string r.domainsVer),
    ("arch", .string r.arch)]

/-- No field holds a quote, a backslash or a control character. -/
def AuthReq.Plain (r : AuthReq) : Prop :=
  Json.Plain r.uuid.toList ∧ Json.Plain r.currentVersion.toList ∧ Json.Plain r.arch.toList ∧
    ∀ mac ∈ r.macs, Json.Plain mac.toList

/-- No field holds a quote, a backslash or a control character. -/
def CfgMonitorReq.Plain (r : CfgMonitorReq) : Prop :=
  Json.Plain r.currentVersion.toList ∧ Json.Plain r.domainsVer.toList ∧
    Json.Plain r.arch.toList

/-! ## The list of the MAC addresses -/

/-- Strings between quotes, with commas between them. -/
def quotedList : List String → List Char
  | [] => []
  | [s] => '"' :: (s.toList ++ ['"'])
  | s :: t :: ss => '"' :: (s.toList ++ '"' :: ',' :: quotedList (t :: ss))

/-- A comma stands behind each but the last. -/
theorem toList_foldl_quoted (len : Nat) (macs : List String) (text : String) (i : Nat)
    (hlen : i + macs.length = len) :
    ((macs.zipIdx i).foldl
      (fun macs p =>
        let macs := macs ++ ("\"" ++ p.1 ++ "\"")
        if p.2 < len - 1 then macs ++ "," else macs)
      text).toList = text.toList ++ quotedList macs := by
  induction macs generalizing text i with
  | nil => simp [quotedList]
  | cons s ss ih =>
    rw [List.zipIdx_cons, List.foldl_cons, ih _ (i + 1) (by simp at hlen ⊢; omega)]
    cases ss with
    | nil =>
      have hlast : ¬ i < len - 1 := by simp at hlen; omega
      simp [quotedList, hlast]
    | cons t ss =>
      have hinner : i < len - 1 := by simp at hlen; omega
      simp [quotedList, hinner]

theorem AuthReq.toList_formatMacs (r : AuthReq) : r.formatMacs.toList = quotedList r.macs := by
  unfold formatMacs
  rw [toList_foldl_quoted r.macs.length r.macs "" 0 (Nat.zero_add _)]
  rfl

theorem reads_quotedList_iff {text rest : List Char} (htext : '"' ∉ text) (s : String)
    (ss : List String) :
    Json.Reads Json.elements (quotedList (s :: ss) ++ ']' :: text) ((s :: ss).map .string) rest ↔
      (∀ t ∈ s :: ss, Json.Plain t.toList) ∧ rest = text := by
  induction ss generalizing s with
  | nil =>
    have hfollow : Json.Follow (']' :: text) := .inl (by simpa using htext)
    have hlist : quotedList [s] ++ ']' :: text = '"' :: (s.toList ++ '"' :: ']' :: text) := by
      simp [quotedList]
    rw [hlist, List.map_cons, Json.reads_element_iff hfollow,
      Json.reads_more_close_iff rfl (by decide)]
    simp
  | cons t ss ih =>
    have hfollow : Json.Follow (',' :: (quotedList (t :: ss) ++ ']' :: text)) := by
      refine .inr ⟨[','], (quotedList (t :: ss) ++ ']' :: text).tail, ?_, by simp, by decide⟩
      cases ss <;> rfl
    have hlist : quotedList (s :: t :: ss) ++ ']' :: text =
        '"' :: (s.toList ++ '"' :: ',' :: (quotedList (t :: ss) ++ ']' :: text)) := by
      simp [quotedList]
    rw [hlist, List.map_cons, Json.reads_element_iff hfollow, Json.reads_more_comma_iff, ih,
      List.forall_mem_cons (a := s), and_assoc]

/-- The array of the MAC addresses as a value. -/
theorem reads_macs_iff {text rest : List Char} (htext : '"' ∉ text) (macs : List String) :
    Json.Reads Json.value ('[' :: (quotedList macs ++ ']' :: text))
        (.array (macs.map .string)) rest ↔
      (∀ mac ∈ macs, Json.Plain mac.toList) ∧ rest = text := by
  cases macs with
  | nil =>
    rw [quotedList, List.nil_append, Json.reads_array_nil_iff]
    simp
  | cons s ss =>
    rw [← reads_quotedList_iff htext]
    cases ss <;> exact Json.reads_array_quote_iff

/-- Behind a field there is a comma and another one. -/
theorem follow_fieldText (key t : String) (rest : List Char) :
    Json.Follow (',' :: Json.fieldText key t rest) :=
  .inr ⟨[','], (Json.fieldText key t rest).tail, rfl, by simp, by decide⟩

/-- The text of the field of the MAC addresses.  It has a space in front of it. -/
def macsText (macs : List String) (rest : List Char) : List Char :=
  ' ' :: '"' :: ("macs".toList ++ '"' :: ':' :: '[' :: (quotedList macs ++ ']' :: rest))

theorem follow_macsText (macs : List String) (rest : List Char) :
    Json.Follow (',' :: macsText macs rest) :=
  .inr ⟨[',', ' '], (macsText macs rest).tail.tail, rfl, by simp, by decide⟩

theorem reads_macsText_iff (macs : List String) (text : List Char) :
    Json.Reads Json.members (macsText macs ['\x7d'])
        [("macs", .array (macs.map .string))] text ↔
      (∀ mac ∈ macs, Json.Plain mac.toList) ∧ text = [] := by
  have hexpect : Json.expect '"' (macsText macs ['\x7d']) =
      some ("macs".toList ++ '"' :: ':' :: '[' :: (quotedList macs ++ [']', '\x7d'])) := rfl
  have hvalue : ∀ rest, Json.Reads Json.value ('[' :: (quotedList macs ++ [']', '\x7d']))
      (.array (macs.map .string)) rest ↔ (∀ mac ∈ macs, Json.Plain mac.toList) ∧ rest = ['\x7d'] :=
    fun rest => reads_macs_iff (by decide) macs
  have hend : ∀ rest, Json.Reads (fun n => Json.more '\x7d' (Json.members n)) ['\x7d'] [] rest ↔
      [] = [] ∧ rest = [] := fun rest => Json.reads_more_close_iff rfl (by decide)
  rw [Json.reads_members_iff hexpect (by decide)]
  constructor
  · rintro ⟨_, hmacs, hrest⟩
    obtain ⟨hplain, rfl⟩ := (hvalue _).mp hmacs
    exact ⟨hplain, ((hend _).mp hrest).2⟩
  · rintro ⟨hplain, rfl⟩
    exact ⟨_, (hvalue _).mpr ⟨hplain, rfl⟩, (hend _).mpr ⟨rfl, rfl⟩⟩

/-- The first request says what it is to say just when its fields are plain. -/
theorem AuthReq.parse_toJsonStr_iff (r : AuthReq) :
    Json.parse r.toJsonStr = some r.json ↔ r.Plain := by
  have htext : r.toJsonStr.toList =
      '\x7b' :: Json.fieldText "uuid" r.uuid (',' ::
        Json.fieldText "current_version" r.currentVersion (',' ::
          Json.fieldText "arch" r.arch (',' :: macsText r.macs ['\x7d']))) := by
    unfold toJsonStr
    simp only [Json.fieldText, macsText, String.toList_append, String.reduceToList,
      toList_formatMacs, List.cons_append, List.nil_append, List.append_assoc]
  refine Json.parse_eq_some_iff_of_reads fun rest => ?_
  rw [htext, json, Json.reads_object_iff,
    Json.reads_field_comma_iff (by decide) (follow_fieldText _ _ _),
    Json.reads_field_comma_iff (by decide) (follow_fieldText _ _ _),
    Json.reads_field_comma_iff (by decide) (follow_macsText _ _), reads_macsText_iff]
  simp only [Plain, and_assoc]

/-- The second request says what it is to say just when its fields are plain. -/
theorem CfgMonitorReq.parse_toJsonStr_iff (r : CfgMonitorReq) :
    Json.parse r.toJsonStr = some r.json ↔ r.Plain := by
  have htext : r.toJsonStr.toList =
      '\x7b' :: Json.fieldText "current_version" r.currentVersion (',' ::
        Json.fieldText "domains_ver" r.domainsVer (',' ::
          Json.fieldText "arch" r.arch ['\x7d'])) := by
    unfold toJsonStr
    simp only [Json.fieldText, String.toList_append, String.reduceToList, List.cons_append,
      List.nil_append, List.append_assoc]
  refine Json.parse_eq_some_iff_of_reads fun rest => ?_
  rw [htext, json, Json.reads_object_iff,
    Json.reads_field_comma_iff (by decide) (follow_fieldText _ _ _),
    Json.reads_field_comma_iff (by decide) (follow_fieldText _ _ _),
    Json.reads_field_close_iff (by decide) (.inl (by decide))]
  simp only [Plain, and_assoc]

/-- Either request says what it is to say just when nothing in its fields has to be escaped. -/
theorem toJsonStr_faithful_iff (a : AuthReq) (m : CfgMonitorReq) :
    (Json.parse a.toJsonStr = some a.json ↔ a.Plain) ∧
      (Json.parse m.toJsonStr = some m.json ↔ m.Plain) :=
  ⟨a.parse_toJsonStr_iff, m.parse_toJsonStr_iff⟩

/-- A version that closes its own quotes adds a field, of a name that is there already. -/
theorem domainsVer_adds_field :
    let r : CfgMonitorReq := ⟨"0.2.0", "1\",\"arch\":\"x", "arm"⟩
    Json.parse r.toJsonStr =
        some (.object [("current_version", .string "0.2.0"), ("domains_ver", .string "1"),
          ("arch", .string "x"), ("arch", .string "arm")]) ∧
      Json.parse r.toJsonStr ≠ some r.json := by
  intro r
  have htext : r.toJsonStr.toList =
      '\x7b' :: Json.fieldText "current_version" "0.2.0" (',' ::
        Json.fieldText "domains_ver" "1" (',' :: Json.fieldText "arch" "x" (',' ::
          Json.fieldText "arch" "arm" ['\x7d']))) := by
    unfold CfgMonitorReq.toJsonStr
    simp only [Json.fieldText, String.toList_append, String.reduceToList, List.cons_append,
      List.nil_append, r]
  constructor
  · refine (Json.parse_eq_some_iff_of_reads (P := True) fun rest => ?_).mpr trivial
    have hcurrent : Json.Plain "0.2.0".toList := by decide
    have hone : Json.Plain "1".toList := by decide
    have hx : Json.Plain "x".toList := by decide
    have harm : Json.Plain "arm".toList := by decide
    rw [htext, Json.reads_object_iff,
      Json.reads_field_comma_iff (by decide) (follow_fieldText _ _ _),
      Json.reads_field_comma_iff (by decide) (follow_fieldText _ _ _),
      Json.reads_field_comma_iff (by decide) (follow_fieldText _ _ _),
      Json.reads_field_close_iff (by decide) (.inl (by decide))]
    simp only [hcurrent, hone, hx, harm, true_and]
  · rw [ne_eq, r.parse_toJsonStr_iff]
    rintro ⟨_, hver, _⟩
    revert hver
    decide

end LproxyCv.Config
