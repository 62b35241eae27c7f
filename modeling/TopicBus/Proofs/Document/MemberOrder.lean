import Mathlib.Data.List.Induction
import Mathlib.Data.List.Nodup
import TopicBus.Proofs.Document.Fields
import TopicBus.Proofs.Document.RoundTrip
import TopicBus.Proofs.Json.Spaced

/-!
The order of members. However an object is laid out, decoding it is setting its members from left to
right, so the last value of a name stays. Members of different names may therefore stand in any
order (`decode_in_any_order`).
-/

namespace TopicBus

namespace Fields

variable {α : Type} {name : String} {value : α} {entries others : List (String × α)}

theorem ofList_concat (entries : List (String × α)) (e : String × α) :
    ofList (entries ++ [e]) = insert e.1 e.2 (ofList entries) := by
  rw [ofList, List.foldl_append]
  rfl

theorem ordered_ofList (entries : List (String × α)) : Ordered (ofList entries) := by
  induction entries using List.reverseRecOn with
  | nil => exact List.Pairwise.nil
  | append_singleton entries e ih =>
    rw [ofList_concat]
    exact ih.insert e.1 e.2

/-- The last entry of a name stays. -/
theorem find?_ofList (entries : List (String × α)) (name : String) :
    find? name (ofList entries) = (entries.findRev? fun e => e.1 = name).map Prod.snd := by
  induction entries using List.reverseRecOn with
  | nil => rfl
  | append_singleton entries e ih =>
    rw [ofList_concat, find?_insert, ih, List.findRev?_eq_find?_reverse,
      List.findRev?_eq_find?_reverse, List.reverse_append, List.reverse_singleton,
      List.singleton_append, List.find?_cons]
    by_cases hname : e.1 = name
    · simp only [hname, ↓reduceIte, decide_true, Option.map_some]
    · simp only [hname, ↓reduceIte, decide_false]

theorem mem_of_findRev? {e : String × α}
    (h : entries.findRev? (fun e => e.1 = name) = some e) : e ∈ entries ∧ e.1 = name := by
  rw [List.findRev?_eq_find?_reverse] at h
  have hname := List.find?_some h
  exact ⟨List.mem_reverse.mp (List.mem_of_find?_eq_some h), of_decide_eq_true hname⟩

theorem find?_ofList_eq_some_iff (hnames : (entries.map Prod.fst).Nodup) :
    find? name (ofList entries) = some value ↔ (name, value) ∈ entries := by
  have hinj := (List.nodup_map_iff_inj_on hnames.of_map).mp hnames
  rw [find?_ofList, Option.map_eq_some_iff]
  constructor
  · rintro ⟨e, hlast, rfl⟩
    obtain ⟨hmem, rfl⟩ := mem_of_findRev? hlast
    exact hmem
  · intro hmem
    have hsome : (entries.findRev? fun e => e.1 = name).isSome = true := by
      rw [List.findRev?_eq_find?_reverse]
      exact List.find?_isSome.mpr ⟨_, List.mem_reverse.mpr hmem, decide_eq_true rfl⟩
    obtain ⟨e, hlast⟩ := Option.isSome_iff_exists.mp hsome
    obtain ⟨he, hname⟩ := mem_of_findRev? hlast
    exact ⟨e, hlast, congrArg Prod.snd (hinj e he _ hmem hname)⟩

/-- Entries of different names may stand in any order. -/
theorem ofList_eq_of_perm (hnames : (entries.map Prod.fst).Nodup) (h : entries.Perm others) :
    ofList entries = ofList others := by
  refine (ordered_ofList entries).eq_of_find? (ordered_ofList others) fun n => ?_
  ext v
  rw [find?_ofList_eq_some_iff hnames, find?_ofList_eq_some_iff ((h.map _).nodup_iff.mp hnames),
    h.mem_iff]

end Fields

namespace Json

theorem equalItems_self {vs : List Json} (h : ∀ v ∈ vs, v.equal v = true) :
    equalItems vs vs = true := by
  induction vs with
  | nil => rfl
  | cons v vs ih =>
    obtain ⟨hv, hvs⟩ := List.forall_mem_cons.mp h
    rw [equalItems, hv, ih hvs]
    rfl

theorem equalFields_self {fs : List (String × Json)} (h : ∀ f ∈ fs, f.2.equal f.2 = true) :
    equalFields fs fs = true := by
  induction fs with
  | nil => rfl
  | cons f fs ih =>
    obtain ⟨hf, hfs⟩ := List.forall_mem_cons.mp h
    rw [equalFields, hf, ih hfs, beq_self_eq_true]
    rfl

/-- A well-formed value has no double that differs from itself. -/
theorem WellFormed.equal_self {v : Json} (hv : v.WellFormed) : v.equal v = true := by
  induction hv with
  | null => rfl
  | bool b => exact beq_self_eq_true b
  | integer h => exact beq_self_eq_true _
  | @double x h =>
    have hrank : x.rank ≤ Double.infinityRank := (of_decide_eq_true h).le
    rw [equal, Double.equal, decide_eq_true hrank, beq_self_eq_true]
    rfl
  | text s => exact beq_self_eq_true s
  | array h ih => exact equalItems_self ih
  | object hnames h ih => exact equalFields_self ih

/-- The bytes of an object as it is laid out. -/
def ObjectText.bytes (t : ObjectText) : List UInt8 := Utf8.encode (String.ofList t.chars)

end Json

namespace Document

open Json

/-- The document with these fields set from left to right. -/
def setAll (entries : List (String × Json)) : Document :=
  entries.foldl (fun d e => d.set e.1 e.2) empty

theorem setAll_eq (entries : List (String × Json)) : setAll entries = ⟨Fields.ofList entries⟩ := by
  induction entries using List.reverseRecOn with
  | nil => rfl
  | append_singleton entries e ih =>
    rw [Fields.ofList_concat, setAll, List.foldl_append]
    exact congrArg (fun d : Document => d.set e.1 e.2) ih

theorem decode_objectText {t : ObjectText} (h : t.Proper) :
    decode t.bytes = .ok (setAll t.entries) := by
  rw [decode, ObjectText.bytes, decode_text, ObjectText.parse_chars h, setAll_eq]

/-- Members are set from left to right, and those of different names may stand in any order. -/
theorem decode_in_any_order :
    (∀ t : ObjectText, t.Proper →
      decode t.bytes = .ok (setAll t.entries) ∧
      ∀ name, (setAll t.entries).find? name =
        (t.entries.findRev? fun e => e.1 = name).map Prod.snd) ∧
    (∀ s t : ObjectText, s.Proper → t.Proper → (s.entries.map Prod.fst).Nodup →
      s.entries.Perm t.entries →
        ∃ d e, decode s.bytes = .ok d ∧ decode t.bytes = .ok e ∧
          d = e ∧ d.equal e = true ∧ d.encode = e.encode) := by
  refine ⟨fun t ht => ⟨decode_objectText ht, fun name => ?_⟩, fun s t hs ht hnames hperm => ?_⟩
  · rw [setAll_eq]
    exact Fields.find?_ofList t.entries name
  · have hsame : setAll s.entries = setAll t.entries := by
      rw [setAll_eq, setAll_eq, Fields.ofList_eq_of_perm hnames hperm]
    have hdecode := decode_objectText hs
    obtain ⟨hd, -⟩ := fits_of_decode hdecode
    refine ⟨_, _, hdecode, decode_objectText ht, hsame, ?_, congrArg encode hsame⟩
    rw [← hsame]
    exact hd.equal_self

/-- Two members on lines of their own, and the same members in the other order without blanks. -/
def lines : ObjectText :=
  ⟨[], [], [⟨"b", .integer 1, ['\n', '\t'], [], [' '], []⟩,
    ⟨"a\n", .array [.text "b"], ['\r', '\n', '\t'], [' '], [' '], ['\n']⟩], ['\n']⟩

def line : ObjectText :=
  ⟨[], [], [⟨"a\n", .array [.text "b"], [], [], [], []⟩, ⟨"b", .integer 1, [], [], [], []⟩], []⟩

theorem decode_in_any_order_lines :
    decode lines.bytes = .ok ⟨[("a\n", .array [.text "b"]), ("b", .integer 1)]⟩ ∧
      decode line.bytes = decode lines.bytes := by
  have hinteger : (Json.integer 1).WellFormed := .integer (by decide)
  have harray : (Json.array [.text "b"]).WellFormed :=
    .array (List.forall_mem_singleton.mpr (.text "b"))
  have hlines : lines.Proper := by
    refine ⟨by decide, by decide, List.forall_mem_cons.mpr ⟨?_, List.forall_mem_singleton.mpr ?_⟩,
      by decide⟩
    · exact ⟨hinteger, Nat.zero_le _, by decide, by decide, by decide, by decide⟩
    · exact ⟨harray, by decide, by decide, by decide, by decide, by decide⟩
  have hline : line.Proper := by
    refine ⟨by decide, by decide, List.forall_mem_cons.mpr ⟨?_, List.forall_mem_singleton.mpr ?_⟩,
      by decide⟩
    · exact ⟨harray, by decide, by decide, by decide, by decide, by decide⟩
    · exact ⟨hinteger, Nat.zero_le _, by decide, by decide, by decide, by decide⟩
  obtain ⟨hdecode, horder⟩ := decode_in_any_order
  obtain ⟨d, e, hd, he, rfl, -⟩ := horder lines line hlines hline (by decide) (.swap _ _ _)
  refine ⟨(hdecode lines hlines).1, ?_⟩
  rw [hd, he]

end Document

end TopicBus
