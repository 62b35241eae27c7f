import TopicBus.Document
import TopicBus.Proofs.Json.Parsed

/-!
Which documents there are. Every operation keeps a document well-formed (`Made.wellFormed`): names
ascend in it and in the documents and arrays inside, integers stay in the 64-bit ranges, and doubles
that are not finite become null.
-/

namespace TopicBus.Document

open Json

def WellFormed (d : Document) : Prop := d.toJson.WellFormed

/-- How deep objects and arrays stand in each other, the document itself being one of them. -/
def nesting (d : Document) : Nat := d.toJson.nesting

variable {d e : Document} {name : String} {v : Json}

theorem wellFormed_iff :
    d.WellFormed ↔ Fields.Ordered d.fields ∧ ∀ f ∈ d.fields, f.2.WellFormed := by
  constructor
  · rintro (_ | _ | _ | _ | _ | _ | ⟨hnames, h⟩)
    exact ⟨hnames, h⟩
  · rintro ⟨hnames, h⟩
    exact .object hnames h

/-! ## Operations -/

theorem wellFormed_empty : empty.WellFormed := .object List.Pairwise.nil (List.forall_mem_nil _)

theorem WellFormed.set (hd : d.WellFormed) (hv : v.WellFormed) (name : String) :
    (d.set name v).WellFormed := by
  obtain ⟨hnames, h⟩ := wellFormed_iff.mp hd
  refine wellFormed_iff.mpr ⟨hnames.insert name v, ?_⟩
  intro f hf
  rcases Fields.mem_insert hf with rfl | hf
  · exact hv
  · exact h f hf

theorem WellFormed.remove (hd : d.WellFormed) (name : String) : (d.remove name).WellFormed := by
  obtain ⟨hnames, h⟩ := wellFormed_iff.mp hd
  exact wellFormed_iff.mpr ⟨hnames.erase name, fun f hf => h f (List.mem_of_mem_filter hf)⟩

theorem WellFormed.find? (hd : d.WellFormed) (h : d.find? name = some v) : v.WellFormed :=
  (wellFormed_iff.mp hd).2 _ (Fields.mem_of_find? h)

theorem WellFormed.append (hd : d.WellFormed) (hv : v.WellFormed)
    (h : d.append name v = .ok e) : e.WellFormed := by
  unfold Document.append at h
  split at h
  · rw [← Except.ok.inj h]
    refine hd.set (.array ?_) name
    intro w hw
    rw [List.mem_singleton.mp hw]
    exact hv
  · next items hfind =>
    rw [← Except.ok.inj h]
    obtain (_ | _ | _ | _ | _ | hitems) := hd.find? hfind
    refine hd.set (.array ?_) name
    intro w hw
    rcases List.mem_append.mp hw with hw | hw
    · exact hitems w hw
    · rw [List.mem_singleton.mp hw]
      exact hv
  · nomatch h

theorem isWord_int32 (n : Int32) : IsWord n.toInt := by
  have hlow := n.le_toInt
  have hhigh := n.toInt_lt
  unfold IsWord
  omega

theorem wellFormed_ofDouble (x : Double) : (Json.ofDouble x).WellFormed := by
  unfold Json.ofDouble
  split_ifs with hx
  · exact .double hx
  · exact .null

theorem WellFormed.getDocument? (hd : d.WellFormed) (h : d.getDocument? name = some e) :
    e.WellFormed := by
  unfold Document.getDocument? at h
  split at h
  · next fields hfind =>
    rw [← Option.some.inj h]
    exact hd.find? hfind
  · nomatch h

theorem WellFormed.documentItem? {index : Nat} (hd : d.WellFormed)
    (h : d.documentItem? name index = some e) : e.WellFormed := by
  unfold Document.documentItem? at h
  split at h
  · next fields hitem =>
    rw [← Option.some.inj h]
    obtain ⟨items, harray, hindex⟩ := Option.bind_eq_some_iff.mp hitem
    unfold Document.getArray? at harray
    split at harray
    · next vs hfind =>
      obtain (_ | _ | _ | _ | _ | hitems) := hd.find? hfind
      rw [← Option.some.inj harray] at hindex
      exact hitems _ (List.mem_of_getElem? hindex)
    · nomatch harray
  · nomatch h

theorem eq_object_of_decode {bytes : List UInt8} (h : decode bytes = .ok d) :
    Json.decode bytes = some d.toJson := by
  unfold Document.decode at h
  split at h
  · nomatch h
  · next fields hobject =>
    rw [hobject, ← Except.ok.inj h]
    rfl
  · nomatch h

/-- A decoded document is well-formed and nests no deeper than the parser goes. -/
theorem fits_of_decode {bytes : List UInt8} (h : decode bytes = .ok d) :
    d.WellFormed ∧ d.nesting ≤ maxNesting := by
  have hvalue := eq_object_of_decode h
  unfold Json.decode at hvalue
  split at hvalue
  · exact fits_of_parse hvalue
  · nomatch hvalue

/-! ## All documents -/

/-- The documents that the operations make, from nothing, from bytes or from a typed value. -/
inductive Made : Document → Prop where
  | empty : Made .empty
  | decoded {d : Document} {bytes : List UInt8} (h : decode bytes = .ok d) : Made d
  | serialized {d : Document} {v : Json} (hv : v.WellFormed) (h : ofJson v = .ok d) : Made d
  | string {d : Document} (hd : Made d) (name value : String) : Made (d.setString name value)
  | int32 {d : Document} (hd : Made d) (name : String) (n : Int32) : Made (d.setInt32 name n)
  | double {d : Document} (hd : Made d) (name : String) (x : Double) : Made (d.setDouble name x)
  | document {d e : Document} (hd : Made d) (he : Made e) (name : String) :
    Made (d.setDocument name e)
  | sendTopic {d : Document} (hd : Made d) (topic : String) : Made (d.setSendTopic topic)
  | appendString {d e : Document} (hd : Made d) {name value : String}
    (h : d.appendString name value = .ok e) : Made e
  | appendDocument {d e f : Document} (hd : Made d) (he : Made e) {name : String}
    (h : d.appendDocument name e = .ok f) : Made f
  | remove {d : Document} (hd : Made d) (name : String) : Made (d.remove name)
  | field {d e : Document} (hd : Made d) {name : String} (h : d.getDocument? name = some e) : Made e
  | item {d e : Document} (hd : Made d) {name : String} {index : Nat}
    (h : d.documentItem? name index = some e) : Made e

theorem Made.wellFormed (h : Made d) : d.WellFormed := by
  induction h with
  | empty => exact wellFormed_empty
  | decoded h => exact (fits_of_decode h).1
  | serialized hv h =>
    unfold Document.ofJson at h
    split at h
    · rw [← Except.ok.inj h]
      exact hv
    · nomatch h
  | string hd name value ih => exact ih.set (.text value) name
  | int32 hd name n ih => exact ih.set (.integer (isWord_int32 n)) name
  | double hd name x ih => exact ih.set (wellFormed_ofDouble x) name
  | document hd he name ih ihe => exact ih.set ihe name
  | sendTopic hd topic ih => exact ih.set (.text topic) sendTopicField
  | appendString hd h ih => exact ih.append (.text _) h
  | appendDocument hd he h ih ihe => exact ih.append ihe h
  | remove hd name ih => exact ih.remove name
  | field hd h ih => exact ih.getDocument? h
  | item hd h ih => exact ih.documentItem? h

end TopicBus.Document
