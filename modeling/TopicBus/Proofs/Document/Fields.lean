import Mathlib.Data.List.Perm.Basic
import TopicBus.Document
import TopicBus.Proofs.Json.Shape

/-!
Looking into documents. A change of one name leaves the others alone (`Fields.find?_insert`,
`Fields.find?_erase`), and what is found under each name determines fields in order
(`Fields.Ordered.eq_of_find?`). A typed reader answers exactly for the values of its type.
-/

namespace TopicBus

namespace Fields

variable {α : Type} {name : String} {value : α} {fields others : List (String × α)}

theorem find?_insert (name : String) (value : α) (fields : List (String × α)) (n : String) :
    find? n (insert name value fields) = if name = n then some value else find? n fields := by
  induction fields with
  | nil => rfl
  | cons f fields ih =>
    obtain ⟨m, v⟩ := f
    by_cases hlt : name < m
    · rw [insert, if_pos hlt, find?]
    · by_cases hsame : m = name
      · subst hsame
        rw [insert, if_neg hlt, if_pos rfl, find?, find?]
        split_ifs
        · rfl
        · rfl
      · rw [insert, if_neg hlt, if_neg hsame, find?, find?, ih]
        split_ifs with hfound hname
        · exact absurd (hfound.trans hname.symm) hsame
        · rfl
        · rfl
        · rfl

theorem find?_erase (name : String) (fields : List (String × α)) (n : String) :
    find? n (erase name fields) = if name = n then none else find? n fields := by
  induction fields with
  | nil => simp [erase, find?]
  | cons f fields ih =>
    obtain ⟨m, v⟩ := f
    by_cases hm : m = name
    · subst hm
      have hskip : erase m ((m, v) :: fields) = erase m fields := by simp [erase]
      rw [hskip, ih]
      split_ifs with hfound
      · rfl
      · rw [find?, if_neg hfound]
    · have hkeep : erase name ((m, v) :: fields) = (m, v) :: erase name fields := by
        simp [erase, hm]
      rw [hkeep, find?, find?, ih]
      split_ifs with hfound hname
      · exact absurd (hfound.trans hname.symm) hm
      · rfl
      · rfl
      · rfl

theorem isSome_find?_iff : (find? name fields).isSome = true ↔ name ∈ fields.map Prod.fst := by
  induction fields with
  | nil => simp [find?]
  | cons f fields ih =>
    obtain ⟨m, v⟩ := f
    rw [find?, List.map_cons, List.mem_cons]
    split_ifs with hfound
    · simp [hfound]
    · rw [ih, or_iff_right (Ne.symm hfound)]

/-- In order, a name stands once, so it is found with its value. -/
theorem Ordered.find?_eq_some_iff (h : Ordered fields) :
    find? name fields = some value ↔ (name, value) ∈ fields := by
  refine ⟨mem_of_find?, fun hmem => ?_⟩
  induction fields with
  | nil => nomatch hmem
  | cons f fields ih =>
    obtain ⟨m, v⟩ := f
    obtain ⟨hfirst, hrest⟩ := List.pairwise_cons.mp h
    rcases List.mem_cons.mp hmem with heq | hmem
    · obtain ⟨rfl, rfl⟩ := Prod.mk.inj heq
      exact if_pos rfl
    · rw [find?, if_neg (hfirst _ hmem).ne, ih hrest hmem]

/-- What is found under each name determines the fields. -/
theorem Ordered.eq_of_find? (h : Ordered fields) (hothers : Ordered others)
    (hsame : ∀ n, find? n fields = find? n others) : fields = others := by
  have hmem : ∀ f, f ∈ fields ↔ f ∈ others := by
    rintro ⟨n, v⟩
    rw [← h.find?_eq_some_iff, ← hothers.find?_eq_some_iff, hsame]
  have hnodup : ∀ {fs : List (String × α)}, Ordered fs → fs.Nodup := fun hfs =>
    hfs.imp fun hlt heq => (ne_of_lt hlt) (congrArg Prod.fst heq)
  have hperm := (List.perm_ext_iff_of_nodup (hnodup h) (hnodup hothers)).mpr hmem
  exact hperm.eq_of_pairwise (fun f g _ _ hlt hgt => absurd hgt (lt_asymm hlt)) h hothers

end Fields

namespace Document

variable {d : Document} {name : String} {index : Nat}

theorem getString?_eq_some_iff {s : String} :
    d.getString? name = some s ↔ d.find? name = some (.text s) := by
  unfold getString?
  constructor
  · intro h
    split at h
    · next t hfield =>
      obtain rfl := Option.some.inj h
      exact hfield
    · nomatch h
  · intro h
    rw [h]

/-- A number is read only if it is an integer of 32 bits. -/
theorem getInt32?_eq_some_iff {i : Int32} :
    d.getInt32? name = some i ↔ d.find? name = some (.integer i.toInt) := by
  have hlow : -0x80000000 ≤ i.toInt := i.le_toInt
  have hhigh : i.toInt < 0x80000000 := i.toInt_lt
  unfold getInt32? int32?
  constructor
  · intro h
    split at h
    · next n hfield =>
      split_ifs at h with hn
      obtain rfl := Option.some.inj h
      rw [hfield, Int32.toInt_ofInt_of_le hn.1 (by omega)]
    · nomatch h
  · intro h
    rw [h]
    simp only [hlow, hhigh, and_self, ↓reduceIte, Int32.ofInt_toInt]

/-- Integers are read as doubles, too. -/
theorem getDouble?_eq_some_iff {x : Double} : d.getDouble? name = some x ↔
    d.find? name = some (.double x) ∨ ∃ n, d.find? name = some (.integer n) ∧ x = .ofInt n := by
  unfold getDouble?
  split
  · next y hfield => simp [hfield]
  · next n hfield => simp [hfield, eq_comm]
  · next hdouble hinteger =>
    refine iff_of_false nofun ?_
    rintro (h | ⟨n, h, -⟩)
    · exact hdouble x h
    · exact hinteger n h

theorem getDocument?_eq_some_iff {e : Document} :
    d.getDocument? name = some e ↔ d.find? name = some (.object e.fields) := by
  unfold getDocument?
  constructor
  · intro h
    split at h
    · next fields hfield =>
      obtain rfl := Option.some.inj h
      exact hfield
    · nomatch h
  · intro h
    rw [h]

theorem getArray?_eq_some_iff {items : List Json} :
    d.getArray? name = some items ↔ d.find? name = some (.array items) := by
  unfold getArray?
  constructor
  · intro h
    split at h
    · next vs hfield =>
      obtain rfl := Option.some.inj h
      exact hfield
    · nomatch h
  · intro h
    rw [h]

theorem arrayLength?_eq_some_iff {size : Nat} : d.arrayLength? name = some size ↔
    ∃ items, d.find? name = some (.array items) ∧ items.length = size := by
  simp only [arrayLength?, Option.map_eq_some_iff, getArray?_eq_some_iff]

theorem item?_eq_some_iff {v : Json} : d.item? name index = some v ↔
    ∃ items, d.find? name = some (.array items) ∧ items[index]? = some v := by
  simp only [item?, Option.bind_eq_some_iff, getArray?_eq_some_iff]

theorem stringItem?_eq_some_iff {s : String} : d.stringItem? name index = some s ↔
    ∃ items, d.find? name = some (.array items) ∧ items[index]? = some (.text s) := by
  rw [← item?_eq_some_iff]
  unfold stringItem?
  constructor
  · intro h
    split at h
    · next t hitem =>
      obtain rfl := Option.some.inj h
      exact hitem
    · nomatch h
  · intro h
    rw [h]

theorem documentItem?_eq_some_iff {e : Document} : d.documentItem? name index = some e ↔
    ∃ items, d.find? name = some (.array items) ∧ items[index]? = some (.object e.fields) := by
  rw [← item?_eq_some_iff]
  unfold documentItem?
  constructor
  · intro h
    split at h
    · next fields hitem =>
      obtain rfl := Option.some.inj h
      exact hitem
    · nomatch h
  · intro h
    rw [h]

end Document

end TopicBus
