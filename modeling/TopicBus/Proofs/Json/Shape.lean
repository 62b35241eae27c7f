import Mathlib.Data.String.Basic
import TopicBus.Proofs.Json.Number

/-!
The shape of values. `nesting` counts how deep arrays and objects stand in each other; `WellFormed`
says which values a text can spell: integers of the 64-bit ranges, finite doubles, and objects whose
names ascend. Both are kept by the operations on fields.
-/

namespace TopicBus

namespace Fields

variable {α : Type} {name : String} {value : α} {fields : List (String × α)}

/-- The names ascend, so that each stands once. -/
def Ordered (fields : List (String × α)) : Prop := fields.Pairwise fun f g => f.1 < g.1

theorem Ordered.lt_of_append {f : String × α} {later : List (String × α)}
    (h : Ordered (fields ++ f :: later)) : ∀ g ∈ fields, g.1 < f.1 := by
  intro g hg
  exact (List.pairwise_append.mp h).2.2 g hg f List.mem_cons_self

theorem insert_of_lt (value : α) (h : ∀ f ∈ fields, f.1 < name) :
    insert name value fields = fields ++ [(name, value)] := by
  induction fields with
  | nil => rfl
  | cons f fields ih =>
    obtain ⟨n, v⟩ := f
    have hn : n < name := h (n, v) List.mem_cons_self
    rw [insert, if_neg (String.lt_asymm hn), if_neg hn.ne]
    rw [ih fun f hf => h f (List.mem_cons_of_mem _ hf)]
    rfl

theorem mem_insert {f : String × α} (h : f ∈ insert name value fields) :
    f = (name, value) ∨ f ∈ fields := by
  induction fields with
  | nil => exact .inl (List.mem_singleton.mp h)
  | cons g fields ih =>
    obtain ⟨n, v⟩ := g
    rw [insert] at h
    split_ifs at h
    · exact List.mem_cons.mp h
    · exact (List.mem_cons.mp h).imp_right (List.mem_cons_of_mem _)
    · rcases List.mem_cons.mp h with heq | hmem
      · exact .inr (heq ▸ List.mem_cons_self)
      · exact (ih hmem).imp_right (List.mem_cons_of_mem _)

theorem Ordered.insert (h : Ordered fields) (name : String) (value : α) :
    Ordered (insert name value fields) := by
  induction fields with
  | nil => exact List.pairwise_singleton _ _
  | cons f fields ih =>
    obtain ⟨n, v⟩ := f
    obtain ⟨hfirst, hrest⟩ := List.pairwise_cons.mp h
    rw [Fields.insert]
    split_ifs with hlt heq
    · refine List.pairwise_cons.mpr ⟨?_, h⟩
      intro g hg
      rcases List.mem_cons.mp hg with rfl | hg
      · exact hlt
      · exact String.lt_trans hlt (hfirst g hg)
    · rw [heq] at hfirst
      exact List.pairwise_cons.mpr ⟨hfirst, hrest⟩
    · have hgt : n < name := lt_of_le_of_ne (not_lt.mp hlt) heq
      refine List.pairwise_cons.mpr ⟨?_, ih hrest⟩
      intro g hg
      rcases mem_insert hg with rfl | hg
      · exact hgt
      · exact hfirst g hg

theorem Ordered.erase (h : Ordered fields) (name : String) : Ordered (erase name fields) :=
  h.filter _

theorem mem_of_find? (h : find? name fields = some value) : (name, value) ∈ fields := by
  induction fields with
  | nil => nomatch h
  | cons f fields ih =>
    obtain ⟨n, v⟩ := f
    rw [find?] at h
    split_ifs at h with heq
    · rw [← heq, Option.some.inj h]
      exact List.mem_cons_self
    · exact List.mem_cons_of_mem _ (ih h)

end Fields

namespace Json

mutual

/-- How many arrays and objects stand in each other, the value itself included. -/
def nesting : Json → Nat
  | .array vs => nestingItems vs + 1
  | .object fs => nestingFields fs + 1
  | _ => 0

def nestingItems : List Json → Nat
  | [] => 0
  | v :: vs => max (nesting v) (nestingItems vs)

def nestingFields : List (String × Json) → Nat
  | [] => 0
  | (_, v) :: fs => max (nesting v) (nestingFields fs)

end

/-- The values that a text can spell. -/
inductive WellFormed : Json → Prop where
  | null : WellFormed .null
  | bool (b : Bool) : WellFormed (.bool b)
  | integer {n : Int} (h : IsWord n) : WellFormed (.integer n)
  | double {x : Double} (h : x.isFinite = true) : WellFormed (.double x)
  | text (s : String) : WellFormed (.text s)
  | array {vs : List Json} (h : ∀ v ∈ vs, WellFormed v) : WellFormed (.array vs)
  | object {fs : List (String × Json)} (hnames : Fields.Ordered fs)
      (h : ∀ f ∈ fs, WellFormed f.2) : WellFormed (.object fs)

theorem nestingItems_le_iff {vs : List Json} {depth : Nat} :
    nestingItems vs ≤ depth ↔ ∀ v ∈ vs, nesting v ≤ depth := by
  induction vs with
  | nil => simp [nestingItems]
  | cons v vs ih => rw [nestingItems, Nat.max_le, ih, List.forall_mem_cons]

theorem nestingFields_le_iff {fs : List (String × Json)} {depth : Nat} :
    nestingFields fs ≤ depth ↔ ∀ f ∈ fs, nesting f.2 ≤ depth := by
  induction fs with
  | nil => simp [nestingFields]
  | cons f fs ih => rw [nestingFields, Nat.max_le, ih, List.forall_mem_cons]

end Json

end TopicBus
