import TopicBus.Proofs.Json.Shape

/-!
What the parser gives. Every value that is read is well-formed and nests no deeper than the parser
was allowed to go (`fits_of_parse`): repeated and unordered names of a text are put in order by the
insertion.
-/

namespace TopicBus.Json

/-- A well-formed value that opens at most `depth` arrays and objects in each other. -/
def Fits (depth : Nat) (v : Json) : Prop := WellFormed v ∧ nesting v ≤ depth

variable {fuel depth : Nat} {cs rest : List Char} {v : Json}

theorem fits_array {vs : List Json} (h : ∀ w ∈ vs, Fits depth w) :
    Fits (depth + 1) (.array vs) := by
  refine ⟨.array fun w hw => (h w hw).1, ?_⟩
  rw [nesting, Nat.add_le_add_iff_right, nestingItems_le_iff]
  exact fun w hw => (h w hw).2

theorem fits_object {fs : List (String × Json)} (hnames : Fields.Ordered fs)
    (h : ∀ f ∈ fs, Fits depth f.2) : Fits (depth + 1) (.object fs) := by
  refine ⟨.object hnames fun f hf => (h f hf).1, ?_⟩
  rw [nesting, Nat.add_le_add_iff_right, nestingFields_le_iff]
  exact fun f hf => (h f hf).2

theorem fits_number (h : number cs = some (v, rest)) : Fits depth v := by
  rcases isWord_or_isFinite_of_number h with ⟨n, rfl, hn⟩ | ⟨x, rfl, hx⟩
  · exact ⟨.integer hn, Nat.zero_le depth⟩
  · exact ⟨.double hx, Nat.zero_le depth⟩

/-! ## Steps of the parser -/

/-- An array ends behind its next item or goes on with it. -/
theorem items_cases {seen : List Json} (h : items (fuel + 1) depth seen cs = some (v, rest)) :
    ∃ w after, value fuel depth cs = some (w, after) ∧
      (v = .array (w :: seen).reverse ∨
        ∃ more, items fuel depth (w :: seen) more = some (v, rest)) := by
  rw [items] at h
  cases hvalue : value fuel depth cs with
  | none =>
    rw [hvalue] at h
    nomatch h
  | some p =>
    obtain ⟨w, after⟩ := p
    refine ⟨w, after, rfl, ?_⟩
    rw [hvalue] at h
    dsimp only at h
    split at h
    · exact .inr ⟨_, h⟩
    · exact .inl (congrArg Prod.fst (Option.some.inj h)).symm
    · nomatch h

/-- An object ends behind its next member or goes on with it. -/
theorem members_cases {seen : List (String × Json)}
    (h : members (fuel + 1) depth seen cs = some (v, rest)) :
    ∃ name w before after, value fuel depth before = some (w, after) ∧
      (v = .object (Fields.insert name w seen) ∨
        ∃ more, members fuel depth (Fields.insert name w seen) more = some (v, rest)) := by
  unfold members at h
  split at h
  · split at h
    · nomatch h
    · next name after hname =>
      split at h
      · next before hcolon =>
        cases hvalue : value fuel depth (skipBlanks before) with
        | none =>
          rw [hvalue] at h
          nomatch h
        | some p =>
          obtain ⟨w, after⟩ := p
          refine ⟨name, w, _, after, hvalue, ?_⟩
          rw [hvalue] at h
          dsimp only at h
          split at h
          · exact .inr ⟨_, h⟩
          · exact .inl (congrArg Prod.fst (Option.some.inj h)).symm
          · nomatch h
      · nomatch h
  · nomatch h

/-- A value opens nothing, or it is an array or an object with one level less left inside. -/
theorem value_cases (h : value (fuel + 1) depth cs = some (v, rest)) :
    Fits 0 v ∨ ∃ inner, depth = inner + 1 ∧ (v = .array [] ∨ v = .object [] ∨
      (∃ more, items fuel inner [] more = some (v, rest)) ∨
      ∃ more, members fuel inner [] more = some (v, rest)) := by
  unfold value at h
  split at h
  · obtain ⟨rfl, -⟩ := Prod.mk.inj (Option.some.inj h)
    exact .inl ⟨.null, Nat.le_refl 0⟩
  · obtain ⟨rfl, -⟩ := Prod.mk.inj (Option.some.inj h)
    exact .inl ⟨.bool true, Nat.le_refl 0⟩
  · obtain ⟨rfl, -⟩ := Prod.mk.inj (Option.some.inj h)
    exact .inl ⟨.bool false, Nat.le_refl 0⟩
  · obtain ⟨p, -, hp⟩ := Option.map_eq_some_iff.mp h
    obtain ⟨rfl, -⟩ := Prod.mk.inj hp
    exact .inl ⟨.text p.1, Nat.le_refl 0⟩
  · cases depth with
    | zero => cases h
    | succ inner =>
      refine .inr ⟨inner, rfl, ?_⟩
      dsimp only at h
      split at h
      · exact .inl (congrArg Prod.fst (Option.some.inj h)).symm
      · exact .inr (.inr (.inl ⟨_, h⟩))
  · cases depth with
    | zero => cases h
    | succ inner =>
      refine .inr ⟨inner, rfl, ?_⟩
      dsimp only at h
      split at h
      · exact .inr (.inl (congrArg Prod.fst (Option.some.inj h)).symm)
      · exact .inr (.inr (.inr ⟨_, h⟩))
  · exact .inl (fits_number h)

/-! ## Whole values -/

/-- Everything that is read fits; an array or object that is being read has items that do. -/
theorem fits_parsed (fuel : Nat) :
    (∀ {depth cs v rest}, value fuel depth cs = some (v, rest) → Fits depth v) ∧
    (∀ {depth seen cs v rest}, (∀ w ∈ seen, Fits depth w) →
      items fuel depth seen cs = some (v, rest) → Fits (depth + 1) v) ∧
    (∀ {depth seen cs v rest}, Fields.Ordered seen → (∀ f ∈ seen, Fits depth f.2) →
      members fuel depth seen cs = some (v, rest) → Fits (depth + 1) v) := by
  induction fuel with
  | zero =>
    refine ⟨?_, ?_, ?_⟩
    · intro depth cs v rest h
      rw [value] at h
      cases h
    · intro depth seen cs v rest hseen h
      rw [items] at h
      cases h
    · intro depth seen cs v rest hnames hseen h
      rw [members] at h
      cases h
  | succ fuel ih =>
    obtain ⟨hvalue, hitems, hmembers⟩ := ih
    refine ⟨?_, ?_, ?_⟩
    · intro depth cs v rest h
      rcases value_cases h with hflat | ⟨inner, rfl, rfl | rfl | ⟨more, h⟩ | ⟨more, h⟩⟩
      · exact ⟨hflat.1, hflat.2.trans (Nat.zero_le depth)⟩
      · exact fits_array (List.forall_mem_nil _)
      · exact fits_object List.Pairwise.nil (List.forall_mem_nil _)
      · exact hitems (List.forall_mem_nil _) h
      · exact hmembers List.Pairwise.nil (List.forall_mem_nil _) h
    · intro depth seen cs v rest hseen h
      obtain ⟨w, after, hw, hend⟩ := items_cases h
      have hall : ∀ u ∈ w :: seen, Fits depth u := List.forall_mem_cons.mpr ⟨hvalue hw, hseen⟩
      rcases hend with rfl | ⟨more, h⟩
      · exact fits_array fun u hu => hall u (List.mem_reverse.mp hu)
      · exact hitems hall h
    · intro depth seen cs v rest hnames hseen h
      obtain ⟨name, w, before, after, hw, hend⟩ := members_cases h
      have hall : ∀ f ∈ Fields.insert name w seen, Fits depth f.2 := by
        intro f hf
        rcases Fields.mem_insert hf with rfl | hf
        · exact hvalue hw
        · exact hseen f hf
      rcases hend with rfl | ⟨more, h⟩
      · exact fits_object (hnames.insert name w) hall
      · exact hmembers (hnames.insert name w) hall h

theorem fits_of_parse {cs : List Char} {v : Json} (h : parse cs = some v) : Fits maxNesting v := by
  unfold parse at h
  split at h
  · next w rest hvalue =>
    split_ifs at h
    rw [← Option.some.inj h]
    exact (fits_parsed _).1 hvalue
  · nomatch h

end TopicBus.Json
