import TopicBus.Proofs.Json.Figures
import TopicBus.Proofs.Json.Shape
import TopicBus.Proofs.Json.Written

/-!
Written values read back. The parser consumes exactly the text of a well-formed value as long as the
value nests no deeper than it may, and refuses it otherwise (`reads_of_wellFormed`). Its fuel is
paid by the characters: two for each call, and one more where no character is read.
-/

namespace TopicBus.Json

/-! ## The front of a value -/

/-- A text that a value may start: neither a blank nor a closing bracket stands in front. -/
def Opens (cs : List Char) : Prop := ∃ c more, cs = c :: more ∧ isBlank c = false ∧ c ≠ ']'

theorem Opens.append {cs : List Char} (h : Opens cs) (rest : List Char) : Opens (cs ++ rest) := by
  obtain ⟨c, more, rfl, hc⟩ := h
  exact ⟨c, more ++ rest, rfl, hc⟩

theorem isBlank_eq_false_of_isDigit {c : Char} (h : isDigit c = true) : isBlank c = false := by
  by_contra hblank
  simp only [isBlank, Bool.not_eq_false, Bool.or_eq_true, decide_eq_true_eq] at hblank
  rcases hblank with ((rfl | rfl) | rfl) | rfl
  all_goals exact absurd h (by decide)

theorem opens_of_startsNumber {cs : List Char} (h : StartsNumber cs) : Opens cs := by
  obtain ⟨c, hc, hstart⟩ := h
  cases cs with
  | nil => nomatch hc
  | cons d more =>
    obtain rfl : d = c := Option.some.inj hc
    rcases hstart with rfl | hdigit
    · exact ⟨'-', more, rfl, rfl, by decide⟩
    · refine ⟨d, more, rfl, isBlank_eq_false_of_isDigit hdigit, ?_⟩
      rintro rfl
      exact absurd hdigit (by decide)

theorem opens_write {v : Json} (hv : WellFormed v) (rest : List Char) : Opens (v.write rest) := by
  rw [write_eq_append]
  refine Opens.append ?_ rest
  cases hv with
  | null => exact ⟨_, _, rfl, rfl, by decide⟩
  | bool b =>
    cases b with
    | true => exact ⟨_, _, rfl, rfl, by decide⟩
    | false => exact ⟨_, _, rfl, rfl, by decide⟩
  | integer h =>
    have hread := number_writeInteger h stops_nil
    exact opens_of_startsNumber (startsNumber_of_number hread)
  | double h =>
    have hread := number_doubleChars h stops_nil
    exact opens_of_startsNumber (startsNumber_of_number hread)
  | text s => exact ⟨_, _, rfl, rfl, by decide⟩
  | @array vs h =>
    cases vs with
    | nil => exact ⟨_, _, rfl, rfl, by decide⟩
    | cons v vs => exact ⟨_, _, rfl, rfl, by decide⟩
  | @object fs hnames h =>
    cases fs with
    | nil => exact ⟨_, _, rfl, rfl, by decide⟩
    | cons f fs => exact ⟨_, _, rfl, rfl, by decide⟩

theorem length_lt_write {v : Json} (hv : WellFormed v) (rest : List Char) :
    rest.length < (v.write rest).length := by
  obtain ⟨c, more, hcons, -⟩ := opens_write hv []
  rw [write_eq_append, hcons, List.length_append, List.length_cons]
  omega

theorem skipBlanks_cons {c : Char} (h : isBlank c = false) (rest : List Char) :
    skipBlanks (c :: rest) = c :: rest := by
  rw [skipBlanks, List.dropWhile_cons_of_neg (by simp [h])]

theorem Opens.skipBlanks_eq {cs : List Char} (h : Opens cs) : skipBlanks cs = cs := by
  obtain ⟨c, more, rfl, hc, -⟩ := h
  exact skipBlanks_cons hc more

theorem skipBlanks_write {v : Json} (hv : WellFormed v) (rest : List Char) :
    skipBlanks (v.write rest) = v.write rest := (opens_write hv rest).skipBlanks_eq

theorem stops_writeItems (vs : List Json) (rest : List Char) :
    Stops (writeItems vs (']' :: rest)) := by
  cases vs with
  | nil => exact stops_cons.mpr (by decide)
  | cons v vs => exact stops_cons.mpr (by decide)

theorem stops_writeFields (fs : List (String × Json)) (rest : List Char) :
    Stops (writeFields fs ('\x7d' :: rest)) := by
  cases fs with
  | nil => exact stops_cons.mpr (by decide)
  | cons f fs => exact stops_cons.mpr (by decide)

/-! ## Steps of the parser -/

section Steps

variable {fuel depth : Nat} {cs rest : List Char} {v : Json} {name : String}

theorem items_of_none {seen : List Json} (h : value fuel depth cs = none) :
    items (fuel + 1) depth seen cs = none := by
  rw [items, h]

theorem items_of_comma {seen : List Json} (h : value fuel depth cs = some (v, ',' :: rest)) :
    items (fuel + 1) depth seen cs = items fuel depth (v :: seen) (skipBlanks rest) := by
  rw [items, h]
  rfl

theorem items_of_bracket {seen : List Json} (h : value fuel depth cs = some (v, ']' :: rest)) :
    items (fuel + 1) depth seen cs = some (.array (seen.reverse ++ [v]), rest) := by
  rw [items, h, ← List.reverse_cons]
  rfl

variable {seen : List (String × Json)} {before behind after : List Char}
  (hname : textBody [] cs = some (name, before)) (hcolon : skipBlanks before = ':' :: rest)
include hname hcolon

theorem members_of_none (h : value fuel depth (skipBlanks rest) = none) :
    members (fuel + 1) depth seen ('"' :: cs) = none := by
  simp only [members, hname, hcolon, h]

theorem members_of_comma (h : value fuel depth (skipBlanks rest) = some (v, behind))
    (hcomma : skipBlanks behind = ',' :: after) :
    members (fuel + 1) depth seen ('"' :: cs) =
      members fuel depth (Fields.insert name v seen) (skipBlanks after) := by
  simp only [members, hname, hcolon, h, hcomma]

theorem members_of_brace (h : value fuel depth (skipBlanks rest) = some (v, behind))
    (hbrace : skipBlanks behind = '\x7d' :: after) :
    members (fuel + 1) depth seen ('"' :: cs) =
      some (.object (Fields.insert name v seen), after) := by
  simp only [members, hname, hcolon, h, hbrace]

end Steps

/-! ## Reading back -/

/-- The parser takes exactly the text of the value, if the value nests no deeper than it may. The
fuel is twice the text, since a character pays for the call that reads it and for the one inside. -/
def Reads (v : Json) : Prop :=
  ∀ (fuel depth : Nat) (rest : List Char), Stops rest → 2 * (v.write rest).length ≤ fuel →
    value fuel depth (v.write rest) = if nesting v ≤ depth then some (v, rest) else none

theorem items_write {v : Json} {vs : List Json} (h : ∀ w ∈ v :: vs, WellFormed w ∧ Reads w)
    {fuel depth : Nat} {seen : List Json} {rest : List Char}
    (hfuel : 2 * (v.write (writeItems vs (']' :: rest))).length < fuel) :
    items fuel depth seen (v.write (writeItems vs (']' :: rest))) =
      if nestingItems (v :: vs) ≤ depth then some (.array (seen.reverse ++ v :: vs), rest)
      else none := by
  induction vs generalizing v seen fuel with
  | nil =>
    obtain ⟨fuel, rfl⟩ := Nat.exists_eq_add_one_of_ne_zero (Nat.ne_zero_of_lt hfuel)
    obtain ⟨-, hv⟩ := h v List.mem_cons_self
    have hvalue := hv fuel depth _ (stops_writeItems [] rest) (Nat.le_of_lt_succ hfuel)
    rw [nestingItems, nestingItems, Nat.max_zero]
    split_ifs at hvalue ⊢
    · exact items_of_bracket hvalue
    · exact items_of_none hvalue
  | cons w ws ih =>
    obtain ⟨fuel, rfl⟩ := Nat.exists_eq_add_one_of_ne_zero (Nat.ne_zero_of_lt hfuel)
    obtain ⟨hvalid, hv⟩ := h v List.mem_cons_self
    have hlater : ∀ u ∈ w :: ws, WellFormed u ∧ Reads u :=
      fun u hu => h u (List.mem_cons_of_mem v hu)
    have hvalue := hv fuel depth _ (stops_writeItems (w :: ws) rest) (Nat.le_of_lt_succ hfuel)
    rw [nestingItems]
    by_cases hdeep : nesting v ≤ depth
    · rw [if_pos hdeep] at hvalue
      have hlength := length_lt_write hvalid (writeItems (w :: ws) (']' :: rest))
      rw [writeItems, List.length_cons] at hlength
      rw [writeItems] at hfuel
      rw [items_of_comma hvalue, skipBlanks_write (hlater w List.mem_cons_self).1,
        ih hlater (by omega), List.reverse_cons, List.append_assoc]
      simp only [Nat.max_le, hdeep, true_and, List.singleton_append]
    · rw [if_neg hdeep] at hvalue
      rw [items_of_none hvalue, if_neg fun hle => hdeep (le_of_max_le_left hle)]

/-- The value of a field that is written is read behind the name. -/
private theorem value_of_field {name : String} {v : Json} (hv : WellFormed v) (hread : Reads v)
    {fs : List (String × Json)} {fuel : Nat} (depth : Nat) {rest : List Char}
    (hfuel : 2 * (writeText name (':' :: v.write (writeFields fs ('\x7d' :: rest)))).length <
      fuel + 1) :
    value fuel depth (skipBlanks (v.write (writeFields fs ('\x7d' :: rest)))) =
      if nesting v ≤ depth then some (v, writeFields fs ('\x7d' :: rest)) else none := by
  have hlength := length_lt_writeText name (':' :: v.write (writeFields fs ('\x7d' :: rest)))
  rw [List.length_cons] at hlength
  rw [skipBlanks_write hv]
  exact hread fuel depth _ (stops_writeFields fs rest) (by omega)

theorem members_write {name : String} {v : Json} {fs : List (String × Json)}
    (h : ∀ f ∈ (name, v) :: fs, WellFormed f.2 ∧ Reads f.2) {fuel depth : Nat}
    {seen : List (String × Json)} (hseen : Fields.Ordered (seen ++ (name, v) :: fs))
    {rest : List Char}
    (hfuel : 2 * (writeText name (':' :: v.write (writeFields fs ('\x7d' :: rest)))).length <
      fuel) :
    members fuel depth seen (writeText name (':' :: v.write (writeFields fs ('\x7d' :: rest)))) =
      if nestingFields ((name, v) :: fs) ≤ depth then
        some (.object (seen ++ (name, v) :: fs), rest)
      else none := by
  induction fs generalizing name v seen fuel with
  | nil =>
    obtain ⟨fuel, rfl⟩ := Nat.exists_eq_add_one_of_ne_zero (Nat.ne_zero_of_lt hfuel)
    obtain ⟨hvalid, hv⟩ : WellFormed v ∧ Reads v := h _ List.mem_cons_self
    have hname := textBody_writeText name (':' :: v.write (writeFields [] ('\x7d' :: rest)))
    have hvalue := value_of_field hvalid hv depth hfuel
    rw [nestingFields, nestingFields, Nat.max_zero, ← Fields.insert_of_lt v (hseen.lt_of_append)]
    split_ifs at hvalue ⊢
    · exact members_of_brace hname rfl hvalue rfl
    · exact members_of_none hname rfl hvalue
  | cons g fs ih =>
    obtain ⟨fuel, rfl⟩ := Nat.exists_eq_add_one_of_ne_zero (Nat.ne_zero_of_lt hfuel)
    obtain ⟨n, w⟩ := g
    obtain ⟨hvalid, hv⟩ : WellFormed v ∧ Reads v := h _ List.mem_cons_self
    have hlater : ∀ f ∈ (n, w) :: fs, WellFormed f.2 ∧ Reads f.2 :=
      fun f hf => h f (List.mem_cons_of_mem _ hf)
    have hname :=
      textBody_writeText name (':' :: v.write (writeFields ((n, w) :: fs) ('\x7d' :: rest)))
    have hvalue := value_of_field hvalid hv depth hfuel
    rw [nestingFields]
    by_cases hdeep : nesting v ≤ depth
    · rw [if_pos hdeep] at hvalue
      have hlength :=
        length_lt_writeText name (':' :: v.write (writeFields ((n, w) :: fs) ('\x7d' :: rest)))
      have hrest := length_lt_write hvalid (writeFields ((n, w) :: fs) ('\x7d' :: rest))
      rw [writeFields, List.length_cons] at hlength hrest
      -- The names ascend, so the field goes behind those that are read already.
      have hinsert := Fields.insert_of_lt v hseen.lt_of_append
      have hordered : Fields.Ordered (Fields.insert name v seen ++ (n, w) :: fs) := by
        rw [hinsert, List.append_assoc]
        exact hseen
      have hquote : skipBlanks (writeText n (':' :: w.write (writeFields fs ('\x7d' :: rest)))) =
          writeText n (':' :: w.write (writeFields fs ('\x7d' :: rest))) := rfl
      rw [writeFields] at hfuel
      rw [writeText, members_of_comma hname rfl hvalue rfl, hquote, ih hlater hordered (by omega),
        hinsert]
      simp only [Nat.max_le, hdeep, true_and, List.append_assoc, List.singleton_append]
    · rw [if_neg hdeep] at hvalue
      rw [writeText, members_of_none hname rfl hvalue,
        if_neg fun hle => hdeep (le_of_max_le_left hle)]

theorem value_bracket {cs : List Char} (h : Opens cs) (fuel depth : Nat) :
    value (fuel + 1) (depth + 1) ('[' :: cs) = items fuel depth [] cs := by
  obtain ⟨c, more, rfl, hblank, hc⟩ := h
  simp only [value, skipBlanks_cons hblank]
  split
  · next heq => exact absurd (List.cons.inj heq).1 hc
  · rfl

/-- A value takes at least one character, so the parser has fuel for it. -/
theorem reads_of_succ {v : Json} (hv : WellFormed v)
    (h : ∀ (fuel depth : Nat) (rest : List Char), Stops rest →
      2 * (v.write rest).length ≤ fuel + 1 → value (fuel + 1) depth (v.write rest) =
        if nesting v ≤ depth then some (v, rest) else none) : Reads v := by
  intro fuel depth rest hrest hfuel
  have hlength := length_lt_write hv rest
  obtain ⟨fuel, rfl⟩ := Nat.exists_eq_add_one_of_ne_zero (n := fuel) (by omega)
  exact h fuel depth rest hrest hfuel

/-- A value that opens nothing fits any depth. -/
theorem reads_flat {v : Json} (hv : WellFormed v) (hflat : nesting v = 0)
    (h : ∀ (fuel depth : Nat) (rest : List Char), Stops rest →
      value (fuel + 1) depth (v.write rest) = some (v, rest)) : Reads v := by
  refine reads_of_succ hv ?_
  intro fuel depth rest hrest hfuel
  rw [hflat, if_pos (Nat.zero_le depth)]
  exact h fuel depth rest hrest

/-- A value that opens an array or object takes one level of the depth for it. -/
theorem reads_opening {v : Json} (hv : WellFormed v) {inner : Nat} (hnesting : nesting v = inner + 1)
    (hclosed : ∀ (fuel : Nat) (rest : List Char), value (fuel + 1) 0 (v.write rest) = none)
    (hopen : ∀ (fuel depth : Nat) (rest : List Char), 2 * (v.write rest).length ≤ fuel + 1 →
      value (fuel + 1) (depth + 1) (v.write rest) =
        if inner ≤ depth then some (v, rest) else none) : Reads v := by
  refine reads_of_succ hv ?_
  intro fuel depth rest hrest hfuel
  rw [hnesting]
  cases depth with
  | zero => rw [hclosed, if_neg (Nat.not_succ_le_zero inner)]
  | succ depth =>
    rw [hopen fuel depth rest hfuel]
    simp only [Nat.add_le_add_iff_right]

theorem reads_array {vs : List Json} (h : ∀ v ∈ vs, WellFormed v ∧ Reads v) :
    Reads (.array vs) := by
  have hv : WellFormed (.array vs) := .array fun v hv => (h v hv).1
  cases vs with
  | nil =>
    refine reads_opening hv rfl (fun fuel rest => rfl) ?_
    intro fuel depth rest hfuel
    rw [nestingItems, if_pos (Nat.zero_le depth)]
    rfl
  | cons v vs =>
    refine reads_opening hv rfl (fun fuel rest => rfl) ?_
    intro fuel depth rest hfuel
    have hopens := opens_write (h v List.mem_cons_self).1 (writeItems vs (']' :: rest))
    rw [write] at hfuel ⊢
    rw [List.length_cons] at hfuel
    rw [value_bracket hopens, items_write h (by omega)]
    rfl

theorem reads_object {fs : List (String × Json)} (hnames : Fields.Ordered fs)
    (h : ∀ f ∈ fs, WellFormed f.2 ∧ Reads f.2) : Reads (.object fs) := by
  have hv : WellFormed (.object fs) := .object hnames fun f hf => (h f hf).1
  cases fs with
  | nil =>
    refine reads_opening hv rfl (fun fuel rest => rfl) ?_
    intro fuel depth rest hfuel
    rw [nestingFields, if_pos (Nat.zero_le depth)]
    rfl
  | cons f fs =>
    obtain ⟨name, v⟩ := f
    refine reads_opening hv rfl (fun fuel rest => rfl) ?_
    intro fuel depth rest hfuel
    have hbrace : value (fuel + 1) (depth + 1)
        ('\x7b' :: writeText name (':' :: v.write (writeFields fs ('\x7d' :: rest)))) =
          members fuel depth []
            (writeText name (':' :: v.write (writeFields fs ('\x7d' :: rest)))) := rfl
    rw [write] at hfuel ⊢
    rw [List.length_cons] at hfuel
    rw [hbrace, members_write h hnames (by omega)]
    rfl

/-- Every well-formed value reads back. -/
theorem reads_of_wellFormed {v : Json} (hv : WellFormed v) : Reads v := by
  induction hv with
  | null => exact reads_flat .null rfl fun fuel depth rest hrest => rfl
  | bool b =>
    refine reads_flat (.bool b) rfl fun fuel depth rest hrest => ?_
    cases b with
    | true => rfl
    | false => rfl
  | integer h =>
    refine reads_flat (.integer h) rfl fun fuel depth rest hrest => ?_
    have hread := number_writeInteger h hrest
    rw [write, value_of_startsNumber (startsNumber_of_number hread), hread]
  | double h =>
    refine reads_flat (.double h) rfl fun fuel depth rest hrest => ?_
    have hread := number_doubleChars h hrest
    rw [write, value_of_startsNumber (startsNumber_of_number hread), hread]
  | text s =>
    refine reads_flat (.text s) rfl fun fuel depth rest hrest => ?_
    show (textBody [] (s.toList.foldr escape ('"' :: rest))).map (fun p => (Json.text p.1, p.2)) = _
    rw [textBody_writeText, Option.map_some]
  | array h ih => exact reads_array fun v hv => ⟨h v hv, ih v hv⟩
  | object hnames h ih => exact reads_object hnames fun f hf => ⟨h f hf, ih f hf⟩

/-! ## Whole texts -/

/-- The text of a well-formed value is read as the value, unless it nests deeper than the parser
goes. -/
theorem parse_write {v : Json} (hv : WellFormed v) :
    parse (v.write []) = if nesting v ≤ maxNesting then some v else none := by
  have hread := reads_of_wellFormed hv (2 * (v.write []).length + 2) maxNesting [] stops_nil
    (Nat.le_add_right _ 2)
  rw [parse, skipBlanks_write hv, hread]
  split_ifs
  · rfl
  · rfl

/-- Wherever a value may stand, a literal is read as its value. -/
theorem value_literal {l : Literal} (h : l.Valid) (fuel depth : Nat) {rest : List Char}
    (hrest : Stops rest) :
    value (fuel + 1) depth (l.chars ++ rest) = l.value?.map fun v => (v, rest) := by
  rw [value_of_startsNumber (startsNumber_chars h rest), number_chars h hrest]

/-- The text of an object with one field, whose value a literal spells. -/
def literalField (name : String) (l : Literal) : List Char :=
  '\x7b' :: writeText name (':' :: (l.chars ++ ['\x7d']))

theorem parse_literalField (name : String) {l : Literal} (h : l.Valid) :
    parse (literalField name l) = l.value?.map fun v => .object [(name, v)] := by
  have hopens : skipBlanks (l.chars ++ ['\x7d']) = l.chars ++ ['\x7d'] :=
    (opens_of_startsNumber (startsNumber_chars h _)).skipBlanks_eq
  have hname := textBody_writeText name (':' :: (l.chars ++ ['\x7d']))
  have hvalue : ∀ fuel, value (fuel + 1) 126 (skipBlanks (l.chars ++ ['\x7d'])) =
      l.value?.map fun v => (v, ['\x7d']) := by
    intro fuel
    rw [hopens]
    exact value_literal h fuel 126 (stops_cons.mpr (by decide))
  rw [parse, literalField, skipBlanks_cons rfl, List.length_cons, writeText]
  generalize List.length _ = size
  have hbrace : ∀ cs, value (2 * (size + 1) + 2) maxNesting ('\x7b' :: '"' :: cs) =
      members (2 * size + 2 + 1) 126 [] ('"' :: cs) := fun cs => rfl
  rw [hbrace]
  cases hread : l.value? with
  | none =>
    rw [hread] at hvalue
    rw [members_of_none hname rfl (hvalue (2 * size + 1))]
    rfl
  | some v =>
    rw [hread] at hvalue
    rw [members_of_brace hname rfl (hvalue (2 * size + 1)) rfl]
    rfl

end TopicBus.Json
