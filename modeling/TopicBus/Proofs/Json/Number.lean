import TopicBus.Proofs.Decimal.Rounding
import TopicBus.Json.Parser

/-!
Number literals. A `Literal` is cut into sign, digits before the point, digits behind it and power
of ten. The parser takes exactly its text and gives its value (`number_chars`), and it takes no
other text for a number (`number_cases`). A literal is an integer or it is read as a double
(`Literal.value?_spec`): an integer is one without fraction and power that lies in the 64-bit
ranges, and the sign of -0 makes it no integer.
-/

namespace TopicBus.Json

/-! ## Digits -/

theorem isDigit_eq (c : Char) : isDigit c = c.isDigit := rfl

theorem ofDigits_eq (ds : List Char) : ofDigits ds = Nat.ofDigitChars 10 ds 0 := by
  rw [ofDigits, Nat.ofDigitChars]
  congr
  funext n c
  rw [Nat.mul_comm]

theorem ofDigits_append (as bs : List Char) :
    ofDigits (as ++ bs) = 10 ^ bs.length * ofDigits as + ofDigits bs := by
  rw [ofDigits_eq, ofDigits_eq, ofDigits_eq, Nat.ofDigitChars_append,
    Nat.ofDigitChars_eq_ofDigitChars_zero]

theorem ofDigits_zeros (n : Nat) : ofDigits (List.replicate n '0') = 0 := by
  rw [ofDigits_eq, Nat.ofDigitChars_replicate_zero, Nat.mul_zero]

/-- One digit or more. -/
structure Digits (ds : List Char) : Prop where
  ne_nil : ds ≠ []
  isDigit : ∀ c ∈ ds, isDigit c = true

theorem digits_zero : Digits ['0'] := by
  refine ⟨List.cons_ne_nil _ _, ?_⟩
  intro c hc
  rw [List.mem_singleton.mp hc]
  rfl

theorem Digits.append {as bs : List Char} (ha : Digits as) (hb : ∀ c ∈ bs, Json.isDigit c = true) :
    Digits (as ++ bs) := by
  refine ⟨List.append_ne_nil_of_left_ne_nil ha.ne_nil bs, ?_⟩
  intro c hc
  exact (List.mem_append.mp hc).elim (ha.isDigit c) (hb c)

/-- The digits before a point: a single zero, or digits that start with another one. -/
def Whole (ds : List Char) : Prop := ds = ['0'] ∨ (Digits ds ∧ ds.head? ≠ some '0')

theorem Whole.digits {ds : List Char} (h : Whole ds) : Digits ds := by
  rcases h with rfl | ⟨hdigits, -⟩
  · exact digits_zero
  · exact hdigits

/-- A text that starts with no digit. -/
def Undigited (cs : List Char) : Prop := ∀ c ∈ cs.head?, isDigit c = false

theorem takeWhile_digits {ds rest : List Char} (hds : Digits ds) (hrest : Undigited rest) :
    (ds ++ rest).takeWhile isDigit = ds := by
  rw [List.takeWhile_append_of_pos hds.isDigit]
  cases rest with
  | nil => rw [List.takeWhile_nil, List.append_nil]
  | cons c rest => rw [List.takeWhile_cons_of_neg (by simp [hrest c rfl]), List.append_nil]

theorem dropWhile_digits {ds rest : List Char} (hds : Digits ds) (hrest : Undigited rest) :
    (ds ++ rest).dropWhile isDigit = rest := by
  rw [List.dropWhile_append_of_pos hds.isDigit]
  cases rest with
  | nil => rfl
  | cons c rest => rw [List.dropWhile_cons_of_neg (by simp [hrest c rfl])]

/-! ## Literals -/

/-- A power of ten behind a number: its mark, the sign if there is one, and digits. -/
structure Power where
  mark : Char
  sign : Option Char
  digits : List Char

namespace Power

structure Valid (p : Power) : Prop where
  mark : p.mark = 'e' ∨ p.mark = 'E'
  sign : p.sign = none ∨ p.sign = some '+' ∨ p.sign = some '-'
  digits : Digits p.digits

def chars (p : Power) : List Char := p.mark :: (p.sign.toList ++ p.digits)

def value (p : Power) : Int :=
  if p.sign = some '-' then -(ofDigits p.digits : Int) else ofDigits p.digits

end Power

/-- The parts of a number. -/
structure Literal where
  negative : Bool
  whole : List Char
  fraction : Option (List Char)
  power : Option Power

namespace Literal

structure Valid (l : Literal) : Prop where
  whole : Whole l.whole
  fraction : ∀ ds ∈ l.fraction, Digits ds
  power : ∀ p ∈ l.power, p.Valid

def fractionChars (l : Literal) : List Char := l.fraction.elim [] ('.' :: ·)

def powerChars (l : Literal) : List Char := l.power.elim [] Power.chars

def chars (l : Literal) : List Char :=
  (if l.negative then ['-'] else []) ++ l.whole ++ l.fractionChars ++ l.powerChars

/-- The magnitude as a decimal. -/
def decimal (l : Literal) : Decimal :=
  ⟨ofDigits (l.whole ++ l.fraction.getD []),
    l.power.elim 0 Power.value - (l.fraction.getD []).length⟩

/-- The integer of a literal that has neither fraction nor power. There is no negative zero. -/
def integer? (l : Literal) : Option Int :=
  match l.fraction, l.power with
  | none, none =>
    if l.negative then
      if ofDigits l.whole = 0 then none else some (-(ofDigits l.whole : Int))
    else some (ofDigits l.whole)
  | _, _ => none

/-- What the parser makes of the parts. -/
def value? (l : Literal) : Option Json :=
  numberValue l.negative l.whole l.fraction (l.power.map Power.value)

end Literal

/-- What may follow a number: nothing that could belong to it. -/
def Stops (rest : List Char) : Prop :=
  ∀ c ∈ rest.head?, isDigit c = false ∧ c ≠ '.' ∧ c ≠ 'e' ∧ c ≠ 'E'

theorem stops_nil : Stops [] := by
  intro c hc
  nomatch hc

theorem stops_cons {c : Char} {rest : List Char} :
    Stops (c :: rest) ↔ isDigit c = false ∧ c ≠ '.' ∧ c ≠ 'e' ∧ c ≠ 'E' := by
  constructor
  · intro h
    exact h c rfl
  · intro h d hd
    rw [← Option.some.inj hd]
    exact h

theorem Stops.undigited {rest : List Char} (h : Stops rest) : Undigited rest :=
  fun c hc => (h c hc).1

/-! ## The parts of a number -/

theorem integerPart_append {ds rest : List Char} (hds : Whole ds) (hrest : Undigited rest) :
    integerPart (ds ++ rest) = some (ds, rest) := by
  rcases hds with rfl | ⟨hds, hhead⟩
  · rfl
  · obtain ⟨c, more, rfl⟩ := List.exists_cons_of_ne_nil hds.ne_nil
    have hc : c ≠ '0' := fun h => hhead (congrArg some h)
    unfold integerPart
    split
    · next heq => exact absurd (List.cons.inj heq).1 hc
    · rw [takeWhile_digits hds hrest, dropWhile_digits hds hrest]

theorem fractionPart_append {l : Literal} (h : l.Valid) {rest : List Char}
    (hrest : Undigited rest) (hpoint : ∀ c ∈ rest.head?, c ≠ '.') :
    fractionPart (l.fractionChars ++ rest) = some (l.fraction, rest) := by
  unfold Literal.fractionChars
  cases hfraction : l.fraction with
  | none =>
    unfold fractionPart
    split
    · next heq => exact absurd rfl (hpoint '.' (congrArg List.head? heq))
    · rfl
  | some ds =>
    have hds := h.fraction ds hfraction
    obtain ⟨c, more, hcons⟩ := List.exists_cons_of_ne_nil hds.ne_nil
    rw [Option.elim_some, List.cons_append]
    simp only [fractionPart]
    rw [takeWhile_digits hds hrest, dropWhile_digits hds hrest, hcons]

theorem exponentDigits_append {ds rest : List Char} (negative : Bool) (hds : Digits ds)
    (hrest : Undigited rest) : exponentDigits negative (ds ++ rest) =
      some (some (if negative then -(ofDigits ds : Int) else ofDigits ds), rest) := by
  unfold exponentDigits
  rw [takeWhile_digits hds hrest, dropWhile_digits hds hrest]
  obtain ⟨c, more, rfl⟩ := List.exists_cons_of_ne_nil hds.ne_nil
  rfl

theorem exponentPart_power {p : Power} (h : p.Valid) {rest : List Char}
    (hrest : Undigited rest) : exponentPart (p.chars ++ rest) = some (some p.value, rest) := by
  obtain ⟨mark, sign, ds⟩ := p
  obtain ⟨hmark, hsign, hds⟩ := h
  dsimp only at hmark hsign hds
  have hbehind : exponentPart (Power.chars ⟨mark, sign, ds⟩ ++ rest) =
      exponentDigits (decide (sign = some '-')) (ds ++ rest) := by
    obtain ⟨c, more, rfl⟩ := List.exists_cons_of_ne_nil hds.ne_nil
    have hc := hds.isDigit c List.mem_cons_self
    rcases hmark with rfl | rfl
    all_goals
      rcases hsign with rfl | rfl | rfl
      · simp only [Power.chars, Option.toList_none, List.nil_append, List.cons_append, exponentPart]
        split
        · next heq =>
          rw [(List.cons.inj heq).1] at hc
          exact absurd hc (by decide)
        · next heq =>
          rw [(List.cons.inj heq).1] at hc
          exact absurd hc (by decide)
        · rfl
      · rfl
      · rfl
  rw [hbehind, exponentDigits_append _ hds hrest, Power.value]
  simp only [decide_eq_true_eq]

theorem exponentPart_append {l : Literal} (h : l.Valid) {rest : List Char} (hrest : Stops rest) :
    exponentPart (l.powerChars ++ rest) = some (l.power.map Power.value, rest) := by
  unfold Literal.powerChars
  cases hpower : l.power with
  | none =>
    show exponentPart rest = some (none, rest)
    unfold exponentPart
    split
    · exact absurd rfl (hrest 'e' rfl).2.2.1
    · exact absurd rfl (hrest 'E' rfl).2.2.2
    · rfl
  | some p => exact exponentPart_power (h.power p hpower) hrest.undigited

/-- The power starts with its mark, so the fraction before it ends there. -/
theorem head_powerChars {l : Literal} (h : l.Valid) {rest : List Char} (hrest : Stops rest) :
    ∀ c ∈ (l.powerChars ++ rest).head?, isDigit c = false ∧ c ≠ '.' := by
  unfold Literal.powerChars
  intro c hc
  cases hpower : l.power with
  | none =>
    rw [hpower] at hc
    exact ⟨(hrest c hc).1, (hrest c hc).2.1⟩
  | some p =>
    rw [hpower] at hc
    rw [← Option.some.inj hc]
    rcases (h.power p hpower).mark with hmark | hmark
    · rw [hmark]
      decide
    · rw [hmark]
      decide

theorem undigited_fractionChars {l : Literal} {rest : List Char} (hrest : Undigited rest) :
    Undigited (l.fractionChars ++ rest) := by
  unfold Literal.fractionChars
  cases l.fraction with
  | none => exact hrest
  | some ds =>
    intro c hc
    rw [← Option.some.inj hc]
    rfl

theorem unsigned_append {l : Literal} (h : l.Valid) {rest : List Char} (hrest : Stops rest) :
    unsigned l.negative (l.whole ++ (l.fractionChars ++ (l.powerChars ++ rest))) =
      l.value?.map fun v => (v, rest) := by
  have hpower := head_powerChars h hrest
  have hundigited : Undigited (l.powerChars ++ rest) := fun c hc => (hpower c hc).1
  unfold unsigned
  rw [integerPart_append h.whole (undigited_fractionChars hundigited)]
  show (fractionPart (l.fractionChars ++ (l.powerChars ++ rest))).bind _ = _
  rw [fractionPart_append h hundigited fun c hc => (hpower c hc).2]
  show (exponentPart (l.powerChars ++ rest)).bind _ = _
  rw [exponentPart_append h hrest]
  show l.value?.bind (fun v => some (v, rest)) = _
  rw [Option.map_eq_bind]
  rfl

/-- A literal is read whole, whatever follows that cannot belong to it. -/
theorem number_chars {l : Literal} (h : l.Valid) {rest : List Char} (hrest : Stops rest) :
    number (l.chars ++ rest) = l.value?.map fun v => (v, rest) := by
  rw [← unsigned_append h hrest, Literal.chars, List.append_assoc, List.append_assoc,
    List.append_assoc]
  cases hnegative : l.negative with
  | true => rfl
  | false =>
    obtain ⟨c, more, hcons⟩ := List.exists_cons_of_ne_nil h.whole.digits.ne_nil
    have hc : isDigit c = true := h.whole.digits.isDigit c (by rw [hcons]; exact List.mem_cons_self)
    rw [hcons]
    show number (c :: (more ++ _)) = _
    unfold number
    split
    · next heq =>
      rw [(List.cons.inj heq).1] at hc
      exact absurd hc (by decide)
    · rfl

/-! ## Values -/

/-- An integer of the 64-bit ranges. -/
def IsWord (n : Int) : Prop := -2 ^ 63 ≤ n ∧ n < 2 ^ 64

instance (n : Int) : Decidable (IsWord n) := inferInstanceAs (Decidable (_ ∧ _))

namespace Literal

theorem value?_of_isWord {l : Literal} {n : Int} (h : l.integer? = some n) (hn : IsWord n) :
    l.value? = some (.integer n) := by
  obtain ⟨negative, whole, fraction, power⟩ := l
  obtain ⟨hlow, hhigh⟩ := hn
  cases fraction with
  | some ds => cases power <;> nomatch h
  | none =>
    cases power with
    | some p => nomatch h
    | none =>
      cases negative with
      | true =>
        have hwhole : ofDigits whole ≠ 0 ∧ -(ofDigits whole : Int) = n := by
          simpa [integer?] using h
        obtain ⟨hne, rfl⟩ := hwhole
        show (if ofDigits whole = 0 then _ else if ofDigits whole ≤ 0x8000000000000000 then _
          else _) = some (Json.integer _)
        rw [if_neg hne, if_pos (by omega)]
      | false =>
        obtain rfl : (ofDigits whole : Int) = n := by
          simpa [integer?] using h
        show (if ofDigits whole < 0x10000000000000000 then _ else _) = some (Json.integer _)
        rw [if_pos (by omega)]

theorem value?_of_not_isWord {l : Literal} (h : ∀ n, l.integer? = some n → ¬ IsWord n) :
    l.value? = (l.decimal.toDouble? l.negative).map Json.double := by
  obtain ⟨negative, whole, fraction, power⟩ := l
  cases fraction with
  | some ds => cases power <;> rfl
  | none =>
    cases power with
    | some p => rfl
    | none =>
      have hdecimal : decimal ⟨negative, whole, none, none⟩ = ⟨ofDigits whole, 0⟩ := by
        rw [decimal, Option.getD_none, List.append_nil]
        rfl
      have hvalue : value? ⟨negative, whole, none, none⟩ =
          if negative then
            if ofDigits whole = 0 then some (.double .negativeZero)
            else if ofDigits whole ≤ 2 ^ 63 then some (.integer (-(ofDigits whole : Int)))
            else (Decimal.toDouble? negative ⟨ofDigits whole, 0⟩).map Json.double
          else if ofDigits whole < 2 ^ 64 then some (.integer (ofDigits whole))
          else (Decimal.toDouble? negative ⟨ofDigits whole, 0⟩).map Json.double := by
        rw [← hdecimal]
        rfl
      rw [hvalue, hdecimal]
      cases negative with
      | true =>
        rw [if_pos rfl]
        split_ifs with hzero hword
        · rw [hzero]
          rfl
        · have hinteger : integer? ⟨true, whole, none, none⟩ = some (-(ofDigits whole : Int)) :=
            if_neg hzero
          have hout := h _ hinteger
          unfold IsWord at hout
          omega
        · rfl
      | false =>
        rw [if_neg Bool.false_ne_true]
        split_ifs with hword
        · have hout := h (ofDigits whole) rfl
          unfold IsWord at hout
          omega
        · rfl

/-- A literal is an integer of the 64-bit ranges, or it is read as the nearest double, which has its
sign; it is refused only if it lies at least halfway from the largest finite magnitude to the
next. -/
theorem value?_spec (l : Literal) :
    (∃ n, l.integer? = some n ∧ IsWord n ∧ l.value? = some (.integer n)) ∨
    ((∀ n, l.integer? = some n → ¬ IsWord n) ∧
      ((∃ x, l.value? = some (.double x) ∧ x.isFinite = true ∧ x.negative = l.negative ∧
          Decimal.IsNearest l.decimal.value x.rank) ∨
        (l.value? = none ∧ Double.halfway (Double.infinityRank - 1) ≤ l.decimal.value))) := by
  by_cases hword : ∃ n, l.integer? = some n ∧ IsWord n
  · obtain ⟨n, hn, hrange⟩ := hword
    exact .inl ⟨n, hn, hrange, value?_of_isWord hn hrange⟩
  · have hout : ∀ n, l.integer? = some n → ¬ IsWord n := fun n hn hrange => hword ⟨n, hn, hrange⟩
    refine .inr ⟨hout, ?_⟩
    rw [value?_of_not_isWord hout]
    rcases Decimal.toDouble?_spec l.negative l.decimal with ⟨x, hx, hspec⟩ | ⟨hnone, hlarge⟩
    · refine .inl ⟨x, ?_, hspec⟩
      rw [hx, Option.map_some]
    · refine .inr ⟨?_, hlarge⟩
      rw [hnone, Option.map_none]

end Literal

/-! ## Texts that are read as numbers -/

theorem digits_takeWhile {cs : List Char} (h : cs.takeWhile isDigit ≠ []) :
    Digits (cs.takeWhile isDigit) := ⟨h, fun _ hc => List.all_eq_true.mp List.all_takeWhile _ hc⟩

theorem integerPart_cases {cs ds rest : List Char} (h : integerPart cs = some (ds, rest)) :
    cs = ds ++ rest ∧ Whole ds := by
  unfold integerPart at h
  split at h
  · obtain ⟨rfl, rfl⟩ := Prod.mk.inj (Option.some.inj h)
    exact ⟨rfl, .inl rfl⟩
  · next hfirst =>
    split at h
    · nomatch h
    · next hne =>
      obtain ⟨rfl, rfl⟩ := Prod.mk.inj (Option.some.inj h)
      refine ⟨List.takeWhile_append_dropWhile.symm, .inr ⟨digits_takeWhile hne, ?_⟩⟩
      intro hzero
      cases cs with
      | nil => nomatch hzero
      | cons c cs =>
        by_cases hc : isDigit c = true
        · rw [List.takeWhile_cons_of_pos hc, List.head?_cons, Option.some.injEq] at hzero
          exact hfirst cs (by rw [hzero])
        · rw [List.takeWhile_cons_of_neg hc] at hzero
          nomatch hzero

theorem fractionPart_cases {cs rest : List Char} {fraction : Option (List Char)}
    (h : fractionPart cs = some (fraction, rest)) :
    cs = fraction.elim [] ('.' :: ·) ++ rest ∧ ∀ ds ∈ fraction, Digits ds := by
  unfold fractionPart at h
  split at h
  · split at h
    · nomatch h
    · next hne =>
      obtain ⟨rfl, rfl⟩ := Prod.mk.inj (Option.some.inj h)
      refine ⟨?_, ?_⟩
      · rw [Option.elim_some, List.cons_append, List.takeWhile_append_dropWhile]
      · intro ds hds
        rw [← Option.some.inj hds]
        exact digits_takeWhile hne
  · obtain ⟨rfl, rfl⟩ := Prod.mk.inj (Option.some.inj h)
    exact ⟨rfl, nofun⟩

theorem exponentDigits_cases {negative : Bool} {cs rest : List Char} {power : Option Int}
    (h : exponentDigits negative cs = some (power, rest)) :
    ∃ ds, Digits ds ∧ cs = ds ++ rest ∧
      power = some (if negative then -(ofDigits ds : Int) else ofDigits ds) := by
  unfold exponentDigits at h
  split at h
  · nomatch h
  · next hne =>
    obtain ⟨rfl, rfl⟩ := Prod.mk.inj (Option.some.inj h)
    exact ⟨_, digits_takeWhile hne, List.takeWhile_append_dropWhile.symm, rfl⟩

theorem exponentPart_cases {cs rest : List Char} {power : Option Int}
    (h : exponentPart cs = some (power, rest)) :
    ∃ p : Option Power, p.map Power.value = power ∧ cs = p.elim [] Power.chars ++ rest ∧
      ∀ q ∈ p, q.Valid := by
  have hmarked : ∀ {mark : Char} {sign : Option Char} {cs : List Char},
      (mark = 'e' ∨ mark = 'E') → (sign = none ∨ sign = some '+' ∨ sign = some '-') →
      exponentDigits (decide (sign = some '-')) cs = some (power, rest) →
        ∃ p : Option Power, p.map Power.value = power ∧
          mark :: (sign.toList ++ cs) = p.elim [] Power.chars ++ rest ∧ ∀ q ∈ p, q.Valid := by
    intro mark sign cs hmark hsign hdigits
    obtain ⟨ds, hds, rfl, rfl⟩ := exponentDigits_cases hdigits
    refine ⟨some ⟨mark, sign, ds⟩, ?_, ?_, ?_⟩
    · simp only [Option.map_some, Power.value, decide_eq_true_eq]
    · simp only [Option.elim_some, Power.chars, List.cons_append, List.append_assoc]
    · intro q hq
      rw [← Option.some.inj hq]
      exact ⟨hmark, hsign, hds⟩
  unfold exponentPart at h
  split at h
  · split at h
    · exact hmarked (.inl rfl) (.inr (.inl rfl)) h
    · exact hmarked (.inl rfl) (.inr (.inr rfl)) h
    · exact hmarked (.inl rfl) (.inl rfl) h
  · split at h
    · exact hmarked (.inr rfl) (.inr (.inl rfl)) h
    · exact hmarked (.inr rfl) (.inr (.inr rfl)) h
    · exact hmarked (.inr rfl) (.inl rfl) h
  · obtain ⟨rfl, rfl⟩ := Prod.mk.inj (Option.some.inj h)
    exact ⟨none, rfl, rfl, nofun⟩

theorem unsigned_cases {negative : Bool} {cs rest : List Char} {v : Json}
    (h : unsigned negative cs = some (v, rest)) :
    ∃ l : Literal, l.Valid ∧ l.negative = negative ∧ l.value? = some v ∧
      cs = l.whole ++ (l.fractionChars ++ (l.powerChars ++ rest)) := by
  unfold unsigned at h
  obtain ⟨⟨whole, afterWhole⟩, hwhole, h⟩ := Option.bind_eq_some_iff.mp h
  obtain ⟨⟨fraction, afterFraction⟩, hfraction, h⟩ := Option.bind_eq_some_iff.mp h
  obtain ⟨⟨power, afterPower⟩, hpower, h⟩ := Option.bind_eq_some_iff.mp h
  obtain ⟨w, hvalue, h⟩ := Option.bind_eq_some_iff.mp h
  obtain ⟨rfl, rfl⟩ := Prod.mk.inj (Option.some.inj h)
  obtain ⟨rfl, hw⟩ := integerPart_cases hwhole
  obtain ⟨rfl, hf⟩ := fractionPart_cases hfraction
  obtain ⟨p, rfl, rfl, hp⟩ := exponentPart_cases hpower
  exact ⟨⟨negative, whole, fraction, p⟩, ⟨hw, hf, hp⟩, rfl, hvalue, rfl⟩

/-- Whatever is read as a number is a literal, and the number is its value. -/
theorem number_cases {cs rest : List Char} {v : Json} (h : number cs = some (v, rest)) :
    ∃ l : Literal, l.Valid ∧ cs = l.chars ++ rest ∧ l.value? = some v := by
  unfold number at h
  split at h
  · obtain ⟨l, hl, hnegative, hvalue, rfl⟩ := unsigned_cases h
    refine ⟨l, hl, ?_, hvalue⟩
    rw [Literal.chars, hnegative, List.append_assoc, List.append_assoc, List.append_assoc]
    rfl
  · obtain ⟨l, hl, hnegative, hvalue, rfl⟩ := unsigned_cases h
    refine ⟨l, hl, ?_, hvalue⟩
    rw [Literal.chars, hnegative, List.append_assoc, List.append_assoc, List.append_assoc]
    rfl

/-- What is read as a number is an integer of the 64-bit ranges or a finite double. -/
theorem isWord_or_isFinite_of_number {cs rest : List Char} {v : Json}
    (h : number cs = some (v, rest)) :
    (∃ n, v = .integer n ∧ IsWord n) ∨ ∃ x, v = .double x ∧ x.isFinite = true := by
  obtain ⟨l, -, -, hvalue⟩ := number_cases h
  rcases l.value?_spec with ⟨n, -, hn, hl⟩ | ⟨-, ⟨x, hl, hx, -⟩ | ⟨hl, -⟩⟩
  · rw [hl, Option.some.injEq] at hvalue
    exact .inl ⟨n, hvalue.symm, hn⟩
  · rw [hl, Option.some.injEq] at hvalue
    exact .inr ⟨x, hvalue.symm, hx⟩
  · rw [hl] at hvalue
    nomatch hvalue

/-! ## Where a number starts -/

/-- A sign or a digit stands in front. -/
def StartsNumber (cs : List Char) : Prop := ∃ c ∈ cs.head?, c = '-' ∨ isDigit c = true

theorem startsNumber_chars {l : Literal} (h : l.Valid) (rest : List Char) :
    StartsNumber (l.chars ++ rest) := by
  obtain ⟨c, more, hcons⟩ := List.exists_cons_of_ne_nil h.whole.digits.ne_nil
  have hc : isDigit c = true := h.whole.digits.isDigit c (by rw [hcons]; exact List.mem_cons_self)
  rw [Literal.chars, hcons]
  cases l.negative with
  | true => exact ⟨'-', rfl, .inl rfl⟩
  | false => exact ⟨c, rfl, .inr hc⟩

theorem startsNumber_of_number {cs : List Char} {p : Json × List Char} (h : number cs = some p) :
    StartsNumber cs := by
  obtain ⟨l, hl, rfl, -⟩ := number_cases h
  exact startsNumber_chars hl p.2

/-- No other value starts like a number. -/
theorem value_of_startsNumber {cs : List Char} (h : StartsNumber cs) (fuel depth : Nat) :
    value (fuel + 1) depth cs = number cs := by
  obtain ⟨c, hc, hstart⟩ := h
  unfold value
  split
  case h_7 => rfl
  all_goals
    rw [← Option.some.inj hc] at hstart
    exact absurd hstart (by decide)

end TopicBus.Json
