import TopicBus.Proofs.Document.Made
import TopicBus.Proofs.Json.RoundTrip
import TopicBus.Proofs.Text.Order
import TopicBus.Proofs.Text.Utf8

/-!
Documents as bytes. A document that nests at most `maxNesting` levels deep is decoded from its own
bytes, and a deeper one is refused (`decode_encode_eq`); every decoded document is one of the first
kind (`roundTrip`). The same theorem states the rules of the text: compact form, the order of the
names, what is escaped, and which number a literal is read as. Of the literals without fraction and
power, -0 alone is no integer although its value is in range (`negativeZero_not_integer`).
-/

namespace TopicBus.Document

open Json

variable {d : Document}

theorem decode_text (cs : List Char) :
    Json.decode (Utf8.encode (String.ofList cs)) = parse cs := by
  rw [Json.decode, Utf8.decode_encode]
  dsimp only
  rw [String.toList_ofList]

theorem decode_encode_eq (hd : d.WellFormed) :
    decode d.encode = if d.nesting ≤ maxNesting then .ok d else .error (.decode .json) := by
  have hread : Json.decode d.encode = if d.nesting ≤ maxNesting then some d.toJson else none := by
    rw [Document.encode, Document.text, print, decode_text]
    exact parse_write hd
  rw [Document.decode, hread]
  split_ifs
  · rfl
  · rfl

/-- The bytes of a document with one field, whose value a literal spells. -/
def spelled (name : String) (l : Literal) : List UInt8 :=
  Utf8.encode (String.ofList (literalField name l))

theorem decode_spelled (name : String) {l : Literal} (h : l.Valid) :
    decode (spelled name l) = match l.value? with
      | some v => .ok ⟨[(name, v)]⟩
      | none => .error (.decode .json) := by
  rw [Document.decode, spelled, decode_text, parse_literalField name h]
  cases l.value? with
  | none => rfl
  | some v => rfl

/-- A literal is an integer of the 64-bit ranges, or the nearest finite double, or refused because
it rounds to infinity. -/
theorem decode_spelled_cases (name : String) {l : Literal} (h : l.Valid) :
    (∃ n, l.integer? = some n ∧ IsWord n ∧
      decode (spelled name l) = .ok ⟨[(name, .integer n)]⟩) ∨
    ((∀ n, l.integer? = some n → ¬ IsWord n) ∧
      ((∃ x, decode (spelled name l) = .ok ⟨[(name, .double x)]⟩ ∧ x.isFinite = true ∧
          x.negative = l.negative ∧ Decimal.IsNearest l.decimal.value x.rank) ∨
        (decode (spelled name l) = .error (.decode .json) ∧
          Double.halfway (Double.infinityRank - 1) ≤ l.decimal.value))) := by
  rw [decode_spelled name h]
  rcases l.value?_spec with ⟨n, hn, hword, hvalue⟩ | ⟨hout, ⟨x, hvalue, hx⟩ | ⟨hvalue, hlarge⟩⟩
  · refine .inl ⟨n, hn, hword, ?_⟩
    rw [hvalue]
  · refine .inr ⟨hout, .inl ⟨x, ?_, hx⟩⟩
    rw [hvalue]
  · refine .inr ⟨hout, .inr ⟨?_, hlarge⟩⟩
    rw [hvalue]

/-- Documents round trip through their bytes up to the nesting of the parser, and the text follows
the rules of compact JSON. -/
theorem roundTrip :
    -- The documents that the operations and the decoder make are among the well-formed ones.
    (∀ d : Document, Made d → d.WellFormed) ∧
    (∀ d : Document, d.WellFormed → d.nesting ≤ 127 → decode d.encode = .ok d) ∧
    (∀ d : Document, d.WellFormed → 128 ≤ d.nesting → decode d.encode = .error (.decode .json)) ∧
    (∀ (bytes : List UInt8) (d : Document), decode bytes = .ok d →
      d.nesting ≤ 127 ∧ decode d.encode = .ok d) ∧
    -- Nothing but brackets, commas and colons stands between the parts.
    (∀ d : Document, d.encode = Utf8.encode (String.ofList (write (.object d.fields) []))) ∧
    (∀ fs, write (.object fs) [] = '\x7b' :: [','].intercalate
      (fs.map fun f => writeText f.1 [] ++ ':' :: f.2.write []) ++ ['\x7d']) ∧
    (∀ vs, write (.array vs) [] = '[' :: [','].intercalate (vs.map fun v => v.write []) ++ [']']) ∧
    -- The order of names is that of their bytes, and names ascend in every well-formed object.
    (∀ a b : String, a < b ↔ Utf8.encode a < Utf8.encode b) ∧
    (∀ fs, Json.WellFormed (.object fs) →
      fs.Pairwise fun f g => Utf8.encode f.1 < Utf8.encode g.1) ∧
    -- A string is written character by character.
    (∀ s, writeText s [] = '"' :: s.toList.flatMap (fun c => escape c []) ++ ['"']) ∧
    (∀ c, escape c [] = [c] ↔ c ≠ '"' ∧ c ≠ '\\' ∧ 0x20 ≤ c.toNat) ∧
    -- Wherever a value may stand, a number literal is read as its value, and no other text is taken
    -- for a number.
    (∀ l : Literal, l.Valid → ∀ fuel depth rest, Stops rest →
      value (fuel + 1) depth (l.chars ++ rest) = l.value?.map fun v => (v, rest)) ∧
    (∀ cs v rest, number cs = some (v, rest) →
      ∃ l : Literal, l.Valid ∧ cs = l.chars ++ rest ∧ l.value? = some v) ∧
    (∀ (name : String) (l : Literal), l.Valid →
      (∃ n, l.integer? = some n ∧ IsWord n ∧
        decode (spelled name l) = .ok ⟨[(name, .integer n)]⟩) ∨
      ((∀ n, l.integer? = some n → ¬ IsWord n) ∧
        ((∃ x, decode (spelled name l) = .ok ⟨[(name, .double x)]⟩ ∧ x.isFinite = true ∧
            x.negative = l.negative ∧ Decimal.IsNearest l.decimal.value x.rank) ∨
          (decode (spelled name l) = .error (.decode .json) ∧
            Double.halfway (Double.infinityRank - 1) ≤ l.decimal.value)))) := by
  refine ⟨fun d hd => hd.wellFormed, ?_, ?_, ?_, fun d => rfl, write_object, write_array,
    fun a b => Utf8.encode_lt_encode_iff.symm, ?_, writeText_nil, fun c => escape_eq_cons_iff,
    fun l hl fuel depth rest hrest => value_literal hl fuel depth hrest,
    fun cs v rest h => number_cases h, fun name l hl => decode_spelled_cases name hl⟩
  · intro d hd hshallow
    have hfits : d.nesting ≤ maxNesting := hshallow
    rw [decode_encode_eq hd, if_pos hfits]
  · intro d hd hdeep
    have hout : ¬ d.nesting ≤ maxNesting := Nat.not_le.mpr hdeep
    rw [decode_encode_eq hd, if_neg hout]
  · intro bytes d h
    obtain ⟨hd, hshallow⟩ := fits_of_decode h
    refine ⟨hshallow, ?_⟩
    rw [decode_encode_eq hd, if_pos hshallow]
  · intro fs hfs
    have hnames : Fields.Ordered fs := (wellFormed_iff (d := ⟨fs⟩)).mp hfs |>.1
    exact hnames.imp Utf8.encode_lt_of_lt

/-- Documents in documents: `n` levels around an empty one. -/
def nested : Nat → Document
  | 0 => empty
  | n + 1 => empty.setDocument "d" (nested n)

theorem made_nested (n : Nat) : Made (nested n) := by
  induction n with
  | zero => exact .empty
  | succ n ih => exact .document .empty ih "d"

theorem nesting_nested (n : Nat) : (nested n).nesting = n + 1 := by
  induction n with
  | zero => rfl
  | succ n ih =>
    show max (nested n).nesting 0 + 1 = n + 1 + 1
    rw [ih, Nat.max_zero]

/-- 127 levels come back and 128 do not; -0.0 keeps its sign. -/
theorem roundTrip_nested :
    (nested 126).WellFormed ∧ decode (nested 126).encode = .ok (nested 126) ∧
      decode (nested 127).encode = .error (.decode .json) ∧
      value 1 0 ['-', '0', '.', '0'] = some (.double .negativeZero, []) := by
  obtain ⟨hmade, hshallow, hdeep, -, -, -, -, -, -, -, -, hliteral, -, -⟩ := roundTrip
  have hvalid : Literal.Valid ⟨true, ['0'], some ['0'], none⟩ := by
    refine ⟨.inl rfl, ?_, nofun⟩
    intro ds hds
    rw [← Option.some.inj hds]
    exact digits_zero
  refine ⟨hmade _ (made_nested 126), hshallow _ (hmade _ (made_nested 126)) ?_,
    hdeep _ (hmade _ (made_nested 127)) ?_, ?_⟩
  · rw [nesting_nested]
  · rw [nesting_nested]
  · exact hliteral _ hvalid 0 0 [] stops_nil

/-- The literal -0 is read as a double, although its value is an integer of the 64-bit ranges. -/
theorem negativeZero_not_integer :
    decode (spelled "a" ⟨true, ['0'], none, none⟩) = .ok ⟨[("a", .double .negativeZero)]⟩ ∧
    ¬ ∀ l : Literal, l.Valid → l.fraction = none → l.power = none →
      ∀ n : Int, n = (if l.negative then -(ofDigits l.whole : Int) else ofDigits l.whole) →
        IsWord n → decode (spelled "a" l) = .ok ⟨[("a", .integer n)]⟩ := by
  have hvalid : Literal.Valid ⟨true, ['0'], none, none⟩ := ⟨.inl rfl, nofun, nofun⟩
  have hdouble := decode_spelled "a" hvalid
  refine ⟨hdouble, ?_⟩
  intro h
  have hinteger := h _ hvalid rfl rfl 0 rfl (by decide)
  rw [hdouble] at hinteger
  nomatch hinteger

end TopicBus.Document
