import TopicBus.Proofs.Json.RoundTrip

/-!
Objects in any layout. The members stand in an order of their own, a name may stand more than once,
and blanks stand around every part. The parser inserts the members from left to right
(`parse_chars`).
-/

namespace TopicBus.Json

/-! ## Blanks -/

/-- Spaces, tabs and the ends of lines. -/
def Blanks (cs : List Char) : Prop := ∀ c ∈ cs, c = ' ' ∨ c = '\t' ∨ c = '\n' ∨ c = '\r'

instance (cs : List Char) : Decidable (Blanks cs) :=
  List.decidableBAll (fun c => c = ' ' ∨ c = '\t' ∨ c = '\n' ∨ c = '\r') cs

theorem Blanks.isBlank {cs : List Char} (h : Blanks cs) : ∀ c ∈ cs, isBlank c = true := by
  intro c hc
  rcases h c hc with rfl | rfl | rfl | rfl
  all_goals rfl

theorem skipBlanks_append {cs : List Char} (h : Blanks cs) (rest : List Char) :
    skipBlanks (cs ++ rest) = skipBlanks rest :=
  List.dropWhile_append_of_pos h.isBlank

theorem stops_append {cs rest : List Char} (h : Blanks cs) (hrest : Stops rest) :
    Stops (cs ++ rest) := by
  cases cs with
  | nil => exact hrest
  | cons c cs =>
    refine stops_cons.mpr ?_
    rcases h c List.mem_cons_self with rfl | rfl | rfl | rfl
    all_goals decide

/-! ## Members -/

/-- A member of an object with the blanks around its parts. -/
structure Member where
  name : String
  value : Json
  beforeName : List Char
  behindName : List Char
  beforeValue : List Char
  behindValue : List Char
  deriving Repr

namespace Member

/-- The value fits into an object, and only blanks stand around the parts. -/
structure Proper (m : Member) : Prop where
  value : m.value.WellFormed
  nesting : m.value.nesting ≤ 126
  beforeName : Blanks m.beforeName
  behindName : Blanks m.behindName
  beforeValue : Blanks m.beforeValue
  behindValue : Blanks m.behindValue

/-- Name and value as the printer spells them, in front of what follows. -/
def write (m : Member) (rest : List Char) : List Char :=
  m.beforeName ++ writeText m.name
    (m.behindName ++ ':' :: (m.beforeValue ++ m.value.write (m.behindValue ++ rest)))

/-- The members after the first, each behind its comma. -/
def writeLater : List Member → List Char → List Char
  | [], rest => rest
  | m :: ms, rest => ',' :: m.write (writeLater ms rest)

/-- What the members leave, inserted from left to right. -/
def insertAll (seen : List (String × Json)) (ms : List Member) : List (String × Json) :=
  ms.foldl (fun fields m => Fields.insert m.name m.value fields) seen

theorem write_eq_append (m : Member) (rest : List Char) : m.write rest = m.write [] ++ rest := by
  rw [write, write, Json.write_eq_append m.value, Json.write_eq_append m.value (_ ++ []),
    writeText_eq_append, writeText_eq_append m.name (_ ++ ':' :: (_ ++ (_ ++ (_ ++ []))))]
  simp only [List.append_assoc, List.cons_append, List.nil_append]

theorem intercalate_append (m : Member) (ms : List Member) (rest : List Char) :
    [','].intercalate (m.write [] :: ms.map fun k => k.write []) ++ rest =
      m.write (writeLater ms rest) := by
  induction ms generalizing m with
  | nil => rw [List.map_nil, List.intercalate_singleton, writeLater, ← write_eq_append]
  | cons k ks ih =>
    rw [List.map_cons, List.intercalate_cons_cons, List.append_assoc, List.append_assoc, ih,
      writeLater, write_eq_append m (',' :: _)]
    rfl

variable {m : Member} {ms : List Member}

theorem Proper.skipBlanks_write (h : m.Proper) (rest : List Char) :
    skipBlanks (m.write rest) = writeText m.name
      (m.behindName ++ ':' :: (m.beforeValue ++ m.value.write (m.behindValue ++ rest))) := by
  rw [write, skipBlanks_append h.beforeName, writeText, skipBlanks_cons rfl]

theorem Proper.skipBlanks_colon (h : m.Proper) (rest : List Char) :
    skipBlanks (m.behindName ++ ':' :: rest) = ':' :: rest := by
  rw [skipBlanks_append h.behindName, skipBlanks_cons rfl]

theorem Proper.skipBlanks_behind (h : m.Proper) {c : Char} (hc : Json.isBlank c = false)
    (rest : List Char) : skipBlanks (m.behindValue ++ c :: rest) = c :: rest := by
  rw [skipBlanks_append h.behindValue, skipBlanks_cons hc]

/-- The text behind a value is shorter than that of the member by more than a character. -/
theorem Proper.length_lt_write (h : m.Proper) (rest : List Char) :
    (m.value.write (m.behindValue ++ rest)).length + 1 < (m.write rest).length ∧
      rest.length + 2 < (m.write rest).length := by
  have hname := length_lt_writeText m.name
    (m.behindName ++ ':' :: (m.beforeValue ++ m.value.write (m.behindValue ++ rest)))
  have hvalue := Json.length_lt_write h.value (m.behindValue ++ rest)
  rw [List.length_append] at hvalue
  rw [List.length_append, List.length_cons, List.length_append] at hname
  rw [write, List.length_append]
  omega

/-- The value of a member is read, whatever blanks stand around it. -/
theorem Proper.value_eq (h : m.Proper) {fuel : Nat} {rest : List Char} (hrest : Stops rest)
    (hfuel : 2 * (m.write rest).length ≤ fuel + 1) :
    Json.value fuel 126 (skipBlanks (m.beforeValue ++ m.value.write (m.behindValue ++ rest))) =
      some (m.value, m.behindValue ++ rest) := by
  have hlength := h.length_lt_write rest
  rw [skipBlanks_append h.beforeValue, Json.skipBlanks_write h.value,
    reads_of_wellFormed h.value fuel 126 _ (stops_append h.behindValue hrest) (by omega),
    if_pos h.nesting]

/-- The members up to the brace are inserted one after the other. -/
theorem members_writeLater (h : ∀ k ∈ m :: ms, k.Proper) {fuel : Nat}
    {seen : List (String × Json)} {rest : List Char}
    (hfuel : 2 * (m.write (writeLater ms ('\x7d' :: rest))).length ≤ fuel) :
    members fuel 126 seen (skipBlanks (m.write (writeLater ms ('\x7d' :: rest)))) =
      some (.object (insertAll seen (m :: ms)), rest) := by
  induction ms generalizing m seen fuel with
  | nil =>
    have hm : m.Proper := h m List.mem_cons_self
    have hlength := hm.length_lt_write ('\x7d' :: rest)
    rw [writeLater] at hfuel ⊢
    obtain ⟨fuel, rfl⟩ := Nat.exists_eq_add_one_of_ne_zero (n := fuel) (by omega)
    have hvalue := hm.value_eq (stops_cons.mpr (by decide)) hfuel
    rw [hm.skipBlanks_write, writeText]
    exact members_of_brace (textBody_writeText _ _) (hm.skipBlanks_colon _) hvalue
      (hm.skipBlanks_behind rfl rest)
  | cons k ks ih =>
    have hm : m.Proper := h m List.mem_cons_self
    have hlater : ∀ j ∈ k :: ks, j.Proper := fun j hj => h j (List.mem_cons_of_mem m hj)
    have hlength := hm.length_lt_write (writeLater (k :: ks) ('\x7d' :: rest))
    rw [writeLater] at hfuel hlength ⊢
    obtain ⟨fuel, rfl⟩ := Nat.exists_eq_add_one_of_ne_zero (n := fuel) (by omega)
    have hvalue := hm.value_eq (stops_cons.mpr (by decide)) hfuel
    -- The member is longer than what follows it, which pays for the call that reads the next one.
    rw [List.length_cons] at hlength
    rw [hm.skipBlanks_write, writeText, members_of_comma (textBody_writeText _ _)
      (hm.skipBlanks_colon _) hvalue (hm.skipBlanks_behind rfl _), ih hlater (by omega)]
    rfl

end Member

/-! ## Objects -/

/-- The text of an object: its members and the blanks around its braces. -/
structure ObjectText where
  before : List Char
  opening : List Char
  members : List Member
  behind : List Char
  deriving Repr

namespace ObjectText

structure Proper (t : ObjectText) : Prop where
  before : Blanks t.before
  opening : Blanks t.opening
  members : ∀ m ∈ t.members, m.Proper
  behind : Blanks t.behind

def chars (t : ObjectText) : List Char :=
  t.before ++ '\x7b' :: (t.opening ++ ([','].intercalate (t.members.map fun m => m.write []) ++
    '\x7d' :: t.behind))

/-- The names and values in the order of the text. -/
def entries (t : ObjectText) : List (String × Json) := t.members.map fun m => (m.name, m.value)

theorem insertAll_eq_ofList (t : ObjectText) :
    Member.insertAll [] t.members = Fields.ofList t.entries := by
  rw [Member.insertAll, Fields.ofList, entries, List.foldl_map]

variable {fuel depth : Nat} {cs rest : List Char}

theorem value_of_brace (h : skipBlanks cs = '\x7d' :: rest) :
    value (fuel + 1) (depth + 1) ('\x7b' :: cs) = some (.object [], rest) := by
  simp only [value, h]

theorem value_of_quote (h : skipBlanks cs = '"' :: rest) :
    value (fuel + 1) (depth + 1) ('\x7b' :: cs) = Json.members fuel depth [] ('"' :: rest) := by
  simp only [value, h]
  rfl

/-- Whatever the layout, the members are inserted from left to right. -/
theorem parse_chars {t : ObjectText} (h : t.Proper) :
    parse t.chars = some (.object (Fields.ofList t.entries)) := by
  have hbehind : skipBlanks t.behind = [] := by
    rw [← List.append_nil t.behind, skipBlanks_append h.behind]
    rfl
  suffices hvalue : value (2 * t.chars.length + 2) maxNesting (skipBlanks t.chars) =
      some (.object (Fields.ofList t.entries), t.behind) by
    rw [parse, hvalue]
    simp only [hbehind, List.isEmpty_nil, ↓reduceIte]
  rw [← insertAll_eq_ofList, chars, skipBlanks_append h.before, skipBlanks_cons rfl]
  cases hmembers : t.members with
  | nil =>
    refine value_of_brace ?_
    rw [skipBlanks_append h.opening]
    rfl
  | cons m ms =>
    have hall : ∀ k ∈ m :: ms, k.Proper := hmembers ▸ h.members
    have hm : m.Proper := hall m List.mem_cons_self
    rw [List.map_cons, Member.intercalate_append, List.length_append, List.length_cons,
      List.length_append]
    have hquote := hm.skipBlanks_write (Member.writeLater ms ('\x7d' :: t.behind))
    rw [← skipBlanks_append h.opening, writeText] at hquote
    rw [maxNesting, value_of_quote hquote, ← writeText, ← hm.skipBlanks_write]
    exact Member.members_writeLater hall (by omega)

end ObjectText

end TopicBus.Json
