import TopicBus.Proofs.Json.Text

/-!
The text of a value. It stands in front of what follows it (`write_eq_append`), and it is compact:
brackets and braces around the parts, commas between them and colons behind names, and nothing else
(`write_array`, `write_object`).
-/

namespace TopicBus.Json

mutual

/-- The text of a value stands in front of what follows it. -/
theorem write_eq_append : ∀ (v : Json) (rest : List Char), v.write rest = v.write [] ++ rest
  | .null, _ => rfl
  | .bool true, _ => rfl
  | .bool false, _ => rfl
  | .integer n, rest => by
    rw [write, write, writeInteger, writeInteger]
    split_ifs
    · rw [List.append_nil, List.cons_append]
    · rw [List.append_nil]
  | .double x, rest => by rw [write, write, List.append_nil]
  | .text s, rest => by rw [write, write, writeText_eq_append]
  | .array [], _ => rfl
  | .array (v :: vs), rest => by
    rw [write, write, write_eq_append v, writeItems_eq_append vs,
      write_eq_append v (writeItems _ _), writeItems_eq_append vs [']']]
    simp only [List.cons_append, List.append_assoc, List.nil_append]
  | .object [], _ => rfl
  | .object ((n, v) :: fs), rest => by
    rw [write, write, writeText_eq_append, write_eq_append v, writeFields_eq_append fs,
      writeText_eq_append n (':' :: write v _), write_eq_append v (writeFields _ _),
      writeFields_eq_append fs ['\x7d']]
    simp only [List.cons_append, List.append_assoc, List.nil_append]

theorem writeItems_eq_append : ∀ (vs : List Json) (rest : List Char),
    writeItems vs rest = writeItems vs [] ++ rest
  | [], _ => rfl
  | v :: vs, rest => by
    rw [writeItems, writeItems, write_eq_append v, writeItems_eq_append vs,
      write_eq_append v (writeItems _ _)]
    simp only [List.cons_append, List.append_assoc]

theorem writeFields_eq_append : ∀ (fs : List (String × Json)) (rest : List Char),
    writeFields fs rest = writeFields fs [] ++ rest
  | [], _ => rfl
  | (n, v) :: fs, rest => by
    rw [writeFields, writeFields, writeText_eq_append, write_eq_append v, writeFields_eq_append fs,
      writeText_eq_append n (':' :: write v _), write_eq_append v (writeFields _ _)]
    simp only [List.cons_append, List.append_assoc]

end

/-! ## Compact form -/

private theorem intercalate_items (cs : List Char) (vs : List Json) :
    [','].intercalate (cs :: vs.map fun v => v.write []) = cs ++ writeItems vs [] := by
  induction vs generalizing cs with
  | nil => rw [List.map_nil, List.intercalate_singleton, writeItems, List.append_nil]
  | cons v vs ih =>
    rw [List.map_cons, List.intercalate_cons_cons, ih, writeItems,
      write_eq_append v (writeItems _ _), List.append_assoc]
    rfl

private theorem intercalate_fields (cs : List Char) (fs : List (String × Json)) :
    [','].intercalate (cs :: fs.map fun f => writeText f.1 [] ++ ':' :: f.2.write []) =
      cs ++ writeFields fs [] := by
  induction fs generalizing cs with
  | nil => rw [List.map_nil, List.intercalate_singleton, writeFields, List.append_nil]
  | cons f fs ih =>
    rw [List.map_cons, List.intercalate_cons_cons, ih, writeFields,
      writeText_eq_append f.1 (':' :: _), write_eq_append f.2 (writeFields _ _)]
    simp only [List.append_assoc, List.cons_append, List.nil_append]

/-- Brackets stand around the items and commas between them. -/
theorem write_array (vs : List Json) :
    write (.array vs) [] = '[' :: [','].intercalate (vs.map fun v => v.write []) ++ [']'] := by
  cases vs with
  | nil => rfl
  | cons v vs =>
    rw [write, List.map_cons, intercalate_items, write_eq_append, writeItems_eq_append,
      List.cons_append, List.append_assoc]

/-- Braces stand around the fields, commas between them and a colon behind each name. -/
theorem write_object (fs : List (String × Json)) :
    write (.object fs) [] = '\x7b' :: [','].intercalate
      (fs.map fun f => writeText f.1 [] ++ ':' :: f.2.write []) ++ ['\x7d'] := by
  cases fs with
  | nil => rfl
  | cons f fs =>
    rw [write, List.map_cons, intercalate_fields, writeText_eq_append, write_eq_append f.2,
      writeFields_eq_append]
    simp only [List.append_assoc, List.cons_append]

/-- Quotes stand around the characters of a string, each written on its own. -/
theorem writeText_nil (s : String) :
    writeText s [] = '"' :: s.toList.flatMap (fun c => escape c []) ++ ['"'] := by
  rw [writeText, foldr_escape_eq_append, List.cons_append]

end TopicBus.Json
