import Mathlib.Data.String.Basic
import Mathlib.Tactic.SplitIfs
import TopicBus.Address
import TopicBus.Proofs.Json.Number

/-!
The addresses that are read. `Spells` says which texts name an address, and `Flawed` what is wrong
with any other: every text is the one or the other (`spells_or_flawed`). Parsing follows them, and
an address is written as it was read (`parse_iff_spells`).
-/

namespace TopicBus.Address

open Json (Digits)

/-- Digits behind one plus sign or none, for a number up to 65535. -/
def SpellsPort (port : String) : Prop :=
  ∃ digits, (port.toList = digits ∨ port.toList = '+' :: digits) ∧ Digits digits ∧
    Nat.ofDigitChars 10 digits 0 ≤ 65535

/-- The address that a text names. -/
inductive Spells : String → Address → Prop
  | tcp {host port : String} (hhost : host ≠ "") (hport : SpellsPort port) :
    Spells ("tcp://" ++ host ++ ":" ++ port) (.tcp (host ++ ":" ++ port))
  | unix {path : String} (hpath : path.toList.head? = some '/') :
    Spells ("unix://" ++ path) (.unix path)

/-- Why a text names none. -/
inductive Flawed : String → Misuse → Prop
  | port {rest : String} (hcolon : ':' ∉ rest.toList) :
    Flawed ("tcp://" ++ rest) (.missingPort ("tcp://" ++ rest))
  | host {port : String} (hcolon : ':' ∉ port.toList) :
    Flawed ("tcp://" ++ ":" ++ port) (.missingHost ("tcp://" ++ ":" ++ port))
  | number {host port : String} (hhost : host ≠ "") (hcolon : ':' ∉ port.toList)
      (hport : ¬ SpellsPort port) :
    Flawed ("tcp://" ++ host ++ ":" ++ port) (.invalidPort ("tcp://" ++ host ++ ":" ++ port))
  | path {path : String} (hpath : path.toList.head? ≠ some '/') :
    Flawed ("unix://" ++ path) (.relativePath ("unix://" ++ path))
  | scheme {s : String} (htcp : ∀ rest, s ≠ "tcp://" ++ rest)
      (hunix : ∀ rest, s ≠ "unix://" ++ rest) : Flawed s (.unknownScheme s)

/-! ## The parts -/

theorem stripScheme?_append (scheme rest : String) :
    stripScheme? scheme (scheme ++ rest) = some rest.toList := by
  have hsize : scheme.length = scheme.toList.length := String.length_toList.symm
  simp only [stripScheme?, String.toList_append, hsize, List.take_left, List.drop_left, ↓reduceIte]

theorem stripScheme?_eq_none_iff {scheme s : String} :
    stripScheme? scheme s = none ↔ ∀ rest, s ≠ scheme ++ rest := by
  constructor
  · rintro h rest rfl
    rw [stripScheme?_append] at h
    nomatch h
  · intro h
    unfold stripScheme?
    dsimp only
    split_ifs with hfront
    · refine absurd ?_ (h (String.ofList (s.toList.drop scheme.length)))
      rw [← String.toList_inj, String.toList_append, String.toList_ofList, ← hfront,
        List.take_append_drop]
    · rfl

theorem splitPort?_append (host : List Char) {port : List Char} (h : ':' ∉ port) :
    splitPort? (host ++ ':' :: port) = some (host, port) := by
  have hport : ∀ c ∈ port.reverse, (c != ':') = true := by
    intro c hc
    rw [bne_iff_ne]
    rintro rfl
    exact h (List.mem_reverse.mp hc)
  have hspan : (host ++ ':' :: port).reverse.span (· != ':') =
      (port.reverse, ':' :: host.reverse) := by
    rw [List.span_eq_takeWhile_dropWhile, List.reverse_append, List.reverse_cons,
      List.append_assoc, List.takeWhile_append_of_pos hport, List.dropWhile_append_of_pos hport]
    simp
  rw [splitPort?, hspan]
  simp

theorem splitPort?_of_not_mem {cs : List Char} (h : ':' ∉ cs) : splitPort? cs = none := by
  have hall : ∀ c ∈ cs.reverse, (c != ':') = true := by
    intro c hc
    rw [bne_iff_ne]
    rintro rfl
    exact h (List.mem_reverse.mp hc)
  have hspan : cs.reverse.span (· != ':') = (cs.reverse, []) := by
    have htake : (cs.reverse ++ []).takeWhile (· != ':') = cs.reverse ++ [] :=
      List.takeWhile_append_of_pos hall
    have hnone : (cs.reverse ++ []).dropWhile (· != ':') = [] := List.dropWhile_append_of_pos hall
    rw [List.append_nil] at htake hnone
    rw [List.span_eq_takeWhile_dropWhile, htake, hnone]
  rw [splitPort?, hspan]

/-- A text with a colon is cut at the last one. -/
theorem exists_port {s : String} (h : ':' ∈ s.toList) :
    ∃ host port, s = host ++ ":" ++ port ∧ ':' ∉ port.toList := by
  obtain ⟨port, host, hcut, hport⟩ := List.eq_append_cons_of_mem (List.mem_reverse.mpr h)
  refine ⟨String.ofList host.reverse, String.ofList port.reverse, ?_, ?_⟩
  · rw [← String.toList_inj, ← List.reverse_inj, hcut]
    simp [String.toList_append]
  · rw [String.toList_ofList, List.mem_reverse]
    exact hport

/-- What the digits of a port are asked for. -/
private theorem isNumber_iff {digits : List Char} : (!digits.isEmpty && digits.all Char.isDigit &&
    decide (digits.foldl (fun n c => n * 10 + (c.toNat - '0'.toNat)) 0 ≤ 65535)) = true ↔
      Digits digits ∧ Nat.ofDigitChars 10 digits 0 ≤ 65535 := by
  rw [← Json.ofDigits_eq, Json.ofDigits, Bool.and_eq_true, Bool.and_eq_true, decide_eq_true_eq]
  refine and_congr_left' ⟨?_, ?_⟩
  · rintro ⟨hne, hall⟩
    exact ⟨by simpa using hne, List.all_eq_true.mp hall⟩
  · rintro ⟨hne, hall⟩
    exact ⟨by simpa using hne, List.all_eq_true.mpr hall⟩

theorem isPort_iff {port : String} : isPort port.toList = true ↔ SpellsPort port := by
  unfold SpellsPort isPort
  generalize port.toList = cs
  dsimp only
  split
  · next rest =>
    rw [isNumber_iff]
    constructor
    · exact fun h => ⟨rest, .inr rfl, h⟩
    · rintro ⟨digits, rfl | hsign, h⟩
      · exact absurd (h.1.isDigit '+' List.mem_cons_self) (by decide)
      · rwa [(List.cons.inj hsign).2]
  · next hplain =>
    rw [isNumber_iff]
    constructor
    · exact fun h => ⟨cs, .inl rfl, h⟩
    · rintro ⟨digits, rfl | hsign, h⟩
      · exact h
      · exact absurd hsign (hplain digits)

/-- A port has no colon, so the colon before it is the last one. -/
theorem SpellsPort.not_mem {port : String} (h : SpellsPort port) : ':' ∉ port.toList := by
  obtain ⟨digits, hport, hdigits, -⟩ := h
  have hcolon : ':' ∉ digits := fun hmem => absurd (hdigits.isDigit ':' hmem) (by decide)
  rcases hport with hport | hport
  · rwa [hport]
  · rw [hport, List.mem_cons]
    exact not_or_intro (by decide) hcolon

/-! ## Parsing -/

/-- Behind `tcp://`, the text is cut at its last colon. -/
theorem parse_tcp (host : String) {port : String} (hcolon : ':' ∉ port.toList) :
    parse ("tcp://" ++ host ++ ":" ++ port) =
      if host = "" then .error (.invalidArgument (.missingHost ("tcp://" ++ host ++ ":" ++ port)))
      else if isPort port.toList then .ok (.tcp (host ++ ":" ++ port))
      else .error (.invalidArgument (.invalidPort ("tcp://" ++ host ++ ":" ++ port))) := by
  have hrest : (host ++ ":" ++ port).toList = host.toList ++ ':' :: port.toList := by
    simp [String.toList_append]
  have hstrip := stripScheme?_append "tcp://" (host ++ ":" ++ port)
  rw [← String.append_assoc, ← String.append_assoc] at hstrip
  have hempty : host.toList.isEmpty = true ↔ host = "" := by
    rw [List.isEmpty_iff, String.toList_eq_nil_iff]
  unfold parse
  rw [hstrip]
  dsimp only
  rw [hrest, splitPort?_append host.toList hcolon]
  simp only [hempty]
  rw [← hrest, String.ofList_toList]

theorem stripScheme?_unix (path : String) : stripScheme? "tcp://" ("unix://" ++ path) = none := by
  rw [stripScheme?_eq_none_iff]
  intro rest h
  rw [← String.toList_inj, String.toList_append, String.toList_append] at h
  exact absurd (List.cons.inj h).1 (by decide)

theorem parse_unix (path : String) : parse ("unix://" ++ path) =
    if path.toList.head? = some '/' then .ok (.unix path)
    else .error (.invalidArgument (.relativePath ("unix://" ++ path))) := by
  unfold parse
  rw [stripScheme?_unix, stripScheme?_append]
  dsimp only
  generalize hcs : path.toList = cs
  obtain rfl : path = String.ofList cs := by rw [← hcs, String.ofList_toList]
  split
  · next rest heq =>
    cases heq
    rfl
  · next hno heq =>
    cases heq
    rw [if_neg]
    intro hslash
    obtain ⟨rest, rfl⟩ := List.head?_eq_some_iff.mp hslash
    exact hno rest rfl
  · next heq => nomatch heq

theorem parse_of_spells {s : String} {a : Address} (h : Spells s a) : parse s = .ok a := by
  cases h with
  | @tcp host port hhost hport =>
    rw [parse_tcp host hport.not_mem, if_neg hhost, if_pos (isPort_iff.mpr hport)]
  | unix hpath => rw [parse_unix, if_pos hpath]

theorem parse_of_flawed {s : String} {why : Misuse} (h : Flawed s why) :
    parse s = .error (.invalidArgument why) := by
  cases h with
  | @port rest hcolon =>
    simp only [parse, stripScheme?_append, splitPort?_of_not_mem hcolon]
  | @host port hcolon =>
    have hparse := parse_tcp "" hcolon
    rwa [if_pos rfl, String.append_empty] at hparse
  | @number host port hhost hcolon hport =>
    rw [parse_tcp host hcolon, if_neg hhost, if_neg (mt isPort_iff.mp hport)]
  | path hpath => rw [parse_unix, if_neg hpath]
  | scheme htcp hunix =>
    simp only [parse, stripScheme?_eq_none_iff.mpr htcp, stripScheme?_eq_none_iff.mpr hunix]

/-- Every text names an address or is wrong in one way. -/
theorem spells_or_flawed (s : String) : (∃ a, Spells s a) ∨ ∃ why, Flawed s why := by
  by_cases htcp : ∃ rest, s = "tcp://" ++ rest
  · obtain ⟨rest, rfl⟩ := htcp
    by_cases hcolon : ':' ∈ rest.toList
    · obtain ⟨host, port, rfl, hlast⟩ := exists_port hcolon
      rw [← String.append_assoc, ← String.append_assoc]
      by_cases hhost : host = ""
      · subst hhost
        exact .inr ⟨_, .host hlast⟩
      · by_cases hport : SpellsPort port
        · exact .inl ⟨_, .tcp hhost hport⟩
        · exact .inr ⟨_, .number hhost hlast hport⟩
    · exact .inr ⟨_, .port hcolon⟩
  · by_cases hunix : ∃ path, s = "unix://" ++ path
    · obtain ⟨path, rfl⟩ := hunix
      by_cases hpath : path.toList.head? = some '/'
      · exact .inl ⟨_, .unix hpath⟩
      · exact .inr ⟨_, .path hpath⟩
    · exact .inr ⟨_, .scheme (not_exists.mp htcp) (not_exists.mp hunix)⟩

theorem spells_of_parse {s : String} {a : Address} (h : parse s = .ok a) : Spells s a := by
  rcases spells_or_flawed s with ⟨b, hb⟩ | ⟨why, hwhy⟩
  · rw [parse_of_spells hb] at h
    rwa [← Except.ok.inj h]
  · rw [parse_of_flawed hwhy] at h
    nomatch h

theorem flawed_of_parse {s : String} {why : Fault} (h : parse s = .error why) :
    ∃ misuse, Flawed s misuse ∧ why = .invalidArgument misuse := by
  rcases spells_or_flawed s with ⟨a, ha⟩ | ⟨misuse, hmisuse⟩
  · rw [parse_of_spells ha] at h
    nomatch h
  · rw [parse_of_flawed hmisuse] at h
    exact ⟨misuse, hmisuse, (Except.error.inj h).symm⟩

theorem text_of_spells {s : String} {a : Address} (h : Spells s a) : a.text = s := by
  cases h with
  | tcp => rw [text, ← String.append_assoc, ← String.append_assoc]
  | unix => rfl

/-- A text is read as an address if and only if it names it, and the address is written as that
text, which is read as the same address again. A text that names none is refused as an invalid
argument, for the reason that it has. -/
theorem parse_iff_spells (s : String) :
    (∀ a, parse s = .ok a ↔ Spells s a) ∧
    (∀ a, parse s = .ok a → a.text = s ∧ parse a.text = .ok a) ∧
    (∀ why, parse s = .error why ↔ ∃ misuse, Flawed s misuse ∧ why = .invalidArgument misuse) ∧
    ((¬ ∃ a, Spells s a) → ∃ misuse, parse s = .error (.invalidArgument misuse)) := by
  refine ⟨fun a => ⟨spells_of_parse, parse_of_spells⟩, fun a h => ?_,
    fun why => ⟨flawed_of_parse, ?_⟩, fun hnone => ?_⟩
  · have htext := text_of_spells (spells_of_parse h)
    rw [htext]
    exact ⟨rfl, h⟩
  · rintro ⟨misuse, hmisuse, rfl⟩
    exact parse_of_flawed hmisuse
  · rcases spells_or_flawed s with hspells | ⟨misuse, hmisuse⟩
    · exact absurd hspells hnone
    · exact ⟨misuse, parse_of_flawed hmisuse⟩

/-- Colons inside the host, a sign and leading zeros are kept. -/
example : parse "tcp://[::1]:+0065535" = .ok (.tcp "[::1]:+0065535") ∧
    parse "tcp://[::1]:65536" = .error (.invalidArgument (.invalidPort "tcp://[::1]:65536")) := by
  decide

end TopicBus.Address
