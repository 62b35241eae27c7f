import TopicBus.Decimal.Nearest
import TopicBus.Json.Parser
import TopicBus.Settings.Value

/-!
TOML: lines that open a table or assign to a key, with comments. Strings, integers, floats, truth
values, arrays and inline tables are read; dates are not. A name may be given only once.
-/

namespace TopicBus.Toml

/-! ## Characters -/

def isSpace (c : Char) : Bool := c = ' ' || c = Char.ofNat 9

def skipSpaces (cs : List Char) : List Char := cs.dropWhile isSpace

def isControl (c : Char) : Bool := (c.toNat < 0x20 && c != Char.ofNat 9) || c = Char.ofNat 0x7F

/-- A line break at the front. -/
def newline? : List Char → Option (List Char)
  | '\n' :: rest => some rest
  | '\r' :: '\n' :: rest => some rest
  | _ => none

/-- What follows a comment up to its line break, if there is a comment. -/
def skipComment : List Char → Option (List Char)
  | '#' :: rest =>
    let body := rest.takeWhile (· != '\n')
    let after := rest.drop body.length
    match body.reverse with
    | '\r' :: text => if text.any isControl || after.isEmpty then none else some ('\r' :: after)
    | text => if text.any isControl then none else some after
  | cs => some cs

/-- The end of a line: spaces, a comment, and a line break or the end of the text. -/
def endLine (cs : List Char) : Option (List Char) :=
  match skipComment (skipSpaces cs) with
  | none => none
  | some [] => some []
  | some rest => newline? rest

/-- Skips spaces, line breaks and comments. -/
def skipLines : Nat → List Char → Option (List Char)
  | 0, cs => some cs
  | fuel + 1, cs =>
    match skipComment (skipSpaces cs) with
    | none => none
    | some rest =>
      match newline? rest with
      | some rest => skipLines fuel rest
      | none => some rest

/-! ## Strings -/

def hexNumber? (ds : List Char) : Option Nat :=
  ds.foldl (fun n d => match n, Json.hexValue? d with
    | some n, some d => some (n * 16 + d)
    | _, _ => none) (some 0)

/-- The character of a code point. -/
def scalar? (n : Nat) : Option Char := if n.isValidChar then some (Char.ofNat n) else none

/-- The character behind a backslash. -/
def unescape : List Char → Option (Char × List Char)
  | 'b' :: rest => some (Char.ofNat 8, rest)
  | 't' :: rest => some (Char.ofNat 9, rest)
  | 'n' :: rest => some (Char.ofNat 10, rest)
  | 'f' :: rest => some (Char.ofNat 12, rest)
  | 'r' :: rest => some (Char.ofNat 13, rest)
  | '"' :: rest => some ('"', rest)
  | '\\' :: rest => some ('\\', rest)
  | 'u' :: rest =>
    if rest.length < 4 then none
    else ((hexNumber? (rest.take 4)).bind scalar?).map (·, rest.drop 4)
  | 'U' :: rest =>
    if rest.length < 8 then none
    else ((hexNumber? (rest.take 8)).bind scalar?).map (·, rest.drop 8)
  | _ => none

/-- A string on one line up to its closing quote, those read so far given in reverse. -/
def quoted : Nat → List Char → List Char → Option (String × List Char)
  | 0, _, _ => none
  | fuel + 1, seen, cs =>
    match cs with
    | '"' :: rest => some (String.ofList seen.reverse, rest)
    | '\\' :: rest =>
      match unescape rest with
      | some (c, rest) => quoted fuel (c :: seen) rest
      | none => none
    | c :: rest => if isControl c then none else quoted fuel (c :: seen) rest
    | [] => none

def literal (seen : List Char) : List Char → Option (String × List Char)
  | '\'' :: rest => some (String.ofList seen.reverse, rest)
  | c :: rest => if isControl c then none else literal (c :: seen) rest
  | [] => none

/-- The end of a string over several lines: three quotes, before which two more may belong to it. -/
def closing? (quote : Char) (cs : List Char) : Option (List Char × List Char) :=
  let quotes := cs.takeWhile (· == quote)
  if 3 ≤ quotes.length ∧ quotes.length ≤ 5 then
    some (quotes.drop 3, cs.drop quotes.length)
  else none

/-- A string over several lines, in which `escapes` are read or not. -/
def lines (quote : Char) (escapes : Bool) :
    Nat → List Char → List Char → Option (String × List Char)
  | 0, _, _ => none
  | fuel + 1, seen, cs =>
    match closing? quote cs with
    | some (extra, rest) => some (String.ofList (seen.reverse ++ extra), rest)
    | none =>
      match newline? cs with
      | some rest => lines quote escapes fuel ('\n' :: seen) rest
      | none =>
        match cs with
        | [] => none
        | c :: rest =>
          if escapes && c = '\\' then
            match newline? (skipSpaces rest) with
            | some rest =>
              lines quote escapes fuel seen
                (rest.dropWhile fun c => isSpace c || c = '\n' || c = '\r')
            | none =>
              match unescape rest with
              | some (c, rest) => lines quote escapes fuel (c :: seen) rest
              | none => none
          else if isControl c then none
          else lines quote escapes fuel (c :: seen) rest

/-- A line break right behind the opening quotes does not count. -/
def dropFirstBreak (cs : List Char) : List Char := (newline? cs).getD cs

def string? (cs : List Char) : Option (String × List Char) :=
  let fuel := cs.length + 1
  match cs with
  | '"' :: '"' :: '"' :: rest => lines '"' true fuel [] (dropFirstBreak rest)
  | '\'' :: '\'' :: '\'' :: rest => lines '\'' false fuel [] (dropFirstBreak rest)
  | '"' :: rest => quoted fuel [] rest
  | '\'' :: rest => literal [] rest
  | _ => none

/-! ## Keys -/

def isBareChar (c : Char) : Bool := c.isAlphanum || c = '_' || c = '-'

def simpleKey (cs : List Char) : Option (String × List Char) :=
  match cs with
  | '"' :: '"' :: '"' :: _ | '\'' :: '\'' :: '\'' :: _ => none
  | '"' :: _ | '\'' :: _ => string? cs
  | _ =>
    match cs.takeWhile isBareChar with
    | [] => none
    | name => some (String.ofList name, cs.drop name.length)

/-- A key: names with dots between them. -/
def key : Nat → List Char → Option (List String × List Char)
  | 0, _ => none
  | fuel + 1, cs =>
    match simpleKey cs with
    | none => none
    | some (name, rest) =>
      match skipSpaces rest with
      | '.' :: rest => (key fuel (skipSpaces rest)).map fun (names, rest) => (name :: names, rest)
      | rest => some ([name], rest)

/-! ## Numbers -/

/-- Digits with single underscores between them. -/
def digits? (isDigit : Char → Bool) : List Char → Option (List Char)
  | [] => none
  | [c] => if isDigit c then some [c] else none
  | c :: '_' :: rest => if isDigit c then (digits? isDigit rest).map (c :: ·) else none
  | c :: rest => if isDigit c then (digits? isDigit rest).map (c :: ·) else none

def radixNumber? (radix : Nat) (cs : List Char) : Option Nat :=
  let isDigit (c : Char) : Bool := match Json.hexValue? c with
    | some d => d < radix
    | none => false
  (digits? isDigit cs).map fun ds =>
    ds.foldl (fun n c => n * radix + (Json.hexValue? c).getD 0) 0

/-- Decimal digits without a zero in front. -/
def whole? (cs : List Char) : Option (List Char) :=
  match digits? Char.isDigit cs with
  | some ('0' :: _ :: _) => none
  | ds => ds

def signed (cs : List Char) : Bool × List Char :=
  match cs with
  | '-' :: rest => (true, rest)
  | '+' :: rest => (false, rest)
  | _ => (false, cs)

def integer? (cs : List Char) : Option Int :=
  let magnitude : Option Int := match cs with
    | '0' :: 'x' :: ds => (radixNumber? 16 ds).map Int.ofNat
    | '0' :: 'o' :: ds => (radixNumber? 8 ds).map Int.ofNat
    | '0' :: 'b' :: ds => (radixNumber? 2 ds).map Int.ofNat
    | _ =>
      let (negative, ds) := signed cs
      (whole? ds).map fun ds =>
        let n : Int := Json.ofDigits ds
        if negative then -n else n
  magnitude.bind fun n => if -0x8000000000000000 ≤ n ∧ n < 0x8000000000000000 then some n else none

def exponent? (cs : List Char) : Option Int :=
  let (negative, ds) := signed cs
  (digits? Char.isDigit ds).map fun ds =>
    let n : Int := Json.ofDigits ds
    if negative then -n else n

def float? (cs : List Char) : Option Double :=
  let (negative, cs) := signed cs
  match cs with
  | ['i', 'n', 'f'] => some (.infinity negative)
  | ['n', 'a', 'n'] => some .nan
  | _ =>
    let mantissa := cs.takeWhile fun c => c != 'e' && c != 'E'
    let power := cs.drop (mantissa.length + 1)
    let left := mantissa.takeWhile (· != '.')
    let right := mantissa.drop (left.length + 1)
    let fraction := if left.length = mantissa.length then some [] else digits? Char.isDigit right
    let exponent := if mantissa.length = cs.length then some 0 else exponent? power
    match whole? left, fraction, exponent with
    | some left, some fraction, some exponent =>
      if left.length = mantissa.length && mantissa.length = cs.length then none
      else Decimal.toDouble? negative
        ⟨Json.ofDigits (left ++ fraction), exponent - fraction.length⟩
    | _, _, _ => none

def isTokenChar (c : Char) : Bool := c.isAlphanum || c = '_' || c = '-' || c = '+' || c = '.'

/-- A truth value or a number. -/
def token? (cs : List Char) : Option (Setting × List Char) :=
  let token := cs.takeWhile isTokenChar
  let rest := cs.drop token.length
  let value : Option Setting := match token with
    | ['t', 'r', 'u', 'e'] => some (.bool true)
    | ['f', 'a', 'l', 's', 'e'] => some (.bool false)
    | _ =>
      match integer? token with
      | some n => some (.integer n)
      | none => (float? token).map .double
  value.map (·, rest)

/-! ## Tables under construction -/

/-- How a table came to be: as part of the path to another, by its own line, or by a dotted key. -/
inductive Origin where
  | implied
  | opened
  | dotted
  deriving DecidableEq, Repr

inductive Branch where
  | leaf (value : Setting)
  | table (origin : Origin) (children : List (String × Branch))
  /-- An array of tables, of which the last may still grow. -/
  | tables (items : List (List (String × Branch)))
  deriving Repr, Inhabited

namespace Branch

mutual

def toSetting : Branch → Setting
  | .leaf v => v
  | .table _ children => .table (toFields children)
  | .tables items => .list (toTables items)

def toFields : List (String × Branch) → List (String × Setting)
  | [] => []
  | (n, b) :: rest => (n, toSetting b) :: toFields rest

def toTables : List (List (String × Branch)) → List Setting
  | [] => []
  | children :: rest => .table (toFields children) :: toTables rest

end

def replace (name : String) (b : Branch) : List (String × Branch) → List (String × Branch)
  | [] => [(name, b)]
  | (n, c) :: rest => if n = name then (n, b) :: rest else (n, c) :: replace name b rest

/-- Changes the table to which a path leads; tables on the way are made. Dotted keys may only extend
what dotted keys have made. -/
def changeAt (dotted : Bool) (f : List (String × Branch) → Option (List (String × Branch))) :
    List String → List (String × Branch) → Option (List (String × Branch))
  | [], children => f children
  | name :: rest, children =>
    match children.lookup name with
    | none =>
      let origin : Origin := if dotted then .dotted else .implied
      (changeAt dotted f rest []).map fun sub => children ++ [(name, .table origin sub)]
    | some (.leaf _) => none
    | some (.table origin sub) =>
      let allowed := !dotted || origin = .dotted || (origin = .implied && !rest.isEmpty)
      if allowed then
        (changeAt dotted f rest sub).map fun sub => replace name (.table origin sub) children
      else none
    | some (.tables items) =>
      if dotted then none
      else match items.getLast? with
        | none => none
        | some last =>
          (changeAt dotted f rest last).map fun last =>
            replace name (.tables (items.dropLast ++ [last])) children

/-- The table that a path names, without its last name, and that name. -/
def splitLast : List String → Option (List String × String)
  | [] => none
  | names => names.getLast?.map (names.dropLast, ·)

/-- Assigns a value to a key of a table. -/
def assign (names : List String) (value : Setting) (children : List (String × Branch)) :
    Option (List (String × Branch)) :=
  match splitLast names with
  | none => none
  | some (path, name) =>
    changeAt true (fun inner =>
      if (inner.lookup name).isSome then none
      else some (inner ++ [(name, .leaf value)])) path children

def openTable (names : List String) (children : List (String × Branch)) :
    Option (List (String × Branch)) :=
  match splitLast names with
  | none => none
  | some (path, name) =>
    changeAt false (fun inner =>
      match inner.lookup name with
      | none => some (inner ++ [(name, .table .opened [])])
      | some (.table .implied sub) => some (replace name (.table .opened sub) inner)
      | _ => none) path children

def openItem (names : List String) (children : List (String × Branch)) :
    Option (List (String × Branch)) :=
  match splitLast names with
  | none => none
  | some (path, name) =>
    changeAt false (fun inner =>
      match inner.lookup name with
      | none => some (inner ++ [(name, .tables [[]])])
      | some (.tables items) => some (replace name (.tables (items ++ [[]])) inner)
      | _ => none) path children

end Branch

/-! ## Values -/

mutual

def value : Nat → List Char → Option (Setting × List Char)
  | 0, _ => none
  | fuel + 1, cs =>
    match cs with
    | '"' :: _ | '\'' :: _ => (string? cs).map fun (s, rest) => (.text s, rest)
    | '[' :: rest => items fuel [] rest
    | '\x7b' :: rest =>
      match skipSpaces rest with
      | '\x7d' :: rest => some (.table [], rest)
      | rest => members fuel [] rest
    | _ => token? cs

/-- The items of an array up to its bracket, those read so far given in reverse. -/
def items : Nat → List Setting → List Char → Option (Setting × List Char)
  | 0, _, _ => none
  | fuel + 1, seen, cs =>
    match skipLines fuel cs with
    | none => none
    | some (']' :: rest) => some (.list seen.reverse, rest)
    | some rest =>
      match value fuel rest with
      | none => none
      | some (v, rest) =>
        match skipLines fuel rest with
        | some (',' :: rest) => items fuel (v :: seen) rest
        | some (']' :: rest) => some (.list (v :: seen).reverse, rest)
        | _ => none

/-- The members of an inline table up to its brace. -/
def members : Nat → List (String × Branch) → List Char → Option (Setting × List Char)
  | 0, _, _ => none
  | fuel + 1, seen, cs =>
    match key fuel (skipSpaces cs) with
    | some (names, '=' :: rest) =>
      match value fuel (skipSpaces rest) with
      | none => none
      | some (v, rest) =>
        match Branch.assign names v seen with
        | none => none
        | some seen =>
          match skipSpaces rest with
          | ',' :: rest => members fuel seen rest
          | '\x7d' :: rest => some (.table (Branch.toFields seen), rest)
          | _ => none
    | _ => none

end

/-! ## Lines -/

inductive Line where
  | opensTable (path : List String)
  | opensItem (path : List String)
  | assigns (path : List String) (value : Setting)
  deriving Repr

/-- A line that is not blank, up to its line break. -/
def line (fuel : Nat) (cs : List Char) : Option (Line × List Char) :=
  match cs with
  | '[' :: '[' :: rest =>
    match key fuel (skipSpaces rest) with
    | some (names, ']' :: ']' :: rest) => some (.opensItem names, rest)
    | _ => none
  | '[' :: rest =>
    match key fuel (skipSpaces rest) with
    | some (names, ']' :: rest) => some (.opensTable names, rest)
    | _ => none
  | _ =>
    match key fuel cs with
    | some (names, '=' :: rest) =>
      (value fuel (skipSpaces rest)).map fun (v, rest) => (.assigns names v, rest)
    | _ => none

/-- A document under construction, and the table that is open. -/
structure Draft where
  root : List (String × Branch)
  current : List String

def Draft.add (d : Draft) : Line → Option Draft
  | .opensTable path => (Branch.openTable path d.root).map (⟨·, path⟩)
  | .opensItem path => (Branch.openItem path d.root).map (⟨·, path⟩)
  | .assigns path v =>
    (Branch.changeAt false (Branch.assign path v) d.current d.root).map (⟨·, d.current⟩)

def document : Nat → Nat → Draft → List Char → Option Draft
  | 0, _, _, _ => none
  | fuel + 1, depth, d, cs =>
    match skipLines depth cs with
    | none => none
    | some [] => some d
    | some rest =>
      match line depth rest with
      | none => none
      | some (l, rest) =>
        match d.add l, endLine rest with
        | some d, some rest => document fuel depth d rest
        | _, _ => none

/-- The fields of a document. Every step reads a character, which pays the fuel. -/
def parse (s : String) : Option (List (String × Setting)) :=
  let cs := s.toList
  (document (cs.length + 1) (cs.length + 2) ⟨[], []⟩ cs).map fun d => Branch.toFields d.root

end TopicBus.Toml
