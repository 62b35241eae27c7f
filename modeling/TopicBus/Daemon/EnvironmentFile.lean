/-!
A file of environment variables: lines `NAME=value`, with `export` in front or not, comments,
quotes, escapes, and the values of other variables put in for `$NAME` and for names in braces.
-/

namespace TopicBus.EnvironmentFile

abbrev Variables := List (String × String)

def isBlank (c : Char) : Bool := c.isWhitespace

def skipBlanks (cs : List Char) : List Char := cs.dropWhile isBlank

def isNameStart (c : Char) : Bool := c.isAlpha || c = '_'

def isNameChar (c : Char) : Bool := c.isAlphanum || c = '_' || c = '.'

def name? (cs : List Char) : Option (String × List Char) :=
  match cs with
  | c :: _ =>
    if isNameStart c then
      let name := cs.takeWhile isNameChar
      some (String.ofList name, cs.drop name.length)
    else none
  | [] => none

/-- How the next character of a value is to be understood. -/
inductive Mode where
  | plain
  | single
  | double
  /-- After a backslash, inside double quotes or not. -/
  | escaped (quoted : Bool)
  /-- In the name of a variable, given in reverse. -/
  | variable (quoted : Bool) (name : List Char)
  | braced (quoted : Bool) (name : List Char)
  /-- After a blank: only a comment may follow. -/
  | ending
  /-- In a comment. -/
  | finished
  deriving Repr

def outside (quoted : Bool) : Mode := if quoted then .double else .plain

/-- The value of a variable, looked up by its reversed name. -/
def substitute (environment : Variables) (name : List Char) : List Char :=
  ((environment.lookup (String.ofList name.reverse)).getD "").toList

/-- Reads one character of a value: the mode after it, and the characters that it adds. -/
def readChar (environment : Variables) (mode : Mode) (c : Char) : Option (Mode × List Char) :=
  match mode with
  | .finished => some (.finished, [])
  | .ending =>
    if c = ' ' || c = '\t' then some (.ending, [])
    else if c = '#' then some (.finished, [])
    else none
  | .escaped quoted =>
    if c ∈ ['\\', '\'', '"', '$', ' '] then some (outside quoted, [c])
    else if c = 'n' then some (outside quoted, ['\n'])
    else none
  | .single => if c = '\'' then some (.plain, []) else some (.single, [c])
  | .variable quoted name =>
    if c.isAlphanum then some (.variable quoted (c :: name), [])
    else if c = '\x7b' && name.isEmpty then some (.braced quoted [], [])
    else if c = '$' then some (.variable quoted [], substitute environment name)
    else some (outside quoted, substitute environment name ++ [c])
  | .braced quoted name =>
    if c = '\x7d' then some (outside quoted, substitute environment name)
    else some (.braced quoted (c :: name), [])
  | .double =>
    if c = '$' then some (.variable true [], [])
    else if c = '"' then some (.plain, [])
    else if c = '\\' then some (.escaped true, [])
    else some (.double, [c])
  | .plain =>
    if c = '$' then some (.variable false [], [])
    else if c = '\'' then some (.single, [])
    else if c = '"' then some (.double, [])
    else if c = '\\' then some (.escaped false, [])
    else if c = ' ' || c = '\t' then some (.ending, [])
    else some (.plain, [c])

/-- Reads a value to its end, where no quote may be open. -/
def readValue (environment : Variables) : Mode → List Char → Option (List Char)
  | .single, [] | .double, [] | .braced _ _, [] | .variable true _, [] | .escaped true, [] => none
  | .variable false name, [] => some (substitute environment name)
  | _, [] => some []
  | mode, c :: rest =>
    match readChar environment mode c with
    | none => none
    | some (mode, added) => (readValue environment mode rest).map (added ++ ·)

/-- What a line says: nothing, or the value of a variable. -/
def line? (environment : Variables) (s : String) : Option (Option (String × String)) :=
  match skipBlanks s.toList with
  | [] | '#' :: _ => some none
  | cs => do
    let (name, rest) ← name? cs
    let (name, rest) ← match name, skipBlanks rest with
      | "export", '=' :: rest => some (name, rest)
      | "export", rest =>
        match name? rest with
        | some (name, rest) =>
          match skipBlanks rest with
          | '=' :: rest => some (name, rest)
          | _ => none
        | none => none
      | _, '=' :: rest => some (name, rest)
      | _, _ => none
    match skipBlanks rest with
    | [] | '#' :: _ => return some (name, "")
    | value => return some (name, String.ofList (← readValue environment .plain value))

/-- Adds the variables of the lines to those that are set already, which stay as they are. The first
line that cannot be read ends the reading. -/
def addLines (environment : Variables) : List String → Variables
  | [] => environment
  | s :: rest =>
    match line? environment s with
    | none => environment
    | some none => addLines environment rest
    | some (some (name, value)) =>
      if (environment.lookup name).isSome then addLines environment rest
      else addLines (environment ++ [(name, value)]) rest

/-- A text without the mark that may stand at its beginning. -/
def dropMark (cs : List Char) : List Char :=
  match cs with
  | '\uFEFF' :: rest => rest
  | _ => cs

/-- Adds the variables of a whole file. -/
def add (environment : Variables) (text : String) : Variables :=
  let lines := (String.ofList (dropMark text.toList)).splitOn "\n"
  addLines environment (lines.map fun s =>
    if s.endsWith "\r" then String.ofList (s.toList.dropLast) else s)

end TopicBus.EnvironmentFile
