/-!
The command line of the daemon. Flags may stand together behind one dash, and a value may be
attached to its option. All but the listen addresses may be given only once.
-/

namespace TopicBus

structure Arguments where
  foreground : Bool := false
  logLevel : String := "info"
  listen : List String := []
  logsMessages : Bool := false
  /-- Whether small writes may be held back for a moment. -/
  nagle : Bool := false
  settingsFile : Option String := none
  lockFile : Option String := none
  deriving DecidableEq, Repr

/-- What a command line asks for. -/
inductive Command where
  | run (a : Arguments)
  | help
  | version
  | misuse
  deriving DecidableEq, Repr

/-- The options of the command line. -/
inductive Switch where
  | foreground | logLevel | listen | logsMessages | nagle | settingsFile | lockFile | help | version
  deriving DecidableEq, Repr

namespace Switch

def ofLong? : String → Option Switch
  | "foreground" => some .foreground
  | "log-level" => some .logLevel
  | "listen" => some .listen
  | "debug-route" => some .logsMessages
  | "nagle" => some .nagle
  | "config" => some .settingsFile
  | "pid-file" => some .lockFile
  | "help" => some .help
  | "version" => some .version
  | _ => none

def ofShort? : Char → Option Switch
  | 'f' => some .foreground
  | 'l' => some .logLevel
  | 'r' => some .logsMessages
  | 'd' => some .nagle
  | 'c' => some .settingsFile
  | 'h' => some .help
  | 'V' => some .version
  | _ => none

def takesValue : Switch → Bool
  | .logLevel | .listen | .settingsFile | .lockFile => true
  | _ => false

def mayRepeat : Switch → Bool
  | .listen => true
  | _ => false

end Switch

namespace Arguments

/-- A command line that has been read in part: what has been said, and which option still waits for
its value. -/
structure Reading where
  arguments : Arguments
  seen : List Switch
  pending : Option Switch
  /-- Whether two dashes have ended the options. -/
  isClosed : Bool
  deriving Repr

/-- Sets a switch, with the value that it takes. -/
def set (a : Arguments) (s : Switch) (value : String) : Except Command Arguments :=
  match s with
  | .foreground => .ok { a with foreground := true }
  | .logLevel => .ok { a with logLevel := value }
  | .listen => .ok { a with listen := a.listen ++ [value] }
  | .logsMessages => .ok { a with logsMessages := true }
  | .nagle => .ok { a with nagle := true }
  | .settingsFile => .ok { a with settingsFile := some value }
  | .lockFile => if value.isEmpty then .error .misuse else .ok { a with lockFile := some value }
  | .help => .error .help
  | .version => .error .version

namespace Reading

def set (r : Reading) (s : Switch) (value : String) : Except Command Reading :=
  if s ∈ r.seen && !s.mayRepeat then .error .misuse
  else (r.arguments.set s value).map fun a =>
    { r with arguments := a, seen := s :: r.seen, pending := none }

/-- Reads the letters behind one dash. What follows the letter of an option is its value. -/
def readLetters (r : Reading) : List Char → Except Command Reading
  | [] => .ok r
  | c :: rest =>
    match Switch.ofShort? c with
    | none => .error .misuse
    | some s =>
      if s.takesValue then
        match rest with
        | [] => .ok { r with pending := some s }
        | '=' :: value => r.set s (String.ofList value)
        | value => r.set s (String.ofList value)
      else (r.set s "").bind fun r => r.readLetters rest

/-- Reads what stands behind two dashes. -/
def readLong (r : Reading) (cs : List Char) : Except Command Reading :=
  let name := cs.takeWhile (· != '=')
  match Switch.ofLong? (String.ofList name), cs.drop name.length with
  | none, _ => .error .misuse
  | some s, '=' :: value =>
    if s.takesValue then r.set s (String.ofList value) else .error .misuse
  | some s, _ => if s.takesValue then .ok { r with pending := some s } else r.set s ""

/-- Reads one argument. There are no arguments besides the options. -/
def read (r : Reading) (argument : String) : Except Command Reading :=
  if r.isClosed then .error .misuse
  else match r.pending, argument.toList with
    | some _, '-' :: _ :: _ => .error .misuse
    | some s, _ => r.set s argument
    | none, ['-', '-'] => .ok { r with isClosed := true }
    | none, '-' :: '-' :: rest => r.readLong rest
    | none, '-' :: c :: rest => r.readLetters (c :: rest)
    | none, _ => .error .misuse

end Reading

/-- The first argument that asks for help, or cannot be read, settles what is done. -/
def parse (arguments : List String) : Command :=
  match arguments.foldlM Reading.read (⟨{}, [], none, false⟩ : Reading) with
  | .error command => command
  | .ok r => if r.pending.isSome then .misuse else .run r.arguments

end Arguments

end TopicBus
