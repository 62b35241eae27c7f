/-!
Which log lines are shown. A filter is a list of directives, each a target, a level, or both; the
directive with the longest target that a line's target begins with decides.
-/

namespace TopicBus

inductive LogLevel where
  | error | warn | info | debug | trace
  deriving DecidableEq, Repr

namespace LogLevel

def text : LogLevel → String
  | .error => "ERROR"
  | .warn => "WARN"
  | .info => "INFO"
  | .debug => "DEBUG"
  | .trace => "TRACE"

/-- How much a level lets through; nothing at all is 0. -/
def verbosity : LogLevel → Nat
  | .error => 1
  | .warn => 2
  | .info => 3
  | .debug => 4
  | .trace => 5

/-- The level named on the command line; one that means nothing counts as `info`. -/
def ofName (name : String) : LogLevel :=
  match name.map Char.toLower with
  | "error" | "fatal" => .error
  | "warn" | "warning" => .warn
  | "debug" => .debug
  | "trace" => .trace
  | _ => .info

end LogLevel

/-- One rule of a filter; the empty target is that of every line. -/
structure Directive where
  target : String
  verbosity : Nat
  deriving DecidableEq, Repr

structure LogFilter where
  directives : List Directive
  deriving Repr

namespace LogFilter

def ofLevel (level : LogLevel) : LogFilter := ⟨[⟨"", level.verbosity⟩]⟩

def verbosity? (s : String) : Option Nat :=
  match s.map Char.toLower with
  | "off" | "0" => some 0
  | "error" | "1" => some 1
  | "warn" | "2" => some 2
  | "info" | "3" => some 3
  | "debug" | "4" => some 4
  | "trace" | "5" => some 5
  | _ => none

def isTargetChar (c : Char) : Bool := c.isAlphanum || c = '_' || c = ':' || c = '-'

/-- The target of a directive, whether it speaks of spans, and what follows. -/
def target? (cs : List Char) : Option (String × Bool × List Char) :=
  let name := cs.takeWhile isTargetChar
  match cs.drop name.length with
  | '[' :: rest =>
    let span := rest.takeWhile (· != ']')
    match rest.drop span.length with
    | ']' :: rest => some (String.ofList name, true, rest)
    | _ => none
  | rest => if name.isEmpty then none else some (String.ofList name, false, rest)

/-- A directive; there are no spans, so one that speaks of them says nothing. A target alone lets
everything through. -/
def directive? (s : String) : Option (Option Directive) :=
  match verbosity? s with
  | some v => some (some ⟨"", v⟩)
  | none =>
    match target? s.toList with
    | none => none
    | some (target, spans, rest) =>
      let verbosity := match rest with
        | [] | ['='] => some LogLevel.trace.verbosity
        | '=' :: level => verbosity? (String.ofList level)
        | _ => none
      verbosity.map fun v => if spans then none else some ⟨target, v⟩

/-- A list of directives with commas between them. No directive at all lets errors through. -/
def parse? (s : String) : Option LogFilter :=
  let parts := (s.splitOn ",").filter fun part => !part.isEmpty
  if parts.isEmpty then some (ofLevel .error)
  else (parts.mapM directive?).map fun ds => ⟨ds.filterMap id⟩

/-- The directive that decides about a target: of those with the longest target, the last. -/
def deciding? (f : LogFilter) (target : String) : Option Directive :=
  (f.directives.filter fun d => d.target.isPrefixOf target).foldl
    (fun best d => match best with
      | some b => if b.target.length ≤ d.target.length then some d else some b
      | none => some d)
    none

def allows (f : LogFilter) (level : LogLevel) (target : String) : Bool :=
  match f.deciding? target with
  | some d => level.verbosity ≤ d.verbosity
  | none => false

end LogFilter

end TopicBus
