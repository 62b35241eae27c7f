import TopicBus.Fault

/-!
Where a bus is reached: `tcp://host:port` or `unix:///absolute/path`.
-/

namespace TopicBus

inductive Address where
  /-- Host and port, as written. -/
  | tcp (hostPort : String)
  | unix (path : String)
  deriving DecidableEq, Repr

namespace Address

/-- Splits at the last colon. -/
def splitPort? (cs : List Char) : Option (List Char × List Char) :=
  match cs.reverse.span (· != ':') with
  | (_, []) => none
  | (port, _ :: host) => some (host.reverse, port.reverse)

/-- A port is decimal, at most 65535, and may carry a plus sign. -/
def isPort (cs : List Char) : Bool :=
  let digits := match cs with
    | '+' :: rest => rest
    | _ => cs
  !digits.isEmpty && digits.all Char.isDigit &&
    digits.foldl (fun n c => n * 10 + (c.toNat - '0'.toNat)) 0 ≤ 65535

def stripScheme? (scheme : String) (s : String) : Option (List Char) :=
  let size := scheme.length
  if s.toList.take size = scheme.toList then some (s.toList.drop size) else none

def parse (s : String) : Except Fault Address :=
  match stripScheme? "tcp://" s with
  | some rest =>
    match splitPort? rest with
    | none => .error (.invalidArgument (.missingPort s))
    | some (host, port) =>
      if host.isEmpty then .error (.invalidArgument (.missingHost s))
      else if isPort port then .ok (.tcp (String.ofList rest))
      else .error (.invalidArgument (.invalidPort s))
  | none =>
    match stripScheme? "unix://" s with
    | some ('/' :: rest) => .ok (.unix (String.ofList ('/' :: rest)))
    | some _ => .error (.invalidArgument (.relativePath s))
    | none => .error (.invalidArgument (.unknownScheme s))

def text : Address → String
  | .tcp hostPort => "tcp://" ++ hostPort
  | .unix path => "unix://" ++ path

/-- What stands behind the scheme. -/
def place : Address → String
  | .tcp hostPort => hostPort
  | .unix path => path

end Address

end TopicBus
