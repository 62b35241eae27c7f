/-!
A directory tree in memory, by absolute path.
-/

namespace TopicBus

inductive Node where
  | directory
  | file (bytes : List UInt8)
  | socket
  deriving DecidableEq, Repr

structure Disk where
  nodes : List (String × Node)
  deriving Repr

namespace Disk

/-- The longest name that an entry can have, in bytes. -/
def maxNameSize : Nat := 255

def splitAtSlashes : List Char → List (List Char)
  | [] => [[]]
  | '/' :: rest => [] :: splitAtSlashes rest
  | c :: rest =>
    match splitAtSlashes rest with
    | [] => [[c]]
    | part :: parts => (c :: part) :: parts

/-- Takes one more step down a path, given in reverse: a dot stays, two dots go back. -/
def step (seen : List (List Char)) (part : List Char) : List (List Char) :=
  match part with
  | [] | ['.'] => seen
  | ['.', '.'] => seen.drop 1
  | name => name :: seen

/-- The names along a path, in reverse. -/
def names (path : String) : List (List Char) := (splitAtSlashes path.toList).foldl step []

/-- The path through some names, given in reverse. -/
def ofNames (names : List (List Char)) : String :=
  if names.isEmpty then "/" else String.ofList (names.reverse.flatMap ('/' :: ·))

/-- The one spelling of an absolute path under which its entry is kept. -/
def canonical (path : String) : String := ofNames (names path)

/-- The path of the directory that an entry stands in. -/
def parent (path : String) : String := ofNames ((names path).drop 1)

/-- The last name of a path. -/
def baseName (path : String) : String := String.ofList ((names path).headD [])

/-- A path as seen from a directory. -/
def resolve (directory path : String) : String :=
  match path.toList with
  | '/' :: _ => path
  | _ => s!"{directory}/{path}"

def node? (d : Disk) (path : String) : Option Node :=
  if canonical path = "/" then some .directory else d.nodes.lookup (canonical path)

def file? (d : Disk) (path : String) : Option (List UInt8) :=
  match d.node? path with
  | some (.file bytes) => some bytes
  | _ => none

def isDirectory (d : Disk) (path : String) : Bool :=
  d.node? path == some .directory

def remove (d : Disk) (path : String) : Disk :=
  ⟨d.nodes.filter fun n => n.1 ≠ canonical path⟩

def put (d : Disk) (path : String) (n : Node) : Disk :=
  ⟨(d.remove path).nodes ++ [(canonical path, n)]⟩

/-- Makes a directory and those above it, at most `depth` of them. -/
def makeDirectories : Nat → Disk → String → Disk
  | 0, d, _ => d
  | depth + 1, d, path =>
    if d.isDirectory path then d else (makeDirectories depth d (parent path)).put path .directory

/-- Writes a file, and makes the directories above it. -/
def putFile (d : Disk) (path : String) (bytes : List UInt8) : Disk :=
  (makeDirectories path.length d (parent path)).put path (.file bytes)

/-- A disk that holds one directory, and those above it. -/
def ofDirectory (path : String) : Disk := makeDirectories path.length ⟨[]⟩ path

/-- The names of what stands in a directory, sorted. -/
def list (d : Disk) (directory : String) : List String :=
  let inside := d.nodes.filter fun n => parent n.1 == canonical directory
  (inside.map fun n => baseName n.1).mergeSort fun a b => decide (a ≤ b)

end Disk

end TopicBus
