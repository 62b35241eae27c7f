import TopicBus.Disk
import TopicBus.Fault

/-!
The file that keeps a second server from running. Whoever opens it first holds its lock until that
is released; the file itself stays, and its contents are touched only when the process id is
recorded.
-/

namespace TopicBus

structure LockFile where
  path : String
  /-- Where the next record is written. -/
  offset : Nat
  deriving DecidableEq, Repr

namespace LockFile

/-- Opens and locks a file, which is created if need be. `locked` are the paths of the locks that
are held by others. -/
def acquire (disk : Disk) (locked : List String) (path : String) :
    Except Fault (Disk × LockFile) :=
  match disk.node? path with
  | some .directory => .error (.ofIo (.system .isADirectory))
  | some .socket => .error (.ofIo (.system .other))
  | some (.file _) =>
    if (locked.map Disk.canonical).contains (Disk.canonical path) then
      .error (.alreadyRunning path)
    else .ok (disk, ⟨path, 0⟩)
  | none =>
    if Disk.maxNameSize < (Disk.baseName path).utf8ByteSize then
      .error (.ofIo (.system .invalidFilename))
    else if disk.isDirectory (Disk.parent path) then .ok (disk.put path (.file []), ⟨path, 0⟩)
    else if (disk.node? (Disk.parent path)).isSome then
      .error (.ofIo (.system .notADirectory))
    else .error (.ofIo (.system .notFound))

/-- What a record adds to the file. -/
def entry (pid : Nat) : List UInt8 := (Utf8.encode s!"{pid}") ++ [10]

/-- Empties the file and writes the process id where the last record ended; the gap in front of it
reads as zeros. -/
def record (l : LockFile) (disk : Disk) (pid : Nat) : Disk × LockFile :=
  let bytes := List.replicate l.offset 0 ++ entry pid
  (disk.put l.path (.file bytes), { l with offset := bytes.length })

end LockFile

end TopicBus
