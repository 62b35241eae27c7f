import TopicBus.Daemon

/-!
The daemon as a program. There are no sockets here to listen on, so a listener that is asked for is
reported as unsupported; and there is no way to detach, so the program stays in the foreground.
-/

namespace TopicBus.Main

/-- The environment of this process. -/
def environment : IO (List (String × String)) := do
  try
    let bytes ← IO.FS.readBinFile "/proc/self/environ"
    let entries := (Utf8.decodeLossy bytes.toList).splitToList (· == Char.ofNat 0)
    return entries.filterMap fun entry =>
      let name := entry.toList.takeWhile (· != '=')
      if name.length < entry.length then
        some (String.ofList name, String.ofList (entry.toList.drop (name.length + 1)))
      else none
  catch _ => return []

/-- The number that this process has, the first word of its status. -/
def processId : IO String := do
  try
    let status ← IO.FS.readFile "/proc/self/stat"
    return String.ofList (status.toList.takeWhile (· != ' '))
  catch _ => return "0"

def readFiles (paths : List String) : IO Disk := do
  let mut disk : Disk := ⟨[]⟩
  for path in paths do
    try
      let bytes ← IO.FS.readBinFile path
      disk := disk.put path (.file bytes.toList)
    catch _ => continue
  return disk

def kindOf (why : IO.Error) : IoKind :=
  match why with
  | .noFileOrDirectory .. => .notFound
  | .permissionDenied .. => .permissionDenied
  | _ => .other

def acquireLock (held : IO.Ref (Option IO.FS.Handle)) (path : String) : IO (Except Fault Unit) := do
  try
    let handle ← IO.FS.Handle.mk path .append
    if ← handle.tryLock then
      held.set (some handle)
      return .ok ()
    else return .error (.alreadyRunning path)
  catch why => return .error (.ofIo (.system (kindOf why)))

def recordLock (held : IO.Ref (Option IO.FS.Handle)) : IO Unit := do
  match ← held.get with
  | none => return
  | some handle =>
    let pid ← processId
    handle.rewind
    handle.truncate
    handle.putStr (pid ++ "\n")
    handle.flush

def host (held : IO.Ref (Option IO.FS.Handle)) : Host IO where
  environment := environment
  readFiles := readFiles
  acquireLock := acquireLock held
  recordLock := recordLock held
  detach := pure ()
  bind _ := return .error (.ofIo (.system .unsupported))
  serve _ := pure ()
  log line := IO.println line
  print text := IO.print text
  complain text := IO.eprint text

end TopicBus.Main

def main (arguments : List String) : IO UInt32 := do
  let held ← IO.mkRef none
  TopicBus.Daemon.run (TopicBus.Main.host held) arguments
