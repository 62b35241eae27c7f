import TopicBus.Daemon
import TopicBus.Simulation.Network

/-!
A machine in memory that the daemon runs on. It asks the daemon to stop as soon as that serves.
-/

namespace TopicBus

structure Machine where
  directory : String
  environment : List (String × String)
  network : Network
  /-- The files that others have locked. -/
  locked : List String
  lock : Option LockFile
  pid : Nat
  isDetached : Bool
  lines : List String
  printed : String
  deriving Repr

namespace Machine

def ofDisk (directory : String) (disk : Disk) (environment : List (String × String))
    (locked : List String) (pid : Nat) : Machine :=
  ⟨directory, environment, .ofDisk disk, locked, none, pid, false, [], ""⟩

def acquireLock (path : String) : StateM Machine (Except Fault Unit) := do
  let s ← get
  match LockFile.acquire s.network.disk s.locked (Disk.resolve s.directory path) with
  | .ok (disk, lock) =>
    set { s with network := { s.network with disk := disk }, lock := some lock }
    return .ok ()
  | .error (.alreadyRunning _) => return .error (.alreadyRunning path)
  | .error why => return .error why

def recordLock : StateM Machine Unit :=
  modify fun s =>
    match s.lock with
    | none => s
    | some lock =>
      let (disk, lock) := lock.record s.network.disk s.pid
      { s with network := { s.network with disk := disk }, lock := some lock }

def bind (address : Address) : StateM Machine (Except Fault Bound) := do
  let s ← get
  match address with
  | .tcp _ => return .ok ⟨address, false⟩
  | .unix path =>
    match s.network.bind path with
    | .ok network =>
      set { s with network := network }
      return .ok ⟨address, (s.network.disk.node? path).isSome⟩
    | .error why => return .error (.ofIo why)

def host : Host (StateM Machine) where
  environment := return (← get).environment
  readFiles paths := do
    let s ← get
    return paths.foldl
      (fun found path =>
        match s.network.disk.file? (Disk.resolve s.directory path) with
        | some bytes => found.put path (.file bytes)
        | none => found)
      ⟨[]⟩
  acquireLock := acquireLock
  recordLock := recordLock
  detach := modify fun s => { s with isDetached := true }
  bind := bind
  serve _ := pure ()
  log line := modify fun s => { s with lines := s.lines ++ [line] }
  print text := modify fun s => { s with printed := s.printed ++ text }
  complain _ := pure ()

/-- Runs the daemon. Whoever started it sees success as soon as it has detached. -/
def runDaemon (s : Machine) (arguments : List String) : UInt32 × Machine :=
  let (code, s) := (Daemon.run host arguments).run s
  (if s.isDetached then 0 else code, s)

end Machine

end TopicBus
