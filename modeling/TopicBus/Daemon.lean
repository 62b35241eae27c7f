import TopicBus.Address
import TopicBus.Daemon.Arguments
import TopicBus.Daemon.EnvironmentFile
import TopicBus.Daemon.LogFilter
import TopicBus.LockFile
import TopicBus.Settings.Source

/-!
The daemon: it reads its command line and settings, makes sure that it is the only one, goes into
the background unless told otherwise, and serves until it is asked to stop. What it needs of the
system is a `Host`.
-/

namespace TopicBus

/-- A listener that has been bound. -/
structure Bound where
  address : Address
  /-- Whether a file stood in its place. -/
  replacesFile : Bool
  deriving Repr

/-- What the daemon asks of the system that it runs on. -/
structure Host (m : Type → Type) where
  environment : m (List (String × String))
  /-- The regular files among some paths. -/
  readFiles : List String → m Disk
  acquireLock : String → m (Except Fault Unit)
  /-- Writes the process id into the lock file. -/
  recordLock : m Unit
  detach : m Unit
  bind : Address → m (Except Fault Bound)
  /-- Serves on all that is bound until the daemon is asked to stop. -/
  serve : Settings → m Unit
  log : String → m Unit
  print : String → m Unit
  complain : String → m Unit

namespace Daemon

def name : String := "popbusd"

def version : String := "0.1.0"

def usage : String :=
  "Usage: popbusd [OPTIONS]\n\n" ++
  "Options:\n" ++
  "  -f, --foreground         Run in the foreground instead of detaching\n" ++
  "  -l, --log-level <LEVEL>  Log level: error, warn, info, debug or trace\n" ++
  "      --listen <ADDRESS>   Listen address, tcp://host:port or unix:///path. May be repeated\n" ++
  "  -r, --debug-route        Add a catch-all route that logs every message\n" ++
  "  -d, --nagle              Leave Nagle's algorithm enabled on accepted TCP connections\n" ++
  "  -c, --config <PATH>      Configuration file\n" ++
  "      --pid-file <PATH>    Lock file guarding against a second broker\n" ++
  "  -h, --help               Print help\n" ++
  "  -V, --version            Print version\n"

/-- Where the lines of the daemon itself are filed. -/
def mainTarget : String := "popbusd"

def serverTarget : String := "popbus::transport::server"

def addressTarget : String := "popbus::transport::address"

def settingsPath : String := "config/default"

def environmentPath : String := ".env"

def filterVariable : String := "RUST_LOG"

def failure : UInt32 := 1

def misuse : UInt32 := 2

def alreadyRunning : UInt32 := 12

/-- What the command line says goes before all other settings. -/
def applyArguments (a : Arguments) (s : Settings) : Settings :=
  { s with
    server :=
      { listen := if a.listen.isEmpty then s.server.listen else a.listen
        noDelay := s.server.noDelay && !a.nagle
        lockFile := a.lockFile.getD s.server.lockFile }
    broker := { s.broker with logsMessages := s.broker.logsMessages || a.logsMessages } }

def filterOf (a : Arguments) (environment : List (String × String)) : LogFilter :=
  ((environment.lookup filterVariable).bind LogFilter.parse?).getD (.ofLevel (.ofName a.logLevel))

/-- The part of a line that tells a fault; one that the system words is not repeated. -/
def because (why : Fault) : String := if why.hasOwnWording then s!" error={why.message}" else ""

section

variable {m : Type → Type} [Monad m] (host : Host m)

def say (filter : LogFilter) (level : LogLevel) (target text : String) : m Unit :=
  if filter.allows level target then host.log s!"{level.text} {text}" else pure ()

/-- The environment of the system, and the variables of the file in the working directory. -/
def environment : m (List (String × String)) := do
  let set ← host.environment
  let disk ← host.readFiles [environmentPath]
  return match disk.file? environmentPath with
    | some bytes => EnvironmentFile.add set (Utf8.decodeLossy bytes)
    | none => set

/-- Binds listeners at all addresses, in order. -/
def bindAll (filter : LogFilter) : List String → m (Except Fault (List Address))
  | [] => return .ok []
  | text :: rest => do
    match Address.parse text with
    | .error why => return .error why
    | .ok address =>
      match ← host.bind address with
      | .error why =>
        say host filter .error serverTarget
          s!"failed to bind listener address={text}{because why}"
        return .error why
      | .ok bound =>
        if bound.replacesFile then
          say host filter .debug addressTarget s!"removing stale socket file path={address.place}"
        return (← bindAll filter rest).map (bound.address :: ·)

/-- Listens and serves, with the lock in hand. -/
def serve (filter : LogFilter) (settings : Settings) : m UInt32 := do
  match ← bindAll host filter settings.server.listen with
  | .error why =>
    say host filter .error mainTarget s!"broker failed{because why}"
    return failure
  | .ok addresses =>
    for address in addresses do
      say host filter .info serverTarget s!"broker listening address={address.text}"
    host.serve settings
    say host filter .info mainTarget "shutdown signal received, exiting"
    return 0

/-- Starts with the settings that hold. -/
def start (filter : LogFilter) (foreground : Bool) (settings : Settings) : m UInt32 := do
  match ← host.acquireLock settings.server.lockFile with
  | .error (.alreadyRunning path) =>
    say host filter .error mainTarget s!"broker already running pid_file={path}"
    return alreadyRunning
  | .error why =>
    say host filter .error mainTarget s!"failed to open pid file{because why}"
    return failure
  | .ok () =>
    if foreground then say host filter .info mainTarget "running in foreground" else host.detach
    host.recordLock
    serve host filter settings

/-- Runs the daemon and gives its exit code. -/
def run (arguments : List String) : m UInt32 := do
  let environment ← environment host
  match Arguments.parse arguments with
  | .help => do
    host.print usage
    return 0
  | .version => do
    host.print s!"{name} {version}\n"
    return 0
  | .misuse => do
    host.complain usage
    return misuse
  | .run a => do
    let filter := filterOf a environment
    let path := a.settingsFile.getD settingsPath
    let disk ← host.readFiles (Settings.candidates path)
    match Settings.load disk path environment with
    | .error why =>
      say host filter .error mainTarget s!"failed to load configuration{because why}"
      return failure
    | .ok settings => start host filter a.foreground (applyArguments a settings)

end

end Daemon

end TopicBus
