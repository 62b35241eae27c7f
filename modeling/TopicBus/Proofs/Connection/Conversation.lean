import Mathlib.Algebra.Ring.Nat
import TopicBus.Connection.Operation
import TopicBus.Proofs.Wire.Layout

/-!
A connection over its whole life. Whoever runs it begins operations when it is at rest, answers
their demands in any way at any time, lets deadlines pass and brings what the attached stream has to
read. The record of what was written grows along.
-/

namespace TopicBus

/-! ## New connections -/

namespace Connection

/-- A connection that has not done anything yet. -/
def fresh (appName inboxId : String) (settings : ClientSettings) (address : Address) :
    Connection where
  appName := appName
  address := address
  settings := settings
  inbox := inboxOf appName inboxId
  attached := none
  localEndpoint := ""
  remoteEndpoint := ""
  nextSequence := 1
  subscriptions := .ofCapacity settings.maxSubscriptions
  slot := .empty
  inbound := []
  generation := 0
  isClosed := false

theorem create_eq_ok_iff {appName inboxId : String} {settings : ClientSettings} {c : Connection} :
    create appName settings inboxId = .ok c ↔
      isAppName appName = true ∧ Topic.validate "inbox" (inboxOf appName inboxId) = .ok () ∧
        ∃ address, Address.parse settings.address = .ok address ∧
          c = fresh appName inboxId settings address := by
  unfold create
  split_ifs with hname
  · refine ⟨nofun, fun ⟨happ, _⟩ => ?_⟩
    rw [happ] at hname
    nomatch hname
  · rw [Bool.not_eq_true', Bool.not_eq_false] at hname
    rw [bind_eq_ok_iff]
    constructor
    · rintro ⟨address, haddress, hc⟩
      obtain ⟨hinbox, hc⟩ := check_bind_eq_ok_iff.mp hc
      exact ⟨hname, hinbox, address, haddress, (Except.ok.inj hc).symm⟩
    · rintro ⟨-, hinbox, address, haddress, rfl⟩
      exact ⟨address, haddress, check_bind_eq_ok_iff.mpr ⟨hinbox, rfl⟩⟩

end Connection

/-! ## Operations and replies -/

/-- The topic and the payload that an application hands to an operation. -/
def Operation.message? : Operation → Option (String × List UInt8)
  | .publish topic d | .request topic d _ => some (topic, d.encode)
  | .publishBytes topic payload => some (topic, payload)
  | .send d => d.sendTopic?.map fun topic => (topic, d.encode)
  | .respond header d => header.replyTopic.map fun topic => (topic, d.encode)
  | .subscribe _ | .dispatch _ | .close => none

/-- How many subscriptions an operation is for. -/
def Operation.subscriptions : Operation → Nat
  | .subscribe _ => 1
  | _ => 0

structure Conversation where
  connection : Connection
  activity : Option Activity
  /-- What the last operation gave. -/
  outcome : Option Outcome
  /-- The frames written in full on a stream since it was opened, as bytes. -/
  written : StreamId → List (List UInt8)

/-- What can happen to a connection. -/
inductive Happening where
  | begin (now : Nat) (op : Operation)
  | reply (now : Nat) (r : Reply)
  /-- The deadline of the activity has passed. -/
  | expire
  | receive (chunk : Chunk)
  deriving Repr

namespace Happening

def operation? : Happening → Option Operation
  | .begin _ op => some op
  | _ => none

end Happening

/-- What a reply to a demand adds to the record. A stream begins empty. -/
def Demand.record (written : StreamId → List (List UInt8)) (demand : Demand) (r : Reply) :
    StreamId → List (List UInt8) :=
  match demand, r with
  | .connect, .connected stream _ _ => fun s => if s = stream then [] else written s
  | .write stream bytes, .written => fun s => if s = stream then written s ++ [bytes] else written s
  | _, _ => written

namespace Conversation

/-- Goes on as an operation says. -/
def settle (v : Conversation) (next : Connection × Progress) : Conversation :=
  match next with
  | (c, .waiting a) => { v with connection := c, activity := some a }
  | (c, .finished o) => { v with connection := c, activity := none, outcome := some o }

theorem connection_settle (v : Conversation) (next : Connection × Progress) :
    (v.settle next).connection = next.1 := by
  obtain ⟨c, p⟩ := next
  cases p with
  | waiting a => rfl
  | finished o => rfl

/-- A connection that has just been created begins by opening a stream. -/
def start (c : Connection) : Conversation :=
  settle ⟨c, none, none, fun _ => []⟩ (c.establish .opening)

/-- An operation has to wait for the one before it, and a reply needs an operation to go to. -/
def step (v : Conversation) : Happening → Conversation
  | .begin now op =>
    match v.activity with
    | none => { v with outcome := none }.settle (v.connection.begin now op)
    | some _ => v
  | .reply now r =>
    match v.activity with
    | some a =>
      { v with written := a.demand.record v.written r }.settle (v.connection.resume now a r)
    | none => v
  | .expire =>
    match v.activity with
    | some a => v.settle (v.connection.expire a)
    | none => v
  | .receive chunk => { v with connection := v.connection.receive chunk }

section Step

variable {v : Conversation} {a : Activity}

theorem step_begin_of_rest (h : v.activity = none) (now : Nat) (op : Operation) :
    v.step (.begin now op) = { v with outcome := none }.settle (v.connection.begin now op) := by
  simp only [step, h]

theorem step_begin_of_busy (h : v.activity = some a) (now : Nat) (op : Operation) :
    v.step (.begin now op) = v := by
  simp only [step, h]

theorem step_reply_of_rest (h : v.activity = none) (now : Nat) (r : Reply) :
    v.step (.reply now r) = v := by
  simp only [step, h]

theorem step_reply_of_busy (h : v.activity = some a) (now : Nat) (r : Reply) :
    v.step (.reply now r) = { v with written := a.demand.record v.written r }.settle
      (v.connection.resume now a r) := by
  simp only [step, h]

theorem step_expire_of_rest (h : v.activity = none) : v.step .expire = v := by
  simp only [step, h]

theorem step_expire_of_busy (h : v.activity = some a) :
    v.step .expire = v.settle (v.connection.expire a) := by
  simp only [step, h]

end Step

def run (v : Conversation) (hs : List Happening) : Conversation := hs.foldl step v

/-- The operations that are asked for. -/
def asked (hs : List Happening) : List Operation := hs.filterMap Happening.operation?

/-- How many subscriptions are asked for. -/
def calls (hs : List Happening) : Nat := ((asked hs).map Operation.subscriptions).sum

/-- How many subscription ids are taken. Whenever one is, the next id is another one. -/
def taken (v : Conversation) : List Happening → Nat
  | [] => 0
  | x :: hs =>
    let w := v.step x
    (if w.connection.subscriptions.nextId = v.connection.subscriptions.nextId then 0 else 1) +
      w.taken hs

end Conversation

end TopicBus
