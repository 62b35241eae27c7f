import TopicBus.Server
import TopicBus.Proofs.Broker.ControlTraffic
import TopicBus.Proofs.Broker.Departed

/-!
The end of a session. Its reader and its writer work side by side, and whichever stops first takes
the client away: it sets the flag of the session, and goes to the broker later, when others have had
their turn. So the client is taken away once, by one of them (`Course`), and the other one may go on
routing what it reads. What a server does for a session in one go is a run of such moves.
-/

namespace TopicBus

/-- The two sides of a session. -/
inductive Attendant where
  | reader
  | writer
  deriving DecidableEq, Repr

def Attendant.other : Attendant → Attendant
  | .reader => .writer
  | .writer => .reader

inductive Phase where
  | working
  /-- It has found the flag unset, and is going to take the client away. -/
  | leaving
  | over
  deriving DecidableEq, Repr

/-- A session with its two sides, and the broker that all sessions share. -/
structure Attendance where
  broker : Broker
  client : ClientId
  isLeaving : Bool
  phase : Attendant → Phase
  /-- How often the client has been taken away. -/
  cleanups : Nat

/-- Whether an operation is for a client, or there for what it has sent. -/
def Broker.Operation.isOf (client : ClientId) : Operation → Bool
  | .route sender _ => sender = client
  | .cleanup id | .drain id _ | .hangUp id => id = client
  | .register _ _ => false

namespace Attendance

inductive Move where
  /-- Another session makes use of the broker. -/
  | elsewhere (op : Broker.Operation)
  | route (f : Frame)
  | drain (count : Nat)
  /-- A side stops, and looks at the flag as it sets it. -/
  | stop (a : Attendant)
  | cleanup (a : Attendant)
  /-- The writer is gone, and with it the reading end of the outbox. -/
  | hangUp

def start (b : Broker) (client : ClientId) : Attendance := ⟨b, client, false, fun _ => .working, 0⟩

/-- What is not possible changes nothing. -/
def step (v : Attendance) : Move → Attendance
  | .elsewhere op =>
    if op.isOf v.client then v else { v with broker := (v.broker.perform op).1 }
  | .route f =>
    if v.phase .reader = .working then { v with broker := (v.broker.route v.client f).1 } else v
  | .drain count =>
    if v.phase .writer = .working then { v with broker := (v.broker.drain v.client count).1 } else v
  | .stop a =>
    if v.phase a = .working then
      { v with
        isLeaving := true
        phase := Function.update v.phase a (if v.isLeaving then .over else .leaving) }
    else v
  | .cleanup a =>
    if v.phase a = .leaving then
      { v with
        broker := (v.broker.cleanup v.client).1
        phase := Function.update v.phase a .over
        cleanups := v.cleanups + 1 }
    else v
  | .hangUp => if v.phase .writer = .over then { v with broker := v.broker.hangUp v.client } else v

def run (v : Attendance) (moves : List Move) : Attendance := moves.foldl step v

/-! ## The sides of a session in a server -/

/-- A session as its sides see it. -/
def ofSession (s : Server) (x : Session) : Attendance where
  broker := s.broker
  client := x.client
  isLeaving := x.isLeaving
  phase
    | .reader => if x.isReading then .working else .over
    | .writer => .working
  cleanups := 0

end Attendance

namespace Server

open Attendance

variable {x : Session}

/-- What the reader of a session does about one result of its decoder. -/
def movesOn : Decoded → List Move
  | .more | .fault (.decode _) => []
  | .frame f => [.route f]
  | .fault _ => [.stop .reader, .cleanup .reader]

theorem dismiss_eq_run (s : Server) {a : Attendant} (ha : (ofSession s x).phase a = .working) :
    (s.dismiss x).1 = ((ofSession s x).run [.stop a, .cleanup a]).broker := by
  simp only [run, List.foldl_cons, List.foldl_nil, step, ha, ↓reduceIte, Function.update_self,
    dismiss]
  cases hleaving : x.isLeaving with
  | false => simp only [ofSession, hleaving, Bool.false_eq_true, ↓reduceIte]
  | true => simp only [ofSession, hleaving, ↓reduceIte, reduceCtorEq]

theorem handle_eq_run (s : Server) (log : List Event) (hx : x.isReading = true) (r : Decoded) :
    (handle x (s, log) r).1.broker = ((ofSession s x).run (movesOn r)).broker := by
  have hreader : (ofSession s x).phase .reader = .working := if_pos hx
  have hend : (s.endSession x).1.broker =
      ((ofSession s x).run [.stop .reader, .cleanup .reader]).broker := dismiss_eq_run s hreader
  cases r with
  | more => rfl
  | frame f =>
    simp only [movesOn, run, List.foldl_cons, List.foldl_nil, step, hreader, ↓reduceIte]
    rfl
  | fault why =>
    cases why with
    | decode why => rfl
    | _ => exact hend

theorem loseWriter_eq_run (s : Server) (x : Session) :
    (s.loseWriter x).1.broker =
      ((ofSession s x).run [.stop .writer, .cleanup .writer, .hangUp]).broker := by
  simp only [loseWriter, dismiss, modifySession]
  cases hleaving : x.isLeaving <;> simp [run, step, ofSession, hleaving]

/-- The flag of a session is set for both of its sides. -/
theorem isLeaving_modifySession (s : Server) (stream : StreamId) {f : Session → Session}
    (hf : ∀ y, (f y).isLeaving = true) :
    ∀ y ∈ (s.modifySession stream f).sessions, y.stream = stream → y.isLeaving = true := by
  intro y hy hstream
  obtain ⟨z, -, rfl⟩ := List.mem_map.mp hy
  split_ifs at hstream ⊢
  · exact hf z
  · contradiction

theorem isLeaving_endSession (s : Server) (x : Session) :
    ∀ y ∈ (s.endSession x).1.sessions, y.stream = x.stream → y.isLeaving = true :=
  isLeaving_modifySession _ x.stream fun _ => rfl

theorem isLeaving_loseWriter (s : Server) (x : Session) :
    ∀ y ∈ (s.loseWriter x).1.sessions, y.stream = x.stream → y.isLeaving = true :=
  isLeaving_modifySession _ x.stream fun _ => rfl

theorem takeOutput_eq_run (s : Server) (x : Session) :
    ∃ count, (s.takeOutput x).1.broker = ((ofSession s x).run [.drain count]).broker :=
  ⟨_, rfl⟩

end Server

namespace Attendance

variable {v : Attendance} {a : Attendant}

/-! ## Who takes the client away -/

/-- The flag of a session, how far its sides have come, and how often the client has been taken
away: one of the sides does it, once. -/
inductive Course : Bool → (Attendant → Phase) → Nat → Prop
  | staying {phase : Attendant → Phase} (h : ∀ a, phase a = .working) : Course false phase 0
  | leaving {phase : Attendant → Phase} (a : Attendant) (ha : phase a = .leaving)
      (hother : phase a.other ≠ .leaving) : Course true phase 0
  | gone {phase : Attendant → Phase} (h : ∀ a, phase a ≠ .leaving) : Course true phase 1

structure Sound (v : Attendance) : Prop where
  broker : v.broker.WellFormed
  known : v.client < v.broker.nextId
  course : Course v.isLeaving v.phase v.cleanups
  present : v.client ∈ v.broker.ids ↔ v.cleanups = 0

theorem eq_other_of_ne {b : Attendant} (h : a ≠ b) : a = b.other := by
  cases a <;> cases b <;> first | rfl | exact absurd rfl h

theorem other_ne (a : Attendant) : a.other ≠ a := by
  cases a <;> nofun

namespace Course

variable {flag : Bool} {phase : Attendant → Phase} {count : Nat}

theorem stop (h : Course flag phase count) (ha : phase a = .working) :
    Course true (Function.update phase a (if flag then .over else .leaving)) count := by
  cases h with
  | staying h =>
    refine .leaving a (Function.update_self ..) ?_
    rw [Function.update_of_ne (other_ne a), h]
    nofun
  | leaving b hb hother =>
    -- The other side has set the flag, so this one is over at once.
    have hne : a ≠ b := by
      rintro rfl
      nomatch ha.symm.trans hb
    obtain rfl := eq_other_of_ne hne
    refine .leaving b ((Function.update_of_ne hne.symm ..).trans hb) ?_
    rw [Function.update_self]
    nofun
  | gone h =>
    refine .gone fun b => ?_
    by_cases hba : b = a
    · rw [hba, Function.update_self]
      nofun
    · rw [Function.update_of_ne hba]
      exact h b

theorem cleanup (h : Course flag phase count) (ha : phase a = .leaving) :
    Course flag (Function.update phase a .over) (count + 1) := by
  cases h with
  | staying h => nomatch ha.symm.trans (h a)
  | leaving b hb hother =>
    obtain rfl : a = b := by
      by_contra hne
      exact hother (eq_other_of_ne hne ▸ ha)
    refine .gone fun x => ?_
    by_cases hxa : x = a
    · rw [hxa, Function.update_self]
      nofun
    · rw [Function.update_of_ne hxa, eq_other_of_ne hxa]
      exact hother
  | gone h => exact absurd ha (h a)

theorem count_le (h : Course flag phase count) : count ≤ 1 := by
  cases h <;> decide

/-- When a side is done, the client is gone, or the other side is about to see to it. -/
theorem of_over (h : Course flag phase count) (ha : phase a = .over) :
    count = 1 ∨ phase a.other = .leaving := by
  cases h with
  | staying h => nomatch ha.symm.trans (h a)
  | leaving b hb hother =>
    have hne : b ≠ a := by
      rintro rfl
      nomatch ha.symm.trans hb
    exact .inr (eq_other_of_ne hne ▸ hb)
  | gone h => exact .inl rfl

end Course

/-! ## Steps -/

namespace Sound

/-- An operation that is not the cleanup of the client leaves it where it is. -/
theorem perform (h : v.Sound) {op : Broker.Operation} (hop : op ≠ .cleanup v.client) :
    ({ v with broker := (v.broker.perform op).1 } : Attendance).Sound where
  broker := h.broker.perform op
  known := Nat.lt_of_lt_of_le h.known (Broker.nextId_le_perform h.broker op)
  course := h.course
  present := by
    rw [h.broker.mem_ids_perform h.known]
    exact (and_iff_left hop).trans h.present

theorem cleanup (h : v.Sound) (ha : v.phase a = .leaving) : (v.step (.cleanup a)).Sound := by
  simp only [Attendance.step, ha, ↓reduceIte]
  have hgone : v.client ∉ (v.broker.cleanup v.client).1.ids := fun hmem =>
    ((Broker.mem_ids_cleanup _ _ _).mp hmem).2 rfl
  exact
    { broker := h.broker.cleanup v.client
      known := Nat.lt_of_lt_of_le h.known (Broker.nextId_le_perform h.broker (.cleanup v.client))
      course := h.course.cleanup ha
      present := iff_of_false hgone (Nat.succ_ne_zero _) }

theorem step (h : v.Sound) (m : Move) : (v.step m).Sound := by
  cases m with
  | elsewhere op =>
    simp only [Attendance.step]
    split_ifs with hop
    · exact h
    · refine h.perform ?_
      rintro rfl
      exact hop (decide_eq_true rfl)
  | route f =>
    simp only [Attendance.step]
    split_ifs
    · have hother : Broker.Operation.route v.client f ≠ .cleanup v.client := nofun
      exact h.perform hother
    · exact h
  | drain count =>
    simp only [Attendance.step]
    split_ifs
    · have hother : Broker.Operation.drain v.client count ≠ .cleanup v.client := nofun
      exact h.perform hother
    · exact h
  | stop a =>
    by_cases ha : v.phase a = .working
    · simp only [Attendance.step, ha, ↓reduceIte]
      exact { h with course := h.course.stop ha }
    · rw [Attendance.step, if_neg ha]
      exact h
  | cleanup a =>
    by_cases ha : v.phase a = .leaving
    · exact h.cleanup ha
    · rw [Attendance.step, if_neg ha]
      exact h
  | hangUp =>
    simp only [Attendance.step]
    split_ifs
    · have hother : Broker.Operation.hangUp v.client ≠ .cleanup v.client := nofun
      exact h.perform hother
    · exact h

theorem run (h : v.Sound) (moves : List Move) : (v.run moves).Sound := by
  induction moves generalizing v with
  | nil => exact h
  | cons m moves ih => exact ih (h.step m)

end Sound

theorem client_run (v : Attendance) (moves : List Move) : (v.run moves).client = v.client := by
  induction moves generalizing v with
  | nil => rfl
  | cons m moves ih =>
    refine (ih (v.step m)).trans ?_
    cases m <;> simp only [step] <;> split_ifs <;> rfl

/-! ## The whole course -/

theorem sound_start {b : Broker} {id : ClientId} {log : List Event} {peer : String}
    {capacity : Nat} {b₀ : Broker} (h : b₀.WellFormed)
    (hregister : b₀.register peer capacity = .ok (b, id, log)) : (start b id).Sound := by
  obtain ⟨-, rfl, hb⟩ := Broker.register_eq hregister
  exact
    { broker := h.register hregister
      known := by
        rw [hb]
        exact Nat.lt_succ_self _
      course := .staying fun _ => rfl
      present := by
        refine iff_of_true ?_ rfl
        rw [hb]
        exact List.mem_map.mpr ⟨_, List.mem_append_right _ (List.mem_singleton.mpr rfl), rfl⟩ }

/-- A client leaves once. At most one side of its session takes it away, and when a side is done, it
has happened or the other side is about to do it; the other clients and their routes stay as they
are. From then on the broker does not know the client, whatever happens: it cannot be cleaned up
again, and what it asks for is refused. Its frames still reach the others, and with them a message
to the broker: this may cost another client its routes, for want of room. -/
theorem leaves_once (settings : BrokerSettings) (before : List Broker.Operation) (peer : String)
    (capacity : Nat) (b : Broker) (id : ClientId) (log : List Event)
    (hregister : ((Broker.ofSettings settings).run before).register peer capacity =
      .ok (b, id, log)) (moves : List Move) :
    let v := (start b id).run moves
    v.cleanups ≤ 1 ∧
    (∀ a, v.phase a = .over → v.cleanups = 1 ∨ v.phase a.other = .leaving) ∧
    (v.cleanups = 0 → ∃ c, v.broker.client? id = some c) ∧
    (∀ a, v.phase a = .leaving →
      let b' := (v.step (.cleanup a)).broker
      b'.clients = v.broker.clients.filter (fun c => c.id ≠ id) ∧
      b'.table.routes = v.broker.table.routes.filter (fun r => r.owner ≠ some id)) ∧
    (v.cleanups = 1 → ∀ later,
      let gone := v.broker.run later
      gone.client? id = none ∧ (∀ r ∈ gone.table.routes, r.owner ≠ some id) ∧
      gone.cleanup id = (gone, []) ∧
      ∀ f, (gone.onControl id f).1 = gone ∧
        let b' := (gone.route id f).1
        b'.ids = gone.ids ∧
        b'.table.routes = gone.table.routes.filter (fun r => !gone.overflows f r) ∧
        (∀ o c, gone.client? o = some c → b'.client? o = some { c with
          outbox := c.outbox.offer ((gone.subscriptionsFor o f.topic).map f.tagged) }) ∧
        (f.topic ≠ Control.subscribeTopic → f.topic ≠ Control.helloTopic →
          ∀ sender, b' = (gone.route sender f).1)) := by
  intro v
  have hbefore := (Broker.wellFormed_ofSettings settings).run before
  have hsound : v.Sound := (sound_start hbefore hregister).run moves
  have hid : v.client = id := client_run (start b id) moves
  have hpresent := hsound.present
  have hknown := hsound.known
  rw [hid] at hpresent hknown
  refine ⟨hsound.course.count_le, fun a ha => hsound.course.of_over ha, fun hcount => ?_,
    fun a ha => ?_, fun hcount later => ?_⟩
  · exact Option.isSome_iff_exists.mp (Broker.client?_isSome_iff.mpr (hpresent.mpr hcount))
  · have hbroker : (v.step (.cleanup a)).broker = (v.broker.cleanup id).1 := by
      rw [← hid]
      exact congrArg Attendance.broker (if_pos ha)
    rw [hbroker, Broker.cleanup_eq]
    exact ⟨rfl, rfl⟩
  · intro gone
    have hgone : gone.WellFormed := hsound.broker.run later
    -- Ids are never given out twice: a client that registers later has another one.
    have habsent : gone.client? id = none := by
      refine Broker.client?_eq_none_iff.mpr ?_
      refine hsound.broker.not_mem_ids_run hknown (fun hmem => ?_) later
      exact Nat.zero_ne_one ((hpresent.mp hmem).symm.trans hcount)
    refine ⟨habsent, fun r hr howner => ?_, hgone.cleanup_of_gone habsent, fun f => ?_⟩
    · exact Broker.client?_eq_none_iff.mp habsent (hgone.mem_ids_of_owner hr howner)
    · obtain ⟨hids, hroutes, hclients⟩ := hgone.route_of_gone habsent f
      refine ⟨Broker.onControl_of_gone habsent f, hids, hroutes, hclients, ?_⟩
      intro hsubscribe hhello sender
      refine hgone.route_sender ?_
      rw [Broker.onControl_of_plain hsubscribe hhello, Broker.onControl_of_plain hsubscribe hhello]

/-! ## A client that goes on talking -/

/-- A client that wants everything, and has room for one frame. -/
def listening : List Broker.Operation :=
  [.register "a" 1,
    .route 1 (Broker.message Control.subscribeTopic "\x7b\"topic\": \">\", \"route_id\": 5\x7d")]

/-- The writer fails, and the reader has one more message before it finds the end. -/
def writerFirst : List Move :=
  [.stop .writer, .cleanup .writer, .hangUp, .route Broker.helloFrame, .stop .reader]

theorem leaves_once_writerFirst :
    ∃ b log, ((Broker.ofSettings {}).run listening).register "b" 4 = .ok (b, 2, log) ∧
      let v := (start b 2).run writerFirst
      v.phase .reader = .over ∧ v.cleanups = 1 ∧
      ∀ later, (v.broker.run later).client? 2 = none ∧
        (v.broker.run later).cleanup 2 = (v.broker.run later, []) := by
  have hsecond : (((Broker.ofSettings {}).run listening).register "b" 4).toOption.map (·.2.1) =
      some 2 := by decide +kernel
  cases hregister : ((Broker.ofSettings {}).run listening).register "b" 4 with
  | error why =>
    rw [hregister] at hsecond
    nomatch hsecond
  | ok registered =>
    obtain ⟨b, id, log⟩ := registered
    rw [hregister] at hsecond
    obtain rfl : id = 2 := Option.some.inj hsecond
    obtain ⟨-, hover, -, -, hgone⟩ :=
      leaves_once {} listening "b" 4 b 2 log hregister writerFirst
    have hreader : ((start b 2).run writerFirst).phase .reader = .over := rfl
    have hcount : ((start b 2).run writerFirst).cleanups = 1 :=
      (hover .reader hreader).resolve_right nofun
    refine ⟨b, log, rfl, hreader, hcount, fun later => ?_⟩
    obtain ⟨habsent, -, hagain, -⟩ := hgone hcount later
    exact ⟨habsent, hagain⟩

/-- The second client has left, and the outbox of the first one is full. -/
def leftBehind : List Broker.Operation :=
  listening ++ [.register "b" 4, .route 2 (Broker.message "T" "0"), .cleanup 2]

/-- A message to the broker from a client that is gone costs another client its route. -/
theorem hello_of_gone_purges :
    ((Broker.ofSettings {}).run leftBehind).client? 2 = none ∧
      ((Broker.ofSettings {}).run leftBehind).routesOf 1 = [.forward ">" 5 1] ∧
      (((Broker.ofSettings {}).run leftBehind).route 2 Broker.helloFrame).1.routesOf 1 = [] := by
  refine ⟨?_, ?_, ?_⟩
  · rw [Broker.client?_eq_none_iff]
    decide +kernel
  · decide +kernel
  · decide +kernel

end Attendance

end TopicBus
