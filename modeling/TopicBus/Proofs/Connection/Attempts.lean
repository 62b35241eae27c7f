import Mathlib.Data.List.Forall2
import TopicBus.Proofs.Connection.Exchanges

/-!
How often a frame is sent. A send is a list of attempts: the first takes the stream as it is, each
further one goes the way to a new stream first. All but the last have lost their stream, and the
last decides what the caller gets (`send_bounded`); so the frame arrives in full on one stream at
most.
-/

namespace TopicBus

/-- One attempt to send a frame: the way to a stream, and the write on it. -/
structure Attempt where
  way : List Exchange
  write : Option (StreamId × Option IoFault)
  deriving DecidableEq, Repr

namespace Attempt

def exchanges (bytes : List UInt8) (x : Attempt) : List Exchange :=
  x.way ++ (x.write.map fun w => .wrote w.1 bytes w.2).toList

/-- How the attempt failed. Without a stream it counts as a write on a stream that is lost. -/
def fault? (x : Attempt) : Option Fault :=
  match x.write with
  | none => some Connection.noStream
  | some (_, failure) => failure.map .ofIo

end Attempt

/-- What a send that fails leaves of the subscriptions. -/
def Cause.undo : Cause → SubscriptionTable → SubscriptionTable
  | .subscribe id, t => (t.remove id).1
  | .publish, t | .request _, t => t

/-- The way to a stream: a bounded number of connects, pauses and messages of a greeting. -/
structure IsWay (c : Connection) (way : List Exchange) : Prop where
  unwritten : ∀ e ∈ way, e.isWrite = false
  connects : way.countP Exchange.isConnect ≤ c.connectAttempts
  length : way.length ≤ 2 * c.connectAttempts + c.subscriptions.entries.length

/-- The attempts of one send, up to the last. -/
structure Tried (c : Connection) (past : List Attempt) (last : Attempt) : Prop where
  /-- The first attempt takes the stream as it is. -/
  first : ∀ x, (past ++ [last]).head? = some x → x.way = []
  ways : ∀ x ∈ past ++ [last], IsWay c x.way
  /-- Only a lost stream is worth another attempt. -/
  lost : ∀ x ∈ past, ∃ why, x.fault? = some why ∧ why.isReconnectable = true
  bounded : past.length < c.sendAttempts

variable {origin c : Connection} {bytes : List UInt8} {cause : Cause} {past : List Attempt}
  {last : Attempt} {way : List Exchange} {es : List Exchange}

theorem isWay_nil (c : Connection) : IsWay c [] :=
  ⟨fun _ h => (nomatch h), Nat.zero_le _, Nat.zero_le _⟩

theorem IsWay.concat (h : IsWay c way) {e : Exchange} (he : e.isWrite = false)
    (hconnects : way.countP Exchange.isConnect + (if e.isConnect then 1 else 0) ≤
      c.connectAttempts)
    (hlength : way.length + 1 ≤ 2 * c.connectAttempts + c.subscriptions.entries.length) :
    IsWay c (way ++ [e]) := by
  refine ⟨fun x hx => ?_, ?_, ?_⟩
  · rcases List.mem_append.mp hx with hx | hx
    · exact h.unwritten x hx
    · exact List.mem_singleton.mp hx ▸ he
  · rwa [List.countP_append, List.countP_singleton]
  · rwa [List.length_append, List.length_singleton]

namespace Tried

theorem start (c : Connection) : Tried c [] ⟨[], none⟩ := by
  refine ⟨fun x hx => ?_, fun x hx => ?_, fun _ h => (nomatch h), ?_⟩
  · exact Option.some.inj hx ▸ rfl
  · exact List.mem_singleton.mp hx ▸ isWay_nil c
  · exact Nat.lt_of_lt_of_le Nat.zero_lt_one (Nat.le_max_right _ _)

theorem isWay (h : Tried c past last) : IsWay c last.way :=
  h.ways last (List.mem_append_right _ List.mem_cons_self)

/-- The last attempt goes on. The first one goes no way at all. -/
theorem withLast (h : Tried c past last) {next : Attempt} (hway : IsWay c next.way)
    (hfirst : past = [] → next.way = last.way) : Tried c past next := by
  refine ⟨fun x hx => ?_, fun x hx => ?_, h.lost, h.bounded⟩
  · cases past with
    | nil =>
      obtain rfl := Option.some.inj hx
      exact (hfirst rfl).trans (h.first last rfl)
    | cons y past => exact h.first x hx
  · rcases List.mem_append.mp hx with hx | hx
    · exact h.ways x (List.mem_append_left _ hx)
    · exact List.mem_singleton.mp hx ▸ hway

theorem again (h : Tried c past last) {why : Fault} (hwhy : last.fault? = some why)
    (hlost : why.isReconnectable = true) (hmore : past.length + 1 < c.sendAttempts) :
    Tried c (past ++ [last]) ⟨[], none⟩ := by
  refine ⟨fun x hx => ?_, fun x hx => ?_, fun x hx => ?_, ?_⟩
  · rw [List.head?_append_of_ne_nil _ (by simp)] at hx
    exact h.first x hx
  · rcases List.mem_append.mp hx with hx | hx
    · exact h.ways x hx
    · exact List.mem_singleton.mp hx ▸ isWay_nil c
  · rcases List.mem_append.mp hx with hx | hx
    · exact h.lost x hx
    · exact List.mem_singleton.mp hx ▸ ⟨why, hwhy, hlost⟩
  · rwa [List.length_append, List.length_singleton]

end Tried

/-! ## What a send can have come to -/

/-- How far the way has led: every connect but the first comes after a pause, and each message of a
greeting is written once. -/
def Stage.Follows (c : Connection) (way : List Exchange) : Stage → Prop
  | .connecting attempt =>
    way.countP Exchange.isConnect + 1 = attempt ∧ way.length + 2 = 2 * attempt ∧
      attempt ≤ c.connectAttempts
  | .pausing _ attempt =>
    way.countP Exchange.isConnect + 1 = attempt ∧ way.length + 3 = 2 * attempt ∧
      attempt ≤ c.connectAttempts
  | .greeting g =>
    way.countP Exchange.isConnect ≤ c.connectAttempts ∧
      way.length + g.rest.length + 1 ≤ 2 * c.connectAttempts + c.subscriptions.entries.length

/-- Only a stream that is still looked for is connected to. -/
theorem Stage.Follows.concat {stage : Stage} (h : stage.Follows c way) (hway : IsWay c way)
    {e : Exchange} (he : e.isWrite = false)
    (hgreeting : ∀ g, stage = .greeting g → e.isConnect = false) : IsWay c (way ++ [e]) := by
  have hone : (if e.isConnect then 1 else 0) ≤ 1 := by split_ifs <;> omega
  cases stage with
  | connecting attempt =>
    obtain ⟨hcount, hlength, hle⟩ := h
    exact hway.concat he (by omega) (by omega)
  | pausing wake attempt =>
    obtain ⟨hcount, hlength, hle⟩ := h
    exact hway.concat he (by omega) (by omega)
  | greeting g =>
    obtain ⟨hcount, hlength⟩ := h
    exact hway.concat he (by simpa [hgreeting g rfl] using hcount) (by omega)

/-- The last attempt is still going on. -/
structure Underway (origin : Connection) (bytes : List UInt8) (cause : Cause)
    (past : List Attempt) (way : List Exchange) (c : Connection) (a : Activity) : Prop where
  settings : c.settings = origin.settings
  subscriptions : c.subscriptions = origin.subscriptions
  sending : a.sending? = some (⟨bytes, past.length + 1⟩, cause)
  stage : ∀ stage goal, a = .establishing stage goal →
    c.attached = none ∧ past ≠ [] ∧ stage.Follows origin way

/-- A send is still going on, or one write has succeeded, or it has failed like its last attempt. -/
inductive Trying (origin : Connection) (bytes : List UInt8) (cause : Cause) (past : List Attempt)
    (last : Attempt) : Connection × Progress → Prop
  | underway {c : Connection} {a : Activity} (hwrite : last.write = none)
      (h : Underway origin bytes cause past last.way c a) :
      Trying origin bytes cause past last (c, .waiting a)
  | delivered {c : Connection} (hok : last.fault? = none)
      (ht : c.subscriptions = origin.subscriptions) :
      Trying origin bytes cause past last (c.sendDone cause)
  | failed {c : Connection} {why : Fault} (hwhy : last.fault? = some why)
      (hstop : why.isReconnectable = true → past.length + 1 = origin.sendAttempts)
      (ht : c.subscriptions = cause.undo origin.subscriptions) :
      Trying origin bytes cause past last (c, .finished (.failed why))

theorem underway_establishing (hsettings : c.settings = origin.settings)
    (ht : c.subscriptions = origin.subscriptions) (hnone : c.attached = none) (hpast : past ≠ [])
    {stage : Stage} (hfollows : stage.Follows origin way) :
    Underway origin bytes cause past way c
      (.establishing stage (.resend ⟨bytes, past.length + 1⟩ cause)) := by
  refine ⟨hsettings, ht, rfl, fun stage' goal heq => ?_⟩
  obtain ⟨rfl, rfl⟩ := Activity.establishing.inj heq
  exact ⟨hnone, hpast, hfollows⟩

/-- What a send has come to, after these exchanges. -/
def Course (origin : Connection) (bytes : List UInt8) (cause : Cause) (es : List Exchange)
    (next : Connection × Progress) : Prop :=
  ∃ past last, es = (past ++ [last]).flatMap (Attempt.exchanges bytes) ∧ Tried origin past last ∧
    Trying origin bytes cause past last next

theorem exchanges_concat (past : List Attempt) (way : List Exchange) (e : Exchange) :
    (past ++ [Attempt.mk (way ++ [e]) none]).flatMap (Attempt.exchanges bytes) =
      (past ++ [Attempt.mk way none]).flatMap (Attempt.exchanges bytes) ++ [e] := by
  simp [Attempt.exchanges]

theorem exchanges_write (past : List Attempt) (way : List Exchange) (stream : StreamId)
    (failure : Option IoFault) :
    (past ++ [Attempt.mk way (some (stream, failure))]).flatMap (Attempt.exchanges bytes) =
      (past ++ [Attempt.mk way none]).flatMap (Attempt.exchanges bytes) ++
        [.wrote stream bytes failure] := by
  simp [Attempt.exchanges]

namespace Connection

theorem sendAttempts_eq (h : c.settings = origin.settings) :
    c.sendAttempts = origin.sendAttempts := by
  rw [sendAttempts, h, sendAttempts]

theorem connectAttempts_eq (h : c.settings = origin.settings) :
    c.connectAttempts = origin.connectAttempts := by
  rw [connectAttempts, h, connectAttempts]

theorem one_le_connectAttempts (c : Connection) : 1 ≤ c.connectAttempts := Nat.le_max_right _ _

theorem subscriptions_sendFailed (c : Connection) (cause : Cause) (why : Fault) :
    (c.sendFailed cause why).1.subscriptions = cause.undo c.subscriptions := by
  cases cause <;> rfl

/-- A failed attempt is followed by another one, or the send has failed like it. -/
theorem course_writeFailed (htried : Tried origin past last)
    (hsettings : c.settings = origin.settings) (ht : c.subscriptions = origin.subscriptions)
    {why : Fault} (hwhy : last.fault? = some why) :
    Course origin bytes cause ((past ++ [last]).flatMap (Attempt.exchanges bytes))
      (c.writeFailed ⟨bytes, past.length + 1⟩ cause why) := by
  unfold writeFailed
  rw [sendAttempts_eq hsettings]
  split_ifs with hagain
  · obtain ⟨hlost, hmore⟩ := Bool.and_eq_true_iff.mp hagain
    refine ⟨past ++ [last], ⟨[], none⟩, ?_, htried.again hwhy hlost (of_decide_eq_true hmore), ?_⟩
    · simp [Attempt.exchanges]
    · have hlength : (past ++ [last]).length = past.length + 1 := List.length_append
      have hfollows : (Stage.connecting 1).Follows origin [] :=
        ⟨rfl, rfl, origin.one_le_connectAttempts⟩
      rw [← hlength]
      refine .underway rfl
        (underway_establishing (c := c.detach) hsettings ht rfl ?_ hfollows)
      exact List.append_ne_nil_of_right_ne_nil _ (List.cons_ne_nil _ _)
  · refine ⟨past, last, rfl, htried, .failed hwhy (fun hlost => ?_) ?_⟩
    · have hnomore : ¬ past.length + 1 < origin.sendAttempts := fun hmore =>
        hagain (Bool.and_eq_true_iff.mpr ⟨hlost, decide_eq_true hmore⟩)
      exact Nat.le_antisymm htried.bounded (Nat.le_of_not_lt hnomore)
    · exact (subscriptions_sendFailed c cause why).trans (ht ▸ rfl)

/-- The way goes on. -/
theorem course_onward (htried : Tried origin past ⟨way, none⟩) (hpast : past ≠ []) {e : Exchange}
    (hway : IsWay origin (way ++ [e])) {a : Activity}
    (h : Underway origin bytes cause past (way ++ [e]) c a) :
    Course origin bytes cause ((past ++ [Attempt.mk way none]).flatMap (Attempt.exchanges bytes) ++
      [e]) (c, .waiting a) :=
  ⟨past, ⟨way ++ [e], none⟩, (exchanges_concat past way e).symm,
    htried.withLast hway fun hnil => absurd hnil hpast, .underway rfl h⟩

/-- The way has led to no stream. -/
theorem course_lost (htried : Tried origin past ⟨way, none⟩) (hpast : past ≠ []) {e : Exchange}
    (hway : IsWay origin (way ++ [e])) (hsettings : c.settings = origin.settings)
    (ht : c.subscriptions = origin.subscriptions) :
    Course origin bytes cause ((past ++ [Attempt.mk way none]).flatMap (Attempt.exchanges bytes) ++
      [e]) (c.writeFailed ⟨bytes, past.length + 1⟩ cause noStream) := by
  rw [← exchanges_concat]
  exact course_writeFailed (htried.withLast hway fun hnil => absurd hnil hpast) hsettings ht rfl

/-- What a reply makes of a send that is going on. -/
theorem course_resume (htried : Tried origin past ⟨way, none⟩) {a : Activity}
    (h : Underway origin bytes cause past way c a) (now : Nat) (r : Reply) :
    Course origin bytes cause ((past ++ [Attempt.mk way none]).flatMap (Attempt.exchanges bytes) ++
      (a.exchange? r).toList) (c.resume now a r) := by
  obtain ⟨hsettings, ht, hsending, hstage⟩ := h
  have hfree : c.IsFree a := fun stage goal heq => (hstage stage goal heq).1
  have hmoves := resume_moves hsending hfree now r
  generalize a.exchange? r = e at hmoves ⊢
  generalize c.resume now a r = next at hmoves ⊢
  have hconnects := connectAttempts_eq hsettings
  have hway : IsWay origin way := htried.isWay
  cases hmoves with
  | ignored =>
    refine ⟨past, ⟨way, none⟩, List.append_nil _, htried, .underway rfl ?_⟩
    exact ⟨hsettings, ht, hsending, hstage⟩
  | delivered =>
    refine ⟨past, ⟨way, some (_, none)⟩, (exchanges_write past way _ none).symm, ?_, ?_⟩
    · exact htried.withLast hway fun _ => rfl
    · exact .delivered rfl ht
  | @broken stream why =>
    rw [Option.toList_some, ← exchanges_write]
    have hwritten : Tried origin past ⟨way, some (stream, some why)⟩ :=
      htried.withLast hway fun _ => rfl
    exact course_writeFailed hwritten hsettings ht rfl
  | refused wake why hmore =>
    obtain ⟨hnone, hpast, hfollows⟩ := hstage _ _ rfl
    refine course_onward htried hpast (hfollows.concat hway rfl fun _ heq => nomatch heq)
      (underway_establishing hsettings ht hnone hpast ?_)
    obtain ⟨hcount, hlength, hle⟩ := hfollows
    refine ⟨?_, ?_, by omega⟩
    · simp [Exchange.isConnect]; omega
    · simp; omega
  | unreached why =>
    obtain ⟨-, hpast, hfollows⟩ := hstage _ _ rfl
    exact course_lost htried hpast (hfollows.concat hway rfl fun _ heq => nomatch heq) hsettings ht
  | rested =>
    obtain ⟨hnone, hpast, hfollows⟩ := hstage _ _ rfl
    refine course_onward htried hpast (hfollows.concat hway rfl fun _ heq => nomatch heq)
      (underway_establishing hsettings ht hnone hpast ?_)
    obtain ⟨hcount, hlength, hle⟩ := hfollows
    refine ⟨?_, ?_, hle⟩
    · simp [Exchange.isConnect]; omega
    · simp; omega
  | connected n hrest =>
    obtain ⟨hnone, hpast, hfollows⟩ := hstage _ _ rfl
    refine course_onward htried hpast (hfollows.concat hway rfl fun _ heq => nomatch heq)
      (underway_establishing (c := { c with nextSequence := n }) hsettings ht hnone hpast ?_)
    obtain ⟨hcount, hlength, hle⟩ := hfollows
    rw [ht] at hrest
    constructor
    · simp [Exchange.isConnect]; omega
    · simp; omega
  | speechless stream n =>
    obtain ⟨-, hpast, hfollows⟩ := hstage _ _ rfl
    exact course_lost htried hpast (hfollows.concat hway rfl fun _ heq => nomatch heq) hsettings ht
  | greeted n hrest =>
    obtain ⟨hnone, hpast, hfollows⟩ := hstage _ _ rfl
    refine course_onward htried hpast (hfollows.concat hway rfl fun _ _ => rfl)
      (underway_establishing (c := { c with nextSequence := n }) hsettings ht hnone hpast ?_)
    obtain ⟨hcount, hlength⟩ := hfollows
    constructor
    · simpa [Exchange.isConnect] using hcount
    · simp; omega
  | unheard failure n =>
    obtain ⟨-, hpast, hfollows⟩ := hstage _ _ rfl
    exact course_lost htried hpast (hfollows.concat hway rfl fun _ _ => rfl) hsettings ht
  | attached =>
    obtain ⟨-, hpast, hfollows⟩ := hstage _ _ rfl
    exact course_onward htried hpast (hfollows.concat hway rfl fun _ _ => rfl)
      ⟨hsettings, ht, rfl, fun _ _ heq => nomatch heq⟩

theorem course_sendFrame (hopen : c.isClosed = false) {header : Header} {payload : List UInt8}
    (hwithin : payload.length ≤ c.settings.maxPayload)
    (hcompose : (c.compose header payload).2 = .ok bytes) (cause : Cause) :
    Course c bytes cause [] (c.sendFrame header payload cause) := by
  have hsendFrame : c.sendFrame header payload cause =
      (c.compose header payload).1.write ⟨bytes, 1⟩ cause := by
    unfold sendFrame
    rw [hopen, if_neg Bool.false_ne_true, if_neg (Nat.not_lt.mpr hwithin)]
    split
    · next c' bytes' heq =>
      rw [heq] at hcompose
      rw [heq, Except.ok.inj hcompose]
    · next c' why heq =>
      rw [heq] at hcompose
      cases hcompose
  rw [hsendFrame]
  cases ha : c.attached with
  | some a =>
    have hwrite : (c.compose header payload).1.write ⟨bytes, 1⟩ cause =
        ((c.compose header payload).1, .waiting (.writing a.stream ⟨bytes, 1⟩ cause)) := by
      simp only [write, compose, ha]
    rw [hwrite]
    exact ⟨[], ⟨[], none⟩, rfl, .start c, .underway rfl ⟨rfl, rfl, rfl, by simp⟩⟩
  | none =>
    rw [write_of_detached (c := (c.compose header payload).1) ha]
    exact course_writeFailed (c := (c.compose header payload).1) (.start c) rfl rfl rfl

/-- A deadline concerns requests only. -/
theorem expire_of_sending {a : Activity} {s : Sending} (ha : a.sending? = some (s, cause))
    (hcause : ∀ deadline, cause ≠ .request deadline) : c.expire a = (c, .waiting a) := by
  unfold expire
  split
  · obtain ⟨-, rfl⟩ := Prod.mk.inj (Option.some.inj ha)
    exact absurd rfl (hcause _)
  · obtain ⟨-, rfl⟩ := Prod.mk.inj (Option.some.inj ha)
    exact absurd rfl (hcause _)
  · nomatch ha
  · nomatch ha
  · nomatch ha
  · rfl

end Connection

/-! ## Whole runs -/

/-- The next operation is not begun, and a request is left to wait for its response. -/
def Happening.Leaves (cause : Cause) : Happening → Prop
  | .begin _ _ => False
  | .reply _ .woken | .expire => ∀ deadline, cause ≠ .request deadline
  | .reply _ _ | .receive _ => True

theorem Happening.Leaves.operation? {x : Happening} (hx : x.Leaves cause) :
    x.operation? = none := by
  cases x with
  | begin now op => exact hx.elim
  | _ => rfl

namespace Conversation

variable {v : Conversation} {next : Connection × Progress} {x : Happening} {o : Outcome}

/-- A connection is given a frame to send. -/
def sending (v : Conversation) (header : Header) (payload : List UInt8) (cause : Cause) :
    Conversation :=
  { v with outcome := none }.settle (v.connection.sendFrame header payload cause)

def exchange? (v : Conversation) : Happening → Option Exchange
  | .reply _ r => v.activity.bind (·.exchange? r)
  | _ => none

/-- What a connection that has a frame to send goes through. -/
def exchanges (v : Conversation) : List Happening → List Exchange
  | [] => []
  | x :: hs => (v.exchange? x).toList ++ (v.step x).exchanges hs

/-- How a conversation stands after what an operation has said. -/
def Stands (v : Conversation) : Connection × Progress → Prop
  | (c, .waiting a) => v.connection = c ∧ v.activity = some a ∧ v.outcome = none
  | (c, .finished o) => v.connection = c ∧ v.activity = none ∧ v.outcome = some o

theorem stands_settle (hnone : v.outcome = none) (next : Connection × Progress) :
    (v.settle next).Stands next := by
  obtain ⟨c, progress⟩ := next
  cases progress with
  | waiting a => exact ⟨rfl, rfl, hnone⟩
  | finished o => exact ⟨rfl, rfl, rfl⟩

/-- Nothing more happens to an operation that is over. -/
theorem Stands.step_finished (h : v.Stands (c, .finished o)) (hx : x.operation? = none) :
    v.exchange? x = none ∧ ∃ c', c'.subscriptions = c.subscriptions ∧
      (v.step x).Stands (c', .finished o) := by
  obtain ⟨rfl, hrest, ho⟩ := h
  cases x with
  | begin now op => nomatch hx
  | reply now r =>
    rw [step_reply_of_rest hrest]
    exact ⟨by simp only [exchange?, hrest, Option.bind_none], _, rfl, rfl, hrest, ho⟩
  | expire =>
    rw [step_expire_of_rest hrest]
    exact ⟨rfl, _, rfl, rfl, hrest, ho⟩
  | receive chunk =>
    have hsame := Connection.sameWriting_receive v.connection chunk
    exact ⟨rfl, _, hsame.subscriptions, rfl, hrest, ho⟩

theorem Stands.run_finished (h : v.Stands (c, .finished o)) {hs : List Happening}
    (hnone : asked hs = []) : v.exchanges hs = [] ∧ ∃ c', c'.subscriptions = c.subscriptions ∧
      (v.run hs).Stands (c', .finished o) := by
  induction hs generalizing v c with
  | nil => exact ⟨rfl, c, rfl, h⟩
  | cons x hs ih =>
    obtain ⟨hx, hnone⟩ := asked_cons_eq_nil.mp hnone
    obtain ⟨hexchange, c', hsame, hstep⟩ := h.step_finished hx
    obtain ⟨hexchanges, c'', hsame', hrun⟩ := ih hstep hnone
    refine ⟨?_, c'', hsame'.trans hsame, hrun⟩
    rw [exchanges, hexchange, hexchanges]
    rfl

/-- A request that has been sent waits for its response. -/
theorem Stands.step_awaiting {deadline : Nat}
    (h : v.Stands (c, .waiting (.awaitingResponse deadline))) (hx : x.Leaves (.request deadline)) :
    v.exchange? x = none ∧ ∃ c', c'.subscriptions = c.subscriptions ∧
      (v.step x).Stands (c', .waiting (.awaitingResponse deadline)) := by
  obtain ⟨rfl, hactivity, ho⟩ := h
  cases x with
  | begin now op => exact hx.elim
  | reply now r =>
    cases r with
    | woken => exact absurd rfl (hx deadline)
    | _ =>
      simp only [exchange?, hactivity, Conversation.step, Connection.resume]
      exact ⟨rfl, v.connection, rfl, rfl, rfl, ho⟩
  | expire => exact absurd rfl (hx deadline)
  | receive chunk =>
    have hsame := Connection.sameWriting_receive v.connection chunk
    exact ⟨rfl, _, hsame.subscriptions, rfl, hactivity, ho⟩

/-- A frame on its way is affected by replies only. -/
theorem Stands.step_underway {a : Activity} (h : v.Stands (c, .waiting a))
    (htried : Tried origin past ⟨way, none⟩)
    (hunderway : Underway origin bytes cause past way c a) (hx : x.Leaves cause) :
    ∃ next', (v.step x).Stands next' ∧ Course origin bytes cause
      ((past ++ [Attempt.mk way none]).flatMap (Attempt.exchanges bytes) ++ (v.exchange? x).toList)
      next' := by
  obtain ⟨rfl, ha, ho⟩ := h
  have hstill : Course origin bytes cause
      ((past ++ [Attempt.mk way none]).flatMap (Attempt.exchanges bytes) ++ [])
      (v.connection, .waiting a) :=
    ⟨past, ⟨way, none⟩, List.append_nil _, htried, .underway rfl hunderway⟩
  cases x with
  | begin now op => exact hx.elim
  | reply now r =>
    refine ⟨v.connection.resume now a r, ?_, ?_⟩
    · rw [step_reply_of_busy ha]
      exact stands_settle (v := { v with written := a.demand.record v.written r }) ho _
    · simp only [exchange?, ha, Option.bind_some]
      exact Connection.course_resume htried hunderway now r
  | expire =>
    refine ⟨(v.connection, .waiting a), ?_, hstill⟩
    rw [step_expire_of_busy ha, Connection.expire_of_sending hunderway.sending hx]
    exact ⟨rfl, rfl, ho⟩
  | receive chunk =>
    have hsame := Connection.sameWriting_receive v.connection chunk
    refine ⟨(v.connection.receive chunk, .waiting a), ⟨rfl, ha, ho⟩, past, ⟨way, none⟩,
      List.append_nil _, htried, .underway rfl ?_⟩
    refine ⟨(Connection.reads_receive _ chunk).settings.trans hunderway.settings,
      hsame.subscriptions.trans hunderway.subscriptions, hunderway.sending, ?_⟩
    intro stage goal heq
    obtain ⟨hnone, hrest⟩ := hunderway.stage stage goal heq
    exact ⟨hsame.detached hnone, hrest⟩

theorem Stands.step (h : v.Stands next) (hcourse : Course origin bytes cause es next)
    (hx : x.Leaves cause) : ∃ next', (v.step x).Stands next' ∧
      Course origin bytes cause (es ++ (v.exchange? x).toList) next' := by
  obtain ⟨past, last, rfl, htried, htrying⟩ := hcourse
  cases htrying with
  | underway hwrite hunderway =>
    obtain ⟨way, write⟩ := last
    obtain rfl : write = none := hwrite
    exact h.step_underway htried hunderway hx
  | @delivered c hok ht =>
    have hdone : v.exchange? x = none ∧ ∃ c', c'.subscriptions = c.subscriptions ∧
        (v.step x).Stands (Connection.sendDone c' cause) := by
      cases cause with
      | publish => exact h.step_finished hx.operation?
      | subscribe id => exact h.step_finished hx.operation?
      | request deadline => exact h.step_awaiting hx
    obtain ⟨hexchange, c', hsame, hstep⟩ := hdone
    rw [hexchange]
    exact ⟨_, hstep, past, last, List.append_nil _, htried, .delivered hok (hsame.trans ht)⟩
  | failed hwhy hstop ht =>
    obtain ⟨hexchange, c', hsame, hstep⟩ := h.step_finished hx.operation?
    rw [hexchange]
    exact ⟨_, hstep, past, last, List.append_nil _, htried, .failed hwhy hstop (hsame.trans ht)⟩

theorem Stands.run (h : v.Stands next) (hcourse : Course origin bytes cause es next)
    {hs : List Happening} (hleaves : ∀ x ∈ hs, x.Leaves cause) :
    ∃ next', (v.run hs).Stands next' ∧ Course origin bytes cause (es ++ v.exchanges hs) next' := by
  induction hs generalizing v next es with
  | nil => exact ⟨next, h, (List.append_nil es).symm ▸ hcourse⟩
  | cons x hs ih =>
    obtain ⟨hx, hleaves⟩ := List.forall_mem_cons.mp hleaves
    obtain ⟨next', hstands, hstep⟩ := h.step hcourse hx
    obtain ⟨last, hlast, hrun⟩ := ih hstands hstep hleaves
    refine ⟨last, hlast, ?_⟩
    rwa [List.append_assoc] at hrun

end Conversation

end TopicBus
