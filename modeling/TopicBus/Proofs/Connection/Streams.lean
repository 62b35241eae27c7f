import TopicBus.Proofs.Connection.Replay

/-!
The bytes on the streams of a connection. A write goes out in pieces and may break off: it fails, or
it is given up at a deadline. A stream that was given up is neither attached nor greeted any more
(`Guarded`), so a stream carries whole frames and at most the beginning of one more, the last thing
on it (`Traffic.whole_frames`).
-/

namespace TopicBus

/-- The bytes of a frame. -/
def IsFrame (bytes : List UInt8) : Prop := ∃ f : Frame, f.encode = .ok bytes

/-- Whole frames, and the rest after them. -/
def FramesThen (bytes rest : List UInt8) : Prop :=
  ∃ frames : List (List UInt8), (∀ w ∈ frames, IsFrame w) ∧ bytes = frames.flatten ++ rest

namespace FramesThen

variable {bytes rest w : List UInt8}

theorem nil : FramesThen [] [] := ⟨[], List.forall_mem_nil _, rfl⟩

theorem append (h : FramesThen bytes rest) (more : List UInt8) :
    FramesThen (bytes ++ more) (rest ++ more) := by
  obtain ⟨frames, hframes, rfl⟩ := h
  exact ⟨frames, hframes, List.append_assoc ..⟩

/-- The rest has become a whole frame. -/
theorem complete (h : FramesThen bytes w) (hw : IsFrame w) : FramesThen bytes [] := by
  obtain ⟨frames, hframes, rfl⟩ := h
  refine ⟨frames ++ [w], ?_, by simp⟩
  exact List.forall_mem_append.mpr ⟨hframes, List.forall_mem_singleton.mpr hw⟩

end FramesThen

/-! ## What is written on next -/

/-- The stream and the bytes of a write that is waited for. -/
def Activity.writing? (a : Activity) : Option (StreamId × List UInt8) :=
  match a.demand with
  | .write stream bytes => some (stream, bytes)
  | _ => none

/-- Whether a reply tells how a write ended. -/
def Reply.endsWrite : Reply → Bool
  | .written | .writeFailed _ => true
  | .connected _ _ _ | .refused _ | .rested | .woken => false

variable {p q : StreamId → Prop}

def Connection.Guarded (p : StreamId → Prop) (c : Connection) : Prop :=
  ∀ a, c.attached = some a → p a.stream

def Goal.Whole : Goal → Prop
  | .resend sending _ => IsFrame sending.bytes
  | .opening | .dispatch _ => True

def Stage.Guarded (p : StreamId → Prop) : Stage → Prop
  | .greeting g => p g.stream ∧ IsFrame g.bytes
  | .connecting _ | .pausing _ _ => True

/-- Only whole frames are written, and only on streams with the property. While a stream is being
established, none is attached. -/
def Activity.Guarded (p : StreamId → Prop) (c : Connection) : Activity → Prop
  | .establishing stage goal => c.attached = none ∧ stage.Guarded p ∧ goal.Whole
  | .writing stream sending _ => p stream ∧ IsFrame sending.bytes
  | .awaitingResponse _ | .awaitingEvent _ | .shuttingDown _ => True

def Progress.Guarded (p : StreamId → Prop) (c : Connection) : Progress → Prop
  | .waiting a => a.Guarded p c
  | .finished _ => True

def Guarded (p : StreamId → Prop) (reached : Connection × Progress) : Prop :=
  reached.1.Guarded p ∧ reached.2.Guarded p reached.1

theorem Activity.Guarded.writing {c : Connection} {a : Activity} (h : a.Guarded p c)
    {s : StreamId} {w : List UInt8} (hw : a.writing? = some (s, w)) : p s ∧ IsFrame w := by
  cases a with
  | establishing stage goal =>
    cases stage with
    | greeting g =>
      cases hw
      exact h.2.1
    | connecting attempt => nomatch hw
    | pausing wake attempt => nomatch hw
  | writing stream sending cause =>
    cases hw
    exact h
  | awaitingResponse deadline => nomatch hw
  | awaitingEvent deadline => nomatch hw
  | shuttingDown stream => nomatch hw

theorem Activity.Guarded.mono {c : Connection} {a : Activity} (h : a.Guarded p c)
    (hpq : ∀ s, p s → q s) : a.Guarded q c := by
  cases a with
  | establishing stage goal =>
    obtain ⟨hdetached, hstage, hgoal⟩ := h
    cases stage with
    | greeting g => exact ⟨hdetached, ⟨hpq _ hstage.1, hstage.2⟩, hgoal⟩
    | connecting attempt => exact ⟨hdetached, trivial, hgoal⟩
    | pausing wake attempt => exact ⟨hdetached, trivial, hgoal⟩
  | writing stream sending cause => exact ⟨hpq _ h.1, h.2⟩
  | awaitingResponse deadline => trivial
  | awaitingEvent deadline => trivial
  | shuttingDown stream => trivial

namespace Connection

variable {c : Connection}

theorem guarded_of_detached (h : c.attached = none) : c.Guarded p := by
  intro a ha
  rw [h] at ha
  nomatch ha

theorem SameWriting.guarded {c' : Connection} (h : SameWriting c c') (hc : c.Guarded p) :
    c'.Guarded p := by
  intro a ha
  obtain ⟨b, hb, hstream⟩ := h.exists_attached ha
  exact hstream ▸ hc b hb

theorem SameWriting.activity_guarded {c' : Connection} (h : SameWriting c c') {a : Activity}
    (ha : a.Guarded p c) : a.Guarded p c' := by
  cases a with
  | establishing stage goal => exact ⟨h.detached ha.1, ha.2⟩
  | writing stream sending cause => exact ha
  | awaitingResponse deadline => trivial
  | awaitingEvent deadline => trivial
  | shuttingDown stream => trivial

theorem guarded_establish {goal : Goal} (hgoal : goal.Whole) :
    TopicBus.Guarded p (c.establish goal) :=
  ⟨guarded_of_detached rfl, rfl, trivial, hgoal⟩

theorem guarded_sendFailed (h : c.Guarded p) (cause : Cause) (why : Fault) :
    TopicBus.Guarded p (c.sendFailed cause why) := by
  cases cause <;> exact ⟨h, trivial⟩

theorem guarded_writeFailed (h : c.Guarded p) {s : Sending} (hs : IsFrame s.bytes) (cause : Cause)
    (why : Fault) : TopicBus.Guarded p (c.writeFailed s cause why) := by
  unfold writeFailed
  split_ifs
  · exact guarded_establish hs
  · exact guarded_sendFailed h cause why

theorem guarded_write (h : c.Guarded p) {s : Sending} (hs : IsFrame s.bytes) (cause : Cause) :
    TopicBus.Guarded p (c.write s cause) := by
  unfold write
  split
  · next a ha => exact ⟨h, h a ha, hs⟩
  · exact guarded_writeFailed h hs cause _

theorem guarded_sendDone (h : c.Guarded p) (cause : Cause) :
    TopicBus.Guarded p (c.sendDone cause) := by
  cases cause <;> exact ⟨h, trivial⟩

theorem Guarded.withSequence (h : c.Guarded p) (n : UInt32) :
    ({ c with nextSequence := n } : Connection).Guarded p := h

theorem guarded_sendFrame (h : c.Guarded p) (header : Header) (payload : List UInt8)
    (cause : Cause) : TopicBus.Guarded p (c.sendFrame header payload cause) := by
  unfold sendFrame
  split_ifs
  · exact guarded_sendFailed h cause _
  · exact guarded_sendFailed h cause _
  · split
    · next c' bytes hcompose =>
      obtain ⟨rfl, hbytes⟩ := Prod.mk.inj hcompose
      have hframe : IsFrame bytes := ⟨_, hbytes⟩
      exact guarded_write (h.withSequence _) (s := ⟨bytes, 1⟩) hframe cause
    · next c' why hcompose =>
      obtain ⟨rfl, -⟩ := Prod.mk.inj hcompose
      exact guarded_sendFailed (h.withSequence _) cause why

theorem guarded_dispatchFrom (h : c.Guarded p) (deadline : Option Nat) (inbound : List Inbound) :
    TopicBus.Guarded p (c.dispatchFrom deadline inbound) := by
  induction inbound with
  | nil => exact ⟨h, trivial⟩
  | cons event rest ih =>
    cases event with
    | frame f => exact ⟨h, trivial⟩
    | closed generation why =>
      unfold dispatchFrom
      split_ifs
      · exact guarded_establish trivial
      · exact ih

theorem guarded_dispatchNext (h : c.Guarded p) (deadline : Option Nat) :
    TopicBus.Guarded p (c.dispatchNext deadline) := by
  unfold dispatchNext
  split_ifs
  · exact ⟨h, trivial⟩
  · exact guarded_establish trivial
  · exact guarded_dispatchFrom h deadline _

/-! ## Establishing a stream -/

theorem guarded_established (h : c.Guarded p) {goal : Goal} (hgoal : goal.Whole) :
    TopicBus.Guarded p (c.established goal) := by
  cases goal with
  | opening => exact ⟨h, trivial⟩
  | resend sending cause => exact guarded_write h hgoal cause
  | dispatch deadline => exact guarded_dispatchNext h deadline

theorem guarded_establishFailed (h : c.Guarded p) (why : Fault) {goal : Goal}
    (hgoal : goal.Whole) : TopicBus.Guarded p (c.establishFailed why goal) := by
  cases goal with
  | opening => exact ⟨h, trivial⟩
  | resend sending cause => exact guarded_write h hgoal cause
  | dispatch deadline => exact ⟨h, trivial⟩

theorem guarded_greet (hdetached : c.attached = none) {g : Greeting} (hstream : p g.stream)
    {goal : Goal} (hgoal : goal.Whole) : TopicBus.Guarded p (c.greet g goal) := by
  have h : c.Guarded p := guarded_of_detached hdetached
  unfold greet
  split
  · have hattached : (c.attach g).Guarded p := by
      rintro a ⟨⟩
      exact hstream
    exact guarded_established hattached hgoal
  · split
    · exact guarded_establishFailed h _ hgoal
    · split
      · next c' bytes hcompose =>
        obtain ⟨rfl, hbytes⟩ := Prod.mk.inj hcompose
        exact ⟨h, hdetached, ⟨hstream, _, hbytes⟩, hgoal⟩
      · next c' why hcompose =>
        obtain ⟨rfl, -⟩ := Prod.mk.inj hcompose
        exact guarded_establishFailed (h.withSequence _) why hgoal

theorem guarded_introduce (hdetached : c.attached = none) {stream : StreamId} (hstream : p stream)
    (localEndpoint remoteEndpoint : String) {goal : Goal} (hgoal : goal.Whole) :
    TopicBus.Guarded p (c.introduce stream localEndpoint remoteEndpoint goal) := by
  have h : c.Guarded p := guarded_of_detached hdetached
  unfold introduce
  split
  · next c' bytes hcompose =>
    obtain ⟨rfl, hbytes⟩ := Prod.mk.inj hcompose
    exact ⟨h, hdetached, ⟨hstream, _, hbytes⟩, hgoal⟩
  · next c' why hcompose =>
    obtain ⟨rfl, -⟩ := Prod.mk.inj hcompose
    exact guarded_establishFailed (h.withSequence _) why hgoal

theorem guarded_connectFailed (hdetached : c.attached = none) (now attempt : Nat) (why : IoFault)
    {goal : Goal} (hgoal : goal.Whole) :
    TopicBus.Guarded p (c.connectFailed now attempt why goal) := by
  unfold connectFailed
  split_ifs
  · exact ⟨guarded_of_detached hdetached, hdetached, trivial, hgoal⟩
  · exact guarded_establishFailed (guarded_of_detached hdetached) _ hgoal

/-! ## Operations -/

theorem guarded_send (h : c.Guarded p) (d : Document) : TopicBus.Guarded p (c.send d) := by
  unfold send
  split
  · exact guarded_sendFrame h _ _ _
  · exact ⟨h, trivial⟩

theorem guarded_respond (h : c.Guarded p) (request : Header) (d : Document) :
    TopicBus.Guarded p (c.respond request d) := by
  unfold respond
  split
  · exact guarded_sendFrame h _ _ _
  · exact ⟨h, trivial⟩

theorem guarded_subscribe (h : c.Guarded p) (expression : String) :
    TopicBus.Guarded p (c.subscribe expression) := by
  unfold subscribe
  split
  · exact ⟨h, trivial⟩
  · split
    · exact ⟨h, trivial⟩
    · next subscriptions id _ =>
      let d : Connection := { c with subscriptions := subscriptions }
      have hd : d.Guarded p := h
      split
      · exact ⟨hd, trivial⟩
      · exact guarded_sendFrame hd _ _ _

theorem guarded_close : TopicBus.Guarded p c.close := by
  unfold close
  split <;> exact ⟨guarded_of_detached rfl, trivial⟩

theorem guarded_begin (h : c.Guarded p) (now : Nat) (op : Operation) :
    TopicBus.Guarded p (c.begin now op) := by
  cases op with
  | publish topic d => exact guarded_sendFrame h _ _ _
  | publishBytes topic payload => exact guarded_sendFrame h _ _ _
  | send d => exact guarded_send h d
  | respond request d => exact guarded_respond h request d
  | subscribe expression => exact guarded_subscribe h expression
  | request topic d timeout =>
    have hwaiting : ({ c with slot := .waiting } : Connection).Guarded p := h
    exact guarded_sendFrame hwaiting _ _ _
  | dispatch timeout => exact guarded_dispatchNext h _
  | close => exact guarded_close

theorem guarded_takeResponse (h : c.Guarded p) (deadline : Nat) :
    TopicBus.Guarded p (c.takeResponse deadline) := by
  unfold takeResponse
  split <;> exact ⟨h, trivial⟩

theorem guarded_resume (h : c.Guarded p) {a : Activity} (ha : a.Guarded p c) (now : Nat)
    {r : Reply} (hr : ∀ stream l e, r = .connected stream l e → p stream) :
    TopicBus.Guarded p (c.resume now a r) := by
  have hsame : TopicBus.Guarded p (c, .waiting a) := ⟨h, ha⟩
  cases a with
  | establishing stage goal =>
    obtain ⟨hdetached, hstage, hgoal⟩ := ha
    cases stage with
    | connecting attempt =>
      cases r with
      | connected stream l e => exact guarded_introduce hdetached (hr _ _ _ rfl) l e hgoal
      | refused why => exact guarded_connectFailed hdetached now attempt why hgoal
      | _ => exact hsame
    | pausing wake attempt =>
      cases r with
      | rested => exact ⟨h, hdetached, trivial, hgoal⟩
      | _ => exact hsame
    | greeting g =>
      cases r with
      | written => exact guarded_greet hdetached hstage.1 hgoal
      | writeFailed why => exact guarded_establishFailed h _ hgoal
      | _ => exact hsame
  | writing stream sending cause =>
    cases r with
    | written => exact guarded_sendDone h cause
    | writeFailed why => exact guarded_writeFailed h ha.2 cause _
    | _ => exact hsame
  | awaitingResponse deadline =>
    cases r with
    | woken => exact guarded_takeResponse h deadline
    | _ => exact hsame
  | awaitingEvent deadline =>
    cases r with
    | woken => exact guarded_dispatchNext h deadline
    | _ => exact hsame
  | shuttingDown stream =>
    cases r with
    | written => exact ⟨h, trivial⟩
    | writeFailed why =>
      simp only [resume]
      split_ifs <;> exact ⟨h, trivial⟩
    | _ => exact hsame

/-- The stream of a write that is given up is let go of, or it was never attached. -/
theorem guarded_expire (h : c.Guarded p) {a : Activity} (ha : a.Guarded p c)
    (hdeadline : a.deadline?.isSome)
    (hpq : ∀ s, p s → (∀ w, a.writing? ≠ some (s, w)) → q s) :
    TopicBus.Guarded q (c.expire a) := by
  cases a with
  | establishing stage goal =>
    cases goal with
    | opening => nomatch hdeadline
    | resend sending cause =>
      cases cause with
      | request deadline => exact ⟨guarded_of_detached rfl, trivial⟩
      | publish => nomatch hdeadline
      | subscribe id => nomatch hdeadline
    | dispatch deadline => exact ⟨guarded_of_detached ha.1, trivial⟩
  | writing stream sending cause =>
    cases cause with
    | request deadline => exact ⟨guarded_of_detached rfl, trivial⟩
    | publish => nomatch hdeadline
    | subscribe id => nomatch hdeadline
  | awaitingResponse deadline => exact ⟨fun b hb => hpq _ (h b hb) nofun, trivial⟩
  | awaitingEvent deadline => exact ⟨fun b hb => hpq _ (h b hb) nofun, trivial⟩
  | shuttingDown stream => nomatch hdeadline

/-- A write goes on until it is over. -/
theorem resume_of_writing {a : Activity} (ha : a.writing?.isSome) (now : Nat) {r : Reply}
    (hr : r.endsWrite = false) : c.resume now a r = (c, .waiting a) := by
  cases a with
  | establishing stage goal =>
    cases stage with
    | greeting g =>
      cases r with
      | written => exact Bool.noConfusion hr
      | writeFailed why => exact Bool.noConfusion hr
      | _ => rfl
    | connecting attempt => nomatch ha
    | pausing wake attempt => nomatch ha
  | writing stream sending cause =>
    cases r with
    | written => exact Bool.noConfusion hr
    | writeFailed why => exact Bool.noConfusion hr
    | _ => rfl
  | awaitingResponse deadline => nomatch ha
  | awaitingEvent deadline => nomatch ha
  | shuttingDown stream => nomatch ha

end Connection

namespace Conversation

variable {v : Conversation}

structure Guarded (p : StreamId → Prop) (v : Conversation) : Prop where
  connection : v.connection.Guarded p
  activity : ∀ a, v.activity = some a → a.Guarded p v.connection

theorem guarded_settle {reached : Connection × Progress} (h : TopicBus.Guarded p reached) :
    (v.settle reached).Guarded p := by
  obtain ⟨c, progress⟩ := reached
  obtain ⟨hc, hprogress⟩ := h
  cases progress with
  | waiting a =>
    refine ⟨hc, ?_⟩
    rintro b ⟨⟩
    exact hprogress
  | finished o => exact ⟨hc, nofun⟩

theorem Guarded.mono (h : v.Guarded p) (hpq : ∀ s, p s → q s) : v.Guarded q :=
  ⟨fun a ha => hpq _ (h.connection a ha), fun a ha => (h.activity a ha).mono hpq⟩

/-- A new stream may be written on, and one on which a write is given up need not be. -/
theorem Guarded.step (h : v.Guarded p) {x : Happening}
    (hconnected : ∀ now s l e, x = .reply now (.connected s l e) → q s)
    (hexpire : x = .expire → ∀ a ∈ v.activity, a.deadline?.isSome)
    (hpq : ∀ s, p s →
      (x = .expire → ∀ w, v.activity.bind Activity.writing? ≠ some (s, w)) → q s) :
    (v.step x).Guarded q := by
  cases x with
  | begin now op =>
    have hq : v.Guarded q := h.mono fun s hs => hpq s hs fun hx => Happening.noConfusion hx
    cases ha : v.activity with
    | none =>
      rw [Conversation.step, ha]
      exact guarded_settle (Connection.guarded_begin hq.connection now op)
    | some a =>
      rw [Conversation.step, ha]
      exact hq
  | reply now r =>
    have hq : v.Guarded q := h.mono fun s hs => hpq s hs fun hx => Happening.noConfusion hx
    cases ha : v.activity with
    | none =>
      rw [Conversation.step, ha]
      exact hq
    | some a =>
      rw [Conversation.step, ha]
      refine guarded_settle (Connection.guarded_resume hq.connection (hq.activity a ha) now ?_)
      rintro stream l e rfl
      exact hconnected now stream l e rfl
  | expire =>
    cases ha : v.activity with
    | none =>
      rw [Conversation.step, ha]
      refine h.mono fun s hs => hpq s hs fun _ w => ?_
      simp only [ha, Option.bind_none, ne_eq, reduceCtorEq, not_false_eq_true]
    | some a =>
      rw [Conversation.step, ha]
      refine guarded_settle (Connection.guarded_expire h.connection (h.activity a ha)
        (hexpire rfl a ha) fun s hs hw => hpq s hs fun _ => ?_)
      rw [ha]
      exact hw
  | receive chunk =>
    have hq : v.Guarded q := h.mono fun s hs => hpq s hs fun hx => Happening.noConfusion hx
    have hsame := Connection.sameWriting_receive v.connection chunk
    exact ⟨hsame.guarded hq.connection, fun a ha => hsame.activity_guarded (hq.activity a ha)⟩

end Conversation

/-! ## Traffic -/

/-- What can happen to a connection, and to its streams meanwhile. -/
inductive Incident where
  | happens (h : Happening)
  /-- So many more bytes of the write that is waited for go out. -/
  | transfer (count : Nat)
  deriving Repr

/-- A conversation with the bytes that its writes have put on each stream. -/
structure Traffic where
  conversation : Conversation
  bytes : StreamId → List UInt8
  /-- How many bytes of the write that is waited for have gone out. -/
  sent : Nat
  opened : List StreamId
  /-- The streams on which a write has failed. -/
  failed : List StreamId
  /-- The streams on which a write was given up at a deadline. -/
  abandoned : List StreamId

namespace Traffic

open Conversation (plainConnection)

def start (c : Connection) : Traffic := ⟨.start c, fun _ => [], 0, [], [], []⟩

def writing? (v : Traffic) : Option (StreamId × List UInt8) :=
  v.conversation.activity.bind Activity.writing?

def put (v : Traffic) (stream : StreamId) (more : List UInt8) : StreamId → List UInt8 :=
  fun s => if s = stream then v.bytes s ++ more else v.bytes s

/-- What a happening means for the streams. A write that succeeds has put out all its bytes. -/
def note (v : Traffic) : Happening → Traffic
  | .reply _ (.connected stream _ _) => { v with opened := stream :: v.opened }
  | .reply _ .written =>
    match v.writing? with
    | some (stream, w) => { v with bytes := v.put stream (w.drop v.sent), sent := 0 }
    | none => v
  | .reply _ (.writeFailed _) =>
    match v.writing? with
    | some (stream, _) => { v with sent := 0, failed := stream :: v.failed }
    | none => v
  | .expire =>
    match v.writing? with
    | some (stream, _) => { v with sent := 0, abandoned := stream :: v.abandoned }
    | none => v
  | _ => v

def step (v : Traffic) : Incident → Traffic
  | .happens h => { v.note h with conversation := v.conversation.step h }
  | .transfer count =>
    match v.writing? with
    | some (stream, w) =>
      { v with bytes := v.put stream ((w.drop v.sent).take count), sent := v.sent + count }
    | none => v

def run (v : Traffic) (xs : List Incident) : Traffic := xs.foldl step v

/-- What the rest of the world keeps to. A stream is opened once, only a deadline expires, and when
a write on a stream has failed, no later one on it transfers anything or succeeds. -/
def Possible (v : Traffic) : Incident → Prop
  | .happens (.reply _ (.connected stream _ _)) => stream ∉ v.opened
  | .happens .expire => ∀ a ∈ v.conversation.activity, a.deadline?.isSome
  | .happens (.reply _ .written) | .transfer _ => ∀ x ∈ v.writing?, x.1 ∉ v.failed
  | _ => True

instance (v : Traffic) (i : Incident) : Decidable (v.Possible i) :=
  match i with
  | .happens (.reply _ (.connected stream _ _)) => inferInstanceAs (Decidable (stream ∉ v.opened))
  | .happens .expire =>
    inferInstanceAs (Decidable (∀ a ∈ v.conversation.activity, a.deadline?.isSome))
  | .happens (.reply _ .written) | .transfer _ =>
    inferInstanceAs (Decidable (∀ x ∈ v.writing?, x.1 ∉ v.failed))
  | .happens (.reply _ (.refused _)) | .happens (.reply _ .rested)
  | .happens (.reply _ (.writeFailed _)) | .happens (.reply _ .woken) | .happens (.begin _ _)
  | .happens (.receive _) => inferInstanceAs (Decidable True)

def Admits (v : Traffic) : List Incident → Prop
  | [] => True
  | i :: xs => v.Possible i ∧ (v.step i).Admits xs

instance decidableAdmits (v : Traffic) : (xs : List Incident) → Decidable (v.Admits xs)
  | [] => inferInstanceAs (Decidable True)
  | i :: xs =>
    have := decidableAdmits (v.step i) xs
    inferInstanceAs (Decidable (v.Possible i ∧ (v.step i).Admits xs))

/-- A write on the stream broke off. -/
def Broken (v : Traffic) (s : StreamId) : Prop := s ∈ v.failed ∨ s ∈ v.abandoned

/-- The connection may write on the stream. -/
def Usable (v : Traffic) (s : StreamId) : Prop := s ∈ v.opened ∧ s ∉ v.abandoned

/-- The part of the write that is waited for that has gone out. -/
def pending (v : Traffic) (s : StreamId) : List UInt8 :=
  match v.writing? with
  | some (stream, w) => if s = stream then w.take v.sent else []
  | none => []

structure Sound (v : Traffic) : Prop where
  conversation : v.conversation.Guarded v.Usable
  known : ∀ s ∈ v.abandoned, s ∈ v.opened
  idle : v.writing? = none → v.sent = 0
  whole : ∀ s, ¬v.Broken s → FramesThen (v.bytes s) (v.pending s)
  torn : ∀ s, v.Broken s → ∃ rest w, FramesThen (v.bytes s) rest ∧ IsFrame w ∧ rest <+: w

variable {v : Traffic} {s : StreamId} {w : List UInt8} {x : Happening} {i : Incident}

theorem pending_of_sent (h : v.sent = 0) (s : StreamId) : v.pending s = [] := by
  unfold pending
  split
  · rw [h, List.take_zero, ite_self]
  · rfl

theorem pending_writing (hw : v.writing? = some (s, w)) : v.pending s = w.take v.sent := by
  rw [pending, hw]
  exact if_pos rfl

theorem pending_of_ne {t : StreamId} (hw : v.writing? = some (t, w)) (hne : s ≠ t) :
    v.pending s = [] := by
  rw [pending, hw]
  exact if_neg hne

theorem put_self (v : Traffic) (s : StreamId) (more : List UInt8) :
    v.put s more s = v.bytes s ++ more := if_pos rfl

theorem put_of_ne {t : StreamId} (hne : s ≠ t) (more : List UInt8) :
    v.put t more s = v.bytes s := if_neg hne

theorem Sound.writing (h : v.Sound) (hw : v.writing? = some (s, w)) : v.Usable s ∧ IsFrame w := by
  obtain ⟨a, ha, haw⟩ := Option.bind_eq_some_iff.mp hw
  exact (h.conversation.activity a ha).writing haw

theorem Sound.not_broken (h : v.Sound) (hw : v.writing? = some (s, w)) (hs : s ∉ v.failed) :
    ¬v.Broken s := fun hbroken => hbroken.elim hs (h.writing hw).1.2

/-- A write that breaks off leaves the beginning of a frame behind. -/
theorem Sound.torn_writing (h : v.Sound) (hw : v.writing? = some (s, w)) :
    ∃ rest w, FramesThen (v.bytes s) rest ∧ IsFrame w ∧ rest <+: w := by
  by_cases hbroken : v.Broken s
  · exact h.torn s hbroken
  · refine ⟨v.pending s, w, h.whole s hbroken, (h.writing hw).2, ?_⟩
    rw [pending_writing hw]
    exact List.take_prefix _ _

/-! ## Steps -/

/-- All that a happening can mean for the streams. -/
inductive Noted (v : Traffic) (x : Happening) : Traffic → Prop
  | opens {opened : List StreamId} (hsub : v.opened ⊆ opened) :
      Noted v x { v with opened := opened }
  | writes {s : StreamId} {w : List UInt8} (hw : v.writing? = some (s, w)) (hs : s ∉ v.failed) :
      Noted v x { v with bytes := v.put s (w.drop v.sent), sent := 0 }
  | fails {s : StreamId} {w : List UInt8} (hw : v.writing? = some (s, w)) :
      Noted v x { v with sent := 0, failed := s :: v.failed }
  | abandons {s : StreamId} {w : List UInt8} (hx : x = .expire) (hw : v.writing? = some (s, w)) :
      Noted v x { v with sent := 0, abandoned := s :: v.abandoned }

theorem noted_note (hx : v.Possible (.happens x)) : v.Noted x (v.note x) := by
  have hsame : v.Noted x v := .opens (List.Subset.refl _)
  cases x with
  | begin now op => exact hsame
  | receive chunk => exact hsame
  | expire =>
    simp only [note]
    split
    · next hw => exact .abandons rfl hw
    · exact hsame
  | reply now r =>
    cases r with
    | connected stream l e => exact .opens (List.subset_cons_self _ _)
    | written =>
      simp only [note]
      split
      · next hw => exact .writes hw (hx _ hw)
      · exact hsame
    | writeFailed why =>
      simp only [note]
      split
      · next hw => exact .fails hw
      · exact hsame
    | refused why => exact hsame
    | rested => exact hsame
    | woken => exact hsame

/-- A write is over, or it goes on as before. -/
theorem Sound.writing_step (h : v.Sound) (x : Happening) :
    (v.step (.happens x)).sent = 0 ∨
      (v.step (.happens x)).writing? = v.writing? ∧
        ∃ opened, v.note x = { v with opened := opened } := by
  have hquiet : ∃ opened, v = { v with opened := opened } := ⟨v.opened, rfl⟩
  cases x with
  | begin now op =>
    cases ha : v.conversation.activity with
    | none =>
      have hw : v.writing? = none := by rw [writing?, ha]; rfl
      exact .inl (h.idle hw)
    | some a =>
      refine .inr ⟨?_, hquiet⟩
      simp only [step, writing?, Conversation.step, ha]
  | reply now r =>
    cases hw : v.writing? with
    | none =>
      refine .inl ?_
      have hidle := h.idle hw
      cases r <;> simpa only [step, note, hw] using hidle
    | some y =>
      obtain ⟨a, ha, haw⟩ := Option.bind_eq_some_iff.mp hw
      have hgoes (hr : r.endsWrite = false) :
          (v.step (.happens (.reply now r))).writing? = some y := by
        have hresume := Connection.resume_of_writing (c := v.conversation.connection) (a := a)
          (by rw [haw]; rfl) now hr
        simp only [step, writing?, Conversation.step, ha, hresume, Conversation.settle]
        exact haw
      cases r with
      | written => exact .inl (by simp only [step, note, hw])
      | writeFailed why => exact .inl (by simp only [step, note, hw])
      | connected stream l e => exact .inr ⟨hgoes rfl, _, rfl⟩
      | refused why => exact .inr ⟨hgoes rfl, hquiet⟩
      | rested => exact .inr ⟨hgoes rfl, hquiet⟩
      | woken => exact .inr ⟨hgoes rfl, hquiet⟩
  | expire =>
    refine .inl ?_
    cases hw : v.writing? with
    | none => simpa only [step, note, hw] using h.idle hw
    | some y => simp only [step, note, hw]
  | receive chunk => exact .inr ⟨rfl, hquiet⟩

/-- When no write is waited for any more, a stream carries whole frames unless one broke off. -/
theorem Sound.whole_noted (h : v.Sound) {u : Traffic} (hu : v.Noted x u) (hsent : u.sent = 0)
    (hs : ¬u.Broken s) : FramesThen (u.bytes s) [] := by
  cases hu with
  | opens hsub => exact pending_of_sent hsent s ▸ h.whole s hs
  | @writes t w hw ht =>
    change FramesThen (v.put t (w.drop v.sent) s) []
    have hwhole := h.whole s hs
    by_cases hst : s = t
    · subst hst
      have hput := hwhole.append (w.drop v.sent)
      rw [pending_writing hw, List.take_append_drop] at hput
      rw [put_self]
      exact hput.complete (h.writing hw).2
    · rw [pending_of_ne hw hst] at hwhole
      rwa [put_of_ne hst]
  | @fails t w hw =>
    have hst : s ≠ t := fun hst => hs (.inl (hst ▸ List.mem_cons_self))
    refine pending_of_ne hw hst ▸ h.whole s fun hbroken => hs ?_
    exact hbroken.imp_left (List.mem_cons_of_mem _)
  | @abandons t w hx hw =>
    have hst : s ≠ t := fun hst => hs (.inr (hst ▸ List.mem_cons_self))
    refine pending_of_ne hw hst ▸ h.whole s fun hbroken => hs ?_
    exact hbroken.imp_right (List.mem_cons_of_mem _)

/-- Where a write broke off, nothing is written any more. -/
theorem Sound.bytes_noted (h : v.Sound) {u : Traffic} (hu : v.Noted x u) (hs : v.Broken s) :
    u.bytes s = v.bytes s ∧ u.Broken s := by
  cases hu with
  | opens hsub => exact ⟨rfl, hs⟩
  | @writes t w hw ht =>
    have hst : s ≠ t := by
      rintro rfl
      exact h.not_broken hw ht hs
    exact ⟨put_of_ne hst _, hs⟩
  | fails hw => exact ⟨rfl, hs.imp_left (List.mem_cons_of_mem _)⟩
  | abandons hx hw => exact ⟨rfl, hs.imp_right (List.mem_cons_of_mem _)⟩

theorem Sound.torn_noted (h : v.Sound) {u : Traffic} (hu : v.Noted x u) (hs : u.Broken s) :
    ∃ rest w, FramesThen (u.bytes s) rest ∧ IsFrame w ∧ rest <+: w := by
  by_cases hbroken : v.Broken s
  · rw [(h.bytes_noted hu hbroken).1]
    exact h.torn s hbroken
  · cases hu with
    | opens hsub => exact absurd hs hbroken
    | writes hw ht => exact absurd hs hbroken
    | @fails t w hw =>
      rcases hs with hs | hs
      · obtain rfl := (List.mem_cons.mp hs).resolve_right fun hmem => hbroken (.inl hmem)
        exact h.torn_writing hw
      · exact absurd (.inr hs) hbroken
    | @abandons t w hx hw =>
      rcases hs with hs | hs
      · exact absurd (.inl hs) hbroken
      · obtain rfl := (List.mem_cons.mp hs).resolve_right fun hmem => hbroken (.inr hmem)
        exact h.torn_writing hw

theorem usable_noted {u : Traffic} (hu : v.Noted x u) (hs : v.Usable s)
    (hx : x = .expire → ∀ w, v.writing? ≠ some (s, w)) : u.Usable s := by
  cases hu with
  | opens hsub => exact ⟨hsub hs.1, hs.2⟩
  | writes hw ht => exact hs
  | fails hw => exact hs
  | @abandons t w hexpire hw =>
    refine ⟨hs.1, fun hmem => ?_⟩
    rcases List.mem_cons.mp hmem with rfl | hmem
    · exact hx hexpire w hw
    · exact hs.2 hmem

theorem Sound.guarded_happens (h : v.Sound) (hx : v.Possible (.happens x)) :
    (v.conversation.step x).Guarded (v.note x).Usable := by
  refine h.conversation.step ?_ ?_ ?_
  · rintro now stream l e rfl
    exact ⟨List.mem_cons_self, fun hmem => hx (h.known stream hmem)⟩
  · rintro rfl
    exact hx
  · exact fun t => usable_noted (noted_note hx)

theorem Sound.known_noted (h : v.Sound) {u : Traffic} (hu : v.Noted x u) :
    ∀ s ∈ u.abandoned, s ∈ u.opened := by
  cases hu with
  | opens hsub => exact fun s hs => hsub (h.known s hs)
  | writes hw ht => exact h.known
  | fails hw => exact h.known
  | abandons hx hw => exact List.forall_mem_cons.mpr ⟨(h.writing hw).1.1, h.known⟩

theorem Sound.happens (h : v.Sound) (hx : v.Possible (.happens x)) :
    (v.step (.happens x)).Sound := by
  have hnoted := noted_note hx
  have hcases := h.writing_step x
  refine ⟨h.guarded_happens hx, h.known_noted (u := v.note x) hnoted, ?_, ?_,
    fun s => h.torn_noted (u := v.note x) hnoted⟩
  · intro hw
    rcases hcases with hsent | ⟨hsame, opened, hnote⟩
    · exact hsent
    · rw [hsame] at hw
      simpa only [step, hnote] using h.idle hw
  · intro s hs
    rcases hcases with hsent | ⟨hsame, opened, hnote⟩
    · rw [pending_of_sent hsent]
      exact h.whole_noted (u := v.note x) hnoted hsent hs
    · have hpending : (v.step (.happens x)).pending s = v.pending s := by
        unfold pending
        rw [hsame]
        simp only [step, hnote]
      have hwhole := h.whole s
      simp only [step, hnote] at hpending hs ⊢
      rw [hpending]
      exact hwhole hs

theorem Sound.transfer (h : v.Sound) {count : Nat} (hi : v.Possible (.transfer count)) :
    (v.step (.transfer count)).Sound := by
  cases hw : v.writing? with
  | none =>
    simp only [step, hw]
    exact h
  | some y =>
    obtain ⟨t, w⟩ := y
    have ht : ¬v.Broken t := h.not_broken hw (hi _ hw)
    simp only [step, hw]
    generalize hu : ({ v with bytes := _, sent := _ } : Traffic) = u
    have huw : u.writing? = some (t, w) := hu ▸ hw
    have hself : FramesThen (u.bytes t) (u.pending t) := by
      have hput := (h.whole t ht).append ((w.drop v.sent).take count)
      rw [pending_writing hw, ← List.take_add, ← put_self] at hput
      rw [pending_writing huw, ← hu]
      exact hput
    have hother {s : StreamId} (hs : s ≠ t) : u.bytes s = v.bytes s ∧ u.pending s = v.pending s :=
      ⟨hu ▸ put_of_ne hs _, (pending_of_ne huw hs).trans (pending_of_ne hw hs).symm⟩
    have hbroken : u.Broken = v.Broken := hu ▸ rfl
    have husable : u.Usable = v.Usable := hu ▸ rfl
    refine ⟨?_, hu ▸ h.known, fun hnone => ?_, fun s hs => ?_, fun s hs => ?_⟩
    · rw [husable, ← hu]
      exact h.conversation
    · nomatch huw.symm.trans hnone
    · by_cases hst : s = t
      · exact hst ▸ hself
      · rw [(hother hst).1, (hother hst).2]
        exact h.whole s (hbroken ▸ hs)
    · have hst : s ≠ t := by
        rintro rfl
        exact ht (hbroken ▸ hs)
      rw [(hother hst).1]
      exact h.torn s (hbroken ▸ hs)

theorem Sound.step (h : v.Sound) (hi : v.Possible i) : (v.step i).Sound := by
  cases i with
  | happens x => exact h.happens hi
  | transfer count => exact h.transfer hi

theorem Sound.bytes_step (h : v.Sound) (hi : v.Possible i) (hs : v.Broken s) :
    (v.step i).bytes s = v.bytes s ∧ (v.step i).Broken s := by
  cases i with
  | happens x => exact h.bytes_noted (u := v.note x) (noted_note hi) hs
  | transfer count =>
    simp only [Traffic.step]
    split
    · next t w hw =>
      have hst : s ≠ t := by
        rintro rfl
        exact h.not_broken hw (hi _ hw) hs
      exact ⟨put_of_ne hst _, hs⟩
    · exact ⟨rfl, hs⟩

/-! ## Runs -/

variable {xs ys : List Incident}

theorem sound_start (c : Connection) : (start c).Sound where
  conversation :=
    have hgoal : Goal.opening.Whole := trivial
    Conversation.guarded_settle (Connection.guarded_establish hgoal)
  known := List.forall_mem_nil _
  idle := fun _ => rfl
  whole := fun s _ => pending_of_sent (v := start c) rfl s ▸ FramesThen.nil
  torn := fun s hs => by
    rcases hs with hs | hs
    · nomatch hs
    · nomatch hs

theorem run_append (v : Traffic) (xs ys : List Incident) :
    v.run (xs ++ ys) = (v.run xs).run ys := List.foldl_append

theorem admits_append : v.Admits (xs ++ ys) ↔ v.Admits xs ∧ (v.run xs).Admits ys := by
  induction xs generalizing v with
  | nil => exact (and_iff_right trivial).symm
  | cons i xs ih => exact (and_congr_right fun _ => ih).trans and_assoc.symm

theorem Sound.run (h : v.Sound) (hxs : v.Admits xs) : (v.run xs).Sound := by
  induction xs generalizing v with
  | nil => exact h
  | cons i xs ih => exact ih (h.step hxs.1) hxs.2

theorem Sound.bytes_run (h : v.Sound) (hxs : v.Admits xs) (hs : v.Broken s) :
    (v.run xs).bytes s = v.bytes s := by
  induction xs generalizing v with
  | nil => rfl
  | cons i xs ih =>
    obtain ⟨hbytes, hbroken⟩ := h.bytes_step hxs.1 hs
    exact (ih (h.step hxs.1) hxs.2 hbroken).trans hbytes

/-- Every stream carries whole frames, and after them at most the beginning of one more. Unless this
one is still being written, nothing more comes. -/
theorem whole_frames (c : Connection) (past : List Incident) (hpast : (start c).Admits past)
    (s : StreamId) :
    ∃ rest, FramesThen (((start c).run past).bytes s) rest ∧
      (rest = [] ∨ ∃ w, IsFrame w ∧ rest <+: w ∧ rest ≠ w ∧
        (((start c).run past).writing? = some (s, w) ∧ s ∉ ((start c).run past).failed ∨
          ∀ future, (start c).Admits (past ++ future) →
            ((start c).run (past ++ future)).bytes s = ((start c).run past).bytes s)) := by
  have hsound : ((start c).run past).Sound := (sound_start c).run hpast
  have hover (hbroken : ((start c).run past).Broken s) (future : List Incident)
      (hfuture : (start c).Admits (past ++ future)) :
      ((start c).run (past ++ future)).bytes s = ((start c).run past).bytes s := by
    rw [run_append]
    exact hsound.bytes_run (admits_append.mp hfuture).2 hbroken
  generalize (start c).run past = v at hsound hover ⊢
  by_cases hbroken : v.Broken s
  · obtain ⟨rest, w, hbytes, hw, hprefix⟩ := hsound.torn s hbroken
    by_cases heq : rest = w
    · exact ⟨[], (heq ▸ hbytes).complete hw, .inl rfl⟩
    · exact ⟨rest, hbytes, .inr ⟨w, hw, hprefix, heq, .inr (hover hbroken)⟩⟩
  · have hbytes := hsound.whole s hbroken
    cases hw : v.writing? with
    | none => exact ⟨[], pending_of_sent (hsound.idle hw) s ▸ hbytes, .inl rfl⟩
    | some y =>
      obtain ⟨t, w⟩ := y
      by_cases hst : s = t
      · subst hst
        rw [pending_writing hw] at hbytes
        have hframe : IsFrame w := (hsound.writing hw).2
        by_cases heq : w.take v.sent = w
        · rw [heq] at hbytes
          exact ⟨[], hbytes.complete hframe, .inl rfl⟩
        · exact ⟨_, hbytes, .inr ⟨w, hframe, List.take_prefix _ _, heq,
            .inl ⟨rfl, fun hs => hbroken (.inl hs)⟩⟩⟩
      · exact ⟨[], pending_of_ne hw hst ▸ hbytes, .inl rfl⟩

/-! ## A request that is given up -/

/-- The deadline passes in the middle of a frame, and what is sent next goes out on a new stream. -/
def givenUp : List Incident :=
  [.happens (.reply 0 (.connected 0 "" "")), .happens (.reply 0 .written),
    .happens (.begin 0 (.request "T" .empty 100)), .transfer 30, .happens .expire,
    .happens (.begin 200 (.publishBytes "T" [1])), .happens (.reply 200 (.connected 1 "" "")),
    .transfer 10, .happens (.reply 200 .written), .happens (.reply 200 .written)]

theorem whole_frames_givenUp :
    (start plainConnection).Admits givenUp ∧
      ((start plainConnection).run givenUp).abandoned = [0] ∧
      (((start plainConnection).run givenUp).conversation.written 1).flatten =
        ((start plainConnection).run givenUp).bytes 1 ∧
      ∃ rest, FramesThen (((start plainConnection).run givenUp).bytes 0) rest ∧
        (rest = [] ∨ ∃ w, IsFrame w ∧ rest <+: w ∧ rest ≠ w ∧
          ∀ future, (start plainConnection).Admits (givenUp ++ future) →
            ((start plainConnection).run (givenUp ++ future)).bytes 0 =
              ((start plainConnection).run givenUp).bytes 0) := by
  have hadmits : (start plainConnection).Admits givenUp := by decide +kernel
  obtain ⟨rest, hbytes, hrest⟩ := whole_frames plainConnection givenUp hadmits 0
  refine ⟨hadmits, by decide +kernel, by decide +kernel, rest, hbytes, hrest.imp_right ?_⟩
  rintro ⟨w, hw, hprefix, hne, ⟨hwriting, -⟩ | hover⟩
  · nomatch hwriting
  · exact ⟨w, hw, hprefix, hne, hover⟩

end Traffic

end TopicBus
