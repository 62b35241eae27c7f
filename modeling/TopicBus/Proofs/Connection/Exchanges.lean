import TopicBus.Proofs.Connection.Reading

/-!
What a connection goes through while it has a frame to send. `Moves` says once what each answer of
its surroundings does: the frame is delivered, or the way to a new stream goes on, or the attempt is
over and counts as a failed write. `resume_moves` reads it off the operations; how often a frame is
sent and what is left of a failed one are derived from it.
-/

namespace TopicBus

/-- How something that a connection waited for came out. -/
inductive Exchange where
  | refused (why : IoFault)
  /-- The pause between two connects is over. -/
  | rested
  | connected (stream : StreamId)
  /-- A message of a greeting was written, or failed. -/
  | greeted (stream : StreamId) (failure : Option IoFault)
  /-- The frame itself was written, or failed. -/
  | wrote (stream : StreamId) (bytes : List UInt8) (failure : Option IoFault)
  deriving DecidableEq, Repr

namespace Exchange

/-- Whether it was a try to connect. -/
def isConnect : Exchange → Bool
  | .refused _ | .connected _ => true
  | _ => false

/-- Whether the frame itself was written. -/
def isWrite : Exchange → Bool
  | .wrote _ _ _ => true
  | _ => false

end Exchange

namespace Activity

/-- The frame that the activity has to send, and why. -/
def sending? : Activity → Option (Sending × Cause)
  | .establishing _ (.resend s cause) | .writing _ s cause => some (s, cause)
  | _ => none

/-- What a reply means to an activity that has a frame to send. Only replies to what it waits for
count. -/
def exchange? : Activity → Reply → Option Exchange
  | .establishing (.connecting _) (.resend _ _), .refused why => some (.refused why)
  | .establishing (.connecting _) (.resend _ _), .connected stream _ _ => some (.connected stream)
  | .establishing (.pausing _ _) (.resend _ _), .rested => some .rested
  | .establishing (.greeting g) (.resend _ _), .written => some (.greeted g.stream none)
  | .establishing (.greeting g) (.resend _ _), .writeFailed why =>
    some (.greeted g.stream (some why))
  | .writing stream s _, .written => some (.wrote stream s.bytes none)
  | .writing stream s _, .writeFailed why => some (.wrote stream s.bytes (some why))
  | _, _ => none

end Activity

namespace Connection

/-- The fault of a write without a stream. -/
def noStream : Fault := .notConnected "not connected"

/-- What a reply does to an activity that has a frame to send, and what it means. -/
inductive Moves (c : Connection) (s : Sending) (cause : Cause) :
    Activity → Option Exchange → Connection × Progress → Prop
  | ignored {a : Activity} : Moves c s cause a none (c, .waiting a)
  | delivered {stream : StreamId} :
      Moves c s cause (.writing stream s cause) (some (.wrote stream s.bytes none))
        (c.sendDone cause)
  | broken {stream : StreamId} (why : IoFault) :
      Moves c s cause (.writing stream s cause) (some (.wrote stream s.bytes (some why)))
        (c.writeFailed s cause (.ofIo why))
  | refused {attempt : Nat} (wake : Nat) (why : IoFault) (hmore : attempt < c.connectAttempts) :
      Moves c s cause (.establishing (.connecting attempt) (.resend s cause)) (some (.refused why))
        (c, .waiting (.establishing (.pausing wake (attempt + 1)) (.resend s cause)))
  /-- The last connect was refused. -/
  | unreached {attempt : Nat} (why : IoFault) :
      Moves c s cause (.establishing (.connecting attempt) (.resend s cause)) (some (.refused why))
        (c.writeFailed s cause noStream)
  | rested {wake attempt : Nat} :
      Moves c s cause (.establishing (.pausing wake attempt) (.resend s cause)) (some .rested)
        (c, .waiting (.establishing (.connecting attempt) (.resend s cause)))
  | connected {attempt : Nat} {g : Greeting} (n : UInt32)
      (hrest : g.rest.length = c.subscriptions.entries.length) :
      Moves c s cause (.establishing (.connecting attempt) (.resend s cause))
        (some (.connected g.stream))
        ({ c with nextSequence := n }, .waiting (.establishing (.greeting g) (.resend s cause)))
  /-- There is a stream, but the inbox cannot be announced on it. -/
  | speechless {attempt : Nat} (stream : StreamId) (n : UInt32) :
      Moves c s cause (.establishing (.connecting attempt) (.resend s cause))
        (some (.connected stream)) ({ c with nextSequence := n }.writeFailed s cause noStream)
  | greeted {g g' : Greeting} (n : UInt32) (hrest : g'.rest.length + 1 = g.rest.length) :
      Moves c s cause (.establishing (.greeting g) (.resend s cause))
        (some (.greeted g.stream none))
        ({ c with nextSequence := n }, .waiting (.establishing (.greeting g') (.resend s cause)))
  /-- The greeting failed: a message could not be written, or the next one cannot be composed. -/
  | unheard {g : Greeting} (failure : Option IoFault) (n : UInt32) :
      Moves c s cause (.establishing (.greeting g) (.resend s cause))
        (some (.greeted g.stream failure))
        ({ c with nextSequence := n }.writeFailed s cause noStream)
  | attached {g : Greeting} :
      Moves c s cause (.establishing (.greeting g) (.resend s cause))
        (some (.greeted g.stream none)) (c.attach g, .waiting (.writing g.stream s cause))

variable {c : Connection} {s : Sending} {cause : Cause}

theorem write_of_detached (h : c.attached = none) :
    c.write s cause = c.writeFailed s cause noStream := by
  rw [write, h]
  rfl

theorem greet_moves (h : c.attached = none) (g : Greeting) :
    Moves c s cause (.establishing (.greeting g) (.resend s cause)) (some (.greeted g.stream none))
      (c.greet g (.resend s cause)) := by
  unfold greet
  split
  · exact .attached
  · next id expression rest hrest =>
    split
    · rw [establishFailed, write_of_detached h]
      exact .unheard none c.nextSequence
    · split
      · next c' bytes hcompose =>
        obtain rfl : _ = c' := congrArg Prod.fst hcompose
        exact .greeted _ (congrArg List.length hrest).symm
      · next c' why hcompose =>
        obtain rfl : _ = c' := congrArg Prod.fst hcompose
        rw [establishFailed, write_of_detached (c := (c.compose _ _).1) h]
        exact .unheard none _

theorem introduce_moves (h : c.attached = none) (attempt : Nat) (stream : StreamId)
    (localEndpoint remoteEndpoint : String) :
    Moves c s cause (.establishing (.connecting attempt) (.resend s cause))
      (some (.connected stream))
      (c.introduce stream localEndpoint remoteEndpoint (.resend s cause)) := by
  unfold introduce
  split
  · next c' bytes hcompose =>
    obtain rfl : _ = c' := congrArg Prod.fst hcompose
    exact .connected (g := ⟨stream, localEndpoint, remoteEndpoint, bytes, _⟩) _
      (List.length_map _)
  · next c' why hcompose =>
    obtain rfl : _ = c' := congrArg Prod.fst hcompose
    rw [establishFailed, write_of_detached (c := (c.compose _ _).1) h]
    exact .speechless stream _

theorem connectFailed_moves (h : c.attached = none) (now attempt : Nat) (why : IoFault) :
    Moves c s cause (.establishing (.connecting attempt) (.resend s cause)) (some (.refused why))
      (c.connectFailed now attempt why (.resend s cause)) := by
  unfold connectFailed
  split_ifs with hmore
  · exact .refused _ why hmore
  · rw [establishFailed, write_of_detached h]
    exact .unreached why

/-- On the way to a stream there is no other one. -/
def IsFree (c : Connection) (a : Activity) : Prop :=
  ∀ stage goal, a = .establishing stage goal → c.attached = none

/-- What a reply does. -/
theorem resume_moves {a : Activity} (ha : a.sending? = some (s, cause)) (h : c.IsFree a) (now : Nat)
    (r : Reply) : Moves c s cause a (a.exchange? r) (c.resume now a r) := by
  cases a with
  | establishing stage goal =>
    have hdetached := h stage goal rfl
    cases goal with
    | resend s' cause' =>
      obtain ⟨rfl, rfl⟩ := Prod.mk.inj (Option.some.inj ha)
      cases stage with
      | connecting attempt =>
        cases r with
        | connected stream localEndpoint remoteEndpoint => exact introduce_moves hdetached _ _ _ _
        | refused why => exact connectFailed_moves hdetached now attempt why
        | _ => exact .ignored
      | pausing wake attempt =>
        cases r with
        | rested => exact .rested
        | _ => exact .ignored
      | greeting g =>
        cases r with
        | written => exact greet_moves hdetached g
        | writeFailed why =>
          have hmoves : Moves c s' cause' (.establishing (.greeting g) (.resend s' cause'))
              (some (.greeted g.stream (some why))) (c.writeFailed s' cause' noStream) :=
            .unheard (some why) c.nextSequence
          rwa [← write_of_detached hdetached] at hmoves
        | _ => exact .ignored
    | opening => nomatch ha
    | dispatch deadline => nomatch ha
  | writing stream s' cause' =>
    obtain ⟨rfl, rfl⟩ := Prod.mk.inj (Option.some.inj ha)
    cases r with
    | written => exact .delivered
    | writeFailed why => exact .broken why
    | _ => exact .ignored
  | awaitingResponse deadline => nomatch ha
  | awaitingEvent deadline => nomatch ha
  | shuttingDown stream => nomatch ha

theorem isFree_of_sound {p : Terms} {written : StreamId → List (List UInt8)} {a : Activity}
    (h : a.Sound p written c) : c.IsFree a := by
  rintro stage goal rfl
  exact h.1

/-! ## The reading side -/

/-- Nothing but the attached stream, the slot and the queue has changed. -/
def Reads (c c' : Connection) : Prop :=
  ∃ attached slot inbound,
    c' = { c with attached := attached, slot := slot, inbound := inbound }

theorem Reads.refl (c : Connection) : Reads c c := ⟨_, _, _, rfl⟩

theorem Reads.trans {c' c'' : Connection} (h : Reads c c') (h' : Reads c' c'') : Reads c c'' := by
  obtain ⟨_, _, _, rfl⟩ := h
  obtain ⟨_, _, _, rfl⟩ := h'
  exact ⟨_, _, _, rfl⟩

theorem reads_accept (c : Connection) (f : Frame) : Reads c (c.accept f) := by
  unfold accept
  split_ifs
  · split
    · exact ⟨_, _, _, rfl⟩
    · exact .refl c
  · exact ⟨_, _, _, rfl⟩

theorem reads_acceptResult (c : Connection) (r : Decoded) : Reads c (c.acceptResult r) := by
  unfold acceptResult
  split
  · exact .refl c
  · exact .refl c
  · exact reads_accept c _
  · exact ⟨_, _, _, rfl⟩

theorem reads_acceptResults (c : Connection) (results : List Decoded) :
    Reads c (results.foldl acceptResult c) := by
  induction results generalizing c with
  | nil => exact .refl c
  | cons r results ih => exact (reads_acceptResult c r).trans (ih _)

/-- What is read changes neither settings nor numbers. -/
theorem reads_receive (c : Connection) (chunk : Chunk) : Reads c (c.receive chunk) := by
  unfold receive
  split
  · exact .refl c
  · split_ifs
    · exact .refl c
    · split
      · exact ⟨_, _, _, rfl⟩
      · split <;> exact ⟨_, _, _, rfl⟩
      · have hreader : ∀ reader, Reads c { c with attached := reader } :=
          fun _ => ⟨_, _, _, rfl⟩
        exact (hreader _).trans (reads_acceptResults _ _)

theorem Reads.settings {c' : Connection} (h : Reads c c') : c'.settings = c.settings := by
  obtain ⟨_, _, _, rfl⟩ := h
  rfl

theorem Reads.nextSequence {c' : Connection} (h : Reads c c') :
    c'.nextSequence = c.nextSequence := by
  obtain ⟨_, _, _, rfl⟩ := h
  rfl

end Connection

end TopicBus
