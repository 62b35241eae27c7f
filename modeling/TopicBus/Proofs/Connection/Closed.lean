import TopicBus.Proofs.Connection.Issuing
import TopicBus.Proofs.Connection.Rollback

/-!
A connection that is closed stays closed. It has no stream and never asks for one; all that may
still go on is the end of the stream that it had (`Shut`). Every operation fails at once, with
nothing written, no subscription called, added or taken away, and no request waiting
(`closing_is_final`).
-/

namespace TopicBus

/-- Why a closed connection refuses to do anything. -/
def Fault.closed : Fault := .connectionLost ⟨.notConnected, some "connection is closed"⟩

namespace Connection

variable {origin c : Connection} {next : Connection × Progress}

/-- A connection that has been closed when it was in the state `origin`. -/
structure Shut (origin c : Connection) : Prop where
  closed : c.isClosed = true
  attached : c.attached = none
  slot : c.slot = .empty
  entries : c.subscriptions.entries = origin.subscriptions.entries
  generation : c.generation = origin.generation

/-- The next id fits in a message and names no subscription. -/
structure Fresh (c : Connection) : Prop where
  fits : c.subscriptions.nextId.toNat < 2 ^ 31
  apart : ∀ s ∈ c.subscriptions.entries, s.id ≠ c.subscriptions.nextId

/-- Whether an operation has all that it needs, but for a stream. -/
def Admits (c : Connection) : Operation → Prop
  | .subscribe expression => c.Takes expression
  | .dispatch _ => True
  | op => op.message?.isSome = true

/-- The operation has failed, and because the connection is closed if it had all that it needs. -/
inductive Refuses (origin : Connection) (admitted : Prop) : Connection × Progress → Prop
  | failed {c : Connection} {why : Fault} (hshut : origin.Shut c)
      (hwhy : admitted → why = .closed) : Refuses origin admitted (c, .finished (.failed why))

theorem close_cases (c : Connection) : ∃ c', c.Shut c' ∧
    (c.close = (c', .finished .done) ∨
      ∃ stream, c.close = (c', .waiting (.shuttingDown stream))) := by
  refine ⟨{ c.detach with isClosed := true, slot := .empty }, ⟨rfl, rfl, rfl, rfl, rfl⟩, ?_⟩
  unfold close
  split
  · next a _ => exact .inr ⟨a.stream, rfl⟩
  · exact .inl rfl

/-- Whatever the end of a stream gives, the connection stays as it is. -/
theorem resume_shuttingDown (c : Connection) (now : Nat) (stream : StreamId) (r : Reply) :
    c.resume now (.shuttingDown stream) r = (c, .waiting (.shuttingDown stream)) ∨
      ∃ o, o.isDispatched = false ∧ c.resume now (.shuttingDown stream) r = (c, .finished o) := by
  cases r with
  | written => exact .inr ⟨.done, rfl, rfl⟩
  | writeFailed why =>
    by_cases hgone : why.kind = .notConnected
    · exact .inr ⟨.done, rfl, if_pos hgone⟩
    · exact .inr ⟨.failed (.ofIo why), rfl, if_neg hgone⟩
  | _ => exact .inl rfl

theorem sendFrame_of_closed (h : c.isClosed = true) (header : Header) (payload : List UInt8)
    (cause : Cause) : c.sendFrame header payload cause = c.sendFailed cause .closed := if_pos h

namespace Shut

/-- What a reader still puts aside is nobody's. -/
theorem withInbound (h : origin.Shut c) (events : List Inbound) :
    origin.Shut { c with inbound := events } :=
  ⟨h.closed, h.attached, h.slot, h.entries, h.generation⟩

theorem accept (h : origin.Shut c) (f : Frame) : origin.Shut (c.accept f) := by
  unfold Connection.accept
  split_ifs
  · rw [h.slot]
    exact h
  · exact h.withInbound _

theorem receive (h : origin.Shut c) (chunk : Chunk) : origin.Shut (c.receive chunk) := by
  rw [Connection.receive, h.attached]
  exact h

/-- Closing again changes nothing. -/
theorem close (h : origin.Shut c) : c.close = (c, .finished .done) := by
  have hsame : { c.detach with isClosed := true, slot := .empty } = c := by
    rw [← h.closed, ← h.slot, detach, ← h.attached]
  rw [Connection.close, hsame, h.attached]

/-! ## Refusals -/

theorem refuses_publish (h : origin.Shut c) (header : Header) (payload : List UInt8)
    (admitted : Prop) : origin.Refuses admitted (c.sendFrame header payload .publish) := by
  rw [sendFrame_of_closed h.closed]
  exact .failed h fun _ => rfl

/-- The slot is taken back before anybody waits for it. -/
theorem refuses_request (h : origin.Shut c) (now : Nat) (topic : String) (d : Document)
    (timeout : Nat) (admitted : Prop) :
    origin.Refuses admitted (c.request now topic d timeout) := by
  have hclosed : { c with slot := .waiting }.isClosed = true := h.closed
  rw [request, sendFrame_of_closed hclosed]
  exact .failed ⟨h.closed, h.attached, rfl, h.entries, h.generation⟩ fun _ => rfl

/-- The entry is taken out of the table again, and nothing else is. -/
theorem withSubscription (h : origin.Shut c) (hfresh : c.Fresh) (expression : String) :
    origin.Shut ((c.withSubscription expression).sendFailed
      (.subscribe c.subscriptions.nextId) .closed).1 := by
  refine ⟨h.closed, h.attached, h.slot, ?_, h.generation⟩
  have hkept : c.subscriptions.entries.filter (fun s => s.id ≠ c.subscriptions.nextId) =
      c.subscriptions.entries :=
    List.filter_eq_self.mpr fun s hs => decide_eq_true (hfresh.apart s hs)
  have hremoved : (c.subscriptions.entries ++
      [Subscription.mk c.subscriptions.nextId expression 0]).filter
        (fun s => s.id ≠ c.subscriptions.nextId) = c.subscriptions.entries := by
    rw [List.filter_append, hkept]
    simp
  exact hremoved.trans h.entries

theorem refuses_subscribe (h : origin.Shut c) (hfresh : c.Fresh) (expression : String) :
    origin.Refuses (c.Takes expression) (c.subscribe expression) := by
  by_cases htakes : c.Takes expression
  · have hclosed : (c.withSubscription expression).isClosed = true := h.closed
    have hd : Control.subscribe expression c.subscriptions.nextId = .ok _ :=
      Control.subscribe_eq_ok_iff.mpr ⟨hfresh.fits, rfl⟩
    rw [subscribe_of_takes htakes, hd]
    dsimp only
    rw [sendFrame_of_closed hclosed]
    exact .failed (h.withSubscription hfresh expression) fun _ => rfl
  · obtain ⟨why, hfailed⟩ := subscribe_of_not_takes htakes
    rw [hfailed]
    exact .failed h fun htakes' => absurd htakes' htakes

theorem refuses_dispatch (h : origin.Shut c) (deadline : Option Nat) :
    origin.Refuses True (c.dispatchNext deadline) := by
  rw [dispatchNext, if_pos h.closed]
  exact .failed h fun _ => rfl

/-- Every operation is refused, except for closing again. -/
theorem refuses_begin (h : origin.Shut c) (now : Nat) {op : Operation}
    (hfresh : op.subscriptions = 1 → c.Fresh) (hop : op ≠ .close) :
    origin.Refuses (c.Admits op) (c.begin now op) := by
  cases op with
  | publish topic d => exact h.refuses_publish _ d.encode _
  | publishBytes topic payload => exact h.refuses_publish _ payload _
  | send d =>
    show origin.Refuses _ (c.send d)
    unfold send
    split
    · exact h.refuses_publish _ d.encode _
    · next hnone =>
      refine .failed h fun hsome => ?_
      simp [Admits, Operation.message?, hnone] at hsome
  | respond request d =>
    show origin.Refuses _ (c.respond request d)
    unfold respond
    split
    · exact h.refuses_publish _ d.encode _
    · next hnone =>
      refine .failed h fun hsome => ?_
      simp [Admits, Operation.message?, hnone] at hsome
  | subscribe expression => exact h.refuses_subscribe (hfresh rfl) expression
  | request topic d timeout => exact h.refuses_request now topic d timeout _
  | dispatch timeout => exact h.refuses_dispatch _
  | close => exact absurd rfl hop

end Shut

end Connection

namespace Conversation

variable {origin v : Conversation} {n : Nat}

/-- A conversation whose connection has been closed when it stood at `origin`. -/
structure Shut (origin v : Conversation) : Prop where
  connection : origin.connection.Shut v.connection
  written : v.written = origin.written
  activity : ∀ a, v.activity = some a → ∃ stream, a = .shuttingDown stream
  outcome : ∀ delivery, v.outcome ≠ some (.dispatched delivery)

theorem fresh_of_lived (h : v.connection.subscriptions.Lived n) (hn : n + 1 < 2 ^ 31) :
    v.connection.Fresh := by
  obtain ⟨hnext, hlt⟩ := h.nextId (by omega)
  refine ⟨by omega, fun s hs heq => ?_⟩
  have hless := hlt s hs
  rw [heq] at hless
  exact Nat.lt_irrefl _ hless

theorem shut_close (hrest : v.activity = none) (now : Nat) :
    v.Shut (v.step (.begin now .close)) := by
  have hbegin : v.connection.begin now .close = v.connection.close := rfl
  rw [step_begin_of_rest hrest, hbegin]
  obtain ⟨c, hshut, hdone | ⟨stream, hwaits⟩⟩ := v.connection.close_cases
  · rw [hdone]
    exact ⟨hshut, rfl, nofun, nofun⟩
  · rw [hwaits]
    exact ⟨hshut, rfl, fun b hb => ⟨stream, (Option.some.inj hb).symm⟩, nofun⟩

namespace Shut

theorem withConnection (h : origin.Shut v) {c : Connection} (hc : origin.connection.Shut c) :
    origin.Shut { v with connection := c } :=
  ⟨hc, h.written, h.activity, h.outcome⟩

/-- What begins when nothing is going on is over at once. -/
theorem begin (h : origin.Shut v) (hrest : v.activity = none) (now : Nat) (op : Operation)
    (hfresh : op.subscriptions = 1 → v.connection.Fresh) :
    let w := v.step (.begin now op)
    origin.Shut w ∧ w.activity = none ∧ (op = .close → w.outcome = some .done) ∧
      (op ≠ .close → ∃ why, w.outcome = some (.failed why) ∧
        (v.connection.Admits op → why = .closed)) := by
  intro w
  have hw : w = { v with outcome := none }.settle (v.connection.begin now op) :=
    step_begin_of_rest hrest now op
  rw [hw]
  by_cases hop : op = .close
  · subst hop
    have hbegin : v.connection.begin now .close = v.connection.close := rfl
    rw [hbegin, h.connection.close]
    exact ⟨⟨h.connection, h.written, nofun, nofun⟩, rfl, fun _ => rfl, fun hne => absurd rfl hne⟩
  · have hrefused := h.connection.refuses_begin now hfresh hop
    generalize v.connection.begin now op = next at hrefused
    cases hrefused with
    | failed hshut hwhy =>
      exact ⟨⟨hshut, h.written, nofun, nofun⟩, rfl, fun heq => absurd heq hop,
        fun _ => ⟨_, rfl, hwhy⟩⟩

/-- The end of the stream is still to come. -/
theorem goesOn (h : origin.Shut v) (stream : StreamId) :
    origin.Shut (v.settle (v.connection, .waiting (.shuttingDown stream))) :=
  ⟨h.connection, h.written, fun _ hb => ⟨stream, (Option.some.inj hb).symm⟩, h.outcome⟩

/-- The end of the stream has come, and that was no dispatch. -/
theorem finished (h : origin.Shut v) {o : Outcome} (ho : o.isDispatched = false) :
    origin.Shut (v.settle (v.connection, .finished o)) := by
  refine ⟨h.connection, h.written, nofun, fun delivery hdispatched => ?_⟩
  rw [Option.some.inj hdispatched] at ho
  nomatch ho

theorem reply (h : origin.Shut v) (now : Nat) (r : Reply) :
    origin.Shut (v.step (.reply now r)) := by
  cases ha : v.activity with
  | none => rwa [step_reply_of_rest ha]
  | some a =>
    obtain ⟨stream, rfl⟩ := h.activity a ha
    have hwritten : (Activity.shuttingDown stream).demand.record v.written r = v.written := by
      cases r <;> rfl
    rw [step_reply_of_busy ha, hwritten]
    rcases v.connection.resume_shuttingDown now stream r with hstill | ⟨o, ho, hover⟩
    · rw [hstill]
      exact h.goesOn stream
    · rw [hover]
      exact h.finished ho

theorem expire (h : origin.Shut v) : origin.Shut (v.step .expire) := by
  cases ha : v.activity with
  | none => rwa [step_expire_of_rest ha]
  | some a =>
    obtain ⟨stream, rfl⟩ := h.activity a ha
    rw [step_expire_of_busy ha]
    exact h.goesOn stream

theorem step (h : origin.Shut v) (x : Happening)
    (hfresh : (Episode.turn (.happening x)).subscriptions = 1 → v.connection.Fresh) :
    origin.Shut (v.step x) := by
  cases x with
  | begin now op =>
    cases hrest : v.activity with
    | none => exact (h.begin hrest now op hfresh).1
    | some a => rwa [step_begin_of_busy hrest]
  | reply now r => exact h.reply now r
  | expire => exact h.expire
  | receive chunk => exact h.withConnection (h.connection.receive chunk)

/-- Nothing that happens opens the connection again. -/
theorem act (h : origin.Shut v) (x : Episode) (hfresh : x.subscriptions = 1 → v.connection.Fresh) :
    origin.Shut (x.act v) := by
  cases x with
  | turn t =>
    cases t with
    | happening x => exact h.step x hfresh
    | frame reader f => exact h.withConnection (h.connection.accept f)
    | ends reader why => exact h.withConnection (h.connection.withInbound _)
  | abandon => exact ⟨h.connection, h.written, nofun, nofun⟩

theorem live (h : origin.Shut v) (hlived : v.connection.subscriptions.Lived n) {xs : List Episode}
    (hn : n + Episode.calls xs < 2 ^ 31) : origin.Shut (v.live xs) := by
  induction xs generalizing v n with
  | nil => exact h
  | cons x xs ih =>
    have hcalls : Episode.calls (x :: xs) = x.subscriptions + Episode.calls xs := rfl
    -- A call to subscribe is among those that are left, so its id still fits in a message.
    have hstep := h.act x fun hone => fresh_of_lived hlived (by omega)
    exact ih hstep (hlived.uses (uses_act v x)) (by omega)

end Shut

/-- A connection may be closed whenever it is at rest, whatever it and its callers have done before;
they may have given up any operation halfway. From then on, as long as it has been asked for fewer
than 2^31 subscriptions in all, it never has a stream again and writes nothing. Nothing goes on but
the end of the stream that it had, which may fail. No dispatch calls a subscription, the
subscriptions and the generation stay as they are, and no request waits. Whatever is in the queue,
each operation is over as soon as it is begun: closing again is done, and any other fails, a
dispatch always because the connection is closed, and so does any that has what it needs
otherwise. -/
theorem closing_is_final (appName inboxId : String) (settings : ClientSettings) (c : Connection)
    (hc : Connection.create appName settings inboxId = .ok c) (past later : List Episode)
    (hcalls : Episode.calls past + Episode.calls later < 2 ^ 31) (now : Nat)
    (hrest : ((start c).live past).activity = none) :
    let v := (start c).live past
    let w := (v.step (.begin now .close)).live later
    (w.connection.attached = none ∧ w.written = v.written ∧
      (∀ a, w.activity = some a → ∃ stream, a.demand = .shutdown stream) ∧
      ∀ delivery, w.outcome ≠ some (.dispatched delivery)) ∧
    (w.connection.subscriptions.entries = v.connection.subscriptions.entries ∧
      w.connection.generation = v.connection.generation ∧ w.connection.slot = .empty) ∧
    (w.activity = none → ∀ (moment : Nat) (op : Operation),
      Episode.calls past + Episode.calls later + op.subscriptions < 2 ^ 31 →
      let x := w.step (.begin moment op)
      x.activity = none ∧ x.connection.slot = .empty ∧ (op = .close → x.outcome = some .done) ∧
        (op ≠ .close → ∃ why, x.outcome = some (.failed why) ∧
          (w.connection.Admits op → why = .closed)) ∧
        ∀ timeout, op = .dispatch timeout → x.outcome =
          some (.failed (.connectionLost ⟨.notConnected, some "connection is closed"⟩))) := by
  intro v w
  have hpast : v.connection.subscriptions.Lived (Episode.calls past) := by
    have hlived := lived_live (lived_start hc) past
    rwa [Nat.zero_add] at hlived
  have hclosed : (v.step (.begin now .close)).connection.subscriptions.Lived
      (Episode.calls past) := hpast.uses (uses_step v (.begin now .close))
  have h : v.Shut w := (shut_close hrest now).live hclosed hcalls
  have hlived : w.connection.subscriptions.Lived (Episode.calls past + Episode.calls later) :=
    lived_live hclosed later
  refine ⟨⟨h.connection.attached, h.written, fun a ha => ?_, h.outcome⟩,
    ⟨h.connection.entries, h.connection.generation, h.connection.slot⟩,
    fun hidle moment op hop => ?_⟩
  · obtain ⟨stream, rfl⟩ := h.activity a ha
    exact ⟨stream, rfl⟩
  · obtain ⟨hshut, hover, hdone, hfailed⟩ := h.begin hidle moment op
      fun hone => fresh_of_lived hlived (by omega)
    refine ⟨hover, hshut.connection.slot, hdone, hfailed, fun timeout hdispatch => ?_⟩
    subst hdispatch
    obtain ⟨why, hwhy, hreason⟩ := hfailed nofun
    rw [hwhy, hreason trivial]
    rfl

/-- A frame waits to be dispatched, and a request has been given up. -/
def givenUp : List Episode :=
  [.turn (.happening (.reply 0 (.connected 0 "" ""))), .turn (.happening (.reply 0 .written)),
    .turn (.happening (.begin 0 (.subscribe "T"))), .turn (.happening (.reply 0 .written)),
    .turn (.frame 1 ((messageOf "T" 1 .empty).tagged 1)),
    .turn (.happening (.begin 0 (.request "T" .empty 10))), .turn (.happening (.reply 0 .written)),
    .abandon]

/-- The stream cannot be shut down, and its reader reports its end nevertheless. -/
def afterwards : List Episode :=
  [.turn (.happening (.reply 0 (.writeFailed ⟨.brokenPipe, none⟩))), .turn (.ends 1 none),
    .turn (.happening (.begin 0 (.subscribe "U")))]

theorem closing_is_final_givenUp :
    Connection.create "x" { address := "unix:///bus" } "1" = .ok plainConnection ∧
    let v := (start plainConnection).live givenUp
    let w := (v.step (.begin 0 .close)).live afterwards
    v.activity = none ∧ Episode.calls givenUp + Episode.calls afterwards < 2 ^ 31 ∧
      v.connection.slot = .waiting ∧ w.connection.slot = .empty ∧ w.connection.inbound.length = 2 ∧
      w.connection.subscriptions.entries = [⟨1, "T", 0⟩] ∧
      (w.step (.begin 0 (.dispatch (some 5)))).outcome =
        some (.failed (.connectionLost ⟨.notConnected, some "connection is closed"⟩)) := by
  have hc : Connection.create "x" { address := "unix:///bus" } "1" = .ok plainConnection := rfl
  have hrest : ((start plainConnection).live givenUp).activity = none := rfl
  have hcalls : Episode.calls givenUp + Episode.calls afterwards < 2 ^ 31 := by decide
  obtain ⟨-, ⟨hentries, -, hslot⟩, hbegin⟩ := closing_is_final "x" "1"
    { address := "unix:///bus" } plainConnection hc givenUp afterwards hcalls 0 hrest
  refine ⟨hc, ?_⟩
  intro v w
  have hidle : w.activity = none := rfl
  obtain ⟨-, -, -, -, hdispatch⟩ := hbegin hidle 0 (.dispatch (some 5)) (by decide)
  exact ⟨hrest, hcalls, rfl, hslot, rfl, hentries, hdispatch (some 5) rfl⟩

end Conversation

end TopicBus
