import TopicBus.Proofs.Connection.Slot

/-!
What an operation does with the queue of a connection, and until when it goes on. Sending leaves the
queue alone (`Idles`). A dispatch with a stream draws from it: it skips the ends of streams that are
attached no longer and takes what comes next (`Draws`). Either way the deadline stays, and nothing
but the deadline makes an operation time out.
-/

namespace TopicBus

/-! ## Deadlines -/

def Cause.deadline? : Cause → Option Nat
  | .request deadline => some deadline
  | .publish | .subscribe _ => none

def Goal.deadline? : Goal → Option Nat
  | .opening => none
  | .resend _ cause => cause.deadline?
  | .dispatch deadline => deadline

/-- How long an operation may take. -/
def Operation.timeout? : Operation → Option Nat
  | .request _ _ timeout => some timeout
  | .dispatch timeout => timeout
  | _ => none

/-- The deadline of an operation that begins now. -/
def Operation.deadline? (now : Nat) (op : Operation) : Option Nat := op.timeout?.map (now + ·)

namespace Activity

@[simp]
theorem deadline?_establishing (stage : Stage) (goal : Goal) :
    (establishing stage goal).deadline? = goal.deadline? := by
  cases goal with
  | resend s cause => cases cause <;> rfl
  | _ => rfl

@[simp]
theorem deadline?_writing (stream : StreamId) (s : Sending) (cause : Cause) :
    (writing stream s cause).deadline? = cause.deadline? := by cases cause <;> rfl

def awaitsEvent : Activity → Bool
  | .awaitingEvent _ => true
  | _ => false

def isDispatching : Activity → Bool
  | .awaitingEvent _ | .establishing _ (.dispatch _) => true
  | _ => false

/-- The greeting that a reply completes. -/
def greeted? : Activity → Reply → Option Greeting
  | .establishing (.greeting g) _, .written => if g.rest.isEmpty then some g else none
  | _, _ => none

theorem eq_of_greeted? {a : Activity} {r : Reply} {g : Greeting} (h : a.greeted? r = some g) :
    ∃ goal, a = .establishing (.greeting g) goal := by
  unfold greeted? at h
  split at h
  · split_ifs at h
    exact ⟨_, by rw [Option.some.inj h]⟩
  · nomatch h

end Activity

def Outcome.isDispatched : Outcome → Bool
  | .dispatched _ => true
  | _ => false

/-- The operation goes on until this time, or it is over and did not run out of it. -/
def Progress.Until (d : Option Nat) : Progress → Prop
  | .waiting a => a.deadline? = d
  | .finished o => o ≠ .failed .timeout

/-- Besides, the operation is not about an event. -/
def Progress.Quiet (d : Option Nat) : Progress → Prop
  | .waiting a => a.deadline? = d ∧ a.awaitsEvent = false
  | .finished o => o ≠ .failed .timeout ∧ o.isDispatched = false

def Progress.isDispatching : Progress → Bool
  | .waiting a => a.isDispatching
  | .finished _ => false

variable {d : Option Nat} {why : Fault}

theorem Progress.quiet_failed (h : why ≠ .timeout) : (finished (.failed why)).Quiet d :=
  ⟨fun heq => h (Outcome.failed.inj heq), rfl⟩

theorem Progress.Quiet.until {p : Progress} (h : p.Quiet d) : p.Until d := by
  cases p <;> exact h.1

theorem Fault.Refusal.ne_timeout (h : why.Refusal) : why ≠ .timeout := by
  cases h <;> nofun

theorem Fault.ofIo_ne_timeout (io : IoFault) : ofIo io ≠ .timeout := by
  unfold ofIo
  split_ifs <;> nofun

theorem Frame.ne_timeout_of_document {f : Frame} (h : f.document = .error why) :
    why ≠ .timeout := by
  unfold document Document.decode at h
  split at h
  · rw [← Except.error.inj h]
    nofun
  · nomatch h
  · rw [← Except.error.inj h]
    nofun

namespace Connection

variable {c c' : Connection} {next : Connection × Progress}

/-- The end of a stream that is not attached any more. -/
def IsStale (c : Connection) (e : Inbound) : Prop :=
  ∃ generation why, e = .closed generation why ∧ generation ≠ c.generation

/-- Nothing is taken out of the queue. A dispatch leaves its stream alone then. -/
structure Idles (d : Option Nat) (c : Connection) (next : Connection × Progress) : Prop where
  inbound : next.1.inbound = c.inbound
  generation : next.1.generation = c.generation
  attached : next.1.attached = c.attached ∨
    next.1.attached = none ∧ next.2.isDispatching = false
  quiet : next.2.Quiet d

/-- What a dispatch takes out of the queue. -/
inductive Draws (d : Option Nat) (c : Connection) : Connection × Progress → Prop
  /-- There is nothing, or nothing but the ends of earlier streams. -/
  | waits (hstale : ∀ e ∈ c.inbound, c.IsStale e) :
      Draws d c ({ c with inbound := [] }, .waiting (.awaitingEvent d))
  | frame {stale rest : List Inbound} {f : Frame} (hcut : c.inbound = stale ++ .frame f :: rest)
      (hstale : ∀ e ∈ stale, c.IsStale e) :
      Draws d c ({ c with subscriptions := (c.subscriptions.dispatch f).1, inbound := rest },
        .finished (.dispatched (c.subscriptions.dispatch f).2))
  /-- The attached stream has ended. -/
  | ended {stale rest : List Inbound} {why : Option Fault}
      (hcut : c.inbound = stale ++ .closed c.generation why :: rest)
      (hstale : ∀ e ∈ stale, c.IsStale e) :
      Draws d c ({ c with inbound := rest }.establish (.dispatch d))

/-- What an operation does with the queue. -/
inductive Proceeds (d : Option Nat) (c : Connection) (next : Connection × Progress) : Prop
  | idle (h : Idles d c next)
  | draw (hattached : c.attached.isSome) (h : Draws d c next)

theorem Idles.of_same (h : Idles d c' next) (hinbound : c'.inbound = c.inbound)
    (hgeneration : c'.generation = c.generation) (hattached : c'.attached = c.attached) :
    Idles d c next := by
  obtain ⟨h₁, h₂, h₃, h₄⟩ := h
  rw [hattached] at h₃
  exact ⟨h₁.trans hinbound, h₂.trans hgeneration, h₃, h₄⟩

/-- The deadline stays as it is, and nothing else is a timeout. -/
theorem Proceeds.until (h : Proceeds d c next) : next.2.Until d := by
  cases h with
  | idle hidle => exact hidle.quiet.until
  | draw _ hdraws =>
    cases hdraws with
    | waits => rfl
    | frame => nofun
    | ended => rfl

/-! ## Sending -/

theorem idles_sendFailed (c : Connection) (cause : Cause) (hwhy : why ≠ .timeout) :
    Idles d c (c.sendFailed cause why) := by
  cases cause <;> exact ⟨rfl, rfl, .inl rfl, Progress.quiet_failed hwhy⟩

theorem idles_writeFailed (c : Connection) (s : Sending) (cause : Cause) (hwhy : why ≠ .timeout) :
    Idles cause.deadline? c (c.writeFailed s cause why) := by
  unfold writeFailed
  split_ifs
  · exact ⟨rfl, rfl, .inr ⟨rfl, rfl⟩, Activity.deadline?_establishing _ _, rfl⟩
  · exact idles_sendFailed c cause hwhy

theorem idles_write (c : Connection) (s : Sending) (cause : Cause) :
    Idles cause.deadline? c (c.write s cause) := by
  unfold write
  split
  · exact ⟨rfl, rfl, .inl rfl, Activity.deadline?_writing _ _ _, rfl⟩
  · exact idles_writeFailed c s cause nofun

theorem idles_sendDone (c : Connection) (cause : Cause) :
    Idles cause.deadline? c (c.sendDone cause) := by
  cases cause with
  | request deadline => exact ⟨rfl, rfl, .inl rfl, rfl, rfl⟩
  | publish => exact ⟨rfl, rfl, .inl rfl, nofun, rfl⟩
  | subscribe id => exact ⟨rfl, rfl, .inl rfl, nofun, rfl⟩

theorem idles_sendFrame (c : Connection) (header : Header) (payload : List UInt8) (cause : Cause) :
    Idles cause.deadline? c (c.sendFrame header payload cause) := by
  unfold sendFrame
  split_ifs
  · exact idles_sendFailed c cause nofun
  · exact idles_sendFailed c cause nofun
  · split
    · next c' bytes hcompose =>
      obtain ⟨rfl, -⟩ := Prod.mk.inj hcompose
      exact (idles_write _ ⟨bytes, 1⟩ cause).of_same rfl rfl rfl
    · next c' why hcompose =>
      obtain ⟨rfl, hwhy⟩ := Prod.mk.inj hcompose
      exact (idles_sendFailed _ cause (Frame.refusal_of_encode hwhy).ne_timeout).of_same rfl rfl rfl

/-! ## Dispatching -/

/-- The ends of earlier streams have been skipped, up to these events. -/
theorem draws_dispatchFrom {stale events : List Inbound} (hcut : c.inbound = stale ++ events)
    (hstale : ∀ e ∈ stale, c.IsStale e) : Draws d c (c.dispatchFrom d events) := by
  induction events generalizing stale with
  | nil =>
    rw [List.append_nil] at hcut
    exact .waits (hcut ▸ hstale)
  | cons event rest ih =>
    cases event with
    | frame f => exact .frame hcut hstale
    | closed generation why =>
      unfold dispatchFrom
      split_ifs with hcurrent
      · subst hcurrent
        exact .ended hcut hstale
      · have hskipped : c.inbound = (stale ++ [.closed generation why]) ++ rest := by simp [hcut]
        refine ih hskipped ?_
        intro e he
        rcases List.mem_append.mp he with he | he
        · exact hstale e he
        · exact ⟨generation, why, List.mem_singleton.mp he, hcurrent⟩

/-- A dispatch with a stream looks into the queue. -/
theorem draws_dispatchNext (hopen : c.isClosed = false) (hattached : c.attached.isSome) :
    Draws d c (c.dispatchNext d) := by
  have hsome : c.attached.isNone = false := by simpa using hattached
  simp only [dispatchNext, hopen, hsome, Bool.false_eq_true, ↓reduceIte]
  exact draws_dispatchFrom (List.nil_append _).symm (by simp)

theorem proceeds_dispatchNext (c : Connection) (d : Option Nat) :
    Proceeds d c (c.dispatchNext d) := by
  by_cases hclosed : c.isClosed
  · simp only [dispatchNext, hclosed, ↓reduceIte]
    exact .idle ⟨rfl, rfl, .inl rfl, Progress.quiet_failed (by simp [Fault.notConnected])⟩
  · rw [Bool.not_eq_true] at hclosed
    by_cases hnone : c.attached = none
    · simp only [dispatchNext, hclosed, hnone, Option.isNone_none, Bool.false_eq_true, ↓reduceIte]
      exact .idle ⟨rfl, rfl, .inl hnone.symm, rfl, rfl⟩
    · have hattached : c.attached.isSome := Option.isSome_iff_ne_none.mpr hnone
      exact .draw hattached (draws_dispatchNext hclosed hattached)

/-! ## Establishing a stream -/

theorem proceeds_established (c : Connection) (goal : Goal) :
    Proceeds goal.deadline? c (c.established goal) := by
  cases goal with
  | opening => exact .idle ⟨rfl, rfl, .inl rfl, nofun, rfl⟩
  | resend s cause => exact .idle (idles_write c s cause)
  | dispatch deadline => exact proceeds_dispatchNext c deadline

theorem idles_establishFailed (c : Connection) (goal : Goal) (hwhy : why ≠ .timeout) :
    Idles goal.deadline? c (c.establishFailed why goal) := by
  cases goal with
  | opening => exact ⟨rfl, rfl, .inl rfl, Progress.quiet_failed hwhy⟩
  | resend s cause => exact idles_write c s cause
  | dispatch deadline => exact ⟨rfl, rfl, .inl rfl, Progress.quiet_failed hwhy⟩

theorem proceeds_attached (c : Connection) {g : Greeting} (hrest : g.rest = []) (goal : Goal) :
    Proceeds goal.deadline? (c.attach g) (c.greet g goal) := by
  simp only [greet, hrest]
  exact proceeds_established (c.attach g) goal

theorem idles_greet (c : Connection) {g : Greeting} (hrest : g.rest ≠ []) (goal : Goal) :
    Idles goal.deadline? c (c.greet g goal) := by
  unfold greet
  split
  · next hnil => exact absurd hnil hrest
  · split
    · next hwhy =>
      exact idles_establishFailed c goal (Control.refusal_of_subscribe hwhy).ne_timeout
    · split
      · next c' bytes hcompose =>
        obtain ⟨rfl, -⟩ := Prod.mk.inj hcompose
        exact ⟨rfl, rfl, .inl rfl, Activity.deadline?_establishing _ _, rfl⟩
      · next c' why hcompose =>
        obtain ⟨rfl, hwhy⟩ := Prod.mk.inj hcompose
        exact (idles_establishFailed _ goal (Frame.refusal_of_encode hwhy).ne_timeout).of_same
          rfl rfl rfl

theorem idles_introduce (c : Connection) (stream : StreamId) (l e : String) (goal : Goal) :
    Idles goal.deadline? c (c.introduce stream l e goal) := by
  unfold introduce
  dsimp only
  split
  · next c' bytes hcompose =>
    obtain ⟨rfl, -⟩ := Prod.mk.inj hcompose
    exact ⟨rfl, rfl, .inl rfl, Activity.deadline?_establishing _ _, rfl⟩
  · next c' why hcompose =>
    obtain ⟨rfl, hwhy⟩ := Prod.mk.inj hcompose
    exact (idles_establishFailed _ goal (Frame.refusal_of_encode hwhy).ne_timeout).of_same
      rfl rfl rfl

theorem idles_connectFailed (c : Connection) (now attempt : Nat) (why : IoFault) (goal : Goal) :
    Idles goal.deadline? c (c.connectFailed now attempt why goal) := by
  unfold connectFailed
  split_ifs
  · exact ⟨rfl, rfl, .inl rfl, Activity.deadline?_establishing _ _, rfl⟩
  · exact idles_establishFailed c goal nofun

/-! ## Operations -/

theorem idles_send (c : Connection) (x : Document) : Idles none c (c.send x) := by
  unfold send
  split
  · exact idles_sendFrame c _ x.encode .publish
  · exact ⟨rfl, rfl, .inl rfl, nofun, rfl⟩

theorem idles_respond (c : Connection) (request : Header) (x : Document) :
    Idles none c (c.respond request x) := by
  unfold respond
  split
  · exact idles_sendFrame c _ x.encode .publish
  · exact ⟨rfl, rfl, .inl rfl, nofun, rfl⟩

theorem idles_subscribe (c : Connection) (expression : String) :
    Idles none c (c.subscribe expression) := by
  have hfailed {c' : Connection} {why : Fault} (h : why.Refusal) :
      Idles none c' (c', .finished (.failed why)) :=
    ⟨rfl, rfl, .inl rfl, Progress.quiet_failed h.ne_timeout⟩
  unfold subscribe
  split
  · next hwhy => exact hfailed (Topic.refusal_of_validate hwhy)
  · split
    · next hwhy => exact hfailed (SubscriptionTable.refusal_of_insert hwhy)
    · dsimp only
      split
      · next hwhy => exact (hfailed (Control.refusal_of_subscribe hwhy)).of_same rfl rfl rfl
      · exact (idles_sendFrame _ _ _ (.subscribe _)).of_same rfl rfl rfl

theorem idles_close (c : Connection) : Idles none c c.close := by
  unfold close
  split
  · exact ⟨rfl, rfl, .inr ⟨rfl, rfl⟩, rfl, rfl⟩
  · next hnone => exact ⟨rfl, rfl, .inl hnone.symm, nofun, rfl⟩

theorem proceeds_begin (c : Connection) (now : Nat) (op : Operation) :
    Proceeds (op.deadline? now) c (c.begin now op) := by
  cases op with
  | publish topic x => exact .idle (idles_sendFrame c _ x.encode .publish)
  | publishBytes topic payload => exact .idle (idles_sendFrame c _ payload .publish)
  | send x => exact .idle (idles_send c x)
  | respond request x => exact .idle (idles_respond c request x)
  | subscribe expression => exact .idle (idles_subscribe c expression)
  | request topic x timeout =>
    exact .idle ((idles_sendFrame _ _ x.encode (.request (now + timeout))).of_same rfl rfl rfl)
  | dispatch timeout => exact proceeds_dispatchNext c _
  | close => exact .idle (idles_close c)

theorem idles_takeResponse (c : Connection) (deadline : Nat) :
    Idles (some deadline) c (c.takeResponse deadline) := by
  unfold takeResponse
  split
  · exact ⟨rfl, rfl, .inl rfl, rfl, rfl⟩
  · exact ⟨rfl, rfl, .inl rfl, nofun, rfl⟩
  · next f _ =>
    refine ⟨rfl, rfl, .inl rfl, ?_⟩
    cases hdocument : f.document with
    | ok x => exact ⟨nofun, rfl⟩
    | error why => exact Progress.quiet_failed (Frame.ne_timeout_of_document hdocument)

/-- What a reply does to an activity and to the queue. -/
inductive Resumes (c : Connection) (a : Activity) (r : Reply) : Connection × Progress → Prop
  | ignored (hnone : a.greeted? r = none) : Resumes c a r (c, .waiting a)
  | goesOn {next : Connection × Progress} (hnone : a.greeted? r = none)
      (h : Proceeds a.deadline? c next) : Resumes c a r next
  | attached {g : Greeting} {next : Connection × Progress} (hsome : a.greeted? r = some g)
      (h : Proceeds a.deadline? (c.attach g) next) : Resumes c a r next

theorem resumes_resume (c : Connection) (now : Nat) (a : Activity) (r : Reply) :
    Resumes c a r (c.resume now a r) := by
  cases a with
  | establishing stage goal =>
    have hidle {next : Connection × Progress}
        (hnone : (Activity.establishing stage goal).greeted? r = none)
        (h : Idles goal.deadline? c next) : Resumes c (.establishing stage goal) r next := by
      rw [← Activity.deadline?_establishing stage goal] at h
      exact .goesOn hnone (.idle h)
    cases stage with
    | connecting attempt =>
      cases r with
      | connected stream l e => exact hidle rfl (idles_introduce c stream l e goal)
      | refused why => exact hidle rfl (idles_connectFailed c now attempt why goal)
      | _ => exact .ignored rfl
    | pausing wake attempt =>
      cases r with
      | rested => exact hidle rfl ⟨rfl, rfl, .inl rfl, Activity.deadline?_establishing _ _, rfl⟩
      | _ => exact .ignored rfl
    | greeting g =>
      cases r with
      | written =>
        cases hrest : g.rest with
        | nil =>
          have h := proceeds_attached c hrest goal
          rw [← Activity.deadline?_establishing (.greeting g) goal] at h
          exact .attached (by simp [Activity.greeted?, hrest]) h
        | cons entry rest =>
          refine hidle (by simp [Activity.greeted?, hrest]) (idles_greet c ?_ goal)
          simp [hrest]
      | writeFailed why =>
        exact hidle rfl (idles_establishFailed c goal (Fault.ofIo_ne_timeout why))
      | _ => exact .ignored rfl
  | writing stream s cause =>
    have hidle {next : Connection × Progress} (h : Idles cause.deadline? c next) :
        Resumes c (.writing stream s cause) r next := by
      rw [← Activity.deadline?_writing stream s cause] at h
      exact .goesOn rfl (.idle h)
    cases r with
    | written => exact hidle (idles_sendDone c cause)
    | writeFailed why => exact hidle (idles_writeFailed c s cause (Fault.ofIo_ne_timeout why))
    | _ => exact .ignored rfl
  | awaitingResponse deadline =>
    cases r with
    | woken => exact .goesOn rfl (.idle (idles_takeResponse c deadline))
    | _ => exact .ignored rfl
  | awaitingEvent deadline =>
    cases r with
    | woken => exact .goesOn rfl (proceeds_dispatchNext c deadline)
    | _ => exact .ignored rfl
  | shuttingDown stream =>
    have hdone : Idles none c (c, .finished .done) := ⟨rfl, rfl, .inl rfl, nofun, rfl⟩
    cases r with
    | written => exact .goesOn rfl (.idle hdone)
    | writeFailed why =>
      refine .goesOn rfl (.idle ?_)
      change Idles none c (if why.kind = .notConnected then _ else _)
      split_ifs
      · exact hdone
      · exact ⟨rfl, rfl, .inl rfl, Progress.quiet_failed (Fault.ofIo_ne_timeout why)⟩
    | _ => exact .ignored rfl

theorem Resumes.until {a : Activity} {r : Reply} (h : Resumes c a r next) :
    next.2.Until a.deadline? := by
  cases h with
  | ignored => rfl
  | goesOn _ hnext => exact hnext.until
  | attached _ hnext => exact hnext.until

/-- What the passing of its deadline does to an activity. -/
inductive Expires (c : Connection) (a : Activity) : Connection × Progress → Prop
  | ignored (hnone : a.deadline? = none) : Expires c a (c, .waiting a)
  | timeout {c' : Connection} (hinbound : c'.inbound = c.inbound)
      (hgeneration : c'.generation = c.generation)
      (hattached : c'.attached = c.attached ∨ c'.attached = none ∧ a.isDispatching = false) :
      Expires c a (c', .finished (.failed .timeout))

theorem expires_expire (c : Connection) (a : Activity) : Expires c a (c.expire a) := by
  cases a with
  | establishing stage goal =>
    cases goal with
    | opening => exact .ignored rfl
    | resend s cause =>
      cases cause with
      | request deadline => exact .timeout rfl rfl (.inr ⟨rfl, rfl⟩)
      | publish => exact .ignored rfl
      | subscribe id => exact .ignored rfl
    | dispatch deadline => exact .timeout rfl rfl (.inl rfl)
  | writing stream s cause =>
    cases cause with
    | request deadline => exact .timeout rfl rfl (.inr ⟨rfl, rfl⟩)
    | publish => exact .ignored rfl
    | subscribe id => exact .ignored rfl
  | awaitingResponse deadline => exact .timeout rfl rfl (.inl rfl)
  | awaitingEvent deadline => exact .timeout rfl rfl (.inl rfl)
  | shuttingDown stream => exact .ignored rfl

end Connection

end TopicBus
