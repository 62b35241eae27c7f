import TopicBus.Proofs.Connection.Conversation
import TopicBus.Proofs.Connection.Messages
import TopicBus.Proofs.Connection.SubscriptionIds

/-!
What the other end of a stream has been told. At rest, the stream that is attached began with the
inbox of the connection, and every subscription has been asked for on it. In between, a subscription
may be late: while it is being sent, or while a new stream is being greeted. Each function that an
operation is made of keeps this (`Sound`), hence so does every step and every run.
-/

namespace TopicBus

open Control

/-- The bytes are read as this request. -/
def Asks (bytes : List UInt8) (q : Request) : Prop :=
  ∃ f : Frame, f.SentAs bytes ∧ request? f = some q

/-- What is kept to in a conversation. The messages of the connection itself may be sent. -/
structure Terms where
  /-- The topics and payloads that may be sent. -/
  allows : String → List UInt8 → Prop
  /-- What an id may stand for. -/
  names : UInt32 → String → Prop
  /-- The subscriptions that stay in the table. -/
  keeps : UInt32 → String → Prop
  allows_hello {inbox : String} : IsExpression inbox → allows helloTopic (hello inbox).encode
  allows_subscribe {expression : String} {id : UInt32} {d : Document} :
    subscribe expression id = .ok d → IsExpression expression → names id expression →
      allows subscribeTopic d.encode

/-- Whether a new subscription may have this id. -/
structure Terms.Admits (p : Terms) (id : UInt32) (expression : String) : Prop where
  named : p.names id expression
  fresh : ∀ kept, ¬p.keeps id kept

/-- A failure does not cost a subscription that is to stay. -/
def Cause.Spares (p : Terms) (cause : Cause) : Prop :=
  ∀ id expression, cause = .subscribe id → ¬p.keeps id expression

/-- The bytes are those of a frame that may be sent. -/
def Sendable (p : Terms) (bytes : List UInt8) : Prop :=
  ∃ f : Frame, f.SentAs bytes ∧ p.allows f.topic f.payload

/-- A stream whose first frame announces the inbox. -/
def Introduces (log : List (List UInt8)) (inbox : String) : Prop :=
  ∃ bytes rest, log = bytes :: rest ∧ Asks bytes (.hello inbox)

/-- A stream on which a subscription has been asked for. -/
def Replays (log : List (List UInt8)) (s : Subscription) : Prop :=
  ∃ bytes ∈ log, Asks bytes (.subscribe s.expression s.id)

theorem Introduces.append {log : List (List UInt8)} {inbox : String} (h : Introduces log inbox)
    (more : List (List UInt8)) : Introduces (log ++ more) inbox := by
  obtain ⟨bytes, rest, rfl, hasks⟩ := h
  exact ⟨bytes, rest ++ more, rfl, hasks⟩

theorem Replays.append {log : List (List UInt8)} {s : Subscription} (h : Replays log s)
    (more : List (List UInt8)) : Replays (log ++ more) s := by
  obtain ⟨bytes, hmem, hasks⟩ := h
  exact ⟨bytes, List.mem_append_left more hmem, hasks⟩

namespace Connection

/-- What holds of a connection at any time. -/
structure WellFormed (p : Terms) (next : UInt32) (c : Connection) : Prop where
  inbox : IsExpression c.inbox
  expressions : ∀ s ∈ c.subscriptions.entries, IsExpression s.expression
  named : ∀ s ∈ c.subscriptions.entries, p.names s.id s.expression
  kept : ∀ id expression, p.keeps id expression →
    ∃ s ∈ c.subscriptions.entries, s.id = id ∧ s.expression = expression
  nextId : c.subscriptions.nextId = next
  closed : c.isClosed = true → c.attached = none
  /-- Only the ends of streams that are gone are put aside while the attached one is read. -/
  ends : ∀ generation why, .closed generation why ∈ c.inbound → generation ≤ c.generation ∧
    (generation = c.generation → ∀ a, c.attached = some a → a.isReading = false)

/-- The attached stream knows the inbox and all subscriptions but late ones. No message can carry an
id of 2^31 or more. -/
def Announced (c : Connection) (written : StreamId → List (List UInt8))
    (late : Subscription → Prop) : Prop :=
  ∀ a, c.attached = some a → Introduces (written a.stream) c.inbox ∧
    ∀ s ∈ c.subscriptions.entries, s.id.toNat < 0x80000000 →
      Replays (written a.stream) s ∨ late s

/-- No subscription is late. -/
def Settled (c : Connection) (written : StreamId → List (List UInt8)) : Prop :=
  c.Announced written fun _ => False

end Connection

open Connection

/-- What holds of a goal. -/
def Goal.Sound (p : Terms) : Goal → Prop
  | .resend sending cause => Sendable p sending.bytes ∧ cause.Spares p
  | .opening | .dispatch _ => True

/-- A greeting under way: what has been written, with what is being written, begins with the inbox,
and a subscription of the table that it does not contain is still to come. -/
structure Greeting.Sound (p : Terms) (written : StreamId → List (List UInt8))
    (c : Connection) (g : Greeting) : Prop where
  bytes : Sendable p g.bytes
  rest : ∀ entry ∈ g.rest, IsExpression entry.2 ∧ p.names entry.1 entry.2
  introduces : Introduces (written g.stream ++ [g.bytes]) c.inbox
  replays : ∀ s ∈ c.subscriptions.entries,
    Replays (written g.stream ++ [g.bytes]) s ∨ (s.id, s.expression) ∈ g.rest

def Stage.Sound (p : Terms) (written : StreamId → List (List UInt8))
    (c : Connection) : Stage → Prop
  | .greeting g => g.Sound p written c
  | .connecting _ | .pausing _ _ => True

/-- The subscription that a frame under way is for. -/
def Sending.IsFor (s : Sending) (cause : Cause) (x : Subscription) : Prop :=
  cause = .subscribe x.id ∧ Asks s.bytes (.subscribe x.expression x.id)

/-- What holds while an activity waits. -/
def Activity.Sound (p : Terms) (written : StreamId → List (List UInt8))
    (c : Connection) : Activity → Prop
  | .establishing stage goal =>
    c.attached = none ∧ c.isClosed = false ∧ stage.Sound p written c ∧ goal.Sound p
  | .writing stream sending cause =>
    Sendable p sending.bytes ∧ cause.Spares p ∧ (∃ a, c.attached = some a ∧ a.stream = stream) ∧
      c.Announced written (sending.IsFor cause)
  | .awaitingResponse _ | .awaitingEvent _ => c.Settled written
  | .shuttingDown _ => c.attached = none

def Progress.Sound (p : Terms) (written : StreamId → List (List UInt8))
    (c : Connection) : Progress → Prop
  | .waiting a => a.Sound p written c
  | .finished _ => c.Settled written

/-- What holds of a connection and how far its operation has come. -/
def Sound (p : Terms) (written : StreamId → List (List UInt8)) (next : UInt32)
    (reached : Connection × Progress) : Prop :=
  reached.1.WellFormed p next ∧ reached.2.Sound p written reached.1

namespace Connection

variable {p : Terms} {written : StreamId → List (List UInt8)} {next : UInt32}
  {c : Connection} {late : Subscription → Prop}

theorem announced_of_detached (h : c.attached = none) : c.Announced written late := by
  intro a ha
  rw [h] at ha
  nomatch ha

theorem Announced.mono (h : c.Announced written late) {late' : Subscription → Prop}
    (hlate : ∀ s, late s → late' s) : c.Announced written late' := by
  intro a ha
  obtain ⟨hinbox, hentries⟩ := h a ha
  exact ⟨hinbox, fun s hs hid => (hentries s hs hid).imp_right (hlate s)⟩

theorem Settled.announced (h : c.Settled written) : c.Announced written late :=
  h.mono fun _ hfalse => hfalse.elim

theorem WellFormed.not_closed (h : c.WellFormed p next) {a : Attachment}
    (ha : c.attached = some a) : c.isClosed = false := by
  cases hclosed : c.isClosed with
  | false => rfl
  | true =>
    rw [h.closed hclosed] at ha
    nomatch ha

/-- The inbox and the subscriptions decide the rest. -/
theorem WellFormed.of_same (h : c.WellFormed p next) {c' : Connection} (hinbox : c'.inbox = c.inbox)
    (hsame : c'.subscriptions = c.subscriptions)
    (hclosed : c'.isClosed = true → c'.attached = none)
    (hends : ∀ generation why, .closed generation why ∈ c'.inbound → generation ≤ c'.generation ∧
      (generation = c'.generation → ∀ a, c'.attached = some a → a.isReading = false)) :
    c'.WellFormed p next where
  inbox := hinbox ▸ h.inbox
  expressions := hsame ▸ h.expressions
  named := hsame ▸ h.named
  kept := hsame ▸ h.kept
  nextId := hsame ▸ h.nextId
  closed := hclosed
  ends := hends

theorem WellFormed.detach (h : c.WellFormed p next) : c.detach.WellFormed p next :=
  h.of_same rfl rfl (fun _ => rfl) fun g why hmem =>
    ⟨(h.ends g why hmem).1, fun _ _ ha => nomatch ha⟩

/-! ## Sending -/

theorem sound_establish (h : c.WellFormed p next) (hopen : c.isClosed = false) {goal : Goal}
    (hgoal : goal.Sound p) : Sound p written next (c.establish goal) :=
  ⟨h.detach, rfl, hopen, trivial, hgoal⟩

theorem WellFormed.remove (h : c.WellFormed p next) {id : UInt32}
    (hspared : ∀ expression, ¬p.keeps id expression) :
    ({ c with subscriptions := (c.subscriptions.remove id).1 } : Connection).WellFormed p next where
  inbox := h.inbox
  expressions := fun s hs => h.expressions s (List.mem_filter.mp hs).1
  named := fun s hs => h.named s (List.mem_filter.mp hs).1
  kept := by
    intro other expression hkeeps
    obtain ⟨s, hs, rfl, rfl⟩ := h.kept other expression hkeeps
    have hne : s.id ≠ id := by
      rintro rfl
      exact hspared _ hkeeps
    exact ⟨s, List.mem_filter.mpr ⟨hs, decide_eq_true hne⟩, rfl, rfl⟩
  nextId := h.nextId
  closed := h.closed
  ends := h.ends

/-- The subscription that could not be sent is the late one, and it goes. -/
theorem sound_sendFailed (h : c.WellFormed p next) {cause : Cause} (hspared : cause.Spares p)
    (why : Fault) (hknown : c.Announced written fun s => cause = .subscribe s.id) :
    Sound p written next (c.sendFailed cause why) := by
  cases cause with
  | publish => exact ⟨h, hknown.mono nofun⟩
  | subscribe id =>
    refine ⟨h.remove fun expression => hspared id expression rfl, ?_⟩
    intro a ha
    obtain ⟨hinbox, hentries⟩ := hknown a ha
    refine ⟨hinbox, fun s hs hid => .inl ?_⟩
    obtain ⟨hmem, hne⟩ := List.mem_filter.mp hs
    refine (hentries s hmem hid).resolve_right fun heq => ?_
    exact of_decide_eq_true hne (Cause.subscribe.inj heq).symm
  | request deadline =>
    exact ⟨h.of_same rfl rfl h.closed h.ends, hknown.mono nofun⟩

theorem sound_writeFailed (h : c.WellFormed p next) (hopen : c.isClosed = false) {s : Sending}
    {cause : Cause} (hbytes : Sendable p s.bytes) (hspared : cause.Spares p)
    (hknown : c.Announced written (s.IsFor cause)) (why : Fault) :
    Sound p written next (c.writeFailed s cause why) := by
  unfold writeFailed
  split_ifs
  · exact sound_establish h hopen ⟨hbytes, hspared⟩
  · exact sound_sendFailed h hspared why (hknown.mono fun _ hfor => hfor.1)

theorem sound_write (h : c.WellFormed p next) (hopen : c.isClosed = false) {s : Sending}
    {cause : Cause} (hbytes : Sendable p s.bytes) (hspared : cause.Spares p)
    (hknown : c.Announced written (s.IsFor cause)) :
    Sound p written next (c.write s cause) := by
  unfold write
  split
  · next a ha => exact ⟨h, hbytes, hspared, ⟨a, ha, rfl⟩, hknown⟩
  · exact sound_writeFailed h hopen hbytes hspared hknown _

theorem sound_sendDone (h : c.WellFormed p next) (hknown : c.Settled written) (cause : Cause) :
    Sound p written next (c.sendDone cause) := by
  cases cause <;> exact ⟨h, hknown⟩

theorem WellFormed.withSequence (h : c.WellFormed p next) (n : UInt32) :
    ({ c with nextSequence := n } : Connection).WellFormed p next :=
  h.of_same rfl rfl h.closed h.ends

/-- A frame on the topic of the header says what its payload says. -/
theorem sound_sendFrame (h : c.WellFormed p next) {header : Header} {payload : List UInt8}
    {cause : Cause} (hm : header.Measured) (hallows : p.allows header.topic payload)
    (hspared : cause.Spares p)
    (hknown : ∀ f : Frame, f.topic = header.topic → f.payload = payload →
      c.Announced written fun s =>
        cause = .subscribe s.id ∧ request? f = some (.subscribe s.expression s.id)) :
    Sound p written next (c.sendFrame header payload cause) := by
  have hlate : c.Announced written fun s => cause = .subscribe s.id :=
    (hknown ⟨header, payload⟩ rfl rfl).mono fun _ hs => hs.1
  unfold sendFrame
  split_ifs with hclosed hlong
  · exact sound_sendFailed h hspared _ hlate
  · exact sound_sendFailed h hspared _ hlate
  · split
    · next c' bytes hcompose =>
      obtain ⟨rfl, hsent⟩ := compose_sentAs hm hcompose
      have hbytes : Sendable p bytes := ⟨_, hsent, hallows⟩
      refine sound_write (s := ⟨bytes, 1⟩) (h.withSequence (c.nextSequence + 1))
        (Bool.eq_false_iff.mpr hclosed) hbytes hspared ?_
      exact (hknown _ rfl rfl).mono fun s hs => ⟨hs.1, _, hsent, hs.2⟩
    · next c' why hcompose =>
      obtain rfl : c' = { c with nextSequence := c.nextSequence + 1 } :=
        (congrArg Prod.fst hcompose).symm
      exact sound_sendFailed (h.withSequence _) hspared why hlate

/-! ## Dispatching -/

/-- A call changes neither ids nor expressions. -/
theorem mem_dispatch {t : SubscriptionTable} {f : Frame} {s : Subscription}
    (h : s ∈ (t.dispatch f).1.entries) :
    ∃ x ∈ t.entries, x.id = s.id ∧ x.expression = s.expression := by
  rw [← SubscriptionTable.mem_keys_iff, ← SubscriptionTable.keys_dispatch t f]
  exact SubscriptionTable.mem_keys_iff.mpr ⟨s, h, rfl, rfl⟩

theorem exists_mem_dispatch {t : SubscriptionTable} (f : Frame) {s : Subscription}
    (h : s ∈ t.entries) :
    ∃ x ∈ (t.dispatch f).1.entries, x.id = s.id ∧ x.expression = s.expression := by
  rw [← SubscriptionTable.mem_keys_iff, SubscriptionTable.keys_dispatch]
  exact SubscriptionTable.mem_keys_iff.mpr ⟨s, h, rfl, rfl⟩

theorem WellFormed.withInbound (h : c.WellFormed p next) {inbound : List Inbound}
    (hsub : inbound ⊆ c.inbound) :
    ({ c with inbound := inbound } : Connection).WellFormed p next :=
  h.of_same rfl rfl h.closed fun g why hmem => h.ends g why (hsub hmem)

theorem WellFormed.dispatch (h : c.WellFormed p next) (f : Frame) :
    ({ c with subscriptions := (c.subscriptions.dispatch f).1 } :
      Connection).WellFormed p next where
  inbox := h.inbox
  expressions := by
    intro s hs
    obtain ⟨x, hx, -, hexpression⟩ := mem_dispatch hs
    exact hexpression ▸ h.expressions x hx
  named := by
    intro s hs
    obtain ⟨x, hx, hid, hexpression⟩ := mem_dispatch hs
    exact hid ▸ hexpression ▸ h.named x hx
  kept := by
    intro id expression hkeeps
    obtain ⟨s, hs, rfl, rfl⟩ := h.kept id expression hkeeps
    exact exists_mem_dispatch f hs
  nextId := by
    rw [(SubscriptionTable.dispatch_keeps _ f).2]
    exact h.nextId
  closed := h.closed
  ends := h.ends

theorem Settled.dispatch (h : c.Settled written) (f : Frame) :
    ({ c with subscriptions := (c.subscriptions.dispatch f).1 } : Connection).Settled written := by
  intro a ha
  obtain ⟨hinbox, hentries⟩ := h a ha
  refine ⟨hinbox, fun s hs hsmall => .inl ?_⟩
  obtain ⟨x, hx, hid, hexpression⟩ := mem_dispatch hs
  have hreplays := (hentries x hx (hid ▸ hsmall)).resolve_right id
  rwa [Replays, hid, hexpression] at hreplays

theorem sound_dispatchFrom (h : c.WellFormed p next) (hopen : c.isClosed = false)
    (hknown : c.Settled written) (deadline : Option Nat) {inbound : List Inbound}
    (hsub : inbound ⊆ c.inbound) :
    Sound p written next (c.dispatchFrom deadline inbound) := by
  induction inbound with
  | nil => exact ⟨h.withInbound (List.nil_subset _), hknown⟩
  | cons event rest ih =>
    have hrest : rest ⊆ c.inbound := List.subset_of_cons_subset hsub
    cases event with
    | frame f => exact ⟨(h.withInbound hrest).dispatch f, hknown.dispatch f⟩
    | closed generation why =>
      unfold dispatchFrom
      split_ifs
      · exact sound_establish (h.withInbound hrest) hopen trivial
      · exact ih hrest

theorem sound_dispatchNext (h : c.WellFormed p next) (hknown : c.Settled written)
    (deadline : Option Nat) : Sound p written next (c.dispatchNext deadline) := by
  unfold dispatchNext
  split_ifs with hclosed
  · exact ⟨h, hknown⟩
  · exact sound_establish h (Bool.eq_false_iff.mpr hclosed) trivial
  · exact sound_dispatchFrom h (Bool.eq_false_iff.mpr hclosed) hknown deadline (List.Subset.refl _)

/-! ## Establishing a stream -/

theorem sound_established (h : c.WellFormed p next) (hopen : c.isClosed = false)
    (hknown : c.Settled written) {goal : Goal} (hgoal : goal.Sound p) :
    Sound p written next (c.established goal) := by
  cases goal with
  | opening => exact ⟨h, hknown⟩
  | resend sending cause => exact sound_write h hopen hgoal.1 hgoal.2 hknown.announced
  | dispatch deadline => exact sound_dispatchNext h hknown deadline

theorem sound_establishFailed (h : c.WellFormed p next) (hopen : c.isClosed = false)
    (hdetached : c.attached = none) (why : Fault) {goal : Goal} (hgoal : goal.Sound p) :
    Sound p written next (c.establishFailed why goal) := by
  cases goal with
  | opening => exact ⟨h, announced_of_detached hdetached⟩
  | resend sending cause =>
    exact sound_write h hopen hgoal.1 hgoal.2 (announced_of_detached hdetached)
  | dispatch deadline => exact ⟨h, announced_of_detached hdetached⟩

/-- What is put aside of older streams is older than the one attached now. -/
theorem WellFormed.attach (h : c.WellFormed p next) (hopen : c.isClosed = false) (g : Greeting) :
    (c.attach g).WellFormed p next := by
  refine h.of_same rfl rfl (fun hclosed => Bool.noConfusion (hopen.symm.trans hclosed)) ?_
  intro generation why hmem
  have hle := (h.ends generation why hmem).1
  refine ⟨Nat.le_succ_of_le hle, fun heq => ?_⟩
  exact absurd heq (Nat.ne_of_lt (Nat.lt_succ_of_le hle))

/-- The message of a greeting has been written: the next one, or the stream is attached. -/
theorem sound_greet (h : c.WellFormed p next) (hopen : c.isClosed = false)
    (hdetached : c.attached = none) {g : Greeting}
    (hrest : ∀ entry ∈ g.rest, IsExpression entry.2 ∧ p.names entry.1 entry.2)
    (hintroduces : Introduces (written g.stream) c.inbox)
    (hreplays : ∀ s ∈ c.subscriptions.entries,
      Replays (written g.stream) s ∨ (s.id, s.expression) ∈ g.rest)
    {goal : Goal} (hgoal : goal.Sound p) :
    Sound p written next (c.greet g goal) := by
  unfold greet
  split
  · next hnone =>
    refine sound_established (h.attach hopen g) hopen ?_ hgoal
    intro a ha
    obtain rfl := Option.some.inj ha
    refine ⟨hintroduces, fun s hs _ => .inl ((hreplays s hs).resolve_right ?_)⟩
    rw [hnone]
    exact List.not_mem_nil
  · next id expression rest hmore =>
    rw [hmore] at hrest hreplays
    obtain ⟨⟨hexpression, hnamed⟩, hrest⟩ := List.forall_mem_cons.mp hrest
    split
    · exact sound_establishFailed h hopen hdetached _ hgoal
    · next d hd =>
      split
      · next c' bytes hcompose =>
        obtain ⟨rfl, hsent⟩ := compose_sentAs (Header.measured_forTopic _) hcompose
        have hasks : Asks bytes (.subscribe expression id) :=
          ⟨_, hsent, request?_subscribe hd rfl rfl hexpression⟩
        have hbytes : Sendable p bytes :=
          ⟨_, hsent, p.allows_subscribe hd hexpression hnamed⟩
        refine ⟨h.withSequence _, hdetached, hopen, ?_, hgoal⟩
        refine ⟨hbytes, hrest, hintroduces.append _, ?_⟩
        intro s hs
        rcases hreplays s hs with hold | hmem
        · exact .inl (hold.append _)
        · rcases List.mem_cons.mp hmem with heq | hlater
          · obtain ⟨rfl, rfl⟩ := Prod.mk.inj heq
            exact .inl ⟨bytes, List.mem_append_right _ List.mem_cons_self, hasks⟩
          · exact .inr hlater
      · next c' why hcompose =>
        obtain rfl : c' = { c with nextSequence := c.nextSequence + 1 } :=
          (congrArg Prod.fst hcompose).symm
        exact sound_establishFailed (h.withSequence (c.nextSequence + 1)) hopen hdetached why hgoal

/-- A stream has been opened: it begins with the inbox, and all subscriptions are still to come. -/
theorem sound_introduce (h : c.WellFormed p next) (hopen : c.isClosed = false)
    (hdetached : c.attached = none) {stream : StreamId} (hnew : written stream = [])
    (localEndpoint remoteEndpoint : String) {goal : Goal} (hgoal : goal.Sound p) :
    Sound p written next (c.introduce stream localEndpoint remoteEndpoint goal) := by
  unfold introduce
  split
  · next c' bytes hcompose =>
    obtain ⟨rfl, hsent⟩ := compose_sentAs (Header.measured_forTopic _) hcompose
    have hasks : Asks bytes (.hello c.inbox) := ⟨_, hsent, request?_hello rfl rfl h.inbox⟩
    have hbytes : Sendable p bytes :=
      ⟨_, hsent, p.allows_hello h.inbox⟩
    refine ⟨h.withSequence _, hdetached, hopen, ⟨hbytes, ?_, ?_, ?_⟩, hgoal⟩
    · intro entry hentry
      obtain ⟨s, hs, rfl⟩ := List.mem_map.mp hentry
      exact ⟨h.expressions s hs, h.named s hs⟩
    · exact ⟨bytes, [], by rw [hnew, List.nil_append], hasks⟩
    · exact fun s hs => .inr (List.mem_map.mpr ⟨s, hs, rfl⟩)
  · next c' why hcompose =>
    obtain rfl : c' = { c with nextSequence := c.nextSequence + 1 } :=
      (congrArg Prod.fst hcompose).symm
    exact sound_establishFailed (h.withSequence (c.nextSequence + 1)) hopen hdetached why hgoal

theorem sound_connectFailed (h : c.WellFormed p next) (hopen : c.isClosed = false)
    (hdetached : c.attached = none) (now attempt : Nat) (why : IoFault) {goal : Goal}
    (hgoal : goal.Sound p) :
    Sound p written next (c.connectFailed now attempt why goal) := by
  unfold connectFailed
  split_ifs
  · exact ⟨h, hdetached, hopen, trivial, hgoal⟩
  · exact sound_establishFailed h hopen hdetached _ hgoal

/-! ## Operations -/

theorem sound_publish (h : c.WellFormed p next) (hknown : c.Settled written) (topic : String)
    {payload : List UInt8} (hallows : p.allows topic payload) :
    Sound p written next (c.publishBytes topic payload) :=
  sound_sendFrame h (Header.measured_forTopic topic) hallows nofun fun _ _ _ => hknown.announced

/-- A new subscription takes the next id. -/
theorem WellFormed.insert (h : c.WellFormed p next) {expression : String}
    (hexpression : IsExpression expression) {t : SubscriptionTable} {id : UInt32}
    (hinsert : c.subscriptions.insert expression = .ok (t, id)) :
    id = next ∧ t.nextId = SubscriptionTable.idAfter next ∧
      t.entries = c.subscriptions.entries ++ [⟨id, expression, 0⟩] ∧
      (p.names id expression →
        ({ c with subscriptions := t } : Connection).WellFormed p t.nextId) := by
  obtain ⟨-, rfl, rfl⟩ := SubscriptionTable.insert_eq_ok_iff.mp hinsert
  obtain rfl := h.nextId
  refine ⟨rfl, rfl, rfl, fun hnamed => ⟨h.inbox, ?_, ?_, ?_, rfl, h.closed, h.ends⟩⟩
  · intro s hs
    rcases List.mem_append.mp hs with hs | hs
    · exact h.expressions s hs
    · obtain rfl := List.mem_singleton.mp hs
      exact hexpression
  · intro s hs
    rcases List.mem_append.mp hs with hs | hs
    · exact h.named s hs
    · obtain rfl := List.mem_singleton.mp hs
      exact hnamed
  · intro id expression hkeeps
    obtain ⟨s, hs, heq⟩ := h.kept id expression hkeeps
    exact ⟨s, List.mem_append_left _ hs, heq⟩

/-- A subscription takes an id if its expression is one and there is room. -/
def Takes (c : Connection) (expression : String) : Prop :=
  IsExpression expression ∧ c.subscriptions.entries.length < c.subscriptions.capacity

theorem takes_iff {expression : String} : c.Takes expression ↔ IsExpression expression ∧
    ∃ t id, c.subscriptions.insert expression = .ok (t, id) := by
  refine and_congr_right fun _ => ⟨fun hroom => ?_, ?_⟩
  · exact ⟨_, _, SubscriptionTable.insert_of_room hroom expression⟩
  · rintro ⟨t, id, hinsert⟩
    exact (SubscriptionTable.insert_eq_ok_iff.mp hinsert).1

theorem sound_subscribe (h : c.WellFormed p next) (hknown : c.Settled written)
    {expression : String} (hadmits : c.Takes expression → p.Admits next expression) :
    ¬c.Takes expression ∧ Sound p written next (c.subscribe expression) ∨
      c.Takes expression ∧
        Sound p written (SubscriptionTable.idAfter next) (c.subscribe expression) := by
  rw [takes_iff] at hadmits ⊢
  unfold subscribe
  split
  · next why hinvalid =>
    refine .inl ⟨fun htakes => ?_, h, hknown⟩
    rw [Topic.validate_eq_ok_iff.mpr htakes.1] at hinvalid
    nomatch hinvalid
  · next hvalid =>
    have hexpression : IsExpression expression := Topic.validate_eq_ok_iff.mp hvalid
    split
    · next why hfull =>
      refine .inl ⟨?_, h, hknown⟩
      rintro ⟨-, t, id, hinsert⟩
      rw [hfull] at hinsert
      nomatch hinsert
    · next t id hinsert =>
      have htakes : IsExpression expression ∧ ∃ t id, c.subscriptions.insert expression =
          .ok (t, id) := ⟨hexpression, t, id, hinsert⟩
      have hadmits := hadmits htakes
      obtain ⟨rfl, hafter, hentries, hinserted⟩ := h.insert hexpression hinsert
      have hwell := hinserted hadmits.named
      rw [hafter] at hwell
      -- Only the new subscription is late, and an id that no message can carry never counts.
      have hbut : ({ c with subscriptions := t } : Connection).Announced written
          fun s => s = ⟨id, expression, 0⟩ := by
        intro a ha
        obtain ⟨hinbox, hold⟩ := hknown a ha
        refine ⟨hinbox, fun s hs hid => ?_⟩
        have hs : s ∈ c.subscriptions.entries ++ [⟨id, expression, 0⟩] := hentries ▸ hs
        rcases List.mem_append.mp hs with hs | hs
        · exact .inl ((hold s hs hid).resolve_right fun hfalse => hfalse)
        · exact .inr (List.mem_singleton.mp hs)
      refine .inr ⟨htakes, ?_⟩
      split
      · next why hrefused =>
        refine ⟨hwell, fun a ha => ?_⟩
        obtain ⟨hinbox, hold⟩ := hbut a ha
        refine ⟨hinbox, fun s hs hid => (hold s hs hid).imp_right ?_⟩
        rintro rfl
        have haccepted : Control.subscribe expression id = .ok _ :=
          subscribe_eq_ok_iff.mpr ⟨hid, rfl⟩
        rw [hrefused] at haccepted
        nomatch haccepted
      · next d hd =>
        have hspared : (Cause.subscribe id).Spares p := by
          rintro _ kept ⟨⟩
          exact hadmits.fresh kept
        refine sound_sendFrame hwell (Header.measured_forTopic _)
          (p.allows_subscribe hd hexpression hadmits.named) hspared fun f htopic hpayload => ?_
        refine hbut.mono fun s hs => ?_
        subst hs
        exact ⟨rfl, request?_subscribe hd htopic hpayload hexpression⟩

theorem WellFormed.withSlot (h : c.WellFormed p next) (slot : ResponseSlot) :
    ({ c with slot := slot } : Connection).WellFormed p next :=
  h.of_same rfl rfl h.closed h.ends

theorem sound_close (h : c.WellFormed p next) : Sound p written next c.close := by
  have hclosed :
      ({ c.detach with isClosed := true, slot := .empty } : Connection).WellFormed p next :=
    h.of_same rfl rfl (fun _ => rfl) h.detach.ends
  unfold close
  split
  · exact ⟨hclosed, rfl⟩
  · exact ⟨hclosed, announced_of_detached rfl⟩

/-- Only a subscription that takes an id moves on to the next one. -/
theorem sound_begin (h : c.WellFormed p next) (hknown : c.Settled written) (now : Nat)
    {op : Operation} (hop : ∀ m ∈ op.message?, p.allows m.1 m.2)
    (hadmits : ∀ expression, op = .subscribe expression → c.Takes expression →
      p.Admits next expression) :
    (∀ expression, op = .subscribe expression → ¬c.Takes expression) ∧
        Sound p written next (c.begin now op) ∨
      (∃ expression, op = .subscribe expression ∧ c.Takes expression) ∧
        Sound p written (SubscriptionTable.idAfter next) (c.begin now op) := by
  cases op with
  | subscribe expression =>
    rcases sound_subscribe h hknown (hadmits expression rfl) with ⟨hnot, hsound⟩ | ⟨htakes, hsound⟩
    · refine .inl ⟨?_, hsound⟩
      rintro _ ⟨⟩
      exact hnot
    · exact .inr ⟨⟨expression, rfl, htakes⟩, hsound⟩
  | publish topic d => exact .inl ⟨nofun, sound_publish h hknown topic (hop _ rfl)⟩
  | publishBytes topic payload => exact .inl ⟨nofun, sound_publish h hknown topic (hop _ rfl)⟩
  | send d =>
    refine .inl ⟨nofun, ?_⟩
    simp only [Connection.begin, send]
    split
    · next topic htopic =>
      exact sound_publish h hknown topic (hop _ (Option.map_eq_some_iff.mpr ⟨topic, htopic, rfl⟩))
    · exact ⟨h, hknown⟩
  | respond request d =>
    refine .inl ⟨nofun, ?_⟩
    simp only [Connection.begin, respond]
    split
    · next topic htopic =>
      exact sound_sendFrame h ((Header.measured_forTopic _).withFlags _)
        (hop _ (Option.map_eq_some_iff.mpr ⟨topic, htopic, rfl⟩)) nofun
        fun _ _ _ => hknown.announced
    · exact ⟨h, hknown⟩
  | request topic d timeout =>
    exact .inl ⟨nofun, sound_sendFrame (h.withSlot _)
      (((Header.measured_forTopic topic).withFlags .request).withReplyTopic c.inbox) (hop _ rfl)
      nofun fun _ _ _ => hknown.announced⟩
  | dispatch timeout => exact .inl ⟨nofun, sound_dispatchNext h hknown _⟩
  | close => exact .inl ⟨nofun, sound_close h⟩

theorem sound_takeResponse (h : c.WellFormed p next) (hknown : c.Settled written)
    (deadline : Nat) : Sound p written next (c.takeResponse deadline) := by
  unfold takeResponse
  split
  · exact ⟨h, hknown⟩
  · exact ⟨h, hknown⟩
  · exact ⟨h.withSlot _, hknown⟩

theorem sound_expire (h : c.WellFormed p next) {a : Activity} (ha : a.Sound p written c) :
    Sound p written next (c.expire a) := by
  unfold expire
  split
  · exact ⟨h.detach.withSlot .empty, announced_of_detached rfl⟩
  · exact ⟨h.detach.withSlot .empty, announced_of_detached rfl⟩
  · exact ⟨h.withSlot .empty, ha⟩
  · exact ⟨h, announced_of_detached ha.1⟩
  · exact ⟨h, ha⟩
  · exact ⟨h, ha⟩

/-! ## Replies -/

/-- A frame that was under way is on the record, and no subscription is late any more. -/
theorem settled_of_written {stream : StreamId} {s : Sending} {cause : Cause}
    (hstream : ∃ a, c.attached = some a ∧ a.stream = stream)
    (hknown : c.Announced written (s.IsFor cause)) :
    c.Settled ((Demand.write stream s.bytes).record written .written) := by
  obtain ⟨b, hb, rfl⟩ := hstream
  intro a ha
  obtain rfl : b = a := Option.some.inj (hb.symm.trans ha)
  obtain ⟨hinbox, hentries⟩ := hknown b hb
  simp only [Demand.record, ↓reduceIte]
  refine ⟨hinbox.append _, fun x hx hid => .inl ?_⟩
  rcases hentries x hx hid with hold | hfor
  · exact hold.append _
  · exact ⟨s.bytes, List.mem_append_right _ List.mem_cons_self, hfor.2⟩

theorem sound_resume (h : c.WellFormed p next) {a : Activity} (ha : a.Sound p written c) (now : Nat)
    (r : Reply) :
    Sound p (a.demand.record written r) next (c.resume now a r) := by
  cases a with
  | establishing stage goal =>
    obtain ⟨hdetached, hopen, hstage, hgoal⟩ := ha
    cases stage with
    | connecting attempt =>
      cases r with
      | connected stream localEndpoint remoteEndpoint =>
        exact sound_introduce h hopen hdetached (if_pos rfl) _ _ hgoal
      | refused why => exact sound_connectFailed h hopen hdetached now attempt why hgoal
      | _ => exact ⟨h, hdetached, hopen, hstage, hgoal⟩
    | pausing wake attempt =>
      cases r <;> exact ⟨h, hdetached, hopen, hstage, hgoal⟩
    | greeting g =>
      cases r with
      | written =>
        have hlog : (Demand.write g.stream g.bytes).record written .written g.stream =
            written g.stream ++ [g.bytes] := if_pos rfl
        refine sound_greet h hopen hdetached hstage.rest ?_ ?_ hgoal
        · exact hlog ▸ hstage.introduces
        · exact hlog ▸ hstage.replays
      | writeFailed why => exact sound_establishFailed h hopen hdetached _ hgoal
      | _ => exact ⟨h, hdetached, hopen, hstage, hgoal⟩
  | writing stream sending cause =>
    obtain ⟨hbytes, hspared, hstream, hknown⟩ := ha
    cases r with
    | written => exact sound_sendDone h (settled_of_written hstream hknown) cause
    | writeFailed why =>
      obtain ⟨b, hb, -⟩ := id hstream
      exact sound_writeFailed h (h.not_closed hb) hbytes hspared hknown _
    | _ => exact ⟨h, hbytes, hspared, hstream, hknown⟩
  | awaitingResponse deadline =>
    cases r with
    | woken => exact sound_takeResponse h ha deadline
    | _ => exact ⟨h, ha⟩
  | awaitingEvent deadline =>
    cases r with
    | woken => exact sound_dispatchNext h ha deadline
    | _ => exact ⟨h, ha⟩
  | shuttingDown stream =>
    cases r with
    | written => exact ⟨h, announced_of_detached ha⟩
    | writeFailed why =>
      simp only [resume]
      split_ifs <;> exact ⟨h, announced_of_detached ha⟩
    | _ => exact ⟨h, ha⟩

end Connection

end TopicBus
