import TopicBus.Proofs.Connection.Exchanges

/-!
One frame on its way out. However often its stream is lost, the bytes stay the same until the
operation is over; if the operation gives its result, they are the last ones on the attached stream
(`sent_of_gives`). So it is with what is published (`publish_gives`) and with the message of a
subscription, which is in the table by then (`subscribe_gives`).
-/

namespace TopicBus

open Control

/-- The subscription that came into the table last. -/
structure SubscriptionTable.LastIs (t : SubscriptionTable) (id : UInt32) (expression : String) :
    Prop where
  fits : id.toNat < 0x80000000
  nextId : t.nextId = SubscriptionTable.idAfter id
  mem : ⟨id, expression, 0⟩ ∈ t.entries

/-- The operation is for sending one frame and nothing else. -/
def Operation.Posts (op : Operation) (header : Header) (payload : List UInt8) : Prop :=
  ∀ (c : Connection) (now : Nat), c.begin now op = c.sendFrame header payload .publish

/-- The operation has bytes of a kind to send. -/
def Activity.Sends (kind : List UInt8 → Prop) (cause : Cause) : Activity → Prop
  | .establishing _ (.resend s cause') => kind s.bytes ∧ cause' = cause
  | .writing _ s cause' => kind s.bytes ∧ cause' = cause
  | _ => False

/-- The operation still has bytes of this kind to send, and the subscriptions are the same; or it
has failed. -/
def Sends (kind : List UInt8 → Prop) (cause : Cause) (t : SubscriptionTable)
    (next : Connection × Progress) : Prop :=
  match next with
  | (c, .waiting a) => a.Sends kind cause ∧ c.subscriptions = t
  | (_, .finished o) => ∃ why, o = .failed why

namespace Connection

variable {c : Connection} {kind : List UInt8 → Prop} {cause : Cause} {t : SubscriptionTable}
  {s : Sending}

theorem sends_sendFailed (c : Connection) (why : Fault) :
    Sends kind cause t (c.sendFailed cause why) := ⟨why, rfl⟩

theorem sends_writeFailed (hs : kind s.bytes) (ht : c.subscriptions = t) (why : Fault) :
    Sends kind cause t (c.writeFailed s cause why) := by
  unfold writeFailed
  split_ifs
  · exact ⟨⟨hs, rfl⟩, ht⟩
  · exact sends_sendFailed c why

theorem sends_write (hs : kind s.bytes) (ht : c.subscriptions = t) :
    Sends kind cause t (c.write s cause) := by
  unfold write
  split
  · exact ⟨⟨hs, rfl⟩, ht⟩
  · exact sends_writeFailed hs ht _

theorem exists_sending {a : Activity} (ha : a.Sends kind cause) :
    ∃ s, a.sending? = some (s, cause) ∧ kind s.bytes := by
  cases a with
  | establishing stage goal =>
    cases goal with
    | resend s cause' =>
      obtain ⟨hs, rfl⟩ := ha
      exact ⟨s, rfl, hs⟩
    | opening => exact ha.elim
    | dispatch deadline => exact ha.elim
  | writing stream s cause' =>
    obtain ⟨hs, rfl⟩ := ha
    exact ⟨s, rfl, hs⟩
  | awaitingResponse deadline => exact ha.elim
  | awaitingEvent deadline => exact ha.elim
  | shuttingDown stream => exact ha.elim

/-- A reply leaves the bytes to be sent, or the operation failing, or it ends the sending. -/
theorem sends_resume {a : Activity} (ha : a.Sends kind cause) (hfree : c.IsFree a)
    (ht : c.subscriptions = t) (now : Nat) (r : Reply) : Sends kind cause t (c.resume now a r) ∨
      ∃ stream s, a = .writing stream s cause ∧ kind s.bytes ∧ r = .written := by
  obtain ⟨s, hsending, hs⟩ := exists_sending ha
  have hmoves := resume_moves hsending hfree now r
  generalize c.resume now a r = next at hmoves ⊢
  generalize he : a.exchange? r = e at hmoves
  cases hmoves with
  | ignored => exact .inl ⟨ha, ht⟩
  | @delivered stream =>
    refine .inr ⟨stream, s, rfl, hs, ?_⟩
    cases r with
    | written => rfl
    | _ => nomatch he
  | broken why => exact .inl (sends_writeFailed hs ht _)
  | refused wake why hmore => exact .inl ⟨⟨hs, rfl⟩, ht⟩
  | unreached why => exact .inl (sends_writeFailed hs ht _)
  | rested => exact .inl ⟨⟨hs, rfl⟩, ht⟩
  | connected n hrest => exact .inl ⟨⟨hs, rfl⟩, ht⟩
  | speechless _ n => exact .inl (sends_writeFailed (c := { c with nextSequence := n }) hs ht _)
  | greeted n hrest => exact .inl ⟨⟨hs, rfl⟩, ht⟩
  | unheard _ n => exact .inl (sends_writeFailed (c := { c with nextSequence := n }) hs ht _)
  | attached => exact .inl ⟨⟨hs, rfl⟩, ht⟩

theorem sends_expire {a : Activity} (ha : a.Sends kind cause) (ht : c.subscriptions = t) :
    Sends kind cause t (c.expire a) := by
  unfold expire
  split
  · exact ⟨_, rfl⟩
  · exact ⟨_, rfl⟩
  · exact ha.elim
  · exact ha.elim
  · exact ha.elim
  · exact ⟨ha, ht⟩

/-- A frame is composed and on its way, unless it is refused at once. -/
theorem sends_sendFrame {header : Header} (hm : header.Measured) {payload : List UInt8}
    (hkind : ∀ bytes, (Frame.ofPayload { header with sequence := c.nextSequence } payload).SentAs
      bytes → kind bytes) (cause : Cause) :
    Sends kind cause c.subscriptions (c.sendFrame header payload cause) := by
  unfold sendFrame
  split_ifs
  · exact sends_sendFailed c _
  · exact sends_sendFailed c _
  · split
    · next c' bytes hcompose =>
      obtain ⟨rfl, hsent⟩ := compose_sentAs hm hcompose
      exact sends_write (s := ⟨bytes, 1⟩) (hkind bytes hsent) rfl
    · next c' why _ => exact sends_sendFailed c' why

/-- A subscription has come into the table. -/
def withSubscription (c : Connection) (expression : String) : Connection :=
  { c with
    subscriptions := ⟨c.subscriptions.capacity,
      c.subscriptions.entries ++ [⟨c.subscriptions.nextId, expression, 0⟩],
      SubscriptionTable.idAfter c.subscriptions.nextId⟩ }

theorem subscribe_of_not_takes {expression : String} (h : ¬c.Takes expression) :
    ∃ why, c.subscribe expression = (c, .finished (.failed why)) := by
  unfold subscribe
  split
  · exact ⟨_, rfl⟩
  · next hvalid =>
    have hfull : c.subscriptions.capacity ≤ c.subscriptions.entries.length :=
      Nat.le_of_not_lt fun hroom => h ⟨Topic.validate_eq_ok_iff.mp hvalid, hroom⟩
    rw [SubscriptionTable.insert_of_full hfull]
    exact ⟨_, rfl⟩

/-- A subscription comes into the table before its message is composed. -/
theorem subscribe_of_takes {expression : String} (h : c.Takes expression) : c.subscribe expression =
    match Control.subscribe expression c.subscriptions.nextId with
    | .error why => (c.withSubscription expression, .finished (.failed why))
    | .ok d => (c.withSubscription expression).sendFrame (.forTopic subscribeTopic) d.encode
        (.subscribe c.subscriptions.nextId) := by
  have hvalid : Topic.validate "expression" expression = .ok () :=
    Topic.validate_eq_ok_iff.mpr h.1
  simp only [subscribe, hvalid, SubscriptionTable.insert_of_room h.2]
  rfl

/-- The message of a subscription is on its way, and the table has the subscription. -/
theorem sends_subscribe (c : Connection) (expression : String) : ∃ t : SubscriptionTable,
    Sends (fun _ => t.LastIs c.subscriptions.nextId expression)
      (.subscribe c.subscriptions.nextId) t (c.subscribe expression) := by
  by_cases htakes : c.Takes expression
  · refine ⟨(c.withSubscription expression).subscriptions, ?_⟩
    rw [subscribe_of_takes htakes]
    split
    · exact ⟨_, rfl⟩
    · next d hd =>
      have hfits := (subscribe_eq_ok_iff.mp hd).1
      exact sends_sendFrame (c := c.withSubscription expression) (Header.measured_forTopic _)
        (fun _ _ => ⟨hfits, rfl, List.mem_append_right _ List.mem_cons_self⟩) _
  · obtain ⟨why, hrefused⟩ := subscribe_of_not_takes htakes
    rw [hrefused]
    exact ⟨c.subscriptions, why, rfl⟩

end Connection

namespace Conversation

variable {next : UInt32} {kind : List UInt8 → Prop} {v w : Conversation} {cause : Cause}
  {t : SubscriptionTable} {o : Outcome}

/-- Bytes of the kind are still to be sent, or the operation has failed, or it has given its result
with such bytes last on the attached stream. -/
inductive Sent (kind : List UInt8 → Prop) (cause : Cause) (t : SubscriptionTable) (o : Outcome)
    (v : Conversation) : Prop where
  | waiting {a : Activity} (ha : v.activity = some a) (ho : v.outcome = none)
      (hsends : a.Sends kind cause) (ht : v.connection.subscriptions = t)
  | failed (why : Fault) (hrest : v.activity = none) (ho : v.outcome = some (.failed why))
  | done {a : Attachment} {earlier : List (List UInt8)} {bytes : List UInt8}
      (hrest : v.activity = none) (ho : v.outcome = some o) (ht : v.connection.subscriptions = t)
      (ha : v.connection.attached = some a) (hwritten : v.written a.stream = earlier ++ [bytes])
      (hkind : kind bytes)

theorem sent_settle (hnone : v.outcome = none) {next : Connection × Progress}
    (h : Sends kind cause t next) : (v.settle next).Sent kind cause t o := by
  obtain ⟨c, progress⟩ := next
  cases progress with
  | waiting a => exact .waiting rfl hnone h.1 h.2
  | finished o =>
    obtain ⟨why, rfl⟩ := h
    exact .failed why rfl rfl

theorem Sent.sends (h : v.Sent kind cause t o) {a : Activity} (ha : v.activity = some a) :
    v.outcome = none ∧ a.Sends kind cause ∧ v.connection.subscriptions = t := by
  cases h with
  | waiting hb ho hsends ht =>
    obtain rfl := Option.some.inj (ha.symm.trans hb)
    exact ⟨ho, hsends, ht⟩
  | failed why hrest _ => nomatch hrest.symm.trans ha
  | done hrest _ _ _ _ _ => nomatch hrest.symm.trans ha

/-- Until the next operation is asked for, every happening keeps to this. -/
theorem Sent.step (hsound : v.Sound anyTerms next)
    (ho : ∀ c, Connection.sendDone c cause = (c, .finished o)) (h : v.Sent kind cause t o)
    {x : Happening} (hx : x.operation? = none) : (v.step x).Sent kind cause t o := by
  cases x with
  | begin now op => nomatch hx
  | reply now r =>
    simp only [Conversation.step]
    split
    · next a ha =>
      obtain ⟨hnone, hsends, ht⟩ := h.sends ha
      have hfree := Connection.isFree_of_sound (hsound.activity a ha)
      rcases Connection.sends_resume hsends hfree ht now r with hnext | ⟨stream, s, rfl, hs, rfl⟩
      · exact sent_settle (v := { v with written := a.demand.record v.written r }) hnone hnext
      · obtain ⟨-, -, ⟨b, hb, rfl⟩, -⟩ := hsound.activity _ ha
        simp only [Connection.resume, ho]
        exact .done rfl rfl ht hb (if_pos rfl) hs
    · exact h
  | expire =>
    simp only [Conversation.step]
    split
    · next a ha =>
      obtain ⟨hnone, hsends, ht⟩ := h.sends ha
      exact sent_settle hnone (Connection.sends_expire hsends ht)
    · exact h
  | receive chunk =>
    obtain ⟨-, hsame⟩ := Connection.receive_keeps hsound.connection chunk
    cases h with
    | waiting ha hnone hsends ht => exact .waiting ha hnone hsends (hsame.subscriptions.trans ht)
    | failed why hrest hfailed => exact .failed why hrest hfailed
    | done hrest hdone ht ha hwritten hkind =>
      obtain ⟨b, hb, hstream⟩ := hsame.symm.exists_attached ha
      rw [← hstream] at hwritten
      exact .done hrest hdone (hsame.subscriptions.trans ht) hb hwritten hkind

theorem Sent.run (hsound : v.Sound anyTerms next)
    (ho : ∀ c, Connection.sendDone c cause = (c, .finished o)) (h : v.Sent kind cause t o)
    {hs : List Happening} (hnone : asked hs = []) : (v.run hs).Sent kind cause t o := by
  induction hs generalizing v next with
  | nil => exact h
  | cons x hs ih =>
    obtain ⟨hx, hnone⟩ := asked_cons_eq_nil.mp hnone
    obtain ⟨last, hstep⟩ := hsound.step_any x
    exact ih hstep (h.step hsound ho hx) hnone

/-- An operation that is begun at rest and has given its result before the next one is begun. -/
def Gives (v : Conversation) (op : Operation) (o : Outcome) (w : Conversation) : Prop :=
  v.activity = none ∧ ∃ now replies, asked replies = [] ∧ w = v.run (.begin now op :: replies) ∧
    w.outcome = some o

variable {topic expression : String} {d : Document} {id : UInt32}

/-- What an operation that only sends a frame has done when it gives its result. -/
theorem sent_of_gives (hsound : v.Sound anyTerms next) {op : Operation}
    (ho : ∀ c, Connection.sendDone c cause = (c, .finished o))
    (hbegin : ∀ now, Sends kind cause t (v.connection.begin now op)) {given : Outcome}
    (h : v.Gives op given w) : w.Sent kind cause t o := by
  obtain ⟨hrest, now, replies, hnone, rfl, -⟩ := h
  have hfirst : (v.step (.begin now op)).Sent kind cause t o := by
    rw [step_begin_of_rest hrest]
    exact sent_settle (v := { v with outcome := none }) rfl (hbegin now)
  obtain ⟨last, hstep⟩ := hsound.step_any (.begin now op)
  exact hfirst.run hstep ho hnone

/-- A frame that an operation was for is the last one on the attached stream. -/
theorem post_gives (hsound : v.Sound anyTerms next) {op : Operation} {header : Header}
    {payload : List UInt8} (hm : header.Measured) (hposts : op.Posts header payload)
    (h : v.Gives op .done w) :
    ∃ a earlier bytes n, w.connection.attached = some a ∧
      w.written a.stream = earlier ++ [bytes] ∧
      (Frame.ofPayload { header with sequence := n } payload).SentAs bytes := by
  let kind : List UInt8 → Prop := fun bytes =>
    ∃ n, (Frame.ofPayload { header with sequence := n } payload).SentAs bytes
  have hsent : w.Sent kind .publish v.connection.subscriptions .done := by
    refine sent_of_gives hsound (fun _ => rfl) (fun now => ?_) h
    rw [hposts]
    exact Connection.sends_sendFrame hm (fun bytes hbytes => ⟨_, hbytes⟩) .publish
  obtain ⟨-, now, replies, -, -, ho⟩ := h
  cases hsent with
  | waiting _ hnone _ _ => nomatch hnone.symm.trans ho
  | failed why _ hfailed => nomatch hfailed.symm.trans ho
  | done _ _ _ ha hwritten hkind =>
    obtain ⟨n, hn⟩ := hkind
    exact ⟨_, _, _, n, ha, hwritten, hn⟩

/-- What has been published is the last frame on the attached stream. -/
theorem publish_gives (hsound : v.Sound anyTerms next)
    (h : v.Gives (.publish topic d) .done w) :
    ∃ a earlier bytes f, w.connection.attached = some a ∧
      w.written a.stream = earlier ++ [bytes] ∧ Frame.SentAs f bytes ∧ f.topic = topic ∧
      f.payload = d.encode ∧ f.header.flags = .none := by
  obtain ⟨a, earlier, bytes, n, ha, hwritten, hf⟩ :=
    post_gives hsound (Header.measured_forTopic topic) (fun _ _ => rfl) h
  exact ⟨a, earlier, bytes, _, ha, hwritten, hf, rfl, rfl, rfl⟩

/-- A subscription whose id has been given came into the table last. -/
theorem subscribe_gives (hsound : v.Sound anyTerms next)
    (h : v.Gives (.subscribe expression) (.subscribed id) w) :
    w.activity = none ∧ id = next ∧ w.connection.subscriptions.LastIs id expression := by
  obtain ⟨t, hsends⟩ := Connection.sends_subscribe v.connection expression
  rw [hsound.connection.nextId] at hsends
  have hsent := sent_of_gives hsound (fun _ => rfl) (fun _ => hsends) h
  obtain ⟨-, now, replies, -, -, ho⟩ := h
  cases hsent with
  | waiting _ hnone _ _ => nomatch hnone.symm.trans ho
  | failed why _ hfailed => nomatch hfailed.symm.trans ho
  | done hrest hdone ht _ _ hlast =>
    obtain rfl : next = id := Outcome.subscribed.inj (Option.some.inj (hdone.symm.trans ho))
    exact ⟨hrest, rfl, ht ▸ hlast⟩

end Conversation

end TopicBus
