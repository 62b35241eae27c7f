import TopicBus.Proofs.Broker.Admission
import TopicBus.Proofs.Broker.Effect
import TopicBus.Proofs.Connection.Replay

/-!
Connection and broker agree on what is asked. The two messages of a connection can be composed
whatever the expression or the inbox, are heard as they were written, and stand for exactly the
route that was meant. A broker that routes one holds this route, unless the sender itself listens to
such messages and has no room for its copies of this one (`messages_register`).
-/

namespace TopicBus

open Control Wire

namespace Connection

variable {topic : String} {payload bytes : List UInt8}

/-- A frame can be composed if its topic and its size fit their fields. -/
theorem exists_compose (c : Connection) (htopic : IsExpression topic)
    (hsize : payload.length < 2 ^ 32) :
    ∃ bytes, (c.compose (.forTopic topic) payload).2 = .ok bytes := by
  have hplain : Flags.none.contains .request = false := by decide
  refine ⟨_, Frame.encode_eq_ok_iff.mpr ⟨?_, ?_, rfl⟩⟩
  · exact UInt32.toNat_ofNat_of_lt' hsize
  · exact ⟨htopic.1, htopic.2, nofun, nofun, fun h => nomatch hplain.symm.trans h⟩

/-- It is heard as it is, however its bytes are cut. -/
theorem heard_compose {c : Connection} (h : (c.compose (.forTopic topic) payload).2 = .ok bytes)
    {maxPayload : Nat} (hwithin : payload.length ≤ maxPayload) {chunks : List (List UInt8)}
    (hchunks : chunks.flatten = bytes) :
    heard ((Reader.ofLimit maxPayload).feedAll chunks).2 =
      [.frame (.ofPayload { Header.forTopic topic with sequence := c.nextSequence } payload)] := by
  obtain ⟨-, hsent⟩ := compose_sentAs (Header.measured_forTopic topic)
    (show c.compose (.forTopic topic) payload = (_, .ok bytes) from Prod.ext rfl h)
  refine Frame.SentAs.heard_sent (.cons hsent .nil) ?_ (hchunks.trans (List.append_nil _).symm)
  intro f hf
  obtain rfl := List.mem_singleton.mp hf
  exact hwithin

end Connection

namespace Broker

/-- What a broker is left with after a message that stands for a route. Inboxes aside, nothing else
has changed. -/
structure Registers (b : Broker) (sender : ClientId) (k : Client) (f : Frame) (r : Route)
    (inbox : Option String) (b' : Broker) : Prop where
  /-- The route stands at the end of the table, unless the table had it. Then the clients that could
  not take their copies of the message lose theirs. -/
  routes : b'.table.routes = (b.withRoute r).table.routes.filter fun x => !b.overflows f x
  held : r ∈ b'.table.routes ↔ (b.subscriptionsFor sender f.topic).length ≤ k.outbox.room
  own : (b.subscriptionsFor sender f.topic).length ≤ k.outbox.room →
    b'.routesOf sender = (b.withRoute r).routesOf sender
  client : b'.client? sender = some { k with
    inbox := inbox
    outbox := k.outbox.offer ((b.subscriptionsFor sender f.topic).map f.tagged) }
  ids : b'.ids = b.ids

variable {b : Broker} {sender : ClientId} {k : Client} {f : Frame} {q : Request} {r : Route}

theorem overflows_of_owner (hk : b.client? sender = some k) (hr : r.owner = some sender) :
    b.overflows f r = decide (k.outbox.room < (b.subscriptionsFor sender f.topic).length) := by
  simp only [overflows, hr, Option.bind_some, hk, client?_id hk]

theorem routes_withRoute (hk : b.client? sender = some k)
    (hroom : b.table.routes.length < b.table.capacity) (hq : request? f = some q) :
    (b.withRoute (q.route sender)).table.routes = b.table.routes ++ b.granted sender f := by
  have hsome : (b.client? sender).isSome = true := by rw [hk]; rfl
  simp only [withRoute, granted, hq, hsome, hroom, true_and, and_true]
  by_cases hmem : q.route sender ∈ b.table.routes
  · simp only [hmem, not_true_eq_false, ↓reduceIte, List.append_nil]
  · simp only [hmem, not_false_eq_true, ↓reduceIte]

theorem mem_withRoute (b : Broker) (r : Route) : r ∈ (b.withRoute r).table.routes := by
  unfold withRoute
  split_ifs with hmem
  · exact hmem
  · exact List.mem_append_right _ List.mem_cons_self

/-- A request from a registered client, as long as the table has room. -/
theorem WellFormed.registers (h : b.WellFormed) (hk : b.client? sender = some k)
    (hroom : b.table.routes.length < b.table.capacity) (hq : request? f = some q) :
    Registers b sender k f (q.route sender) (q.adopt k).inbox (b.route sender f).1 := by
  have hroutes := h.routes_route sender f
  rw [← routes_withRoute hk hroom hq] at hroutes
  have howner : (q.route sender).owner = some sender := rfl
  refine ⟨hroutes, ?_, fun hfits => ?_, ?_, h.ids_route sender f⟩
  · rw [hroutes, List.mem_filter, overflows_of_owner hk howner]
    simp [mem_withRoute]
  · rw [routesOf, hroutes, List.filter_filter, routesOf]
    refine List.filter_congr fun x _ => ?_
    by_cases hx : x.owner = some sender
    · simp [hx, overflows_of_owner hk hx, hfits]
    · simp [hx]
  · have haccepts : b.Accepts sender (q.route sender) := ⟨by rw [hk]; rfl, .inr hroom⟩
    have hid (c : Client) : (q.adopt c).id = c.id := by cases q <;> rfl
    have hgrant : (b.grant sender q).client? sender = some (q.adopt k) := by
      rw [grant, client?_modifyClient _ sender sender hid, if_pos rfl]
      exact congrArg (Option.map q.adopt) hk
    rw [h.route_client? sender f hk, onControl_of_accepts hq haccepts, hgrant]
    cases q <;> rfl

/-- What a connection writes to subscribe, for any expression and any id that fits, or to announce
its inbox, for any inbox that a connection may have, has at most 1024 bytes of payload, whatever else
the connection has written. It is heard as one frame, however it is cut. A broker with room in its
table that routes it from a registered client ends up with exactly the route that was meant, and with
the inbox on record, but only if the client has room for its own copies of the message: if it listens
to such messages and has not, all its routes are lost, with the new one. -/
theorem messages_register (settings : BrokerSettings) (ops : List Operation) (sender : ClientId)
    (k : Client) (hk : ((ofSettings settings).run ops).client? sender = some k)
    (hroom : ((ofSettings settings).run ops).table.routes.length <
      ((ofSettings settings).run ops).table.capacity) :
    let b := (ofSettings settings).run ops
    (∀ (c : Connection) (expression : String) (id : UInt32),
      IsExpression expression → id.toNat < 2 ^ 31 → ∃ d bytes f,
        subscribe expression id = .ok d ∧ d.encode.length ≤ 1024 ∧
        (c.compose (.forTopic subscribeTopic) d.encode).2 = .ok bytes ∧
        (∀ maxPayload, d.encode.length ≤ maxPayload → ∀ chunks, chunks.flatten = bytes →
          heard ((Reader.ofLimit maxPayload).feedAll chunks).2 = [.frame f]) ∧
        Registers b sender k f (.forward expression id sender) k.inbox (b.route sender f).1) ∧
    ∀ appName inboxId settings c₀, Connection.create appName settings inboxId = .ok c₀ →
      ∀ c : Connection, c.inbox = c₀.inbox → ∃ bytes f,
        (hello c.inbox).encode.length ≤ 1024 ∧
        (c.compose (.forTopic helloTopic) (hello c.inbox).encode).2 = .ok bytes ∧
        (∀ maxPayload, (hello c.inbox).encode.length ≤ maxPayload →
          ∀ chunks, chunks.flatten = bytes →
            heard ((Reader.ofLimit maxPayload).feedAll chunks).2 = [.frame f]) ∧
        Registers b sender k f (.forward c.inbox 0 sender) (some c.inbox) (b.route sender f).1 := by
  intro b
  have h : b.WellFormed := (wellFormed_ofSettings settings).run ops
  constructor
  · intro c expression id hexpression hid
    have hd : subscribe expression id = .ok _ := subscribe_eq_ok_iff.mpr ⟨hid, rfl⟩
    have hlength := length_subscribe_le hd hexpression.2
    have htopic : IsExpression subscribeTopic := by decide
    obtain ⟨bytes, hbytes⟩ := c.exists_compose htopic (Nat.lt_of_le_of_lt hlength (by decide))
    refine ⟨_, bytes, _, hd, hlength, hbytes, fun maxPayload hwithin chunks hchunks =>
      Connection.heard_compose hbytes hwithin hchunks, ?_⟩
    exact h.registers hk hroom (request?_subscribe hd rfl rfl hexpression)
  · intro appName inboxId settings c₀ hc₀ c hsame
    have hinbox : IsExpression c.inbox := by
      rw [hsame]
      exact (Connection.wellFormed_create (p := Conversation.anyTerms) hc₀ fun _ _ => id).1.inbox
    have hlength := length_hello_le hinbox.2
    have htopic : IsExpression helloTopic := by decide
    obtain ⟨bytes, hbytes⟩ := c.exists_compose htopic (Nat.lt_of_le_of_lt hlength (by decide))
    refine ⟨bytes, _, hlength, hbytes, fun maxPayload hwithin chunks hchunks =>
      Connection.heard_compose hbytes hwithin hchunks, ?_⟩
    exact h.registers hk hroom (request?_hello rfl rfl hinbox)

def sixth : Document := (Document.empty.setString "topic" "A").setInt32 "route_id" 6

/-- The request for `A` under the id 6, as the first message of a connection. -/
def sixthSubscription : Frame := Conversation.messageOf subscribeTopic 1 sixth

theorem messages_register_sixth :
    let b := (ofSettings {}).run [.register "a" 4]
    (b.client? 1).isSome = true ∧ b.table.routes.length < b.table.capacity ∧
      subscribe "A" 6 = .ok sixth ∧
      Route.forward "A" 6 1 ∈ (b.route 1 sixthSubscription).1.table.routes := by
  intro b
  have hsome : (b.client? 1).isSome = true := by decide +kernel
  have hroom : b.table.routes.length < b.table.capacity := by decide +kernel
  have hframes : (Conversation.plainConnection.compose (.forTopic subscribeTopic)
      sixth.encode).2.toOption.map (fun bytes =>
        (heard ((Reader.ofLimit 1024).feedAll [bytes]).2).filterMap Conversation.frame?) =
          some [sixthSubscription] := by
    decide +kernel
  have hnone : b.subscriptionsFor 1 sixthSubscription.topic = [] := by decide +kernel
  have hsixth : subscribe "A" 6 = .ok sixth := rfl
  obtain ⟨k, hk⟩ := Option.isSome_iff_exists.mp hsome
  obtain ⟨hsubscribe, -⟩ := messages_register {} [.register "a" 4] 1 k hk hroom
  obtain ⟨d, bytes, f, hd, hlength, hbytes, hheard, hregisters⟩ :=
    hsubscribe Conversation.plainConnection "A" 6 (by decide) (by decide)
  obtain rfl : sixth = d := Except.ok.inj (hsixth.symm.trans hd)
  have hf : f = sixthSubscription := by
    rw [hbytes, Except.toOption, Option.map_some, hheard 1024 hlength [bytes] (List.append_nil _)]
      at hframes
    exact List.head_eq_of_cons_eq (Option.some.inj hframes)
  subst hf
  exact ⟨hsome, hroom, hsixth, hregisters.held.mpr (hnone ▸ Nat.zero_le _)⟩

/-- A client that listens to all topics and has no room left asks for one more route. It loses the
one that it had, and does not get the new one. -/
def besideItself : List Operation :=
  [.register "a" 1,
    .route 1 (.ofPayload (.forTopic subscribeTopic)
      (Utf8.encode "\x7b\"topic\": \">\", \"route_id\": 5\x7d")),
    .route 1 (.ofPayload (.forTopic "T") (Utf8.encode "0"))]

theorem subscription_is_lost :
    let b := (ofSettings {}).run besideItself
    subscribe "A" 6 = .ok sixth ∧ (Conversation.plainConnection.compose
        (.forTopic subscribeTopic) sixth.encode).2 = sixthSubscription.encode ∧
      (b.client? 1).isSome = true ∧ b.table.routes.length < b.table.capacity ∧
      b.routesOf 1 = [.forward ">" 5 1] ∧ (b.route 1 sixthSubscription).1.routesOf 1 = [] := by
  refine ⟨rfl, rfl, ?_, ?_, ?_, ?_⟩
  · decide +kernel
  · decide +kernel
  · decide +kernel
  · decide +kernel

end Broker

end TopicBus
