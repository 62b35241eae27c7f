import TopicBus.Proofs.Broker.Output
import TopicBus.Proofs.Connection.Receipt
import TopicBus.Proofs.Connection.Subscribed

/-!
From one application to another. What one connection publishes is a frame on its stream; the broker
queues a copy of it for every route that selects its topic; the other connection hands the copy to
the subscription that the route is for, once (`publish_delivered`). It goes wrong for an application
that asks for another expression under the id of a subscription itself, for one that is sent a frame
over its limit first, and behind a frame over the limit of the broker
(`forged_is_called_and_long_is_not`).
-/

namespace TopicBus

open Control Wire

namespace Connection

/-- The calls of a subscription when everything that is put aside is dispatched. -/
def callsOf (c : Connection) (id : UInt32) : List (String × Frame) :=
  ((c.dispatchAll c.inbound.length).2.filter fun call => call.frame.header.control = id).map
    fun call => (call.expression, call.frame)

variable {p : Terms} {next id : UInt32} {c c' : Connection} {gs : List Frame} {expression : String}

/-- A response is not for a subscription. -/
theorem filter_answers (hid : id ≠ 0) (gs : List Frame) :
    (gs.filter fun g => !isAnswer g).filter (fun g => g.header.control = id) =
      gs.filter fun g => g.header.control = id := by
  rw [List.filter_filter]
  refine List.filter_congr fun g _ => ?_
  by_cases hcontrol : g.header.control = id
  · have hnot : isAnswer g = false := by
      have hne : (g.header.control == inboxSubscription) = false := by
        rw [hcontrol]
        exact beq_eq_false_iff_ne.mpr hid
      rw [isAnswer, hne, Bool.and_false]
    simp [hcontrol, hnot]
  · simp [hcontrol]

/-- Frames that have been taken in are dispatched behind those that were put aside before. -/
theorem callsOf_accepted (h : c.WellFormed p next) (hid : id ≠ 0) {a : Attachment}
    (ha : c.attached = some a) (hreading : a.isReading = true)
    (hexpression : c.subscriptions.expression? id = some expression)
    (haccepted : Accepted gs c c') :
    c'.callsOf id = ((framesIn c.inbound ++ gs).filter fun g => g.header.control = id).map
      fun g => (expression, g) := by
  have hopen : c'.isClosed = false := haccepted.writing.isClosed.trans (h.not_closed ha)
  obtain ⟨a', ha', -⟩ := haccepted.writing.symm.exists_attached ha
  have hends : ∀ why, .closed c'.generation why ∉ c'.inbound := by
    intro why hmem
    rw [haccepted.inbound, haccepted.generation] at hmem
    rcases List.mem_append.mp hmem with hmem | hmem
    · have hended := (h.ends _ why hmem).2 rfl a ha
      exact Bool.noConfusion (hreading.symm.trans hended)
    · obtain ⟨g, -, hg⟩ := List.mem_map.mp hmem
      nomatch hg
  rw [callsOf, dispatchAll_calls c'.inbound.length hopen (Option.isSome_iff_exists.mpr ⟨a', ha'⟩)
    hends (haccepted.writing.subscriptions ▸ hexpression) (Nat.le_refl _), haccepted.inbound,
    framesIn_append, framesIn_frames, List.filter_append, filter_answers hid, List.filter_append]

end Connection

namespace Broker

/-- After these operations the broker has heard these frames from a client, all that was routed came
off a wire, and what is queued for the client is within a limit. -/
structure Serves (settings : BrokerSettings) (ops : List Operation) (c : ClientId) (k : Client)
    (fs : List Frame) (limit : Nat) : Prop where
  client : ((ofSettings settings).run ops).client? c = some k
  isOpen : k.outbox.isOpen = true
  heard : (ofSettings settings).heardFrom c ops = fs
  read : ∀ sender g, .route sender g ∈ ops → g.IsRead
  fits : ∀ g ∈ k.outbox.frames, g.payload.length ≤ limit

end Broker

namespace Conversation

open Connection

/-- The broker routes a frame that the client does not refuse, and what it then writes to the client
comes to the connection in chunks. Ahead of the copies are the frames on the way and in the queue,
none of them over the limit of the connection. -/
inductive Carries (settings : BrokerSettings) (ops : List Broker.Operation) (sender : ClientId)
    (f : Frame) (i : ClientId) (limit : Nat) :
    List Frame → Conversation → List (List UInt8) → Prop
  | intro {x : Conversation} {a : Attachment} {k : Client} {arriving : List Frame}
      {onTheWay : List UInt8} {server : Server} {session : Session} {chunks : List (List UInt8)}
      (ha : x.connection.attached = some a) (hreading : a.isReading = true)
      (hawaits : a.reader.Awaits limit onTheWay arriving)
      (hclient : ((Broker.ofSettings settings).run ops).client? i = some k)
      (hopen : k.outbox.isOpen = true) (hread : ∀ sender g, .route sender g ∈ ops → g.IsRead)
      (hfits : ∀ g ∈ k.outbox.frames, g.payload.length ≤ limit)
      (htaken : i ∉ (((Broker.ofSettings settings).run ops).deliver sender f).refused)
      (hserver : server.broker = (((Broker.ofSettings settings).run ops).route sender f).1)
      (hsession : session.client = i) (hne : ∀ bytes ∈ chunks, bytes ≠ [])
      (hchunks : chunks.flatten = onTheWay ++ (server.takeOutput session).2) :
      Carries settings ops sender f i limit
        (arriving ++ k.outbox.frames.filter Frame.isWritable) x chunks

/-- What is ahead is taken in, and then the copies. -/
theorem Carries.accepted {settings : BrokerSettings} {ops : List Broker.Operation}
    {sender i : ClientId} {f : Frame} {limit : Nat} {ahead : List Frame} {x : Conversation}
    {chunks : List (List UInt8)} (h : Carries settings ops sender f i limit ahead x chunks)
    {bytes : List UInt8} (hf : f.SentAs bytes) (hfit : f.payload.length ≤ limit) :
    ∃ a, x.connection.attached = some a ∧ a.isReading = true ∧ Accepted
      (ahead ++ (((Broker.ofSettings settings).run ops).subscriptionsFor i f.topic).map f.tagged)
      x.connection (x.connection.receiveAll chunks) := by
  obtain @⟨_, a, k, arriving, onTheWay, server, session, _, ha, hreading, hawaits, hclient, hopen,
    hread, hfits, htaken, hserver, hsession, hne, hchunks⟩ := h
  obtain ⟨log, hlog, hsent⟩ :=
    Broker.output_route hf htaken hread hclient hopen hserver hsession
  have hwithin : ∀ g ∈ k.outbox.frames.filter Frame.isWritable ++
      (((Broker.ofSettings settings).run ops).subscriptionsFor i f.topic).map f.tagged,
      g.payload.length ≤ limit := by
    intro g hg
    rcases List.mem_append.mp hg with hold | hnew
    · exact hfits g (List.mem_filter.mp hold).1
    · obtain ⟨id, -, rfl⟩ := List.mem_map.mp hnew
      exact hfit
  have hall := hawaits.append hsent hwithin
  rw [← hlog, ← hchunks, ← List.append_assoc] at hall
  exact ⟨_, ha, hreading, receiveAll_awaited ha hreading hall hne⟩

/-- The frames that a connection had before: put aside, on the way and in the queue. -/
def earlierFrames (x : Conversation) (arriving : List Frame) (k : Client) : List Frame :=
  framesIn x.connection.inbound ++ arriving ++ k.outbox.frames.filter Frame.isWritable

/-- A frame that the broker routes reaches the subscription with the id once, if the expression
selects its topic, and else not at all. -/
theorem Subscribed.callsOf_route {settings : BrokerSettings} {limit : Nat} {expression : String}
    {id : UInt32} {own : List (String × List UInt8)} {x : Conversation}
    (hx : x.Subscribed expression id own) {a : Attachment}
    (ha : x.connection.attached = some a) (hreading : a.isReading = true)
    {onTheWay : List UInt8} {arriving : List Frame}
    (hawaits : a.reader.Awaits limit onTheWay arriving) {fs : List Frame}
    (hasked : Broker.AskedIn fs expression id)
    (honly : ∀ other, Broker.AskedIn fs other id → other = expression) {f : Frame}
    {bytes : List UInt8} (hf : f.SentAs bytes) (hfit : f.payload.length ≤ limit)
    {ops : List Broker.Operation} {i j : ClientId} {k : Client}
    (hserves : Broker.Serves settings ops i k fs limit)
    (hhealthy : (Broker.ofSettings settings).Healthy i (ops ++ [.route j f])) {server : Server}
    (hserver : server.broker = (((Broker.ofSettings settings).run ops).route j f).1)
    {session : Session} (hsession : session.client = i) {chunks : List (List UInt8)}
    (hne : ∀ bytes ∈ chunks, bytes ≠ [])
    (hchunks : chunks.flatten = onTheWay ++ (server.takeOutput session).2) :
    (x.connection.receiveAll chunks).callsOf id =
      (((x.earlierFrames arriving k).filter fun g => g.header.control = id) ++
        if Topic.selects expression f.topic = true then [f.tagged id] else []).map
          fun g => (expression, g) := by
  obtain ⟨-, hid, hzero, next, hsound⟩ := hx.sound
  obtain ⟨s, hfind, hexpression⟩ := hx.expression?
  have hname : x.connection.subscriptions.expression? id = some expression := by
    rw [SubscriptionTable.expression?, hfind, Option.map_some, hexpression]
  obtain ⟨-, ⟨htaken, -⟩, -⟩ := Broker.healthy_append.mp hhealthy
  have hcarries := Carries.intro ha hreading hawaits hserves.client hserves.isOpen hserves.read
    hserves.fits htaken hserver hsession hne hchunks
  obtain ⟨-, -, -, haccepted⟩ := hcarries.accepted hf hfit
  rw [callsOf_accepted hsound.connection hid ha hreading hname haccepted]
  -- Of the copies, those for the id are left.
  have hcopies : ((((Broker.ofSettings settings).run ops).subscriptionsFor i f.topic).map
      f.tagged).filter (fun g => g.header.control = id) =
        if Topic.selects expression f.topic = true then [f.tagged id] else [] := by
    have hsubscriptions := Broker.subscriptionsFor_filter (Broker.healthy_append.mp hhealthy).1
      hserves.client (hserves.heard ▸ hasked) (hserves.heard ▸ honly) f.topic
    have hcontrol : (fun g : Frame => decide (g.header.control = id)) ∘ f.tagged =
        fun other => decide (other = id) := rfl
    rw [List.filter_map, hcontrol, hsubscriptions]
    split_ifs <;> rfl
  rw [earlierFrames, ← hcopies, ← List.filter_append]
  simp only [List.append_assoc]

/-- A subscription gets what is published, once, if its expression selects the topic, and else it
gets nothing. Of the messages that the applications have sent themselves, those on the two streams
that the broker reads have to fit its limit, and must not ask for anything else under the id. -/
theorem publish_delivered (settings : BrokerSettings) (hroom : 1024 ≤ settings.maxPayload)
    -- The connection that has subscribed, and what has still to come to it.
    (expression : String) (id : UInt32) (own : List (String × List UInt8)) (x : Conversation)
    (hx : x.Subscribed expression id own) (hrest : x.activity = none)
    (a : Attachment) (ha : x.connection.attached = some a) (hreading : a.isReading = true)
    (hown : ∀ m ∈ own, Carried (x.written a.stream) m →
      m.2.length ≤ settings.maxPayload ∧ Respects (Sole id expression) m.1 m.2)
    (limit : Nat) (onTheWay : List UInt8) (arriving : List Frame)
    (hawaits : a.reader.Awaits limit onTheWay arriving)
    -- The connection that publishes.
    (topic : String) (d : Document) (others : List (String × List UInt8)) (y : Conversation)
    (hy : y.Published topic d others) (hd : d.WellFormed)
    (hnesting : d.nesting ≤ Json.maxNesting) (hlimit : d.encode.length ≤ limit)
    (hbroker : d.encode.length ≤ settings.maxPayload)
    (hothers : ∀ b, y.connection.attached = some b → ∀ m ∈ others,
      Carried (y.written b.stream) m → m.2.length ≤ settings.maxPayload) :
    ∃ (fs gs : List Frame) (f : Frame) (b : Attachment),
      (∀ chunks : List (List UInt8), chunks.flatten = (x.written a.stream).flatten →
        heard ((Reader.ofLimit settings.maxPayload).feedAll chunks).2 = fs.map .frame) ∧
      y.connection.attached = some b ∧
      (∀ chunks : List (List UInt8), chunks.flatten = (y.written b.stream).flatten →
        heard ((Reader.ofLimit settings.maxPayload).feedAll chunks).2 = (gs ++ [f]).map .frame) ∧
      f.topic = topic ∧ f.document = .ok d ∧
      ∀ (ops : List Broker.Operation) (i j : ClientId) (k : Client) (server : Server)
        (session : Session), Broker.Serves settings ops i k fs limit →
        (Broker.ofSettings settings).Healthy i (ops ++ [.route j f]) →
        server.broker = (((Broker.ofSettings settings).run ops).route j f).1 →
        session.client = i →
        ∀ chunks : List (List UInt8), (∀ bytes ∈ chunks, bytes ≠ []) →
          chunks.flatten = onTheWay ++ (server.takeOutput session).2 →
          (x.connection.receiveAll chunks).callsOf id =
            (((x.earlierFrames arriving k).filter fun g => g.header.control = id) ++
              if Topic.selects expression topic = true then [f.tagged id] else []).map
                fun g => (expression, g) := by
  obtain ⟨fs, hfs, hfits, hasked, honly⟩ := hx.stream hroom hrest ha hown
  obtain ⟨b, gs, f, hb, hgs, hgsFit, rfl, hpayload, bytes, hf⟩ := hy.stream hroom hbroker hothers
  have hdocument : f.document = .ok d := by
    rw [Frame.document, hpayload, Document.decode_encode_eq hd, if_pos hnesting]
  refine ⟨fs, gs, f, b, fun chunks hchunks => Frame.SentAs.heard_sent hfs hfits hchunks, hb,
    fun chunks hchunks => Frame.SentAs.heard_sent hgs hgsFit hchunks, rfl, hdocument, ?_⟩
  intro ops i j k server session hserves hhealthy hserver hsession chunks hne hchunks
  exact hx.callsOf_route ha hreading hawaits hasked honly hf (hpayload ▸ hlimit) hserves
    hhealthy hserver hsession hne hchunks

/-! ## One listens and one speaks -/

def speakerConnection : Connection := { plainConnection with appName := "y", inbox := "y.INBOX.2" }

/-- A stream is opened and greeted on. -/
def opening : List Happening := [.reply 0 (.connected 0 "" ""), .reply 0 .written]

/-- A connection that has subscribed. -/
def listener (c : Connection) (expression : String) : Conversation :=
  ((start c).run opening).run [.begin 0 (.subscribe expression), .reply 0 .written]

/-- A connection that has published on `T`. -/
def speaker : Conversation :=
  ((start speakerConnection).run opening).run [.begin 0 (.publish "T" .empty), .reply 0 .written]

/-- A message that asks for an expression under the first id. -/
def asking (expression : String) : Document :=
  (Document.empty.setString "topic" expression).setInt32 "route_id" 1

def listenerFrames (expression : String) : List Frame :=
  [messageOf helloTopic 1 (hello "x.INBOX.1"), messageOf subscribeTopic 2 (asking expression)]

def speakerHello : Frame := messageOf helloTopic 1 (hello "y.INBOX.2")

def spoken : Frame := messageOf "T" 2 .empty

/-- The broker has heard one client, and the other one up to what it publishes. -/
def bothHeard (fs : List Frame) : List Broker.Operation :=
  [.register "x" 4, .register "y" 4] ++ fs.map (.route 1) ++ [.route 2 speakerHello]

/-- The frames that a broker with this limit hears on the first stream of a connection. -/
def heardWithin (maxPayload : Nat) (v : Conversation) : List Frame :=
  (heard ((Reader.ofLimit maxPayload).feedAll [(v.written 0).flatten]).2).filterMap frame?

def heardOn (v : Conversation) : List Frame := heardWithin defaultMaxPayload v

theorem heardOn_eq {v : Conversation} {fs : List Frame}
    (h : ∀ chunks : List (List UInt8), chunks.flatten = (v.written 0).flatten →
      heard ((Reader.ofLimit defaultMaxPayload).feedAll chunks).2 = fs.map .frame) :
    heardOn v = fs := by
  rw [heardOn, heardWithin, h _ (List.append_nil _), List.filterMap_map]
  exact List.filterMap_some

/-- What the broker writes to the first client. -/
def outputOf (b : Broker) : List UInt8 :=
  (Server.takeOutput ⟨b, []⟩ ⟨1, 0, .ofLimit defaultMaxPayload, true, false⟩).2

def tuned : Conversation := listener plainConnection "T"

def tunedIn : List Broker.Operation := bothHeard (listenerFrames "T")

theorem subscribed_tuned : tuned.Subscribed "T" 1 [] := by
  have hcreate : Connection.create "x" { address := "unix:///bus" } "1" = .ok plainConnection := rfl
  have hgives : ((start plainConnection).run opening).Gives (.subscribe "T") (.subscribed 1)
      tuned := ⟨rfl, 0, [.reply 0 .written], rfl, rfl, rfl⟩
  have htaken : (start plainConnection).taken opening + tuned.taken [] + 1 < 2 ^ 32 - 1 := by
    decide +kernel
  exact .intro hcreate hgives htaken

theorem published_speaker : speaker.Published "T" .empty [] := by
  have hcreate : Connection.create "y" { address := "unix:///bus" } "2" =
      .ok speakerConnection := rfl
  have hgives : ((start speakerConnection).run opening).Gives (.publish "T" .empty) .done
      speaker := ⟨rfl, 0, [.reply 0 .written], rfl, rfl, rfl⟩
  exact .intro hcreate hgives

theorem serves_tunedIn : ∃ k, k.outbox.frames = [] ∧
    Broker.Serves {} tunedIn 1 k (listenerFrames "T") defaultMaxPayload := by
  have hk : (((Broker.ofSettings {}).run tunedIn).client? 1).map
      (fun k => (k.outbox.isOpen, k.outbox.frames)) = some (true, []) := by decide +kernel
  have hwritable : ∀ g ∈ listenerFrames "T" ++ [speakerHello], g.isWritable = true ∧
      g.header.version = protocolVersion ∧ g.header.headerLength = g.header.encodedLength := by
    decide +kernel
  have hheard : (Broker.ofSettings {}).heardFrom 1 tunedIn = listenerFrames "T" := by
    decide +kernel
  obtain ⟨k, hclient, houtbox⟩ := Option.map_eq_some_iff.mp hk
  obtain ⟨hopen, hqueue⟩ := Prod.mk.inj houtbox
  refine ⟨k, hqueue, hclient, hopen, hheard, ?_, by rw [hqueue]; exact nofun⟩
  intro sender g hg
  have hmem : g ∈ listenerFrames "T" ++ [speakerHello] := by
    simp only [tunedIn, bothHeard, listenerFrames, List.map_cons, List.map_nil, List.mem_append,
      List.mem_cons, List.not_mem_nil, reduceCtorEq, Broker.Operation.route.injEq, or_false,
      false_or] at hg ⊢
    exact hg.imp (Or.imp And.right And.right) And.right
  obtain ⟨hg, hversion, hlength⟩ := hwritable g hmem
  exact Frame.isRead_of_isWritable hg hversion hlength

theorem publish_delivered_tuned :
    tuned.Subscribed "T" 1 [] ∧ tuned.activity = none ∧
      (∃ a, tuned.connection.attached = some a ∧ a.isReading = true ∧
        a.reader.Awaits defaultMaxPayload [] []) ∧
      speaker.Published "T" .empty [] ∧
      (∃ k, Broker.Serves {} tunedIn 1 k (listenerFrames "T") defaultMaxPayload) ∧
      (Broker.ofSettings {}).Healthy 1 (tunedIn ++ [.route 2 spoken]) ∧
      (tuned.connection.receiveAll
        [outputOf (((Broker.ofSettings {}).run tunedIn).route 2 spoken).1]).callsOf 1 =
          [("T", spoken.tagged 1)] := by
  have hattached : tuned.connection.attached =
      some ⟨0, .ofLimit defaultMaxPayload, true⟩ := rfl
  have hawaits := Reader.awaits_ofLimit defaultMaxPayload
  have hroom : 1024 ≤ defaultMaxPayload := by decide
  have hempty : Document.empty.encode.length ≤ defaultMaxPayload := by decide +kernel
  have hhealthy : (Broker.ofSettings {}).Healthy 1 (tunedIn ++ [.route 2 spoken]) := by
    decide +kernel
  have hheard : heardOn tuned = listenerFrames "T" := by decide +kernel
  have hsaid : heardOn speaker = [speakerHello] ++ [spoken] := by decide +kernel
  have hselects : Topic.selects "T" "T" = true := by decide +kernel
  obtain ⟨k, hqueue, hserves⟩ := serves_tunedIn
  obtain ⟨fs, gs, f, b, hhears, hb, hspeaks, -, -, hdelivers⟩ := publish_delivered {} hroom "T" 1 []
    tuned subscribed_tuned rfl _ hattached rfl (List.forall_mem_nil _) defaultMaxPayload [] []
    hawaits "T" .empty [] speaker published_speaker Document.wellFormed_empty (by decide) hempty
    hempty fun _ _ => List.forall_mem_nil _
  obtain rfl : listenerFrames "T" = fs := hheard.symm.trans (heardOn_eq hhears)
  have hfirst : b.stream = 0 := by
    have hstream : speaker.connection.attached.map (·.stream) = some 0 := rfl
    rw [hb] at hstream
    exact Option.some.inj hstream
  rw [hfirst] at hspeaks
  obtain ⟨rfl, hlast⟩ := List.append_inj' (hsaid.symm.trans (heardOn_eq hspeaks)) rfl
  obtain rfl : spoken = f := (List.cons.inj hlast).1
  refine ⟨subscribed_tuned, rfl, ⟨_, hattached, rfl, hawaits⟩, published_speaker, ⟨k, hserves⟩,
    hhealthy, ?_⟩
  have hsome : outputOf (((Broker.ofSettings {}).run tunedIn).route 2 spoken).1 ≠ [] := by
    decide +kernel
  have hcalls := hdelivers tunedIn 1 2 k
    ⟨(((Broker.ofSettings {}).run tunedIn).route 2 spoken).1, []⟩
    ⟨1, 0, .ofLimit defaultMaxPayload, true, false⟩ hserves hhealthy rfl rfl
    [outputOf (((Broker.ofSettings {}).run tunedIn).route 2 spoken).1]
    (fun bytes hbytes => List.mem_singleton.mp hbytes ▸ hsome) (List.append_nil _)
  have hearlier : tuned.earlierFrames [] k = [] := by
    rw [earlierFrames, hqueue]
    rfl
  rw [hcalls, hearlier, if_pos hselects]
  rfl

/-! ## What goes wrong -/

/-- A connection that has subscribed to `A`, and whose application has then asked the broker for `T`
under the same id. -/
def forger : Conversation :=
  (listener plainConnection "A").run
    [.begin 0 (.publish subscribeTopic (asking "T")), .reply 0 .written]

def forgerFrames : List Frame :=
  listenerFrames "A" ++ [messageOf subscribeTopic 3 (asking "T")]

/-- A connection that takes payloads of 1024 bytes at most. -/
def narrowConnection : Connection :=
  { plainConnection with settings := { address := "unix:///bus", maxPayload := 1024 } }

/-- A frame on `T` that is too long for it. -/
def longFrame : Frame := .ofPayload (.forTopic "T") (List.replicate 1025 0)

def shouting : List Happening :=
  opening ++ [.begin 0 (.publishBytes "T" longFrame.payload), .reply 0 .written]

/-- A connection that has published such a frame before it publishes on `T`. -/
def shouter : Conversation :=
  ((start speakerConnection).run shouting).run
    [.begin 0 (.publish "T" .empty), .reply 0 .written]

set_option maxRecDepth 8000 in
theorem gives_shouter : ((start speakerConnection).run shouting).Gives (.publish "T" .empty) .done
    shouter :=
  ⟨rfl, 0, [.reply 0 .written], rfl, rfl, rfl⟩

/-- A subscription to `A` is called for what is published on `T` if the application of its
connection has asked for `T` under the same id. A subscription to `T` is not called for what is
published on `T` if a frame over the limit of its connection comes before. Nor is it called if the
connection that publishes has sent a frame over the limit of the broker before, which then hears
nothing of what is published. -/
theorem forged_is_called_and_long_is_not :
    ((start plainConnection).run opening).Gives (.subscribe "A") (.subscribed 1)
        (listener plainConnection "A") ∧
      heardOn forger = forgerFrames ∧ heardOn speaker = [speakerHello, spoken] ∧
      (Broker.ofSettings {}).heardFrom 1 (bothHeard forgerFrames) = forgerFrames ∧
      (Broker.ofSettings {}).Healthy 1 (bothHeard forgerFrames ++ [.route 2 spoken]) ∧
      Topic.selects "A" "T" = false ∧
      (forger.connection.receiveAll [outputOf (((Broker.ofSettings {}).run
        (bothHeard forgerFrames)).route 2 spoken).1]).callsOf 1 = [("A", spoken.tagged 1)] ∧
      ((start narrowConnection).run opening).Gives (.subscribe "T") (.subscribed 1)
        (listener narrowConnection "T") ∧
      heardOn (listener narrowConnection "T") = listenerFrames "T" ∧
      (Broker.ofSettings {}).heardFrom 1 (tunedIn ++ [.route 2 longFrame]) = listenerFrames "T" ∧
      (Broker.ofSettings {}).Healthy 1 (tunedIn ++ [.route 2 longFrame] ++ [.route 2 spoken]) ∧
      Topic.selects "T" "T" = true ∧
      ((listener narrowConnection "T").connection.receiveAll [outputOf (((Broker.ofSettings {}).run
        (tunedIn ++ [.route 2 longFrame])).route 2 spoken).1]).callsOf 1 = [] ∧
      ((start speakerConnection).run shouting).Gives (.publish "T" .empty) .done shouter ∧
      heardWithin 1024 tuned = listenerFrames "T" ∧ heardWithin 1024 shouter = [speakerHello] ∧
      (Broker.ofSettings { maxPayload := 1024 }).heardFrom 1 tunedIn = listenerFrames "T" ∧
      (Broker.ofSettings { maxPayload := 1024 }).Healthy 1 tunedIn ∧
      outputOf ((Broker.ofSettings { maxPayload := 1024 }).run tunedIn) = [] ∧
      tuned.connection.callsOf 1 = [] := by
  refine ⟨⟨rfl, 0, [.reply 0 .written], rfl, rfl, rfl⟩, by decide +kernel, by decide +kernel,
    by decide +kernel, by decide +kernel, by decide +kernel, by decide +kernel,
    ⟨rfl, 0, [.reply 0 .written], rfl, rfl, rfl⟩, by decide +kernel, by decide +kernel,
    by decide +kernel, by decide +kernel, by decide +kernel, gives_shouter, by decide +kernel,
    by decide +kernel, by decide +kernel, by decide +kernel, by decide +kernel, by decide +kernel⟩

end Conversation

end TopicBus
