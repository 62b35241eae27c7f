import TopicBus.Proofs.Broker.Copies
import TopicBus.Proofs.Broker.Heard
import TopicBus.Proofs.Connection.Messages
import TopicBus.Server

/-!
What the broker writes to a client. All that is queued are copies of frames that were routed
(`queued_routed`); a copy of a frame off the wire that can be written is read back as it is. A frame
that the client has asked for under one id is queued for that id once (`subscriptionsFor_filter`).
-/

namespace TopicBus

open Wire

namespace Frame

variable {f : Frame} {bytes : List UInt8}

/-- The frame is one that a decoder gave. -/
def IsRead (f : Frame) : Prop := ∃ (maxPayload : Nat) (stream rest : List UInt8) (d : Decoder),
  (Decoder.ofLimit maxPayload).decode stream = (d, rest, .frame f)

theorem IsRead.sentAs_tagged (h : f.IsRead) {id : UInt32}
    (hbytes : (f.tagged id).encode = .ok bytes) : (f.tagged id).SentAs bytes := by
  obtain ⟨maxPayload, stream, rest, d, hdecode⟩ := h
  obtain ⟨header, -, hspells, -⟩ := Decoder.decode_frame hdecode
  exact ⟨hbytes, hspells.version, hspells.encodedLength_eq.symm⟩

/-- What is written as it is to be read is read so. -/
theorem SentAs.isRead (h : f.SentAs bytes) : f.IsRead := by
  have hwithin : f.payload.length ≤ f.payload.length := Nat.le_refl _
  obtain ⟨result, hresult, hfront⟩ := (Item.sent (h.toSentFrame hwithin)).front_eq []
  rw [h.eq_of_gives hwithin hresult] at hfront
  exact ⟨_, _, _, _, Decoder.decode_whole hfront⟩

/-- A copy of a frame can be written as well as the frame. -/
theorem SentAs.tagged (h : f.SentAs bytes) (id : UInt32) :
    ∃ copied, (f.tagged id).SentAs copied := by
  obtain ⟨hlength, hv, -⟩ := encode_eq_ok_iff.mp h.encodes
  have hvalid : (f.tagged id).header.Valid :=
    ⟨hv.topic_pos, hv.topic_le, hv.reply_pos, hv.reply_le, hv.request⟩
  exact ⟨_, encode_eq_ok_iff.mpr ⟨hlength, hvalid, rfl⟩, h.version, h.headerLength⟩

def isWritable (f : Frame) : Bool := f.encode.toOption.isSome

theorem isWritable_of_encode (h : f.encode = .ok bytes) : f.isWritable = true := by
  simp [isWritable, h, Except.toOption]

theorem isRead_of_isWritable (h : f.isWritable = true)
    (hversion : f.header.version = protocolVersion)
    (hlength : f.header.headerLength = f.header.encodedLength) : f.IsRead := by
  cases hencode : f.encode with
  | error why =>
    rw [isWritable, hencode] at h
    exact Bool.noConfusion h
  | ok bytes => exact SentAs.isRead ⟨hencode, hversion, hlength⟩

/-- The bytes of all frames that can be written. -/
def written (fs : List Frame) : List UInt8 := fs.flatMap fun f => f.encode.toOption.getD []

theorem exists_written {fs : List Frame}
    (h : ∀ f ∈ fs, ∀ bytes, f.encode = .ok bytes → f.SentAs bytes) :
    ∃ log, List.Forall₂ SentAs (fs.filter isWritable) log ∧ written fs = log.flatten := by
  induction fs with
  | nil => exact ⟨[], .nil, rfl⟩
  | cons f fs ih =>
    obtain ⟨hf, hrest⟩ := List.forall_mem_cons.mp h
    obtain ⟨log, hlog, hwritten⟩ := ih hrest
    cases hencode : f.encode with
    | error why =>
      have hnot : ¬f.isWritable = true := by
        simp [isWritable, hencode, Except.toOption]
      refine ⟨log, ?_, ?_⟩
      · rwa [List.filter_cons_of_neg hnot]
      · rw [written, List.flatMap_cons, hencode]
        exact hwritten
    | ok bytes =>
      refine ⟨bytes :: log, ?_, ?_⟩
      · rw [List.filter_cons_of_pos (isWritable_of_encode hencode)]
        exact .cons (hf bytes hencode) hlog
      · rw [written, List.flatMap_cons, hencode, List.flatten_cons, ← hwritten]
        rfl

end Frame

namespace Server

/-- What is queued for a client is written in order. -/
theorem takeOutput_of_client? {s : Server} {x : Session} {k : Client}
    (hk : s.broker.client? x.client = some k) (hopen : k.outbox.isOpen = true) :
    (s.takeOutput x).2 = Frame.written k.outbox.frames := by
  have houtbox : s.broker.outbox? x.client = some k.outbox := by
    simp only [Broker.outbox?, hk]
  have hall : k.outbox.frames.take k.outbox.frames.length = k.outbox.frames := List.take_length
  simp only [takeOutput, houtbox, Option.map_some, Option.getD_some,
    Broker.drain_of_client? hk, hopen, ↓reduceIte, Outbox.take, hall]
  rfl

end Server

namespace Broker

open Control

variable {b : Broker} {c : ClientId} {settings : BrokerSettings}
  {ops : List Operation} {k : Client}

theorem healthy_append {more : List Operation} :
    b.Healthy c (ops ++ more) ↔ b.Healthy c ops ∧ (b.run ops).Healthy c more := by
  induction ops generalizing b with
  | nil => exact (and_iff_right trivial).symm
  | cons op ops ih => exact (and_congr_right fun _ => ih).trans and_assoc.symm

/-- The frame is a copy of one of those that were routed. -/
def IsCopy (ops : List Operation) (g : Frame) : Prop :=
  ∃ sender f id, .route sender f ∈ ops ∧ g = Frame.tagged f id

/-- The frame waits for the client. -/
def IsQueued (b : Broker) (o : ClientId) (g : Frame) : Prop :=
  ∃ k, b.client? o = some k ∧ g ∈ k.outbox.frames

variable {o : ClientId} {g : Frame}

/-- Readers only take frames away. -/
theorem isQueued_of_setOutbox {id : ClientId} {x : Outbox}
    (hx : ∀ k, b.client? id = some k → x.frames ⊆ k.outbox.frames)
    (h : (b.setOutbox id x).IsQueued o g) : b.IsQueued o g := by
  obtain ⟨k, hk, hg⟩ := h
  rw [client?_setOutbox] at hk
  split_ifs at hk with heq
  · subst heq
    obtain ⟨k, hclient, rfl⟩ := Option.map_eq_some_iff.mp hk
    exact ⟨k, hclient, hx k hclient hg⟩
  · exact ⟨k, hk, hg⟩

theorem isQueued_of_drain {id : ClientId} {count : Nat}
    (h : (b.drain id count).1.IsQueued o g) : b.IsQueued o g := by
  cases hk : b.client? id with
  | none =>
    rcases drain_eq b id count with hsame | ⟨x, hset⟩
    · rwa [hsame] at h
    · rw [hset] at h
      exact isQueued_of_setOutbox (fun k hk' => nomatch hk.symm.trans hk') h
  | some k =>
    rw [drain_of_client? hk] at h
    split_ifs at h
    · refine isQueued_of_setOutbox (fun k' hk' => ?_) h
      obtain rfl := Option.some.inj (hk.symm.trans hk')
      exact List.drop_subset _ _
    · exact h

theorem isQueued_of_hangUp {id : ClientId} (h : (b.hangUp id).IsQueued o g) : b.IsQueued o g := by
  cases hk : b.client? id with
  | none =>
    rcases hangUp_eq b id with hsame | ⟨x, hset⟩
    · rwa [hsame] at h
    · rw [hset] at h
      exact isQueued_of_setOutbox (fun k hk' => nomatch hk.symm.trans hk') h
  | some k =>
    rw [hangUp_of_client? hk] at h
    exact isQueued_of_setOutbox (fun _ _ => List.nil_subset _) h

theorem WellFormed.isQueued_of_route (hwell : b.WellFormed) {sender : ClientId} {f : Frame}
    (h : (b.route sender f).1.IsQueued o g) :
    b.IsQueued o g ∨ ∃ id ∈ b.subscriptionsFor o f.topic, g = f.tagged id := by
  obtain ⟨k', hk', hg⟩ := h
  obtain ⟨k, hk⟩ := client?_of_ids (hwell.ids_route sender f) hk'
  obtain ⟨k'', hsame, houtbox⟩ := hwell.route_outbox sender f hk
  obtain rfl := Option.some.inj (hk'.symm.trans hsame)
  rw [houtbox] at hg
  rcases List.mem_append.mp hg with hold | hnew
  · exact .inl ⟨k, hk, hold⟩
  · obtain ⟨id, hid, rfl⟩ := List.mem_map.mp (List.mem_of_mem_take hnew)
    exact .inr ⟨id, hid, rfl⟩

/-- A frame that is queued was queued before, or is a copy for one of the client's routes. -/
theorem WellFormed.isQueued_of_perform (hwell : b.WellFormed) {op : Operation}
    (h : (b.perform op).1.IsQueued o g) : b.IsQueued o g ∨
      ∃ sender f, op = .route sender f ∧ ∃ id ∈ b.subscriptionsFor o f.topic, g = f.tagged id := by
  cases op with
  | register peer capacity =>
    simp only [Broker.perform] at h
    cases hr : b.register peer capacity with
    | error why =>
      rw [hr] at h
      exact .inl h
    | ok x =>
      rw [hr] at h
      obtain ⟨k, hk, hg⟩ := h
      rw [client?_register hr] at hk
      rcases Option.or_eq_some_iff.mp hk with hold | ⟨-, hnew⟩
      · exact .inl ⟨k, hold, hg⟩
      · split_ifs at hnew
        obtain rfl := Option.some.inj hnew
        exact absurd hg List.not_mem_nil
  | route sender f => exact (hwell.isQueued_of_route h).imp_right fun hnew => ⟨sender, f, rfl, hnew⟩
  | cleanup id =>
    obtain ⟨k, hk, hg⟩ := h
    simp only [Broker.perform, client?_cleanup] at hk
    split_ifs at hk
    exact .inl ⟨k, hk, hg⟩
  | drain id count => exact .inl (isQueued_of_drain h)
  | hangUp id => exact .inl (isQueued_of_hangUp h)

/-- Whatever is queued is of one kind. -/
def Queues (kind : Frame → Prop) (b : Broker) : Prop :=
  ∀ c k, b.client? c = some k → ∀ g ∈ k.outbox.frames, kind g

variable {kind : Frame → Prop}

theorem Queues.perform (h : b.Queues kind) (hwell : b.WellFormed) {op : Operation}
    (hop : ∀ sender f, op = .route sender f → ∀ id, kind (f.tagged id)) :
    (b.perform op).1.Queues kind := by
  intro c k hk g hg
  rcases hwell.isQueued_of_perform ⟨k, hk, hg⟩ with ⟨k, hk, hg⟩ | ⟨sender, f, hroute, id, -, rfl⟩
  · exact h c k hk g hg
  · exact hop sender f hroute id

theorem Queues.run (h : b.Queues kind) (hwell : b.WellFormed)
    (hops : ∀ sender f, .route sender f ∈ ops → ∀ id, kind (f.tagged id)) :
    (b.run ops).Queues kind := by
  refine hwell.run_keeps h fun b' hwell' h' op hop => h'.perform hwell' ?_
  rintro sender f rfl
  exact hops sender f hop

/-- Nothing but copies is ever queued. -/
theorem queued_routed (hk : ((ofSettings settings).run ops).client? c = some k) :
    ∀ g ∈ k.outbox.frames, IsCopy ops g := by
  have hrun : ((ofSettings settings).run ops).Queues (IsCopy ops) :=
    Queues.run (fun _ _ => nofun) (wellFormed_ofSettings settings)
      fun sender f hmem id => ⟨sender, f, id, hmem, rfl⟩
  exact hrun c k hk

/-- A client that has asked for one expression under an id gets a frame under that id once, if the
expression selects its topic, and else not at all. -/
theorem subscriptionsFor_filter (hs : (ofSettings settings).Healthy c ops)
    (hk : ((ofSettings settings).run ops).client? c = some k) {expression : String} {id : UInt32}
    (hasked : AskedIn ((ofSettings settings).heardFrom c ops) expression id)
    (honly : ∀ other, AskedIn ((ofSettings settings).heardFrom c ops) other id →
      other = expression) (topic : String) :
    (((ofSettings settings).run ops).subscriptionsFor c topic).filter (· = id) =
      if Topic.selects expression topic = true then [id] else [] := by
  have hone : (((ofSettings settings).run ops).routesOf c).filter (fun r => r.subscription = id) =
      [.forward expression id c] := by
    have hcount := count_routesOf hs hk hasked
    have hsame : ∀ r ∈ ((ofSettings settings).run ops).routesOf c,
        (decide (r.subscription = id)) = decide (r = .forward expression id c) := by
      intro r hr
      obtain ⟨other, subscription, rfl, hother⟩ := (mem_routesOf_iff hs hk).mp hr
      refine decide_eq_decide.mpr ⟨?_, ?_⟩
      · intro hid
        obtain rfl : subscription = id := hid
        rw [honly other hother]
      · exact fun heq => congrArg Route.subscription heq
    rw [List.filter_congr hsame, List.filter_eq, hcount]
    rfl
  rw [subscriptionsFor_eq_routesOf, List.filter_map, List.filter_comm]
  simp only [Function.comp_def]
  rw [hone]
  by_cases htopic : Topic.selects expression topic = true
  · simp [Route.forward, Route.selects, htopic]
  · simp [Route.forward, Route.selects, htopic]

/-- What stands in the outbox of a client that refuses no copy of a frame. -/
theorem frames_route {sender : ClientId} {f : Frame}
    (htaken : c ∉ (((ofSettings settings).run ops).deliver sender f).refused)
    (hk : ((ofSettings settings).run ops).client? c = some k) :
    ∃ k', (((ofSettings settings).run ops).route sender f).1.client? c = some k' ∧
      k'.outbox = { k.outbox with frames := k.outbox.frames ++
        (((ofSettings settings).run ops).subscriptionsFor c f.topic).map f.tagged } := by
  have hwell := (wellFormed_ofSettings settings).run ops
  obtain ⟨k', hk', houtbox⟩ := hwell.route_outbox sender f hk
  refine ⟨k', hk', ?_⟩
  have hroom : ((((ofSettings settings).run ops).subscriptionsFor c f.topic).map f.tagged).length ≤
      k.outbox.room := by
    rw [List.length_map]
    exact Nat.le_of_not_lt fun hover =>
      htaken ((hwell.deliver_client sender f hk).2.mpr hover)
  rw [houtbox, Outbox.offer, List.take_of_length_le hroom]

/-- What is written to a client that refuses no copy of a frame: what was queued before and can be
written, and then the copies. -/
theorem output_route {sender : ClientId} {f : Frame} {bytes : List UInt8} (hf : f.SentAs bytes)
    (htaken : c ∉ (((ofSettings settings).run ops).deliver sender f).refused)
    (hread : ∀ sender g, .route sender g ∈ ops → g.IsRead)
    (hk : ((ofSettings settings).run ops).client? c = some k) (hopen : k.outbox.isOpen = true)
    {server : Server} (hserver : server.broker = (((ofSettings settings).run ops).route sender f).1)
    {session : Session} (hsession : session.client = c) :
    ∃ log, (server.takeOutput session).2 = log.flatten ∧ List.Forall₂ Frame.SentAs
      (k.outbox.frames.filter Frame.isWritable ++
        (((ofSettings settings).run ops).subscriptionsFor c f.topic).map f.tagged) log := by
  obtain ⟨k', hk', houtbox⟩ := frames_route htaken hk
  have hcopies : ∀ g ∈ (((ofSettings settings).run ops).subscriptionsFor c f.topic).map f.tagged,
      ∃ copied, g.SentAs copied := by
    intro g hg
    obtain ⟨id, -, rfl⟩ := List.mem_map.mp hg
    exact hf.tagged id
  have hall : ∀ g ∈ k'.outbox.frames, ∀ bytes, g.encode = .ok bytes → g.SentAs bytes := by
    intro g hg bytes hbytes
    rw [houtbox] at hg
    rcases List.mem_append.mp hg with hold | hnew
    · obtain ⟨sender, f, id, hmem, rfl⟩ := queued_routed hk g hold
      exact (hread sender f hmem).sentAs_tagged hbytes
    · obtain ⟨copied, hcopied⟩ := hcopies g hnew
      obtain rfl := Except.ok.inj (hcopied.encodes.symm.trans hbytes)
      exact hcopied
  obtain ⟨log, hlog, hwritten⟩ := Frame.exists_written hall
  refine ⟨log, ?_, ?_⟩
  · rw [← hserver, ← hsession] at hk'
    have hopen' : k'.outbox.isOpen = true := by rw [houtbox]; exact hopen
    rw [Server.takeOutput_of_client? hk' hopen', hwritten]
  · have hwritable : ((((ofSettings settings).run ops).subscriptionsFor c f.topic).map
        f.tagged).filter Frame.isWritable =
          (((ofSettings settings).run ops).subscriptionsFor c f.topic).map f.tagged := by
      refine List.filter_eq_self.mpr fun g hg => ?_
      obtain ⟨copied, hcopied⟩ := hcopies g hg
      exact Frame.isWritable_of_encode hcopied.encodes
    rw [houtbox, List.filter_append, hwritable] at hlog
    exact hlog

end Broker

end TopicBus
