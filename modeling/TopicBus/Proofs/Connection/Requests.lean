import TopicBus.Proofs.Connection.Answers
import TopicBus.Proofs.Connection.Inboxes

/-!
A request and its response, from one application to another and back. The message of a request that
waits is the last frame on its stream (`Requesting.says`); the broker queues a copy for every route
that selects its topic. The response goes to the inbox that the request names, which no other
connection has (`selects_inboxOf`); the copy for the inbox goes into the slot, and the request gives
what it holds (`request_answered`).
-/

namespace TopicBus

open Control

namespace Conversation

open Connection

/-! ## What is said -/

/-- The last frame on the stream of a connection. Whoever reads the stream up to a limit hears it
after the others, if none of these is over the limit. -/
def Says (v : Conversation) (maxPayload : Nat) (f : Frame) : Prop :=
  ∃ a gs, v.connection.attached = some a ∧
    List.Forall₂ Frame.SentAs (gs ++ [f]) (v.written a.stream) ∧
    ((∀ g ∈ gs, g.payload.length ≤ maxPayload) →
      ∀ chunks : List (List UInt8), chunks.flatten = (v.written a.stream).flatten →
        heard ((Reader.ofLimit maxPayload).feedAll chunks).2 = (gs ++ [f]).map .frame)

variable {v w : Conversation} {next : UInt32} {maxPayload : Nat} {f : Frame} {a : Attachment}
  {earlier : List (List UInt8)} {bytes : List UInt8}

theorem Sound.says (h : v.Sound anyTerms next) (ha : v.connection.attached = some a)
    (hwritten : v.written a.stream = earlier ++ [bytes]) (hf : f.SentAs bytes)
    (hfits : f.payload.length ≤ maxPayload) : v.Says maxPayload f := by
  have hall := h.written a.stream
  rw [hwritten] at hall
  obtain ⟨gs, hgs, -⟩ := exists_frames fun x hx => hall x (List.mem_append_left _ hx)
  have hsent : List.Forall₂ Frame.SentAs (gs ++ [f]) (v.written a.stream) := by
    rw [hwritten]
    exact List.rel_append hgs (.cons hf .nil)
  refine ⟨a, gs, ha, hsent, fun hwithin chunks hchunks => ?_⟩
  refine Frame.SentAs.heard_sent hsent (fun g hg => ?_) hchunks
  rcases List.mem_append.mp hg with hg | hg
  · exact hwithin g hg
  · rwa [List.mem_singleton.mp hg]

theorem run_eq_meetAll (v : Conversation) (hs : List Happening) :
    v.run hs = v.meetAll (hs.map .happening) := by
  rw [run, meetAll, List.foldl_map]
  rfl

theorem inbox_run {appName inboxId : String} {settings : ClientSettings} {c : Connection}
    (hc : Connection.create appName settings inboxId = .ok c) (hs : List Happening) :
    ((start c).run hs).connection.inbox = c.inbox := by
  rw [run_eq_meetAll]
  exact (kept_meetAll hc _).inbox

/-! ## A request that waits -/

/-- The message of a request is still to be sent; or it is the last one on the attached stream and
the request waits for its response; or the request is over. -/
inductive Poses (kind : List UInt8 → Prop) (v : Conversation) : Prop
  | sending {b : Activity} {deadline : Nat} (hb : v.activity = some b)
      (hsends : b.Sends kind (.request deadline))
  | waiting {deadline : Nat} {a : Attachment} {earlier : List (List UInt8)} {bytes : List UInt8}
      (hb : v.activity = some (.awaitingResponse deadline)) (ha : v.connection.attached = some a)
      (hwritten : v.written a.stream = earlier ++ [bytes]) (hkind : kind bytes)
  | finished (hrest : v.activity = none)

variable {kind : List UInt8 → Prop}

theorem poses_settle {deadline : Nat} {t : SubscriptionTable} {next : Connection × Progress}
    (h : Sends kind (.request deadline) t next) : (v.settle next).Poses kind := by
  obtain ⟨c, progress⟩ := next
  cases progress with
  | waiting b => exact .sending rfl h.1
  | finished o => exact .finished rfl

/-- Until the next operation is asked for, every happening keeps to this. -/
theorem Poses.step (hsound : v.Sound anyTerms next) (h : v.Poses kind) {x : Happening}
    (hx : x.operation? = none) : (v.step x).Poses kind := by
  cases x with
  | begin now op => nomatch hx
  | receive chunk =>
    obtain ⟨-, hsame⟩ := Connection.receive_keeps hsound.connection chunk
    cases h with
    | sending hb hsends => exact .sending hb hsends
    | waiting hb ha hwritten hkind =>
      obtain ⟨b, hattached, hstream⟩ := hsame.symm.exists_attached ha
      rw [← hstream] at hwritten
      exact .waiting hb hattached hwritten hkind
    | finished hrest => exact .finished hrest
  | expire =>
    cases h with
    | sending hb hsends =>
      rw [step_expire_of_busy hb]
      exact poses_settle (Connection.sends_expire hsends rfl)
    | waiting hb =>
      rw [step_expire_of_busy hb]
      exact .finished rfl
    | finished hrest =>
      rw [step_expire_of_rest hrest]
      exact .finished hrest
  | reply now r =>
    cases h with
    | sending hb hsends =>
      rw [step_reply_of_busy hb]
      have hfree := Connection.isFree_of_sound (hsound.activity _ hb)
      rcases Connection.sends_resume hsends hfree rfl now r with hnext | ⟨stream, s, rfl, hs, rfl⟩
      · exact poses_settle hnext
      · obtain ⟨-, -, ⟨a, ha, rfl⟩, -⟩ := hsound.activity _ hb
        exact .waiting rfl ha (if_pos rfl) hs
    | waiting hb ha hwritten hkind =>
      rw [step_reply_of_busy hb]
      cases r with
      | woken =>
        simp only [Connection.resume, Connection.takeResponse]
        split
        · exact .waiting rfl ha hwritten hkind
        · exact .finished rfl
        · exact .finished rfl
      | _ => exact .waiting rfl ha hwritten hkind
    | finished hrest =>
      rw [step_reply_of_rest hrest]
      exact .finished hrest

theorem Poses.run (hsound : v.Sound anyTerms next) (h : v.Poses kind) {hs : List Happening}
    (hnone : asked hs = []) : (v.run hs).Poses kind := by
  induction hs generalizing v next with
  | nil => exact h
  | cons x hs ih =>
    obtain ⟨hx, hnone⟩ := asked_cons_eq_nil.mp hnone
    obtain ⟨last, hstep⟩ := hsound.step_any x
    exact ih hstep (h.step hsound hx) hnone

/-- A connection whose last operation is a request that waits for its response. -/
inductive Requesting (c : Connection) (topic : String) (d : Document) : Conversation → Prop
  | intro {before during : List Happening} {now timeout deadline : Nat} {x : Conversation}
      (hrest : ((start c).run before).activity = none) (hnone : asked during = [])
      (hx : x = ((start c).run before).run (.begin now (.request topic d timeout) :: during))
      (hwaits : x.activity = some (.awaitingResponse deadline)) : Requesting c topic d x

/-- The header of a request. -/
def askingHeader (topic inbox : String) : Header :=
  { Header.forTopic topic with flags := .request }.withReplyTopic inbox

theorem begin_request_poses (hrest : v.activity = none) (now timeout : Nat) (topic : String)
    (d : Document) : (v.step (.begin now (.request topic d timeout))).Poses fun bytes =>
      ∃ n, (Frame.ofPayload { askingHeader topic v.connection.inbox with sequence := n }
        d.encode).SentAs bytes := by
  have hm : (askingHeader topic v.connection.inbox).Measured :=
    ((Header.measured_forTopic topic).withFlags .request).withReplyTopic _
  rw [step_begin_of_rest hrest]
  exact poses_settle (Connection.sends_sendFrame (c := { v.connection with slot := .waiting }) hm
    (fun bytes hbytes => ⟨_, hbytes⟩) (.request (now + timeout)))

variable {appName inboxId topic : String} {settings : ClientSettings} {c : Connection}
  {d : Document} {x : Conversation}

/-- The message of a request that waits: it asks for the response to be sent to the inbox. -/
theorem Requesting.says (hx : x.Requesting c topic d)
    (hc : Connection.create appName settings inboxId = .ok c)
    (hfits : d.encode.length ≤ maxPayload) :
    ∃ f bytes, x.Says maxPayload f ∧ f.SentAs bytes ∧ f.topic = topic ∧
      f.header.flags = .request ∧ f.header.replyTopic = some c.inbox ∧ f.payload = d.encode := by
  obtain @⟨before, during, now, timeout, deadline, _, hrest, hnone, rfl, hwaits⟩ := hx
  obtain ⟨next, hbefore⟩ := exists_sound hc before
  obtain ⟨first, hfirst⟩ := hbefore.step_any (.begin now (.request topic d timeout))
  obtain ⟨last, hlast⟩ := hfirst.run_any during
  cases (begin_request_poses hrest now timeout topic d).run hfirst hnone with
  | sending hb hsends =>
    obtain rfl := Option.some.inj (hwaits.symm.trans hb)
    exact hsends.elim
  | waiting _ ha hwritten hkind =>
    obtain ⟨n, hf⟩ := hkind
    rw [inbox_run hc] at hf
    exact ⟨_, _, hlast.says ha hwritten hf hfits, hf, rfl, rfl, rfl, rfl⟩
  | finished hrest => nomatch hwaits.symm.trans hrest

theorem Requesting.exists_deadline (hx : x.Requesting c topic d) :
    ∃ deadline, x.activity = some (.awaitingResponse deadline) := by
  obtain ⟨-, -, -, hwaits⟩ := hx
  exact ⟨_, hwaits⟩

/-! ## A response -/

/-- The header of a response. -/
def answeringHeader (topic : String) : Header := { Header.forTopic topic with flags := .response }

/-- What a response is sent as: the last frame on the stream of the connection that responds. -/
theorem respond_says {request : Header} {y : Conversation}
    (hc : Connection.create appName settings inboxId = .ok c) {before : List Happening}
    (hgives : ((start c).run before).Gives (.respond request d) .done y)
    (htopic : request.replyTopic = some topic) (hfits : d.encode.length ≤ maxPayload) :
    ∃ g bytes, y.Says maxPayload g ∧ g.SentAs bytes ∧ g.topic = topic ∧
      g.header.flags = .response ∧ g.payload = d.encode := by
  obtain ⟨next, hbefore⟩ := exists_sound hc before
  have hposts : Operation.Posts (.respond request d) (answeringHeader topic) d.encode := by
    intro c now
    rw [Connection.begin, Connection.respond, htopic]
    rfl
  have hm : (answeringHeader topic).Measured := (Header.measured_forTopic topic).withFlags .response
  obtain ⟨a, earlier, bytes, n, ha, hwritten, hg⟩ := post_gives hbefore hm hposts hgives
  obtain ⟨-, now, replies, -, rfl, -⟩ := hgives
  obtain ⟨last, hlast⟩ := hbefore.run_any (.begin now (.respond request d) :: replies)
  exact ⟨_, _, hlast.says ha hwritten hg hfits, hg, rfl, rfl, rfl⟩

theorem isAnswer_tagged {g : Frame} (hg : g.header.flags = .response) (id : UInt32) :
    isAnswer (g.tagged id) = decide (id = 0) := by
  have hresponse : (g.tagged id).header.isResponse = true := by
    rw [Header.isResponse, Frame.tagged, hg]
    decide
  rw [isAnswer, hresponse, Bool.true_and]
  rfl

theorem run_receive (x : Conversation) (chunks : List (List UInt8)) :
    x.run (chunks.map fun bytes => .receive (.bytes bytes)) =
      { x with connection := x.connection.receiveAll chunks } := by
  induction chunks generalizing x with
  | nil => rfl
  | cons bytes chunks ih => exact ih _

theorem mem_subscriptionsFor {b : Broker} {i : ClientId} {expression : String} {id : UInt32}
    (hroute : .forward expression id i ∈ b.table.routes)
    (hselects : Topic.selects expression topic = true) : id ∈ b.subscriptionsFor i topic :=
  List.mem_map.mpr ⟨_, List.mem_filter.mpr ⟨hroute, decide_eq_true ⟨rfl, rfl, hselects⟩⟩, rfl⟩

variable {broker : BrokerSettings} {ops : List Broker.Operation} {i j : ClientId} {limit : Nat}
  {ahead : List Frame} {chunks : List (List UInt8)}

/-- The copies of a response that are answers: one for each time the client has asked for the topic
under the id of the inbox. -/
theorem filter_answer_tagged {g : Frame} (hg : g.header.flags = .response) (ids : List UInt32) :
    (ids.map g.tagged).filter isAnswer = List.replicate (ids.count 0) (g.tagged 0) := by
  have hanswer : isAnswer ∘ g.tagged = fun id => decide (id = 0) :=
    funext fun id => isAnswer_tagged hg id
  rw [List.filter_map, hanswer, List.filter_eq, List.map_replicate]

theorem filter_other_tagged {g : Frame} (hg : g.header.flags = .response) (ids : List UInt32) :
    (ids.map g.tagged).filter (fun h => !isAnswer h) = (ids.filter (· ≠ 0)).map g.tagged := by
  have hother : (fun h => !isAnswer h) ∘ g.tagged = fun id => decide (id ≠ 0) := by
    funext id
    rw [Function.comp_apply, isAnswer_tagged hg, decide_not]
  rw [List.filter_map, hother]

/-- The first copy for the inbox goes into the slot of the request that waits. All other frames are
put aside. -/
theorem Carries.answered {g : Frame} (h : Carries broker ops j g i limit ahead x chunks)
    (hg : g.SentAs bytes) (hfit : g.payload.length ≤ limit) (hflags : g.header.flags = .response)
    (hinbox : 0 ∈ ((Broker.ofSettings broker).run ops).subscriptionsFor i g.topic)
    (hslot : x.connection.slot = .waiting) (hquiet : ∀ f ∈ ahead, isAnswer f = false) :
    (x.connection.receiveAll chunks).slot = .answered (g.tagged 0) ∧
      framesIn (x.connection.receiveAll chunks).inbound = framesIn x.connection.inbound ++ (ahead ++
        ((((Broker.ofSettings broker).run ops).subscriptionsFor i g.topic).filter (· ≠ 0)).map
          g.tagged) := by
  obtain ⟨a, -, -, haccepted⟩ := h.accepted hg hfit
  constructor
  · have hahead : ahead.filter isAnswer = [] :=
      List.filter_eq_nil_iff.mpr fun f hf => Bool.eq_false_iff.mp (hquiet f hf)
    obtain ⟨n, hn⟩ := Nat.exists_eq_succ_of_ne_zero (List.count_pos_iff.mpr hinbox).ne'
    have hfirst : ResponseSlot.waiting = .of [] := rfl
    rw [haccepted.slot, hslot, hfirst, ResponseSlot.foldl_handle_of, List.filter_append, hahead,
      filter_answer_tagged hflags, hn]
    rfl
  · have hahead : ahead.filter (fun f => !isAnswer f) = ahead :=
      List.filter_eq_self.mpr fun f hf => by rw [hquiet f hf]; rfl
    rw [haccepted.inbound, framesIn_append, framesIn_frames, List.filter_append, hahead,
      filter_other_tagged hflags]

/-- A copy for a subscription is dispatched to it, behind the frames that were ahead. -/
theorem Carries.callsOf {f : Frame} {expression : String} {id : UInt32}
    (hsound : x.Sound anyTerms next) (h : Carries broker ops j f i limit ahead x chunks)
    (hf : f.SentAs bytes) (hfit : f.payload.length ≤ limit) (hid : id ≠ 0)
    (hname : x.connection.subscriptions.expression? id = some expression) :
    (x.connection.receiveAll chunks).callsOf id =
      (((framesIn x.connection.inbound ++ ahead).filter fun g => g.header.control = id) ++
        List.replicate ((((Broker.ofSettings broker).run ops).subscriptionsFor i f.topic).count id)
          (f.tagged id)).map fun g => (expression, g) := by
  obtain ⟨a, ha, hreading, haccepted⟩ := h.accepted hf hfit
  have hcontrol : (fun g : Frame => decide (g.header.control = id)) ∘ f.tagged =
      fun other => decide (other = id) := rfl
  rw [callsOf_accepted hsound.connection hid ha hreading hname haccepted, ← List.append_assoc,
    List.filter_append, List.filter_map, hcontrol, List.filter_eq, List.map_replicate]

/-- A request that waits has said so in a frame that names its inbox. This frame reaches the
subscription of another connection whose route selects its topic, once for each such route. When the
other connection responds to the header that it got, its response is a frame for the inbox; the
broker brings it to the slot of the request, as long as no other answer comes first, and the request
gives the document. The copy for the inbox is not put aside, so it is never dispatched, and no other
inbox gets the response. -/
theorem request_answered (settings : BrokerSettings) (topic : String) (q r : Document)
    (hq : q.WellFormed) (hqNesting : q.nesting ≤ Json.maxNesting)
    (hqLimit : q.encode.length ≤ settings.maxPayload)
    (hr : r.WellFormed) (hrNesting : r.nesting ≤ Json.maxNesting)
    (hrLimit : r.encode.length ≤ settings.maxPayload)
    -- The connection that waits for the response.
    (appName inboxId : String) (mine : ClientSettings) (c : Connection)
    (hc : Connection.create appName mine inboxId = .ok c) (hinbox : isAppName inboxId = true)
    (x : Conversation) (hx : x.Requesting c topic q)
    -- The connection that responds.
    (otherName otherId : String) (theirs : ClientSettings) (other : Connection)
    (hother : Connection.create otherName theirs otherId = .ok other) :
    ∃ f, x.Says settings.maxPayload f ∧ f.header.isRequest = true ∧ f.topic = topic ∧
      f.header.replyTopic = some c.inbox ∧ f.document = .ok q ∧
      (∀ (ops : List Broker.Operation) (i j : ClientId) (limit : Nat) (ahead : List Frame)
        (chunks : List (List UInt8)) (hs : List Happening) (expression : String) (id : UInt32),
        let b := (Broker.ofSettings settings).run ops
        let y := (start other).run hs
        Carries settings ops i f j limit ahead y chunks → q.encode.length ≤ limit →
        .forward expression id j ∈ b.table.routes → Topic.selects expression topic = true →
        id ≠ 0 → y.connection.subscriptions.expression? id = some expression →
        0 < (b.subscriptionsFor j topic).count id ∧
        (y.connection.receiveAll chunks).callsOf id =
          (((framesIn y.connection.inbound ++ ahead).filter fun g => g.header.control = id) ++
            List.replicate ((b.subscriptionsFor j topic).count id) (f.tagged id)).map
              fun g => (expression, g)) ∧
      ∀ (id : UInt32) (before : List Happening) (y : Conversation),
        ((start other).run before).Gives (.respond (f.tagged id).header r) .done y →
        ∃ g, y.Says settings.maxPayload g ∧ g.topic = c.inbox ∧ g.header.isResponse = true ∧
          g.document = .ok r ∧
          (∀ (ops : List Broker.Operation) (i j : ClientId) (limit : Nat) (ahead : List Frame)
            (chunks : List (List UInt8)) (now : Nat),
            let b := (Broker.ofSettings settings).run ops
            Carries settings ops j g i limit ahead x chunks → r.encode.length ≤ limit →
            .forward c.inbox inboxSubscription i ∈ b.table.routes →
            x.connection.slot = .waiting → (∀ h ∈ ahead, isAnswer h = false) →
            let x' := x.run (chunks.map fun bytes => .receive (.bytes bytes))
            x'.connection.slot = .answered (g.tagged inboxSubscription) ∧
            framesIn x'.connection.inbound = framesIn x.connection.inbound ++ (ahead ++
              ((b.subscriptionsFor i c.inbox).filter (· ≠ inboxSubscription)).map g.tagged) ∧
            (x'.step (.reply now .woken)).activity = none ∧
            (x'.step (.reply now .woken)).outcome = some (.responded r)) ∧
          ∀ (thirdName thirdId : String) (settings' : ClientSettings) (third : Connection),
            Connection.create thirdName settings' thirdId = .ok third →
            isAppName thirdId = true → thirdId ≠ inboxId →
            ∀ (ops : List Broker.Operation) (k : ClientId),
              .forward third.inbox inboxSubscription k ∉
                ((Broker.ofSettings settings).run ops).table.selecting g.topic := by
  obtain ⟨happ, hname⟩ := create_eq_ok hc
  obtain ⟨f, bytes, hsays, hf, rfl, hflags, hreply, hpayload⟩ := hx.says hc hqLimit
  have hrequest : f.header.isRequest = true := by
    rw [Header.isRequest, hflags]
    decide
  have hdocument : f.document = .ok q := by
    rw [Frame.document, hpayload, Document.decode_encode_eq hq, if_pos hqNesting]
  refine ⟨f, hsays, hrequest, rfl, hreply, hdocument, ?_, ?_⟩
  · intro ops i j limit ahead chunks hs expression id b y hcarries hlimit hroute hselects hid hsub
    obtain ⟨next, hsound⟩ := exists_sound hother hs
    exact ⟨List.count_pos_iff.mpr (mem_subscriptionsFor hroute hselects),
      hcarries.callsOf hsound hf (hpayload ▸ hlimit) hid hsub⟩
  · intro id before y hgives
    obtain ⟨g, response, hsaid, hg, htopic, hresponse, hanswer⟩ :=
      respond_says hother hgives hreply hrLimit
    have hisResponse : g.header.isResponse = true := by
      rw [Header.isResponse, hresponse]
      decide
    have hdocument' : (g.tagged inboxSubscription).document = .ok r := by
      rw [Frame.document, Frame.tagged, hanswer, Document.decode_encode_eq hr, if_pos hrNesting]
    refine ⟨g, hsaid, htopic, hisResponse, hdocument', ?_, ?_⟩
    · intro ops i j limit ahead chunks now b hcarries hlimit hroute hslot hquiet x'
      -- One of the copies is for the inbox itself.
      have hself : Topic.selects c.inbox g.topic = true := by
        rw [htopic, hname]
        exact (selects_inboxOf happ happ hinbox).mpr ⟨rfl, rfl⟩
      obtain ⟨hanswered, hinbound⟩ := hcarries.answered hg (hanswer ▸ hlimit) hresponse
        (mem_subscriptionsFor hroute hself) hslot hquiet
      have hx' : x' = { x with connection := x.connection.receiveAll chunks } :=
        run_receive x chunks
      obtain ⟨deadline, hwaits⟩ := hx.exists_deadline
      obtain ⟨hover, hgiven⟩ := step_woken
        (v := { x with connection := x.connection.receiveAll chunks }) hwaits hanswered now
      rw [htopic] at hinbound
      rw [hx']
      exact ⟨hanswered, hinbound, hover, hgiven.trans (congrArg some (ofResponse_eq hdocument'))⟩
    · intro thirdName thirdId settings' third hthird hthirdId hne ops k hmem
      -- Another inbox would have to select this one.
      obtain ⟨hthirdApp, hthirdName⟩ := create_eq_ok hthird
      have hselects : Topic.selects third.inbox g.topic = true := (List.mem_filter.mp hmem).2
      rw [htopic, hname, hthirdName] at hselects
      exact hne ((selects_inboxOf happ hthirdApp hthirdId).mp hselects).2.symm

/-! ## One asks and one answers -/

/-- The frame can be written and is read back as it is. -/
def IsWhole (g : Frame) : Prop := g.isWritable = true ∧
  g.header.version = Wire.protocolVersion ∧ g.header.headerLength = g.header.encodedLength

instance (g : Frame) : Decidable (IsWhole g) := inferInstanceAs (Decidable (_ ∧ _))

theorem IsWhole.sentAs {g : Frame} (h : IsWhole g) : g.SentAs (g.encode.toOption.getD []) := by
  obtain ⟨hwritable, hversion, hlength⟩ := h
  cases hencode : g.encode with
  | error why =>
    rw [Frame.isWritable, hencode] at hwritable
    cases hwritable
  | ok bytes => exact ⟨hencode, hversion, hlength⟩

/-- A frame that is last on a stream is the one that is said. -/
theorem Says.eq_of_getLast? (h : v.Says maxPayload f) (ha : v.connection.attached = some a)
    {g : Frame} (hg : IsWhole g)
    (hlast : (v.written a.stream).getLast? = some (g.encode.toOption.getD [])) : f = g := by
  obtain ⟨b, gs, hb, hsent, -⟩ := h
  obtain rfl := Option.some.inj (ha.symm.trans hb)
  have hreverse := List.forall₂_reverse_iff.mpr hsent
  rw [List.reverse_concat] at hreverse
  rw [List.getLast?_eq_head?_reverse] at hlast
  generalize (v.written a.stream).reverse = log at hreverse hlast
  cases hreverse with
  | cons hf _ =>
    obtain rfl := Option.some.inj hlast
    exact hf.unique hg.sentAs

/-- A connection that waits for the response to a request on `T`. -/
def requester : Conversation :=
  ((start plainConnection).run opening).run
    [.begin 0 (.request "T" .empty 100), .reply 0 .written]

/-- A request on `T` by the connection with the inbox `x.INBOX.1`. -/
def questionOf (sequence : UInt32) : Frame :=
  .ofPayload { askingHeader "T" "x.INBOX.1" with sequence := sequence } Document.empty.encode

def question : Frame := questionOf 2

/-- A connection that has subscribed to `T`. -/
def subscribing : List Happening := opening ++ [.begin 0 (.subscribe "T"), .reply 0 .written]

def subscriber : Conversation := (start speakerConnection).run subscribing

/-- It has responded to a request. -/
def responder (q : Frame) : Conversation :=
  subscriber.run [.begin 0 (.respond (q.tagged 1).header (numbered 7)), .reply 0 .written]

def response : Frame :=
  .ofPayload { answeringHeader "x.INBOX.1" with sequence := 3 } (numbered 7).encode

/-- The broker has heard these frames from one client, and that the other subscribes to `T`. -/
def introduced (fs : List Frame) : List Broker.Operation :=
  [.register "x" 4, .register "y" 4] ++ fs.map (.route 1) ++
    [.route 2 speakerHello, .route 2 (messageOf subscribeTopic 2 (asking "T"))]

def greeted : List Broker.Operation :=
  introduced [messageOf helloTopic 1 (hello "x.INBOX.1")]

/-- The request has been routed and written. -/
def forwarded : List Broker.Operation := greeted ++ [.route 1 question, .drain 2 1]

/-- The frames that are routed. -/
def routed (ops : List Broker.Operation) : List Frame :=
  ops.filterMap fun op => match op with
    | .route _ g => some g
    | _ => none

/-- What the broker writes to a client when it routes a frame. -/
def outputOn (ops : List Broker.Operation) (sender : ClientId) (f : Frame) (i : ClientId) :
    List UInt8 :=
  (Server.takeOutput ⟨(((Broker.ofSettings {}).run ops).route sender f).1, []⟩
    ⟨i, 0, .ofLimit defaultMaxPayload, true, false⟩).2

/-- An idle connection gets what a broker that has nothing else for it routes. -/
theorem carries_idle {ops : List Broker.Operation} {sender i : ClientId} {f : Frame}
    {x : Conversation} (ha : x.connection.attached = some ⟨0, .ofLimit defaultMaxPayload, true⟩)
    (hclient : (((Broker.ofSettings {}).run ops).client? i).map
      (fun k => (k.outbox.isOpen, k.outbox.frames)) = some (true, []))
    (hread : ∀ g ∈ routed ops, IsWhole g)
    (htaken : i ∉ (((Broker.ofSettings {}).run ops).deliver sender f).refused)
    (hsome : outputOn ops sender f i ≠ []) :
    Carries {} ops sender f i defaultMaxPayload [] x [outputOn ops sender f i] := by
  obtain ⟨k, hk, houtbox⟩ := Option.map_eq_some_iff.mp hclient
  obtain ⟨hopen, hqueue⟩ := Prod.mk.inj houtbox
  let server : Server := ⟨(((Broker.ofSettings {}).run ops).route sender f).1, []⟩
  let session : Session := ⟨i, 0, .ofLimit defaultMaxPayload, true, false⟩
  have hserver : server.broker = (((Broker.ofSettings {}).run ops).route sender f).1 := rfl
  have hsession : session.client = i := rfl
  have hnone : [] ++ k.outbox.frames.filter Frame.isWritable = [] := by
    rw [hqueue]
    rfl
  rw [← hnone]
  refine .intro ha rfl (Reader.awaits_ofLimit _) hk hopen (fun sender g hg => ?_) ?_ htaken
    hserver hsession ?_ (List.append_nil _)
  · exact (hread g (List.mem_filterMap.mpr ⟨_, hg, rfl⟩)).sentAs.isRead
  · rw [hqueue]
    exact nofun
  · exact fun bytes hbytes => List.mem_singleton.mp hbytes ▸ hsome

theorem carries_question : Carries {} greeted 1 question 2 defaultMaxPayload [] subscriber
    [outputOn greeted 1 question 2] :=
  carries_idle rfl (by decide +kernel) (by decide +kernel) (by decide +kernel) (by decide +kernel)

theorem carries_response : Carries {} forwarded 2 response 1 defaultMaxPayload [] requester
    [outputOn forwarded 2 response 1] :=
  carries_idle rfl (by decide +kernel) (by decide +kernel) (by decide +kernel) (by decide +kernel)

theorem requesting_requester : requester.Requesting plainConnection "T" .empty :=
  have hx : requester = ((start plainConnection).run opening).run
      (.begin 0 (.request "T" .empty 100) :: [.reply 0 .written]) := rfl
  .intro rfl rfl hx rfl

theorem gives_responder : ((start speakerConnection).run subscribing).Gives
    (.respond (question.tagged 1).header (numbered 7)) .done (responder question) :=
  ⟨rfl, 0, [.reply 0 .written], rfl, rfl, rfl⟩

theorem request_answered_numbered :
    requester.Requesting plainConnection "T" .empty ∧
      Carries {} greeted 1 question 2 defaultMaxPayload [] subscriber
        [outputOn greeted 1 question 2] ∧
      (subscriber.connection.receiveAll [outputOn greeted 1 question 2]).callsOf 1 =
        [("T", question.tagged 1)] ∧
      subscriber.Gives (.respond (question.tagged 1).header (numbered 7)) .done
        (responder question) ∧
      Carries {} forwarded 2 response 1 defaultMaxPayload [] requester
        [outputOn forwarded 2 response 1] ∧
      ((requester.run [.receive (.bytes (outputOn forwarded 2 response 1))]).step
        (.reply 50 .woken)).outcome = some (.responded (numbered 7)) ∧
      .forward "y.INBOX.2" 0 2 ∉
        ((Broker.ofSettings {}).run forwarded).table.selecting response.topic := by
  have hc : Connection.create "x" { address := "unix:///bus" } "1" = .ok plainConnection := rfl
  have hother : Connection.create "y" { address := "unix:///bus" } "2" = .ok speakerConnection :=
    rfl
  have hempty : Document.empty.encode.length ≤ defaultMaxPayload := by decide +kernel
  have hnumbered : (numbered 7).encode.length ≤ defaultMaxPayload := by decide +kernel
  have hflat : (numbered 7).nesting ≤ Json.maxNesting := Nat.le_of_ble_eq_true rfl
  have hcount : (((Broker.ofSettings {}).run greeted).subscriptionsFor 2 "T").count 1 = 1 := by
    decide +kernel
  obtain ⟨f, hsays, -, -, -, -, hreaches, hresponds⟩ := request_answered {} "T" .empty
    (numbered 7) Document.wellFormed_empty (by decide) hempty (wellFormed_numbered 7) hflat
    hnumbered "x" "1" { address := "unix:///bus" } plainConnection hc (by decide) requester
    requesting_requester "y" "2" { address := "unix:///bus" } speakerConnection hother
  obtain rfl : f = question := hsays.eq_of_getLast? rfl (by decide +kernel) (by decide +kernel)
  obtain ⟨-, hcalls⟩ := hreaches greeted 1 2 defaultMaxPayload []
    [outputOn greeted 1 question 2] subscribing "T" 1 carries_question hempty
    (by decide +kernel) (by decide +kernel) (by decide) (by decide +kernel)
  obtain ⟨g, hsaid, -, -, -, hanswers, hothers⟩ := hresponds 1 subscribing (responder question)
    gives_responder
  obtain rfl : g = response := hsaid.eq_of_getLast? rfl (by decide +kernel) (by decide +kernel)
  obtain ⟨-, -, -, hgives⟩ := hanswers forwarded 1 2 defaultMaxPayload []
    [outputOn forwarded 2 response 1] 50 carries_response hnumbered (by decide +kernel) rfl nofun
  rw [hcount] at hcalls
  exact ⟨requesting_requester, carries_question, hcalls, gives_responder, carries_response, hgives,
    hothers "y" "2" { address := "unix:///bus" } speakerConnection hother (by decide) (by decide)
      forwarded 2⟩

/-! ## What goes wrong -/

/-- A connection that takes payloads of 1024 bytes at most. It has subscribed to `A` and waits for
the response to a request. -/
def narrowRequester : Conversation :=
  (listener narrowConnection "A").run
    [.begin 0 (.request "T" .empty 100), .reply 0 .written]

/-- A frame on `A` that is too long for it. -/
def tooLong : Frame := .ofPayload (.forTopic "A") (List.replicate 1025 0)

/-- The request has been routed and written, and then the long frame has come. -/
def crowded : List Broker.Operation :=
  introduced (listenerFrames "A") ++ [.route 1 (questionOf 3), .drain 2 1, .route 2 tooLong]

/-- A request is not given the response that it gets, but times out, if a frame over the limit of
its connection comes before. The frame is no answer, and no queue is full. -/
theorem response_behind_long_frame_is_not_given :
    narrowRequester.activity.map Activity.deadline? = some (some 100) ∧
      heardOn narrowRequester = listenerFrames "A" ++ [questionOf 3] ∧
      .forward "T" 1 2 ∈
        ((Broker.ofSettings {}).run (introduced (listenerFrames "A"))).table.routes ∧
      (subscriber.connection.receiveAll
        [outputOn (introduced (listenerFrames "A")) 1 (questionOf 3) 2]).callsOf 1 =
          [("T", (questionOf 3).tagged 1)] ∧
      subscriber.Gives (.respond ((questionOf 3).tagged 1).header (numbered 7)) .done
        (responder (questionOf 3)) ∧
      heardOn (responder (questionOf 3)) =
        [speakerHello, messageOf subscribeTopic 2 (asking "T"), response] ∧
      .forward "x.INBOX.1" 0 1 ∈ ((Broker.ofSettings {}).run crowded).table.routes ∧
      (((Broker.ofSettings {}).run crowded).client? 1).map (fun k => k.outbox.frames) =
        some [tooLong.tagged 1] ∧
      isAnswer (tooLong.tagged 1) = false ∧ response.payload.length ≤ 1024 ∧
      1 ∉ (((Broker.ofSettings {}).run crowded).deliver 2 response).refused ∧
      narrowRequester.connection.slot = .waiting ∧
      let x := narrowRequester.run [.receive (.bytes (outputOn crowded 2 response 1))]
      x.connection.slot = .waiting ∧ (x.step .expire).outcome = some (.failed .timeout) := by
  refine ⟨rfl, by decide +kernel, by decide +kernel, by decide +kernel,
    ⟨rfl, 0, [.reply 0 .written], rfl, rfl, rfl⟩, by decide +kernel, by decide +kernel,
    by decide +kernel, by decide +kernel, by decide +kernel, by decide +kernel, by decide +kernel,
    by decide +kernel, rfl⟩

end Conversation

end TopicBus
