import TopicBus.Proofs.Connection.Receipt
import TopicBus.Proofs.Wire.Damage

/-!
The response slot of a connection. Its readers put answers into the slot and everything else aside
(`Handled`); an operation that goes on leaves the slot alone, and one that is over leaves it empty
(`Keeps`). Each function of a connection has its lemma here; `Answers.lean` draws the conclusion for
whole runs.
-/

namespace TopicBus

/-! ## The reading side -/

namespace ResponseSlot

/-- The slot of a request for which these answers have come. -/
def of : List Frame → ResponseSlot
  | [] => .waiting
  | f :: _ => .answered f

theorem handle_empty (f : Frame) : empty.handle f = .empty := ite_self _

theorem handle_answered (g f : Frame) : (answered g).handle f = .answered g := ite_self _

theorem foldl_handle_empty (frames : List Frame) : frames.foldl handle .empty = .empty := by
  induction frames with
  | nil => rfl
  | cons f frames ih => rw [List.foldl_cons, handle_empty, ih]

/-- Of many answers the first one counts. -/
theorem foldl_handle_of (answers frames : List Frame) :
    frames.foldl handle (of answers) = of (answers ++ frames.filter Connection.isAnswer) := by
  induction frames generalizing answers with
  | nil => rw [List.foldl_nil, List.filter_nil, List.append_nil]
  | cons f frames ih =>
    rw [List.foldl_cons, List.filter_cons]
    by_cases hanswer : Connection.isAnswer f = true
    · have hnext : (of answers).handle f = of (answers ++ [f]) := by
        cases answers with
        | nil => exact if_pos hanswer
        | cons g answers => exact handle_answered g f
      rw [hnext, ih, if_pos hanswer, List.append_assoc, List.singleton_append]
    · have hsame : (of answers).handle f = of answers := if_neg hanswer
      rw [hsame, ih, if_neg hanswer]

theorem of_ne_empty (answers : List Frame) : of answers ≠ .empty := by
  cases answers <;> nofun

end ResponseSlot

namespace Connection

/-- The frames that a read gives to a connection. -/
def incoming (c : Connection) (chunk : Chunk) : List Frame :=
  match c.attached with
  | none => []
  | some a =>
    if a.isReading then
      match chunk with
      | .failure _ | .bytes [] => []
      | .bytes bytes => Decoded.frames (a.reader.feed bytes).2
    else []

/-- The connection has handled these frames: answers go to the slot, all others are put aside. -/
structure Handled (frames : List Frame) (c c' : Connection) : Prop where
  inbox : c'.inbox = c.inbox
  slot : c'.slot = frames.foldl ResponseSlot.handle c.slot
  inbound : framesIn c'.inbound = framesIn c.inbound ++ frames.filter fun f => !isAnswer f

variable {c c' c'' : Connection} {fs gs : List Frame}

theorem Handled.of_same (hinbox : c'.inbox = c.inbox) (hslot : c'.slot = c.slot)
    (hinbound : framesIn c'.inbound = framesIn c.inbound) : Handled [] c c' :=
  ⟨hinbox, hslot, hinbound.trans (List.append_nil _).symm⟩

theorem Handled.trans (h : Handled fs c c') (h' : Handled gs c' c'') :
    Handled (fs ++ gs) c c'' where
  inbox := h'.inbox.trans h.inbox
  slot := by rw [h'.slot, h.slot, List.foldl_append]
  inbound := by rw [h'.inbound, h.inbound, List.filter_append, List.append_assoc]

theorem handled_accept (c : Connection) (f : Frame) : Handled [f] c (c.accept f) where
  inbox := (accepted_accept c f).1.writing.inbox
  slot := (accepted_accept c f).1.slot
  inbound := by
    rw [(accepted_accept c f).1.inbound, framesIn_append, framesIn_frames]

theorem handled_acceptResults (c : Connection) (results : List Decoded) :
    Handled (Decoded.frames results) c (results.foldl acceptResult c) := by
  induction results generalizing c with
  | nil => exact .of_same rfl rfl rfl
  | cons r results ih =>
    have hrest := ih (c.acceptResult r)
    match r with
    | .more => exact hrest
    | .frame f => exact (handled_accept c f).trans hrest
    | .fault why =>
      have hfirst : Handled [] c (c.acceptResult (.fault why)) := by
        unfold acceptResult
        split
        · exact .of_same rfl rfl rfl
        · exact .of_same rfl rfl rfl
        · next heq => nomatch heq
        · exact .of_same rfl rfl (by rw [endReading, framesIn_append]; exact List.append_nil _)
      exact hfirst.trans hrest

theorem handled_receive (c : Connection) (chunk : Chunk) :
    Handled (c.incoming chunk) c (c.receive chunk) := by
  have hended (why : Option Fault) : Handled [] c (c.endReading why) :=
    .of_same rfl rfl (by rw [endReading, framesIn_append]; exact List.append_nil _)
  unfold receive incoming
  cases c.attached with
  | none => exact .of_same rfl rfl rfl
  | some a =>
    obtain ⟨stream, reader, isReading⟩ := a
    cases isReading with
    | false => exact .of_same rfl rfl rfl
    | true =>
      cases chunk with
      | failure why => exact hended _
      | bytes bytes =>
        cases bytes with
        | nil =>
          cases hfinish : reader.finish with
          | frame f =>
            simp only [hfinish]
            exact hended none
          | ended =>
            simp only [hfinish]
            exact hended none
          | fault why =>
            simp only [hfinish]
            exact hended (some why)
        | cons x bytes =>
          let held : Connection :=
            { c with attached := some ⟨stream, (reader.feed (x :: bytes)).1, true⟩ }
          have hheld : Handled [] c held := .of_same rfl rfl rfl
          exact hheld.trans (handled_acceptResults held (reader.feed (x :: bytes)).2)

end Connection

/-! ## The faults of an operation -/

/-- The faults of an argument that is not allowed and of a supply that is used up. -/
inductive Fault.Refusal : Fault → Prop
  | invalidArgument (why : Misuse) : Refusal (.invalidArgument why)
  | exhausted (why : Shortage) : Refusal (.exhausted why)

/-- The faults that a connection raises itself. -/
inductive Fault.Own : Fault → Prop
  | invalidArgument (why : Misuse) : Own (.invalidArgument why)
  | exhausted (why : Shortage) : Own (.exhausted why)
  | timeout : Own .timeout
  | detached : Own (.notConnected "not connected")
  | closed : Own (.notConnected "connection is closed")

theorem Fault.Refusal.own {why : Fault} (h : why.Refusal) : why.Own := by
  cases h with
  | invalidArgument why => exact .invalidArgument why
  | exhausted why => exact .exhausted why

/-- Whether a reply reports a fault. -/
def Reply.Brings (why : Fault) : Reply → Prop
  | .refused io => why = Connection.unreachable io
  | .writeFailed io => why = .ofIo io
  | .connected _ _ _ | .rested | .written | .woken => False

theorem Topic.refusal_of_validate {what topic : String} {why : Fault}
    (h : validate what topic = .error why) : why.Refusal := by
  unfold validate at h
  split_ifs at h
  · rw [← Except.error.inj h]
    exact .invalidArgument _
  · rw [← Except.error.inj h]
    exact .invalidArgument _

theorem Header.refusal_of_validate {h : Header} {why : Fault} (hwhy : h.validate = .error why) :
    why.Refusal := by
  rw [validate, bind_eq_error_iff] at hwhy
  rcases hwhy with htopic | ⟨u, -, hreply⟩
  · exact Topic.refusal_of_validate htopic
  · split at hreply
    · exact Topic.refusal_of_validate hreply
    · split_ifs at hreply
      rw [← Except.error.inj hreply]
      exact .invalidArgument _

theorem Frame.refusal_of_encode {f : Frame} {why : Fault} (h : f.encode = .error why) :
    why.Refusal := by
  rw [encode_eq] at h
  split_ifs at h
  · rw [← Except.error.inj h]
    exact .invalidArgument _
  · rw [Header.encode] at h
    simp only [bind_eq_error_iff, pure, Except.pure, reduceCtorEq, and_false, exists_false,
      or_false] at h
    exact Header.refusal_of_validate h

theorem Control.refusal_of_subscribe {expression : String} {id : UInt32} {why : Fault}
    (h : subscribe expression id = .error why) : why.Refusal := by
  unfold subscribe at h
  split_ifs at h
  rw [← Except.error.inj h]
  exact .exhausted _

theorem SubscriptionTable.frame_of_dispatch {t : SubscriptionTable} {f : Frame} {d : Delivery}
    (h : (t.dispatch f).2 = some d) : d.frame = f := by
  unfold dispatch at h
  split at h
  · nomatch h
  · rw [← Option.some.inj h]

theorem SubscriptionTable.refusal_of_insert {t : SubscriptionTable} {expression : String}
    {why : Fault} (h : t.insert expression = .error why) : why.Refusal := by
  rw [insert_of_full (insert_eq_error_iff.mp ⟨why, h⟩)] at h
  rw [← Except.error.inj h]
  exact .exhausted _

/-- What an operation gives unless it fails; nothing here is taken from the slot. -/
def Outcome.IsPlain (c : Connection) : Outcome → Prop
  | .done | .subscribed _ | .dispatched none => True
  | .dispatched (some d) => d.frame ∈ Connection.framesIn c.inbound
  | .responded _ | .failed _ => False

/-! ## The writing side -/

def Cause.isRequest : Cause → Bool
  | .request _ => true
  | .publish | .subscribe _ => false

def Goal.isRequest : Goal → Bool
  | .resend _ cause => cause.isRequest
  | .opening | .dispatch _ => false

def Operation.isRequest : Operation → Bool
  | .request _ _ _ => true
  | _ => false

/-- Whether a request is in progress. -/
def Activity.isRequest : Activity → Bool
  | .establishing _ goal => goal.isRequest
  | .writing _ _ cause => cause.isRequest
  | .awaitingResponse _ => true
  | .awaitingEvent _ | .shuttingDown _ => false

/-- The inbox is the same, and nothing new is put aside. -/
structure Connection.Narrows (c c' : Connection) : Prop where
  inbox : c'.inbox = c.inbox
  inbound : Connection.framesIn c'.inbound ⊆ Connection.framesIn c.inbound

theorem Connection.Narrows.of_same {c c' : Connection} (hinbox : c'.inbox = c.inbox)
    (hinbound : c'.inbound = c.inbound) : c.Narrows c' :=
  ⟨hinbox, by rw [hinbound]; exact List.Subset.refl _⟩

theorem Connection.Narrows.trans {c c' c'' : Connection} (h : c.Narrows c')
    (h' : c'.Narrows c'') : c.Narrows c'' :=
  ⟨h'.inbox.trans h.inbox, List.Subset.trans h'.inbound h.inbound⟩

/-- An operation that goes on leaves the slot alone, and a request that fails empties it. The rest
is no business of the slot. -/
inductive Keeps (p : Fault → Prop) (isRequest : Bool) (c : Connection) :
    Connection × Progress → Prop
  | waiting {c' : Connection} {a : Activity} (ha : a.isRequest = isRequest)
      (hslot : c'.slot = c.slot) (hnarrows : c.Narrows c') :
      Keeps p isRequest c (c', .waiting a)
  | failed {c' : Connection} {why : Fault} (hwhy : p why)
      (hslot : c'.slot = if isRequest then .empty else c.slot) (hnarrows : c.Narrows c') :
      Keeps p isRequest c (c', .finished (.failed why))
  | given {c' : Connection} {o : Outcome} (hidle : isRequest = false) (ho : o.IsPlain c)
      (hslot : c'.slot = c.slot) (hnarrows : c.Narrows c') :
      Keeps p isRequest c (c', .finished o)

variable {p : Fault → Prop}

theorem Keeps.of_same {isRequest : Bool} {c c' : Connection} {next : Connection × Progress}
    (h : Keeps p isRequest c' next) (hslot : c'.slot = c.slot) (hnarrows : c.Narrows c') :
    Keeps p isRequest c next := by
  cases h with
  | waiting ha hnext hafter => exact .waiting ha (hnext.trans hslot) (hnarrows.trans hafter)
  | failed hwhy hnext hafter =>
    rw [hslot] at hnext
    exact .failed hwhy hnext (hnarrows.trans hafter)
  | @given _ o hidle ho hnext hafter =>
    refine .given hidle ?_ (hnext.trans hslot) (hnarrows.trans hafter)
    match o with
    | .done | .subscribed _ | .dispatched none => trivial
    | .dispatched (some d) => exact hnarrows.inbound ho

namespace Connection

variable {c : Connection}

theorem keeps_sendFailed (c : Connection) (cause : Cause) {why : Fault} (hwhy : p why) :
    Keeps p cause.isRequest c (c.sendFailed cause why) := by
  cases cause with
  | publish => exact .failed hwhy rfl (.of_same rfl rfl)
  | subscribe id => exact .failed hwhy rfl (.of_same rfl rfl)
  | request deadline => exact .failed hwhy rfl (.of_same rfl rfl)

theorem keeps_establish (c : Connection) (goal : Goal) :
    Keeps p goal.isRequest c (c.establish goal) := .waiting rfl rfl (.of_same rfl rfl)

theorem keeps_writeFailed (c : Connection) (s : Sending) (cause : Cause) {why : Fault}
    (hwhy : p why) : Keeps p cause.isRequest c (c.writeFailed s cause why) := by
  unfold writeFailed
  split_ifs
  · exact keeps_establish c (.resend _ cause)
  · exact keeps_sendFailed c cause hwhy

theorem keeps_sendDone (c : Connection) (cause : Cause) :
    Keeps p cause.isRequest c (c.sendDone cause) := by
  cases cause with
  | publish => exact .given rfl trivial rfl (.of_same rfl rfl)
  | subscribe id => exact .given rfl trivial rfl (.of_same rfl rfl)
  | request deadline => exact .waiting rfl rfl (.of_same rfl rfl)

section

variable (hp : ∀ why : Fault, why.Own → p why)
include hp

theorem keeps_write (c : Connection) (s : Sending) (cause : Cause) :
    Keeps p cause.isRequest c (c.write s cause) := by
  unfold write
  split
  · exact .waiting rfl rfl (.of_same rfl rfl)
  · exact keeps_writeFailed c s cause (hp _ .detached)

theorem keeps_sendFrame (c : Connection) (header : Header) (payload : List UInt8) (cause : Cause) :
    Keeps p cause.isRequest c (c.sendFrame header payload cause) := by
  unfold sendFrame
  split_ifs
  · exact keeps_sendFailed c cause (hp _ .closed)
  · exact keeps_sendFailed c cause (hp _ (.invalidArgument _))
  · split
    · next c' bytes hcompose =>
      obtain ⟨rfl, -⟩ := Prod.mk.inj hcompose
      exact (keeps_write hp _ ⟨bytes, 1⟩ cause).of_same rfl (.of_same rfl rfl)
    · next c' why hcompose =>
      obtain ⟨rfl, hwhy⟩ := Prod.mk.inj hcompose
      exact (keeps_sendFailed _ cause (hp _ (Frame.refusal_of_encode hwhy).own)).of_same rfl
        (.of_same rfl rfl)

omit hp in
/-- What is dispatched has been put aside. -/
theorem keeps_dispatchFrom (c : Connection) (deadline : Option Nat) {inbound : List Inbound}
    (hsub : framesIn inbound ⊆ framesIn c.inbound) :
    Keeps p false c (c.dispatchFrom deadline inbound) := by
  induction inbound with
  | nil => exact .waiting rfl rfl ⟨rfl, List.nil_subset _⟩
  | cons event rest ih =>
    cases event with
    | frame f =>
      have hrest : framesIn rest ⊆ framesIn c.inbound :=
        List.Subset.trans (List.subset_cons_self f _) hsub
      have hplain : Outcome.IsPlain c (.dispatched (c.subscriptions.dispatch f).2) := by
        cases hdelivery : (c.subscriptions.dispatch f).2 with
        | none => trivial
        | some d =>
          have hmem : d.frame ∈ framesIn c.inbound := by
            rw [SubscriptionTable.frame_of_dispatch hdelivery]
            exact hsub List.mem_cons_self
          exact hmem
      exact .given rfl hplain rfl ⟨rfl, hrest⟩
    | closed generation why =>
      unfold dispatchFrom
      split_ifs
      · exact .waiting rfl rfl ⟨rfl, hsub⟩
      · exact ih hsub

theorem keeps_dispatchNext (c : Connection) (deadline : Option Nat) :
    Keeps p false c (c.dispatchNext deadline) := by
  unfold dispatchNext
  split_ifs
  · exact .failed (hp _ .closed) rfl (.of_same rfl rfl)
  · exact keeps_establish c (.dispatch deadline)
  · exact keeps_dispatchFrom c deadline (List.Subset.refl _)

theorem keeps_established (c : Connection) (goal : Goal) :
    Keeps p goal.isRequest c (c.established goal) := by
  cases goal with
  | opening => exact .given rfl trivial rfl (.of_same rfl rfl)
  | resend s cause => exact keeps_write hp c s cause
  | dispatch deadline => exact keeps_dispatchNext hp c deadline

theorem keeps_establishFailed (c : Connection) (goal : Goal) {why : Fault} (hwhy : p why) :
    Keeps p goal.isRequest c (c.establishFailed why goal) := by
  cases goal with
  | opening => exact .failed hwhy rfl (.of_same rfl rfl)
  | resend s cause => exact keeps_write hp c s cause
  | dispatch deadline => exact .failed hwhy rfl (.of_same rfl rfl)

theorem keeps_greet (c : Connection) (g : Greeting) (goal : Goal) :
    Keeps p goal.isRequest c (c.greet g goal) := by
  unfold greet
  split
  · exact (keeps_established hp (c.attach g) goal).of_same rfl (.of_same rfl rfl)
  · next id expression rest _ =>
    split
    · next why hwhy =>
      exact keeps_establishFailed hp c goal (hp _ (Control.refusal_of_subscribe hwhy).own)
    · split
      · next c' bytes hcompose =>
        obtain ⟨rfl, -⟩ := Prod.mk.inj hcompose
        exact .waiting rfl rfl (.of_same rfl rfl)
      · next c' why hcompose =>
        obtain ⟨rfl, hwhy⟩ := Prod.mk.inj hcompose
        exact (keeps_establishFailed hp _ goal
          (hp _ (Frame.refusal_of_encode hwhy).own)).of_same rfl (.of_same rfl rfl)

theorem keeps_introduce (c : Connection) (stream : StreamId)
    (localEndpoint remoteEndpoint : String) (goal : Goal) :
    Keeps p goal.isRequest c (c.introduce stream localEndpoint remoteEndpoint goal) := by
  unfold introduce
  split
  · next c' bytes hcompose =>
    obtain ⟨rfl, -⟩ := Prod.mk.inj hcompose
    exact .waiting rfl rfl (.of_same rfl rfl)
  · next c' why hcompose =>
    obtain ⟨rfl, hwhy⟩ := Prod.mk.inj hcompose
    exact (keeps_establishFailed hp _ goal (hp _ (Frame.refusal_of_encode hwhy).own)).of_same rfl
      (.of_same rfl rfl)

theorem keeps_connectFailed (c : Connection) (now attempt : Nat) {io : IoFault} (goal : Goal)
    (hwhy : p (unreachable io)) :
    Keeps p goal.isRequest c (c.connectFailed now attempt io goal) := by
  unfold connectFailed
  split_ifs
  · exact .waiting rfl rfl (.of_same rfl rfl)
  · exact keeps_establishFailed hp c goal hwhy

theorem keeps_respond (c : Connection) (request : Header) (d : Document) :
    Keeps p false c (c.respond request d) := by
  unfold respond
  split
  · exact keeps_sendFrame hp c _ d.encode .publish
  · exact .failed (hp _ (.invalidArgument _)) rfl (.of_same rfl rfl)

theorem keeps_send (c : Connection) (d : Document) : Keeps p false c (c.send d) := by
  unfold send
  split
  · exact keeps_sendFrame hp c _ d.encode .publish
  · exact .failed (hp _ (.invalidArgument _)) rfl (.of_same rfl rfl)

theorem keeps_subscribe (c : Connection) (expression : String) :
    Keeps p false c (c.subscribe expression) := by
  unfold subscribe
  split
  · next why hwhy =>
    exact .failed (hp _ (Topic.refusal_of_validate hwhy).own) rfl (.of_same rfl rfl)
  · split
    · next why hwhy =>
      exact .failed (hp _ (SubscriptionTable.refusal_of_insert hwhy).own) rfl (.of_same rfl rfl)
    · split
      · next why hwhy =>
        exact .failed (hp _ (Control.refusal_of_subscribe hwhy).own) rfl (.of_same rfl rfl)
      · exact (keeps_sendFrame hp _ _ _ (.subscribe _)).of_same rfl (.of_same rfl rfl)

/-- A request takes the slot; nothing else that is begun touches it. -/
theorem keeps_begin (hslot : c.slot = .empty) (now : Nat) (op : Operation) :
    Keeps p op.isRequest { c with slot := if op.isRequest then .waiting else .empty }
      (c.begin now op) := by
  have hsame {next : Connection × Progress} (h : Keeps p false c next) :
      Keeps p false { c with slot := .empty } next := h.of_same hslot (.of_same rfl rfl)
  cases op with
  | publish topic d => exact hsame (keeps_sendFrame hp c _ d.encode .publish)
  | publishBytes topic payload => exact hsame (keeps_sendFrame hp c _ payload .publish)
  | send d => exact hsame (keeps_send hp c d)
  | respond request d => exact hsame (keeps_respond hp c request d)
  | subscribe expression => exact hsame (keeps_subscribe hp c expression)
  | request topic d timeout => exact keeps_sendFrame hp _ _ d.encode (.request (now + timeout))
  | dispatch timeout => exact hsame (keeps_dispatchNext hp c _)
  | close =>
    change Keeps p false { c with slot := .empty } c.close
    unfold close
    split
    · exact .waiting rfl rfl (.of_same rfl rfl)
    · exact .given rfl trivial rfl (.of_same rfl rfl)

/-- A reply is taken by the activity, unless it wakes a request to look into the slot. -/
theorem keeps_resume (c : Connection) (now : Nat) (a : Activity) {r : Reply}
    (hr : ∀ why, r.Brings why → p why) :
    Keeps p a.isRequest c (c.resume now a r) ∨
      ∃ deadline, a = .awaitingResponse deadline ∧ r = .woken := by
  have hsame : Keeps p a.isRequest c (c, .waiting a) := .waiting rfl rfl (.of_same rfl rfl)
  cases a with
  | establishing stage goal =>
    refine .inl ?_
    cases stage with
    | connecting attempt =>
      cases r with
      | connected stream localEndpoint remoteEndpoint => exact keeps_introduce hp c _ _ _ goal
      | refused why => exact keeps_connectFailed hp c now attempt goal (hr _ rfl)
      | _ => exact hsame
    | pausing wake attempt =>
      cases r with
      | rested => exact .waiting rfl rfl (.of_same rfl rfl)
      | _ => exact hsame
    | greeting g =>
      cases r with
      | written => exact keeps_greet hp c g goal
      | writeFailed why => exact keeps_establishFailed hp c goal (hr _ rfl)
      | _ => exact hsame
  | writing stream s cause =>
    refine .inl ?_
    cases r with
    | written => exact keeps_sendDone c cause
    | writeFailed why => exact keeps_writeFailed c s cause (hr _ rfl)
    | _ => exact hsame
  | awaitingResponse deadline =>
    cases r with
    | woken => exact .inr ⟨deadline, rfl, rfl⟩
    | _ => exact .inl hsame
  | awaitingEvent deadline =>
    refine .inl ?_
    cases r with
    | woken => exact keeps_dispatchNext hp c deadline
    | _ => exact hsame
  | shuttingDown stream =>
    refine .inl ?_
    cases r with
    | written => exact .given rfl trivial rfl (.of_same rfl rfl)
    | writeFailed why =>
      change Keeps p false c (if why.kind = .notConnected then _ else _)
      split_ifs
      · exact .given rfl trivial rfl (.of_same rfl rfl)
      · exact .failed (hr _ rfl) rfl (.of_same rfl rfl)
    | _ => exact hsame

theorem keeps_expire (c : Connection) (a : Activity) : Keeps p a.isRequest c (c.expire a) := by
  unfold expire
  split
  · exact .failed (hp _ .timeout) rfl (.of_same rfl rfl)
  · exact .failed (hp _ .timeout) rfl (.of_same rfl rfl)
  · exact .failed (hp _ .timeout) rfl (.of_same rfl rfl)
  · exact .failed (hp _ .timeout) rfl (.of_same rfl rfl)
  · exact .failed (hp _ .timeout) rfl (.of_same rfl rfl)
  · exact .waiting rfl rfl (.of_same rfl rfl)

end

end Connection

end TopicBus
