import TopicBus.Proofs.Broker.Clients
import TopicBus.Proofs.Broker.Table

/-!
Messages to the broker. `request?` says on its own terms which frames are such messages: the topic
names the kind, the payload is a document with the fields of that kind, the expression has 1 to 128
bytes and the subscription is not negative. `onControl_eq` says what the broker makes of any frame:
it admits the request if there is one, and else does nothing.
-/

namespace TopicBus

namespace Control

/-- What a client may ask of the broker. -/
inductive Request where
  | subscribe (expression : String) (subscription : UInt32)
  | hello (inbox : String)
  deriving DecidableEq, Repr

namespace Request

def expression : Request → String
  | .subscribe expression _ => expression
  | .hello inbox => inbox

def subscription : Request → UInt32
  | .subscribe _ subscription => subscription
  | .hello _ => 0

/-- The route that the request is for. -/
def route (q : Request) (owner : ClientId) : Route :=
  .forward q.expression q.subscription owner

/-- What the request leaves in the record of its client. -/
def adopt : Request → Client → Client
  | .subscribe _ _, c => c
  | .hello inbox, c => { c with inbox := some inbox }

end Request

/-- An expression of 1 to 128 bytes. -/
def IsExpression (s : String) : Prop := 1 ≤ s.utf8ByteSize ∧ s.utf8ByteSize ≤ 128

instance (s : String) : Decidable (IsExpression s) :=
  inferInstanceAs (Decidable (1 ≤ s.utf8ByteSize ∧ s.utf8ByteSize ≤ 128))

def subscribe? (d : Document) : Option Request :=
  match d.getString? "topic", d.getInt32? "route_id" with
  | some expression, some id =>
    if IsExpression expression ∧ 0 ≤ id.toInt then
      some (.subscribe expression (UInt32.ofNat id.toInt.toNat))
    else none
  | _, _ => none

def hello? (d : Document) : Option Request :=
  match d.getString? "inbox" with
  | some inbox => if IsExpression inbox then some (.hello inbox) else none
  | none => none

/-- The request that a frame carries. -/
def request? (f : Frame) : Option Request :=
  match f.document with
  | .ok d =>
    if f.topic = subscribeTopic then subscribe? d
    else if f.topic = helloTopic then hello? d
    else none
  | .error _ => none

theorem validate_of_isExpression {s : String} (h : IsExpression s) (what : String) :
    Topic.validate what s = .ok () := Topic.validate_eq_ok_iff.mpr h

theorem validate_of_not_isExpression {s : String} (h : ¬IsExpression s) (what : String) :
    ∃ why, Topic.validate what s = .error why := by
  cases hv : Topic.validate what s with
  | ok _ => exact absurd (Topic.validate_eq_ok_iff.mp hv) h
  | error why => exact ⟨why, rfl⟩

theorem isExpression_of_request? {f : Frame} {q : Request} (h : request? f = some q) :
    IsExpression q.expression ∧ q.subscription.toNat ≤ 0x7fffffff := by
  unfold request? subscribe? hello? at h
  split at h
  · split_ifs at h
    · split at h
      · next id _ _ =>
        split_ifs at h with hq
        injection h with h
        subst h
        have hid : id.toInt < 0x80000000 := id.toInt_lt
        refine ⟨hq.1, ?_⟩
        simp only [Request.subscription, UInt32.toNat_ofNat']
        omega
      · exact nomatch h
    · split at h
      · split_ifs at h with hq
        injection h with h
        subst h
        exact ⟨hq, Nat.zero_le _⟩
      · exact nomatch h
  · exact nomatch h

end Control

namespace RouteTable

/-- Whether a route is in the table or may still be added. -/
def Admits (t : RouteTable) (r : Route) : Prop :=
  r ∈ t.routes ∨ t.routes.length < t.capacity

instance (t : RouteTable) (r : Route) : Decidable (t.Admits r) :=
  inferInstanceAs (Decidable (r ∈ t.routes ∨ t.routes.length < t.capacity))

/-- The routes of the table once `r` has been added. -/
def routesWith (t : RouteTable) (r : Route) : List Route :=
  if r ∈ t.routes then t.routes else t.routes ++ [r]

theorem add_of_admits {t : RouteTable} {r : Route} (h : t.Admits r) :
    ∃ isNew, t.add r = .ok ({ t with routes := t.routesWith r }, isNew) := by
  by_cases hmem : r ∈ t.routes
  · exact ⟨false, by rw [add_of_mem hmem, routesWith, if_pos hmem]⟩
  · exact ⟨true, by rw [add_of_room hmem (h.resolve_left hmem), routesWith, if_neg hmem]⟩

theorem add_of_not_admits {t : RouteTable} {r : Route} (h : ¬t.Admits r) :
    t.add r = .error (.exhausted (.routes t.capacity)) := by
  obtain ⟨hmem, hfull⟩ := not_or.mp h
  exact add_of_full hmem (Nat.le_of_not_lt hfull)

end RouteTable

namespace Broker

open Control

/-- The broker that has granted a request: the route is there, and the client record tells of it. -/
def grant (b : Broker) (sender : ClientId) (q : Request) : Broker :=
  { b with table := { b.table with routes := b.table.routesWith (q.route sender) } }.modifyClient
    sender q.adopt

section AddRoute

variable {b : Broker} {owner : ClientId} {expression : String} {subscription : UInt32}

theorem addRoute_of_admits (he : IsExpression expression) (hc : (b.client? owner).isSome = true)
    (ht : b.table.Admits (.forward expression subscription owner)) :
    (b.addRoute owner expression subscription).map Prod.fst = .ok { b with table :=
      { b.table with routes := b.table.routesWith (.forward expression subscription owner) } } := by
  obtain ⟨c, hc⟩ := Option.isSome_iff_exists.mp hc
  obtain ⟨isNew, hadd⟩ := RouteTable.add_of_admits ht
  simp only [addRoute, validate_of_isExpression he, hc, hadd, bind, Except.bind, pure, Except.pure,
    Except.map]

theorem addRoute_of_not_admits (he : IsExpression expression)
    (hc : (b.client? owner).isSome = true)
    (ht : ¬b.table.Admits (.forward expression subscription owner)) :
    b.addRoute owner expression subscription = .error (.exhausted (.routes b.table.capacity)) := by
  obtain ⟨c, hc⟩ := Option.isSome_iff_exists.mp hc
  simp only [addRoute, validate_of_isExpression he, hc, RouteTable.add_of_not_admits ht, bind,
    Except.bind]

theorem addRoute_of_unregistered (he : IsExpression expression) (hc : b.client? owner = none) :
    b.addRoute owner expression subscription =
      .error (.invalidArgument (.unknownClient owner)) := by
  simp only [addRoute, validate_of_isExpression he, hc, bind, Except.bind]

theorem addRoute_of_not_isExpression (b : Broker) (owner : ClientId) (subscription : UInt32)
    (he : ¬IsExpression expression) :
    ∃ why, b.addRoute owner expression subscription = .error why := by
  obtain ⟨why, hwhy⟩ := validate_of_not_isExpression he "expression"
  exact ⟨why, by simp only [addRoute, hwhy, bind, Except.bind]⟩

end AddRoute

/-! ## The two kinds of message -/

section Handlers

variable {b : Broker} {sender : ClientId} {f : Frame} {d : Document} {q : Request}

theorem onSubscribe_of_request (hd : f.document = .ok d) (hq : subscribe? d = some q) :
    (b.onSubscribe sender f).map Prod.fst =
      ((b.addRoute sender q.expression q.subscription).map Prod.fst).map
        fun b' => b'.modifyClient sender q.adopt := by
  unfold subscribe? at hq
  split at hq
  · next e id he hid =>
    split_ifs at hq with hform
    injection hq with hq
    subst hq
    have hneg : ¬id.toInt < 0 := Int.not_lt.mpr hform.2
    simp only [onSubscribe, readSubscribe, requiredString, hd, he, hid, hneg, bind, Except.bind,
      pure, Except.pure, ↓reduceIte]
    change (b.addRoute sender e (UInt32.ofNat id.toInt.toNat)).map Prod.fst =
      ((b.addRoute sender e (UInt32.ofNat id.toInt.toNat)).map Prod.fst).map
        fun b' => b'.modifyClient sender fun c => c
    cases b.addRoute sender e (UInt32.ofNat id.toInt.toNat) with
    | error why => rfl
    | ok x => exact congrArg Except.ok (modifyClient_id x.1 sender).symm
  · exact nomatch hq

theorem onSubscribe_of_no_request (b : Broker) (sender : ClientId)
    (hd : f.document = .ok d) (hq : subscribe? d = none) :
    ∃ why, b.onSubscribe sender f = .error why := by
  unfold subscribe? at hq
  simp only [onSubscribe, readSubscribe, requiredString, hd, bind, Except.bind]
  cases he : d.getString? "topic" with
  | none => exact ⟨_, rfl⟩
  | some e =>
    cases hid : d.getInt32? "route_id" with
    | none => exact ⟨_, rfl⟩
    | some id =>
      simp only [he, hid] at hq
      split_ifs at hq with hform
      by_cases hneg : id.toInt < 0
      · simp only [hneg, ↓reduceIte]
        exact ⟨_, rfl⟩
      · have hexpr : ¬IsExpression e := fun h => hform ⟨h, Int.not_lt.mp hneg⟩
        simp only [hneg, ↓reduceIte]
        exact addRoute_of_not_isExpression b sender _ hexpr

theorem onHello_of_request (hd : f.document = .ok d) (hq : hello? d = some q) :
    (b.onHello sender f).map Prod.fst =
      ((b.addRoute sender q.expression q.subscription).map Prod.fst).map
        fun b' => b'.modifyClient sender q.adopt := by
  unfold hello? at hq
  split at hq
  · next e he =>
    split_ifs at hq with hform
    injection hq with hq
    subst hq
    simp only [onHello, readHello, requiredString, hd, he, bind, Except.bind]
    change _ = ((b.addRoute sender e inboxSubscription).map Prod.fst).map _
    cases b.addRoute sender e inboxSubscription with
    | error why => rfl
    | ok x => rfl
  · exact nomatch hq

theorem onHello_of_no_request (b : Broker) (sender : ClientId)
    (hd : f.document = .ok d) (hq : hello? d = none) :
    ∃ why, b.onHello sender f = .error why := by
  unfold hello? at hq
  simp only [onHello, readHello, requiredString, hd, bind, Except.bind]
  cases he : d.getString? "inbox" with
  | none => exact ⟨_, rfl⟩
  | some e =>
    simp only [he] at hq
    split_ifs at hq with hform
    obtain ⟨why, hwhy⟩ := addRoute_of_not_isExpression b sender inboxSubscription hform
    exact ⟨why, by simp only [hwhy]⟩

end Handlers

/-! ## Any frame -/

variable {b : Broker} {sender : ClientId} {f : Frame}

/-- A request comes down to one route to add. -/
theorem answerControl_of_request {q : Request} (hq : request? f = some q) :
    (b.answerControl sender f).map Prod.fst =
      ((b.addRoute sender q.expression q.subscription).map Prod.fst).map
        fun b' => b'.modifyClient sender q.adopt := by
  unfold request? at hq
  unfold answerControl
  split at hq
  · next d hd =>
    split_ifs at hq ⊢ with hsub hhello
    · exact onSubscribe_of_request hd hq
    · exact onHello_of_request hd hq
  · exact nomatch hq

/-- A frame that carries no request changes nothing. -/
theorem answerControl_of_no_request (hq : request? f = none) {b' : Broker} {log : List Event}
    (h : b.answerControl sender f = .ok (b', log)) : b' = b := by
  unfold request? at hq
  unfold answerControl at h
  cases hd : f.document with
  | error why =>
    simp only [onSubscribe, onHello, hd, bind, Except.bind] at h
    split_ifs at h
    injection h with h
    exact (congrArg Prod.fst h).symm
  | ok d =>
    simp only [hd] at hq
    split_ifs at hq h with hsub hhello
    · obtain ⟨why, hwhy⟩ := onSubscribe_of_no_request b sender hd hq
      exact nomatch hwhy.symm.trans h
    · obtain ⟨why, hwhy⟩ := onHello_of_no_request b sender hd hq
      exact nomatch hwhy.symm.trans h
    · injection h with h
      exact (congrArg Prod.fst h).symm

theorem answerControl_of_admits {q : Request} (hq : request? f = some q)
    (hc : (b.client? sender).isSome = true) (ht : b.table.Admits (q.route sender)) :
    (b.answerControl sender f).map Prod.fst = .ok (b.grant sender q) := by
  rw [answerControl_of_request hq, addRoute_of_admits (isExpression_of_request? hq).1 hc ht]
  rfl

private theorem eq_error_of_map {x : Except Fault (Broker × List Event)} {why : Fault}
    (h : x.map Prod.fst = .error why) : x = .error why := by
  cases x with
  | error e => injection h with he; rw [he]
  | ok y => exact nomatch h

theorem answerControl_of_not_admits {q : Request} (hq : request? f = some q)
    (hc : (b.client? sender).isSome = true) (ht : ¬b.table.Admits (q.route sender)) :
    b.answerControl sender f = .error (.exhausted (.routes b.table.capacity)) := by
  apply eq_error_of_map
  rw [answerControl_of_request hq, addRoute_of_not_admits (isExpression_of_request? hq).1 hc ht]
  rfl

theorem answerControl_of_unregistered {q : Request} (hq : request? f = some q)
    (hc : b.client? sender = none) :
    b.answerControl sender f = .error (.invalidArgument (.unknownClient sender)) := by
  apply eq_error_of_map
  rw [answerControl_of_request hq, addRoute_of_unregistered (isExpression_of_request? hq).1 hc]
  rfl

/-- What a frame does as a message to the broker: the request in it is done if its sender is
registered and the table has room for the route. -/
theorem onControl_eq (b : Broker) (sender : ClientId) (f : Frame) :
    (b.onControl sender f).1 = match request? f with
      | some q =>
        if (b.client? sender).isSome = true ∧ b.table.Admits (q.route sender) then b.grant sender q
        else b
      | none => b := by
  unfold onControl
  cases hq : request? f with
  | none =>
    cases hanswer : b.answerControl sender f with
    | error why => rfl
    | ok x => exact answerControl_of_no_request hq hanswer
  | some q =>
    cases hc : b.client? sender with
    | none => rw [answerControl_of_unregistered hq hc]; rfl
    | some c =>
      have hsome : (b.client? sender).isSome = true := by rw [hc]; rfl
      by_cases ht : b.table.Admits (q.route sender)
      · have hanswer := answerControl_of_admits hq hsome ht
        simp only [ht, Option.isSome_some, and_self, ↓reduceIte]
        cases hx : b.answerControl sender f with
        | error why => rw [hx] at hanswer; exact nomatch hanswer
        | ok x => rw [hx] at hanswer; injection hanswer
      · simp only [answerControl_of_not_admits hq hsome ht, ht, and_false, ↓reduceIte]

/-! ## What a message leaves behind -/

/-- The route that a frame adds as a message to the broker. -/
def granted (b : Broker) (sender : ClientId) (f : Frame) : List Route :=
  match request? f with
  | some q =>
    if (b.client? sender).isSome = true ∧ q.route sender ∉ b.table.routes ∧
        b.table.routes.length < b.table.capacity then [q.route sender]
    else []
  | none => []

theorem granted_mem {r : Route} (h : r ∈ b.granted sender f) :
    ∃ q, request? f = some q ∧ r = q.route sender ∧ (b.client? sender).isSome = true ∧
      r ∉ b.table.routes ∧ b.table.routes.length < b.table.capacity := by
  unfold granted at h
  split at h
  · next q hq =>
    split_ifs at h with hgrant
    · obtain rfl := List.mem_singleton.mp h
      exact ⟨q, hq, rfl, hgrant⟩
    · exact nomatch h
  · exact nomatch h

theorem granted_length_le (b : Broker) (sender : ClientId) (f : Frame) :
    (b.granted sender f).length ≤ 1 := by
  unfold granted
  split
  · split
    · exact Nat.le_refl 1
    · exact Nat.zero_le 1
  · exact Nat.zero_le 1

/-- Everything of a broker but its table and what its clients call their inbox. -/
theorem onControl_keeps (b : Broker) (sender : ClientId) (f : Frame) :
    (b.onControl sender f).1.settings = b.settings ∧
      (b.onControl sender f).1.departed = b.departed ∧
      (b.onControl sender f).1.nextId = b.nextId ∧
      ∃ inbox : Client → Option String,
        (b.onControl sender f).1.clients = b.clients.map fun c => { c with inbox := inbox c } := by
  have hself : b.clients = b.clients.map fun c => { c with inbox := c.inbox } :=
    (List.map_id' b.clients).symm
  rw [onControl_eq]
  cases request? f with
  | none => exact ⟨rfl, rfl, rfl, Client.inbox, hself⟩
  | some q =>
    simp only
    split
    · refine ⟨rfl, rfl, rfl, fun c => if c.id = sender then (q.adopt c).inbox else c.inbox, ?_⟩
      refine List.map_congr_left fun c _ => ?_
      cases q <;> simp only [Request.adopt] <;> split <;> rfl
    · exact ⟨rfl, rfl, rfl, Client.inbox, hself⟩

theorem onControl_client? (sender : ClientId) (f : Frame) {o : ClientId} {c : Client}
    (hc : b.client? o = some c) :
    ∃ inbox, (b.onControl sender f).1.client? o = some { c with inbox := inbox } := by
  obtain ⟨-, -, -, inbox, hclients⟩ := onControl_keeps b sender f
  exact ⟨inbox c, by rw [client?_map hclients (fun _ => rfl), hc, Option.map_some]⟩

theorem onControl_table (b : Broker) (sender : ClientId) (f : Frame) :
    (b.onControl sender f).1.table =
      { b.table with routes := b.table.routes ++ b.granted sender f } := by
  rw [onControl_eq]
  unfold granted
  cases request? f with
  | none => simp only [List.append_nil]
  | some q =>
    simp only
    by_cases hc : (b.client? sender).isSome = true
    · by_cases hmem : q.route sender ∈ b.table.routes
      · have ht : b.table.Admits (q.route sender) := .inl hmem
        simp only [hc, ht, hmem, and_self, not_true_eq_false, false_and, and_false, ↓reduceIte,
          List.append_nil]
        simp only [grant, modifyClient, RouteTable.routesWith, hmem, ↓reduceIte]
      · by_cases hroom : b.table.routes.length < b.table.capacity
        · have ht : b.table.Admits (q.route sender) := .inr hroom
          simp only [hc, ht, hmem, hroom, and_self, not_false_eq_true, ↓reduceIte]
          simp only [grant, modifyClient, RouteTable.routesWith, hmem, ↓reduceIte]
        · have ht : ¬b.table.Admits (q.route sender) := fun h => h.elim hmem hroom
          simp only [ht, hroom, and_false, ↓reduceIte, List.append_nil]
    · simp only [hc, false_and, ↓reduceIte, List.append_nil, Bool.false_eq_true]

/-- A message does not look at any outbox. -/
theorem onControl_withOutboxes (b : Broker) (g : ClientId → Outbox → Outbox) (sender : ClientId)
    (f : Frame) :
    ((b.withOutboxes g).onControl sender f).1 = (b.onControl sender f).1.withOutboxes g := by
  have hsome : ((b.withOutboxes g).client? sender).isSome = (b.client? sender).isSome := by
    rw [client?_withOutboxes, Option.isSome_map]
  have hgrant (q : Request) :
      (b.withOutboxes g).grant sender q = (b.grant sender q).withOutboxes g := by
    simp only [grant, modifyClient, withOutboxes, List.map_map]
    congr 1
    refine List.map_congr_left fun c _ => ?_
    cases q <;> simp only [Function.comp, Request.adopt] <;> split <;> rfl
  rw [onControl_eq, onControl_eq, hsome]
  cases request? f with
  | none => rfl
  | some q =>
    change (if _ ∧ b.table.Admits (q.route sender) then _ else _) = _
    simp only [hgrant]
    split <;> rfl

end Broker

end TopicBus
