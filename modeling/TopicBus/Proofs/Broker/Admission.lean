import Mathlib.Algebra.Ring.Int.Defs
import TopicBus.Proofs.Broker.Requests
import TopicBus.Proofs.Document.Fields

/-!
Which messages to the broker are accepted. `IsSubscribe` and `IsHello` say in terms of the payload
when a frame is a proper message of its kind. Such a message, from a client that is registered and
for a route that the table has or has room for, adds the route; any other frame leaves the broker as
it is (`control_effect`).
-/

namespace TopicBus

namespace Control

/-- A proper request for the frames that an expression selects. -/
def IsSubscribe (f : Frame) (expression : String) (id : Int) : Prop :=
  f.topic = "_ROUTER.INBOX.SUBSCRIBE" ∧
    (∃ d, f.document = .ok d ∧ d.find? "topic" = some (.text expression) ∧
      d.find? "route_id" = some (.integer id)) ∧
    (1 ≤ expression.utf8ByteSize ∧ expression.utf8ByteSize ≤ 128) ∧ 0 ≤ id ∧ id ≤ 2 ^ 31 - 1

/-- A proper announcement of an inbox. -/
def IsHello (f : Frame) (inbox : String) : Prop :=
  f.topic = "_ROUTER.INBOX.HELLO" ∧
    (∃ d, f.document = .ok d ∧ d.find? "inbox" = some (.text inbox)) ∧
    1 ≤ inbox.utf8ByteSize ∧ inbox.utf8ByteSize ≤ 128

variable {f : Frame} {d : Document} {expression inbox : String} {q : Request}

theorem subscribe?_eq_some_iff : subscribe? d = some q ↔ ∃ expression id,
    d.find? "topic" = some (.text expression) ∧ d.find? "route_id" = some (.integer id) ∧
      IsExpression expression ∧ (0 ≤ id ∧ id ≤ 2 ^ 31 - 1) ∧
      q = .subscribe expression (UInt32.ofNat id.toNat) := by
  unfold subscribe?
  constructor
  · intro h
    split at h
    · next e i he hi =>
      split_ifs at h with hform
      have hlt : i.toInt < 0x80000000 := i.toInt_lt
      exact ⟨e, i.toInt, Document.getString?_eq_some_iff.mp he,
        Document.getInt32?_eq_some_iff.mp hi, hform.1, ⟨hform.2, by omega⟩,
        (Option.some.inj h).symm⟩
    · nomatch h
  · rintro ⟨e, n, he, hn, hexpression, ⟨hlow, hhigh⟩, rfl⟩
    have hint : (Int32.ofInt n).toInt = n := Int32.toInt_ofInt_of_le (by omega) (by omega)
    rw [← hint] at hn
    simp only [Document.getString?_eq_some_iff.mpr he, Document.getInt32?_eq_some_iff.mpr hn, hint]
    exact if_pos ⟨hexpression, hlow⟩

theorem hello?_eq_some_iff : hello? d = some q ↔ ∃ inbox,
    d.find? "inbox" = some (.text inbox) ∧ IsExpression inbox ∧ q = .hello inbox := by
  unfold hello?
  constructor
  · intro h
    split at h
    · next s hs =>
      split_ifs at h with hform
      exact ⟨s, Document.getString?_eq_some_iff.mp hs, hform, (Option.some.inj h).symm⟩
    · nomatch h
  · rintro ⟨s, hs, hform, rfl⟩
    simp only [Document.getString?_eq_some_iff.mpr hs]
    exact if_pos hform

/-- The topic of a message names its kind. -/
theorem request?_eq_some_iff_document : request? f = some q ↔ ∃ d, f.document = .ok d ∧
    (f.topic = subscribeTopic ∧ subscribe? d = some q ∨
      f.topic = helloTopic ∧ hello? d = some q) := by
  have hne : helloTopic ≠ subscribeTopic := by decide
  unfold request?
  cases f.document with
  | error why => simp
  | ok d =>
    simp only [Except.ok.injEq, exists_eq_left']
    split_ifs with hsubscribe hhello
    · simp [hsubscribe, hne.symm]
    · simp [hhello, hne]
    · simp [hsubscribe, hhello]

/-- The requests are the proper messages of the two kinds. -/
theorem request?_eq_some_iff : request? f = some q ↔
    (∃ expression id, IsSubscribe f expression id ∧
      q = .subscribe expression (UInt32.ofNat id.toNat)) ∨
    ∃ inbox, IsHello f inbox ∧ q = .hello inbox := by
  rw [request?_eq_some_iff_document]
  constructor
  · rintro ⟨d, hd, ⟨htopic, hq⟩ | ⟨htopic, hq⟩⟩
    · obtain ⟨e, n, he, hn, hform, hid, rfl⟩ := subscribe?_eq_some_iff.mp hq
      exact .inl ⟨e, n, ⟨htopic, ⟨d, hd, he, hn⟩, hform, hid⟩, rfl⟩
    · obtain ⟨s, hs, hform, rfl⟩ := hello?_eq_some_iff.mp hq
      exact .inr ⟨s, ⟨htopic, ⟨d, hd, hs⟩, hform⟩, rfl⟩
  · rintro (⟨e, n, ⟨htopic, ⟨d, hd, he, hn⟩, hform, hid⟩, rfl⟩ |
      ⟨s, ⟨htopic, ⟨d, hd, hs⟩, hform⟩, rfl⟩)
    · exact ⟨d, hd, .inl ⟨htopic, subscribe?_eq_some_iff.mpr ⟨e, n, he, hn, hform, hid, rfl⟩⟩⟩
    · exact ⟨d, hd, .inr ⟨htopic, hello?_eq_some_iff.mpr ⟨s, hs, hform, rfl⟩⟩⟩

end Control

namespace Broker

open Control

/-- Whether a client may have a route: it is registered, and the table has the route or has room. -/
def Accepts (b : Broker) (sender : ClientId) (r : Route) : Prop :=
  (b.client? sender).isSome = true ∧ b.table.Admits r

/-- The table with a route at the end, unless the route is in it already. -/
def withRoute (b : Broker) (r : Route) : Broker :=
  if r ∈ b.table.routes then b
  else { b with table := { b.table with routes := b.table.routes ++ [r] } }

/-- The clients with an inbox on record for one of them. -/
def withInbox (b : Broker) (sender : ClientId) (inbox : String) : Broker :=
  { b with clients := b.clients.map fun c =>
      if c.id = sender then { c with inbox := some inbox } else c }

variable {b : Broker} {sender : ClientId} {f : Frame} {q : Request}

theorem grant_subscribe (b : Broker) (sender : ClientId) (expression : String) (id : UInt32) :
    b.grant sender (.subscribe expression id) = b.withRoute (.forward expression id sender) := by
  have hclients : b.grant sender (.subscribe expression id) =
      { b with table := { b.table with
          routes := b.table.routesWith (.forward expression id sender) } } :=
    modifyClient_id _ sender
  rw [hclients, withRoute, RouteTable.routesWith]
  split <;> rfl

theorem grant_hello (b : Broker) (sender : ClientId) (inbox : String) :
    b.grant sender (.hello inbox) =
      (b.withRoute (.forward inbox 0 sender)).withInbox sender inbox := by
  have hroute : (Request.hello inbox).route sender = .forward inbox 0 sender := rfl
  rw [grant, withRoute, RouteTable.routesWith, hroute]
  split <;> rfl

theorem onControl_of_accepts (hq : request? f = some q) (h : b.Accepts sender (q.route sender)) :
    (b.onControl sender f).1 = b.grant sender q := by
  rw [onControl_eq, hq]
  exact if_pos h

theorem onControl_of_refused (h : ∀ q, request? f = some q → ¬b.Accepts sender (q.route sender)) :
    (b.onControl sender f).1 = b := by
  rw [onControl_eq]
  split
  · next q hq => exact if_neg (h q hq)
  · rfl

theorem answerControl_of_malformed (b : Broker) (sender : ClientId)
    (hkind : f.topic = subscribeTopic ∨ f.topic = helloTopic) (hq : request? f = none) :
    ∃ why, b.answerControl sender f = .error why := by
  have hne : helloTopic ≠ subscribeTopic := by decide
  unfold request? at hq
  unfold answerControl
  cases hd : f.document with
  | error why =>
    refine ⟨why, ?_⟩
    rcases hkind with hkind | hkind
    · simp only [hkind, ↓reduceIte, onSubscribe, hd, bind, Except.bind]
    · simp only [hkind, hne, ↓reduceIte, onHello, hd, bind, Except.bind]
  | ok d =>
    rcases hkind with hkind | hkind
    · simp only [hd, hkind, ↓reduceIte] at hq ⊢
      exact onSubscribe_of_no_request b sender hd hq
    · simp only [hd, hkind, hne, ↓reduceIte] at hq ⊢
      exact onHello_of_no_request b sender hd hq

/-- A message is done without a fault if it is a proper one and may have its route. -/
theorem answerControl_eq_ok_iff (hkind : f.topic = subscribeTopic ∨ f.topic = helloTopic) :
    (∃ done, b.answerControl sender f = .ok done) ↔
      ∃ q, request? f = some q ∧ b.Accepts sender (q.route sender) := by
  constructor
  · rintro ⟨done, hdone⟩
    cases hq : request? f with
    | none =>
      obtain ⟨why, hwhy⟩ := answerControl_of_malformed b sender hkind hq
      nomatch hwhy.symm.trans hdone
    | some q =>
      refine ⟨q, rfl, ?_⟩
      cases hc : b.client? sender with
      | none => nomatch (answerControl_of_unregistered hq hc).symm.trans hdone
      | some c =>
        have hsome : (b.client? sender).isSome = true := by rw [hc]; rfl
        refine ⟨hsome, not_not.mp fun ht => ?_⟩
        nomatch (answerControl_of_not_admits hq hsome ht).symm.trans hdone
  · rintro ⟨q, hq, hc, ht⟩
    have hanswer := answerControl_of_admits hq hc ht
    cases hdone : b.answerControl sender f with
    | ok done => exact ⟨done, rfl⟩
    | error why =>
      rw [hdone] at hanswer
      nomatch hanswer

/-- What a frame does as a message to the broker, whatever its payload. A proper message that is
accepted adds its route at the end of the table, unless the table has it, and a HELLO names the
inbox as well; nothing else is changed. A frame that is no such message, or that is not accepted,
changes nothing at all. Accepted are the proper messages of registered clients, as long as the table
has the route or has room for it; all others of the two kinds are faults. -/
theorem control_effect (b : Broker) (sender : ClientId) (f : Frame) :
    let b' := (b.onControl sender f).1
    (∀ expression id, IsSubscribe f expression id →
      let r := Route.forward expression (UInt32.ofNat id.toNat) sender
      b.Accepts sender r → b' = b.withRoute r) ∧
    (∀ inbox, IsHello f inbox →
      let r := Route.forward inbox 0 sender
      b.Accepts sender r → b' = (b.withRoute r).withInbox sender inbox) ∧
    let accepted :=
      (∃ expression id, IsSubscribe f expression id ∧
        b.Accepts sender (.forward expression (UInt32.ofNat id.toNat) sender)) ∨
      ∃ inbox, IsHello f inbox ∧ b.Accepts sender (.forward inbox 0 sender)
    (¬accepted → b' = b) ∧
    (f.topic = "_ROUTER.INBOX.SUBSCRIBE" ∨ f.topic = "_ROUTER.INBOX.HELLO" →
      ((∃ done, b.answerControl sender f = .ok done) ↔ accepted)) := by
  intro b'
  have haccepted : (∃ q, request? f = some q ∧ b.Accepts sender (q.route sender)) ↔
      (∃ expression id, IsSubscribe f expression id ∧
        b.Accepts sender (.forward expression (UInt32.ofNat id.toNat) sender)) ∨
      ∃ inbox, IsHello f inbox ∧ b.Accepts sender (.forward inbox 0 sender) := by
    simp only [request?_eq_some_iff]
    constructor
    · rintro ⟨q, ⟨e, n, hf, rfl⟩ | ⟨s, hf, rfl⟩, haccepts⟩
      · exact .inl ⟨e, n, hf, haccepts⟩
      · exact .inr ⟨s, hf, haccepts⟩
    · rintro (⟨e, n, hf, haccepts⟩ | ⟨s, hf, haccepts⟩)
      · exact ⟨_, .inl ⟨e, n, hf, rfl⟩, haccepts⟩
      · exact ⟨_, .inr ⟨s, hf, rfl⟩, haccepts⟩
  refine ⟨?_, ?_, ?_, fun hkind => (answerControl_eq_ok_iff hkind).trans haccepted⟩
  · intro e n hf r haccepts
    have hq : request? f = some (.subscribe e (UInt32.ofNat n.toNat)) :=
      request?_eq_some_iff.mpr (.inl ⟨e, n, hf, rfl⟩)
    exact (onControl_of_accepts hq haccepts).trans (grant_subscribe b sender e _)
  · intro s hf r haccepts
    have hq : request? f = some (.hello s) := request?_eq_some_iff.mpr (.inr ⟨s, hf, rfl⟩)
    exact (onControl_of_accepts hq haccepts).trans (grant_hello b sender s)
  · intro hnone
    exact onControl_of_refused fun q hq haccepts => hnone (haccepted.mp ⟨q, hq, haccepts⟩)

end Broker

end TopicBus
