import TopicBus.Proofs.Broker.Requests

/-!
One frame on its way through a table. Seen from one client, following a list of routes is offering
its outbox one copy for each route that leads to it (`foldl_follow_client`); the broker's own routes
come first, so the rest of the table is followed by a broker that has already handled the frame as a
message (`deliver_eq`).
-/

namespace TopicBus

/-- The copy of a frame for a subscription. -/
def Frame.tagged (f : Frame) (subscription : UInt32) : Frame :=
  { f with header := { f.header with control := subscription } }

/-- The subscriptions that lead to a client, in the order of the routes. -/
def Route.subscriptionsOf (o : ClientId) (rs : List Route) : List UInt32 :=
  (rs.filter fun r => r.action = .forward ∧ r.owner = some o).map Route.subscription

namespace Broker

open Control Route

variable {b : Broker} {sender sender' owner o : ClientId} {f : Frame} {i : UInt32} {c : Client}

/-! ## One copy -/

theorem forward_of_room (hc : b.client? owner = some c) (h : 0 < c.outbox.room) :
    b.forward owner i f = (b.withOutboxes fun id x => if id = owner then
      { c.outbox with frames := c.outbox.frames ++ [f.tagged i] } else x, true, []) := by
  have hpush := Outbox.push_of_room h (f.tagged i)
  unfold Frame.tagged at hpush
  simp only [forward, hc, hpush, modifyClient_outbox]
  rfl

theorem forward_of_no_room (hc : b.client? owner = some c) (h : c.outbox.room = 0) :
    ∃ log, b.forward owner i f = (b, false, log) := by
  obtain ⟨why, hpush⟩ := Outbox.push_of_no_room h (f.tagged i)
  unfold Frame.tagged at hpush
  cases why with
  | full => exact ⟨[.outboxFull c.name], by simp only [forward, hc, hpush]⟩
  | closed => exact ⟨[], by simp only [forward, hc, hpush]⟩

/-- A copy changes the outbox of its owner at most. -/
theorem forward_withOutboxes (b : Broker) (owner : ClientId) (i : UInt32) (f : Frame) :
    ∃ g, (b.forward owner i f).1 = b.withOutboxes g ∧ ∀ id, id ≠ owner → ∀ x, g id x = x := by
  cases hc : b.client? owner with
  | none => exact ⟨fun _ x => x, by simp only [forward, hc, withOutboxes_self], fun _ _ _ => rfl⟩
  | some c =>
    cases hroom : c.outbox.room with
    | zero =>
      obtain ⟨log, hforward⟩ := forward_of_no_room (i := i) (f := f) hc hroom
      exact ⟨fun _ x => x, by rw [hforward, withOutboxes_self], fun _ _ _ => rfl⟩
    | succ n =>
      rw [forward_of_room hc (by omega)]
      exact ⟨_, rfl, fun id hid x => if_neg hid⟩

/-! ## One route -/

open Routing

variable {s : Routing} {r : Route}

theorem follow_of_refused (hr : r.action = .forward) (ho : r.owner = some owner)
    (h : owner ∈ s.refused) : follow sender f s r = s := by
  simp only [follow, hr, ho, h, ↓reduceIte]

theorem follow_of_taking (sender : ClientId) (f : Frame) (hr : r.action = .forward)
    (ho : r.owner = some owner) (h : owner ∉ s.refused) :
    (follow sender f s r).broker = (s.broker.forward owner r.subscription f).1 ∧
      (follow sender f s r).refused = if (s.broker.forward owner r.subscription f).2.1
        then s.refused else s.refused ++ [owner] := by
  simp only [follow, hr, ho, h, ↓reduceIte]
  exact ⟨trivial, trivial⟩

/-- A route that forwards reaches the outbox of its owner at most, and only while nothing was
refused there. -/
theorem follow_withOutboxes (sender : ClientId) (f : Frame) (s : Routing)
    (hr : r.action = .forward) :
    ∃ g, (follow sender f s r).broker = s.broker.withOutboxes g ∧
      ∀ id, (r.owner ≠ some id ∨ id ∈ s.refused) → ∀ x, g id x = x := by
  cases ho : r.owner with
  | none =>
    refine ⟨fun _ x => x, ?_, fun _ _ _ => rfl⟩
    simp only [follow, hr, ho, withOutboxes_self]
  | some owner =>
    by_cases h : owner ∈ s.refused
    · refine ⟨fun _ x => x, ?_, fun _ _ _ => rfl⟩
      rw [follow_of_refused hr ho h, withOutboxes_self]
    · obtain ⟨g, hg, hother⟩ := forward_withOutboxes s.broker owner r.subscription f
      refine ⟨g, (follow_of_taking sender f hr ho h).1.trans hg, ?_⟩
      intro id hid
      apply hother
      rintro rfl
      exact hid.elim (fun hne => hne rfl) h

theorem follow_refused_other (hr : r.action = .forward) (ho : r.owner ≠ some o) :
    o ∈ (follow sender f s r).refused ↔ o ∈ s.refused := by
  cases howner : r.owner with
  | none => simp only [follow, hr, howner]
  | some owner =>
    have hne : o ≠ owner := by
      rintro rfl
      exact ho howner
    by_cases h : owner ∈ s.refused
    · rw [follow_of_refused hr howner h]
    · rw [(follow_of_taking sender f hr howner h).2]
      split
      · exact Iff.rfl
      · simp only [List.mem_append, List.mem_singleton, hne, or_false]

/-- A route is nothing to a client if it leads elsewhere or the client has refused a copy. -/
theorem follow_client_other (sender : ClientId) (f : Frame) (hr : r.action = .forward)
    (ho : r.owner ≠ some o ∨ o ∈ s.refused) :
    (follow sender f s r).broker.client? o = s.broker.client? o ∧
      (o ∈ (follow sender f s r).refused ↔ o ∈ s.refused) := by
  constructor
  · obtain ⟨g, hg, hother⟩ := follow_withOutboxes sender f s hr
    rw [hg, client?_withOutboxes]
    cases hc : s.broker.client? o with
    | none => rfl
    | some c =>
      have hid := client?_id hc
      rw [Option.map_some, hother c.id (by rw [hid]; exact ho)]
  · by_cases howner : r.owner = some o
    · have hmem : o ∈ s.refused := ho.resolve_left (not_not_intro howner)
      rw [follow_of_refused hr howner hmem]
    · exact follow_refused_other hr howner

/-- A route that leads to the client offers it one copy. -/
theorem follow_client_self (sender : ClientId) (f : Frame) (hr : r.action = .forward)
    (ho : r.owner = some o) (hc : s.broker.client? o = some c) (h : o ∉ s.refused) :
    (follow sender f s r).broker.client? o =
        some { c with outbox := c.outbox.offer [f.tagged r.subscription] } ∧
      (o ∈ (follow sender f s r).refused ↔ c.outbox.room = 0) := by
  obtain ⟨hbroker, hrefused⟩ := follow_of_taking sender f hr ho h
  rw [hbroker, hrefused]
  cases hroom : c.outbox.room with
  | zero =>
    obtain ⟨log, hforward⟩ := forward_of_no_room (i := r.subscription) (f := f) hc hroom
    rw [hforward, Outbox.offer_of_no_room hroom]
    exact ⟨hc, by simp⟩
  | succ n =>
    rw [forward_of_room hc (by omega)]
    have hid := client?_id hc
    refine ⟨?_, by simp [h]⟩
    rw [client?_withOutboxes, hc, Option.map_some, hid, if_pos rfl]
    simp only [Outbox.offer, hroom, List.take_succ_cons, List.take_nil]

/-! ## A list of routes -/

theorem subscriptionsOf_cons_self (hr : r.action = .forward) (ho : r.owner = some o)
    (rs : List Route) : subscriptionsOf o (r :: rs) = r.subscription :: subscriptionsOf o rs := by
  simp [subscriptionsOf, hr, ho]

theorem subscriptionsOf_cons_other (ho : r.owner ≠ some o) (rs : List Route) :
    subscriptionsOf o (r :: rs) = subscriptionsOf o rs := by
  simp [subscriptionsOf, ho]

theorem foldl_follow_refused (sender : ClientId) (f : Frame) {rs : List Route}
    (hrs : ∀ r ∈ rs, r.action = .forward) :
    ∀ {s : Routing}, o ∈ s.refused →
      (rs.foldl (follow sender f) s).broker.client? o = s.broker.client? o ∧
        o ∈ (rs.foldl (follow sender f) s).refused := by
  induction rs with
  | nil => exact fun ho => ⟨rfl, ho⟩
  | cons r rs ih =>
    intro s ho
    have hr := hrs r (List.mem_cons_self ..)
    obtain ⟨hclient, hrefused⟩ := follow_client_other sender f hr (Or.inr ho)
    obtain ⟨hclients, hend⟩ :=
      ih (fun r' hr' => hrs r' (List.mem_cons_of_mem _ hr')) (hrefused.mpr ho)
    exact ⟨hclients.trans hclient, hend⟩

/-- What a list of routes does to a client: its outbox is offered one copy for each route that leads
to it, and the client counts as refusing if they do not all fit. -/
theorem foldl_follow_client (sender : ClientId) (f : Frame) {rs : List Route}
    (hrs : ∀ r ∈ rs, r.action = .forward) :
    ∀ {s : Routing} {c : Client}, s.broker.client? o = some c → o ∉ s.refused →
      (rs.foldl (follow sender f) s).broker.client? o =
          some { c with outbox := c.outbox.offer ((subscriptionsOf o rs).map f.tagged) } ∧
        (o ∈ (rs.foldl (follow sender f) s).refused ↔
          c.outbox.room < (subscriptionsOf o rs).length) := by
  induction rs with
  | nil =>
    intro s c hc ho
    simp only [subscriptionsOf, List.filter_nil, List.map_nil, Outbox.offer_nil, List.foldl_nil,
      List.length_nil, Nat.not_lt_zero, iff_false]
    exact ⟨hc, ho⟩
  | cons r rs ih =>
    intro s c hc ho
    have hr := hrs r (List.mem_cons_self ..)
    have hrest : ∀ r' ∈ rs, r'.action = .forward :=
      fun r' hr' => hrs r' (List.mem_cons_of_mem _ hr')
    rw [List.foldl_cons]
    by_cases howner : r.owner = some o
    · obtain ⟨hclient, hrefused⟩ := follow_client_self sender f hr howner hc ho
      rw [subscriptionsOf_cons_self hr howner, List.map_cons, Outbox.offer_cons, List.length_cons]
      cases hroom : c.outbox.room with
      | zero =>
        obtain ⟨hsame, hend⟩ := foldl_follow_refused sender f hrest (hrefused.mpr hroom)
        rw [Outbox.offer_of_no_room hroom] at hclient ⊢
        rw [Outbox.offer_of_no_room hroom]
        exact ⟨hsame.trans hclient, iff_of_true hend (Nat.succ_pos _)⟩
      | succ n =>
        have hgoes : o ∉ (follow sender f s r).refused := fun h => by
          have := hrefused.mp h
          omega
        obtain ⟨hend, hiff⟩ := ih hrest hclient hgoes
        refine ⟨hend, hiff.trans ?_⟩
        rw [Outbox.room_offer_one, hroom]
        omega
    · obtain ⟨hclient, hrefused⟩ := follow_client_other sender f (s := s) hr (Or.inl howner)
      rw [subscriptionsOf_cons_other howner]
      exact ih hrest (hclient.trans hc) (fun h => ho (hrefused.mp h))

/-- Following routes that forward changes outboxes and nothing else. -/
theorem foldl_follow_withOutboxes (sender : ClientId) (f : Frame) {rs : List Route}
    (hrs : ∀ r ∈ rs, r.action = .forward) :
    ∀ s : Routing, ∃ g, (rs.foldl (follow sender f) s).broker = s.broker.withOutboxes g := by
  induction rs with
  | nil => exact fun s => ⟨fun _ x => x, (withOutboxes_self s.broker).symm⟩
  | cons r rs ih =>
    intro s
    obtain ⟨g, hg, -⟩ := follow_withOutboxes sender f s (hrs r (List.mem_cons_self ..))
    obtain ⟨k, hk⟩ :=
      ih (fun r' hr' => hrs r' (List.mem_cons_of_mem _ hr')) (follow sender f s r)
    exact ⟨fun id x => k id (g id x), by
      rw [List.foldl_cons, hk, hg, withOutboxes_withOutboxes]⟩

/-! ## Side by side -/

section Alike

variable {e : Broker → Broker}
  (he : ∀ b owner i, (e b).forward owner i f =
    (e (b.forward owner i f).1, (b.forward owner i f).2))
include he

/-- A route that forwards does the same for every sender, and to brokers that take copies alike. -/
theorem follow_alike {s' : Routing} (hr : r.action = .forward)
    (hbroker : s'.broker = e s.broker) (hrefused : s'.refused = s.refused) :
    (follow sender' f s' r).broker = e (follow sender f s r).broker ∧
      (follow sender' f s' r).refused = (follow sender f s r).refused := by
  cases ho : r.owner with
  | none =>
    simp only [follow, hr, ho]
    exact ⟨hbroker, hrefused⟩
  | some owner =>
    by_cases hmem : owner ∈ s.refused
    · rw [follow_of_refused hr ho hmem, follow_of_refused hr ho (hrefused ▸ hmem)]
      exact ⟨hbroker, hrefused⟩
    · obtain ⟨hstep, hnext⟩ := follow_of_taking sender f hr ho hmem
      obtain ⟨hstep', hnext'⟩ := follow_of_taking sender' f hr ho (hrefused ▸ hmem)
      rw [hstep, hstep', hnext, hnext', hbroker, he, hrefused]
      exact ⟨rfl, rfl⟩

theorem foldl_follow_alike {rs : List Route} (hrs : ∀ r ∈ rs, r.action = .forward) :
    ∀ {s s' : Routing}, s'.broker = e s.broker → s'.refused = s.refused →
      (rs.foldl (follow sender' f) s').broker = e (rs.foldl (follow sender f) s).broker ∧
        (rs.foldl (follow sender' f) s').refused = (rs.foldl (follow sender f) s).refused := by
  induction rs with
  | nil => exact fun hbroker hrefused => ⟨hbroker, hrefused⟩
  | cons r rs ih =>
    intro s s' hbroker hrefused
    obtain ⟨hr, hrs⟩ := List.forall_mem_cons.mp hrs
    obtain ⟨hbroker, hrefused⟩ := follow_alike he hr hbroker hrefused
    exact ih hrs hbroker hrefused

end Alike

/-! ## The whole table -/

theorem selects_control_of_request {q : Request} (h : request? f = some q) :
    Topic.selects Control.expression f.topic = true := by
  unfold request? at h
  split at h
  · split_ifs at h with hsub hhello
    · rw [hsub]; decide +kernel
    · rw [hhello]; decide +kernel
  · exact nomatch h

/-- The broker's own routes handle a frame as a message and log it. -/
theorem foldl_follow_builtin (b : Broker) (sender : ClientId) (f : Frame)
    (settings : BrokerSettings) :
    ∃ log, ((builtinRoutes settings).filter fun r => r.selects f.topic).foldl (follow sender f)
      ⟨b, [], []⟩ = ⟨(b.onControl sender f).1, [], log⟩ := by
  have hprint (s : Routing) : ∃ log,
      ((if settings.logsMessages then [Route.builtin ">" .print] else []).filter
        fun r => r.selects f.topic).foldl (follow sender f) s = ⟨s.broker, s.refused, log⟩ := by
    cases settings.logsMessages with
    | false => exact ⟨s.log, rfl⟩
    | true =>
      simp only [↓reduceIte, List.filter_cons, List.filter_nil]
      split
      · exact ⟨_, rfl⟩
      · exact ⟨s.log, rfl⟩
  unfold builtinRoutes
  rw [List.filter_cons]
  split
  · rw [List.foldl_cons]
    exact hprint _
  · next hcontrol =>
    have hnone : request? f = none := by
      cases hq : request? f with
      | none => rfl
      | some q => exact absurd (selects_control_of_request hq) hcontrol
    have hsame : (b.onControl sender f).1 = b := by rw [onControl_eq, hnone]
    rw [hsame]
    exact hprint _

theorem deliver_eq {own : List Route} (h : b.table.routes = builtinRoutes b.settings ++ own)
    (sender : ClientId) (f : Frame) :
    ∃ log, b.deliver sender f = (own.filter fun r => r.selects f.topic).foldl (follow sender f)
      ⟨(b.onControl sender f).1, [], log⟩ := by
  obtain ⟨log, hbuiltin⟩ := foldl_follow_builtin b sender f b.settings
  exact ⟨log, by rw [deliver, RouteTable.selecting, h, List.filter_append, List.foldl_append,
    hbuiltin]⟩

/-- Dropping clients one after the other drops the routes of all of them. -/
theorem foldl_purge (ids : List ClientId) : ∀ s : Routing,
    (ids.foldl purge s).broker = { s.broker with table := { s.broker.table with
      routes := s.broker.table.routes.filter fun r => ∀ id ∈ ids, r.owner ≠ some id } } := by
  induction ids with
  | nil =>
    intro s
    simp only [List.foldl_nil, List.not_mem_nil, false_implies, implies_true, decide_true,
      List.filter_true]
  | cons id ids ih =>
    intro s
    rw [List.foldl_cons, ih]
    simp only [purge, RouteTable.removeClient, List.filter_filter, List.mem_cons, forall_eq_or_imp,
      Bool.decide_and, Bool.and_comm]

end Broker

end TopicBus
