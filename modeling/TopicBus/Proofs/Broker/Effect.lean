import TopicBus.Proofs.Broker.Runs

/-!
What routing one frame does, client by client. Every client gets as many of its copies as its outbox
has room for; one that does not get all of them loses its routes. Neither depends on what the
outboxes of the others hold (`route_effect`).
-/

namespace TopicBus

namespace Broker

open Control Route

/-- The subscriptions under which a client is to get a frame on a topic, in table order. -/
def subscriptionsFor (b : Broker) (o : ClientId) (topic : String) : List UInt32 :=
  (b.table.routes.filter fun r =>
    r.action = .forward ∧ r.owner = some o ∧ r.selects topic).map Route.subscription

/-- The routes of a client, in the order of the table. -/
def routesOf (b : Broker) (o : ClientId) : List Route :=
  b.table.routes.filter fun r => r.owner = some o

/-- Whether a frame has more copies for the owner of a route than that client has room for. -/
def overflows (b : Broker) (f : Frame) (r : Route) : Bool :=
  match r.owner.bind b.client? with
  | some c => c.outbox.room < (b.subscriptionsFor c.id f.topic).length
  | none => false

variable {b : Broker} {sender o : ClientId} {f : Frame} {c : Client}

theorem subscriptionsFor_eq {own : List Route}
    (h : b.table.routes = builtinRoutes b.settings ++ own) (o : ClientId) (topic : String) :
    b.subscriptionsFor o topic = subscriptionsOf o (own.filter fun r => r.selects topic) := by
  have hbuiltin : (builtinRoutes b.settings).filter (fun r =>
      r.action = .forward ∧ r.owner = some o ∧ r.selects topic) = [] := by
    refine List.filter_eq_nil_iff.mpr fun r hr => ?_
    simp [(builtin_owner hr).2]
  rw [subscriptionsFor, subscriptionsOf, h, List.filter_append, hbuiltin, List.nil_append,
    List.filter_filter]
  simp only [Bool.decide_and, Bool.and_assoc, Bool.decide_eq_true]

theorem WellFormed.deliver_client (h : b.WellFormed) (sender : ClientId) (f : Frame)
    (hc : b.client? o = some c) :
    (b.deliver sender f).broker.client? o = ((b.onControl sender f).1.client? o).map (fun c' =>
        { c' with outbox := c.outbox.offer ((b.subscriptionsFor o f.topic).map f.tagged) }) ∧
      (o ∈ (b.deliver sender f).refused ↔
        c.outbox.room < (b.subscriptionsFor o f.topic).length) := by
  obtain ⟨own, hroutes, hown⟩ := h.routes
  obtain ⟨log, hdeliver⟩ := deliver_eq hroutes sender f
  obtain ⟨inbox, hclient⟩ := onControl_client? sender f hc
  have hforward : ∀ r ∈ own.filter (fun r => r.selects f.topic), r.action = .forward :=
    fun r hr => (hown r (List.mem_filter.mp hr).1).forwards
  have hfold := foldl_follow_client sender f hforward
    (s := ⟨(b.onControl sender f).1, [], log⟩) hclient (List.not_mem_nil)
  rw [hdeliver, subscriptionsFor_eq hroutes, hclient, Option.map_some]
  exact hfold

theorem WellFormed.route_client? (h : b.WellFormed) (sender : ClientId) (f : Frame)
    (hc : b.client? o = some c) :
    (b.route sender f).1.client? o = ((b.onControl sender f).1.client? o).map (fun c' =>
      { c' with outbox := c.outbox.offer ((b.subscriptionsFor o f.topic).map f.tagged) }) := by
  obtain ⟨g, hg, hroute⟩ := h.route_eq sender f
  rw [← (h.deliver_client sender f hc).1, hg, hroute]
  rfl

theorem WellFormed.route_outbox (h : b.WellFormed) (sender : ClientId) (f : Frame)
    (hc : b.client? o = some c) : ∃ c', (b.route sender f).1.client? o = some c' ∧
      c'.outbox = c.outbox.offer ((b.subscriptionsFor o f.topic).map f.tagged) := by
  obtain ⟨inbox, hclient⟩ := onControl_client? sender f hc
  have hafter := h.route_client? sender f hc
  rw [hclient, Option.map_some] at hafter
  exact ⟨_, hafter, rfl⟩

theorem WellFormed.ids_route (h : b.WellFormed) (sender : ClientId) (f : Frame) :
    (b.route sender f).1.ids = b.ids := by
  obtain ⟨g, -, hroute⟩ := h.route_eq sender f
  rw [hroute]
  exact (ids_withOutboxes _ g).trans (ids_onControl b sender f)

theorem WellFormed.routesOf_route (h : b.WellFormed) (sender : ClientId) (f : Frame)
    (o : ClientId) :
    (b.route sender f).1.routesOf o = if o ∈ (b.deliver sender f).refused then []
      else b.routesOf o ++ (b.granted sender f).filter fun r => r.owner = some o := by
  obtain ⟨g, -, hroute⟩ := h.route_eq sender f
  rw [routesOf, hroute]
  simp only [List.filter_filter]
  split
  · next hmem =>
    refine List.filter_eq_nil_iff.mpr fun r _ => ?_
    simp only [Bool.and_eq_true, decide_eq_true_eq, not_and]
    exact fun ho hall => hall o hmem ho
  · next hmem =>
    rw [routesOf, ← List.filter_append]
    refine List.filter_congr fun r _ => ?_
    by_cases ho : r.owner = some o
    · have hall : ∀ id ∈ (b.deliver sender f).refused, ¬o = id :=
        fun id hid heq => hmem (heq ▸ hid)
      simpa [ho] using hall
    · simp [ho]

theorem WellFormed.owner_cases (h : b.WellFormed) {r : Route}
    (hr : r ∈ b.table.routes ++ b.granted sender f) :
    r.owner = none ∨ ∃ o c, r.owner = some o ∧ b.client? o = some c := by
  rcases List.mem_append.mp hr with hr | hr
  · obtain ⟨own, hroutes, hown⟩ := h.routes
    rw [hroutes] at hr
    rcases List.mem_append.mp hr with hr | hr
    · exact .inl (builtin_owner hr).1
    · obtain ⟨_, _, o, rfl, _, _, _, ho⟩ := hown r hr
      obtain ⟨c, hc⟩ := Option.isSome_iff_exists.mp (client?_isSome_iff.mpr ho)
      exact .inr ⟨o, c, rfl, hc⟩
  · obtain ⟨q, _, rfl, hsome, _⟩ := granted_mem hr
    obtain ⟨c, hc⟩ := Option.isSome_iff_exists.mp hsome
    exact .inr ⟨sender, c, rfl, hc⟩

/-- Routes go with the client that could not take all its copies. -/
theorem WellFormed.routes_route (h : b.WellFormed) (sender : ClientId) (f : Frame) :
    (b.route sender f).1.table.routes =
      (b.table.routes ++ b.granted sender f).filter fun r => !b.overflows f r := by
  obtain ⟨g, -, hroute⟩ := h.route_eq sender f
  rw [hroute]
  refine List.filter_congr fun r hr => ?_
  unfold overflows
  rcases h.owner_cases hr with hnone | ⟨o, c, ho, hc⟩
  · simp [hnone]
  · have hid := client?_id hc
    have hrefused := (h.deliver_client sender f hc).2
    simp only [ho, Option.bind_some, hc, hid]
    by_cases hroom : c.outbox.room < (b.subscriptionsFor o f.topic).length
    · have hmem := hrefused.mpr hroom
      simpa [hroom] using hmem
    · have hmem : o ∉ (b.deliver sender f).refused := fun hin => hroom (hrefused.mp hin)
      have hall : ∀ id ∈ (b.deliver sender f).refused, ¬o = id :=
        fun id hid heq => hmem (heq ▸ hid)
      simpa [hroom] using hall

theorem granted_withOutboxes (b : Broker) (g : ClientId → Outbox → Outbox) (sender : ClientId)
    (f : Frame) : (b.withOutboxes g).granted sender f = b.granted sender f := by
  unfold granted
  rw [client?_withOutboxes, Option.isSome_map]
  rfl

/-- Outboxes of others have no part in what becomes of a client. -/
theorem WellFormed.route_withOutboxes (h : b.WellFormed) (sender : ClientId) (f : Frame)
    (hc : b.client? o = some c) {g : ClientId → Outbox → Outbox} (hg : ∀ x, g o x = x) :
    ((b.withOutboxes g).route sender f).1.client? o = (b.route sender f).1.client? o ∧
      ((b.withOutboxes g).route sender f).1.routesOf o = (b.route sender f).1.routesOf o := by
  have hsame : (b.withOutboxes g).client? o = some c := by
    obtain rfl := client?_id hc
    rw [client?_withOutboxes, hc, Option.map_some, hg]
  have hw := h.withOutboxes g
  have hsubs : (b.withOutboxes g).subscriptionsFor o f.topic = b.subscriptionsFor o f.topic := rfl
  constructor
  · obtain ⟨inbox, hclient⟩ := onControl_client? sender f hc
    rw [hw.route_client? sender f hsame, h.route_client? sender f hc, onControl_withOutboxes,
      client?_withOutboxes, hclient, hsubs]
    rfl
  · have hrefused : o ∈ ((b.withOutboxes g).deliver sender f).refused ↔
        o ∈ (b.deliver sender f).refused :=
      (hw.deliver_client sender f hsame).2.trans (h.deliver_client sender f hc).2.symm
    rw [hw.routesOf_route, h.routesOf_route, granted_withOutboxes]
    simp only [hrefused]
    rfl

/-! ## Any frame at any time -/

/-- A frame from anyone, routed after any run. A client gets its copies in the order of its routes
in the table, as many as its outbox has room for, and stays registered. Its routes are gone if that
was not all of them, and else all kept, whatever the outboxes of the others hold. The routes that
are left keep their order; at most one comes in behind them, for the sender, and none unless the
topic is one of the broker's own. Without a route for its topic a frame does nothing. -/
theorem route_effect (settings : BrokerSettings) (ops : List Operation) (sender : ClientId)
    (f : Frame) :
    let b := (ofSettings settings).run ops
    let b' := (b.route sender f).1
    (∀ o c, b.client? o = some c →
      let subscriptions := b.subscriptionsFor o f.topic
      let count := min subscriptions.length c.outbox.room
      (∃ c', b'.client? o = some c' ∧ c'.outbox = { c.outbox with
        frames := c.outbox.frames ++ (subscriptions.take count).map f.tagged }) ∧
      (c.outbox.room < subscriptions.length → b'.routesOf o = []) ∧
      (subscriptions.length ≤ c.outbox.room → b'.routesOf o =
        b.routesOf o ++ (b.granted sender f).filter fun r => r.owner = some o) ∧
      ∀ g : ClientId → Outbox → Outbox, (∀ x, g o x = x) →
        ((b.withOutboxes g).route sender f).1.client? o = b'.client? o ∧
          ((b.withOutboxes g).route sender f).1.routesOf o = b'.routesOf o) ∧
    b'.ids = b.ids ∧ b'.departed = b.departed ∧
    b'.table.routes =
      (b.table.routes ++ b.granted sender f).filter (fun r => !b.overflows f r) ∧
    (b.granted sender f).length ≤ 1 ∧ (∀ r ∈ b.granted sender f, r.owner = some sender) ∧
    (Topic.selects Control.expression f.topic = false → b.granted sender f = []) ∧
    ((∀ r ∈ b.table.routes, r.selects f.topic = false) → b' = b) := by
  intro b b'
  have h : b.WellFormed := (wellFormed_ofSettings settings).run ops
  obtain ⟨g, -, hroute⟩ := h.route_eq sender f
  refine ⟨?_, h.ids_route sender f, ?_, h.routes_route sender f, granted_length_le b sender f,
    ?_, ?_, ?_⟩
  · intro o c hc subscriptions count
    obtain ⟨c', hc', houtbox⟩ := h.route_outbox sender f hc
    have hrefused := (h.deliver_client sender f hc).2
    have hroutes := h.routesOf_route sender f o
    refine ⟨⟨c', hc', ?_⟩, ?_, ?_, fun k hk => h.route_withOutboxes sender f hc hk⟩
    · have htake : (subscriptions.map f.tagged).take c.outbox.room =
          (subscriptions.take count).map f.tagged := by
        rw [List.map_take, List.take_eq_take_min, List.length_map, Nat.min_comm]
      rw [houtbox, Outbox.offer, htake]
    · intro hover
      rw [if_pos (hrefused.mpr hover)] at hroutes
      exact hroutes
    · intro hfits
      rw [if_neg fun hin => Nat.not_lt.mpr hfits (hrefused.mp hin)] at hroutes
      exact hroutes
  · change (b.route sender f).1.departed = b.departed
    rw [hroute]
    exact (onControl_keeps b sender f).2.1
  · intro r hr
    obtain ⟨q, _, rfl, _⟩ := granted_mem hr
    rfl
  · intro hother
    refine List.eq_nil_iff_forall_not_mem.mpr fun r hr => ?_
    obtain ⟨q, hq, _⟩ := granted_mem hr
    rw [selects_control_of_request hq] at hother
    exact Bool.noConfusion hother
  · intro hnone
    have hselecting : b.table.selecting f.topic = [] :=
      List.filter_eq_nil_iff.mpr fun r hr => by rw [hnone r hr]; exact Bool.false_ne_true
    change (b.route sender f).1 = b
    simp only [Broker.route, deliver, hselecting, List.foldl_nil]

end Broker

end TopicBus
