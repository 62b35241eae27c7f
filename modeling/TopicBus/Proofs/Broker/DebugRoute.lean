import TopicBus.Proofs.Broker.Ledger

/-!
The debug route is there to be read in the log, and nobody else can tell. A broker that logs its
messages, with room for one route more, is a broker that does not with that one route put behind its
first (`withDebugRoute`), and every operation does the same to both (`perform_withDebugRoute`).
-/

namespace TopicBus

namespace Broker

open Control Route

/-- The same broker with the debug route behind its first route, and with room for it. -/
def withDebugRoute (b : Broker) : Broker :=
  { b with
    settings := { b.settings with
      logsMessages := true
      maxRoutes := b.settings.maxRoutes + 1 }
    table :=
      { capacity := b.table.capacity + 1
        routes := b.table.routes.insertIdx 1 (.builtin ">" .print) } }

variable {b : Broker} {own : List Route} {sender : ClientId} {f : Frame}

/-! ## The table -/

theorem WellFormed.routes_plain (h : b.WellFormed) (hplain : b.settings.logsMessages = false) :
    ∃ own, b.table.routes = .builtin Control.expression .control :: own ∧
      ∀ r ∈ own, b.HasOwner r := by
  obtain ⟨own, hroutes, hown⟩ := h.routes
  rw [builtinRoutes, hplain] at hroutes
  exact ⟨own, hroutes, hown⟩

/-- Behind a first route the debug route stands second. -/
theorem routes_withDebugRoute {r : Route} (hroutes : b.table.routes = r :: own) :
    b.withDebugRoute.table.routes = r :: .builtin ">" .print :: own := by
  rw [withDebugRoute, hroutes]
  rfl

/-- What a client may ask for is not the debug route. -/
theorem route_ne_debugRoute (q : Request) (sender : ClientId) :
    q.route sender ≠ .builtin ">" .print :=
  fun h => nomatch congrArg Route.action h

theorem admits_withDebugRoute {r : Route} (hroutes : b.table.routes = r :: own) (q : Request)
    (sender : ClientId) :
    b.withDebugRoute.table.Admits (q.route sender) ↔ b.table.Admits (q.route sender) := by
  have hother := route_ne_debugRoute q sender
  rw [RouteTable.Admits, RouteTable.Admits, routes_withDebugRoute hroutes, hroutes]
  simp only [List.mem_cons, hother, false_or, List.length_cons, withDebugRoute,
    Nat.add_lt_add_iff_right]

theorem grant_withDebugRoute {r : Route} (hroutes : b.table.routes = r :: own)
    (sender : ClientId) (q : Request) :
    b.withDebugRoute.grant sender q = (b.grant sender q).withDebugRoute := by
  have hother := route_ne_debugRoute q sender
  have hwith : b.withDebugRoute.table.routesWith (q.route sender) =
      (b.table.routesWith (q.route sender)).insertIdx 1 (.builtin ">" .print) := by
    rw [RouteTable.routesWith, RouteTable.routesWith, routes_withDebugRoute hroutes, hroutes]
    simp only [List.mem_cons, hother, false_or]
    split <;> rfl
  rw [grant, hwith]
  rfl

/-- Taking routes of clients away leaves the debug route where it is. -/
theorem filter_withDebugRoute {r : Route} (hroutes : b.table.routes = r :: own)
    {p : Route → Bool} (hr : p r = true) (hdebug : p (.builtin ">" .print) = true) :
    b.withDebugRoute.table.routes.filter p =
      (b.table.routes.filter p).insertIdx 1 (.builtin ">" .print) := by
  rw [routes_withDebugRoute hroutes, hroutes, List.filter_cons_of_pos hr,
    List.filter_cons_of_pos hdebug, List.filter_cons_of_pos hr]
  rfl

/-! ## One frame -/

theorem onControl_withDebugRoute {r : Route} (hroutes : b.table.routes = r :: own)
    (sender : ClientId) (f : Frame) :
    (b.withDebugRoute.onControl sender f).1 = (b.onControl sender f).1.withDebugRoute := by
  rw [onControl_eq, onControl_eq]
  cases request? f with
  | none => rfl
  | some q =>
    simp only [admits_withDebugRoute hroutes, grant_withDebugRoute hroutes]
    exact (apply_ite withDebugRoute _ _ _).symm

theorem forward_withDebugRoute (b : Broker) (owner : ClientId) (i : UInt32) (f : Frame) :
    b.withDebugRoute.forward owner i f =
      ((b.forward owner i f).1.withDebugRoute, (b.forward owner i f).2) := by
  have hclient : b.withDebugRoute.client? owner = b.client? owner := rfl
  rw [forward, forward, hclient]
  cases b.client? owner with
  | none => rfl
  | some c =>
    simp only
    split <;> rfl

/-- Both follow the same routes, apart from those of the broker itself. -/
theorem WellFormed.deliver_withDebugRoute (h : b.WellFormed)
    (hplain : b.settings.logsMessages = false) (sender : ClientId) (f : Frame) :
    (b.withDebugRoute.deliver sender f).broker = (b.deliver sender f).broker.withDebugRoute ∧
      (b.withDebugRoute.deliver sender f).refused = (b.deliver sender f).refused := by
  obtain ⟨own, hroutes, hown⟩ := h.routes_plain hplain
  have hbuiltin : b.table.routes = builtinRoutes b.settings ++ own := by
    rw [builtinRoutes, hplain]
    exact hroutes
  obtain ⟨log, hdeliver⟩ := deliver_eq hbuiltin sender f
  have hbuiltin' : b.withDebugRoute.table.routes =
      builtinRoutes b.withDebugRoute.settings ++ own := routes_withDebugRoute hroutes
  obtain ⟨log', hdeliver'⟩ := deliver_eq hbuiltin' sender f
  rw [hdeliver, hdeliver', onControl_withDebugRoute hroutes]
  exact foldl_follow_alike (fun b owner i => forward_withDebugRoute b owner i f)
    (fun r hr => (hown r (List.mem_filter.mp hr).1).forwards) rfl rfl

theorem WellFormed.route_withDebugRoute (h : b.WellFormed)
    (hplain : b.settings.logsMessages = false) (sender : ClientId) (f : Frame) :
    (b.withDebugRoute.route sender f).1 = (b.route sender f).1.withDebugRoute := by
  obtain ⟨hbroker, hrefused⟩ := h.deliver_withDebugRoute hplain sender f
  obtain ⟨own, hroutes, -⟩ := h.routes_plain hplain
  obtain ⟨g, hg, -⟩ := h.route_eq sender f
  have hafter : (b.deliver sender f).broker.table.routes =
      .builtin Control.expression .control :: (own ++ b.granted sender f) := by
    rw [hg, Broker.withOutboxes, onControl_table, hroutes, List.cons_append]
  rw [Broker.route, Broker.route]
  simp only [foldl_purge, hbroker, hrefused]
  rw [filter_withDebugRoute hafter (by simp [builtin]) (by simp [builtin])]
  rfl

/-! ## Runs -/

theorem register_withDebugRoute (b : Broker) (peer : String) (capacity : Nat) :
    b.withDebugRoute.register peer capacity =
      (b.register peer capacity).map fun given => (given.1.withDebugRoute, given.2) := by
  by_cases hfull : b.settings.maxClients ≤ b.clients.length
  · have hfull' : b.withDebugRoute.settings.maxClients ≤ b.withDebugRoute.clients.length := hfull
    rw [register, register, if_pos hfull, if_pos hfull']
    rfl
  · have hfull' : ¬b.withDebugRoute.settings.maxClients ≤ b.withDebugRoute.clients.length := hfull
    rw [register, register, if_neg hfull, if_neg hfull']
    rfl

theorem drain_withDebugRoute (b : Broker) (id : ClientId) (count : Nat) :
    b.withDebugRoute.drain id count =
      ((b.drain id count).1.withDebugRoute, (b.drain id count).2) := by
  have houtbox : b.withDebugRoute.outbox? id = b.outbox? id := rfl
  rw [drain, drain, houtbox]
  cases b.outbox? id with
  | none => rfl
  | some o =>
    simp only
    split <;> rfl

/-- Every operation does the same to both, and both answer it alike. -/
theorem WellFormed.perform_withDebugRoute (h : b.WellFormed)
    (hplain : b.settings.logsMessages = false) (op : Operation) :
    b.withDebugRoute.perform op = ((b.perform op).1.withDebugRoute, (b.perform op).2) := by
  cases op with
  | register peer capacity =>
    have hregister := register_withDebugRoute b peer capacity
    simp only [Broker.perform, hregister]
    cases b.register peer capacity <;> rfl
  | route sender f => exact congrArg (Prod.mk · _) (h.route_withDebugRoute hplain sender f)
  | cleanup id =>
    obtain ⟨own, hroutes, -⟩ := h.routes_plain hplain
    have hkept := filter_withDebugRoute hroutes (p := fun r => r.owner ≠ some id)
      (by simp [builtin]) (by simp [builtin])
    have hclient : b.withDebugRoute.client? id = b.client? id := rfl
    simp only [Broker.perform, cleanup_eq, RouteTable.removeClient, hkept, hclient]
    rfl
  | drain id count =>
    simp only [Broker.perform, drain_withDebugRoute]
  | hangUp id =>
    have houtbox : b.withDebugRoute.outbox? id = b.outbox? id := rfl
    simp only [Broker.perform, Broker.hangUp, houtbox]
    cases b.outbox? id <;> rfl

theorem WellFormed.run_withDebugRoute (h : b.WellFormed)
    (hplain : b.settings.logsMessages = false) (ops : List Operation) :
    b.withDebugRoute.run ops = (b.run ops).withDebugRoute ∧
      b.withDebugRoute.answers ops = b.answers ops := by
  induction ops generalizing b with
  | nil => exact ⟨rfl, rfl⟩
  | cons op ops ih =>
    obtain ⟨hrun, hanswers⟩ := ih (h.perform op) ((congrArg _ (settings_perform h op)).trans hplain)
    have hstep := h.perform_withDebugRoute hplain op
    simp only [Broker.run, answers, hstep, hrun, hanswers, and_self]

theorem withDebugRoute_ofSettings {settings : BrokerSettings} (hroom : 2 ≤ settings.maxRoutes)
    (hplain : settings.logsMessages = false) :
    (ofSettings settings).withDebugRoute =
      ofSettings { settings with logsMessages := true, maxRoutes := settings.maxRoutes + 1 } := by
  have hcapacity : max settings.maxRoutes 2 + 1 = max (settings.maxRoutes + 1) 2 := by omega
  simp only [ofSettings, withDebugRoute, builtinRoutes, hplain, hcapacity]
  rfl

/-- A broker with the debug route, and room for one route more, beside one without it. Whatever
happens to both, they give the same answers, and at every moment they have the same clients with the
same outboxes, and the same routes but for that one, which stands second. -/
theorem debugRoute_unnoticed (settings : BrokerSettings) (hroom : 2 ≤ settings.maxRoutes)
    (hplain : settings.logsMessages = false) (ops : List Operation) :
    let plain := ofSettings settings
    let logging :=
      ofSettings { settings with logsMessages := true, maxRoutes := settings.maxRoutes + 1 }
    logging.answers ops = plain.answers ops ∧
    (logging.run ops).clients = (plain.run ops).clients ∧
    (logging.run ops).departed = (plain.run ops).departed ∧
    (logging.run ops).nextId = (plain.run ops).nextId ∧
    ∃ own, (plain.run ops).table.routes = .builtin "_ROUTER.>" .control :: own ∧
      (logging.run ops).table.routes =
        .builtin "_ROUTER.>" .control :: .builtin ">" .print :: own := by
  intro plain logging
  have h : plain.WellFormed := wellFormed_ofSettings settings
  have hlogging : logging = plain.withDebugRoute := (withDebugRoute_ofSettings hroom hplain).symm
  obtain ⟨hrun, hanswers⟩ := h.run_withDebugRoute hplain ops
  obtain ⟨own, hroutes, -⟩ :=
    (h.run ops).routes_plain ((congrArg _ (settings_run h ops)).trans hplain)
  rw [hlogging, hrun]
  exact ⟨hanswers, rfl, rfl, rfl, own, hroutes, routes_withDebugRoute hroutes⟩

/-- One client, with room for one frame in its outbox and one route in the table. Its second
subscription is refused, and its second frame purges it. -/
def besideFull : List Operation :=
  [.register "a" 1,
    .route 1 (message subscribeTopic "\x7b\"topic\": \"T\", \"route_id\": 1\x7d"),
    .route 1 (message subscribeTopic "\x7b\"topic\": \"U\", \"route_id\": 2\x7d"),
    .route 2 (message "T" "1"), .route 2 (message "T" "2"), .drain 1 5]

theorem debugRoute_unnoticed_besideFull :
    let settings : BrokerSettings := { maxRoutes := 2 }
    let plain := ofSettings settings
    let logging := ofSettings { maxRoutes := 3, logsMessages := true }
    2 ≤ settings.maxRoutes ∧ settings.logsMessages = false ∧
      logging.answers besideFull = plain.answers besideFull ∧
      (logging.run besideFull).clients = (plain.run besideFull).clients := by
  intro settings plain logging
  have hroom : 2 ≤ settings.maxRoutes := by decide
  have hplain : settings.logsMessages = false := rfl
  obtain ⟨hanswers, hclients, -⟩ := debugRoute_unnoticed settings hroom hplain besideFull
  exact ⟨hroom, hplain, hanswers, hclients⟩

end Broker

end TopicBus
