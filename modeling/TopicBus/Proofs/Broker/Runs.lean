import Mathlib.Data.List.Nodup
import TopicBus.Proofs.Broker.Delivery

/-!
Brokers over time. A run is any sequence of operations by anyone; `WellFormed` is what all of them
keep, and it ties the two tables of a broker together: every route beyond the broker's own leads to
a client that is registered now.
-/

namespace TopicBus

namespace Broker

/-- What may happen to a broker and to the outboxes that it fills. -/
inductive Operation where
  | register (peer : String) (capacity : Nat)
  | route (sender : ClientId) (f : Frame)
  | cleanup (id : ClientId)
  /-- The reader of an outbox takes up to `count` frames. -/
  | drain (id : ClientId) (count : Nat)
  /-- The reader of an outbox goes away. -/
  | hangUp (id : ClientId)

/-- What an operation gives to its caller. -/
inductive Answer where
  | done
  | registered (id : ClientId)
  | refused (why : Fault)
  | drained (frames : Option (List Frame))

def perform (b : Broker) : Operation → Broker × Answer
  | .register peer capacity =>
    match b.register peer capacity with
    | .ok (b', id, _) => (b', .registered id)
    | .error why => (b, .refused why)
  | .route sender f => ((b.route sender f).1, .done)
  | .cleanup id => ((b.cleanup id).1, .done)
  | .drain id count => ((b.drain id count).1, .drained (b.drain id count).2)
  | .hangUp id => (b.hangUp id, .done)

/-- The broker at the end of a run. -/
def run (b : Broker) : List Operation → Broker
  | [] => b
  | op :: ops => (b.perform op).1.run ops

def answers (b : Broker) : List Operation → List Answer
  | [] => []
  | op :: ops => (b.perform op).2 :: (b.perform op).1.answers ops

/-- The ids that a run gives to new clients, in order. -/
def handedOut (b : Broker) (ops : List Operation) : List ClientId :=
  (b.answers ops).filterMap fun
    | .registered id => some id
    | _ => none

/-- The ids of the clients that are registered now. -/
def ids (b : Broker) : List ClientId := b.clients.map Client.id

theorem client?_isSome_iff {b : Broker} {o : ClientId} :
    (b.client? o).isSome = true ↔ o ∈ b.ids := by
  rw [client?_isSome, ids, List.mem_map]

theorem ids_withOutboxes (b : Broker) (g : ClientId → Outbox → Outbox) :
    (b.withOutboxes g).ids = b.ids := by
  simp only [ids, withOutboxes, List.map_map]
  rfl

theorem ids_setOutbox (b : Broker) (id : ClientId) (x : Outbox) :
    (b.setOutbox id x).ids = b.ids := by
  rw [setOutbox_eq]
  exact ids_withOutboxes b fun i y => if i = id then x else y

/-- Where the same clients are registered, each of them was there before. -/
theorem client?_of_ids {b b' : Broker} (hids : b'.ids = b.ids) {o : ClientId} {c' : Client}
    (hc' : b'.client? o = some c') : ∃ c, b.client? o = some c := by
  have hmem : o ∈ b'.ids := client?_isSome_iff.mp (by rw [hc']; rfl)
  rw [hids] at hmem
  exact Option.isSome_iff_exists.mp (client?_isSome_iff.mpr hmem)

/-- Readers touch nothing but outboxes. -/
theorem drain_keeps (b : Broker) (id : ClientId) (count : Nat) :
    (b.drain id count).1.settings = b.settings ∧ (b.drain id count).1.table = b.table ∧
      (b.drain id count).1.nextId = b.nextId ∧ (b.drain id count).1.ids = b.ids := by
  rcases drain_eq b id count with hdrain | ⟨x, hdrain⟩
  · rw [hdrain]
    exact ⟨rfl, rfl, rfl, rfl⟩
  · rw [hdrain]
    exact ⟨rfl, rfl, rfl, ids_setOutbox b id x⟩

theorem hangUp_keeps (b : Broker) (id : ClientId) :
    (b.hangUp id).settings = b.settings ∧ (b.hangUp id).table = b.table ∧
      (b.hangUp id).nextId = b.nextId ∧ (b.hangUp id).ids = b.ids := by
  rcases hangUp_eq b id with hhang | ⟨x, hhang⟩
  · rw [hhang]
    exact ⟨rfl, rfl, rfl, rfl⟩
  · rw [hhang]
    exact ⟨rfl, rfl, rfl, ids_setOutbox b id x⟩

theorem ids_onControl (b : Broker) (sender : ClientId) (f : Frame) :
    (b.onControl sender f).1.ids = b.ids := by
  obtain ⟨-, -, -, inbox, hclients⟩ := onControl_keeps b sender f
  simp only [ids, hclients, List.map_map]
  rfl

/-! ## The invariant -/

/-- A route that a client of the broker may have. -/
def HasOwner (b : Broker) (r : Route) : Prop :=
  ∃ expression subscription owner, r = .forward expression subscription owner ∧
    1 ≤ expression.utf8ByteSize ∧ expression.utf8ByteSize ≤ 128 ∧
    subscription.toNat ≤ 0x7fffffff ∧ owner ∈ b.ids

structure WellFormed (b : Broker) : Prop where
  routes : ∃ own, b.table.routes = builtinRoutes b.settings ++ own ∧ ∀ r ∈ own, b.HasOwner r
  nodup : b.table.routes.Nodup
  capacity : b.table.capacity = max b.settings.maxRoutes 2
  size_le : b.table.routes.length ≤ b.table.capacity
  clients_le : b.clients.length ≤ b.settings.maxClients
  ids_lt : ∀ id ∈ b.ids, id < b.nextId
  ids_increasing : b.ids.Pairwise (· < ·)
  departed_lt : ∀ entry ∈ b.departed, entry.1 < b.nextId

theorem builtin_owner {settings : BrokerSettings} {r : Route} (h : r ∈ builtinRoutes settings) :
    r.owner = none ∧ r.action ≠ .forward := by
  unfold builtinRoutes at h
  rcases List.mem_cons.mp h with rfl | h
  · exact ⟨rfl, nofun⟩
  · split at h
    · obtain rfl := List.mem_singleton.mp h
      exact ⟨rfl, nofun⟩
    · exact nomatch h

theorem builtin_filter (settings : BrokerSettings) {p : Route → Bool}
    (hp : ∀ r : Route, r.owner = none → p r = true) :
    (builtinRoutes settings).filter p = builtinRoutes settings :=
  List.filter_eq_self.mpr fun r hr => hp r (builtin_owner hr).1

theorem HasOwner.forwards {b : Broker} {r : Route} (h : b.HasOwner r) : r.action = .forward := by
  obtain ⟨_, _, _, rfl, _⟩ := h
  rfl

theorem HasOwner.of_ids {b b' : Broker} {r : Route} (h : b.HasOwner r)
    (hids : ∀ id, r.owner = some id → id ∈ b.ids → id ∈ b'.ids) : b'.HasOwner r := by
  obtain ⟨e, i, o, rfl, hpos, hle, hsub, ho⟩ := h
  exact ⟨e, i, o, rfl, hpos, hle, hsub, hids o rfl ho⟩

/-- A route that forwards leads to a client that is registered. -/
theorem WellFormed.owner_mem {b : Broker} (h : b.WellFormed) {r : Route} (hr : r ∈ b.table.routes)
    (hf : r.action = .forward) : ∃ owner, r.owner = some owner ∧ owner ∈ b.ids := by
  obtain ⟨own, hroutes, hown⟩ := h.routes
  rw [hroutes] at hr
  rcases List.mem_append.mp hr with hbuiltin | hr
  · exact absurd hf (builtin_owner hbuiltin).2
  · obtain ⟨_, _, owner, rfl, _, _, _, ho⟩ := hown r hr
    exact ⟨owner, rfl, ho⟩

theorem WellFormed.mem_ids_of_owner {b : Broker} (h : b.WellFormed) {r : Route} {o : ClientId}
    (hr : r ∈ b.table.routes) (ho : r.owner = some o) : o ∈ b.ids := by
  obtain ⟨own, hroutes, hown⟩ := h.routes
  rw [hroutes] at hr
  rcases List.mem_append.mp hr with hbuiltin | hr
  · rw [(builtin_owner hbuiltin).1] at ho
    exact nomatch ho
  · obtain ⟨_, _, owner, rfl, _, _, _, hmem⟩ := hown r hr
    obtain rfl : owner = o := Option.some.inj ho
    exact hmem

theorem wellFormed_ofSettings (settings : BrokerSettings) : (ofSettings settings).WellFormed where
  routes := ⟨[], (List.append_nil _).symm, nofun⟩
  nodup := by
    change (builtinRoutes settings).Nodup
    unfold builtinRoutes
    cases settings.logsMessages <;> decide
  capacity := rfl
  size_le := by
    have hlen : (builtinRoutes settings).length ≤ 2 := by
      unfold builtinRoutes
      cases settings.logsMessages <;> decide
    exact Nat.le_trans hlen (Nat.le_max_right _ _)
  clients_le := Nat.zero_le _
  ids_lt := nofun
  ids_increasing := .nil
  departed_lt := nofun

variable {b : Broker}

/-- Outboxes and inboxes do not matter, nor does what is left in the outboxes of departed clients. -/
theorem WellFormed.of_ids {b' : Broker} (h : b.WellFormed) (hsettings : b'.settings = b.settings)
    (htable : b'.table = b.table) (hids : b'.ids = b.ids) (hnext : b'.nextId = b.nextId)
    (hdeparted : b'.departed.map Prod.fst = b.departed.map Prod.fst) : b'.WellFormed where
  routes := by
    obtain ⟨own, hroutes, hown⟩ := h.routes
    exact ⟨own, by rw [htable, hroutes, hsettings],
      fun r hr => (hown r hr).of_ids fun id _ hid => by rwa [hids]⟩
  nodup := by rw [htable]; exact h.nodup
  capacity := by rw [htable, hsettings]; exact h.capacity
  size_le := by rw [htable]; exact h.size_le
  clients_le := by
    have hlen : b'.clients.length = b.clients.length := by
      have := congrArg List.length hids
      rwa [ids, ids, List.length_map, List.length_map] at this
    rw [hlen, hsettings]
    exact h.clients_le
  ids_lt := by rw [hids, hnext]; exact h.ids_lt
  ids_increasing := by rw [hids]; exact h.ids_increasing
  departed_lt := by
    intro entry hentry
    have hmem : entry.1 ∈ b'.departed.map Prod.fst := List.mem_map_of_mem hentry
    rw [hdeparted] at hmem
    obtain ⟨old, hold, heq⟩ := List.mem_map.mp hmem
    rw [hnext, ← heq]
    exact h.departed_lt old hold

theorem WellFormed.withOutboxes (h : b.WellFormed) (g : ClientId → Outbox → Outbox) :
    (b.withOutboxes g).WellFormed :=
  h.of_ids rfl rfl (ids_withOutboxes b g) rfl rfl

theorem WellFormed.setOutbox (h : b.WellFormed) (id : ClientId) (x : Outbox) :
    (b.setOutbox id x).WellFormed := by
  rw [setOutbox_eq]
  refine h.of_ids rfl rfl (ids_withOutboxes b fun i y => if i = id then x else y) rfl ?_
  rw [List.map_map]
  refine List.map_congr_left fun entry _ => ?_
  simp only [Function.comp]
  split
  · next heq => exact heq.symm
  · rfl

/-- A part of the clients' routes may go. -/
theorem WellFormed.filter (h : b.WellFormed) {p : Route → Bool}
    (hp : ∀ r : Route, r.owner = none → p r = true) :
    { b with table := { b.table with routes := b.table.routes.filter p } }.WellFormed where
  routes := by
    obtain ⟨own, hroutes, hown⟩ := h.routes
    refine ⟨own.filter p, ?_, fun r hr => hown r (List.mem_filter.mp hr).1⟩
    simp only [hroutes, List.filter_append, builtin_filter b.settings hp]
  nodup := h.nodup.filter p
  capacity := h.capacity
  size_le := Nat.le_trans (List.length_filter_le p _) h.size_le
  clients_le := h.clients_le
  ids_lt := h.ids_lt
  ids_increasing := h.ids_increasing
  departed_lt := h.departed_lt

theorem WellFormed.onControl (h : b.WellFormed) (sender : ClientId) (f : Frame) :
    (b.onControl sender f).1.WellFormed := by
  obtain ⟨hsettings, hdeparted, hnext, -⟩ := onControl_keeps b sender f
  have hgranted : ({ b with table :=
      { b.table with routes := b.table.routes ++ b.granted sender f } } : Broker).WellFormed :=
    { h with
      routes := by
        obtain ⟨own, hroutes, hown⟩ := h.routes
        refine ⟨own ++ b.granted sender f, by simp only [hroutes, List.append_assoc], ?_⟩
        intro r hr
        rcases List.mem_append.mp hr with hr | hr
        · exact hown r hr
        · obtain ⟨q, hq, rfl, hc, -⟩ := granted_mem hr
          obtain ⟨⟨hpos, hle⟩, hsub⟩ := Control.isExpression_of_request? hq
          exact ⟨_, _, _, rfl, hpos, hle, hsub, client?_isSome_iff.mp hc⟩
      nodup := by
        refine List.nodup_append.mpr ⟨h.nodup, ?_, ?_⟩
        · unfold granted
          split
          · split
            · exact List.nodup_singleton _
            · exact .nil
          · exact .nil
        · intro r hr r' hr' heq
          obtain ⟨_, _, _, _, hnew, _⟩ := granted_mem hr'
          exact hnew (heq ▸ hr)
      size_le := by
        rw [List.length_append]
        cases hgrant : b.granted sender f with
        | nil => exact h.size_le
        | cons r rest =>
          obtain ⟨_, _, _, _, _, hroom⟩ := granted_mem
            (show r ∈ b.granted sender f by rw [hgrant]; exact List.mem_cons_self ..)
          have hone := granted_length_le b sender f
          rw [hgrant] at hone
          exact Nat.le_trans (Nat.add_le_add_left hone _) hroom }
  exact hgranted.of_ids hsettings (onControl_table b sender f) (ids_onControl b sender f) hnext
    (by rw [hdeparted])

/-- Handling a frame as a message, delivering copies of it, dropping the routes of those that
refused one. -/
theorem WellFormed.route_eq (h : b.WellFormed) (sender : ClientId) (f : Frame) :
    ∃ g, (b.deliver sender f).broker = (b.onControl sender f).1.withOutboxes g ∧
      (b.route sender f).1 = { (b.onControl sender f).1.withOutboxes g with
        table := { b.table with routes := (b.table.routes ++ b.granted sender f).filter fun r =>
          ∀ id ∈ (b.deliver sender f).refused, r.owner ≠ some id } } := by
  obtain ⟨own, hroutes, hown⟩ := h.routes
  obtain ⟨log, hdeliver⟩ := deliver_eq hroutes sender f
  obtain ⟨g, hg⟩ := foldl_follow_withOutboxes sender f
    (fun r hr => (hown r (List.mem_filter.mp hr).1).forwards) ⟨(b.onControl sender f).1, [], log⟩
  rw [← hdeliver] at hg
  refine ⟨g, hg, ?_⟩
  simp only [Broker.route, foldl_purge, hg, Broker.withOutboxes, onControl_table]

theorem WellFormed.route (h : b.WellFormed) (sender : ClientId) (f : Frame) :
    (b.route sender f).1.WellFormed := by
  obtain ⟨g, -, hroute⟩ := h.route_eq sender f
  have htable := onControl_table b sender f
  have hfilter := ((h.onControl sender f).withOutboxes g).filter
    (p := fun r => ∀ id ∈ (b.deliver sender f).refused, r.owner ≠ some id)
    (fun r hr => by simp [hr])
  rw [hroute]
  simpa only [Broker.withOutboxes, htable] using hfilter

theorem register_eq {b' : Broker} {peer : String} {capacity : Nat} {id : ClientId}
    {log : List Event} (hr : b.register peer capacity = .ok (b', id, log)) :
    b.clients.length < b.settings.maxClients ∧ id = b.nextId ∧
      b' = { b with
        clients := b.clients ++ [⟨b.nextId, peer, none, .ofCapacity capacity⟩]
        nextId := b.nextId + 1 } := by
  simp only [Broker.register] at hr
  split_ifs at hr with hfull
  injection hr with hr
  simp only [Prod.mk.injEq] at hr
  exact ⟨Nat.lt_of_not_le hfull, hr.2.1.symm, hr.1.symm⟩

theorem client?_register {b' : Broker} {peer : String} {capacity : Nat} {id : ClientId}
    {log : List Event} (hr : b.register peer capacity = .ok (b', id, log)) (o : ClientId) :
    b'.client? o = (b.client? o).or
      (if b.nextId = o then some ⟨b.nextId, peer, none, .ofCapacity capacity⟩ else none) := by
  obtain ⟨-, -, rfl⟩ := register_eq hr
  simp only [client?, List.find?_append, List.find?_singleton, decide_eq_true_eq]

theorem WellFormed.register (h : b.WellFormed) {b' : Broker} {peer : String} {capacity : Nat}
    {id : ClientId} {log : List Event} (hr : b.register peer capacity = .ok (b', id, log)) :
    b'.WellFormed := by
  obtain ⟨hroom, rfl, rfl⟩ := register_eq hr
  have hids : ({ b with
      clients := b.clients ++ [⟨b.nextId, peer, none, .ofCapacity capacity⟩]
      nextId := b.nextId + 1 } : Broker).ids = b.ids ++ [b.nextId] := by
    simp only [ids, List.map_append, List.map_cons, List.map_nil]
  exact
    { h with
      routes := by
        obtain ⟨own, hroutes, hown⟩ := h.routes
        refine ⟨own, hroutes, fun r hr => (hown r hr).of_ids fun o _ ho => ?_⟩
        rw [hids]
        exact List.mem_append_left _ ho
      clients_le := by
        rw [List.length_append]
        exact hroom
      ids_lt := by
        intro o ho
        rw [hids] at ho
        rcases List.mem_append.mp ho with ho | ho
        · exact Nat.lt_succ_of_lt (h.ids_lt o ho)
        · rw [List.mem_singleton.mp ho]
          exact Nat.lt_succ_self _
      ids_increasing := by
        rw [hids]
        refine List.pairwise_append.mpr ⟨h.ids_increasing, List.pairwise_singleton _ _, ?_⟩
        intro o ho o' ho'
        rw [List.mem_singleton.mp ho']
        exact h.ids_lt o ho
      departed_lt := fun entry hentry => Nat.lt_succ_of_lt (h.departed_lt entry hentry) }

/-- Cleaning up drops a client, its routes and nothing else; its outbox is left to its reader. -/
theorem cleanup_eq (b : Broker) (id : ClientId) :
    (b.cleanup id).1 = { b with
      table := (b.table.removeClient id).1
      clients := b.clients.filter fun c => c.id ≠ id
      departed := b.departed ++ ((b.client? id).map fun c => (id, c.outbox)).toList } := by
  simp only [Broker.cleanup]
  cases hc : b.client? id with
  | none =>
    have hself : (b.clients.filter fun c => c.id ≠ id) = b.clients := by
      refine List.filter_eq_self.mpr fun c hmem => ?_
      have hne := List.find?_eq_none.mp hc c hmem
      simpa using hne
    simp only [hself, Option.map_none, Option.toList_none, List.append_nil]
  | some c => simp only [Option.map_some, Option.toList_some]

theorem client?_cleanup (b : Broker) (id o : ClientId) :
    (b.cleanup id).1.client? o = if o = id then none else b.client? o := by
  rw [cleanup_eq]
  simp only [client?, List.find?_filter]
  split
  · next heq =>
    refine List.find?_eq_none.mpr fun x _ => ?_
    simp [heq]
  · next hne =>
    congr 1
    funext x
    by_cases hx : x.id = o
    · simp [hx, hne]
    · simp [hx]

theorem WellFormed.cleanup (h : b.WellFormed) (id : ClientId) : (b.cleanup id).1.WellFormed := by
  have hids : (b.cleanup id).1.ids = b.ids.filter fun o => o ≠ id := by
    rw [cleanup_eq, ids, ids, List.filter_map]
    rfl
  exact
    { routes := by
        obtain ⟨own, hroutes, hown⟩ := h.routes
        have hbuiltin := builtin_filter b.settings (p := fun r => r.owner ≠ some id)
          (fun r hr => by simp [hr])
        refine ⟨own.filter fun r => r.owner ≠ some id, ?_, ?_⟩
        · simp only [cleanup_eq, RouteTable.removeClient, hroutes, List.filter_append, hbuiltin]
        · intro r hr
          obtain ⟨hr, hkept⟩ := List.mem_filter.mp hr
          refine (hown r hr).of_ids fun o ho hmem => ?_
          rw [hids]
          refine List.mem_filter.mpr ⟨hmem, ?_⟩
          rw [ho] at hkept
          simpa using hkept
      nodup := by rw [cleanup_eq]; exact h.nodup.filter _
      capacity := by rw [cleanup_eq]; exact h.capacity
      size_le := by
        rw [cleanup_eq]
        exact Nat.le_trans (List.length_filter_le _ _) h.size_le
      clients_le := by
        rw [cleanup_eq]
        exact Nat.le_trans (List.length_filter_le _ _) h.clients_le
      ids_lt := by
        intro o ho
        rw [hids] at ho
        rw [cleanup_eq]
        exact h.ids_lt o (List.mem_filter.mp ho).1
      ids_increasing := by
        rw [hids]
        exact h.ids_increasing.filter _
      departed_lt := by
        intro entry hentry
        rw [cleanup_eq] at hentry ⊢
        rcases List.mem_append.mp hentry with hentry | hentry
        · exact h.departed_lt entry hentry
        · obtain ⟨c, hc, rfl⟩ : ∃ c, b.client? id = some c ∧ (id, c.outbox) = entry := by
            simpa using hentry
          exact h.ids_lt id (client?_isSome_iff.mp (by rw [hc]; rfl)) }

theorem WellFormed.drain (h : b.WellFormed) (id : ClientId) (count : Nat) :
    (b.drain id count).1.WellFormed := by
  rcases drain_eq b id count with hdrain | ⟨x, hdrain⟩
  · rw [hdrain]
    exact h
  · rw [hdrain]
    exact h.setOutbox id x

theorem WellFormed.hangUp (h : b.WellFormed) (id : ClientId) : (b.hangUp id).WellFormed := by
  rcases hangUp_eq b id with hhang | ⟨x, hhang⟩
  · rw [hhang]
    exact h
  · rw [hhang]
    exact h.setOutbox id x

theorem WellFormed.perform (h : b.WellFormed) (op : Operation) : (b.perform op).1.WellFormed := by
  cases op with
  | register peer capacity =>
    simp only [Broker.perform]
    cases hr : b.register peer capacity with
    | ok x => exact h.register hr
    | error why => exact h
  | route sender f => exact h.route sender f
  | cleanup id => exact h.cleanup id
  | drain id count => exact h.drain id count
  | hangUp id => exact h.hangUp id

theorem WellFormed.run (h : b.WellFormed) (ops : List Operation) : (b.run ops).WellFormed := by
  induction ops generalizing b with
  | nil => exact h
  | cons op ops ih => exact ih (h.perform op)

/-- What each operation of a run keeps, the run keeps. -/
theorem WellFormed.run_keeps {P : Broker → Prop} (h : b.WellFormed) (hb : P b)
    {ops : List Operation}
    (hstep : ∀ b' : Broker, b'.WellFormed → P b' → ∀ op ∈ ops, P (b'.perform op).1) :
    P (b.run ops) := by
  induction ops generalizing b with
  | nil => exact hb
  | cons op ops ih =>
    exact ih (h.perform op) (hstep b h hb op List.mem_cons_self) fun b' h' hb' op' hop' =>
      hstep b' h' hb' op' (List.mem_cons_of_mem _ hop')

/-! ## Settings and ids over time -/

theorem settings_perform (h : b.WellFormed) (op : Operation) :
    (b.perform op).1.settings = b.settings := by
  cases op with
  | register peer capacity =>
    simp only [Broker.perform]
    cases hr : b.register peer capacity with
    | ok x =>
      obtain ⟨-, -, hb⟩ := register_eq hr
      simp only [hb]
    | error why => rfl
  | route sender f =>
    obtain ⟨g, -, hroute⟩ := h.route_eq sender f
    simp only [Broker.perform, hroute]
    exact (onControl_keeps b sender f).1
  | cleanup id => simp only [Broker.perform, cleanup_eq]
  | drain id count => exact (drain_keeps b id count).1
  | hangUp id => exact (hangUp_keeps b id).1

theorem settings_run (h : b.WellFormed) (ops : List Operation) :
    (b.run ops).settings = b.settings :=
  h.run_keeps (P := fun b' => b'.settings = b.settings) rfl fun _ h' hsame op _ =>
    (settings_perform h' op).trans hsame

/-- A registration takes the next id; nothing else touches it. -/
theorem nextId_perform (h : b.WellFormed) (op : Operation) :
    ((b.perform op).2 = .registered b.nextId ∧ (b.perform op).1.nextId = b.nextId + 1) ∨
      ((∀ id, (b.perform op).2 ≠ .registered id) ∧ (b.perform op).1.nextId = b.nextId) := by
  cases op with
  | register peer capacity =>
    simp only [Broker.perform]
    cases hr : b.register peer capacity with
    | ok x =>
      obtain ⟨-, hid, hb⟩ := register_eq hr
      exact .inl ⟨congrArg Answer.registered hid, by simp only [hb]⟩
    | error why => exact .inr ⟨nofun, rfl⟩
  | route sender f =>
    obtain ⟨g, -, hroute⟩ := h.route_eq sender f
    refine .inr ⟨nofun, ?_⟩
    simp only [Broker.perform, hroute]
    exact (onControl_keeps b sender f).2.2.1
  | cleanup id => exact .inr ⟨nofun, by simp only [Broker.perform, cleanup_eq]⟩
  | drain id count => exact .inr ⟨nofun, (drain_keeps b id count).2.2.1⟩
  | hangUp id => exact .inr ⟨nofun, (hangUp_keeps b id).2.2.1⟩

/-- Ids are only ever handed on. -/
theorem nextId_le_perform (h : b.WellFormed) (op : Operation) :
    b.nextId ≤ (b.perform op).1.nextId := by
  rcases nextId_perform h op with ⟨-, hnext⟩ | ⟨-, hnext⟩
  · exact Nat.le_of_lt (Nat.lt_of_lt_of_eq (Nat.lt_succ_self _) hnext.symm)
  · exact Nat.le_of_eq hnext.symm

theorem nextId_le_run (h : b.WellFormed) (ops : List Operation) :
    b.nextId ≤ (b.run ops).nextId :=
  h.run_keeps (P := fun b' => b.nextId ≤ b'.nextId) (Nat.le_refl _) fun _ h' hle op _ =>
    Nat.le_trans hle (nextId_le_perform h' op)

/-- Clients get consecutive ids. -/
theorem handedOut_eq (h : b.WellFormed) (ops : List Operation) :
    b.handedOut ops = List.range' b.nextId (b.handedOut ops).length := by
  induction ops generalizing b with
  | nil => rfl
  | cons op ops ih =>
    have hrest := ih (h.perform op)
    unfold handedOut at hrest ⊢
    rcases nextId_perform h op with ⟨hanswer, hnext⟩ | ⟨hanswer, hnext⟩
    · rw [hnext] at hrest
      simp only [answers, hanswer]
      exact congrArg (b.nextId :: ·) hrest
    · rw [hnext] at hrest
      simp only [answers]
      rw [List.filterMap_cons_none]
      · exact hrest
      · cases hans : (b.perform op).2 with
        | registered id => exact absurd hans (hanswer id)
        | done | refused | drained => rfl

/-- Whatever a route asks for, the same clients are registered after it. -/
theorem ids_follow (sender : ClientId) (f : Frame) (s : Routing) (r : Route) :
    (Routing.follow sender f s r).broker.ids = s.broker.ids := by
  cases hr : r.action with
  | control =>
    simp only [Routing.follow, hr]
    exact ids_onControl s.broker sender f
  | print => simp only [Routing.follow, hr]
  | forward =>
    obtain ⟨g, hg, -⟩ := follow_withOutboxes sender f s hr
    rw [hg, ids_withOutboxes]

theorem ids_foldl_follow (sender : ClientId) (f : Frame) (rs : List Route) :
    ∀ s : Routing, (rs.foldl (Routing.follow sender f) s).broker.ids = s.broker.ids := by
  induction rs with
  | nil => exact fun _ => rfl
  | cons r rs ih => exact fun s => (ih _).trans (ids_follow sender f s r)

/-- After any run the route table is a set of bounded size that begins with the broker's own routes;
every other route forwards under a proper expression and subscription to a client that is registered
now; no more clients are registered than may be; and ids are never given twice. So whenever a route
that forwards is followed, its owner is there, and without clients only the broker's own routes
remain. -/
theorem tables_of_run (settings : BrokerSettings) (ops : List Operation) :
    let b := (ofSettings settings).run ops
    let given := (ofSettings settings).handedOut ops
    b.table.routes.Nodup ∧
    b.table.routes.length ≤ max settings.maxRoutes 2 ∧
    (∃ own, b.table.routes = (Route.builtin "_ROUTER.>" .control ::
        if settings.logsMessages then [Route.builtin ">" .print] else []) ++ own ∧
      ∀ r ∈ own, ∃ expression subscription owner, r = .forward expression subscription owner ∧
        1 ≤ expression.utf8ByteSize ∧ expression.utf8ByteSize ≤ 128 ∧
        subscription.toNat ≤ 0x7fffffff ∧ (b.client? owner).isSome = true) ∧
    b.clients.length ≤ settings.maxClients ∧ b.ids.Pairwise (· < ·) ∧
    given.Pairwise (· < ·) ∧ (∀ id ∈ given, id ≤ given.length) ∧
    (∀ sender f before r after, b.table.selecting f.topic = before ++ r :: after →
      r.action = .forward → ∃ owner c, r.owner = some owner ∧
        (before.foldl (Routing.follow sender f) ⟨b, [], []⟩).broker.client? owner = some c) ∧
    (b.clients = [] → b.table.routes = builtinRoutes settings) := by
  intro b given
  have hstart := wellFormed_ofSettings settings
  have h : b.WellFormed := hstart.run ops
  have hsettings : b.settings = settings := settings_run hstart ops
  have hgiven : given = List.range' 1 given.length := handedOut_eq hstart ops
  refine ⟨h.nodup, ?_, ?_, ?_, h.ids_increasing, ?_, ?_, ?_, ?_⟩
  · have hsize := h.size_le
    rwa [h.capacity, hsettings] at hsize
  · obtain ⟨own, hroutes, hown⟩ := h.routes
    refine ⟨own, by rw [hroutes, hsettings]; rfl, fun r hr => ?_⟩
    obtain ⟨e, i, o, heq, hpos, hle, hsub, ho⟩ := hown r hr
    exact ⟨e, i, o, heq, hpos, hle, hsub, client?_isSome_iff.mpr ho⟩
  · rw [← hsettings]
    exact h.clients_le
  · rw [hgiven]
    exact List.pairwise_lt_range'
  · intro id hid
    rw [hgiven] at hid
    exact Nat.lt_one_add_iff.mp (List.mem_range'_1.mp hid).2
  · intro sender f before r after hsplit hforward
    have hmem : r ∈ b.table.selecting f.topic := by
      rw [hsplit]
      exact List.mem_append_right _ (List.mem_cons_self ..)
    obtain ⟨owner, ho, hreg⟩ := h.owner_mem (List.mem_filter.mp hmem).1 hforward
    rw [← ids_foldl_follow sender f before ⟨b, [], []⟩] at hreg
    obtain ⟨c, hc⟩ := Option.isSome_iff_exists.mp (client?_isSome_iff.mpr hreg)
    exact ⟨owner, c, ho, hc⟩
  · intro hnone
    obtain ⟨own, hroutes, hown⟩ := h.routes
    have hempty : own = [] := by
      refine List.eq_nil_iff_forall_not_mem.mpr fun r hr => ?_
      obtain ⟨_, _, o, _, _, _, _, ho⟩ := hown r hr
      rw [ids, hnone] at ho
      exact nomatch ho
    rw [hroutes, hempty, List.append_nil, hsettings]

end Broker

end TopicBus
