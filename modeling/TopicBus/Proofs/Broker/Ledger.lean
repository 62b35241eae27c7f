import TopicBus.Proofs.Broker.Effect

/-!
The books of one client over a whole run: what its messages have registered, what the frames routed
since then owe it, and what has become of those copies. As long as the client is never refused a
copy the books balance (`ledger_balances`), whatever the other clients do.
-/

namespace TopicBus

structure Ledger where
  /-- Each expression and subscription once, in the order in which they first came. -/
  registered : List (String × UInt32)
  /-- The copies that are due for them. -/
  owed : List Frame
  /-- What the reader of the outbox has taken. -/
  drained : List Frame
  /-- What was in the outbox when its reader went away. -/
  discarded : List Frame
  deriving DecidableEq, Repr

namespace Ledger

def empty : Ledger := ⟨[], [], [], []⟩

/-- The copies of a frame for what is registered. -/
def copies (l : Ledger) (f : Frame) : List Frame :=
  (l.registered.filter fun entry => Topic.selects entry.1 f.topic).map fun entry => f.tagged entry.2

/-- What is registered once a message with `q` has been heard. -/
def registeredWith (l : Ledger) (q : Control.Request) : List (String × UInt32) :=
  if (q.expression, q.subscription) ∈ l.registered then l.registered
  else l.registered ++ [(q.expression, q.subscription)]

/-- Enters an operation that is about to be performed on `b`. A frame is owed for what was
registered before it, and a message counts if it can be read and its sender is registered. -/
def enter (l : Ledger) (b : Broker) (c : ClientId) : Broker.Operation → Ledger
  | .route sender f =>
    { l with
      registered := match Control.request? f with
        | some q =>
          if sender = c ∧ (b.client? c).isSome = true then l.registeredWith q else l.registered
        | none => l.registered
      owed := l.owed ++ l.copies f }
  | .drain id count =>
    if id = c then { l with drained := l.drained ++ (b.drain id count).2.getD [] } else l
  | .hangUp id =>
    if id = c then
      { l with discarded := l.discarded ++ ((b.client? c).map fun k => k.outbox.frames).getD [] }
    else l
  | .register _ _ | .cleanup _ => l

end Ledger

namespace Broker

open Control Route

/-- The books of a client after a run. -/
def ledger (b : Broker) (c : ClientId) (l : Ledger) : List Operation → Ledger
  | [] => l
  | op :: ops => (b.perform op).1.ledger c (l.enter b c op) ops

/-- Whether a message is refused because the route table is full. -/
def isFullFor (b : Broker) (sender : ClientId) (f : Frame) : Bool :=
  match b.answerControl sender f with
  | .error (.exhausted (.routes _)) => true
  | _ => false

/-- An operation that refuses the client no copy, and none of its messages for want of room. -/
def Spares (b : Broker) (c : ClientId) : Operation → Prop
  | .route sender f => c ∉ (b.deliver sender f).refused ∧ (sender = c → b.isFullFor c f = false)
  | _ => True

/-- A run that spares a client. -/
def Healthy (b : Broker) (c : ClientId) : List Operation → Prop
  | [] => True
  | op :: ops => b.Spares c op ∧ (b.perform op).1.Healthy c ops

instance (b : Broker) (c : ClientId) : (op : Operation) → Decidable (b.Spares c op)
  | .route sender f => inferInstanceAs
      (Decidable (c ∉ (b.deliver sender f).refused ∧ (sender = c → b.isFullFor c f = false)))
  | .register _ _ | .cleanup _ | .drain _ _ | .hangUp _ => isTrue trivial

instance decidableHealthy (b : Broker) (c : ClientId) :
    (ops : List Operation) → Decidable (b.Healthy c ops)
  | [] => isTrue trivial
  | op :: ops =>
    have := decidableHealthy (b.perform op).1 c ops
    inferInstanceAs (Decidable (b.Spares c op ∧ (b.perform op).1.Healthy c ops))

/-! ## The routes of one client -/

variable {b : Broker} {c o : ClientId} {k : Client} {l : Ledger}

theorem routesOf_cleanup (b : Broker) {id : ClientId} (h : o ≠ id) :
    (b.cleanup id).1.routesOf o = b.routesOf o := by
  rw [cleanup_eq]
  simp only [routesOf, RouteTable.removeClient, List.filter_filter]
  refine List.filter_congr fun r _ => ?_
  by_cases ho : r.owner = some o
  · simp [ho, h]
  · simp [ho]

/-- Nobody has an outbox under an id that is still to be given. -/
theorem WellFormed.outbox?_eq_none (h : b.WellFormed) (hc : b.nextId ≤ c) :
    b.client? c = none ∧ b.outbox? c = none := by
  have hclient : b.client? c = none := by
    cases hk : b.client? c with
    | none => rfl
    | some k =>
      have hlt := h.ids_lt c (client?_isSome_iff.mp (by rw [hk]; rfl))
      exact absurd hlt (Nat.not_lt.mpr hc)
  refine ⟨hclient, ?_⟩
  have hdeparted : (b.departed.find? fun entry => entry.1 = c) = none := by
    refine List.find?_eq_none.mpr fun entry hentry => ?_
    have hlt := h.departed_lt entry hentry
    simp only [decide_eq_true_eq]
    intro heq
    rw [heq] at hlt
    exact Nat.not_lt.mpr hc hlt
  simp only [outbox?, hclient, hdeparted, Option.map_none]

/-- Nothing leads to a client that is not registered. -/
theorem WellFormed.routesOf_eq_nil (h : b.WellFormed) (hc : b.client? c = none) :
    b.routesOf c = [] := by
  refine List.filter_eq_nil_iff.mpr fun r hr howner => ?_
  have hmem := h.mem_ids_of_owner hr (of_decide_eq_true howner)
  rw [← client?_isSome_iff, hc] at hmem
  exact Bool.noConfusion hmem

/-! ## Balance -/

/-- The books of a registered client agree with its routes and with its outbox. -/
structure Agrees (b : Broker) (c : ClientId) (l : Ledger) (k : Client) : Prop where
  routes : b.routesOf c = l.registered.map fun entry => .forward entry.1 entry.2 c
  frames : l.drained ++ l.discarded ++ k.outbox.frames = l.owed
  /-- As long as the reader is there, nothing is discarded. -/
  kept : k.outbox.isOpen = true → l.discarded = []

/-- The books are empty before a client is registered and agree from then on until it is gone. -/
structure Balanced (b : Broker) (c : ClientId) (l : Ledger) : Prop where
  before : b.nextId ≤ c → l = .empty
  during : ∀ k, b.client? c = some k → b.Agrees c l k

variable {sender : ClientId} {f : Frame} {q : Request}

theorem subscriptionsFor_eq_routesOf (b : Broker) (o : ClientId) (topic : String) :
    b.subscriptionsFor o topic = ((b.routesOf o).filter fun r =>
      r.action = .forward ∧ r.selects topic).map Route.subscription := by
  rw [subscriptionsFor, routesOf, List.filter_filter]
  congr 2
  funext r
  by_cases howner : r.owner = some o
  · simp [howner]
  · simp [howner]

/-- The copies that are due are those that the outbox is offered. -/
theorem Agrees.copies (hl : b.Agrees c l k) (f : Frame) :
    (b.subscriptionsFor c f.topic).map f.tagged = l.copies f := by
  rw [subscriptionsFor_eq_routesOf, hl.routes, List.filter_map, List.map_map, List.map_map,
    Ledger.copies]
  congr 2
  funext entry
  simp [Function.comp, Route.forward, Route.selects]

theorem Agrees.route_mem_iff (hl : b.Agrees c l k) :
    q.route c ∈ b.table.routes ↔ (q.expression, q.subscription) ∈ l.registered := by
  have howned : q.route c ∈ b.table.routes ↔ q.route c ∈ b.routesOf c := by
    simp [routesOf, Request.route, Route.forward]
  rw [howned, hl.routes, List.mem_map]
  constructor
  · rintro ⟨entry, hentry, heq⟩
    simp only [Request.route, Route.forward, Route.mk.injEq] at heq
    obtain ⟨hexpr, hsub, -⟩ := heq
    rwa [← hexpr, ← hsub]
  · exact fun hmem => ⟨_, hmem, rfl⟩

/-- A message that is not refused for want of room leaves its route in the table. -/
theorem granted_of_fits (hk : b.client? c = some k) (hq : request? f = some q)
    (hfits : b.isFullFor c f = false) :
    b.granted c f = if q.route c ∈ b.table.routes then [] else [q.route c] := by
  have hsome : (b.client? c).isSome = true := by rw [hk]; rfl
  have hadmits : b.table.Admits (q.route c) := by
    by_contra hnot
    rw [isFullFor, answerControl_of_not_admits hq hsome hnot] at hfits
    exact Bool.noConfusion hfits
  rw [granted, hq]
  by_cases hmem : q.route c ∈ b.table.routes
  · simp only [hmem, not_true_eq_false, false_and, and_false, ↓reduceIte]
  · have hroom : b.table.routes.length < b.table.capacity := hadmits.resolve_left hmem
    simp only [hsome, hmem, hroom, not_false_eq_true, and_self, ↓reduceIte]

theorem granted_of_other (hne : sender ≠ c) :
    ((b.granted sender f).filter fun r => r.owner = some c) = [] := by
  refine List.filter_eq_nil_iff.mpr fun r hr => ?_
  obtain ⟨q, -, rfl, -⟩ := granted_mem hr
  simpa [Request.route, Route.forward] using hne

/-- What a message adds to the books is what it adds to the routes of the client. -/
theorem Agrees.granted (hl : b.Agrees c l k) (hk : b.client? c = some k)
    (hfits : sender = c → b.isFullFor c f = false) :
    b.routesOf c ++ (b.granted sender f).filter (fun r => r.owner = some c) =
      (l.enter b c (.route sender f)).registered.map fun entry => .forward entry.1 entry.2 c := by
  have hsome : (b.client? c).isSome = true := by rw [hk]; rfl
  simp only [Ledger.enter, hsome, and_true]
  by_cases hc : sender = c
  · subst hc
    cases hq : request? f with
    | none => simp only [Broker.granted, hq, List.filter_nil, List.append_nil, hl.routes]
    | some q =>
      have hmem := hl.route_mem_iff (q := q)
      rw [granted_of_fits hk hq (hfits rfl), hl.routes]
      simp only [↓reduceIte, Ledger.registeredWith]
      by_cases hin : (q.expression, q.subscription) ∈ l.registered
      · rw [if_pos (hmem.mpr hin), if_pos hin, List.filter_nil, List.append_nil]
      · rw [if_neg fun hroute => hin (hmem.mp hroute), if_neg hin, List.map_append]
        simp [Request.route, Route.forward]
  · rw [granted_of_other hc, List.append_nil, hl.routes]
    cases request? f with
    | none => rfl
    | some q => simp only [hc, ↓reduceIte]

theorem Agrees.route (h : b.WellFormed) (hl : b.Agrees c l k) (hk : b.client? c = some k)
    (hs : b.Spares c (.route sender f)) {k' : Client}
    (hk' : (b.route sender f).1.client? c = some k') :
    (b.route sender f).1.Agrees c (l.enter b c (.route sender f)) k' := by
  obtain ⟨htaken, hfits⟩ := hs
  obtain ⟨inbox, hinbox⟩ := onControl_client? sender f hk
  have hroom : (l.copies f).length ≤ k.outbox.room := by
    have hrefused := (h.deliver_client sender f hk).2
    rw [← hl.copies f, List.length_map]
    exact Nat.le_of_not_lt fun hover => htaken (hrefused.mpr hover)
  have houtbox : k'.outbox = { k.outbox with frames := k.outbox.frames ++ l.copies f } := by
    rw [h.route_client? sender f hk, hinbox, hl.copies f] at hk'
    obtain rfl := Option.some.inj hk'
    simp only [Outbox.offer, List.take_of_length_le hroom]
  refine ⟨?_, ?_, ?_⟩
  · rw [h.routesOf_route, if_neg htaken]
    exact hl.granted hk hfits
  · rw [houtbox]
    change l.drained ++ l.discarded ++ (k.outbox.frames ++ l.copies f) = l.owed ++ l.copies f
    rw [← List.append_assoc, hl.frames]
  · rw [houtbox]
    exact hl.kept

/-- What changes neither the routes nor the outbox of a client changes nothing in its books. -/
theorem Agrees.of_same (hl : b.Agrees c l k) {b' : Broker} {k' : Client}
    (hroutes : b'.routesOf c = b.routesOf c) (houtbox : k'.outbox = k.outbox) :
    b'.Agrees c l k' where
  routes := hroutes.trans hl.routes
  frames := by rw [houtbox]; exact hl.frames
  kept := by rw [houtbox]; exact hl.kept

theorem Agrees.drain (hl : b.Agrees c l k) (hk : b.client? c = some k) (id : ClientId)
    (count : Nat) {k' : Client} (hk' : (b.drain id count).1.client? c = some k') :
    (b.drain id count).1.Agrees c (l.enter b c (.drain id count)) k' := by
  have hroutes : (b.drain id count).1.routesOf c = b.routesOf c := by
    rw [routesOf, (drain_keeps b id count).2.1, routesOf]
  by_cases hid : id = c
  · subst hid
    have hdrain := drain_of_client? hk count
    cases hopen : k.outbox.isOpen with
    | true =>
      rw [hopen, if_pos rfl] at hdrain
      rw [hdrain, client?_setOutbox, if_pos rfl, hk, Option.map_some] at hk'
      obtain rfl := Option.some.inj hk'
      refine ⟨hroutes.trans ?_, ?_, ?_⟩
      · simp only [Ledger.enter, ↓reduceIte]
        exact hl.routes
      · have hframes := hl.frames
        rw [hl.kept hopen, List.append_nil] at hframes
        simp only [Ledger.enter, hdrain, hl.kept hopen, Option.getD_some, ↓reduceIte,
          List.append_nil, List.append_assoc, Outbox.take, List.take_append_drop]
        exact hframes
      · intro _
        simp only [Ledger.enter, ↓reduceIte]
        exact hl.kept hopen
    | false =>
      rw [hopen, if_neg Bool.false_ne_true] at hdrain
      rw [hdrain, hk] at hk'
      obtain rfl := Option.some.inj hk'
      have hsame : l.enter b id (.drain id count) = l := by
        simp only [Ledger.enter, hdrain, Option.getD_none, List.append_nil, ↓reduceIte]
      rw [hsame]
      exact hl.of_same hroutes rfl
  · rw [client?_drain_other b count (Ne.symm hid), hk] at hk'
    obtain rfl := Option.some.inj hk'
    simp only [Ledger.enter, hid, ↓reduceIte]
    exact hl.of_same hroutes rfl

theorem Agrees.hangUp (hl : b.Agrees c l k) (hk : b.client? c = some k) (id : ClientId)
    {k' : Client} (hk' : (b.hangUp id).client? c = some k') :
    (b.hangUp id).Agrees c (l.enter b c (.hangUp id)) k' := by
  have hroutes : (b.hangUp id).routesOf c = b.routesOf c := by
    rw [routesOf, (hangUp_keeps b id).2.1, routesOf]
  by_cases hid : id = c
  · subst hid
    rw [hangUp_of_client? hk, client?_setOutbox, if_pos rfl, hk, Option.map_some] at hk'
    obtain rfl := Option.some.inj hk'
    simp only [Ledger.enter, hk, Option.map_some, Option.getD_some, ↓reduceIte]
    refine ⟨hroutes.trans hl.routes, ?_, ?_⟩
    · simp only [Outbox.close, List.append_nil, ← List.append_assoc]
      exact hl.frames
    · intro hopen
      exact absurd hopen Bool.false_ne_true
  · rw [client?_hangUp_other b (Ne.symm hid), hk] at hk'
    obtain rfl := Option.some.inj hk'
    simp only [Ledger.enter, hid, ↓reduceIte]
    exact hl.of_same hroutes rfl

/-- A client begins without routes and with an empty outbox. -/
theorem agrees_new (h : b.WellFormed) (hc : b.client? c = none) {peer : String} {capacity : Nat} :
    b.Agrees c .empty ⟨c, peer, none, .ofCapacity capacity⟩ where
  routes := h.routesOf_eq_nil hc
  frames := rfl
  kept := fun _ => rfl

/-! ## One operation -/

/-- A client that is to come has nothing in its books. -/
theorem enter_empty (h : b.WellFormed) (hc : b.nextId ≤ c) (op : Operation) :
    Ledger.empty.enter b c op = .empty := by
  obtain ⟨hclient, houtbox⟩ := h.outbox?_eq_none hc
  cases op with
  | register peer capacity => rfl
  | route sender f =>
    simp only [Ledger.enter, hclient, Option.isSome_none, Bool.false_eq_true, and_false, ↓reduceIte]
    cases request? f with
    | none => rfl
    | some q => rfl
  | cleanup id => rfl
  | drain id count =>
    simp only [Ledger.enter]
    split
    · next hid =>
      subst hid
      simp only [Broker.drain, houtbox]
      rfl
    · rfl
  | hangUp id =>
    simp only [Ledger.enter, hclient]
    split <;> rfl

theorem Balanced.register (h : b.WellFormed) (hl : b.Balanced c l) {b' : Broker} {peer : String}
    {capacity : Nat} {id : ClientId} {log : List Event}
    (hr : b.register peer capacity = .ok (b', id, log)) {k' : Client}
    (hk' : b'.client? c = some k') : b'.Agrees c l k' := by
  have hclient := client?_register hr c
  obtain ⟨-, -, hb⟩ := register_eq hr
  have hroutes : b'.routesOf c = b.routesOf c := by rw [hb, routesOf, routesOf]
  cases hk : b.client? c with
  | some k =>
    rw [hk, hk', Option.some_or] at hclient
    obtain rfl := Option.some.inj hclient
    exact (hl.during k' hk).of_same hroutes rfl
  | none =>
    rw [hk, hk', Option.none_or] at hclient
    split_ifs at hclient with hid
    obtain rfl := Option.some.inj hclient
    subst hid
    rw [hl.before (Nat.le_refl _)]
    exact (agrees_new h hk).of_same hroutes rfl

theorem Balanced.cleanup (hl : b.Balanced c l) {id : ClientId} {k' : Client}
    (hk' : (b.cleanup id).1.client? c = some k') : (b.cleanup id).1.Agrees c l k' := by
  rw [client?_cleanup] at hk'
  split_ifs at hk' with hid
  exact (hl.during k' hk').of_same (routesOf_cleanup b hid) rfl

theorem Balanced.perform (h : b.WellFormed) (hl : b.Balanced c l) {op : Operation}
    (hs : b.Spares c op) : (b.perform op).1.Balanced c (l.enter b c op) := by
  constructor
  · intro hc
    have hnext : b.nextId ≤ c := by
      rcases nextId_perform h op with ⟨-, hnext⟩ | ⟨-, hnext⟩
      · rw [hnext] at hc
        exact Nat.le_of_succ_le hc
      · rwa [hnext] at hc
    rw [hl.before hnext]
    exact enter_empty h hnext op
  · intro k' hk'
    cases op with
    | register peer capacity =>
      simp only [Broker.perform] at hk' ⊢
      cases hr : b.register peer capacity with
      | error why =>
        rw [hr] at hk'
        exact hl.during k' hk'
      | ok x =>
        rw [hr] at hk'
        exact hl.register h hr hk'
    | route sender f =>
      obtain ⟨k, hk⟩ := client?_of_ids (h.ids_route sender f) hk'
      exact (hl.during k hk).route h hk hs hk'
    | cleanup id => exact hl.cleanup hk'
    | drain id count =>
      obtain ⟨k, hk⟩ := client?_of_ids (drain_keeps b id count).2.2.2 hk'
      exact (hl.during k hk).drain hk id count hk'
    | hangUp id =>
      obtain ⟨k, hk⟩ := client?_of_ids (hangUp_keeps b id).2.2.2 hk'
      exact (hl.during k hk).hangUp hk id hk'

/-! ## Whole runs -/

theorem Balanced.run (h : b.WellFormed) (hl : b.Balanced c l) {ops : List Operation}
    (hs : b.Healthy c ops) : (b.run ops).Balanced c (b.ledger c l ops) := by
  induction ops generalizing b l with
  | nil => exact hl
  | cons op ops ih => exact ih (h.perform op) (hl.perform h hs.1) hs.2

theorem balanced_ofSettings (settings : BrokerSettings) (c : ClientId) :
    (ofSettings settings).Balanced c .empty where
  before := fun _ => rfl
  during := nofun

/-- Nothing is discarded but by the reader of the outbox going away. -/
theorem discarded_ledger {ops : List Operation} (hops : .hangUp c ∉ ops) :
    (b.ledger c l ops).discarded = l.discarded := by
  induction ops generalizing b l with
  | nil => rfl
  | cons op ops ih =>
    obtain ⟨hop, hrest⟩ := not_or.mp (mt List.mem_cons.mpr hops)
    refine (ih hrest).trans ?_
    cases op with
    | register | route | cleanup => rfl
    | drain id count =>
      simp only [Ledger.enter]
      split <;> rfl
    | hangUp id =>
      have hid : id ≠ c := fun heq => hop (by rw [heq])
      simp only [Ledger.enter, hid, ↓reduceIte]

/-- A client that is never refused a copy, and none of whose messages is refused because the table
is full, gets its due, whatever the other clients do: for each frame routed since, by anyone, one
copy for each expression and subscription that it had registered by then and that selects the
frame, in the order in which they were first registered. All of these copies have been taken out of
its outbox or are in it, in this order, but for those that were in it when its reader went away. -/
theorem ledger_balances (settings : BrokerSettings) (ops : List Operation) (c : ClientId)
    (k : Client) (hs : (ofSettings settings).Healthy c ops)
    (hk : ((ofSettings settings).run ops).client? c = some k) :
    let l := (ofSettings settings).ledger c .empty ops
    l.drained ++ l.discarded ++ k.outbox.frames = l.owed ∧
      (.hangUp c ∉ ops → l.drained ++ k.outbox.frames = l.owed) ∧
      ((ofSettings settings).run ops).routesOf c =
        l.registered.map fun entry => .forward entry.1 entry.2 c := by
  intro l
  have hbalanced := (balanced_ofSettings settings c).run (wellFormed_ofSettings settings) hs
  have hagrees := hbalanced.during k hk
  refine ⟨hagrees.frames, ?_, hagrees.routes⟩
  intro hops
  have hframes := hagrees.frames
  rwa [discarded_ledger hops, Ledger.empty, List.append_nil] at hframes

def message (topic payload : String) : Frame :=
  .ofPayload (.forTopic topic) (Utf8.encode payload)

/-- The second client never reads and has room for one frame. -/
def besideStalled : List Operation :=
  [.register "a" 4, .register "b" 1,
    .route 1 (message subscribeTopic "\x7b\"topic\": \"T\", \"route_id\": 7\x7d"),
    .route 2 (message subscribeTopic "\x7b\"topic\": \">\", \"route_id\": 1\x7d"),
    .route 1 (message subscribeTopic "\x7b\"topic\": \"*\", \"route_id\": 9\x7d"),
    .route 2 (message "T" ""), .drain 1 1, .route 2 (message "T" "")]

theorem ledger_balances_besideStalled :
    (ofSettings {}).Healthy 1 besideStalled ∧
      ∃ k, ((ofSettings {}).run besideStalled).client? 1 = some k ∧
        let l := (ofSettings {}).ledger 1 .empty besideStalled
        l.drained ++ k.outbox.frames = l.owed ∧ l.owed.map (·.header.control) = [7, 9, 7, 9] := by
  have hs : (ofSettings {}).Healthy 1 besideStalled := by decide +kernel
  have hsome : (((ofSettings {}).run besideStalled).client? 1).isSome = true := by decide +kernel
  have hkept : .hangUp 1 ∉ besideStalled := by simp [besideStalled]
  obtain ⟨k, hk⟩ := Option.isSome_iff_exists.mp hsome
  obtain ⟨-, hbalance, -⟩ := ledger_balances {} besideStalled 1 k hs hk
  exact ⟨hs, k, hk, hbalance hkept, by decide +kernel⟩

/-- The reader of the only outbox goes away before it has taken anything. -/
def unread : List Operation :=
  [.register "a" 16, .route 1 (message subscribeTopic "\x7b\"topic\": \"T\", \"route_id\": 1\x7d"),
    .route 1 (message "T" "0"), .hangUp 1]

/-- Without what is discarded the books do not balance. -/
theorem drained_and_queued_ne_owed_unread :
    (ofSettings {}).Healthy 1 unread ∧
      ∃ k, ((ofSettings {}).run unread).client? 1 = some k ∧
        let l := (ofSettings {}).ledger 1 .empty unread
        l.drained ++ k.outbox.frames ≠ l.owed := by
  have hs : (ofSettings {}).Healthy 1 unread := by decide +kernel
  have hqueue : (((ofSettings {}).run unread).client? 1).map (fun k => k.outbox.frames) =
      some [] := by
    decide +kernel
  have howed : ((ofSettings {}).ledger 1 .empty unread).drained ++ [] ≠
      ((ofSettings {}).ledger 1 .empty unread).owed := by decide +kernel
  obtain ⟨k, hk, hframes⟩ := Option.map_eq_some_iff.mp hqueue
  refine ⟨hs, k, hk, ?_⟩
  rw [hframes]
  exact howed

end Broker

end TopicBus
