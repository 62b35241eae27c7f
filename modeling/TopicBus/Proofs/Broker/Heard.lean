import TopicBus.Proofs.Broker.Ledger

/-!
What a client has told the broker. The routes of a client that the broker spares are those that its
own messages have asked for, each once however often it was asked for (`mem_routesOf_iff`).
-/

namespace TopicBus

namespace Broker

open Control Route

/-- The frames routed from a client since it was registered. -/
def heardFrom (b : Broker) (c : ClientId) : List Operation → List Frame
  | [] => []
  | op :: ops =>
    let heard := match op with
      | .route sender f => if sender = c ∧ (b.client? c).isSome = true then [f] else []
      | _ => []
    heard ++ (b.perform op).1.heardFrom c ops

/-- Whether one of the frames asks for an expression under a subscription. -/
def AskedIn (fs : List Frame) (expression : String) (subscription : UInt32) : Prop :=
  ∃ f ∈ fs, ∃ q, request? f = some q ∧ q.expression = expression ∧ q.subscription = subscription

variable {b : Broker} {c : ClientId} {l : Ledger} {expression : String} {subscription : UInt32}

theorem askedIn_append (fs gs : List Frame) :
    AskedIn (fs ++ gs) expression subscription ↔
      AskedIn fs expression subscription ∨ AskedIn gs expression subscription := by
  simp only [AskedIn, List.mem_append, or_and_right, exists_or]

theorem mem_registeredWith {q : Request} :
    (expression, subscription) ∈ l.registeredWith q ↔ (expression, subscription) ∈ l.registered ∨
      q.expression = expression ∧ q.subscription = subscription := by
  unfold Ledger.registeredWith
  split_ifs with hmem
  · refine (or_iff_left_of_imp ?_).symm
    rintro ⟨rfl, rfl⟩
    exact hmem
  · simp only [List.mem_append, List.mem_singleton, Prod.mk.injEq, eq_comm]

/-- One operation enters what its frame asks for. -/
theorem mem_registered_enter (op : Operation) :
    (expression, subscription) ∈ (l.enter b c op).registered ↔
      (expression, subscription) ∈ l.registered ∨
        AskedIn (b.heardFrom c [op]) expression subscription := by
  cases op with
  | route sender f =>
    simp only [Ledger.enter, heardFrom, List.append_nil]
    by_cases hc : sender = c ∧ (b.client? c).isSome = true
    · simp only [hc, and_self, ↓reduceIte]
      cases hq : request? f with
      | none => simp [AskedIn, hq]
      | some q => simp [AskedIn, hq, mem_registeredWith]
    · simp only [hc, ↓reduceIte]
      cases hq : request? f <;> simp [AskedIn]
  | drain id count =>
    simp only [Ledger.enter]
    split <;> simp [heardFrom, AskedIn]
  | hangUp id =>
    simp only [Ledger.enter]
    split <;> simp [heardFrom, AskedIn]
  | register peer capacity => simp [Ledger.enter, heardFrom, AskedIn]
  | cleanup id => simp [Ledger.enter, heardFrom, AskedIn]

theorem mem_registered_ledger (ops : List Operation) :
    (expression, subscription) ∈ (b.ledger c l ops).registered ↔
      (expression, subscription) ∈ l.registered ∨
        AskedIn (b.heardFrom c ops) expression subscription := by
  induction ops generalizing b l with
  | nil => simp [ledger, heardFrom, AskedIn]
  | cons op ops ih =>
    have hheard : b.heardFrom c (op :: ops) =
        b.heardFrom c [op] ++ (b.perform op).1.heardFrom c ops := by
      simp only [heardFrom, List.append_nil]
    rw [hheard, askedIn_append, ledger, ih, mem_registered_enter, or_assoc]

variable {settings : BrokerSettings} {ops : List Operation} {k : Client}

/-- The routes of a client that is spared are those that it has asked for. -/
theorem mem_routesOf_iff (hs : (ofSettings settings).Healthy c ops)
    (hk : ((ofSettings settings).run ops).client? c = some k) {r : Route} :
    r ∈ ((ofSettings settings).run ops).routesOf c ↔ ∃ expression subscription,
      r = .forward expression subscription c ∧
        AskedIn ((ofSettings settings).heardFrom c ops) expression subscription := by
  have hbalanced := (balanced_ofSettings settings c).run (wellFormed_ofSettings settings) hs
  rw [(hbalanced.during k hk).routes, List.mem_map]
  constructor
  · rintro ⟨⟨expression, subscription⟩, hmem, rfl⟩
    rcases (mem_registered_ledger ops).mp hmem with hnone | hasked
    · exact absurd hnone List.not_mem_nil
    · exact ⟨expression, subscription, rfl, hasked⟩
  · rintro ⟨expression, subscription, rfl, hasked⟩
    exact ⟨_, (mem_registered_ledger ops).mpr (.inr hasked), rfl⟩

/-- A route is in the table at most once, however often it was asked for. -/
theorem count_routesOf (hs : (ofSettings settings).Healthy c ops)
    (hk : ((ofSettings settings).run ops).client? c = some k)
    (hasked : AskedIn ((ofSettings settings).heardFrom c ops) expression subscription) :
    (((ofSettings settings).run ops).routesOf c).count
      (.forward expression subscription c) = 1 := by
  have hwell := (wellFormed_ofSettings settings).run ops
  have hnodup : (((ofSettings settings).run ops).routesOf c).Nodup := hwell.nodup.filter _
  exact List.count_eq_one_of_mem hnodup
    ((mem_routesOf_iff hs hk).mpr ⟨expression, subscription, rfl, hasked⟩)

end Broker

end TopicBus
