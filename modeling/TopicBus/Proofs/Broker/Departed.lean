import TopicBus.Proofs.Broker.Ledger

/-!
Clients that are gone. An id is never given again, so a client that was taken away stays away
(`WellFormed.not_mem_ids_run`). What it asks for is refused, but its frames are still routed, and
they go where those of any other sender would go (`WellFormed.route_sender`).
-/

namespace TopicBus.Broker

open Control Routing

variable {b : Broker} {id sender sender' : ClientId} {f : Frame}

theorem client?_eq_none_iff : b.client? id = none ↔ id ∉ b.ids := by
  rw [← client?_isSome_iff, Bool.not_eq_true, Option.isSome_eq_false_iff, Option.isNone_iff_eq_none]

theorem mem_ids_cleanup (b : Broker) (id o : ClientId) :
    o ∈ (b.cleanup id).1.ids ↔ o ∈ b.ids ∧ o ≠ id := by
  rw [← client?_isSome_iff, client?_cleanup, ← client?_isSome_iff]
  split_ifs with h
  · simp [h]
  · simp [h]

/-- Only its own cleanup takes a client away, and nothing brings it back. -/
theorem WellFormed.mem_ids_perform (h : b.WellFormed) (hid : id < b.nextId) (op : Operation) :
    id ∈ (b.perform op).1.ids ↔ id ∈ b.ids ∧ op ≠ .cleanup id := by
  cases op with
  | register peer capacity =>
    simp only [Broker.perform, ne_eq, reduceCtorEq, not_false_eq_true, and_true]
    cases hr : b.register peer capacity with
    | error why => exact Iff.rfl
    | ok x =>
      obtain ⟨-, -, hb⟩ := register_eq hr
      simp only [hb, ids, List.map_append, List.mem_append, List.map_cons, List.map_nil,
        List.mem_singleton, Nat.ne_of_lt hid, or_false]
  | route sender f =>
    simp only [Broker.perform, h.ids_route, ne_eq, reduceCtorEq, not_false_eq_true, and_true]
  | cleanup o =>
    simp only [Broker.perform, mem_ids_cleanup, ne_eq, Operation.cleanup.injEq, eq_comm]
  | drain o count =>
    simp only [Broker.perform, (drain_keeps b o count).2.2.2, ne_eq, reduceCtorEq,
      not_false_eq_true, and_true]
  | hangUp o =>
    simp only [Broker.perform, (hangUp_keeps b o).2.2.2, ne_eq, reduceCtorEq, not_false_eq_true,
      and_true]

theorem WellFormed.not_mem_ids_run (h : b.WellFormed) (hid : id < b.nextId) (hgone : id ∉ b.ids)
    (ops : List Operation) : id ∉ (b.run ops).ids := by
  have hrun : id < (b.run ops).nextId ∧ id ∉ (b.run ops).ids := by
    refine h.run_keeps (P := fun b' => id < b'.nextId ∧ id ∉ b'.ids) ⟨hid, hgone⟩ ?_
    rintro b' h' ⟨hid', hgone'⟩ op -
    refine ⟨Nat.lt_of_lt_of_le hid' (nextId_le_perform h' op), fun hmem => ?_⟩
    exact hgone' ((h'.mem_ids_perform hid' op).mp hmem).1
  exact hrun.2

/-- There is nothing left of the client to be cleaned up. -/
theorem WellFormed.cleanup_of_gone (h : b.WellFormed) (hgone : b.client? id = none) :
    b.cleanup id = (b, []) := by
  have hkept : (b.table.routes.filter fun r => r.owner ≠ some id) = b.table.routes := by
    refine List.filter_eq_self.mpr fun r hr => decide_eq_true fun howner => ?_
    exact client?_eq_none_iff.mp hgone (h.mem_ids_of_owner hr howner)
  simp only [Broker.cleanup, hgone, RouteTable.removeClient, hkept]

/-! ## What the client still says -/

theorem onControl_of_gone (hgone : b.client? id = none) (f : Frame) :
    (b.onControl id f).1 = b := by
  rw [onControl_eq, hgone]
  cases request? f with
  | none => rfl
  | some q => exact if_neg fun h => Bool.false_ne_true h.1

theorem granted_of_gone (hgone : b.client? id = none) (f : Frame) : b.granted id f = [] := by
  refine List.eq_nil_iff_forall_not_mem.mpr fun r hr => ?_
  obtain ⟨-, -, -, hsome, -⟩ := granted_mem hr
  rw [hgone] at hsome
  exact Bool.false_ne_true hsome

/-- A topic that asks the broker for nothing. -/
theorem onControl_of_plain (hsubscribe : f.topic ≠ subscribeTopic) (hhello : f.topic ≠ helloTopic)
    (b : Broker) (sender : ClientId) : (b.onControl sender f).1 = b := by
  rw [onControl, answerControl, if_neg hsubscribe, if_neg hhello]

/-- A sender matters for what it asks of the broker, and for nothing else. -/
theorem WellFormed.route_sender (h : b.WellFormed)
    (hsame : (b.onControl sender' f).1 = (b.onControl sender f).1) :
    (b.route sender' f).1 = (b.route sender f).1 := by
  obtain ⟨own, hroutes, hown⟩ := h.routes
  obtain ⟨log, hdeliver⟩ := deliver_eq hroutes sender f
  obtain ⟨log', hdeliver'⟩ := deliver_eq hroutes sender' f
  obtain ⟨hbroker, hrefused⟩ : (b.deliver sender' f).broker = (b.deliver sender f).broker ∧
      (b.deliver sender' f).refused = (b.deliver sender f).refused := by
    rw [hdeliver, hdeliver', hsame]
    exact foldl_follow_alike (e := id) (fun _ _ _ => rfl)
      (fun r hr => (hown r (List.mem_filter.mp hr).1).forwards) rfl rfl
  simp only [Broker.route, foldl_purge, hbroker, hrefused]

/-- Of what a client that is gone sends, the others get their copies, and a client whose outbox
refuses one loses its routes. -/
theorem WellFormed.route_of_gone (h : b.WellFormed) (hgone : b.client? id = none) (f : Frame) :
    (b.route id f).1.ids = b.ids ∧
      (b.route id f).1.table.routes = b.table.routes.filter (fun r => !b.overflows f r) ∧
      ∀ o c, b.client? o = some c → (b.route id f).1.client? o =
        some { c with outbox := c.outbox.offer ((b.subscriptionsFor o f.topic).map f.tagged) } := by
  refine ⟨h.ids_route id f, ?_, fun o c hc => ?_⟩
  · rw [h.routes_route, granted_of_gone hgone, List.append_nil]
  · rw [h.route_client? id f hc, onControl_of_gone hgone, hc]
    rfl

end TopicBus.Broker
