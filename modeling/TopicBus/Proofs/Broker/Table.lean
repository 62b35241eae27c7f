import Mathlib.Data.List.Nodup
import TopicBus.Route

/-!
Route tables over time. A table holds each route once, in the order in which they came in last
(`Listed`), and that is kept by every change. Adding a route that is there, or for which there is no
room, changes nothing (`Settled`); as a route that has been added stays settled, adding routes once
more does nothing (`addAll_addAll`).
-/

namespace TopicBus.RouteTable

/-- What may be done to a table. -/
inductive Change where
  | add (r : Route)
  | removeClient (owner : ClientId)
  deriving Repr

/-- What is said when a route is added: whether it is new, or why it is refused. -/
def answer (t : RouteTable) (r : Route) : Except Fault Bool := (t.add r).map Prod.snd

/-- The table after a change. A route that is refused leaves it as it is. -/
def change (t : RouteTable) : Change → RouteTable
  | .add r =>
    match t.add r with
    | .ok (t', _) => t'
    | .error _ => t
  | .removeClient owner => (t.removeClient owner).1

/-- The route that a change brings in. -/
def inserted (t : RouteTable) : Change → List Route
  | .add r =>
    match t.answer r with
    | .ok true => [r]
    | _ => []
  | .removeClient _ => []

def changes (t : RouteTable) : List Change → RouteTable
  | [] => t
  | c :: cs => (t.change c).changes cs

/-- The routes that changes bring in, the latest first. -/
def insertions (t : RouteTable) : List Change → List Route
  | [] => []
  | c :: cs => (t.change c).insertions cs ++ t.inserted c

/-- Adds routes one after the other, refused or not. -/
def addAll (t : RouteTable) (rs : List Route) : RouteTable := t.changes (rs.map .add)

variable {t : RouteTable} {r s : Route} {past : List Route}

/-! ## One route -/

theorem add_of_mem (h : r ∈ t.routes) : t.add r = .ok (t, false) := if_pos h

theorem add_of_full (h : r ∉ t.routes) (hfull : t.capacity ≤ t.routes.length) :
    t.add r = .error (.exhausted (.routes t.capacity)) := by
  rw [add, if_neg h, if_pos hfull]

theorem add_of_room (h : r ∉ t.routes) (hroom : t.routes.length < t.capacity) :
    t.add r = .ok ({ t with routes := t.routes ++ [r] }, true) := by
  rw [add, if_neg h, if_neg (Nat.not_le.mpr hroom)]

theorem answer_eq_false_iff : t.answer r = .ok false ↔ r ∈ t.routes := by
  constructor
  · intro h
    by_contra hmem
    by_cases hfull : t.capacity ≤ t.routes.length
    · rw [answer, add_of_full hmem hfull] at h
      nomatch h
    · rw [answer, add_of_room hmem (Nat.lt_of_not_le hfull)] at h
      nomatch h
  · intro h
    rw [answer, add_of_mem h]
    rfl

theorem answer_eq_error_iff : (∃ why, t.answer r = .error why) ↔
    r ∉ t.routes ∧ t.capacity ≤ t.routes.length := by
  constructor
  · rintro ⟨why, h⟩
    have hmem : r ∉ t.routes := fun hmem => by
      rw [answer_eq_false_iff.mpr hmem] at h
      nomatch h
    refine ⟨hmem, Nat.le_of_not_lt fun hroom => ?_⟩
    rw [answer, add_of_room hmem hroom] at h
    nomatch h
  · rintro ⟨hmem, hfull⟩
    exact ⟨_, by rw [answer, add_of_full hmem hfull]; rfl⟩

/-- Adding the route changes nothing: it is there, or the table is full. -/
def Settled (t : RouteTable) (r : Route) : Prop :=
  r ∈ t.routes ∨ t.capacity ≤ t.routes.length

theorem change_of_settled (h : t.Settled r) :
    t.change (.add r) = t ∧ t.inserted (.add r) = [] := by
  by_cases hmem : r ∈ t.routes
  · simp [change, inserted, answer, add_of_mem hmem, Except.map]
  · simp [change, inserted, answer, add_of_full hmem (h.resolve_left hmem), Except.map]

theorem change_of_not_settled (h : ¬t.Settled r) :
    t.change (.add r) = { t with routes := t.routes ++ [r] } ∧ t.inserted (.add r) = [r] := by
  obtain ⟨hmem, hfull⟩ := not_or.mp h
  simp [change, inserted, answer, add_of_room hmem (Nat.lt_of_not_le hfull), Except.map]

theorem answer_eq_true_iff : t.answer r = .ok true ↔ ¬t.Settled r := by
  constructor
  · rintro h (hmem | hfull)
    · rw [answer_eq_false_iff.mpr hmem] at h
      nomatch h
    · by_cases hmem : r ∈ t.routes
      · rw [answer_eq_false_iff.mpr hmem] at h
        nomatch h
      · rw [answer, add_of_full hmem hfull] at h
        nomatch h
  · intro hnew
    obtain ⟨hmem, hfull⟩ := not_or.mp hnew
    rw [answer, add_of_room hmem (Nat.lt_of_not_le hfull)]
    rfl

/-! ## Routes that leave -/

theorem mem_removeClient {o : ClientId} :
    r ∈ (t.removeClient o).1.routes ↔ r ∈ t.routes ∧ r.owner ≠ some o := by
  simp [removeClient]

theorem removeClient_count (t : RouteTable) (o : ClientId) :
    (t.removeClient o).2 = t.routes.countP fun r => r.owner = some o := by
  have hsplit : t.routes.length = t.routes.countP (fun r => r.owner = some o) +
      t.routes.countP fun r => r.owner ≠ some o := by
    simpa using List.length_eq_countP_add_countP (fun r : Route => r.owner = some o) (l := t.routes)
  simp only [removeClient, ← List.countP_eq_length_filter]
  omega

/-! ## Order -/

/-- The table is within its capacity and lists each of its routes once, in the order of their latest
insertions. `past` holds all insertions, the latest first. -/
structure Listed (t : RouteTable) (past : List Route) : Prop where
  nodup : t.routes.Nodup
  size_le : t.routes.length ≤ t.capacity
  inserted : ∀ r ∈ t.routes, r ∈ past
  ordered : t.routes.Pairwise fun r s => past.idxOf s < past.idxOf r

theorem Listed.insert (h : t.Listed past) (hnew : ¬t.Settled r) :
    ({ t with routes := t.routes ++ [r] } : RouteTable).Listed (r :: past) := by
  obtain ⟨hmem, hfull⟩ := not_or.mp hnew
  have hne : ∀ s ∈ t.routes, r ≠ s := fun s hs heq => hmem (heq ▸ hs)
  -- Every other insertion is one further back now.
  have hback : ∀ s ∈ t.routes, (r :: past).idxOf s = past.idxOf s + 1 :=
    fun s hs => List.idxOf_cons_ne past (hne s hs)
  constructor
  · exact List.nodup_append.mpr ⟨h.nodup, List.nodup_singleton r, by
      simpa using fun s hs => (hne s hs).symm⟩
  · rw [List.length_append, List.length_singleton]
    exact Nat.lt_of_not_le hfull
  · intro s hs
    rcases List.mem_append.mp hs with hs | hs
    · exact List.mem_cons_of_mem _ (h.inserted s hs)
    · exact List.mem_cons.mpr (.inl (List.mem_singleton.mp hs))
  · refine List.pairwise_append.mpr ⟨?_, List.pairwise_singleton _ r, ?_⟩
    · refine h.ordered.imp_of_mem fun {a b} ha hb hab => ?_
      rw [hback a ha, hback b hb]
      exact Nat.succ_lt_succ hab
    · intro s hs b hb
      obtain rfl := List.mem_singleton.mp hb
      rw [hback s hs, List.idxOf_cons_self]
      exact Nat.succ_pos _

theorem Listed.removeClient (h : t.Listed past) (o : ClientId) :
    (t.removeClient o).1.Listed past where
  nodup := h.nodup.filter _
  size_le := Nat.le_trans (List.length_filter_le _ _) h.size_le
  inserted := fun r hr => h.inserted r (mem_removeClient.mp hr).1
  ordered := h.ordered.filter _

theorem Listed.change (h : t.Listed past) (c : Change) :
    (t.change c).Listed (t.inserted c ++ past) := by
  cases c with
  | add r =>
    by_cases hsettled : t.Settled r
    · obtain ⟨hsame, hnone⟩ := change_of_settled hsettled
      rw [hsame, hnone]
      exact h
    · obtain ⟨hnew, hone⟩ := change_of_not_settled hsettled
      rw [hnew, hone]
      exact h.insert hsettled
  | removeClient o => exact h.removeClient o

theorem Listed.changes (h : t.Listed past) (cs : List Change) :
    (t.changes cs).Listed (t.insertions cs ++ past) := by
  induction cs generalizing t past with
  | nil => exact h
  | cons c cs ih =>
    rw [insertions, List.append_assoc]
    exact ih (h.change c)

theorem capacity_change (t : RouteTable) (c : Change) : (t.change c).capacity = t.capacity := by
  cases c with
  | add r =>
    by_cases hsettled : t.Settled r
    · rw [(change_of_settled hsettled).1]
    · rw [(change_of_not_settled hsettled).1]
  | removeClient o => rfl

theorem capacity_changes (t : RouteTable) (cs : List Change) :
    (t.changes cs).capacity = t.capacity := by
  induction cs generalizing t with
  | nil => rfl
  | cons c cs ih => exact (ih _).trans (capacity_change t c)

/-! ## Adding once more -/

theorem settled_change (t : RouteTable) (r : Route) : (t.change (.add r)).Settled r := by
  by_cases hsettled : t.Settled r
  · rw [(change_of_settled hsettled).1]
    exact hsettled
  · rw [(change_of_not_settled hsettled).1]
    exact .inl (List.mem_append_right _ (List.mem_singleton_self r))

theorem Settled.change (h : t.Settled r) (s : Route) : (t.change (.add s)).Settled r := by
  by_cases hsettled : t.Settled s
  · rw [(change_of_settled hsettled).1]
    exact h
  · rw [(change_of_not_settled hsettled).1]
    rcases h with hmem | hfull
    · exact .inl (List.mem_append_left _ hmem)
    · have hlonger : t.routes.length ≤ (t.routes ++ [s]).length := by simp
      exact .inr (Nat.le_trans hfull hlonger)

theorem Settled.addAll (h : t.Settled r) (rs : List Route) : (t.addAll rs).Settled r := by
  induction rs generalizing t with
  | nil => exact h
  | cons s rs ih => exact ih (h.change s)

theorem settled_addAll {rs : List Route} (hr : r ∈ rs) : (t.addAll rs).Settled r := by
  induction rs generalizing t with
  | nil => nomatch hr
  | cons s rs ih =>
    rcases List.mem_cons.mp hr with rfl | hr
    · exact (settled_change t r).addAll rs
    · exact ih hr

theorem addAll_of_settled {rs : List Route} (h : ∀ r ∈ rs, t.Settled r) : t.addAll rs = t := by
  induction rs with
  | nil => rfl
  | cons s rs ih =>
    obtain ⟨hs, hrest⟩ := List.forall_mem_cons.mp h
    change (t.change (.add s)).addAll rs = t
    rw [(change_of_settled hs).1]
    exact ih hrest

theorem addAll_addAll (t : RouteTable) (rs : List Route) :
    (t.addAll rs).addAll rs = t.addAll rs :=
  addAll_of_settled fun _ hr => settled_addAll hr

/-- A table after any changes. It lists different routes, no more than it has room for, each behind
those whose latest insertion came before its own. A route is said not to be new exactly if it is
there, and is refused exactly if it is not there and the table is full; either leaves the table as
it is, and any other route comes in at the end. The routes of a client are taken out and counted,
and the others stay in order. And for any table at all, adding routes a second time does nothing,
whether or not all of them found room. -/
theorem ordered_set (capacity : Nat) (cs : List Change) :
    let t := (ofCapacity capacity).changes cs
    let past := (ofCapacity capacity).insertions cs
    (t.routes.Nodup ∧ t.routes.length ≤ capacity ∧ (∀ r ∈ t.routes, r ∈ past) ∧
      t.routes.Pairwise fun r s => past.idxOf s < past.idxOf r) ∧
    (∀ r, (t.answer r = .ok false ↔ r ∈ t.routes) ∧
      ((∃ why, t.answer r = .error why) ↔ r ∉ t.routes ∧ t.routes.length = capacity) ∧
      (t.answer r ≠ .ok true → t.change (.add r) = t) ∧
      (t.answer r = .ok true → t.change (.add r) = { t with routes := t.routes ++ [r] })) ∧
    (∀ o, (t.removeClient o).1.routes.Sublist t.routes ∧
      (∀ r, r ∈ (t.removeClient o).1.routes ↔ r ∈ t.routes ∧ r.owner ≠ some o) ∧
      (t.removeClient o).2 = t.routes.countP fun r => r.owner = some o) ∧
    ∀ (u : RouteTable) (rs : List Route), (u.addAll rs).addAll rs = u.addAll rs := by
  intro t past
  have hempty : (ofCapacity capacity).Listed [] := ⟨.nil, Nat.zero_le _, nofun, .nil⟩
  have hlisted : t.Listed past := by
    have h := hempty.changes cs
    rwa [List.append_nil] at h
  have hcapacity : t.capacity = capacity := capacity_changes _ cs
  have hsize : t.routes.length ≤ capacity := hcapacity ▸ hlisted.size_le
  refine ⟨⟨hlisted.nodup, hsize, hlisted.inserted, hlisted.ordered⟩, fun r => ⟨?_, ?_, ?_, ?_⟩,
    fun o => ⟨List.filter_sublist, fun r => mem_removeClient, removeClient_count t o⟩,
    addAll_addAll⟩
  · exact answer_eq_false_iff
  · rw [answer_eq_error_iff, hcapacity, Nat.le_antisymm_iff, and_iff_right hsize]
  · intro hanswer
    exact (change_of_settled (by_contra fun hnew => hanswer (answer_eq_true_iff.mpr hnew))).1
  · exact fun hanswer => (change_of_not_settled (answer_eq_true_iff.mp hanswer)).1

end TopicBus.RouteTable
