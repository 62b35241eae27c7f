import Mathlib.Algebra.Ring.Nat
import Mathlib.Data.List.Nodup
import TopicBus.Subscription

/-!
The ids of subscriptions. Ids are issued in turn from 1 and come round after 2^32 - 1 of them, past
0, whatever has been removed meanwhile (`Numbered`). Until then an id names one subscription, and a
frame calls the one that its control field names and no other (`ids_identify`).
-/

namespace TopicBus

namespace SubscriptionTable

/-- What may be done to a table. -/
inductive Use where
  | insert (expression : String)
  | remove (id : UInt32)
  | dispatch (f : Frame)

/-- The id that a use names. -/
def Use.id? : Use → Option UInt32
  | .insert _ => none
  | .remove id => some id
  | .dispatch f => some f.header.control

/-- The table after a use. An expression that finds no room leaves it as it is. -/
def use (t : SubscriptionTable) : Use → SubscriptionTable
  | .insert expression =>
    match t.insert expression with
    | .ok (t', _) => t'
    | .error _ => t
  | .remove id => (t.remove id).1
  | .dispatch f => (t.dispatch f).1

/-- The id that a use issues, with the expression that it is for. -/
def issues (t : SubscriptionTable) : Use → List (UInt32 × String)
  | .insert expression =>
    match t.insert expression with
    | .ok (_, id) => [(id, expression)]
    | .error _ => []
  | .remove _ | .dispatch _ => []

def run (t : SubscriptionTable) : List Use → SubscriptionTable
  | [] => t
  | u :: us => (t.use u).run us

/-- The ids that a run issues, in order. -/
def issued (t : SubscriptionTable) : List Use → List (UInt32 × String)
  | [] => []
  | u :: us => t.issues u ++ (t.use u).issued us

/-- The subscriptions without what has been called. -/
def keys (t : SubscriptionTable) : List (UInt32 × String) :=
  t.entries.map fun s => (s.id, s.expression)

variable {t : SubscriptionTable} {expression : String} {past : List (UInt32 × String)}

theorem mem_keys_iff {id : UInt32} :
    (id, expression) ∈ t.keys ↔ ∃ s ∈ t.entries, s.id = id ∧ s.expression = expression := by
  simp only [keys, List.mem_map, Prod.mk.injEq]

/-! ## Room -/

theorem insert_of_full (h : t.capacity ≤ t.entries.length) (expression : String) :
    t.insert expression = .error (.exhausted (.subscriptions t.capacity)) := if_pos h

theorem insert_of_room (h : t.entries.length < t.capacity) (expression : String) :
    t.insert expression = .ok ({ t with
      entries := t.entries ++ [⟨t.nextId, expression, 0⟩], nextId := idAfter t.nextId },
      t.nextId) := if_neg (Nat.not_le.mpr h)

theorem insert_eq_error_iff : (∃ why, t.insert expression = .error why) ↔
    t.capacity ≤ t.entries.length := by
  constructor
  · rintro ⟨why, h⟩
    by_contra hroom
    rw [insert_of_room (Nat.lt_of_not_le hroom)] at h
    nomatch h
  · exact fun hfull => ⟨_, insert_of_full hfull expression⟩

/-- An expression that finds room gets the next id. -/
theorem insert_eq_ok_iff {t' : SubscriptionTable} {id : UInt32} :
    t.insert expression = .ok (t', id) ↔ t.entries.length < t.capacity ∧ id = t.nextId ∧
      t' = { t with
        entries := t.entries ++ [⟨t.nextId, expression, 0⟩], nextId := idAfter t.nextId } := by
  by_cases hfull : t.capacity ≤ t.entries.length
  · rw [insert_of_full hfull]
    exact ⟨nofun, fun h => absurd h.1 (Nat.not_lt.mpr hfull)⟩
  · have hroom := Nat.lt_of_not_le hfull
    rw [insert_of_room hroom, Except.ok.injEq, Prod.mk.injEq, and_iff_right hroom]
    exact ⟨fun h => ⟨h.2.symm, h.1.symm⟩, fun h => ⟨h.2.symm, h.1.symm⟩⟩

/-! ## Calls -/

section CountCall

variable (called : UInt32) (entries : List Subscription)

theorem map_countCall : (countCall called entries).map (fun s => (s.id, s.expression)) =
    entries.map fun s => (s.id, s.expression) := by
  induction entries with
  | nil => rfl
  | cons s rest ih =>
    unfold countCall
    split_ifs
    · rfl
    · rw [List.map_cons, List.map_cons, ih]

theorem filter_countCall : (countCall called entries).filter (fun s => s.id ≠ called) =
    entries.filter fun s => s.id ≠ called := by
  induction entries with
  | nil => rfl
  | cons s rest ih =>
    unfold countCall
    split_ifs with hid
    · simp [hid]
    · simp only [List.filter_cons, ih]

end CountCall

theorem countCall_append {s : Subscription} {before : List Subscription}
    (h : ∀ x ∈ before, x.id ≠ s.id) (after : List Subscription) :
    countCall s.id (before ++ s :: after) = before ++ { s with calls := s.calls + 1 } :: after := by
  induction before with
  | nil => exact if_pos rfl
  | cons x before ih =>
    obtain ⟨hx, hbefore⟩ := List.forall_mem_cons.mp h
    rw [List.cons_append, countCall, if_neg hx, ih hbefore, List.cons_append]

theorem keys_dispatch (t : SubscriptionTable) (f : Frame) : (t.dispatch f).1.keys = t.keys := by
  unfold dispatch
  split
  · rfl
  · exact map_countCall _ _

theorem dispatch_keeps (t : SubscriptionTable) (f : Frame) :
    (t.dispatch f).1.capacity = t.capacity ∧ (t.dispatch f).1.nextId = t.nextId := by
  unfold dispatch
  split <;> exact ⟨rfl, rfl⟩

theorem dispatch_of_first {before after : List Subscription} {s : Subscription} {f : Frame}
    (h : t.entries = before ++ s :: after) (hbefore : ∀ x ∈ before, x.id ≠ s.id)
    (hs : s.id = f.header.control) :
    t.dispatch f = ({ t with entries := before ++ { s with calls := s.calls + 1 } :: after },
      some ⟨s.calls + 1, s.expression, f⟩) := by
  have hnone : before.find? (fun x => x.id = s.id) = none := by
    simpa using hbefore
  have hfind : t.find? s.id = some s := by
    rw [find?, h, List.find?_append, hnone]
    simp
  rw [dispatch, ← hs, hfind, h]
  simp only [countCall_append hbefore]

theorem dispatch_of_none {f : Frame} (h : ∀ s ∈ t.entries, s.id ≠ f.header.control) :
    t.dispatch f = (t, none) := by
  have hfind : t.find? f.header.control = none := by
    simpa [find?] using h
  rw [dispatch, hfind]

theorem mem_remove {id : UInt32} {s : Subscription} :
    s ∈ (t.remove id).1.entries ↔ s ∈ t.entries ∧ s.id ≠ id := by
  simp [remove]

/-- A use leaves the subscriptions alone that it does not name. -/
theorem others_use (t : SubscriptionTable) (u : Use) :
    (t.entries.filter fun s => u.id? ≠ some s.id).Sublist (t.use u).entries := by
  cases u with
  | insert expression =>
    refine List.filter_sublist.trans ?_
    by_cases hfull : t.capacity ≤ t.entries.length
    · simp [use, insert_of_full hfull]
    · simp [use, insert_of_room (Nat.lt_of_not_le hfull)]
  | remove id =>
    simp [Use.id?, use, remove, eq_comm]
  | dispatch f =>
    have hsame : (fun s : Subscription => decide ((Use.dispatch f).id? ≠ some s.id)) =
        fun s => decide (s.id ≠ f.header.control) := by
      simp [Use.id?, eq_comm]
    rw [hsame, use, dispatch]
    split
    · exact List.filter_sublist
    · rw [← filter_countCall]
      exact List.filter_sublist

/-! ## Numbers -/

/-- The ids come round to 1. -/
theorem toNat_idAfter_eq (id : UInt32) : (idAfter id).toNat = id.toNat % (2 ^ 32 - 1) + 1 := by
  have hlt : id.toNat < 2 ^ 32 := id.toNat_lt
  have hmax : idAfter id = if id + 1 ≤ 1 then 1 else id + 1 := rfl
  have hadd : (id + 1).toNat = (id.toNat + 1) % 2 ^ 32 := UInt32.toNat_add id 1
  have hone : (1 : UInt32).toNat = 1 := rfl
  rw [hmax]
  split_ifs with hle
  · have hle : (id + 1).toNat ≤ (1 : UInt32).toNat := hle
    omega
  · have hgt : ¬(id + 1).toNat ≤ (1 : UInt32).toNat := hle
    have hlast : id.toNat ≠ 2 ^ 32 - 1 := fun hlast => by
      rw [hlast] at hadd
      omega
    rw [hadd, Nat.mod_eq_of_lt (by omega), Nat.mod_eq_of_lt (by omega)]

/-- A table that has issued the ids in `past`. -/
structure Numbered (t : SubscriptionTable) (past : List (UInt32 × String)) : Prop where
  size_le : t.entries.length ≤ t.capacity
  nextId : t.nextId.toNat = past.length % (2 ^ 32 - 1) + 1
  ids : ∀ k x, past[k]? = some x → x.1.toNat = k % (2 ^ 32 - 1) + 1
  order : t.keys.Sublist past

theorem Numbered.insert (h : t.Numbered past) (hroom : t.entries.length < t.capacity)
    (expression : String) :
    ({ t with
      entries := t.entries ++ [⟨t.nextId, expression, 0⟩]
      nextId := idAfter t.nextId } : SubscriptionTable).Numbered
        (past ++ [(t.nextId, expression)]) := by
  have hnext := h.nextId
  constructor
  · rw [List.length_append, List.length_singleton]
    exact hroom
  · rw [toNat_idAfter_eq, hnext, List.length_append, List.length_singleton]
    omega
  · intro k x hx
    rw [List.getElem?_append] at hx
    split_ifs at hx with hk
    · exact h.ids k x hx
    · obtain ⟨hlast, rfl⟩ := List.getElem?_eq_some_iff.mp hx
      rw [List.length_singleton] at hlast
      simp only [List.getElem_singleton]
      rw [hnext]
      congr 2
      omega
  · rw [keys, List.map_append]
    exact h.order.append (List.Sublist.refl _)

theorem Numbered.use (h : t.Numbered past) (u : Use) :
    (t.use u).Numbered (past ++ t.issues u) := by
  cases u with
  | insert expression =>
    by_cases hfull : t.capacity ≤ t.entries.length
    · simpa [SubscriptionTable.use, issues, insert_of_full hfull] using h
    · have hroom := Nat.lt_of_not_le hfull
      simpa [SubscriptionTable.use, issues, insert_of_room hroom] using h.insert hroom expression
  | remove id =>
    rw [issues, List.append_nil]
    have hkept : (t.remove id).1.entries.Sublist t.entries := List.filter_sublist
    exact ⟨Nat.le_trans hkept.length_le h.size_le, h.nextId, h.ids, (hkept.map _).trans h.order⟩
  | dispatch f =>
    have hkeys := keys_dispatch t f
    have hlength : (t.dispatch f).1.entries.length = t.entries.length := by
      have hmap := congrArg List.length hkeys
      rwa [keys, keys, List.length_map, List.length_map] at hmap
    obtain ⟨hcapacity, hnext⟩ := dispatch_keeps t f
    rw [issues, List.append_nil, SubscriptionTable.use]
    exact ⟨by rw [hlength, hcapacity]; exact h.size_le, by rw [hnext]; exact h.nextId, h.ids,
      by rw [hkeys]; exact h.order⟩

theorem Numbered.run (h : t.Numbered past) (us : List Use) :
    (t.run us).Numbered (past ++ t.issued us) := by
  induction us generalizing t past with
  | nil =>
    rw [issued, List.append_nil]
    exact h
  | cons u us ih =>
    rw [issued, ← List.append_assoc]
    exact ih (h.use u)

theorem capacity_use (t : SubscriptionTable) (u : Use) : (t.use u).capacity = t.capacity := by
  cases u with
  | insert expression =>
    by_cases hfull : t.capacity ≤ t.entries.length
    · simp only [use, insert_of_full hfull]
    · simp only [use, insert_of_room (Nat.lt_of_not_le hfull)]
  | remove id => rfl
  | dispatch f => exact (dispatch_keeps t f).1

theorem capacity_run (t : SubscriptionTable) (us : List Use) :
    (t.run us).capacity = t.capacity := by
  induction us generalizing t with
  | nil => rfl
  | cons u us ih => exact (ih _).trans (capacity_use t u)

theorem Numbered.pos (h : t.Numbered past) {x : UInt32 × String} (hx : x ∈ past) : x.1 ≠ 0 := by
  obtain ⟨k, hk⟩ := List.mem_iff_getElem?.mp hx
  have hid := h.ids k x hk
  intro hzero
  rw [hzero] at hid
  nomatch hid

/-- Ids come round no sooner than all of them have been issued. -/
theorem Numbered.distinct (h : t.Numbered past) (start : Nat) :
    (((past.map Prod.fst).drop start).take (2 ^ 32 - 1)).Nodup := by
  rw [List.nodup_iff_getElem?_ne_getElem?]
  intro i j hij hj heq
  have hround : j < 2 ^ 32 - 1 := Nat.lt_of_lt_of_le hj (List.length_take_le _ _)
  rw [List.getElem?_take_of_lt (Nat.lt_trans hij hround), List.getElem?_take_of_lt hround,
    List.getElem?_drop, List.getElem?_drop, List.getElem?_map, List.getElem?_map] at heq
  have hlast : start + j < past.length := by
    rw [List.length_take, List.length_drop, List.length_map] at hj
    omega
  rw [List.getElem?_eq_getElem hlast, List.getElem?_eq_getElem (by omega), Option.map_some,
    Option.map_some, Option.some.injEq] at heq
  have hi := h.ids (start + i) _ (List.getElem?_eq_getElem (by omega))
  have hj := h.ids (start + j) _ (List.getElem?_eq_getElem hlast)
  rw [heq, hj] at hi
  omega

theorem Numbered.nodup (h : t.Numbered past) (hpast : past.length < 2 ^ 32) :
    (t.entries.map Subscription.id).Nodup := by
  have hall := h.distinct 0
  rw [List.drop_zero, List.take_of_length_le (by rw [List.length_map]; omega)] at hall
  have hids := (h.order.map Prod.fst).nodup hall
  rwa [keys, List.map_map] at hids

/-- A new table after any uses. The ids that it has issued are 1, 2, 3 and so on up to 2^32 - 1,
then 1 again; so none is 0, and it takes 2^32 - 1 others before one is issued again. An expression
is refused exactly if as many subscriptions are there as the table holds, and that changes nothing;
any other comes in at the end, under the id that is issued. Until an id is issued again, all
subscriptions have different ids, and a frame calls the one that its control field names, once, and
no other; it calls none if there is none with this id, as always for 0. The subscriptions stand in
the order in which they came, and those that a use does not name stay as they are. -/
theorem ids_identify (capacity : Nat) (us : List Use) :
    let t := (ofCapacity capacity).run us
    let past := (ofCapacity capacity).issued us
    ((∀ k x, past[k]? = some x → x.1.toNat = k % (2 ^ 32 - 1) + 1) ∧ (∀ x ∈ past, x.1 ≠ 0) ∧
      ∀ start, (((past.map Prod.fst).drop start).take (2 ^ 32 - 1)).Nodup) ∧
    (∀ expression, ((∃ why, t.insert expression = .error why) ↔ t.entries.length = capacity) ∧
      (∀ why, t.insert expression = .error why → why = .exhausted (.subscriptions capacity) ∧
        t.use (.insert expression) = t ∧ t.issues (.insert expression) = []) ∧
      ∀ t' id, t.insert expression = .ok (t', id) →
        t.issues (.insert expression) = [(id, expression)] ∧
          t'.entries = t.entries ++ [⟨id, expression, 0⟩]) ∧
    (past.length < 2 ^ 32 → (t.entries.map Subscription.id).Nodup ∧
      ∀ before s after f, t.entries = before ++ s :: after → s.id = f.header.control →
        t.dispatch f = ({ t with entries := before ++ { s with calls := s.calls + 1 } :: after },
          some ⟨s.calls + 1, s.expression, f⟩)) ∧
    (∀ f, (∀ s ∈ t.entries, s.id ≠ f.header.control) ∨ f.header.control = 0 →
      t.dispatch f = (t, none)) ∧
    t.keys.Sublist past ∧
    (∀ id s, s ∈ (t.remove id).1.entries ↔ s ∈ t.entries ∧ s.id ≠ id) ∧
    ∀ u, (t.entries.filter fun s => u.id? ≠ some s.id).Sublist (t.use u).entries := by
  intro t past
  have hempty : (ofCapacity capacity).Numbered [] := ⟨Nat.zero_le _, rfl, nofun, .slnil⟩
  have h : t.Numbered past := hempty.run us
  have hcapacity : t.capacity = capacity := capacity_run _ us
  have hsize : t.entries.length ≤ capacity := hcapacity ▸ h.size_le
  refine ⟨⟨h.ids, fun x hx => h.pos hx, h.distinct⟩, fun e => ⟨?_, fun why hwhy => ?_, ?_⟩,
    fun hpast => ⟨h.nodup hpast, fun before s after f hentries hs => ?_⟩, fun f hf => ?_, h.order,
    fun id s => mem_remove, others_use t⟩
  · rw [insert_eq_error_iff, hcapacity, Nat.le_antisymm_iff, and_iff_right hsize]
  · have hinsert := insert_of_full (insert_eq_error_iff.mp ⟨why, hwhy⟩) e
    refine ⟨?_, by simp only [use, hinsert], by simp only [issues, hinsert]⟩
    rw [hinsert, hcapacity] at hwhy
    exact (Except.error.inj hwhy).symm
  · intro t' id hinsert
    refine ⟨by simp only [issues, hinsert], ?_⟩
    obtain ⟨-, rfl, rfl⟩ := insert_eq_ok_iff.mp hinsert
    rfl
  · have hnodup := h.nodup hpast
    rw [hentries, List.map_append, List.map_cons] at hnodup
    have hapart := (List.nodup_append.mp hnodup).2.2
    refine dispatch_of_first hentries (fun x hx => ?_) hs
    exact hapart x.id (List.mem_map_of_mem hx) s.id List.mem_cons_self
  · refine dispatch_of_none fun s hs => ?_
    rcases hf with hnone | hzero
    · exact hnone s hs
    · rw [hzero]
      exact h.pos (h.order.subset (List.mem_map_of_mem hs))

end SubscriptionTable

end TopicBus
