import Mathlib.Data.List.Basic
import TopicBus.Broker

/-!
Who is registered at a broker, and with which outbox. Every operation is told by what it does to the
answer of `client?`. Delivery changes outboxes and nothing else: `withOutboxes` is the whole of what
it can do.
-/

namespace TopicBus

namespace Outbox

/-- Pushes frames until one is refused; none is pushed after that. -/
def offer (o : Outbox) (fs : List Frame) : Outbox :=
  { o with frames := o.frames ++ fs.take o.room }

theorem push_of_room {o : Outbox} (h : 0 < o.room) (f : Frame) :
    o.push f = .ok { o with frames := o.frames ++ [f] } := by
  unfold room at h
  split at h
  · next hopen => simp only [push, hopen, Bool.not_true, Bool.false_eq_true, ↓reduceIte,
      if_neg (show ¬o.capacity ≤ o.frames.length by omega)]
  · omega

theorem push_of_no_room {o : Outbox} (h : o.room = 0) (f : Frame) :
    ∃ why, o.push f = .error why := by
  unfold room at h
  unfold push
  split at h
  · next hopen => exact ⟨.full, by simp only [hopen, Bool.not_true, Bool.false_eq_true, ↓reduceIte,
      if_pos (show o.capacity ≤ o.frames.length by omega)]⟩
  · next hopen => exact ⟨.closed, by simp only [hopen, Bool.not_false, ↓reduceIte]⟩

theorem room_push (o : Outbox) (f : Frame) :
    { o with frames := o.frames ++ [f] }.room = o.room - 1 := by
  unfold room
  cases o.isOpen with
  | true => simp only [↓reduceIte, List.length_append, List.length_singleton]; omega
  | false => rfl

theorem offer_nil (o : Outbox) : o.offer [] = o := by
  simp only [offer, List.take_nil, List.append_nil]

theorem offer_of_no_room {o : Outbox} (h : o.room = 0) (fs : List Frame) : o.offer fs = o := by
  simp only [offer, h, List.take_zero, List.append_nil]

/-- A frame offered by itself leaves that much less room for the others. -/
theorem offer_cons (o : Outbox) (f : Frame) (fs : List Frame) :
    o.offer (f :: fs) = (o.offer [f]).offer fs := by
  cases hroom : o.room with
  | zero =>
    rw [offer_of_no_room hroom, offer_of_no_room hroom, offer_of_no_room hroom]
  | succ n =>
    have hone : o.offer [f] = { o with frames := o.frames ++ [f] } := by
      simp only [offer, hroom, List.take_succ_cons, List.take_nil]
    rw [hone]
    simp only [offer, room_push, hroom, List.take_succ_cons, Nat.add_sub_cancel, List.append_assoc,
      List.singleton_append]

theorem room_offer_one (o : Outbox) (f : Frame) : (o.offer [f]).room = o.room - 1 := by
  cases hroom : o.room with
  | zero => rw [offer_of_no_room hroom, hroom]
  | succ n =>
    have hpush := room_push o f
    rw [hroom] at hpush
    simp only [offer, hroom, List.take_succ_cons, List.take_nil]
    exact hpush

end Outbox

namespace Broker

/-! ## Lookups -/

theorem client?_id {b : Broker} {id : ClientId} {c : Client} (h : b.client? id = some c) :
    c.id = id := by
  simpa using List.find?_some h

theorem client?_isSome {b : Broker} {id : ClientId} :
    (b.client? id).isSome = true ↔ ∃ c ∈ b.clients, c.id = id := by
  simp [client?, List.find?_isSome]

/-- Changing clients one by one, without their ids, changes what a lookup finds in the same way. -/
theorem client?_map {b b' : Broker} {g : Client → Client} (hb : b'.clients = b.clients.map g)
    (hg : ∀ c, (g c).id = c.id) (id : ClientId) : b'.client? id = (b.client? id).map g := by
  have hp : (fun c : Client => decide ((g c).id = id)) = fun c => decide (c.id = id) := by
    funext c
    rw [hg c]
  rw [client?, hb, List.find?_map]
  exact congrArg (fun p => (b.clients.find? p).map g) hp

theorem client?_modifyClient (b : Broker) (id o : ClientId) {f : Client → Client}
    (hf : ∀ c, (f c).id = c.id) :
    (b.modifyClient id f).client? o = if o = id then (b.client? o).map f else b.client? o := by
  have hg : ∀ c : Client, (if c.id = id then f c else c).id = c.id := by
    intro c
    split
    · exact hf c
    · rfl
  have hmap : (b.modifyClient id f).client? o = (b.client? o).map _ := client?_map rfl hg o
  rw [hmap]
  cases hc : b.client? o with
  | none => split <;> rfl
  | some c =>
    have hid := client?_id hc
    rw [Option.map_some, hid]
    split <;> rfl

theorem modifyClient_id (b : Broker) (id : ClientId) : (b.modifyClient id fun c => c) = b := by
  have hmap : (b.clients.map fun c => if c.id = id then c else c) = b.clients := by
    simp only [ite_self, List.map_id']
  rw [modifyClient, hmap]

/-! ## Outboxes -/

/-- Outboxes changed, everything else the same. -/
def withOutboxes (b : Broker) (g : ClientId → Outbox → Outbox) : Broker :=
  { b with clients := b.clients.map fun c => { c with outbox := g c.id c.outbox } }

theorem client?_withOutboxes (b : Broker) (g : ClientId → Outbox → Outbox) (o : ClientId) :
    (b.withOutboxes g).client? o =
      (b.client? o).map fun c => { c with outbox := g c.id c.outbox } :=
  client?_map (g := fun c => { c with outbox := g c.id c.outbox }) rfl (fun _ => rfl) o

theorem withOutboxes_self (b : Broker) : (b.withOutboxes fun _ x => x) = b := by
  rw [withOutboxes, List.map_id']

theorem withOutboxes_withOutboxes (b : Broker) (g k : ClientId → Outbox → Outbox) :
    (b.withOutboxes g).withOutboxes k = b.withOutboxes fun id x => k id (g id x) := by
  simp only [withOutboxes, List.map_map, Function.comp_def]

/-- Setting the outbox of one client is a change of outboxes only. -/
theorem modifyClient_outbox (b : Broker) (id : ClientId) (x : Outbox) :
    (b.modifyClient id fun c => { c with outbox := x }) =
      b.withOutboxes fun i y => if i = id then x else y := by
  have hmap : (fun c : Client => if c.id = id then { c with outbox := x } else c) =
      fun c => { c with outbox := if c.id = id then x else c.outbox } := by
    funext c
    split <;> rfl
  rw [modifyClient, withOutboxes, hmap]

theorem setOutbox_eq (b : Broker) (id : ClientId) (x : Outbox) :
    b.setOutbox id x = { b.withOutboxes (fun i y => if i = id then x else y) with
      departed := b.departed.map fun entry => if entry.1 = id then (id, x) else entry } := by
  rw [setOutbox, modifyClient_outbox]

/-! ## Readers of outboxes -/

theorem client?_setOutbox (b : Broker) (id o : ClientId) (x : Outbox) :
    (b.setOutbox id x).client? o =
      if o = id then (b.client? o).map fun c => { c with outbox := x } else b.client? o :=
  client?_modifyClient b id o fun _ => rfl

/-- A reader does nothing or sets its own outbox. -/
theorem drain_eq (b : Broker) (id : ClientId) (count : Nat) :
    (b.drain id count).1 = b ∨ ∃ x, (b.drain id count).1 = b.setOutbox id x := by
  simp only [drain]
  split
  · exact .inl rfl
  · split
    · exact .inr ⟨_, rfl⟩
    · exact .inl rfl

theorem hangUp_eq (b : Broker) (id : ClientId) :
    b.hangUp id = b ∨ ∃ x, b.hangUp id = b.setOutbox id x := by
  simp only [hangUp]
  split
  · exact .inl rfl
  · exact .inr ⟨_, rfl⟩

theorem client?_drain_other (b : Broker) {id o : ClientId} (count : Nat) (h : o ≠ id) :
    (b.drain id count).1.client? o = b.client? o := by
  rcases drain_eq b id count with hdrain | ⟨x, hdrain⟩
  · rw [hdrain]
  · rw [hdrain, client?_setOutbox, if_neg h]

theorem client?_hangUp_other (b : Broker) {id o : ClientId} (h : o ≠ id) :
    (b.hangUp id).client? o = b.client? o := by
  rcases hangUp_eq b id with hhang | ⟨x, hhang⟩
  · rw [hhang]
  · rw [hhang, client?_setOutbox, if_neg h]

theorem drain_of_client? {b : Broker} {id : ClientId} {c : Client} (hc : b.client? id = some c)
    (count : Nat) : b.drain id count =
      if c.outbox.isOpen then
        (b.setOutbox id (c.outbox.take count).1, some (c.outbox.take count).2)
      else (b, none) := by
  simp only [drain, outbox?, hc]

theorem hangUp_of_client? {b : Broker} {id : ClientId} {c : Client} (hc : b.client? id = some c) :
    b.hangUp id = b.setOutbox id c.outbox.close := by
  simp only [hangUp, outbox?, hc]

end Broker

end TopicBus
