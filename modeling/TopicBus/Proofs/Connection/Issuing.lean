import TopicBus.Proofs.Connection.Journal
import TopicBus.Proofs.Connection.Sends
import TopicBus.Proofs.Connection.SubscriptionIds

/-!
What a connection does with its subscriptions, even if its callers give up. Whatever an operation
does, it puts its table to uses, and only a call to subscribe issues an id (`uses_begin`,
`uses_resume`). So as long as there have been fewer than 2^31 calls, the next id fits in a message
and is not in the table (`Lived.nextId`).
-/

namespace TopicBus

namespace SubscriptionTable

variable {t t' t'' : SubscriptionTable} {m n : Nat}

theorem run_append (t : SubscriptionTable) (us vs : List Use) :
    t.run (us ++ vs) = (t.run us).run vs := by
  induction us generalizing t with
  | nil => rfl
  | cons u us ih => exact ih (t.use u)

theorem issued_append (t : SubscriptionTable) (us vs : List Use) :
    t.issued (us ++ vs) = t.issued us ++ (t.run us).issued vs := by
  induction us generalizing t with
  | nil => rfl
  | cons u us ih => rw [List.cons_append, issued, ih, issued, List.append_assoc, run]

/-- The one table becomes the other, and at most `n` ids are issued. -/
def Uses (n : Nat) (t t' : SubscriptionTable) : Prop :=
  ∃ us, t' = t.run us ∧ (t.issued us).length ≤ n

theorem Uses.same (h : t' = t) : Uses n t t' := ⟨[], h, Nat.zero_le n⟩

theorem Uses.one (u : Use) (h : (t.issues u).length ≤ n) : Uses n t (t.use u) := by
  refine ⟨[u], rfl, ?_⟩
  rw [issued, issued, List.append_nil]
  exact h

theorem Uses.trans (h : Uses m t t') (h' : Uses n t' t'') : Uses (m + n) t t'' := by
  obtain ⟨us, rfl, hus⟩ := h
  obtain ⟨vs, rfl, hvs⟩ := h'
  refine ⟨us ++ vs, (run_append t us vs).symm, ?_⟩
  rw [issued_append, List.length_append]
  exact Nat.add_le_add hus hvs

/-- A table in which no more than `n` ids have been issued. -/
def Lived (n : Nat) (t : SubscriptionTable) : Prop := ∃ past, t.Numbered past ∧ past.length ≤ n

theorem lived_ofCapacity (capacity : Nat) : (ofCapacity capacity).Lived 0 :=
  ⟨[], ⟨Nat.zero_le _, rfl, nofun, .slnil⟩, Nat.le_refl 0⟩

theorem Lived.uses (h : t.Lived m) (hused : Uses n t t') : t'.Lived (m + n) := by
  obtain ⟨past, hpast, hm⟩ := h
  obtain ⟨us, rfl, hn⟩ := hused
  refine ⟨_, hpast.run us, ?_⟩
  rw [List.length_append]
  exact Nat.add_le_add hm hn

/-- The next id is small, and larger than all that are in the table. -/
theorem Lived.nextId (h : t.Lived n) (hn : n < 2 ^ 32 - 1) :
    t.nextId.toNat ≤ n + 1 ∧ ∀ s ∈ t.entries, s.id.toNat < t.nextId.toNat := by
  obtain ⟨past, hpast, hle⟩ := h
  have hnext := hpast.nextId
  rw [Nat.mod_eq_of_lt (by omega)] at hnext
  refine ⟨by omega, fun s hs => ?_⟩
  have hmem : (s.id, s.expression) ∈ past :=
    hpast.order.subset (mem_keys_iff.mpr ⟨s, hs, rfl, rfl⟩)
  obtain ⟨k, hk⟩ := List.mem_iff_getElem?.mp hmem
  have hlt : k < past.length := (List.getElem?_eq_some_iff.mp hk).1
  have hid := hpast.ids k _ hk
  rw [Nat.mod_eq_of_lt (by omega)] at hid
  dsimp only at hid
  omega

end SubscriptionTable

open SubscriptionTable (Uses)

namespace Connection

variable {c : Connection}

/-! ## Sending -/

theorem uses_sendFailed (c : Connection) (cause : Cause) (why : Fault) :
    Uses 0 c.subscriptions (c.sendFailed cause why).1.subscriptions := by
  cases cause with
  | publish => exact .same rfl
  | subscribe id => exact .one (.remove id) (Nat.le_refl 0)
  | request deadline => exact .same rfl

theorem uses_writeFailed (c : Connection) (s : Sending) (cause : Cause) (why : Fault) :
    Uses 0 c.subscriptions (c.writeFailed s cause why).1.subscriptions := by
  unfold writeFailed
  split_ifs
  · exact .same rfl
  · exact uses_sendFailed c cause why

theorem uses_write (c : Connection) (s : Sending) (cause : Cause) :
    Uses 0 c.subscriptions (c.write s cause).1.subscriptions := by
  unfold write
  split
  · exact .same rfl
  · exact uses_writeFailed c s cause _

theorem uses_sendDone (c : Connection) (cause : Cause) :
    Uses 0 c.subscriptions (c.sendDone cause).1.subscriptions := by
  cases cause <;> exact .same rfl

theorem uses_sendFrame (c : Connection) (header : Header) (payload : List UInt8) (cause : Cause) :
    Uses 0 c.subscriptions (c.sendFrame header payload cause).1.subscriptions := by
  unfold sendFrame
  split_ifs
  · exact uses_sendFailed c cause _
  · exact uses_sendFailed c cause _
  · split
    · next c' bytes hcompose =>
      obtain ⟨rfl, -⟩ := Prod.mk.inj hcompose
      exact uses_write { c with nextSequence := c.nextSequence + 1 } ⟨bytes, 1⟩ cause
    · next c' why hcompose =>
      obtain ⟨rfl, -⟩ := Prod.mk.inj hcompose
      exact uses_sendFailed { c with nextSequence := c.nextSequence + 1 } cause why

/-! ## Dispatching -/

theorem uses_dispatchNext (c : Connection) (deadline : Option Nat) :
    Uses 0 c.subscriptions (c.dispatchNext deadline).1.subscriptions := by
  by_cases hclosed : c.isClosed
  · simp only [dispatchNext, hclosed, ↓reduceIte]
    exact .same rfl
  · rw [Bool.not_eq_true] at hclosed
    by_cases hnone : c.attached = none
    · simp only [dispatchNext, hclosed, hnone, Option.isNone_none, Bool.false_eq_true, ↓reduceIte]
      exact .same rfl
    · have hdraws : Draws deadline c (c.dispatchNext deadline) :=
        draws_dispatchNext hclosed (Option.isSome_iff_ne_none.mpr hnone)
      generalize c.dispatchNext deadline = next at hdraws
      cases hdraws with
      | waits => exact .same rfl
      | @frame stale rest f hcut hstale => exact .one (.dispatch f) (Nat.le_refl 0)
      | ended => exact .same rfl

/-! ## Establishing a stream -/

theorem uses_established (c : Connection) (goal : Goal) :
    Uses 0 c.subscriptions (c.established goal).1.subscriptions := by
  cases goal with
  | opening => exact .same rfl
  | resend s cause => exact uses_write c s cause
  | dispatch deadline => exact uses_dispatchNext c deadline

theorem uses_establishFailed (c : Connection) (why : Fault) (goal : Goal) :
    Uses 0 c.subscriptions (c.establishFailed why goal).1.subscriptions := by
  cases goal with
  | opening => exact .same rfl
  | resend s cause => exact uses_write c s cause
  | dispatch deadline => exact .same rfl

theorem uses_greet (c : Connection) (g : Greeting) (goal : Goal) :
    Uses 0 c.subscriptions (c.greet g goal).1.subscriptions := by
  unfold greet
  split
  · exact uses_established (c.attach g) goal
  · split
    · exact uses_establishFailed c _ goal
    · split
      · next c' bytes hcompose =>
        obtain ⟨rfl, -⟩ := Prod.mk.inj hcompose
        exact .same rfl
      · next c' why hcompose =>
        obtain ⟨rfl, -⟩ := Prod.mk.inj hcompose
        exact uses_establishFailed { c with nextSequence := c.nextSequence + 1 } why goal

theorem uses_introduce (c : Connection) (stream : StreamId) (l e : String) (goal : Goal) :
    Uses 0 c.subscriptions (c.introduce stream l e goal).1.subscriptions := by
  unfold introduce
  dsimp only
  split
  · next c' bytes hcompose =>
    obtain ⟨rfl, -⟩ := Prod.mk.inj hcompose
    exact .same rfl
  · next c' why hcompose =>
    obtain ⟨rfl, -⟩ := Prod.mk.inj hcompose
    exact uses_establishFailed { c with nextSequence := c.nextSequence + 1 } why goal

theorem uses_connectFailed (c : Connection) (now attempt : Nat) (why : IoFault) (goal : Goal) :
    Uses 0 c.subscriptions (c.connectFailed now attempt why goal).1.subscriptions := by
  unfold connectFailed
  split_ifs
  · exact .same rfl
  · exact uses_establishFailed c _ goal

/-! ## Operations -/

theorem uses_subscribe (c : Connection) (expression : String) :
    Uses 1 c.subscriptions (c.subscribe expression).1.subscriptions := by
  by_cases htakes : c.Takes expression
  · have hissues : (c.subscriptions.issues (.insert expression)).length ≤ 1 := by
      rw [SubscriptionTable.issues, SubscriptionTable.insert_of_room htakes.2,
        List.length_singleton]
    have hinsert : Uses 1 c.subscriptions (c.withSubscription expression).subscriptions := by
      have hone := Uses.one (t := c.subscriptions) (.insert expression) hissues
      rwa [SubscriptionTable.use, SubscriptionTable.insert_of_room htakes.2] at hone
    rw [subscribe_of_takes htakes]
    split
    · exact hinsert
    · exact hinsert.trans (uses_sendFrame (c.withSubscription expression) _ _ _)
  · obtain ⟨why, hfailed⟩ := subscribe_of_not_takes htakes
    rw [hfailed]
    exact .same rfl

/-- Only a call to subscribe issues an id. -/
theorem uses_begin (c : Connection) (now : Nat) (op : Operation) :
    Uses op.subscriptions c.subscriptions (c.begin now op).1.subscriptions := by
  cases op with
  | publish topic d => exact uses_sendFrame c _ d.encode .publish
  | publishBytes topic payload => exact uses_sendFrame c _ payload .publish
  | send d =>
    show Uses 0 _ (c.send d).1.subscriptions
    unfold send
    split
    · exact uses_sendFrame c _ d.encode .publish
    · exact .same rfl
  | respond request d =>
    show Uses 0 _ (c.respond request d).1.subscriptions
    unfold respond
    split
    · exact uses_sendFrame c _ d.encode .publish
    · exact .same rfl
  | subscribe expression => exact uses_subscribe c expression
  | request topic d timeout =>
    exact uses_sendFrame { c with slot := .waiting } _ d.encode (.request (now + timeout))
  | dispatch timeout => exact uses_dispatchNext c _
  | close =>
    show Uses 0 _ c.close.1.subscriptions
    unfold close
    split
    · exact .same rfl
    · exact .same rfl

theorem uses_takeResponse (c : Connection) (deadline : Nat) :
    Uses 0 c.subscriptions (c.takeResponse deadline).1.subscriptions := by
  unfold takeResponse
  split <;> exact .same rfl

theorem uses_resume (c : Connection) (now : Nat) (a : Activity) (r : Reply) :
    Uses 0 c.subscriptions (c.resume now a r).1.subscriptions := by
  unfold resume
  split
  · exact uses_introduce c _ _ _ _
  · exact uses_connectFailed c now _ _ _
  · exact .same rfl
  · exact uses_greet c _ _
  · exact uses_establishFailed c _ _
  · exact uses_sendDone c _
  · exact uses_writeFailed c _ _ _
  · exact uses_takeResponse c _
  · exact uses_dispatchNext c _
  · exact .same rfl
  · split_ifs
    · exact .same rfl
    · exact .same rfl
  · exact .same rfl

theorem uses_expire (c : Connection) (a : Activity) :
    Uses 0 c.subscriptions (c.expire a).1.subscriptions := by
  unfold expire
  split <;> exact .same rfl

end Connection

/-! ## Lives -/

/-- What can happen to a connection whose callers may give up what they have begun. -/
inductive Episode where
  | turn (t : Turn)
  /-- The operation in progress is dropped. Nothing is done about what it has left behind. -/
  | abandon
  deriving Repr

namespace Episode

def act (v : Conversation) : Episode → Conversation
  | .turn t => t.act v
  | .abandon => { v with activity := none, outcome := none }

/-- How many subscriptions are asked for. -/
def subscriptions : Episode → Nat
  | .turn (.happening (.begin _ op)) => op.subscriptions
  | _ => 0

/-- How many subscriptions are asked for in all. -/
def calls (xs : List Episode) : Nat := (xs.map subscriptions).sum

end Episode

namespace Conversation

variable {v : Conversation} {n : Nat}

/-- One episode after the other. -/
def live (v : Conversation) (xs : List Episode) : Conversation := xs.foldl Episode.act v

theorem uses_step (v : Conversation) (x : Happening) :
    Uses (Episode.turn (.happening x)).subscriptions v.connection.subscriptions
      (v.step x).connection.subscriptions := by
  cases x with
  | begin now op =>
    cases hrest : v.activity with
    | none =>
      rw [step_begin_of_rest hrest, connection_settle]
      exact Connection.uses_begin v.connection now op
    | some a =>
      rw [step_begin_of_busy hrest]
      exact .same rfl
  | reply now r =>
    cases ha : v.activity with
    | none =>
      rw [step_reply_of_rest ha]
      exact .same rfl
    | some a =>
      rw [step_reply_of_busy ha, connection_settle]
      exact Connection.uses_resume v.connection now a r
  | expire =>
    cases ha : v.activity with
    | none =>
      rw [step_expire_of_rest ha]
      exact .same rfl
    | some a =>
      rw [step_expire_of_busy ha, connection_settle]
      exact Connection.uses_expire v.connection a
  | receive chunk => exact .same (Connection.sameWriting_receive v.connection chunk).subscriptions

theorem uses_act (v : Conversation) (x : Episode) :
    Uses x.subscriptions v.connection.subscriptions (x.act v).connection.subscriptions := by
  cases x with
  | turn t =>
    cases t with
    | happening x => exact uses_step v x
    | frame reader f =>
      have haccepted := (Connection.accepted_accept v.connection f).1
      exact .same haccepted.writing.subscriptions
    | ends reader why => exact .same rfl
  | abandon => exact .same rfl

theorem lived_live (h : v.connection.subscriptions.Lived n) (xs : List Episode) :
    (v.live xs).connection.subscriptions.Lived (n + Episode.calls xs) := by
  induction xs generalizing v n with
  | nil => exact h
  | cons x xs ih =>
    have hrest := ih (h.uses (uses_act v x))
    rwa [Nat.add_assoc] at hrest

theorem lived_start {c : Connection} {appName inboxId : String} {settings : ClientSettings}
    (hc : Connection.create appName settings inboxId = .ok c) :
    (start c).connection.subscriptions.Lived 0 := by
  obtain ⟨-, -, address, -, rfl⟩ := Connection.create_eq_ok_iff.mp hc
  exact SubscriptionTable.lived_ofCapacity _

end Conversation

end TopicBus
