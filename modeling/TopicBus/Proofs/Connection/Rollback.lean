import TopicBus.Proofs.Connection.Attempts
import TopicBus.Proofs.Connection.Replay
import TopicBus.Proofs.Connection.Sends

/-!
What a subscription that fails leaves behind. The entry comes into the table before its message is
sent. If the send fails, it is taken out again, and the table is as it was; but if its id is too
large for a message, it stays (`subscribe_rolls_back`). Ids get there on a connection that does
nothing but fail to subscribe (`stale_subscription`).
-/

namespace TopicBus

open Control

/-- Only ids that a message cannot carry are exhausted. -/
theorem Control.subscribe_eq_error_iff {expression : String} {id : UInt32} {why : Fault} :
    subscribe expression id = .error why ↔
      2 ^ 31 ≤ id.toNat ∧ why = .exhausted .subscriptionIds := by
  unfold subscribe
  split_ifs with hid
  · exact iff_of_false nofun fun h => absurd hid (Nat.not_lt.mpr h.1)
  · rw [Except.error.injEq, eq_comm]
    exact (and_iff_right (Nat.le_of_not_lt hid)).symm

namespace Connection

/-- The subscriptions of a connection, by id and expression. -/
def subscribed (c : Connection) : List (UInt32 × String) :=
  c.subscriptions.entries.map fun s => (s.id, s.expression)

variable {c c' : Connection} {expression : String}

/-- A frame is on its way, or the send has failed before anything was written. -/
theorem sendFrame_cases (c : Connection) (header : Header) (payload : List UInt8) (cause : Cause) :
    (∃ c' why, c.sendFrame header payload cause = (c', .finished (.failed why)) ∧
        c'.subscriptions = cause.undo c.subscriptions) ∨
      ∃ bytes, Course c bytes cause [] (c.sendFrame header payload cause) := by
  by_cases hclosed : c.isClosed = true
  · exact .inl ⟨_, _, if_pos hclosed,
      subscriptions_sendFailed c cause (.notConnected "connection is closed")⟩
  · by_cases hover : c.settings.maxPayload < payload.length
    · exact .inl ⟨_, _, (if_neg hclosed).trans (if_pos hover), subscriptions_sendFailed c cause
        (.invalidArgument (.payloadOverLimit payload.length c.settings.maxPayload))⟩
    · cases hcompose : (c.compose header payload).2 with
      | ok bytes =>
        exact .inr ⟨bytes, course_sendFrame (Bool.eq_false_iff.mpr hclosed)
          (Nat.le_of_not_lt hover) hcompose cause⟩
      | error why =>
        refine .inl ⟨_, why, ?_, subscriptions_sendFailed (c.compose header payload).1 cause why⟩
        have hpair : c.compose header payload = ((c.compose header payload).1, .error why) :=
          Prod.ext rfl hcompose
        rw [sendFrame, if_neg hclosed, if_neg hover, hpair]
        rfl

/-- The entry that came last is taken out, and with it all that have its id. -/
theorem subscribed_of_undo (h : c'.subscriptions =
    (Cause.subscribe c.subscriptions.nextId).undo (c.withSubscription expression).subscriptions) :
    c'.subscribed = c.subscribed.filter fun x => x.1 ≠ c.subscriptions.nextId := by
  rw [subscribed, h, subscribed, List.filter_map]
  simp only [Cause.undo, SubscriptionTable.remove, withSubscription, List.filter_append]
  simp [Function.comp_def]

theorem subscribed_of_kept (h : c'.subscriptions = (c.withSubscription expression).subscriptions) :
    c'.subscribed = c.subscribed ++ [(c.subscriptions.nextId, expression)] := by
  rw [subscribed, h, subscribed, withSubscription, List.map_append]
  rfl

end Connection

namespace Conversation

variable {v w : Conversation} {o : Outcome} {c : Connection}

theorem leaves_of_asked {hs : List Happening} (hnone : asked hs = []) (id : UInt32) :
    ∀ x ∈ hs, x.Leaves (.subscribe id) := by
  intro x hx
  have hop := List.filterMap_eq_nil_iff.mp hnone x hx
  cases x with
  | begin now op => nomatch hop
  | reply now r => cases r <;> first | trivial | exact nofun
  | expire => exact nofun
  | receive chunk => trivial

/-- What has become of the send of a subscription's message, until the next operation is begun. -/
theorem Stands.subscribe_run {header : Header} {payload : List UInt8} {id : UInt32}
    (h : v.Stands (c.sendFrame header payload (.subscribe id))) {hs : List Happening}
    (hnone : asked hs = []) (hw : w = v.run hs) :
    w.outcome = none ∨
      (w.outcome = some (.subscribed id) ∧ w.connection.subscriptions = c.subscriptions) ∨
      ∃ why, w.outcome = some (.failed why) ∧
        w.connection.subscriptions = (Cause.subscribe id).undo c.subscriptions := by
  subst hw
  rcases c.sendFrame_cases header payload (.subscribe id) with ⟨c', why, hfailed, ht⟩ | ⟨bytes, hc⟩
  · rw [hfailed] at h
    obtain ⟨-, c'', hsame, rfl, -, ho⟩ := h.run_finished hnone
    exact .inr (.inr ⟨why, ho, hsame.trans ht⟩)
  · obtain ⟨next, hstands, past, last, -, -, htrying⟩ := h.run hc (leaves_of_asked hnone id)
    cases htrying with
    | underway hwrite hunderway => exact .inl hstands.2.2
    | delivered hok ht =>
      obtain ⟨rfl, -, ho⟩ := hstands
      exact .inr (.inl ⟨ho, ht⟩)
    | failed hwhy hstop ht =>
      obtain ⟨rfl, -, ho⟩ := hstands
      exact .inr (.inr ⟨_, ho, ht⟩)

/-- A connection that is asked to subscribe, and everything up to the next operation. If an id is
given, the table has one entry more, at its end. If the call fails, the table is as it was, whether
the subscription was refused or could not be sent, as long as the id fits in a message and is not in
the table yet. An id of 2^31 or more is refused only after the entry has come into the table, where
it stays. -/
theorem subscribe_rolls_back (v : Conversation) (hrest : v.activity = none) (now : Nat)
    (expression : String) (hs : List Happening) (hnone : asked hs = []) :
    let c := v.connection
    let id := c.subscriptions.nextId
    let w := v.run (.begin now (.subscribe expression) :: hs)
    w.outcome = none ∨
    (w.outcome = some (.subscribed id) ∧
      w.connection.subscribed = c.subscribed ++ [(id, expression)]) ∨
    ∃ why, w.outcome = some (.failed why) ∧
      (¬c.Takes expression → w.connection.subscribed = c.subscribed) ∧
      (c.Takes expression → id.toNat < 2 ^ 31 →
        w.connection.subscribed = c.subscribed.filter (fun x => x.1 ≠ id) ∧
        ((∀ x ∈ c.subscribed, x.1 ≠ id) → w.connection.subscribed = c.subscribed)) ∧
      (c.Takes expression → 2 ^ 31 ≤ id.toNat → why = .exhausted .subscriptionIds ∧
        w.connection.subscribed = c.subscribed ++ [(id, expression)]) := by
  intro c id w
  have hstands : (v.step (.begin now (.subscribe expression))).Stands (c.subscribe expression) := by
    simp only [Conversation.step, hrest]
    exact stands_settle (v := { v with outcome := none }) rfl _
  by_cases htakes : c.Takes expression
  · rw [Connection.subscribe_of_takes htakes] at hstands
    cases hd : subscribe expression c.subscriptions.nextId with
    | error why =>
      obtain ⟨hlarge, hwhy⟩ := subscribe_eq_error_iff.mp hd
      rw [hd] at hstands
      obtain ⟨-, c', hsame, hconnection, -, ho⟩ := hstands.run_finished hnone
      refine .inr (.inr ⟨why, ho, fun hnot => absurd htakes hnot, ?_, fun _ _ => ⟨hwhy, ?_⟩⟩)
      · exact fun _ hlt => absurd hlt (Nat.not_lt.mpr hlarge)
      · exact Connection.subscribed_of_kept (hconnection ▸ hsame)
    | ok d =>
      have hfits : id.toNat < 2 ^ 31 := (subscribe_eq_ok_iff.mp hd).1
      rw [hd] at hstands
      rcases hstands.subscribe_run hnone rfl with ho | ⟨ho, ht⟩ | ⟨why, ho, ht⟩
      · exact .inl ho
      · exact .inr (.inl ⟨ho, Connection.subscribed_of_kept ht⟩)
      · refine .inr (.inr ⟨why, ho, fun hnot => absurd htakes hnot, fun _ _ => ?_, ?_⟩)
        · have hundone := Connection.subscribed_of_undo ht
          refine ⟨hundone, fun hfresh => hundone.trans (List.filter_eq_self.mpr fun x hx => ?_)⟩
          exact decide_eq_true (hfresh x hx)
        · exact fun _ hlarge => absurd hfits (Nat.not_lt.mpr hlarge)
  · obtain ⟨why, hfailed⟩ := Connection.subscribe_of_not_takes htakes
    rw [hfailed] at hstands
    obtain ⟨-, c', hsame, hconnection, -, ho⟩ := hstands.run_finished hnone
    refine .inr (.inr ⟨why, ho, fun _ => ?_, fun h => absurd h htakes, fun h => absurd h htakes⟩)
    change w.connection = c' at hconnection
    rw [Connection.subscribed, hconnection, hsame, Connection.subscribed]

/-- The connection gets a stream and is closed. -/
def closing : List Happening :=
  [.reply 0 (.connected 0 "" ""), .reply 0 .written, .begin 0 .close, .reply 0 .written]

theorem subscribe_rolls_back_closed :
    let v := (start plainConnection).run closing
    let w := v.run [.begin 0 (.subscribe "T")]
    v.activity = none ∧ asked [] = [] ∧ w.outcome = some (.failed (.notConnected
      "connection is closed")) ∧ w.connection.subscribed = v.connection.subscribed := by
  intro v w
  have hrest : v.activity = none := rfl
  have ho : w.outcome = some (.failed (.notConnected "connection is closed")) := rfl
  have htakes : v.connection.Takes "T" := ⟨by decide, by decide⟩
  refine ⟨hrest, rfl, ho, ?_⟩
  rcases subscribe_rolls_back v hrest 0 "T" [] rfl with h | ⟨h, -⟩ | ⟨why, -, -, hkept, -⟩
  · nomatch ho.symm.trans h
  · nomatch ho.symm.trans h
  · exact (hkept htakes (by decide)).2 nofun

/-- Until ids come round, the next one is larger than all that are in the table. -/
theorem subscribed_lt_nextId {appName inboxId : String} {settings : ClientSettings}
    (hc : Connection.create appName settings inboxId = .ok c) (past : List Happening)
    (hroom : (start c).taken past < 2 ^ 32 - 1) :
    ∀ x ∈ ((start c).run past).connection.subscribed,
      x.1.toNat < ((start c).run past).connection.subscriptions.nextId.toNat := by
  let last := ((start c).run past).connection.subscriptions.nextId.toNat
  let p : Terms := ⟨fun _ _ => True, fun id _ => id.toNat < last, fun _ _ => False,
    fun _ => trivial, fun _ _ _ => trivial⟩
  have hsound : ((start c).run past).Sound p _ :=
    sound_of_create hc (fun _ _ => id) past hroom (fun _ _ _ _ => trivial) fun _ _ hlt => hlt
  intro x hx
  obtain ⟨s, hs, rfl⟩ := List.mem_map.mp hx
  exact hsound.connection.named s hs

/-! ## An entry that stays -/

/-- A closed connection without subscriptions. -/
structure Spent (v : Conversation) (next : Nat) : Prop where
  rest : v.activity = none
  closed : v.connection.isClosed = true
  empty : v.connection.subscriptions.entries = []
  room : 0 < v.connection.subscriptions.capacity
  nextId : v.connection.subscriptions.nextId.toNat = next

theorem Spent.takes {next : Nat} (h : v.Spent next) : v.connection.Takes "T" := by
  refine ⟨by decide, ?_⟩
  rw [h.empty]
  exact h.room

/-- Each call that fails costs an id. -/
theorem Spent.step {next : Nat} (h : v.Spent next) (hnext : next < 2 ^ 31) :
    (v.step (.begin 0 (.subscribe "T"))).Spent (next + 1) := by
  have hfits : v.connection.subscriptions.nextId.toNat < 2 ^ 31 := h.nextId.symm ▸ hnext
  have hd : subscribe "T" v.connection.subscriptions.nextId = .ok _ :=
    subscribe_eq_ok_iff.mpr ⟨hfits, rfl⟩
  have hstep : v.step (.begin 0 (.subscribe "T")) = { v with outcome := none }.settle
      ((v.connection.withSubscription "T").sendFailed (.subscribe v.connection.subscriptions.nextId)
        (.notConnected "connection is closed")) := by
    have hclosed : (v.connection.withSubscription "T").isClosed = true := h.closed
    simp only [Conversation.step, h.rest, Connection.begin, Connection.subscribe_of_takes h.takes,
      hd, Connection.sendFrame, hclosed, ↓reduceIte]
  rw [hstep]
  refine ⟨rfl, h.closed, ?_, h.room, ?_⟩
  · have hentries : ((v.connection.subscriptions.entries ++
        [Subscription.mk v.connection.subscriptions.nextId "T" 0]).filter
          fun s => s.id ≠ v.connection.subscriptions.nextId) = [] := by
      rw [h.empty]
      simp
    exact hentries
  · have hafter := toNat_idAfter v.connection.subscriptions.nextId (by omega)
    rw [h.nextId] at hafter
    exact hafter

theorem Spent.run {next n : Nat} (h : v.Spent next) (hn : next + n ≤ 2 ^ 31) :
    (v.run (List.replicate n (.begin 0 (.subscribe "T")))).Spent (next + n) := by
  induction n generalizing v next with
  | zero => exact h
  | succ n ih =>
    have hrun := ih (h.step (by omega)) (by omega)
    rwa [Nat.add_right_comm] at hrun

/-- What a call for the first id that is too large leaves behind. -/
theorem Spent.stale (h : v.Spent (2 ^ 31)) :
    let w := v.run [.begin 0 (.subscribe "T")]
    w.outcome = some (.failed (.exhausted .subscriptionIds)) ∧
      w.connection.subscribed = v.connection.subscribed ++ [(2147483648, "T")] := by
  intro w
  have hid : v.connection.subscriptions.nextId = 2147483648 := by
    rw [← UInt32.toNat_inj, h.nextId]
    decide
  have hd : subscribe "T" v.connection.subscriptions.nextId =
      .error (.exhausted .subscriptionIds) :=
    subscribe_eq_error_iff.mpr ⟨Nat.le_of_eq h.nextId.symm, rfl⟩
  have hw : w = { v with outcome := none }.settle (v.connection.withSubscription "T",
      .finished (.failed (.exhausted .subscriptionIds))) := by
    change v.step (.begin 0 (.subscribe "T")) = _
    simp only [Conversation.step, h.rest, Connection.begin, Connection.subscribe_of_takes h.takes,
      hd]
  rw [hw, ← hid]
  exact ⟨rfl, Connection.subscribed_of_kept rfl⟩

/-- A connection that has been closed is asked to subscribe until its ids no longer fit in a
message. The next call fails, and its entry stays in the table. -/
theorem stale_subscription :
    let v := ((start plainConnection).run closing).run
      (List.replicate (2 ^ 31 - 1) (.begin 0 (.subscribe "T")))
    let w := v.run [.begin 0 (.subscribe "T")]
    v.activity = none ∧ w.outcome = some (.failed (.exhausted .subscriptionIds)) ∧
      v.connection.subscribed = [] ∧ w.connection.subscribed = [(2147483648, "T")] := by
  generalize hn : 2 ^ 31 - 1 = n
  intro v w
  have hclosed : ((start plainConnection).run closing).Spent 1 := ⟨rfl, rfl, rfl, by decide, rfl⟩
  have hspent : v.Spent (1 + n) := hclosed.run (by omega)
  rw [show 1 + n = 2 ^ 31 by omega] at hspent
  -- Nothing is to unfold the list of all the calls.
  clear_value v
  have hempty : v.connection.subscribed = [] := by
    rw [Connection.subscribed, hspent.empty]
    rfl
  obtain ⟨ho, hstays⟩ := hspent.stale
  rw [hempty] at hstays
  exact ⟨hspent.rest, ho, hempty, hstays⟩

end Conversation

end TopicBus
