import TopicBus.Proofs.Connection.Journal

/-!
Operations with a timeout, against a clock that goes by milliseconds. Time passes only while an
operation waits, and not beyond its timer. Every activity of an operation has the deadline that the
operation began with, so the operation is over by then, and it times out at that moment only
(`timeouts_exact`).
-/

namespace TopicBus

/-- A conversation and the time. -/
structure Timed where
  conversation : Conversation
  now : Nat

/-- A turn takes no time. -/
inductive Moment where
  | turn (t : Turn)
  | passes (time : Nat)
  deriving Repr

/-- Whether an operation begins. -/
def Moment.begins : Moment → Bool
  | .turn t => t.begins
  | .passes _ => false

namespace Timed

def step (v : Timed) : Moment → Timed
  | .turn t => { v with conversation := t.act v.conversation }
  | .passes time => { v with now := v.now + time }

def run (v : Timed) (ms : List Moment) : Timed := ms.foldl step v

/-- An operation begins now. -/
def call (v : Timed) (op : Operation) : Timed := v.step (.turn (.happening (.begin v.now op)))

/-- A deadline has to have come to be passed, and no timer is missed. -/
def Possible (v : Timed) : Moment → Prop
  | .turn (.happening (.begin now _)) | .turn (.happening (.reply now _)) => now = v.now
  | .turn (.happening .expire) =>
    ∃ a ∈ v.conversation.activity, ∃ deadline ∈ a.deadline?, deadline ≤ v.now
  | .turn (.happening (.receive _)) | .turn (.frame _ _) | .turn (.ends _ _) => True
  | .passes time => ∃ a ∈ v.conversation.activity, ∀ timer ∈ a.timer?, v.now + time ≤ timer

instance (v : Timed) (m : Moment) : Decidable (v.Possible m) :=
  match m with
  | .turn (.happening (.begin now _)) | .turn (.happening (.reply now _)) =>
    inferInstanceAs (Decidable (now = v.now))
  | .turn (.happening .expire) => inferInstanceAs (Decidable
      (∃ a ∈ v.conversation.activity, ∃ deadline ∈ a.deadline?, deadline ≤ v.now))
  | .turn (.happening (.receive _)) | .turn (.frame _ _) | .turn (.ends _ _) =>
    inferInstanceAs (Decidable True)
  | .passes time => inferInstanceAs (Decidable
      (∃ a ∈ v.conversation.activity, ∀ timer ∈ a.timer?, v.now + time ≤ timer))

def Admits (v : Timed) : List Moment → Prop
  | [] => True
  | m :: ms => v.Possible m ∧ (v.step m).Admits ms

instance decidableAdmits (v : Timed) : (ms : List Moment) → Decidable (v.Admits ms)
  | [] => inferInstanceAs (Decidable True)
  | m :: ms =>
    have := decidableAdmits (v.step m) ms
    inferInstanceAs (Decidable (v.Possible m ∧ (v.step m).Admits ms))

/-- How an operation with a deadline stands. -/
inductive Runs (deadline : Nat) (v : Timed) : Prop
  | waits {a : Activity} (ha : v.conversation.activity = some a)
      (hdeadline : a.deadline? = some deadline) (hnow : v.now ≤ deadline)
  | settled {o : Outcome} (hrest : v.conversation.activity = none)
      (ho : v.conversation.outcome = some o) (hnow : v.now ≤ deadline)
      (hexact : o = .failed .timeout → v.now = deadline)

variable {v : Timed} {deadline : Nat} {next : Connection × Progress}

/-- No timer goes beyond the deadline. -/
theorem exists_timer {a : Activity} (h : a.deadline? = some deadline) :
    ∃ timer ∈ a.timer?, timer ≤ deadline := by
  unfold Activity.timer?
  rw [h]
  cases a.demand <;> simp

theorem Runs.of_until {u : Conversation} (hnext : next.2.Until (some deadline))
    (hnow : v.now ≤ deadline) : Runs deadline { v with conversation := u.settle next } := by
  rcases next with ⟨c, a | o⟩
  · exact .waits rfl hnext hnow
  · exact .settled rfl rfl hnow fun htimeout => absurd htimeout hnext

theorem runs_call (hrest : v.conversation.activity = none) {op : Operation} {time : Nat}
    (hop : op.timeout? = some time) : Runs (v.now + time) (v.call op) := by
  have hproceeds := Connection.proceeds_begin v.conversation.connection v.now op
  have hdeadline : op.deadline? v.now = some (v.now + time) := by simp [Operation.deadline?, hop]
  rw [hdeadline] at hproceeds
  simp only [call, step, Turn.act, Conversation.step, hrest]
  exact .of_until hproceeds.until (Nat.le_add_right _ _)

/-- Nothing that a reader does ends an operation. -/
theorem Runs.of_same (h : Runs deadline v) (c : Connection) :
    Runs deadline { v with conversation := { v.conversation with connection := c } } := by
  cases h with
  | waits ha hdeadline hnow => exact .waits ha hdeadline hnow
  | settled hrest ho hnow hexact => exact .settled hrest ho hnow hexact

theorem Runs.reply (h : Runs deadline v) (now : Nat) (r : Reply) :
    Runs deadline (v.step (.turn (.happening (.reply now r)))) := by
  cases h with
  | @waits a ha hdeadline hnow =>
    have hnext := (Connection.resumes_resume v.conversation.connection now a r).until
    rw [hdeadline] at hnext
    simp only [step, Turn.act, Conversation.step, ha]
    exact .of_until hnext hnow
  | settled hrest ho hnow hexact =>
    simp only [step, Turn.act, Conversation.step, hrest]
    exact .settled hrest ho hnow hexact

/-- An operation times out at its deadline. -/
theorem expire_waiting {a : Activity} (ha : v.conversation.activity = some a)
    (hdeadline : a.deadline?.isSome) :
    (v.step (.turn (.happening .expire))).conversation.activity = none ∧
      (v.step (.turn (.happening .expire))).conversation.outcome = some (.failed .timeout) := by
  have hexpires := Connection.expires_expire v.conversation.connection a
  simp only [step, Turn.act, Conversation.step, ha]
  generalize v.conversation.connection.expire a = next at hexpires
  cases hexpires with
  | ignored hnone => simp [hnone] at hdeadline
  | timeout => exact ⟨rfl, rfl⟩

theorem Runs.step (h : Runs deadline v) {m : Moment} (hm : v.Possible m)
    (hgoesOn : m.begins = false) : Runs deadline (v.step m) := by
  match m with
  | .turn (.frame reader f) => exact h.of_same _
  | .turn (.ends reader why) => exact h.of_same _
  | .turn (.happening (.receive chunk)) => exact h.of_same _
  | .turn (.happening (.begin now op)) => nomatch hgoesOn
  | .turn (.happening (.reply now r)) => exact h.reply now r
  | .turn (.happening .expire) =>
    obtain ⟨b, hb, d, hd, hcome⟩ := hm
    cases h with
    | waits ha hdeadline hnow =>
      -- The deadline has come (`hcome`), and no time has passed beyond it (`hnow`).
      obtain rfl := Option.some.inj (ha.symm.trans hb)
      obtain rfl := Option.some.inj (hdeadline.symm.trans hd)
      obtain ⟨hover, ho⟩ := expire_waiting ha (Option.isSome_of_eq_some hdeadline)
      exact .settled hover ho hnow fun _ => Nat.le_antisymm hnow hcome
    | settled hrest => nomatch hrest.symm.trans hb
  | .passes time =>
    obtain ⟨b, hb, htimer⟩ := hm
    cases h with
    | waits ha hdeadline hnow =>
      -- Time stops at the timer of the activity, be it the end of a pause or the deadline.
      obtain rfl := Option.some.inj (ha.symm.trans hb)
      obtain ⟨timer, hmem, hle⟩ := exists_timer hdeadline
      exact .waits ha hdeadline (Nat.le_trans (htimer timer hmem) hle)
    | settled hrest => nomatch hrest.symm.trans hb

theorem Runs.run (h : Runs deadline v) {ms : List Moment} (hms : v.Admits ms)
    (hgoesOn : ∀ m ∈ ms, m.begins = false) : Runs deadline (v.run ms) := by
  induction ms generalizing v with
  | nil => exact h
  | cons m ms ih =>
    obtain ⟨hm, hrest⟩ := List.forall_mem_cons.mp hgoesOn
    exact ih (h.step hms.1 hm) hms.2 hrest

/-- An operation that may take some time is over by then, whatever the other side does and however
often the operation starts over: it gives something before, or times out at just that moment. As
long as it waits, its deadline is still the same, and when this comes, it can be passed. -/
theorem timeouts_exact (v : Timed) (hrest : v.conversation.activity = none) (op : Operation)
    (time : Nat) (hop : op.timeout? = some time) (during : List Moment)
    (hduring : (v.call op).Admits during) (hgoesOn : ∀ m ∈ during, m.begins = false) :
    let w := (v.call op).run during
    w.now ≤ v.now + time ∧
    (w.conversation.activity = none → ∃ o, w.conversation.outcome = some o ∧
      (o = .failed .timeout → w.now = v.now + time)) ∧
    (∀ a, w.conversation.activity = some a → a.deadline? = some (v.now + time) ∧
      (w.now = v.now + time → w.Possible (.turn (.happening .expire)) ∧
        (w.step (.turn (.happening .expire))).conversation.activity = none ∧
        (w.step (.turn (.happening .expire))).conversation.outcome =
          some (.failed .timeout))) := by
  intro w
  have h : Runs (v.now + time) w := (runs_call hrest hop).run hduring hgoesOn
  clear_value w
  cases h with
  | waits ha hdeadline hnow =>
    refine ⟨hnow, fun hover => ?_, fun b hb => ?_⟩
    · exact nomatch ha.symm.trans hover
    · obtain rfl := Option.some.inj (ha.symm.trans hb)
      refine ⟨hdeadline, fun hcome => ⟨⟨_, hb, _, hdeadline, Nat.le_of_eq hcome.symm⟩, ?_⟩⟩
      exact expire_waiting hb (Option.isSome_of_eq_some hdeadline)
  | settled hover ho hnow hexact =>
    exact ⟨hnow, fun _ => ⟨_, ho, hexact⟩, fun b hb => nomatch hover.symm.trans hb⟩

/-- The stream of a request breaks, a connect is refused, and the next one would come too late. -/
def outOfTime : List Moment :=
  [.turn (.happening (.reply 50 (.writeFailed ⟨.brokenPipe, none⟩))),
    .turn (.happening (.reply 50 (.refused ⟨.connectionRefused, none⟩))), .passes 100,
    .turn (.happening .expire)]

theorem timeouts_exact_outOfTime :
    let v : Timed := ⟨(Conversation.start Conversation.plainConnection).run
      [.reply 0 (.connected 0 "" ""), .reply 0 .written], 50⟩
    let op := Operation.request "T" .empty 100
    v.conversation.activity = none ∧ (v.call op).Admits outOfTime ∧
      ((v.call op).run outOfTime).conversation.activity = none ∧
      ((v.call op).run outOfTime).conversation.outcome = some (.failed .timeout) ∧
      ((v.call op).run outOfTime).now = 150 := by
  intro v op
  have hrest : v.conversation.activity = none := rfl
  have hadmits : (v.call op).Admits outOfTime := by decide +kernel
  have hover : ((v.call op).run outOfTime).conversation.activity = none := rfl
  have htimeout : ((v.call op).run outOfTime).conversation.outcome = some (.failed .timeout) := rfl
  obtain ⟨-, hends, -⟩ := timeouts_exact v hrest op 100 rfl outOfTime hadmits (by decide)
  obtain ⟨o, ho, hexact⟩ := hends hover
  obtain rfl := Option.some.inj (htimeout.symm.trans ho)
  exact ⟨hrest, hadmits, hover, htimeout, hexact rfl⟩

end Timed

end TopicBus
