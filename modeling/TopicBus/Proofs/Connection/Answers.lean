import TopicBus.Proofs.Connection.Delivery
import TopicBus.Proofs.Connection.Slot

/-!
Requests and their answers over a whole run. The readers of streams that have been replaced may
still handle a frame at any moment, so a run is made of occurrences: what happens to the connection,
and stragglers. `Meets` says what an occurrence can do. `Kept` holds at every moment; from the
moment when a request begins the slot holds the first answer that is handled (`Asks`), and the
request is over with just that one or fails (`requests_answered`).
-/

namespace TopicBus

open Connection (isAnswer framesIn)

/-- What can happen while readers of streams that were given up are still about. -/
inductive Occurrence where
  | happening (x : Happening)
  /-- The reader of a stream that has been given up handles one more frame. -/
  | straggler (f : Frame)
  deriving Repr

namespace Occurrence

def operation? : Occurrence → Option Operation
  | .happening x => x.operation?
  | .straggler _ => none

/-- Whether an occurrence reports a fault. -/
def Brings (why : Fault) : Occurrence → Prop
  | .happening (.reply _ r) => r.Brings why
  | _ => False

end Occurrence

/-- What a request gives for its response. -/
def Outcome.ofResponse (f : Frame) : Outcome :=
  match f.document with
  | .ok d => .responded d
  | .error why => .failed why

/-- What a response gives, be it a document or the fault of one that is none. -/
def Outcome.IsResponse : Outcome → Prop
  | .responded _ | .failed (.decode _) => True
  | _ => False

namespace Conversation

def meet (v : Conversation) : Occurrence → Conversation
  | .happening x => v.step x
  | .straggler f => { v with connection := v.connection.accept f }

def meetAll (v : Conversation) (xs : List Occurrence) : Conversation := xs.foldl meet v

/-- The frames that readers handle. -/
def handled (v : Conversation) : Occurrence → List Frame
  | .happening (.receive chunk) => v.connection.incoming chunk
  | .happening _ => []
  | .straggler f => [f]

/-- All frames that readers handle in a run. -/
def history (v : Conversation) : List Occurrence → List Frame
  | [] => []
  | x :: xs => v.handled x ++ (v.meet x).history xs

/-- Whether a request is in progress. -/
def isRequesting (v : Conversation) : Bool := v.activity.any Activity.isRequest

theorem meetAll_append (v : Conversation) (xs ys : List Occurrence) :
    v.meetAll (xs ++ ys) = (v.meetAll xs).meetAll ys := List.foldl_append

theorem history_append (v : Conversation) (xs ys : List Occurrence) :
    v.history (xs ++ ys) = v.history xs ++ (v.meetAll xs).history ys := by
  induction xs generalizing v with
  | nil => rfl
  | cons x xs ih =>
    rw [List.cons_append, history, history, ih, List.append_assoc]
    rfl

/-! ## One occurrence -/

/-- What an occurrence does: readers handle frames, an operation is begun or goes on, or a request
looks into its slot. What comes at the wrong moment is ignored. -/
inductive Meets (p : Fault → Prop) (v : Conversation) (x : Occurrence) : Conversation → Prop
  | read {c : Connection} (hread : Connection.Handled (v.handled x) v.connection c) :
      Meets p v x { v with connection := c }
  | ignored (hnone : v.handled x = []) : Meets p v x v
  | begun {op : Operation} {next : Connection × Progress} (hop : x.operation? = some op)
      (hkeeps : Keeps p op.isRequest
        { v.connection with slot := if op.isRequest then .waiting else .empty } next) :
      Meets p v x ({ v with outcome := none }.settle next)
  | moved {a : Activity} {next : Connection × Progress} {written : StreamId → List (List UInt8)}
      (ha : v.activity = some a) (hnone : v.handled x = [])
      (hkeeps : Keeps p a.isRequest v.connection next) :
      Meets p v x ({ v with written := written }.settle next)
  | woken {deadline : Nat} {written : StreamId → List (List UInt8)}
      (ha : v.activity = some (.awaitingResponse deadline)) (hnone : v.handled x = []) :
      Meets p v x ({ v with written := written }.settle (v.connection.takeResponse deadline))

theorem meets_meet {p : Fault → Prop} (hp : ∀ why : Fault, why.Own → p why) {v : Conversation}
    {x : Occurrence} (hx : ∀ why, x.Brings why → p why)
    (hslot : ∀ op ∈ x.operation?, v.activity = none → v.connection.slot = .empty) :
    Meets p v x (v.meet x) := by
  cases x with
  | straggler f => exact .read (Connection.handled_accept v.connection f)
  | happening x =>
    cases x with
    | receive chunk => exact .read (Connection.handled_receive v.connection chunk)
    | begin now op =>
      simp only [meet, step]
      split
      · next hrest => exact .begun rfl (Connection.keeps_begin hp (hslot op rfl hrest) now op)
      · exact .ignored rfl
    | expire =>
      simp only [meet, step]
      split
      · next a ha => exact .moved ha rfl (Connection.keeps_expire hp v.connection a)
      · exact .ignored rfl
    | reply now r =>
      simp only [meet, step]
      split
      · next a ha =>
        rcases Connection.keeps_resume hp v.connection now a hx with hkeeps | ⟨deadline, rfl, rfl⟩
        · exact .moved ha rfl hkeeps
        · exact .woken ha rfl
      · exact .ignored rfl

/-! ## At every moment -/

/-- The inbox stays, answers are never put aside, the slot belongs to the request in progress, and
whatever fails does so for a reason that is allowed or because its response is no document. -/
structure Kept (inbox : String) (p : Fault → Prop) (v : Conversation) : Prop where
  inbox : v.connection.inbox = inbox
  inbound : ∀ f ∈ framesIn v.connection.inbound, isAnswer f = false
  idle : v.isRequesting = false → v.connection.slot = .empty
  busy : v.isRequesting = true → ∃ answers, v.connection.slot = .of answers
  dispatched : ∀ d, v.outcome = some (.dispatched (some d)) → isAnswer d.frame = false
  failed : ∀ why, v.outcome = some (.failed why) → p why ∨ ∃ m, why = .decode m

variable {inbox : String} {p : Fault → Prop} {v : Conversation}

theorem isRequesting_of_activity {a : Activity} (ha : v.activity = some a) :
    v.isRequesting = a.isRequest := by
  rw [isRequesting, ha, Option.any_some]

theorem isRequesting_of_rest (hrest : v.activity = none) : v.isRequesting = false := by
  rw [isRequesting, hrest, Option.any_none]

theorem Kept.of_keeps (h : v.Kept inbox p) {isRequest : Bool} {c : Connection}
    {next : Connection × Progress} (hnext : Keeps p isRequest c next) (hinbox : c.inbox = inbox)
    (hinbound : ∀ f ∈ framesIn c.inbound, isAnswer f = false)
    (hidle : isRequest = false → c.slot = .empty)
    (hbusy : isRequest = true → ∃ answers, c.slot = .of answers) :
    (v.settle next).Kept inbox p := by
  cases hnext with
  | waiting ha hslot hnarrows =>
    refine ⟨hnarrows.inbox.trans hinbox, fun f hf => hinbound f (hnarrows.inbound hf),
      fun hno => ?_, fun hyes => ?_, h.dispatched, h.failed⟩
    · exact hslot.trans (hidle (ha.symm.trans hno))
    · obtain ⟨answers, hanswers⟩ := hbusy (ha.symm.trans hyes)
      exact ⟨answers, hslot.trans hanswers⟩
  | failed hwhy hslot hnarrows =>
    refine ⟨hnarrows.inbox.trans hinbox, fun f hf => hinbound f (hnarrows.inbound hf),
      fun _ => ?_, nofun, nofun, fun why ho => ?_⟩
    · refine hslot.trans ?_
      cases isRequest with
      | true => rfl
      | false => exact hidle rfl
    · obtain rfl := Outcome.failed.inj (Option.some.inj ho)
      exact .inl hwhy
  | given hno ho hslot hnarrows =>
    refine ⟨hnarrows.inbox.trans hinbox, fun f hf => hinbound f (hnarrows.inbound hf),
      fun _ => hslot.trans (hidle hno), nofun, fun d hd => ?_, fun why hwhy => ?_⟩
    · obtain rfl := Option.some.inj hd
      exact hinbound d.frame ho
    · obtain rfl := Option.some.inj hwhy
      exact ho.elim

/-- What has been written does not count. -/
theorem Kept.of_written (h : v.Kept inbox p) (written : StreamId → List (List UInt8)) :
    Kept inbox p { v with written := written } :=
  ⟨h.inbox, h.inbound, h.idle, h.busy, h.dispatched, h.failed⟩

/-- What readers handle. -/
theorem Kept.of_handled (h : v.Kept inbox p) {frames : List Frame} {c : Connection}
    (hc : Connection.Handled frames v.connection c) : Kept inbox p { v with connection := c } where
  inbox := hc.inbox.trans h.inbox
  inbound := by
    intro f hf
    rw [hc.inbound] at hf
    rcases List.mem_append.mp hf with hf | hf
    · exact h.inbound f hf
    · simpa using (List.mem_filter.mp hf).2
  idle := by
    intro hno
    rw [hc.slot, h.idle hno, ResponseSlot.foldl_handle_empty]
  busy := by
    intro hyes
    obtain ⟨answers, hanswers⟩ := h.busy hyes
    exact ⟨_, by rw [hc.slot, hanswers, ResponseSlot.foldl_handle_of]⟩
  dispatched := h.dispatched
  failed := h.failed

theorem takeResponse_waiting {c : Connection} (hslot : c.slot = .of []) (deadline : Nat) :
    c.takeResponse deadline = (c, .waiting (.awaitingResponse deadline)) := by
  rw [Connection.takeResponse, hslot]
  rfl

theorem takeResponse_answered {c : Connection} {f : Frame} {rest : List Frame}
    (hslot : c.slot = .of (f :: rest)) (deadline : Nat) :
    c.takeResponse deadline = ({ c with slot := .empty }, .finished (.ofResponse f)) := by
  rw [Connection.takeResponse, hslot]
  rfl

/-- A request that is woken gives what is in its slot. -/
theorem step_woken {deadline : Nat} {f : Frame}
    (hwaits : v.activity = some (.awaitingResponse deadline))
    (hslot : v.connection.slot = .answered f) (now : Nat) :
    (v.step (.reply now .woken)).activity = none ∧
      (v.step (.reply now .woken)).outcome = some (.ofResponse f) := by
  have hone : v.connection.slot = .of [f] := hslot
  simp only [step, hwaits, Connection.resume, takeResponse_answered hone deadline]
  exact ⟨rfl, rfl⟩

theorem ofResponse_eq {f : Frame} {d : Document} (h : f.document = .ok d) :
    .ofResponse f = Outcome.responded d := by
  rw [Outcome.ofResponse, h]

/-- Only a response that is no document makes a request fail in this way. -/
theorem decode_of_ofResponse {f : Frame} {why : Fault} (h : .ofResponse f = Outcome.failed why) :
    ∃ m, why = .decode m := by
  unfold Outcome.ofResponse Frame.document Document.decode at h
  split at h
  · nomatch h
  · next why' hwhy =>
    obtain rfl := Outcome.failed.inj h
    split at hwhy
    · exact ⟨_, (Except.error.inj hwhy).symm⟩
    · nomatch hwhy
    · exact ⟨_, (Except.error.inj hwhy).symm⟩

theorem ofResponse_ne_dispatched (f : Frame) (d : Option Delivery) :
    .ofResponse f ≠ Outcome.dispatched d := by
  unfold Outcome.ofResponse
  split <;> nofun

/-- A request looks into the slot. -/
theorem Kept.response (h : v.Kept inbox p) {answers : List Frame}
    (hanswers : v.connection.slot = .of answers) (deadline : Nat) :
    (v.settle (v.connection.takeResponse deadline)).Kept inbox p := by
  cases answers with
  | nil =>
    rw [takeResponse_waiting hanswers]
    refine ⟨h.inbox, h.inbound, nofun, fun _ => ⟨[], hanswers⟩, h.dispatched, h.failed⟩
  | cons f rest =>
    rw [takeResponse_answered hanswers]
    refine ⟨h.inbox, h.inbound, fun _ => rfl, nofun, fun d hd => ?_, fun why hwhy => ?_⟩
    · exact absurd (Option.some.inj hd) (ofResponse_ne_dispatched f _)
    · exact .inr (decode_of_ofResponse (Option.some.inj hwhy))

theorem Kept.meets (hp : ∀ why : Fault, why.Own → p why) (h : v.Kept inbox p) {x : Occurrence}
    (hx : ∀ why, x.Brings why → p why) : Meets p v x (v.meet x) :=
  meets_meet hp hx fun _ _ hrest => h.idle (isRequesting_of_rest hrest)

theorem Kept.meet (hp : ∀ why : Fault, why.Own → p why) (h : v.Kept inbox p) {x : Occurrence}
    (hx : ∀ why, x.Brings why → p why) : (v.meet x).Kept inbox p := by
  have hmeets := h.meets hp hx
  generalize v.meet x = w at hmeets ⊢
  cases hmeets with
  | read hread => exact h.of_handled hread
  | ignored => exact h
  | @begun op _ _ hkeeps =>
    have hcleared : Kept inbox p { v with outcome := none } :=
      ⟨h.inbox, h.inbound, h.idle, h.busy, (fun _ ho => by cases ho), fun _ ho => by cases ho⟩
    refine hcleared.of_keeps hkeeps h.inbox h.inbound (fun hno => ?_) fun hyes => ?_
    · simp only [hno, Bool.false_eq_true, ↓reduceIte]
    · exact ⟨[], if_pos hyes⟩
  | @moved a _ written ha _ hkeeps =>
    rw [← isRequesting_of_activity ha] at hkeeps
    exact (h.of_written written).of_keeps hkeeps h.inbox h.inbound h.idle h.busy
  | @woken deadline written ha =>
    obtain ⟨answers, hanswers⟩ := h.busy (isRequesting_of_activity ha)
    exact (h.of_written written).response hanswers deadline

theorem Kept.meetAll (hp : ∀ why : Fault, why.Own → p why) (h : v.Kept inbox p)
    {xs : List Occurrence} (hxs : ∀ x ∈ xs, ∀ why, x.Brings why → p why) :
    (v.meetAll xs).Kept inbox p := by
  induction xs generalizing v with
  | nil => exact h
  | cons x xs ih =>
    obtain ⟨hx, hrest⟩ := List.forall_mem_cons.mp hxs
    exact ih (h.meet hp hx) hrest

theorem kept_start {appName inboxId : String} {settings : ClientSettings} {c : Connection}
    (hc : Connection.create appName settings inboxId = .ok c) : (start c).Kept c.inbox p := by
  obtain ⟨-, -, address, -, rfl⟩ := Connection.create_eq_ok_iff.mp hc
  exact ⟨rfl, List.forall_mem_nil _, fun _ => rfl, nofun, nofun, nofun⟩

/-! ## From the beginning of a request -/

/-- The request that was begun last, when readers have handled these answers since: it waits for the
first of them, or has it; or it is over, with the first of them or because it failed. -/
inductive Asks (answers : List Frame) (v : Conversation) : Prop
  | waiting (hyes : v.isRequesting = true) (hslot : v.connection.slot = .of answers)
  | answered {f : Frame} {rest : List Frame} (hrest : v.activity = none)
      (hanswers : answers = f :: rest) (ho : v.outcome = some (.ofResponse f))
  | failed {why : Fault} (hrest : v.activity = none) (ho : v.outcome = some (.failed why))
      (hwhy : ∀ m, why ≠ .decode m)

/-- The faults of a request that are no fault of its response. -/
theorem ne_decode_of_own {why : Fault} (h : why.Own) (m : Malformed) : why ≠ .decode m := by
  cases h <;> nofun

theorem ne_decode_of_brings {x : Occurrence} {why : Fault} (h : x.Brings why) (m : Malformed) :
    why ≠ .decode m := by
  cases x with
  | straggler f => exact h.elim
  | happening x =>
    cases x with
    | reply now r =>
      cases r with
      | refused io =>
        obtain rfl : why = Connection.unreachable io := h
        nofun
      | writeFailed io =>
        obtain rfl : why = .ofIo io := h
        unfold Fault.ofIo
        split <;> nofun
      | _ => exact h.elim
    | _ => exact h.elim

variable {answers : List Frame}

theorem Asks.of_keeps {c : Connection} {next : Connection × Progress}
    (hnext : Keeps (fun why => ∀ m, why ≠ .decode m) true c next) (hslot : c.slot = .of answers) :
    (v.settle next).Asks answers := by
  cases hnext with
  | waiting ha hsame _ => exact .waiting ha (hsame.trans hslot)
  | failed hwhy _ _ => exact .failed rfl rfl hwhy
  | given hno => nomatch hno

theorem Asks.of_handled (h : v.Asks answers) {frames : List Frame} {c : Connection}
    (hc : Connection.Handled frames v.connection c) :
    Asks (answers ++ frames.filter isAnswer) { v with connection := c } := by
  cases h with
  | waiting hyes hslot =>
    refine .waiting hyes ?_
    rw [hc.slot, hslot, ResponseSlot.foldl_handle_of]
  | @answered f rest hrest hanswers ho =>
    have hmore : answers ++ frames.filter isAnswer = f :: (rest ++ frames.filter isAnswer) := by
      rw [hanswers, List.cons_append]
    exact .answered hrest hmore ho
  | failed hrest ho hwhy => exact .failed hrest ho hwhy

theorem Asks.slot_of_activity (h : v.Asks answers) {a : Activity} (ha : v.activity = some a) :
    a.isRequest = true ∧ v.connection.slot = .of answers := by
  cases h with
  | waiting hyes hslot => exact ⟨(isRequesting_of_activity ha).symm.trans hyes, hslot⟩
  | answered hrest => nomatch hrest.symm.trans ha
  | failed hrest => nomatch hrest.symm.trans ha

/-- Until the next operation is begun. -/
theorem Asks.meet (h : v.Asks answers) {x : Occurrence} (hx : x.operation? = none) :
    (v.meet x).Asks (answers ++ (v.handled x).filter isAnswer) := by
  have hmeets := meets_meet (fun _ => ne_decode_of_own) (v := v) (fun _ => ne_decode_of_brings)
    fun op hop _ => absurd hop (by rw [hx]; exact Option.not_mem_none op)
  generalize v.meet x = w at hmeets ⊢
  cases hmeets with
  | read hread => exact h.of_handled hread
  | ignored hnone =>
    rw [hnone, List.filter_nil, List.append_nil]
    exact h
  | begun hop => cases hx.symm.trans hop
  | moved ha hnone hkeeps =>
    obtain ⟨hyes, hslot⟩ := h.slot_of_activity ha
    rw [hyes] at hkeeps
    rw [hnone, List.filter_nil, List.append_nil]
    exact .of_keeps hkeeps hslot
  | @woken deadline _ ha hnone =>
    obtain ⟨-, hslot⟩ := h.slot_of_activity ha
    rw [hnone, List.filter_nil, List.append_nil]
    cases answers with
    | nil =>
      rw [takeResponse_waiting hslot]
      exact .waiting rfl hslot
    | cons f rest =>
      rw [takeResponse_answered hslot]
      exact .answered rfl rfl rfl

theorem Asks.meetAll (h : v.Asks answers) {xs : List Occurrence}
    (hxs : ∀ x ∈ xs, x.operation? = none) :
    (v.meetAll xs).Asks (answers ++ (v.history xs).filter isAnswer) := by
  induction xs generalizing v answers with
  | nil =>
    rw [history, List.filter_nil, List.append_nil]
    exact h
  | cons x xs ih =>
    obtain ⟨hx, hrest⟩ := List.forall_mem_cons.mp hxs
    rw [history, List.filter_append, ← List.append_assoc]
    exact ih (h.meet hx) hrest

variable {call : List Occurrence} {o : Outcome}

/-- A request that is begun at rest, and all that happens until the next operation is begun. -/
def Calls (v : Conversation) (call : List Occurrence) : Prop :=
  v.activity = none ∧ ∃ now topic d timeout during,
    call = .happening (.begin now (.request topic d timeout)) :: during ∧
      ∀ x ∈ during, x.operation? = none

theorem Calls.asks (hcall : v.Calls call) (h : v.Kept inbox p) :
    (v.meetAll call).Asks ((v.history call).filter isAnswer) := by
  obtain ⟨hrest, now, topic, d, timeout, during, rfl, hduring⟩ := hcall
  have hslot := h.idle (isRequesting_of_rest hrest)
  have hkeeps :=
    Connection.keeps_begin (fun _ => ne_decode_of_own) hslot now (.request topic d timeout)
  have hfirst : (v.meet (.happening (.begin now (.request topic d timeout)))).Asks [] := by
    simp only [Conversation.meet, step, hrest]
    exact .of_keeps hkeeps rfl
  exact hfirst.meetAll hduring

/-- A response has come: the first answer that was handled. -/
theorem Asks.response (h : v.Asks answers) (hrest : v.activity = none)
    (ho : v.outcome = some o) (hresponse : o.IsResponse) :
    ∃ f rest, answers = f :: rest ∧ o = .ofResponse f := by
  cases h with
  | waiting hyes _ => exact absurd (hyes.symm.trans (isRequesting_of_rest hrest)) nofun
  | answered _ hanswers hout => exact ⟨_, _, hanswers, Option.some.inj (ho.symm.trans hout)⟩
  | @failed why _ hout hwhy =>
    obtain rfl := Option.some.inj (ho.symm.trans hout)
    cases why with
    | decode m => exact absurd rfl (hwhy m)
    | _ => exact hresponse.elim

/-- A request that is over and has got a response. -/
structure GetsResponse (v : Conversation) (call : List Occurrence) (o : Outcome) : Prop where
  calls : v.Calls call
  finished : (v.meetAll call).activity = none
  outcome : (v.meetAll call).outcome = some o
  isResponse : o.IsResponse

/-- It got the first answer that was handled after it began. -/
theorem GetsResponse.split (hcall : v.GetsResponse call o) (h : v.Kept inbox p) :
    ∃ quiet f later, v.history call = quiet ++ f :: later ∧ (∀ g ∈ quiet, isAnswer g = false) ∧
      isAnswer f = true ∧ o = .ofResponse f := by
  obtain ⟨f, rest, hanswers, rfl⟩ :=
    (hcall.calls.asks h).response hcall.finished hcall.outcome hcall.isResponse
  obtain ⟨quiet, later, hsplit, hquiet, hf, -⟩ := List.filter_eq_cons_iff.mp hanswers
  exact ⟨quiet, f, later, hsplit, fun g hg => Bool.eq_false_iff.mpr (hquiet g hg), hf, rfl⟩

theorem kept_meetAll {appName inboxId : String} {settings : ClientSettings} {c : Connection}
    (hc : Connection.create appName settings inboxId = .ok c) (xs : List Occurrence) :
    ((start c).meetAll xs).Kept c.inbox fun _ => True :=
  (kept_start hc).meetAll (fun _ _ => trivial) fun _ _ _ _ => trivial

/-- An answer that nobody waits for is dropped. -/
theorem accept_of_answer {c : Connection} (hslot : c.slot ≠ .waiting) {f : Frame}
    (hf : isAnswer f = true) : c.accept f = c := by
  rw [Connection.accept, if_pos hf]
  split
  · next hwaiting => exact absurd hwaiting hslot
  · rfl

section

variable {appName inboxId : String} {settings : ClientSettings} {c : Connection}
  (hc : Connection.create appName settings inboxId = .ok c) {xs : List Occurrence}
include hc

/-- Two requests that get a response have each its own answer. -/
theorem GetsResponse.apart {between later : List Occurrence} {o₁ o₂ : Outcome}
    (hcall : ((start c).meetAll xs).GetsResponse call o₁)
    (hlater : ((((start c).meetAll xs).meetAll call).meetAll between).GetsResponse later o₂) :
    ∃ past f₁ middle f₂ rest, (start c).history (xs ++ call ++ between ++ later) =
        past ++ f₁ :: (middle ++ f₂ :: rest) ∧
      isAnswer f₁ = true ∧ o₁ = .ofResponse f₁ ∧ isAnswer f₂ = true ∧ o₂ = .ofResponse f₂ := by
  -- Each of the two is in the part of the history that belongs to its request.
  obtain ⟨quiet₁, f₁, later₁, hcut₁, -, hf₁, hgives₁⟩ := hcall.split (kept_meetAll hc xs)
  rw [← meetAll_append (start c) xs, ← meetAll_append (start c) (xs ++ call)] at hlater
  obtain ⟨quiet₂, f₂, later₂, hcut₂, -, hf₂, hgives₂⟩ := hlater.split (kept_meetAll hc _)
  refine ⟨(start c).history xs ++ quiet₁, f₁,
    later₁ ++ ((start c).meetAll (xs ++ call)).history between ++ quiet₂, f₂, later₂, ?_, hf₁,
    hgives₁, hf₂, hgives₂⟩
  rw [history_append, hcut₂, history_append, history_append, hcut₁]
  simp only [List.append_assoc, List.cons_append]

/-- No fault that a connection raises itself says that a slot was dropped. -/
theorem outcome_ne_dropped
    (hxs : ∀ x ∈ xs, ¬x.Brings (.notConnected "response slot dropped")) :
    ((start c).meetAll xs).outcome ≠ some (.failed (.notConnected "response slot dropped")) := by
  intro ho
  let p : Fault → Prop := fun why => why ≠ .notConnected "response slot dropped"
  have hown : ∀ why : Fault, why.Own → p why := by
    intro why hwhy
    cases hwhy with
    | invalidArgument | exhausted | timeout => nofun
    | detached | closed => decide
  have hkept : ((start c).meetAll xs).Kept c.inbox p :=
    (kept_start hc).meetAll hown fun x hx why hbrings heq => hxs x hx (heq ▸ hbrings)
  rcases hkept.failed _ ho with hne | ⟨m, hdecode⟩
  · exact hne rfl
  · nomatch hdecode

end

/-- Requests and answers keep to each other, whatever happens to a connection and whatever the
readers of its streams handle. No answer is ever dispatched. The slot is empty unless a request is
in progress, and then it never is; an answer that no request waits for changes nothing. A request
has in its slot the first answer that was handled since it began, gives what this one holds, or
fails for a reason of its own; and no two requests have the same. So no request ever finds its slot
dropped. -/
theorem requests_answered (appName inboxId : String) (settings : ClientSettings) (c : Connection)
    (hc : Connection.create appName settings inboxId = .ok c) (xs : List Occurrence) :
    let v := (start c).meetAll xs
    (∀ d, v.outcome = some (.dispatched (some d)) → isAnswer d.frame = false) ∧
    (v.isRequesting = false → v.connection.slot = .empty) ∧
    (v.isRequesting = true → v.connection.slot ≠ .empty) ∧
    (∀ f, isAnswer f = true → v.connection.slot ≠ .waiting → v.meet (.straggler f) = v) ∧
    (∀ call, v.Calls call →
      let w := v.meetAll call
      let answers := (v.history call).filter isAnswer
      (∀ a, w.activity = some a → a.isRequest = true ∧ w.connection.slot = .of answers) ∧
      (w.activity = none → (∃ f rest, answers = f :: rest ∧ w.outcome = some (.ofResponse f)) ∨
        ∃ why, w.outcome = some (.failed why) ∧ ∀ m, why ≠ .decode m)) ∧
    (∀ call between later o₁ o₂, v.GetsResponse call o₁ →
      ((v.meetAll call).meetAll between).GetsResponse later o₂ →
      ∃ past f₁ middle f₂ rest, (start c).history (xs ++ call ++ between ++ later) =
          past ++ f₁ :: (middle ++ f₂ :: rest) ∧
        isAnswer f₁ = true ∧ o₁ = .ofResponse f₁ ∧ isAnswer f₂ = true ∧ o₂ = .ofResponse f₂) ∧
    ((∀ x ∈ xs, ¬x.Brings (.notConnected "response slot dropped")) →
      v.outcome ≠ some (.failed (.notConnected "response slot dropped"))) := by
  intro v
  have h : v.Kept c.inbox fun _ => True := kept_meetAll hc xs
  refine ⟨h.dispatched, h.idle, fun hyes => ?_, fun f hf hslot => ?_, fun call hcall => ⟨?_, ?_⟩,
    ?_, fun hxs ho => ?_⟩
  · obtain ⟨answers, hanswers⟩ := h.busy hyes
    rw [hanswers]
    exact ResponseSlot.of_ne_empty answers
  · rw [meet, accept_of_answer hslot hf]
  · intro a ha
    exact (hcall.asks h).slot_of_activity ha
  · intro hrest
    cases hcall.asks h with
    | waiting hyes _ => exact absurd (hyes.symm.trans (isRequesting_of_rest hrest)) nofun
    | answered _ hanswers ho => exact .inl ⟨_, _, hanswers, ho⟩
    | failed _ ho hwhy => exact .inr ⟨_, ho, hwhy⟩
  · intro call between later o₁ o₂ hcall hlater
    exact hcall.apart hc hlater
  · exact outcome_ne_dropped hc hxs ho

/-! ## A late answer -/

def numbered (n : Int32) : Document := Document.empty.setInt32 "answer" n

/-- An answer to the inbox `x.INBOX.1`. -/
def answer (n : Int32) : Frame :=
  .ofDocument { Header.forTopic "x.INBOX.1" with flags := .response } (numbered n)

theorem wellFormed_numbered (n : Int32) : (numbered n).WellFormed :=
  (Document.Made.empty.int32 "answer" n).wellFormed

theorem document_answer (n : Int32) : (answer n).document = .ok (numbered n) := by
  have hflat : (numbered n).nesting ≤ Json.maxNesting := Nat.le_of_ble_eq_true rfl
  exact (Document.decode_encode_eq (wellFormed_numbered n)).trans (if_pos hflat)

theorem ofResponse_answer (n : Int32) :
    .ofResponse (answer n) = Outcome.responded (numbered n) :=
  ofResponse_eq (document_answer n)

/-- A request that is written, and what happens while it waits. -/
def requesting (during : List Occurrence) : List Occurrence :=
  [.happening (.begin 0 (.request "T" .empty 100)), .happening (.reply 0 .written)] ++ during

/-- A request that times out, and the answer that comes for it then. -/
def answeredLate : List Occurrence :=
  opening.map .happening ++ requesting [.happening .expire, .straggler (answer 1)]

/-- A request for which two answers come. -/
def answeredTwice (n m : Int32) : List Occurrence :=
  requesting [.straggler (answer n), .straggler (answer m), .happening (.reply 0 .woken)]

theorem requests_answered_late :
    Connection.create "x" { address := "unix:///bus" } "1" = .ok plainConnection ∧
      let v := (start plainConnection).meetAll answeredLate
      v.outcome = some (.failed .timeout) ∧ v.connection.slot = .empty ∧
      v.meet (.straggler (answer 1)) = v ∧
      v.GetsResponse (answeredTwice 2 3) (.responded (numbered 2)) ∧
      ((v.meetAll (answeredTwice 2 3)).meetAll []).GetsResponse (answeredTwice 4 5)
        (.responded (numbered 4)) ∧
      ∃ past f₁ middle f₂ rest, (start plainConnection).history
            (answeredLate ++ answeredTwice 2 3 ++ [] ++ answeredTwice 4 5) =
          past ++ f₁ :: (middle ++ f₂ :: rest) ∧
        .responded (numbered 2) = Outcome.ofResponse f₁ ∧
        .responded (numbered 4) = Outcome.ofResponse f₂ := by
  have hc : Connection.create "x" { address := "unix:///bus" } "1" = .ok plainConnection := rfl
  obtain ⟨-, hidle, -, hdropped, -, htwo, -⟩ := requests_answered "x" "1"
    { address := "unix:///bus" } plainConnection hc answeredLate
  have hfirst : ((start plainConnection).meetAll answeredLate).GetsResponse (answeredTwice 2 3)
      (.responded (numbered 2)) :=
    ⟨⟨rfl, _, _, _, _, _, rfl, by decide⟩, rfl, congrArg some (ofResponse_answer 2), trivial⟩
  have hsecond : ((((start plainConnection).meetAll answeredLate).meetAll
      (answeredTwice 2 3)).meetAll []).GetsResponse (answeredTwice 4 5)
      (.responded (numbered 4)) :=
    ⟨⟨rfl, _, _, _, _, _, rfl, by decide⟩, rfl, congrArg some (ofResponse_answer 4), trivial⟩
  obtain ⟨past, f₁, middle, f₂, rest, hsplit, -, hgives₁, -, hgives₂⟩ :=
    htwo _ _ _ _ _ hfirst hsecond
  have hslot := hidle rfl
  refine ⟨hc, rfl, hslot, hdropped (answer 1) (by decide) (by rw [hslot]; nofun), hfirst, hsecond,
    past, f₁, middle, f₂, rest, hsplit, hgives₁, hgives₂⟩

end Conversation

end TopicBus
