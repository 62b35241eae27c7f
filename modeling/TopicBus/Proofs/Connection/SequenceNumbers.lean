import Mathlib.Logic.Function.Basic
import TopicBus.Proofs.Connection.Issuing
import TopicBus.Proofs.Connection.Replay

/-!
The sequence numbers on the streams of a connection. One counter numbers everything that is
composed, the messages of a greeting like the frames of the application. A frame is numbered once,
before the first attempt to send it, so one that is sent again comes behind a greeting with higher
numbers. A transcript notes which frames these are; all others go up from line to line
(`numbers_increase`).
-/

namespace TopicBus

/-- The sequence number in the bytes of a frame. -/
def sequenceIn (bytes : List UInt8) : Nat := Wire.numberAt 4 4 bytes

theorem sequenceIn_of_encode {f : Frame} {bytes : List UInt8} (h : f.encode = .ok bytes) :
    sequenceIn bytes = f.header.sequence.toNat := by
  obtain ⟨-, -, rfl⟩ := Frame.encode_eq_ok_iff.mp h
  rw [Header.layout_eq, ← Wire.bigEndian_putUInt32 f.header.sequence]
  rfl

/-! ## Transcripts -/

namespace Transcript

/-- How a frame comes to be written. -/
inductive Occasion where
  /-- It is a message of a greeting. -/
  | greeting
  /-- It is sent for the first time. -/
  | first
  /-- It is sent again, as an attempt to send it has failed. -/
  | again
  deriving DecidableEq, Repr

/-- A frame that was written in full. -/
structure Entry where
  bytes : List UInt8
  occasion : Occasion
  deriving DecidableEq, Repr

def Entry.number (e : Entry) : Nat := sequenceIn e.bytes

end Transcript

open Transcript (Entry Occasion)

def Sending.occasion (s : Sending) : Occasion := if s.attempt ≤ 1 then .first else .again

def Sending.entry (s : Sending) : Entry := ⟨s.bytes, s.occasion⟩

def Greeting.entry (g : Greeting) : Entry := ⟨g.bytes, .greeting⟩

/-- What a reply adds to the record. A stream begins empty. -/
def Activity.note (entries : StreamId → List Entry) : Activity → Reply → StreamId → List Entry
  | .establishing (.connecting _) _, .connected stream _ _ => Function.update entries stream []
  | .establishing (.greeting g) _, .written =>
    Function.update entries g.stream (entries g.stream ++ [g.entry])
  | .writing stream s _, .written =>
    Function.update entries stream (entries stream ++ [s.entry])
  | _, _ => entries

/-- A connection over its whole life, with the frames that were written in full on each stream since
it was opened. -/
structure Transcript where
  conversation : Conversation
  entries : StreamId → List Entry

namespace Transcript

def start (c : Connection) : Transcript := ⟨.start c, fun _ => []⟩

def note (v : Transcript) : Episode → StreamId → List Entry
  | .turn (.happening (.reply _ r)) =>
    match v.conversation.activity with
    | some a => a.note v.entries r
    | none => v.entries
  | _ => v.entries

def step (v : Transcript) (x : Episode) : Transcript := ⟨x.act v.conversation, v.note x⟩

def run (v : Transcript) (xs : List Episode) : Transcript := xs.foldl step v

end Transcript

/-- How many sequence numbers are issued at a time. -/
def Episode.issues (v : Conversation) (x : Episode) : Nat :=
  if (x.act v).connection.nextSequence = v.connection.nextSequence then 0 else 1

/-- How many sequence numbers are issued in all. -/
def Conversation.issued (v : Conversation) : List Episode → Nat
  | [] => 0
  | x :: xs => x.issues v + (x.act v).issued xs

/-! ## The order on a stream -/

namespace Transcript

variable {es : List Entry} {e : Entry} {n : Nat}

def Rising (es : List Entry) : Prop := es.Pairwise (·.number < ·.number)

theorem Rising.concat (h : Rising es) (hlast : ∀ x ∈ es, x.number < e.number) :
    Rising (es ++ [e]) := by
  refine List.pairwise_append.mpr ⟨h, List.pairwise_singleton _ _, fun x hx y hy => ?_⟩
  rw [List.mem_singleton.mp hy]
  exact hlast x hx

/-- A stream in three parts: its greeting, at most one frame that was sent again, and the rest. The
number of the one in the middle is the least. -/
structure Arranged (told resent rest : List Entry) : Prop where
  greeting : ∀ e ∈ told, e.occasion = .greeting
  again : ∀ e ∈ resent, e.occasion = .again
  first : ∀ e ∈ rest, e.occasion = .first
  once : resent.length ≤ 1
  greeted : resent ≠ [] → told ≠ []
  rising : Rising (told ++ rest)
  least : ∀ x ∈ resent, ∀ e ∈ told ++ rest, x.number < e.number

def InOrder (es : List Entry) : Prop :=
  ∃ told resent rest, es = told ++ resent ++ rest ∧ Arranged told resent rest

theorem inOrder_nil : InOrder [] :=
  ⟨[], [], [], rfl, nofun, nofun, nofun, Nat.zero_le 1, absurd rfl, .nil, nofun⟩

/-- A frame with a higher number than all others follows at the end. -/
theorem InOrder.concat (h : InOrder es) (hfirst : e.occasion = .first)
    (hlast : ∀ x ∈ es, x.number < e.number) : InOrder (es ++ [e]) := by
  obtain ⟨told, resent, rest, rfl, harranged⟩ := h
  have hothers : ∀ x ∈ told ++ rest, x.number < e.number := fun x hx =>
    hlast x (by simp only [List.mem_append] at hx ⊢; tauto)
  refine ⟨told, resent, rest ++ [e], by simp, harranged.greeting, harranged.again, ?_,
    harranged.once, harranged.greeted, ?_, fun x hx y hy => ?_⟩
  · exact List.forall_mem_append.mpr ⟨harranged.first, List.forall_mem_singleton.mpr hfirst⟩
  · rw [← List.append_assoc]
    exact harranged.rising.concat hothers
  · rw [← List.append_assoc] at hy
    rcases List.mem_append.mp hy with hy | hy
    · exact harranged.least x hx y hy
    · rw [List.mem_singleton.mp hy]
      exact hlast x (by simp [hx])

end Transcript

open Transcript (Rising InOrder)

/-- The frame that is to be sent again. -/
def Goal.sending? : Goal → Option Sending
  | .resend s _ => some s
  | .opening | .dispatch _ => none

/-- What is written on a stream before it is put to use. A frame that is to be sent again has a lower
number than all of it. -/
structure Goal.Greets (goal : Goal) (es : List Entry) : Prop where
  begun : es ≠ []
  greeting : ∀ e ∈ es, e.occasion = .greeting
  rising : Rising es
  above : ∀ s ∈ goal.sending?, ∀ e ∈ es, sequenceIn s.bytes < e.number

namespace Goal.Greets

variable {goal : Goal} {es : List Entry} {e : Entry}

/-- The first message of a greeting. -/
theorem one (hgreeting : e.occasion = .greeting)
    (habove : ∀ s ∈ goal.sending?, sequenceIn s.bytes < e.number) : goal.Greets [e] where
  begun := List.cons_ne_nil _ _
  greeting := List.forall_mem_singleton.mpr hgreeting
  rising := List.pairwise_singleton _ _
  above := fun s hs => List.forall_mem_singleton.mpr (habove s hs)

theorem concat (h : goal.Greets es) (hgreeting : e.occasion = .greeting)
    (hlast : ∀ x ∈ es, x.number < e.number)
    (habove : ∀ s ∈ goal.sending?, sequenceIn s.bytes < e.number) : goal.Greets (es ++ [e]) where
  begun := List.concat_ne_nil _ _
  greeting := List.forall_mem_append.mpr ⟨h.greeting, List.forall_mem_singleton.mpr hgreeting⟩
  rising := h.rising.concat hlast
  above := fun s hs =>
    List.forall_mem_append.mpr ⟨h.above s hs, List.forall_mem_singleton.mpr (habove s hs)⟩

theorem inOrder (h : goal.Greets es) : InOrder es := by
  refine ⟨es, [], [], by simp, h.greeting, nofun, nofun, Nat.zero_le _, absurd rfl, ?_, nofun⟩
  rw [List.append_nil]
  exact h.rising

/-- The frame that the stream was wanted for comes right behind the greeting. -/
theorem resend (h : goal.Greets es) {s : Sending} (hs : s ∈ goal.sending?) (hagain : 1 < s.attempt) :
    InOrder (es ++ [s.entry]) := by
  have hoccasion : s.entry.occasion = .again := if_neg (Nat.not_le.mpr hagain)
  refine ⟨es, [s.entry], [], by simp, h.greeting, List.forall_mem_singleton.mpr hoccasion, nofun,
    Nat.le_refl 1, fun _ => h.begun, ?_, ?_⟩
  · rw [List.append_nil]
    exact h.rising
  · rw [List.append_nil]
    exact List.forall_mem_singleton.mpr (h.above s hs)

end Goal.Greets

/-! ## What is written on next -/

/-- The bytes are those of a frame with a number below `n`. -/
def Issued (n : Nat) (bytes : List UInt8) : Prop := IsFrame bytes ∧ sequenceIn bytes < n

theorem Issued.mono {m n : Nat} {bytes : List UInt8} (h : Issued m bytes) (hmn : m ≤ n) :
    Issued n bytes := ⟨h.1, Nat.lt_of_lt_of_le h.2 hmn⟩

/-- Every stream is in order, and all numbers on it are below `n`. -/
structure Recorded (entries : StreamId → List Entry) (n : Nat) : Prop where
  order : ∀ stream, InOrder (entries stream)
  issued : ∀ stream, ∀ e ∈ entries stream, Issued n e.bytes

theorem Recorded.mono {entries : StreamId → List Entry} {m n : Nat} (h : Recorded entries m)
    (hmn : m ≤ n) : Recorded entries n :=
  ⟨h.order, fun stream e he => (h.issued stream e he).mono hmn⟩

theorem Recorded.update {entries : StreamId → List Entry} {n : Nat} (h : Recorded entries n)
    {stream : StreamId} {es : List Entry} (hes : InOrder es) (hissued : ∀ e ∈ es, Issued n e.bytes) :
    Recorded (Function.update entries stream es) n := by
  refine ⟨fun s => ?_, fun s => ?_⟩
  · by_cases hs : s = stream
    · subst hs
      rwa [Function.update_self]
    · rw [Function.update_of_ne hs]
      exact h.order s
  · by_cases hs : s = stream
    · subst hs
      rwa [Function.update_self]
    · rw [Function.update_of_ne hs]
      exact h.issued s

theorem Recorded.concat {entries : StreamId → List Entry} {n : Nat} (h : Recorded entries n)
    {stream : StreamId} {e : Entry} (he : Issued n e.bytes)
    (horder : InOrder (entries stream ++ [e])) :
    Recorded (Function.update entries stream (entries stream ++ [e])) n :=
  h.update horder
    (List.forall_mem_append.mpr ⟨h.issued stream, List.forall_mem_singleton.mpr he⟩)

/-- A frame that is to be sent again has been numbered. -/
def Goal.Numbered (n : Nat) (goal : Goal) : Prop :=
  ∀ s ∈ goal.sending?, 1 < s.attempt ∧ Issued n s.bytes

theorem Goal.Numbered.mono {goal : Goal} {m n : Nat} (h : goal.Numbered m) (hmn : m ≤ n) :
    goal.Numbered n := fun s hs => ⟨(h s hs).1, (h s hs).2.mono hmn⟩

/-- A message of a greeting belongs behind those that its stream has. -/
def Stage.Numbered (entries : StreamId → List Entry) (n : Nat) (goal : Goal) : Stage → Prop
  | .greeting g => Issued n g.bytes ∧ goal.Greets (entries g.stream ++ [g.entry])
  | .connecting _ | .pausing _ _ => True

/-- What is being written comes next in order. While a stream is being established, none is
attached. -/
def Activity.Numbered (entries : StreamId → List Entry) (n : Nat) (c : Connection) :
    Activity → Prop
  | .establishing stage goal =>
    c.attached = none ∧ goal.Numbered n ∧ stage.Numbered entries n goal
  | .writing stream s _ =>
    0 < s.attempt ∧ Issued n s.bytes ∧ InOrder (entries stream ++ [s.entry])
  | .awaitingResponse _ | .awaitingEvent _ | .shuttingDown _ => True

def Progress.Numbered (entries : StreamId → List Entry) (n : Nat) (c : Connection) :
    Progress → Prop
  | .waiting a => a.Numbered entries n c
  | .finished _ => True

/-- The next number is `n`, and what is being written has an earlier one. -/
structure Numbers (entries : StreamId → List Entry) (n : Nat) (next : Connection × Progress) :
    Prop where
  counter : next.1.nextSequence = UInt32.ofNat n
  progress : next.2.Numbered entries n next.1

/-- At most one number is taken from the counter. -/
def Issues (entries : StreamId → List Entry) (c : Connection) (next : Connection × Progress) :
    Prop :=
  ∃ k ≤ 1, Numbers entries (c.nextSequence.toNat + k) next

section

variable {c : Connection} {entries : StreamId → List Entry} {n : Nat} {a : Activity}

/-- What has been written in full is the next in order. -/
theorem Recorded.note (h : Recorded entries n) (ha : a.Numbered entries n c)
    (r : Reply) : Recorded (a.note entries r) n := by
  cases a with
  | establishing stage goal =>
    cases stage with
    | connecting attempt =>
      cases r with
      | connected stream l e => exact h.update Transcript.inOrder_nil nofun
      | _ => exact h
    | pausing wake attempt => exact h
    | greeting g =>
      obtain ⟨-, -, hissued, hgreets⟩ := ha
      cases r with
      | written => exact h.concat hissued hgreets.inOrder
      | _ => exact h
  | writing stream s cause =>
    obtain ⟨-, hissued, horder⟩ := ha
    cases r with
    | written => exact h.concat hissued horder
    | _ => exact h
  | awaitingResponse deadline => exact h
  | awaitingEvent deadline => exact h
  | shuttingDown stream => exact h

/-- What is read neither takes a number nor attaches a stream. -/
theorem Activity.Numbered.of_sameWriting (ha : a.Numbered entries n c)
    {c' : Connection} (h : Connection.SameWriting c c') : a.Numbered entries n c' := by
  cases a with
  | establishing stage goal => exact ⟨h.detached ha.1, ha.2⟩
  | writing stream s cause => exact ha
  | awaitingResponse deadline => trivial
  | awaitingEvent deadline => trivial
  | shuttingDown stream => trivial

end

namespace Connection

variable {c : Connection} {entries : StreamId → List Entry} {n : Nat} {next : Connection × Progress}

theorem issues_of_numbers (h : Numbers entries c.nextSequence.toNat next) :
    Issues entries c next := ⟨0, Nat.zero_le 1, h⟩

theorem counter_self (c : Connection) : c.nextSequence = UInt32.ofNat c.nextSequence.toNat :=
  UInt32.ofNat_toNat.symm

theorem counter_compose (c : Connection) :
    c.nextSequence + 1 = UInt32.ofNat (c.nextSequence.toNat + 1) := by
  rw [UInt32.ofNat_add, UInt32.ofNat_toNat]
  rfl

/-- A frame takes the next number. -/
theorem issued_of_compose {c' : Connection} {header : Header} {payload bytes : List UInt8}
    (h : c.compose header payload = (c', .ok bytes)) :
    c' = { c with nextSequence := c.nextSequence + 1 } ∧
      sequenceIn bytes = c.nextSequence.toNat ∧ Issued (c.nextSequence.toNat + 1) bytes := by
  obtain ⟨hconnection, hencode⟩ := Prod.mk.inj h
  have hnumber : sequenceIn bytes = c.nextSequence.toNat := sequenceIn_of_encode hencode
  exact ⟨hconnection.symm, hnumber, ⟨_, hencode⟩, hnumber ▸ Nat.lt_succ_self _⟩

/-! ## Sending -/

theorem numbers_establish (hn : c.nextSequence = UInt32.ofNat n) {goal : Goal}
    (hgoal : goal.Numbered n) : Numbers entries n (c.establish goal) :=
  ⟨hn, rfl, hgoal, trivial⟩

theorem numbers_sendFailed (hn : c.nextSequence = UInt32.ofNat n) (cause : Cause) (why : Fault) :
    Numbers entries n (c.sendFailed cause why) := by
  cases cause <;> exact ⟨hn, trivial⟩

theorem numbers_writeFailed (hn : c.nextSequence = UInt32.ofNat n) {s : Sending}
    (hattempt : 0 < s.attempt) (hs : Issued n s.bytes) (cause : Cause) (why : Fault) :
    Numbers entries n (c.writeFailed s cause why) := by
  unfold writeFailed
  split_ifs
  · refine numbers_establish hn ?_
    rintro _ ⟨⟩
    exact ⟨Nat.succ_lt_succ hattempt, hs⟩
  · exact numbers_sendFailed hn cause why

theorem numbers_write (hn : c.nextSequence = UInt32.ofNat n) {s : Sending}
    (hattempt : 0 < s.attempt) (hs : Issued n s.bytes)
    (hnext : ∀ a, c.attached = some a → InOrder (entries a.stream ++ [s.entry])) (cause : Cause) :
    Numbers entries n (c.write s cause) := by
  unfold write
  split
  · next a ha => exact ⟨hn, hattempt, hs, hnext a ha⟩
  · exact numbers_writeFailed hn hattempt hs cause _

theorem numbers_sendDone (hn : c.nextSequence = UInt32.ofNat n) (cause : Cause) :
    Numbers entries n (c.sendDone cause) := by
  cases cause <;> exact ⟨hn, trivial⟩

/-- The number of a new frame is higher than all on any stream. -/
theorem issues_sendFrame (h : Recorded entries c.nextSequence.toNat) (header : Header)
    (payload : List UInt8) (cause : Cause) :
    Issues entries c (c.sendFrame header payload cause) := by
  unfold sendFrame
  split_ifs
  · exact issues_of_numbers (numbers_sendFailed c.counter_self cause _)
  · exact issues_of_numbers (numbers_sendFailed c.counter_self cause _)
  · refine ⟨1, Nat.le_refl 1, ?_⟩
    split
    · next c' bytes hcompose =>
      obtain ⟨rfl, hnumber, hissued⟩ := issued_of_compose hcompose
      refine numbers_write (s := ⟨bytes, 1⟩) c.counter_compose Nat.one_pos hissued ?_ cause
      intro a _
      refine (h.order a.stream).concat rfl fun x hx => ?_
      exact Nat.lt_of_lt_of_eq (h.issued a.stream x hx).2 hnumber.symm
    · next c' why hcompose =>
      obtain ⟨rfl, -⟩ := Prod.mk.inj hcompose
      exact numbers_sendFailed c.counter_compose cause why

/-! ## Dispatching -/

theorem numbers_dispatchNext (hn : c.nextSequence = UInt32.ofNat n) (deadline : Option Nat) :
    Numbers entries n (c.dispatchNext deadline) := by
  have hgoal : (Goal.dispatch deadline).Numbered n := nofun
  by_cases hclosed : c.isClosed
  · simp only [dispatchNext, hclosed, ↓reduceIte]
    exact ⟨hn, trivial⟩
  · rw [Bool.not_eq_true] at hclosed
    by_cases hnone : c.attached = none
    · simp only [dispatchNext, hclosed, hnone, Option.isNone_none, Bool.false_eq_true, ↓reduceIte]
      exact numbers_establish hn hgoal
    · have hdraws : Draws deadline c (c.dispatchNext deadline) :=
        draws_dispatchNext hclosed (Option.isSome_iff_ne_none.mpr hnone)
      generalize c.dispatchNext deadline = next at hdraws
      cases hdraws with
      | waits => exact ⟨hn, trivial⟩
      | frame => exact ⟨hn, trivial⟩
      | @ended _ rest => exact numbers_establish (c := { c with inbound := rest }) hn hgoal

/-! ## Establishing a stream -/

/-- The stream is there, and the frame that it is wanted for is written on it. -/
theorem numbers_established (hn : c.nextSequence = UInt32.ofNat n) {goal : Goal}
    (hgoal : goal.Numbered n)
    (hgreets : ∀ a, c.attached = some a → goal.Greets (entries a.stream)) :
    Numbers entries n (c.established goal) := by
  cases goal with
  | opening => exact ⟨hn, trivial⟩
  | resend s cause =>
    obtain ⟨hattempt, hs⟩ := hgoal s rfl
    exact numbers_write hn (Nat.zero_lt_of_lt hattempt) hs
      (fun a ha => (hgreets a ha).resend rfl hattempt) cause
  | dispatch deadline => exact numbers_dispatchNext hn deadline

theorem numbers_establishFailed (hn : c.nextSequence = UInt32.ofNat n) (hdetached : c.attached = none)
    {goal : Goal} (hgoal : goal.Numbered n) (why : Fault) :
    Numbers entries n (c.establishFailed why goal) := by
  cases goal with
  | opening => exact ⟨hn, trivial⟩
  | resend s cause =>
    obtain ⟨hattempt, hs⟩ := hgoal s rfl
    refine numbers_write hn (Nat.zero_lt_of_lt hattempt) hs (fun a ha => ?_) cause
    nomatch hdetached.symm.trans ha
  | dispatch deadline => exact ⟨hn, trivial⟩

/-- A message of a greeting has been written: the next one gets a higher number. -/
theorem issues_greet (h : Recorded entries c.nextSequence.toNat) (hdetached : c.attached = none)
    {goal : Goal} (hgoal : goal.Numbered c.nextSequence.toNat) {g : Greeting}
    (hgreets : goal.Greets (entries g.stream)) : Issues entries c (c.greet g goal) := by
  have hlater : goal.Numbered (c.nextSequence.toNat + 1) := hgoal.mono (Nat.le_succ _)
  unfold greet
  split
  · refine issues_of_numbers (numbers_established (c := c.attach g) c.counter_self hgoal ?_)
    rintro _ ⟨⟩
    exact hgreets
  · split
    · exact issues_of_numbers (numbers_establishFailed c.counter_self hdetached hgoal _)
    · refine ⟨1, Nat.le_refl 1, ?_⟩
      split
      · next c' bytes hcompose =>
        obtain ⟨rfl, hnumber, hissued⟩ := issued_of_compose hcompose
        refine ⟨c.counter_compose, hdetached, hlater, hissued, hgreets.concat rfl ?_ ?_⟩
        · exact fun x hx => Nat.lt_of_lt_of_eq (h.issued g.stream x hx).2 hnumber.symm
        · exact fun s hs => Nat.lt_of_lt_of_eq (hgoal s hs).2.2 hnumber.symm
      · next c' why hcompose =>
        obtain ⟨rfl, -⟩ := Prod.mk.inj hcompose
        exact numbers_establishFailed (c := { c with nextSequence := c.nextSequence + 1 })
          c.counter_compose hdetached hlater why

theorem issues_introduce (hdetached : c.attached = none) {goal : Goal}
    (hgoal : goal.Numbered c.nextSequence.toNat) {stream : StreamId} (hnew : entries stream = [])
    (l e : String) : Issues entries c (c.introduce stream l e goal) := by
  have hlater : goal.Numbered (c.nextSequence.toNat + 1) := hgoal.mono (Nat.le_succ _)
  unfold introduce
  dsimp only
  refine ⟨1, Nat.le_refl 1, ?_⟩
  split
  · next c' bytes hcompose =>
    obtain ⟨rfl, hnumber, hissued⟩ := issued_of_compose hcompose
    refine ⟨c.counter_compose, hdetached, hlater, hissued, ?_⟩
    rw [hnew]
    exact .one rfl fun s hs => Nat.lt_of_lt_of_eq (hgoal s hs).2.2 hnumber.symm
  · next c' why hcompose =>
    obtain ⟨rfl, -⟩ := Prod.mk.inj hcompose
    exact numbers_establishFailed (c := { c with nextSequence := c.nextSequence + 1 })
      c.counter_compose hdetached hlater why

theorem numbers_connectFailed (hn : c.nextSequence = UInt32.ofNat n) (hdetached : c.attached = none)
    {goal : Goal} (hgoal : goal.Numbered n) (now attempt : Nat) (why : IoFault) :
    Numbers entries n (c.connectFailed now attempt why goal) := by
  unfold connectFailed
  split_ifs
  · exact ⟨hn, hdetached, hgoal, trivial⟩
  · exact numbers_establishFailed hn hdetached hgoal _

/-! ## Operations -/

theorem issues_subscribe (h : Recorded entries c.nextSequence.toNat) (expression : String) :
    Issues entries c (c.subscribe expression) := by
  have hfailed (t : SubscriptionTable) (why : Fault) :
      Issues entries c ({ c with subscriptions := t }, .finished (.failed why)) :=
    issues_of_numbers ⟨c.counter_self, trivial⟩
  by_cases htakes : c.Takes expression
  · rw [subscribe_of_takes htakes]
    split
    · exact hfailed _ _
    · exact issues_sendFrame (c := c.withSubscription expression) h _ _ _
  · obtain ⟨why, hnot⟩ := subscribe_of_not_takes htakes
    rw [hnot]
    exact hfailed _ why

theorem issues_begin (h : Recorded entries c.nextSequence.toNat) (now : Nat) (op : Operation) :
    Issues entries c (c.begin now op) := by
  cases op with
  | publish topic d => exact issues_sendFrame h _ d.encode .publish
  | publishBytes topic payload => exact issues_sendFrame h _ payload .publish
  | send d =>
    show Issues entries c (c.send d)
    unfold send
    split
    · exact issues_sendFrame h _ d.encode .publish
    · exact issues_of_numbers ⟨c.counter_self, trivial⟩
  | respond request d =>
    show Issues entries c (c.respond request d)
    unfold respond
    split
    · exact issues_sendFrame h _ d.encode .publish
    · exact issues_of_numbers ⟨c.counter_self, trivial⟩
  | subscribe expression => exact issues_subscribe h expression
  | request topic d timeout =>
    exact issues_sendFrame (c := { c with slot := .waiting }) h _ d.encode _
  | dispatch timeout => exact issues_of_numbers (numbers_dispatchNext c.counter_self _)
  | close =>
    show Issues entries c c.close
    unfold close
    split
    · exact issues_of_numbers ⟨c.counter_self, trivial⟩
    · exact issues_of_numbers ⟨c.counter_self, trivial⟩

theorem numbers_takeResponse (hn : c.nextSequence = UInt32.ofNat n) (deadline : Nat) :
    Numbers entries n (c.takeResponse deadline) := by
  unfold takeResponse
  split <;> exact ⟨hn, trivial⟩

theorem numbers_expire (hn : c.nextSequence = UInt32.ofNat n) {a : Activity}
    (ha : a.Numbered entries n c) : Numbers entries n (c.expire a) := by
  unfold expire
  split
  · exact ⟨hn, trivial⟩
  · exact ⟨hn, trivial⟩
  · exact ⟨hn, trivial⟩
  · exact ⟨hn, trivial⟩
  · exact ⟨hn, trivial⟩
  · exact ⟨hn, ha⟩

/-! ## Replies -/

theorem issues_resume (h : Recorded entries c.nextSequence.toNat) {a : Activity}
    (ha : a.Numbered entries c.nextSequence.toNat c) (now : Nat) (r : Reply) :
    Issues (a.note entries r) c (c.resume now a r) := by
  have hnote := h.note ha r
  cases a with
  | establishing stage goal =>
    obtain ⟨hdetached, hgoal, hstage⟩ := id ha
    cases stage with
    | connecting attempt =>
      cases r with
      | connected stream l e =>
        exact issues_introduce hdetached hgoal (Function.update_self stream [] entries) l e
      | refused why =>
        exact issues_of_numbers
          (numbers_connectFailed c.counter_self hdetached hgoal now attempt why)
      | _ => exact issues_of_numbers ⟨c.counter_self, ha⟩
    | pausing wake attempt =>
      cases r <;> exact issues_of_numbers ⟨c.counter_self, ha⟩
    | greeting g =>
      cases r with
      | written =>
        refine issues_greet hnote hdetached hgoal ?_
        simp only [Activity.note, Function.update_self]
        exact hstage.2
      | writeFailed why =>
        exact issues_of_numbers (numbers_establishFailed c.counter_self hdetached hgoal _)
      | _ => exact issues_of_numbers ⟨c.counter_self, ha⟩
  | writing stream s cause =>
    obtain ⟨hattempt, hissued, -⟩ := id ha
    cases r with
    | written => exact issues_of_numbers (numbers_sendDone c.counter_self cause)
    | writeFailed why =>
      exact issues_of_numbers (numbers_writeFailed c.counter_self hattempt hissued cause _)
    | _ => exact issues_of_numbers ⟨c.counter_self, ha⟩
  | awaitingResponse deadline =>
    cases r with
    | woken => exact issues_of_numbers (numbers_takeResponse c.counter_self deadline)
    | _ => exact issues_of_numbers ⟨c.counter_self, trivial⟩
  | awaitingEvent deadline =>
    cases r with
    | woken => exact issues_of_numbers (numbers_dispatchNext c.counter_self deadline)
    | _ => exact issues_of_numbers ⟨c.counter_self, trivial⟩
  | shuttingDown stream =>
    cases r with
    | writeFailed why =>
      simp only [resume]
      split_ifs <;> exact issues_of_numbers ⟨c.counter_self, trivial⟩
    | _ => exact issues_of_numbers ⟨c.counter_self, trivial⟩

theorem nextSequence_create {appName inboxId : String} {settings : ClientSettings}
    (hc : Connection.create appName settings inboxId = .ok c) : c.nextSequence = 1 := by
  obtain ⟨-, -, address, -, rfl⟩ := create_eq_ok_iff.mp hc
  rfl

end Connection

/-! ## Lives -/

namespace Transcript

open Connection

variable {v : Transcript} {n : Nat} {x : Episode}

/-- What holds of a transcript at any time. -/
structure Sound (n : Nat) (v : Transcript) : Prop where
  counter : v.conversation.connection.nextSequence = UInt32.ofNat n
  recorded : Recorded v.entries n
  activity : ∀ a, v.conversation.activity = some a →
    a.Numbered v.entries n v.conversation.connection
  faithful : ∀ stream, (v.entries stream).map Entry.bytes = v.conversation.written stream

theorem Sound.toNat (h : v.Sound n) (hn : n < 2 ^ 32) :
    v.conversation.connection.nextSequence.toNat = n := by
  rw [h.counter, UInt32.toNat_ofNat_of_lt' hn]

theorem sound_settle {entries : StreamId → List Entry} {u : Conversation}
    (hfaithful : ∀ stream, (entries stream).map Entry.bytes = u.written stream)
    (h : Recorded entries n) {next : Connection × Progress} (hnext : Numbers entries n next) :
    Sound n ⟨u.settle next, entries⟩ := by
  obtain ⟨c, p⟩ := next
  obtain ⟨hcounter, hprogress⟩ := hnext
  cases p with
  | waiting a =>
    refine ⟨hcounter, h, ?_, hfaithful⟩
    rintro _ ⟨⟩
    exact hprogress
  | finished o => exact ⟨hcounter, h, nofun, hfaithful⟩

/-- An operation that goes on issues at most one number. -/
theorem sound_issues {entries : StreamId → List Entry} {u : Conversation}
    (hfaithful : ∀ stream, (entries stream).map Entry.bytes = u.written stream) {c : Connection}
    (h : Recorded entries c.nextSequence.toNat) {next : Connection × Progress}
    (hnext : Issues entries c next) :
    ∃ k ≤ 1, Sound (c.nextSequence.toNat + k) ⟨u.settle next, entries⟩ := by
  obtain ⟨k, hk, hnumbers⟩ := hnext
  exact ⟨k, hk, sound_settle hfaithful (h.mono (Nat.le_add_right _ k)) hnumbers⟩

theorem map_bytes_update (entries : StreamId → List Entry) (t s : StreamId) (es : List Entry) :
    (Function.update entries t es s).map Entry.bytes =
      if s = t then es.map Entry.bytes else (entries s).map Entry.bytes := by
  rw [Function.update_apply]
  split_ifs <;> rfl

theorem bytes_note {entries : StreamId → List Entry} {written : StreamId → List (List UInt8)}
    (h : ∀ stream, (entries stream).map Entry.bytes = written stream) (a : Activity) (r : Reply)
    (stream : StreamId) :
    (a.note entries r stream).map Entry.bytes = a.demand.record written r stream := by
  cases a with
  | establishing stage goal =>
    cases stage with
    | connecting attempt =>
      cases r with
      | connected t l e =>
        simp only [Activity.note, Activity.demand, Demand.record, map_bytes_update, h, List.map_nil]
      | _ => exact h stream
    | pausing wake attempt => cases r <;> exact h stream
    | greeting g =>
      cases r with
      | written =>
        simp only [Activity.note, Activity.demand, Demand.record, map_bytes_update, List.map_append, h]
        split_ifs with hs
        · subst hs
          rfl
        · rfl
      | _ => exact h stream
  | writing t s cause =>
    cases r with
    | written =>
      simp only [Activity.note, Activity.demand, Demand.record, map_bytes_update, List.map_append, h]
      split_ifs with hs
      · subst hs
        rfl
      · rfl
    | _ => exact h stream
  | awaitingResponse deadline => cases r <;> exact h stream
  | awaitingEvent deadline => cases r <;> exact h stream
  | shuttingDown t => cases r <;> exact h stream

/-- The reading side leaves all numbers alone. -/
theorem Sound.read (h : v.Sound n) {c : Connection} (hsame : SameWriting v.conversation.connection c)
    (hcounter : c.nextSequence = v.conversation.connection.nextSequence) :
    Sound n ⟨{ v.conversation with connection := c }, v.entries⟩ :=
  ⟨hcounter.trans h.counter, h.recorded, fun a ha => (h.activity a ha).of_sameWriting hsame,
    h.faithful⟩

theorem Sound.happening (h : v.Sound n) (hn : n < 2 ^ 32) (x : Happening) :
    ∃ k ≤ 1, (v.step (.turn (.happening x))).Sound (n + k) := by
  have hstill : ∃ k ≤ 1, v.Sound (n + k) := ⟨0, Nat.zero_le 1, h⟩
  obtain rfl := h.toNat hn
  obtain ⟨u, entries⟩ := v
  have hrecorded := h.recorded
  cases x with
  | begin now op =>
    cases ha : u.activity with
    | none =>
      simp only [step, Episode.act, Turn.act, Conversation.step_begin_of_rest ha, note]
      refine sound_issues ?_ hrecorded (issues_begin hrecorded now op)
      exact h.faithful
    | some a =>
      simp only [step, Episode.act, Turn.act, Conversation.step_begin_of_busy ha, note]
      exact hstill
  | reply now r =>
    cases ha : u.activity with
    | none =>
      simp only [step, Episode.act, Turn.act, Conversation.step_reply_of_rest ha, note, ha]
      exact hstill
    | some a =>
      have hactivity := h.activity a ha
      simp only [step, Episode.act, Turn.act, Conversation.step_reply_of_busy ha, note, ha]
      exact sound_issues (bytes_note h.faithful a r) (hrecorded.note hactivity r)
        (issues_resume hrecorded hactivity now r)
  | expire =>
    cases ha : u.activity with
    | none =>
      simp only [step, Episode.act, Turn.act, Conversation.step_expire_of_rest ha, note]
      exact hstill
    | some a =>
      have hnumbers := numbers_expire h.counter (h.activity a ha)
      simp only [step, Episode.act, Turn.act, Conversation.step_expire_of_busy ha, note]
      exact ⟨0, Nat.zero_le 1, sound_settle h.faithful hrecorded hnumbers⟩
  | receive chunk =>
    exact ⟨0, Nat.zero_le 1,
      h.read (sameWriting_receive _ chunk) (reads_receive _ chunk).nextSequence⟩

/-- A step issues at most one number. -/
theorem Sound.step (h : v.Sound n) (hn : n < 2 ^ 32) (x : Episode) :
    ∃ k ≤ 1, (v.step x).Sound (n + k) := by
  cases x with
  | turn t =>
    cases t with
    | happening x => exact h.happening hn x
    | frame reader f =>
      exact ⟨0, Nat.zero_le 1, h.read (sameWriting_accept _ f) (reads_accept _ f).nextSequence⟩
    | ends reader why => exact ⟨0, Nat.zero_le 1, h.read ⟨rfl, rfl, rfl, rfl⟩ rfl⟩
  | abandon => exact ⟨0, Nat.zero_le 1, h.counter, h.recorded, nofun, h.faithful⟩

/-- The counter tells how many numbers a step issues. -/
theorem Sound.issues_eq (h : v.Sound n) {k : Nat} (hk : k ≤ 1) (hnext : (v.step x).Sound (n + k)) :
    x.issues v.conversation = k := by
  have hbefore := h.counter
  have hafter : (x.act v.conversation).connection.nextSequence = UInt32.ofNat (n + k) :=
    hnext.counter
  unfold Episode.issues
  rw [hafter, hbefore]
  -- Two counts in a row differ, even where the counter wraps around.
  obtain rfl | rfl : k = 0 ∨ k = 1 := by omega
  · exact if_pos rfl
  · refine if_neg fun heq => ?_
    have hmod := congrArg UInt32.toNat heq
    simp only [UInt32.toNat_ofNat'] at hmod
    omega

theorem Sound.run (h : v.Sound n) {xs : List Episode}
    (hfits : n + v.conversation.issued xs < 2 ^ 32) :
    (v.run xs).Sound (n + v.conversation.issued xs) := by
  induction xs generalizing v n with
  | nil => exact h
  | cons x xs ih =>
    rw [Conversation.issued] at hfits ⊢
    obtain ⟨k, hk, hstep⟩ := h.step (by omega) x
    rw [h.issues_eq hk hstep, ← Nat.add_assoc] at hfits ⊢
    exact ih hstep hfits

theorem sound_start {c : Connection} {appName inboxId : String} {settings : ClientSettings}
    (hc : Connection.create appName settings inboxId = .ok c) : (start c).Sound 1 := by
  have hempty : Recorded (fun _ => []) 1 := ⟨fun _ => inOrder_nil, fun _ => nofun⟩
  have hgoal : Goal.opening.Numbered 1 := nofun
  exact sound_settle (fun _ => rfl) hempty (numbers_establish (nextSequence_create hc) hgoal)

theorem conversation_run (v : Transcript) (xs : List Episode) :
    (v.run xs).conversation = v.conversation.live xs := by
  induction xs generalizing v with
  | nil => rfl
  | cons x xs ih => exact ih (v.step x)

/-- Only a frame that is sent again breaks the order. -/
theorem Arranged.rising_iff {told resent rest : List Entry} (h : Arranged told resent rest) :
    Rising (told ++ resent ++ rest) ↔ ∀ e ∈ told ++ resent ++ rest, e.occasion ≠ .again := by
  constructor
  · -- A greeting comes ahead of it, with higher numbers.
    intro hrising e he hagain
    have hmem : e ∈ resent := by
      rcases List.mem_append.mp he with he | he
      · rcases List.mem_append.mp he with he | he
        · nomatch hagain.symm.trans (h.greeting e he)
        · exact he
      · nomatch hagain.symm.trans (h.first e he)
    obtain ⟨x, hx⟩ := List.exists_mem_of_ne_nil told (h.greeted (List.ne_nil_of_mem hmem))
    have hbefore : x.number < e.number :=
      (List.pairwise_append.mp (List.pairwise_append.mp hrising).1).2.2 x hx e hmem
    have hafter : e.number < x.number := h.least e hmem x (List.mem_append_left _ hx)
    exact Nat.lt_asymm hbefore hafter
  · intro hnone
    have hempty : resent = [] := List.eq_nil_iff_forall_not_mem.mpr fun e he =>
      hnone e (by simp [he]) (h.again e he)
    subst hempty
    rw [List.append_nil]
    exact h.rising

/-- In all that befalls a connection, the counter numbers what is composed from 1 on. On each stream
the numbers go up, but for a frame that is sent again: it was numbered before the greeting that is
ahead of it. There is at most one on a stream, right behind the greeting, and its number is the
least. -/
theorem numbers_increase (appName inboxId : String) (settings : ClientSettings) (c : Connection)
    (hc : Connection.create appName settings inboxId = .ok c) (xs : List Episode)
    (hissued : (Conversation.start c).issued xs < 2 ^ 32 - 1) (stream : StreamId) :
    let v := (start c).run xs
    let es := v.entries stream
    (v.conversation = (Conversation.start c).live xs ∧
      es.map Entry.bytes = v.conversation.written stream) ∧
    (v.conversation.connection.nextSequence.toNat = (Conversation.start c).issued xs + 1 ∧
      ∀ e ∈ es, ∃ f : Frame, f.encode = .ok e.bytes ∧ f.header.sequence.toNat = e.number ∧
        e.number ≤ (Conversation.start c).issued xs) ∧
    (∃ told resent rest, es = told ++ resent ++ rest ∧ Arranged told resent rest) ∧
    (Rising es ↔ ∀ e ∈ es, e.occasion ≠ .again) := by
  intro v es
  have hconversation : v.conversation = (Conversation.start c).live xs := conversation_run _ xs
  have hfits : 1 + (Conversation.start c).issued xs < 2 ^ 32 := by omega
  have hsound : v.Sound (1 + (Conversation.start c).issued xs) := (sound_start hc).run hfits
  obtain ⟨told, resent, rest, hes, harranged⟩ := hsound.recorded.order stream
  refine ⟨⟨hconversation, hsound.faithful stream⟩, ⟨?_, fun e he => ?_⟩,
    ⟨told, resent, rest, hes, harranged⟩, ?_⟩
  · rw [hsound.toNat hfits, Nat.add_comm]
  · obtain ⟨⟨f, hf⟩, hlt⟩ := hsound.recorded.issued stream e he
    rw [Nat.add_comm] at hlt
    exact ⟨f, hf, (sequenceIn_of_encode hf).symm, Nat.le_of_lt_succ hlt⟩
  · have hrising := harranged.rising_iff
    rwa [← hes] at hrising

/-- A stream breaks just as a frame is published. -/
def broken : List Episode :=
  [.turn (.happening (.reply 0 (.connected 0 "" ""))), .turn (.happening (.reply 0 .written)),
    .turn (.happening (.begin 0 (.publish "T" .empty))),
    .turn (.happening (.reply 0 (.writeFailed ⟨.brokenPipe, none⟩))),
    .turn (.happening (.reply 0 (.connected 1 "" ""))), .turn (.happening (.reply 0 .written)),
    .turn (.happening (.reply 0 .written))]

/-- The frame has the number 2, and the greeting ahead of it the number 3. -/
theorem resent_number_falls :
    Connection.create "x" { address := "unix:///bus" } "1" = .ok Conversation.plainConnection ∧
      (Conversation.start Conversation.plainConnection).issued broken < 2 ^ 32 - 1 ∧
      ¬((((Conversation.start Conversation.plainConnection).live broken).written 1).map
        sequenceIn).Pairwise (· < ·) := by
  have hnumbers : (((Conversation.start Conversation.plainConnection).live broken).written 1).map
      sequenceIn = [3, 2] := by
    decide +kernel
  refine ⟨rfl, by decide +kernel, ?_⟩
  rw [hnumbers]
  decide

/-- The next frame goes on above the greeting. -/
def resumed : List Episode :=
  broken ++ [.turn (.happening (.begin 1 (.publish "T" .empty))),
    .turn (.happening (.reply 1 .written))]

theorem numbers_increase_resumed :
    Connection.create "x" { address := "unix:///bus" } "1" = .ok Conversation.plainConnection ∧
      (Conversation.start Conversation.plainConnection).issued resumed = 4 ∧
      ((((start Conversation.plainConnection).run resumed).entries 1).map fun e =>
        (e.number, e.occasion)) = [(3, .greeting), (2, .again), (4, .first)] ∧
      ¬Rising (((start Conversation.plainConnection).run resumed).entries 1) ∧
      Rising (((start Conversation.plainConnection).run resumed).entries 0) := by
  have hc : Connection.create "x" { address := "unix:///bus" } "1" =
      .ok Conversation.plainConnection := rfl
  have hcount : (Conversation.start Conversation.plainConnection).issued resumed = 4 := by
    decide +kernel
  have hone : ((((start Conversation.plainConnection).run resumed).entries 1).map fun e =>
      (e.number, e.occasion)) = [(3, .greeting), (2, .again), (4, .first)] := by
    decide +kernel
  have hnone : ∀ e ∈ ((start Conversation.plainConnection).run resumed).entries 0,
      e.occasion ≠ .again := by
    decide +kernel
  have hsome : ¬∀ e ∈ ((start Conversation.plainConnection).run resumed).entries 1,
      e.occasion ≠ .again := by
    decide +kernel
  have hall := numbers_increase "x" "1" { address := "unix:///bus" } Conversation.plainConnection hc
    resumed (by rw [hcount]; decide)
  exact ⟨hc, hcount, hone, fun hrising => hsome ((hall 1).2.2.2.mp hrising),
    (hall 0).2.2.2.mpr hnone⟩

end Transcript

end TopicBus
