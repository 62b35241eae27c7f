import Mathlib.Data.List.Induction
import TopicBus.Proofs.Connection.Registration
import TopicBus.Proofs.Connection.Slot

/-!
A stream is established as a whole or not at all. On its own an establishment is one with the goal
`opening`; an operation that wants a stream goes the same way and takes over at its end
(`resume_establishing`). `Pursues` says how an establishment can stand after any replies: under way,
with nothing attached; over without a stream; or with one that has been told of the inbox and of
every subscription. So it can be given up at any moment (`establish_all_or_nothing`).
-/

namespace TopicBus

open Control

/-! ## What a new stream is told -/

namespace Control

/-- The message that asks for a subscription. -/
def subscription (s : Subscription) : Document :=
  (Document.empty.setString "topic" s.expression).setInt32 "route_id" (Int32.ofInt s.id.toNat)

/-- The messages that introduce a connection: its inbox, then its subscriptions in order. -/
def introduction (inbox : String) (subscriptions : List Subscription) : List (String × Document) :=
  (helloTopic, hello inbox) :: subscriptions.map fun s => (subscribeTopic, subscription s)

theorem introduction_concat (inbox : String) (told : List Subscription) (s : Subscription) :
    introduction inbox (told ++ [s]) =
      introduction inbox told ++ [(subscribeTopic, subscription s)] := by
  simp [introduction]

theorem length_introduction (inbox : String) (told : List Subscription) :
    (introduction inbox told).length = told.length + 1 := by simp [introduction]

end Control

open Conversation (messageOf)

/-- Messages written one after the other, each under the next sequence number. -/
def Spoken (n : UInt32) (messages : List (String × Document)) (log : List (List UInt8)) : Prop :=
  List.Forall₂ (fun m bytes => (messageOf m.1.1 (n + UInt32.ofNat m.2) m.1.2).encode = .ok bytes)
    messages.zipIdx log

theorem Spoken.concat {n : UInt32} {messages : List (String × Document)} {log : List (List UInt8)}
    (h : Spoken n messages log) {topic : String} {d : Document} {bytes : List UInt8}
    (hbytes : (messageOf topic (n + UInt32.ofNat messages.length) d).encode = .ok bytes) :
    Spoken n (messages ++ [(topic, d)]) (log ++ [bytes]) := by
  unfold Spoken
  rw [List.zipIdx_append]
  exact List.rel_append h (by simpa using hbytes)

namespace Connection

/-- All messages of an introduction can be composed. -/
structure Presentable (c : Connection) : Prop where
  inbox : IsExpression c.inbox
  entries : ∀ s ∈ c.subscriptions.entries, IsExpression s.expression ∧ s.id.toNat < 2 ^ 31

/-- A connection without a stream, with another sequence number. -/
def bare (c : Connection) (n : UInt32) : Connection :=
  { c with attached := none, nextSequence := n }

/-- A connection with a new stream and a new reader on it. -/
def renewed (c : Connection) (n : UInt32) (stream : StreamId)
    (localEndpoint remoteEndpoint : String) : Connection :=
  { c with
    attached := some ⟨stream, .ofLimit c.settings.maxPayload, true⟩
    localEndpoint := localEndpoint
    remoteEndpoint := remoteEndpoint
    nextSequence := n
    generation := c.generation + 1 }

/-- Whoever wants the stream goes on from what has become of its establishment. -/
def onward (goal : Goal) : Connection × Progress → Connection × Progress
  | (c, .waiting (.establishing stage _)) => (c, .waiting (.establishing stage goal))
  | (c, .finished .done) => c.established goal
  | (c, .finished (.failed why)) => c.establishFailed why goal
  | next => next

/-- An establishment goes its way whatever it is for. -/
theorem resume_establishing (c : Connection) (now : Nat) (stage : Stage) (goal : Goal) (r : Reply) :
    c.resume now (.establishing stage goal) r =
      onward goal (c.resume now (.establishing stage .opening) r) := by
  cases stage with
  | connecting attempt =>
    cases r with
    | connected stream l e =>
      simp only [resume, introduce]
      split <;> rfl
    | refused why =>
      simp only [resume, connectFailed]
      split_ifs <;> rfl
    | _ => rfl
  | pausing wake attempt => cases r <;> rfl
  | greeting g =>
    cases r with
    | written =>
      simp only [resume, greet]
      split
      · rfl
      · split
        · rfl
        · split <;> rfl
    | _ => rfl

end Connection

/-- How far an introduction has come: what has been written, with what is being written, is an
introduction with the first subscriptions, and the others are still to come. -/
def Stage.Introduces (c : Connection) (written : StreamId → List (List UInt8)) (n : UInt32) :
    Stage → Prop
  | .connecting _ | .pausing _ _ => n = c.nextSequence
  | .greeting g => ∃ told rest, c.subscriptions.entries = told ++ rest ∧
      g.rest = rest.map (fun s => (s.id, s.expression)) ∧
      n = c.nextSequence + UInt32.ofNat (told.length + 1) ∧
      Spoken c.nextSequence (introduction c.inbox told) (written g.stream ++ [g.bytes])

/-- How the establishment of a stream stands. Only the stream and the sequence number of the
connection `c` that began it have changed, if at all. -/
inductive Pursues (c : Connection) (written : StreamId → List (List UInt8)) :
    Connection × Progress → Prop
  | underway {n : UInt32} {stage : Stage} (hstage : stage.Introduces c written n) :
      Pursues c written (c.bare n, .waiting (.establishing stage .opening))
  | failed (n : UInt32) (why : Fault) : Pursues c written (c.bare n, .finished (.failed why))
  | done {stream : StreamId} (l e : String)
      (hlog : Spoken c.nextSequence (introduction c.inbox c.subscriptions.entries)
        (written stream)) :
      Pursues c written (c.renewed (c.nextSequence +
        UInt32.ofNat (c.subscriptions.entries.length + 1)) stream l e, .finished .done)

namespace Connection

variable {c : Connection} {written : StreamId → List (List UInt8)} {n : UInt32}

/-- When a message has been written, the next one follows, or the stream is attached. -/
theorem pursues_greet {g : Greeting} {told rest : List Subscription}
    (hentries : c.subscriptions.entries = told ++ rest)
    (hrest : g.rest = rest.map fun s => (s.id, s.expression))
    (hn : n = c.nextSequence + UInt32.ofNat (told.length + 1))
    (hlog : Spoken c.nextSequence (introduction c.inbox told) (written g.stream)) :
    Pursues c written ((c.bare n).greet g .opening) := by
  cases rest with
  | nil =>
    have hdone : (c.bare n).greet g .opening =
        (c.renewed n g.stream g.localEndpoint g.remoteEndpoint, .finished .done) := by
      simp only [greet, hrest, List.map_nil]
      rfl
    rw [List.append_nil] at hentries
    rw [hdone, hn, ← hentries]
    exact .done _ _ (hentries ▸ hlog)
  | cons s rest =>
    simp only [greet, hrest, List.map_cons]
    split
    · exact .failed n _
    · next d hd =>
      obtain ⟨-, rfl⟩ := subscribe_eq_ok_iff.mp hd
      split
      · next c' bytes hcompose =>
        obtain ⟨rfl, hbytes⟩ := Prod.mk.inj hcompose
        refine .underway (n := n + 1) ⟨told ++ [s], rest, by simp [hentries], rfl, ?_, ?_⟩
        · simp [hn, UInt32.add_assoc]
        · rw [introduction_concat]
          refine hlog.concat ?_
          rw [length_introduction, ← hn]
          exact hbytes
      · next c' why hcompose =>
        obtain ⟨rfl, -⟩ := Prod.mk.inj hcompose
        exact .failed (n + 1) why

theorem pursues_introduce (stream : StreamId) (l e : String) (hnew : written stream = []) :
    Pursues c written ((c.bare c.nextSequence).introduce stream l e .opening) := by
  unfold introduce
  dsimp only
  split
  · next c' bytes hcompose =>
    obtain ⟨rfl, hbytes⟩ := Prod.mk.inj hcompose
    have hmessage : (messageOf helloTopic c.nextSequence (hello c.inbox)).encode = .ok bytes :=
      hbytes
    refine .underway (n := c.nextSequence + 1) ⟨[], _, rfl, rfl, rfl, ?_⟩
    rw [hnew]
    exact .cons (by simpa using hmessage) .nil
  · next c' why hcompose =>
    obtain ⟨rfl, -⟩ := Prod.mk.inj hcompose
    exact .failed (c.nextSequence + 1) why

/-- What a reply makes of an establishment, and of what is written on the streams. -/
theorem pursues_resume {stage : Stage} (h : stage.Introduces c written n) (now : Nat) (r : Reply) :
    Pursues c ((Activity.establishing stage .opening).demand.record written r)
      ((c.bare n).resume now (.establishing stage .opening) r) := by
  cases stage with
  | connecting attempt =>
    obtain rfl : n = c.nextSequence := h
    cases r with
    | connected stream l e => exact pursues_introduce stream l e (if_pos rfl)
    | refused why =>
      simp only [resume, connectFailed]
      split_ifs
      · exact .underway (n := c.nextSequence) rfl
      · exact .failed _ _
    | _ => exact .underway (n := c.nextSequence) rfl
  | pausing wake attempt =>
    obtain rfl : n = c.nextSequence := h
    cases r <;> exact .underway (n := c.nextSequence) rfl
  | greeting g =>
    have hsame : Pursues c written
        (c.bare n, .waiting (.establishing (.greeting g) .opening)) := .underway h
    cases r with
    | written =>
      obtain ⟨told, rest, hentries, hrest, hn, hlog⟩ := h
      refine pursues_greet hentries hrest hn ?_
      simpa [Activity.demand, Demand.record] using hlog
    | writeFailed why => exact .failed n _
    | _ => exact hsame

end Connection

namespace Conversation

/-- A connection begins to establish a stream. -/
def establishing (c : Connection) (written : StreamId → List (List UInt8)) (goal : Goal) :
    Conversation :=
  settle ⟨c, none, none, written⟩ (c.establish goal)

/-- The demands of a connection are answered one after the other. -/
def replied (v : Conversation) (rs : List (Nat × Reply)) : Conversation :=
  v.run (rs.map fun r => .reply r.1 r.2)

theorem replied_concat (v : Conversation) (rs : List (Nat × Reply)) (now : Nat) (r : Reply) :
    v.replied (rs ++ [(now, r)]) = (v.replied rs).step (.reply now r) := by
  simp [replied, run]

/-- A conversation in which there has been an establishment and nothing else. -/
inductive Establishes (c : Connection) : Conversation → Prop
  | intro {written : StreamId → List (List UInt8)} {next : Connection × Progress}
      (h : Pursues c written next) : Establishes c (settle ⟨c, none, none, written⟩ next)

variable {c c' : Connection} {v : Conversation}

/-- What a reply comes to does not depend on what was there before. -/
theorem step_reply {a : Activity} (ha : v.activity = some a) (now : Nat) (r : Reply) :
    v.step (.reply now r) = settle ⟨c, none, v.outcome, a.demand.record v.written r⟩
      (v.connection.resume now a r) := by
  simp only [step, ha]
  rcases v.connection.resume now a r with ⟨d, _ | _⟩ <;> rfl

theorem Establishes.step (h : Establishes c v) (now : Nat) (r : Reply) :
    Establishes c (v.step (.reply now r)) := by
  obtain ⟨h⟩ := h
  cases h with
  | underway hstage =>
    rw [step_reply (c := c) rfl]
    exact .intro (Connection.pursues_resume hstage now r)
  | failed n why => exact .intro (.failed n why)
  | done l e hlog => exact .intro (.done l e hlog)

theorem establishes_replied (c : Connection) (written : StreamId → List (List UInt8))
    (rs : List (Nat × Reply)) : Establishes c ((establishing c written .opening).replied rs) := by
  induction rs using List.reverseRecOn with
  | nil =>
    have hbegin : (Stage.connecting 1).Introduces c written c.nextSequence := rfl
    exact .intro (.underway hbegin)
  | append_singleton rs r ih =>
    rw [replied_concat]
    exact ih.step r.1 r.2

/-- What a reply makes of an establishment that is under way, whatever it is for. -/
theorem step_establishing {stage : Stage} (h : v.activity = some (.establishing stage .opening))
    (goal : Goal) (now : Nat) (r : Reply) :
    ({ v with activity := some (.establishing stage goal) }).step (.reply now r) =
      { v with written := (v.step (.reply now r)).written }.settle
        (Connection.onward goal (v.connection.resume now (.establishing stage .opening) r)) := by
  have hdemand : (Activity.establishing stage goal).demand =
      (Activity.establishing stage .opening).demand := by cases stage <;> rfl
  rw [step_reply (c := v.connection) rfl, step_reply (c := v.connection) h, hdemand,
    Connection.resume_establishing]
  generalize Connection.onward goal _ = next
  generalize v.connection.resume now (.establishing stage .opening) r = next'
  rcases next with ⟨d, _ | _⟩ <;> rcases next' with ⟨d', _ | _⟩ <;> rfl

/-- Whatever a stream is wanted for, it is established in the same way. -/
theorem replied_establishing {written : StreamId → List (List UInt8)} {rs : List (Nat × Reply)}
    {stage : Stage} (goal : Goal)
    (h : ((establishing c written .opening).replied rs).activity =
      some (.establishing stage .opening)) :
    (establishing c written goal).replied rs =
      { (establishing c written .opening).replied rs with
        activity := some (.establishing stage goal) } := by
  induction rs using List.reverseRecOn generalizing stage with
  | nil =>
    obtain rfl : Stage.connecting 1 = stage := by cases h; rfl
    rfl
  | append_singleton rs r ih =>
    have hstands := establishes_replied c written rs
    rw [replied_concat] at h ⊢
    rw [replied_concat]
    generalize (establishing c written .opening).replied rs = v at *
    obtain ⟨hpursues⟩ := hstands
    cases hpursues with
    | @underway n stage' hstage =>
      -- What the goal changes happens only once this is over, and by `h` it is not.
      rw [ih rfl, step_establishing rfl]
      have hnext := Connection.pursues_resume hstage r.1 r.2
      rw [step_reply (c := c) rfl] at h ⊢
      simp only [settle] at h ⊢
      generalize (c.bare n).resume r.1 (.establishing stage' .opening) r.2 = next at hnext h ⊢
      cases hnext with
      | underway => cases h; rfl
      | failed => nomatch h
      | done => nomatch h
    | failed => nomatch h
    | done => nomatch h

/-! ## Success -/

/-- Replies that lead to a stream: some connects are refused, then all goes well. -/
def welcoming (refusals : List IoFault) (stream : StreamId) (l e : String) (messages : Nat) :
    List Reply :=
  refusals.flatMap (fun why => [.refused why, .rested]) ++
    .connected stream l e :: List.replicate messages .written

/-- The inbox can always be announced. -/
theorem exists_introduce (h : IsExpression c.inbox) (stream : StreamId) (l e : String) :
    ∃ c' g, g.rest = c.subscriptions.entries.map (fun s => (s.id, s.expression)) ∧
      c.introduce stream l e .opening = (c', .waiting (.establishing (.greeting g) .opening)) := by
  have hlength := length_hello_le h.2
  have htopic : IsExpression helloTopic := by decide
  obtain ⟨bytes, hbytes⟩ := c.exists_compose htopic (Nat.lt_of_le_of_lt hlength (by decide))
  unfold Connection.introduce
  dsimp only
  split
  · exact ⟨_, _, rfl, rfl⟩
  · next hcompose =>
    rw [hcompose] at hbytes
    nomatch hbytes

/-- And so can a subscription be asked for. -/
theorem exists_greet (c : Connection) {g : Greeting} {s : Subscription}
    {rest : List (UInt32 × String)} (hrest : g.rest = (s.id, s.expression) :: rest)
    (hexpression : IsExpression s.expression) (hid : s.id.toNat < 2 ^ 31) :
    ∃ c' g', g'.rest = rest ∧
      c.greet g .opening = (c', .waiting (.establishing (.greeting g') .opening)) := by
  have hd : subscribe s.expression s.id = .ok (subscription s) := subscribe_eq_ok_iff.mpr ⟨hid, rfl⟩
  have hlength := length_subscribe_le hd hexpression.2
  have htopic : IsExpression subscribeTopic := by decide
  obtain ⟨bytes, hbytes⟩ := c.exists_compose htopic (Nat.lt_of_le_of_lt hlength (by decide))
  simp only [Connection.greet, hrest, hd]
  split
  · exact ⟨_, _, rfl, rfl⟩
  · next hcompose =>
    rw [hcompose] at hbytes
    nomatch hbytes

theorem outcome_of_greeting {g : Greeting} {rest : List Subscription} {rs : List (Nat × Reply)}
    (hrest : g.rest = rest.map fun s => (s.id, s.expression))
    (hentries : ∀ s ∈ rest, IsExpression s.expression ∧ s.id.toNat < 2 ^ 31)
    (ha : v.activity = some (.establishing (.greeting g) .opening))
    (hrs : rs.map Prod.snd = List.replicate (rest.length + 1) .written) :
    (v.replied rs).outcome = some .done := by
  induction rest generalizing v g rs with
  | nil =>
    obtain ⟨⟨now, r⟩, rfl, rfl⟩ := List.map_eq_singleton_iff.mp hrs
    simp [replied, run, step, ha, Connection.resume, Connection.greet, hrest, settle,
      Connection.established]
  | cons s rest ih =>
    obtain ⟨⟨now, r⟩, later, rfl, rfl, hlater⟩ := List.map_eq_cons_iff.mp hrs
    obtain ⟨⟨hexpression, hid⟩, hentries⟩ := List.forall_mem_cons.mp hentries
    obtain ⟨c', g', hrest', hgreet⟩ := exists_greet v.connection hrest hexpression hid
    refine ih (v := v.step (.reply now .written)) hrest' hentries ?_ hlater
    rw [step_reply (c := c') ha, Connection.resume, hgreet]
    rfl

theorem outcome_of_connecting {attempt : Nat} {refusals : List IoFault} {stream : StreamId}
    {l e : String} {rs : List (Nat × Reply)} (hc : v.connection.Presentable)
    (ha : v.activity = some (.establishing (.connecting attempt) .opening))
    (hfew : attempt + refusals.length ≤ v.connection.connectAttempts)
    (hrs : rs.map Prod.snd =
      welcoming refusals stream l e (v.connection.subscriptions.entries.length + 1)) :
    (v.replied rs).outcome = some .done := by
  induction refusals generalizing v attempt rs with
  | nil =>
    obtain ⟨⟨now, r⟩, later, rfl, rfl, hlater⟩ := List.map_eq_cons_iff.mp hrs
    obtain ⟨c', g, hrest, hintroduce⟩ := exists_introduce hc.inbox stream l e
    refine outcome_of_greeting (v := v.step (.reply now (.connected stream l e))) hrest hc.entries
      ?_ hlater
    rw [step_reply (c := c') ha, Connection.resume, hintroduce]
    rfl
  | cons why refusals ih =>
    -- A refused connect and the pause behind it cost one attempt and change nothing else.
    obtain ⟨⟨now, r⟩, later, rfl, rfl, hlater⟩ := List.map_eq_cons_iff.mp hrs
    obtain ⟨⟨now', r'⟩, rest, rfl, rfl, hrest⟩ := List.map_eq_cons_iff.mp hlater
    rw [List.length_cons] at hfew
    have hmore : attempt < v.connection.connectAttempts := by omega
    have hagain : (v.step (.reply now (.refused why))).step (.reply now' .rested) =
        { v with activity := some (.establishing (.connecting (attempt + 1)) .opening) } := by
      simp [step, ha, Connection.resume, Connection.connectFailed, hmore, settle, Demand.record,
        Activity.demand]
    have hsame : v.replied ((now, .refused why) :: (now', .rested) :: rest) =
        ((v.step (.reply now (.refused why))).step (.reply now' .rested)).replied rest := rfl
    rw [hsame, hagain]
    refine ih hc rfl ?_ hrest
    dsimp only
    omega

/-- An establishment is given up at its deadline. -/
theorem expire_establishing {n : UInt32} (stage : Stage) (goal : Goal)
    (h : (Activity.establishing stage goal).deadline?.isSome) :
    (c.bare n).expire (.establishing stage goal) =
      (if goal.isRequest then { c.bare n with slot := .empty } else c.bare n,
        .finished (.failed .timeout)) := by
  cases goal with
  | opening => nomatch h
  | resend s cause =>
    cases cause with
    | request deadline => rfl
    | publish => nomatch h
    | subscribe id => nomatch h
  | dispatch deadline => rfl

/-- A stream is established as a whole or not at all. However connects and writes come out, there is
a new stream that has been told of the inbox and then of every subscription in order, and nothing
else; or there is none, and nothing but sequence numbers has been used up. Only the surroundings can
make it fail. Whoever wants a stream and gives up waiting finds no stream either; a request leaves
its slot empty then. -/
theorem establish_all_or_nothing (c : Connection) (written : StreamId → List (List UInt8))
    (rs : List (Nat × Reply)) :
    let v := (establishing c written .opening).replied rs
    let entries := c.subscriptions.entries
    (v.activity = none ∧ v.outcome = some .done ∧
        (∃ stream l e, v.connection = c.renewed
            (c.nextSequence + UInt32.ofNat (entries.length + 1)) stream l e ∧
          Spoken c.nextSequence (introduction c.inbox entries) (v.written stream)) ∨
      (∃ n, v.connection = c.bare n) ∧
        ((v.activity = none ∧ ∃ why, v.outcome = some (.failed why)) ∨
          ∃ stage, v.activity = some (.establishing stage .opening))) ∧
    (c.Presentable → ∀ refusals stream l e, refusals.length < c.connectAttempts →
      rs.map Prod.snd = welcoming refusals stream l e (entries.length + 1) →
      v.outcome = some .done) ∧
    ∀ stage, v.activity = some (.establishing stage .opening) → ∀ goal,
      let w := (establishing c written goal).replied rs
      w = { v with activity := some (.establishing stage goal) } ∧
      (∀ now r, w.step (.reply now r) =
        { v with written := (v.step (.reply now r)).written }.settle
          (Connection.onward goal
            (v.connection.resume now (.establishing stage .opening) r))) ∧
      ((Activity.establishing stage goal).deadline?.isSome → w.step .expire = { v with
        connection := if goal.isRequest then { v.connection with slot := .empty } else v.connection
        activity := none
        outcome := some (.failed .timeout) }) := by
  intro v entries
  have hstands : Establishes c v := establishes_replied c written rs
  refine ⟨?_, fun hc refusals stream l e hfew hrs => ?_, fun stage hstage goal => ?_⟩
  · clear_value v
    obtain ⟨hpursues⟩ := hstands
    cases hpursues with
    | @underway n stage => exact .inr ⟨⟨n, rfl⟩, .inr ⟨stage, rfl⟩⟩
    | failed n why => exact .inr ⟨⟨n, rfl⟩, .inl ⟨rfl, why, rfl⟩⟩
    | done l e hlog => exact .inl ⟨rfl, rfl, _, l, e, rfl, hlog⟩
  · refine outcome_of_connecting (v := establishing c written .opening) ?_ rfl ?_ hrs
    · exact ⟨hc.inbox, hc.entries⟩
    · show 1 + refusals.length ≤ c.connectAttempts
      omega
  · intro w
    have hw : w = { v with activity := some (.establishing stage goal) } :=
      replied_establishing goal hstage
    refine ⟨hw, fun now r => ?_, fun hdeadline => ?_⟩
    · rw [hw]
      exact step_establishing hstage goal now r
    · rw [hw]
      clear_value v w
      obtain ⟨hpursues⟩ := hstands
      cases hpursues with
      | underway =>
        cases hstage
        simp only [Conversation.step, settle, expire_establishing stage goal hdeadline]
      | failed => cases hstage
      | done => cases hstage

/-- A connection whose ids have not run out can always introduce itself. -/
theorem presentable_run {appName inboxId : String} {settings : ClientSettings}
    (hc : Connection.create appName settings inboxId = .ok c) (hs : List Happening)
    (hcalls : calls hs < 2 ^ 31) : ((start c).run hs).connection.Presentable := by
  have hsound := sound_fitting hc hs hcalls
  refine ⟨hsound.connection.inbox, fun s hs => ⟨hsound.connection.expressions s hs, ?_⟩⟩
  exact hsound.connection.named s hs

/-- A connection that has subscribed to `T` gets a third stream after a refused connect. -/
theorem establish_all_or_nothing_retried :
    let c := ((start plainConnection).run retried).connection
    let rs := [(0, .refused ⟨.other, none⟩), (1000, .rested), (1000, .connected 2 "" ""),
      (1000, .written), (1000, .written)]
    let v := (establishing c (fun _ => []) .opening).replied rs
    c.Presentable ∧ c.subscriptions.entries = [⟨1, "T", 0⟩] ∧ v.outcome = some .done ∧
      v.connection.generation = 3 := by
  intro c rs v
  have hcreate : Connection.create "x" { address := "unix:///bus" } "1" = .ok plainConnection := rfl
  have hc : c.Presentable := presentable_run hcreate retried (by decide)
  have hentries : c.subscriptions.entries = [⟨1, "T", 0⟩] := by decide +kernel
  obtain ⟨hwhole, hdone, -⟩ := establish_all_or_nothing c (fun _ => []) rs
  have ho : v.outcome = some .done :=
    hdone hc [⟨.other, none⟩] 2 "" "" (by decide +kernel) (by rw [hentries]; rfl)
  have hrest : v.activity.isSome = false := by decide +kernel
  have hgeneration : c.generation = 2 := by decide +kernel
  have hv : (establishing c (fun _ => []) .opening).replied rs = v := rfl
  rw [hv] at hwhole
  clear_value c v
  refine ⟨hc, hentries, ho, ?_⟩
  rcases hwhole with ⟨-, -, stream, l, e, hnew, -⟩ | ⟨-, ⟨-, why, hfailed⟩ | ⟨stage, hstage⟩⟩
  · rw [hnew, Connection.renewed, hgeneration]
  · rw [ho] at hfailed
    nomatch hfailed
  · rw [hstage] at hrest
    nomatch hrest

end Conversation

end TopicBus
