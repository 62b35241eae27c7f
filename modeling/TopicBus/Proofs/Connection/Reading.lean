import TopicBus.Proofs.Connection.Announced

/-!
The reading side beside the writing side. What arrives changes neither what a connection goes by
when it writes (`SameWriting`) nor what holds of it at any time (`receive_keeps`), so every
happening keeps a conversation sound (`Conversation.Sound.run`).
-/

namespace TopicBus

open Control

namespace Connection

variable {p : Terms} {written : StreamId → List (List UInt8)} {next : UInt32} {c : Connection}
  {late : Subscription → Prop}

/-- The reading side leaves alone what the writing side goes by. -/
structure SameWriting (c c' : Connection) : Prop where
  inbox : c'.inbox = c.inbox
  subscriptions : c'.subscriptions = c.subscriptions
  isClosed : c'.isClosed = c.isClosed
  stream : c'.attached.map Attachment.stream = c.attached.map Attachment.stream

namespace SameWriting

theorem refl (c : Connection) : SameWriting c c := ⟨rfl, rfl, rfl, rfl⟩

theorem trans {c c' c'' : Connection} (h : SameWriting c c') (h' : SameWriting c' c'') :
    SameWriting c c'' :=
  ⟨h'.inbox.trans h.inbox, h'.subscriptions.trans h.subscriptions,
    h'.isClosed.trans h.isClosed, h'.stream.trans h.stream⟩

variable {c' : Connection}

theorem exists_attached (h : SameWriting c c') {a : Attachment} (ha : c'.attached = some a) :
    ∃ b, c.attached = some b ∧ b.stream = a.stream := by
  have hstream := h.stream
  rw [ha, Option.map_some, eq_comm] at hstream
  exact Option.map_eq_some_iff.mp hstream

theorem symm (h : SameWriting c c') : SameWriting c' c :=
  ⟨h.inbox.symm, h.subscriptions.symm, h.isClosed.symm, h.stream.symm⟩

theorem detached (h : SameWriting c c') (hnone : c.attached = none) : c'.attached = none := by
  cases ha : c'.attached with
  | none => rfl
  | some a =>
    obtain ⟨b, hb, -⟩ := h.exists_attached ha
    rw [hnone] at hb
    nomatch hb

theorem announced (h : SameWriting c c') (hknown : c.Announced written late) :
    c'.Announced written late := by
  intro a ha
  obtain ⟨b, hb, hstream⟩ := h.exists_attached ha
  rw [← hstream, h.inbox, h.subscriptions]
  exact hknown b hb

theorem sound (h : SameWriting c c') {a : Activity} (ha : a.Sound p written c) :
    a.Sound p written c' := by
  cases a with
  | establishing stage goal =>
    obtain ⟨hdetached, hopen, hstage, hgoal⟩ := ha
    refine ⟨h.detached hdetached, h.isClosed.trans hopen, ?_, hgoal⟩
    cases stage with
    | greeting g =>
      refine ⟨hstage.bytes, hstage.rest, ?_, ?_⟩
      · exact h.inbox ▸ hstage.introduces
      · exact h.subscriptions ▸ hstage.replays
    | connecting attempt => trivial
    | pausing wake attempt => trivial
  | writing stream sending cause =>
    obtain ⟨hbytes, hspared, ⟨a, hattached, hstream⟩, hknown⟩ := ha
    obtain ⟨b, hb, hsame⟩ := h.symm.exists_attached hattached
    exact ⟨hbytes, hspared, ⟨b, hb, hsame.trans hstream⟩, h.announced hknown⟩
  | awaitingResponse deadline => exact h.announced ha
  | awaitingEvent deadline => exact h.announced ha
  | shuttingDown stream => exact h.detached ha

end SameWriting

theorem sameWriting_accept (c : Connection) (f : Frame) : SameWriting c (c.accept f) := by
  unfold accept
  split_ifs
  · split <;> exact ⟨rfl, rfl, rfl, rfl⟩
  · exact ⟨rfl, rfl, rfl, rfl⟩

theorem sameWriting_endReading (c : Connection) (why : Option Fault) :
    SameWriting c (c.endReading why) := by
  refine ⟨rfl, rfl, rfl, ?_⟩
  cases h : c.attached <;> simp [endReading, h]

theorem WellFormed.accept (h : c.WellFormed p next) (f : Frame) :
    (c.accept f).WellFormed p next := by
  unfold Connection.accept
  split_ifs
  · split
    · exact h.withSlot _
    · exact h
  · refine h.of_same rfl rfl h.closed fun g why hmem => ?_
    rcases List.mem_append.mp hmem with hmem | hmem
    · exact h.ends g why hmem
    · nomatch List.mem_singleton.mp hmem

theorem WellFormed.endReading (h : c.WellFormed p next) (why : Option Fault) :
    (c.endReading why).WellFormed p next := by
  refine h.of_same rfl rfl ?_ ?_
  · intro hclosed
    rw [Connection.endReading, h.closed hclosed]
    rfl
  · intro g why hmem
    refine ⟨?_, fun _ a ha => ?_⟩
    · rcases List.mem_append.mp hmem with hmem | hmem
      · exact (h.ends g why hmem).1
      · obtain ⟨rfl, -⟩ := Inbound.closed.inj (List.mem_singleton.mp hmem)
        exact Nat.le_refl _
    · obtain ⟨b, -, rfl⟩ := Option.map_eq_some_iff.mp ha
      rfl

theorem sameWriting_acceptResult (c : Connection) (r : Decoded) :
    SameWriting c (c.acceptResult r) := by
  unfold acceptResult
  split
  · exact .refl c
  · exact .refl c
  · exact sameWriting_accept c _
  · exact sameWriting_endReading c _

theorem sameWriting_acceptResults (c : Connection) (results : List Decoded) :
    SameWriting c (results.foldl acceptResult c) := by
  induction results generalizing c with
  | nil => exact .refl c
  | cons r results ih => exact (sameWriting_acceptResult c r).trans (ih _)

theorem sameWriting_withReader {a : Attachment} (ha : c.attached = some a) (reader : Reader) :
    SameWriting c { c with attached := some { a with reader := reader } } := by
  refine ⟨rfl, rfl, rfl, ?_⟩
  rw [ha]
  rfl

theorem sameWriting_receive (c : Connection) (chunk : Chunk) : SameWriting c (c.receive chunk) := by
  unfold receive
  split
  · exact .refl c
  · next a ha =>
    split_ifs
    · exact .refl c
    · split
      · exact sameWriting_endReading c _
      · split <;> exact sameWriting_endReading c _
      · exact (sameWriting_withReader ha _).trans (sameWriting_acceptResults _ _)

theorem WellFormed.acceptResult (h : c.WellFormed p next) (r : Decoded) :
    (c.acceptResult r).WellFormed p next := by
  unfold Connection.acceptResult
  split
  · exact h
  · exact h
  · exact h.accept _
  · exact h.endReading _

theorem WellFormed.acceptResults (h : c.WellFormed p next) (results : List Decoded) :
    (results.foldl Connection.acceptResult c).WellFormed p next := by
  induction results generalizing c with
  | nil => exact h
  | cons r results ih => exact ih (h.acceptResult r)

theorem WellFormed.withReader (h : c.WellFormed p next) {a : Attachment}
    (ha : c.attached = some a) (reader : Reader) :
    ({ c with attached := some { a with reader := reader } } : Connection).WellFormed p next := by
  refine h.of_same rfl rfl ?_ ?_
  · intro hclosed
    exact Bool.noConfusion ((h.not_closed ha).symm.trans hclosed)
  · intro g why hmem
    refine ⟨(h.ends g why hmem).1, fun heq b hb => ?_⟩
    obtain rfl := Option.some.inj hb
    exact (h.ends g why hmem).2 heq a ha

theorem WellFormed.receive (h : c.WellFormed p next) (chunk : Chunk) :
    (c.receive chunk).WellFormed p next := by
  unfold Connection.receive
  split
  · exact h
  · next a ha =>
    split_ifs
    · exact h
    · split
      · exact h.endReading _
      · split <;> exact h.endReading _
      · exact (h.withReader ha _).acceptResults _

theorem receive_keeps (h : c.WellFormed p next) (chunk : Chunk) :
    (c.receive chunk).WellFormed p next ∧ SameWriting c (c.receive chunk) :=
  ⟨h.receive chunk, sameWriting_receive c chunk⟩

end Connection

/-! ## Whole runs -/

namespace Connection

theorem wellFormed_create {appName inboxId : String} {settings : ClientSettings} {c : Connection}
    (hc : create appName settings inboxId = .ok c) (hfree : ∀ id kept, ¬p.keeps id kept) :
    c.WellFormed p 1 ∧ c.isClosed = false := by
  obtain ⟨-, hinbox, address, -, rfl⟩ := create_eq_ok_iff.mp hc
  refine ⟨⟨Topic.validate_eq_ok_iff.mp hinbox, nofun, nofun, ?_, rfl, nofun, nofun⟩, rfl⟩
  exact fun id kept hkeeps => absurd hkeeps (hfree id kept)

end Connection

namespace Conversation

open SubscriptionTable (idAfter)

variable {p : Terms} {next : UInt32} {v : Conversation}

/-- What holds of a conversation whose next subscription id is known. -/
structure Sound (p : Terms) (next : UInt32) (v : Conversation) : Prop where
  connection : v.connection.WellFormed p next
  activity : ∀ a, v.activity = some a → a.Sound p v.written v.connection
  rest : v.activity = none → v.connection.Settled v.written
  written : ∀ stream, ∀ bytes ∈ v.written stream, Sendable p bytes

theorem sound_settle (hwritten : ∀ stream, ∀ bytes ∈ v.written stream, Sendable p bytes)
    {reached : Connection × Progress} (h : TopicBus.Sound p v.written next reached) :
    (v.settle reached).Sound p next := by
  obtain ⟨c, progress⟩ := reached
  obtain ⟨hwell, hprogress⟩ := h
  cases progress with
  | waiting a =>
    refine ⟨hwell, ?_, nofun, hwritten⟩
    intro b hb
    obtain rfl := Option.some.inj hb
    exact hprogress
  | finished o => exact ⟨hwell, nofun, fun _ => hprogress, hwritten⟩

/-- What an activity writes may be written. -/
theorem sendable_of_demand {c : Connection} {written : StreamId → List (List UInt8)} {a : Activity}
    (ha : a.Sound p written c) {stream : StreamId} {bytes : List UInt8}
    (hdemand : a.demand = .write stream bytes) : Sendable p bytes := by
  cases a with
  | establishing stage goal =>
    cases stage with
    | greeting g =>
      obtain ⟨-, rfl⟩ := Demand.write.inj hdemand
      exact ha.2.2.1.bytes
    | connecting attempt => nomatch hdemand
    | pausing wake attempt => nomatch hdemand
  | writing stream sending cause =>
    obtain ⟨-, rfl⟩ := Demand.write.inj hdemand
    exact ha.1
  | awaitingResponse deadline => nomatch hdemand
  | awaitingEvent deadline => nomatch hdemand
  | shuttingDown stream => nomatch hdemand

theorem sendable_record {written : StreamId → List (List UInt8)}
    (hwritten : ∀ stream, ∀ bytes ∈ written stream, Sendable p bytes) {demand : Demand}
    (hdemand : ∀ stream bytes, demand = .write stream bytes → Sendable p bytes) (r : Reply) :
    ∀ stream, ∀ bytes ∈ demand.record written r stream, Sendable p bytes := by
  intro s x hmem
  cases demand with
  | connect =>
    cases r with
    | connected stream _ _ =>
      simp only [Demand.record] at hmem
      split_ifs at hmem
      · exact absurd hmem List.not_mem_nil
      · exact hwritten s x hmem
    | _ => exact hwritten s x hmem
  | write stream bytes =>
    cases r with
    | written =>
      simp only [Demand.record] at hmem
      split_ifs at hmem
      · rcases List.mem_append.mp hmem with hmem | hmem
        · exact hwritten s x hmem
        · obtain rfl := List.mem_singleton.mp hmem
          exact hdemand stream x rfl
      · exact hwritten s x hmem
    | _ => exact hwritten s x hmem
  | _ => exact hwritten s x hmem

theorem sound_start {appName inboxId : String} {settings : ClientSettings} {c : Connection}
    (hc : Connection.create appName settings inboxId = .ok c)
    (hfree : ∀ id kept, ¬p.keeps id kept) : (start c).Sound p 1 := by
  obtain ⟨hwell, hopen⟩ := Connection.wellFormed_create hc hfree
  exact sound_settle (fun _ _ hmem => absurd hmem List.not_mem_nil)
    (Connection.sound_establish hwell hopen trivial)

/-- A subscription that takes an id is begun. -/
def Inserts (v : Conversation) (x : Happening) (expression : String) : Prop :=
  v.activity = none ∧ x.operation? = some (.subscribe expression) ∧ v.connection.Takes expression

theorem Sound.step (h : v.Sound p next) {x : Happening}
    (hx : ∀ op ∈ x.operation?, ∀ m ∈ op.message?, p.allows m.1 m.2)
    (hadmits : ∀ expression, v.Inserts x expression → p.Admits next expression) :
    (∀ expression, ¬v.Inserts x expression) ∧ (v.step x).Sound p next ∨
      (∃ expression, v.Inserts x expression) ∧ (v.step x).Sound p (idAfter next) := by
  cases x with
  | begin now op =>
    cases hrest : v.activity with
    | none =>
      rw [step_begin_of_rest hrest]
      have hbegin := Connection.sound_begin h.connection (h.rest hrest) now (hx op rfl)
        fun expression hop htakes => hadmits expression ⟨hrest, congrArg some hop, htakes⟩
      rcases hbegin with ⟨hnone, hsound⟩ | ⟨⟨expression, hop, htakes⟩, hsound⟩
      · refine .inl ⟨?_, sound_settle (v := { v with outcome := none }) h.written hsound⟩
        exact fun expression hinserts =>
          hnone expression (Option.some.inj hinserts.2.1) hinserts.2.2
      · refine .inr ⟨⟨expression, hrest, congrArg some hop, htakes⟩, ?_⟩
        exact sound_settle (v := { v with outcome := none }) h.written hsound
    | some a =>
      rw [step_begin_of_busy hrest]
      refine .inl ⟨fun expression hinserts => ?_, h⟩
      nomatch hrest.symm.trans hinserts.1
  | reply now r =>
    refine .inl ⟨nofun, ?_⟩
    cases ha : v.activity with
    | none => rwa [step_reply_of_rest ha]
    | some a =>
      rw [step_reply_of_busy ha]
      have hactivity := h.activity a ha
      exact sound_settle (sendable_record h.written (fun _ _ => sendable_of_demand hactivity) r)
        (Connection.sound_resume h.connection hactivity now r)
  | expire =>
    refine .inl ⟨nofun, ?_⟩
    cases ha : v.activity with
    | none => rwa [step_expire_of_rest ha]
    | some a =>
      rw [step_expire_of_busy ha]
      exact sound_settle h.written (Connection.sound_expire h.connection (h.activity a ha))
  | receive chunk =>
    refine .inl ⟨nofun, ?_⟩
    obtain ⟨hwell, hsame⟩ := Connection.receive_keeps h.connection chunk
    exact ⟨hwell, fun a ha => hsame.sound (h.activity a ha),
      fun hrest => hsame.announced (h.rest hrest), h.written⟩

theorem toNat_idAfter (id : UInt32) (h : id.toNat + 1 < 2 ^ 32) :
    (idAfter id).toNat = id.toNat + 1 := by
  rw [SubscriptionTable.toNat_idAfter_eq, Nat.mod_eq_of_lt (by omega)]

theorem Inserts.calls_eq {x : Happening} {expression : String} (h : v.Inserts x expression) :
    calls [x] = 1 := by
  obtain ⟨-, hop, -⟩ := h
  cases x with
  | begin now op =>
    obtain rfl := Option.some.inj hop
    rfl
  | reply now r => nomatch hop
  | expire => nomatch hop
  | receive chunk => nomatch hop

theorem asked_cons (x : Happening) (hs : List Happening) :
    asked (x :: hs) = asked [x] ++ asked hs := by
  cases x <;> rfl

theorem asked_cons_eq_nil {x : Happening} {hs : List Happening} :
    asked (x :: hs) = [] ↔ x.operation? = none ∧ asked hs = [] := by
  rw [asked, List.filterMap_cons, ← asked]
  cases x.operation? <;> simp

theorem calls_cons (x : Happening) (hs : List Happening) :
    calls (x :: hs) = calls [x] + calls hs := by
  rw [calls, calls, calls, asked_cons, List.map_append, List.sum_append]

/-- Terms that ask for nothing. -/
def anyTerms : Terms :=
  ⟨fun _ _ => True, fun _ _ => True, fun _ _ => False, fun _ => trivial, fun _ _ _ => trivial⟩

theorem Sound.step_any (h : v.Sound anyTerms next) (x : Happening) :
    ∃ last, (v.step x).Sound anyTerms last := by
  rcases h.step (x := x) (fun _ _ _ _ => trivial) (fun _ _ => ⟨trivial, fun _ => id⟩) with
    ⟨-, hsame⟩ | ⟨-, hafter⟩
  · exact ⟨next, hsame⟩
  · exact ⟨idAfter next, hafter⟩

/-- A step that takes no id leaves the next one, and a step that takes one moves on. -/
theorem Sound.taken_cons (h : v.Sound p next) {x : Happening} (hs : List Happening) :
    (∀ {q : Terms}, (v.step x).Sound q next → v.taken (x :: hs) = (v.step x).taken hs) ∧
      ∀ {q : Terms}, (v.step x).Sound q (idAfter next) →
        v.taken (x :: hs) = 1 + (v.step x).taken hs := by
  have hmoves : idAfter next ≠ next := by
    intro heq
    have hnat := SubscriptionTable.toNat_idAfter_eq next
    rw [heq] at hnat
    have hlt := next.toNat_lt
    omega
  constructor
  · intro q hsame
    rw [taken, if_pos (hsame.connection.nextId.trans h.connection.nextId.symm), Nat.zero_add]
  · intro q hafter
    rw [taken, hafter.connection.nextId, h.connection.nextId, if_neg hmoves]

/-- Only calls to subscribe take ids. -/
theorem Sound.taken_le_calls (h : v.Sound anyTerms next) (hs : List Happening) :
    v.taken hs ≤ calls hs := by
  induction hs generalizing v next with
  | nil => exact Nat.le_refl 0
  | cons x hs ih =>
    rw [calls_cons]
    rcases h.step (x := x) (fun _ _ _ _ => trivial) (fun _ _ => ⟨trivial, fun _ => id⟩) with
      ⟨-, hsame⟩ | ⟨⟨expression, hinserts⟩, hafter⟩
    · rw [(h.taken_cons hs).1 hsame]
      exact Nat.le_trans (ih hsame) (Nat.le_add_left _ _)
    · rw [(h.taken_cons hs).2 hafter, hinserts.calls_eq]
      exact Nat.add_le_add_left (ih hafter) 1

/-- Until they come round, ids go up by one each time that one is taken. -/
theorem Sound.nextId_run (h : v.Sound anyTerms next) (hs : List Happening)
    (hroom : next.toNat + v.taken hs < 2 ^ 32) :
    ∃ last, (v.run hs).Sound anyTerms last ∧ last.toNat = next.toNat + v.taken hs := by
  induction hs generalizing v next with
  | nil => exact ⟨next, h, rfl⟩
  | cons x hs ih =>
    rcases h.step (x := x) (fun _ _ _ _ => trivial) (fun _ _ => ⟨trivial, fun _ => id⟩) with
      ⟨-, hsame⟩ | ⟨-, hafter⟩
    · rw [(h.taken_cons hs).1 hsame] at hroom ⊢
      exact ih hsame hroom
    · rw [(h.taken_cons hs).2 hafter] at hroom ⊢
      have hnat := toNat_idAfter next (by omega)
      obtain ⟨last, hlast, heq⟩ := ih hafter (by omega)
      exact ⟨last, hlast, by omega⟩

theorem mem_asked {x : Happening} {op : Operation} (h : op ∈ x.operation?) : op ∈ asked [x] := by
  rw [asked, List.filterMap_cons, Option.mem_def.mp h]
  exact List.mem_cons_self

/-- A conversation stays sound if every id is admitted, even when they come round. -/
theorem Sound.run_of_admits (h : v.Sound p next) (hadmits : ∀ id expression, p.Admits id expression)
    (hs : List Happening) (hops : ∀ op ∈ asked hs, ∀ m ∈ op.message?, p.allows m.1 m.2) :
    ∃ last, (v.run hs).Sound p last := by
  induction hs generalizing v next with
  | nil => exact ⟨next, h⟩
  | cons x hs ih =>
    rw [asked_cons] at hops
    have hrest : ∀ op ∈ asked hs, ∀ m ∈ op.message?, p.allows m.1 m.2 :=
      fun op hop => hops op (List.mem_append_right _ hop)
    have hx : ∀ op ∈ x.operation?, ∀ m ∈ op.message?, p.allows m.1 m.2 :=
      fun op hop => hops op (List.mem_append_left _ (mem_asked hop))
    rcases h.step hx (fun expression _ => hadmits next expression) with ⟨-, hsame⟩ | ⟨-, hafter⟩
    · exact ih hsame hrest
    · exact ih hafter hrest

theorem Sound.run_any (h : v.Sound anyTerms next) (hs : List Happening) :
    ∃ last, (v.run hs).Sound anyTerms last :=
  h.run_of_admits (fun _ _ => ⟨trivial, fun _ => not_false⟩) hs fun _ _ _ _ => trivial

/-- A connection is sound whatever has happened to it. -/
theorem exists_sound {appName inboxId : String} {settings : ClientSettings} {c : Connection}
    (hc : Connection.create appName settings inboxId = .ok c) (hs : List Happening) :
    ∃ next, ((start c).run hs).Sound anyTerms next :=
  (sound_start hc fun _ _ => not_false).run_any hs

/-- A conversation stays sound as long as its ids do not come round, if those that are taken are
admitted. -/
theorem Sound.run (h : v.Sound p next) (hany : v.Sound anyTerms next) (hs : List Happening)
    (hroom : next.toNat + v.taken hs < 2 ^ 32)
    (hops : ∀ op ∈ asked hs, ∀ m ∈ op.message?, p.allows m.1 m.2)
    (hadmits : ∀ id expression, .subscribe expression ∈ asked hs → next.toNat ≤ id.toNat →
      id.toNat < (v.run hs).connection.subscriptions.nextId.toNat → p.Admits id expression) :
    (v.run hs).Sound p (v.run hs).connection.subscriptions.nextId := by
  induction hs generalizing v next with
  | nil =>
    have hnext := h.connection.nextId
    exact hnext.symm ▸ h
  | cons x hs ih =>
    rw [asked_cons] at hops hadmits
    have hx : ∀ op ∈ x.operation?, ∀ m ∈ op.message?, p.allows m.1 m.2 :=
      fun op hop => hops op (List.mem_append_left _ (mem_asked hop))
    have hrest : ∀ op ∈ asked hs, ∀ m ∈ op.message?, p.allows m.1 m.2 :=
      fun op hop => hops op (List.mem_append_right _ hop)
    rcases hany.step (x := x) (fun _ _ _ _ => trivial) (fun _ _ => ⟨trivial, fun _ => id⟩) with
      ⟨hnone, hsame⟩ | ⟨⟨expression, hinserts⟩, hafter⟩
    · rw [(hany.taken_cons hs).1 hsame] at hroom
      rcases h.step hx (fun expression hinserts => absurd hinserts (hnone expression)) with
        ⟨-, hsound⟩ | ⟨⟨expression, hinserts⟩, -⟩
      · exact ih hsound hsame hroom hrest
          fun id expression hlater => hadmits id expression (List.mem_append_right _ hlater)
      · exact absurd hinserts (hnone expression)
    · rw [(hany.taken_cons hs).2 hafter] at hroom
      have hnat := toNat_idAfter next (by omega)
      obtain ⟨last, hlast, heq⟩ := hafter.nextId_run hs (by omega)
      -- The id that is taken is below the one that is next in the end.
      have hlt : next.toNat < ((v.step x).run hs).connection.subscriptions.nextId.toNat := by
        rw [hlast.connection.nextId]
        omega
      have hadmitted : ∀ expression, v.Inserts x expression → p.Admits next expression :=
        fun expression hinserts => hadmits next expression
          (List.mem_append_left _ (mem_asked hinserts.2.1)) (Nat.le_refl _) hlt
      rcases h.step hx hadmitted with ⟨hnone, -⟩ | ⟨-, hsound⟩
      · exact absurd hinserts (hnone expression)
      · exact ih hsound hafter (by omega) hrest fun id expression hlater hid =>
          hadmits id expression (List.mem_append_right _ hlater) (by omega)

section Start

variable {appName inboxId : String} {settings : ClientSettings} {c : Connection}

/-- Ids are counted from 1. -/
theorem toNat_nextId (hc : Connection.create appName settings inboxId = .ok c)
    (hs : List Happening) (hroom : (start c).taken hs < 2 ^ 32 - 1) :
    ((start c).run hs).connection.subscriptions.nextId.toNat = 1 + (start c).taken hs := by
  have hone : (1 : UInt32).toNat = 1 := rfl
  have hstart := sound_start (p := anyTerms) hc fun _ _ => not_false
  obtain ⟨last, hlast, heq⟩ := hstart.nextId_run hs (by omega)
  rw [hlast.connection.nextId, heq, hone]

/-- From the start on, all ids are below the next one. -/
theorem sound_of_create (hc : Connection.create appName settings inboxId = .ok c)
    (hfree : ∀ id kept, ¬p.keeps id kept) (hs : List Happening)
    (hroom : (start c).taken hs < 2 ^ 32 - 1)
    (hops : ∀ op ∈ asked hs, ∀ m ∈ op.message?, p.allows m.1 m.2)
    (hnames : ∀ id expression,
      id.toNat < ((start c).run hs).connection.subscriptions.nextId.toNat → p.names id expression) :
    ((start c).run hs).Sound p ((start c).run hs).connection.subscriptions.nextId := by
  have hone : (1 : UInt32).toNat = 1 := rfl
  refine (sound_start hc hfree).run (sound_start hc fun _ _ => not_false) hs (by omega) hops ?_
  exact fun id expression _ _ hlt => ⟨hnames id expression hlt, hfree id⟩

end Start

/-- What stands in the table of a connection at rest may be promised to stay there. -/
theorem Sound.keeping (h : v.Sound p next) (hrest : v.activity = none)
    (keeps : UInt32 → String → Prop) (hkept : ∀ id expression, keeps id expression →
      ∃ s ∈ v.connection.subscriptions.entries, s.id = id ∧ s.expression = expression) :
    v.Sound { p with keeps := keeps } next where
  connection := ⟨h.connection.inbox, h.connection.expressions, h.connection.named, hkept,
    h.connection.nextId, h.connection.closed, h.connection.ends⟩
  activity := by
    intro a ha
    rw [hrest] at ha
    nomatch ha
  rest := h.rest
  written := h.written

end Conversation

end TopicBus
