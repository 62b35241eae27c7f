import TopicBus.Proofs.Server.Lines

/-!
Servers over time. A service is a server with the record of what has come over each stream that was
accepted, and every action on it asks something of the broker (`due`). `Sound` says that the server
does just that and hears each client as far as its own bytes can be followed; one action keeps it
(`Sound.step`), so every run does.
-/

namespace TopicBus

structure Service where
  server : Server
  /-- The clients that were ever registered, with their streams. -/
  lines : List Line
  /-- How many streams were accepted, and so the next of them. -/
  accepted : StreamId

namespace Service

/-- What can happen to a server whose writes succeed. -/
inductive Action where
  | accept (peer : String)
  | receive (stream : StreamId) (chunk : Chunk)
  /-- The writer of a client takes up to `count` frames out of its outbox and writes them. -/
  | write (client : ClientId) (count : Nat)
  /-- Sessions that have ended are dropped. -/
  | reap
  deriving Repr

def ofSettings (settings : BrokerSettings) : Service := ⟨.ofSettings settings, [], 0⟩

def line? (v : Service) (stream : StreamId) : Option Line :=
  v.lines.find? fun l => l.stream = stream

theorem mem_of_line? {v : Service} {stream : StreamId} {l : Line} (h : v.line? stream = some l) :
    l ∈ v.lines ∧ l.stream = stream := by
  have hfound := List.find?_some h
  exact ⟨List.mem_of_find?_eq_some h, of_decide_eq_true hfound⟩

/-- A stream whose registration is refused is closed, and its number is not used again. -/
def step (v : Service) : Action → Service
  | .accept peer =>
    match v.server.accept peer v.accepted with
    | .ok (server, _) =>
      { server := server
        lines := v.lines ++ [⟨v.accepted, v.server.broker.nextId, [], false⟩]
        accepted := v.accepted + 1 }
    | .error _ => { v with accepted := v.accepted + 1 }
  | .receive stream chunk =>
    { v with
      server := (v.server.receive stream chunk).1
      lines := v.lines.map (Line.hear stream chunk) }
  | .write client count =>
    { v with server := { v.server with broker := (v.server.broker.drain client count).1 } }
  | .reap => { v with server := v.server.reap.1 }

def run (v : Service) (actions : List Action) : Service := actions.foldl step v

/-- What an action asks of the broker. -/
def due (v : Service) : Action → List Broker.Operation
  | .accept peer => [.register peer (max v.server.broker.settings.outboxCapacity 1)]
  | .receive stream chunk =>
    match v.line? stream with
    | some l => l.due v.server.broker.settings.maxPayload chunk
    | none => []
  | .write client count => [.drain client count]
  | .reap => []

/-- What a run asks of the broker. -/
def operations (v : Service) : List Action → List Broker.Operation
  | [] => []
  | action :: actions => v.due action ++ (v.step action).operations actions

theorem run_append (v : Service) (actions more : List Action) :
    v.run (actions ++ more) = (v.run actions).run more := List.foldl_append

theorem operations_append (v : Service) (actions more : List Action) :
    v.operations (actions ++ more) = v.operations actions ++ (v.run actions).operations more := by
  induction actions generalizing v with
  | nil => rfl
  | cons action actions ih =>
    rw [List.cons_append, operations, operations, ih, List.append_assoc]
    rfl

/-- A server that has done what was asked for, and hears its clients. -/
structure Sound (settings : BrokerSettings) (v : Service) (ops : List Broker.Operation) :
    Prop where
  broker : v.server.broker = (Broker.ofSettings settings).run ops
  streams : ∀ l ∈ v.lines, l.stream < v.accepted
  clients : ∀ l ∈ v.lines, l.client < v.server.broker.nextId
  streams_nodup : (v.lines.map Line.stream).Nodup
  clients_nodup : (v.lines.map Line.client).Nodup
  served : ∀ l ∈ v.lines, l.IsServed settings.maxPayload v.server
  /-- There is no session without a line. -/
  strays : ∀ stream, (∀ l ∈ v.lines, l.stream ≠ stream) → v.server.on stream = []
  done : ∀ l ∈ v.lines, ops.filter (·.isBy l.client) = l.operations settings.maxPayload
  unseen : ∀ client, v.server.broker.nextId ≤ client → ops.filter (·.isBy client) = []

variable {settings : BrokerSettings} {v : Service} {ops : List Broker.Operation}

theorem sound_ofSettings (settings : BrokerSettings) : (ofSettings settings).Sound settings [] where
  broker := rfl
  streams := List.forall_mem_nil _
  clients := List.forall_mem_nil _
  streams_nodup := .nil
  clients_nodup := .nil
  served := List.forall_mem_nil _
  strays := fun _ _ => rfl
  done := List.forall_mem_nil _
  unseen := fun _ _ => rfl

namespace Sound

theorem wellFormed (h : v.Sound settings ops) : v.server.broker.WellFormed := by
  rw [h.broker]
  exact (Broker.wellFormed_ofSettings settings).run ops

theorem settings_eq (h : v.Sound settings ops) : v.server.broker.settings = settings := by
  rw [h.broker]
  exact Broker.settings_run (Broker.wellFormed_ofSettings settings) ops

theorem broker_append (h : v.Sound settings ops) (due : List Broker.Operation) :
    v.server.broker.run due = (Broker.ofSettings settings).run (ops ++ due) := by
  rw [h.broker, Broker.run_append]

/-- What others ask for is not in the record of a client. -/
theorem filter_append_other {due : List Broker.Operation} {client : ClientId}
    (hdue : ∀ op ∈ due, op.isBy client = false) :
    (ops ++ due).filter (·.isBy client) = ops.filter (·.isBy client) := by
  have hnone : due.filter (·.isBy client) = [] :=
    List.filter_eq_nil_iff.mpr fun op hop => Bool.eq_false_iff.mp (hdue op hop)
  rw [List.filter_append, hnone, List.append_nil]

theorem not_isBy_register (peer : String) (capacity : Nat) (client : ClientId) :
    ∀ op ∈ [Broker.Operation.register peer capacity], op.isBy client = false := by
  intro op hop
  rw [List.mem_singleton.mp hop]
  rfl

/-- A stream has one line. -/
theorem line_unique (h : v.Sound settings ops) {l l' : Line} (hl : l ∈ v.lines)
    (hl' : l' ∈ v.lines) (heq : l'.stream = l.stream) : l' = l :=
  List.inj_on_of_nodup_map h.streams_nodup hl' hl heq

/-- A client has one line. -/
theorem client_unique (h : v.Sound settings ops) {l l' : Line} (hl : l ∈ v.lines)
    (hl' : l' ∈ v.lines) (heq : l'.client = l.client) : l' = l :=
  List.inj_on_of_nodup_map h.clients_nodup hl' hl heq

theorem refuse (h : v.Sound settings ops) {peer : String} {capacity : Nat} {why : Fault}
    (hr : v.server.broker.register peer capacity = .error why) :
    Sound settings { v with accepted := v.accepted + 1 } (ops ++ [.register peer capacity]) where
  broker := by
    rw [← h.broker_append, Broker.run, Broker.perform, hr]
    rfl
  streams := fun l hl => Nat.lt_succ_of_lt (h.streams l hl)
  clients := h.clients
  streams_nodup := h.streams_nodup
  clients_nodup := h.clients_nodup
  served := h.served
  strays := h.strays
  done := fun l hl => (filter_append_other (not_isBy_register _ _ _)).trans (h.done l hl)
  unseen := fun client hclient =>
    (filter_append_other (not_isBy_register _ _ _)).trans (h.unseen client hclient)

theorem register (h : v.Sound settings ops) {peer : String} {capacity : Nat} {b : Broker}
    {client : ClientId} {log : List Event}
    (hr : v.server.broker.register peer capacity = .ok (b, client, log)) :
    Sound settings
      { server := ⟨b, v.server.sessions ++
          [⟨client, v.accepted, .ofLimit settings.maxPayload, true, false⟩]⟩
        lines := v.lines ++ [⟨v.accepted, client, [], false⟩]
        accepted := v.accepted + 1 }
      (ops ++ [.register peer capacity]) := by
  obtain ⟨-, rfl, hb⟩ := Broker.register_eq hr
  have hnext : b.nextId = v.server.broker.nextId + 1 := by rw [hb]
  have hon (stream : StreamId) :
      (⟨b, v.server.sessions ++ [⟨v.server.broker.nextId, v.accepted,
        .ofLimit settings.maxPayload, true, false⟩]⟩ : Server).on stream =
      v.server.on stream ++ if stream = v.accepted then [⟨v.server.broker.nextId, v.accepted,
        .ofLimit settings.maxPayload, true, false⟩] else [] := by
    rw [Server.on, List.filter_append, Server.on]
    congr 1
    by_cases heq : stream = v.accepted
    · simp [heq]
    · simp [heq, Ne.symm heq]
  exact
    { broker := by
        rw [← h.broker_append, Broker.run, Broker.perform, hr]
        rfl
      streams := by
        intro l hl
        rcases List.mem_append.mp hl with hl | hl
        · exact Nat.lt_succ_of_lt (h.streams l hl)
        · rw [List.mem_singleton.mp hl]
          exact Nat.lt_succ_self _
      clients := by
        intro l hl
        simp only [hnext]
        rcases List.mem_append.mp hl with hl | hl
        · exact Nat.lt_succ_of_lt (h.clients l hl)
        · rw [List.mem_singleton.mp hl]
          exact Nat.lt_succ_self _
      streams_nodup := by
        rw [List.map_append]
        refine h.streams_nodup.append (List.nodup_singleton _) ?_
        refine List.disjoint_singleton.mpr fun hmem => ?_
        obtain ⟨l, hl, heq⟩ := List.mem_map.mp hmem
        exact Nat.ne_of_lt (h.streams l hl) heq
      clients_nodup := by
        rw [List.map_append]
        refine h.clients_nodup.append (List.nodup_singleton _) ?_
        refine List.disjoint_singleton.mpr fun hmem => ?_
        obtain ⟨l, hl, heq⟩ := List.mem_map.mp hmem
        exact Nat.ne_of_lt (h.clients l hl) heq
      served := by
        intro l hl
        rcases List.mem_append.mp hl with hl | hl
        · refine (h.served l hl).of_on ?_
          rw [hon, if_neg (Nat.ne_of_lt (h.streams l hl)), List.append_nil]
        · rw [List.mem_singleton.mp hl]
          refine ⟨fun _ => ?_, fun hover => ?_⟩
          · rw [hon, h.strays _ fun l hl => Nat.ne_of_lt (h.streams l hl), if_pos rfl, Line.session,
              segment_nil]
            rfl
          · rw [Line.isOver, segment_nil] at hover
            exact absurd hover Bool.false_ne_true
      strays := by
        intro stream hstream
        have hold := h.strays stream fun l hl => hstream l (List.mem_append_left _ hl)
        have hnew := hstream _ (List.mem_append_right _ (List.mem_singleton.mpr rfl))
        rw [hon, hold, if_neg (Ne.symm hnew)]
        rfl
      done := by
        intro l hl
        rw [filter_append_other (not_isBy_register _ _ _)]
        rcases List.mem_append.mp hl with hl | hl
        · exact h.done l hl
        · rw [List.mem_singleton.mp hl, h.unseen _ (Nat.le_refl _), Line.operations, Line.isOver,
            segment_nil]
          rfl
      unseen := by
        intro client hclient
        simp only [hnext] at hclient
        rw [filter_append_other (not_isBy_register _ _ _)]
        exact h.unseen client (Nat.le_of_succ_le hclient) }

theorem accept (h : v.Sound settings ops) (peer : String) :
    (v.step (.accept peer)).Sound settings (ops ++ v.due (.accept peer)) := by
  simp only [step, due, Server.accept]
  cases hr : v.server.broker.register peer (max v.server.broker.settings.outboxCapacity 1) with
  | error why => exact h.refuse hr
  | ok registered =>
    obtain ⟨b, client, log⟩ := registered
    have hregister := h.register hr
    obtain ⟨-, rfl, -⟩ := Broker.register_eq hr
    rw [h.settings_eq] at hregister ⊢
    exact hregister

/-- What is read of one stream concerns its client alone. -/
theorem receive (h : v.Sound settings ops) (stream : StreamId) (chunk : Chunk) :
    (v.step (.receive stream chunk)).Sound settings (ops ++ v.due (.receive stream chunk)) := by
  cases hline : v.line? stream with
  | none =>
    have hother : ∀ l ∈ v.lines, l.stream ≠ stream := fun l hl heq =>
      List.find?_eq_none.mp hline l hl (decide_eq_true heq)
    have hreceive : (v.server.receive stream chunk).1 = v.server := by
      rw [Server.receive, Server.session?_eq_head?, h.strays stream hother]
      rfl
    have hlines : v.lines.map (Line.hear stream chunk) = v.lines :=
      (List.map_congr_left fun l hl => if_neg (hother l hl)).trans (List.map_id _)
    simp only [step, due, hline, hreceive, hlines, List.append_nil]
    exact h
  | some l =>
    obtain ⟨hl, rfl⟩ := mem_of_line? hline
    obtain ⟨hbroker, hserved, hothers⟩ := (h.served l hl).receive chunk
    have hdue : v.due (.receive l.stream chunk) = l.due settings.maxPayload chunk := by
      simp only [due, hline, h.settings_eq]
    have hnext : v.server.broker.nextId ≤ (v.server.receive l.stream chunk).1.broker.nextId := by
      rw [hbroker]
      exact Broker.nextId_le_run h.wellFormed _
    -- A line of the next state is the longer line, or one of the others.
    have hcases {p : Line → Prop} (htake : p (l.take chunk))
        (hother : ∀ l' ∈ v.lines, l'.stream ≠ l.stream → p l') :
        ∀ x ∈ v.lines.map (Line.hear l.stream chunk), p x := by
      intro x hx
      obtain ⟨l', hl', rfl⟩ := List.mem_map.mp hx
      by_cases heq : l'.stream = l.stream
      · rw [h.line_unique hl hl' heq, Line.hear, if_pos rfl]
        exact htake
      · rw [Line.hear, if_neg heq]
        exact hother l' hl' heq
    have hforeign {client : ClientId} (hclient : l.client ≠ client) :
        ∀ op ∈ l.due settings.maxPayload chunk, op.isBy client = false := fun op hop =>
      (Line.isBy_due hop client).trans (decide_eq_false hclient)
    rw [hdue]
    exact
      { broker := hbroker.trans (h.broker_append _)
        streams := hcases (by rw [Line.take_stream]; exact h.streams l hl)
          fun l' hl' _ => h.streams l' hl'
        clients := hcases
          (by rw [Line.take_client]; exact Nat.lt_of_lt_of_le (h.clients l hl) hnext)
          fun l' hl' _ => Nat.lt_of_lt_of_le (h.clients l' hl') hnext
        streams_nodup := by
          simpa only [step, List.map_map, Function.comp_def, Line.hear_stream] using h.streams_nodup
        clients_nodup := by
          simpa only [step, List.map_map, Function.comp_def, Line.hear_client] using h.clients_nodup
        served := hcases hserved fun l' hl' hne => (h.served l' hl').of_on (hothers _ hne)
        strays := by
          intro other hother
          have hold : ∀ l' ∈ v.lines, l'.stream ≠ other := fun l' hl' =>
            Line.hear_stream l.stream chunk l' ▸ hother _ (List.mem_map_of_mem hl')
          rw [step, hothers other (hold l hl).symm]
          exact h.strays other hold
        done := by
          refine hcases ?_ fun l' hl' hne => ?_
          · have hown : (l.due settings.maxPayload chunk).filter (·.isBy l.client) =
                l.due settings.maxPayload chunk :=
              List.filter_eq_self.mpr fun op hop =>
                (Line.isBy_due hop _).trans (decide_eq_true rfl)
            rw [Line.take_client, List.filter_append, h.done l hl, Line.operations_take, hown]
          · have hclient : l.client ≠ l'.client := fun heq =>
              hne (congrArg Line.stream (h.client_unique hl hl' heq.symm))
            rw [filter_append_other (hforeign hclient), h.done l' hl']
        unseen := by
          intro client hclient
          have hold := Nat.le_trans hnext hclient
          have hne : l.client ≠ client := Nat.ne_of_lt (Nat.lt_of_lt_of_le (h.clients l hl) hold)
          rw [filter_append_other (hforeign hne), h.unseen client hold] }

theorem write (h : v.Sound settings ops) (client : ClientId) (count : Nat) :
    (v.step (.write client count)).Sound settings (ops ++ v.due (.write client count)) := by
  have hidle (other : ClientId) : ∀ op ∈ [Broker.Operation.drain client count],
      op.isBy other = false := by
    intro op hop
    rw [List.mem_singleton.mp hop]
    rfl
  obtain ⟨-, -, hnext, -⟩ := Broker.drain_keeps v.server.broker client count
  exact
    { h with
      broker := by
        rw [due, ← h.broker_append]
        rfl
      clients := fun l hl => Nat.lt_of_lt_of_eq (h.clients l hl) hnext.symm
      served := fun l hl => (h.served l hl).of_on rfl
      done := fun l hl => (filter_append_other (hidle _)).trans (h.done l hl)
      unseen := fun other hother => (filter_append_other (hidle _)).trans
        (h.unseen other (Nat.le_trans (Nat.le_of_eq hnext.symm) hother)) }

theorem reap (h : v.Sound settings ops) :
    (v.step .reap).Sound settings (ops ++ v.due .reap) := by
  have hon (stream : StreamId) : v.server.reap.1.on stream =
      (v.server.on stream).filter Session.isReading := by
    simp only [Server.reap, Server.on, List.filter_filter, Bool.and_comm]
  rw [due, List.append_nil]
  exact
    { h with
      served := by
        intro l hl
        refine ⟨fun hlive => ?_, fun hover x hx => ?_⟩
        · rw [step, hon, (h.served l hl).live hlive]
          rfl
        · rw [step, hon] at hx
          exact (h.served l hl).ended hover x (List.mem_filter.mp hx).1
      strays := by
        intro stream hstream
        rw [step, hon, h.strays stream hstream]
        rfl }

/-- Whatever happens, the server does what it is asked for. -/
theorem step (h : v.Sound settings ops) (action : Action) :
    (v.step action).Sound settings (ops ++ v.due action) := by
  cases action with
  | accept peer => exact h.accept peer
  | receive stream chunk => exact h.receive stream chunk
  | write client count => exact h.write client count
  | reap => exact h.reap

theorem run (h : v.Sound settings ops) (actions : List Action) :
    (v.run actions).Sound settings (ops ++ v.operations actions) := by
  induction actions generalizing v ops with
  | nil =>
    rw [operations, List.append_nil]
    exact h
  | cons action actions ih =>
    rw [operations, ← List.append_assoc]
    exact ih (h.step action)

end Sound

/-! ## Lines over time -/

/-- What an action brings over a stream. -/
def Action.chunkOn? (stream : StreamId) : Action → Option Chunk
  | .receive other chunk => if stream = other then some chunk else none
  | .accept _ | .write _ _ | .reap => none

/-- The line of a stream that is accepted, if its client can be registered. -/
def admitted (v : Service) (peer : String) : List Line :=
  match v.server.broker.register peer (max v.server.broker.settings.outboxCapacity 1) with
  | .ok _ => [⟨v.accepted, v.server.broker.nextId, [], false⟩]
  | .error _ => []

theorem step_accept (v : Service) (peer : String) :
    (v.step (.accept peer)).accepted = v.accepted + 1 ∧
      (v.step (.accept peer)).lines = v.lines ++ v.admitted peer := by
  simp only [step, admitted, Server.accept]
  cases v.server.broker.register peer (max v.server.broker.settings.outboxCapacity 1) with
  | ok registered => exact ⟨rfl, rfl⟩
  | error why => exact ⟨rfl, (List.append_nil _).symm⟩

variable {actions : List Action}

/-- A line grows by what is read of its own stream, and by nothing else. -/
theorem line_mem_run {v : Service} {l : Line} (hl : l ∈ v.lines) (actions : List Action) :
    l.takeAll (actions.filterMap (Action.chunkOn? l.stream)) ∈ (v.run actions).lines := by
  induction actions generalizing v l with
  | nil => exact hl
  | cons action actions ih =>
    cases action with
    | accept peer =>
      refine ih ?_
      rw [(step_accept v peer).2]
      exact List.mem_append_left _ hl
    | receive stream chunk =>
      have hnext : l.hear stream chunk ∈ (v.step (.receive stream chunk)).lines :=
        List.mem_map_of_mem hl
      have hrest := ih hnext
      rw [Line.hear_stream] at hrest
      by_cases heq : l.stream = stream
      · have hchunk : Action.chunkOn? l.stream (.receive stream chunk) = some chunk := if_pos heq
        rw [List.filterMap_cons_some hchunk, Line.takeAll, List.foldl_cons]
        rwa [Line.hear, if_pos heq] at hrest
      · have hchunk : Action.chunkOn? l.stream (.receive stream chunk) = none := if_neg heq
        rw [List.filterMap_cons_none hchunk]
        rwa [Line.hear, if_neg heq] at hrest
    | write client count => exact ih hl
    | reap => exact ih hl

theorem Sound.bytes_prefix (h : (v.run actions).Sound settings ops) {l l' : Line}
    (hl : l ∈ v.lines) (hl' : l' ∈ (v.run actions).lines) (hstream : l.stream = l'.stream) :
    l.bytes <+: l'.bytes := by
  have hlater := line_mem_run hl actions
  rw [h.line_unique hlater hl' (by rw [Line.takeAll_stream, hstream])]
  exact l.bytes_prefix_takeAll _

end Service

end TopicBus
