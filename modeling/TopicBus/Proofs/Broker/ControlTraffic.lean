import TopicBus.Proofs.Broker.Effect
import TopicBus.Proofs.Topic.Segments

/-!
Messages to the broker among all other frames. Their topics are those under `_ROUTER`, exactly what
the broker's own route selects (`selects_control_iff`). That the broker handles such a frame keeps
it from nobody: it goes on to every client with an expression for its topic (`route_reserved`), so
clients can listen to what others ask of the broker (`hello_reaches_other`).
-/

namespace TopicBus

namespace Topic

/-- A text without wildcards in front of `.>` selects itself and all that is below it. -/
theorem scan_below {p : List Char} (hp : ∀ c ∈ p, c ≠ '*' ∧ c ≠ '>') (t : List Char) :
    scan t (p ++ ['.', '>']) = true ↔ t = p ∨ p ++ ['.'] <+: t := by
  induction p generalizing t with
  | nil =>
    cases t with
    | nil => simp [scan_nil_left]
    | cons d t =>
      have hrest : scan t ['>'] = true := by simp [scan.eq_def]
      rw [List.nil_append, scan_char (by decide) (by decide), List.nil_append,
        List.cons_prefix_cons]
      simp [hrest, eq_comm]
  | cons c p ih =>
    obtain ⟨⟨hstar, hgt⟩, hrest⟩ := List.forall_mem_cons.mp hp
    cases t with
    | nil =>
      have hlong : p ++ ['.', '>'] ≠ ['>'] := fun h => by simpa using congrArg List.length h
      simp [scan_nil_left hgt, hlong]
    | cons d t =>
      rw [List.cons_append, scan_char hgt hstar, ih hrest, List.cons.injEq, List.cons_append,
        List.cons_prefix_cons, eq_comm (a := c), ← and_or_left]

end Topic

namespace Control

/-- The topics set aside for messages to the broker: `_ROUTER` and all below it. -/
def IsReserved (topic : String) : Prop :=
  topic = "_ROUTER" ∨ "_ROUTER.".toList <+: topic.toList

instance (topic : String) : Decidable (IsReserved topic) :=
  inferInstanceAs (Decidable (topic = "_ROUTER" ∨ "_ROUTER.".toList <+: topic.toList))

theorem selects_control_iff (topic : String) :
    Topic.selects expression topic = true ↔ IsReserved topic := by
  have hscan := Topic.scan_below (p := "_ROUTER".toList) (by simp) topic.toList
  rw [String.toList_inj] at hscan
  exact hscan

end Control

namespace Outbox

theorem offer_eq_self_iff (o : Outbox) (fs : List Frame) :
    o.offer fs = o ↔ o.room = 0 ∨ fs = [] := by
  have hframes : o.offer fs = o ↔ o.frames ++ fs.take o.room = o.frames := by
    constructor
    · exact fun h => congrArg Outbox.frames h
    · exact fun h => by rw [offer, h]
  rw [hframes, List.append_right_eq_self, List.take_eq_nil_iff]

end Outbox

namespace Broker

open Control

variable {b : Broker} {f : Frame}

/-- The broker's own route comes first among those that select a message to it. -/
theorem WellFormed.selecting_reserved (h : b.WellFormed) (hf : IsReserved f.topic) :
    ∃ rest, b.table.selecting f.topic = Route.builtin Control.expression .control :: rest := by
  obtain ⟨own, hroutes, -⟩ := h.routes
  have hselects : (Route.builtin Control.expression .control).selects f.topic = true :=
    (selects_control_iff f.topic).mpr hf
  rw [RouteTable.selecting, hroutes, builtinRoutes, List.cons_append, List.filter_cons,
    if_pos hselects]
  exact ⟨_, rfl⟩

theorem WellFormed.forwards_of_owner (h : b.WellFormed) {r : Route} {o : ClientId}
    (hr : r ∈ b.table.routes) (ho : r.owner = some o) : r.action = .forward := by
  obtain ⟨own, hroutes, hown⟩ := h.routes
  rw [hroutes] at hr
  rcases List.mem_append.mp hr with hbuiltin | hr
  · rw [(builtin_owner hbuiltin).1] at ho
    exact nomatch ho
  · exact (hown r hr).forwards

/-- A client has a route for a topic if a route that selects it leads there. -/
theorem WellFormed.subscriptionsFor_eq_nil_iff (h : b.WellFormed) (o : ClientId) (topic : String) :
    b.subscriptionsFor o topic = [] ↔ ∀ r ∈ b.table.selecting topic, r.owner ≠ some o := by
  rw [subscriptionsFor, List.map_eq_nil_iff, List.filter_eq_nil_iff]
  constructor
  · intro hnone r hr howner
    obtain ⟨hmem, hselects⟩ := List.mem_filter.mp hr
    have hforward := h.forwards_of_owner hmem howner
    exact hnone r hmem (by simp [hforward, howner, hselects])
  · intro hnone r hmem hr
    obtain ⟨-, howner, hselects⟩ := of_decide_eq_true hr
    exact hnone r (List.mem_filter.mpr ⟨hmem, hselects⟩) howner

/-- A message to the broker is handled by it, and then treated like any other frame: every client
gets a copy for each of its routes that select the topic, as far as there is room. So it stays
between its sender and the broker exactly if no client with room listens to its topic. -/
theorem route_reserved (settings : BrokerSettings) (ops : List Operation) (sender : ClientId)
    (f : Frame) (hf : IsReserved f.topic) :
    let b := (ofSettings settings).run ops
    let b' := (b.route sender f).1
    (∃ rest, b.table.selecting f.topic = Route.builtin "_ROUTER.>" .control :: rest) ∧
    (∀ o c, b.client? o = some c → ∃ c', b'.client? o = some c' ∧
      c'.outbox = c.outbox.offer ((b.subscriptionsFor o f.topic).map f.tagged)) ∧
    b'.departed = b.departed ∧
    ((∀ o c c', b.client? o = some c → b'.client? o = some c' → c'.outbox = c.outbox) ↔
      ∀ r ∈ b.table.selecting f.topic, ∀ o c, r.owner = some o → b.client? o = some c →
        c.outbox.room = 0) := by
  intro b b'
  have h : b.WellFormed := (wellFormed_ofSettings settings).run ops
  have hclient : ∀ o c, b.client? o = some c → ∃ c', b'.client? o = some c' ∧
      c'.outbox = c.outbox.offer ((b.subscriptionsFor o f.topic).map f.tagged) :=
    fun o c hc => h.route_outbox sender f hc
  refine ⟨h.selecting_reserved hf, hclient, ?_, ?_⟩
  · obtain ⟨g, -, hroute⟩ := h.route_eq sender f
    change (b.route sender f).1.departed = b.departed
    rw [hroute]
    exact (onControl_keeps b sender f).2.1
  · constructor
    · intro hsame r hr o c howner hc
      obtain ⟨c', hc', houtbox⟩ := hclient o c hc
      rw [hsame o c c' hc hc', eq_comm, Outbox.offer_eq_self_iff, List.map_eq_nil_iff] at houtbox
      refine houtbox.resolve_right fun hnone => ?_
      exact (h.subscriptionsFor_eq_nil_iff o f.topic).mp hnone r hr howner
    · intro hfull o c c' hc hc'
      obtain ⟨c'', hc'', houtbox⟩ := hclient o c hc
      obtain rfl : c'' = c' := Option.some.inj (hc''.symm.trans hc')
      rw [houtbox, Outbox.offer_eq_self_iff, List.map_eq_nil_iff]
      by_cases hroom : c.outbox.room = 0
      · exact .inl hroom
      · refine .inr ((h.subscriptionsFor_eq_nil_iff o f.topic).mpr fun r hr howner => ?_)
        exact hroom (hfull r hr o c howner hc)

/-- One client listens to all topics. -/
def besideListener : List Operation :=
  [.register "a" 4, .register "b" 4,
    .route 1 (.ofPayload (.forTopic subscribeTopic)
      (Utf8.encode "\x7b\"topic\": \">\", \"route_id\": 5\x7d"))]

def helloFrame : Frame :=
  .ofPayload (.forTopic helloTopic) (Utf8.encode "\x7b\"inbox\": \"b.INBOX.1\"\x7d")

theorem route_reserved_hello :
    IsReserved helloFrame.topic ∧
      ∃ c c', ((ofSettings {}).run besideListener).client? 1 = some c ∧
        ((((ofSettings {}).run besideListener).route 2 helloFrame).1).client? 1 = some c' ∧
        c'.outbox = c.outbox.offer [helloFrame.tagged 5] := by
  have hf : IsReserved helloFrame.topic := by decide
  have hsome : (((ofSettings {}).run besideListener).client? 1).isSome = true := by decide +kernel
  have hsubscriptions :
      ((ofSettings {}).run besideListener).subscriptionsFor 1 helloFrame.topic = [5] := by
    decide +kernel
  obtain ⟨c, hc⟩ := Option.isSome_iff_exists.mp hsome
  obtain ⟨-, hclient, -⟩ := route_reserved {} besideListener 2 helloFrame hf
  obtain ⟨c', hc', houtbox⟩ := hclient 1 c hc
  rw [hsubscriptions] at houtbox
  exact ⟨hf, c, c', hc, hc', houtbox⟩

/-- What one client tells the broker about its inbox reaches another client. -/
theorem hello_reaches_other :
    IsReserved helloFrame.topic ∧
      (((ofSettings {}).run besideListener).client? 1).map (·.outbox.frames) = some [] ∧
      ((((ofSettings {}).run besideListener).route 2 helloFrame).1.client? 1).map
        (·.outbox.frames) = some [helloFrame.tagged 5] := by
  refine ⟨by decide, ?_, ?_⟩
  · decide +kernel
  · decide +kernel

end Broker

end TopicBus
