import TopicBus.Proofs.Address.Grammar
import TopicBus.Proofs.Broker.ControlTraffic
import TopicBus.Proofs.Broker.Output
import TopicBus.Proofs.Connection.Conversation
import TopicBus.Proofs.Topic.Segments
import TopicBus.Proofs.Wire.Encoding
import TopicBus.Simulation

/-!
The private topics of connections. The name of an application is one segment without wildcards, so
an inbox selects nothing but itself (`selects_inbox_iff`), and the id alone tells two of them apart.
A frame for an inbox therefore never takes the route that another client has announced for its own
(`WellFormed.route_outbox_beside`), and under the id of inboxes a client gets what is addressed to
its own (`Sealed.run`). How long a name may be follows from the 39 bytes that come behind it.
-/

namespace TopicBus

open Control

namespace Connection

variable {appName inboxId otherName otherId topic : String}

/-! ## What an inbox selects -/

theorem isAppName_iff {name : String} : isAppName name = true ↔
    name ≠ "" ∧ ∀ c ∈ name.toList, c ≠ '.' ∧ c ≠ '*' ∧ c ≠ '>' := by
  rw [isAppName, Bool.and_eq_true, Bool.not_eq_true', String.isEmpty_eq_false_iff,
    List.all_eq_true]
  simp only [Bool.and_eq_true, bne_iff_ne, and_assoc]

theorem toList_inboxOf (appName inboxId : String) : (inboxOf appName inboxId).toList =
    appName.toList ++ '.' :: ("INBOX.".toList ++ inboxId.toList) := by
  rw [inboxOf, String.toList_append, String.toList_append, List.append_assoc]
  rfl

/-- The first dot tells where a name ends. -/
theorem append_dot_eq_iff {p q : List Char} (hp : '.' ∉ p) (hq : '.' ∉ q) (r s : List Char) :
    p ++ '.' :: r = q ++ '.' :: s ↔ p = q ∧ r = s := by
  induction p generalizing q with
  | nil =>
    cases q with
    | nil => simp
    | cons d q =>
      have hd : '.' ≠ d := fun h => hq (h ▸ List.mem_cons_self)
      simp [hd]
  | cons c p ih =>
    have hp' : '.' ∉ p := fun h => hp (List.mem_cons_of_mem _ h)
    cases q with
    | nil =>
      have hc : c ≠ '.' := fun h => hp (h ▸ List.mem_cons_self)
      simp [hc]
    | cons d q =>
      have hq' : '.' ∉ q := fun h => hq (List.mem_cons_of_mem _ h)
      rw [List.cons_append, List.cons_append, List.cons.injEq, ih hp' hq', List.cons.injEq,
        and_assoc]

/-- What no application's name may hold are just the characters that could make a pattern of it. -/
theorem inboxOf_chars (happ : isAppName appName = true) (hid : isAppName inboxId = true) :
    ∀ c ∈ (inboxOf appName inboxId).toList, c ≠ '*' ∧ c ≠ '>' := by
  intro c hc
  rw [toList_inboxOf, List.mem_append, List.mem_cons, List.mem_append] at hc
  rcases hc with hc | rfl | hc | hc
  · exact ((isAppName_iff.mp happ).2 c hc).2
  · decide
  · have hword : "INBOX.".toList.all (fun d => d ≠ '*' ∧ d ≠ '>') = true := by decide
    exact of_decide_eq_true (List.all_eq_true.mp hword c hc)
  · exact ((isAppName_iff.mp hid).2 c hc).2

theorem selects_inbox_iff (happ : isAppName appName = true) (hid : isAppName inboxId = true) :
    Topic.selects (inboxOf appName inboxId) topic = true ↔ topic = inboxOf appName inboxId := by
  rw [Topic.selects, Topic.scan_plain (inboxOf_chars happ hid), String.toList_inj]

theorem inboxOf_inj (happ : isAppName appName = true) (hother : isAppName otherName = true) :
    inboxOf appName inboxId = inboxOf otherName otherId ↔
      appName = otherName ∧ inboxId = otherId := by
  have hdot {name : String} (h : isAppName name = true) : '.' ∉ name.toList :=
    fun hmem => ((isAppName_iff.mp h).2 '.' hmem).1 rfl
  rw [← String.toList_inj, toList_inboxOf, toList_inboxOf,
    append_dot_eq_iff (hdot happ) (hdot hother), List.append_cancel_left_eq, String.toList_inj,
    String.toList_inj]

/-- An inbox selects itself and no other inbox. -/
theorem selects_inboxOf (happ : isAppName appName = true) (hother : isAppName otherName = true)
    (hotherId : isAppName otherId = true) :
    Topic.selects (inboxOf otherName otherId) (inboxOf appName inboxId) = true ↔
      appName = otherName ∧ inboxId = otherId := by
  rw [selects_inbox_iff hother hotherId, inboxOf_inj happ hother]

/-! ## Ids and sizes -/

/-- Thirty-two hexadecimal digits in lower case. -/
def IsInboxId (id : String) : Prop :=
  id.length = 32 ∧ ∀ c ∈ id.toList, c ∈ "0123456789abcdef".toList

instance (id : String) : Decidable (IsInboxId id) :=
  @instDecidableAnd _ _ _ (List.decidableBAll _ id.toList)

theorem IsInboxId.isAppName (h : IsInboxId inboxId) : isAppName inboxId = true := by
  have hdigits : "0123456789abcdef".toList.all (fun c => c ≠ '.' ∧ c ≠ '*' ∧ c ≠ '>') = true := by
    decide
  refine isAppName_iff.mpr ⟨?_, fun c hc => ?_⟩
  · rintro rfl
    exact absurd h.1 (by decide)
  · exact of_decide_eq_true (List.all_eq_true.mp hdigits c (h.2 c hc))

theorem utf8Len_eq_length {cs : List Char} (h : ∀ c ∈ cs, c.utf8Size = 1) :
    String.utf8Len cs = cs.length := by
  induction cs with
  | nil => rfl
  | cons c cs ih =>
    rw [String.utf8Len_cons, h c List.mem_cons_self, ih fun d hd => h d (List.mem_cons_of_mem _ hd),
      List.length_cons]

theorem IsInboxId.utf8ByteSize (h : IsInboxId inboxId) : inboxId.utf8ByteSize = 32 := by
  have hdigits : "0123456789abcdef".toList.all (fun c => c.utf8Size = 1) = true := by decide
  have hsingle : ∀ c ∈ inboxId.toList, c.utf8Size = 1 :=
    fun c hc => of_decide_eq_true (List.all_eq_true.mp hdigits c (h.2 c hc))
  have hbytes := String.utf8ByteSize_ofList inboxId.toList
  rwa [String.ofList_toList, utf8Len_eq_length hsingle, String.length_toList, h.1] at hbytes

theorem utf8ByteSize_inboxOf (appName : String) (h : IsInboxId inboxId) :
    (inboxOf appName inboxId).utf8ByteSize = appName.utf8ByteSize + 39 := by
  have hword : ".INBOX.".utf8ByteSize = 7 := by decide
  have hparts : inboxOf appName inboxId = appName ++ ".INBOX." ++ inboxId := rfl
  rw [hparts, String.utf8ByteSize_append, String.utf8ByteSize_append, h.utf8ByteSize, hword,
    Nat.add_assoc]

theorem mem_hex_of_mem_toDigits (n : Nat) :
    ∀ c ∈ Nat.toDigits 16 n, c ∈ "0123456789abcdef".toList := by
  have hdigit : ∀ d < 16, Nat.digitChar d ∈ "0123456789abcdef".toList := by decide
  induction n using Nat.strongRecOn with
  | ind n ih =>
    intro c hc
    rw [Nat.toDigits_eq_if (by decide)] at hc
    split_ifs at hc with hlt
    · rw [List.mem_singleton.mp hc]
      exact hdigit n hlt
    · rcases List.mem_append.mp hc with hc | hc
      · exact ih (n / 16) (by omega) c hc
      · rw [List.mem_singleton.mp hc]
        exact hdigit (n % 16) (Nat.mod_lt n (by decide))

/-- The ids that connections of a simulation get. -/
theorem isInboxId_simulated {n : Nat} (h : n < 16 ^ 32) : IsInboxId (Simulation.inboxId n) := by
  have hlength : (Nat.toDigits 16 n).length ≤ 32 :=
    (Nat.length_toDigits_le_iff (by decide) (by decide)).mpr h
  constructor
  · rw [Simulation.inboxId, String.length_ofList, List.length_append, List.length_replicate]
    omega
  · intro c hc
    rw [Simulation.inboxId, String.toList_ofList, List.mem_append] at hc
    rcases hc with hzero | hdigit
    · rw [List.eq_of_mem_replicate hzero]
      decide
    · exact mem_hex_of_mem_toDigits n c hdigit

/-- Names of up to 89 bytes leave room for the rest of an inbox. -/
theorem validate_inboxOf (h : IsInboxId inboxId) (what : String) :
    Topic.validate what (inboxOf appName inboxId) = .ok () ↔ appName.utf8ByteSize ≤ 89 := by
  rw [Topic.validate_eq_ok_iff, utf8ByteSize_inboxOf appName h, Wire.maxTopicSize]
  omega

theorem validate_long_inboxOf (h : IsInboxId inboxId) (hlong : 89 < appName.utf8ByteSize)
    (what : String) : Topic.validate what (inboxOf appName inboxId) =
      .error (.invalidArgument (.longTopic what (appName.utf8ByteSize + 39))) := by
  have hsize := utf8ByteSize_inboxOf appName h
  have hempty : ¬(inboxOf appName inboxId).isEmpty = true := by
    rw [String.isEmpty_iff_utf8ByteSize_eq_zero]
    omega
  have hover : Wire.maxTopicSize < (inboxOf appName inboxId).utf8ByteSize := by
    rw [Wire.maxTopicSize]
    omega
  rw [Topic.validate, if_neg hempty, if_pos hover, hsize]

/-! ## Connections -/

/-- A name that is too long is refused whatever the settings are. -/
theorem create_of_long (happ : isAppName appName = true) (hid : IsInboxId inboxId)
    (hlong : 89 < appName.utf8ByteSize) (settings : ClientSettings) :
    ∃ misuse, create appName settings inboxId = .error (.invalidArgument misuse) ∧
      ∀ address, Address.parse settings.address = .ok address →
        misuse = .longTopic "inbox" (appName.utf8ByteSize + 39) := by
  have hname : (!isAppName appName) = false := by rw [happ]; rfl
  cases hparse : Address.parse settings.address with
  | error why =>
    obtain ⟨misuse, -, rfl⟩ := Address.flawed_of_parse hparse
    refine ⟨misuse, ?_, nofun⟩
    simp only [create, hname, hparse]
    rfl
  | ok address =>
    refine ⟨_, ?_, fun _ _ => rfl⟩
    simp only [create, hname, hparse, validate_long_inboxOf hid hlong]
    rfl

theorem create_of_short (happ : isAppName appName = true) (hid : IsInboxId inboxId)
    (hshort : appName.utf8ByteSize ≤ 89) {settings : ClientSettings} {address : Address}
    (hparse : Address.parse settings.address = .ok address) :
    ∃ c, create appName settings inboxId = .ok c := by
  have hfits : Topic.validate "inbox" (inboxOf appName inboxId) = .ok () :=
    (validate_inboxOf hid "inbox").mpr hshort
  exact ⟨_, create_eq_ok_iff.mpr ⟨happ, hfits, address, hparse, rfl⟩⟩

theorem create_eq_ok {appName inboxId : String} {settings : ClientSettings} {c : Connection}
    (hc : create appName settings inboxId = .ok c) :
    isAppName appName = true ∧ c.inbox = inboxOf appName inboxId := by
  obtain ⟨hname, -, address, -, rfl⟩ := create_eq_ok_iff.mp hc
  exact ⟨hname, rfl⟩

end Connection

namespace Broker

variable {b : Broker} {o : ClientId} {f : Frame} {g : Frame} {k : Client} {inbox : String}

/-! ## What comes through the route to an inbox -/

/-- The copies of a frame that all routes of a client but one ask for. -/
def copiesBeside (b : Broker) (o : ClientId) (r : Route) (f : Frame) : List Frame :=
  ((b.routesOf o).filter fun r' => r' ≠ r ∧ r'.selects f.topic).map fun r' =>
    f.tagged r'.subscription

/-- A route that does not select the topic might as well not be there. -/
theorem WellFormed.route_outbox_beside (h : b.WellFormed) (sender : ClientId)
    (hk : b.client? o = some k) {r : Route} (hr : r.selects f.topic = false) :
    ∃ k', (b.route sender f).1.client? o = some k' ∧
      k'.outbox = k.outbox.offer (b.copiesBeside o r f) := by
  obtain ⟨k', hk', houtbox⟩ := h.route_outbox sender f hk
  refine ⟨k', hk', houtbox.trans (congrArg k.outbox.offer ?_)⟩
  rw [subscriptionsFor_eq_routesOf, List.map_map, copiesBeside]
  refine congrArg (List.map _) (List.filter_congr fun r' hr' => ?_)
  obtain ⟨hmem, howner⟩ := List.mem_filter.mp hr'
  have hforward := h.forwards_of_owner hmem (of_decide_eq_true howner)
  have hne : r'.selects f.topic = true → r' ≠ r := by
    rintro hselects rfl
    exact Bool.noConfusion (hr.symm.trans hselects)
  simp only [hforward, true_and, decide_eq_decide]
  exact ⟨fun hselects => ⟨hne hselects, hselects⟩, And.right⟩

/-- A route of a client was there before, or the client has just been granted it. -/
theorem WellFormed.mem_routesOf_of_perform (h : b.WellFormed) {op : Operation} {r : Route}
    (hr : r ∈ (b.perform op).1.routesOf o) :
    r ∈ b.routesOf o ∨ ∃ f, op = .route o f ∧ r ∈ b.granted o f := by
  obtain ⟨hmem, howner⟩ := List.mem_filter.mp hr
  have hold (hmem : r ∈ b.table.routes) : r ∈ b.routesOf o := List.mem_filter.mpr ⟨hmem, howner⟩
  cases op with
  | register peer capacity =>
    simp only [Broker.perform] at hmem
    cases hregister : b.register peer capacity with
    | error why =>
      rw [hregister] at hmem
      exact .inl (hold hmem)
    | ok x =>
      rw [hregister] at hmem
      obtain ⟨-, -, hb⟩ := register_eq hregister
      simp only [hb] at hmem
      exact .inl (hold hmem)
  | route sender f =>
    simp only [Broker.perform, h.routes_route] at hmem
    rcases List.mem_append.mp (List.mem_filter.mp hmem).1 with hmem | hgranted
    · exact .inl (hold hmem)
    · obtain ⟨q, -, rfl, -⟩ := granted_mem hgranted
      obtain rfl : sender = o := Option.some.inj (of_decide_eq_true howner)
      exact .inr ⟨f, rfl, hgranted⟩
  | cleanup id =>
    simp only [Broker.perform, cleanup_eq, RouteTable.removeClient] at hmem
    exact .inl (hold (List.mem_filter.mp hmem).1)
  | drain id count =>
    simp only [Broker.perform, (drain_keeps b id count).2.1] at hmem
    exact .inl (hold hmem)
  | hangUp id =>
    simp only [Broker.perform, (hangUp_keeps b id).2.1] at hmem
    exact .inl (hold hmem)

/-- Under the id of inboxes a client has asked for one inbox, and all that waits for it under this
id is addressed to that inbox. -/
structure Sealed (b : Broker) (o : ClientId) (inbox : String) : Prop where
  routes : ∀ r ∈ b.routesOf o, r.subscription = inboxSubscription → r.expression = inbox
  queued : ∀ g, b.IsQueued o g → g.header.control = inboxSubscription →
    Topic.selects inbox g.topic = true

/-- If the client asks for anything under the id of inboxes, it is this inbox. -/
def AsksInbox (o : ClientId) (inbox : String) (op : Operation) : Prop :=
  ∀ f, op = .route o f → ∀ q, request? f = some q → q.subscription = inboxSubscription →
    q.expression = inbox

theorem sealed_ofSettings (settings : BrokerSettings) (o : ClientId) (inbox : String) :
    (ofSettings settings).Sealed o inbox where
  routes r hr := by
    rw [(wellFormed_ofSettings settings).routesOf_eq_nil rfl] at hr
    exact absurd hr List.not_mem_nil
  queued g hg := by
    obtain ⟨k, hk, -⟩ := hg
    exact nomatch hk

theorem Sealed.perform (h : b.Sealed o inbox) (hwell : b.WellFormed) {op : Operation}
    (hop : AsksInbox o inbox op) : (b.perform op).1.Sealed o inbox where
  routes r hr hid := by
    rcases hwell.mem_routesOf_of_perform hr with hr | ⟨f, rfl, hgranted⟩
    · exact h.routes r hr hid
    · obtain ⟨q, hq, rfl, -⟩ := granted_mem hgranted
      exact hop f rfl q hq hid
  queued g hg hid := by
    rcases hwell.isQueued_of_perform hg with hg | ⟨sender, f, -, id, hsubscription, rfl⟩
    · exact h.queued g hg hid
    · rw [subscriptionsFor_eq_routesOf] at hsubscription
      obtain ⟨r, hr, rfl⟩ := List.mem_map.mp hsubscription
      obtain ⟨hmem, hselects⟩ := List.mem_filter.mp hr
      rw [← h.routes r hmem hid]
      exact (of_decide_eq_true hselects).2

theorem Sealed.run {ops : List Operation} (h : b.Sealed o inbox) (hwell : b.WellFormed)
    (hops : ∀ op ∈ ops, AsksInbox o inbox op) : (b.run ops).Sealed o inbox :=
  hwell.run_keeps (P := fun b' => b'.Sealed o inbox) h fun _ hwell' h' op hop =>
    h'.perform hwell' (hops op hop)

end Broker

namespace Connection

variable {appName inboxId : String}

/-- The inbox of any application. As an expression it selects the topic that is the inbox itself and
nothing else; it is a topic that may be used if and only if the name has at most 89 bytes. With a
longer name there is no connection, and nothing is tried on the network; with any other the first
thing that a connection asks for is a stream, and requests may name the inbox. For a frame that is
addressed to the inbox the route to another inbox might as well not be there, and a client with
another inbox never gets it under the id of inboxes, whatever the names of the applications are. -/
theorem inbox_private (happ : isAppName appName = true) (hid : IsInboxId inboxId) :
    let inbox := inboxOf appName inboxId
    (∀ topic, Topic.selects inbox topic = true ↔ topic = inbox) ∧
    (∀ what, Topic.validate what inbox = .ok () ↔ appName.utf8ByteSize ≤ 89) ∧
    (89 < appName.utf8ByteSize →
      (∀ settings, ∃ misuse, create appName settings inboxId = .error (.invalidArgument misuse) ∧
        ∀ address, Address.parse settings.address = .ok address →
          misuse = .longTopic "inbox" (appName.utf8ByteSize + 39)) ∧
      ∀ (sim : Simulation) (name : String) (settings : ClientSettings), sim.nextKey < 16 ^ 32 →
        ∃ misuse, sim.connect name appName settings = (sim, .error (.invalidArgument misuse))) ∧
    (appName.utf8ByteSize ≤ 89 →
      (∀ settings address, Address.parse settings.address = .ok address →
        ∃ c, create appName settings inboxId = .ok c ∧ c.inbox = inbox ∧
          (Conversation.start c).activity.map Activity.demand = some .connect) ∧
      ∀ h : Header, 1 ≤ h.topic.utf8ByteSize → h.topic.utf8ByteSize ≤ 128 →
        h.replyTopic = some inbox → h.validate = .ok ()) ∧
    ∀ otherName otherId, isAppName otherName = true → IsInboxId otherId → otherId ≠ inboxId →
      ∀ (settings : BrokerSettings) (ops : List Broker.Operation) (o : ClientId),
        let b := (Broker.ofSettings settings).run ops
        let other := inboxOf otherName otherId
        (∀ sender f k, f.topic = inbox → b.client? o = some k →
          ∃ k', (b.route sender f).1.client? o = some k' ∧ k'.outbox =
            k.outbox.offer (b.copiesBeside o (.forward other inboxSubscription o) f)) ∧
        ((∀ op ∈ ops, Broker.AsksInbox o other op) → ∀ g, b.IsQueued o g →
          g.header.control = inboxSubscription → g.topic = other ∧ g.topic ≠ inbox) := by
  intro inbox
  refine ⟨fun topic => selects_inbox_iff happ hid.isAppName, validate_inboxOf hid, ?_, ?_, ?_⟩
  · intro hlong
    refine ⟨create_of_long happ hid hlong, fun sim name settings hkey => ?_⟩
    obtain ⟨misuse, hrefused, -⟩ :=
      create_of_long happ (isInboxId_simulated hkey) hlong settings
    exact ⟨misuse, by rw [Simulation.connect, hrefused]⟩
  · intro hshort
    refine ⟨fun settings address hparse => ?_, fun h hpos hle hreply => ?_⟩
    · obtain ⟨c, hc⟩ := create_of_short happ hid hshort hparse
      exact ⟨c, hc, (create_eq_ok hc).2, rfl⟩
    · have hfits := Topic.validate_eq_ok_iff.mp ((validate_inboxOf hid "reply topic").mpr hshort)
      have hinbox : ∀ r ∈ h.replyTopic, r = inbox := by
        intro r hr
        rw [hreply] at hr
        exact (Option.some.inj hr).symm
      refine Header.validate_eq_ok_iff.mpr ⟨hpos, hle, fun r hr => ?_, fun r hr => ?_, fun _ => ?_⟩
      · exact hinbox r hr ▸ hfits.1
      · exact hinbox r hr ▸ hfits.2
      · rw [hreply]
        rfl
  · intro otherName otherId hother hotherId hne settings ops o b other
    have hapart : inbox ≠ other := fun heq => hne ((inboxOf_inj happ hother).mp heq).2.symm
    have hwell : b.WellFormed := (Broker.wellFormed_ofSettings settings).run ops
    refine ⟨fun sender f k htopic hk => ?_, fun hops g hg hunder => ?_⟩
    · refine hwell.route_outbox_beside sender hk (Bool.eq_false_iff.mpr fun hselects => hapart ?_)
      rw [← htopic]
      exact (selects_inbox_iff hother hotherId.isAppName).mp hselects
    · have hsealed : b.Sealed o other :=
        (Broker.sealed_ofSettings settings o other).run (Broker.wellFormed_ofSettings settings) hops
      have htopic := (selects_inbox_iff hother hotherId.isAppName).mp (hsealed.queued g hg hunder)
      exact ⟨htopic, fun hsame => hapart (hsame.symm.trans htopic)⟩

/-- Two applications, the name of one a prefix of the other's, have announced their inboxes. -/
def bothAnnounced : List Broker.Operation :=
  [.register "a" 4, .register "b" 4,
    .route 1 (.ofPayload (.forTopic helloTopic)
      (hello (inboxOf "app" (Simulation.inboxId 1))).encode),
    .route 2 (.ofPayload (.forTopic helloTopic)
      (hello (inboxOf "apple" (Simulation.inboxId 2))).encode)]

def addressed : Frame := .ofPayload (.forTopic (inboxOf "app" (Simulation.inboxId 1))) []

theorem inbox_private_prefixed :
    isAppName "app" = true ∧ IsInboxId (Simulation.inboxId 1) ∧
      let b := (Broker.ofSettings {}).run bothAnnounced
      ((b.route 2 addressed).1.client? 1).map (·.outbox.frames) = some [addressed.tagged 0] ∧
      ∃ k k', b.client? 2 = some k ∧ (b.route 2 addressed).1.client? 2 = some k' ∧
        k'.outbox = k.outbox.offer [] := by
  have happ : isAppName "app" = true := by decide
  have hid : IsInboxId (Simulation.inboxId 1) := isInboxId_simulated (by decide)
  refine ⟨happ, hid, by decide +kernel, ?_⟩
  have hsome : (((Broker.ofSettings {}).run bothAnnounced).client? 2).isSome = true := by
    decide +kernel
  obtain ⟨k, hk⟩ := Option.isSome_iff_exists.mp hsome
  obtain ⟨-, -, -, -, hapart⟩ := inbox_private happ hid
  obtain ⟨hbeside, -⟩ := hapart "apple" (Simulation.inboxId 2) (by decide)
    (isInboxId_simulated (by decide)) (by decide) {} bothAnnounced 2
  obtain ⟨k', hk', houtbox⟩ := hbeside 2 addressed k rfl hk
  have hnone : ((Broker.ofSettings {}).run bothAnnounced).copiesBeside 2
      (.forward (inboxOf "apple" (Simulation.inboxId 2)) inboxSubscription 2) addressed = [] := by
    decide +kernel
  rw [hnone] at houtbox
  exact ⟨k, k', hk, hk', houtbox⟩

end Connection

end TopicBus
