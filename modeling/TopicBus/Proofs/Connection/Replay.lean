import TopicBus.Proofs.Broker.Heard
import TopicBus.Proofs.Connection.Reading

/-!
Subscriptions survive the streams that they were made on. Whatever befalls a connection, when it is
at rest with a stream, that stream has told the broker of the inbox and of every subscription, and a
broker that has handled it keeps a route for each of them, once (`subscriptions_survive`).
-/

namespace TopicBus

open Control

/-- A message that asks for nothing but what its ids may stand for. -/
def Respects (names : UInt32 → String → Prop) (topic : String) (payload : List UInt8) : Prop :=
  ∀ f : Frame, f.topic = topic → f.payload = payload →
    ∀ q, request? f = some q → names q.subscription q.expression

/-- The terms of a connection whose application sends messages of its own. All others are short and
ask for nothing but what their ids may stand for. -/
def ownTerms (own : List (String × List UInt8)) (names keeps : UInt32 → String → Prop)
    (hzero : ∀ inbox, names 0 inbox) : Terms where
  allows topic payload :=
    (topic, payload) ∈ own ∨ payload.length ≤ 1024 ∧ Respects names topic payload
  names := names
  keeps := keeps
  allows_hello h := by
    refine .inr ⟨length_hello_le h.2, fun f htopic hpayload q hq => ?_⟩
    rw [request?_hello htopic hpayload h, Option.some.injEq] at hq
    exact hq ▸ hzero _
  allows_subscribe hd h hnamed := by
    refine .inr ⟨length_subscribe_le hd h.2, fun f htopic hpayload q hq => ?_⟩
    rw [request?_subscribe hd htopic hpayload h, Option.some.injEq] at hq
    exact hq ▸ hnamed

namespace Conversation

/-- The messages that operations are to send. -/
def messages (ops : List Operation) : List (String × List UInt8) :=
  ops.filterMap Operation.message?

theorem mem_messages {ops : List Operation} {op : Operation} (hop : op ∈ ops)
    {m : String × List UInt8} (hm : m ∈ op.message?) : (m.1, m.2) ∈ messages ops :=
  List.mem_filterMap.mpr ⟨op, hop, hm⟩

/-- The frames of a stream. -/
theorem exists_frames {p : Terms} {log : List (List UInt8)} (h : ∀ bytes ∈ log, Sendable p bytes) :
    ∃ fs, List.Forall₂ Frame.SentAs fs log ∧ ∀ f ∈ fs, p.allows f.topic f.payload := by
  induction log with
  | nil => exact ⟨[], .nil, List.forall_mem_nil _⟩
  | cons bytes log ih =>
    obtain ⟨⟨f, hf, hallows⟩, hrest⟩ := List.forall_mem_cons.mp h
    obtain ⟨fs, hfs, hall⟩ := ih hrest
    exact ⟨f :: fs, .cons hf hfs, List.forall_mem_cons.mpr ⟨hallows, hall⟩⟩

theorem exists_frame_of_asks {fs : List Frame} {log : List (List UInt8)}
    (h : List.Forall₂ Frame.SentAs fs log) {bytes : List UInt8} (hmem : bytes ∈ log) {q : Request}
    (hasks : Asks bytes q) : ∃ f ∈ fs, request? f = some q := by
  induction h with
  | nil => nomatch hmem
  | cons hf _ ih =>
    rcases List.mem_cons.mp hmem with rfl | hmem
    · obtain ⟨g, hg, hq⟩ := hasks
      obtain rfl := hf.unique hg
      exact ⟨_, List.mem_cons_self, hq⟩
    · obtain ⟨f, hf, hq⟩ := ih hmem
      exact ⟨f, List.mem_cons_of_mem _ hf, hq⟩

/-- A stream that introduces a connection and replays its subscriptions, in frames. -/
theorem exists_hello {fs : List Frame} {log : List (List UInt8)}
    (h : List.Forall₂ Frame.SentAs fs log) {inbox : String} (hinbox : Introduces log inbox)
    {entries : List Subscription} (hentries : ∀ s ∈ entries, Replays log s) :
    ∃ hello rest, fs = hello :: rest ∧ request? hello = some (.hello inbox) ∧
      ∀ s ∈ entries, ∃ f ∈ rest, request? f = some (.subscribe s.expression s.id) := by
  obtain ⟨bytes, more, rfl, g, hg, hq⟩ := hinbox
  cases h with
  | cons hf hrest =>
    obtain rfl := hf.unique hg
    refine ⟨_, _, rfl, hq, fun s hs => ?_⟩
    obtain ⟨x, hx, hasks⟩ := hentries s hs
    rcases List.mem_cons.mp hx with rfl | hx
    · obtain ⟨g', hg', hq'⟩ := hasks
      obtain rfl := hf.unique hg'
      rw [hq] at hq'
      nomatch hq'
    · exact exists_frame_of_asks hrest hx hasks

/-- All ids fit in a message. -/
def fittingTerms (hs : List Happening) : Terms :=
  ownTerms (messages (asked hs)) (fun id _ => id.toNat < 2 ^ 31) (fun _ _ => False) fun _ => by
    decide

theorem sound_fitting {appName inboxId : String} {settings : ClientSettings} {c : Connection}
    (hc : Connection.create appName settings inboxId = .ok c) (hs : List Happening)
    (hcalls : calls hs < 2 ^ 31) : ((start c).run hs).Sound (fittingTerms hs)
      ((start c).run hs).connection.subscriptions.nextId := by
  have hany := sound_start (p := anyTerms) hc fun _ _ => id
  have htaken := hany.taken_le_calls hs
  have hnext := toNat_nextId hc hs (by omega)
  refine sound_of_create hc (fun _ _ => id) hs (by omega) ?_ ?_
  · exact fun op hop m hm => .inl (mem_messages hop hm)
  · exact fun id _ hlt => Nat.lt_of_lt_of_le hlt (by omega)

/-- A connection at rest that has a stream has told it of its inbox, in the first frame, and of all
its subscriptions, whatever has failed before: connects, writes, requests that ran out of time,
streams that ended. The frames are heard as they were written, and a broker that has handled them
without refusing anything has one route for the inbox and one for each subscription. -/
theorem subscriptions_survive (appName inboxId : String) (settings : ClientSettings)
    (c : Connection) (hc : Connection.create appName settings inboxId = .ok c)
    (hs : List Happening) (hcalls : calls hs < 2 ^ 31) (a : Attachment)
    (hrest : ((start c).run hs).activity = none)
    (hattached : ((start c).run hs).connection.attached = some a) :
    let v := (start c).run hs
    ∃ fs : List Frame,
      List.Forall₂ (fun f bytes => f.encode = .ok bytes) fs (v.written a.stream) ∧
      (∃ hello rest, fs = hello :: rest ∧ request? hello = some (.hello v.connection.inbox) ∧
        ∀ s ∈ v.connection.subscriptions.entries,
          ∃ f ∈ rest, request? f = some (.subscribe s.expression s.id)) ∧
      (∀ maxPayload, 1024 ≤ maxPayload →
        (∀ op ∈ asked hs, ∀ m ∈ op.message?, m.2.length ≤ maxPayload) →
        ∀ chunks : List (List UInt8), chunks.flatten = (v.written a.stream).flatten →
          heard ((Reader.ofLimit maxPayload).feedAll chunks).2 = fs.map .frame) ∧
      ∀ (broker : BrokerSettings) (ops : List Broker.Operation) (x : ClientId) (k : Client),
        (Broker.ofSettings broker).Healthy x ops →
        ((Broker.ofSettings broker).run ops).client? x = some k →
        (Broker.ofSettings broker).heardFrom x ops = fs →
        let routes := ((Broker.ofSettings broker).run ops).routesOf x
        routes.count (.forward v.connection.inbox 0 x) = 1 ∧
          ∀ s ∈ v.connection.subscriptions.entries,
            routes.count (.forward s.expression s.id x) = 1 := by
  intro v
  have hsound := sound_fitting hc hs hcalls
  obtain ⟨fs, hfs, hpayloads⟩ := exists_frames (hsound.written a.stream)
  obtain ⟨hinbox, hentries⟩ := hsound.rest hrest a hattached
  have hreplays : ∀ s ∈ v.connection.subscriptions.entries, Replays (v.written a.stream) s := by
    intro s hs
    exact (hentries s hs (hsound.connection.named s hs)).resolve_right id
  obtain ⟨hello, rest, rfl, hhello, hsubscribed⟩ := exists_hello hfs hinbox hreplays
  refine ⟨_, hfs.imp fun _ _ h => h.encodes, ⟨hello, rest, rfl, hhello, hsubscribed⟩, ?_, ?_⟩
  · intro maxPayload hroom hwithin chunks hchunks
    refine Frame.SentAs.heard_sent hfs ?_ hchunks
    intro f hf
    rcases hpayloads f hf with hmine | ⟨hshort, -⟩
    · obtain ⟨op, hop, hm⟩ := List.mem_filterMap.mp hmine
      exact hwithin op hop _ hm
    · exact Nat.le_trans hshort hroom
  · intro broker ops x k hhealthy hk hheard
    refine ⟨Broker.count_routesOf hhealthy hk ?_, fun s hs => Broker.count_routesOf hhealthy hk ?_⟩
    · rw [hheard]
      exact ⟨hello, List.mem_cons_self, _, hhello, rfl, rfl⟩
    · obtain ⟨f, hf, hq⟩ := hsubscribed s hs
      rw [hheard]
      exact ⟨f, List.mem_cons_of_mem _ hf, _, hq, rfl, rfl⟩

/-! ## A subscription sent twice -/

def plainConnection : Connection where
  appName := "x"
  address := .unix "/bus"
  settings := { address := "unix:///bus" }
  inbox := "x.INBOX.1"
  attached := none
  localEndpoint := ""
  remoteEndpoint := ""
  nextSequence := 1
  subscriptions := .ofCapacity 64
  slot := .empty
  inbound := []
  generation := 0
  isClosed := false

/-- The message is lost with its stream. The subscription is replayed on the next one, and then the
message is sent again. -/
def retried : List Happening :=
  [.reply 0 (.connected 0 "" ""), .reply 0 .written, .begin 0 (.subscribe "T"),
    .reply 0 (.writeFailed ⟨.brokenPipe, none⟩), .reply 0 (.connected 1 "" ""), .reply 0 .written,
    .reply 0 .written, .reply 0 .written]

def messageOf (topic : String) (sequence : UInt32) (d : Document) : Frame :=
  .ofDocument { Header.forTopic topic with sequence := sequence } d

def retriedFrames : List Frame :=
  let subscription := (Document.empty.setString "topic" "T").setInt32 "route_id" 1
  [messageOf helloTopic 3 (hello "x.INBOX.1"), messageOf subscribeTopic 4 subscription,
    messageOf subscribeTopic 2 subscription]

def retriedRouting : List Broker.Operation :=
  .register "x" 4 :: retriedFrames.map (.route 1)

/-- The frame among the results of a decoder. -/
def frame? : Decoded → Option Frame
  | .frame f => some f
  | _ => none

theorem subscriptions_survive_retried :
    Connection.create "x" { address := "unix:///bus" } "1" = .ok plainConnection ∧
      calls retried < 2 ^ 31 ∧ ((start plainConnection).run retried).activity = none ∧
      (∃ a, ((start plainConnection).run retried).connection.attached = some a) ∧
      (Broker.ofSettings {}).Healthy 1 retriedRouting ∧
      (((Broker.ofSettings {}).run retriedRouting).routesOf 1).count (.forward "T" 1 1) = 1 := by
  have hc : Connection.create "x" { address := "unix:///bus" } "1" = .ok plainConnection := rfl
  have hcalls : calls retried < 2 ^ 31 := by decide
  have hrest : ((start plainConnection).run retried).activity = none := rfl
  have hstream : ((start plainConnection).run retried).connection.attached.map (·.stream) =
      some 1 := rfl
  have hhealthy : (Broker.ofSettings {}).Healthy 1 retriedRouting := by decide +kernel
  have hclient : (((Broker.ofSettings {}).run retriedRouting).client? 1).isSome = true := by
    decide +kernel
  have hfrom : (Broker.ofSettings {}).heardFrom 1 retriedRouting = retriedFrames := by
    decide +kernel
  have hframes : (heard ((Reader.ofLimit 1024).feedAll
      [(((start plainConnection).run retried).written 1).flatten]).2).filterMap frame? =
        retriedFrames := by
    decide +kernel
  have hentries : ((start plainConnection).run retried).connection.subscriptions.entries =
      [⟨1, "T", 0⟩] := by
    decide +kernel
  obtain ⟨a, ha, hone⟩ := Option.map_eq_some_iff.mp hstream
  obtain ⟨k, hk⟩ := Option.isSome_iff_exists.mp hclient
  obtain ⟨fs, -, -, hheard, hroutes⟩ := subscriptions_survive "x" "1" { address := "unix:///bus" }
    plainConnection hc retried hcalls a hrest ha
  have hsame : fs = retriedFrames := by
    have hall := hheard 1024 (Nat.le_refl _) (by decide)
      [(((start plainConnection).run retried).written a.stream).flatten] (List.append_nil _)
    rw [hone] at hall
    rw [hall, List.filterMap_map] at hframes
    rw [← hframes]
    exact (List.filterMap_some).symm
  obtain ⟨-, hone⟩ := hroutes {} retriedRouting 1 k hhealthy hk (hfrom.trans hsame.symm)
  rw [hentries] at hone
  exact ⟨hc, hcalls, hrest, ⟨a, ha⟩, hhealthy, hone _ (List.mem_singleton.mpr rfl)⟩

end Conversation

end TopicBus
