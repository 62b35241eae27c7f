import TopicBus.Proofs.Connection.Replay
import TopicBus.Proofs.Connection.Sends

/-!
A connection whose `subscribe` has given an id. Until the ids come round, the subscription stays in
its table, and the attached stream has asked for it. All else on a stream is short and asks for
nothing else under that id, but for the messages of the application itself (`ownTerms`): these are
short if the application keeps to the limit, and ask for nothing else if it leaves the id alone
(`Subscribed.stream`, `Published.stream`).
-/

namespace TopicBus

open Control

/-- An id is for one expression only. -/
def Sole (id : UInt32) (expression : String) (other : UInt32) (named : String) : Prop :=
  other = id → named = expression

/-- A frame with this topic and payload is on a stream. -/
def Carried (log : List (List UInt8)) (m : String × List UInt8) : Prop :=
  ∃ bytes ∈ log, ∃ f : Frame, f.SentAs bytes ∧ (f.topic, f.payload) = m

theorem carried_of_mem {fs : List Frame} {log : List (List UInt8)}
    (h : List.Forall₂ Frame.SentAs fs log) {f : Frame} (hmem : f ∈ fs) :
    Carried log (f.topic, f.payload) := by
  induction h with
  | nil => nomatch hmem
  | cons hf _ ih =>
    rcases List.mem_cons.mp hmem with rfl | hmem
    · exact ⟨_, List.mem_cons_self, _, hf, rfl⟩
    · obtain ⟨bytes, hbytes, hcarried⟩ := ih hmem
      exact ⟨bytes, List.mem_cons_of_mem _ hbytes, hcarried⟩

namespace Conversation

variable {maxPayload : Nat} {id : UInt32} {expression topic : String} {d : Document}
  {own : List (String × List UInt8)} {x y : Conversation}

/-- A connection on which `subscribe` has given an id, at some time, and the messages that its
application has asked it to send, before or after. Its ids have not come round. -/
inductive Subscribed (expression : String) (id : UInt32) :
    List (String × List UInt8) → Conversation → Prop
  | intro {appName inboxId : String} {settings : ClientSettings} {c : Connection}
      (hcreate : Connection.create appName settings inboxId = .ok c)
      {before after : List Happening} {given : Conversation}
      (hgives : ((start c).run before).Gives (.subscribe expression) (.subscribed id) given)
      (htaken : (start c).taken before + given.taken after + 1 < 2 ^ 32 - 1) :
      Subscribed expression id (messages (asked (before ++ after))) (given.run after)

/-- A connection on which `publish` has been done last, and the messages that its application has
asked it to send before. -/
inductive Published (topic : String) (d : Document) :
    List (String × List UInt8) → Conversation → Prop
  | intro {appName inboxId : String} {settings : ClientSettings} {c : Connection}
      (hcreate : Connection.create appName settings inboxId = .ok c)
      {before : List Happening} {y : Conversation}
      (hgives : ((start c).run before).Gives (.publish topic d) .done y) :
      Published topic d (messages (asked before)) y

theorem asked_append (hs more : List Happening) : asked (hs ++ more) = asked hs ++ asked more :=
  List.filterMap_append

/-- A conversation stays sound while `subscribe` gives the next id. -/
theorem sound_of_gives {p : Terms} {next : UInt32} (h : x.Sound p next)
    (hany : x.Sound anyTerms next) (hnext : next.toNat + 1 < 2 ^ 32)
    (hadmits : p.Admits id expression)
    (hgives : x.Gives (.subscribe expression) (.subscribed id) y) :
    y.Sound p (SubscriptionTable.idAfter id) ∧ y.Sound anyTerms (SubscriptionTable.idAfter id) := by
  obtain ⟨-, rfl, hlast⟩ := subscribe_gives hany hgives
  obtain ⟨hrest, now, replies, hnone, rfl, -⟩ := hgives
  have hasked : asked (.begin now (.subscribe expression) :: replies) =
      [.subscribe expression] := by
    rw [asked_cons, hnone]
    rfl
  have hcalls : calls (.begin now (.subscribe expression) :: replies) = 1 := by
    rw [calls, hasked]
    rfl
  have htaken := hany.taken_le_calls (.begin now (.subscribe expression) :: replies)
  obtain ⟨last, hlater, heq⟩ := hany.nextId_run (.begin now (.subscribe expression) :: replies)
    (by omega)
  obtain rfl : SubscriptionTable.idAfter id = last :=
    hlast.nextId.symm.trans hlater.connection.nextId
  refine ⟨?_, hlater⟩
  have hafter := toNat_idAfter id hnext
  have hrun := h.run hany (.begin now (.subscribe expression) :: replies) (by omega) ?_ ?_
  · rwa [hlast.nextId] at hrun
  · rw [hasked]
    intro op hop
    obtain rfl := List.mem_singleton.mp hop
    exact fun m hm => absurd hm (Option.not_mem_none m)
  · rw [hasked, hlast.nextId]
    intro other name hname hge hlt
    obtain rfl := Operation.subscribe.inj (List.mem_singleton.mp hname)
    obtain rfl : other = id := UInt32.toNat_inj.mp (by omega)
    exact hadmits

/-- From before the subscription until now. -/
theorem Subscribed.sound (h : x.Subscribed expression id own) :
    id.toNat < 0x80000000 ∧ id ≠ 0 ∧ ∃ (hzero : ∀ inbox, Sole id expression 0 inbox)
      (next : UInt32), x.Sound (ownTerms own (Sole id expression)
        (fun kept name => kept = id ∧ name = expression) hzero) next := by
  obtain @⟨_, _, _, c, hc, before, after, given, hgives, htaken⟩ := h
  obtain ⟨next, hany⟩ := exists_sound hc before
  obtain ⟨hrest, rfl, hlast⟩ := subscribe_gives hany hgives
  have hnext := toNat_nextId hc before (by omega)
  rw [hany.connection.nextId] at hnext
  have hid : id ≠ 0 := by
    rintro rfl
    have hnone : (0 : UInt32).toNat = 0 := rfl
    omega
  have hzero : ∀ inbox, Sole id expression 0 inbox := fun _ heq => absurd heq.symm hid
  refine ⟨hlast.fits, hid, hzero, ?_⟩
  have hafter := toNat_idAfter id (by omega)
  -- Before: all ids are smaller.
  let p := ownTerms (messages (asked (before ++ after))) (Sole id expression) (fun _ _ => False)
    hzero
  have hallowed : ∀ op ∈ asked (before ++ after), ∀ m ∈ op.message?, p.allows m.1 m.2 :=
    fun op hop m hm => .inl (mem_messages hop hm)
  rw [asked_append] at hallowed
  have hbefore := sound_of_create (p := p) hc (fun _ _ => not_false) before (by omega)
    (fun op hop => hallowed op (List.mem_append_left _ hop))
  rw [hany.connection.nextId] at hbefore
  specialize hbefore fun other name hlt heq => absurd (heq ▸ hlt) (Nat.lt_irrefl _)
  obtain ⟨hgiven, hgivenAny⟩ := sound_of_gives hbefore hany (by omega)
    ⟨fun _ => rfl, fun _ => not_false⟩ hgives
  -- After: all ids are greater.
  have hkept := hgiven.keeping hrest (fun kept name => kept = id ∧ name = expression)
    fun kept name hkeeps => ⟨_, hlast.mem, hkeeps.1.symm, hkeeps.2.symm⟩
  refine ⟨_, hkept.run hgivenAny after (by omega)
    (fun op hop => hallowed op (List.mem_append_right _ hop)) fun other name _ hge _ => ?_⟩
  have hne : other ≠ id := by
    rintro rfl
    omega
  exact ⟨fun heq => absurd heq hne, fun kept hkeeps => hne hkeeps.1⟩

/-- The attached stream in frames: the subscription is asked for, and nothing else under its id if
the application leaves the id alone on this stream. -/
theorem Subscribed.stream (hroom : 1024 ≤ maxPayload) (h : x.Subscribed expression id own)
    (hrest : x.activity = none) {a : Attachment} (ha : x.connection.attached = some a)
    (hown : ∀ m ∈ own, Carried (x.written a.stream) m →
      m.2.length ≤ maxPayload ∧ Respects (Sole id expression) m.1 m.2) :
    ∃ fs : List Frame, List.Forall₂ Frame.SentAs fs (x.written a.stream) ∧
      (∀ f ∈ fs, f.payload.length ≤ maxPayload) ∧ Broker.AskedIn fs expression id ∧
      ∀ other, Broker.AskedIn fs other id → other = expression := by
  obtain ⟨hfits, hid, hzero, next, hsound⟩ := h.sound
  obtain ⟨fs, hfs, hallowed⟩ := exists_frames (hsound.written a.stream)
  have hkeeps : ∀ f ∈ fs, f.payload.length ≤ maxPayload ∧
      Respects (Sole id expression) f.topic f.payload := by
    intro f hf
    rcases hallowed f hf with hmine | ⟨hshort, hrespects⟩
    · exact hown _ hmine (carried_of_mem hfs hf)
    · exact ⟨Nat.le_trans hshort hroom, hrespects⟩
  refine ⟨fs, hfs, fun f hf => (hkeeps f hf).1, ?_, ?_⟩
  · obtain ⟨s, hs, rfl, rfl⟩ := hsound.connection.kept id expression ⟨rfl, rfl⟩
    obtain ⟨-, hentries⟩ := hsound.rest hrest a ha
    obtain ⟨bytes, hmem, hasks⟩ := (hentries s hs hfits).resolve_right not_false
    obtain ⟨f, hf, hq⟩ := exists_frame_of_asks hfs hmem hasks
    exact ⟨f, hf, _, hq, rfl, rfl⟩
  · rintro other ⟨f, hf, q, hq, rfl, hsame⟩
    exact (hkeeps f hf).2 f rfl rfl q hq hsame

/-- The id leads to the subscription. -/
theorem Subscribed.expression? (h : x.Subscribed expression id own) :
    ∃ s, x.connection.subscriptions.find? id = some s ∧ s.expression = expression := by
  obtain ⟨-, -, hzero, next, hsound⟩ := h.sound
  obtain ⟨s, hs, hsame, -⟩ := hsound.connection.kept id expression ⟨rfl, rfl⟩
  cases hfind : x.connection.subscriptions.find? id with
  | none =>
    have hnone := List.find?_eq_none.mp hfind s hs
    exact absurd (decide_eq_true hsame) hnone
  | some found =>
    rw [SubscriptionTable.find?] at hfind
    have hfound := List.find?_some hfind
    exact ⟨found, rfl, hsound.connection.named found (List.mem_of_find?_eq_some hfind)
      (of_decide_eq_true hfound)⟩

/-- The attached stream in frames: what has been published is the last. None is over a limit if the
application keeps to it on this stream. -/
theorem Published.stream (hroom : 1024 ≤ maxPayload) (h : y.Published topic d own)
    (hd : d.encode.length ≤ maxPayload)
    (hown : ∀ b, y.connection.attached = some b → ∀ m ∈ own,
      Carried (y.written b.stream) m → m.2.length ≤ maxPayload) :
    ∃ b gs f, y.connection.attached = some b ∧
      List.Forall₂ Frame.SentAs (gs ++ [f]) (y.written b.stream) ∧
      (∀ g ∈ gs ++ [f], g.payload.length ≤ maxPayload) ∧ f.topic = topic ∧
      f.payload = d.encode ∧ ∃ bytes, f.SentAs bytes := by
  obtain @⟨_, _, _, c, hc, before, _, hgives⟩ := h
  let p := ownTerms ((topic, d.encode) :: messages (asked before)) (fun _ _ => True)
    (fun _ _ => False) fun _ => trivial
  have hadmits : ∀ id name, p.Admits id name := fun _ _ => ⟨trivial, fun _ => not_false⟩
  have hstart := sound_start (p := p) hc fun _ _ => not_false
  obtain ⟨first, hbefore⟩ := hstart.run_of_admits hadmits before
    fun op hop m hm => .inl (List.mem_cons_of_mem _ (mem_messages hop hm))
  obtain ⟨next, hany⟩ := exists_sound hc before
  obtain ⟨b, earlier, bytes, f, hb, hwritten, hf, htopic, hpayload, -⟩ := publish_gives hany hgives
  obtain ⟨-, now, replies, hnone, rfl, -⟩ := hgives
  have hasked : asked (.begin now (.publish topic d) :: replies) = [.publish topic d] := by
    rw [asked_cons, hnone]
    rfl
  obtain ⟨last, hsound⟩ := hbefore.run_of_admits hadmits
    (.begin now (.publish topic d) :: replies) <| by
      rw [hasked]
      intro op hop m hm
      obtain rfl := List.mem_singleton.mp hop
      obtain rfl := Option.some.inj hm
      exact .inl List.mem_cons_self
  have hall := hsound.written b.stream
  rw [hwritten] at hall
  obtain ⟨gs, hgs, hallowed⟩ := exists_frames fun x hx => hall x (List.mem_append_left _ hx)
  have hsent : List.Forall₂ Frame.SentAs (gs ++ [f]) (earlier ++ [bytes]) :=
    List.rel_append hgs (.cons hf .nil)
  rw [← hwritten] at hsent
  refine ⟨b, gs, f, hb, hsent, ?_, htopic, hpayload, bytes, hf⟩
  intro g hg
  have hcarried := carried_of_mem hsent hg
  rcases List.mem_append.mp hg with hg | hg
  · rcases hallowed g hg with hmine | ⟨hshort, -⟩
    · rcases List.mem_cons.mp hmine with hsame | hmine
      · obtain ⟨-, hsame⟩ := Prod.mk.inj hsame
        exact hsame ▸ hd
      · exact hown b hb _ hmine hcarried
    · exact Nat.le_trans hshort hroom
  · obtain rfl := List.mem_singleton.mp hg
    exact hpayload ▸ hd

end Conversation

end TopicBus
