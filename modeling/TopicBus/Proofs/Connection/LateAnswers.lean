import TopicBus.Proofs.Connection.Requests

/-!
A response that comes when its request has given up. Nothing but the inbox ties a response to a
request, so what counts is the moment when it is read: a later request gives the first answer that
is handled after it began, be it meant for this request or not, and no other
(`response_is_first_handled`).
-/

namespace TopicBus

open Control

namespace Conversation

open Connection

/-- A request that is over because its time has run out. -/
structure TimesOut (v : Conversation) (call : List Occurrence) : Prop where
  calls : v.Calls call
  finished : (v.meetAll call).activity = none
  outcome : (v.meetAll call).outcome = some (.failed .timeout)

variable {inbox : String} {p : Fault → Prop} {v : Conversation}

theorem isRequesting_settle {c : Connection} {next : Connection × Progress}
    (h : Keeps p false c next) : (v.settle next).isRequesting = false := by
  cases h with
  | waiting ha => exact ha
  | failed => rfl
  | given => rfl

/-- A request is in progress only after one has been begun. -/
theorem Kept.isRequesting_meet (h : v.Kept inbox fun _ => True) (hidle : v.isRequesting = false)
    {x : Occurrence} (hx : ∀ op ∈ x.operation?, op.isRequest = false) :
    (v.meet x).isRequesting = false := by
  have hmeets := h.meets (fun _ _ => trivial) (x := x) fun _ _ => trivial
  generalize v.meet x = w at hmeets ⊢
  cases hmeets with
  | read => exact hidle
  | ignored => exact hidle
  | begun hop hkeeps =>
    rw [hx _ hop] at hkeeps
    exact isRequesting_settle hkeeps
  | moved ha _ hkeeps =>
    rw [← isRequesting_of_activity ha, hidle] at hkeeps
    exact isRequesting_settle hkeeps
  | woken ha => cases hidle.symm.trans (isRequesting_of_activity ha)

theorem Kept.isRequesting_meetAll (h : v.Kept inbox fun _ => True)
    (hidle : v.isRequesting = false) {xs : List Occurrence}
    (hxs : ∀ x ∈ xs, ∀ op ∈ x.operation?, op.isRequest = false) :
    (v.meetAll xs).isRequesting = false := by
  induction xs generalizing v with
  | nil => exact hidle
  | cons x xs ih =>
    obtain ⟨hx, hrest⟩ := List.forall_mem_cons.mp hxs
    exact ih (h.meet (fun _ _ => trivial) fun _ _ => trivial) (h.isRequesting_meet hidle hx) hrest

/-- While no request is in progress an answer leaves no trace. -/
theorem Kept.meet_answer (h : v.Kept inbox p) (hidle : v.isRequesting = false) {f : Frame}
    (hf : isAnswer f = true) : v.meet (.straggler f) = v := by
  have hslot : v.connection.slot ≠ .waiting := by
    rw [h.idle hidle]
    nofun
  rw [Conversation.meet, accept_of_answer hslot hf]

/-- The first answer that a waiting request gets is what it gives. -/
theorem step_woken_accept {deadline : Nat} {f : Frame}
    (hwaits : v.activity = some (.awaitingResponse deadline))
    (hslot : v.connection.slot = .waiting) (hf : isAnswer f = true) (now : Nat) :
    ((v.meet (.straggler f)).step (.reply now .woken)).outcome = some (.ofResponse f) := by
  have hanswered : (v.meet (.straggler f)).connection.slot = .answered f := by
    rw [Conversation.meet, slot_accept, hslot, ResponseSlot.handle, if_pos hf]
  have hstill : (v.meet (.straggler f)).activity = some (.awaitingResponse deadline) := hwaits
  exact (step_woken hstill hanswered now).2

/-- After a request that has timed out, a later one gives the document of the first answer that is
handled after it began, so of none that was handled before; and an answer that comes before the next
request is begun leaves no trace. Whatever is sent in response to a request of this connection comes
by the inbox as an answer, and a request that waits gives the first one that it gets. -/
theorem response_is_first_handled (appName inboxId : String) (settings : ClientSettings)
    (c : Connection) (hc : Connection.create appName settings inboxId = .ok c)
    (before first between second : List Occurrence) (d : Document)
    (hfirst : ((start c).meetAll before).TimesOut first)
    (hsecond : ((start c).meetAll (before ++ first ++ between)).GetsResponse second
      (.responded d)) :
    (∃ quiet f rest, (start c).history (before ++ first ++ between ++ second) =
        (start c).history (before ++ first ++ between) ++ (quiet ++ f :: rest) ∧
      (∀ g ∈ quiet, isAnswer g = false) ∧ isAnswer f = true ∧ f.document = .ok d) ∧
    (∀ gap f, (∀ x ∈ gap, ∀ op ∈ x.operation?, op.isRequest = false) → isAnswer f = true →
      let v := (start c).meetAll (before ++ first ++ gap)
      v.meet (.straggler f) = v) ∧
    (∀ (otherName otherId : String) (theirs : ClientSettings) (other : Connection)
      (hs : List Happening) (request : Header) (r : Document) (y : Conversation),
      Connection.create otherName theirs otherId = .ok other →
      request.replyTopic = some c.inbox →
      ((start other).run hs).Gives (.respond request r) .done y →
      ∃ g, y.Says r.encode.length g ∧ g.topic = c.inbox ∧
        isAnswer (g.tagged inboxSubscription) = true) ∧
    ∀ xs deadline f now e, ((start c).meetAll xs).activity = some (.awaitingResponse deadline) →
      ((start c).meetAll xs).connection.slot = .waiting → isAnswer f = true →
      f.document = .ok e →
      ((((start c).meetAll xs).meet (.straggler f)).step (.reply now .woken)).outcome =
        some (.responded e) := by
  refine ⟨?_, ?_, ?_, ?_⟩
  · obtain ⟨quiet, f, rest, hcut, hquiet, hf, hgives⟩ := hsecond.split (kept_meetAll hc _)
    refine ⟨quiet, f, rest, ?_, hquiet, hf, ?_⟩
    · rw [history_append, hcut]
    · unfold Outcome.ofResponse at hgives
      split at hgives
      · next e he => rw [he, Outcome.responded.inj hgives]
      · nomatch hgives
  · intro gap f hgap hf v
    have hover : ((start c).meetAll (before ++ first)).isRequesting = false := by
      rw [meetAll_append]
      exact isRequesting_of_rest hfirst.finished
    have hidle : v.isRequesting = false := by
      change ((start c).meetAll (before ++ first ++ gap)).isRequesting = false
      rw [meetAll_append]
      exact (kept_meetAll hc _).isRequesting_meetAll hover hgap
    exact (kept_meetAll hc _).meet_answer hidle hf
  · intro otherName otherId theirs other hs request r y hother hreply hgives
    obtain ⟨g, bytes, hsays, hg, htopic, hflags, -⟩ :=
      respond_says hother hgives hreply (Nat.le_refl _)
    exact ⟨g, hsays, htopic, (isAnswer_tagged hflags _).trans (by decide)⟩
  · intro xs deadline f now e hwaits hslot hf hdocument
    rw [step_woken_accept hwaits hslot hf, ofResponse_eq hdocument]

/-! ## Two requests -/

def opened : List Occurrence := opening.map .happening

/-- A request that times out. -/
def timedOut : List Occurrence := requesting [.happening .expire]

theorem response_is_first_handled_again :
    ((start plainConnection).meetAll opened).TimesOut timedOut ∧
      ((start plainConnection).meetAll (opened ++ timedOut ++ [.straggler (answer 1)])).GetsResponse
        (answeredTwice 2 3) (.responded (numbered 2)) ∧
      (∃ quiet f rest, (start plainConnection).history
          (opened ++ timedOut ++ [.straggler (answer 1)] ++ answeredTwice 2 3) =
            answer 1 :: (quiet ++ f :: rest) ∧ f.document = .ok (numbered 2)) ∧
      (start plainConnection).meetAll (opened ++ timedOut ++ [.straggler (answer 1)]) =
        (start plainConnection).meetAll (opened ++ timedOut) ∧
      isAnswer (response.tagged 0) = true ∧
      ((((start plainConnection).meetAll (opened ++ requesting [])).meet
        (.straggler (answer 1))).step (.reply 50 .woken)).outcome =
          some (.responded (numbered 1)) := by
  have hc : Connection.create "x" { address := "unix:///bus" } "1" = .ok plainConnection := rfl
  have hother : Connection.create "y" { address := "unix:///bus" } "2" = .ok speakerConnection :=
    rfl
  have hfirst : ((start plainConnection).meetAll opened).TimesOut timedOut :=
    ⟨⟨rfl, _, _, _, _, _, rfl, by decide⟩, rfl, rfl⟩
  have hsecond : ((start plainConnection).meetAll (opened ++ timedOut ++
      [.straggler (answer 1)])).GetsResponse (answeredTwice 2 3) (.responded (numbered 2)) :=
    ⟨⟨rfl, _, _, _, _, _, rfl, by decide⟩, rfl, congrArg some (ofResponse_answer 2), trivial⟩
  obtain ⟨⟨quiet, f, rest, hcut, -, -, hdocument⟩, hdropped, hresponds, htaken⟩ :=
    response_is_first_handled "x" "1" { address := "unix:///bus" } plainConnection hc opened
      timedOut [.straggler (answer 1)] (answeredTwice 2 3) (numbered 2) hfirst hsecond
  obtain ⟨g, hsays, -, hanswer⟩ := hresponds "y" "2" { address := "unix:///bus" }
    speakerConnection subscribing (question.tagged 1).header (numbered 7) (responder question)
    hother rfl gives_responder
  obtain rfl : g = response := hsays.eq_of_getLast? rfl (by decide +kernel) (by decide +kernel)
  have hgone := hdropped [] (answer 1) (List.forall_mem_nil _) (by decide)
  rw [List.append_nil] at hgone
  have hread : (start plainConnection).history (opened ++ timedOut ++ [.straggler (answer 1)]) =
      [answer 1] := rfl
  rw [hread, List.singleton_append] at hcut
  refine ⟨hfirst, hsecond, ⟨quiet, f, rest, hcut, hdocument⟩, ?_, hanswer, ?_⟩
  · rw [meetAll_append]
    exact hgone
  · exact htaken (opened ++ requesting []) 100 (answer 1) 50 (numbered 1) rfl rfl (by decide)
      (document_answer 1)

/-- A request that has timed out, and another one that waits. -/
def askingTwice : List Happening := opening ++
  [.begin 0 (.request "T" .empty 100), .reply 0 .written, .expire,
    .begin 200 (.request "T" .empty 100), .reply 200 .written]

def twiceRequester : Conversation := (start plainConnection).run askingTwice

/-- Both requests have been routed and written before the first one is responded to. -/
def forwardedTwice : List Broker.Operation :=
  forwarded ++ [.route 1 (questionOf 3), .drain 2 1]

/-- A request gives what was sent in response to an earlier one that has timed out, if the broker
forwards this late. -/
theorem late_response_is_given :
    ((start plainConnection).run (askingTwice.take 5)).outcome = some (.failed .timeout) ∧
      heardOn twiceRequester =
        [messageOf helloTopic 1 (hello "x.INBOX.1"), question, questionOf 3] ∧
      (subscriber.connection.receiveAll [outputOn greeted 1 question 2]).callsOf 1 =
        [("T", question.tagged 1)] ∧
      subscriber.Gives (.respond (question.tagged 1).header (numbered 7)) .done
        (responder question) ∧
      heardOn (responder question) =
        [speakerHello, messageOf subscribeTopic 2 (asking "T"), response] ∧
      ((twiceRequester.run [.receive (.bytes (outputOn forwardedTwice 2 response 1))]).step
        (.reply 250 .woken)).outcome = some (.responded (numbered 7)) := by
  have hslot : (twiceRequester.run
      [.receive (.bytes (outputOn forwardedTwice 2 response 1))]).connection.slot =
        .answered (response.tagged 0) := by
    decide +kernel
  have hflat : (numbered 7).nesting ≤ Json.maxNesting := Nat.le_of_ble_eq_true rfl
  have hdocument : (response.tagged 0).document = .ok (numbered 7) :=
    (Document.decode_encode_eq (wellFormed_numbered 7)).trans (if_pos hflat)
  refine ⟨rfl, by decide +kernel, by decide +kernel, ⟨rfl, 0, [.reply 0 .written], rfl, rfl, rfl⟩,
    by decide +kernel, ?_⟩
  rw [(step_woken rfl hslot 250).2, ofResponse_eq hdocument]

end Conversation

end TopicBus
