import TopicBus.Proofs.Server.Runs

/-!
Malformed input is erased, not spread. A run with a damaged frame in one of its streams stands
beside the same run with the bytes of that frame taken out of what is read (`Service.erase`). The
two ask the same of the broker step by step (`Alike.step`), so nobody else can tell them apart.
-/

namespace TopicBus

/-- A part of a stream. -/
structure Gap where
  stream : StreamId
  start : Nat
  size : Nat

variable {maxPayload : Nat}

namespace Line

/-- The line without the bytes of a gap. -/
def erase (g : Gap) (l : Line) : Line :=
  if l.stream = g.stream then { l with bytes := without g.start g.size l.bytes } else l

/-- What more bytes of a stream add to the stream without a gap. -/
def added (g : Gap) (l : Line) (bytes : List UInt8) : List UInt8 :=
  (without g.start g.size (l.bytes ++ bytes)).drop (without g.start g.size l.bytes).length

/-- What is left of a read if the bytes of a gap are taken out of its stream. -/
def kept (g : Gap) (l : Line) : Chunk → List Chunk
  | .failure why => [.failure why]
  | .bytes [] => [.bytes []]
  | .bytes bytes => if l.added g bytes = [] then [] else [.bytes (l.added g bytes)]

@[simp] theorem erase_stream (g : Gap) (l : Line) : (l.erase g).stream = l.stream := by
  rw [erase, apply_ite Line.stream, ite_self]

/-- There is nothing to take out of a line that is empty. -/
theorem erase_nil (g : Gap) (stream : StreamId) (client : ClientId) (hasEnded : Bool) :
    erase g ⟨stream, client, [], hasEnded⟩ = ⟨stream, client, [], hasEnded⟩ := by
  rw [erase, without_of_length_le (Nat.zero_le _), ite_self]

theorem erase_other {g : Gap} {l : Line} (h : l.stream ≠ g.stream) : l.erase g = l := if_neg h

theorem without_append_added (g : Gap) (l : Line) (bytes : List UInt8) :
    without g.start g.size l.bytes ++ l.added g bytes =
      without g.start g.size (l.bytes ++ bytes) :=
  List.prefix_iff_eq_append.mp (prefix_without g.start g.size l.bytes bytes)

theorem kept_end (g : Gap) (l : Line) {chunk : Chunk} (hend : chunk.IsEnd) :
    l.kept g chunk = [chunk] := by
  rcases hend with rfl | ⟨why, rfl⟩ <;> rfl

theorem kept_bytes (g : Gap) (l : Line) {bytes : List UInt8} (hbytes : bytes ≠ []) :
    l.kept g (.bytes bytes) =
      if l.added g bytes = [] then [] else [.bytes (l.added g bytes)] := by
  obtain ⟨x, bytes, rfl⟩ := List.exists_cons_of_ne_nil hbytes
  rfl

theorem kept_cases (g : Gap) (l : Line) (chunk : Chunk) :
    l.kept g chunk = [] ∨ ∃ c, l.kept g chunk = [c] := by
  fun_cases kept g l chunk with
  | case1 why => exact .inr ⟨_, rfl⟩
  | case2 => exact .inr ⟨_, rfl⟩
  | case3 bytes _ hnone => exact .inl rfl
  | case4 bytes _ hsome => exact .inr ⟨_, rfl⟩

/-- Reading what is kept gives the line without the gap. -/
theorem takeAll_kept {g : Gap} {l : Line} (h : l.stream = g.stream) (chunk : Chunk) :
    (l.erase g).takeAll (l.kept g chunk) = (l.take chunk).erase g := by
  have herase {l' : Line} (h' : l'.stream = g.stream) :
      l'.erase g = { l' with bytes := without g.start g.size l'.bytes } := if_pos h'
  rw [herase h, herase ((take_stream l chunk).trans h)]
  let shorter : Line := { l with bytes := without g.start g.size l.bytes }
  rcases chunk.isEnd_or with hend | ⟨bytes, rfl, hbytes⟩
  · rw [kept_end g l hend, take_end l hend]
    exact take_end shorter hend
  · rw [kept_bytes g l hbytes]
    have hadded := without_append_added g l bytes
    rcases Bool.eq_false_or_eq_true l.hasEnded with hended | hended
    · rw [take_of_hasEnded hended hbytes]
      split_ifs with hleft
      · rfl
      · exact take_of_hasEnded (l := shorter) hended hleft
    · rw [take_of_not_hasEnded hended hbytes, ← hadded]
      split_ifs with hleft
      · rw [hleft, List.append_nil]
        rfl
      · exact take_of_not_hasEnded (l := shorter) hended hleft

end Line

/-- At no moment does a stream ask for less if the bytes of the gap are taken out of it. -/
def Gap.IsSilent (maxPayload : Nat) (g : Gap) (whole : List UInt8) : Prop :=
  ∀ l : Line, l.stream = g.stream → l.bytes <+: whole →
    (l.erase g).operations maxPayload = l.operations maxPayload

/-- A damaged frame asks for nothing, neither as a whole nor in part. -/
theorem isSilent_damaged {p : List UInt8} (d : DamagedFrame maxPayload) (q : List UInt8)
    (hp : (segment maxPayload p).rest = []) (stream : StreamId) :
    Gap.IsSilent maxPayload ⟨stream, p.length, d.bytes.length⟩ (p ++ d.bytes ++ q) := by
  intro l hstream hl
  obtain ⟨hframes, hlost⟩ := heard_without d hp hl
  rw [Line.erase, if_pos hstream, Line.operations, Line.operations, Line.isOver, Line.isOver,
    hframes, hlost]

namespace Service

/-- What is left of an action if the bytes of a gap are taken out of a stream. -/
def keep (v : Service) (g : Gap) : Action → List Action
  | .receive stream chunk =>
    match v.line? stream with
    | some l => if stream = g.stream then (l.kept g chunk).map (.receive stream)
      else [.receive stream chunk]
    | none => [.receive stream chunk]
  | action => [action]

/-- A run without the bytes of a gap in one of its streams. -/
def erase (v : Service) (g : Gap) : List Action → List Action
  | [] => []
  | action :: actions => v.keep g action ++ (v.step action).erase g actions

/-- Two services that were asked for the same, one of them with a gap in a stream. -/
structure Alike (settings : BrokerSettings) (g : Gap) (v v' : Service)
    (ops : List Broker.Operation) : Prop where
  whole : v.Sound settings ops
  erased : v'.Sound settings ops
  accepted : v'.accepted = v.accepted
  lines : v'.lines = v.lines.map (Line.erase g)

variable {settings : BrokerSettings} {g : Gap} {v v' : Service} {ops : List Broker.Operation}

namespace Alike

theorem broker (h : Alike settings g v v' ops) : v'.server.broker = v.server.broker :=
  h.erased.broker.trans h.whole.broker.symm

theorem line? (h : Alike settings g v v' ops) (stream : StreamId) :
    v'.line? stream = (v.line? stream).map (Line.erase g) := by
  rw [Service.line?, h.lines, List.find?_map]
  simp only [Function.comp_def, Line.erase_stream]
  rfl

/-- One action against what is kept of it. -/
theorem of_step (h : Alike settings g v v' ops) {action : Action} {kept : List Action}
    (hdue : v'.operations kept = v.due action)
    (haccepted : (v'.run kept).accepted = (v.step action).accepted)
    (hlines : (v'.run kept).lines = (v.step action).lines.map (Line.erase g)) :
    Alike settings g (v.step action) (v'.run kept) (ops ++ v.due action) where
  whole := h.whole.step action
  erased := by
    rw [← hdue]
    exact h.erased.run kept
  accepted := haccepted
  lines := hlines

theorem accept (h : Alike settings g v v' ops) (peer : String) :
    Alike settings g (v.step (.accept peer)) (v'.run [.accept peer])
      (ops ++ v.due (.accept peer)) := by
  obtain ⟨haccepted, hlines⟩ := step_accept v peer
  obtain ⟨haccepted', hlines'⟩ := step_accept v' peer
  have hsame : v'.admitted peer = (v.admitted peer).map (Line.erase g) := by
    rw [admitted, admitted, h.broker, h.accepted]
    split
    · rw [List.map_cons, Line.erase_nil]
      rfl
    · rfl
  refine h.of_step ?_ (haccepted'.trans ?_) (hlines'.trans ?_)
  · rw [operations, operations, due, due, h.broker, List.append_nil]
  · rw [haccepted, h.accepted]
  · rw [hlines, List.map_append, h.lines, hsame]

/-- A read that has nothing to do with the gap. -/
theorem receive_other (h : Alike settings g v v' ops) {stream : StreamId} {chunk : Chunk}
    (hother : ∀ l ∈ v.lines, l.stream = stream → stream ≠ g.stream) :
    Alike settings g (v.step (.receive stream chunk)) (v'.run [.receive stream chunk])
      (ops ++ v.due (.receive stream chunk)) := by
  refine h.of_step ?_ h.accepted ?_
  · rw [operations, operations, List.append_nil, due, due, h.line?, h.broker]
    cases hline : v.line? stream with
    | none => rfl
    | some l =>
      obtain ⟨hl, hstream⟩ := mem_of_line? hline
      rw [Option.map_some, Line.erase_other (hstream ▸ hother l hl hstream)]
  · change v'.lines.map (Line.hear stream chunk) = (v.lines.map (Line.hear stream chunk)).map _
    rw [h.lines, List.map_map, List.map_map]
    refine List.map_congr_left fun l hl => ?_
    rw [Function.comp, Function.comp]
    by_cases hstream : l.stream = stream
    · have hne : l.stream ≠ g.stream := hstream ▸ hother l hl hstream
      rw [Line.erase_other hne, Line.erase_other (by rwa [Line.hear_stream])]
    · rw [Line.hear, if_neg (by rwa [Line.erase_stream]), Line.hear, if_neg hstream]

/-- A read of the stream with the gap. -/
theorem receive_gap (h : Alike settings g v v' ops) {l : Line} {chunk : Chunk}
    (hline : v.line? g.stream = some l)
    (hsame : (l.erase g).operations settings.maxPayload = l.operations settings.maxPayload)
    (hnext : ((l.take chunk).erase g).operations settings.maxPayload =
      (l.take chunk).operations settings.maxPayload) :
    Alike settings g (v.step (.receive g.stream chunk))
      (v'.run ((l.kept g chunk).map (.receive g.stream)))
      (ops ++ v.due (.receive g.stream chunk)) := by
  obtain ⟨hl, hstream⟩ := mem_of_line? hline
  have hline' : v'.line? g.stream = some (l.erase g) := by
    rw [h.line?, hline]
    rfl
  have htake := Line.takeAll_kept hstream chunk
  have hdue : v.due (.receive g.stream chunk) = l.due settings.maxPayload chunk := by
    simp only [due, hline, h.whole.settings_eq]
  have hgrown : l.operations settings.maxPayload ++ l.due settings.maxPayload chunk =
      ((l.take chunk).erase g).operations settings.maxPayload :=
    (l.operations_take chunk).symm.trans hnext.symm
  -- The other lines are not concerned.
  have hlines {f : Line → Line} (hf : f (l.erase g) = (l.take chunk).erase g)
      (hothers : ∀ x : Line, x.stream ≠ g.stream → f x = x) :
      v'.lines.map f = (v.step (.receive g.stream chunk)).lines.map (Line.erase g) := by
    change _ = (v.lines.map (Line.hear g.stream chunk)).map (Line.erase g)
    rw [h.lines, List.map_map, List.map_map]
    refine List.map_congr_left fun x hx => ?_
    rw [Function.comp, Function.comp]
    by_cases heq : x.stream = g.stream
    · rw [h.whole.line_unique hl hx (heq.trans hstream.symm), hf, Line.hear, if_pos hstream]
    · rw [Line.erase_other heq, hothers x heq, Line.hear, if_neg heq, Line.erase_other heq]
  rcases Line.kept_cases g l chunk with hkept | ⟨c, hkept⟩
  · rw [hkept, Line.takeAll, List.foldl_nil] at htake
    rw [← htake, hsame, List.append_right_eq_self] at hgrown
    rw [hkept]
    refine h.of_step (by rw [hdue, hgrown]; rfl) h.accepted ?_
    exact (List.map_id _).symm.trans (hlines htake fun _ _ => rfl)
  · rw [hkept, Line.takeAll, List.foldl_cons, List.foldl_nil] at htake
    rw [← htake, Line.operations_take, hsame, List.append_cancel_left_eq] at hgrown
    rw [hkept]
    refine h.of_step ?_ h.accepted ?_
    · rw [List.map_cons, List.map_nil, operations, operations, List.append_nil, hdue, hgrown, due,
        hline', h.erased.settings_eq]
    · refine hlines ?_ fun x hx => if_neg hx
      rw [Line.hear, if_pos (by rwa [Line.erase_stream]), htake]

theorem step (h : Alike settings g v v' ops) {whole : List UInt8}
    (hsilent : g.IsSilent settings.maxPayload whole) (action : Action)
    (hwhole : ∀ l ∈ (v.step action).lines, l.stream = g.stream → l.bytes <+: whole) :
    Alike settings g (v.step action) (v'.run (v.keep g action)) (ops ++ v.due action) := by
  cases action with
  | accept peer => exact h.accept peer
  | receive stream chunk =>
    rw [keep]
    split
    · next l hline =>
      split_ifs with hstream
      · subst hstream
        obtain ⟨hl, hstream⟩ := mem_of_line? hline
        have htaken : l.take chunk ∈ (v.step (.receive g.stream chunk)).lines := by
          have hheard := List.mem_map_of_mem (f := Line.hear g.stream chunk) hl
          rwa [Line.hear, if_pos hstream] at hheard
        have hprefix := hwhole _ htaken ((l.take_stream chunk).trans hstream)
        exact h.receive_gap hline
          (hsilent l hstream ((l.bytes_prefix_take chunk).trans hprefix))
          (hsilent _ ((l.take_stream chunk).trans hstream) hprefix)
      · exact h.receive_other fun _ _ _ => hstream
    · next hline =>
      refine h.receive_other fun l hl heq => ?_
      exact absurd (decide_eq_true heq) (List.find?_eq_none.mp hline l hl)
  | write client count => exact h.of_step rfl h.accepted h.lines
  | reap => exact h.of_step rfl h.accepted h.lines

/-- A whole run against what is kept of it. -/
theorem run (h : Alike settings g v v' ops) {whole : List UInt8}
    (hsilent : g.IsSilent settings.maxPayload whole) (actions : List Action)
    (hwhole : ∀ past, past <+: actions → ∀ l ∈ (v.run past).lines,
      l.stream = g.stream → l.bytes <+: whole) :
    Alike settings g (v.run actions) (v'.run (v.erase g actions))
      (ops ++ v.operations actions) := by
  induction actions generalizing v v' ops with
  | nil =>
    rw [operations, List.append_nil]
    exact h
  | cons action actions ih =>
    have hfirst := h.step hsilent action (hwhole [action] ⟨actions, rfl⟩)
    have hrest := ih hfirst fun past hpast => hwhole (action :: past) (by simpa using hpast)
    rw [operations, ← List.append_assoc, erase, run_append]
    exact hrest

end Alike

theorem alike_ofSettings (settings : BrokerSettings) (g : Gap) :
    Alike settings g (ofSettings settings) (ofSettings settings) [] where
  whole := sound_ofSettings settings
  erased := sound_ofSettings settings
  accepted := rfl
  lines := rfl

/-- The server does to the broker what its lines ask for and nothing else: for the client of each of
them the broker sees the frames of its own bytes, one after the other, up to a violation or the end
of the stream, and then one cleanup. Nothing is done for a client any more once that has come. A
reader holds the unfinished bytes of its own line, which grows by its own reads alone. And a damaged
frame is as if it had never been sent: at every moment of the run without its bytes the broker, with
all its routes and queues, is the same. -/
theorem run_effect (settings : BrokerSettings) (actions : List Action) :
    let maxPayload := settings.maxPayload
    let start := ofSettings settings
    let v := start.run actions
    v.server.broker = (Broker.ofSettings settings).run (start.operations actions) ∧
    (v.lines.map Line.client).Nodup ∧
    (∀ l ∈ v.lines,
      (start.operations actions).filter (·.isBy l.client) = l.operations maxPayload ∧
      (l.isOver maxPayload = true → ∀ more, (start.operations (actions ++ more)).filter
        (·.isBy l.client) = l.operations maxPayload) ∧
      (l.isOver maxPayload = false →
        v.server.session? l.stream = some (l.session maxPayload)) ∧
      ∀ more, l.takeAll (more.filterMap (Action.chunkOn? l.stream)) ∈ (v.run more).lines) ∧
    ∀ l ∈ v.lines, ∀ (p q : List UInt8) (d : DamagedFrame maxPayload),
      l.bytes = p ++ d.bytes ++ q → (segment maxPayload p).rest = [] →
      let g : Gap := ⟨l.stream, p.length, d.bytes.length⟩
      ∀ n, (start.run (start.erase g (actions.take n))).server.broker =
          (start.run (actions.take n)).server.broker ∧
        (start.run (start.erase g (actions.take n))).lines =
          (start.run (actions.take n)).lines.map (Line.erase g) := by
  intro maxPayload start v
  have h : v.Sound settings (start.operations actions) := (sound_ofSettings settings).run actions
  refine ⟨h.broker, h.clients_nodup, fun l hl => ⟨h.done l hl, fun hover more => ?_,
    (h.served l hl).session?, line_mem_run hl⟩, ?_⟩
  · have hlater := (h.run more).done _ (line_mem_run hl more)
    rw [operations_append]
    rwa [Line.takeAll_client, (Line.takeAll_of_isOver hover _).2] at hlater
  · intro l hl p q d hbytes hp g n
    have hsilent := isSilent_damaged d q hp l.stream
    have halike := (alike_ofSettings settings g).run hsilent (actions.take n)
      fun past hpast l' hl' hstream => ?_
    · exact ⟨halike.broker, halike.lines⟩
    · obtain ⟨more, rfl⟩ := hpast.trans (List.take_prefix n actions)
      have hrun : v = (start.run past).run more := run_append start past more
      rw [hrun] at h hl
      rw [← hbytes]
      exact h.bytes_prefix hl' hl hstream

/-- A client sends a frame, one that nobody reads, cut in two, and the first frame again. -/
def damagedRun : List Action :=
  let bytes := stream [Decoder.byteOnT, Decoder.foreignVersion, Decoder.byteOnT]
  [.accept "a", .receive 0 (.bytes (bytes.take 30)), .receive 0 (.bytes (bytes.drop 30))]

theorem run_effect_damaged :
    let start := ofSettings { maxPayload := 8 }
    let erased := start.erase
      ⟨0, Decoder.byteOnT.bytes.length, Decoder.foreignVersion.bytes.length⟩ damagedRun
    (start.run erased).lines.map Line.bytes = [stream [Decoder.byteOnT, Decoder.byteOnT]] ∧
      (start.run erased).server.broker = (start.run damagedRun).server.broker := by
  intro start erased
  obtain ⟨d, hd⟩ : ∃ d, Decoder.foreignVersion = .damaged d := ⟨_, rfl⟩
  obtain ⟨l, hl, hstream, hbytes⟩ : ∃ l ∈ (start.run damagedRun).lines, l.stream = 0 ∧
      l.bytes = stream [Decoder.byteOnT, Decoder.foreignVersion, Decoder.byteOnT] := by
    decide +kernel
  have hsplit : l.bytes = Decoder.byteOnT.bytes ++ d.bytes ++ Decoder.byteOnT.bytes := by
    rw [hbytes, hd, List.append_assoc]
    simp only [stream, List.flatMap_cons, List.flatMap_nil, List.append_nil]
    rfl
  obtain ⟨results, -, hsegment⟩ := segment_stream [Decoder.byteOnT]
  have hrest : (segment 8 Decoder.byteOnT.bytes).rest = [] := by
    have hend := congrArg Segmentation.rest (hsegment []).1
    rw [List.append_nil, segment_nil] at hend
    exact hend
  obtain ⟨-, -, -, herase⟩ := run_effect { maxPayload := 8 } damagedRun
  have hsame := (herase l hl Decoder.byteOnT.bytes Decoder.byteOnT.bytes d hsplit hrest 3).1
  have hsize : d.bytes.length = Decoder.foreignVersion.bytes.length := by
    rw [hd]
    rfl
  have hall : damagedRun.take 3 = damagedRun := rfl
  rw [hstream, hsize, hall] at hsame
  refine ⟨by decide +kernel, ?_⟩
  simp only [start, erased]
  exact hsame

end Service

end TopicBus
