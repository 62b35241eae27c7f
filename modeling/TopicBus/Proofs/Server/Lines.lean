import TopicBus.Server
import TopicBus.Proofs.Broker.Runs
import TopicBus.Proofs.Wire.Damage

/-!
What a stream asks of the broker. A line is all that has come over the stream of one client, and its
operations are read off the segmentation of its bytes: every frame is routed, in order, and the end
of the stream, or a violation, takes the client away (`Line.operations`). A read makes the server do
exactly what it adds to them (`receive_line`), and no read touches another session (`on_receive`).
-/

namespace TopicBus

namespace Broker

/-- Whether an operation is there for what a client has sent. -/
def Operation.isBy (client : ClientId) : Operation → Bool
  | .route sender _ => sender = client
  | .cleanup id => id = client
  | .register _ _ | .drain _ _ | .hangUp _ => false

theorem run_append (b : Broker) (ops more : List Operation) :
    b.run (ops ++ more) = (b.run ops).run more := by
  induction ops generalizing b with
  | nil => rfl
  | cons op ops ih => exact ih (b.perform op).1

end Broker

variable {maxPayload : Nat}

/-- What a segmentation asks of the broker. -/
def Segmentation.operations (client : ClientId) (g : Segmentation) : List Broker.Operation :=
  g.frames.map (.route client) ++ if g.isLost then [.cleanup client] else []

/-- A read that finds the end of a stream, or fails. -/
def Chunk.IsEnd (chunk : Chunk) : Prop := chunk = .bytes [] ∨ ∃ why, chunk = .failure why

theorem Chunk.isEnd_or (chunk : Chunk) :
    chunk.IsEnd ∨ ∃ bytes, chunk = .bytes bytes ∧ bytes ≠ [] := by
  match chunk with
  | .failure why => exact .inl (.inr ⟨why, rfl⟩)
  | .bytes [] => exact .inl (.inl rfl)
  | .bytes (x :: rest) => exact .inr ⟨_, rfl, nofun⟩

/-- What has come over the stream of a client since it was accepted. -/
structure Line where
  stream : StreamId
  client : ClientId
  bytes : List UInt8
  /-- A read found the end of the stream, or failed. -/
  hasEnded : Bool
  deriving Repr

namespace Line

/-- Takes in what a read gave. Nothing comes behind the end of a stream. -/
def take (l : Line) : Chunk → Line
  | .failure _ | .bytes [] => { l with hasEnded := true }
  | .bytes bytes => if l.hasEnded then l else { l with bytes := l.bytes ++ bytes }

/-- Whether nobody reads the stream any more. -/
def isOver (maxPayload : Nat) (l : Line) : Bool :=
  (segment maxPayload l.bytes).isLost || l.hasEnded

/-- What the stream has asked of the broker: its frames are routed, then its client goes. -/
def operations (maxPayload : Nat) (l : Line) : List Broker.Operation :=
  (segment maxPayload l.bytes).frames.map (.route l.client) ++
    if l.isOver maxPayload then [.cleanup l.client] else []

/-- What one more read asks of the broker. -/
def due (maxPayload : Nat) (l : Line) (chunk : Chunk) : List Broker.Operation :=
  if l.isOver maxPayload then []
  else match chunk with
    | .failure _ | .bytes [] => [.cleanup l.client]
    | .bytes bytes =>
      (segment maxPayload ((segment maxPayload l.bytes).rest ++ bytes)).operations l.client

/-- The session of a client that is still heard. -/
def session (maxPayload : Nat) (l : Line) : Session where
  client := l.client
  stream := l.stream
  reader := .holding maxPayload (segment maxPayload l.bytes).rest
  isReading := true
  isLeaving := false

@[simp] theorem take_stream (l : Line) (chunk : Chunk) : (l.take chunk).stream = l.stream := by
  fun_cases take l chunk <;> rfl

@[simp] theorem take_client (l : Line) (chunk : Chunk) : (l.take chunk).client = l.client := by
  fun_cases take l chunk <;> rfl

/-- Takes in what a read of some stream gave. -/
def hear (stream : StreamId) (chunk : Chunk) (l : Line) : Line :=
  if l.stream = stream then l.take chunk else l

@[simp] theorem hear_stream (stream : StreamId) (chunk : Chunk) (l : Line) :
    (l.hear stream chunk).stream = l.stream := by
  rw [hear, apply_ite Line.stream, take_stream, ite_self]

@[simp] theorem hear_client (stream : StreamId) (chunk : Chunk) (l : Line) :
    (l.hear stream chunk).client = l.client := by
  rw [hear, apply_ite Line.client, take_client, ite_self]

/-- A stream that is over stays so, whatever more is said to have come over it. -/
theorem take_of_isOver {l : Line} (h : l.isOver maxPayload = true) (chunk : Chunk) :
    (l.take chunk).isOver maxPayload = true ∧
      (l.take chunk).operations maxPayload = l.operations maxPayload := by
  have hsame {l' : Line} (hclient : l'.client = l.client) (hover : l'.isOver maxPayload = true)
      (hframes : (segment maxPayload l'.bytes).frames = (segment maxPayload l.bytes).frames) :
      l'.isOver maxPayload = true ∧ l'.operations maxPayload = l.operations maxPayload := by
    refine ⟨hover, ?_⟩
    rw [operations, operations, hframes, hover, h, hclient]
  have hlost := Bool.or_eq_true_iff.mp h
  fun_cases take l chunk with
  | case1 => exact hsame rfl (Bool.or_true _) rfl
  | case2 => exact hsame rfl (Bool.or_true _) rfl
  | case3 bytes _ hended => exact hsame rfl h rfl
  | case4 bytes _ hended =>
    have hlost := hlost.resolve_right hended
    refine hsame rfl ?_ (frames_append_lost bytes hlost)
    rw [isOver, isLost_append_lost bytes hlost, Bool.true_or]

theorem operations_of_live {l : Line} (h : l.isOver maxPayload = false) :
    l.operations maxPayload = (segment maxPayload l.bytes).frames.map (.route l.client) := by
  rw [operations, h, if_neg Bool.false_ne_true, List.append_nil]

theorem due_of_isOver {l : Line} (h : l.isOver maxPayload = true) (chunk : Chunk) :
    l.due maxPayload chunk = [] := if_pos h

theorem due_bytes {l : Line} (h : l.isOver maxPayload = false) {bytes : List UInt8}
    (hbytes : bytes ≠ []) : l.due maxPayload (.bytes bytes) =
      (segment maxPayload ((segment maxPayload l.bytes).rest ++ bytes)).operations l.client := by
  obtain ⟨x, bytes, rfl⟩ := List.exists_cons_of_ne_nil hbytes
  exact if_neg (Bool.eq_false_iff.mp h)

/-- Behind its end a stream gives nothing. -/
theorem take_of_hasEnded {l : Line} (h : l.hasEnded = true) {bytes : List UInt8}
    (hbytes : bytes ≠ []) : l.take (.bytes bytes) = l := by
  obtain ⟨x, bytes, rfl⟩ := List.exists_cons_of_ne_nil hbytes
  exact if_pos h

theorem take_of_not_hasEnded {l : Line} (h : l.hasEnded = false) {bytes : List UInt8}
    (hbytes : bytes ≠ []) : l.take (.bytes bytes) = { l with bytes := l.bytes ++ bytes } := by
  obtain ⟨x, bytes, rfl⟩ := List.exists_cons_of_ne_nil hbytes
  exact if_neg (Bool.eq_false_iff.mp h)

theorem take_bytes {l : Line} (h : l.isOver maxPayload = false) {bytes : List UInt8}
    (hbytes : bytes ≠ []) : l.take (.bytes bytes) = { l with bytes := l.bytes ++ bytes } :=
  take_of_not_hasEnded (Bool.or_eq_false_iff.mp h).2 hbytes

theorem take_end (l : Line) {chunk : Chunk} (hend : chunk.IsEnd) :
    l.take chunk = { l with hasEnded := true } := by
  rcases hend with rfl | ⟨why, rfl⟩ <;> rfl

theorem due_end {l : Line} (h : l.isOver maxPayload = false) {chunk : Chunk}
    (hend : chunk.IsEnd) : l.due maxPayload chunk = [.cleanup l.client] := by
  rcases hend with rfl | ⟨why, rfl⟩
  · exact if_neg (Bool.eq_false_iff.mp h)
  · exact if_neg (Bool.eq_false_iff.mp h)

/-- The operations of a stream grow by what each read asks for. -/
theorem operations_take (l : Line) (chunk : Chunk) :
    (l.take chunk).operations maxPayload = l.operations maxPayload ++ l.due maxPayload chunk := by
  cases hover : l.isOver maxPayload with
  | true => rw [(take_of_isOver hover chunk).2, due_of_isOver hover, List.append_nil]
  | false =>
    obtain ⟨hlost, hended⟩ := Bool.or_eq_false_iff.mp hover
    rw [operations_of_live hover]
    rcases chunk.isEnd_or with hend | ⟨bytes, rfl, hbytes⟩
    · rw [take_end l hend, due_end hover hend, operations, isOver, Bool.or_true, if_pos rfl]
    · rw [take_bytes hover hbytes, due_bytes hover hbytes, operations, isOver, hended,
        Bool.or_false, frames_append bytes hlost, isLost_append bytes hlost, List.map_append,
        List.append_assoc]
      rfl

theorem bytes_prefix_take (l : Line) (chunk : Chunk) : l.bytes <+: (l.take chunk).bytes := by
  fun_cases take l chunk with
  | case1 => exact List.prefix_rfl
  | case2 => exact List.prefix_rfl
  | case3 => exact List.prefix_rfl
  | case4 bytes => exact List.prefix_append l.bytes bytes

/-- Takes in what many reads gave. -/
def takeAll (l : Line) (chunks : List Chunk) : Line := chunks.foldl take l

@[simp] theorem takeAll_stream (l : Line) (chunks : List Chunk) :
    (l.takeAll chunks).stream = l.stream := by
  induction chunks generalizing l with
  | nil => rfl
  | cons chunk chunks ih => exact (ih (l.take chunk)).trans (l.take_stream chunk)

@[simp] theorem takeAll_client (l : Line) (chunks : List Chunk) :
    (l.takeAll chunks).client = l.client := by
  induction chunks generalizing l with
  | nil => rfl
  | cons chunk chunks ih => exact (ih (l.take chunk)).trans (l.take_client chunk)

theorem bytes_prefix_takeAll (l : Line) (chunks : List Chunk) :
    l.bytes <+: (l.takeAll chunks).bytes := by
  induction chunks generalizing l with
  | nil => exact List.prefix_rfl
  | cons chunk chunks ih => exact (l.bytes_prefix_take chunk).trans (ih (l.take chunk))

theorem takeAll_of_isOver {l : Line} (h : l.isOver maxPayload = true) (chunks : List Chunk) :
    (l.takeAll chunks).isOver maxPayload = true ∧
      (l.takeAll chunks).operations maxPayload = l.operations maxPayload := by
  induction chunks generalizing l with
  | nil => exact ⟨h, rfl⟩
  | cons chunk chunks ih =>
    obtain ⟨hover, hsame⟩ := take_of_isOver h chunk
    obtain ⟨hend, hrest⟩ := ih hover
    exact ⟨hend, hrest.trans hsame⟩

theorem isBy_operations {client : ClientId} {g : Segmentation} {op : Broker.Operation}
    (hop : op ∈ g.operations client) (other : ClientId) :
    op.isBy other = decide (client = other) := by
  rcases List.mem_append.mp hop with hop | hop
  · obtain ⟨f, -, rfl⟩ := List.mem_map.mp hop
    rfl
  · split_ifs at hop
    · rw [List.mem_singleton.mp hop]
      rfl
    · nomatch hop

/-- A read concerns the client of its stream and nobody else. -/
theorem isBy_due {l : Line} {chunk : Chunk} {op : Broker.Operation}
    (hop : op ∈ l.due maxPayload chunk) (other : ClientId) :
    op.isBy other = decide (l.client = other) := by
  cases hover : l.isOver maxPayload with
  | true =>
    rw [due_of_isOver hover] at hop
    nomatch hop
  | false =>
    rcases chunk.isEnd_or with hend | ⟨bytes, rfl, hbytes⟩
    · rw [due_end hover hend] at hop
      rw [List.mem_singleton.mp hop]
      rfl
    · rw [due_bytes hover hbytes] at hop
      exact isBy_operations hop other

end Line

/-! ## Sessions -/

namespace Server

/-- The sessions of a stream. -/
def on (s : Server) (stream : StreamId) : List Session :=
  s.sessions.filter fun x => x.stream = stream

theorem session?_eq_head? (s : Server) (stream : StreamId) :
    s.session? stream = (s.on stream).head? := List.head?_filter.symm

/-- Nobody listens to the stream from now on. -/
def deafen (s : Server) (stream : StreamId) : Server :=
  s.modifySession stream fun x => { x with isReading := false, isLeaving := true }

theorem on_modifySession (s : Server) (stream other : StreamId) {f : Session → Session}
    (hf : ∀ x, (f x).stream = x.stream) : (s.modifySession stream f).on other =
      if other = stream then (s.on stream).map f else s.on other := by
  have hsame (x : Session) : (if x.stream = stream then f x else x).stream = x.stream := by
    split_ifs
    · exact hf x
    · rfl
  simp only [modifySession, on, List.filter_map, Function.comp_def, hsame]
  split_ifs with hother
  · subst hother
    exact List.map_congr_left fun x hx => if_pos (of_decide_eq_true (List.mem_filter.mp hx).2)
  · refine (List.map_congr_left fun x hx => if_neg fun heq => ?_).trans (List.map_id _)
    exact hother ((of_decide_eq_true (List.mem_filter.mp hx).2).symm.trans heq)

theorem on_deafen (s : Server) (stream other : StreamId) : (s.deafen stream).on other =
    if other = stream then
      (s.on stream).map fun x => { x with isReading := false, isLeaving := true }
    else s.on other :=
  on_modifySession s stream other fun _ => rfl

theorem endSession_of_staying {x : Session} (hx : x.isLeaving = false) (s : Server) :
    (s.endSession x).1 =
      ({ s with broker := (s.broker.cleanup x.client).1 } : Server).deafen x.stream := by
  rw [endSession, dismiss, hx]
  rfl

/-- All results of a segmentation, one after the other. -/
theorem foldl_handle {x : Session} (hx : x.isLeaving = false) (t : List UInt8) (s : Server)
    (log : List Event) :
    ((segment maxPayload t).results.foldl (handle x) (s, log)).1 =
      let after := { s with broker := s.broker.run ((segment maxPayload t).operations x.client) }
      if (segment maxPayload t).isLost then after.deafen x.stream else after := by
  induction t using segment.induct maxPayload generalizing s log with
  | case1 t hfront =>
    rw [segment_unfinished hfront]
    rfl
  | case2 t why hfront =>
    rw [segment_lost hfront]
    exact endSession_of_staying hx s
  | case3 t size result hfront ih =>
    rw [isLost_whole hfront]
    rcases front_whole_result hfront with ⟨f, rfl⟩ | ⟨why, rfl⟩
    · have hops : (segment maxPayload t).operations x.client =
          .route x.client f :: (segment maxPayload (t.drop size)).operations x.client := by
        rw [Segmentation.operations, isLost_whole hfront, Segmentation.frames,
          segment_whole hfront]
        rfl
      rw [hops, segment_whole hfront]
      exact ih _ _
    · have hops : (segment maxPayload t).operations x.client =
          (segment maxPayload (t.drop size)).operations x.client := by
        rw [Segmentation.operations, isLost_whole hfront, Segmentation.frames,
          segment_whole hfront]
        rfl
      rw [hops, segment_whole hfront]
      exact ih _ _

/-- All results of one read. -/
theorem foldl_feed {x : Session} (hx : x.isLeaving = false) {rest : List UInt8}
    (hrest : front maxPayload rest = .unfinished) (bytes : List UInt8) (s : Server) :
    (((Reader.holding maxPayload rest).feed bytes).2.foldl (handle x) (s, [])).1 =
      let g := segment maxPayload (rest ++ bytes)
      let after := { s with broker := s.broker.run (g.operations x.client) }
      if g.isLost then after.deafen x.stream else after := by
  rw [← foldl_handle hx (rest ++ bytes) s []]
  cases hlost : (segment maxPayload (rest ++ bytes)).isLost with
  | true => rw [Reader.feed_holding_lost bytes hrest hlost]
  | false =>
    rw [Reader.feed_holding bytes hrest hlost, List.foldl_append]
    rfl

end Server

/-- The server hears a line exactly as far as it is not over. -/
structure Line.IsServed (maxPayload : Nat) (s : Server) (l : Line) : Prop where
  live : l.isOver maxPayload = false → s.on l.stream = [l.session maxPayload]
  ended : l.isOver maxPayload = true → ∀ x ∈ s.on l.stream, x.isReading = false

namespace Line

variable {s s' : Server} {l : Line}

/-- Only the sessions of its stream matter to a line. -/
theorem IsServed.of_on (h : l.IsServed maxPayload s) (hon : s'.on l.stream = s.on l.stream) :
    l.IsServed maxPayload s' where
  live := fun hlive => hon.trans (h.live hlive)
  ended := by
    rw [hon]
    exact h.ended

theorem isServed_deafen (hover : l.isOver maxPayload = true) (s : Server) :
    l.IsServed maxPayload (s.deafen l.stream) where
  live := fun hlive => absurd (hlive.symm.trans hover) Bool.false_ne_true
  ended := by
    rw [Server.on_deafen, if_pos rfl]
    intro _ x hx
    obtain ⟨y, -, rfl⟩ := List.mem_map.mp hx
    rfl

/-- A read of a stream that nobody listens to has no effect. -/
theorem IsServed.receive_over (h : l.IsServed maxPayload s) (hover : l.isOver maxPayload = true)
    (chunk : Chunk) : (s.receive l.stream chunk).1 = s := by
  rw [Server.receive, Server.session?_eq_head?]
  cases hx : (s.on l.stream).head? with
  | none => rfl
  | some x =>
    have hdeaf := h.ended hover x (List.mem_of_mem_head? (by rw [hx]; rfl))
    simp only [hdeaf, Bool.not_false, ↓reduceIte]

theorem IsServed.session? (h : l.IsServed maxPayload s) (hlive : l.isOver maxPayload = false) :
    s.session? l.stream = some (l.session maxPayload) := by
  rw [Server.session?_eq_head?, h.live hlive]
  rfl

/-- The end of a stream that was still heard. -/
theorem IsServed.receive_end (h : l.IsServed maxPayload s) (hlive : l.isOver maxPayload = false)
    {chunk : Chunk} (hend : chunk.IsEnd) : (s.receive l.stream chunk).1 =
      ({ s with broker := s.broker.run (l.due maxPayload chunk) } : Server).deafen l.stream := by
  rw [due_end hlive hend, Server.receive, h.session? hlive]
  rcases hend with rfl | ⟨why, rfl⟩ <;>
    exact Server.endSession_of_staying (x := l.session maxPayload) rfl s

/-- More bytes of a stream that is still heard: its reader takes them in, and the frames that they
complete are routed. -/
theorem IsServed.receive_bytes (h : l.IsServed maxPayload s) (hlive : l.isOver maxPayload = false)
    {bytes : List UInt8} (hbytes : bytes ≠ []) :
    (s.receive l.stream (.bytes bytes)).1 =
      let held := s.modifySession l.stream fun x =>
        { x with reader := ((l.session maxPayload).reader.feed bytes).1 }
      let after := { held with broker := s.broker.run (l.due maxPayload (.bytes bytes)) }
      if (l.take (.bytes bytes)).isOver maxPayload then after.deafen l.stream else after := by
  obtain ⟨hlost, hended⟩ := Bool.or_eq_false_iff.mp hlive
  have hrest := front_rest l.bytes hlost
  rw [take_bytes hlive hbytes, due_bytes hlive hbytes, isOver, hended, Bool.or_false,
    isLost_append bytes hlost]
  obtain ⟨x, bytes, rfl⟩ := List.exists_cons_of_ne_nil hbytes
  rw [Server.receive, h.session? hlive]
  exact Server.foldl_feed (x := l.session maxPayload) rfl hrest (x :: bytes) _

/-- One read of a stream. The server does what the read adds to the line, hears the longer line from
then on, and leaves the sessions of all other streams alone. -/
theorem IsServed.receive (h : l.IsServed maxPayload s) (chunk : Chunk) :
    (s.receive l.stream chunk).1.broker = s.broker.run (l.due maxPayload chunk) ∧
      (l.take chunk).IsServed maxPayload (s.receive l.stream chunk).1 ∧
      ∀ other ≠ l.stream, (s.receive l.stream chunk).1.on other = s.on other := by
  cases hover : l.isOver maxPayload with
  | true =>
    obtain ⟨hstill, -⟩ := take_of_isOver hover chunk
    rw [h.receive_over hover chunk, due_of_isOver hover]
    refine ⟨rfl, ⟨fun hlive => absurd (hlive.symm.trans hstill) Bool.false_ne_true, fun _ => ?_⟩,
      fun _ _ => rfl⟩
    rw [take_stream]
    exact h.ended hover
  | false =>
    have hdeafen {s' : Server} (hbroker : s'.broker = s.broker.run (l.due maxPayload chunk))
        (hsame : ∀ other ≠ l.stream, s'.on other = s.on other)
        (hend : (l.take chunk).isOver maxPayload = true) :
        (s'.deafen l.stream).broker = s.broker.run (l.due maxPayload chunk) ∧
          (l.take chunk).IsServed maxPayload (s'.deafen l.stream) ∧
          ∀ other ≠ l.stream, (s'.deafen l.stream).on other = s.on other := by
      refine ⟨hbroker, ?_, fun other hother => ?_⟩
      · rw [← take_stream l chunk]
        exact isServed_deafen hend s'
      · rw [Server.on_deafen, if_neg hother, hsame other hother]
    rcases chunk.isEnd_or with hend | ⟨bytes, rfl, hbytes⟩
    · rw [h.receive_end hover hend]
      refine hdeafen rfl (fun _ _ => rfl) ?_
      rw [take_end l hend]
      exact Bool.or_true _
    · rw [h.receive_bytes hover hbytes]
      have hsame (other : StreamId) := Server.on_modifySession s l.stream other
        (f := fun x => { x with reader := ((l.session maxPayload).reader.feed bytes).1 })
        fun _ => rfl
      have helse (other : StreamId) (hother : other ≠ l.stream) :=
        (hsame other).trans (if_neg hother)
      cases hstop : (l.take (.bytes bytes)).isOver maxPayload with
      | true => exact hdeafen rfl helse hstop
      | false =>
        refine ⟨rfl, ⟨fun _ => ?_, fun hend => ?_⟩, helse⟩
        · -- The reader holds what it had and the new bytes, up to the last frame that they end.
          obtain ⟨hlost, hended⟩ := Bool.or_eq_false_iff.mp hover
          have hnext : (segment maxPayload (l.bytes ++ bytes)).isLost = false := by
            rw [take_bytes hover hbytes] at hstop
            exact (Bool.or_eq_false_iff.mp hstop).1
          have hfeed := Reader.feed_holding bytes (front_rest l.bytes hlost)
            ((isLost_append bytes hlost).symm.trans hnext)
          refine ((hsame _).trans (if_pos (take_stream l _))).trans ?_
          rw [h.live hover, take_bytes hover hbytes, session, session, segment_append _ _ hlost]
          simp only [List.map_cons, List.map_nil, hfeed]
        · exact absurd (hstop.symm.trans hend) Bool.false_ne_true

end Line

end TopicBus
