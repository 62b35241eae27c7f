import TopicBus.Proofs.Connection.Reading

/-!
From the bytes of a stream to the calls of subscriptions. Frames that arrive whole, in whatever
pieces, are accepted one after the other (`receiveAll_awaited`); what was put aside is dispatched in
order, each frame to the subscription that its control field names (`dispatchAll_calls`).
-/

namespace TopicBus

/-! ## Subscriptions under their ids -/

namespace SubscriptionTable

/-- The expression of the subscription with an id. -/
def expression? (t : SubscriptionTable) (id : UInt32) : Option String :=
  (t.find? id).map Subscription.expression

theorem expression?_eq_keys (t : SubscriptionTable) (id : UInt32) :
    t.expression? id = (t.keys.find? fun x => x.1 = id).map Prod.snd := by
  rw [keys, List.find?_map, Option.map_map]
  rfl

/-- Calls do not change where the frames go. -/
theorem expression?_dispatch (t : SubscriptionTable) (f : Frame) (id : UInt32) :
    (t.dispatch f).1.expression? id = t.expression? id := by
  rw [expression?_eq_keys, expression?_eq_keys, keys_dispatch]

/-- A frame goes to the subscription that its control field names. -/
theorem dispatch_calls {t : SubscriptionTable} {id : UInt32} {expression : String}
    (h : t.expression? id = some expression) (f : Frame) :
    ((t.dispatch f).2.toList.filter fun call => call.frame.header.control = id).map
        (fun call => (call.expression, call.frame)) =
      ([f].filter fun f => f.header.control = id).map fun f => (expression, f) := by
  unfold dispatch
  by_cases hid : f.header.control = id
  · obtain ⟨s, hs, rfl⟩ := Option.map_eq_some_iff.mp h
    rw [hid, hs]
    simp [hid]
  · split <;> simp [hid]

end SubscriptionTable

namespace Reader

/-- The frames that the reader will have when these bytes have come. It may hold a part of them
already. -/
def Awaits (maxPayload : Nat) (r : Reader) (bytes : List UInt8) (gs : List Frame) : Prop :=
  ∃ held log, r = .holding maxPayload held ∧ front maxPayload held = .unfinished ∧
    held ++ bytes = log.flatten ∧ List.Forall₂ Frame.SentAs gs log ∧
      ∀ g ∈ gs, g.payload.length ≤ maxPayload

variable {maxPayload : Nat} {r : Reader} {bytes : List UInt8} {fs gs : List Frame}

theorem awaits_ofLimit (maxPayload : Nat) : (Reader.ofLimit maxPayload).Awaits maxPayload [] [] :=
  ⟨[], [], rfl, rfl, rfl, .nil, List.forall_mem_nil _⟩

theorem Awaits.append (h : r.Awaits maxPayload bytes gs) {log : List (List UInt8)}
    (hsent : List.Forall₂ Frame.SentAs fs log) (hwithin : ∀ f ∈ fs, f.payload.length ≤ maxPayload) :
    r.Awaits maxPayload (bytes ++ log.flatten) (gs ++ fs) := by
  obtain ⟨held, log', hreader, hheld, hbytes, hsent', hwithin'⟩ := h
  refine ⟨held, log' ++ log, hreader, hheld, ?_, List.rel_append hsent' hsent, ?_⟩
  · rw [List.flatten_append, ← hbytes, List.append_assoc]
  · exact fun f hf => (List.mem_append.mp hf).elim (hwithin' f) (hwithin f)

end Reader

/-- What becomes of the slot for a response when a frame is accepted. -/
def ResponseSlot.handle (slot : ResponseSlot) (f : Frame) : ResponseSlot :=
  if Connection.isAnswer f then
    match slot with
    | .waiting => .answered f
    | slot => slot
  else slot

namespace Connection

/-- Takes in bytes that arrive in pieces. -/
def receiveAll (c : Connection) (chunks : List (List UInt8)) : Connection :=
  chunks.foldl (fun c bytes => c.receive (.bytes bytes)) c

/-- The frames among what is put aside. -/
def framesIn (inbound : List Inbound) : List Frame :=
  inbound.filterMap fun event => match event with
    | .frame f => some f
    | .closed _ _ => none

theorem framesIn_append (inbound more : List Inbound) :
    framesIn (inbound ++ more) = framesIn inbound ++ framesIn more :=
  List.filterMap_append

theorem framesIn_frames (gs : List Frame) : framesIn (gs.map .frame) = gs := by
  rw [framesIn, List.filterMap_map]
  exact List.filterMap_some

/-- Dispatches until nothing is left to dispatch, at most so many frames, and lists the calls. -/
def dispatchAll (c : Connection) : Nat → Connection × List Delivery
  | 0 => (c, [])
  | n + 1 =>
    match c.dispatchNext none with
    | (c, .finished (.dispatched delivery)) =>
      let (c, calls) := c.dispatchAll n
      (c, delivery.toList ++ calls)
    | (c, _) => (c, [])

variable {c c' c'' : Connection} {maxPayload : Nat} {fs gs : List Frame}

/-! ## Receiving -/

/-- The connection has taken in these frames. -/
structure Accepted (gs : List Frame) (c c' : Connection) : Prop where
  writing : SameWriting c c'
  slot : c'.slot = gs.foldl ResponseSlot.handle c.slot
  inbound : c'.inbound = c.inbound ++ (gs.filter fun g => !isAnswer g).map .frame
  generation : c'.generation = c.generation

theorem Accepted.refl (c : Connection) : Accepted [] c c :=
  ⟨.refl c, rfl, (List.append_nil _).symm, rfl⟩

theorem Accepted.trans (h : Accepted fs c c') (h' : Accepted gs c' c'') :
    Accepted (fs ++ gs) c c'' where
  writing := h.writing.trans h'.writing
  slot := by rw [h'.slot, h.slot, List.foldl_append]
  inbound := by
    rw [h'.inbound, h.inbound, List.filter_append, List.map_append, List.append_assoc]
  generation := h'.generation.trans h.generation

theorem slot_accept (c : Connection) (f : Frame) : (c.accept f).slot = c.slot.handle f := by
  unfold accept ResponseSlot.handle
  split_ifs
  · cases hslot : c.slot with
    | waiting => rfl
    | empty => exact hslot
    | answered g => exact hslot
  · rfl

theorem accepted_accept (c : Connection) (f : Frame) :
    Accepted [f] c (c.accept f) ∧ (c.accept f).attached = c.attached := by
  suffices h : (c.accept f).inbound = c.inbound ++ ([f].filter fun g => !isAnswer g).map .frame ∧
      (c.accept f).generation = c.generation ∧ (c.accept f).attached = c.attached from
    ⟨⟨sameWriting_accept c f, slot_accept c f, h.1, h.2.1⟩, h.2.2⟩
  unfold accept
  split_ifs with hanswer
  · split <;> simp [hanswer]
  · simp [hanswer]

theorem accepted_results (c : Connection) (gs : List Frame) :
    Accepted gs c ((gs.map Decoded.frame ++ [Decoded.more]).foldl acceptResult c) ∧
      ((gs.map Decoded.frame ++ [Decoded.more]).foldl acceptResult c).attached = c.attached := by
  induction gs generalizing c with
  | nil => exact ⟨.refl c, rfl⟩
  | cons g gs ih =>
    obtain ⟨hfirst, hattached⟩ := accepted_accept c g
    obtain ⟨hrest, hend⟩ := ih (c.accept g)
    exact ⟨hfirst.trans hrest, hend.trans hattached⟩

/-- A stream of frames is not lost. -/
theorem isLost_of_frames {s : List UInt8} (h : (segment maxPayload s).results = gs.map .frame) :
    (segment maxPayload s).isLost = false := by
  rw [Segmentation.isLost, h, List.any_map]
  exact List.any_eq_false.mpr fun _ _ => Bool.false_ne_true

theorem isLost_of_append {s t : List UInt8}
    (h : (segment maxPayload (s ++ t)).results = gs.map .frame) :
    (segment maxPayload s).isLost = false := by
  by_contra hlost
  rw [Bool.not_eq_false] at hlost
  rw [segment_append_lost s t hlost] at h
  exact Bool.noConfusion (hlost.symm.trans (isLost_of_frames h))

/-- One read, in the middle of a frame or between two. -/
theorem receive_holding {a : Attachment} (ha : c.attached = some a) (hreading : a.isReading = true)
    {s bytes : List UInt8} (hreader : a.reader = .holding maxPayload s)
    (hs : front maxPayload s = .unfinished) (hbytes : bytes ≠ [])
    (hresults : (segment maxPayload (s ++ bytes)).results = gs.map .frame) :
    Accepted gs c (c.receive (.bytes bytes)) ∧ (c.receive (.bytes bytes)).attached =
      some { a with reader := .holding maxPayload (segment maxPayload (s ++ bytes)).rest } := by
  obtain ⟨stream, reader, isReading⟩ := a
  obtain rfl : isReading = true := hreading
  obtain rfl : reader = .holding maxPayload s := hreader
  have hfeed := Reader.feed_holding bytes hs (isLost_of_frames hresults)
  let reader := Reader.holding maxPayload (segment maxPayload (s ++ bytes)).rest
  let held : Connection := { c with attached := some ⟨stream, reader, true⟩ }
  have hreceive : c.receive (.bytes bytes) =
      (gs.map Decoded.frame ++ [Decoded.more]).foldl acceptResult held := by
    cases bytes with
    | nil => exact absurd rfl hbytes
    | cons x bytes =>
      simp only [receive, ha, hfeed, hresults, Bool.not_true, Bool.false_eq_true, ↓reduceIte, held,
        reader]
  rw [hreceive]
  have hheld : SameWriting c held := ⟨rfl, rfl, rfl, by rw [ha]; rfl⟩
  obtain ⟨haccepted, hattached⟩ := accepted_results held gs
  exact ⟨⟨hheld.trans haccepted.writing, haccepted.slot, haccepted.inbound, haccepted.generation⟩,
    hattached⟩

theorem receiveAll_holding (chunks : List (List UInt8)) (hchunks : ∀ x ∈ chunks, x ≠ []) :
    ∀ {c : Connection} {a : Attachment} {s : List UInt8} {gs : List Frame},
      c.attached = some a → a.isReading = true → a.reader = .holding maxPayload s →
      front maxPayload s = .unfinished →
      (segment maxPayload (s ++ chunks.flatten)).results = gs.map .frame →
      Accepted gs c (c.receiveAll chunks) := by
  induction chunks with
  | nil =>
    intro c a s gs _ _ _ hs hresults
    rw [List.flatten_nil, List.append_nil, segment_unfinished hs] at hresults
    obtain rfl := List.map_eq_nil_iff.mp hresults.symm
    exact .refl c
  | cons x chunks ih =>
    intro c a s gs ha hreading hreader hs hresults
    obtain ⟨hx, hrest⟩ := List.forall_mem_cons.mp hchunks
    rw [List.flatten_cons, ← List.append_assoc] at hresults
    have hlost := isLost_of_append hresults
    rw [segment_append (s ++ x) chunks.flatten hlost, eq_comm] at hresults
    -- The frames that end within the first piece, and those that end later.
    obtain ⟨fs, later, rfl, hfs, hlater⟩ := List.map_eq_append_iff.mp hresults
    obtain ⟨hfirst, hattached⟩ := receive_holding ha hreading hreader hs hx hfs.symm
    exact hfirst.trans (ih hrest hattached hreading rfl (front_rest _ hlost) hlater.symm)

/-- Awaited frames are accepted in order, however their bytes are cut. -/
theorem receiveAll_awaited {a : Attachment} (ha : c.attached = some a)
    (hreading : a.isReading = true) {chunks : List (List UInt8)}
    (h : a.reader.Awaits maxPayload chunks.flatten gs) (hchunks : ∀ x ∈ chunks, x ≠ []) :
    Accepted gs c (c.receiveAll chunks) := by
  obtain ⟨held, log, hreader, hheld, hbytes, hsent, hwithin⟩ := h
  have hempty : front maxPayload [] = .unfinished := rfl
  obtain ⟨hsegment, -⟩ := Frame.SentAs.segment_sent hsent hwithin []
  rw [segment_unfinished hempty, List.append_nil, List.append_nil, ← hbytes] at hsegment
  exact receiveAll_holding chunks hchunks ha hreading hreader hheld (by rw [hsegment])

/-! ## Dispatching -/

/-- What is put aside is dispatched frame by frame, unless the attached stream has ended. -/
theorem dispatchFrom_cases (c : Connection) {inbound : List Inbound}
    (h : ∀ why, .closed c.generation why ∉ inbound) :
    (framesIn inbound = [] ∧
        c.dispatchFrom none inbound = ({ c with inbound := [] }, .waiting (.awaitingEvent none))) ∨
      ∃ f rest, framesIn inbound = f :: framesIn rest ∧ rest ⊆ inbound ∧
        rest.length < inbound.length ∧ c.dispatchFrom none inbound =
          ({ c with subscriptions := (c.subscriptions.dispatch f).1, inbound := rest },
            .finished (.dispatched (c.subscriptions.dispatch f).2)) := by
  induction inbound with
  | nil => exact .inl ⟨rfl, rfl⟩
  | cons event rest ih =>
    cases event with
    | frame f =>
      exact .inr ⟨f, rest, rfl, List.subset_cons_self _ _, Nat.lt_succ_self _, rfl⟩
    | closed generation why =>
      have hother : generation ≠ c.generation := by
        rintro rfl
        exact h why List.mem_cons_self
      have hskip : c.dispatchFrom none (.closed generation why :: rest) =
          c.dispatchFrom none rest := if_neg hother
      rw [hskip]
      rcases ih fun why hmem => h why (List.mem_cons_of_mem _ hmem) with
        ⟨hnone, hdispatch⟩ | ⟨f, later, hframes, hsub, hlt, hdispatch⟩
      · exact .inl ⟨hnone, hdispatch⟩
      · exact .inr ⟨f, later, hframes, List.subset_cons_of_subset _ hsub,
          Nat.lt_succ_of_lt hlt, hdispatch⟩

/-- The calls of a subscription are the frames with its id among those that are put aside. -/
theorem dispatchAll_calls {id : UInt32} {expression : String} (n : Nat) :
    ∀ {c : Connection}, c.isClosed = false → c.attached.isSome = true →
      (∀ why, .closed c.generation why ∉ c.inbound) →
      c.subscriptions.expression? id = some expression → c.inbound.length ≤ n →
      ((c.dispatchAll n).2.filter fun call => call.frame.header.control = id).map
          (fun call => (call.expression, call.frame)) =
        ((framesIn c.inbound).filter fun f => f.header.control = id).map fun f =>
          (expression, f) := by
  induction n with
  | zero =>
    intro c _ _ _ _ hlength
    rw [List.eq_nil_of_length_eq_zero (Nat.le_zero.mp hlength)]
    rfl
  | succ n ih =>
    intro c hopen hattached hends hexpression hlength
    have hnext : c.dispatchNext none = c.dispatchFrom none c.inbound := by
      rw [dispatchNext, if_neg (Bool.eq_false_iff.mp hopen), if_neg]
      rw [Option.isNone_iff_eq_none, ← Option.not_isSome_iff_eq_none]
      exact not_not_intro hattached
    rcases dispatchFrom_cases c hends with ⟨hnone, hwaiting⟩ | ⟨f, rest, hframes, hsub, hlt, hone⟩
    · rw [dispatchAll, hnext, hwaiting, hnone]
      rfl
    · have hcall := SubscriptionTable.dispatch_calls hexpression f
      have hrest := ih (c := { c with
          subscriptions := (c.subscriptions.dispatch f).1, inbound := rest })
        hopen hattached (fun why hmem => hends why (hsub hmem))
        ((SubscriptionTable.expression?_dispatch _ _ _).trans hexpression)
        (Nat.le_of_lt_succ (Nat.lt_of_lt_of_le hlt hlength))
      have hframe : f :: framesIn rest = [f] ++ framesIn rest := rfl
      rw [dispatchAll, hnext, hone, hframes, hframe]
      simp only [List.filter_append, List.map_append, hcall, hrest]

end Connection

end TopicBus
