import TopicBus.Proofs.Connection.Events
import TopicBus.Proofs.Connection.Streams

/-!
The queue of a connection outlives its streams. A journal numbers the streams in the order in which
they are attached. It notes what their readers put aside, how much of this has been taken, and what
dispatches have given; the readers of earlier streams may put things aside at any moment. That the
journal agrees with the connection (`Kept`) decides what becomes of the ends of earlier streams
(`stale_ends_skipped`).
-/

namespace TopicBus

open Connection (framesIn)

/-- Something put aside, and by which reader. The reader of the `n`th stream has the number `n`. -/
structure Post where
  reader : Nat
  event : Inbound
  deriving Repr

/-- Whether it is the end of a stream. -/
def Post.isEnd (p : Post) : Bool :=
  match p.event with
  | .frame _ => false
  | .closed _ _ => true

/-- What a dispatch gives that has got an event. -/
def Progress.delivered : Progress → List (Option Delivery)
  | .finished (.dispatched x) => [x]
  | _ => []

theorem Progress.Quiet.delivered {p : Progress} {d : Option Nat} (h : p.Quiet d) :
    p.delivered = [] := by
  cases p with
  | waiting a => rfl
  | finished o =>
    cases o with
    | dispatched x => nomatch h.2
    | _ => rfl

theorem framesIn_ends {posts : List Post} (h : ∀ p ∈ posts, p.isEnd = true) :
    framesIn (posts.map Post.event) = [] := by
  induction posts with
  | nil => rfl
  | cons p posts ih =>
    obtain ⟨hp, hposts⟩ := List.forall_mem_cons.mp h
    obtain ⟨reader, event⟩ := p
    cases event with
    | frame f => nomatch hp
    | closed generation why => exact ih hposts

/-- What can happen to a connection while the readers of all its streams may still be about. -/
inductive Turn where
  | happening (x : Happening)
  /-- Some reader handles one more frame. -/
  | frame (reader : Nat) (f : Frame)
  /-- Some reader comes to the end of its stream. -/
  | ends (reader : Nat) (why : Option Fault)
  deriving Repr

namespace Turn

def act (v : Conversation) : Turn → Conversation
  | .happening x => v.step x
  | .frame _ f => { v with connection := v.connection.accept f }
  | .ends reader why =>
    { v with connection := { v.connection with
        inbound := v.connection.inbound ++ [.closed reader why] } }

/-- Who puts something aside, if anyone does. -/
def reader (current : Nat) : Turn → Nat
  | .happening _ => current
  | .frame reader _ | .ends reader _ => reader

def begins : Turn → Bool
  | .happening (.begin _ _) => true
  | _ => false

/-- The stream that is attached: all messages of its greeting have been written. -/
def attaches (v : Conversation) : Turn → List StreamId
  | .happening (.reply _ r) =>
    ((v.activity.bind fun a => a.greeted? r).map Greeting.stream).toList
  | _ => []

/-- What a dispatch gives that is over now. -/
def delivered (v w : Conversation) (t : Turn) : List (Option Delivery) :=
  if w.activity.isNone && (v.activity.isSome || t.begins) then
    match w.outcome with
    | some (.dispatched x) => [x]
    | _ => []
  else []

end Turn

structure Journal where
  conversation : Conversation
  /-- All streams that have been attached. -/
  streams : List StreamId
  /-- All that has been put aside. -/
  posts : List Post
  /-- How much of it has been taken. -/
  taken : Nat
  /-- What dispatches have given that did not fail. -/
  given : List (Option Delivery)

namespace Journal

def start (c : Connection) : Journal := ⟨.start c, [], [], 0, []⟩

def connection (v : Journal) : Connection := v.conversation.connection

def queue (v : Journal) : List Post := v.posts.drop v.taken

def step (v : Journal) (t : Turn) : Journal :=
  let w := t.act v.conversation
  let before := v.connection.inbound
  let after := w.connection.inbound
  { conversation := w
    streams := v.streams ++ t.attaches v.conversation
    posts := v.posts ++ (after.drop before.length).map (Post.mk (t.reader v.streams.length))
    taken := v.taken + (before.length - after.length)
    given := v.given ++ t.delivered v.conversation w }

def run (v : Journal) (ts : List Turn) : Journal := ts.foldl step v

/-- Only a stream that has been attached has a reader. -/
def Possible (v : Journal) : Turn → Prop
  | .happening _ => True
  | .frame reader _ | .ends reader _ => 0 < reader ∧ reader ≤ v.streams.length

instance (v : Journal) (t : Turn) : Decidable (v.Possible t) :=
  match t with
  | .happening _ => inferInstanceAs (Decidable True)
  | .frame reader _ | .ends reader _ =>
    inferInstanceAs (Decidable (0 < reader ∧ reader ≤ v.streams.length))

def Admits (v : Journal) : List Turn → Prop
  | [] => True
  | t :: ts => v.Possible t ∧ (v.step t).Admits ts

instance decidableAdmits (v : Journal) : (ts : List Turn) → Decidable (v.Admits ts)
  | [] => inferInstanceAs (Decidable True)
  | t :: ts =>
    have := decidableAdmits (v.step t) ts
    inferInstanceAs (Decidable (v.Possible t ∧ (v.step t).Admits ts))

/-- What is taken out of the queue between two moments. -/
def fetched (v w : Journal) : List Post := v.queue.take (w.taken - v.taken)

/-- What a dispatch does with the queue. All that it skips are the ends of streams before the last
one, and only the end of the attached stream costs the connection its stream. -/
inductive Fetches (v w : Journal) : List Post → Prop
  /-- There is nothing else, and it waits. -/
  | waits {stale : List Post} {d : Option Nat}
      (hstale : ∀ p ∈ stale, p.isEnd = true ∧ p.reader < w.streams.length) (hqueue : w.queue = [])
      (hattached : w.connection.attached.isSome)
      (hstays : v.connection.attached.isSome → w.connection.attached = v.connection.attached)
      (hwaits : w.conversation.activity = some (.awaitingEvent d)) : Fetches v w stale
  /-- It takes a frame and is over. -/
  | frame {stale : List Post} {p : Post} {f : Frame}
      (hstale : ∀ p ∈ stale, p.isEnd = true ∧ p.reader < w.streams.length)
      (hframe : p.event = .frame f) (hattached : w.connection.attached.isSome)
      (hstays : v.connection.attached.isSome → w.connection.attached = v.connection.attached)
      (hover : w.conversation.activity = none) (hgives : w.conversation.outcome =
        some (.dispatched (v.connection.subscriptions.dispatch f).2)) : Fetches v w (stale ++ [p])
  /-- The attached stream has ended, and it wants another. -/
  | ended {stale : List Post} {p : Post} {d : Option Nat}
      (hstale : ∀ p ∈ stale, p.isEnd = true ∧ p.reader < v.streams.length)
      (hattached : v.connection.attached.isSome) (hend : p.isEnd = true)
      (hreader : p.reader = v.streams.length) (hgone : w.connection.attached = none)
      (hagain : w.conversation.activity = some (.establishing (.connecting 1) (.dispatch d))) :
      Fetches v w (stale ++ [p])

/-! ## What readers put aside -/

/-- The journal of a connection. -/
structure Kept (streams : List StreamId) (posts : List Post) (taken : Nat) (c : Connection) :
    Prop where
  generation : streams.length = c.generation
  attached : ∀ a, c.attached = some a → streams.getLast? = some a.stream
  taken_le : taken ≤ posts.length
  queue : (posts.drop taken).map Post.event = c.inbound
  readers : ∀ p ∈ posts, p.reader ≤ streams.length
  labelled : ∀ p ∈ posts, ∀ generation why, p.event = .closed generation why →
    generation = p.reader
  /-- If the attached stream has ended, its end is still to be taken. -/
  ended : ∀ a, c.attached = some a → a.isReading = false →
    ∃ p ∈ posts.drop taken, p.isEnd = true ∧ p.reader = streams.length

/-- A reader has put these events aside. -/
structure Posted (reader : Nat) (events : List Inbound) (c c' : Connection) : Prop where
  writing : Connection.SameWriting c c'
  inbound : c'.inbound = c.inbound ++ events
  generation : c'.generation = c.generation
  labelled : ∀ generation why, .closed generation why ∈ events → generation = reader
  reading : ∀ a, c'.attached = some a → a.isReading = false →
    (∃ b, c.attached = some b ∧ b.isReading = false) ∨
      reader = c.generation ∧ ∃ why, .closed reader why ∈ events

variable {reader : Nat} {events more : List Inbound} {c c' c'' : Connection}

theorem Posted.refl (reader : Nat) (c : Connection) : Posted reader [] c c :=
  ⟨.refl c, by simp, rfl, by simp, fun a ha hended => .inl ⟨a, ha, hended⟩⟩

theorem Posted.trans (h : Posted reader events c c') (h' : Posted reader more c' c'') :
    Posted reader (events ++ more) c c'' where
  writing := h.writing.trans h'.writing
  inbound := by rw [h'.inbound, h.inbound, List.append_assoc]
  generation := h'.generation.trans h.generation
  labelled := by
    intro generation why hmem
    rcases List.mem_append.mp hmem with hmem | hmem
    · exact h.labelled generation why hmem
    · exact h'.labelled generation why hmem
  reading := by
    intro a ha hended
    rcases h'.reading a ha hended with ⟨b, hb, hended⟩ | ⟨hreader, why, hwhy⟩
    · rcases h.reading b hb hended with hbefore | ⟨hreader, why, hwhy⟩
      · exact .inl hbefore
      · exact .inr ⟨hreader, why, List.mem_append_left _ hwhy⟩
    · exact .inr ⟨hreader.trans h.generation, why, List.mem_append_right _ hwhy⟩

theorem posted_accept (reader : Nat) (c : Connection) (f : Frame) :
    ∃ events, Posted reader events c (c.accept f) := by
  obtain ⟨haccepted, hattached⟩ := Connection.accepted_accept c f
  refine ⟨_, haccepted.writing, haccepted.inbound, haccepted.generation, by simp, ?_⟩
  intro a ha hended
  exact .inl ⟨a, hattached ▸ ha, hended⟩

theorem posted_endReading (c : Connection) (why : Option Fault) :
    Posted c.generation [.closed c.generation why] c (c.endReading why) := by
  refine ⟨Connection.sameWriting_endReading c why, rfl, rfl, by simp, ?_⟩
  exact fun _ _ _ => .inr ⟨rfl, why, by simp⟩

theorem posted_acceptResult (c : Connection) (r : Decoded) :
    ∃ events, Posted c.generation events c (c.acceptResult r) := by
  unfold Connection.acceptResult
  split
  · exact ⟨_, .refl _ c⟩
  · exact ⟨_, .refl _ c⟩
  · exact posted_accept _ c _
  · exact ⟨_, posted_endReading c _⟩

theorem posted_acceptResults (c : Connection) (results : List Decoded) :
    ∃ events, Posted c.generation events c (results.foldl Connection.acceptResult c) := by
  induction results generalizing c with
  | nil => exact ⟨_, .refl _ c⟩
  | cons r results ih =>
    obtain ⟨events, hfirst⟩ := posted_acceptResult c r
    obtain ⟨more, hrest⟩ := ih (c.acceptResult r)
    rw [hfirst.generation] at hrest
    exact ⟨_, hfirst.trans hrest⟩

/-- What the reader of the attached stream does. -/
theorem posted_receive (c : Connection) (chunk : Chunk) :
    ∃ events, Posted c.generation events c (c.receive chunk) := by
  unfold Connection.receive
  split
  · exact ⟨_, .refl _ c⟩
  · next a ha =>
    split_ifs with hreading
    · exact ⟨_, .refl _ c⟩
    · split
      · exact ⟨_, posted_endReading c _⟩
      · split <;> exact ⟨_, posted_endReading c _⟩
      · next bytes _ =>
        let held : Connection :=
          { c with attached := some { a with reader := (a.reader.feed bytes).1 } }
        have hheld : Posted c.generation [] c held := by
          refine ⟨Connection.sameWriting_withReader ha _, by simp [held], rfl, by simp, ?_⟩
          rintro b ⟨⟩ hended
          exact .inl ⟨a, ha, hended⟩
        obtain ⟨events, hrest⟩ := posted_acceptResults held (a.reader.feed bytes).2
        exact ⟨_, hheld.trans hrest⟩

variable {streams : List StreamId} {posts fetched left : List Post} {taken : Nat}

theorem Kept.post (h : Kept streams posts taken c) (hreader : reader ≤ streams.length)
    (hposted : Posted reader events c c') :
    Kept streams (posts ++ events.map (Post.mk reader)) taken c' where
  generation := h.generation.trans hposted.generation.symm
  attached := by
    intro a ha
    obtain ⟨b, hb, hstream⟩ := hposted.writing.exists_attached ha
    rw [h.attached b hb, hstream]
  taken_le := by
    have := h.taken_le
    simp
    omega
  queue := by
    rw [List.drop_append_of_le_length h.taken_le, List.map_append, h.queue, hposted.inbound]
    simp [Function.comp_def]
  readers := by
    intro p hp
    rcases List.mem_append.mp hp with hp | hp
    · exact h.readers p hp
    · obtain ⟨event, -, rfl⟩ := List.mem_map.mp hp
      exact hreader
  labelled := by
    intro p hp generation why hclosed
    rcases List.mem_append.mp hp with hp | hp
    · exact h.labelled p hp generation why hclosed
    · obtain ⟨event, hevent, rfl⟩ := List.mem_map.mp hp
      exact hposted.labelled generation why (hclosed ▸ hevent)
  ended := by
    intro a ha hended
    rw [List.drop_append_of_le_length h.taken_le]
    rcases hposted.reading a ha hended with ⟨b, hb, hbefore⟩ | ⟨hcurrent, why, hwhy⟩
    · obtain ⟨p, hp, hend⟩ := h.ended b hb hbefore
      exact ⟨p, List.mem_append_left _ hp, hend⟩
    · refine ⟨⟨reader, .closed reader why⟩, ?_, rfl, hcurrent.trans h.generation.symm⟩
      exact List.mem_append_right _ (List.mem_map.mpr ⟨_, hwhy, rfl⟩)

/-- A new stream gets the next number. -/
theorem Kept.attach (h : Kept streams posts taken c) (g : Greeting) :
    Kept (streams ++ [g.stream]) posts taken (c.attach g) where
  generation := by simp [Connection.attach, h.generation]
  attached := by
    rintro a ⟨⟩
    simp
  taken_le := h.taken_le
  queue := h.queue
  readers := by
    intro p hp
    have := h.readers p hp
    simp
    omega
  labelled := h.labelled
  ended := by
    rintro a ⟨⟩ hended
    nomatch hended

/-- What is taken must not be the end of the stream that stays attached. -/
theorem Kept.fetch (h : Kept streams posts taken c) (hcut : posts.drop taken = fetched ++ left)
    (hinbound : c'.inbound = left.map Post.event) (hgeneration : c'.generation = c.generation)
    (hattached : c'.attached = none ∨ c'.attached = c.attached ∧
      ∀ p ∈ fetched, p.isEnd = true → p.reader < streams.length) :
    Kept streams posts (taken + fetched.length) c' := by
  have hleft : posts.drop (taken + fetched.length) = left := by
    rw [← List.drop_drop, hcut, List.drop_left]
  have hlength : posts.length - taken = fetched.length + left.length := by
    rw [← List.length_drop, hcut, List.length_append]
  refine ⟨h.generation.trans hgeneration.symm, fun a ha => ?_, ?_, ?_, h.readers, h.labelled,
    fun a ha hended => ?_⟩
  · rcases hattached with hnone | ⟨hsame, -⟩
    · rw [hnone] at ha
      nomatch ha
    · exact h.attached a (hsame ▸ ha)
  · have := h.taken_le
    omega
  · rw [hleft, hinbound]
  · rcases hattached with hnone | ⟨hsame, hfetched⟩
    · rw [hnone] at ha
      nomatch ha
    · obtain ⟨p, hp, hend, hreader⟩ := h.ended a (hsame ▸ ha) hended
      rw [hcut] at hp
      rcases List.mem_append.mp hp with hp | hp
      · exact absurd hreader (Nat.ne_of_lt (hfetched p hp hend))
      · exact ⟨p, hleft ▸ hp, hend, hreader⟩

/-- Ends that are stale for the connection were put aside by earlier readers. -/
theorem Kept.past (h : Kept streams posts taken c) {stale : List Post}
    (hmem : ∀ p ∈ stale, p ∈ posts) (hstale : ∀ e ∈ stale.map Post.event, c.IsStale e) :
    ∀ p ∈ stale, p.isEnd = true ∧ p.reader < streams.length := by
  intro p hp
  obtain ⟨generation, why, hevent, hne⟩ := hstale p.event (List.mem_map_of_mem hp)
  obtain rfl := h.labelled p (hmem p hp) generation why hevent
  refine ⟨by rw [Post.isEnd, hevent], Nat.lt_of_le_of_ne (h.readers p (hmem p hp)) ?_⟩
  rw [h.generation]
  exact hne

/-- The queue cut behind stale ends and the event that follows them, in posts. -/
theorem Kept.cut (h : Kept streams posts taken c) {stale rest : List Inbound} {e : Inbound}
    (hcut : c.inbound = stale ++ e :: rest) (hstale : ∀ e ∈ stale, c.IsStale e) :
    ∃ past p left, posts.drop taken = (past ++ [p]) ++ left ∧ rest = left.map Post.event ∧
      p.event = e ∧ p ∈ posts ∧ ∀ q ∈ past, q.isEnd = true ∧ q.reader < streams.length := by
  have hqueue := h.queue
  rw [hcut] at hqueue
  obtain ⟨past, later, hposts, rfl, hlater⟩ := List.map_eq_append_iff.mp hqueue
  obtain ⟨p, left, rfl, hp, rfl⟩ := List.map_eq_cons_iff.mp hlater
  have hmem : ∀ q ∈ posts.drop taken, q ∈ posts := fun q hq => List.mem_of_mem_drop hq
  rw [hposts] at hmem
  refine ⟨past, p, left, by simp [hposts], rfl, hp, hmem p (by simp), ?_⟩
  exact h.past (fun q hq => hmem q (by simp [hq])) hstale

/-! ## One turn -/

/-- What holds of a journal at any time. -/
structure Sound (v : Journal) : Prop where
  kept : Kept v.streams v.posts v.taken v.connection
  guarded : v.conversation.Guarded fun _ => True
  waiting : ∀ d, v.conversation.activity = some (.awaitingEvent d) → v.connection.attached.isSome
  /-- Each frame that was taken is what one dispatch gave. -/
  ledger : List.Forall₂ (fun f x => ∀ y ∈ x, y.frame = f)
    (framesIn ((v.posts.take v.taken).map Post.event)) v.given

/-- The connection that an operation proceeds from in a turn. -/
inductive From (v : Journal) (t : Turn) : Connection → Prop
  | same (h : t.attaches v.conversation = []) : From v t v.connection
  | attached {g : Greeting} (hnone : v.connection.attached = none)
      (h : t.attaches v.conversation = [g.stream]) : From v t (v.connection.attach g)

variable {v : Journal} {t : Turn} {u : Conversation} {next : Connection × Progress}
  {d : Option Nat}

/-- A turn in which an operation goes on or begins. -/
structure Operates (v : Journal) (t : Turn) (next : Connection × Progress) : Prop where
  act : ∃ u, t.act v.conversation = Conversation.settle u next
  ends : (v.conversation.activity.isSome || t.begins) = true
  guarded : (t.act v.conversation).Guarded fun _ => True

theorem From.kept (h : From v t c) (hkept : Kept v.streams v.posts v.taken v.connection) :
    Kept (v.streams ++ t.attaches v.conversation) v.posts v.taken c := by
  cases h with
  | same hnone =>
    rw [hnone, List.append_nil]
    exact hkept
  | attached _ hnew =>
    rw [hnew]
    exact hkept.attach _

theorem From.inbound (h : From v t c) : c.inbound = v.connection.inbound := by
  cases h <;> rfl

theorem From.subscriptions (h : From v t c) : c.subscriptions = v.connection.subscriptions := by
  cases h <;> rfl

/-- Whoever has a stream does not get another. -/
theorem From.attached_eq (h : From v t c) (hattached : v.connection.attached.isSome) :
    c.attached = v.connection.attached := by
  cases h with
  | same => rfl
  | attached hnone =>
    rw [hnone] at hattached
    nomatch hattached

theorem Operates.delivered (h : Operates v t next) :
    t.delivered v.conversation (t.act v.conversation) = next.2.delivered := by
  obtain ⟨u, hact⟩ := h.act
  rw [Turn.delivered, hact, h.ends, Bool.and_true]
  rcases next with ⟨c, a | o⟩
  · rfl
  · cases o <;> rfl

theorem Operates.connection (h : Operates v t next) :
    (t.act v.conversation).connection = next.1 := by
  obtain ⟨u, hact⟩ := h.act
  rw [hact, Conversation.connection_settle]

theorem Operates.activity (h : Operates v t next) {a : Activity}
    (ha : (t.act v.conversation).activity = some a) : next.2 = .waiting a := by
  obtain ⟨u, hact⟩ := h.act
  rw [hact] at ha
  rcases next with ⟨c, b | o⟩
  · exact congrArg Progress.waiting (Option.some.inj ha)
  · nomatch ha

theorem Operates.waits {a : Activity} (h : Operates v t (c, .waiting a)) :
    (t.act v.conversation).activity = some a := by
  obtain ⟨u, hact⟩ := h.act
  rw [hact]
  rfl

theorem Operates.settled {o : Outcome} (h : Operates v t (c, .finished o)) :
    (t.act v.conversation).activity = none ∧ (t.act v.conversation).outcome = some o := by
  obtain ⟨u, hact⟩ := h.act
  rw [hact]
  exact ⟨rfl, rfl⟩

/-- Some posts are taken, and nothing is put aside meanwhile. -/
theorem Operates.step (h : Operates v t next) (hcut : v.queue = fetched ++ left)
    (hbefore : v.queue.map Post.event = v.connection.inbound)
    (hafter : next.1.inbound = left.map Post.event) :
    v.step t = ⟨t.act v.conversation, v.streams ++ t.attaches v.conversation, v.posts,
      v.taken + fetched.length, v.given ++ next.2.delivered⟩ := by
  have hlength : v.connection.inbound.length = fetched.length + left.length := by
    rw [← hbefore, hcut]
    simp
  have hnone : left.length ≤ v.connection.inbound.length := by omega
  have hcount : v.connection.inbound.length - left.length = fetched.length := by omega
  simp [Journal.step, h.delivered, h.connection, hafter, hnone, hcount]

/-- An operation that takes some posts. Its journal is as it was said, if none of them is the end of
a stream that stays attached and they are what a dispatch gave. -/
theorem Sound.fetch (h : v.Sound) (ht : Operates v t next) (hc : From v t c)
    (hcut : v.queue = fetched ++ left) (hinbound : next.1.inbound = left.map Post.event)
    (hgeneration : next.1.generation = c.generation)
    (hattached : next.1.attached = none ∨ next.1.attached = c.attached ∧
      ∀ p ∈ fetched, p.isEnd = true → p.reader < (v.streams ++ t.attaches v.conversation).length)
    (hwaiting : ∀ e, next.2 = .waiting (.awaitingEvent e) → next.1.attached.isSome)
    (hledger : List.Forall₂ (fun f x => ∀ y ∈ x, y.frame = f)
      (framesIn (fetched.map Post.event)) next.2.delivered) :
    (v.step t).Sound ∧ v.fetched (v.step t) = fetched := by
  rw [ht.step hcut h.kept.queue hinbound]
  refine ⟨⟨?_, ht.guarded, fun e he => ?_, ?_⟩, ?_⟩
  · show Kept _ _ _ (t.act v.conversation).connection
    rw [ht.connection]
    exact (hc.kept h.kept).fetch hcut hinbound hgeneration hattached
  · show (t.act v.conversation).connection.attached.isSome
    rw [ht.connection]
    exact hwaiting e (ht.activity he)
  · have htaken : v.posts.take (v.taken + fetched.length) = v.posts.take v.taken ++ fetched := by
      rw [List.take_add, ← queue, hcut, List.take_left]
    dsimp only
    rw [htaken, List.map_append, Connection.framesIn_append]
    exact List.rel_append h.ledger hledger
  · simp [Journal.fetched, hcut]

/-- An operation that leaves the queue alone. -/
theorem Sound.keep (h : v.Sound) (ht : Operates v t next) (hc : From v t c)
    (hinbound : next.1.inbound = c.inbound) (hgeneration : next.1.generation = c.generation)
    (hattached : next.1.attached = none ∨ next.1.attached = c.attached)
    (hwaiting : ∀ e, next.2 = .waiting (.awaitingEvent e) → next.1.attached.isSome)
    (hnothing : next.2.delivered = []) :
    (v.step t).Sound ∧ v.fetched (v.step t) = [] := by
  refine h.fetch ht hc (List.nil_append v.queue).symm ?_ hgeneration ?_ hwaiting (hnothing ▸ .nil)
  · rw [hinbound, hc.inbound]
    exact h.kept.queue.symm
  · exact hattached.imp_right fun hsame => ⟨hsame, by simp⟩

theorem Sound.idle (h : v.Sound) (ht : Operates v t next) (hc : From v t c)
    (hnext : Connection.Idles d c next) :
    (v.step t).Sound ∧ v.fetched (v.step t) = [] := by
  refine h.keep ht hc hnext.inbound hnext.generation (hnext.attached.symm.imp_left And.left)
    (fun e hwaits => ?_) hnext.quiet.delivered
  have hquiet := hnext.quiet
  rw [hwaits] at hquiet
  nomatch hquiet.2

/-- A stream that an operation leaves alone is still attached behind it. -/
theorem From.stays (hc : From v t c) (ht : Operates v t next)
    (hsame : next.1.attached = c.attached) (hattached : c.attached.isSome) :
    (v.step t).connection.attached.isSome ∧ (v.connection.attached.isSome →
      (v.step t).connection.attached = v.connection.attached) := by
  have hstep : (v.step t).connection.attached = c.attached :=
    (congrArg Connection.attached ht.connection).trans hsame
  rw [hstep]
  exact ⟨hattached, hc.attached_eq⟩

/-- A dispatch that looks into the queue. -/
theorem Sound.draw (h : v.Sound) (ht : Operates v t next) (hc : From v t c)
    (hattached : c.attached.isSome) (hnext : Connection.Draws d c next) :
    (v.step t).Sound ∧ v.Fetches (v.step t) (v.fetched (v.step t)) := by
  have hkept := hc.kept h.kept
  have hconnection : (v.step t).connection = next.1 := ht.connection
  cases hnext with
  | waits hstale =>
    have hends := hkept.past (fun _ hp => List.mem_of_mem_drop hp) (hkept.queue.symm ▸ hstale)
    obtain ⟨hsound, hfetched⟩ := h.fetch ht hc (List.append_nil _).symm rfl rfl
      (.inr ⟨rfl, fun p hp _ => (hends p hp).2⟩) (fun _ _ => hattached)
      (framesIn_ends (fun p hp => (hends p hp).1) ▸ .nil)
    obtain ⟨hstill, hstays⟩ := hc.stays ht rfl hattached
    have hempty := hsound.kept.queue
    rw [hconnection] at hempty
    rw [hfetched]
    exact ⟨hsound, .waits hends (List.map_eq_nil_iff.mp hempty) hstill hstays ht.waits⟩
  | @frame stale rest f hcut hstale =>
    obtain ⟨past, p, left, hqueued, hrest, hp, -, hends⟩ := hkept.cut hcut hstale
    have hframe : p.isEnd = false := by rw [Post.isEnd, hp]
    have hreaders : ∀ q ∈ past ++ [p], q.isEnd = true →
        q.reader < (v.streams ++ t.attaches v.conversation).length := by
      intro q hq hend
      rcases List.mem_append.mp hq with hq | hq
      · exact (hends q hq).2
      · simp [List.mem_singleton.mp hq, hframe] at hend
    have hledger : List.Forall₂ (fun f x => ∀ y ∈ x, y.frame = f)
        (framesIn ((past ++ [p]).map Post.event)) [(c.subscriptions.dispatch f).2] := by
      rw [List.map_append, Connection.framesIn_append, framesIn_ends fun q hq => (hends q hq).1]
      simp only [List.map_cons, List.map_nil, hp]
      exact .cons (fun y hy => SubscriptionTable.frame_of_dispatch hy) .nil
    obtain ⟨hsound, hfetched⟩ :=
      h.fetch ht hc hqueued hrest rfl (.inr ⟨rfl, hreaders⟩) (by simp) hledger
    obtain ⟨hstill, hstays⟩ := hc.stays ht rfl hattached
    rw [hfetched]
    refine ⟨hsound, .frame hends hp hstill hstays ht.settled.1 ?_⟩
    rw [← hc.subscriptions]
    exact ht.settled.2
  | @ended stale rest why hcut hstale =>
    obtain ⟨past, p, left, hqueued, hrest, hp, hmem, hends⟩ := hkept.cut hcut hstale
    have hreader : p.reader = (v.streams ++ t.attaches v.conversation).length := by
      rw [hkept.generation, hkept.labelled p hmem _ _ hp]
    have hend : p.isEnd = true := by rw [Post.isEnd, hp]
    have hledger : framesIn ((past ++ [p]).map Post.event) = [] := by
      refine framesIn_ends (List.forall_mem_append.mpr ⟨fun q hq => (hends q hq).1, ?_⟩)
      exact List.forall_mem_singleton.mpr hend
    obtain ⟨hsound, hfetched⟩ :=
      h.fetch ht hc hqueued hrest rfl (.inl rfl) (by simp [Connection.establish]) (hledger ▸ .nil)
    rw [hfetched]
    cases hc with
    | same hnone =>
      rw [hnone, List.append_nil] at hends hreader
      exact ⟨hsound, .ended hends hattached hend hreader
        (congrArg Connection.attached hconnection) ht.waits⟩
    | attached hnone hnew =>
      -- Nothing has been put aside by the reader of a stream that is only just attached.
      have hbefore := h.kept.readers p hmem
      rw [hnew, List.length_append, List.length_singleton] at hreader
      omega

/-- As long as nothing is taken, a dispatch keeps its stream. -/
def Holds (v w : Journal) : Prop :=
  v.connection.attached.isSome → (∃ a ∈ w.conversation.activity, a.isDispatching = true) →
    w.connection.attached.isSome

/-- Either nothing is taken, or a dispatch does it. -/
def Acts (v w : Journal) : Prop :=
  v.fetched w = [] ∧ v.Holds w ∨ v.Fetches w (v.fetched w)

/-- A reader puts some events aside. -/
theorem Sound.post (h : v.Sound) {x : Connection}
    (hact : t.act v.conversation = { v.conversation with connection := x })
    (hposted : Posted (t.reader v.streams.length) events v.connection x)
    (hreader : t.reader v.streams.length ≤ v.streams.length)
    (hattaches : t.attaches v.conversation = [])
    (hbegins : v.conversation.activity = none → t.begins = false) :
    (v.step t).Sound ∧ v.Acts (v.step t) := by
  have hdelivered : t.delivered v.conversation (t.act v.conversation) = [] := by
    rw [Turn.delivered, hact]
    cases ha : v.conversation.activity with
    | none => simp [hbegins ha]
    | some a => simp
  rw [hact] at hdelivered
  have hstep : v.step t = { v with
      conversation := { v.conversation with connection := x }
      posts := v.posts ++ events.map (Post.mk (t.reader v.streams.length)) } := by
    simp [Journal.step, hact, hdelivered, hattaches, hposted.inbound]
  have hstays (hsome : v.connection.attached.isSome) : x.attached.isSome := by
    obtain ⟨a, ha⟩ := Option.isSome_iff_exists.mp hsome
    obtain ⟨b, hb, -⟩ := hposted.writing.symm.exists_attached ha
    exact Option.isSome_iff_exists.mpr ⟨b, hb⟩
  rw [hstep]
  refine ⟨⟨h.kept.post hreader hposted, ?_, fun e he => hstays (h.waiting e he), ?_⟩,
    .inl ⟨by simp [fetched], fun hsome _ => hstays hsome⟩⟩
  · exact ⟨hposted.writing.guarded h.guarded.connection,
      fun a ha => hposted.writing.activity_guarded (h.guarded.activity a ha)⟩
  · dsimp only
    rw [List.take_append_of_le_length h.kept.taken_le]
    exact h.ledger

/-- Something that changes nothing. -/
theorem Sound.nothing (h : v.Sound) {x : Happening}
    (hstep : v.conversation.step x = v.conversation)
    (hattaches : (Turn.happening x).attaches v.conversation = [])
    (hbegins : v.conversation.activity = none → (Turn.happening x).begins = false) :
    (v.step (.happening x)).Sound ∧ v.Acts (v.step (.happening x)) :=
  h.post hstep (.refl _ v.connection) (Nat.le_refl _) hattaches hbegins

/-- An operation goes on or begins. -/
theorem Sound.proceed (h : v.Sound) (ht : Operates v t next) (hc : From v t c)
    (hnext : Connection.Proceeds d c next) : (v.step t).Sound ∧ v.Acts (v.step t) := by
  cases hnext with
  | idle hidle =>
    obtain ⟨hsound, hnone⟩ := h.idle ht hc hidle
    refine ⟨hsound, .inl ⟨hnone, fun hsome ⟨a, ha, hdispatching⟩ => ?_⟩⟩
    show (t.act v.conversation).connection.attached.isSome
    rw [ht.connection]
    rcases hidle.attached with hsame | ⟨-, hno⟩
    · rw [hsame, hc.attached_eq hsome]
      exact hsome
    · rw [ht.activity ha] at hno
      exact Bool.noConfusion (hdispatching.symm.trans hno)
  | draw hattached hdraws =>
    obtain ⟨hsound, hfetches⟩ := h.draw ht hc hattached hdraws
    exact ⟨hsound, .inr hfetches⟩

/-- A reply to something else, or a deadline that there is not. -/
theorem Sound.ignore (h : v.Sound) {a : Activity} (ha : v.conversation.activity = some a)
    (ht : Operates v t (v.connection, .waiting a)) (hnone : t.attaches v.conversation = []) :
    (v.step t).Sound ∧ v.Acts (v.step t) := by
  obtain ⟨hsound, hfetched⟩ := h.keep ht (.same hnone) rfl rfl (.inr rfl)
    (fun e hwaits => h.waiting e (ha.trans (congrArg some (Progress.waiting.inj hwaits)))) rfl
  refine ⟨hsound, .inl ⟨hfetched, fun hsome _ => ?_⟩⟩
  show (t.act v.conversation).connection.attached.isSome
  rw [ht.connection]
  exact hsome

theorem operates_begin (h : v.Sound) (ha : v.conversation.activity = none) (now : Nat)
    (op : Operation) :
    Operates v (.happening (.begin now op)) (v.connection.begin now op) := by
  have hact : (Turn.happening (.begin now op)).act v.conversation =
      { v.conversation with outcome := none }.settle (v.connection.begin now op) :=
    Conversation.step_begin_of_rest ha now op
  refine ⟨⟨_, hact⟩, by simp [Turn.begins], ?_⟩
  rw [hact]
  exact Conversation.guarded_settle (Connection.guarded_begin h.guarded.connection now op)

theorem operates_reply (h : v.Sound) {a : Activity} (ha : v.conversation.activity = some a)
    (now : Nat) (r : Reply) :
    Operates v (.happening (.reply now r)) (v.connection.resume now a r) := by
  have hact : (Turn.happening (.reply now r)).act v.conversation =
      { v.conversation with written := a.demand.record v.conversation.written r }.settle
        (v.connection.resume now a r) := Conversation.step_reply_of_busy ha now r
  refine ⟨⟨_, hact⟩, by simp [ha], ?_⟩
  rw [hact]
  exact Conversation.guarded_settle (Connection.guarded_resume h.guarded.connection
    (h.guarded.activity a ha) now fun _ _ _ _ => trivial)

theorem operates_expire (h : v.Sound) {a : Activity} (ha : v.conversation.activity = some a) :
    Operates v (.happening .expire) (v.connection.expire a) := by
  have hact : (Turn.happening .expire).act v.conversation =
      v.conversation.settle (v.connection.expire a) := Conversation.step_expire_of_busy ha
  refine ⟨⟨_, hact⟩, by simp [ha], ?_⟩
  rw [hact]
  refine Conversation.guarded_settle ⟨fun _ _ => trivial, ?_⟩
  have hexpires := Connection.expires_expire v.connection a
  generalize v.connection.expire a = next at hexpires
  cases hexpires with
  | ignored => exact h.guarded.activity a ha
  | timeout => trivial

theorem Sound.begin (h : v.Sound) (now : Nat) (op : Operation) :
    (v.step (.happening (.begin now op))).Sound ∧
      v.Acts (v.step (.happening (.begin now op))) := by
  cases ha : v.conversation.activity with
  | some a =>
    exact h.nothing (Conversation.step_begin_of_busy ha now op) rfl (by simp [ha])
  | none =>
    exact h.proceed (operates_begin h ha now op) (.same rfl)
      (Connection.proceeds_begin v.connection now op)

theorem Sound.reply (h : v.Sound) (now : Nat) (r : Reply) :
    (v.step (.happening (.reply now r))).Sound ∧
      v.Acts (v.step (.happening (.reply now r))) := by
  cases ha : v.conversation.activity with
  | none =>
    exact h.nothing (Conversation.step_reply_of_rest ha now r) (by simp [Turn.attaches, ha])
      fun _ => rfl
  | some a =>
    have ht := operates_reply h ha now r
    have hresumes := Connection.resumes_resume v.connection now a r
    generalize v.connection.resume now a r = next at ht hresumes
    cases hresumes with
    | ignored hnone => exact h.ignore ha ht (by simp [Turn.attaches, ha, hnone])
    | goesOn hnone hnext => exact h.proceed ht (.same (by simp [Turn.attaches, ha, hnone])) hnext
    | attached hsome hnext =>
      obtain ⟨goal, rfl⟩ := Activity.eq_of_greeted? hsome
      refine h.proceed ht (.attached (h.guarded.activity _ ha).1 ?_) hnext
      simp [Turn.attaches, ha, hsome]

theorem Sound.expire (h : v.Sound) :
    (v.step (.happening .expire)).Sound ∧ v.Acts (v.step (.happening .expire)) := by
  cases ha : v.conversation.activity with
  | none => exact h.nothing (Conversation.step_expire_of_rest ha) rfl fun _ => rfl
  | some a =>
    have ht := operates_expire h ha
    have hexpires := Connection.expires_expire v.connection a
    generalize v.connection.expire a = next at ht hexpires
    cases hexpires with
    | ignored => exact h.ignore ha ht rfl
    | timeout hinbound hgeneration hattached =>
      obtain ⟨hsound, hfetched⟩ := h.keep ht (.same rfl) hinbound hgeneration
        (hattached.symm.imp_left And.left) (by simp) rfl
      refine ⟨hsound, .inl ⟨hfetched, fun _ hdispatches => ?_⟩⟩
      obtain ⟨b, hb, -⟩ := hdispatches
      cases ht.activity hb

theorem Sound.step (h : v.Sound) (ht : v.Possible t) : (v.step t).Sound ∧ v.Acts (v.step t) := by
  cases t with
  | frame reader f =>
    obtain ⟨events, hposted⟩ := posted_accept reader v.connection f
    exact h.post rfl hposted ht.2 rfl fun _ => rfl
  | ends reader why =>
    have hposted : Posted reader [.closed reader why] v.connection
        { v.connection with inbound := v.connection.inbound ++ [.closed reader why] } :=
      ⟨⟨rfl, rfl, rfl, rfl⟩, rfl, rfl, by simp, fun a ha hended => .inl ⟨a, ha, hended⟩⟩
    exact h.post rfl hposted ht.2 rfl fun _ => rfl
  | happening x =>
    cases x with
    | receive chunk =>
      obtain ⟨events, hposted⟩ := posted_receive v.connection chunk
      rw [← h.kept.generation] at hposted
      exact h.post rfl hposted (Nat.le_refl _) rfl fun _ => rfl
    | begin now op => exact h.begin now op
    | reply now r => exact h.reply now r
    | expire => exact h.expire

/-! ## Runs -/

theorem Sound.run (h : v.Sound) {ts : List Turn} (hts : v.Admits ts) : (v.run ts).Sound := by
  induction ts generalizing v with
  | nil => exact h
  | cons t ts ih => exact ih (h.step hts.1).1 hts.2

theorem sound_start {appName inboxId : String} {settings : ClientSettings}
    (hc : Connection.create appName settings inboxId = .ok c) : (start c).Sound := by
  obtain ⟨-, -, address, -, rfl⟩ := Connection.create_eq_ok_iff.mp hc
  have hgoal : Goal.opening.Whole := trivial
  exact ⟨⟨rfl, nofun, Nat.le_refl _, rfl, by simp [start], by simp [start], nofun⟩,
    Conversation.guarded_settle (Connection.guarded_establish hgoal), nofun, .nil⟩

/-- A dispatch that has a stream and looks for an event. -/
inductive Looks (v : Journal) : Turn → Prop
  | begun (hrest : v.conversation.activity = none) (hattached : v.connection.attached.isSome)
      (hopen : v.connection.isClosed = false) (now : Nat) (timeout : Option Nat) :
      Looks v (.happening (.begin now (.dispatch timeout)))
  | woken {d : Option Nat} (hwaits : v.conversation.activity = some (.awaitingEvent d))
      (hopen : v.connection.isClosed = false) (now : Nat) : Looks v (.happening (.reply now .woken))

theorem Sound.looks (h : v.Sound) (ht : v.Looks t) :
    v.Fetches (v.step t) (v.fetched (v.step t)) := by
  cases ht with
  | begun hrest hattached hopen now timeout =>
    exact (h.draw (operates_begin h hrest now _) (.same rfl) hattached
      (Connection.draws_dispatchNext hopen hattached)).2
  | woken hwaits hopen now =>
    refine (h.draw (operates_reply h hwaits now .woken) (.same ?_) (h.waiting _ hwaits)
      (Connection.draws_dispatchNext hopen (h.waiting _ hwaits))).2
    simp [Turn.attaches, hwaits, Activity.greeted?]

/-- Whatever readers put aside and whenever they do, a dispatch that waits has a stream, the last
that was attached; if this stream has ended, its end is in the queue. Only the end of the stream
that is attached makes a dispatch give it up; the ends of earlier streams are skipped. A dispatch
that has a stream takes the next frame, if there is one. All that is put aside is taken in order,
and every dispatch that gives anything gives one frame, the next. -/
theorem stale_ends_skipped (appName inboxId : String) (settings : ClientSettings) (c : Connection)
    (hc : Connection.create appName settings inboxId = .ok c) (past : List Turn)
    (hpast : (start c).Admits past) :
    let v := (start c).run past
    (∀ d, v.conversation.activity = some (.awaitingEvent d) →
      ∃ a, v.connection.attached = some a ∧ v.streams.getLast? = some a.stream ∧
        v.streams.length = v.connection.generation ∧
        (a.isReading = false → ∃ p ∈ v.queue, p.isEnd = true ∧ p.reader = v.streams.length)) ∧
    (∀ t, v.Possible t →
      v.fetched (v.step t) = [] ∧ v.Holds (v.step t) ∨
        v.Fetches (v.step t) (v.fetched (v.step t))) ∧
    (∀ t, v.Looks t → v.Fetches (v.step t) (v.fetched (v.step t))) ∧
    v.queue.map Post.event = v.connection.inbound ∧
    (∀ p ∈ v.posts, ∀ generation why, p.event = .closed generation why →
      generation = p.reader) ∧
    List.Forall₂ (fun f x => ∀ y ∈ x, y.frame = f)
      (framesIn ((v.posts.take v.taken).map Post.event)) v.given := by
  intro v
  have h : v.Sound := (sound_start hc).run hpast
  refine ⟨fun d hwaits => ?_, fun t ht => (h.step ht).2, fun t ht => h.looks ht, h.kept.queue,
    h.kept.labelled, h.ledger⟩
  obtain ⟨a, ha⟩ := Option.isSome_iff_exists.mp (h.waiting d hwaits)
  exact ⟨a, ha, h.kept.attached a ha, h.kept.generation, h.kept.ended a ha⟩

/-- A stream ends behind one frame. A message is sent on a second one, and then the frame is
dispatched. -/
def replaced : List Turn :=
  [.happening (.reply 0 (.connected 0 "" "")), .happening (.reply 0 .written),
    .frame 1 (Conversation.messageOf "T" 1 .empty), .happening (.receive (.bytes [])),
    .happening (.begin 0 (.publishBytes "T" [1])),
    .happening (.reply 0 (.writeFailed ⟨.brokenPipe, none⟩)),
    .happening (.reply 0 (.connected 1 "" "")), .happening (.reply 0 .written),
    .happening (.reply 0 .written), .happening (.begin 0 (.dispatch none))]

/-- The next dispatch skips the end of the first stream and waits on the second. -/
theorem stale_ends_skipped_replaced :
    Connection.create "x" { address := "unix:///bus" } "1" = .ok Conversation.plainConnection ∧
      (start Conversation.plainConnection).Admits replaced ∧
      let v := (start Conversation.plainConnection).run replaced
      let w := v.step (.happening (.begin 0 (.dispatch none)))
      v.streams = [0, 1] ∧ v.given = [none] ∧
        (v.fetched w).map (fun p => (p.reader, p.isEnd)) = [(1, true)] ∧
        w.connection.attached = v.connection.attached ∧
        ∃ d, w.conversation.activity = some (.awaitingEvent d) := by
  have hc : Connection.create "x" { address := "unix:///bus" } "1" =
      .ok Conversation.plainConnection := rfl
  have hadmits : (start Conversation.plainConnection).Admits replaced := by decide +kernel
  obtain ⟨-, -, hlooks, -⟩ := stale_ends_skipped "x" "1" { address := "unix:///bus" }
    Conversation.plainConnection hc replaced hadmits
  refine ⟨hc, hadmits, ?_⟩
  intro v w
  have hrest : v.conversation.activity.isSome = false := by decide +kernel
  have hattached : v.connection.attached.isSome := by decide +kernel
  have hfetches : v.Fetches w (v.fetched w) :=
    hlooks _ (.begun (Option.not_isSome_iff_eq_none.mp (by rw [hrest]; nofun)) hattached
      (by decide +kernel) 0 none)
  have hgoesOn : w.conversation.activity.isSome := by decide +kernel
  have hstays : w.connection.attached.isSome := by decide +kernel
  refine ⟨by decide +kernel, by decide +kernel, by decide +kernel, ?_⟩
  generalize v.fetched w = fetched at hfetches
  cases hfetches with
  | waits _ _ _ hsame hwaits => exact ⟨hsame hattached, _, hwaits⟩
  | frame _ _ _ _ hover _ =>
    rw [hover] at hgoesOn
    nomatch hgoesOn
  | ended _ _ _ _ hgone _ =>
    rw [hgone] at hstays
    nomatch hstays

end Journal

end TopicBus
