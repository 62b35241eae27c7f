import Mathlib.Data.List.Forall2
import TopicBus.Topic

/-!
What an expression selects, segment by segment. `scan` reads the two texts character by character;
`Reads` says the same of the segments between their dots, with a mark for whether a `>` follows. One
character taken off both texts shortens the first segment of both (`reads_char`), and a `*` uses up
the first segment of the topic (`reads_star`): these are the steps of the scan.
-/

namespace TopicBus.Topic

/-- The pieces of a text between its dots. A text without a dot is one piece. -/
def segments (cs : List Char) : List (List Char) := cs.splitOn '.'

/-- A segment without `*` accepts only itself; `w*` accepts `w` and at least one character more. -/
def Accepts (e t : List Char) : Prop :=
  ('*' ∉ e ∧ t = e) ∨ ∃ w rest, '*' ∉ w ∧ e = w ++ ['*'] ∧ t = w ++ rest ∧ rest ≠ []

/-- The same for a segment that a `>` follows: without `*` it accepts all that it begins. -/
def AcceptsFront (e t : List Char) : Prop :=
  ('*' ∉ e ∧ e <+: t) ∨ ∃ w rest, '*' ∉ w ∧ e = w ++ ['*'] ∧ t = w ++ rest ∧ rest ≠ []

/-- An expression without `>` has as many segments as the topic, and each accepts its
counterpart. -/
def SelectsWhole (e t : List Char) : Prop :=
  '>' ∉ e ∧ List.Forall₂ Accepts (segments e) (segments t)

/-- The text in front of the first `>` is read off the first segments of the topic, the last of them
as far as it goes. -/
def SelectsFront (e t : List Char) : Prop :=
  '>' ∈ e ∧ ∃ before last seen reached rest,
    segments (e.takeWhile (· != '>')) = before ++ [last] ∧
    segments t = seen ++ reached :: rest ∧
    List.Forall₂ Accepts before seen ∧ AcceptsFront last reached

/-! ## Segments -/

theorem segments_nil : segments [] = [[]] := List.splitOn_nil '.'

theorem segments_ne_nil (cs : List Char) : segments cs ≠ [] := List.splitOn_ne_nil '.' cs

theorem exists_segments (cs : List Char) : ∃ s ss, segments cs = s :: ss :=
  List.exists_cons_of_ne_nil (segments_ne_nil cs)

theorem segments_dot (cs : List Char) : segments ('.' :: cs) = [] :: segments cs := by
  rw [segments, List.splitOn_cons_eq_if_modifyHead, if_pos (by rfl)]
  rfl

theorem segments_cons {c : Char} {cs s : List Char} {ss : List (List Char)} (hc : c ≠ '.')
    (h : segments cs = s :: ss) : segments (c :: cs) = (c :: s) :: ss := by
  rw [segments] at h
  rw [segments, List.splitOn_cons_eq_if_modifyHead, if_neg (by simpa using hc), h]
  rfl

/-- Only the empty text is one empty segment. -/
theorem segments_eq_nil_iff {cs : List Char} : segments cs = [[]] ↔ cs = [] := by
  constructor
  · intro h
    cases cs with
    | nil => rfl
    | cons c cs =>
      obtain ⟨s, ss, hs⟩ := exists_segments cs
      by_cases hc : c = '.'
      · rw [hc, segments_dot, hs] at h
        simp at h
      · rw [segments_cons hc hs] at h
        simp at h
  · rintro rfl
    exact segments_nil

/-- What is left of a text behind its first segment. -/
theorem segments_dropWhile {cs s : List Char} {ss : List (List Char)} (h : segments cs = s :: ss) :
    segments (cs.dropWhile (· != '.')) = [] :: ss := by
  induction cs generalizing s with
  | nil =>
    rw [segments_nil, List.cons.injEq] at h
    rw [← h.2]
    exact segments_nil
  | cons c cs ih =>
    by_cases hc : c = '.'
    · rw [hc, segments_dot, List.cons.injEq] at h
      rw [hc, List.dropWhile_cons_of_neg (by decide), segments_dot, h.2]
    · obtain ⟨u, us, hu⟩ := exists_segments cs
      rw [segments_cons hc hu, List.cons.injEq] at h
      rw [List.dropWhile_cons_of_pos (by simpa using hc)]
      exact ih (h.2 ▸ hu)

/-! ## One segment -/

/-- How a segment accepts one of a topic: `free` says that more characters may follow it. -/
inductive Covers (free : Bool) : List Char → List Char → Prop
  | literal {w rest} (hw : '*' ∉ w) (hrest : free = false → rest = []) : Covers free w (w ++ rest)
  | star {w rest} (hw : '*' ∉ w) (hrest : rest ≠ []) : Covers free (w ++ ['*']) (w ++ rest)

variable {free : Bool}

theorem covers_false_iff {e t : List Char} : Covers false e t ↔ Accepts e t := by
  constructor
  · intro h
    cases h with
    | literal hw hrest =>
      rw [hrest rfl, List.append_nil]
      exact .inl ⟨hw, rfl⟩
    | star hw hrest => exact .inr ⟨_, _, hw, rfl, rfl, hrest⟩
  · rintro (⟨he, rfl⟩ | ⟨w, rest, hw, rfl, rfl, hrest⟩)
    · have h : Covers false t (t ++ []) := .literal he (fun _ => rfl)
      rwa [List.append_nil] at h
    · exact .star hw hrest

theorem covers_true_iff {e t : List Char} : Covers true e t ↔ AcceptsFront e t := by
  constructor
  · intro h
    cases h with
    | literal hw _ => exact .inl ⟨hw, List.prefix_append _ _⟩
    | star hw hrest => exact .inr ⟨_, _, hw, rfl, rfl, hrest⟩
  · rintro (⟨he, rest, rfl⟩ | ⟨w, rest, hw, rfl, rfl, hrest⟩)
    · exact .literal he nofun
    · exact .star hw hrest

theorem covers_nil {t : List Char} : Covers free [] t ↔ (free = false → t = []) := by
  constructor
  · intro h
    generalize he : ([] : List Char) = e at h
    cases h with
    | literal hw hrest =>
      subst he
      exact hrest
    | star hw hrest => simp at he
  · intro h
    exact .literal (w := []) (by simp) h

theorem not_covers_cons_nil {c : Char} {e : List Char} : ¬Covers free (c :: e) [] := by
  intro h
  generalize ht : ([] : List Char) = t at h
  generalize he : c :: e = e' at h
  cases h with
  | literal hw hrest =>
    subst he
    simp at ht
  | star hw hrest =>
    rw [eq_comm, List.append_eq_nil_iff] at ht
    exact hrest ht.2

theorem covers_cons_cons {c d : Char} {e t : List Char} (hc : c ≠ '*') :
    Covers free (c :: e) (d :: t) ↔ d = c ∧ Covers free e t := by
  constructor
  · intro h
    generalize hes : c :: e = es at h
    generalize hts : d :: t = ts at h
    cases h with
    | @literal w rest hw hrest =>
      subst hes
      rw [List.cons_append, List.cons.injEq] at hts
      rw [hts.1, hts.2]
      exact ⟨rfl, .literal (fun h => hw (List.mem_cons_of_mem _ h)) hrest⟩
    | @star w rest hw hrest =>
      cases w with
      | nil =>
        rw [List.nil_append, List.cons.injEq] at hes
        exact absurd hes.1 hc
      | cons b w =>
        rw [List.cons_append, List.cons.injEq] at hes hts
        rw [hes.1, hes.2, hts.1, hts.2]
        exact ⟨rfl, .star (fun h => hw (List.mem_cons_of_mem _ h)) hrest⟩
  · rintro ⟨rfl, h⟩
    cases h with
    | literal hw hrest => exact .literal (w := d :: e) (by simp [hw, hc.symm]) hrest
    | @star w rest hw hrest => exact .star (w := d :: w) (by simp [hw, hc.symm]) hrest

theorem covers_star {e t : List Char} : Covers free ('*' :: e) t ↔ t ≠ [] ∧ e = [] := by
  constructor
  · intro h
    generalize hes : '*' :: e = es at h
    cases h with
    | literal hw _ =>
      subst hes
      simp at hw
    | @star w rest hw hrest =>
      cases w with
      | nil =>
        rw [List.nil_append, List.cons.injEq] at hes
        exact ⟨hrest, hes.2⟩
      | cons b w =>
        rw [List.cons_append, List.cons.injEq] at hes
        simp [← hes.1] at hw
  · rintro ⟨ht, rfl⟩
    exact .star (w := []) (by simp) ht

/-- What stands behind a `*` in its segment makes the segment accept nothing. -/
theorem not_accepts_past_star (w : List Char) (c : Char) (r t : List Char) :
    ¬Accepts (w ++ '*' :: c :: r) t := by
  rintro (⟨he, -⟩ | ⟨v, rest, hv, he, -⟩)
  · simp at he
  · have hdrop := congrArg List.dropLast he
    rw [List.dropLast_append_of_ne_nil (by simp), List.dropLast_concat] at hdrop
    simp [← hdrop] at hv

/-! ## All segments -/

/-- How the segments of an expression are read off those of a topic. -/
inductive Reads (free : Bool) : List (List Char) → List (List Char) → Prop
  | last {e t rest} (h : Covers free e t) (hrest : free = false → rest = []) :
      Reads free [e] (t :: rest)
  | next {e t es ts} (h : Covers false e t) (more : Reads free es ts) :
      Reads free (e :: es) (t :: ts)

theorem reads_cons_cons {e t : List Char} {es ts : List (List Char)} :
    Reads free (e :: es) (t :: ts) ↔
      (es = [] ∧ Covers free e t ∧ (free = false → ts = [])) ∨
        (Covers false e t ∧ Reads free es ts) := by
  constructor
  · intro h
    cases h with
    | last h hrest => exact .inl ⟨rfl, h, hrest⟩
    | next h more => exact .inr ⟨h, more⟩
  · rintro (⟨rfl, h, hrest⟩ | ⟨h, more⟩)
    · exact .last h hrest
    · exact .next h more

theorem reads_false_iff {es ts : List (List Char)} :
    Reads false es ts ↔ es ≠ [] ∧ List.Forall₂ Accepts es ts := by
  constructor
  · intro h
    refine ⟨by cases h <;> simp, ?_⟩
    induction h with
    | last h hrest =>
      rw [hrest rfl]
      exact .cons (covers_false_iff.mp h) .nil
    | next h _ ih => exact .cons (covers_false_iff.mp h) ih
  · rintro ⟨hne, h⟩
    induction h with
    | nil => exact absurd rfl hne
    | @cons e t es ts h more ih =>
      cases more with
      | nil => exact .last (covers_false_iff.mpr h) (fun _ => rfl)
      | cons => exact .next (covers_false_iff.mpr h) (ih (by simp))

theorem reads_true_iff {es ts : List (List Char)} :
    Reads true es ts ↔ ∃ before last seen reached rest, es = before ++ [last] ∧
      ts = seen ++ reached :: rest ∧ List.Forall₂ Accepts before seen ∧
        AcceptsFront last reached := by
  constructor
  · intro h
    induction h with
    | @last e t rest h _ => exact ⟨[], e, [], t, rest, rfl, rfl, .nil, covers_true_iff.mp h⟩
    | @next e t es ts h _ ih =>
      obtain ⟨before, last, seen, reached, rest, rfl, rfl, hbefore, hlast⟩ := ih
      exact ⟨e :: before, last, t :: seen, reached, rest, rfl, rfl,
        .cons (covers_false_iff.mp h) hbefore, hlast⟩
  · rintro ⟨before, last, seen, reached, rest, rfl, rfl, hbefore, hlast⟩
    induction hbefore with
    | nil => exact .last (covers_true_iff.mpr hlast) nofun
    | cons h _ ih => exact .next (covers_false_iff.mpr h) ih

/-! ## The steps of a scan -/

theorem reads_nil {t : List Char} :
    Reads free (segments []) (segments t) ↔ (free = false → t = []) := by
  obtain ⟨s, ss, hs⟩ := exists_segments t
  rw [segments_nil, hs, reads_cons_cons, covers_nil]
  constructor
  · rintro (⟨-, hfirst, hrest⟩ | ⟨-, hmore⟩)
    · intro hfree
      rw [← segments_eq_nil_iff, hs, hfirst hfree, hrest hfree]
    · nomatch hmore
  · intro h
    refine .inl ⟨rfl, fun hfree => ?_, fun hfree => ?_⟩ <;>
      rw [segments_eq_nil_iff.mpr (h hfree), List.cons.injEq] at hs
    · exact hs.1.symm
    · exact hs.2.symm

theorem not_reads_end {c : Char} {e : List Char} :
    ¬Reads free (segments (c :: e)) (segments []) := by
  rw [segments_nil]
  obtain ⟨s, ss, hs⟩ := exists_segments e
  by_cases hc : c = '.'
  · rw [hc, segments_dot, hs, reads_cons_cons]
    rintro (⟨hnil, -⟩ | ⟨-, hmore⟩)
    · simp at hnil
    · nomatch hmore
  · rw [segments_cons hc hs, reads_cons_cons]
    rintro (⟨-, hfirst, -⟩ | ⟨hfirst, -⟩) <;> exact not_covers_cons_nil hfirst

/-- A character that stands for itself is the same in both texts. -/
theorem reads_char {c d : Char} {e t : List Char} (hc : c ≠ '*') :
    Reads free (segments (c :: e)) (segments (d :: t)) ↔
      d = c ∧ Reads free (segments e) (segments t) := by
  obtain ⟨s, ss, hs⟩ := exists_segments e
  obtain ⟨u, us, hu⟩ := exists_segments t
  by_cases hcdot : c = '.' <;> by_cases hddot : d = '.'
  · subst hcdot
    subst hddot
    rw [segments_dot, segments_dot, reads_cons_cons]
    simp [segments_ne_nil, covers_nil]
  · subst hcdot
    rw [segments_dot, segments_cons hddot hu, reads_cons_cons]
    simp [segments_ne_nil, covers_nil, hddot]
  · subst hddot
    rw [segments_dot, segments_cons hcdot hs, reads_cons_cons]
    simp [not_covers_cons_nil, Ne.symm hcdot]
  · rw [segments_cons hcdot hs, segments_cons hddot hu, hs, hu, reads_cons_cons, reads_cons_cons,
      covers_cons_cons hc, covers_cons_cons hc]
    constructor
    · rintro (⟨hss, ⟨hd, hfirst⟩, hrest⟩ | ⟨⟨hd, hfirst⟩, hmore⟩)
      · exact ⟨hd, .inl ⟨hss, hfirst, hrest⟩⟩
      · exact ⟨hd, .inr ⟨hfirst, hmore⟩⟩
    · rintro ⟨hd, ⟨hss, hfirst, hrest⟩ | ⟨hfirst, hmore⟩⟩
      · exact .inl ⟨hss, ⟨hd, hfirst⟩, hrest⟩
      · exact .inr ⟨⟨hd, hfirst⟩, hmore⟩

/-- A `*` takes the topic up to its next dot, and that must not be nothing. -/
theorem reads_star {d : Char} {e t : List Char} :
    Reads free (segments ('*' :: e)) (segments (d :: t)) ↔
      d ≠ '.' ∧ Reads free (segments e) (segments ((d :: t).dropWhile (· != '.'))) := by
  obtain ⟨s, ss, hs⟩ := exists_segments e
  obtain ⟨u, us, hu⟩ := exists_segments t
  rw [segments_cons (by decide) hs, hs]
  by_cases hd : d = '.'
  · subst hd
    rw [segments_dot, reads_cons_cons, covers_star, covers_star]
    simp
  · have hseg : segments (d :: t) = (d :: u) :: us := segments_cons hd hu
    have hcovers {f : Bool} : Covers f s [] ↔ s = [] := by
      cases s with
      | nil => simp [covers_nil]
      | cons c s => simp [not_covers_cons_nil]
    rw [segments_dropWhile hseg, hseg, reads_cons_cons, reads_cons_cons, covers_star, covers_star,
      hcovers, hcovers]
    simp [hd]

/-! ## The scan -/

theorem closes_iff {cs : List Char} (hne : cs ≠ []) (hgt : cs ≠ ['>']) :
    closes cs = true ↔ cs = ['.', '>'] := by
  unfold closes
  split
  · exact absurd rfl hne
  · exact absurd rfl hgt
  · simp
  · next hne hgt hdot => simpa using hdot

theorem scan_nil_right (t : List Char) : scan t [] = true ↔ t = [] := List.isEmpty_iff

theorem scan_gt (t e : List Char) : scan t ('>' :: e) = true := by cases t <;> rfl

theorem scan_nil_left {c : Char} {e : List Char} (hc : c ≠ '>') :
    scan [] (c :: e) = true ↔ c :: e = ['.', '>'] := by
  show (if c = '>' then true else closes (c :: e)) = true ↔ _
  rw [if_neg hc]
  exact closes_iff (by simp) (by simp [hc])

theorem scan_star {d : Char} {e t : List Char} :
    scan (d :: t) ('*' :: e) = true ↔
      d ≠ '.' ∧ scan ((d :: t).dropWhile (· != '.')) e = true := by
  show (d != '.' && scan ((d :: t).dropWhile (· != '.')) e) = true ↔ _
  rw [Bool.and_eq_true, bne_iff_ne]

theorem scan_char {c d : Char} {e t : List Char} (hgt : c ≠ '>') (hstar : c ≠ '*') :
    scan (d :: t) (c :: e) = true ↔ d = c ∧ scan t e = true := by
  show (if c = '>' then true else if c = '*' then _ else d == c && scan t e) = true ↔ _
  rw [if_neg hgt, if_neg hstar, Bool.and_eq_true, beq_iff_eq]

/-- A text without wildcards selects only itself. -/
theorem scan_plain {e : List Char} (he : ∀ c ∈ e, c ≠ '*' ∧ c ≠ '>') (t : List Char) :
    scan t e = true ↔ t = e := by
  induction e generalizing t with
  | nil => exact scan_nil_right t
  | cons c e ih =>
    obtain ⟨⟨hstar, hgt⟩, hrest⟩ := List.forall_mem_cons.mp he
    cases t with
    | nil =>
      have hlong : c :: e ≠ ['.', '>'] := by
        rintro h
        exact (he '>' (by rw [h]; decide)).2 rfl
      simp [scan_nil_left hgt, hlong]
    | cons d t => rw [scan_char hgt hstar, ih hrest, List.cons.injEq]

theorem scan_iff_reads {e : List Char} (he : '>' ∉ e) (t : List Char) :
    scan t e = true ↔ Reads false (segments e) (segments t) := by
  induction e generalizing t with
  | nil => simp [scan_nil_right, reads_nil]
  | cons c e ih =>
    have hc : c ≠ '>' := fun h => he (by simp [h])
    have ih := fun t => ih (fun h => he (List.mem_cons_of_mem _ h)) t
    cases t with
    | nil =>
      rw [scan_nil_left hc, iff_false_right not_reads_end]
      rintro h
      rw [h] at he
      simp at he
    | cons d t =>
      by_cases hstar : c = '*'
      · subst hstar
        rw [scan_star, reads_star, ih]
      · rw [scan_char hc hstar, reads_char hstar, ih]

/-- A topic that is not used up yet is read by the first character of `q`. -/
theorem exists_reads_snoc {c d : Char} {p t : List Char} :
    (∃ q, c :: p = q ++ ['.'] ∧ Reads false (segments q) (segments (d :: t))) ↔
      ∃ q, p = q ++ ['.'] ∧ Reads false (segments (c :: q)) (segments (d :: t)) := by
  constructor
  · rintro ⟨q, hq, h⟩
    cases q with
    | nil => simp [reads_nil] at h
    | cons b q =>
      rw [List.cons_append, List.cons.injEq] at hq
      exact ⟨q, hq.2, hq.1 ▸ h⟩
  · rintro ⟨q, rfl, h⟩
    exact ⟨c :: q, rfl, h⟩

/-- In front of a `>` the scan reads the segments in front of it, or the topic ends right where a
closing `.>` begins. -/
theorem scan_append_iff_reads {p : List Char} (hp : '>' ∉ p) (r t : List Char) :
    scan t (p ++ '>' :: r) = true ↔ Reads true (segments p) (segments t) ∨
      (r = [] ∧ ∃ q, p = q ++ ['.'] ∧ Reads false (segments q) (segments t)) := by
  induction p generalizing t with
  | nil => simp [scan_gt, reads_nil]
  | cons c p ih =>
    have hc : c ≠ '>' := fun h => hp (by simp [h])
    have ih := fun t => ih (fun h => hp (List.mem_cons_of_mem _ h)) t
    rw [List.cons_append]
    cases t with
    | nil =>
      rw [scan_nil_left hc, or_iff_right not_reads_end]
      constructor
      · intro h
        have hlen := congrArg List.length h
        obtain ⟨rfl, rfl⟩ : p = [] ∧ r = [] := by
          constructor <;> apply List.eq_nil_of_length_eq_zero <;>
            simp only [List.length_cons, List.length_append, List.length_nil] at hlen <;> omega
        rw [List.nil_append, List.cons.injEq] at h
        exact ⟨rfl, [], by rw [h.1]; rfl, reads_nil.mpr fun _ => rfl⟩
      · rintro ⟨rfl, q, hq, h⟩
        cases q with
        | nil =>
          rw [List.nil_append, List.cons.injEq] at hq
          rw [hq.1, hq.2]
          rfl
        | cons b q => exact absurd h not_reads_end
    | cons d t =>
      rw [exists_reads_snoc]
      by_cases hstar : c = '*'
      · subst hstar
        simp only [scan_star, reads_star, ih]
        by_cases hd : d = '.' <;> simp [hd]
      · simp only [scan_char hc hstar, reads_char hstar, ih]
        by_cases hd : d = c <;> simp [hd]

/-- The text in front of the first `>`. -/
theorem takeWhile_append_gt {p : List Char} (hp : '>' ∉ p) (r : List Char) :
    (p ++ '>' :: r).takeWhile (· != '>') = p := by
  rw [List.takeWhile_append_of_pos, List.takeWhile_cons_of_neg (by decide), List.append_nil]
  intro c hc
  rw [bne_iff_ne]
  rintro rfl
  exact hp hc

theorem selectsWhole_iff_reads {e t : List Char} :
    SelectsWhole e t ↔ '>' ∉ e ∧ Reads false (segments e) (segments t) := by
  simp [SelectsWhole, reads_false_iff, segments_ne_nil]

theorem selectsFront_iff_reads {p : List Char} (hp : '>' ∉ p) (r t : List Char) :
    SelectsFront (p ++ '>' :: r) t ↔ Reads true (segments p) (segments t) := by
  rw [SelectsFront, takeWhile_append_gt hp, reads_true_iff]
  exact and_iff_right (by simp)

/-- The text in front of a closing `.>`. -/
theorem append_gt_eq_iff {p q : List Char} (hp : '>' ∉ p) (hq : '>' ∉ q) (r : List Char) :
    p ++ '>' :: r = q ++ ['.', '>'] ↔ r = [] ∧ p = q ++ ['.'] := by
  constructor
  · intro h
    have hq' : '>' ∉ q ++ ['.'] := by simp [hq]
    have hpq : p = q ++ ['.'] := by
      have hfront := congrArg (List.takeWhile (· != '>')) h
      rw [takeWhile_append_gt hp, List.append_cons q '.' ['>'], takeWhile_append_gt hq'] at hfront
      exact hfront
    rw [hpq] at h
    simpa [hpq] using h
  · rintro ⟨rfl, rfl⟩
    simp

/-- What an expression selects. Without `>`: the topics with as many segments, each accepted by its
own. With `>`: the topics that begin as the text in front of it says; and behind a closing `.>`
nothing need follow. What stands behind a `*` in its segment makes that segment accept nothing. -/
theorem selects_iff_segments (expression topic : String) :
    (selects expression topic = true ↔
      SelectsWhole expression.toList topic.toList ∨ SelectsFront expression.toList topic.toList ∨
        ∃ q, expression.toList = q ++ ['.', '>'] ∧ SelectsWhole q topic.toList) ∧
    ∀ (w : List Char) (c : Char) (rest segment : List Char),
      ¬Accepts (w ++ '*' :: c :: rest) segment := by
  refine ⟨?_, not_accepts_past_star⟩
  unfold selects
  generalize expression.toList = e
  generalize topic.toList = t
  by_cases he : '>' ∈ e
  · -- The first `>` splits the expression; only an expression that ends there can end in `.>`.
    obtain ⟨p, r, rfl, hp⟩ := List.eq_append_cons_of_mem he
    have hwhole : ¬SelectsWhole (p ++ '>' :: r) t := fun h => h.1 he
    rw [or_iff_right hwhole, scan_append_iff_reads hp, selectsFront_iff_reads hp]
    refine or_congr Iff.rfl ?_
    constructor
    · rintro ⟨hr, q, hq, h⟩
      have hgt : '>' ∉ q := fun hmem => hp (by simp [hq, hmem])
      exact ⟨q, (append_gt_eq_iff hp hgt r).mpr ⟨hr, hq⟩, selectsWhole_iff_reads.mpr ⟨hgt, h⟩⟩
    · rintro ⟨q, hq, h⟩
      obtain ⟨hgt, h⟩ := selectsWhole_iff_reads.mp h
      obtain ⟨hr, hpq⟩ := (append_gt_eq_iff hp hgt r).mp hq
      exact ⟨hr, q, hpq, h⟩
  · have hfront : ¬SelectsFront e t := fun h => he h.1
    have hclosing : ¬∃ q, e = q ++ ['.', '>'] ∧ SelectsWhole q t := by
      rintro ⟨q, rfl, -⟩
      simp at he
    rw [scan_iff_reads he, or_iff_left (not_or.mpr ⟨hfront, hclosing⟩), selectsWhole_iff_reads,
      and_iff_right he]

end TopicBus.Topic
