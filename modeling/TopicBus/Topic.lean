import TopicBus.Fault

/-!
Topics and the expressions that select them. Both are dot-separated segments. In an expression `*`
stands for one segment, which must not be empty, and `>` for everything that follows, nothing
included: `A.B.>` selects `A.B` as well as `A.B.C.D`.
-/

namespace TopicBus.Topic

/-- A topic on the wire has 1 to `maxTopicSize` bytes; `what` names its part in a message. -/
def validate (what topic : String) : Except Fault Unit :=
  if topic.isEmpty then .error (.invalidArgument (.emptyTopic what))
  else if Wire.maxTopicSize < topic.utf8ByteSize then
    .error (.invalidArgument (.longTopic what topic.utf8ByteSize))
  else .ok ()

theorem validate_eq_ok_iff {what topic : String} : validate what topic = .ok () ↔
    0 < topic.utf8ByteSize ∧ topic.utf8ByteSize ≤ Wire.maxTopicSize := by
  have hempty : topic.isEmpty = true ↔ topic.utf8ByteSize = 0 := by simp
  unfold validate
  split
  · next h =>
    rw [hempty] at h
    simp [h]
  · next h =>
    rw [hempty] at h
    split
    · simp only [reduceCtorEq, false_iff]
      omega
    · simp only [true_iff]
      omega

/-- What is left of an expression once the topic is used up. -/
def closes : List Char → Bool
  | [] | ['>'] | ['.', '>'] => true
  | _ => false

/-- Reads topic and expression side by side. A `>` accepts whatever is left, and a `*` takes the
topic up to its next dot. -/
def scan (topic : List Char) : List Char → Bool
  | [] => topic.isEmpty
  | e :: es =>
    if e = '>' then true
    else match topic with
      | [] => closes (e :: es)
      | t :: ts =>
        if e = '*' then t != '.' && scan ((t :: ts).dropWhile (· != '.')) es
        else t == e && scan ts es

/-- Whether `expression` selects `topic`. -/
def selects (expression topic : String) : Bool := scan topic.toList expression.toList

end TopicBus.Topic
