import Mathlib.Algebra.Order.Ring.Int
import Mathlib.Data.List.Chain

/-! The client times that the send loop of one client process gives to its new messages.
A time equal to the last one is raised by a second, a time before it is not. -/
namespace Tinyim.CmdClient

/-- What an `int` keeps of a clock reading: the low 32 bits. -/
def intOfTime (time : Int) : Int := time.bmod (2 ^ 32)

/-- One message; `none` is an increment past the range of an `int`. -/
def assignTime (lastSendTime reading : Int) : Option Int :=
  let msgTime := intOfTime reading
  if msgTime = lastSendTime then
    if msgTime + 1 < 2 ^ 31 then some (msgTime + 1) else none
  else some msgTime

def assignTimes (lastSendTime : Int) : List Int → Option (List Int)
  | [] => some []
  | reading :: readings => do
    let msgTime ← assignTime lastSendTime reading
    let later ← assignTimes msgTime readings
    return msgTime :: later

/-- The times of a process that reads the clock once for each new message. -/
def clientTimes (readings : List Int) : Option (List Int) := assignTimes 0 readings

/-- Between the messages `i` and `k` the clock advances by at least `k - i - 1` seconds. -/
def Spread (times : List Int) : Prop :=
  ∀ (i k : Nat) (x y : Int), i < k → times[i]? = some x → times[k]? = some y →
    x + (k - i - 1 : Int) ≤ y

/-- The first reading as the loop takes it, which compares it with zero. -/
def started : List Int → List Int
  | [] => []
  | reading :: readings => (if reading = 0 then 1 else reading) :: readings

theorem assignTime_eq_some (assigned : assignTime last reading = some time) :
    time = if intOfTime reading = last then intOfTime reading + 1 else intOfTime reading := by
  simp only [assignTime] at assigned
  split at assigned
  · rename_i same
    rw [if_pos same]
    split at assigned
    · exact (Option.some.inj assigned).symm
    · cases assigned
  · rename_i other
    rw [if_neg other]
    exact (Option.some.inj assigned).symm

theorem spread_cons_iff :
    Spread (x :: times) ↔
      (∀ (k : Nat) (y : Int), times[k]? = some y → x + k ≤ y) ∧ Spread times := by
  constructor
  · intro spread
    refine ⟨fun k y found => ?_, fun i k y z before left right => ?_⟩
    · have apart := spread 0 (k + 1) x y (Nat.succ_pos k) rfl found
      push_cast at apart
      omega
    · have apart := spread (i + 1) (k + 1) y z (Nat.succ_lt_succ before) left right
      push_cast at apart
      omega
  · rintro ⟨head, tail⟩ i k y z before left right
    cases k with
    | zero => omega
    | succ k =>
        rw [List.getElem?_cons_succ] at right
        cases i with
        | zero =>
            obtain rfl : x = y := Option.some.inj left
            have apart := head k z right
            push_cast
            omega
        | succ i =>
            rw [List.getElem?_cons_succ] at left
            have apart := tail i k y z (Nat.lt_of_succ_lt_succ before) left right
            push_cast
            omega

/-- One message of the loop: the reading after a time `last` may be replaced by the time
that the loop gives to its message, as long as that is a later one. -/
theorem spread_cons_cons_iff (last reading : Int) (readings : List Int) :
    Spread (last :: reading :: readings) ↔
      last < (if reading = last then reading + 1 else reading) ∧
        Spread ((if reading = last then reading + 1 else reading) :: readings) := by
  rw [spread_cons_iff, spread_cons_iff, spread_cons_iff]
  constructor
  · rintro ⟨fromLast, fromReading, rest⟩
    have notBefore := fromLast 0 reading rfl
    refine ⟨by split <;> omega, fun k y found => ?_, rest⟩
    have first := fromLast (k + 1) y found
    have second := fromReading k y found
    push_cast at first
    split <;> omega
  · rintro ⟨later, fromTime, rest⟩
    refine ⟨fun k y found => ?_, fun k y found => ?_, rest⟩
    · cases k with
      | zero =>
          obtain rfl : reading = y := Option.some.inj found
          split at later <;> omega
      | succ k =>
          have apart := fromTime k y found
          push_cast
          omega
    · have apart := fromTime k y found
      split at apart <;> omega

/-- After a message with the time `last` the times go on increasing exactly if the readings
are spread and none of them is too close to `last`. The induction follows the loop. -/
theorem assignTimes_increasing_iff (assigned : assignTimes last readings = some times) :
    (last :: times).Pairwise (· < ·) ↔ Spread (last :: readings.map intOfTime) := by
  induction readings generalizing last times with
  | nil =>
      cases assigned
      rw [List.map_nil, spread_cons_iff]
      exact iff_of_true (List.pairwise_singleton _ _)
        ⟨nofun, fun _ _ _ _ _ found => nomatch found⟩
  | cons reading readings ih =>
      simp only [assignTimes, Option.bind_eq_bind, Option.bind_eq_some_iff, Option.pure_def,
        Option.some.injEq] at assigned
      obtain ⟨time, first, later, rest, rfl⟩ := assigned
      rw [List.map_cons, spread_cons_cons_iff, ← assignTime_eq_some first, ← ih rest,
        ← List.isChain_iff_pairwise, ← List.isChain_iff_pairwise, List.isChain_cons_cons]

/-- The times of a process increase exactly if its readings are spread: a burst of messages
must be followed by as many seconds without one. -/
theorem clientTimes_increasing_iff (assigned : clientTimes readings = some times) :
    times.Pairwise (· < ·) ↔ Spread (started (readings.map intOfTime)) := by
  cases readings with
  | nil =>
      cases assigned
      exact iff_of_true List.Pairwise.nil fun _ _ _ _ _ found => nomatch found
  | cons reading readings =>
      simp only [clientTimes, assignTimes, Option.bind_eq_bind, Option.bind_eq_some_iff,
        Option.pure_def, Option.some.injEq] at assigned
      obtain ⟨time, first, later, rest, rfl⟩ := assigned
      rw [assignTimes_increasing_iff rest, assignTime_eq_some first, List.map_cons, started]
      by_cases zero : intOfTime reading = 0
      · rw [if_pos zero, if_pos zero, zero, zero_add]
      · rw [if_neg zero, if_neg zero]

/-- Two messages in the second 100 and one in the second 102. -/
theorem clientTimes_increasing_iff_pair :
    ([100, 101, 102] : List Int).Pairwise (· < ·) ↔
      Spread (started (([100, 100, 102] : List Int).map intOfTime)) :=
  clientTimes_increasing_iff (by decide)

/-- The clock never goes back, but the third message of one second gets the time of the
first. -/
theorem third_message_repeats_time :
    ∃ times, ([100, 100, 100] : List Int).Pairwise (· ≤ ·) ∧
      clientTimes [100, 100, 100] = some times ∧ ¬ times.Pairwise (· < ·) :=
  ⟨[100, 101, 100], by decide, by decide, by decide⟩

end Tinyim.CmdClient
