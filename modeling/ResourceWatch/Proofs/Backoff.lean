import Mathlib.Data.Nat.Fib.Basic
import ResourceWatch.Backoff

/-!
# Delays are capped Fibonacci numbers

The delay is advanced in a pair, with a sum that has fixed room, a cap on one half of the
pair only, and an early end. None of this shows: while the cap is not reached, both halves
are exact multiples of neighbours in the Fibonacci sequence, and once it is reached the
sequence only grows from there.

So the delay after so many failures is that multiple of the least delay, computed without
any bound on the numbers, or the cap if that is less.
-/

namespace ResourceWatch.Backoff

open Nat (fib)

variable {least most : Nat}

/-- A sum that is cut to the room for seconds and then to a cap is cut to the cap, if the
cap has room itself. -/
theorem min_maxSeconds (room : most ≤ maxSeconds) (sum : Nat) :
    Nat.min (Nat.min sum maxSeconds) most = min sum most :=
  (Nat.min_assoc sum maxSeconds most).trans (congrArg (min sum) (Nat.min_eq_right room))

/-- Two neighbours below the cap are advanced along the sequence, and then cut to it. -/
theorem grow_fib (room : most ≤ maxSeconds) (steps : Nat) {k : Nat}
    (below : least * fib (k + 1) ≤ most) :
    grow most steps (least * fib k) (least * fib (k + 1)) =
      min (least * fib (k + 1 + steps)) most := by
  induction steps generalizing k with
  | zero => exact (Nat.min_eq_left below).symm
  | succ steps ih =>
      have sum : least * fib k + least * fib (k + 1) = least * fib (k + 2) := by
        rw [Nat.fib_add_two, Nat.mul_add]
      simp only [grow, min_maxSeconds room, sum]
      split
      · -- the cap is reached, and what would follow is no less
        rename_i full
        have reached : most ≤ least * fib (k + 2) := Nat.le_trans full (Nat.min_le_left _ _)
        have grows : least * fib (k + 2) ≤ least * fib (k + 1 + (steps + 1)) :=
          Nat.mul_le_mul_left _ (Nat.fib_mono (by omega))
        rw [Nat.min_eq_right reached, Nat.min_eq_right (Nat.le_trans reached grows)]
      · rename_i under
        have under : least * fib (k + 2) ≤ most := by omega
        rw [Nat.min_eq_left under, ih under]
        congr 3
        omega

theorem delaySeconds_fib {b : Backoff} (ordered : b.least ≤ b.most) (room : b.most ≤ maxSeconds)
    (failures : Nat) :
    b.delaySeconds failures = min (b.least * fib (max 1 failures)) b.most := by
  have first : b.least * fib 1 ≤ b.most := by simpa using ordered
  have grown := grow_fib room (failures - 1) (k := 0) first
  have index : 0 + 1 + (failures - 1) = max 1 failures := by omega
  rw [index] at grown
  simpa [delaySeconds] using grown

theorem seconds_delay (b : Backoff) (failures : Nat) :
    (b.delay failures).seconds = b.delaySeconds failures :=
  Nat.mul_div_cancel _ (by decide)

/-- Between any two durations, with `lo` and `hi` the whole seconds that they hold, `lo` at
least one and `hi` at least `lo`, the delay after so many failures is exactly `lo` times
the Fibonacci number of the failures, or `hi` if that is less. It lies between `lo` and
`hi`, and more failures never make it shorter. -/
theorem delay_eq_fib {shortest longest : Duration} (room : shortest.seconds ≤ maxSeconds)
    (room' : longest.seconds ≤ maxSeconds) {lo hi : Nat} (isLeast : lo = max 1 shortest.seconds)
    (isMost : hi = max lo longest.seconds) (failures : Nat) :
    (ofDurations shortest longest).delay failures =
        .ofSeconds (min (lo * fib (max 1 failures)) hi) ∧
      lo ≤ ((ofDurations shortest longest).delay failures).seconds ∧
      ((ofDurations shortest longest).delay failures).seconds ≤ hi ∧
      ∀ more, failures ≤ more →
        ((ofDurations shortest longest).delay failures).seconds ≤
          ((ofDurations shortest longest).delay more).seconds := by
  have bounds : ofDurations shortest longest = ⟨lo, hi⟩ := by rw [isMost, isLeast]; rfl
  have ordered : lo ≤ hi := isMost ▸ Nat.le_max_left _ _
  have one : 1 ≤ maxSeconds := by decide
  have fits : hi ≤ maxSeconds := by omega
  have exact (n : Nat) : (⟨lo, hi⟩ : Backoff).delaySeconds n = min (lo * fib (max 1 n)) hi :=
    delaySeconds_fib (b := ⟨lo, hi⟩) ordered fits n
  have grows {n m : Nat} (less : n ≤ m) : lo * fib (max 1 n) ≤ lo * fib (max 1 m) :=
    Nat.mul_le_mul_left _ (Nat.fib_mono (by omega))
  have least : lo ≤ lo * fib (max 1 failures) := by simpa using grows (Nat.zero_le failures)
  simp only [bounds, seconds_delay, exact]
  refine ⟨by rw [delay, exact], Nat.le_min.2 ⟨least, ordered⟩, Nat.min_le_right _ _, ?_⟩
  intro more less
  exact Nat.le_min.2 ⟨Nat.le_trans (Nat.min_le_left _ _) (grows less), Nat.min_le_right _ _⟩

/-- A delay of no length as the first one, and the longest there is as the cap: the last
sum with room is exact, the next one would have none, and so it stays. -/
theorem delay_eq_fib_of_widest :
    Duration.seconds ⟨999999999⟩ ≤ maxSeconds ∧
      Duration.seconds ⟨18446744073709551615999999999⟩ ≤ maxSeconds ∧
      (ofDurations ⟨999999999⟩ ⟨18446744073709551615999999999⟩).delay 93 =
        .ofSeconds 12200160415121876738 ∧
      (ofDurations ⟨999999999⟩ ⟨18446744073709551615999999999⟩).delay 94 =
        .ofSeconds 18446744073709551615 ∧
      ((ofDurations ⟨999999999⟩ ⟨18446744073709551615999999999⟩).delay 94).seconds ≤
        ((ofDurations ⟨999999999⟩ ⟨18446744073709551615999999999⟩).delay maxFailures).seconds := by
  have room : Duration.seconds ⟨999999999⟩ ≤ maxSeconds := by decide
  have room' : Duration.seconds ⟨18446744073709551615999999999⟩ ≤ maxSeconds := by decide
  have least : 1 = max 1 (Duration.seconds ⟨999999999⟩) := by decide
  have most : 18446744073709551615 =
      max 1 (Duration.seconds ⟨18446744073709551615999999999⟩) := by decide
  have last := (delay_eq_fib room room' least most 93).1
  obtain ⟨next, -, -, grows⟩ := delay_eq_fib room room' least most 94
  have exact : min (1 * fib (max 1 93)) 18446744073709551615 = 12200160415121876738 := by
    decide +kernel
  have full : min (1 * fib (max 1 94)) 18446744073709551615 = 18446744073709551615 := by
    decide +kernel
  exact ⟨room, room', last.trans (by rw [exact]), next.trans (by rw [full]),
    grows maxFailures (by decide)⟩

end ResourceWatch.Backoff
