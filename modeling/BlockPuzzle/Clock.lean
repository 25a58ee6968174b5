/-!
# Clocks

Times and delays are whole milliseconds in words of 64 bits. A sum that does not fit stays at the last
instant, a difference below zero at zero.
-/

namespace BlockPuzzle

/-- An instant or a delay in milliseconds. -/
abbrev Millis := UInt64

namespace Millis

/-- The last instant there is. -/
def last : Millis := 18446744073709551615

/-- The instant a delay after another one. -/
def after (time delay : Millis) : Millis :=
  if delay ≤ last - time then time + delay else last

/-- The delay from one instant to another. -/
def delayTo (now deadline : Millis) : Millis :=
  if now ≤ deadline then deadline - now else 0

/-- The last instant as a number. -/
theorem toNat_last : last.toNat = 18446744073709551615 := rfl

/-- Adding a delay stops at the last instant. -/
theorem toNat_after (time delay : Millis) :
    (after time delay).toNat = min (time.toNat + delay.toNat) last.toNat := by
  have htime : time.toNat < 18446744073709551616 := time.toNat_lt
  have hsub : (last - time).toNat = last.toNat - time.toNat := by
    refine UInt64.toNat_sub_of_le _ _ ?_
    rw [UInt64.le_iff_toNat_le, toNat_last]
    omega
  rw [toNat_last] at hsub ⊢
  unfold after
  split
  · next h =>
    rw [UInt64.le_iff_toNat_le, hsub] at h
    rw [UInt64.toNat_add, Nat.mod_eq_of_lt] <;> omega
  · next h =>
    rw [UInt64.le_iff_toNat_le, hsub] at h
    rw [toNat_last]
    omega

/-- No time comes before the instant zero. -/
theorem zero_after (time : Millis) : after 0 time = time := by
  have htime : time.toNat < 18446744073709551616 := time.toNat_lt
  apply UInt64.toNat_inj.1
  rw [toNat_after, toNat_last, UInt64.toNat_zero]
  omega

/-- A delay does not lead back in time. -/
theorem le_after (time delay : Millis) : time ≤ after time delay := by
  have htime : time.toNat < 18446744073709551616 := time.toNat_lt
  rw [UInt64.le_iff_toNat_le, toNat_after, toNat_last]
  omega

/-- The delay to a deadline that has passed is zero, as in the difference of natural numbers. -/
theorem toNat_delayTo (now deadline : Millis) :
    (delayTo now deadline).toNat = deadline.toNat - now.toNat := by
  unfold delayTo
  split
  · next h => exact UInt64.toNat_sub_of_le _ _ h
  · next h =>
    rw [UInt64.le_iff_toNat_le] at h
    change 0 = _
    omega

end Millis

/-- How many milliseconds a sleep for a delay lasts. -/
abbrev Sleep := Millis → Nat

/-- A sleep is punctual if it lasts just as long as it is asked to. -/
def Sleep.Punctual (sleep : Sleep) : Prop :=
  ∀ delay, sleep delay = delay.toNat

/-- To sleep for all milliseconds of a delay is punctual. -/
theorem Sleep.punctual_toNat : Sleep.Punctual UInt64.toNat :=
  fun _ => rfl

end BlockPuzzle
