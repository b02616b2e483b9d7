/-
# Mortal eras

A transaction signed with a mortal era is valid only in the blocks of one
period (`sp_runtime::generic::Era`).  The era keeps the length of the period
and the phase, the checkpoint's number within the period; the period asked for
is rounded up to a power of two and kept between 4 and 65536, and the phase is
rounded down to a multiple of the quantum, which is more than 1 only for periods
above 4096.

The chain at block `n` recomputes the number of the checkpoint from the era
(`Era.birth`), and the signature holds when that is the checkpoint it was made
with.  Where the quantum costs nothing this is an interval, from the checkpoint
on for one period (`Era.birth_mortal_eq_iff`).
-/

import Mathlib.Algebra.Order.Ring.Nat
import Mathlib.Data.Nat.Log

/-- `Era::Mortal(period, phase)`. -/
structure Era where
  period : ℕ
  phase : ℕ
  deriving DecidableEq

namespace Era

/-- The period an era has when `p` is asked for. -/
def periodOf (p : ℕ) : ℕ := max 4 (min (2 ^ Nat.clog 2 p) 65536)

/-- What the phase is a multiple of. -/
def quantum (period : ℕ) : ℕ := max (period / 4096) 1

/-- `Era::mortal(p, checkpoint)`. -/
def mortal (p checkpoint : ℕ) : Era where
  period := periodOf p
  phase := checkpoint % periodOf p / quantum (periodOf p) * quantum (periodOf p)

/-- `birth(n)`: the block the era counts from, as seen at block `n`. -/
def birth (e : Era) (n : ℕ) : ℕ := (max n e.phase - e.phase) / e.period * e.period + e.phase

/-- A power of two is only clamped. -/
theorem periodOf_two_pow (k : ℕ) : periodOf (2 ^ k) = max 4 (min (2 ^ k) 65536) := by
  rw [periodOf, Nat.clog_pow 2 k (by omega)]

/-- A period of at least 4 divides whatever the power asked for divides. -/
theorem periodOf_two_pow_dvd {k : ℕ} (hk : 2 ≤ k) : periodOf (2 ^ k) ∣ 2 ^ k := by
  have h₄ : 4 ≤ 2 ^ k := Nat.pow_le_pow_right (n := 2) (by omega) hk
  have hperiod : periodOf (2 ^ k) = 2 ^ min k 16 := by
    rw [periodOf_two_pow]
    rcases Nat.le_total k 16 with h | h
    · have h₁₆ : 2 ^ k ≤ 2 ^ 16 := Nat.pow_le_pow_right (by omega) h
      rw [min_eq_left h]
      omega
    · have h₁₆ : 2 ^ 16 ≤ 2 ^ k := Nat.pow_le_pow_right (by omega) h
      rw [min_eq_right h]
      omega
  rw [hperiod]
  exact Nat.pow_dvd_pow 2 (min_le_left k 16)

/-- **An era lasts one period from its checkpoint.**  If the quantum divides the
checkpoint's number within the period, the era seen from a later block counts
from the checkpoint exactly within the period that starts there. -/
theorem birth_mortal_eq_iff {p c n : ℕ} (hq : quantum (periodOf p) ∣ c % periodOf p) (hn : c ≤ n) :
    (mortal p c).birth n = c ↔ n < c + periodOf p := by
  have hpos : 0 < periodOf p := by
    rw [periodOf]
    omega
  have hphase : (mortal p c).phase = c % periodOf p := Nat.div_mul_cancel hq
  have hperiod : (mortal p c).period = periodOf p := rfl
  rw [birth, hphase, hperiod]
  generalize periodOf p = P at hpos ⊢
  have hc : c / P * P + c % P = c := Nat.div_add_mod' c P
  have hmax : max n (c % P) = n := by
    have := Nat.mod_le c P
    omega
  have hkey : (n - c % P) / P = c / P ↔ n < c + P := by
    rw [Nat.div_eq_iff hpos]
    omega
  rw [hmax, ← hkey]
  constructor
  · intro h
    have h' : (n - c % P) / P * P = c / P * P := by omega
    exact Nat.eq_of_mul_eq_mul_right hpos h'
  · intro h
    rw [h]
    exact hc

end Era
