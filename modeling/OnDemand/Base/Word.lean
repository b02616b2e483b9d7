/-
# Machine words

Unsigned integers as compiled code has them: shifts of a 32-bit word by an
amount that may be out of range, saturating arithmetic at any width, and the
128-bit fixed point number with eighteen decimals.

A shift of a `u32` by 32 or more panics when overflow checks are compiled in
and otherwise uses the amount modulo 32, which is what `>>>` and `<<<` of
`UInt32` do (`shr`, `shl`).  Within range a right shift is division by a power
of two (`toNat_shiftRight`), so it cuts the heights into windows of `2^w`
(`toNat_shiftRight_eq_iff`), and shifting back up gives the window's first height
(`toNat_shiftRight_shiftLeft`): `window_eq_of_le` is the one fact about two
different widths, that a height whose window number has not passed an earlier
height's number at a width at least as large lies in that earlier height's
window.

A saturating sum compares with a bound that fits the word as the exact sum
does (`le_satAdd`, `le_foldl_satAdd`), whatever saturates on the way.  A fixed
point product divides by the scale before it saturates
(`FixedU128.satMul_inner_eq_iff` says when that makes no difference).
-/

import Mathlib.Algebra.BigOperators.Group.List.Basic
import Mathlib.Algebra.Order.Ring.Nat

namespace Word

/-- `a >> b` for `u32`; `none` is the panic of a build with overflow checks. -/
def shr (checks : Bool) (a b : UInt32) : Option UInt32 :=
  if checks && decide (32 ≤ b) then none else some (a >>> b)

/-- `a << b` for `u32`; `none` is the panic of a build with overflow checks. -/
def shl (checks : Bool) (a b : UInt32) : Option UInt32 :=
  if checks && decide (32 ≤ b) then none else some (a <<< b)

/-- A shift that returns at all returns the masked shift. -/
theorem eq_of_shr_eq_some {checks : Bool} {a b c : UInt32} (h : shr checks a b = some c) :
    c = a >>> b := by
  unfold shr at h
  split_ifs at h
  exact (Option.some.inj h).symm

/-- A shift within range returns in every build. -/
theorem shr_of_lt (checks : Bool) {a b : UInt32} (hb : b < 32) : shr checks a b = some (a >>> b) := by
  have h : ¬32 ≤ b := UInt32.not_le.mpr hb
  simp [shr, h]

/-- Within range, a right shift divides by a power of two. -/
theorem toNat_shiftRight {a b : UInt32} (hb : b < 32) : (a >>> b).toNat = a.toNat / 2 ^ b.toNat := by
  have h : b.toNat < 32 := UInt32.lt_iff_toNat_lt.mp hb
  rw [UInt32.toNat_shiftRight, Nat.mod_eq_of_lt h, Nat.shiftRight_eq_div_pow]

/-- Two words share their window exactly when they have one quotient. -/
theorem shiftRight_eq_iff {a a' b : UInt32} (hb : b < 32) :
    a >>> b = a' >>> b ↔ a.toNat / 2 ^ b.toNat = a'.toNat / 2 ^ b.toNat := by
  rw [← UInt32.toNat_inj, toNat_shiftRight hb, toNat_shiftRight hb]

/-- The words of one window are a range of `2^b` words. -/
theorem toNat_shiftRight_eq_iff {a b : UInt32} (hb : b < 32) {s : ℕ} :
    (a >>> b).toNat = s ↔ s * 2 ^ b.toNat ≤ a.toNat ∧ a.toNat < (s + 1) * 2 ^ b.toNat := by
  rw [toNat_shiftRight hb, Nat.div_eq_iff (Nat.two_pow_pos b.toNat), Nat.succ_mul]
  have hpos : 0 < 2 ^ b.toNat := Nat.two_pow_pos b.toNat
  omega

/-- Every number a shift leaves room for is the number of a window. -/
theorem exists_toNat_shiftRight_eq {b : UInt32} (hb : b < 32) {s : ℕ} (hs : s < 2 ^ (32 - b.toNat)) :
    ∃ a : UInt32, (a >>> b).toNat = s := by
  have hb' : b.toNat < 32 := UInt32.lt_iff_toNat_lt.mp hb
  have hfits : s * 2 ^ b.toNat < 2 ^ 32 := by
    calc s * 2 ^ b.toNat < 2 ^ (32 - b.toNat) * 2 ^ b.toNat :=
          Nat.mul_lt_mul_of_pos_right hs (Nat.two_pow_pos b.toNat)
      _ = 2 ^ 32 := by rw [← Nat.pow_add, Nat.sub_add_cancel hb'.le]
  refine ⟨UInt32.ofNat (s * 2 ^ b.toNat), ?_⟩
  rw [toNat_shiftRight hb, UInt32.toNat_ofNat_of_lt' hfits]
  exact Nat.mul_div_cancel s (Nat.two_pow_pos b.toNat)

/-- A left shift within range returns in every build. -/
theorem shl_of_lt (checks : Bool) {a b : UInt32} (hb : b < 32) : shl checks a b = some (a <<< b) := by
  have h : ¬32 ≤ b := UInt32.not_le.mpr hb
  simp [shl, h]

/-- Within range, a left shift multiplies by a power of two when the product
fits the word. -/
theorem toNat_shiftLeft {a b : UInt32} (hb : b < 32) (hfits : a.toNat * 2 ^ b.toNat < 2 ^ 32) :
    (a <<< b).toNat = a.toNat * 2 ^ b.toNat := by
  have h : b.toNat < 32 := UInt32.lt_iff_toNat_lt.mp hb
  rw [UInt32.toNat_shiftLeft, Nat.mod_eq_of_lt h, Nat.shiftLeft_eq, Nat.mod_eq_of_lt hfits]

/-- **Shifting down and up again** gives the first height of the window. -/
theorem toNat_shiftRight_shiftLeft {a b : UInt32} (hb : b < 32) :
    ((a >>> b) <<< b).toNat = a.toNat / 2 ^ b.toNat * 2 ^ b.toNat := by
  have hle : a.toNat / 2 ^ b.toNat * 2 ^ b.toNat ≤ a.toNat := Nat.div_mul_le_self _ _
  have ha : a.toNat < 2 ^ 32 := a.toNat_lt
  rw [toNat_shiftLeft hb]
  · rw [toNat_shiftRight hb]
  · rw [toNat_shiftRight hb]
    omega

/-- **One shifted up by less than 32** is the power of two. -/
theorem toNat_one_shiftLeft {b : UInt32} (hb : b < 32) : ((1 : UInt32) <<< b).toNat = 2 ^ b.toNat := by
  have h : b.toNat < 32 := UInt32.lt_iff_toNat_lt.mp hb
  have hpow : 2 ^ b.toNat < 2 ^ 32 := Nat.pow_lt_pow_right (by omega) h
  have hone : (1 : UInt32).toNat = 1 := rfl
  rw [toNat_shiftLeft hb]
  · rw [hone, Nat.one_mul]
  · rw [hone, Nat.one_mul]
    exact hpow

/-- **A height refused at a narrower width sits in the window that refused
it.**  If `h` comes no earlier than `h₀`, and its window number at width `w`
is at most that of `h₀` at a width `w₀ ≥ w`, then `h` and `h₀` share their
window of width `w`. -/
theorem window_eq_of_le {h h₀ w w₀ : ℕ} (hw : w ≤ w₀) (hh : h₀ ≤ h)
    (hle : h / 2 ^ w ≤ h₀ / 2 ^ w₀) : h / 2 ^ w = h₀ / 2 ^ w := by
  have hpow : 2 ^ w ≤ 2 ^ w₀ := Nat.pow_le_pow_right (by omega) hw
  have hnarrow : h₀ / 2 ^ w₀ ≤ h₀ / 2 ^ w := Nat.div_le_div_left hpow (Nat.two_pow_pos w)
  have hmono : h₀ / 2 ^ w ≤ h / 2 ^ w := Nat.div_le_div_right hh
  omega

/-- A height below the end of a window that has begun is in the window. -/
theorem window_eq_of_lt {h n w : ℕ} (hh : h ≤ n) (hn : n < h / 2 ^ w * 2 ^ w + 2 ^ w) :
    n / 2 ^ w = h / 2 ^ w := by
  have hfirst : h / 2 ^ w * 2 ^ w ≤ h := Nat.div_mul_le_self _ _
  rw [Nat.div_eq_iff (Nat.two_pow_pos w)]
  omega

/-! ### Saturating arithmetic -/

section Saturating

variable {n : ℕ}

/-- `a.saturating_add(b)`. -/
def satAdd (a b : BitVec n) : BitVec n := BitVec.ofNat n (min (a.toNat + b.toNat) (2 ^ n - 1))

/-- `a.saturating_mul(b)`. -/
def satMul (a b : BitVec n) : BitVec n := BitVec.ofNat n (min (a.toNat * b.toNat) (2 ^ n - 1))

/-- Clipping to the largest word loses nothing afterwards. -/
theorem toNat_clip (x : ℕ) : (BitVec.ofNat n (min x (2 ^ n - 1))).toNat = min x (2 ^ n - 1) := by
  have hpos : 0 < 2 ^ n := Nat.two_pow_pos n
  rw [BitVec.toNat_ofNat, Nat.mod_eq_of_lt]
  omega

/-- Nothing saturates when zero is added. -/
theorem satAdd_zero (a : BitVec n) : satAdd a 0 = a := by
  have ha := a.isLt
  refine BitVec.eq_of_toNat_eq ?_
  rw [satAdd, toNat_clip, show (0 : BitVec n).toNat = 0 from BitVec.toNat_zero]
  omega

/-- **A saturating sum reaches a bound exactly when the sum does.** -/
theorem le_satAdd {t a b : BitVec n} : t ≤ satAdd a b ↔ t.toNat ≤ a.toNat + b.toNat := by
  have ht := t.isLt
  rw [BitVec.le_def, satAdd, toNat_clip]
  omega

/-- **So does a saturating accumulator over a list**, in whatever order. -/
theorem le_foldl_satAdd {t a : BitVec n} (xs : List (BitVec n)) :
    t ≤ xs.foldl satAdd a ↔ t.toNat ≤ a.toNat + (xs.map BitVec.toNat).sum := by
  induction xs generalizing a with
  | nil => simp [BitVec.le_def]
  | cons x xs ih =>
      have ht := t.isLt
      rw [List.foldl_cons, ih, satAdd, toNat_clip, List.map_cons, List.sum_cons]
      omega

end Saturating

/-! ### `FixedU128` -/

/-- `u128`. -/
abbrev U128 := BitVec 128

/-- `FixedU128`, by its inner `u128`: the number times `10^18`. -/
structure FixedU128 where
  /-- `into_inner()`. -/
  inner : U128
  deriving DecidableEq

/-- `FixedU128::saturating_mul_int` at `u128`: rounded down, clipped at the
largest `u128`. -/
def FixedU128.satMulInt (x : FixedU128) (k : U128) : U128 :=
  BitVec.ofNat 128 (min (x.inner.toNat * k.toNat / 10 ^ 18) (2 ^ 128 - 1))

theorem FixedU128.toNat_satMulInt (x : FixedU128) (k : U128) :
    (x.satMulInt k).toNat = min (x.inner.toNat * k.toNat / 10 ^ 18) (2 ^ 128 - 1) :=
  toNat_clip _

/-- **Multiplying the inner number forgets the decimals.**  The raw product is
the fixed point product only where nothing is multiplied or both saturate. -/
theorem FixedU128.satMul_inner_eq_iff (x : FixedU128) (k : U128) :
    satMul x.inner k = x.satMulInt k ↔
      x.inner.toNat * k.toNat = 0 ∨ (2 ^ 128 - 1) * 10 ^ 18 ≤ x.inner.toNat * k.toNat := by
  rw [← BitVec.toNat_inj, satMul, toNat_clip, toNat_satMulInt]
  omega

end Word
