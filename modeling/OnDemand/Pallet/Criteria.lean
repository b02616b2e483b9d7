/-
# The runtime's fee criterion

`FeeBasedCriteria` and `FixedReward` (`pallets/on-demand/src/lib.rs`), the two
implementations of `RuntimeOrderCriteria` and `RewardSize` the pallet ships.

The criterion prices what the block has consumed so far: the weight fee of the
block weight, adjusted by the fee multiplier, the length fee of the extrinsics
applied, and the fee of one base weight.  Every addition saturates, which never
changes the decision (`feeBasedCriteria_iff`): it is true exactly when the three
fees reach the threshold in unbounded integers.

`weight_to_fee` and `length_to_fee` belong to the transaction payment pallet
and enter as `FeeSchedule`.
-/

import OnDemand.Base.Word

namespace OnDemand

open Word

/-- `sp_weights::Weight`. -/
structure Weight where
  refTime : BitVec 64
  proofSize : BitVec 64
  deriving DecidableEq

/-- `Weight::saturating_add`. -/
def Weight.satAdd (a b : Weight) : Weight :=
  ⟨Word.satAdd a.refTime b.refTime, Word.satAdd a.proofSize b.proofSize⟩

/-- `Weight::min`, in each dimension. -/
def Weight.min (a b : Weight) : Weight :=
  ⟨if a.refTime ≤ b.refTime then a.refTime else b.refTime,
    if a.proofSize ≤ b.proofSize then a.proofSize else b.proofSize⟩

/-- `frame_system::ConsumedWeight`, one weight for each dispatch class. -/
structure ConsumedWeight where
  normal : Weight
  operational : Weight
  mandatory : Weight
  deriving DecidableEq

/-- `PerDispatchClass::total`. -/
def ConsumedWeight.total (w : ConsumedWeight) : Weight :=
  (w.normal.satAdd w.operational).satAdd w.mandatory

/-- `pallet_transaction_payment::Pallet::{weight_to_fee, length_to_fee}`. -/
structure FeeSchedule where
  weightToFee : Weight → U128
  lengthToFee : UInt32 → U128

/-- What the criterion reads of the system and the transaction payment
pallets. -/
structure BlockUsage where
  /-- `frame_system::Pallet::block_weight()`. -/
  blockWeight : ConsumedWeight
  /-- `frame_system::AllExtrinsicsLen`. -/
  allExtrinsicsLen : Option UInt32
  /-- `pallet_transaction_payment::NextFeeMultiplier`. -/
  nextFeeMultiplier : FixedU128
  deriving DecidableEq

/-- `multiplier.saturating_mul_int(weight_to_fee(block_weight.total()))`. -/
def adjustedWeightFee (F : FeeSchedule) (u : BlockUsage) : U128 :=
  u.nextFeeMultiplier.satMulInt (F.weightToFee u.blockWeight.total)

/-- `FeeBasedCriteria::should_place_order`. -/
def feeBasedCriteria (F : FeeSchedule) (baseWeight : Weight) (u : BlockUsage)
    (threshold : U128) : Bool :=
  let lenFee := F.lengthToFee (u.allExtrinsicsLen.getD 0)
  let baseFee := F.weightToFee baseWeight
  decide (threshold ≤ satAdd (satAdd baseFee (adjustedWeightFee F u)) lenFee)

/-- The fee of what the block has consumed, in unbounded integers. -/
def usageFee (F : FeeSchedule) (baseWeight : Weight) (u : BlockUsage) : ℕ :=
  (F.weightToFee baseWeight).toNat + (adjustedWeightFee F u).toNat +
    (F.lengthToFee (u.allExtrinsicsLen.getD 0)).toNat

/-- **Saturation never changes the criterion.**  It holds exactly when the fee
of what the block has consumed reaches the threshold. -/
theorem feeBasedCriteria_iff (F : FeeSchedule) (baseWeight : Weight) (u : BlockUsage)
    (threshold : U128) :
    feeBasedCriteria F baseWeight u threshold = true ↔ threshold.toNat ≤ usageFee F baseWeight u := by
  have ht := threshold.isLt
  rw [feeBasedCriteria, decide_eq_true_iff, le_satAdd, usageFee]
  rw [satAdd, toNat_clip]
  omega

/-- `FixedReward::reward_size`. -/
def fixedReward {n : ℕ} (amount : BitVec n) : BitVec n := satAdd 0 amount

end OnDemand
