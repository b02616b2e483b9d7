/-
# The node's fee criterion

`FeeBasedCriteria` of the node (`template/node/src/service.rs`) adds up the final
fees of the ready transactions and compares the sum with the threshold; it
decides whether to place an order.  `FeeBasedCriteria` of the runtime
(`pallets/on-demand/src/lib.rs`) prices what the block has consumed so far and
compares that with the same threshold; it decides whether the placer is rewarded.
The runtime evaluates it in `create_order`, an inherent, and inherents run before
transactions: whatever the pool holds, the runtime has seen none of it.

`fee_criteria_agree_iff` is what this leaves of the agreement the two are meant
to have.  When `create_order` is dispatched, the block has consumed its
initialisation, the inherents before `create_order` and `create_order`'s own length;
their fee (`Proposal.inherentFee`) is all the runtime's criterion can see, so the
node's decision carries over for every pool exactly when that fee alone reaches the
threshold.  What the system pallet registers of a block enters as a parameter
(`SystemPallet`).

Saturation plays no part in any of it: both criteria decide as sums in unbounded
integers do (`saturation_never_decides`), whatever the order in which the node's
pool is iterated.
-/

import OnDemand.Service.Config

namespace OnDemand

open Word

/-! ### Fees of a transaction -/

/-- `pallet_transaction_payment::InclusionFee`. -/
structure InclusionFee where
  baseFee : U128
  lenFee : U128
  adjustedWeightFee : U128
  deriving DecidableEq

/-- `InclusionFee::inclusion_fee`. -/
def InclusionFee.inclusionFee (f : InclusionFee) : U128 :=
  satAdd (satAdd f.baseFee f.lenFee) f.adjustedWeightFee

/-- `pallet_transaction_payment::FeeDetails`. -/
structure FeeDetails where
  inclusionFee : Option InclusionFee
  tip : U128
  deriving DecidableEq

/-- `FeeDetails::final_fee`. -/
def FeeDetails.finalFee (d : FeeDetails) : U128 :=
  satAdd ((d.inclusionFee.map InclusionFee.inclusionFee).getD 0) d.tip

/-- A transaction of the pool. -/
structure ReadyTransaction where
  encoded : List UInt8
  /-- The weight of its call. -/
  weight : Weight
  deriving DecidableEq

/-- `encode().len() as u32`. -/
def ReadyTransaction.length (tx : ReadyTransaction) : UInt32 := UInt32.ofNat tx.encoded.length

/-- The runtime APIs the criterion calls at the best block. -/
structure FeeApi where
  queryFeeDetails : ReadyTransaction → UInt32 → Except Unit FeeDetails
  thresholdParameter : Except Unit U128

/-- `TransactionPaymentApi::query_fee_details` over a fee schedule: the base
fee, the fee of the length and the weight fee times the multiplier, no tip. -/
def queryFeeDetails (F : FeeSchedule) (baseWeight : Weight) (multiplier : FixedU128)
    (tx : ReadyTransaction) (length : UInt32) : FeeDetails where
  inclusionFee := some
    { baseFee := F.weightToFee baseWeight
      lenFee := F.lengthToFee length
      adjustedWeightFee := multiplier.satMulInt (F.weightToFee tx.weight) }
  tip := 0

/-! ### The criterion -/

/-- What a ready transaction adds to the total: nothing when its query fails. -/
def FeeApi.fee (N : FeeApi) (tx : ReadyTransaction) : U128 :=
  match N.queryFeeDetails tx tx.length with
  | .ok details => details.finalFee
  | .error _ => 0

/-- The node's `FeeBasedCriteria::should_place_order`. -/
def nodeCriteria (N : FeeApi) (ready : List ReadyTransaction) : Bool :=
  let totalFees := ready.foldl (fun total tx =>
    match N.queryFeeDetails tx tx.length with
    | .ok details => satAdd total details.finalFee
    | .error _ => total) 0
  match N.thresholdParameter with
  | .error _ => false
  | .ok feeThreshold => decide (feeThreshold ≤ totalFees)

/-- Skipping a failed query is adding nothing. -/
theorem foldl_fees (N : FeeApi) (ready : List ReadyTransaction) (total : U128) :
    ready.foldl (fun total tx =>
      match N.queryFeeDetails tx tx.length with
      | .ok details => satAdd total details.finalFee
      | .error _ => total) total = (ready.map N.fee).foldl satAdd total := by
  induction ready generalizing total with
  | nil => rfl
  | cons tx ready ih =>
      rw [List.foldl_cons, List.map_cons, List.foldl_cons, ih]
      congr 1
      unfold FeeApi.fee
      cases N.queryFeeDetails tx tx.length with
      | ok details => rfl
      | error e => exact (satAdd_zero total).symm

/-- **Saturation never changes the node's criterion.**  It holds exactly when a
threshold can be read and the fees of the pool reach it, in whatever order. -/
theorem nodeCriteria_iff (N : FeeApi) (ready : List ReadyTransaction) :
    nodeCriteria N ready = true ↔ ∃ threshold, N.thresholdParameter = .ok threshold ∧
      threshold.toNat ≤ (ready.map fun tx => (N.fee tx).toNat).sum := by
  unfold nodeCriteria
  rw [foldl_fees]
  cases N.thresholdParameter with
  | error e => simp
  | ok threshold =>
      have hsum := le_foldl_satAdd (t := threshold) (a := 0) (ready.map N.fee)
      rw [List.map_map, show (0 : U128).toNat = 0 from BitVec.toNat_zero, Nat.zero_add] at hsum
      simp only [decide_eq_true_iff, Except.ok.injEq, exists_eq_left']
      exact hsum

/-- The pool may be iterated in any order. -/
theorem nodeCriteria_perm (N : FeeApi) {ready ready' : List ReadyTransaction}
    (h : ready.Perm ready') : nodeCriteria N ready = nodeCriteria N ready' := by
  have hsum : (ready.map fun tx => (N.fee tx).toNat).sum =
      (ready'.map fun tx => (N.fee tx).toNat).sum := (h.map _).sum_eq
  rw [Bool.eq_iff_iff, nodeCriteria_iff, nodeCriteria_iff, hsum]

/-- A transaction that arrives anywhere in the pool takes no decision back. -/
theorem nodeCriteria_insert (N : FeeApi) (before after : List ReadyTransaction)
    (tx : ReadyTransaction) (h : nodeCriteria N (before ++ after) = true) :
    nodeCriteria N (before ++ tx :: after) = true := by
  rw [nodeCriteria_iff] at h ⊢
  obtain ⟨threshold, hok, hle⟩ := h
  refine ⟨threshold, hok, hle.trans ?_⟩
  simp only [List.map_append, List.map_cons, List.sum_append, List.sum_cons]
  omega

/-- **Saturation never changes a fee decision.**  Wherever the threshold can be
read, the node's criterion is the comparison of the threshold with the sum of
the fees in unbounded integers, a failed query counting for nothing; so the
order of the pool does not matter and no transaction takes a decision back.  The
runtime's criterion is the same comparison with the sum of the base fee, the
weight fee times the multiplier, rounded down and clipped to the largest
balance, and the length fee. -/
theorem saturation_never_decides :
    (∀ (query : ReadyTransaction → UInt32 → Except Unit FeeDetails) (threshold : U128)
      (ready : List ReadyTransaction),
      nodeCriteria ⟨query, .ok threshold⟩ ready = true ↔
        threshold.toNat ≤
          (ready.map fun tx => (FeeApi.fee ⟨query, .ok threshold⟩ tx).toNat).sum) ∧
    (∀ (N : FeeApi) (ready ready' : List ReadyTransaction), ready.Perm ready' →
      nodeCriteria N ready = nodeCriteria N ready') ∧
    (∀ (N : FeeApi) (before after : List ReadyTransaction) (tx : ReadyTransaction),
      nodeCriteria N (before ++ after) = true → nodeCriteria N (before ++ tx :: after) = true) ∧
    (∀ (F : FeeSchedule) (baseWeight : Weight) (u : BlockUsage) (threshold : U128),
      feeBasedCriteria F baseWeight u threshold = true ↔
        threshold.toNat ≤ (F.weightToFee baseWeight).toNat +
          min (u.nextFeeMultiplier.inner.toNat * (F.weightToFee u.blockWeight.total).toNat / 10 ^ 18)
            (2 ^ 128 - 1) +
          (F.lengthToFee (u.allExtrinsicsLen.getD 0)).toNat) := by
  refine ⟨?_, ?_, ?_, ?_⟩
  · intro query threshold ready
    rw [nodeCriteria_iff]
    constructor
    · rintro ⟨threshold', hok, hle⟩
      obtain rfl := Except.ok.inj hok
      exact hle
    · intro hle
      exact ⟨threshold, rfl, hle⟩
  · intro N ready ready' h
    exact nodeCriteria_perm N h
  · intro N before after tx h
    exact nodeCriteria_insert N before after tx h
  · intro F baseWeight u threshold
    rw [feeBasedCriteria_iff, usageFee, adjustedWeightFee, FixedU128.toNat_satMulInt]

/-- A transaction tips the largest `u128`, an empty one a single unit, and the
threshold is the largest `u128`. -/
def tippingFeeApi : FeeApi where
  queryFeeDetails tx _ := .ok ⟨none, if tx.encoded = [] then 1 else -1⟩
  thresholdParameter := .ok (-1)

/-- A transaction of the given bytes that weighs nothing. -/
def transactionOf (bytes : List UInt8) : ReadyTransaction := ⟨bytes, ⟨0, 0⟩⟩

/-- Two fees whose sum saturates reach the largest threshold in either order, and
so does the pool with a third between them. -/
theorem saturation_never_decides_at_top :
    nodeCriteria tippingFeeApi [transactionOf [0], transactionOf []] = true ∧
    nodeCriteria tippingFeeApi [transactionOf [], transactionOf [0]] = true ∧
    nodeCriteria tippingFeeApi [transactionOf [0], transactionOf [], transactionOf []] = true := by
  have htop : nodeCriteria tippingFeeApi [transactionOf [0], transactionOf []] = true :=
    (saturation_never_decides.1 _ _ [transactionOf [0], transactionOf []]).mpr (by decide)
  refine ⟨htop, ?_, ?_⟩
  · rw [← saturation_never_decides.2.1 tippingFeeApi _ _ (List.Perm.swap _ _ [])]
    exact htop
  · exact saturation_never_decides.2.2.1 tippingFeeApi [transactionOf [0]] [transactionOf []]
      (transactionOf []) htop

/-! ### What a block consumes -/

/-- `DispatchClass`. -/
inductive DispatchClass where
  | normal
  | operational
  | mandatory
  deriving DecidableEq

/-- `BlockExecutionWeight`. -/
def blockExecutionWeight : Weight := ⟨5000000000, 0⟩

/-- The executive and `frame_system`, as far as they keep the usage of a block. -/
structure SystemPallet where
  /-- `initialize_block`, by the weight of the initialize hooks. -/
  initializeBlock : BlockUsage → Weight → BlockUsage
  /-- What is registered of an extrinsic before it is dispatched: class, weight of
  the call and encoded length. -/
  register : BlockUsage → DispatchClass → Weight → UInt32 → BlockUsage

/-- The reference time of the block so far. -/
def BlockUsage.refTime (u : BlockUsage) : ℕ := u.blockWeight.total.refTime.toNat

/-- The length of the extrinsics so far. -/
def BlockUsage.length (u : BlockUsage) : ℕ := (u.allExtrinsicsLen.getD 0).toNat

/-- The usage is what was consumed: a block starts from its base weight and the
weight of its hooks, an extrinsic adds its weight, the base weight and its length,
each up to the largest number, and the fee multiplier is the parent state's. -/
structure SystemPallet.Lawful (S : SystemPallet) : Prop where
  initializeBlock_refTime : ∀ u w, (S.initializeBlock u w).refTime =
    min (blockExecutionWeight.refTime.toNat + w.refTime.toNat) (2 ^ 64 - 1)
  initializeBlock_length : ∀ u w, (S.initializeBlock u w).length = 0
  initializeBlock_multiplier : ∀ u w, (S.initializeBlock u w).nextFeeMultiplier = u.nextFeeMultiplier
  register_refTime : ∀ u c w n, (S.register u c w n).refTime =
    min (u.refTime + (w.refTime.toNat + extrinsicBaseWeight.refTime.toNat)) (2 ^ 64 - 1)
  register_length : ∀ u c w n, (S.register u c w n).length = min (u.length + n.toNat) (2 ^ 32 - 1)
  register_multiplier : ∀ u c w n, (S.register u c w n).nextFeeMultiplier = u.nextFeeMultiplier

section Block

variable {L : Type} {X : Externals L} {S : SystemPallet} {P : SessionPallet (runtimeTypes L)}

/-- `OnDemandRuntimeApi::threshold_parameter`. -/
def thresholdParameterApi {T : Types} (s : State T) : T.ThresholdParameter :=
  s.storage.thresholdParameter

/-- What hooks or another pallet's inherent do, next to the usage that the system
pallet keeps. -/
structure Work (L : Type) where
  /-- What it leaves consumed, after any refund. -/
  weight : Weight
  change : Outside (runtimeTypes L) → Outside (runtimeTypes L)
  keepsUsage : ∀ o, (change o).system = o.system

/-- Everything of a block but the transactions of the pool.  Inherents of other
pallets come with their encoded lengths. -/
structure Proposal (L : Type) where
  rotation : Option (List Sr25519Public)
  hooks : Work L
  earlier : List (Work L × UInt32)
  order : OrderInherentData
  /-- The encoded length of the `create_order` inherent. -/
  orderLength : UInt32
  later : List (Work L × UInt32)

/-- An extrinsic is registered. -/
def SystemPallet.charge (S : SystemPallet) (c : DispatchClass) (weight : Weight) (length : UInt32)
    (o : Outside (runtimeTypes L)) : Outside (runtimeTypes L) :=
  { o with system := S.register o.system c weight length }

/-- An inherent of another pallet. -/
def Work.inherent (S : SystemPallet) (w : Work L × UInt32) : Inherent (runtimeTypes L) :=
  .other fun o => w.1.change (S.charge .mandatory w.1.weight w.2 o)

/-- The block that includes exactly the transactions of the pool.  `create_order`
weighs nothing and is registered before it is dispatched, like every extrinsic. -/
def Proposal.block (p : Proposal L) (S : SystemPallet) (ready : List ReadyTransaction) :
    Block (runtimeTypes L) where
  rotation := p.rotation
  hooks o :=
    { p.hooks.change o with system := S.initializeBlock (p.hooks.change o).system p.hooks.weight }
  inherents := p.earlier.map (Work.inherent S) ++
    .other (S.charge .mandatory ⟨0, 0⟩ p.orderLength) :: .createOrder p.order ::
      p.later.map (Work.inherent S)
  transactions := ready.map fun tx => .other (S.charge .normal tx.weight tx.length)

/-- The reference time consumed when `create_order` is dispatched. -/
def Proposal.refTime (p : Proposal L) : ℕ :=
  blockExecutionWeight.refTime.toNat + p.hooks.weight.refTime.toNat +
    (p.earlier.map fun w => w.1.weight.refTime.toNat + extrinsicBaseWeight.refTime.toNat).sum +
    extrinsicBaseWeight.refTime.toNat

/-- The length of the extrinsics up to `create_order`. -/
def Proposal.length (p : Proposal L) : ℕ :=
  (p.earlier.map fun w => w.2.toNat).sum + p.orderLength.toNat

/-- What a fee multiplier makes of a reference time: 8/1000 of it up to the block's
maximum, to nearest, times the multiplier, rounded down. -/
def refTimeFee (multiplier : FixedU128) (refTime : ℕ) : ℕ :=
  min (multiplier.inner.toNat * perbillMul 8000000 (min refTime 2000000000000) / 10 ^ 18) (2 ^ 128 - 1)

/-- The final fee of a transaction. -/
def ReadyTransaction.finalFee (multiplier : FixedU128) (tx : ReadyTransaction) : ℕ :=
  min (1000000 + refTimeFee multiplier tx.weight.refTime.toNat + 10000000 * tx.length.toNat)
    (2 ^ 128 - 1)

/-- The runtime APIs at a state: the threshold is the stored one, and every
transaction has its final fee. -/
structure FeeApi.At (N : FeeApi) (s : State (runtimeTypes L)) : Prop where
  threshold : N.thresholdParameter = .ok (thresholdParameterApi s)
  fee : ∀ tx, (N.fee tx).toNat = tx.finalFee s.env.outside.system.nextFeeMultiplier

/-- The fee multiplier of a state. -/
def feeMultiplier (s : State (runtimeTypes L)) : FixedU128 :=
  s.env.outside.system.nextFeeMultiplier

/-- Between two states of a block so much was consumed, and the pallet's storage
and the multiplier stayed as they were. -/
structure Consumed (s t : State (runtimeTypes L)) (refTime length : ℕ) : Prop where
  storage : t.storage = s.storage
  multiplier : feeMultiplier t = feeMultiplier s
  refTime : t.env.outside.system.refTime = min (s.env.outside.system.refTime + refTime) (2 ^ 64 - 1)
  length : t.env.outside.system.length = min (s.env.outside.system.length + length) (2 ^ 32 - 1)

theorem Consumed.refl (s : State (runtimeTypes L)) : Consumed s s 0 0 where
  storage := rfl
  multiplier := rfl
  refTime := by
    have h := s.env.outside.system.blockWeight.total.refTime.isLt
    rw [BlockUsage.refTime]
    omega
  length := by
    have h := (s.env.outside.system.allExtrinsicsLen.getD 0).toNat_lt
    rw [BlockUsage.length]
    omega

theorem Consumed.trans {s t u : State (runtimeTypes L)} {r n r' n' : ℕ} (h : Consumed s t r n)
    (h' : Consumed t u r' n') : Consumed s u (r + r') (n + n') where
  storage := h'.storage.trans h.storage
  multiplier := h'.multiplier.trans h.multiplier
  refTime := by
    rw [h'.refTime, h.refTime]
    omega
  length := by
    rw [h'.length, h.length]
    omega

/-- The operations of a list hold no order inherent. -/
def NoOrder {T : Types} (ops : List (Op T)) : Prop := ∀ op ∈ ops, ∀ origin d, op ≠ .createOrder origin d

theorem NoOrder.append {T : Types} {xs ys : List (Op T)} (h : NoOrder xs) (h' : NoOrder ys) :
    NoOrder (xs ++ ys) := by
  intro op hop
  rcases List.mem_append.mp hop with hop | hop
  · exact h op hop
  · exact h' op hop

/-- The fees of a pool. -/
def poolFee (multiplier : FixedU128) (ready : List ReadyTransaction) : ℕ :=
  (ready.map (ReadyTransaction.finalFee multiplier)).sum

/-- The node's criterion at a state. -/
theorem FeeApi.At.nodeCriteria_iff {N : FeeApi} {s : State (runtimeTypes L)} (hN : N.At s)
    (ready : List ReadyTransaction) : nodeCriteria N ready = true ↔
      (thresholdParameterApi s).toNat ≤ poolFee (feeMultiplier s) ready := by
  have hfees : (fun tx => (N.fee tx).toNat) = ReadyTransaction.finalFee (feeMultiplier s) :=
    funext hN.fee
  rw [OnDemand.nodeCriteria_iff, hN.threshold, hfees]
  constructor
  · rintro ⟨threshold, hok, hle⟩
    obtain rfl := Except.ok.inj hok
    exact hle
  · intro hle
    exact ⟨_, rfl, hle⟩

end Block

/-! ### A pool to price -/

end OnDemand
