/-
# The template runtime

`template/runtime/src/configs/mod.rs` and `template/runtime/src/lib.rs`: how
the template configures the pallet.  Authorities are sr25519 AURA keys,
validators are accounts (`IdentityCollator`, `ToAccountIdImpl`), the criterion
is `FeeBasedCriteria` over the base weight of an extrinsic, the reward is
`FixedReward` of one milli unit, and `OrderPlacementChecker` reads the orders
out of the relay chain's system events.

What the template takes from other crates is `Externals`: how a state proof is
read, and the currency.  The fee schedule is the template's own polynomial,
which prices a weight at 8/1000 of its reference time, and its byte fee.
-/

import OnDemand.Pallet.CreateOrder
import OnDemand.Pallet.Criteria

namespace OnDemand

open Word

/-! ### Orders in the relay chain's events -/

/-- `OrderPlacementChecker::orders_placed`. -/
def orderPlacementChecker (V : StateProofs) (relayStateProof : RelayChainStateProof)
    (expectedParaId : ParaId) : List (U128 × AccountId32) :=
  ((relayStateProof.readEntry V eventsKey).getD []).filterMap fun item =>
    match item with
    | .onDemandAssignmentProvider (.onDemandOrderPlaced paraId spotPrice orderedBy) =>
        if paraId = expectedParaId then some (spotPrice, orderedBy) else none
    | _ => none

/-- The accounts the checker reports are those that ordered for the para in
the events under the proof. -/
theorem exists_mem_orderPlacementChecker {V : StateProofs} {p : RelayChainStateProof}
    {paraId : ParaId} {P : AccountId32 → Prop} :
    (∃ order ∈ orderPlacementChecker V p paraId, P order.2) ↔
      ∃ by_, HasOrder ((p.readEntry V eventsKey).getD []) paraId by_ ∧ P by_ := by
  simp only [orderPlacementChecker, List.mem_filterMap]
  constructor
  · rintro ⟨⟨price, by_⟩, ⟨item, hmem, hitem⟩, hP⟩
    split at hitem
    · split_ifs at hitem with hpara
      cases hitem
      subst hpara
      exact ⟨by_, ⟨price, hmem⟩, hP⟩
    · cases hitem
  · rintro ⟨by_, ⟨price, hmem⟩, hP⟩
    exact ⟨(price, by_), ⟨_, hmem, by simp⟩, hP⟩

/-! ### Fees -/

def milliUnit : U128 := 1000000000
def microUnit : U128 := 1000000

/-- `ExtrinsicBaseWeight`. -/
def extrinsicBaseWeight : Weight := ⟨125000000, 0⟩

/-- `MAXIMUM_BLOCK_WEIGHT`: two seconds and five mebibytes. -/
def maximumBlockWeight : Weight := ⟨2000000000000, 5242880⟩

/-- `Perbill * u128`: to nearest, ties down. -/
def perbillMul (parts : ℕ) (x : ℕ) : ℕ := (x * parts + 499999999) / 1000000000

/-- `WeightToFee`: `p / q` of a tenth milli unit over a hundred base weights
leaves no integer part and the fraction 8_000_000 per billion. -/
def weightToFee (w : Weight) : U128 := BitVec.ofNat 128 (perbillMul 8000000 w.refTime.toNat)

/-- The transaction payment pallet over `WeightToFee` and
`ConstantMultiplier<Balance, TransactionByteFee>`; a weight is capped at the
block's maximum. -/
def templateFees : FeeSchedule where
  weightToFee w := weightToFee (w.min maximumBlockWeight)
  lengthToFee len := satMul (BitVec.ofNat 128 len.toNat) (10 * microUnit)

/-! ### The pallet's configuration -/

/-- The types of the template runtime, over a type `L` of balances. -/
abbrev runtimeTypes (L : Type) : Types where
  AuthorityId := Sr25519Public
  ValidatorId := AccountId32
  ThresholdParameter := U128
  System := BlockUsage
  Ledger := L
  balanceBits := 128
  toRawVec := Bytes32.toList
  decEqValidatorId := inferInstance

/-- What the template runtime takes from other crates and from its build. -/
structure Externals (L : Type) where
  overflowChecks : Bool
  proofs : StateProofs
  mintInto : L → AccountId32 → U128 → Option L

/-- `impl pallet_on_demand::Config for Runtime`. -/
def runtimeConfig {L : Type} (X : Externals L) : Config (runtimeTypes L) where
  overflowChecks := X.overflowChecks
  adminOrigin origin := origin = .root
  proofs := X.proofs
  shouldPlaceOrder s :=
    feeBasedCriteria templateFees extrinsicBaseWeight s.env.outside.system s.storage.thresholdParameter
  ordersPlaced := orderPlacementChecker X.proofs
  validatorIdOf := some
  toAccountId := id
  rewardSize _ := fixedReward milliUnit
  mintInto := X.mintInto
  onReward := .pallet

/-- With the template's checker, the condition of `create_order` on the orders is
about the events under the proof. -/
theorem exists_ordersPlaced_iff {L : Type} {C : Config (runtimeTypes L)}
    (hC : C.ordersPlaced = orderPlacementChecker C.proofs) {data : InherentData}
    {owner : AccountId32} :
    (∃ order ∈ C.ordersPlaced ⟨data.paraId, data.relayStateRoot, data.relayStorageProof⟩
      data.paraId, C.validatorIdOf order.2 = some owner) ↔
      ∃ orderedBy, HasOrder ((RelayChainStateProof.readEntry C.proofs
        ⟨data.paraId, data.relayStateRoot, data.relayStorageProof⟩ eventsKey).getD [])
          data.paraId orderedBy ∧ C.validatorIdOf orderedBy = some owner := by
  rw [hC]
  exact exists_mem_orderPlacementChecker (P := fun who => C.validatorIdOf who = some owner)

/-- With the data of a real block, it is about the events of the block. -/
theorem HonestData.exists_ordersPlaced_iff {L : Type} {C : Config (runtimeTypes L)}
    (hC : C.ordersPlaced = orderPlacementChecker C.proofs) {b : RelayBlock} {data : InherentData}
    (h : HonestData C.proofs b data) {owner : AccountId32} :
    (∃ order ∈ C.ordersPlaced ⟨data.paraId, data.relayStateRoot, data.relayStorageProof⟩
      data.paraId, C.validatorIdOf order.2 = some owner) ↔
      ∃ orderedBy, HasOrder b.events data.paraId orderedBy ∧
        C.validatorIdOf orderedBy = some owner := by
  rw [OnDemand.exists_ordersPlaced_iff hC, RelayChainStateProof.readEntry, h.events, Option.getD_some]

/-! ### A chain to run -/

/-- Balances as a map, with the template's existential deposit of one milli
unit: minting fails below it and on overflow. -/
def mintInto (balances : AccountId32 → U128) (who : AccountId32) (amount : U128) :
    Option (AccountId32 → U128) :=
  let free := (balances who).toNat + amount.toNat
  if free < milliUnit.toNat then none
  else if 2 ^ 128 ≤ free then none
  else some (Function.update balances who (BitVec.ofNat 128 free))

/-- State proofs over a table of committed event lists: a proof holds the
bytes of the roots whose nodes it carries. -/
def tableProofs (table : List (H256 × List RelayEvent)) : StateProofs where
  rootPresent root proof := proof.trieNodes.contains root.toList
  readEvents root proof key :=
    if proof.trieNodes.contains root.toList && key == eventsKey then table.lookup root else none

/-- The template runtime on a relay chain with the given event lists. -/
def tableRuntime (table : List (H256 × List RelayEvent)) :
    Config (runtimeTypes (AccountId32 → U128)) :=
  runtimeConfig ⟨false, tableProofs table, mintInto⟩

/-- A runtime state where nothing is consumed and everybody owns nothing. -/
def idleOutside : Outside (runtimeTypes (AccountId32 → U128)) where
  system := ⟨⟨⟨0, 0⟩, ⟨0, 0⟩, ⟨0, 0⟩⟩, none, ⟨1000000000000000000⟩⟩
  ledger := fun _ => 0
  events := []

/-- AuRa and session state of collators with one key each. -/
def collatorEnv (collators : List (AccountId32 × Sr25519Public)) :
    Env (runtimeTypes (AccountId32 → U128)) where
  auraAuthorities := collators.map Prod.snd
  keyOwner keyType raw :=
    if keyType = aura then (collators.find? fun c => c.2.toList == raw).map Prod.fst else none
  nextKeys who := (collators.find? fun c => c.1 == who).map Prod.snd
  outside := idleOutside

/-- The inherent data of a relay block, with the proof a node builds for it. -/
def dataOf (b : RelayBlock) (paraId : ParaId) : InherentData where
  relayStorageProof := ⟨[b.stateRoot.toList]⟩
  relayStateRoot := b.stateRoot
  relayHeight := b.number
  paraId := paraId

def alice : Bytes32 := .replicate 1
def bob : Bytes32 := .replicate 2

/-- The relay block at a height whose only event is an order for para 2000. -/
def orderBlock (number : UInt8) (orderedBy : AccountId32) : RelayBlock where
  number := number.toUInt32
  stateRoot := .replicate number
  events := [.onDemandAssignmentProvider (.onDemandOrderPlaced 2000 1000000 orderedBy)]

/-- Its entry in the table of committed event lists. -/
def orderEntry (number : UInt8) (orderedBy : AccountId32) : H256 × List RelayEvent :=
  ((orderBlock number orderedBy).stateRoot, (orderBlock number orderedBy).events)

end OnDemand
