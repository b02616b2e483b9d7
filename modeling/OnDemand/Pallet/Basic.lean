/-
# The on-demand pallet

`pallets/on-demand/src/lib.rs`: the pallet's storage, its calls, the hook and
the reward.

`Types` are the associated types of `Config`, `Config` its functions; the
pallet stays generic in both, as in the source.  What the pallet reads of other
pallets is `Env`: AuRa's authorities, the session pallet's `KeyOwner` (with the
`NextKeys` that decide which owner entry a key change removes), and `Outside`,
the rest of the runtime: block weights and fees (`system`), balances
(`ledger`) and the events deposited so far.

A call fails with a dispatch error or panics (`Failure`).  Panics are part of
the model because an inherent that panics, like a mandatory one that returns an
error, makes its block invalid: a relay proof without its root, a `u32` shift
by 32 or more in a build with overflow checks, a remainder by zero.

`create_order` returns, next to the state, the call of `OnReward::reward` it
made, if any (`RewardCall`).  `OnReward` is the pallet's own implementation or
a custom one; a custom one may change anything outside the pallet.
-/

import OnDemand.Primitives.Inherent

namespace OnDemand

open Word

/-- The associated types of the pallet's `Config`. -/
structure Types where
  AuthorityId : Type
  ValidatorId : Type
  ThresholdParameter : Type
  System : Type
  Ledger : Type
  /-- The width of the `Balance` integer. -/
  balanceBits : ℕ
  /-- `RuntimeAppPublic::to_raw_vec`. -/
  toRawVec : AuthorityId → List UInt8
  decEqValidatorId : DecidableEq ValidatorId

attribute [instance] Types.decEqValidatorId

/-- `BalanceOf<T>`. -/
abbrev Types.Balance (T : Types) := BitVec T.balanceBits

/-- The origin of a call. -/
inductive Origin where
  | none
  | root
  | signed (who : AccountId32)
  deriving DecidableEq

/-- `Event<T>`. -/
inductive Event (T : Types) where
  | slotWidthSet (width : UInt32)
  | thresholdParameterSet (parameter : T.ThresholdParameter)
  | orderPlacerRewarded (orderPlacer : AccountId32) (reward : T.Balance)
  | bulkModeSet (bulkMode : Bool)

/-- `Error<T>`. -/
inductive Error where
  /-- Invalid proof provided for system events key. -/
  | invalidProof
  /-- Failed to read the relay chain proof. -/
  | failedProofReading
  /-- Failed to get the order placer account based on the authority id. -/
  | failedToGetOrderPlacerAccount
  /-- We failed to decode inherent data. -/
  | failedToDecodeInherentData
  deriving DecidableEq

/-- Where the pallet's code can panic. -/
inductive Panic where
  /-- `expect("Invalid relay chain state proof")`. -/
  | invalidRelayChainStateProof
  | shiftOverflow
  | remainderByZero
  deriving DecidableEq

/-- How a call ends when it does not return `Ok`. -/
inductive Failure where
  | badOrigin
  | module (error : Error)
  | panic (reason : Panic)
  deriving DecidableEq

/-- The pallet's storage items. -/
structure Storage (T : Types) where
  /-- The authorities for the current on-demand slot. -/
  authorities : List T.AuthorityId
  /-- Defines how often a new on-demand order is created. -/
  slotWidth : UInt32
  /-- The threshold parameter stored in the runtime state. -/
  thresholdParameter : T.ThresholdParameter
  /-- Set in bulk mode. -/
  bulkMode : Option Unit
  /-- Previous slot in which an order was placed. -/
  previousSlot : ℕ

/-- The runtime outside the pallet that calls of any pallet may change. -/
structure Outside (T : Types) where
  system : T.System
  ledger : T.Ledger
  events : List (Event T)

/-- What the pallet reads of the other pallets. -/
structure Env (T : Types) where
  /-- `pallet_aura::Authorities`. -/
  auraAuthorities : List T.AuthorityId
  /-- `pallet_session::KeyOwner`. -/
  keyOwner : KeyTypeId → List UInt8 → Option T.ValidatorId
  /-- `pallet_session::NextKeys`, the AURA key. -/
  nextKeys : T.ValidatorId → Option T.AuthorityId
  outside : Outside T

/-- The state of the runtime. -/
structure State (T : Types) where
  storage : Storage T
  env : Env T

/-- `type OnReward`: the pallet itself or another implementation. -/
inductive OnReward (T : Types) where
  | pallet
  | custom (reward : Outside T → AccountId32 → Outside T)

/-- The functions of the pallet's `Config`. -/
structure Config (T : Types) where
  /-- Built with overflow checks. -/
  overflowChecks : Bool
  /-- `AdminOrigin`. -/
  adminOrigin : Origin → Bool
  /-- `RelayChainStateProof`. -/
  proofs : StateProofs
  /-- `OrderPlacementCriteria::should_place_order`. -/
  shouldPlaceOrder : State T → Bool
  /-- `OrdersPlaced::orders_placed`. -/
  ordersPlaced : RelayChainStateProof → ParaId → List (T.Balance × AccountId32)
  /-- `pallet_session::Config::ValidatorIdOf`. -/
  validatorIdOf : AccountId32 → Option T.ValidatorId
  /-- `ToAccountId`. -/
  toAccountId : T.ValidatorId → AccountId32
  /-- `RewardSize::reward_size`. -/
  rewardSize : Outside T → T.Balance
  /-- `Currency::mint_into`, `none` when it fails. -/
  mintInto : T.Ledger → AccountId32 → T.Balance → Option T.Ledger
  onReward : OnReward T

/-- A call of `OnReward::reward` made by `create_order`. -/
structure RewardCall (T : Types) where
  /-- The relay height the inherent carried. -/
  height : UInt32
  /-- `SlotWidth` at the call. -/
  width : UInt32
  slot : ℕ
  /-- The owner of the placer's key. -/
  owner : T.ValidatorId

variable {T : Types}

/-! ### Slots -/

/-- The slot of a relay height at a width, wherever the shift returns. -/
def slotOf (relayHeight width : UInt32) : ℕ := (relayHeight >>> width).toNat

/-- `slot_at`. -/
def slotAt (C : Config T) (st : Storage T) (relayHeight : UInt32) : Except Failure ℕ :=
  match shr C.overflowChecks relayHeight st.slotWidth with
  | none => .error (.panic .shiftOverflow)
  | some slot => .ok slot.toNat

/-- `order_placer_at`. -/
def orderPlacerAt (C : Config T) (st : Storage T) (relayHeight : UInt32) :
    Except Failure (Option T.AuthorityId) :=
  match slotAt C st relayHeight with
  | .error e => .error e
  | .ok slot =>
      if st.authorities.length = 0 then .error (.panic .remainderByZero)
      else .ok st.authorities[slot % st.authorities.length]?

/-! ### Rewards -/

/-- `<Pallet as OnReward>::reward`. -/
def reward (C : Config T) (o : Outside T) (rewardee : AccountId32) : Outside T :=
  match C.mintInto o.ledger rewardee (C.rewardSize o) with
  | none => o
  | some ledger =>
      { o with
        ledger := ledger
        events := o.events ++ [.orderPlacerRewarded rewardee (C.rewardSize o)] }

/-- `T::OnReward::reward`. -/
def onReward (C : Config T) (o : Outside T) (rewardee : AccountId32) : Outside T :=
  match C.onReward with
  | .pallet => reward C o rewardee
  | .custom f => f o rewardee

/-- The call of `OnReward::reward` for the owner of the placer's key. -/
def rewardCall (s : State T) (data : InherentData) (owner : T.ValidatorId) :
    RewardCall T where
  height := data.relayHeight
  width := s.storage.slotWidth
  slot := slotOf data.relayHeight s.storage.slotWidth
  owner := owner

/-- `T::OnReward::reward(..)`, then `PreviousSlot::<T>::set(slot)`. -/
def rewarded (C : Config T) (s : State T) (data : InherentData) (owner : T.ValidatorId) : State T where
  storage := { s.storage with previousSlot := slotOf data.relayHeight s.storage.slotWidth }
  env := { s.env with outside := onReward C s.env.outside (C.toAccountId owner) }

/-! ### Calls -/

/-- `create_order`. -/
def createOrder (C : Config T) (s : State T) (origin : Origin) (d : OrderInherentData) :
    Except Failure (State T × Option (RewardCall T)) :=
  if origin ≠ .none then .error .badOrigin
  else
    match d.data with
    | none => .ok (s, none)
    | some data =>
      if s.storage.bulkMode.isSome then .ok (s, none)
      else if s.storage.authorities.length = 0 then .ok (s, none)
      else if C.shouldPlaceOrder s = false then .ok (s, none)
      else
        match slotAt C s.storage data.relayHeight with
        | .error e => .error e
        | .ok slot =>
          if slot ≤ s.storage.previousSlot then .ok (s, none)
          else
            match RelayChainStateProof.new C.proofs data.paraId data.relayStateRoot
                data.relayStorageProof with
            | none => .error (.panic .invalidRelayChainStateProof)
            | some relayStateProof =>
              match orderPlacerAt C s.storage data.relayHeight with
              | .error e => .error e
              | .ok none => .ok (s, none)
              | .ok (some orderPlacer) =>
                match s.env.keyOwner aura (T.toRawVec orderPlacer) with
                | none => .error (.module .failedToGetOrderPlacerAccount)
                | some orderPlacerAcc =>
                  if (C.ordersPlaced relayStateProof data.paraId).any
                      (fun r => C.validatorIdOf r.2 == some orderPlacerAcc) then
                    .ok (rewarded C s data orderPlacerAcc, some (rewardCall s data orderPlacerAcc))
                  else .ok (s, none)

/-- `AdminOrigin::ensure_origin_or_root`. -/
def ensureOriginOrRoot (C : Config T) (origin : Origin) : Bool :=
  origin = .root || C.adminOrigin origin

/-- `Self::deposit_event`. -/
def depositEvent (s : State T) (e : Event T) : State T :=
  { s with env := { s.env with outside :=
      { s.env.outside with events := s.env.outside.events ++ [e] } } }

/-- The admin calls: check the origin, write one storage item, deposit the
event that says so. -/
def adminCall (C : Config T) (s : State T) (origin : Origin) (write : Storage T → Storage T)
    (event : Event T) : Except Failure (State T) :=
  if ensureOriginOrRoot C origin then .ok (depositEvent { s with storage := write s.storage } event)
  else .error .badOrigin

/-- `set_slot_width`. -/
def setSlotWidth (C : Config T) (s : State T) (origin : Origin) (width : UInt32) :
    Except Failure (State T) :=
  adminCall C s origin (fun st => { st with slotWidth := width }) (.slotWidthSet width)

/-- `set_threshold_parameter`. -/
def setThresholdParameter (C : Config T) (s : State T) (origin : Origin)
    (parameter : T.ThresholdParameter) : Except Failure (State T) :=
  adminCall C s origin (fun st => { st with thresholdParameter := parameter })
    (.thresholdParameterSet parameter)

/-- `set_bulk_mode`. -/
def setBulkMode (C : Config T) (s : State T) (origin : Origin) (bulkMode : Bool) :
    Except Failure (State T) :=
  adminCall C s origin (fun st => { st with bulkMode := if bulkMode then some () else none })
    (.bulkModeSet bulkMode)

/-- `on_finalize`: by updating the authorities on finalize the pallet always
uses the set of the previous block. -/
def onFinalize (s : State T) : State T :=
  { s with storage := { s.storage with authorities := s.env.auraAuthorities } }

/-- The genesis state: `build` sets the threshold and the mode, every other
item of the pallet has its default. -/
def genesis (thresholdParameter : T.ThresholdParameter) (bulkMode : Bool) (env : Env T) : State T where
  storage :=
    { authorities := []
      slotWidth := 0
      thresholdParameter := thresholdParameter
      bulkMode := if bulkMode then some () else none
      previousSlot := 0 }
  env := env

end OnDemand
