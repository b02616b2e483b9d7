/-
# The data the node and the runtime share

`primitives/order/src/lib.rs` (`OrderInherentData`, `InherentData`,
`OrderRecord`) and the relay chain's types they are made of.

Accounts, hashes and sr25519 keys are all `[u8; 32]` in the source; `Bytes32`
carries its length.  The relay runtime's event type has one variant the
program reads, `OnDemandAssignmentProvider(OnDemandOrderPlaced { .. })`
(`template/runtime/src/configs/mod.rs`, `services/order/src/lib.rs`); every
other variant is `RelayEvent.other`.  A storage proof is its set of encoded
trie nodes, as `sp_trie::StorageProof` is.
-/

import OnDemand.Base.Word

namespace OnDemand

open Word

/-- `[u8; 32]`. -/
structure Bytes32 where
  toList : List UInt8
  length_toList : toList.length = 32
  deriving DecidableEq

/-- The array `[b; 32]`. -/
def Bytes32.replicate (b : UInt8) : Bytes32 := ⟨List.replicate 32 b, List.length_replicate⟩

abbrev H256 := Bytes32
abbrev AccountId32 := Bytes32
abbrev Sr25519Public := Bytes32
abbrev ParaId := UInt32

/-- `KeyTypeId`, four bytes. -/
structure KeyTypeId where
  b₀ : UInt8
  b₁ : UInt8
  b₂ : UInt8
  b₃ : UInt8
  deriving DecidableEq

/-- `sp_application_crypto::key_types::AURA`, the bytes of `"aura"`. -/
def aura : KeyTypeId := ⟨0x61, 0x75, 0x72, 0x61⟩

/-- `polkadot_runtime_parachains::on_demand::Event`. -/
inductive OnDemandEvent where
  | onDemandOrderPlaced (paraId : ParaId) (spotPrice : U128) (orderedBy : AccountId32)
  | spotPriceSet (spotPrice : U128)
  deriving DecidableEq

/-- The relay chain's `RuntimeEvent`, with the variants the program does not
read as `other`. -/
inductive RelayEvent where
  | onDemandAssignmentProvider (event : OnDemandEvent)
  | other (variant : ℕ)
  deriving DecidableEq

/-- An order for `paraId` by `orderedBy`, at any price, is among the events. -/
def HasOrder (events : List RelayEvent) (paraId : ParaId) (orderedBy : AccountId32) : Prop :=
  ∃ spotPrice, .onDemandAssignmentProvider (.onDemandOrderPlaced paraId spotPrice orderedBy) ∈ events

/-- `sp_trie::StorageProof`. -/
structure StorageProof where
  trieNodes : List (List UInt8)
  deriving DecidableEq

/-- `polkadot_primitives::PersistedValidationData`. -/
structure PersistedValidationData where
  /-- The encoded header of the para's block. -/
  parentHead : List UInt8
  relayParentNumber : UInt32
  relayParentStorageRoot : H256
  maxPovSize : UInt32
  deriving DecidableEq

/-- `order_primitives::InherentData`. -/
structure InherentData where
  relayStorageProof : StorageProof
  relayStateRoot : H256
  relayHeight : UInt32
  paraId : ParaId
  deriving DecidableEq

/-- `order_primitives::OrderInherentData`. -/
structure OrderInherentData where
  data : Option InherentData
  deriving DecidableEq

/-- `order_primitives::OrderRecord`. -/
structure OrderRecord where
  /-- The hash of the block in which the order was placed. -/
  relayBlockHash : Option H256
  /-- Last slot in which an order was placed. -/
  lastSlot : UInt32
  deriving DecidableEq

/-- `OrderRecord { relay_block_hash: None, last_slot: 0 }`, the record
`start_parachain_node` begins with. -/
def OrderRecord.empty : OrderRecord := ⟨none, 0⟩

end OnDemand
