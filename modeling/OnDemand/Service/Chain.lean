/-
# What the service reads from and sends to the relay chain

`services/order/src/chain.rs`: the storage reads `is_parathread`,
`on_demand_cores_available` and `get_spot_price`, the signer over the node's
keystore, and `submit_order`.

The SCALE decoders of the relay chain's types are generated or third party;
`Decoders` has one for each type the service decodes, reduced to the fields it
reads.  The keystore holds raw public keys for each key type, as `sc_keystore`
does, and signs with those whose secret it can read.  `RelayRpc` is the relay node
an order is sent to: every call to it may fail, and `sign_and_submit` decides itself
which orders it takes.

`submit_order` returns `()`; here it returns the order it handed over, and
`submitOrder_carries` says where each part of that order comes from.
-/

import OnDemand.Service.Config

namespace OnDemand

open Word

/-! ### Relay chain storage -/

/-- `polkadot_runtime_parachains::ParaLifecycle`. -/
inductive ParaLifecycle where
  | onboarding
  | parathread
  | parachain
  | upgradingParathread
  | downgradingParachain
  | offboardingParathread
  | offboardingParachain
  deriving DecidableEq

/-- `pallet_broker::CoreAssignment`. -/
inductive CoreAssignment where
  | idle
  | pool
  | task (id : UInt32)
  deriving DecidableEq

/-- `assigner_coretime::WorkState`: what the core's time is assigned to. -/
structure WorkState where
  assignments : List CoreAssignment
  deriving DecidableEq

/-- `assigner_coretime::CoreDescriptor`. -/
structure CoreDescriptor where
  currentWork : Option WorkState
  deriving DecidableEq

/-- `on_demand_assignment_provider::QueueStatus`. -/
structure QueueStatus where
  /-- A `FixedU128`. -/
  traffic : FixedU128
  deriving DecidableEq

/-- `HostConfiguration::scheduler_params`. -/
structure HostConfiguration where
  numCores : UInt32
  onDemandBaseFee : U128
  deriving DecidableEq

/-- The decoders the service calls, `none` for a codec error, and the hash
functions of the storage keys. -/
structure Decoders where
  hashing : Hashing
  /-- `Header::decode`, then `hash()`. -/
  paraHead : List UInt8 → Option H256
  paraLifecycle : List UInt8 → Option ParaLifecycle
  coreDescriptor : List UInt8 → Option CoreDescriptor
  queueStatus : List UInt8 → Option QueueStatus
  hostConfiguration : List UInt8 → Option HostConfiguration

/-- `storage.map(|raw| decode(raw)).transpose()`, `none` for an error. -/
def decodeStorage {α : Type*} (decode : List UInt8 → Option α) : Option (List UInt8) →
    Option (Option α)
  | none => some none
  | some raw => (decode raw).map some

/-- `is_parathread`. -/
def isParathread (D : Decoders) (rc : RelayChainInterface) (rHash : H256) (paraId : ParaId) :
    Except Halt Bool :=
  match rc.getStorageByKey rHash (paraLifecycle D.hashing paraId) with
  | .error _ => .error (.error .relayChain)
  | .ok storage =>
      match decodeStorage D.paraLifecycle storage with
      | none => .error (.error .codec)
      | some lifecycle => .ok (lifecycle = some .parathread)

/-- `get_storage_by_key(..).await.ok()?`, then a decode with `.ok()?`. -/
def readStorage {α : Type*} (rc : RelayChainInterface) (hash : H256) (key : List UInt8)
    (decode : List UInt8 → Option α) : Option (Option α) :=
  match rc.getStorageByKey hash key with
  | .error _ => none
  | .ok storage => decodeStorage decode storage

/-- The loop over the cores: the first one with current work decides. -/
def scanCores (read : UInt32 → Option (Option CoreDescriptor)) : List UInt32 → Option Bool
  | [] => some false
  | core :: rest =>
      match read core with
      | none => none
      | some none => scanCores read rest
      | some (some descriptor) =>
          match descriptor.currentWork with
          | none => scanCores read rest
          | some work => some (work.assignments.any fun assignment => assignment = .pool)

/-- `on_demand_cores_available`. -/
def onDemandCoresAvailable (D : Decoders) (rc : RelayChainInterface) (hash : H256) : Option Bool :=
  match readStorage rc hash activeConfig D.hostConfiguration with
  | none => none
  | some none => none
  | some (some config) =>
      scanCores (fun core => readStorage rc hash (coreDescriptor D.hashing core) D.coreDescriptor)
        ((List.range config.numCores.toNat).map UInt32.ofNat)

/-- `get_spot_price`. -/
def getSpotPrice (D : Decoders) (rc : RelayChainInterface) (hash : H256) : Option U128 :=
  match readStorage rc hash queueStatus D.queueStatus with
  | none => none
  | some status =>
      match readStorage rc hash activeConfig D.hostConfiguration with
      | none => none
      | some config =>
          match status, config with
          | some status, some config => some (satMul status.traffic.inner config.onDemandBaseFee)
          | _, _ => none

/-! ### The keystore -/

/-- `sp_keystore::Keystore`, by the raw public keys it lists for each type. -/
structure Keystore where
  rawPublicKeys : KeyTypeId → List (List UInt8)
  /-- `sr25519_sign` returns a signature.  A key may be listed without: its file
  cannot be read, or holds the phrase of another key. -/
  signs : KeyTypeId → Sr25519Public → Bool

/-- `has_keys`. -/
def Keystore.hasKeys (ks : Keystore) (keys : List (List UInt8 × KeyTypeId)) : Bool :=
  keys.all fun key => (ks.rawPublicKeys key.2).contains key.1

/-- `sr25519::Public::from_slice(..).ok()`. -/
def sr25519FromSlice (raw : List UInt8) : Option Sr25519Public :=
  if h : raw.length = 32 then some ⟨raw, h⟩ else none

/-- `sr25519_public_keys`. -/
def Keystore.sr25519PublicKeys (ks : Keystore) (keyType : KeyTypeId) : List Sr25519Public :=
  (ks.rawPublicKeys keyType).filterMap sr25519FromSlice

/-- `SignerKeystore`. -/
structure SignerKeystore where
  accountId : AccountId32
  keystore : Keystore

/-- `SignerKeystore::new`: the account with the bytes of the first AURA key. -/
def SignerKeystore.new (ks : Keystore) : Except Halt SignerKeystore :=
  match (ks.sr25519PublicKeys aura).head? with
  | none => .error (.panic .noAuraKey)
  | some pubKey => .ok ⟨pubKey, ks⟩

/-- `SignerKeystore::sign`, by the key of the signature. -/
def SignerKeystore.sign (signer : SignerKeystore) : Except Halt Sr25519Public :=
  match (signer.keystore.sr25519PublicKeys aura).head? with
  | none => .error (.panic .noAuraKey)
  | some pubKey =>
      if signer.keystore.signs aura pubKey then .ok pubKey else .error (.panic .noSignature)

/-! ### Orders -/

/-- A signed `place_order_allow_death`. -/
structure SignedOrder where
  maxAmount : U128
  paraId : ParaId
  /-- The signer's account. -/
  accountId : AccountId32
  /-- The key of the signature. -/
  signedBy : Sr25519Public
  /-- `mortal(block.header(), mortality)`. -/
  mortalFrom : RelayHeader
  mortality : UInt32
  deriving DecidableEq

/-- The relay node behind `relay_url`. -/
structure RelayRpc where
  /-- Both clients connect. -/
  connects : Bool
  /-- `chain_get_block_hash`. -/
  blockHash : UInt32 → Except Unit (Option H256)
  /-- `client.blocks().at(..)`, its header. -/
  blockAt : H256 → Except Unit RelayHeader
  /-- `sign_and_submit` gets the nonce of the signer's account, before it signs. -/
  servesNonce : AccountId32 → Bool
  /-- `sign_and_submit` takes the order. -/
  accepts : SignedOrder → Bool

/-- `submit_order`, with the order handed over. -/
def submitOrder (checks : Bool) (rpc : RelayRpc) (paraId : ParaId) (relayHeight slotWidth : UInt32)
    (maxAmount : U128) (ks : Keystore) : Except Halt SignedOrder :=
  if rpc.connects = false then .error (.error .rpc)
  else
    match SignerKeystore.new ks with
    | .error e => .error e
    | .ok signer =>
      match currentSlot checks relayHeight slotWidth with
      | .error e => .error e
      | .ok slot =>
        match shl checks slot slotWidth with
        | none => .error (.panic .shiftOverflow)
        | some firstBlockInSlot =>
          match rpc.blockHash firstBlockInSlot with
          | .error _ => .error (.error .rpc)
          | .ok none => .error (.error (.text "Failed to get hash of slot starting block"))
          | .ok (some blockHash) =>
            match rpc.blockAt blockHash with
            | .error _ => .error (.error .rpc)
            | .ok header =>
              match shl checks 1 slotWidth with
              | none => .error (.panic .shiftOverflow)
              | some mortality =>
                if rpc.servesNonce signer.accountId = false then .error (.error .rpc)
                else
                  match signer.sign with
                  | .error e => .error e
                  | .ok pubKey =>
                    let order : SignedOrder :=
                      ⟨maxAmount, paraId, signer.accountId, pubKey, header, mortality⟩
                    if rpc.accepts order then .ok order else .error (.error .rpc)

/-! ### What an order carries -/

/-- Where the fields of an order come from. -/
structure Carries (checks : Bool) (rpc : RelayRpc) (paraId : ParaId) (relayHeight slotWidth : UInt32)
    (maxAmount : U128) (ks : Keystore) (order : SignedOrder) : Prop where
  maxAmount : order.maxAmount = maxAmount
  paraId : order.paraId = paraId
  /-- The first AURA key signs. -/
  signedBy : (ks.sr25519PublicKeys aura).head? = some order.signedBy
  signs : ks.signs aura order.signedBy = true
  /-- The account has the bytes of that key. -/
  accountId : order.accountId = order.signedBy
  /-- The era starts at the block with the number of the slot's first block. -/
  mortalFrom : ∃ slot first hash, currentSlot checks relayHeight slotWidth = .ok slot ∧
    shl checks slot slotWidth = some first ∧ rpc.blockHash first = .ok (some hash) ∧
    rpc.blockAt hash = .ok order.mortalFrom
  mortality : shl checks 1 slotWidth = some order.mortality

theorem SignerKeystore.new_eq_ok {ks : Keystore} {signer : SignerKeystore}
    (h : SignerKeystore.new ks = .ok signer) :
    (ks.sr25519PublicKeys aura).head? = some signer.accountId ∧ signer.keystore = ks := by
  unfold SignerKeystore.new at h
  split at h
  · cases h
  · rename_i key hkey
    cases h
    exact ⟨hkey, rfl⟩

theorem SignerKeystore.sign_eq_ok {signer : SignerKeystore} {key : Sr25519Public}
    (h : signer.sign = .ok key) : (signer.keystore.sr25519PublicKeys aura).head? = some key ∧
      signer.keystore.signs aura key = true := by
  unfold SignerKeystore.sign at h
  split at h
  · cases h
  · rename_i key' hkey
    split at h
    · rename_i hsigns
      cases h
      exact ⟨hkey, hsigns⟩
    · cases h

/-- **What `submit_order` hands over.** -/
theorem submitOrder_carries {checks : Bool} {rpc : RelayRpc} {paraId : ParaId}
    {relayHeight slotWidth : UInt32} {maxAmount : U128} {ks : Keystore} {order : SignedOrder}
    (h : submitOrder checks rpc paraId relayHeight slotWidth maxAmount ks = .ok order) :
    Carries checks rpc paraId relayHeight slotWidth maxAmount ks order := by
  unfold submitOrder at h
  split at h
  · cases h
  split at h
  · cases h
  rename_i signer hsigner
  split at h
  · cases h
  rename_i slot hslot
  split at h
  · cases h
  rename_i first hfirst
  split at h
  · cases h
  · cases h
  rename_i hash hhash
  split at h
  · cases h
  rename_i header hheader
  split at h
  · cases h
  rename_i mortality hmortality
  split at h
  · cases h
  split at h
  · cases h
  rename_i key hkey
  dsimp only at h
  split at h
  · cases h
    obtain ⟨hacc, hks⟩ := SignerKeystore.new_eq_ok hsigner
    obtain ⟨hsigned, hsigns⟩ := SignerKeystore.sign_eq_ok hkey
    rw [hks] at hsigned hsigns
    exact
      { maxAmount := rfl
        paraId := rfl
        signedBy := hsigned
        signs := hsigns
        accountId := Option.some.inj (hacc.symm.trans hsigned)
        mortalFrom := ⟨slot, first, hash, hslot, hfirst, hhash, hheader⟩
        mortality := hmortality }
  · cases h

end OnDemand
