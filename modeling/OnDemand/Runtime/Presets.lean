/-
# Genesis presets

`template/runtime/src/genesis_config_presets.rs`: the genesis configurations the
template runtime ships.  Both start with two collators, in bulk mode and at the
pallet's default threshold.

`preset_running` connects them to the chains of `OnDemand.Runtime.Session`: the
state a preset builds, over a session pallet that registered the preset's keys
(`SessionGenesis`), is one orderly chains run from.  Until the admin leaves bulk
mode nothing is rewarded (`bulk_mode_pays_nothing`), so `preset_chain` is what a
chain from a preset can be relied on for from its first block.
-/

import OnDemand.Runtime.Session

namespace OnDemand

open Word

/-- `Sr25519Keyring`, as far as the presets use it: the bytes of a key are those
of its account. -/
structure Keyring where
  alice : Bytes32
  bob : Bytes32
  /-- `well_known`. -/
  wellKnown : List Bytes32

/-- `RuntimeGenesisConfig`, the fields the presets set. -/
structure RuntimeGenesisConfig where
  balances : List (AccountId32 × U128)
  parachainId : ParaId
  invulnerables : List AccountId32
  candidacyBond : U128
  /-- Account, validator and AURA key. -/
  sessionKeys : List (AccountId32 × AccountId32 × Sr25519Public)
  safeXcmVersion : Option UInt32
  sudoKey : Option AccountId32
  thresholdParameter : U128
  bulkMode : Bool
  deriving DecidableEq

/-- `EXISTENTIAL_DEPOSIT`. -/
def existentialDeposit : U128 := milliUnit

/-- `PARACHAIN_ID`. -/
def parachainId : ParaId := 1000

/-- `testnet_genesis`, with the `XCM_VERSION` of the crate it is built
against. -/
def testnetGenesis (xcmVersion : UInt32) (invulnerables : List (AccountId32 × Sr25519Public))
    (endowedAccounts : List AccountId32) (root : AccountId32) (id : ParaId) :
    RuntimeGenesisConfig where
  balances := endowedAccounts.map fun k => (k, 1 <<< 60)
  parachainId := id
  invulnerables := invulnerables.map Prod.fst
  candidacyBond := existentialDeposit * 16
  sessionKeys := invulnerables.map fun k => (k.1, k.1, k.2)
  safeXcmVersion := some xcmVersion
  sudoKey := some root
  thresholdParameter := 0
  bulkMode := true

/-- `local_testnet_genesis`. -/
def localTestnetGenesis (xcmVersion : UInt32) (K : Keyring) : RuntimeGenesisConfig :=
  testnetGenesis xcmVersion [(K.alice, K.alice), (K.bob, K.bob)] K.wellKnown K.alice parachainId

/-- `development_config_genesis`. -/
def developmentConfigGenesis (xcmVersion : UInt32) (K : Keyring) : RuntimeGenesisConfig :=
  testnetGenesis xcmVersion [(K.alice, K.alice), (K.bob, K.bob)] K.wellKnown K.alice parachainId

/-- `get_preset`, before it is written as JSON. -/
def getPreset (xcmVersion : UInt32) (K : Keyring) (id : String) : Option RuntimeGenesisConfig :=
  if id = "local_testnet" then some (localTestnetGenesis xcmVersion K)
  else if id = "development" then some (developmentConfigGenesis xcmVersion K)
  else none

/-- `preset_names`. -/
def presetNames : List String := ["development", "local_testnet"]

variable {L : Type}

/-- The state a configuration builds, next to what the other pallets make of it. -/
def RuntimeGenesisConfig.build (config : RuntimeGenesisConfig) (env : Env (runtimeTypes L)) :
    State (runtimeTypes L) :=
  genesis config.thresholdParameter config.bulkMode env

/-- The other pallets built the configuration: the session pallet registered its
session keys, and AuRa's authorities are some of them. -/
structure RuntimeGenesisConfig.Built (config : RuntimeGenesisConfig) (env : Env (runtimeTypes L)) :
    Prop where
  session : SessionGenesis (config.sessionKeys.map Prod.snd) env
  authorities : ∀ a ∈ env.auraAuthorities, ∃ who, (who, a) ∈ config.sessionKeys.map Prod.snd

/-- The presets are those that are named, and agree but for their name. -/
theorem getPreset_eq_some {xcmVersion : UInt32} {K : Keyring} {id : String}
    {config : RuntimeGenesisConfig} : getPreset xcmVersion K id = some config ↔
      id ∈ presetNames ∧ config = testnetGenesis xcmVersion [(K.alice, K.alice), (K.bob, K.bob)]
        K.wellKnown K.alice parachainId := by
  unfold getPreset presetNames
  by_cases hlocal : id = "local_testnet"
  · simp [hlocal, localTestnetGenesis, eq_comm]
  · by_cases hdev : id = "development"
    · simp [hdev, developmentConfigGenesis, eq_comm]
    · simp [hlocal, hdev]

/-- **A preset starts a running chain**, whichever of its collators AuRa's
authorities are. -/
theorem preset_running {xcmVersion : UInt32} {K : Keyring} {id : String}
    {config : RuntimeGenesisConfig} (hconfig : getPreset xcmVersion K id = some config)
    {env : Env (runtimeTypes L)} (hbuilt : config.Built env) : Running (config.build env) ∧
      (config.build env).storage.bulkMode = some () := by
  obtain ⟨-, rfl⟩ := getPreset_eq_some.mp hconfig
  exact ⟨hbuilt.session.running hbuilt.authorities _ _, rfl⟩

/-! ### Bulk mode -/

/-- The operation is an admitted call to leave bulk mode. -/
def Op.LeavesBulkMode {T : Types} (C : Config T) : Op T → Prop
  | .setBulkMode origin bulkMode => ensureOriginOrRoot C origin = true ∧ bulkMode = false
  | _ => False

/-- One operation in bulk mode, unless it is an admitted call to leave it. -/
theorem bulk_mode_step {T : Types} (C : Config T) {s : State T} (hs : s.storage.bulkMode = some ())
    {op : Op T} (hop : ¬ op.LeavesBulkMode C) :
    ((pallet C).next s op).storage.bulkMode = some () ∧ (pallet C).emit s op = [] := by
  constructor
  · cases op with
    | createOrder origin d =>
        rcases next_createOrder C s origin d with hnext | ⟨data, owner, hnext⟩
        · rw [hnext, hs]
        · rw [hnext]
          exact hs
    | setSlotWidth origin width =>
        rcases next_adminCall (.setSlotWidth origin width) rfl with hnext | ⟨-, hnext⟩
        · rw [hnext, hs]
        · rw [hnext]
          exact hs
    | setThresholdParameter origin parameter =>
        rcases next_adminCall (.setThresholdParameter origin parameter) rfl with
          hnext | ⟨-, hnext⟩
        · rw [hnext, hs]
        · rw [hnext]
          exact hs
    | setBulkMode origin bulkMode =>
        rcases next_adminCall (.setBulkMode origin bulkMode) rfl with hnext | ⟨hadmin, hnext⟩
        · rw [hnext, hs]
        · have htrue : bulkMode = true := by
            cases bulkMode with
            | true => rfl
            | false => exact absurd ⟨hadmin, rfl⟩ hop
          rw [hnext, htrue]
          rfl
    | onFinalize => exact hs
    | environment change => exact hs
  · have hstep := pallet_step C s op
    generalize (pallet C).next s op = s' at hstep
    generalize (pallet C).emit s op = rs at hstep
    cases hstep with
    | quiet => rfl
    | width => rfl
    | paid hdue =>
        have hnone := hdue.onDemand
        rw [hs] at hnone
        cases hnone

/-- **Nothing is paid in bulk mode.**  As long as no admitted call leaves it, a run
stays in it and pays no reward. -/
theorem bulk_mode_pays_nothing {T : Types} (C : Config T) {s : State T}
    (hs : s.storage.bulkMode = some ()) {ops : List (Op T)} (hops : ∀ op ∈ ops, ¬ op.LeavesBulkMode C) :
    ((pallet C).run s ops).storage.bulkMode = some () ∧ (pallet C).outputs s ops = [] := by
  induction ops generalizing s with
  | nil => exact ⟨hs, rfl⟩
  | cons op ops ih =>
      obtain ⟨hnext, hemit⟩ := bulk_mode_step C hs (hops op (List.mem_cons_self ..))
      obtain ⟨hrun, houtputs⟩ := ih hnext fun op' hop' => hops op' (List.mem_cons_of_mem _ hop')
      refine ⟨hrun, ?_⟩
      rw [Transducer.outputs_cons, hemit, houtputs]
      rfl

/-- **A chain from a preset.**  Start the template runtime from any of its presets,
with any of the preset's collators as authorities.  Every orderly chain of blocks
is valid, and as long as none of its calls leaves bulk mode it pays nothing. -/
theorem preset_chain (X : Externals L) (P : SessionPallet (runtimeTypes L)) (hP : P.Lawful)
    (xcmVersion : UInt32) (K : Keyring) (id : String) (config : RuntimeGenesisConfig)
    (hconfig : getPreset xcmVersion K id = some config) (env : Env (runtimeTypes L))
    (hbuilt : config.Built env) (bs : List (Block (runtimeTypes L)))
    (hbs : OrderlyChain (runtimeConfig X) P (config.build env) bs) :
    (∃ s', applyBlocks (runtimeConfig X) P (config.build env) bs = some s') ∧
    ((∀ op ∈ bs.flatMap (Block.ops P), ¬ op.LeavesBulkMode (runtimeConfig X)) →
      (pallet (runtimeConfig X)).outputs (config.build env) (bs.flatMap (Block.ops P)) = []) := by
  obtain ⟨hrunning, hbulk⟩ := preset_running hconfig hbuilt
  obtain ⟨s', hs', -⟩ := orderly_chain (runtimeConfig X) hP hrunning hbs
  exact ⟨⟨s', hs'⟩, fun hops => (bulk_mode_pays_nothing _ hbulk hops).2⟩

/-- The first two blocks of a development chain: the admin leaves bulk mode and
Bob, who is no authority, changes his key; then the order of Alice, who is one, is
presented. -/
def firstBlocks : List (Block (runtimeTypes (AccountId32 → U128))) :=
  [⟨none, id, [], [.setBulkMode .root false, .setKeys bob (.replicate 3)]⟩,
    ⟨none, id, [.createOrder ⟨some (dataOf (orderBlock 8 alice) 2000)⟩], []⟩]

/-- What the other pallets make of the development preset, with Alice as the only
authority. -/
def developmentEnv : Env (runtimeTypes (AccountId32 → U128)) :=
  { collatorEnv [(alice, alice), (bob, bob)] with auraAuthorities := [alice] }

theorem developmentEnv_built :
    (developmentConfigGenesis 5 ⟨alice, bob, []⟩).Built developmentEnv where
  session :=
    have h := collatorEnv_genesis [(alice, alice), (bob, bob)] (by decide) (by decide)
    ⟨h.nextKeys, h.keyOwner⟩
  authorities a ha := by
    obtain rfl := List.mem_singleton.mp ha
    exact ⟨alice, List.mem_cons_self ..⟩

/-- A development chain on which a bystander changes his key does not stall. -/
theorem preset_chain_bystander :
    ∃ s', applyBlocks (runtimeConfig ⟨false, tableProofs [orderEntry 8 alice], mintInto⟩) plainSession
      ((developmentConfigGenesis 5 ⟨alice, bob, []⟩).build developmentEnv) firstBlocks = some s' := by
  have hhonest : FromRelay (runtimeConfig ⟨false, tableProofs [orderEntry 8 alice], mintInto⟩)
      ⟨some (dataOf (orderBlock 8 alice) 2000)⟩ :=
    ⟨singleBlockNode (orderBlock 8 alice) (.replicate 9), _, some (.replicate 9), 2000,
      singleBlockNode_faithful (orderBlock 8 alice) (.replicate 9) rfl, by decide⟩
  refine (preset_chain ⟨false, tableProofs [orderEntry 8 alice], mintInto⟩ plainSession
    plainSession_lawful 5 ⟨alice, bob, []⟩ "development" _ rfl developmentEnv developmentEnv_built
    firstBlocks ⟨?_, ?_, trivial⟩).1
  · refine ⟨nofun, nofun, trivial, ?_, trivial⟩
    intro old hold hraw a ha
    have hbob : ((developmentConfigGenesis 5 ⟨alice, bob, []⟩).build
        developmentEnv).env.nextKeys bob = some bob := by decide
    obtain rfl : bob = old := Option.some.inj (hbob.symm.trans hold)
    obtain rfl : a = alice := List.mem_singleton.mp (show a ∈ [alice] from ha)
    decide
  · refine ⟨nofun, fun d hd => ?_, trivial⟩
    rw [List.mem_singleton, Inherent.createOrder.injEq] at hd
    exact hd ▸ hhonest

end OnDemand
