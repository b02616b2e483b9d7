/-
# The order inherent

`primitives/order/src/inherent.rs`: `OrderInherentData::create_at` looks up the
recorded relay block, proves its event storage and packs proof, root, height
and para id into the inherent.

Two interfaces are third party.  `RelayChainInterface` is the node's view of
the relay chain: any lookup may fail.  `StateProofs` is what
`RelayChainStateProof` does with a root and a proof: `new` succeeds exactly
when the proof holds the root's node, and `read_entry` decodes the value the
nodes lead to.

`createAt_eq_some` is what it returns: the empty inherent without a recorded
block, else the inherent of that block, if its header and the proof are there.

A node serves real blocks (`RelayChainInterface.Faithful`) when the headers it
returns are those of real relay blocks and the proofs it builds verify against
their roots.  Data built by `create_at` from such a node is honest
(`createAt_honest`): proof, root and height are those of one real block.
-/

import OnDemand.Primitives.WellKnownKeys

namespace OnDemand

/-- `cumulus_relay_chain_interface::RelayChainError`. -/
inductive RelayChainError where
  | failed
  deriving DecidableEq

/-- A relay chain header: `number()`, `state_root()` and `hash()`. -/
structure RelayHeader where
  number : UInt32
  stateRoot : H256
  hash : H256
  deriving DecidableEq

/-- `cumulus_relay_chain_interface::RelayChainInterface`. -/
structure RelayChainInterface where
  header : H256 → Except RelayChainError (Option RelayHeader)
  proveRead : H256 → List (List UInt8) → Except RelayChainError StorageProof
  getStorageByKey : H256 → List UInt8 → Except RelayChainError (Option (List UInt8))

/-- `collect_relay_storage_proof`. -/
def collectRelayStorageProof (rc : RelayChainInterface) (relayParent : H256) : Option StorageProof :=
  match rc.proveRead relayParent [eventsKey] with
  | .ok proof => some proof
  | .error _ => none

/-- `OrderInherentData::create_at`. -/
def createAt (rc : RelayChainInterface) (relayBlockHash : Option H256) (paraId : ParaId) :
    Option OrderInherentData :=
  match relayBlockHash with
  | none => some ⟨none⟩
  | some hash =>
      match rc.header hash with
      | .error _ => none
      | .ok none => none
      | .ok (some header) =>
          (collectRelayStorageProof rc header.hash).map fun proof =>
            ⟨some
              { relayStorageProof := proof
                relayStateRoot := header.stateRoot
                relayHeight := header.number
                paraId := paraId }⟩

/-- The inherent of a relay block, by its header and a proof of its events. -/
def OrderInherentData.ofBlock (header : RelayHeader) (proof : StorageProof) (paraId : ParaId) :
    OrderInherentData :=
  ⟨some
    { relayStorageProof := proof
      relayStateRoot := header.stateRoot
      relayHeight := header.number
      paraId := paraId }⟩

/-- **What `create_at` returns**: the empty inherent without a recorded block,
and otherwise that of the block, if its header and the proof are there. -/
theorem createAt_eq_some {rc : RelayChainInterface} {recorded : Option H256} {paraId : ParaId}
    {d : OrderInherentData} : createAt rc recorded paraId = some d ↔
      (recorded = none ∧ d = ⟨none⟩) ∨ ∃ hash header proof, recorded = some hash ∧
        rc.header hash = .ok (some header) ∧ rc.proveRead header.hash [eventsKey] = .ok proof ∧
        d = .ofBlock header proof paraId := by
  cases recorded with
  | none =>
      simp only [createAt, Option.some.injEq, true_and]
      constructor
      · rintro rfl
        exact Or.inl rfl
      · rintro (rfl | ⟨_, _, _, hh, _⟩)
        · rfl
        · cases hh
  | some hash =>
      simp only [createAt]
      constructor
      · intro h
        split at h
        · cases h
        · cases h
        rename_i header hheader
        obtain ⟨proof, hproof, rfl⟩ := Option.map_eq_some_iff.mp h
        unfold collectRelayStorageProof at hproof
        split at hproof
        · rename_i p hp
          obtain rfl := Option.some.inj hproof
          exact Or.inr ⟨hash, header, p, rfl, hheader, hp, rfl⟩
        · cases hproof
      · rintro (⟨hnone, -⟩ | ⟨hash', header, proof, hh, hheader, hproof, rfl⟩)
        · cases hnone
        · obtain rfl := Option.some.inj hh
          simp only [hheader, collectRelayStorageProof, hproof, Option.map_some,
            OrderInherentData.ofBlock]

/-! ### Reading a proof -/

/-- What `cumulus_pallet_parachain_system::RelayChainStateProof` does with a
root and the nodes of a proof. -/
structure StateProofs where
  /-- The root's node is among the nodes. -/
  rootPresent : H256 → StorageProof → Bool
  /-- `read_entry::<Vec<Box<EventRecord<..>>>>(key, None).ok()`. -/
  readEvents : H256 → StorageProof → List UInt8 → Option (List RelayEvent)

/-- `RelayChainStateProof`. -/
structure RelayChainStateProof where
  paraId : ParaId
  root : H256
  proof : StorageProof
  deriving DecidableEq

/-- `RelayChainStateProof::new(..).ok()`. -/
def RelayChainStateProof.new (V : StateProofs) (paraId : ParaId) (root : H256)
    (proof : StorageProof) : Option RelayChainStateProof :=
  if V.rootPresent root proof then some ⟨paraId, root, proof⟩ else none

/-- `read_entry` at the type of the system events. -/
def RelayChainStateProof.readEntry (V : StateProofs) (p : RelayChainStateProof)
    (key : List UInt8) : Option (List RelayEvent) :=
  V.readEvents p.root p.proof key

/-! ### Honest data -/

/-- A block of the relay chain. -/
structure RelayBlock where
  number : UInt32
  stateRoot : H256
  events : List RelayEvent
  deriving DecidableEq

/-- The data is that of `b`: its height, its root and a proof of its events. -/
structure HonestData (V : StateProofs) (b : RelayBlock) (data : InherentData) : Prop where
  height : data.relayHeight = b.number
  root : data.relayStateRoot = b.stateRoot
  present : V.rootPresent data.relayStateRoot data.relayStorageProof = true
  events : V.readEvents data.relayStateRoot data.relayStorageProof eventsKey = some b.events

/-- The node serves the blocks of `chain`: a header it returns is that of the
block with this hash, and a proof of the events it builds verifies. -/
structure RelayChainInterface.Faithful (rc : RelayChainInterface) (V : StateProofs)
    (chain : H256 → Option RelayBlock) : Prop where
  header : ∀ {hash hd}, rc.header hash = .ok (some hd) → ∃ b, chain hash = some b ∧
    hd = ⟨b.number, b.stateRoot, hash⟩
  proveRead : ∀ {hash b proof}, chain hash = some b → rc.proveRead hash [eventsKey] = .ok proof →
    V.rootPresent b.stateRoot proof = true ∧ V.readEvents b.stateRoot proof eventsKey = some b.events

/-- **What `create_at` builds.**  Without a recorded hash it builds the empty
inherent; with one, the honest data of the block with that hash. -/
theorem createAt_honest {rc : RelayChainInterface} {V : StateProofs}
    {chain : H256 → Option RelayBlock} (hrc : rc.Faithful V chain) {recorded : Option H256}
    {paraId : ParaId} {d : OrderInherentData} (h : createAt rc recorded paraId = some d) :
    (recorded = none ∧ d.data = none) ∨ ∃ hash b data, recorded = some hash ∧
      chain hash = some b ∧ d.data = some data ∧ data.paraId = paraId ∧ HonestData V b data := by
  rcases createAt_eq_some.mp h with ⟨hnone, rfl⟩ | ⟨hash, header, proof, hhash, hheader, hread, rfl⟩
  · exact Or.inl ⟨hnone, rfl⟩
  · obtain ⟨b, hb, rfl⟩ := hrc.header hheader
    obtain ⟨hpresent, hevents⟩ := hrc.proveRead hb hread
    exact Or.inr ⟨hash, b, _, hhash, hb, rfl, rfl, rfl, rfl, hpresent, hevents⟩

end OnDemand
