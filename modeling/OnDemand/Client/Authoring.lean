/-
# From the recorded block to the reward

A collator with the template's providers authors a block.
`create_inherent_data_providers` (`template/node/src/service.rs`) asks `create_at` for
the inherent of the relay block its order record names, `provide_inherent_data` puts
it into the block's inherent data, the collator's `create_inherent_data` overrides the
timestamp, and the pallet's `create_inherent` (`pallets/on-demand/src/lib.rs`) reads the
`create_order` call of the block back from there.  The collator is the one of
`client/consensus/on-demand-aura`; the template hands the same providers to the
collator loop of cumulus.  The inherent data and the codec of what is put there are
any lawful ones (`Inherents.Lawful`, `Codec.Faithful`).

`createInherent_of_authored` follows the inherent through these four: the call
carries what `create_at` returned.  `authored_order_paid_iff` is what that call
pays: nothing without a recorded block, and otherwise what the recorded block's
number and its events say.
-/

import OnDemand.Client.Collator
import OnDemand.Runtime.Block
import OnDemand.Service.Reward
import OnDemand.Service.Provider

namespace OnDemand

open Word

/-! ### `create_inherent` -/

section CreateInherent

variable {T : Types} {I : Inherents} {c : Codec UInt8 OrderInherentData} {data data' : I.Data}
  {d : OrderInherentData}

/-- `ProvideInherent::create_inherent` of the pallet; `none` is the panic of
`expect("there is not data to be posted; qed")`. -/
def createInherent (I : Inherents) (c : Codec UInt8 OrderInherentData) (data : I.Data) :
    Option (Inherent T) :=
  match I.getData c data onDemandInherentIdentifier with
  | .ok (some d) => some (.createOrder d)
  | .ok none => none
  | .error _ => none

/-- What was provided is what `create_inherent` finds. -/
theorem createInherent_of_provided (hI : I.Lawful) (hc : c.Faithful OrderInherentData.WellFormed)
    (hd : d.WellFormed) (h : provideInherentData I c d data = .ok data') :
    createInherent (T := T) I c data' = some (.createOrder d) := by
  have hread := hI.getData_putData hc hd h
  simp only [createInherent, hread]

/-- The data of other inherents does not matter. -/
theorem createInherent_replaceData (hI : I.Lawful) {β : Type} (e : Codec UInt8 β) (b : β)
    {identifier : List UInt8} (hne : identifier ≠ onDemandInherentIdentifier) :
    createInherent (T := T) I c (I.replaceData e data identifier b) = createInherent I c data := by
  have hsame := hI.getData_replaceData c e data b hne.symm
  simp only [createInherent, hsame]

end CreateInherent

namespace Client

variable {B : BlockT}

/-! ### The template's providers -/

/-- The template's `create_inherent_data_providers` and the `create_inherent_data`
of what it returns, which starts from `InherentData::new()`. -/
def orderInherentData (I : Inherents) (c : Codec UInt8 OrderInherentData) (rc : RelayChainInterface)
    (record : OrderRecord) (paraId : ParaId) : Except String I.Data :=
  match createInherentDataProviders rc record paraId with
  | .error _ => .error "Failed to create order inherent"
  | .ok d =>
      match provideInherentData I c d I.new with
      | .error _ => .error "Inherent data already exists"
      | .ok data => .ok data

/-- A collator with the template's providers. -/
def templateAuthoring (w : Authoring B) (c : Codec UInt8 OrderInherentData)
    (rc : RelayChainInterface) (record : OrderRecord) (paraId : ParaId) : Authoring B :=
  { w with createInherentData := fun _ => orderInherentData w.inherents c rc record paraId }

/-- The relay node builds its proofs as sets. -/
def ProvesSets (rc : RelayChainInterface) : Prop :=
  ∀ hash keys proof, rc.proveRead hash keys = .ok proof → proof.WellFormed

variable {rc : RelayChainInterface} {record : OrderRecord} {paraId : ParaId}
  {c : Codec UInt8 OrderInherentData}

/-- What `create_at` builds from sets is well formed. -/
theorem createAt_wellFormed (hrc : ProvesSets rc) {recorded : Option H256} {d : OrderInherentData}
    (h : createAt rc recorded paraId = some d) : d.WellFormed := by
  rcases createAt_eq_some.mp h with ⟨-, rfl⟩ | ⟨_, header, proof, -, -, hproof, rfl⟩
  · exact nofun
  · rintro data ⟨⟩
    exact hrc _ _ _ hproof

theorem createInherent_of_orderInherentData {T : Types} {I : Inherents} (hI : I.Lawful)
    (hc : c.Faithful OrderInherentData.WellFormed) (hrc : ProvesSets rc) {data : I.Data}
    (h : orderInherentData I c rc record paraId = .ok data) :
    ∃ d, createAt rc record.relayBlockHash paraId = some d ∧
      createInherent (T := T) I c data = some (.createOrder d) := by
  simp only [orderInherentData, createInherentDataProviders] at h
  cases hd : createAt rc record.relayBlockHash paraId with
  | none =>
      rw [hd] at h
      cases h
  | some d =>
      simp only [hd] at h
      split at h
      · cases h
      rename_i hprovided
      cases h
      exact ⟨d, rfl, createInherent_of_provided hI hc (createAt_wellFormed hrc hd) hprovided⟩

/-- **The call of an authored block carries what `create_at` returned.** -/
theorem createInherent_of_authored (T : Types) {w : Authoring B} (hI : w.inherents.Lawful)
    (hc : c.Faithful OrderInherentData.WellFormed) (hrc : ProvesSets rc)
    {relayParent : H256} {validationData : PersistedValidationData} {parentHash : B.Hash}
    {timestamp : Option UInt64} {paras : w.Paras} {data : w.inherents.Data}
    (h : createInherentData (templateAuthoring w c rc record paraId) paraId relayParent validationData
      parentHash timestamp = .ok (paras, data)) :
    ∃ d, createAt rc record.relayBlockHash paraId = some d ∧
      createInherent (T := T) w.inherents c data = some (.createOrder d) := by
  unfold createInherentData at h
  split at h
  · cases h
  split at h
  · cases h
  rename_i paras' _ data' hdata
  obtain ⟨d, hd, hcall⟩ := createInherent_of_orderInherentData (T := T) hI hc hrc hdata
  refine ⟨d, hd, ?_⟩
  split at h
  · cases h
    exact hcall
  · cases h
    exact (createInherent_replaceData hI w.timestampCodec _ (by decide)).trans hcall

/-! ### The reward -/

/-- The owner of the placer elected for the relay block's slot is due a reward for
it, in state `s`. -/
structure PaysFor {L : Type} (X : Externals L) (s : State (runtimeTypes L)) (b : RelayBlock)
    (paraId : ParaId) (owner : AccountId32) : Prop where
  onDemand : s.storage.bulkMode = none
  criterion : (runtimeConfig X).shouldPlaceOrder s = true
  fresh : s.storage.previousSlot < slotOf b.number s.storage.slotWidth
  elected : ∃ placer, electedPlacer s.storage b.number = some placer ∧
    s.env.keyOwner aura placer.toList = some owner
  ordered : HasOrder b.events paraId owner

/-- With the data of a real block, a reward is due exactly when the block pays. -/
theorem due_iff_paysFor {L : Type} {X : Externals L} {s : State (runtimeTypes L)} {b : RelayBlock}
    {data : InherentData} {owner : AccountId32} (hw : s.storage.slotWidth < 32)
    (hhonest : HonestData X.proofs b data) :
    Due (runtimeConfig X) s data owner ↔ PaysFor X s b data.paraId owner := by
  have hreads : HonestData (runtimeConfig X).proofs b data := hhonest
  constructor
  · intro h
    have hfresh := h.fresh
    have helected := h.elected
    rw [hhonest.height] at hfresh helected
    obtain ⟨orderedBy, hordered, hid⟩ := (hreads.exists_ordersPlaced_iff rfl).mp h.ordered
    obtain rfl := Option.some.inj hid
    exact ⟨h.onDemand, h.criterion, hfresh, helected, hordered⟩
  · intro h
    have hfresh := h.fresh
    have helected := h.elected
    rw [← hhonest.height] at hfresh helected
    exact
      { onDemand := h.onDemand
        criterion := h.criterion
        inRange := slotAt_of_lt hw _
        fresh := hfresh
        present := hhonest.present
        elected := helected
        ordered := (hreads.exists_ordersPlaced_iff rfl).mpr ⟨owner, h.ordered, rfl⟩ }

/-- Whom the inherent of `create_at` pays. -/
theorem createAt_paid_iff {L : Type} {X : Externals L} {chain : H256 → Option RelayBlock}
    (hfaithful : rc.Faithful X.proofs chain) {recorded : Option H256} {d : OrderInherentData}
    (hd : createAt rc recorded paraId = some d) {s : State (runtimeTypes L)}
    (hw : s.storage.slotWidth < 32) (owner : AccountId32) :
    (∃ s' r, createOrder (runtimeConfig X) s .none d = .ok (s', some r) ∧ r.owner = owner) ↔
      ∃ hash b, recorded = some hash ∧ chain hash = some b ∧ PaysFor X s b paraId owner := by
  rcases createAt_honest hfaithful hd with ⟨hnone, hempty⟩ |
    ⟨hash, b, inherent, hhash, hb, hdata, rfl, hhonest⟩
  · constructor
    · rintro ⟨s', r, hpaid, -⟩
      obtain ⟨-, ⟨hr, -⟩ | ⟨data', _, hdata', -⟩⟩ := createOrder_cases hpaid
      · cases hr
      · rw [hempty] at hdata'
        cases hdata'
    · rintro ⟨hash, b, hhash, -⟩
      rw [hnone] at hhash
      cases hhash
  · obtain ⟨data?⟩ := d
    obtain rfl : data? = some inherent := hdata
    constructor
    · rintro ⟨s', r, hpaid, rfl⟩
      obtain ⟨-, ⟨hr, -⟩ | ⟨data', owner, hdata', hdue, hr, -⟩⟩ := createOrder_cases hpaid
      · cases hr
      · cases hdata'
        obtain rfl := Option.some.inj hr
        exact ⟨hash, b, hhash, hb, (due_iff_paysFor hw hhonest).mp hdue⟩
    · rintro ⟨hash', b', hhash', hb', hpays⟩
      obtain rfl := Option.some.inj (hhash.symm.trans hhash')
      obtain rfl := Option.some.inj (hb.symm.trans hb')
      have hdue := (due_iff_paysFor hw hhonest).mpr hpays
      exact ⟨_, _, createOrder_of_due hdue, rfl⟩

/-- **Whom an authored block pays.**  On a relay chain the node serves faithfully,
for every record, every relay parent and every timestamp: the `create_order` call
of the block the collator makes inherent data for rewards `owner` exactly when the
record names a relay block of a slot above `PreviousSlot`, out of bulk mode and with
the criterion met, `owner` owns the key elected for that slot, and that block holds
an order by `owner`. -/
theorem authored_order_paid_iff {L : Type} (X : Externals L) (w : Authoring B)
    (hI : w.inherents.Lawful) (hc : c.Faithful OrderInherentData.WellFormed)
    {chain : H256 → Option RelayBlock} (hfaithful : rc.Faithful X.proofs chain)
    (hrc : ProvesSets rc) {relayParent : H256} {validationData : PersistedValidationData}
    {parentHash : B.Hash} {timestamp : Option UInt64} {paras : w.Paras} {data : w.inherents.Data}
    (h : createInherentData (templateAuthoring w c rc record paraId) paraId relayParent validationData
      parentHash timestamp = .ok (paras, data))
    {s : State (runtimeTypes L)} (hw : s.storage.slotWidth < 32) (owner : AccountId32) :
    (∃ d s' r, createInherent (T := runtimeTypes L) w.inherents c data = some (.createOrder d) ∧
      createOrder (runtimeConfig X) s .none d = .ok (s', some r) ∧ r.owner = owner) ↔
    ∃ hash b, record.relayBlockHash = some hash ∧ chain hash = some b ∧
      PaysFor X s b paraId owner := by
  obtain ⟨d, hd, hcall⟩ := createInherent_of_authored (runtimeTypes L) hI hc hrc h
  rw [← createAt_paid_iff hfaithful hd hw]
  constructor
  · rintro ⟨d', s', r, hd', hpaid, howner⟩
    rw [hcall] at hd'
    cases hd'
    exact ⟨s', r, hpaid, howner⟩
  · rintro ⟨s', r, hpaid, howner⟩
    exact ⟨d, s', r, hcall, hpaid, howner⟩

/-- A node whose proofs are single nodes builds sets. -/
theorem singleBlockNode_provesSets (b : RelayBlock) (hash : H256) :
    ProvesSets (singleBlockNode b hash) := by
  rintro _ _ proof ⟨⟩
  refine ⟨List.pairwise_singleton .., by simp, fun node hnode => ?_⟩
  obtain rfl := List.mem_singleton.mp hnode
  rw [FitsVec, b.stateRoot.length_toList]
  decide

/-- The inherent data of the block a collator makes after relay block 9, which
holds Alice's order. -/
def aliceInherentData : Except CollatorError (Unit × plainInherents.Data) :=
  createInherentData (templateAuthoring plainAuthoring orderInherentDataCodec
    (singleBlockNode (orderBlock 9 alice) (headAt 9).hash) ⟨some (headAt 9).hash, 2⟩ 2000) 2000
    (.replicate 0) ⟨[], 9, .replicate 0, 0⟩ (0 : UInt64) (some 12000)

/-- Alice is paid by it, through the bytes of the inherent data. -/
theorem authored_order_paid_alice :
    ∃ data, aliceInherentData = .ok ((), data) ∧
      ∃ d s' r, createInherent (T := runtimeTypes (AccountId32 → U128)) plainInherents
          orderInherentDataCodec data = some (.createOrder d) ∧
        createOrder (tableRuntime [orderEntry 9 alice]) (readyState alice alice) .none d =
          .ok (s', some r) ∧ r.owner = alice := by
  obtain ⟨data, hdata⟩ : ∃ data, aliceInherentData = .ok ((), data) := ⟨_, rfl⟩
  refine ⟨data, hdata, ?_⟩
  have hwidth : (readyState alice alice).storage.slotWidth < 32 := by decide
  unfold aliceInherentData at hdata
  refine (authored_order_paid_iff ⟨false, tableProofs [orderEntry 9 alice], mintInto⟩ plainAuthoring
    plainInherents_lawful orderInherentDataCodec_faithful
    (singleBlockNode_faithful (orderBlock 9 alice) (headAt 9).hash rfl)
    (singleBlockNode_provesSets _ _) hdata hwidth alice).mpr ?_
  refine ⟨_, orderBlock 9 alice, rfl, if_pos rfl, ?_⟩
  exact
    { onDemand := rfl
      criterion := by decide
      fresh := by decide
      elected := ⟨alice, by decide, by decide⟩
      ordered := ⟨1000000, List.mem_singleton_self _⟩ }

end Client

end OnDemand
