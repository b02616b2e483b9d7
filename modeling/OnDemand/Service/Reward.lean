/-
# From a node's order to its reward

Who placed an order is decided twice.  The node (`services/order/src/lib.rs`,
`services/order/src/chain.rs`) checks that the elected AURA key is in its
keystore and signs with the account that has the bytes of its first AURA key.
The pallet (`pallets/on-demand/src/lib.rs`) asks the session pallet who owns the
elected key and looks for an order by that owner.  The two accounts are the same
only when the owner's account is the key itself.

`placer_rewarded_iff` follows one order through both, from the call that
submits it to the `create_order` that carries the honest data of a relay block
of its slot: the owner of the placer's key is rewarded exactly when it is the
key itself, or when the block also holds an order by the owner's account.
-/

import OnDemand.Pallet.Run
import OnDemand.Service.Network

namespace OnDemand

open Word

/-! ### What a submission tells of its node -/

/-- A key of 32 bytes that `has_keys` finds is one of the sr25519 keys. -/
theorem Keystore.mem_sr25519PublicKeys {ks : Keystore} {keyType : KeyTypeId} {key : Sr25519Public}
    (h : ks.hasKeys [(key.toList, keyType)] = true) : key ∈ ks.sr25519PublicKeys keyType := by
  have hmem : key.toList ∈ ks.rawPublicKeys keyType := by
    simpa [Keystore.hasKeys] using h
  refine List.mem_filterMap.mpr ⟨key.toList, hmem, ?_⟩
  rw [sr25519FromSlice, dif_pos key.length_toList]

/-! ### The reward -/

/-- **When an honest placer is rewarded.**  A collator of the template runtime
with one AURA key submits an order, which the relay chain includes in a block of
the same slot.  In a state with the authorities and the width the node read, out
of bulk mode, with the criterion met and the slot not yet paid, `create_order`
with the honest data of that block rewards the owner of the placer's key exactly
when that owner's account is the key itself or has an order of its own in the
block. -/
theorem placer_rewarded_iff {L : Type} (X : Externals L) {S : Service Sr25519Public}
    (hraw : S.toRawVec = Bytes32.toList) {key : Sr25519Public}
    (hone : S.keystore.sr25519PublicKeys aura = [key]) {v : View Sr25519Public} {rpc : RelayRpc}
    {head : Head} {record record' : OrderRecord} {o : Submission Sr25519Public}
    (hsubmit : handleRelaychainStream S v rpc head record = .ok (record', some o))
    {s : State (runtimeTypes L)}
    (hauthorities : v.api.authorities o.request.attempt.paraHead = .ok s.storage.authorities)
    (hwidth : o.width = s.storage.slotWidth) (hw : s.storage.slotWidth < 32)
    {b : RelayBlock} {data : InherentData} (hhonest : HonestData X.proofs b data)
    (hpara : data.paraId = S.paraId) (hslot : slotOf b.number o.width = slotOf o.height o.width)
    (hordered : HasOrder b.events S.paraId o.order.accountId) (hbulk : s.storage.bulkMode = none)
    (hcriterion : (runtimeConfig X).shouldPlaceOrder s = true)
    (hfresh : s.storage.previousSlot < slotOf b.number s.storage.slotWidth) :
    (∃ s' r, createOrder (runtimeConfig X) s .none ⟨some data⟩ = .ok (s', some r) ∧
      s.env.keyOwner aura o.placer.toList = some r.owner) ↔
    ∃ owner, s.env.keyOwner aura key.toList = some owner ∧
      (owner = key ∨ HasOrder b.events S.paraId owner) := by
  obtain ⟨-, helected, horder⟩ := handleRelaychainStream_submits hsubmit
  have hplacerKey : o.placer = key := by
    have hmem := Keystore.mem_sr25519PublicKeys (hraw ▸ helected.hasKeys)
    rw [hone] at hmem
    exact List.mem_singleton.mp hmem
  have hsigner : o.order.accountId = key := by
    have hcarries := submitOrder_carries horder
    have hhead := hcarries.signedBy
    rw [hone] at hhead
    exact hcarries.accountId.trans (Option.some.inj hhead).symm
  have hplacer : electedPlacer s.storage data.relayHeight = some o.placer := by
    obtain ⟨authorities, hauth, hplacer⟩ := helected.placer
    rw [hauthorities] at hauth
    obtain rfl := Except.ok.inj hauth
    have hp := orderPlacer_eq hplacer
    rw [electedPlacer, hhonest.height, ← hwidth, hslot]
    exact hp
  have hreads : HonestData (runtimeConfig X).proofs b data := hhonest
  constructor
  · rintro ⟨s', r, hcall, howner⟩
    obtain ⟨-, ⟨hnone, -⟩ | ⟨data', owner, hdata, hdue, hr, -⟩⟩ := createOrder_cases hcall
    · cases hnone
    obtain rfl := Option.some.inj hdata
    obtain rfl := Option.some.inj hr
    obtain ⟨by_, hby, hid⟩ := (hreads.exists_ordersPlaced_iff rfl).mp hdue.ordered
    obtain rfl := Option.some.inj hid
    rw [hpara] at hby
    rw [hplacerKey] at howner
    exact ⟨by_, howner, Or.inr hby⟩
  · rintro ⟨owner, howner, hby⟩
    have hby' : HasOrder b.events S.paraId owner := by
      rcases hby with rfl | hby
      · exact hsigner ▸ hordered
      · exact hby
    have hdue : Due (runtimeConfig X) s data owner :=
      { onDemand := hbulk
        criterion := hcriterion
        inRange := slotAt_of_lt hw _
        fresh := by rw [hhonest.height]; exact hfresh
        present := hhonest.present
        elected := ⟨o.placer, hplacer, by rw [hplacerKey]; exact howner⟩
        ordered := by
          refine (hreads.exists_ordersPlaced_iff rfl).mpr ⟨owner, ?_, rfl⟩
          rw [hpara]
          exact hby' }
    refine ⟨_, _, createOrder_of_due hdue, ?_⟩
    rw [hplacerKey]
    exact howner

/-- A collator's state at width 2, out of bulk mode, at the end of a block. -/
def readyState (owner key : Bytes32) : State (runtimeTypes (AccountId32 → U128)) :=
  (pallet (tableRuntime [])).run (genesis 0 true (collatorEnv [(owner, key)]))
    [.setSlotWidth .root 2, .setBulkMode .root false, .onFinalize]

/-- What a node reads on the plain relay chain when the parachain is in that
state. -/
def readyView (owner key : Bytes32) : View Sr25519Public :=
  { plainView [] 0 with api := runtimeApi (readyState owner key) }

/-- The order Alice's node submits at head 8. -/
def aliceOrder : Submission Sr25519Public where
  request := ⟨⟨headAt 8, .replicate 0, 2, 2⟩, alice, 1000000000000000000000⟩
  order := ⟨1000000000000000000000, 2000, alice, alice, ⟨8, .replicate 8, .replicate 8⟩, 4⟩

/-- Alice's node submits it, whoever registered her key. -/
theorem handleRelaychainStream_aliceOrder (owner : AccountId32) :
    handleRelaychainStream (collator [alice]) (readyView owner alice) plainRpc (headAt 8) .empty =
      .ok (⟨some (headAt 8).hash, 2⟩, some aliceOrder) := by
  have hview : readyView owner alice = plainView [alice] 2 := rfl
  rw [hview]
  rfl

/-- Alice owns her key herself, as in the dev presets, and is rewarded for the
order of her node in relay block 9. -/
theorem placer_rewarded_same_account :
    ∃ s' r, createOrder (tableRuntime [orderEntry 9 alice]) (readyState alice alice) .none
        ⟨some (dataOf (orderBlock 9 alice) 2000)⟩ = .ok (s', some r) ∧
      (readyState alice alice).env.keyOwner aura aliceOrder.placer.toList = some r.owner :=
  (placer_rewarded_iff ⟨false, tableProofs [orderEntry 9 alice], mintInto⟩ (S := collator [alice]) rfl
    (show _ = [alice] by decide) (handleRelaychainStream_aliceOrder alice) rfl rfl (by decide)
    ⟨rfl, rfl, by decide, by decide⟩ rfl (by decide) ⟨1000000, List.mem_singleton_self _⟩ rfl
    (by decide) (by decide)).mpr ⟨alice, by decide, Or.inl rfl⟩

/-- **A key registered by another account earns nothing.**  Bob's account owns
Alice's AURA key.  The node orders as Alice, the relay chain includes the order
in block 9 of the same slot, and `create_order` with the honest data of block 9
finds no order by Bob. -/
theorem session_key_owner_not_rewarded :
    (∃ record, handleRelaychainStream (collator [alice]) (readyView bob alice) plainRpc (headAt 8)
      .empty = .ok (record, some aliceOrder)) ∧
    (collator [alice]).keystore.sr25519PublicKeys aura = [alice] ∧
    (readyState bob alice).storage.authorities = [alice] ∧
    (readyState bob alice).env.keyOwner aura alice.toList = some bob ∧
    (readyState bob alice).storage.slotWidth = aliceOrder.width ∧
    slotOf 9 aliceOrder.width = slotOf aliceOrder.height aliceOrder.width ∧
    HonestData (tableProofs [orderEntry 9 alice]) (orderBlock 9 alice)
      (dataOf (orderBlock 9 alice) 2000) ∧
    HasOrder (orderBlock 9 alice).events 2000 aliceOrder.order.accountId ∧
    (readyState bob alice).storage.bulkMode = none ∧
    (readyState bob alice).storage.previousSlot < slotOf 9 aliceOrder.width ∧
    (tableRuntime [orderEntry 9 alice]).shouldPlaceOrder (readyState bob alice) = true ∧
    createOrder (tableRuntime [orderEntry 9 alice]) (readyState bob alice) .none
      ⟨some (dataOf (orderBlock 9 alice) 2000)⟩ = .ok (readyState bob alice, none) := by
  refine ⟨⟨_, handleRelaychainStream_aliceOrder bob⟩, by decide, by decide, by decide, by decide,
    by decide, ⟨rfl, rfl, by decide, by decide⟩, ⟨1000000, List.mem_singleton_self _⟩, by decide,
    by decide, by decide, ?_⟩
  rfl

end OnDemand
