/-
# Whose orders are rewarded?

`create_order` (`pallets/on-demand/src/lib.rs`) filters the relay block's orders
by a para id, which `orders_placed` calls the expected one.  The id is the
`para_id` of the author's inherent.  The runtime knows its own id, in
`parachain_info`, and `create_order` never reads it.

So a reward is for an order for the id in the data (`rewarded_order`), and the
orders of one collator account for other parachains pay as well as those for this
one.  `own_orders_rewarded_iff` says when that cannot happen: for the data of
every real relay block at a height, the rewards are for orders of this parachain
exactly when the author passes its id, or when the state pays nothing at that
height in any case (`Payable`).

That a foreign order can be presented at all is the one thing asked of the state
proofs (`StateProofs.ProvesOrders`): a relay block whose only event is an order
has a state root and a proof.
-/

import OnDemand.Pallet.Authenticity
import OnDemand.Pallet.Effect

namespace OnDemand

open Word

section ParaId

variable {L : Type} {C : Config (runtimeTypes L)} {s : State (runtimeTypes L)} {b : RelayBlock}
  {data : InherentData} {call : RewardCall (runtimeTypes L)}

/-- The block holds an order for the para by an account of the placer elected
for its height, whose key the owner has registered. -/
def HoldsOrderOfElected (C : Config (runtimeTypes L)) (s : State (runtimeTypes L)) (b : RelayBlock)
    (paraId : ParaId) (owner : AccountId32) : Prop :=
  ∃ placer orderedBy, electedPlacer s.storage b.number = some placer ∧
    s.env.keyOwner aura placer.toList = some owner ∧
    HasOrder b.events paraId orderedBy ∧ C.validatorIdOf orderedBy = some owner

/-- What `create_order` asks of the state and the height before it pays, and
that the elected placer has an account to order from. -/
structure Payable (C : Config (runtimeTypes L)) (s : State (runtimeTypes L)) (height : UInt32) :
    Prop where
  onDemand : s.storage.bulkMode = none
  criterion : C.shouldPlaceOrder s = true
  inRange : slotAt C s.storage height = .ok (slotOf height s.storage.slotWidth)
  fresh : s.storage.previousSlot < slotOf height s.storage.slotWidth
  elected : ∃ placer owner orderedBy, electedPlacer s.storage height = some placer ∧
    s.env.keyOwner aura placer.toList = some owner ∧ C.validatorIdOf orderedBy = some owner

/-- **A reward is for an order for the id in the data.** -/
theorem rewarded_order (hC : C.ordersPlaced = orderPlacementChecker C.proofs)
    (hhonest : HonestData C.proofs b data)
    (hpaid : rewardOf C s .none ⟨some data⟩ = some call) :
    Payable C s b.number ∧ HoldsOrderOfElected C s b data.paraId call.owner := by
  obtain ⟨owner, hdue, rfl⟩ := rewardOf_eq_some_iff.mp hpaid
  obtain ⟨placer, hplacer, howner⟩ := hdue.elected
  obtain ⟨orderedBy, hevent, hby⟩ := (hhonest.exists_ordersPlaced_iff hC).mp hdue.ordered
  have hin := hdue.inRange
  have hfresh := hdue.fresh
  rw [hhonest.height] at hplacer hin hfresh
  exact ⟨⟨hdue.onDemand, hdue.criterion, hin, hfresh, placer, owner, orderedBy, hplacer, howner, hby⟩,
    placer, orderedBy, hplacer, howner, hevent, hby⟩

/-- A payable height pays for the order of an account of the elected placer. -/
theorem rewardOf_of_payable (hC : C.ordersPlaced = orderPlacementChecker C.proofs)
    (hhonest : HonestData C.proofs b data) (hpayable : Payable C s b.number)
    {owner : AccountId32} (hholds : HoldsOrderOfElected C s b data.paraId owner) :
    rewardOf C s .none ⟨some data⟩ = some (rewardCall s data owner) := by
  obtain ⟨placer, orderedBy, hplacer, howner, hevent, hby⟩ := hholds
  refine rewardOf_eq_some_iff.mpr ⟨owner, ?_, rfl⟩
  have hin := hpayable.inRange
  have hfresh := hpayable.fresh
  rw [← hhonest.height] at hplacer hin hfresh
  exact ⟨hpayable.onDemand, hpayable.criterion, hin, hfresh, hhonest.present,
    ⟨placer, hplacer, howner⟩,
    (hhonest.exists_ordersPlaced_iff hC).mpr ⟨orderedBy, hevent, hby⟩⟩

/-- Whatever account orders for the para, a relay block with that order as its
only event has a state root and a proof of its events. -/
def StateProofs.ProvesOrders (V : StateProofs) (paraId : ParaId) : Prop :=
  ∀ orderedBy, ∃ root proof price, V.rootPresent root proof = true ∧
    V.readEvents root proof eventsKey =
      some [.onDemandAssignmentProvider (.onDemandOrderPlaced paraId price orderedBy)]

/-- Every reward paid for the data of a real relay block at the height, with the
given id in it, is for an order for `ownId` by the elected placer. -/
def RewardsOwnOrders (C : Config (runtimeTypes L)) (s : State (runtimeTypes L)) (ownId paraId : ParaId)
    (height : UInt32) : Prop :=
  ∀ b data call, b.number = height → HonestData C.proofs b data → data.paraId = paraId →
    rewardOf C s .none ⟨some data⟩ = some call → HoldsOrderOfElected C s b ownId call.owner

/-- **When only orders for this parachain are rewarded.**  In every state of a
parachain with id `ownId`, and for all relay blocks at a height with whatever
events: the rewards are for orders of `ownId` by the elected placer if and only
if the inherent carries that id or nothing is payable at that height. -/
theorem own_orders_rewarded_iff (C : Config (runtimeTypes L))
    (hC : C.ordersPlaced = orderPlacementChecker C.proofs) (ownId paraId : ParaId)
    (hproofs : C.proofs.ProvesOrders paraId) (s : State (runtimeTypes L)) (height : UInt32) :
    RewardsOwnOrders C s ownId paraId height ↔ paraId = ownId ∨ ¬Payable C s height := by
  constructor
  · intro hown
    by_contra hnot
    obtain ⟨hne, hpayable⟩ := not_or.mp hnot
    have hpayable := not_not.mp hpayable
    obtain ⟨placer, owner, orderedBy, hplacer, howner, hby⟩ := hpayable.elected
    obtain ⟨root, proof, price, hpresent, hread⟩ := hproofs orderedBy
    have hhonest : HonestData C.proofs ⟨height, root, _⟩ ⟨proof, root, height, paraId⟩ :=
      ⟨rfl, rfl, hpresent, hread⟩
    have hpaid := rewardOf_of_payable hC hhonest hpayable
      ⟨placer, orderedBy, hplacer, howner, ⟨price, List.mem_singleton_self _⟩, hby⟩
    obtain ⟨_, _, _, _, ⟨_, hmem⟩, _⟩ := hown _ _ _ rfl hhonest rfl hpaid
    cases List.mem_singleton.mp hmem
    exact hne rfl
  · rintro hcond b data call rfl hhonest rfl hpaid
    obtain ⟨hpayable, hholds⟩ := rewarded_order hC hhonest hpaid
    rcases hcond with heq | hnot
    · exact heq ▸ hholds
    · exact absurd hpayable hnot

end ParaId

/-- State proofs on a relay chain where every root commits to one order for the
para, by the account with the bytes of the root. -/
def singleOrderProofs (paraId : ParaId) : StateProofs where
  rootPresent root proof := proof.trieNodes.contains root.toList
  readEvents root proof key :=
    if proof.trieNodes.contains root.toList && key == eventsKey then
      some [.onDemandAssignmentProvider (.onDemandOrderPlaced paraId 1000000 root)]
    else none

theorem singleOrderProofs_provesOrders (paraId : ParaId) :
    (singleOrderProofs paraId).ProvesOrders paraId := by
  intro orderedBy
  refine ⟨orderedBy, ⟨[orderedBy.toList]⟩, 1000000, ?_, ?_⟩
  · simp [singleOrderProofs]
  · simp [singleOrderProofs]

/-- The template runtime on that relay chain. -/
def singleOrderRuntime (paraId : ParaId) : Config (runtimeTypes (AccountId32 → U128)) :=
  runtimeConfig ⟨false, singleOrderProofs paraId, mintInto⟩

/-- Para 2000 rewards only its own orders when the inherent carries its id; para
3000 pays for the orders of para 2000. -/
theorem own_orders_rewarded_alice :
    RewardsOwnOrders (singleOrderRuntime 2000) (firstBlock (singleOrderRuntime 2000) alice)
      2000 2000 8 ∧
    ¬RewardsOwnOrders (singleOrderRuntime 2000) (firstBlock (singleOrderRuntime 2000) alice)
      3000 2000 8 := by
  have hiff := own_orders_rewarded_iff (singleOrderRuntime 2000) rfl
  have hproofs := singleOrderProofs_provesOrders 2000
  refine ⟨(hiff 2000 2000 hproofs _ 8).mpr (Or.inl rfl), ?_⟩
  intro hown
  rcases (hiff 3000 2000 hproofs _ 8).mp hown with heq | hnot
  · exact absurd heq (by decide)
  · exact hnot ⟨rfl, by decide, rfl, by decide, alice, alice, alice, rfl, by decide, rfl⟩

/-- **A foreign order pays.**  Relay block 8 holds one order, Alice's for para
2000.  On para 3000 her inherent carries the root, the proof and the height of
that block and the id 2000: the call pays, and the block holds no order for para
3000. -/
theorem foreign_order_pays :
    HonestData (tableRuntime [orderEntry 8 alice]).proofs (orderBlock 8 alice)
      (dataOf (orderBlock 8 alice) 2000) ∧
    (rewardOf (tableRuntime [orderEntry 8 alice]) (firstBlock (tableRuntime [orderEntry 8 alice]) alice)
      .none ⟨some (dataOf (orderBlock 8 alice) 2000)⟩).isSome = true ∧
    ¬∃ orderedBy, HasOrder (orderBlock 8 alice).events 3000 orderedBy := by
  refine ⟨⟨rfl, rfl, by decide, by decide⟩, by decide, ?_⟩
  rintro ⟨orderedBy, price, hmem⟩
  cases List.mem_singleton.mp hmem

end OnDemand
