/-
# Is the order that was rewarded a real one?

`create_order` (`pallets/on-demand/src/lib.rs`) reads the orders of a relay
block out of a state proof.  Proof, state root, height and para id all come
from the block author's inherent, and `ProvideInherent` has no
`check_inherent`: the proof is verified against a root nobody has compared with
the relay chain, and the height is never compared with the root.

What a state proof does guarantee is a `Commitment`: whatever is read under a
root is what that root commits to.  So a reward is *authentic* exactly when the
root the author passed is the true root at the height the author passed
(`reward_authentic_iff_root_bound`).  Everything else follows from
that one link; without it an author can pay itself out of a trie of its own
making (`forged_root_pays`).
-/

import OnDemand.Pallet.Run

namespace OnDemand

open Word

variable {L : Type}

/-- The true relay chain: a state root and the system events for each height
it has reached. -/
abbrev RelayChain := UInt32 → Option (H256 × List RelayEvent)

/-- What `RelayChainStateProof` guarantees: a root commits to at most one list
of events, every read returns the committed one, and the true blocks commit to
their events. -/
structure Commitment (V : StateProofs) (chain : RelayChain) where
  contents : H256 → Option (List RelayEvent)
  read : ∀ {root proof events}, V.readEvents root proof eventsKey = some events →
    contents root = some events
  real : ∀ {n root events}, chain n = some (root, events) → contents root = some events

/-- The reward `create_order` pays, if any. -/
def rewardOf {T : Types} (C : Config T) (s : State T) (origin : Origin) (d : OrderInherentData) :
    Option (RewardCall T) :=
  match createOrder C s origin d with
  | .ok (_, r) => r
  | .error _ => none

/-- The true block at the height of the data has the root of the data, and
among its events is an order for the para of the data by an account that maps
to the owner of the elected authority's AURA key. -/
def Authentic {T : Types} (C : Config T) (s : State T) (chain : RelayChain) (data : InherentData) :
    Prop :=
  ∃ events placer owner orderedBy, chain data.relayHeight = some (data.relayStateRoot, events) ∧
    electedPlacer s.storage data.relayHeight = some placer ∧
    s.env.keyOwner aura (T.toRawVec placer) = some owner ∧
    HasOrder events data.paraId orderedBy ∧ C.validatorIdOf orderedBy = some owner

/-- A reward is paid exactly when it is due. -/
theorem rewardOf_eq_some_iff {T : Types} {C : Config T} {s : State T} {data : InherentData}
    {call : RewardCall T} : rewardOf C s .none ⟨some data⟩ = some call ↔
      ∃ owner, Due C s data owner ∧ call = rewardCall s data owner := by
  unfold rewardOf
  constructor
  · intro h
    split at h
    · rename_i s' r hok
      obtain ⟨-, ⟨rfl, -⟩ | ⟨data', owner, hdata, hdue, rfl, -⟩⟩ := createOrder_cases hok
      · cases h
      · cases hdata
        exact ⟨owner, hdue, (Option.some.inj h).symm⟩
    · cases h
  · rintro ⟨owner, hdue, rfl⟩
    rw [createOrder_of_due hdue]

/-- **A reward is authentic exactly when the root is the true root at the
height.**  From every state of every run, and for whatever proof, root, height
and para id an author puts in its inherent: if `create_order` pays, then the
order it pays for is one of the true relay chain if and only if the relay chain
has the given root at the given height. -/
theorem reward_authentic_iff_root_bound (C : Config (runtimeTypes L))
    (hC : C.ordersPlaced = orderPlacementChecker C.proofs) {chain : RelayChain}
    (K : Commitment C.proofs chain) (threshold : U128) (bulkMode : Bool)
    (env : Env (runtimeTypes L)) (ops : List (Op (runtimeTypes L))) (data : InherentData)
    (call : RewardCall (runtimeTypes L))
    (hpaid : rewardOf C ((pallet C).run (genesis threshold bulkMode env) ops) .none ⟨some data⟩ =
      some call) :
    Authentic C ((pallet C).run (genesis threshold bulkMode env) ops) chain data ↔
      ∃ events, chain data.relayHeight = some (data.relayStateRoot, events) := by
  obtain ⟨owner, hdue, -⟩ := rewardOf_eq_some_iff.mp hpaid
  constructor
  · rintro ⟨events, -, -, -, hchain, -⟩
    exact ⟨events, hchain⟩
  · rintro ⟨events, hchain⟩
    obtain ⟨placer, hplacer, howner⟩ := hdue.elected
    obtain ⟨orderedBy, hmem, hby⟩ := (exists_ordersPlaced_iff hC).mp hdue.ordered
    obtain ⟨price, hmem⟩ := hmem
    unfold RelayChainStateProof.readEntry at hmem
    cases hread : C.proofs.readEvents data.relayStateRoot data.relayStorageProof eventsKey with
    | none =>
        rw [hread] at hmem
        cases hmem
    | some read =>
        rw [hread, Option.getD_some] at hmem
        have heq : read = events := Option.some.inj ((K.read hread).symm.trans (K.real hchain))
        exact ⟨events, placer, owner, orderedBy, hchain, hplacer, howner, ⟨price, heq ▸ hmem⟩, hby⟩

/-- A table of event lists is a commitment of every relay chain whose blocks
are in it. -/
def tableCommitment {table : List (H256 × List RelayEvent)} {chain : RelayChain}
    (h : ∀ {n root events}, chain n = some (root, events) → table.lookup root = some events) :
    Commitment (tableProofs table) chain where
  contents root := table.lookup root
  read := by
    intro root proof events hread
    unfold tableProofs at hread
    simp only at hread
    split_ifs at hread
    exact hread
  real := h

/-- The relay chain whose only block is the given one. -/
def singleBlock (b : RelayBlock) : RelayChain :=
  fun n => if n = b.number then some (b.stateRoot, b.events) else none

theorem singleBlock_eq {b : RelayBlock} {n : UInt32} {root : H256} {events : List RelayEvent}
    (h : singleBlock b n = some (root, events)) : root = b.stateRoot ∧ events = b.events := by
  unfold singleBlock at h
  split_ifs at h
  cases h
  exact ⟨rfl, rfl⟩

/-- An honest inherent is authentic: Alice's order of relay block 8. -/
theorem reward_authentic_orderBlock :
    Authentic (tableRuntime [orderEntry 8 alice])
      ((pallet (tableRuntime [orderEntry 8 alice])).run
        (genesis 0 false (collatorEnv [(alice, alice)])) [.onFinalize])
      (singleBlock (orderBlock 8 alice)) (dataOf (orderBlock 8 alice) 2000) :=
  (reward_authentic_iff_root_bound (tableRuntime [orderEntry 8 alice]) rfl
    (tableCommitment fun h => by
      obtain ⟨rfl, rfl⟩ := singleBlock_eq h
      rfl)
    0 false (collatorEnv [(alice, alice)]) [.onFinalize] (dataOf (orderBlock 8 alice) 2000) _ rfl).mpr
      ⟨_, rfl⟩

/-- The relay block 8 of a chain on which nobody ordered. -/
def emptyBlock : RelayBlock := ⟨8, .replicate 200, []⟩

/-- **A forged root pays.**  The true relay block 8 holds no order.  The author
passes height 8 with the root and the proof of a trie of its own that holds an
order by Alice: the call pays, and the reward is not authentic. -/
theorem forged_root_pays :
    Nonempty (Commitment (tableProofs [(emptyBlock.stateRoot, []), orderEntry 8 alice])
      (singleBlock emptyBlock)) ∧
    (rewardOf (tableRuntime [(emptyBlock.stateRoot, []), orderEntry 8 alice])
      ((pallet (tableRuntime [(emptyBlock.stateRoot, []), orderEntry 8 alice])).run
        (genesis 0 false (collatorEnv [(alice, alice)])) [.onFinalize]) .none
      ⟨some (dataOf (orderBlock 8 alice) 2000)⟩).isSome = true ∧
    ¬Authentic (tableRuntime [(emptyBlock.stateRoot, []), orderEntry 8 alice])
      ((pallet (tableRuntime [(emptyBlock.stateRoot, []), orderEntry 8 alice])).run
        (genesis 0 false (collatorEnv [(alice, alice)])) [.onFinalize])
      (singleBlock emptyBlock) (dataOf (orderBlock 8 alice) 2000) := by
  refine ⟨⟨tableCommitment fun h => ?_⟩, by decide, ?_⟩
  · obtain ⟨rfl, rfl⟩ := singleBlock_eq h
    rfl
  · rintro ⟨events, -, -, -, hchain, -⟩
    have hroot := (singleBlock_eq hchain).1
    exact absurd hroot (by decide)

end OnDemand
