/-
# Blocks

A chain of blocks around the pallet (`template/runtime/src/lib.rs` for the
pallets and their order).  A block starts with the initialize hooks, where the
session pallet may rotate and so change AuRa's authorities, applies its
inherents, then its transactions, and ends with the finalize hooks, the
on-demand pallet's after AuRa's.  `Block.ops` are its operations in that order,
so a chain of blocks is a run of `pallet` (`applyBlocks_eq_run`).

The session pallet enters as a parameter (`SessionPallet`): its two calls that
move `KeyOwner`.  The chain of `stale_key_fails` has one that does what the real
one does (`plainSession`): a key change drops the entry of the old key at once,
while the authority lists follow only at the next rotation, and the on-demand
pallet's copy one finalize later still.

`create_order` is a mandatory inherent: a block in which it fails is invalid.
In the window between a key change and the rotation the elected authority's key
has no owner, and every block that carries honest order data is
(`stale_key_fails`).  `honest_inherent_returns_iff` is exactly when it is not.
-/

import OnDemand.Pallet.Run

namespace OnDemand

open Word

variable {T : Types}

/-! ### Session keys -/

/-- The calls of `pallet_session` that change keys. -/
structure SessionPallet (T : Types) where
  /-- `set_keys`, by its effect on the runtime outside the on-demand pallet. -/
  setKeys : T.ValidatorId → T.AuthorityId → Env T → Env T
  /-- `purge_keys`. -/
  purgeKeys : T.ValidatorId → Env T → Env T

/-- Remove the owner entry of an AURA key. -/
def clearKeyOwner (raw : List UInt8) (e : Env T) : Env T :=
  { e with keyOwner := fun t r => if t = aura ∧ r = raw then none else e.keyOwner t r }

/-- Make an account the owner of an AURA key. -/
def putKeyOwner (raw : List UInt8) (who : T.ValidatorId) (e : Env T) : Env T :=
  { e with keyOwner := fun t r => if t = aura ∧ r = raw then some who else e.keyOwner t r }

/-- A session pallet to run: `set_keys` is refused for a key somebody else owns,
a new key takes the place of the old one at once, and a purge removes it. -/
def plainSession : SessionPallet T where
  setKeys who key e :=
    if (e.keyOwner aura (T.toRawVec key)).all (· = who) then
      let owned : Env T :=
        match e.nextKeys who with
        | none => putKeyOwner (T.toRawVec key) who e
        | some old =>
            if T.toRawVec old = T.toRawVec key then e
            else putKeyOwner (T.toRawVec key) who (clearKeyOwner (T.toRawVec old) e)
      { owned with nextKeys := Function.update e.nextKeys who (some key) }
    else e
  purgeKeys who e :=
    match e.nextKeys who with
    | none => e
    | some old =>
        { clearKeyOwner (T.toRawVec old) e with nextKeys := Function.update e.nextKeys who none }

/-! ### Blocks -/

/-- An inherent: the order inherent or one of another pallet. -/
inductive Inherent (T : Types) where
  | createOrder (d : OrderInherentData)
  | other (change : Outside T → Outside T)

/-- A transaction: a call of the pallet, a session key change or any call that
touches neither. -/
inductive Transaction (T : Types) where
  | setSlotWidth (origin : Origin) (width : UInt32)
  | setThresholdParameter (origin : Origin) (parameter : T.ThresholdParameter)
  | setBulkMode (origin : Origin) (bulkMode : Bool)
  | setKeys (who : T.ValidatorId) (key : T.AuthorityId)
  | purgeKeys (who : T.ValidatorId)
  | other (change : Outside T → Outside T)

structure Block (T : Types) where
  /-- AuRa's authorities after the session rotation of `on_initialize`, if
  there is one. -/
  rotation : Option (List T.AuthorityId)
  /-- What the other initialize hooks do. -/
  hooks : Outside T → Outside T
  inherents : List (Inherent T)
  transactions : List (Transaction T)

def Inherent.op : Inherent T → Op T
  | .createOrder d => .createOrder .none d
  | .other change => .environment fun e => { e with outside := change e.outside }

def Transaction.op (P : SessionPallet T) : Transaction T → Op T
  | .setSlotWidth origin width => .setSlotWidth origin width
  | .setThresholdParameter origin parameter => .setThresholdParameter origin parameter
  | .setBulkMode origin bulkMode => .setBulkMode origin bulkMode
  | .setKeys who key => .environment (P.setKeys who key)
  | .purgeKeys who => .environment (P.purgeKeys who)
  | .other change => .environment fun e => { e with outside := change e.outside }

/-- The initialize hooks as one operation. -/
def Block.opening (b : Block T) : Op T :=
  .environment fun e =>
    { e with
      auraAuthorities := b.rotation.getD e.auraAuthorities
      outside := b.hooks e.outside }

/-- The operations of a block, in order. -/
def Block.ops (P : SessionPallet T) (b : Block T) : List (Op T) :=
  b.opening ::
    (b.inherents.map Inherent.op ++ (b.transactions.map (Transaction.op P) ++ [.onFinalize]))

/-- Every inherent returns `Ok`, each in the state its predecessors left. -/
def inherentsReturn (C : Config T) : State T → List (Inherent T) → Bool
  | _, [] => true
  | s, i :: is => (dispatch C s i.op).isOk && inherentsReturn C ((pallet C).next s i.op) is

/-- Execute a block; `none` when a mandatory inherent makes it invalid. -/
def applyBlock (C : Config T) (P : SessionPallet T) (s : State T) (b : Block T) :
    Option (State T) :=
  if inherentsReturn C ((pallet C).next s b.opening) b.inherents then
    some ((pallet C).run s (b.ops P))
  else none

/-- Execute a chain of blocks. -/
def applyBlocks (C : Config T) (P : SessionPallet T) : State T → List (Block T) → Option (State T)
  | s, [] => some s
  | s, b :: bs => (applyBlock C P s b).bind fun s' => applyBlocks C P s' bs

/-- **A chain of blocks is a run of the pallet.** -/
theorem applyBlocks_eq_run {C : Config T} {P : SessionPallet T} {s s' : State T}
    {bs : List (Block T)} (h : applyBlocks C P s bs = some s') :
    s' = (pallet C).run s (bs.flatMap (Block.ops P)) := by
  induction bs generalizing s with
  | nil => exact (Option.some.inj h).symm
  | cons b bs ih =>
      obtain ⟨t, ht, hrest⟩ := Option.bind_eq_some_iff.mp h
      unfold applyBlock at ht
      split_ifs at ht
      rw [ih hrest, ← Option.some.inj ht, List.flatMap_cons, Transducer.run_append]

/-- The state in which an inherent of block `b` is dispatched, after the chain
`bs`, the hooks of `b` and the inherents before it. -/
def dispatchState (C : Config T) (P : SessionPallet T) (g : State T) (bs : List (Block T))
    (b : Block T) (earlier : List (Inherent T)) : State T :=
  (pallet C).run g (bs.flatMap (Block.ops P) ++ b.opening :: earlier.map Inherent.op)

/-! ### The inherent on honest data -/

/-- **When honest order data makes a block invalid.**  In every state an
inherent is dispatched in, along any chain of blocks with key changes, purges,
rotations and admin calls, whatever the session pallet, and for all data
`create_at` builds from a relay chain it sees faithfully: `create_order` returns
`Ok` exactly when it exits early or the elected authority's AURA key still has an
owner. -/
theorem honest_inherent_returns_iff (C : Config T) (P : SessionPallet T)
    (threshold : T.ThresholdParameter) (bulkMode : Bool) (env : Env T) (bs : List (Block T))
    (b : Block T) (earlier : List (Inherent T))
    (hw : (dispatchState C P (genesis threshold bulkMode env) bs b earlier).storage.slotWidth < 32)
    {rc : RelayChainInterface} {chain : H256 → Option RelayBlock} (hrc : rc.Faithful C.proofs chain)
    {recorded : Option H256} {paraId : ParaId} {d : OrderInherentData}
    (hd : createAt rc recorded paraId = some d) :
    (∃ r, createOrder C (dispatchState C P (genesis threshold bulkMode env) bs b earlier) .none d =
      .ok r) ↔
    ∀ data, d.data = some data →
      ReachesProof C (dispatchState C P (genesis threshold bulkMode env) bs b earlier) data →
      ∃ placer owner,
        electedPlacer (dispatchState C P (genesis threshold bulkMode env) bs b earlier).storage
          data.relayHeight = some placer ∧
        (dispatchState C P (genesis threshold bulkMode env) bs b earlier).env.keyOwner aura
          (T.toRawVec placer) = some owner := by
  obtain ⟨data?⟩ := d
  rcases createAt_honest hrc hd with ⟨-, hnone⟩ | ⟨hash, block, data, -, -, hdata, -, hhonest⟩
  · obtain rfl : data? = none := hnone
    constructor
    · intro _ data h
      cases h
    · intro _
      exact ⟨_, rfl⟩
  · obtain rfl : data? = some data := hdata
    rw [createOrder_returns_iff hw hhonest.present]
    constructor
    · rintro h data' hdata'
      cases hdata'
      exact h
    · intro h
      exact h data rfl

/-- A node that serves one relay block under one hash. -/
def singleBlockNode (b : RelayBlock) (hash : H256) : RelayChainInterface where
  header h := .ok (if h = hash then some ⟨b.number, b.stateRoot, hash⟩ else none)
  proveRead _ _ := .ok ⟨[b.stateRoot.toList]⟩
  getStorageByKey _ _ := .ok none

theorem singleBlockNode_faithful (b : RelayBlock) (hash : H256)
    {table : List (H256 × List RelayEvent)} (htable : table.lookup b.stateRoot = some b.events) :
    (singleBlockNode b hash).Faithful (tableProofs table)
      (fun h => if h = hash then some b else none) where
  header := by
    intro h hd heq
    simp only [singleBlockNode] at heq
    split_ifs at heq with hh
    · cases heq
      exact ⟨b, if_pos hh, by rw [hh]⟩
    · cases heq
  proveRead := by
    intro h b' proof hb' heq
    split_ifs at hb'
    cases hb'
    cases heq
    simp [tableProofs, htable]

/-- Leave bulk mode in the first block, change Alice's session key to `key` in
the second. -/
def keyChange (key : Sr25519Public) : List (Block (runtimeTypes (AccountId32 → U128))) :=
  [⟨none, id, [], [.setBulkMode .root false]⟩, ⟨none, id, [], [.setKeys alice key]⟩]

/-- A block without a rotation. -/
def plainBlock : Block (runtimeTypes (AccountId32 → U128)) := ⟨none, id, [], []⟩

/-- Setting the key one already has keeps the entry, and the honest inherent
returns. -/
theorem honest_inherent_returns_same_key :
    ∃ r, createOrder (tableRuntime [orderEntry 8 alice])
      (dispatchState (tableRuntime [orderEntry 8 alice]) plainSession
        (genesis 0 true (collatorEnv [(alice, alice)])) (keyChange alice) plainBlock []) .none
      ⟨some (dataOf (orderBlock 8 alice) 2000)⟩ = .ok r :=
  (honest_inherent_returns_iff (tableRuntime [orderEntry 8 alice]) plainSession 0 true
    (collatorEnv [(alice, alice)]) (keyChange alice) plainBlock [] (by decide)
    (singleBlockNode_faithful (orderBlock 8 alice) (.replicate 9) rfl)
    (show createAt (singleBlockNode (orderBlock 8 alice) (.replicate 9)) (some (.replicate 9)) 2000 =
      some ⟨some (dataOf (orderBlock 8 alice) 2000)⟩ by decide)).mpr fun data hdata _ => by
      cases hdata
      exact ⟨alice, alice, rfl, rfl⟩

/-- **A key change stops honest blocks.**  Alice, the only authority, changes
her session key in a valid block.  Until the next rotation the pallet still
elects her old key, which has no owner any more: the inherent that carries the
honest data of her order in relay block 8 fails. -/
theorem stale_key_fails :
    (applyBlocks (tableRuntime [orderEntry 8 alice]) plainSession
      (genesis 0 true (collatorEnv [(alice, alice)])) (keyChange bob)).isSome = true ∧
    createAt (singleBlockNode (orderBlock 8 alice) (.replicate 9)) (some (.replicate 9)) 2000 =
      some ⟨some (dataOf (orderBlock 8 alice) 2000)⟩ ∧
    (dispatchState (tableRuntime [orderEntry 8 alice]) plainSession
      (genesis 0 true (collatorEnv [(alice, alice)])) (keyChange bob)
      plainBlock []).storage.slotWidth = 0 ∧
    createOrder (tableRuntime [orderEntry 8 alice])
      (dispatchState (tableRuntime [orderEntry 8 alice]) plainSession
        (genesis 0 true (collatorEnv [(alice, alice)])) (keyChange bob) plainBlock []) .none
      ⟨some (dataOf (orderBlock 8 alice) 2000)⟩ =
        .error (.module .failedToGetOrderPlacerAccount) :=
  ⟨by decide, by decide, by decide, rfl⟩

end OnDemand
