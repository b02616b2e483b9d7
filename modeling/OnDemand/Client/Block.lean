/-
# Blocks under import

What the consensus code of `client/consensus/on-demand-aura` uses of the block
types and of AURA's own crate.  Both are libraries it is generic over or calls
into, so both are parameters: `BlockT` for headers, digests and the actions on
state, `Standalone` for `sc_consensus_aura::standalone`.  What an import is given
(`BlockImportParams`) is a record the code reads and fills field by field.
-/

import OnDemand.Primitives.Basic

namespace OnDemand.Client

/-- `Block: BlockT`, with what an import may do to the state. -/
structure BlockT where
  Hash : Type
  Header : Type
  Extrinsic : Type
  DigestItem : Type
  StorageChanges : Type
  StateAction : Type
  hash : Header → Hash
  parentHash : Header → Hash
  /-- The header with items pushed to its digest. -/
  push : Header → List DigestItem → Header
  /-- `StateAction::Execute`, the default of an import. -/
  execute : StateAction
  /-- `StateAction::ApplyChanges(StorageChanges::Changes(_))`. -/
  applyChanges : StorageChanges → StateAction
  /-- `StateAction::skip_execution_checks`. -/
  skipExecutionChecks : StateAction → Bool
  /-- The action is to import a state. -/
  importsState : StateAction → Bool

/-- Where a block comes from, of the origins in use here. -/
inductive BlockOrigin where
  | networkBroadcast
  | own
  deriving DecidableEq

inductive ForkChoiceStrategy where
  | longestChain
  | custom (best : Bool)
  deriving DecidableEq

variable (B : BlockT)

/-- `BlockImportParams`, as far as this crate reads or writes it. -/
structure BlockImportParams where
  origin : BlockOrigin
  header : B.Header
  postDigests : List B.DigestItem
  body : Option (List B.Extrinsic)
  stateAction : B.StateAction
  forkChoice : Option ForkChoiceStrategy
  postHash : Option B.Hash

/-- `SealVerificationError`. -/
inductive SealVerificationError where
  | deferred (header : B.Header) (slot : UInt64)
  | unsealed
  | badSeal
  | badSignature
  | slotAuthorNotFound
  | invalidPreDigest

/-- `sc_consensus_aura::standalone` over keys `Pub` and a keystore. -/
structure Standalone (Pub Keystore : Type) where
  /-- `Slot::from_timestamp`, of a time and a slot duration in milliseconds.
  `none` is its division by zero. -/
  slotFromTimestamp : UInt64 → UInt64 → Option UInt64
  preDigest : UInt64 → B.DigestItem
  claimSlot : UInt64 → List Pub → Keystore → Option Pub
  /-- `seal`, of the hash of a header. -/
  sealHash : B.Hash → Pub → Keystore → Except String B.DigestItem
  checkHeaderSlotAndSeal : UInt64 → B.Header → List Pub →
    Except (SealVerificationError B) (B.Header × UInt64 × B.DigestItem)

variable {B}

namespace BlockImportParams

/-- `BlockImportParams::new`. -/
def new (origin : BlockOrigin) (header : B.Header) : BlockImportParams B where
  origin := origin
  header := header
  postDigests := []
  body := none
  stateAction := B.execute
  forkChoice := none
  postHash := none

/-- `with_state`. -/
def withState (self : BlockImportParams B) : Bool := B.importsState self.stateAction

/-- `post_header`. -/
def postHeader (self : BlockImportParams B) : B.Header := B.push self.header self.postDigests

end BlockImportParams

/-! ### A plain instance -/

/-- Headers of a parent's hash and a digest, hashed to the number after their
parent's.  A digest item is a slot, or a seal that names who signed. -/
def plainBlocks : BlockT where
  Hash := UInt64
  Header := UInt64 × List (UInt64 ⊕ UInt64)
  Extrinsic := UInt64
  DigestItem := UInt64 ⊕ UInt64
  StorageChanges := Unit
  StateAction := Option Bool
  hash header := header.1 + 1
  parentHash header := header.1
  push header items := (header.1, header.2 ++ items)
  execute := none
  applyChanges _ := some false
  skipExecutionChecks action := action = some true
  importsState _ := false

/-- The slot a plain header claims. -/
def plainSlot? (digest : List (UInt64 ⊕ UInt64)) : Option UInt64 := digest.findSome? Sum.getLeft?

/-- Authorities take turns, and whoever has a key can sign with it. -/
def plainStandalone : Standalone plainBlocks UInt64 (List UInt64) where
  slotFromTimestamp time duration := if duration = 0 then none else some (time / duration)
  preDigest slot := .inl slot
  claimSlot slot authorities keystore :=
    authorities[slot.toNat % authorities.length]?.filter (· ∈ keystore)
  sealHash _ author keystore :=
    if author ∈ keystore then .ok (.inr author) else .error "Signing error"
  checkHeaderSlotAndSeal slotNow header authorities :=
    match header.2.getLast? with
    | none => .error .unsealed
    | some (.inl _) => .error .badSeal
    | some (.inr signer) =>
        match plainSlot? header.2.dropLast with
        | none => .error .invalidPreDigest
        | some slot =>
            if slotNow < slot then .error (.deferred header slot)
            else
              match authorities[slot.toNat % authorities.length]? with
              | none => .error .slotAuthorNotFound
              | some author =>
                  if author = signer then .ok ((header.1, header.2.dropLast), slot, .inr signer)
                  else .error .badSignature

end OnDemand.Client
