/-
# Claiming, building and sealing

`client/consensus/on-demand-aura/src/collator.rs`: how a collator claims the
slot of a relay parent, makes the inherent data of its block, proposes the block,
seals it and imports it, and packs it into a collation.

The proposer, the import and the collator service are other code, with their
answers in `Authoring`.  `collate_spec` is what a collation is of: a block
made for the claim (`Made`).  `checkSeal_of_made` follows that block to another
node: the header carries the proposal's digest and the seal, so a node that has
the same authorities and is not behind the slot takes the seal off again and goes
on with what the author imported.
-/

import OnDemand.Client.Verifier
import OnDemand.Primitives.InherentData

namespace OnDemand.Client

variable {B : BlockT} {Pub Keystore : Type}

/-! ### Inherent data -/

/-- `sp_timestamp::INHERENT_IDENTIFIER`, the bytes of `"timstap0"`. -/
def timestampIdentifier : List UInt8 := [0x74, 0x69, 0x6d, 0x73, 0x74, 0x61, 0x70, 0x30]

/-- What the collator is given to build with, and what it answers, during one
request. -/
structure Authoring (B : BlockT) where
  inherents : Inherents
  /-- `Encode` and `Decode` of a `Timestamp`. -/
  timestampCodec : Codec UInt8 UInt64
  Paras : Type
  Proof : Type
  Collation : Type
  /-- `ParachainInherentDataProvider::create_at`. -/
  createAt : H256 → PersistedValidationData → ParaId → Option Paras
  /-- `create_inherent_data_providers` and then `create_inherent_data`. -/
  createInherentData : B.Hash → Except String inherents.Data
  /-- `Proposer::propose`: the block, its storage changes and its proof. -/
  propose : B.Header → Paras → inherents.Data → List B.DigestItem → ℕ → Option UInt64 →
    Except String (Option ((B.Header × List B.Extrinsic) × B.StorageChanges × Proof))
  /-- `BlockImport::import_block`. -/
  importBlock : BlockImportParams B → Except String Unit
  /-- `CollatorServiceInterface::build_collation`. -/
  buildCollation : B.Header → B.Hash → (B.Header × List B.Extrinsic) × Proof → Option Collation

/-- Why no block was built. -/
inductive CollatorError where
  /-- `"Could not create paras inherent data at {relay_parent}"`. -/
  | parasInherentData (relayParent : H256)
  /-- `"Unable to produce collation"`. -/
  | noCollation
  | other (e : String)
  deriving DecidableEq

/-- `Collator::create_inherent_data`. -/
def createInherentData (w : Authoring B) (paraId : ParaId) (relayParent : H256)
    (validationData : PersistedValidationData) (parentHash : B.Hash) (timestamp : Option UInt64) :
    Except CollatorError (w.Paras × w.inherents.Data) :=
  match w.createAt relayParent validationData paraId with
  | none => .error (.parasInherentData relayParent)
  | some paras =>
      match w.createInherentData parentHash with
      | .error e => .error (.other e)
      | .ok data =>
          match timestamp with
          | none => .ok (paras, data)
          | some timestamp =>
              .ok (paras,
                w.inherents.replaceData w.timestampCodec data timestampIdentifier timestamp)

/-! ### Slots -/

/-- `SlotClaim`. -/
structure SlotClaim (B : BlockT) (Pub : Type) where
  authorPub : Pub
  preDigest : B.DigestItem
  slot : UInt64
  timestamp : UInt64

/-- `SlotClaim::unchecked`. -/
def SlotClaim.unchecked (A : Standalone B Pub Keystore) (authorPub : Pub) (slot timestamp : UInt64) :
    SlotClaim B Pub where
  authorPub := authorPub
  preDigest := A.preDigest slot
  slot := slot
  timestamp := timestamp

/-- `claim_slot`, of what `authorities` returns at the parent and of the slot
and time of the relay parent (`relay_slot_and_timestamp`).  `none` is the panic
of a slot duration of zero. -/
def claimSlot (A : Standalone B Pub Keystore) (authorities : Except String (List Pub))
    (relaySlotAndTimestamp : Option (UInt64 × UInt64)) (slotDuration : UInt64) (keystore : Keystore) :
    Option (Except String (Option (SlotClaim B Pub))) :=
  match authorities with
  | .error e => some (.error e)
  | .ok authorities =>
      match relaySlotAndTimestamp with
      | none => some (.ok none)
      | some (_, timestamp) =>
          match A.slotFromTimestamp timestamp slotDuration with
          | none => none
          | some slotNow =>
              match A.claimSlot slotNow authorities keystore with
              | none => some (.ok none)
              | some authorPub => some (.ok (some (.unchecked A authorPub slotNow timestamp)))

/-- What a claim is worth: the slot is that of the relay parent's time, and the
key is the one that may author it. -/
theorem claimSlot_eq_some {A : Standalone B Pub Keystore} {authorities : Except String (List Pub)}
    {relaySlotAndTimestamp : Option (UInt64 × UInt64)} {slotDuration : UInt64} {keystore : Keystore}
    {claim : SlotClaim B Pub}
    (h : claimSlot A authorities relaySlotAndTimestamp slotDuration keystore =
      some (.ok (some claim))) :
    ∃ list relaySlot, authorities = .ok list ∧
      relaySlotAndTimestamp = some (relaySlot, claim.timestamp) ∧
      A.slotFromTimestamp claim.timestamp slotDuration = some claim.slot ∧
      A.claimSlot claim.slot list keystore = some claim.authorPub ∧
      claim.preDigest = A.preDigest claim.slot := by
  unfold claimSlot at h
  split at h
  · cases h
  · rename_i list
    split at h
    · cases h
    · rename_i relaySlot timestamp
      split at h
      · cases h
      · rename_i slotNow hslot
        split at h
        · cases h
        · rename_i authorPub hauthor
          obtain rfl := Option.some.inj (Except.ok.inj (Option.some.inj h))
          exact ⟨list, relaySlot, rfl, rfl, hslot, hauthor, rfl⟩

/-! ### Blocks -/

/-- `seal`: the parameters of the import of a block of one's own. -/
def sealBlock (A : Standalone B Pub Keystore) (preSealed : B.Header × List B.Extrinsic)
    (storageChanges : B.StorageChanges) (authorPub : Pub) (keystore : Keystore) :
    Except String (BlockImportParams B) :=
  match A.sealHash (B.hash preSealed.1) authorPub keystore with
  | .error e => .error e
  | .ok sealDigest =>
      .ok { BlockImportParams.new .own preSealed.1 with
        postDigests := [sealDigest]
        body := some preSealed.2
        stateAction := B.applyChanges storageChanges
        forkChoice := some .longestChain }

/-- A block that was built: what was imported, and the candidate. -/
structure Built (w : Authoring B) where
  imported : BlockImportParams B
  block : B.Header × List B.Extrinsic
  proof : w.Proof

/-- `Collator::build_block_and_import`.  `none` is the panic of its `expect`. -/
def buildBlockAndImport (A : Standalone B Pub Keystore) (w : Authoring B) (keystore : Keystore)
    (parentHeader : B.Header) (slotClaim : SlotClaim B Pub)
    (additionalPreDigest : Option (List B.DigestItem)) (inherentData : w.Paras × w.inherents.Data)
    (proposalDuration : ℕ) (maxPovSize : UInt64) :
    Option (Except CollatorError (Option (Built w))) :=
  let digest := additionalPreDigest.getD [] ++ [slotClaim.preDigest]
  match w.propose parentHeader inherentData.1 inherentData.2 digest proposalDuration
      (some maxPovSize) with
  | .error e => some (.error (.other e))
  | .ok none => some (.ok none)
  | .ok (some (block, storageChanges, proof)) =>
      match sealBlock A block storageChanges slotClaim.authorPub keystore with
      | .error e => some (.error (.other e))
      | .ok sealedImportable =>
          match sealedImportable.body with
          | none => none
          | some body =>
              match w.importBlock sealedImportable with
              | .error e => some (.error (.other e))
              | .ok () =>
                  some (.ok (some ⟨sealedImportable, (sealedImportable.postHeader, body), proof⟩))

/-- `Collator::collate`: the collation, the block it is of and the block's
hash. -/
def collate (A : Standalone B Pub Keystore) (w : Authoring B) (keystore : Keystore)
    (parentHeader : B.Header) (slotClaim : SlotClaim B Pub)
    (additionalPreDigest : Option (List B.DigestItem)) (inherentData : w.Paras × w.inherents.Data)
    (proposalDuration : ℕ) (maxPovSize : UInt64) :
    Option (Except CollatorError (Option (w.Collation × Built w × B.Hash))) :=
  match buildBlockAndImport A w keystore parentHeader slotClaim additionalPreDigest inherentData
      proposalDuration maxPovSize with
  | none => none
  | some (.error e) => some (.error e)
  | some (.ok none) => some (.ok none)
  | some (.ok (some built)) =>
      let hash := B.hash built.block.1
      match w.buildCollation parentHeader hash (built.block, built.proof) with
      | none => some (.error .noCollation)
      | some collation => some (.ok (some (collation, built, hash)))

/-- A block made for a claim: proposed with the claim's digest, sealed with its
key, imported and announced as one. -/
structure Made (A : Standalone B Pub Keystore) (w : Authoring B) (keystore : Keystore)
    (parentHeader : B.Header) (claim : SlotClaim B Pub) (additionalPreDigest : List B.DigestItem)
    (built : Built w) : Prop where
  proposed : ∃ paras data duration size changes, w.propose parentHeader paras data
    (additionalPreDigest ++ [claim.preDigest]) duration size =
      .ok (some ((built.imported.header, built.block.2), changes, built.proof)) ∧
    built.imported.stateAction = B.applyChanges changes
  sealed : ∃ item, A.sealHash (B.hash built.imported.header) claim.authorPub keystore = .ok item ∧
    built.imported.postDigests = [item] ∧ built.block.1 = B.push built.imported.header [item]
  imported : w.importBlock built.imported = .ok ()
  body : built.imported.body = some built.block.2
  origin : built.imported.origin = .own
  forkChoice : built.imported.forkChoice = some .longestChain
  postHash : built.imported.postHash = none

/-- **Building never panics**, and a block that is built was made for the
claim. -/
theorem buildBlockAndImport_spec (A : Standalone B Pub Keystore) (w : Authoring B)
    (keystore : Keystore) (parentHeader : B.Header) (claim : SlotClaim B Pub)
    (additional : Option (List B.DigestItem)) (inherentData : w.Paras × w.inherents.Data)
    (duration : ℕ) (size : UInt64) :
    ∃ result, buildBlockAndImport A w keystore parentHeader claim additional inherentData duration
        size = some result ∧
      ∀ built, result = .ok (some built) →
        Made A w keystore parentHeader claim (additional.getD []) built := by
  unfold buildBlockAndImport sealBlock
  dsimp only
  split
  · exact ⟨_, rfl, nofun⟩
  · exact ⟨_, rfl, nofun⟩
  · rename_i block changes proof hpropose
    cases hseal : A.sealHash (B.hash block.1) claim.authorPub keystore with
    | error e => exact ⟨_, rfl, nofun⟩
    | ok item =>
        dsimp only
        split
        · exact ⟨_, rfl, nofun⟩
        · rename_i himport
          refine ⟨_, rfl, ?_⟩
          rintro built hbuilt
          obtain rfl := Option.some.inj (Except.ok.inj hbuilt)
          exact
            { proposed := ⟨_, _, _, _, changes, hpropose, rfl⟩
              sealed := ⟨item, hseal, rfl, rfl⟩
              imported := himport
              body := rfl
              origin := rfl
              forkChoice := rfl
              postHash := rfl }

/-- `collate` never panics, and a collation is of a block made for the claim,
with its hash. -/
theorem collate_spec (A : Standalone B Pub Keystore) (w : Authoring B) (keystore : Keystore)
    (parentHeader : B.Header) (claim : SlotClaim B Pub) (additional : Option (List B.DigestItem))
    (inherentData : w.Paras × w.inherents.Data) (duration : ℕ) (size : UInt64) :
    ∃ result, collate A w keystore parentHeader claim additional inherentData duration size =
        some result ∧
      ∀ collation built hash, result = .ok (some (collation, built, hash)) →
        Made A w keystore parentHeader claim (additional.getD []) built ∧
        hash = B.hash built.block.1 ∧
        w.buildCollation parentHeader hash (built.block, built.proof) = some collation := by
  obtain ⟨result, hbuild, hmade⟩ := buildBlockAndImport_spec A w keystore parentHeader claim additional
    inherentData duration size
  unfold collate
  rw [hbuild]
  split
  · rename_i h
    cases h
  · exact ⟨_, rfl, nofun⟩
  · exact ⟨_, rfl, nofun⟩
  · rename_i built h
    dsimp only
    split
    · exact ⟨_, rfl, nofun⟩
    · rename_i collation hcollation
      refine ⟨_, rfl, ?_⟩
      intro collation' built' hash h'
      obtain ⟨rfl, rfl, rfl⟩ : collation = collation' ∧ built = built' ∧ _ = hash := by
        simpa using h'
      exact ⟨hmade _ (Option.some.inj h), rfl, hcollation⟩

/-! ### At another node -/

/-- What is relied on of AURA's crate, the block type and the proposer, where
`claims header slot` says that the slot is the one a header's digest
claims. -/
structure Sound (A : Standalone B Pub Keystore) (w : Authoring B)
    (claims : B.Header → UInt64 → Prop) : Prop where
  /-- Executing a block is no reason to skip its checks. -/
  execute : B.skipExecutionChecks B.execute = false ∧ B.importsState B.execute = false
  parentHash_push : ∀ header items, B.parentHash (B.push header items) = B.parentHash header
  /-- A seal by the author of the slot is good, and comes off the header. -/
  checkHeaderSlotAndSeal : ∀ slot slotNow authorities keystore author header item,
    A.claimSlot slot authorities keystore = some author → claims header slot → slot ≤ slotNow →
    A.sealHash (B.hash header) author keystore = .ok item →
    A.checkHeaderSlotAndSeal slotNow (B.push header [item]) authorities = .ok (header, slot, item)
  /-- A proposal is on its parent and keeps the digest it is given. -/
  propose : ∀ parent paras data slot duration size header body changes proof,
    w.propose parent paras data [A.preDigest slot] duration size =
      .ok (some ((header, body), changes, proof)) →
    B.parentHash header = B.hash parent ∧ claims header slot

/-- A block as another node gets it from the network. -/
def received (block : B.Header × List B.Extrinsic) : BlockImportParams B :=
  { BlockImportParams.new .networkBroadcast block.1 with body := some block.2 }

/-- **The seal comes off again.**  Another node that has the author's
authorities and has reached its slot goes on with the header, seal and body the
author imported, under the hash the author announced. -/
theorem checkSeal_of_made {A : Standalone B Pub Keystore} {w : Authoring B}
    {claims : B.Header → UInt64 → Prop} (hsound : Sound A w claims) {keystore : Keystore}
    {parentHeader : B.Header} {claim : SlotClaim B Pub} {built : Built w}
    (hmade : Made A w keystore parentHeader claim [] built)
    (hdigest : claim.preDigest = A.preDigest claim.slot) {authorities : List Pub}
    (hclaim : A.claimSlot claim.slot authorities keystore = some claim.authorPub)
    {r : Reads B Pub} (hauth : r.fetchAuthorities (B.hash parentHeader) = .ok authorities)
    {slotDuration slotNow : UInt64} (hduration : r.slotDuration (B.hash parentHeader) = .ok slotDuration)
    (hnow : A.slotFromTimestamp r.now slotDuration = some slotNow) (hslot : claim.slot ≤ slotNow) :
    (received built.block).skipped = false ∧
    B.parentHash (received built.block).header = B.hash parentHeader ∧
    checkSeal A r (received built.block) = some (.ok ({ built.imported with
      origin := .networkBroadcast
      stateAction := B.execute
      postHash := some (B.hash built.block.1) }, claim.slot)) := by
  obtain ⟨paras, data, duration, size, changes, hpropose, -⟩ := hmade.proposed
  obtain ⟨item, hitem, hdigests, hpush⟩ := hmade.sealed
  rw [hdigest, List.nil_append] at hpropose
  obtain ⟨hparent, hclaims⟩ := hsound.propose _ _ _ _ _ _ _ _ _ _ hpropose
  have hcheck := hsound.checkHeaderSlotAndSeal _ slotNow _ _ _ _ _ hclaim hclaims hslot hitem
  rw [← hpush] at hcheck
  have hhead : B.parentHash built.block.1 = B.hash parentHeader := by
    rw [hpush, hsound.parentHash_push, hparent]
  refine ⟨?_, hhead, ?_⟩
  · show (B.skipExecutionChecks B.execute || B.importsState B.execute) = false
    rw [hsound.execute.1, hsound.execute.2]
    rfl
  · unfold checkSeal
    simp only [received, BlockImportParams.new, hhead, hauth, hduration, hnow, hcheck]
    rw [hdigests, hmade.body, hmade.forkChoice]
    rfl

/-- A proposer that puts an empty block with the digest it is given on the
parent. -/
def plainAuthoring : Authoring plainBlocks where
  inherents := plainInherents
  timestampCodec := u64Codec
  Paras := Unit
  Proof := Unit
  Collation := UInt64
  createAt _ _ _ := some ()
  createInherentData _ := .ok plainInherents.new
  propose parent _ _ digest _ _ := .ok (some (((parent.1 + 1, digest), []), (), ()))
  importBlock _ := .ok ()
  buildCollation _ hash _ := some hash

theorem plain_sound :
    Sound plainStandalone plainAuthoring fun header slot => plainSlot? header.2 = some slot where
  execute := ⟨rfl, rfl⟩
  parentHash_push _ _ := rfl
  checkHeaderSlotAndSeal := by
    intro slot slotNow authorities keystore author header item hclaim hslot hle hseal
    obtain ⟨hauthor, hkey⟩ := Option.filter_eq_some_iff.mp hclaim
    have hkey : author ∈ keystore := by simpa using hkey
    have hitem : item = .inr author := by
      have h : (if author ∈ keystore then _ else _) = Except.ok item := hseal
      rw [if_pos hkey] at h
      exact (Except.ok.inj h).symm
    subst hitem
    have hnot : ¬ slotNow < slot := UInt64.not_lt.mpr hle
    simp [plainStandalone, plainBlocks, hslot, hnot, hauthor]
    rfl
  propose := by
    intro parent paras data slot duration size header body changes proof h
    have hproposal := Option.some.inj (Except.ok.inj h)
    obtain ⟨rfl, -⟩ := Prod.mk.inj (Prod.mk.inj hproposal).1
    exact ⟨rfl, rfl⟩

end OnDemand.Client
