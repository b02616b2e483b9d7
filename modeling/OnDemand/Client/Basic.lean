/-
# The relay-chain-driven collator

`run` (`client/consensus/on-demand-aura/src/collators/basic.rs`): for each
collation request, claim the slot of the relay parent, and build one block for
it.  What the task reads during a request comes with the request (`Request`), and
the machine (`basicCollator`) keeps the two registers of the loop, the slot and
the relay block processed last.

A request with a claim is passed over when its slot is not above the last one and
its relay parent is: *one block per slot per relay chain fork*.
That guard is a gate of the machine (`basicCollator_gate`), so that while relay
parents go up, slots go up, and no slot is answered twice
(`slots_increase_on_fork`).  `collations_verify` follows the collations to the rest of the network:
whatever the loop answers with, another node of the same authorities accepts.
-/

import OnDemand.Base.Gate
import OnDemand.Client.Collator

namespace OnDemand.Client

variable {B : BlockT} {Pub Keystore : Type}

/-- The header of a relay parent: its number, and what
`relay_slot_and_timestamp` makes of it. -/
structure RelayParent where
  number : UInt32
  slotAndTimestamp : Option (UInt64 × UInt64)

/-- A collation request, with what is read while it is served. -/
structure Request (B : BlockT) (Pub : Type) where
  relayParent : H256
  validationData : PersistedValidationData
  /-- `Block::Header::decode`. -/
  decodeHeader : List UInt8 → Option B.Header
  checkBlockStatus : B.Hash → B.Header → Bool
  /-- The runtime's code at a block. -/
  code : B.Hash → Option (List UInt8)
  relayHeader : H256 → Except String (Option RelayParent)
  slotDuration : B.Hash → Except String UInt64
  authorities : B.Hash → Except String (List Pub)
  authoring : Authoring B

/-- What stays the same along the loop. -/
structure Params (B : BlockT) (Pub Keystore : Type) where
  standalone : Standalone B Pub Keystore
  keystore : Keystore
  paraId : ParaId
  authoringDuration : ℕ
  /-- `cfg!(feature = "full-pov-size")`. -/
  fullPovSize : Bool

/-- The registers of the loop. -/
structure Registers where
  lastProcessedSlot : UInt64
  lastRelayChainBlock : UInt32
  deriving DecidableEq

/-- A request that was served to its end, with the collation if there was a
proposal. -/
structure Processed (B : BlockT) (Pub : Type) where
  request : Request B Pub
  parentHeader : B.Header
  number : UInt32
  claim : SlotClaim B Pub
  collation : Option (request.authoring.Collation × Built request.authoring × B.Hash)

/-- How the loop gives up on a request. -/
inductive Refusal where
  /-- `continue`, without an answer. -/
  | dropped
  /-- `request.complete(None)`, after an error. -/
  | rejected
  deriving DecidableEq

/-- How a request ends. -/
inductive Answer (B : BlockT) (Pub : Type) where
  | refused (r : Refusal)
  /-- `request.complete(_)`, at the end of the loop's body. -/
  | processed (p : Processed B Pub)

/-- The body of the loop up to the claim: the parent's header, the relay
parent's number and the claim.  `none` is a panic. -/
def claimOf (params : Params B Pub Keystore) (request : Request B Pub) :
    Option (Except Refusal (B.Header × UInt32 × SlotClaim B Pub)) :=
  match request.decodeHeader request.validationData.parentHead with
  | none => some (.error .rejected)
  | some parentHeader =>
      let parentHash := B.hash parentHeader
      if request.checkBlockStatus parentHash parentHeader = false then some (.error .dropped)
      else
        match request.code parentHash, request.relayHeader request.relayParent with
        | none, _ => some (.error .dropped)
        | some _, .error _ => some (.error .rejected)
        | some _, .ok none => some (.error .dropped)
        | some _, .ok (some relayParent) =>
            match request.slotDuration parentHash with
            | .error _ => some (.error .rejected)
            | .ok slotDuration =>
                match claimSlot params.standalone (request.authorities parentHash)
                    relayParent.slotAndTimestamp slotDuration params.keystore with
                | none => none
                | some (.error _) => some (.error .rejected)
                | some (.ok none) => some (.error .dropped)
                | some (.ok (some claim)) => some (.ok (parentHeader, relayParent.number, claim))

/-- The limit on the size of the block: half of what the relay chain takes,
unless told otherwise. -/
def Params.allowedPovSize (params : Params B Pub Keystore) (validationData : PersistedValidationData) :
    UInt64 :=
  if params.fullPovSize then validationData.maxPovSize.toUInt64
  else (validationData.maxPovSize / 2).toUInt64

/-- The body of the loop from the guard on. -/
def author (params : Params B Pub Keystore) (request : Request B Pub) (parentHeader : B.Header)
    (number : UInt32) (claim : SlotClaim B Pub) : Option (Except Refusal (Processed B Pub)) :=
  match createInherentData request.authoring params.paraId request.relayParent
      request.validationData (B.hash parentHeader) (some claim.timestamp) with
  | .error _ => some (.error .rejected)
  | .ok inherentData =>
      match collate params.standalone request.authoring params.keystore parentHeader claim none
          inherentData params.authoringDuration (params.allowedPovSize request.validationData) with
      | none => none
      | some (.error _) => some (.error .rejected)
      | some (.ok collation) => some (.ok ⟨request, parentHeader, number, claim, collation⟩)

/-- One turn of the loop.  `none` is a panic. -/
def process (params : Params B Pub Keystore) (s : Registers) (request : Request B Pub) :
    Option (Registers × Answer B Pub) :=
  match claimOf params request with
  | none => none
  | some (.error refusal) => some (s, .refused refusal)
  | some (.ok (parentHeader, number, claim)) =>
      if claim.slot ≤ s.lastProcessedSlot ∧ s.lastRelayChainBlock < number then
        some (s, .refused .dropped)
      else
        match author params request parentHeader number claim with
        | none => none
        | some (.error refusal) => some (s, .refused refusal)
        | some (.ok processed) => some (⟨claim.slot, number⟩, .processed processed)

/-- The state of the task. -/
structure Loop where
  registers : Registers
  panicked : Bool

/-- The loop as it starts. -/
def Loop.start : Loop := ⟨⟨0, 0⟩, false⟩

/-- The loop over the requests it receives. -/
def basicCollator (params : Params B Pub Keystore) :
    Transducer Loop (Request B Pub) (Answer B Pub) where
  step s request :=
    if s.panicked then (s, [])
    else
      match process params s.registers request with
      | none => ({ s with panicked := true }, [])
      | some (registers, answer) => ({ s with registers := registers }, [answer])

/-- The request served to its end. -/
def Answer.processed? : Answer B Pub → Option (Processed B Pub)
  | .refused _ => none
  | .processed p => some p

/-- The slot and the relay block of a processed request. -/
def Processed.registers (p : Processed B Pub) : Registers := ⟨p.claim.slot, p.number⟩

/-! ### One turn -/

variable {params : Params B Pub Keystore}

/-- A processed request has its claim, was let through by the guard, and sets
the registers. -/
structure Served (params : Params B Pub Keystore) (s s' : Registers) (request : Request B Pub)
    (p : Processed B Pub) : Prop where
  sameRequest : p.request = request
  claimed : claimOf params request = some (.ok (p.parentHeader, p.number, p.claim))
  authored : author params request p.parentHeader p.number p.claim = some (.ok p)
  guard : s.lastProcessedSlot < p.claim.slot ∨ p.number ≤ s.lastRelayChainBlock
  registers : s' = p.registers

/-- What is authored is for the request, on its parent and for its claim. -/
theorem author_eq_ok {request : Request B Pub} {parentHeader : B.Header} {number : UInt32}
    {claim : SlotClaim B Pub} {p : Processed B Pub}
    (h : author params request parentHeader number claim = some (.ok p)) :
    p.request = request ∧ p.parentHeader = parentHeader ∧ p.number = number ∧ p.claim = claim := by
  unfold author at h
  split at h
  · cases h
  · split at h
    · cases h
    · cases h
    · obtain rfl := Except.ok.inj (Option.some.inj h)
      exact ⟨rfl, rfl, rfl, rfl⟩

/-- **One turn of the loop** leaves the registers alone, or serves the request
to its end. -/
theorem process_cases {s s' : Registers} {request : Request B Pub} {answer : Answer B Pub}
    (h : process params s request = some (s', answer)) :
    (s' = s ∧ ∃ refusal, answer = .refused refusal) ∨
      ∃ p, answer = .processed p ∧ Served params s s' request p := by
  unfold process at h
  split at h
  · cases h
  · obtain ⟨rfl, rfl⟩ := Prod.mk.inj (Option.some.inj h)
    exact Or.inl ⟨rfl, _, rfl⟩
  · rename_i parentHeader number claim hclaim
    split at h
    · obtain ⟨rfl, rfl⟩ := Prod.mk.inj (Option.some.inj h)
      exact Or.inl ⟨rfl, _, rfl⟩
    · rename_i hguard
      split at h
      · cases h
      · obtain ⟨rfl, rfl⟩ := Prod.mk.inj (Option.some.inj h)
        exact Or.inl ⟨rfl, _, rfl⟩
      · rename_i p hauthor
        obtain ⟨rfl, rfl⟩ := Prod.mk.inj (Option.some.inj h)
        obtain ⟨hrequest, rfl, rfl, rfl⟩ := author_eq_ok hauthor
        refine Or.inr ⟨p, rfl, hrequest, hclaim, hauthor, ?_, rfl⟩
        rcases not_and_or.mp hguard with hslot | hnumber
        · exact Or.inl (UInt64.not_le.mp hslot)
        · exact Or.inr (UInt32.not_lt.mp hnumber)

/-! ### Every run -/

/-- The guard, between the registers and a request. -/
def Registers.Admits (s t : Registers) : Prop :=
  s.lastProcessedSlot < t.lastProcessedSlot ∨ t.lastRelayChainBlock ≤ s.lastRelayChainBlock

/-- **The guard is a gate**: the registers are those of the last request served
to its end. -/
theorem basicCollator_gate (params : Params B Pub Keystore) :
    (basicCollator params).Gate Loop.registers
      (fun answer => answer.processed?.map Processed.registers) Registers.Admits where
  step s request := by
    cases hpanic : s.panicked with
    | true =>
        refine Or.inl ?_
        simp [Transducer.emit, Transducer.next, basicCollator, hpanic]
    | false =>
        cases hprocess : process params s.registers request with
        | none =>
            refine Or.inl ?_
            simp [Transducer.emit, Transducer.next, basicCollator, hpanic, hprocess]
        | some result =>
            obtain ⟨registers, answer⟩ := result
            have hemit : (basicCollator params).emit s request = [answer] := by
              simp [Transducer.emit, basicCollator, hpanic, hprocess]
            have hnext : ((basicCollator params).next s request).registers = registers := by
              simp [Transducer.next, basicCollator, hpanic, hprocess]
            rw [hemit, hnext]
            rcases process_cases hprocess with ⟨rfl, refusal, rfl⟩ | ⟨p, rfl, hserved⟩
            · exact Or.inl ⟨rfl, rfl⟩
            · refine Or.inr ⟨p.registers, rfl, hserved.guard, hserved.registers⟩

/-- A request the machine answers as served to its end was. -/
theorem served_of_emit {s : Loop} {request : Request B Pub} {p : Processed B Pub}
    (h : .processed p ∈ (basicCollator params).emit s request) :
    ∃ s', Served params s.registers s' request p := by
  unfold Transducer.emit basicCollator at h
  dsimp only at h
  split at h
  · cases h
  · split at h
    · cases h
    · rename_i registers answer hprocess
      obtain rfl := List.mem_singleton.mp h
      rcases process_cases hprocess with ⟨-, refusal, hrefused⟩ | ⟨q, hq, hserved⟩
      · cases hrefused
      · obtain rfl := Answer.processed.inj hq
        exact ⟨registers, hserved⟩

/-- The slots and relay blocks of the requests served, in order. -/
def served (answers : List (Answer B Pub)) : List Registers :=
  answers.filterMap fun answer => answer.processed?.map Processed.registers

/-- **One answer per slot per fork.**  In any run, on any stretch of the requests
served in which the relay block goes up from one to the next, slots go up: no two
of them are for the same slot. -/
theorem slots_increase_on_fork (params : Params B Pub Keystore) (requests : List (Request B Pub))
    (fork : List Registers)
    (hserved : fork <:+: served ((basicCollator params).outputs Loop.start requests))
    (hfork : fork.IsChain fun a b => a.lastRelayChainBlock < b.lastRelayChainBlock) :
    fork.Pairwise fun a b => a.lastProcessedSlot < b.lastProcessedSlot := by
  have : Trans (fun a b : Registers => a.lastProcessedSlot < b.lastProcessedSlot)
      (fun a b : Registers => a.lastProcessedSlot < b.lastProcessedSlot)
      (fun a b : Registers => a.lastProcessedSlot < b.lastProcessedSlot) :=
    ⟨fun hab hbc => UInt64.lt_trans hab hbc⟩
  refine (basicCollator_gate params).pairwise_of_stretch ?_ (List.infix_cons hserved) hfork
  intro a b hguard hup
  rcases hguard with hslot | hnumber
  · exact hslot
  · exact absurd hup (UInt32.not_lt.mpr hnumber)

/-- A collator with key 6. -/
def plainParams : Params plainBlocks UInt64 (List UInt64) where
  standalone := plainStandalone
  keystore := [6]
  paraId := 2000
  authoringDuration := 500
  fullPovSize := false

/-- A request for the parent 3, at a relay parent of a number and a time in
milliseconds, with slots of ten. -/
def plainRequest (number : UInt32) (time : UInt64) : Request plainBlocks UInt64 where
  relayParent := .replicate 0
  validationData := ⟨[], number, .replicate 0, 100⟩
  decodeHeader _ := some (3, [])
  checkBlockStatus _ _ := true
  code _ := some []
  relayHeader _ := .ok (some ⟨number, some (0, time)⟩)
  slotDuration _ := .ok 10
  authorities _ := .ok [5, 6]
  authoring := plainAuthoring

/-- Of three relay parents going up, two in slot 7 and one in slot 9, the first
and the last are served. -/
theorem slots_increase_on_fork_three :
    served ((basicCollator plainParams).outputs Loop.start
      [plainRequest 1 72, plainRequest 2 78, plainRequest 3 90]) = [⟨7, 1⟩, ⟨9, 3⟩] ∧
    [(⟨7, 1⟩ : Registers), ⟨9, 3⟩].Pairwise fun a b => a.lastProcessedSlot < b.lastProcessedSlot := by
  have hserved : served ((basicCollator plainParams).outputs Loop.start
      [plainRequest 1 72, plainRequest 2 78, plainRequest 3 90]) = [⟨7, 1⟩, ⟨9, 3⟩] := rfl
  refine ⟨hserved, slots_increase_on_fork plainParams
    [plainRequest 1 72, plainRequest 2 78, plainRequest 3 90] _ ?_ ?_⟩
  · rw [hserved]
  · exact List.isChain_pair.mpr (by decide)

/-! ### The collations of a run -/

/-- What a claim of the loop rests on. -/
theorem claimOf_eq_ok {request : Request B Pub} {parentHeader : B.Header} {number : UInt32}
    {claim : SlotClaim B Pub} (h : claimOf params request = some (.ok (parentHeader, number, claim))) :
    ∃ authorities, request.authorities (B.hash parentHeader) = .ok authorities ∧
      params.standalone.claimSlot claim.slot authorities params.keystore = some claim.authorPub ∧
      claim.preDigest = params.standalone.preDigest claim.slot := by
  unfold claimOf at h
  split at h
  · cases h
  · dsimp only at h
    split at h
    · cases h
    · split at h
      · cases h
      · cases h
      · cases h
      · split at h
        · cases h
        · split at h
          · cases h
          · cases h
          · cases h
          · rename_i hclaim
            obtain ⟨rfl, -, rfl⟩ : _ = parentHeader ∧ _ = number ∧ _ = claim := by simpa using h
            obtain ⟨authorities, -, hauth, -, -, hauthor, hdigest⟩ := claimSlot_eq_some hclaim
            exact ⟨authorities, hauth, hauthor, hdigest⟩

/-- What a collation of the loop is of. -/
theorem author_made {request : Request B Pub} {parentHeader : B.Header} {number : UInt32}
    {claim : SlotClaim B Pub} {p : Processed B Pub}
    (h : author params request parentHeader number claim = some (.ok p))
    {collation : p.request.authoring.Collation} {built : Built p.request.authoring} {hash : B.Hash}
    (hcollation : p.collation = some (collation, built, hash)) :
    Made params.standalone p.request.authoring params.keystore parentHeader claim [] built ∧
      hash = B.hash built.block.1 := by
  unfold author at h
  split at h
  · cases h
  · rename_i inherentData _
    obtain ⟨result, hresult, hspec⟩ := collate_spec params.standalone request.authoring
      params.keystore parentHeader claim none inherentData params.authoringDuration
      (params.allowedPovSize request.validationData)
    rw [hresult] at h
    split at h
    · rename_i hnone
      cases hnone
    · cases h
    · rename_i found hfound
      obtain rfl := Except.ok.inj (Option.some.inj h)
      obtain rfl := Option.some.inj hfound
      have hmade := hspec collation built hash (congrArg Except.ok hcollation)
      exact ⟨hmade.1, hmade.2.1⟩

/-- **The network accepts what the loop answers with.**  Let a run of the loop
answer a request with a collation, and let the block come to another node that
has the same authorities at the parent, whose clock has reached the slot, that has
not seen too many blocks of the slot and that finds the inherents good.  The node
accepts the block: it takes the seal off the header and imports the header, seal
and body the author imported, under the hash the author announced. -/
theorem collations_verify {L : LruMap UInt64 ℕ} {limit : L.Map → ℕ}
    {entries : L.Map → List (UInt64 × ℕ)} (hL : L.Lawful limit entries)
    (requests : List (Request B Pub)) (p : Processed B Pub)
    (hp : .processed p ∈ (basicCollator params).outputs Loop.start requests)
    (collation : p.request.authoring.Collation) (built : Built p.request.authoring) (hash : B.Hash)
    (hcollation : p.collation = some (collation, built, hash)) (claims : B.Header → UInt64 → Prop)
    (hsound : Sound params.standalone p.request.authoring claims)
    (imports : List (Import B Pub)) (hpanic : ∀ i ∈ imports, ¬ i.Panics params.standalone)
    (r : Reads B Pub)
    (hauth : r.fetchAuthorities (B.hash p.parentHeader) = p.request.authorities (B.hash p.parentHeader))
    (slotDuration slotNow : UInt64) (hduration : r.slotDuration (B.hash p.parentHeader) = .ok slotDuration)
    (hnow : params.standalone.slotFromTimestamp r.now slotDuration = some slotNow)
    (hslot : p.claim.slot ≤ slotNow)
    (hlimit : ¬ NaiveEquivocationDefender.Exceeded (sealedSlots params.standalone imports) p.claim.slot)
    (hbody : checkBody r (B.hash p.parentHeader) { built.imported with
      origin := .networkBroadcast
      stateAction := B.execute
      postHash := some hash } = .ok ()) :
    ∃ defender defender',
      (verifier params.standalone L).run (Verifier.start L) imports = some defender ∧
      verify params.standalone r defender (received built.block) = some (.ok { built.imported with
        origin := .networkBroadcast
        stateAction := B.execute
        postHash := some hash }, defender') := by
  obtain ⟨before, request, after, -, hemit⟩ := (basicCollator params).exists_of_mem_outputs hp
  obtain ⟨s', hserved⟩ := served_of_emit hemit
  obtain ⟨authorities, hread, hauthor, hdigest⟩ := claimOf_eq_ok hserved.claimed
  obtain ⟨hmade, rfl⟩ := author_made hserved.authored hcollation
  rw [hserved.sameRequest, hread] at hauth
  obtain ⟨hskip, hparent, hseal⟩ := checkSeal_of_made hsound hmade hdigest hauthor hauth hduration
    hnow hslot
  obtain ⟨defender, hrun, hanswers⟩ := verifier_answers (A := params.standalone) hL imports hpanic
  obtain ⟨defender', hverify⟩ := (hanswers ⟨r, received built.block⟩ _).mpr
    ((result?_eq_ok_iff _ _ _).mpr
      (Or.inr ⟨hskip, _, hseal, hlimit, by rw [hparent]; exact hbody⟩))
  exact ⟨defender, defender', hrun, hverify⟩

/-- What the plain collator makes of a request in slot 7. -/
def plainBuilt : Built plainAuthoring where
  imported :=
    { origin := .own
      header := (4, [.inl 7])
      postDigests := [.inr 6]
      body := some []
      stateAction := some false
      forkChoice := some .longestChain
      postHash := none }
  block := ((4, [.inl 7, .inr 6]), [])
  proof := ()

/-- Another node of the same authorities accepts the plain collator's
block. -/
theorem collations_verify_plain :
    ∃ defender', verify plainStandalone plainImport.reads
      (NaiveEquivocationDefender.default (listLruMap UInt64 ℕ)) (received plainBuilt.block) =
        some (.ok { plainBuilt.imported with
          origin := .networkBroadcast
          stateAction := plainBlocks.execute
          postHash := some (5 : UInt64) }, defender') := by
  have hp : .processed ⟨plainRequest 1 72, (3, []), 1, ⟨6, .inl 7, 7, 72⟩,
      some ((5 : UInt64), plainBuilt, (5 : UInt64))⟩ ∈
        (basicCollator plainParams).outputs Loop.start [plainRequest 1 72] :=
    List.mem_singleton.mpr rfl
  obtain ⟨defender, defender', hrun, hverify⟩ := collations_verify
    (listLruMap_lawful UInt64 ℕ) [plainRequest 1 72] _ hp (5 : UInt64) plainBuilt (5 : UInt64) rfl
    (fun header slot => plainSlot? header.2 = some slot) plain_sound [] (by simp)
    plainImport.reads rfl 10 9 rfl rfl (by decide)
    (by rintro ⟨before, after, h, -⟩; cases before <;> cases h) rfl
  obtain rfl := Option.some.inj hrun
  exact ⟨defender', hverify⟩

end OnDemand.Client
