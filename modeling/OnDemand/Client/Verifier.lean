/-
# The fully verifying import queue

`Verifier::verify`
(`client/consensus/on-demand-aura/src/equivocation_import_queue.rs`): what a
block from the network has to pass before it is imported.  What it reads of the
client, of the clock and of the inherent data providers comes with the import
(`Reads`), so that it varies freely and fails freely from block to block; the
defender is the state that stays (`verifier`).

The defender is asked after the seal and before the inherents.  So it sees the slots
of the blocks whose seal is good, one for each (`sealedSlots`), whatever becomes of
them afterwards: `verifier_run` reads the state of the queue off them,
`verify_accepts_iff` says which block is accepted after any run, and
`accepted_per_slot_le` bounds how many of one slot are.
-/

import OnDemand.Base.Transducer
import OnDemand.Client.Block
import OnDemand.Client.Equivocation

namespace OnDemand.Client

variable {B : BlockT} {Pub Keystore : Type}

/-- `CheckInherentsResult`. -/
structure CheckInherentsResult where
  okay : Bool
  errors : List (List UInt8 × List UInt8)

/-- What `verify` reads of its surroundings during one import.  The providers
and the data they make stay of any type. -/
structure Reads (B : BlockT) (Pub : Type) where
  Providers : Type
  Data : Type
  /-- `fetch_authorities`. -/
  fetchAuthorities : B.Hash → Except String (List Pub)
  slotDuration : B.Hash → Except String UInt64
  /-- The system time, in milliseconds. -/
  now : UInt64
  createInherentDataProviders : B.Hash → Except String Providers
  createInherentData : Providers → Except String Data
  checkInherents : B.Hash → B.Header × List B.Extrinsic → Data → Except String CheckInherentsResult
  tryHandleError : Providers → List UInt8 → List UInt8 → Option (Except String Unit)

/-- Why a block is rejected. -/
inductive VerifyError (B : BlockT) where
  | fetchAuthorities (parentHash : B.Hash) (e : String)
  | slotDuration (e : String)
  | equivocations (postHash : B.Hash)
  | futureSlot (postHash : B.Hash) (slot : UInt64)
  | invalidSeal (postHash : B.Hash) (e : SealVerificationError B)
  | createInherentData (e : String)
  | checkInherents (e : String)
  | inherent (e : String)
  | unknownInherent (source : List UInt8)

/-- How values are shown in a message. -/
structure Show (B : BlockT) where
  hash : B.Hash → String
  slot : UInt64 → String
  sealError : SealVerificationError B → String
  /-- `String::from_utf8_lossy`. -/
  utf8Lossy : List UInt8 → String

/-- The message `verify` returns. -/
def VerifyError.message (S : Show B) : VerifyError B → String
  | .fetchAuthorities parentHash e => "Could not fetch authorities at " ++ S.hash parentHash ++ ": " ++ e
  | .slotDuration e => e
  | .equivocations postHash =>
      "Rejecting block " ++ S.hash postHash ++ " due to excessive equivocations at slot"
  | .futureSlot postHash slot =>
      "Rejecting block (" ++ S.hash postHash ++ ") from future slot " ++ S.slot slot
  | .invalidSeal postHash e =>
      "Rejecting block (" ++ S.hash postHash ++ ") with invalid seal (" ++ S.sealError e ++ ")"
  | .createInherentData e => "Could not create inherent data " ++ e
  | .checkInherents e => "Unable to check block inherents " ++ e
  | .inherent e => "Inherent Error " ++ e
  | .unknownInherent source => "Unknown inherent error, source " ++ S.utf8Lossy source

/-- Checks that include execution are skipped. -/
def BlockImportParams.skipped (params : BlockImportParams B) : Bool :=
  B.skipExecutionChecks params.stateAction || params.withState

/-- `verify` up to the defender: the parameters with the seal moved out of the
header, and the slot.  `none` is a panic. -/
def checkSeal (A : Standalone B Pub Keystore) (r : Reads B Pub) (params : BlockImportParams B) :
    Option (Except (VerifyError B) (BlockImportParams B × UInt64)) :=
  let postHash := B.hash params.header
  let parentHash := B.parentHash params.header
  match r.fetchAuthorities parentHash with
  | .error e => some (.error (.fetchAuthorities parentHash e))
  | .ok authorities =>
      match r.slotDuration parentHash with
      | .error e => some (.error (.slotDuration e))
      | .ok slotDuration =>
          match A.slotFromTimestamp r.now slotDuration with
          | none => none
          | some slotNow =>
              match A.checkHeaderSlotAndSeal slotNow params.header authorities with
              | .error (.deferred _ slot) => some (.error (.futureSlot postHash slot))
              | .error e => some (.error (.invalidSeal postHash e))
              | .ok (preHeader, slot, sealDigest) =>
                  some (.ok ({ params with
                    header := preHeader
                    postDigests := params.postDigests ++ [sealDigest]
                    forkChoice := some .longestChain
                    postHash := some postHash }, slot))

/-- The loop over the errors of the inherents. -/
def handleErrors (r : Reads B Pub) (providers : r.Providers) :
    List (List UInt8 × List UInt8) → Except (VerifyError B) Unit
  | [] => .ok ()
  | (i, e) :: rest =>
      match r.tryHandleError providers i e with
      | some (.ok ()) => handleErrors r providers rest
      | some (.error err) => .error (.inherent err)
      | none => .error (.unknownInherent i)

/-- `verify` from the defender on. -/
def checkBody (r : Reads B Pub) (parentHash : B.Hash) (params : BlockImportParams B) :
    Except (VerifyError B) Unit :=
  match params.body with
  | none => .ok ()
  | some body => do
      let providers ← (r.createInherentDataProviders parentHash).mapError .createInherentData
      let data ← (r.createInherentData providers).mapError .createInherentData
      let result ← (r.checkInherents parentHash (params.header, body) data).mapError .checkInherents
      if result.okay then .ok () else handleErrors r providers result.errors

/-- `Verifier::verify`, with the defender after it.  `none` is a panic. -/
def verify (A : Standalone B Pub Keystore) {L : LruMap UInt64 ℕ} (r : Reads B Pub)
    (defender : NaiveEquivocationDefender L) (params : BlockImportParams B) :
    Option (Except (VerifyError B) (BlockImportParams B) × NaiveEquivocationDefender L) :=
  if params.skipped then
    some (.ok { params with forkChoice := some (.custom params.withState) }, defender)
  else
    match checkSeal A r params with
    | none => none
    | some (.error e) => some (.error e, defender)
    | some (.ok (params', slot)) =>
        match defender.insertAndCheck slot with
        | none => none
        | some (true, defender) =>
            some (.error (.equivocations (B.hash params.header)), defender)
        | some (false, defender) =>
            match checkBody r (B.parentHash params.header) params' with
            | .error e => some (.error e, defender)
            | .ok () => some (.ok params', defender)

/-! ### A queue over its blocks -/

/-- A block given to the queue, with what `verify` reads meanwhile. -/
structure Import (B : BlockT) (Pub : Type) where
  reads : Reads B Pub
  params : BlockImportParams B

/-- The queue: its defender, or nothing once `verify` has panicked. -/
def verifier (A : Standalone B Pub Keystore) (L : LruMap UInt64 ℕ) :
    Transducer (Option (NaiveEquivocationDefender L)) (Import B Pub)
      (Import B Pub × Except (VerifyError B) (BlockImportParams B)) where
  step s i :=
    match s with
    | none => (none, [])
    | some defender =>
        match verify A i.reads defender i.params with
        | none => (none, [])
        | some (result, defender) => (some defender, [(i, result)])

/-- The queue as it starts. -/
def Verifier.start (L : LruMap UInt64 ℕ) : Option (NaiveEquivocationDefender L) :=
  some (NaiveEquivocationDefender.default L)

/-- The slot the defender is asked about: that of a block which is checked and
whose seal is good. -/
def Import.sealedSlot? (A : Standalone B Pub Keystore) (i : Import B Pub) : Option UInt64 :=
  if i.params.skipped then none
  else
    match checkSeal A i.reads i.params with
    | some (.ok (_, slot)) => some slot
    | _ => none

/-- The slots of a list of blocks whose seals are good. -/
def sealedSlots (A : Standalone B Pub Keystore) (imports : List (Import B Pub)) : List UInt64 :=
  imports.filterMap (Import.sealedSlot? A)

/-- `verify` panics on the import: it is checked, and the slot duration it
reads is zero. -/
def Import.Panics (A : Standalone B Pub Keystore) (i : Import B Pub) : Prop :=
  i.params.skipped = false ∧ checkSeal A i.reads i.params = none

/-- What `verify` answers to the import when the defender has seen the slots of
a history. -/
def Import.result? (A : Standalone B Pub Keystore) (history : List UInt64) (i : Import B Pub) :
    Option (Except (VerifyError B) (BlockImportParams B)) :=
  if i.params.skipped then some (.ok { i.params with forkChoice := some (.custom i.params.withState) })
  else
    match checkSeal A i.reads i.params with
    | none => none
    | some (.error e) => some (.error e)
    | some (.ok (params, slot)) =>
        if NaiveEquivocationDefender.beyondLimit history slot then
          some (.error (.equivocations (B.hash i.params.header)))
        else some ((checkBody i.reads (B.parentHash i.params.header) params).map fun _ => params)

section Run

open NaiveEquivocationDefender

variable {A : Standalone B Pub Keystore} {L : LruMap UInt64 ℕ} {limit : L.Map → ℕ}
  {entries : L.Map → List (UInt64 × ℕ)}

/-- **One import.**  The answer depends on the defender by the slots it has seen
alone, and it has then seen the import's slot if the seal is good. -/
theorem verify_eq (hL : L.Lawful limit entries) {defender : NaiveEquivocationDefender L}
    {history : List UInt64} (h : Saw limit entries defender history) (i : Import B Pub) :
    (i.Panics A ∧ verify A i.reads defender i.params = none) ∨
    ∃ result defender', i.result? A history = some result ∧
      verify A i.reads defender i.params = some (result, defender') ∧
      Saw limit entries defender' (history ++ (i.sealedSlot? A).toList) := by
  unfold verify Import.result? Import.sealedSlot? Import.Panics
  by_cases hskip : i.params.skipped = true
  · simp only [hskip, if_true]
    exact Or.inr ⟨_, defender, rfl, rfl, by simpa using h⟩
  · simp only [hskip, if_false, Bool.false_eq_true]
    cases hseal : checkSeal A i.reads i.params with
    | none => exact Or.inl ⟨⟨trivial, rfl⟩, rfl⟩
    | some checked =>
        cases checked with
        | error e => exact Or.inr ⟨_, defender, rfl, rfl, by simpa using h⟩
        | ok checked =>
            obtain ⟨params, slot⟩ := checked
            obtain ⟨defender', hcheck, h'⟩ := insertAndCheck_eq hL h slot
            refine Or.inr ?_
            simp only [hcheck]
            cases beyondLimit history slot with
            | true => exact ⟨_, defender', rfl, rfl, h'⟩
            | false =>
                cases checkBody i.reads (B.parentHash i.params.header) params with
                | error e => exact ⟨_, defender', rfl, rfl, h'⟩
                | ok _ => exact ⟨_, defender', rfl, rfl, h'⟩

theorem sealedSlots_append (is js : List (Import B Pub)) :
    sealedSlots A (is ++ js) = sealedSlots A is ++ sealedSlots A js := List.filterMap_append ..

theorem sealedSlots_singleton (i : Import B Pub) : sealedSlots A [i] = (i.sealedSlot? A).toList := by
  cases h : i.sealedSlot? A with
  | none => simp [sealedSlots, h]
  | some slot => simp [sealedSlots, h]

/-- **The state of the queue** after any blocks: `verify` has panicked on one of
them, or the defender has seen the slots of those whose seal was good. -/
theorem verifier_run (hL : L.Lawful limit entries) (imports : List (Import B Pub)) :
    ((verifier A L).run (Verifier.start L) imports = none ∧ ∃ i ∈ imports, i.Panics A) ∨
    ∃ defender, (verifier A L).run (Verifier.start L) imports = some defender ∧
      Saw limit entries defender (sealedSlots A imports) := by
  refine (verifier A L).run_induction (Verifier.start L)
    (P := fun is s _ => (s = none ∧ ∃ i ∈ is, i.Panics A) ∨ ∃ defender, s = some defender ∧
      Saw limit entries defender (sealedSlots A is)) ?_ ?_ imports
  · exact Or.inr ⟨_, rfl, saw_default hL⟩
  · intro is i ih
    rcases ih with ⟨hnone, j, hj, hpanics⟩ | ⟨defender, hrun, h⟩
    · rw [hnone]
      exact Or.inl ⟨rfl, j, List.mem_append_left _ hj, hpanics⟩
    · rw [hrun, sealedSlots_append, sealedSlots_singleton]
      rcases verify_eq (A := A) hL h i with ⟨hpanics, hverify⟩ | ⟨result, defender', -, hverify, h'⟩
      · refine Or.inl ⟨?_, i, by simp, hpanics⟩
        simp only [Transducer.next, verifier, hverify]
      · refine Or.inr ⟨defender', ?_, h'⟩
        simp only [Transducer.next, verifier, hverify]

theorem map_const_eq_ok {ε α : Type} {x : Except ε Unit} {p q : α} :
    (x.map fun _ => p) = .ok q ↔ p = q ∧ x = .ok () := by
  cases x with
  | error e => simp [Except.map]
  | ok _ => simp [Except.map]

/-- The import's answer is the parameters `params`: its checks are skipped, or
its seal is good, its slot is not beyond the limit and its inherents pass. -/
theorem result?_eq_ok_iff (history : List UInt64) (i : Import B Pub) (params : BlockImportParams B) :
    i.result? A history = some (.ok params) ↔
      (i.params.skipped = true ∧
        params = { i.params with forkChoice := some (.custom i.params.withState) }) ∨
      (i.params.skipped = false ∧ ∃ slot, checkSeal A i.reads i.params = some (.ok (params, slot)) ∧
        ¬ Exceeded history slot ∧
        checkBody i.reads (B.parentHash i.params.header) params = .ok ()) := by
  unfold Import.result?
  by_cases hskip : i.params.skipped = true
  · simp [hskip, eq_comm]
  · simp only [hskip, if_false, Bool.false_eq_true, false_and, false_or, true_and]
    cases hseal : checkSeal A i.reads i.params with
    | none => simp
    | some checked =>
        cases checked with
        | error e => simp
        | ok checked =>
            obtain ⟨params', slot⟩ := checked
            simp only [Option.some.injEq, Except.ok.injEq, Prod.mk.injEq]
            by_cases hbeyond : beyondLimit history slot = true
            · have hexceeded := (beyondLimit_iff history slot).mp hbeyond
              rw [if_pos hbeyond]
              constructor
              · intro h
                cases h
              · rintro ⟨slot', ⟨-, rfl⟩, hnot, -⟩
                exact absurd hexceeded hnot
            · have hexceeded : ¬ Exceeded history slot :=
                fun h => hbeyond ((beyondLimit_iff history slot).mpr h)
              rw [if_neg hbeyond, Option.some.injEq, map_const_eq_ok]
              constructor
              · rintro ⟨rfl, hbody⟩
                exact ⟨slot, ⟨rfl, rfl⟩, hexceeded, hbody⟩
              · rintro ⟨slot', ⟨rfl, -⟩, -, hbody⟩
                exact ⟨rfl, hbody⟩

/-- While nothing panics, the queue answers the next import by the seals it has
seen. -/
theorem verifier_answers (hL : L.Lawful limit entries) (imports : List (Import B Pub))
    (hpanic : ∀ i ∈ imports, ¬ i.Panics A) :
    ∃ defender, (verifier A L).run (Verifier.start L) imports = some defender ∧
      ∀ (i : Import B Pub) params,
        (∃ defender', verify A i.reads defender i.params = some (.ok params, defender')) ↔
          i.result? A (sealedSlots A imports) = some (.ok params) := by
  rcases verifier_run (A := A) hL imports with ⟨-, j, hj, hpanics⟩ | ⟨defender, hrun, h⟩
  · exact absurd hpanics (hpanic j hj)
  · refine ⟨defender, hrun, fun i params => ?_⟩
    rcases verify_eq (A := A) hL h i with ⟨hpanics, hverify⟩ | ⟨result, defender', hresult, hverify, -⟩
    · have hnone : i.result? A (sealedSlots A imports) = none := by
        simp [Import.result?, hpanics.1, hpanics.2]
      simp [hverify, hnone]
    · simp [hverify, hresult]

/-- **Which block is accepted after any run.**  As long as no import has read a
slot duration of zero, the queue is there, and `verify` accepts the next block
exactly when it is told to skip the checks, or when the seal is good for a slot
of which no sixteen good seals came in a part of the run without 256 others in
between, and the inherents pass.  Blocks that fail the inherents count as much as
those that pass; blocks that are skipped count for nothing. -/
theorem verify_accepts_iff (hL : L.Lawful limit entries) (imports : List (Import B Pub))
    (hpanic : ∀ i ∈ imports, ¬ i.Panics A) :
    ∃ defender, (verifier A L).run (Verifier.start L) imports = some defender ∧
      ∀ (i : Import B Pub) params,
      ((∃ defender', verify A i.reads defender i.params = some (.ok params, defender')) ↔
        (i.params.skipped = true ∧
          params = { i.params with forkChoice := some (.custom i.params.withState) }) ∨
        (i.params.skipped = false ∧
          ∃ slot, checkSeal A i.reads i.params = some (.ok (params, slot)) ∧
            ¬ Exceeded (sealedSlots A imports) slot ∧
            checkBody i.reads (B.parentHash i.params.header) params = .ok ())) := by
  obtain ⟨defender, hrun, hanswers⟩ := verifier_answers (A := A) hL imports hpanic
  refine ⟨defender, hrun, fun i params => ?_⟩
  rw [hanswers, result?_eq_ok_iff]

/-- A block with a good seal for slot 7 and no body, as its importer sees it at
time 90 with slots of ten milliseconds. -/
def plainImport : Import plainBlocks UInt64 where
  reads :=
    { Providers := Unit
      Data := Unit
      fetchAuthorities := fun _ => .ok [5, 6]
      slotDuration := fun _ => .ok 10
      now := 90
      createInherentDataProviders := fun _ => .ok ()
      createInherentData := fun _ => .ok ()
      checkInherents := fun _ _ _ => .ok ⟨true, []⟩
      tryHandleError := fun _ _ _ => none }
  params := .new .networkBroadcast (3, [.inl 7, .inr 6])

/-- The seventeenth block of a slot is not accepted. -/
theorem verify_accepts_sixteen :
    ∃ defender, (verifier plainStandalone (listLruMap UInt64 ℕ)).run (Verifier.start _)
        (List.replicate 16 plainImport) = some defender ∧
      ∀ params defender', verify plainStandalone plainImport.reads defender plainImport.params ≠
        some (.ok params, defender') := by
  have hpanic : ∀ i ∈ List.replicate 16 plainImport, ¬ i.Panics plainStandalone := by
    intro i hi hpanics
    rw [List.eq_of_mem_replicate hi] at hpanics
    cases hpanics.2
  have hexceeded : Exceeded (sealedSlots plainStandalone (List.replicate 16 plainImport)) 7 := by
    refine ⟨[], List.replicate 15 7, rfl, by decide, fun y hy hslot => ?_⟩
    have hnil : y = [] := by
      refine List.eq_nil_iff_forall_not_mem.mpr fun a ha => hslot ?_
      rwa [List.eq_of_mem_replicate (hy.subset ha)] at ha
    rw [hnil]
    decide
  obtain ⟨defender, hrun, haccepts⟩ := verify_accepts_iff (A := plainStandalone)
    (listLruMap_lawful UInt64 ℕ) (List.replicate 16 plainImport) hpanic
  refine ⟨defender, hrun, fun params defender' hverify => ?_⟩
  rcases (haccepts plainImport params).mp ⟨defender', hverify⟩ with
    ⟨hskip, -⟩ | ⟨hskip, slot, hseal, hnot, -⟩
  · cases hskip
  · have hslot : plainImport.sealedSlot? plainStandalone = some 7 := rfl
    rw [Import.sealedSlot?, hskip, hseal] at hslot
    obtain rfl : slot = 7 := by simpa using hslot
    exact hnot hexceeded

end Run

end OnDemand.Client
