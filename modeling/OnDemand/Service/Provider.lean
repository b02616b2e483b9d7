/-
# The inherent provider of block authoring

`create_inherent_data_providers` (`template/node/src/service.rs`) asks
`OrderInherentData::create_at` (`primitives/order/src/inherent.rs`) for the
inherent of the recorded relay block.  Without a recorded block the inherent is
empty, and `create_order` accepts it and does nothing.  With one, the header of
that block and a proof of its events must still be there; where they are not,
the provider fails with an error of its own, and AuRa builds no block on it.

The record is only ever overwritten (`NodeStep.recorded_isSome`), so from the
first order on every block of a node depends on a relay block that may have been
pruned or reorganised away.  `provider_returns_iff` is the whole behaviour, for
every record a node can reach.
-/

import OnDemand.Service.Record

namespace OnDemand

open Word

/-- `create_inherent_data_providers`, with the record it has locked. -/
def createInherentDataProviders (rc : RelayChainInterface) (record : OrderRecord) (paraId : ParaId) :
    Except ServiceError OrderInherentData :=
  match createAt rc record.relayBlockHash paraId with
  | none => .error (.text "Failed to create order inherent")
  | some orderInherent => .ok orderInherent

variable {A : Type} {S : Service A} {chain : H256 → List RelayEvent}

/-- **A recorded block is never forgotten**, only replaced. -/
theorem NodeStep.recorded_isSome {s s' : Node A} {act : Action A} {os : List (Submission A)}
    (hstep : NodeStep S chain s act s' os) (h : s.record.relayBlockHash.isSome = true) :
    s'.record.relayBlockHash.isSome = true := by
  have hwritten : ∀ o ∈ os, s'.record.relayBlockHash = some o.hash := fun o ho => hstep.recorded ho
  cases hstep with
  | quiet hsame => rw [hsame]; exact h
  | submitted => rw [hwritten _ (List.mem_singleton_self _)]; rfl
  | written => rfl
  | _ => exact h

/-- **When the provider returns.**  For every record a node can reach and every
behaviour of its relay chain interface: the provider returns the empty inherent
while no block is recorded, which `create_order` accepts without any change of
state, and the inherent of the recorded block when its header is found and its
events can be proved; in every other case it fails with its own error.  Once
recorded, a block stays recorded or is replaced by another. -/
theorem provider_returns_iff (S : Service A) (chain : H256 → List RelayEvent)
    (acts : List (Action A)) (rc : RelayChainInterface) :
    (∀ d, createInherentDataProviders rc ((node S chain).run Node.start acts).record S.paraId = .ok d ↔
      (((node S chain).run Node.start acts).record.relayBlockHash = none ∧ d = ⟨none⟩) ∨
      ∃ hash header proof, ((node S chain).run Node.start acts).record.relayBlockHash = some hash ∧
        rc.header hash = .ok (some header) ∧ rc.proveRead header.hash [eventsKey] = .ok proof ∧
        d = .ofBlock header proof S.paraId) ∧
    (∀ e, createInherentDataProviders rc ((node S chain).run Node.start acts).record S.paraId =
      .error e → e = .text "Failed to create order inherent") ∧
    (∀ (T : Types) (C : Config T) (s : State T), createOrder C s .none ⟨none⟩ = .ok (s, none)) ∧
    ∀ more, ((node S chain).run Node.start acts).record.relayBlockHash.isSome = true →
      ((node S chain).run Node.start (acts ++ more)).record.relayBlockHash.isSome = true := by
  refine ⟨fun d => ?_, fun e he => ?_, fun T C s => rfl, fun more hrecorded => ?_⟩
  · rw [← createAt_eq_some]
    unfold createInherentDataProviders
    cases createAt rc ((node S chain).run Node.start acts).record.relayBlockHash S.paraId with
    | none => simp
    | some d' => simp
  · unfold createInherentDataProviders at he
    split at he
    · cases he
      rfl
    · cases he
  · rw [Transducer.run_append]
    refine (node S chain).run_invariant (fun s => s.record.relayBlockHash.isSome = true) hrecorded ?_
    intro act _ s hs
    exact (node_step S chain s act).recorded_isSome hs

/-- A relay chain interface that answers every header lookup and every proof
request alike. -/
def uniformRelayChain (header : Except RelayChainError (Option RelayHeader))
    (proof : Except RelayChainError StorageProof) : RelayChainInterface where
  header _ := header
  proveRead _ _ := proof
  getStorageByKey _ _ := .ok none

/-- **A stale record stops authoring.**  Alice's node has submitted an order at
head 4.  When the header of that block is gone, its lookup fails, or its state
has been pruned, the provider returns an error. -/
theorem stale_record_stops_authoring :
    ((node (collator [alice]) fun _ => []).run Node.start
      (followerCall (plainView [alice] 1) 4)).record.relayBlockHash = some (headAt 4).hash ∧
    ∀ rc ∈ [uniformRelayChain (.ok none) (.error .failed),
        uniformRelayChain (.error .failed) (.error .failed),
        uniformRelayChain (.ok (some ⟨4, .replicate 4, (headAt 4).hash⟩)) (.error .failed)],
      createInherentDataProviders rc ((node (collator [alice]) fun _ => []).run Node.start
        (followerCall (plainView [alice] 1) 4)).record 2000 =
          .error (.text "Failed to create order inherent") := by
  have hrecord : ((node (collator [alice]) fun _ => []).run Node.start
      (followerCall (plainView [alice] 1) 4)).record.relayBlockHash = some (headAt 4).hash := by
    decide
  refine ⟨hrecord, ?_⟩
  simp [createInherentDataProviders, hrecord, createAt, uniformRelayChain, collectRelayStorageProof]

end OnDemand
