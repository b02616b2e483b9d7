/-
# The block the record names

`OrderRecord::relay_block_hash` (`primitives/order/src/lib.rs`) is documented as
the hash of the block in which the order was placed, and block authoring proves
its reward from whatever is there.  Two tasks write it.  The event task writes
the hash of a block in which it has just seen an order for the para.  The
follower writes the hash of the head at which it submitted an order, which the
relay chain can only include in a later block.

`recorded_block_holds_order_iff` says when the record is right all along a run:
exactly when every head the node submits at holds an order for the para
already.  The event task never makes it wrong, whatever it reads and however
its steps fall between the follower's (`EventTask.Within`).
-/

import OnDemand.Service.Network

namespace OnDemand

open Word

variable {A : Type} {S : Service A} {chain : H256 → List RelayEvent}

/-- The relay block with this hash holds an order for the para. -/
def OrderedIn (chain : H256 → List RelayEvent) (paraId : ParaId) (hash : H256) : Prop :=
  ∃ orderedBy, HasOrder (chain hash) paraId orderedBy

/-- The recorded block, if there is one, holds an order for the node's para. -/
def RecordHoldsOrder (S : Service A) (chain : H256 → List RelayEvent) (s : Node A) : Prop :=
  ∀ hash, s.record.relayBlockHash = some hash → OrderedIn chain S.paraId hash

/-- An event the task takes for an order is one. -/
theorem orderedIn_of_isOrderFor {paraId : ParaId} {hash : H256} {event : RelayEvent}
    (hmem : event ∈ chain hash) (h : isOrderFor paraId event = true) :
    OrderedIn chain paraId hash := by
  unfold isOrderFor at h
  split at h
  · rename_i id price by_
    obtain rfl := of_decide_eq_true h
    exact ⟨by_, price, hmem⟩
  · cases h

/-- The events the task still has to look at are those of its block, and past
an order it has seen one. -/
def EventTask.Within (chain : H256 → List RelayEvent) (paraId : ParaId) : EventTask → Prop
  | .idle => True
  | .reading hash rest => rest ⊆ chain hash
  | .waiting hash rest => rest ⊆ chain hash ∧ OrderedIn chain paraId hash
  | .locked hash rest => rest ⊆ chain hash ∧ OrderedIn chain paraId hash

/-- A submission records the head it was made at. -/
theorem NodeStep.recorded {s s' : Node A} {act : Action A} {os : List (Submission A)}
    {o : Submission A} (hstep : NodeStep S chain s act s' os) (ho : o ∈ os) :
    s'.record.relayBlockHash = some o.hash := by
  cases hstep with
  | submitted _ hsubmit =>
      obtain rfl := List.mem_singleton.mp ho
      obtain ⟨rfl, -, hwritten, -⟩ := submit_eq_ok hsubmit
      exact hwritten
  | _ => cases ho

/-- **One action keeps the record right** unless it submits an order at a head
without one. -/
theorem NodeStep.recordHoldsOrder {s s' : Node A} {act : Action A} {os : List (Submission A)}
    (hstep : NodeStep S chain s act s' os) (hos : ∀ o ∈ os, OrderedIn chain S.paraId o.hash)
    (hevent : s.eventTask.Within chain S.paraId) (hrecord : RecordHoldsOrder S chain s) :
    s'.eventTask.Within chain S.paraId ∧ RecordHoldsOrder S chain s' := by
  have hwritten : ∀ o ∈ os, s'.record.relayBlockHash = some o.hash := fun o ho => hstep.recorded ho
  cases hstep with
  | quiet hsame _ htask =>
      refine ⟨?_, fun hash hh => hrecord hash (by rw [← hsame]; exact hh)⟩
      rcases htask with ht | ht
      · rw [ht]
        exact hevent
      · rw [ht]
        trivial
  | ready => exact ⟨hevent, hrecord⟩
  | followerLock => exact ⟨hevent, hrecord⟩
  | elected => exact ⟨hevent, hrecord⟩
  | submitted =>
      refine ⟨hevent, fun hash hh => ?_⟩
      rw [Option.some.inj (hh.symm.trans (hwritten _ (List.mem_singleton_self _)))]
      exact hos _ (List.mem_singleton_self _)
  | block => exact ⟨List.Subset.refl _, hrecord⟩
  | skipped hreading =>
      rw [hreading] at hevent
      exact ⟨fun e he => hevent (List.mem_cons_of_mem _ he), hrecord⟩
  | found hreading horder =>
      rw [hreading] at hevent
      refine ⟨⟨fun e he => hevent (List.mem_cons_of_mem _ he), ?_⟩, hrecord⟩
      exact orderedIn_of_isOrderFor (hevent (List.mem_cons_self ..)) horder
  | eventLock hwaiting =>
      rw [hwaiting] at hevent
      exact ⟨hevent, hrecord⟩
  | written hlocked =>
      rw [hlocked] at hevent
      refine ⟨hevent.1, fun hash hh => ?_⟩
      obtain rfl := Option.some.inj hh
      exact hevent.2

/-- **When the record names a block with an order, all along a run.**  From a
fresh record and over every interleaving of the tasks, the recorded block always
holds an order for the para exactly when every head the node submits an order
at already does. -/
theorem recorded_block_holds_order_iff (S : Service A) (chain : H256 → List RelayEvent)
    (acts : List (Action A)) :
    (∀ before after, acts = before ++ after →
      RecordHoldsOrder S chain ((node S chain).run Node.start before)) ↔
    ∀ o ∈ (node S chain).outputs Node.start acts, OrderedIn chain S.paraId o.hash := by
  constructor
  · intro h o ho
    obtain ⟨before, act, after, rfl, hmem⟩ := (node S chain).exists_of_mem_outputs ho
    have hright := h (before ++ [act]) after (by simp)
    rw [Transducer.run_append, Transducer.run_cons, Transducer.run_nil] at hright
    exact hright _ ((node_step S chain _ act).recorded hmem)
  · rintro h before after rfl
    have hbefore : ∀ o ∈ (node S chain).outputs Node.start before,
        OrderedIn chain S.paraId o.hash := by
      intro o ho
      refine h o ?_
      rw [Transducer.outputs_append]
      exact List.mem_append_left _ ho
    refine ((node S chain).run_induction Node.start
      (P := fun _ s os => (∀ o ∈ os, OrderedIn chain S.paraId o.hash) →
        s.eventTask.Within chain S.paraId ∧ RecordHoldsOrder S chain s) ?_ ?_ before hbefore).2
    · intro _
      exact ⟨trivial, fun hash hh => by cases hh⟩
    · intro acts act ih hos
      obtain ⟨hevent, hrecord⟩ := ih fun o ho => hos o (List.mem_append_left _ ho)
      exact (node_step S chain _ act).recordHoldsOrder
        (fun o ho => hos o (List.mem_append_right _ ho)) hevent hrecord

/-- **A submission alone makes the record wrong.**  Alice's node submits at
head 4 of a relay chain without any events, and the record names block 4. -/
theorem submission_records_empty_block :
    ((node (collator [alice]) fun _ => []).run Node.start
      (followerCall (plainView [alice] 1) 4)).record.relayBlockHash = some (headAt 4).hash ∧
    ¬RecordHoldsOrder (collator [alice]) (fun _ => []) ((node (collator [alice]) fun _ => []).run
      Node.start (followerCall (plainView [alice] 1) 4)) := by
  have hrecorded : ((node (collator [alice]) fun _ => []).run Node.start
      (followerCall (plainView [alice] 1) 4)).record.relayBlockHash = some (headAt 4).hash := by
    decide
  refine ⟨hrecorded, fun h => ?_⟩
  obtain ⟨_, _, hmem⟩ := h _ hrecorded
  cases hmem

end OnDemand
