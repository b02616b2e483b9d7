/-
# A follower among the other tasks

The tasks of a node (`OnDemand.Service.Node`) share its `OrderRecord`, each for a part
of it: the event task writes `relay_block_hash`, which the provider reads, and the
follower decides by `last_slot`, which it alone writes.  The other tasks can make the
follower wait for the lock, and that is all they can do to it.

`orders_by_follower_alone` says so for every interleaving: leave out the steps of the
other tasks, and the attempts at the lock they made fail, and the node orders the
same.
-/

import OnDemand.Service.Liveness

namespace OnDemand

variable {A : Type} {S : Service A} {chain : H256 → List RelayEvent} {s t : Node A}

/-- The guard under the lock reads the slot of the record only. -/
theorem underLock_congr {record record' : OrderRecord} (h : record.lastSlot = record'.lastSlot)
    (v : View A) (a : Attempt) : underLock S v record a = underLock S v record' a := by
  unfold underLock
  rw [h]

/-- The follower of `t`, which runs alone, is where that of `s` is. -/
structure Alone (s t : Node A) : Prop where
  follower : t.follower = s.follower
  lastSlot : t.record.lastSlot = s.record.lastSlot
  crashed : t.crashed = s.crashed
  /-- Nobody else takes the lock. -/
  lock : ¬t.follower.Holds → t.lock = none

/-- Steps that do not touch the follower, its slot and the end of the node. -/
theorem Alone.of_eq {s' : Node A} (h : Alone s t) (hfollower : s'.follower = s.follower)
    (hslot : s'.record.lastSlot = s.record.lastSlot) (hcrashed : s'.crashed = s.crashed) :
    Alone s' t where
  follower := h.follower.trans hfollower.symm
  lastSlot := h.lastSlot.trans hslot.symm
  crashed := h.crashed.trans hcrashed.symm
  lock := h.lock

/-- Both followers return. -/
theorem Alone.returned (h : Alone s t) : Alone s.returned t.returned where
  follower := rfl
  lastSlot := h.lastSlot
  crashed := h.crashed
  lock _ := rfl

/-- Both calls end with the same error, or both nodes with the same panic. -/
theorem Alone.failed (h : Alone s t) (e : Halt) : Alone (s.failed e) (t.failed e) := by
  cases e with
  | error e => exact h.returned
  | panic reason => exact ⟨h.follower, h.lastSlot, rfl, h.lock⟩

theorem Alone.onHead (h : Alone s t) (v : View A) (head : Head) :
    Alone (s.onHead S v head) (t.onHead S v head) := by
  unfold Node.onHead
  rw [h.follower]
  split
  · rename_i hidle
    have hfree : t.lock = none := h.lock (by rw [h.follower, hidle]; exact id)
    split
    · exact ⟨rfl, h.lastSlot, rfl, fun _ => hfree⟩
    · exact h
    · exact h
    · exact ⟨rfl, h.lastSlot, h.crashed, fun _ => hfree⟩
  · exact h

theorem Alone.onDecide (h : Alone s t) (v : View A) : Alone (s.onDecide S v) (t.onDecide S v) := by
  unfold Node.onDecide
  rw [h.follower]
  split
  · rename_i a hlocked
    rw [underLock_congr h.lastSlot]
    split
    · exact h.failed _
    · exact h.returned
    · exact ⟨rfl, h.lastSlot, h.crashed, fun hnot => absurd trivial hnot⟩
  · exact h

theorem Alone.onSubmit (h : Alone s t) (rpc : RelayRpc) :
    (s.onSubmit S rpc).2 = (t.onSubmit S rpc).2 ∧
      Alone (s.onSubmit S rpc).1 (t.onSubmit S rpc).1 := by
  unfold Node.onSubmit
  rw [h.follower]
  split
  · split
    · exact ⟨rfl, h.failed _⟩
    · exact ⟨rfl, rfl, rfl, h.crashed, fun _ => rfl⟩
  · exact ⟨rfl, h⟩

/-- An attempt at the lock fails, or succeeds for both. -/
theorem Alone.onFollowerLock (h : Alone s t) :
    Alone s.onFollowerLock t ∨ Alone s.onFollowerLock t.onFollowerLock := by
  unfold Node.onFollowerLock
  split
  · rename_i a hwaiting hfree
    have hfree' : t.lock = none := h.lock (by rw [h.follower, hwaiting]; exact id)
    rw [h.follower, hwaiting, hfree']
    exact Or.inr ⟨rfl, h.lastSlot, h.crashed, fun hnot => absurd trivial hnot⟩
  · exact Or.inl h

/-- The other tasks submit nothing, leave the slot alone and do not end the node. -/
theorem kept_of_not (S : Service A) (chain : H256 → List RelayEvent) (s : Node A) {act : Action A}
    (hact : ¬act.OfFollower) : (node S chain).emit s act = [] ∧
      ((node S chain).next s act).record.lastSlot = s.record.lastSlot ∧
      ((node S chain).next s act).crashed = s.crashed := by
  unfold Transducer.next Transducer.emit node
  dsimp only
  by_cases hcrashed : s.crashed = true
  · rw [if_pos hcrashed]
    exact ⟨rfl, rfl, rfl⟩
  rw [if_neg hcrashed]
  cases act with
  | block hash fetched =>
      dsimp only [Node.onBlock]
      split
      · split <;> exact ⟨rfl, rfl, rfl⟩
      · exact ⟨rfl, rfl, rfl⟩
  | event reading =>
      dsimp only [Node.onEvent]
      split
      · exact ⟨rfl, rfl, rfl⟩
      · split
        · exact ⟨rfl, rfl, rfl⟩
        · exact ⟨rfl, rfl, rfl⟩
        · split <;> exact ⟨rfl, rfl, rfl⟩
      · exact ⟨rfl, rfl, rfl⟩
  | eventLock =>
      dsimp only [Node.onEventLock]
      split <;> exact ⟨rfl, rfl, rfl⟩
  | eventWrite =>
      dsimp only [Node.onEventWrite]
      split <;> exact ⟨rfl, rfl, rfl⟩
  | provide =>
      dsimp only
      split <;> exact ⟨rfl, rfl, rfl⟩
  | provided =>
      dsimp only
      split <;> exact ⟨rfl, rfl, rfl⟩
  | _ => exact absurd trivial hact

/-- **One step**: the follower alone takes it too, or it is silent and nothing to the
follower. -/
theorem Alone.step (h : Alone s t) (act : Action A) :
    (node S chain).emit s act = [] ∧ Alone ((node S chain).next s act) t ∨
      act.OfFollower ∧ (node S chain).emit s act = (node S chain).emit t act ∧
        Alone ((node S chain).next s act) ((node S chain).next t act) := by
  by_cases hact : act.OfFollower
  · unfold Transducer.next Transducer.emit node
    dsimp only
    by_cases hcrashed : s.crashed = true
    · rw [if_pos hcrashed]
      exact Or.inl ⟨rfl, h⟩
    have hup : ¬t.crashed = true := by
      rw [h.crashed]
      exact hcrashed
    rw [if_neg hcrashed, if_neg hup]
    cases act with
    | head v head => exact Or.inr ⟨trivial, rfl, h.onHead v head⟩
    | followerLock =>
        rcases h.onFollowerLock with hfails | htaken
        · exact Or.inl ⟨rfl, hfails⟩
        · exact Or.inr ⟨trivial, rfl, htaken⟩
    | decide v => exact Or.inr ⟨trivial, rfl, h.onDecide v⟩
    | submit rpc => exact Or.inr ⟨trivial, h.onSubmit rpc⟩
    | _ => exact absurd hact id
  · obtain ⟨hemit, hslot, hcrashed⟩ := kept_of_not S chain s hact
    exact Or.inl ⟨hemit, h.of_eq (follower_of_not S chain hact) hslot hcrashed⟩

/-- **The other tasks never change what a node orders.**  In every interleaving there
are steps of the follower that, run alone and in the same order, submit the same
orders, leave the follower at the same place and the same last slot, and end the node
if the interleaving does. -/
theorem orders_by_follower_alone (S : Service A) (chain : H256 → List RelayEvent)
    (acts : List (Action A)) :
    ∃ alone, alone.Sublist acts ∧ (∀ act ∈ alone, act.OfFollower) ∧
      (node S chain).outputs Node.start alone = (node S chain).outputs Node.start acts ∧
      ((node S chain).run Node.start alone).follower =
        ((node S chain).run Node.start acts).follower ∧
      ((node S chain).run Node.start alone).record.lastSlot =
        ((node S chain).run Node.start acts).record.lastSlot ∧
      ((node S chain).run Node.start alone).crashed =
        ((node S chain).run Node.start acts).crashed := by
  have hstart : Alone (Node.start (A := A)) Node.start := ⟨rfl, rfl, rfl, fun _ => rfl⟩
  obtain ⟨alone, hsub, hfollower, houtputs, hend⟩ :=
    (node S chain).exists_sublist_of_simulation (node S chain) hstart acts
      fun act _ _ h => h.step act
  exact ⟨alone, hsub, hfollower, houtputs, hend.follower, hend.lastSlot, hend.crashed⟩

end OnDemand
