/-
# The lock on the order record

Three tasks of a node share its `OrderRecord` under one lock: the follower
(`handle_relaychain_stream`, `services/order/src/lib.rs`) holds it from the slot
guard to the writes, over every `await` and early exit in between, the event
task (`ondemand_event_task`) for one write, and the inherent provider
(`create_inherent_data_providers`, `template/node/src/service.rs`) while it
reads.

`LockInv` is mutual exclusion: a task past its `lock().await` is the one the
lock names.  Every action keeps it (`LockInv.step`), so nobody writes the record
while the follower has it, and a call that submits nothing leaves it as it found
it (`record_of_holdsThrough`).  With the ratchet of `last_slot`
(`node_ratchet`) this gives `submissions_strictly_increase`, whatever the chain
does and in whatever order the tasks run.
-/

import OnDemand.Service.Node

namespace OnDemand

open Word

variable {A : Type} {S : Service A} {chain : H256 → List RelayEvent} {s s' : Node A}

/-- The follower is past its `lock().await`. -/
def Follower.Holds : Follower A → Prop
  | .idle => False
  | .waiting _ => False
  | .locked _ => True
  | .submitting _ => True

/-- The event task is past its `lock().await`. -/
def EventTask.Holds : EventTask → Prop
  | .idle => False
  | .reading _ _ => False
  | .waiting _ _ => False
  | .locked _ _ => True

/-- The lock names the task that holds it. -/
structure LockInv (s : Node A) : Prop where
  follower : s.follower.Holds → s.lock = some .follower
  eventTask : s.eventTask.Holds → s.lock = some .eventTask

/-! ### Mutual exclusion -/

/-- Nobody holds a free lock, and a lock of one party is held by no other. -/
theorem LockInv.not_follower (h : LockInv s) (hlock : s.lock ≠ some .follower) : ¬s.follower.Holds :=
  fun hh => hlock (h.follower hh)

theorem LockInv.not_eventTask (h : LockInv s) (hlock : s.lock ≠ some .eventTask) :
    ¬s.eventTask.Holds :=
  fun hh => hlock (h.eventTask hh)

/-- Tasks that keep their place, or leave the lock, under the same lock. -/
theorem LockInv.of_eq (h : LockInv s) (hlock : s'.lock = s.lock)
    (hfollower : s'.follower = s.follower ∨ ¬s'.follower.Holds)
    (hevent : s'.eventTask = s.eventTask ∨ ¬s'.eventTask.Holds) : LockInv s' := by
  constructor
  · intro hh
    rw [hlock]
    rcases hfollower with hf | hf
    · exact h.follower (hf ▸ hh)
    · exact absurd hh hf
  · intro hh
    rw [hlock]
    rcases hevent with he | he
    · exact h.eventTask (he ▸ hh)
    · exact absurd hh he

/-- A lock that nobody holds may go to any party. -/
theorem LockInv.of_not_holds (hfollower : ¬s.follower.Holds) (hevent : ¬s.eventTask.Holds) :
    LockInv s :=
  ⟨fun h => absurd h hfollower, fun h => absurd h hevent⟩

/-- The follower drops the lock it holds. -/
theorem LockInv.returned (h : LockInv s) (hholds : s.follower.Holds) : LockInv s.returned := by
  refine .of_not_holds (fun hh => hh) ?_
  refine h.not_eventTask ?_
  rw [h.follower hholds]
  decide

theorem LockInv.failed (h : LockInv s) (hholds : s.follower.Holds) (e : Halt) :
    LockInv (s.failed e) := by
  cases e with
  | error e => exact h.returned hholds
  | panic reason => exact h.of_eq rfl (Or.inl rfl) (Or.inl rfl)

/-- **Every action keeps mutual exclusion.** -/
theorem LockInv.step (S : Service A) (chain : H256 → List RelayEvent) (h : LockInv s)
    (act : Action A) : LockInv ((node S chain).next s act) := by
  unfold Transducer.next node
  by_cases hcrashed : s.crashed
  · simp only [hcrashed, if_true]
    exact h
  simp only [hcrashed, Bool.false_eq_true, if_false]
  cases act with
  | head v head =>
      simp only [Node.onHead]
      split
      · split
        · exact h.of_eq rfl (Or.inl rfl) (Or.inl rfl)
        · exact h
        · exact h
        · exact h.of_eq rfl (Or.inr fun hh => hh) (Or.inl rfl)
      · exact h
  | followerLock =>
      simp only [Node.onFollowerLock]
      split
      · rename_i a hwaiting hfree
        refine ⟨fun _ => rfl, fun hh => ?_⟩
        exact absurd hh (h.not_eventTask (by rw [hfree]; decide))
      · exact h
  | decide v =>
      simp only [Node.onDecide]
      split
      · rename_i a hlocked
        have hholds : s.follower.Holds := by rw [hlocked]; trivial
        split
        · exact h.failed hholds _
        · exact h.returned hholds
        · exact ⟨fun _ => h.follower hholds, h.eventTask⟩
      · exact h
  | submit rpc =>
      simp only [Node.onSubmit]
      split
      · rename_i q hsubmitting
        have hholds : s.follower.Holds := by rw [hsubmitting]; trivial
        split
        · exact h.failed hholds _
        · exact (h.returned hholds).of_eq rfl (Or.inl rfl) (Or.inl rfl)
      · exact h
  | block hash fetched =>
      simp only [Node.onBlock]
      split
      · split
        · exact h.of_eq rfl (Or.inl rfl) (Or.inr fun hh => hh)
        · exact h
      · exact h
  | event reading =>
      simp only [Node.onEvent]
      split
      · exact h.of_eq rfl (Or.inl rfl) (Or.inr fun hh => hh)
      · cases reading with
        | broken => exact h.of_eq rfl (Or.inl rfl) (Or.inr fun hh => hh)
        | undecodable => exact h.of_eq rfl (Or.inl rfl) (Or.inr fun hh => hh)
        | decoded =>
            simp only
            split
            · exact h.of_eq rfl (Or.inl rfl) (Or.inr fun hh => hh)
            · exact h.of_eq rfl (Or.inl rfl) (Or.inr fun hh => hh)
      · exact h
  | eventLock =>
      simp only [Node.onEventLock]
      split
      · rename_i hash rest hwaiting hfree
        refine ⟨fun hh => ?_, fun _ => rfl⟩
        exact absurd hh (h.not_follower (by rw [hfree]; decide))
      · exact h
  | eventWrite =>
      simp only [Node.onEventWrite]
      split
      · rename_i hash rest hlocked
        have hlock : s.lock = some .eventTask := h.eventTask (by rw [hlocked]; trivial)
        exact .of_not_holds (h.not_follower (by rw [hlock]; decide)) fun hh => hh
      · exact h
  | provide =>
      simp only
      split
      · rename_i hfree
        exact .of_not_holds (h.not_follower (by rw [hfree]; decide))
          (h.not_eventTask (by rw [hfree]; decide))
      · exact h
  | provided =>
      simp only
      split
      · rename_i hprovider
        exact .of_not_holds (h.not_follower (by rw [hprovider]; decide))
          (h.not_eventTask (by rw [hprovider]; decide))
      · exact h

/-- Mutual exclusion holds along every run of a node. -/
theorem lockInv_run (S : Service A) (chain : H256 → List RelayEvent) (acts : List (Action A)) :
    LockInv ((node S chain).run Node.start acts) := by
  refine (node S chain).run_invariant LockInv ?_ fun act _ t ht => ht.step S chain act
  exact .of_not_holds (fun hh => hh) fun hh => hh

/-! ### A call under the lock -/

/-- **While the follower holds the lock, only a submission writes the record.** -/
theorem NodeStep.record_of_holds {act : Action A} (h : LockInv s) (hholds : s.follower.Holds)
    (hstep : NodeStep S chain s act s' []) : s'.record = s.record := by
  cases hstep with
  | quiet hrecord => exact hrecord
  | written hlocked =>
      have hlock : s.lock = some .eventTask := h.eventTask (by rw [hlocked]; trivial)
      rw [h.follower hholds] at hlock
      cases hlock
  | _ => rfl

/-- The follower holds the lock before each of the actions: they run during one
call, of which the last may be the end. -/
def HoldsThrough (S : Service A) (chain : H256 → List RelayEvent) (s : Node A)
    (during : List (Action A)) : Prop :=
  ∀ past rest, during = past ++ rest → rest ≠ [] → ((node S chain).run s past).follower.Holds

/-- **A call that submits nothing leaves the record as it found it**, whatever
the other tasks do meanwhile. -/
theorem record_of_holdsThrough {during : List (Action A)} (h : LockInv s)
    (hduring : HoldsThrough S chain s during) (hnone : (node S chain).outputs s during = []) :
    ((node S chain).run s during).record = s.record := by
  induction during generalizing s with
  | nil => rfl
  | cons act rest ih =>
      rw [Transducer.outputs_cons, List.append_eq_nil_iff] at hnone
      have hholds : s.follower.Holds := hduring [] _ rfl (List.cons_ne_nil _ _)
      have hstep := node_step S chain s act
      rw [hnone.1] at hstep
      have hrest : HoldsThrough S chain ((node S chain).next s act) rest := by
        rintro past later rfl hne
        exact hduring (act :: past) later rfl hne
      rw [Transducer.run_cons, ih (h.step S chain act) hrest hnone.2]
      exact hstep.record_of_holds h hholds

/-- A head that arrives never touches the record. -/
theorem record_of_head (S : Service A) (chain : H256 → List RelayEvent) (s : Node A) (v : View A)
    (head : Head) : ((node S chain).next s (.head v head)).record = s.record := by
  have hstep := node_step S chain s (.head v head)
  generalize (node S chain).next s (.head v head) = s' at hstep ⊢
  generalize (node S chain).emit s (.head v head) = os at hstep
  cases hstep with
  | quiet hrecord => exact hrecord
  | ready => rfl

/-- **One node's orders carry strictly increasing slots.**  Over every
interleaving of the follower with the event task and the inherent provider, on
whatever heads, reads and answers of the relay node, the orders submitted are
for the slots of their heights, from 1 on and strictly increasing; `last_slot`
is the slot of the last of them, or 0.  A call that has not acquired the lock
does not touch the record, and one that has, and submits nothing, leaves it as
it was when the lock was acquired. -/
theorem submissions_strictly_increase (S : Service A) (chain : H256 → List RelayEvent)
    (acts : List (Action A)) :
    ((node S chain).outputs Node.start acts).Pairwise (fun a b => a.slot < b.slot) ∧
    (∀ o ∈ (node S chain).outputs Node.start acts, 1 ≤ o.slot ∧ o.slot = slotOf o.height o.width) ∧
    ((node S chain).run Node.start acts).record.lastSlot.toNat =
      (((node S chain).outputs Node.start acts).getLast?.map Submission.slot).getD 0 ∧
    (∀ v head, ((node S chain).next ((node S chain).run Node.start acts) (.head v head)).record =
      ((node S chain).run Node.start acts).record) ∧
    ∀ during, HoldsThrough S chain ((node S chain).run Node.start acts) during →
      (node S chain).outputs ((node S chain).run Node.start acts) during = [] →
      ((node S chain).run ((node S chain).run Node.start acts) during).record =
        ((node S chain).run Node.start acts).record := by
  have R := node_ratchet S chain (fun _ => True) (fun _ => True)
  have hinv := FollowerInv.start S (fun _ => True) (fun _ => True)
  have hreads : ∀ act ∈ acts, act.Reads (fun _ => True) (fun _ => True) := by
    intro act _
    cases act <;> simp [Action.Reads]
  refine ⟨R.pairwise hinv hreads, ?_, R.reg_eq_last hinv hreads, ?_, ?_⟩
  · intro o ho
    have hslot := (mem_submissions hinv hreads o ho).1.1
    refine ⟨R.lt_of_mem hinv hreads o ho, ?_⟩
    exact congrArg UInt32.toNat (currentSlot_eq hslot)
  · exact record_of_head S chain _
  · intro during hduring hnone
    exact record_of_holdsThrough (lockInv_run S chain acts) hduring hnone

end OnDemand
