/-
# The two slot guards across changes of the slot width

`create_order` refuses a slot at or below `PreviousSlot`, and
`handle_relaychain_stream` one at or below `record.last_slot`
(`services/order/src/lib.rs`).  Both keep a slot number and compare it with
numbers of whatever width is in force now.  After `set_slot_width` to a wider
slot the numbers of new heights are smaller, and the guards refuse slots nobody
was paid for or ordered in (`widening_starves`).

`refusals_justified` is what holds of both guards: heights that only grow are
refused rightly as long as the width in force is at most the width of the
latest reward, on the chain, and of the latest order, on the node.
-/

import OnDemand.Pallet.SlotWidth
import OnDemand.Service.Network

namespace OnDemand

open Word

variable {A : Type} {S : Service A} {chain : H256 → List RelayEvent}

/-- The relay heights of the heads a list of actions offers to the follower. -/
def headHeights (acts : List (Action A)) : List UInt32 :=
  acts.filterMap fun act =>
    match act with
    | .head _ head => some head.height
    | _ => none

/-- What an action can do to the call the follower is in: nothing or end it,
start one at the head that arrived, or end it with an order. -/
theorem NodeStep.attempt? {s s' : Node A} {act : Action A} {os : List (Submission A)}
    (hstep : NodeStep S chain s act s' os) :
    (os = [] ∧ (s'.follower.attempt? = s.follower.attempt? ∨ s'.follower.attempt? = none)) ∨
    (os = [] ∧ ∃ v a, act = .head v a.head ∧ s'.follower.attempt? = some a) ∨
    (s'.follower.attempt? = none ∧ ∃ o, os = [o] ∧
      s.follower.attempt? = some o.request.attempt) := by
  cases hstep with
  | quiet _ hfollower =>
      refine Or.inl ⟨rfl, ?_⟩
      rcases hfollower with hf | hf
      · exact Or.inl (by rw [hf])
      · exact Or.inr (by rw [hf]; rfl)
  | ready _ hready => exact Or.inr (Or.inl ⟨rfl, _, _, by rw [hready.sameHead], rfl⟩)
  | followerLock hwaiting => exact Or.inl ⟨rfl, Or.inl (by rw [hwaiting]; rfl)⟩
  | elected hlocked helected =>
      refine Or.inl ⟨rfl, Or.inl ?_⟩
      rw [hlocked]
      exact congrArg some helected.sameAttempt
  | submitted hsubmitting hsubmit =>
      obtain ⟨rfl, -⟩ := submit_eq_ok hsubmit
      exact Or.inr (Or.inr ⟨rfl, _, rfl, by rw [hsubmitting]; rfl⟩)
  | _ => exact Or.inl ⟨rfl, Or.inl rfl⟩

/-- **Along growing heights the call in progress is the highest.**  Every order
was submitted at a head offered, and the head of the call the follower is in
lies above them all. -/
theorem submissions_below_attempt (S : Service A) (chain : H256 → List RelayEvent)
    (acts : List (Action A)) (hinc : (headHeights acts).Pairwise (· < ·)) :
    (∀ o ∈ (node S chain).outputs Node.start acts, o.height ∈ headHeights acts) ∧
    ∀ a, ((node S chain).run Node.start acts).follower.attempt? = some a →
      a.head.height ∈ headHeights acts ∧
      ∀ o ∈ (node S chain).outputs Node.start acts, o.height < a.head.height := by
  revert hinc
  refine (node S chain).run_induction Node.start
    (P := fun acts s os => (headHeights acts).Pairwise (· < ·) →
      (∀ o ∈ os, o.height ∈ headHeights acts) ∧
      ∀ a, s.follower.attempt? = some a → a.head.height ∈ headHeights acts ∧
        ∀ o ∈ os, o.height < a.head.height) ?_ ?_ acts
  · intro _
    refine ⟨fun o ho => ?_, fun a ha => ?_⟩
    · cases ho
    · cases ha
  · intro acts act ih hinc
    have hsplit : headHeights (acts ++ [act]) = headHeights acts ++ headHeights [act] := by
      simp only [headHeights, List.filterMap_append]
    rw [hsplit] at hinc ⊢
    obtain ⟨hmem, hattempt⟩ := ih (List.pairwise_append.mp hinc).1
    rcases (node_step S chain _ act).attempt? with
      ⟨hos, ha'⟩ | ⟨hos, v, a', rfl, ha'⟩ | ⟨ha', o, hos, ha⟩
    · rw [hos, List.append_nil]
      refine ⟨fun o ho => List.mem_append_left _ (hmem o ho), fun a ha => ?_⟩
      rcases ha' with ha' | ha'
      · rw [ha'] at ha
        exact ⟨List.mem_append_left _ (hattempt a ha).1, (hattempt a ha).2⟩
      · rw [ha'] at ha
        cases ha
    · rw [hos, List.append_nil]
      have hlast : a'.head.height ∈ headHeights [Action.head v a'.head] := List.mem_singleton_self _
      refine ⟨fun o ho => List.mem_append_left _ (hmem o ho), fun a ha => ?_⟩
      rw [ha'] at ha
      obtain rfl := Option.some.inj ha
      refine ⟨List.mem_append_right _ hlast, fun o ho => ?_⟩
      exact (List.pairwise_append.mp hinc).2.2 _ (hmem o ho) _ hlast
    · rw [hos]
      refine ⟨fun o' ho' => List.mem_append_left _ ?_, fun a ha => ?_⟩
      · rcases List.mem_append.mp ho' with h | h
        · exact hmem o' h
        · obtain rfl := List.mem_singleton.mp h
          exact (hattempt _ ha).1
      · rw [ha'] at ha
        cases ha

/-- **A refusal by the node at no wider a width is for a slot it ordered
in.** -/
theorem node_refusal_justified (S : Service A) (chain : H256 → List RelayEvent)
    {acts : List (Action A)} {a : Attempt} {s : Node A}
    (hs : s = (node S chain).run Node.start acts) (hinc : (headHeights acts).Pairwise (· < ·))
    (hw : ∀ act ∈ acts, act.Reads (· < 32) fun _ => True) (hlocked : s.follower = .locked a)
    (hlatest : ∀ o, ((node S chain).outputs Node.start acts).getLast? = some o →
      a.slotWidth ≤ o.width)
    (hpos : 1 ≤ a.currentSlot.toNat) (hrefused : a.currentSlot ≤ s.record.lastSlot) :
    ∃ o ∈ (node S chain).outputs Node.start acts,
      slotOf o.height a.slotWidth = slotOf a.head.height a.slotWidth := by
  have hinv := FollowerInv.start S (· < 32) fun _ : List A => True
  have R := node_ratchet S chain (· < 32) fun _ : List A => True
  have hrun : FollowerInv S (· < 32) (fun _ => True) ((node S chain).run Node.start acts) :=
    (node S chain).run_invariant _ hinv fun act hact t ht => R.keeps t act (hw act hact) ht
  have hattempt : ((node S chain).run Node.start acts).follower.attempt? = some a := by
    rw [← hs, hlocked]
    rfl
  have hslot : a.currentSlot.toNat = slotOf a.head.height a.slotWidth := by
    rw [currentSlot_eq (hrun.inSlot a hattempt).1]
    rfl
  have hbelow := ((submissions_below_attempt S chain acts hinc).2 a hattempt).2
  rw [hslot] at hpos
  refine refusal_justified R hinv hw rfl Submission.height Submission.width ?_ hlatest hpos ?_
  · intro o ho
    obtain ⟨hin, hwo⟩ := (mem_submissions hinv hw o ho).1
    refine ⟨?_, hwo, hbelow o ho⟩
    rw [Submission.slot, currentSlot_eq hin]
    rfl
  · rw [← hslot, ← hs]
    exact UInt32.le_iff_toNat_le.mp hrefused

/-- **Widths that do not grow starve no slot.**  Over every run of the pallet
from genesis, and every run of a node, with strictly increasing relay heights
and widths below 32: when the width in force is at most that of the latest
reward, respectively the latest order, a height whose slot is at least 1 is
refused by the pallet's guard only if a reward was paid, and by the service's
guard only if this node submitted an order, for a height in the same slot of the
width in force. -/
theorem refusals_justified {T : Types} (C : Config T) (threshold : T.ThresholdParameter)
    (bulkMode : Bool) (env : Env T) (S : Service A) (chain : H256 → List RelayEvent) :
    (∀ before after origin data s, s = (pallet C).run (genesis threshold bulkMode env) before →
      (presentedHeights (before ++ .createOrder origin ⟨some data⟩ :: after)).Pairwise (· < ·) →
      (∀ origin w, .setSlotWidth origin w ∈ before → w < 32) →
      (∀ r, ((pallet C).outputs (genesis threshold bulkMode env) before).getLast? = some r →
        s.storage.slotWidth ≤ r.width) →
      1 ≤ slotOf data.relayHeight s.storage.slotWidth →
      slotOf data.relayHeight s.storage.slotWidth ≤ s.storage.previousSlot →
      ∃ r ∈ (pallet C).outputs (genesis threshold bulkMode env) before,
        slotOf r.height s.storage.slotWidth = slotOf data.relayHeight s.storage.slotWidth) ∧
    (∀ acts a s, s = (node S chain).run Node.start acts → (headHeights acts).Pairwise (· < ·) →
      (∀ act ∈ acts, act.Reads (· < 32) fun _ => True) → s.follower = .locked a →
      (∀ o, ((node S chain).outputs Node.start acts).getLast? = some o → a.slotWidth ≤ o.width) →
      1 ≤ a.currentSlot.toNat → a.currentSlot ≤ s.record.lastSlot →
      ∃ o ∈ (node S chain).outputs Node.start acts,
        slotOf o.height a.slotWidth = slotOf a.head.height a.slotWidth) := by
  constructor
  · intro before after origin data s hs hinc hw hlatest hpos hrefused
    exact pallet_refusal_justified C threshold bulkMode env hs hinc hw hlatest hpos hrefused
  · intro acts a s hs hinc hw hlocked hlatest hpos hrefused
    exact node_refusal_justified S chain hs hinc hw hlocked hlatest hpos hrefused

/-- The template runtime is paid for relay block 8 at the given width. -/
def paidAt (width : UInt32) : List (Op (runtimeTypes (AccountId32 → U128))) :=
  .setSlotWidth .root width :: presentOrder 8 alice

/-- Alice's node has ordered at head 8 and holds the lock for a later head. -/
def orderedAt (width : UInt32) (later : UInt8) (laterWidth : UInt32) : List (Action Sr25519Public) :=
  followerCall (plainView [alice] width) 8 ++
    [.head (plainView [alice] laterWidth) (headAt later), .followerLock]

/-- The call Alice's node is in then, at width 2. -/
def laterAttempt (later : UInt8) : Attempt where
  head := headAt later
  paraHead := .replicate 0
  slotWidth := 2
  currentSlot := later.toUInt32 >>> 2

/-- At width 2 heights 8 and 9 share slot 2: after a reward and an order at 8,
both guards refuse 9. -/
theorem refusals_justified_same_slot :
    (∃ r ∈ (pallet (tableRuntime [orderEntry 8 alice])).outputs
      (genesis 0 true (collatorEnv [(alice, alice)])) (paidAt 2), slotOf r.height 2 = slotOf 9 2) ∧
    ∃ o ∈ (node (collator [alice]) fun _ => []).outputs Node.start (orderedAt 2 9 2),
      slotOf o.height 2 = slotOf 9 2 := by
  obtain ⟨hpallet, hnode⟩ := refusals_justified (tableRuntime [orderEntry 8 alice]) 0 true
    (collatorEnv [(alice, alice)]) (collator [alice]) fun _ => []
  constructor
  · have hlast : (((pallet (tableRuntime [orderEntry 8 alice])).outputs
        (genesis 0 true (collatorEnv [(alice, alice)])) (paidAt 2)).getLast?.map RewardCall.width) =
          some 2 := by decide
    have hwidth : ((pallet (tableRuntime [orderEntry 8 alice])).run
        (genesis 0 true (collatorEnv [(alice, alice)])) (paidAt 2)).storage.slotWidth = 2 := by decide
    have h := hpallet (paidAt 2) [] .none (dataOf (orderBlock 9 alice) 2000) _ rfl (by decide)
    rw [hwidth] at h
    refine h ?_ ?_ (by decide) (by decide)
    · intro origin w h
      simp only [paidAt, presentOrder, List.mem_cons, Op.setSlotWidth.injEq, reduceCtorEq,
        List.not_mem_nil, or_false] at h
      rw [h.2]
      decide
    · intro r hr
      rw [hr] at hlast
      exact UInt32.le_of_eq (Option.some.inj hlast).symm
  · have hlast : (((node (collator [alice]) fun _ => []).outputs Node.start
        (orderedAt 2 9 2)).getLast?.map Submission.width) = some 2 := by decide
    refine hnode (orderedAt 2 9 2) (laterAttempt 9) _ rfl (by decide) ?_ rfl ?_ (by decide)
      (by decide)
    · simp [orderedAt, followerCall, Action.call, Action.Reads, plainView]
    · intro o ho
      rw [ho] at hlast
      exact UInt32.le_of_eq (Option.some.inj hlast).symm

/-- **Widening starves slots.**  The chain is paid for height 8 at width 0, slot
8, and Alice's node orders there.  At width 2 height 12 is in slot 3, for which
nobody was paid and nobody ordered, and both guards refuse it. -/
theorem widening_starves :
    ((presentedHeights (paidAt 0 ++ [.setSlotWidth .root 2,
        .createOrder .none ⟨some (dataOf (orderBlock 12 alice) 2000)⟩])).Pairwise (· < ·) ∧
      ∃ s, s = (pallet (tableRuntime [orderEntry 8 alice])).run
          (genesis 0 true (collatorEnv [(alice, alice)])) (paidAt 0 ++ [.setSlotWidth .root 2]) ∧
        1 ≤ slotOf 12 s.storage.slotWidth ∧ slotOf 12 s.storage.slotWidth ≤ s.storage.previousSlot ∧
        ∀ r ∈ (pallet (tableRuntime [orderEntry 8 alice])).outputs
          (genesis 0 true (collatorEnv [(alice, alice)])) (paidAt 0 ++ [.setSlotWidth .root 2]),
          slotOf r.height s.storage.slotWidth ≠ slotOf 12 s.storage.slotWidth) ∧
    ((headHeights (orderedAt 0 12 2)).Pairwise (· < ·) ∧
      ∃ s, s = (node (collator [alice]) fun _ => []).run Node.start (orderedAt 0 12 2) ∧
        s.follower = .locked (laterAttempt 12) ∧ 1 ≤ (laterAttempt 12).currentSlot.toNat ∧
        (laterAttempt 12).currentSlot ≤ s.record.lastSlot ∧
        ∀ o ∈ (node (collator [alice]) fun _ => []).outputs Node.start (orderedAt 0 12 2),
          slotOf o.height 2 ≠ slotOf 12 2) := by
  refine ⟨⟨by decide, _, rfl, by decide, by decide, ?_⟩, by decide, _, rfl, rfl, by decide, by decide,
    ?_⟩
  · intro r hr
    obtain rfl := List.mem_singleton.mp hr
    decide
  · intro o ho
    obtain rfl := List.mem_singleton.mp ho
    decide

end OnDemand
