/-
# AURA consensus under concurrent calls

`AuraConsensus::produce_candidate` (`client/consensus/on-demand-aura/src/lib.rs`).
The handle is cloned freely, and all clones share one atomic register of the last
slot and one worker behind a mutex; so calls run side by side and any of them may
be dropped where it waits.

The machine `auraConsensus` has a place for each call and a step for each thing a
call does between two points where others can run: it has made its slot info, it
does its `fetch_max`, it gets the mutex and hands the slot to the worker, the
worker is done, it is dropped.  A list of steps is one interleaving.

A call goes on past `fetch_max` exactly when its slot is above every slot fetched
before it (`fetched_passes_iff`).  From there to the worker the order may change,
but nothing is doubled: in every interleaving no slot is handed to the worker
twice, slot 0 never is, and one call at a time is with the worker
(`worker_sees_slot_once`).
-/

import OnDemand.Base.Transducer
import Mathlib.Data.List.Nodup

namespace OnDemand.Client

/-- `SlotInfo`, with headers `H`. -/
structure SlotInfo (H : Type) where
  slot : UInt64
  chainHead : H
  blockSizeLimit : Option UInt64

/-- Where a call is. -/
inductive Call (H : Type) where
  | idle
  /-- At `fetch_max`. -/
  | called (info : SlotInfo H)
  /-- At `aura_worker.lock().await`. -/
  | waiting (info : SlotInfo H)
  /-- At `on_slot(info).await`. -/
  | working (info : SlotInfo H)

/-- What the calls of all clones share, and where each of them is. -/
structure AuraConsensus (κ H : Type) where
  lastSlotProcessed : UInt64
  /-- The call that holds the worker's mutex. -/
  worker : Option κ
  call : κ → Call H

/-- A step of a call. -/
inductive CallStep (H : Type) where
  /-- `produce_candidate` up to the slot info: the slot of the inherent data
  providers, or none if they could not be created. -/
  | produceCandidate (parent : H) (maxPovSize : UInt32) (slot : Option UInt64)
  | fetchMax
  | lock
  | finish
  | drop

/-- What is seen of a step. -/
inductive CallEvent (H : Type) where
  /-- `fetch_max` of a slot, and whether the call goes on. -/
  | fetched (slot : UInt64) (passes : Bool)
  /-- `on_slot` is called. -/
  | onSlot (info : SlotInfo H)

variable {κ H : Type} [DecidableEq κ]

/-- The slot info of a call: half of the PoV size is for the block. -/
def SlotInfo.new (parent : H) (maxPovSize : UInt32) (slot : UInt64) : SlotInfo H :=
  ⟨slot, parent, some (maxPovSize / 2).toUInt64⟩

namespace AuraConsensus

/-- `AuraConsensus::build`. -/
def build : AuraConsensus κ H := ⟨0, none, fun _ => .idle⟩

/-- The call moves. -/
def move (s : AuraConsensus κ H) (k : κ) (c : Call H) : AuraConsensus κ H :=
  { s with call := Function.update s.call k c }

/-- `fetch_max(slot) >= slot` returns `None`. -/
def onFetchMax (s : AuraConsensus κ H) (k : κ) : AuraConsensus κ H × List (CallEvent H) :=
  match s.call k with
  | .called info =>
      let next := { s with lastSlotProcessed := max s.lastSlotProcessed info.slot }
      if info.slot ≤ s.lastSlotProcessed then (next.move k .idle, [.fetched info.slot false])
      else (next.move k (.waiting info), [.fetched info.slot true])
  | _ => (s, [])

/-- The mutex is free: the call takes it and calls `on_slot`. -/
def onLock (s : AuraConsensus κ H) (k : κ) : AuraConsensus κ H × List (CallEvent H) :=
  match s.call k, s.worker with
  | .waiting info, none => ({ s.move k (.working info) with worker := some k }, [.onSlot info])
  | _, _ => (s, [])

/-- The call returns, or its future is dropped, and with it the guard of the
mutex. -/
def onReturn (s : AuraConsensus κ H) (k : κ) : AuraConsensus κ H :=
  { s.move k .idle with worker := if s.worker = some k then none else s.worker }

end AuraConsensus

/-- The calls of all clones. -/
def auraConsensus (κ H : Type) [DecidableEq κ] :
    Transducer (AuraConsensus κ H) (κ × CallStep H) (CallEvent H) where
  step s x :=
    match x.2, s.call x.1 with
    | .produceCandidate parent maxPovSize (some slot), .idle =>
        (s.move x.1 (.called (.new parent maxPovSize slot)), [])
    | .produceCandidate _ _ _, _ => (s, [])
    | .fetchMax, _ => s.onFetchMax x.1
    | .lock, _ => s.onLock x.1
    | .finish, .working _ => (s.onReturn x.1, [])
    | .finish, _ => (s, [])
    | .drop, _ => (s.onReturn x.1, [])

/-! ### What a step can do -/

/-- The steps of a call and what is seen of them. -/
inductive ConsensusStep (s : AuraConsensus κ H) (k : κ) :
    AuraConsensus κ H → List (CallEvent H) → Prop where
  | stay : ConsensusStep s k s []
  | call (info : SlotInfo H) : s.call k = .idle → ConsensusStep s k (s.move k (.called info)) []
  | refuse (info : SlotInfo H) : s.call k = .called info → info.slot ≤ s.lastSlotProcessed →
      ConsensusStep s k (s.move k .idle) [.fetched info.slot false]
  | pass (info : SlotInfo H) : s.call k = .called info → s.lastSlotProcessed < info.slot →
      ConsensusStep s k { s.move k (.waiting info) with lastSlotProcessed := info.slot }
        [.fetched info.slot true]
  | work (info : SlotInfo H) : s.call k = .waiting info → s.worker = none →
      ConsensusStep s k { s.move k (.working info) with worker := some k } [.onSlot info]
  | leave : ConsensusStep s k (s.onReturn k) []

theorem max_eq_left_of_le {a b : UInt64} (h : b ≤ a) : max a b = a := by
  show (if a ≤ b then b else a) = a
  split
  · rename_i hab
    exact UInt64.le_antisymm h hab
  · rfl

theorem max_eq_right_of_lt {a b : UInt64} (h : a < b) : max a b = b := by
  show (if a ≤ b then b else a) = b
  rw [if_pos (UInt64.le_of_lt h)]

/-- **Every step is one of these.** -/
theorem consensus_step (s : AuraConsensus κ H) (x : κ × CallStep H) :
    ConsensusStep s x.1 ((auraConsensus κ H).next s x) ((auraConsensus κ H).emit s x) := by
  obtain ⟨k, step⟩ := x
  unfold Transducer.next Transducer.emit auraConsensus
  dsimp only
  split
  · rename_i parent size slot hidle
    exact .call _ hidle
  · exact .stay
  · unfold AuraConsensus.onFetchMax
    split
    · rename_i info hcalled
      dsimp only
      split
      · rename_i hle
        rw [max_eq_left_of_le hle]
        exact .refuse info hcalled hle
      · rename_i hlt
        rw [max_eq_right_of_lt (UInt64.not_le.mp hlt)]
        exact .pass info hcalled (UInt64.not_le.mp hlt)
    · exact .stay
  · unfold AuraConsensus.onLock
    split
    · rename_i info hwaiting hfree
      exact .work info hwaiting hfree
    · exact .stay
  · exact .leave
  · exact .stay
  · exact .leave

/-! ### Every interleaving -/

/-- The slots handed to the worker. -/
def handed (events : List (CallEvent H)) : List UInt64 :=
  events.filterMap fun
    | .onSlot info => some info.slot
    | .fetched _ _ => none

theorem handed_append (events events' : List (CallEvent H)) :
    handed (events ++ events') = handed events ++ handed events' := List.filterMap_append ..

/-- The slots fetched. -/
def fetched (events : List (CallEvent H)) : List UInt64 :=
  events.filterMap fun
    | .fetched slot _ => some slot
    | .onSlot _ => none

theorem fetched_append (events events' : List (CallEvent H)) :
    fetched (events ++ events') = fetched events ++ fetched events' := List.filterMap_append ..

/-- What holds of the calls once these slots have been handed to the worker: the
register is an upper bound of them and of the slots on their way, the slots on
their way are new ones and belong to one call each, and the mutex is held by the
one call that is with the worker. -/
structure ConsensusInv (s : AuraConsensus κ H) (slots : List UInt64) : Prop where
  nodup : slots.Nodup
  handed : ∀ slot ∈ slots, 0 < slot ∧ slot ≤ s.lastSlotProcessed
  waiting : ∀ k info, s.call k = .waiting info →
    0 < info.slot ∧ info.slot ≤ s.lastSlotProcessed ∧ info.slot ∉ slots
  distinct : ∀ k l i j, s.call k = .waiting i → s.call l = .waiting j → i.slot = j.slot → k = l
  working : ∀ k, s.worker = some k ↔ ∃ info, s.call k = .working info

omit [DecidableEq κ] in
theorem consensusInv_build : ConsensusInv (.build : AuraConsensus κ H) [] where
  nodup := List.nodup_nil
  handed := nofun
  waiting := nofun
  distinct := nofun
  working _ := ⟨nofun, nofun⟩

/-- A call is where it was unless it moves. -/
theorem call_move (s : AuraConsensus κ H) (k l : κ) (c : Call H) :
    (s.move k c).call l = if l = k then c else s.call l :=
  Function.update_apply ..

namespace ConsensusInv

variable {s : AuraConsensus κ H} {slots : List UInt64} {k : κ}

/-- A call that is not with the worker moves to where it neither waits nor
works. -/
theorem move (h : ConsensusInv s slots) {c : Call H} (hk : ∀ info, s.call k ≠ .working info)
    (hwaiting : ∀ info, c ≠ .waiting info) (hworking : ∀ info, c ≠ .working info) :
    ConsensusInv (s.move k c) slots where
  nodup := h.nodup
  handed := h.handed
  waiting l info hl := by
    rw [call_move] at hl
    split at hl
    · exact absurd hl (hwaiting info)
    · exact h.waiting l info hl
  distinct l m i j hl hm := by
    rw [call_move] at hl hm
    split at hl
    · exact absurd hl (hwaiting i)
    · split at hm
      · exact absurd hm (hwaiting j)
      · exact h.distinct l m i j hl hm
  working l := by
    rw [call_move]
    split
    · rename_i hlk
      subst hlk
      constructor
      · intro hworker
        obtain ⟨info, hinfo⟩ := (h.working l).mp hworker
        exact absurd hinfo (hk info)
      · rintro ⟨info, hinfo⟩
        exact absurd hinfo (hworking info)
    · exact h.working l

/-- A slot above the register passes. -/
theorem pass (h : ConsensusInv s slots) {info : SlotInfo H} (hk : s.call k = .called info)
    (hlt : s.lastSlotProcessed < info.slot) :
    ConsensusInv { s.move k (.waiting info) with lastSlotProcessed := info.slot } slots where
  nodup := h.nodup
  handed slot hslot := by
    obtain ⟨hpos, hle⟩ := h.handed slot hslot
    exact ⟨hpos, UInt64.le_trans hle (UInt64.le_of_lt hlt)⟩
  waiting l i hl := by
    change (s.move k (.waiting info)).call l = .waiting i at hl
    rw [call_move] at hl
    split at hl
    · obtain rfl := Call.waiting.inj hl
      refine ⟨UInt64.lt_of_le_of_lt UInt64.zero_le hlt, UInt64.le_refl _, fun hmem => ?_⟩
      exact UInt64.not_le.mpr hlt (h.handed _ hmem).2
    · obtain ⟨hpos, hle, hnew⟩ := h.waiting l i hl
      exact ⟨hpos, UInt64.le_trans hle (UInt64.le_of_lt hlt), hnew⟩
  distinct l m i j hl hm hij := by
    change (s.move k (.waiting info)).call l = .waiting i at hl
    change (s.move k (.waiting info)).call m = .waiting j at hm
    rw [call_move] at hl hm
    -- a call that waited before has a slot up to the register, the new one is above
    split at hl
    · rename_i hlk
      split at hm
      · rename_i hmk
        rw [hlk, hmk]
      · obtain rfl := Call.waiting.inj hl
        rw [hij] at hlt
        exact absurd (h.waiting m j hm).2.1 (UInt64.not_le.mpr hlt)
    · split at hm
      · obtain rfl := Call.waiting.inj hm
        rw [← hij] at hlt
        exact absurd (h.waiting l i hl).2.1 (UInt64.not_le.mpr hlt)
      · exact h.distinct l m i j hl hm hij
  working l := by
    change s.worker = some l ↔ ∃ i, (s.move k (.waiting info)).call l = .working i
    rw [call_move, h.working l]
    split
    · rename_i hlk
      rw [hlk, hk]
      exact ⟨nofun, nofun⟩
    · exact Iff.rfl

/-- A call that waits hands its slot to the worker. -/
theorem work (h : ConsensusInv s slots) {info : SlotInfo H} (hk : s.call k = .waiting info)
    (hfree : s.worker = none) :
    ConsensusInv { s.move k (.working info) with worker := some k } (slots ++ [info.slot]) where
  nodup := by
    refine List.nodup_append.mpr ⟨h.nodup, List.nodup_singleton _, ?_⟩
    rintro slot hslot slot' hslot' rfl
    rw [List.mem_singleton.mp hslot'] at hslot
    exact (h.waiting k info hk).2.2 hslot
  handed slot hslot := by
    rcases List.mem_append.mp hslot with hold | hnew
    · exact h.handed slot hold
    · obtain rfl := List.mem_singleton.mp hnew
      obtain ⟨hpos, hle, -⟩ := h.waiting k info hk
      exact ⟨hpos, hle⟩
  waiting l i hl := by
    change (s.move k (.working info)).call l = .waiting i at hl
    rw [call_move] at hl
    split at hl
    · cases hl
    · rename_i hlk
      obtain ⟨hpos, hle, hnew⟩ := h.waiting l i hl
      refine ⟨hpos, hle, fun hmem => ?_⟩
      rcases List.mem_append.mp hmem with hold | hsame
      · exact hnew hold
      · exact hlk (h.distinct l k i info hl hk (List.mem_singleton.mp hsame))
  distinct l m i j hl hm hij := by
    change (s.move k (.working info)).call l = .waiting i at hl
    change (s.move k (.working info)).call m = .waiting j at hm
    rw [call_move] at hl hm
    split at hl
    · cases hl
    · split at hm
      · cases hm
      · exact h.distinct l m i j hl hm hij
  working l := by
    change some k = some l ↔ ∃ i, (s.move k (.working info)).call l = .working i
    rw [call_move]
    split
    · rename_i hlk
      exact ⟨fun _ => ⟨info, rfl⟩, fun _ => congrArg some hlk.symm⟩
    · rename_i hlk
      rw [← h.working l, hfree, Option.some.injEq]
      exact ⟨fun hkl => absurd hkl.symm hlk, nofun⟩

/-- A call returns and lets go of the mutex. -/
theorem leave (h : ConsensusInv s slots) : ConsensusInv (s.onReturn k) slots where
  nodup := h.nodup
  handed := h.handed
  waiting l info hl := by
    change (s.move k .idle).call l = .waiting info at hl
    rw [call_move] at hl
    split at hl
    · cases hl
    · exact h.waiting l info hl
  distinct l m i j hl hm := by
    change (s.move k .idle).call l = .waiting i at hl
    change (s.move k .idle).call m = .waiting j at hm
    rw [call_move] at hl hm
    split at hl
    · cases hl
    · split at hm
      · cases hm
      · exact h.distinct l m i j hl hm
  working l := by
    change (if s.worker = some k then none else s.worker) = some l ↔
      ∃ info, (s.move k .idle).call l = .working info
    rw [call_move]
    by_cases hlk : l = k
    · subst hlk
      rw [if_pos rfl]
      refine ⟨fun hworker => ?_, nofun⟩
      split at hworker
      · cases hworker
      · rename_i hnot
        exact absurd hworker hnot
    · rw [if_neg hlk, ← h.working l]
      split
      · rename_i hworker
        rw [hworker, Option.some.injEq]
        exact ⟨nofun, fun hkl => absurd hkl.symm hlk⟩
      · exact Iff.rfl

/-- **One step keeps the invariant**, with the slots it hands over. -/
theorem step {s' : AuraConsensus κ H} {new : List (CallEvent H)} (hstep : ConsensusStep s k s' new)
    (h : ConsensusInv s slots) : ConsensusInv s' (slots ++ Client.handed new) := by
  cases hstep with
  | stay => simpa [Client.handed] using h
  | call info hidle =>
      rw [Client.handed, List.filterMap_nil, List.append_nil]
      exact h.move (by rw [hidle]; exact nofun) nofun nofun
  | refuse info hcalled hle =>
      have hmove : ConsensusInv (s.move k .idle) slots :=
        h.move (by rw [hcalled]; exact nofun) nofun nofun
      simpa [Client.handed] using hmove
  | pass info hcalled hlt => simpa [Client.handed] using h.pass hcalled hlt
  | work info hwaiting hfree => exact h.work hwaiting hfree
  | leave => simpa [Client.handed] using h.leave

end ConsensusInv

/-- The invariant holds along every interleaving. -/
theorem consensusInv_run (steps : List (κ × CallStep H)) :
    ConsensusInv ((auraConsensus κ H).run .build steps)
      (handed ((auraConsensus κ H).outputs .build steps)) := by
  refine (auraConsensus κ H).run_induction .build
    (P := fun _ s events => ConsensusInv s (handed events)) consensusInv_build ?_ steps
  intro steps x h
  rw [handed_append]
  exact h.step (consensus_step _ x)

/-- **The worker sees a slot once.**  In every interleaving of concurrent calls, no
slot is handed to the worker twice and slot 0 never is; at any moment at most one
call is with the worker, and it holds the mutex. -/
theorem worker_sees_slot_once (steps : List (κ × CallStep H)) :
    (handed ((auraConsensus κ H).outputs .build steps)).Nodup ∧
    0 ∉ handed ((auraConsensus κ H).outputs .build steps) ∧
    ∀ k l i j, ((auraConsensus κ H).run .build steps).call k = .working i →
      ((auraConsensus κ H).run .build steps).call l = .working j →
      k = l ∧ ((auraConsensus κ H).run .build steps).worker = some k := by
  have h := consensusInv_run steps
  refine ⟨h.nodup, fun hzero => ?_, ?_⟩
  · exact absurd (h.handed 0 hzero).1 (by decide)
  · intro k l i j hk hl
    have hworker := (h.working k).mpr ⟨i, hk⟩
    have hworker' := (h.working l).mpr ⟨j, hl⟩
    rw [hworker, Option.some.injEq] at hworker'
    exact ⟨hworker', hworker⟩

/-! ### Who passes -/

/-- The register is the greatest of the slots, and of 0. -/
def Greatest (register : UInt64) (slots : List UInt64) : Prop :=
  register ∈ 0 :: slots ∧ ∀ slot ∈ 0 :: slots, slot ≤ register

theorem Greatest.step {s s' : AuraConsensus κ H} {k : κ} {new : List (CallEvent H)}
    {slots : List UInt64} (hstep : ConsensusStep s k s' new)
    (h : Greatest s.lastSlotProcessed slots) :
    Greatest s'.lastSlotProcessed (slots ++ fetched new) := by
  obtain ⟨hmem, hle⟩ := h
  cases hstep with
  | stay => simpa [fetched] using ⟨hmem, hle⟩
  | call info hidle => simpa [fetched] using ⟨hmem, hle⟩
  | work info hwaiting hfree => simpa [fetched] using ⟨hmem, hle⟩
  | leave => simpa [fetched] using ⟨hmem, hle⟩
  | refuse info hcalled hslot =>
      refine ⟨List.mem_append_left [info.slot] hmem, fun slot hin => ?_⟩
      rcases List.mem_append.mp (show slot ∈ (0 :: slots) ++ [info.slot] from hin) with hold | hnew
      · exact hle slot hold
      · rw [List.mem_singleton.mp hnew]
        exact hslot
  | pass info hcalled hlt =>
      refine ⟨List.mem_append_right (0 :: slots) (List.mem_singleton.mpr rfl), fun slot hin => ?_⟩
      rcases List.mem_append.mp (show slot ∈ (0 :: slots) ++ [info.slot] from hin) with hold | hnew
      · exact UInt64.le_trans (hle slot hold) (UInt64.le_of_lt hlt)
      · rw [List.mem_singleton.mp hnew]
        exact UInt64.le_refl _

/-- The register is the greatest slot fetched, along every interleaving. -/
theorem greatest_run (steps : List (κ × CallStep H)) :
    Greatest ((auraConsensus κ H).run .build steps).lastSlotProcessed
      (fetched ((auraConsensus κ H).outputs .build steps)) := by
  refine (auraConsensus κ H).run_induction .build
    (P := fun _ s events => Greatest s.lastSlotProcessed (fetched events)) ?_ ?_ steps
  · refine ⟨List.mem_cons_self .., fun slot hslot => ?_⟩
    rw [List.mem_singleton.mp hslot]
    exact UInt64.le_refl _
  · intro steps x h
    rw [fetched_append]
    exact h.step (consensus_step _ x)

/-- **Who passes `fetch_max`.**  In every interleaving a call goes on exactly when
its slot is above 0 and above every slot fetched before it, by whichever call. -/
theorem fetched_passes_iff (steps : List (κ × CallStep H)) (before after : List (CallEvent H))
    (slot : UInt64) (passes : Bool)
    (h : (auraConsensus κ H).outputs .build steps = before ++ .fetched slot passes :: after) :
    passes = true ↔ ∀ earlier ∈ 0 :: fetched before, earlier < slot := by
  obtain ⟨first, x, -, new, rest, -, rfl, hemit⟩ := (auraConsensus κ H).exists_of_outputs_eq_append h
  obtain ⟨hmem, hle⟩ := greatest_run first
  have hstep := consensus_step ((auraConsensus κ H).run .build first) x
  generalize (auraConsensus κ H).next ((auraConsensus κ H).run .build first) x = s' at hstep
  rw [hemit] at hstep
  -- the step emits one event, so nothing of it comes before
  obtain rfl : new = [] := by
    cases new with
    | nil => rfl
    | cons e new =>
        exfalso
        have hlength : (e :: new ++ .fetched slot passes :: rest).length ≤ 1 := by
          generalize e :: new ++ .fetched slot passes :: rest = events at hstep
          cases hstep <;> simp
        simp at hlength
  rw [List.append_nil]
  generalize hevents : [] ++ .fetched slot passes :: rest = events at hstep
  cases hstep with
  | stay => cases hevents
  | call info hidle => cases hevents
  | work info hwaiting hfree => cases hevents
  | leave => cases hevents
  | refuse info hcalled hslot =>
      obtain ⟨rfl, rfl⟩ := CallEvent.fetched.inj (List.cons.inj hevents).1
      refine ⟨nofun, fun hall => ?_⟩
      exact absurd hslot (UInt64.not_le.mpr (hall _ hmem))
  | pass info hcalled hlt =>
      obtain ⟨rfl, rfl⟩ := CallEvent.fetched.inj (List.cons.inj hevents).1
      exact ⟨fun _ earlier hin => UInt64.lt_of_le_of_lt (hle earlier hin) hlt, fun _ => rfl⟩

/-- Two calls race with one slot: the second to fetch does not pass. -/
theorem fetched_passes_race :
    ¬ ∀ earlier ∈ 0 :: fetched (H := Unit) [.fetched 5 true], earlier < 5 := by
  intro hall
  have hpasses := (fetched_passes_iff (κ := Bool) (H := Unit)
    [(true, .produceCandidate () 10 (some 5)), (false, .produceCandidate () 10 (some 5)),
      (true, .fetchMax), (false, .fetchMax)]
    [.fetched 5 true] [] 5 false rfl).mpr hall
  cases hpasses

end OnDemand.Client
