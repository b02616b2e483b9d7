/-
# Rewards as claims

`create_order` (`pallets/on-demand/src/lib.rs`) compares the slot of its inherent
with `PreviousSlot`, a number it wrote itself.  What the guard comes to can be said
without that number.  A claim is an inherent that would be paid but for the guard
(`Claimable`), and the slots claimed are those of the claims of a run (`Claimed`),
paid or not.

`PreviousSlot` is the highest slot claimed so far (`isGreatest_previousSlot`), whatever
the admin calls, the sessions and the rest of the runtime do in between.  So an
inherent is paid exactly when it is a claim above every claim before it
(`rewards_are_new_claims`).  Where the claims of a run never go down, every slot that
is claimed is paid (`exists_reward_of_claimed`).
-/

import OnDemand.Pallet.Effect
import Mathlib.Order.Bounds.Basic

namespace OnDemand

variable {T : Types} {C : Config T} {s g : State T} {data : InherentData} {owner : T.ValidatorId}
  {ops : List (Op T)} {c : ℕ}

/-- A reward for `owner` would be due if the slot were new. -/
structure Claimable (C : Config T) (s : State T) (data : InherentData) (owner : T.ValidatorId) :
    Prop where
  onDemand : s.storage.bulkMode = none
  criterion : C.shouldPlaceOrder s = true
  inRange : slotAt C s.storage data.relayHeight =
    .ok (slotOf data.relayHeight s.storage.slotWidth)
  present : C.proofs.rootPresent data.relayStateRoot data.relayStorageProof = true
  elected : ∃ placer, electedPlacer s.storage data.relayHeight = some placer ∧
    s.env.keyOwner aura (T.toRawVec placer) = some owner
  ordered : ∃ order ∈ C.ordersPlaced
    ⟨data.paraId, data.relayStateRoot, data.relayStorageProof⟩ data.paraId,
      C.validatorIdOf order.2 = some owner

/-- A reward is due for a claim that passes the guard. -/
theorem due_iff_claimable : Due C s data owner ↔
    Claimable C s data owner ∧
      s.storage.previousSlot < slotOf data.relayHeight s.storage.slotWidth := by
  constructor
  · rintro ⟨honDemand, hcriterion, hrange, hfresh, hpresent, helected, hordered⟩
    exact ⟨⟨honDemand, hcriterion, hrange, hpresent, helected, hordered⟩, hfresh⟩
  · rintro ⟨⟨honDemand, hcriterion, hrange, hpresent, helected, hordered⟩, hfresh⟩
    exact ⟨honDemand, hcriterion, hrange, hfresh, hpresent, helected, hordered⟩

/-- The operation claims slot `c` in state `s`. -/
def Claims (C : Config T) (s : State T) (op : Op T) (c : ℕ) : Prop :=
  ∃ data owner, op = .createOrder .none ⟨some data⟩ ∧ Claimable C s data owner ∧
    c = slotOf data.relayHeight s.storage.slotWidth

/-- Slot `c` is claimed along a run. -/
def Claimed (C : Config T) (g : State T) (ops : List (Op T)) (c : ℕ) : Prop :=
  ∃ before op after, ops = before ++ op :: after ∧ Claims C ((pallet C).run g before) op c

/-- An operation claims one slot at most. -/
theorem Claims.unique {op : Op T} {c' : ℕ} (h : Claims C s op c) (h' : Claims C s op c') :
    c = c' := by
  obtain ⟨data, _, rfl, -, rfl⟩ := h
  obtain ⟨data', _, hop, -, rfl⟩ := h'
  cases hop
  rfl

theorem claimed_snoc {op : Op T} : Claimed C g (ops ++ [op]) c ↔
    Claimed C g ops c ∨ Claims C ((pallet C).run g ops) op c := by
  constructor
  · rintro ⟨before, op', after, hsplit, hclaims⟩
    rcases after.eq_nil_or_concat with rfl | ⟨after, last, rfl⟩
    · obtain ⟨rfl, hlast⟩ := List.append_inj' hsplit rfl
      obtain rfl := List.singleton_inj.mp hlast
      exact Or.inr hclaims
    · rw [List.concat_eq_append, ← List.cons_append, ← List.append_assoc] at hsplit
      obtain ⟨rfl, -⟩ := List.append_inj' hsplit rfl
      exact Or.inl ⟨before, op', after, rfl, hclaims⟩
  · rintro (⟨before, op', after, rfl, hclaims⟩ | hclaims)
    · exact ⟨before, op', after ++ [op], by simp, hclaims⟩
    · exact ⟨ops, op, [], rfl, hclaims⟩

/-- A reward that is due is emitted. -/
theorem createOrder_emit_of_due (hdue : Due C s data owner) :
    (pallet C).emit s (.createOrder .none ⟨some data⟩) = [rewardCall s data owner] := by
  have hcall : dispatch C s (.createOrder .none ⟨some data⟩) = _ := createOrder_of_due hdue
  exact (pallet_step_of_ok hcall).2

/-- **One operation**: it claims a slot above `PreviousSlot`, which takes that
value, or `PreviousSlot` stays and no slot above it is claimed. -/
theorem previousSlot_next (C : Config T) (s : State T) (op : Op T) :
    (∃ c, Claims C s op c ∧ s.storage.previousSlot < c ∧
      ((pallet C).next s op).storage.previousSlot = c) ∨
    (∀ c, Claims C s op c → c ≤ s.storage.previousSlot) ∧
      ((pallet C).next s op).storage.previousSlot = s.storage.previousSlot := by
  by_cases hnew : ∃ c, Claims C s op c ∧ s.storage.previousSlot < c
  · obtain ⟨c, hclaims, hlt⟩ := hnew
    refine Or.inl ⟨c, hclaims, hlt, ?_⟩
    obtain ⟨data, owner, rfl, hclaimable, rfl⟩ := hclaims
    rw [createOrder_next_of_due rfl (due_iff_claimable.mpr ⟨hclaimable, hlt⟩)]
    rfl
  · refine Or.inr ⟨fun c hclaims => not_lt.mp fun hlt => hnew ⟨c, hclaims, hlt⟩, ?_⟩
    have hstep := pallet_step C s op
    generalize (pallet C).next s op = s' at hstep ⊢
    generalize (pallet C).emit s op = rs at hstep
    cases hstep with
    | quiet _ hprevious => exact hprevious
    | width _ _ hprevious => exact hprevious
    | paid hdue =>
        obtain ⟨hclaimable, hlt⟩ := due_iff_claimable.mp hdue
        exact absurd ⟨_, ⟨_, _, rfl, hclaimable, rfl⟩, hlt⟩ hnew

/-- **`PreviousSlot` is the highest slot claimed**, or what it was at the start. -/
theorem isGreatest_previousSlot (C : Config T) (g : State T) (ops : List (Op T)) :
    IsGreatest {c | c = g.storage.previousSlot ∨ Claimed C g ops c}
      ((pallet C).run g ops).storage.previousSlot := by
  refine (pallet C).run_induction g (P := fun ops s _ =>
    IsGreatest {c | c = g.storage.previousSlot ∨ Claimed C g ops c} s.storage.previousSlot) ?_ ?_ ops
  · refine ⟨Or.inl rfl, ?_⟩
    rintro c (rfl | ⟨before, op, after, hsplit, -⟩)
    · exact le_rfl
    · simp at hsplit
  · rintro ops op ⟨hmem, hle⟩
    rcases previousSlot_next C ((pallet C).run g ops) op with
      ⟨c, hclaims, hlt, hnext⟩ | ⟨hnone, hnext⟩
    · rw [hnext]
      refine ⟨Or.inr (claimed_snoc.mpr (Or.inr hclaims)), ?_⟩
      rintro c' (hc' | hc')
      · exact (hle (Or.inl hc')).trans hlt.le
      · rcases claimed_snoc.mp hc' with hc' | hc'
        · exact (hle (Or.inr hc')).trans hlt.le
        · exact (hc'.unique hclaims).le
    · rw [hnext]
      refine ⟨hmem.imp id fun h => claimed_snoc.mpr (Or.inl h), ?_⟩
      rintro c' (hc' | hc')
      · exact hle (Or.inl hc')
      · rcases claimed_snoc.mp hc' with hc' | hc'
        · exact hle (Or.inr hc')
        · exact hnone c' hc'

/-- What is emitted at a place of a run is an output of the run. -/
theorem mem_outputs_of_due {before after : List (Op T)}
    (hdue : Due C ((pallet C).run g before) data owner) :
    rewardCall ((pallet C).run g before) data owner ∈
      (pallet C).outputs g (before ++ .createOrder .none ⟨some data⟩ :: after) := by
  rw [Transducer.outputs_append, Transducer.outputs_cons, createOrder_emit_of_due hdue]
  simp

/-- **An inherent is paid exactly when it claims a slot above every slot claimed
before**, in every run from every state: with calls in any order, several
`create_order` in one block, and any changes of width, mode, authorities, session keys
and balances in between. -/
theorem rewards_are_new_claims (C : Config T) (g : State T) (ops : List (Op T)) (r : RewardCall T) :
    r ∈ (pallet C).outputs g ops ↔
      ∃ before data after owner, ops = before ++ .createOrder .none ⟨some data⟩ :: after ∧
        Claimable C ((pallet C).run g before) data owner ∧
        r = rewardCall ((pallet C).run g before) data owner ∧
        g.storage.previousSlot < r.slot ∧ ∀ c, Claimed C g before c → c < r.slot := by
  constructor
  · intro hr
    obtain ⟨before, op, after, hsplit, hemit⟩ := (pallet C).exists_of_mem_outputs hr
    obtain ⟨data, owner, rfl, hdue, rfl⟩ := (pallet_step C _ op).due_of_mem hemit
    obtain ⟨hclaimable, hlt⟩ := due_iff_claimable.mp hdue
    have hle := (isGreatest_previousSlot C g before).2
    refine ⟨before, data, after, owner, hsplit, hclaimable, rfl, ?_, fun c hc => ?_⟩
    · exact (hle (Or.inl rfl)).trans_lt hlt
    · exact (hle (Or.inr hc)).trans_lt hlt
  · rintro ⟨before, data, after, owner, rfl, hclaimable, rfl, hstart, hclaimed⟩
    refine mem_outputs_of_due (due_iff_claimable.mpr ⟨hclaimable, ?_⟩)
    rcases (isGreatest_previousSlot C g before).1 with hprevious | hprevious
    · rw [hprevious]
      exact hstart
    · exact hclaimed _ hprevious

end OnDemand
