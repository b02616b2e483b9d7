/-
# Rewards across changes of the slot width

`PreviousSlot` (`pallets/on-demand/src/lib.rs`) is a slot number, and
`set_slot_width` changes what slot numbers mean without touching it.  The guard
`slot <= PreviousSlot` then compares numbers of two scales, and goes wrong in
both directions.

*Narrowing* lifts the numbers of old heights: a block already rewarded can pass
the guard again (`narrowing_pays_twice`).  `RewardedStayBelow` is a condition on a
width change that is enough to prevent it, that no height rewarded so far gets a
number above `PreviousSlot`; a run whose width changes all meet it pays every relay
height at most once (`rewards_distinct_heights`).  It is not necessary over a run: a
height that was lifted may never be presented again, or only after other rewards.

*Widening* lowers the numbers of new heights, which the guard then refuses
though nobody was paid for their slot.  `pallet_refusal_justified` is what is
left: a refusal at a width at most that of the latest reward is for a height in
the very slot that was rewarded.
-/

import OnDemand.Pallet.Run

namespace OnDemand

open Word

variable {T : Types}

/-! ### Narrowing -/

/-- No admitted `set_slot_width` of the run moves a height rewarded before it
above `PreviousSlot`.  A run that breaks this may still pay no height twice. -/
def RewardedStayBelow (C : Config T) (g : State T) (ops : List (Op T)) : Prop :=
  ∀ before origin w after, ops = before ++ .setSlotWidth origin w :: after →
    ensureOriginOrRoot C origin = true → ∀ r ∈ (pallet C).outputs g before,
      slotOf r.height w ≤ ((pallet C).run g before).storage.previousSlot

/-- The condition passes to what was run before. -/
theorem RewardedStayBelow.of_append {C : Config T} {g : State T} {ops ops' : List (Op T)}
    (h : RewardedStayBelow C g (ops ++ ops')) : RewardedStayBelow C g ops := by
  rintro before origin w after rfl
  exact h before origin w (after ++ ops') (by simp)

/-- While it holds, every height rewarded has a number of at most
`PreviousSlot` at the width in force, and no height was rewarded twice. -/
theorem rewarded_le_previousSlot (C : Config T) {g : State T} (ops : List (Op T))
    (h : RewardedStayBelow C g ops) :
    (∀ r ∈ (pallet C).outputs g ops, slotOf r.height ((pallet C).run g ops).storage.slotWidth ≤
      ((pallet C).run g ops).storage.previousSlot) ∧
    ((pallet C).outputs g ops).Pairwise fun a b => a.height ≠ b.height := by
  revert h
  refine (pallet C).run_induction g
    (P := fun ops s rs => RewardedStayBelow C g ops →
      (∀ r ∈ rs, slotOf r.height s.storage.slotWidth ≤ s.storage.previousSlot) ∧
      rs.Pairwise fun a b => a.height ≠ b.height) ?_ ?_ ops
  · intro _
    exact ⟨fun r hr => absurd hr List.not_mem_nil, List.Pairwise.nil⟩
  · intro ops op ih h
    obtain ⟨hle, hpair⟩ := ih h.of_append
    have hstep := pallet_step C ((pallet C).run g ops) op
    generalize (pallet C).next ((pallet C).run g ops) op = s' at hstep ⊢
    generalize (pallet C).emit ((pallet C).run g ops) op = rs at hstep ⊢
    cases hstep with
    | quiet hwidth hprevious =>
        rw [List.append_nil, hwidth, hprevious]
        exact ⟨hle, hpair⟩
    | width hadmin hwidth hprevious =>
        rw [List.append_nil, hwidth, hprevious]
        exact ⟨h ops _ _ [] (by simp) hadmin, hpair⟩
    | paid hdue =>
        have hfresh := hdue.fresh
        constructor
        · intro r hr
          rcases List.mem_append.mp hr with hr | hr
          · exact (hle r hr).trans hfresh.le
          · obtain rfl := List.mem_singleton.mp hr
            exact le_rfl
        · refine List.pairwise_append.mpr ⟨hpair, List.pairwise_singleton _ _, ?_⟩
          intro a ha b hb heq
          obtain rfl := List.mem_singleton.mp hb
          have hsame := hle a ha
          rw [heq] at hsame
          exact absurd hsame (Nat.not_le_of_lt hfresh)

/-- **No relay height is rewarded twice** in a run whose width changes keep the
heights rewarded at or below `PreviousSlot`, whatever the data, the admin calls
and the runtime around the pallet do. -/
theorem rewards_distinct_heights (C : Config T) (threshold : T.ThresholdParameter) (bulkMode : Bool)
    (env : Env T) (ops : List (Op T))
    (h : RewardedStayBelow C (genesis threshold bulkMode env) ops) :
    (((pallet C).outputs (genesis threshold bulkMode env) ops).map RewardCall.height).Nodup :=
  List.pairwise_map.mpr (rewarded_le_previousSlot C ops h).2

/-- Within range, a wider slot has a smaller number. -/
theorem slotOf_anti {h w w' : UInt32} (hw : w ≤ w') (hw' : w' < 32) : slotOf h w' ≤ slotOf h w := by
  have hwn : w.toNat ≤ w'.toNat := UInt32.le_iff_toNat_le.mp hw
  have hw32 : w < 32 := UInt32.lt_iff_toNat_lt.mpr (hwn.trans_lt (UInt32.lt_iff_toNat_lt.mp hw'))
  rw [slotOf, slotOf, toNat_shiftRight hw', toNat_shiftRight hw32]
  exact Nat.div_le_div_left (Nat.pow_le_pow_right (by omega) hwn) (Nat.two_pow_pos _)

/-- **A run that never narrows the width meets the condition.** -/
theorem rewardedStayBelow_of_le {C : Config T} {g : State T} {ops : List (Op T)}
    (h : ∀ before origin w after, ops = before ++ .setSlotWidth origin w :: after →
      ensureOriginOrRoot C origin = true →
        ((pallet C).run g before).storage.slotWidth ≤ w ∧ w < 32) : RewardedStayBelow C g ops := by
  induction ops using List.reverseRecOn with
  | nil =>
      intro before origin w after he
      simp at he
  | append_singleton ops op ih =>
      have hops : RewardedStayBelow C g ops := by
        refine ih fun before origin w after he => h before origin w (after ++ [op]) ?_
        simp [he]
      intro before origin w after he hadmin r hr
      obtain ⟨hle, hw⟩ := h before origin w after he hadmin
      have hlen : before.length ≤ ops.length := by
        have hlen := congrArg List.length he
        simp only [List.length_append, List.length_cons, List.length_nil] at hlen
        omega
      obtain ⟨rest, rfl⟩ : before <+: ops :=
        List.prefix_of_prefix_length_le ⟨_, he.symm⟩ ⟨[op], rfl⟩ hlen
      exact (slotOf_anti hle hw).trans ((rewarded_le_previousSlot C before hops.of_append).1 r hr)

/-- A run of the template runtime that widens from 1 to 2 blocks between two
rewards. -/
def widenedOps : List (Op (runtimeTypes (AccountId32 → U128))) :=
  presentOrder 8 alice ++ [.setSlotWidth .root 1,
    .createOrder .none ⟨some (dataOf (orderBlock 20 alice) 2000)⟩]

/-- The condition is met by a run with a width change and two rewards. -/
theorem rewards_distinct_heights_widened :
    (((pallet (tableRuntime [orderEntry 8 alice, orderEntry 20 alice])).outputs
      (genesis 0 true (collatorEnv [(alice, alice)])) widenedOps).map RewardCall.height) = [8, 20] ∧
    (((pallet (tableRuntime [orderEntry 8 alice, orderEntry 20 alice])).outputs
      (genesis 0 true (collatorEnv [(alice, alice)])) widenedOps).map RewardCall.height).Nodup := by
  refine ⟨by decide, rewards_distinct_heights _ _ _ _ _ ?_⟩
  refine rewardedStayBelow_of_le fun before origin w after he _ => ?_
  obtain _ | ⟨a, _ | ⟨b, _ | ⟨c, _ | ⟨d, _ | ⟨e, before⟩⟩⟩⟩⟩ := before <;>
    simp [widenedOps, presentOrder] at he
  obtain ⟨rfl, rfl, rfl, ⟨rfl, rfl⟩, rfl⟩ := he
  exact ⟨by decide, by decide⟩

/-- **Narrowing pays one relay block twice.**  At width 1 Alice is rewarded for
relay block 8, slot 4; the width is then set to 0, and the same honest data is
in slot 8. -/
theorem narrowing_pays_twice :
    HonestData (tableProofs [orderEntry 8 alice]) (orderBlock 8 alice)
      (dataOf (orderBlock 8 alice) 2000) ∧
    ((pallet (tableRuntime [orderEntry 8 alice])).outputs
      (genesis 0 true (collatorEnv [(alice, alice)]))
      ([.setSlotWidth .root 1] ++ presentOrder 8 alice ++ [.setSlotWidth .root 0,
        .createOrder .none ⟨some (dataOf (orderBlock 8 alice) 2000)⟩])).map
        (fun r => (r.height, r.slot)) = [(8, 4), (8, 8)] := by
  refine ⟨⟨rfl, rfl, by decide, by decide⟩, by decide⟩

/-! ### Widening -/

/-- The relay heights a list of operations presents to `create_order`. -/
def presentedHeights (ops : List (Op T)) : List UInt32 :=
  ops.filterMap fun op =>
    match op with
    | .createOrder _ d => d.data.map InherentData.relayHeight
    | _ => none

/-- An operation keeps the width or sets it. -/
theorem PalletStep.slotWidth {C : Config T} {s s' : State T} {op : Op T} {rs : List (RewardCall T)}
    (h : PalletStep C s op s' rs) : s'.storage.slotWidth = s.storage.slotWidth ∨
      ∃ origin, op = .setSlotWidth origin s'.storage.slotWidth := by
  cases h with
  | quiet hwidth => exact Or.inl hwidth
  | width _ hwidth => exact Or.inr ⟨_, by rw [hwidth]⟩
  | paid => exact Or.inl rfl

/-- A reward of a run is for a height presented in it, and its slot is that of
the height at the width it was paid at; that width is in range when every width
set is. -/
theorem mem_rewards {C : Config T} {s : State T} {ops : List (Op T)} (hs : s.storage.slotWidth < 32)
    (hw : ∀ origin w, .setSlotWidth origin w ∈ ops → w < 32) :
    ∀ r ∈ (pallet C).outputs s ops, r.height ∈ presentedHeights ops ∧
      r.slot = slotOf r.height r.width ∧ r.width < 32 := by
  refine (pallet C).forall_mem_outputs (fun t => t.storage.slotWidth < 32) hs ?_ ?_
  · intro op hop t ht
    rcases (pallet_step C t op).slotWidth with hsame | ⟨origin, hset⟩
    · rw [hsame]
      exact ht
    · exact hw origin _ (hset ▸ hop)
  · intro op hop t ht r hr
    obtain ⟨data, owner, rfl, -, rfl⟩ := (pallet_step C t op).due_of_mem hr
    exact ⟨List.mem_filterMap.mpr ⟨_, hop, rfl⟩, rfl, ht⟩

/-- Heights that a wider slot's number refuses share a slot. -/
theorem slotOf_eq_of_le {h h₀ w w₀ : UInt32} (hw : w ≤ w₀) (hw₀ : w₀ < 32) (hh : h₀ ≤ h)
    (hle : slotOf h w ≤ slotOf h₀ w₀) : slotOf h₀ w = slotOf h w := by
  have hwn : w.toNat ≤ w₀.toNat := UInt32.le_iff_toNat_le.mp hw
  have hw32 : w < 32 := UInt32.lt_iff_toNat_lt.mpr (hwn.trans_lt (UInt32.lt_iff_toNat_lt.mp hw₀))
  unfold slotOf at hle ⊢
  rw [toNat_shiftRight hw32, toNat_shiftRight hw₀] at hle
  rw [toNat_shiftRight hw32, toNat_shiftRight hw32]
  exact (window_eq_of_le hwn (UInt32.le_iff_toNat_le.mp hh) hle).symm

/-- **A slot guard refuses rightly at no wider a width.**  Let a register that
starts at 0 be a ratchet over the slots of what a machine emits, each the slot
of a height below `h` at a width below 32.  If it refuses `h` at a width of at
most the one of the latest output, something was emitted for a height in the
same slot of that width. -/
theorem refusal_justified {σ ι ο : Type*} {M : Transducer σ ι ο} {G : ι → Prop} {Inv : σ → Prop}
    {reg : σ → ℕ} {val : ο → ℕ} (R : M.Ratchet G Inv reg val) {s : σ} {is : List ι} (hs : Inv s)
    (his : ∀ i ∈ is, G i) (hzero : reg s = 0) (height width : ο → UInt32) {h w : UInt32}
    (hout : ∀ o ∈ M.outputs s is, val o = slotOf (height o) (width o) ∧ width o < 32 ∧ height o < h)
    (hlatest : ∀ o, (M.outputs s is).getLast? = some o → w ≤ width o) (hpos : 1 ≤ slotOf h w)
    (hrefused : slotOf h w ≤ reg (M.run s is)) :
    ∃ o ∈ M.outputs s is, slotOf (height o) w = slotOf h w := by
  have hlast := R.reg_eq_last hs his
  rw [hzero] at hlast
  cases ho : (M.outputs s is).getLast? with
  | none =>
      rw [ho, Option.map_none, Option.getD_none] at hlast
      omega
  | some o =>
      have hmem : o ∈ M.outputs s is := List.mem_of_getLast? ho
      obtain ⟨hval, hwo, hlt⟩ := hout o hmem
      rw [ho, Option.map_some, Option.getD_some, hval] at hlast
      rw [hlast] at hrefused
      exact ⟨o, hmem, slotOf_eq_of_le (hlatest o ho) hwo (UInt32.le_of_lt hlt) hrefused⟩

/-- **A refusal by the pallet at no wider a width is for a slot that was
paid.**  Heights are presented in strictly increasing order and widths stay
below 32.  If the guard refuses a height whose slot is at least 1, and the width
in force is at most the one the latest reward was paid at, then a reward was
paid for a height in the same slot of the width in force. -/
theorem pallet_refusal_justified (C : Config T) (threshold : T.ThresholdParameter) (bulkMode : Bool)
    (env : Env T) {before after : List (Op T)} {origin : Origin} {data : InherentData} {s : State T}
    (hs : s = (pallet C).run (genesis threshold bulkMode env) before)
    (hinc : (presentedHeights (before ++ .createOrder origin ⟨some data⟩ :: after)).Pairwise (· < ·))
    (hw : ∀ origin w, .setSlotWidth origin w ∈ before → w < 32)
    (hlatest : ∀ r, ((pallet C).outputs (genesis threshold bulkMode env) before).getLast? = some r →
      s.storage.slotWidth ≤ r.width)
    (hpos : 1 ≤ slotOf data.relayHeight s.storage.slotWidth)
    (hrefused : slotOf data.relayHeight s.storage.slotWidth ≤ s.storage.previousSlot) :
    ∃ r ∈ (pallet C).outputs (genesis threshold bulkMode env) before,
      slotOf r.height s.storage.slotWidth = slotOf data.relayHeight s.storage.slotWidth := by
  have hrewards := mem_rewards (C := C) (s := genesis threshold bulkMode env)
    (show (0 : UInt32) < 32 by decide) hw
  refine refusal_justified (pallet_ratchet C) trivial (fun _ _ => trivial) rfl RewardCall.height
    RewardCall.width ?_ hlatest hpos (hs ▸ hrefused)
  intro r hr
  obtain ⟨hheight, hslot, hwr⟩ := hrewards r hr
  refine ⟨hslot, hwr, ?_⟩
  rw [presentedHeights, List.filterMap_append, List.pairwise_append] at hinc
  exact hinc.2.2 r.height hheight data.relayHeight (by simp)

end OnDemand
