/-
# The rotation of the placers

`order_placer` (`services/order/src/config.rs`) and `order_placer_at`
(`pallets/on-demand/src/lib.rs`) run one round robin: the node over `u32` slots
and the list of the runtime API, the pallet over `u128` slots and its storage.
With the same list and the same width below 32, both give slot `s` to whoever
has turn `s` on the list (`elects_iff_turn`).  A slot is a range of `2^w` relay
heights, so the range elects one authority, and as many consecutive slots as
there are authorities elect each of them once (`fair_rotation`), also where the
slots straddle a multiple of the length or end at the last one a `u32` height
can fall in.
-/

import OnDemand.Service.Config

namespace OnDemand

open Word RoundRobin

section Rotation

variable {T : Types} {checks : Bool} {C : Config T} {st : Storage T} {h : UInt32} {a : T.AuthorityId}

/-- The relay heights of slot `s` at width `w`. -/
def InSlot (w : UInt32) (s : ℕ) (h : UInt32) : Prop :=
  s * 2 ^ w.toNat ≤ h.toNat ∧ h.toNat < (s + 1) * 2 ^ w.toNat

/-- `order_placer`, given the pallet's list and width, and `order_placer_at` both
elect the authority. -/
def Elects (checks : Bool) (C : Config T) (st : Storage T) (h : UInt32) (a : T.AuthorityId) : Prop :=
  orderPlacer checks st.authorities h st.slotWidth = .ok a ∧ orderPlacerAt C st h = .ok (some a)

theorem inSlot_iff {w : UInt32} (hw : w < 32) {s : ℕ} : InSlot w s h ↔ slotOf h w = s :=
  (toNat_shiftRight_eq_iff hw).symm

/-- **Both elections are the turn of the slot.** -/
theorem elects_iff_turn (hw : st.slotWidth < 32) :
    Elects checks C st h a ↔ turn st.authorities (slotOf h st.slotWidth) = some a := by
  constructor
  · rintro ⟨hnode, -⟩
    exact orderPlacer_eq hnode
  · intro hturn
    refine ⟨orderPlacer_of_lt checks hw hturn, ?_⟩
    rw [orderPlacerAt_eq (slotAt_of_lt hw h) (length_ne_zero_of_elected hturn)]
    exact congrArg Except.ok hturn

/-- **Fair rotation.**  For distinct authorities and a width below 32, the relay
heights of one slot elect one authority, in the node and in the runtime alike,
and over as many consecutive slots as there are authorities, all of them slots of
`u32` heights, every authority is elected in exactly one. -/
theorem fair_rotation (checks : Bool) (C : Config T) (st : Storage T) (hne : st.authorities ≠ [])
    (hnd : st.authorities.Nodup) (hw : st.slotWidth < 32) :
    (∀ s, ∃ a, ∀ h, InSlot st.slotWidth s h → Elects checks C st h a) ∧
    ∀ s₀, s₀ + st.authorities.length ≤ 2 ^ (32 - st.slotWidth.toNat) → ∀ a ∈ st.authorities,
      ∃! s, s₀ ≤ s ∧ s < s₀ + st.authorities.length ∧
        ∃ h, InSlot st.slotWidth s h ∧ Elects checks C st h a := by
  constructor
  · intro s
    obtain ⟨a, hturn⟩ := exists_turn hne s
    refine ⟨a, ?_⟩
    intro h hin
    rw [elects_iff_turn hw, (inSlot_iff hw).mp hin]
    exact hturn
  · intro s₀ hroom a ha
    obtain ⟨s, ⟨hlo, hhi, hturn⟩, huniq⟩ := existsUnique_turn hnd ha s₀
    obtain ⟨h, hs⟩ := exists_toNat_shiftRight_eq hw (hhi.trans_le hroom)
    refine ⟨s, ⟨hlo, hhi, h, (inSlot_iff hw).mpr hs, ?_⟩, ?_⟩
    · rw [elects_iff_turn hw, slotOf, hs]
      exact hturn
    · rintro s' ⟨hlo', hhi', h', hin, helects⟩
      refine huniq s' ⟨hlo', hhi', ?_⟩
      rw [← (inSlot_iff hw).mp hin]
      exact (elects_iff_turn hw).mp helects

end Rotation

/-- Three collators take turns over the four slots there are at width 30. -/
def widestRotation : Storage (runtimeTypes (AccountId32 → U128)) where
  authorities := [alice, bob, .replicate 3]
  slotWidth := 30
  thresholdParameter := 0
  bulkMode := none
  previousSlot := 0

/-- The last slot elects one collator throughout, and the last three, which pass
a multiple of three and end with the last `u32` height, elect Alice once. -/
theorem fair_rotation_widest :
    (∃ a, ∀ h, InSlot 30 3 h → Elects true (tableRuntime []) widestRotation h a) ∧
    ∃! s, 1 ≤ s ∧ s < 4 ∧
      ∃ h, InSlot 30 s h ∧ Elects true (tableRuntime []) widestRotation h alice := by
  have h := fair_rotation true (tableRuntime []) widestRotation (by decide) (by decide) (by decide)
  exact ⟨h.1 3, h.2 1 (by decide) alice (by decide)⟩

end OnDemand
