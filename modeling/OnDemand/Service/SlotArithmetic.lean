/-
# The slot width as a shift amount

`SlotWidth` is a `u32` that `set_slot_width` (`pallets/on-demand/src/lib.rs`)
stores without looking at it, and both programs shift by it: the pallet in
`slot_at`, the service in `current_slot` (`services/order/src/config.rs`) and
twice more in `submit_order` (`services/order/src/chain.rs`).  Both also take a
remainder by the number of authorities; the pallet returns before it when there
are none, the service does not.

`SlotSafe` is what one expects of all of them at once, in one state, for one
height and one authority list: slots are quotients, nothing overflows or loses
bits, nothing panics, and an empty list gives the pallet's no-op and the
service's error.  `slot_arithmetic_safe` says that in every state a chain can
reach this holds exactly for widths below 32 and lists that are not empty, in
every build; a chain whose `set_slot_width` calls keep below 32 stays there.
-/

import OnDemand.Service.Config

namespace OnDemand

open Word

variable {T : Types} {A : Type*}

/-- What is expected of the slot arithmetic at a relay height: of the pallet in
a state, and of a build of the service that reads the state's width and is given
an authority list. -/
structure SlotSafe (C : Config T) (checks : Bool) (s : State T) (h : UInt32) (authorities : List A) :
    Prop where
  palletSlot : slotAt C s.storage h = .ok (h.toNat / 2 ^ s.storage.slotWidth.toNat)
  /-- `current_slot`, and the first block of the slot. -/
  serviceSlot : ∃ slot first, currentSlot checks h (slotWidthApi s) = .ok slot ∧
    slot.toNat = h.toNat / 2 ^ s.storage.slotWidth.toNat ∧
    shl checks slot (slotWidthApi s) = some first ∧
    first.toNat = slot.toNat * 2 ^ s.storage.slotWidth.toNat
  /-- The mortality of an order. -/
  mortality : ∃ blocks, shl checks 1 (slotWidthApi s) = some blocks ∧
    blocks.toNat = 2 ^ s.storage.slotWidth.toNat
  /-- The only panic of `create_order` is that of a proof without its root. -/
  palletReturns : ∀ data reason, data.relayHeight = h →
    createOrder C s .none ⟨some data⟩ = .error (.panic reason) → reason = .invalidRelayChainStateProof
  palletEmpty : s.storage.authorities = [] → ∀ d, createOrder C s .none d = .ok (s, none)
  serviceReturns : ∀ reason, orderPlacer checks authorities h (slotWidthApi s) ≠ .error (.panic reason)
  serviceEmpty : authorities = [] → orderPlacer checks authorities h (slotWidthApi s) =
    .error (.error (.text "Failed to get selected collator"))

/-! ### The pallet -/

/-- Without authorities `create_order` does nothing. -/
theorem createOrder_of_no_authorities {C : Config T} {s : State T} (hnil : s.storage.authorities = [])
    (d : OrderInherentData) : createOrder C s .none d = .ok (s, none) := by
  obtain ⟨_ | data⟩ := d
  · rfl
  · simp [createOrder, hnil]

/-! ### Both programs -/

/-- **The exact range of the slot arithmetic.** -/
theorem slotSafe_iff (C : Config T) (checks : Bool) (s : State T) (h : UInt32) (authorities : List A) :
    SlotSafe C checks s h authorities ↔ s.storage.slotWidth < 32 ∧ authorities ≠ [] := by
  constructor
  · intro hsafe
    have hw : s.storage.slotWidth < 32 := by
      obtain ⟨blocks, -, hblocks⟩ := hsafe.mortality
      have hlt : 2 ^ s.storage.slotWidth.toNat < 2 ^ 32 := hblocks ▸ blocks.toNat_lt
      exact UInt32.lt_iff_toNat_lt.mpr ((Nat.pow_lt_pow_iff_right (by omega)).mp hlt)
    refine ⟨hw, ?_⟩
    rintro rfl
    refine hsafe.serviceReturns .remainderByZero ?_
    simp only [orderPlacer, currentSlot, slotWidthApi, shr_of_lt checks hw, List.length_nil, if_true]
  · rintro ⟨hw, hne⟩
    have hslot : (h >>> s.storage.slotWidth).toNat = h.toNat / 2 ^ s.storage.slotWidth.toNat :=
      toNat_shiftRight hw
    have hfirst : ((h >>> s.storage.slotWidth) <<< s.storage.slotWidth).toNat =
        (h >>> s.storage.slotWidth).toNat * 2 ^ s.storage.slotWidth.toNat := by
      rw [toNat_shiftRight_shiftLeft hw, hslot]
    obtain ⟨placer, hturn⟩ := RoundRobin.exists_turn hne (slotOf h s.storage.slotWidth)
    have hplacer := orderPlacer_of_lt checks hw hturn
    have hreturns : ∀ reason, orderPlacer checks authorities h s.storage.slotWidth ≠
        .error (.panic reason) := by
      intro reason hp
      rw [hplacer] at hp
      cases hp
    exact
      { palletSlot := by rw [slotAt_of_lt hw, slotOf, hslot]
        serviceSlot := ⟨_, _, by rw [currentSlot, slotWidthApi, shr_of_lt checks hw], hslot,
          shl_of_lt checks hw, hfirst⟩
        mortality := ⟨_, shl_of_lt checks hw, toNat_one_shiftLeft hw⟩
        palletReturns := fun data reason _ hp => createOrder_panic hw hp
        palletEmpty := fun hnil d => createOrder_of_no_authorities hnil d
        serviceReturns := hreturns
        serviceEmpty := fun hnil => absurd hnil hne }

/-! ### Runs -/

/-- An admitted `set_slot_width` keeps below 32. -/
def Op.WidthBelow32 (C : Config T) : Op T → Prop
  | .setSlotWidth origin width => ensureOriginOrRoot C origin = true → width < 32
  | _ => True

/-- One such operation keeps the width below 32. -/
theorem slotWidth_lt_step {C : Config T} {s : State T} {op : Op T} (hop : op.WidthBelow32 C)
    (hs : s.storage.slotWidth < 32) : ((pallet C).next s op).storage.slotWidth < 32 := by
  have hstep := pallet_step C s op
  generalize (pallet C).next s op = s' at hstep ⊢
  generalize (pallet C).emit s op = rs at hstep
  cases hstep with
  | quiet hwidth => rw [hwidth]; exact hs
  | width hadmin hwidth => rw [hwidth]; exact hop hadmin
  | paid hdue => exact hs

/-- **Slot arithmetic is safe below 32 and for authorities.**  In every state a
run of any calls reaches from genesis, for every height, every authority list
and every build, the slot arithmetic of pallet and service is as expected if and
only if the width is below 32 and the list is not empty; and every run whose
`set_slot_width` calls keep below 32 reaches only such widths. -/
theorem slot_arithmetic_safe (C : Config T) (checks : Bool) (threshold : T.ThresholdParameter)
    (bulkMode : Bool) (env : Env T) (ops : List (Op T)) :
    (∀ (h : UInt32) (authorities : List A),
      SlotSafe C checks ((pallet C).run (genesis threshold bulkMode env) ops) h authorities ↔
        ((pallet C).run (genesis threshold bulkMode env) ops).storage.slotWidth < 32 ∧
          authorities ≠ []) ∧
    ((∀ op ∈ ops, op.WidthBelow32 C) → ∀ (h : UInt32) (authorities : List A), authorities ≠ [] →
      SlotSafe C checks ((pallet C).run (genesis threshold bulkMode env) ops) h authorities) := by
  refine ⟨fun h authorities => slotSafe_iff C checks _ h authorities, ?_⟩
  intro hops h authorities hne
  have hw : ((pallet C).run (genesis threshold bulkMode env) ops).storage.slotWidth < 32 := by
    refine (pallet C).run_invariant (fun s => s.storage.slotWidth < 32) ?_ ?_
    · show (0 : UInt32) < 32
      decide
    · intro op hop s hs
      exact slotWidth_lt_step (hops op hop) hs
  exact (slotSafe_iff C checks _ h authorities).mpr ⟨hw, hne⟩

/-- Root sets the width to 3: height 13 is then in slot 1, and safe for a list of
one in a build with overflow checks. -/
theorem slot_arithmetic_safe_width_3 :
    SlotSafe (tableRuntime []) true ((pallet (tableRuntime [])).run
      (genesis 0 false (collatorEnv [])) [.setSlotWidth .root 3]) 13 [alice] ∧
    slotAt (tableRuntime []) ((pallet (tableRuntime [])).run (genesis 0 false (collatorEnv []))
      [.setSlotWidth .root 3]).storage 13 = .ok 1 := by
  have hops : ∀ op ∈ [Op.setSlotWidth .root 3], op.WidthBelow32 (tableRuntime []) := by
    intro op hop
    obtain rfl := List.mem_singleton.mp hop
    exact fun _ => by decide
  exact ⟨(slot_arithmetic_safe (tableRuntime []) true 0 false (collatorEnv []) _).2 hops 13 [alice]
    (List.cons_ne_nil _ _), by decide⟩

/-- **A width of 32 and an empty list.**  Root sets the width to 32.  Without
overflow checks height 5 is in slot 5 instead of 0, with them `current_slot`
panics; and at width 0 the service divides by the length of an empty list, where
the pallet does nothing. -/
theorem width_32_and_no_authorities :
    slotAt (tableRuntime []) ((pallet (tableRuntime [])).run (genesis 0 false (collatorEnv []))
      [.setSlotWidth .root 32]).storage 5 = .ok 5 ∧
    5 / 2 ^ ((pallet (tableRuntime [])).run (genesis 0 false (collatorEnv []))
      [.setSlotWidth .root 32]).storage.slotWidth.toNat = 0 ∧
    currentSlot true 5 32 = .error (.panic .shiftOverflow) ∧
    orderPlacer false ([] : List Sr25519Public) 5 0 = .error (.panic .remainderByZero) ∧
    ¬SlotSafe (tableRuntime []) true ((pallet (tableRuntime [])).run
      (genesis 0 false (collatorEnv [])) [.setSlotWidth .root 32]) 5 [alice] ∧
    ¬SlotSafe (tableRuntime []) false ((pallet (tableRuntime [])).run
      (genesis 0 false (collatorEnv [])) []) 5 ([] : List Sr25519Public) := by
  refine ⟨by decide, by decide, by decide, by decide, ?_, ?_⟩
  · rw [slotSafe_iff]
    exact fun h => absurd h.1 (by decide)
  · rw [slotSafe_iff]
    exact fun h => h.2 rfl

end OnDemand
