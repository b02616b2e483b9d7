/-
# What `create_order` does

`create_order` (`pallets/on-demand/src/lib.rs`) checks nine things one after
the other and pays at the end.  `Due` is everything that must hold of the state
and the inherent for a reward, and `createOrder_cases` is the whole effect of a
call that returns: either nothing is paid and the state is the one before, or
the reward was due and the state is `rewarded`.  `createOrder_of_due` is the
converse.  Later results about rewards use these two and never open the call.

`createOrder_returns_iff` is the other side, when the call returns at all.  An
inherent that leaves at an early exit returns (`createOrder_of_not_reaches`).
Past them (`createOrder_of_reaches`) the one thing that stops an inherent with a
valid proof is the owner lookup: `KeyOwner` must have an entry for the elected
key.
-/

import OnDemand.Base.RoundRobin
import OnDemand.Pallet.Basic

namespace OnDemand

open Word

variable {T : Types} {C : Config T} {s s' : State T} {data : InherentData} {owner : T.ValidatorId}

/-- The authority whose turn the slot of a relay height is. -/
def electedPlacer (st : Storage T) (relayHeight : UInt32) : Option T.AuthorityId :=
  st.authorities[slotOf relayHeight st.slotWidth % st.authorities.length]?

/-- A reward for `owner` is due. -/
structure Due (C : Config T) (s : State T) (data : InherentData) (owner : T.ValidatorId) : Prop where
  onDemand : s.storage.bulkMode = none
  criterion : C.shouldPlaceOrder s = true
  inRange : slotAt C s.storage data.relayHeight =
    .ok (slotOf data.relayHeight s.storage.slotWidth)
  fresh : s.storage.previousSlot < slotOf data.relayHeight s.storage.slotWidth
  present : C.proofs.rootPresent data.relayStateRoot data.relayStorageProof = true
  elected : ∃ placer, electedPlacer s.storage data.relayHeight = some placer ∧
    s.env.keyOwner aura (T.toRawVec placer) = some owner
  ordered : ∃ order ∈ C.ordersPlaced
    ⟨data.paraId, data.relayStateRoot, data.relayStorageProof⟩ data.paraId,
      C.validatorIdOf order.2 = some owner

/-- Whenever `slot_at` returns, it returns the slot. -/
theorem slotAt_eq {st : Storage T} {h : UInt32} {slot : ℕ} (hs : slotAt C st h = .ok slot) :
    slot = slotOf h st.slotWidth := by
  unfold slotAt at hs
  split at hs
  · cases hs
  · rename_i x hx
    rw [eq_of_shr_eq_some hx] at hs
    exact (Except.ok.inj hs).symm

/-- At a width below 32 `slot_at` returns in every build. -/
theorem slotAt_of_lt {st : Storage T} (hw : st.slotWidth < 32) (h : UInt32) :
    slotAt C st h = .ok (slotOf h st.slotWidth) := by
  rw [slotAt, shr_of_lt _ hw]
  rfl

/-- With authorities to choose from, `order_placer_at` is the elected placer. -/
theorem orderPlacerAt_eq {st : Storage T} {h : UInt32}
    (hs : slotAt C st h = .ok (slotOf h st.slotWidth)) (hne : st.authorities.length ≠ 0) :
    orderPlacerAt C st h = .ok (electedPlacer st h) := by
  simp only [orderPlacerAt, hs, if_neg hne, electedPlacer]

/-- An elected placer exists exactly when there are authorities. -/
theorem exists_electedPlacer {st : Storage T} (hne : st.authorities.length ≠ 0) (h : UInt32) :
    ∃ placer, electedPlacer st h = some placer :=
  RoundRobin.exists_turn (List.ne_nil_of_length_pos (Nat.pos_of_ne_zero hne)) _

theorem length_ne_zero_of_elected {st : Storage T} {h : UInt32} {placer : T.AuthorityId}
    (he : electedPlacer st h = some placer) : st.authorities.length ≠ 0 := by
  intro h0
  rw [electedPlacer, List.length_eq_zero_iff.mp h0] at he
  cases he

/-- **The whole effect of a call that returns.**  The origin was none, and
either nothing was paid and nothing changed, or a reward was due and paid. -/
theorem createOrder_cases {origin : Origin} {d : OrderInherentData} {r : Option (RewardCall T)}
    (h : createOrder C s origin d = .ok (s', r)) : origin = .none ∧
      ((r = none ∧ s' = s) ∨ ∃ data owner, d.data = some data ∧ Due C s data owner ∧
        r = some (rewardCall s data owner) ∧ s' = rewarded C s data owner) := by
  unfold createOrder at h
  have hskip : ∀ {x : State T × Option (RewardCall T)},
      Except.ok (s, none) = Except.ok (ε := Failure) x → x.2 = none ∧ x.1 = s := by
    intro x hx
    cases hx
    exact ⟨rfl, rfl⟩
  split at h
  · cases h
  rename_i horigin
  refine ⟨not_not.mp horigin, ?_⟩
  split at h
  · exact Or.inl (hskip h)
  rename_i data hdata
  split at h
  · exact Or.inl (hskip h)
  rename_i hbulk
  split at h
  · exact Or.inl (hskip h)
  rename_i hne
  split at h
  · exact Or.inl (hskip h)
  rename_i hcrit
  split at h
  · cases h
  rename_i slot hslot
  obtain rfl := slotAt_eq hslot
  split at h
  · exact Or.inl (hskip h)
  rename_i hfresh
  split at h
  · cases h
  rename_i proof hproof
  rw [orderPlacerAt_eq hslot hne] at h
  obtain ⟨placer, hplacer⟩ := exists_electedPlacer hne data.relayHeight
  rw [hplacer] at h
  split at h
  · cases h
  · rename_i hnone
    cases hnone
  rename_i placer' hplacer'
  obtain rfl := Option.some.inj (Except.ok.inj hplacer')
  split at h
  · cases h
  rename_i owner howner
  unfold RelayChainStateProof.new at hproof
  split at hproof
  · rename_i hpresent
    obtain rfl := Option.some.inj hproof
    split at h
    · rename_i hany
      obtain ⟨order, hmem, hord⟩ := List.any_eq_true.mp hany
      have hdue : Due C s data owner :=
        { onDemand := by simpa using hbulk
          criterion := by simpa using hcrit
          inRange := hslot
          fresh := Nat.lt_of_not_le hfresh
          present := hpresent
          elected := ⟨placer, hplacer, howner⟩
          ordered := ⟨order, hmem, by simpa using hord⟩ }
      cases h
      exact Or.inr ⟨data, owner, hdata, hdue, rfl, rfl⟩
    · exact Or.inl (hskip h)
  · cases hproof

/-- **A reward that is due is paid.** -/
theorem createOrder_of_due (hdue : Due C s data owner) :
    createOrder C s .none ⟨some data⟩ =
      .ok (rewarded C s data owner, some (rewardCall s data owner)) := by
  obtain ⟨placer, hplacer, howner⟩ := hdue.elected
  obtain ⟨order, hmem, hord⟩ := hdue.ordered
  have hne : s.storage.authorities.length ≠ 0 := length_ne_zero_of_elected hplacer
  have hfresh : ¬slotOf data.relayHeight s.storage.slotWidth ≤ s.storage.previousSlot :=
    Nat.not_le_of_lt hdue.fresh
  have hany : (C.ordersPlaced ⟨data.paraId, data.relayStateRoot, data.relayStorageProof⟩
      data.paraId).any (fun r => C.validatorIdOf r.2 == some owner) = true :=
    List.any_eq_true.mpr ⟨order, hmem, by simpa using hord⟩
  simp [createOrder, hdue.onDemand, hne, hdue.criterion, hdue.inRange, hfresh,
    RelayChainStateProof.new, hdue.present, orderPlacerAt_eq hdue.inRange hne, hplacer, howner, hany]

/-- The inherent passes every early exit and reaches the proof. -/
structure ReachesProof (C : Config T) (s : State T) (data : InherentData) : Prop where
  onDemand : s.storage.bulkMode = none
  nonempty : s.storage.authorities ≠ []
  criterion : C.shouldPlaceOrder s = true
  fresh : s.storage.previousSlot < slotOf data.relayHeight s.storage.slotWidth

/-- An inherent that leaves at an early exit changes nothing. -/
theorem createOrder_of_not_reaches (hw : s.storage.slotWidth < 32) (hr : ¬ReachesProof C s data) :
    createOrder C s .none ⟨some data⟩ = .ok (s, none) := by
  have hslot := slotAt_of_lt (C := C) hw data.relayHeight
  by_cases h₁ : s.storage.bulkMode = none
  · by_cases h₂ : s.storage.authorities = []
    · simp [createOrder, h₁, h₂]
    · by_cases h₃ : C.shouldPlaceOrder s = true
      · have h₄ : slotOf data.relayHeight s.storage.slotWidth ≤ s.storage.previousSlot :=
          Nat.le_of_not_lt fun h => hr ⟨h₁, h₂, h₃, h⟩
        simp [createOrder, h₁, h₂, h₃, hslot, h₄]
      · simp [createOrder, h₁, h₂, h₃]
  · simp [createOrder, Option.isSome_iff_ne_none.mpr h₁]

/-- **What is left of the call past the early exits**: without the root in the
proof it panics, without an owner of the elected key it fails, and otherwise it
returns. -/
theorem createOrder_of_reaches (hw : s.storage.slotWidth < 32) (hr : ReachesProof C s data) :
    ∃ placer, electedPlacer s.storage data.relayHeight = some placer ∧
      (C.proofs.rootPresent data.relayStateRoot data.relayStorageProof = false →
        createOrder C s .none ⟨some data⟩ = .error (.panic .invalidRelayChainStateProof)) ∧
      (C.proofs.rootPresent data.relayStateRoot data.relayStorageProof = true →
        s.env.keyOwner aura (T.toRawVec placer) = none →
        createOrder C s .none ⟨some data⟩ = .error (.module .failedToGetOrderPlacerAccount)) ∧
      (C.proofs.rootPresent data.relayStateRoot data.relayStorageProof = true →
        ∀ owner, s.env.keyOwner aura (T.toRawVec placer) = some owner →
        ∃ r, createOrder C s .none ⟨some data⟩ = .ok r) := by
  have hslot := slotAt_of_lt (C := C) hw data.relayHeight
  have hne : s.storage.authorities.length ≠ 0 := by
    simpa using hr.nonempty
  have hfresh : ¬slotOf data.relayHeight s.storage.slotWidth ≤ s.storage.previousSlot :=
    Nat.not_le_of_lt hr.fresh
  obtain ⟨placer, hplacer⟩ := exists_electedPlacer hne data.relayHeight
  refine ⟨placer, hplacer, ?_⟩
  simp only [createOrder, hr.onDemand, hne, hr.criterion, hslot, hfresh, RelayChainStateProof.new,
    orderPlacerAt_eq hslot hne, hplacer, ne_eq, not_true_eq_false, Option.isSome_none,
    Bool.false_eq_true, Bool.true_eq_false, if_false]
  refine ⟨fun hp => ?_, fun hp howner => ?_, fun hp owner howner => ?_⟩
  · simp only [hp, Bool.false_eq_true, if_false]
  · simp only [hp, howner, if_true]
  · simp only [hp, howner, if_true]
    split_ifs
    · exact ⟨_, rfl⟩
    · exact ⟨_, rfl⟩

/-- **When an inherent with a valid proof returns.**  It does unless it passes
every early exit and the elected key has no owner. -/
theorem createOrder_returns_iff (hw : s.storage.slotWidth < 32)
    (hp : C.proofs.rootPresent data.relayStateRoot data.relayStorageProof = true) :
    (∃ r, createOrder C s .none ⟨some data⟩ = .ok r) ↔
      (ReachesProof C s data → ∃ placer owner, electedPlacer s.storage data.relayHeight = some placer ∧
        s.env.keyOwner aura (T.toRawVec placer) = some owner) := by
  by_cases hr : ReachesProof C s data
  · obtain ⟨placer, hplacer, -, hfails, hreturns⟩ := createOrder_of_reaches hw hr
    constructor
    · rintro ⟨r, hok⟩ -
      cases howner : s.env.keyOwner aura (T.toRawVec placer) with
      | none =>
          rw [hfails hp howner] at hok
          cases hok
      | some owner => exact ⟨placer, owner, hplacer, howner⟩
    · intro h
      obtain ⟨placer', owner, hplacer', howner⟩ := h hr
      obtain rfl := Option.some.inj (hplacer.symm.trans hplacer')
      exact hreturns hp owner howner
  · exact ⟨fun _ hr' => absurd hr' hr, fun _ => ⟨_, createOrder_of_not_reaches hw hr⟩⟩

/-- **At a width below 32 the call panics only on a proof without its root**:
the remainder by the number of authorities is taken past the check for them. -/
theorem createOrder_panic {reason : Panic} (hw : s.storage.slotWidth < 32)
    (h : createOrder C s .none ⟨some data⟩ = .error (.panic reason)) :
    reason = .invalidRelayChainStateProof := by
  by_cases hr : ReachesProof C s data
  · obtain ⟨placer, -, hpanics, hfails, hreturns⟩ := createOrder_of_reaches hw hr
    cases hp : C.proofs.rootPresent data.relayStateRoot data.relayStorageProof with
    | false =>
        rw [hpanics hp] at h
        cases h
        rfl
    | true =>
        cases howner : s.env.keyOwner aura (T.toRawVec placer) with
        | none =>
            rw [hfails hp howner] at h
            cases h
        | some owner =>
            obtain ⟨r, hok⟩ := hreturns hp owner howner
            rw [hok] at h
            cases h
  · rw [createOrder_of_not_reaches hw hr] at h
    cases h

end OnDemand
