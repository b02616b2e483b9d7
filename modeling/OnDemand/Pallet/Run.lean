/-
# Runs of the pallet

The pallet as a machine (`pallet`): an operation is one of its calls, the
finalize hook, or any change of the runtime around it, and what it emits are
the rewards it pays.  A call that fails leaves the state as it was; a call that
panics belongs to a block that never becomes part of the chain, and does the
same here.  A run is any list of operations from genesis, so calls come in any
order and number, several `create_order` in one block included.

`pallet_step` says once what an operation can do to `PreviousSlot` and
`SlotWidth`, and `pallet_ratchet` reads off it that `PreviousSlot` is a ratchet
over the slots rewarded, at any width and whatever the width does in between.
The pallet's only bound on inflation follows (`rewards_bounded`): slots rewarded
strictly increase from 1, so no slot number is paid twice, and what the pallet's
operations add to the total issuance is at most `PreviousSlot` rewards.  The
issuance is any measure of the ledger that `mint_into` raises by what it mints
(`Config.Issues`); what other pallets mint or burn on the way is not counted.
-/

import OnDemand.Base.Ratchet
import OnDemand.Runtime.Config
import Mathlib.Algebra.Order.Ring.Int

namespace OnDemand

open Word

variable {T : Types}

/-- An operation on the runtime state, as the pallet sees it. -/
inductive Op (T : Types) where
  | createOrder (origin : Origin) (d : OrderInherentData)
  | setSlotWidth (origin : Origin) (width : UInt32)
  | setThresholdParameter (origin : Origin) (parameter : T.ThresholdParameter)
  | setBulkMode (origin : Origin) (bulkMode : Bool)
  | onFinalize
  /-- Any change of AuRa's authorities, of `KeyOwner` and of everything else
  outside the pallet. -/
  | environment (change : Env T → Env T)

/-- One operation. -/
def dispatch (C : Config T) (s : State T) : Op T → Except Failure (State T × Option (RewardCall T))
  | .createOrder origin d => createOrder C s origin d
  | .setSlotWidth origin width => (setSlotWidth C s origin width).map (·, none)
  | .setThresholdParameter origin parameter =>
      (setThresholdParameter C s origin parameter).map (·, none)
  | .setBulkMode origin bulkMode => (setBulkMode C s origin bulkMode).map (·, none)
  | .onFinalize => .ok (onFinalize s, none)
  | .environment change => .ok ({ s with env := change s.env }, none)

/-- The pallet as a machine that emits its rewards. -/
def pallet (C : Config T) : Transducer (State T) (Op T) (RewardCall T) where
  step s op :=
    match dispatch C s op with
    | .ok (s', r) => (s', r.toList)
    | .error _ => (s, [])

/-- What an operation can do to the two storage items the slot guard reads. -/
inductive PalletStep (C : Config T) (s : State T) : Op T → State T → List (RewardCall T) → Prop where
  /-- Nothing is paid and neither item changes. -/
  | quiet {op s'} (hwidth : s'.storage.slotWidth = s.storage.slotWidth)
      (hprevious : s'.storage.previousSlot = s.storage.previousSlot) : PalletStep C s op s' []
  /-- An admitted `set_slot_width`. -/
  | width {origin w s'} (hadmin : ensureOriginOrRoot C origin = true)
      (hwidth : s'.storage.slotWidth = w)
      (hprevious : s'.storage.previousSlot = s.storage.previousSlot) :
      PalletStep C s (.setSlotWidth origin w) s' []
  /-- A reward. -/
  | paid {data owner} (hdue : Due C s data owner) :
      PalletStep C s (.createOrder .none ⟨some data⟩) (rewarded C s data owner)
        [rewardCall s data owner]

/-- An admin call that returns was admitted and wrote what it writes. -/
theorem adminCall_ok {C : Config T} {s s' : State T} {origin : Origin}
    {write : Storage T → Storage T} {event : Event T} {r : Option (RewardCall T)}
    (h : (adminCall C s origin write event).map (·, none) = .ok (s', r)) :
    r = none ∧ ensureOriginOrRoot C origin = true ∧ s'.storage = write s.storage := by
  unfold adminCall at h
  split_ifs at h with hadmin
  · cases h
    exact ⟨rfl, hadmin, rfl⟩
  · cases h

/-- An operation that returns moves to the state it returns. -/
theorem pallet_step_of_ok {C : Config T} {s s' : State T} {op : Op T} {r : Option (RewardCall T)}
    (h : dispatch C s op = .ok (s', r)) :
    (pallet C).next s op = s' ∧ (pallet C).emit s op = r.toList := by
  simp only [Transducer.next, Transducer.emit, pallet, h, and_self]

/-- **One step of the pallet.** -/
theorem pallet_step (C : Config T) (s : State T) (op : Op T) :
    PalletStep C s op ((pallet C).next s op) ((pallet C).emit s op) := by
  cases hd : dispatch C s op with
  | error e =>
      have h : (pallet C).step s op = (s, []) := by simp only [pallet, hd]
      rw [Transducer.next, Transducer.emit, h]
      exact .quiet rfl rfl
  | ok p =>
    obtain ⟨s', r⟩ := p
    obtain ⟨hnext, hemit⟩ := pallet_step_of_ok hd
    rw [hnext, hemit]
    cases op with
    | createOrder origin d =>
        obtain ⟨rfl, ⟨rfl, rfl⟩ | ⟨data, owner, hdata, hdue, rfl, rfl⟩⟩ := createOrder_cases hd
        · exact .quiet rfl rfl
        · obtain ⟨_⟩ := d
          cases hdata
          exact .paid hdue
    | setSlotWidth origin width =>
        obtain ⟨rfl, hadmin, hst⟩ := adminCall_ok hd
        exact .width hadmin (by rw [hst]) (by rw [hst])
    | setThresholdParameter origin parameter =>
        obtain ⟨rfl, -, hst⟩ := adminCall_ok hd
        exact .quiet (by rw [hst]) (by rw [hst])
    | setBulkMode origin bulkMode =>
        obtain ⟨rfl, -, hst⟩ := adminCall_ok hd
        exact .quiet (by rw [hst]) (by rw [hst])
    | onFinalize =>
        cases hd
        exact .quiet rfl rfl
    | environment change =>
        cases hd
        exact .quiet rfl rfl

/-- A reward was due where it was paid. -/
theorem PalletStep.due_of_mem {C : Config T} {s s' : State T} {op : Op T} {rs : List (RewardCall T)}
    {r : RewardCall T} (h : PalletStep C s op s' rs) (hr : r ∈ rs) :
    ∃ data owner, op = .createOrder .none ⟨some data⟩ ∧ Due C s data owner ∧
      r = rewardCall s data owner := by
  cases h with
  | quiet => cases hr
  | width => cases hr
  | paid hdue => exact ⟨_, _, rfl, hdue, List.mem_singleton.mp hr⟩

/-- **`PreviousSlot` is a ratchet over the slots rewarded**, from every state
and on every operation. -/
theorem pallet_ratchet (C : Config T) :
    (pallet C).Ratchet (fun _ => True) (fun _ => True) (fun s => s.storage.previousSlot)
      (fun r => r.slot) where
  keeps _ _ _ _ := trivial
  step s op _ _ := by
    have h := pallet_step C s op
    generalize (pallet C).next s op = s' at h
    generalize (pallet C).emit s op = rs at h
    cases h with
    | quiet _ hprevious => exact Or.inl ⟨rfl, hprevious⟩
    | width _ _ hprevious => exact Or.inl ⟨rfl, hprevious⟩
    | paid hdue => exact Or.inr ⟨_, rfl, hdue.fresh, rfl⟩

/-! ### Issuance -/

/-- `Currency::mint_into` adds the amount it mints to the total issuance. -/
def Config.Issues (C : Config T) (issuance : T.Ledger → ℕ) : Prop :=
  ∀ ledger who amount ledger', C.mintInto ledger who amount = some ledger' →
    issuance ledger' = issuance ledger + amount.toNat

/-- The operation is the pallet's own. -/
def Op.ofPallet : Op T → Bool
  | .environment _ => false
  | _ => true

/-- The total issuance in a state. -/
def issued (issuance : T.Ledger → ℕ) (s : State T) : ℤ := issuance s.env.outside.ledger

/-- What the pallet's operations add to the total issuance along a run. -/
def minted (C : Config T) (issuance : T.Ledger → ℕ) : State T → List (Op T) → ℤ :=
  (pallet C).added Op.ofPallet (issued issuance)

/-- An admin call mints nothing. -/
theorem next_adminCall_ledger {C : Config T} {s : State T} {op : Op T} {origin : Origin}
    {write : Storage T → Storage T} {event : Event T}
    (hop : dispatch C s op = (adminCall C s origin write event).map (·, none)) :
    ((pallet C).next s op).env.outside.ledger = s.env.outside.ledger := by
  unfold adminCall at hop
  split at hop
  · rw [(pallet_step_of_ok hop).1]
    rfl
  · simp only [Transducer.next, pallet, hop, Except.map]

/-- A reward raises the issuance by at most the reward size. -/
theorem issuance_reward_le {C : Config T} {issuance : T.Ledger → ℕ} (hissues : C.Issues issuance)
    (o : Outside T) (rewardee : AccountId32) :
    issuance (reward C o rewardee).ledger ≤ issuance o.ledger + (C.rewardSize o).toNat := by
  unfold reward
  split
  · exact Nat.le_add_right _ _
  · rename_i ledger hmint
    exact (hissues _ _ _ _ hmint).le

/-- **What one of the pallet's operations mints**: at most the reward size if it
pays a reward, and nothing otherwise. -/
theorem issued_next_le {C : Config T} (hreward : C.onReward = .pallet) {issuance : T.Ledger → ℕ}
    (hissues : C.Issues issuance) {size : ℕ} (hsize : ∀ o, (C.rewardSize o).toNat = size)
    (s : State T) (op : Op T) (hop : op.ofPallet = true) :
    issued issuance ((pallet C).next s op) - issued issuance s ≤
      size * ((pallet C).emit s op).length := by
  have hkept : ∀ {s' : State T} {n : ℕ}, s'.env.outside.ledger = s.env.outside.ledger →
      issued issuance s' - issued issuance s ≤ size * n := by
    intro s' n hs'
    rw [issued, hs', issued, sub_self]
    exact Int.mul_nonneg (Int.natCast_nonneg _) (Int.natCast_nonneg _)
  cases op with
  | createOrder origin d =>
      cases hd : createOrder C s origin d with
      | error e =>
          have hstep : (pallet C).step s (.createOrder origin d) = (s, []) := by
            simp only [pallet, dispatch, hd]
          rw [Transducer.next, hstep]
          exact hkept rfl
      | ok p =>
          obtain ⟨s', r⟩ := p
          have hdispatch : dispatch C s (.createOrder origin d) = .ok (s', r) := hd
          obtain ⟨hnext, hemit⟩ := pallet_step_of_ok hdispatch
          rw [hnext, hemit]
          obtain ⟨-, ⟨-, rfl⟩ | ⟨data, owner, -, -, rfl, rfl⟩⟩ := createOrder_cases hd
          · exact hkept rfl
          · have hle := issuance_reward_le hissues s.env.outside (C.toAccountId owner)
            rw [hsize] at hle
            simp only [issued, rewarded, onReward, hreward, Option.toList_some,
              List.length_singleton]
            omega
  | setSlotWidth origin width => exact hkept (next_adminCall_ledger rfl)
  | setThresholdParameter origin parameter => exact hkept (next_adminCall_ledger rfl)
  | setBulkMode origin bulkMode => exact hkept (next_adminCall_ledger rfl)
  | onFinalize => exact hkept rfl
  | environment change => cases hop

/-- **Slots are rewarded at most once and inflation is bounded by
`PreviousSlot`.**  Over every run from genesis `PreviousSlot` never decreases,
the slots rewarded strictly increase and are at least 1, hence no slot number
is rewarded twice; and with the pallet's own `OnReward` and a constant reward
size, what the pallet's operations add to the total issuance is at most that size
times `PreviousSlot`. -/
theorem rewards_bounded (C : Config T) (threshold : T.ThresholdParameter) (bulkMode : Bool)
    (env : Env T) (ops : List (Op T)) :
    (∀ before after, ops = before ++ after →
      ((pallet C).run (genesis threshold bulkMode env) before).storage.previousSlot ≤
        ((pallet C).run (genesis threshold bulkMode env) ops).storage.previousSlot) ∧
    ((pallet C).outputs (genesis threshold bulkMode env) ops).Pairwise (fun a b => a.slot < b.slot) ∧
    (∀ r ∈ (pallet C).outputs (genesis threshold bulkMode env) ops, 1 ≤ r.slot) ∧
    (((pallet C).outputs (genesis threshold bulkMode env) ops).map RewardCall.slot).Nodup ∧
    (C.onReward = .pallet → ∀ issuance, C.Issues issuance →
      ∀ size, (∀ o, (C.rewardSize o).toNat = size) →
        minted C issuance (genesis threshold bulkMode env) ops ≤
          size * ((pallet C).run (genesis threshold bulkMode env) ops).storage.previousSlot) := by
  set g := genesis threshold bulkMode env with hg
  have R := pallet_ratchet C
  have hpair : ((pallet C).outputs g ops).Pairwise fun a b => a.slot < b.slot :=
    R.pairwise trivial fun _ _ => trivial
  refine ⟨?_, hpair, ?_, ?_, ?_⟩
  · rintro before after rfl
    rw [Transducer.run_append]
    exact R.reg_le_run trivial fun _ _ => trivial
  · exact R.lt_of_mem trivial fun _ _ => trivial
  · exact List.pairwise_map.mpr (hpair.imp fun h => h.ne)
  · intro hreward issuance hissues size hsize
    have hlen : ((pallet C).outputs g ops).length ≤ ((pallet C).run g ops).storage.previousSlot := by
      exact (Nat.le_add_right _ _).trans (R.length_le trivial fun _ _ => trivial)
    calc minted C issuance g ops
        ≤ size * ((pallet C).outputs g ops).length :=
          (pallet C).added_le (issued_next_le hreward hissues hsize) g ops
      _ ≤ size * ((pallet C).run g ops).storage.previousSlot :=
          Int.mul_le_mul_of_nonneg_left (Int.ofNat_le.mpr hlen) (Int.natCast_nonneg _)

/-- Leave bulk mode, end a block, present the order of a relay block. -/
def presentOrder {L : Type} (number : UInt8) (orderedBy : AccountId32) :
    List (Op (runtimeTypes L)) :=
  [.setBulkMode .root false, .onFinalize,
    .createOrder .none ⟨some (dataOf (orderBlock number orderedBy) 2000)⟩]

/-- Balances with the total issuance beside them. -/
def mintIssued (ledger : (AccountId32 → U128) × ℕ) (who : AccountId32) (amount : U128) :
    Option ((AccountId32 → U128) × ℕ) :=
  (mintInto ledger.1 who amount).map (·, ledger.2 + amount.toNat)

/-- The template runtime over such a ledger. -/
def issuingRuntime (table : List (H256 × List RelayEvent)) :
    Config (runtimeTypes ((AccountId32 → U128) × ℕ)) :=
  runtimeConfig ⟨false, tableProofs table, mintIssued⟩

theorem issuingRuntime_issues (table : List (H256 × List RelayEvent)) :
    (issuingRuntime table).Issues Prod.snd := by
  intro ledger who amount ledger' h
  obtain ⟨balances, -, rfl⟩ := Option.map_eq_some_iff.mp h
  rfl

/-- Collators on a chain that has issued nothing. -/
def issuingEnv (collators : List (AccountId32 × Sr25519Public)) :
    Env (runtimeTypes ((AccountId32 → U128) × ℕ)) where
  auraAuthorities := (collatorEnv collators).auraAuthorities
  keyOwner := (collatorEnv collators).keyOwner
  nextKeys := (collatorEnv collators).nextKeys
  outside := ⟨idleOutside.system, (idleOutside.ledger, 0), []⟩

/-- Somebody else issues five units. -/
def issueFive : Op (runtimeTypes ((AccountId32 → U128) × ℕ)) :=
  .environment fun e =>
    { e with outside := { e.outside with ledger := (e.outside.ledger.1, e.outside.ledger.2 + 5) } }

/-- The bound is about something: the template runtime mints one milli unit for
Alice's order of relay block 8, and nothing more when the order is presented
again, whatever is issued elsewhere. -/
theorem rewards_bounded_orderBlock :
    minted (issuingRuntime [orderEntry 8 alice]) Prod.snd
      (genesis 0 true (issuingEnv [(alice, alice)]))
      (presentOrder 8 alice ++ issueFive :: presentOrder 8 alice) = 1000000000 ∧
    minted (issuingRuntime [orderEntry 8 alice]) Prod.snd
      (genesis 0 true (issuingEnv [(alice, alice)]))
      (presentOrder 8 alice ++ issueFive :: presentOrder 8 alice) ≤
      (1000000000 : ℕ) * ((pallet (issuingRuntime [orderEntry 8 alice])).run
        (genesis 0 true (issuingEnv [(alice, alice)]))
        (presentOrder 8 alice ++ issueFive :: presentOrder 8 alice)).storage.previousSlot :=
  ⟨by decide, (rewards_bounded (issuingRuntime [orderEntry 8 alice]) 0 true
    (issuingEnv [(alice, alice)]) (presentOrder 8 alice ++ issueFive :: presentOrder 8 alice)).2.2.2.2
      rfl Prod.snd (issuingRuntime_issues _) 1000000000 fun _ => rfl⟩

end OnDemand
