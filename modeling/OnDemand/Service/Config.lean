/-
# The service's election

`services/order/src/config.rs`: `current_slot` and `order_placer`, the node's
own copy of the round robin the pallet runs (`slot_at`, `order_placer_at`).
The node works on `u32` slots and the authority list of the runtime API, the
pallet on `u128` slots and its delayed copy of the list.

`node_and_runtime_elect_same` says that the two agree across a block boundary.
The reason is a fact about the end of a block: the finalize hook copies AuRa's
list (`authorities_after_applyBlocks`), and neither the next block's hooks nor
its inherents touch the copy or the width (`storage_during_inherents`), so the
list the pallet elects from in block `n + 1` is the one the runtime API returns
at block `n`.
-/

import OnDemand.Runtime.Block

namespace OnDemand

open Word

/-- What `Box<dyn Error>` holds in the order service. -/
inductive ServiceError where
  /-- A message of the service's own. -/
  | text (message : String)
  | relayChain
  | codec
  | api
  | rpc
  deriving DecidableEq

/-- Where the order service can panic. -/
inductive ServicePanic where
  | shiftOverflow
  | remainderByZero
  /-- `sr25519_public_keys(..)[0]` on an empty list. -/
  | noAuraKey
  /-- `sr25519_sign(..).unwrap().unwrap()` without a signature. -/
  | noSignature
  deriving DecidableEq

/-- How a function of the service ends when it does not return `Ok`. -/
inductive Halt where
  | error (e : ServiceError)
  | panic (reason : ServicePanic)
  deriving DecidableEq

/-- `current_slot`. -/
def currentSlot (checks : Bool) (relayHeight slotWidth : UInt32) : Except Halt UInt32 :=
  match shr checks relayHeight slotWidth with
  | none => .error (.panic .shiftOverflow)
  | some slot => .ok slot

/-- `order_placer`. -/
def orderPlacer {α : Type*} (checks : Bool) (authorities : List α) (relayHeight slotWidth : UInt32) :
    Except Halt α :=
  match currentSlot checks relayHeight slotWidth with
  | .error e => .error e
  | .ok slot =>
      if authorities.length = 0 then .error (.panic .remainderByZero)
      else
        match authorities[slot.toNat % authorities.length]? with
        | none => .error (.error (.text "Failed to get selected collator"))
        | some author => .ok author

/-- Whenever `current_slot` returns, it returns the shifted height. -/
theorem currentSlot_eq {checks : Bool} {h w slot : UInt32} (hs : currentSlot checks h w = .ok slot) :
    slot = h >>> w := by
  unfold currentSlot at hs
  split at hs
  · cases hs
  · rename_i x hx
    rw [← Except.ok.inj hs]
    exact eq_of_shr_eq_some hx

/-- Whenever `order_placer` returns, it returns the authority whose turn the
slot is. -/
theorem orderPlacer_eq {α : Type*} {checks : Bool} {authorities : List α} {h w : UInt32} {placer : α}
    (hp : orderPlacer checks authorities h w = .ok placer) :
    authorities[slotOf h w % authorities.length]? = some placer := by
  unfold orderPlacer at hp
  split at hp
  · cases hp
  · rename_i slot hslot
    rw [currentSlot_eq hslot] at hp
    split_ifs at hp
    split at hp
    · cases hp
    · rename_i author hauthor
      cases hp
      exact hauthor

/-- In range and with authorities to choose from, `order_placer` returns. -/
theorem orderPlacer_of_lt {α : Type*} (checks : Bool) {authorities : List α} {h w : UInt32}
    {placer : α} (hw : w < 32) (hp : authorities[slotOf h w % authorities.length]? = some placer) :
    orderPlacer checks authorities h w = .ok placer := by
  have hne : authorities.length ≠ 0 := by
    intro h0
    rw [List.length_eq_zero_iff.mp h0] at hp
    cases hp
  have hp' : authorities[(h >>> w).toNat % authorities.length]? = some placer := hp
  simp only [orderPlacer, currentSlot, shr_of_lt checks hw, if_neg hne, hp']

/-! ### The runtime API -/

section Api

variable {T : Types}

/-- `AuraApi::authorities`. -/
def authoritiesApi (s : State T) : List T.AuthorityId := s.env.auraAuthorities

/-- `OnDemandRuntimeApi::slot_width`. -/
def slotWidthApi (s : State T) : UInt32 := s.storage.slotWidth

/-- `OnDemandRuntimeApi::bulk_mode`. -/
def bulkModeApi (s : State T) : Bool := s.storage.bulkMode.isSome

/-- **After a block the pallet's copy is AuRa's list.** -/
theorem authorities_after_applyBlocks {C : Config T} {P : SessionPallet T} {s s' : State T}
    {bs : List (Block T)} (hne : bs ≠ []) (h : applyBlocks C P s bs = some s') :
    s'.storage.authorities = s'.env.auraAuthorities := by
  obtain ⟨bs, b, rfl⟩ := (List.eq_nil_or_concat bs).resolve_left hne
  rw [applyBlocks_eq_run h]
  simp [List.flatMap_append, Block.ops, Transducer.next, pallet, dispatch, onFinalize]

/-- A `create_order` writes no other storage item than `PreviousSlot`. -/
theorem createOrder_keeps (C : Config T) (s : State T) (d : OrderInherentData) :
    ∃ p, ((pallet C).next s (.createOrder .none d)).storage =
      { s.storage with previousSlot := p } := by
  cases hd : dispatch C s (.createOrder .none d) with
  | error e =>
      refine ⟨s.storage.previousSlot, ?_⟩
      simp only [Transducer.next, pallet, hd]
  | ok p =>
      obtain ⟨s', r⟩ := p
      rw [(pallet_step_of_ok hd).1]
      obtain ⟨-, ⟨-, rfl⟩ | ⟨data, owner, -, -, -, rfl⟩⟩ := createOrder_cases hd
      · exact ⟨_, rfl⟩
      · exact ⟨_, rfl⟩

/-- **Inherents run on the previous block's storage**: up to them nothing but
`PreviousSlot` changes in the pallet. -/
theorem storage_during_inherents (C : Config T) (s : State T) (b : Block T)
    (earlier : List (Inherent T)) :
    ∃ p, ((pallet C).run s (b.opening :: earlier.map Inherent.op)).storage =
      { s.storage with previousSlot := p } := by
  refine (pallet C).run_invariant
    (fun t => ∃ p, t.storage = { s.storage with previousSlot := p }) ⟨_, rfl⟩ ?_
  intro op hop t ht
  rcases List.mem_cons.mp hop with rfl | hop
  · exact ht
  · obtain ⟨i, -, rfl⟩ := List.mem_map.mp hop
    cases i with
    | createOrder d =>
        obtain ⟨p, hp⟩ := ht
        obtain ⟨p', hp'⟩ := createOrder_keeps C t d
        refine ⟨p', hp'.trans ?_⟩
        rw [hp]
    | other change => exact ht

/-- **Node and runtime elect the same order placer.**  After any chain of at
least one block with a non-empty AuRa list and a width below 32, the node's
`order_placer` over the runtime APIs for a height `h`, and the pallet's
`order_placer_at` for any height `h'` of the same slot at any inherent of the
next block, are the same authority; the next block may rotate the session when
it starts and change the width in its transactions. -/
theorem node_and_runtime_elect_same (C : Config T) (P : SessionPallet T) (checks : Bool)
    {g s : State T} {bs : List (Block T)} (hne : bs ≠ []) (hs : applyBlocks C P g bs = some s)
    (hauth : s.env.auraAuthorities ≠ []) (hw : s.storage.slotWidth < 32) (b : Block T)
    (earlier : List (Inherent T)) {h h' : UInt32}
    (hslot : h >>> slotWidthApi s = h' >>> slotWidthApi s) :
    ∃ placer, orderPlacer checks (authoritiesApi s) h (slotWidthApi s) = .ok placer ∧
      orderPlacerAt C ((pallet C).run s (b.opening :: earlier.map Inherent.op)).storage h' =
        .ok (some placer) := by
  set st := ((pallet C).run s (b.opening :: earlier.map Inherent.op)).storage with hst
  obtain ⟨p, hp⟩ := storage_during_inherents C s b earlier
  rw [← hst] at hp
  have hwidth : st.slotWidth = s.storage.slotWidth := by rw [hp]
  have hcopy' : st.authorities = authoritiesApi s := by
    rw [hp]
    exact authorities_after_applyBlocks hne hs
  have hlen : st.authorities.length ≠ 0 := by
    rw [hcopy']
    exact fun h0 => hauth (List.length_eq_zero_iff.mp h0)
  obtain ⟨placer, hplacer⟩ := exists_electedPlacer hlen h'
  have hturn : slotOf h' st.slotWidth = slotOf h (slotWidthApi s) := by
    rw [slotOf, slotOf, hwidth]
    exact congrArg UInt32.toNat hslot.symm
  refine ⟨placer, ?_, ?_⟩
  · refine orderPlacer_of_lt checks hw ?_
    rw [← hturn, ← hcopy']
    exact hplacer
  · rw [orderPlacerAt_eq (slotAt_of_lt (hwidth ▸ hw) h') hlen, hplacer]

/-- Two collators, a rotation that drops one of them in the block that carries
the inherent, and heights 5 and 4 of one slot at width 1. -/
theorem node_and_runtime_elect_bob :
    ∃ s, applyBlocks (tableRuntime []) plainSession
        (genesis 0 true (collatorEnv [(alice, alice), (bob, bob)]))
        [⟨none, id, [], [.setSlotWidth .root 1]⟩] = some s ∧
      ∃ placer, orderPlacer false (authoritiesApi s) 5 (slotWidthApi s) = .ok placer ∧
        orderPlacerAt (tableRuntime []) ((pallet (tableRuntime [])).run s
          [Block.opening ⟨some [alice], id, [], [.setSlotWidth .root 7]⟩]).storage 4 =
            .ok (some placer) :=
  ⟨_, rfl, node_and_runtime_elect_same (tableRuntime []) plainSession false
    (List.cons_ne_nil (⟨none, id, [], [.setSlotWidth .root 1]⟩ : Block _) [])
    (rfl : applyBlocks (tableRuntime []) plainSession
      (genesis 0 true (collatorEnv [(alice, alice), (bob, bob)])) _ = some _)
    (List.cons_ne_nil alice [bob]) (by decide)
    ⟨some [alice], id, [], [.setSlotWidth .root 7]⟩ [] (by decide)⟩

end Api

end OnDemand
