/-
# The relay chain a node follows

`follow_relay_chain` (`services/order/src/lib.rs`) handles the best heads of the
relay chain one after the other: `new_best_heads` drops a notification whose
validation data cannot be read, a call that returns an error is forgotten, and
one that panics ends the task.

What a node orders for is decided by its heads one by one: `candidate` is the
order a head leads to on a fresh record.  Along the stream the record only holds
back orders for slots that are not past the last one, so the orders of a stream
are the new heights of its candidates (`orders_are_new_slots`).  Where the slots
never go down, each slot with a candidate gets its order; in a network it gets
one order, from one node (`network_orders_each_slot_once`).

`followRelayChain_node` ties the loop to the node it is a part of.
-/

import OnDemand.Base.Highs
import OnDemand.Service.Liveness

namespace OnDemand

open Word

variable {A κ : Type}

/-- A best block notification, with what the relay chain, the parachain and the
relay node answer while it is handled. -/
structure Notification (A : Type) where
  number : UInt32
  hash : H256
  /-- `persisted_validation_data(hash, para_id, TimedOut)`. -/
  persistedValidationData : Except RelayChainError (Option PersistedValidationData)
  view : View A
  rpc : RelayRpc

/-- `validation_data`. -/
def Notification.validationData (n : Notification A) : Option PersistedValidationData :=
  match n.persistedValidationData with
  | .ok data => data
  | .error _ => none

/-- What `new_best_heads` makes of a notification. -/
def Notification.newBestHead (n : Notification A) : Option Head :=
  match n.validationData with
  | none => none
  | some data => some ⟨n.number, data.parentHead, n.hash⟩

/-- `follow_relay_chain`: the record as the calls leave it, or the panic the task
ended with. -/
def followRelayChain (S : Service A) :
    Transducer (Except ServicePanic OrderRecord) (Notification A) (Submission A) where
  step s n :=
    match s with
    | .error reason => (.error reason, [])
    | .ok record =>
        match n.newBestHead with
        | none => (.ok record, [])
        | some head =>
            match handleRelaychainStream S n.view n.rpc head record with
            | .ok (record', o) => (.ok record', o.toList)
            | .error (.error _) => (.ok record, [])
            | .error (.panic reason) => (.error reason, [])

/-! ### One head -/

/-- The order a notification leads to on a fresh record. -/
def candidate (S : Service A) (n : Notification A) : Option (Submission A) :=
  match n.newBestHead with
  | none => none
  | some head =>
      match handleRelaychainStream S n.view n.rpc head .empty with
      | .ok (_, some o) => some o
      | _ => none

variable {S : Service A} {v : View A} {rpc : RelayRpc} {head : Head} {record : OrderRecord}

/-- The record matters to the guard only. -/
theorem underLock_of_fresh {a : Attempt} (h : record.lastSlot < a.currentSlot) :
    underLock S v record a = underLock S v .empty a := by
  have hfresh : ¬a.currentSlot ≤ record.lastSlot := UInt32.not_le.mpr h
  have hzero : ¬a.currentSlot ≤ OrderRecord.empty.lastSlot := by
    rw [UInt32.not_le, UInt32.lt_iff_toNat_lt]
    rw [UInt32.lt_iff_toNat_lt] at h
    exact Nat.zero_lt_of_lt h
  simp only [underLock, if_neg hfresh, if_neg hzero]

/-- A call submits for the attempt it waited for the lock with. -/
theorem untilLock_of_submits {record' : OrderRecord} {o : Submission A}
    (h : handleRelaychainStream S v rpc head record = .ok (record', some o)) :
    untilLock S v head = .ok (some o.request.attempt) :=
  untilLock_eq_some.mpr (handleRelaychainStream_submits h).1

/-- Past the recorded slot, a call submits what it submits on a fresh record. -/
theorem submits_iff_of_fresh {a : Attempt} (ha : untilLock S v head = .ok (some a))
    (h : record.lastSlot < a.currentSlot) {record' : OrderRecord} {o : Submission A} :
    handleRelaychainStream S v rpc head record = .ok (record', some o) ↔
      handleRelaychainStream S v rpc head .empty = .ok (record', some o) := by
  simp only [handleRelaychainStream, ha, underLock_of_fresh h]
  cases underLock S v .empty a with
  | error e => simp
  | ok q =>
      cases q with
      | none => simp
      | some q => rfl

/-- **A call on any record.**  It submits what it submits on a fresh record when
that is for a slot past the recorded one, and otherwise it submits nothing. -/
theorem submits_iff {record' : OrderRecord} {o : Submission A} :
    handleRelaychainStream S v rpc head record = .ok (record', some o) ↔
      handleRelaychainStream S v rpc head .empty = .ok (record', some o) ∧
        record.lastSlot < o.request.attempt.currentSlot := by
  constructor
  · intro h
    have ha := untilLock_of_submits h
    have hfresh := (handleRelaychainStream_submits h).2.1.fresh
    exact ⟨(submits_iff_of_fresh ha hfresh).mp h, hfresh⟩
  · rintro ⟨h, hfresh⟩
    exact (submits_iff_of_fresh (untilLock_of_submits h) hfresh).mpr h

/-- A call that submits nothing leaves the record alone. -/
theorem record_of_none {record' : OrderRecord}
    (h : handleRelaychainStream S v rpc head record = .ok (record', none)) : record' = record := by
  unfold handleRelaychainStream at h
  split at h
  · cases h
  · cases h
    rfl
  · split at h
    · cases h
    · cases h
      rfl
    · split at h
      · cases h
      · cases h

/-- A call that submits records the slot of its order. -/
theorem record_of_submits {record' : OrderRecord} {o : Submission A}
    (h : handleRelaychainStream S v rpc head record = .ok (record', some o)) :
    record'.lastSlot = o.request.attempt.currentSlot := by
  have hready := (handleRelaychainStream_submits h).1
  unfold handleRelaychainStream at h
  split at h
  · cases h
  · cases h
  split at h
  · cases h
  · cases h
  split at h
  · cases h
  rename_i q _ record'' o' hsubmit
  obtain ⟨rfl, ho⟩ := Prod.mk.inj (Except.ok.inj h)
  obtain rfl := Option.some.inj ho
  obtain ⟨rfl, -, -, hslot⟩ := submit_eq_ok hsubmit
  rw [hready.sameHead, hready.inRange] at hslot
  exact (Except.ok.inj hslot).symm

/-- With reads that make no call panic, keys of 32 bytes and a first one that signs,
no call panics. -/
theorem handleRelaychainStream_no_panic (hraw : ∀ a, (S.toRawVec a).length = 32)
    (hsign : S.keystore.CanSign)
    (hwidth : ∀ hash w, v.api.slotWidth hash = .ok w → w < 32)
    (hauth : ∀ hash authorities, v.api.authorities hash = .ok authorities → authorities ≠ [])
    (reason : ServicePanic) : handleRelaychainStream S v rpc head record ≠ .error (.panic reason) := by
  unfold handleRelaychainStream
  split
  · rename_i e he
    rintro ⟨⟩
    exact untilLock_no_panic hwidth head reason he
  · exact nofun
  · rename_i a ha
    have hready := untilLock_eq_some.mp ha
    have hw : a.slotWidth < 32 := hwidth _ _ hready.slotWidth
    split
    · rename_i e he
      rintro ⟨⟩
      exact underLock_no_panic hauth record hw reason he
    · exact nofun
    · rename_i q hq
      have helected := underLock_eq_some.mp hq
      split
      · rename_i e he
        rintro ⟨⟩
        refine submit_no_panic rpc ?_ hsign helected.hasKeys (hraw _) reason he
        rw [helected.sameAttempt]
        exact hw
      · exact nofun

/-- A call that submits has signed with the first AURA key. -/
theorem canSign_of_submits {record' : OrderRecord} {o : Submission A}
    (h : handleRelaychainStream S v rpc head record = .ok (record', some o)) :
    S.keystore.CanSign := by
  have hcarries := submitOrder_carries (handleRelaychainStream_submits h).2.2
  intro key hkey
  obtain rfl := Option.some.inj (hcarries.signedBy.symm.trans hkey)
  exact hcarries.signs

/-! ### The stream -/

/-- The widths and authority lists read while the notification is handled have
`W` and `L`. -/
structure Notification.Reads (W : UInt32 → Prop) (L : List A → Prop) (n : Notification A) : Prop where
  slotWidth : ∀ hash w, n.view.api.slotWidth hash = .ok w → W w
  authorities : ∀ hash l, n.view.api.authorities hash = .ok l → L l

/-- The last slot recorded, as long as the task runs. -/
def markOf : Except ServicePanic OrderRecord → ℕ
  | .ok record => record.lastSlot.toNat
  | .error _ => 0

/-- The task is running. -/
def Follows : Except ServicePanic OrderRecord → Prop
  | .ok _ => True
  | .error _ => False

theorem candidate_eq_some {n : Notification A} {o : Submission A} : candidate S n = some o ↔
    ∃ head record', n.newBestHead = some head ∧
      handleRelaychainStream S n.view n.rpc head .empty = .ok (record', some o) := by
  unfold candidate
  cases n.newBestHead with
  | none => simp
  | some head =>
      simp only [Option.some.injEq, exists_and_left, exists_eq_left']
      split
      · rename_i record' o' h
        simp [h]
      · rename_i hnot
        constructor
        · intro h
          cases h
        · rintro ⟨record', h⟩
          exact absurd h (hnot record' o)

/-- A notification whose validation data cannot be read is dropped. -/
theorem step_of_no_head {n : Notification A} (hhead : n.newBestHead = none) :
    (followRelayChain S).step (.ok record) n = (.ok record, []) := by
  simp only [followRelayChain, hhead]

theorem step_of_head {n : Notification A} (hhead : n.newBestHead = some head) :
    (followRelayChain S).step (.ok record) n =
      match handleRelaychainStream S n.view n.rpc head record with
      | .ok (record', o) => (.ok record', o.toList)
      | .error (.error _) => (.ok record, [])
      | .error (.panic reason) => (.error reason, []) := by
  simp only [followRelayChain, hhead]

/-- A candidate is for a slot from 1 on. -/
theorem candidate_pos {n : Notification A} {o : Submission A} (h : candidate S n = some o) :
    0 < o.slot := by
  obtain ⟨head, record', -, hsubmits⟩ := candidate_eq_some.mp h
  exact UInt32.lt_iff_toNat_lt.mp (handleRelaychainStream_submits hsubmits).2.1.fresh

/-- **One notification**: its candidate is ordered and recorded when it is past
the recorded slot, and otherwise nothing happens. -/
theorem followRelayChain_step (hraw : ∀ a, (S.toRawVec a).length = 32)
    (hsign : S.keystore.CanSign) {n : Notification A} (hn : n.Reads (· < 32) (· ≠ []))
    (record : OrderRecord) :
    (∃ o record', candidate S n = some o ∧ record.lastSlot.toNat < o.slot ∧
      (followRelayChain S).step (.ok record) n = (.ok record', [o]) ∧
      record'.lastSlot.toNat = o.slot) ∨
    (∀ o, candidate S n = some o → o.slot ≤ record.lastSlot.toNat) ∧
      (followRelayChain S).step (.ok record) n = (.ok record, []) := by
  cases hhead : n.newBestHead with
  | none =>
      refine Or.inr ⟨fun o ho => ?_, step_of_no_head hhead⟩
      obtain ⟨head, record', h, -⟩ := candidate_eq_some.mp ho
      rw [hhead] at h
      cases h
  | some head =>
      -- a candidate past the recorded slot would have been submitted
      have hstale : (∀ record' o, handleRelaychainStream S n.view n.rpc head record ≠
          .ok (record', some o)) → ∀ o, candidate S n = some o → o.slot ≤ record.lastSlot.toNat := by
        intro hnone o ho
        obtain ⟨head', record', hhead', h⟩ := candidate_eq_some.mp ho
        obtain rfl := Option.some.inj (hhead.symm.trans hhead')
        by_contra hlt
        refine hnone record' o (submits_iff.mpr ⟨h, UInt32.lt_iff_toNat_lt.mpr ?_⟩)
        exact not_le.mp hlt
      rw [step_of_head hhead]
      split
      · rename_i record' o h
        cases o with
        | none =>
            obtain rfl := record_of_none h
            refine Or.inr ⟨hstale fun r o' h' => ?_, rfl⟩
            rw [h] at h'
            cases h'
        | some o =>
            have hempty := submits_iff.mp h
            refine Or.inl ⟨o, record', candidate_eq_some.mpr ⟨head, record', hhead, hempty.1⟩, ?_, rfl, ?_⟩
            · exact UInt32.lt_iff_toNat_lt.mp hempty.2
            · exact congrArg UInt32.toNat (record_of_submits h)
      · rename_i h
        refine Or.inr ⟨hstale fun r o' h' => ?_, rfl⟩
        rw [h] at h'
        cases h'
      · rename_i reason h
        exact absurd h
          (handleRelaychainStream_no_panic hraw hsign hn.slotWidth hn.authorities reason)

/-- A running task runs on. -/
theorem Follows.next (hraw : ∀ a, (S.toRawVec a).length = 32) (hsign : S.keystore.CanSign)
    {n : Notification A} (hn : n.Reads (· < 32) (· ≠ [])) {t : Except ServicePanic OrderRecord}
    (ht : Follows t) : Follows ((followRelayChain S).next t n) := by
  cases t with
  | error reason => exact absurd ht id
  | ok record =>
      unfold Transducer.next
      rcases followRelayChain_step hraw hsign hn record with ⟨o, record', -, -, h, -⟩ | ⟨-, h⟩
      · rw [h]
        trivial
      · rw [h]
        trivial

/-- A step that emits an order is a call that submits it. -/
theorem submits_of_mem_emit {t : Except ServicePanic OrderRecord} {n : Notification A}
    {o : Submission A} (ho : o ∈ (followRelayChain S).emit t n) :
    ∃ head record record', handleRelaychainStream S n.view n.rpc head record = .ok (record', some o) := by
  unfold Transducer.emit at ho
  cases t with
  | error reason => cases ho
  | ok record =>
      cases hhead : n.newBestHead with
      | none =>
          rw [step_of_no_head hhead] at ho
          cases ho
      | some head =>
          rw [step_of_head hhead] at ho
          split at ho
          · rename_i record' o' h
            cases o' with
            | none => cases ho
            | some o' =>
                obtain rfl := List.mem_singleton.mp ho
                exact ⟨head, record, record', h⟩
          · cases ho
          · cases ho

/-- **The orders of a stream are the new heights of its candidates.**  A keystore that
cannot sign gives neither: no head is a candidate, and the task ends with the first
call that would have been. -/
theorem followRelayChain_outputs (hraw : ∀ a, (S.toRawVec a).length = 32)
    {ns : List (Notification A)} (hns : ∀ n ∈ ns, n.Reads (· < 32) (· ≠ [])) :
    (followRelayChain S).outputs (.ok .empty) ns =
      highs Submission.slot 0 (ns.filterMap (candidate S)) := by
  by_cases hsign : S.keystore.CanSign
  · refine (followRelayChain S).outputs_eq_highs Follows markOf trivial
      (fun n hn t ht => ht.next hraw hsign (hns n hn)) ?_
    intro n hn t ht
    cases t with
    | error reason => exact absurd ht id
    | ok record =>
        unfold Transducer.next Transducer.emit
        rcases followRelayChain_step hraw hsign (hns n hn) record with
          ⟨o, record', ho, hlt, h, hslot⟩ | ⟨hle, h⟩
        · rw [h]
          exact Or.inl ⟨o, ho, hlt, rfl, hslot⟩
        · rw [h]
          exact Or.inr ⟨hle, rfl, rfl⟩
  · have hnone : ns.filterMap (candidate S) = [] := by
      refine List.filterMap_eq_nil_iff.mpr fun n _ => Option.eq_none_iff_forall_ne_some.mpr ?_
      intro o ho
      obtain ⟨head, record', -, hsubmits⟩ := candidate_eq_some.mp ho
      exact hsign (canSign_of_submits hsubmits)
    rw [hnone]
    refine List.eq_nil_iff_forall_not_mem.mpr fun o ho => ?_
    obtain ⟨before, n, after, -, hemit⟩ := (followRelayChain S).exists_of_mem_outputs ho
    obtain ⟨head, record, record', hsubmits⟩ := submits_of_mem_emit hemit
    exact hsign (canSign_of_submits hsubmits)

/-- The notification of the best head at a height, on the chains of `plainView`. -/
def plainNotification (authorities : List Sr25519Public) (width : UInt32) (height : UInt8) :
    Notification Sr25519Public where
  number := (headAt height).height
  hash := (headAt height).hash
  persistedValidationData := .ok (some ⟨(headAt height).parentHead, 0, .replicate 0, 0⟩)
  view := plainView authorities width
  rpc := plainRpc

theorem plainNotification_reads (authorities : List Sr25519Public) (width : UInt32) (height : UInt8) :
    (plainNotification authorities width height).Reads (· = width) (· = authorities) :=
  ⟨fun _ _ h => (Except.ok.inj h).symm, fun _ _ h => (Except.ok.inj h).symm⟩

theorem Notification.Reads.mono {W W' : UInt32 → Prop} {L L' : List A → Prop} {n : Notification A}
    (h : n.Reads W L) (hW : ∀ w, W w → W' w) (hL : ∀ l, L l → L' l) : n.Reads W' L' :=
  ⟨fun hash w hw => hW w (h.slotWidth hash w hw), fun hash l hl => hL l (h.authorities hash l hl)⟩

/-- One width below 32 and one authority list make nothing panic. -/
theorem Notification.Reads.safe {width : UInt32} {authorities : List A} {n : Notification A}
    (h : n.Reads (· = width) (· = authorities)) (hw : width < 32) (hne : authorities ≠ []) :
    n.Reads (· < 32) (· ≠ []) := by
  refine h.mono ?_ ?_
  · rintro w rfl
    exact hw
  · rintro l rfl
    exact hne

/-- The steps of the node's follower that handle a notification. -/
def Notification.calls (n : Notification A) : List (Action A) :=
  match n.newBestHead with
  | none => []
  | some head => Action.call n.view head n.rpc

theorem run_of_crashed (S : Service A) (chain : H256 → List RelayEvent) {s : Node A}
    (hcrashed : s.crashed = true) (acts : List (Action A)) :
    (node S chain).run s acts = s ∧ (node S chain).outputs s acts = [] := by
  induction acts with
  | nil => exact ⟨rfl, rfl⟩
  | cons act acts ih =>
      have hemit : (node S chain).emit s act = [] := by
        simp only [Transducer.emit, node, hcrashed, if_true]
      rw [Transducer.run_cons, Transducer.outputs_cons, next_of_crashed hcrashed, hemit]
      exact ih

theorem followRelayChain_of_panic (S : Service A) (reason : ServicePanic)
    (ns : List (Notification A)) :
    (followRelayChain S).run (.error reason) ns = .error reason ∧
      (followRelayChain S).outputs (.error reason) ns = [] := by
  induction ns with
  | nil => exact ⟨rfl, rfl⟩
  | cons n ns ih => exact ih

/-- **The task is the follower of its node.**  A node that nothing interrupts
during a call makes the same orders along a stream and has the same record after
it, unless the task has panicked, which has ended the node. -/
theorem followRelayChain_node (S : Service A) (chain : H256 → List RelayEvent) {s : Node A}
    (hup : s.crashed = false) (hidle : s.follower = .idle) (hfree : s.lock = none)
    (ns : List (Notification A)) :
    (node S chain).outputs s (ns.flatMap Notification.calls) =
        (followRelayChain S).outputs (.ok s.record) ns ∧
      match (followRelayChain S).run (.ok s.record) ns with
      | .ok record => (node S chain).run s (ns.flatMap Notification.calls) = { s with record := record }
      | .error _ => ((node S chain).run s (ns.flatMap Notification.calls)).crashed = true := by
  induction ns generalizing s with
  | nil => exact ⟨rfl, rfl⟩
  | cons n ns ih =>
      rw [List.flatMap_cons, Transducer.outputs_append, Transducer.run_append]
      simp only [Transducer.outputs_cons, Transducer.run_cons, Transducer.next, Transducer.emit]
      cases hhead : n.newBestHead with
      | none =>
          simp only [step_of_no_head hhead, Notification.calls, hhead, Transducer.outputs_nil,
            Transducer.run_nil, List.nil_append]
          exact ih hup hidle hfree
      | some head =>
          have hcall := node_call S chain hup hidle hfree n.view head n.rpc
          simp only [step_of_head hhead, Notification.calls, hhead]
          rcases hstep : handleRelaychainStream S n.view n.rpc head s.record with
            (e | reason) | ⟨record, o⟩
          · simp only [hstep] at hcall ⊢
            rw [hcall.1, hcall.2]
            exact ih hup hidle hfree
          · simp only [hstep] at hcall ⊢
            obtain ⟨hrun, hout⟩ := run_of_crashed S chain hcall.1 (ns.flatMap Notification.calls)
            obtain ⟨hended, hnone⟩ := followRelayChain_of_panic S reason ns
            rw [hrun, hout, hended, hnone, hcall.2]
            exact ⟨rfl, hcall.1⟩
          · simp only [hstep] at hcall ⊢
            rw [hcall.1, hcall.2]
            have hrest := ih (s := { s with record := record }) hup hidle hfree
            exact ⟨congrArg (o.toList ++ ·) hrest.1, hrest.2⟩

/-- Alice's node runs along heights 4, 2 and 6 as its task does. -/
theorem followRelayChain_node_alice :
    (node (collator [alice]) fun _ => []).outputs Node.start
        (([4, 2, 6].map (plainNotification [alice] 1)).flatMap Notification.calls) =
      (followRelayChain (collator [alice])).outputs (.ok .empty)
        ([4, 2, 6].map (plainNotification [alice] 1)) :=
  (followRelayChain_node (collator [alice]) (fun _ => []) (s := Node.start) rfl rfl rfl _).1

/-! ### The network -/

/-- A candidate is for the slot of its head, by an elected placer whose key the
node holds. -/
theorem candidate_spec {W : UInt32 → Prop} {L : List A → Prop} {n : Notification A}
    (hn : n.Reads W L) {o : Submission A} (h : candidate S n = some o) :
    o.height = n.number ∧ o.request.attempt.InSlot S W ∧ o.request.Chosen S L := by
  obtain ⟨head, record', hhead, hsubmits⟩ := candidate_eq_some.mp h
  obtain ⟨hready, helected, -⟩ := handleRelaychainStream_submits hsubmits
  have hnumber : head.height = n.number := by
    unfold Notification.newBestHead at hhead
    split at hhead
    · cases hhead
    · cases hhead
      rfl
  obtain ⟨authorities, hauth, hplacer⟩ := helected.placer
  refine ⟨?_, ⟨?_, hn.slotWidth _ _ hready.slotWidth⟩, helected.hasKeys, authorities,
    hn.authorities _ _ hauth, hplacer⟩
  · rw [Submission.height, hready.sameHead, hnumber]
  · rw [hready.sameHead]
    exact hready.inRange

/-- The slot of a candidate, at a width that is a shift. -/
theorem candidate_slot {width : UInt32} (hw : width < 32) {L : List A → Prop} {n : Notification A}
    (hn : n.Reads (· = width) L) {o : Submission A} (h : candidate S n = some o) :
    o.slot = n.number.toNat / 2 ^ width.toNat := by
  obtain ⟨hheight, ⟨hslot, hwidth⟩, -⟩ := candidate_spec hn h
  rw [hwidth] at hslot
  rw [Submission.slot, currentSlot_eq hslot, toNat_shiftRight hw, ← hheight]
  rfl

/-- Along heights that never go down, the slots of the candidates do not
either. -/
theorem pairwise_candidates {width : UInt32} (hw : width < 32) {L : List A → Prop}
    {ns : List (Notification A)} (hns : ∀ n ∈ ns, n.Reads (· = width) L)
    (hheights : ns.Pairwise fun n m => n.number ≤ m.number) :
    (ns.filterMap (candidate S)).Pairwise fun o o' => o.slot ≤ o'.slot := by
  rw [List.pairwise_filterMap]
  refine hheights.imp_of_mem fun {n m} hn hm hle o ho o' ho' => ?_
  rw [candidate_slot hw (hns n hn) ho, candidate_slot hw (hns m hm) ho']
  exact Nat.div_le_div_right (UInt32.le_iff_toNat_le.mp hle)

/-- The orders of a stream are candidates of its notifications. -/
theorem exists_candidate_of_mem (hraw : ∀ a, (S.toRawVec a).length = 32)
    {ns : List (Notification A)} (hns : ∀ n ∈ ns, n.Reads (· < 32) (· ≠ []))
    {o : Submission A} (ho : o ∈ (followRelayChain S).outputs (.ok .empty) ns) :
    ∃ n ∈ ns, candidate S n = some o := by
  rw [followRelayChain_outputs hraw hns] at ho
  obtain ⟨before, after, hsplit, -⟩ := Highs.mem_highs.mp ho
  have hmem : o ∈ ns.filterMap (candidate S) := by simp [hsplit]
  exact List.mem_filterMap.mp hmem

/-- Along heights that never go down, the slot of every candidate is ordered
for. -/
theorem exists_order_of_candidate (hraw : ∀ a, (S.toRawVec a).length = 32) {width : UInt32}
    (hw : width < 32) {authorities : List A} (hne : authorities ≠ []) {ns : List (Notification A)}
    (hns : ∀ n ∈ ns, n.Reads (· = width) (· = authorities))
    (hheights : ns.Pairwise fun n m => n.number ≤ m.number) {n : Notification A} (hn : n ∈ ns)
    {o : Submission A} (ho : candidate S n = some o) :
    ∃ first ∈ (followRelayChain S).outputs (.ok .empty) ns, first.slot = o.slot := by
  rw [followRelayChain_outputs hraw fun n hn => (hns n hn).safe hw hne]
  exact Highs.exists_mem_highs (pairwise_candidates hw hns hheights)
    (List.mem_filterMap.mpr ⟨n, hn, ho⟩) (candidate_pos ho)

/-- Two orders for one slot come from one node: the round robin elects one key
for it, and that key is in one keystore. -/
theorem same_node {S : κ → Service A} {authorities : List A} {width : UInt32}
    (hkeys : ∀ a ∈ authorities, ∀ k l, (S k).keystore.hasKeys [((S k).toRawVec a, aura)] = true →
      (S l).keystore.hasKeys [((S l).toRawVec a, aura)] = true → k = l)
    {k l : κ} {o o' : Submission A}
    (ho : o.request.attempt.InSlot (S k) (· = width) ∧ o.request.Chosen (S k) (· = authorities))
    (ho' : o'.request.attempt.InSlot (S l) (· = width) ∧ o'.request.Chosen (S l) (· = authorities))
    (hsame : o.slot = o'.slot) : k = l := by
  obtain ⟨⟨hslot, hw⟩, hhas, _, rfl, hplacer⟩ := ho
  obtain ⟨⟨hslot', hw'⟩, hhas', _, rfl, hplacer'⟩ := ho'
  rw [hw] at hslot hplacer
  rw [hw'] at hslot' hplacer'
  rw [← UInt32.toNat_inj.mp hsame] at hslot'
  obtain ⟨heq, hmem⟩ := orderPlacer_unique hslot hslot' hplacer hplacer'
  exact hkeys _ hmem k l hhas (heq ▸ hhas')

/-- **Every slot of the network gets its one order.**  When every authority key
is in at most one keystore and all nodes read one width and one authority list,
each along heights that never go down, then for every slot for which some head
would be ordered at on a fresh record there is exactly one order in the whole
network. -/
theorem network_orders_each_slot_once (S : κ → Service A) (authorities : List A) (width : UInt32)
    (hw : width < 32) (hne : authorities ≠ []) (hraw : ∀ k a, ((S k).toRawVec a).length = 32)
    (hkeys : ∀ a ∈ authorities, ∀ k l, (S k).keystore.hasKeys [((S k).toRawVec a, aura)] = true →
      (S l).keystore.hasKeys [((S l).toRawVec a, aura)] = true → k = l)
    (ns : κ → List (Notification A))
    (hreads : ∀ k, ∀ n ∈ ns k, n.Reads (· = width) (· = authorities))
    (hheights : ∀ k, (ns k).Pairwise fun n m => n.number ≤ m.number) {k : κ} {n : Notification A}
    (hn : n ∈ ns k) {o : Submission A} (ho : candidate (S k) n = some o) :
    ∃! x : κ × Submission A,
      x.2 ∈ (followRelayChain (S x.1)).outputs (.ok .empty) (ns x.1) ∧ x.2.slot = o.slot := by
  have hbelow : ∀ k, ∀ n ∈ ns k, n.Reads (· < 32) (· ≠ []) :=
    fun k n hn => (hreads k n hn).safe hw hne
  obtain ⟨first, hfirst, hslot⟩ :=
    exists_order_of_candidate (hraw k) hw hne (hreads k) (hheights k) hn ho
  have hspec : ∀ {l : κ} {o' : Submission A},
      o' ∈ (followRelayChain (S l)).outputs (.ok .empty) (ns l) →
        o'.request.attempt.InSlot (S l) (· = width) ∧
          o'.request.Chosen (S l) (· = authorities) := by
    intro l o' ho'
    obtain ⟨m, hm, hcandidate⟩ := exists_candidate_of_mem (hraw l) (hbelow l) ho'
    exact (candidate_spec (hreads l m hm) hcandidate).2
  refine ⟨(k, first), ⟨hfirst, hslot⟩, ?_⟩
  rintro ⟨l, o'⟩ ⟨ho', hslot'⟩
  obtain rfl : k = l := same_node hkeys (hspec hfirst) (hspec ho') (hslot.trans hslot'.symm)
  have hnodup : (((followRelayChain (S k)).outputs (.ok .empty) (ns k)).map
      Submission.slot).Nodup := by
    rw [followRelayChain_outputs (hraw k) (hbelow k)]
    exact List.pairwise_map.mpr (Highs.pairwise_highs.imp fun h => h.ne)
  exact Prod.ext rfl (List.inj_on_of_nodup_map hnodup ho' hfirst (hslot'.trans hslot.symm))

/-- Alice's and Bob's nodes both see heights 4, 5 and 6 at width 1: slot 3 is
Bob's, and there is one order for it. -/
theorem network_orders_each_slot_once_bob :
    ∃ o, candidate (collator [bob]) (plainNotification [alice, bob] 1 6) = some o ∧ o.slot = 3 ∧
      ∃! x : Bool × Submission Sr25519Public,
        x.2 ∈ (followRelayChain (collator [if x.1 then alice else bob])).outputs (.ok .empty)
          ([4, 5, 6].map (plainNotification [alice, bob] 1)) ∧ x.2.slot = o.slot := by
  have hcandidate : ((candidate (collator [bob]) (plainNotification [alice, bob] 1 6)).map
      Submission.slot) = some 3 := by
    decide
  obtain ⟨o, ho, hslot⟩ := Option.map_eq_some_iff.mp hcandidate
  have ho' : candidate (collator [if (false : Bool) then alice else bob])
      (plainNotification [alice, bob] 1 6) = some o := by
    rw [if_neg (by decide)]
    exact ho
  refine ⟨o, ho, hslot, ?_⟩
  have hkeys : ∀ a ∈ [alice, bob], ∀ k l : Bool,
      (collator [if k then alice else bob]).keystore.hasKeys [(a.toList, aura)] = true →
      (collator [if l then alice else bob]).keystore.hasKeys [(a.toList, aura)] = true → k = l := by
    decide
  have hreads : ∀ n ∈ [4, 5, 6].map (plainNotification [alice, bob] 1),
      n.Reads (· = 1) (· = [alice, bob]) := by
    intro n hn
    obtain ⟨height, -, rfl⟩ := List.mem_map.mp hn
    exact plainNotification_reads _ _ height
  have hheights : ([4, 5, 6].map (plainNotification [alice, bob] 1)).Pairwise
      fun n m => n.number ≤ m.number := by
    rw [List.pairwise_map]
    decide
  exact network_orders_each_slot_once (fun b : Bool => collator [if b then alice else bob])
    [alice, bob] 1 (by decide) (List.cons_ne_nil _ _) (fun _ => Bytes32.length_toList) hkeys
    (fun _ => [4, 5, 6].map (plainNotification [alice, bob] 1)) (fun _ => hreads)
    (fun _ => hheights) (k := false) (n := plainNotification [alice, bob] 1 6)
    (List.mem_map_of_mem (by decide)) ho'

end OnDemand
