/-
# A node keeps going

What the tasks of a node (`OnDemand.Service.Node`) never do, in any interleaving:

* panic, as long as the slot widths they read are shifts, the authority lists are
  not empty, AURA keys have 32 bytes and the keystore can sign with its first one
  (`node_never_crashes`); the index into the keystore's keys in `submit_order`
  (`services/order/src/chain.rs`) is safe because the elected key is one of them;
* keep the lock on the record: whoever holds it lets go of it with its next step,
  whatever the relay node answers (`lock_released`);
* lose an order: a block of the subscription whose events can be fetched and
  decoded and that holds an order for the para is written to the record before the
  event task is done with it (`no_order_lost`).
-/

import OnDemand.Service.Locking
import OnDemand.Service.Record

namespace OnDemand

open Word

variable {A : Type} {S : Service A} {chain : H256 → List RelayEvent} {s : Node A}

/-! ### Panics -/

theorem currentSlot_of_lt (checks : Bool) {h w : UInt32} (hw : w < 32) :
    currentSlot checks h w = .ok (h >>> w) := by
  rw [currentSlot, shr_of_lt checks hw]

theorem isParathread_no_panic (D : Decoders) (rc : RelayChainInterface) (hash : H256)
    (paraId : ParaId) (reason : ServicePanic) :
    isParathread D rc hash paraId ≠ .error (.panic reason) := by
  unfold isParathread
  split
  · exact nofun
  · split
    · exact nofun
    · exact nofun

/-- Up to the lock, a call panics on a slot width that is no shift only. -/
theorem untilLock_no_panic {v : View A} (hv : ∀ hash w, v.api.slotWidth hash = .ok w → w < 32)
    (head : Head) (reason : ServicePanic) : untilLock S v head ≠ .error (.panic reason) := by
  unfold untilLock
  split
  · rename_i e he
    rintro ⟨⟩
    exact isParathread_no_panic _ _ _ _ _ he
  · exact nofun
  · split
    · exact nofun
    · split
      · exact nofun
      · exact nofun
      · split
        · exact nofun
        · exact nofun
        · split
          · exact nofun
          · rename_i w hw
            rw [currentSlot_of_lt _ (hv _ _ hw)]
            exact nofun

/-- Under the lock, it also panics on an empty authority list. -/
theorem underLock_no_panic {v : View A}
    (hv : ∀ hash authorities, v.api.authorities hash = .ok authorities → authorities ≠ [])
    (record : OrderRecord) {a : Attempt} (ha : a.slotWidth < 32) (reason : ServicePanic) :
    underLock S v record a ≠ .error (.panic reason) := by
  unfold underLock
  split
  · exact nofun
  · split
    · exact nofun
    · rename_i authorities hauth
      obtain ⟨placer, hplacer⟩ := RoundRobin.exists_turn (hv _ _ hauth) (slotOf a.head.height a.slotWidth)
      rw [orderPlacer_of_lt S.checks ha hplacer]
      dsimp only
      split
      · exact nofun
      · split
        · exact nofun
        · split
          · exact nofun
          · exact nofun

/-- A keystore that has an AURA key of 32 bytes has a first one. -/
theorem exists_head_sr25519PublicKeys {ks : Keystore} {raw : List UInt8}
    (hkey : ks.hasKeys [(raw, aura)] = true) (hraw : raw.length = 32) :
    ∃ key, (ks.sr25519PublicKeys aura).head? = some key := by
  have hmem : raw ∈ ks.rawPublicKeys aura := by simpa [Keystore.hasKeys] using hkey
  have hkeys : (⟨raw, hraw⟩ : Sr25519Public) ∈ ks.sr25519PublicKeys aura :=
    List.mem_filterMap.mpr ⟨raw, hmem, by simp [sr25519FromSlice, hraw]⟩
  cases hlist : ks.sr25519PublicKeys aura with
  | nil =>
      rw [hlist] at hkeys
      cases hkeys
  | cons key keys => exact ⟨key, rfl⟩

/-- The keystore can sign with its first AURA key, the one `SignerKeystore` takes. -/
def Keystore.CanSign (ks : Keystore) : Prop :=
  ∀ key, (ks.sr25519PublicKeys aura).head? = some key → ks.signs aura key = true

/-- A submission does not panic, since the elected key is in the keystore, which
therefore has a first key, and can sign with it. -/
theorem submit_no_panic (rpc : RelayRpc) {q : Request A} (hw : q.attempt.slotWidth < 32)
    (hsign : S.keystore.CanSign)
    (hkey : S.keystore.hasKeys [(S.toRawVec q.orderPlacer, aura)] = true)
    (hraw : (S.toRawVec q.orderPlacer).length = 32) (reason : ServicePanic) :
    submit S rpc q ≠ .error (.panic reason) := by
  obtain ⟨key, hhead⟩ := exists_head_sr25519PublicKeys hkey hraw
  have hsigns : S.keystore.signs aura key = true := hsign key hhead
  have horder : ∀ reason, submitOrder S.checks rpc S.paraId q.attempt.head.height
      q.attempt.slotWidth q.spotPrice S.keystore ≠ .error (.panic reason) := by
    intro reason
    unfold submitOrder
    split
    · exact nofun
    · simp only [SignerKeystore.new, SignerKeystore.sign, hhead, hsigns, if_true,
        currentSlot_of_lt _ hw, shl_of_lt _ hw]
      split
      · exact nofun
      · exact nofun
      · split
        · exact nofun
        · split
          · exact nofun
          · split
            · exact nofun
            · exact nofun
  unfold submit
  split
  · rename_i e he
    rintro ⟨⟩
    exact horder reason he
  · rw [currentSlot_of_lt _ hw]
    exact nofun

/-- Reads that have more have less. -/
theorem Action.Reads.mono {W W' : UInt32 → Prop} {L L' : List A → Prop} {act : Action A}
    (h : act.Reads W L) (hW : ∀ w, W w → W' w) (hL : ∀ l, L l → L' l) : act.Reads W' L' := by
  cases act with
  | head v head => exact fun hash w hw => hW w (h hash w hw)
  | decide v => exact fun hash l hl => hL l (h hash l hl)
  | _ => trivial

/-- The lock is held by the task it names, unless the node has crashed. -/
structure LockHeld (s : Node A) : Prop where
  follower : s.lock = some .follower → s.follower.Holds
  eventTask : s.lock = some .eventTask → s.eventTask.Holds

/-- A step that leaves the lock and whoever holds it alone. -/
theorem LockHeld.of_eq {s' : Node A} (h : LockHeld s) (hlock : s'.lock = s.lock)
    (hfollower : s.follower.Holds → s'.follower.Holds)
    (hevent : s.eventTask.Holds → s'.eventTask.Holds) : LockHeld s' :=
  ⟨fun hl => hfollower (h.follower (hlock ▸ hl)), fun hl => hevent (h.eventTask (hlock ▸ hl))⟩

/-- A free lock is held by nobody. -/
theorem LockHeld.of_free (hlock : s.lock = none) : LockHeld s := by
  constructor
  · intro hl
    rw [hlock] at hl
    cases hl
  · intro hl
    rw [hlock] at hl
    cases hl

/-- **Every action leaves the lock with a task that holds it**, or ends the
node. -/
theorem LockHeld.step (S : Service A) (chain : H256 → List RelayEvent) (h : LockHeld s)
    (act : Action A) : ((node S chain).next s act).crashed = true ∨
      LockHeld ((node S chain).next s act) := by
  unfold Transducer.next node
  by_cases hcrashed : s.crashed
  · exact Or.inl (by simp only [hcrashed, if_true])
  simp only [hcrashed, Bool.false_eq_true, if_false]
  cases act with
  | head v head =>
      simp only [Node.onHead]
      split
      · rename_i hidle
        have hnot : ¬ s.follower.Holds := by rw [hidle]; exact id
        split
        · exact Or.inl rfl
        · exact Or.inr h
        · exact Or.inr h
        · exact Or.inr (h.of_eq rfl (fun hh => absurd hh hnot) id)
      · exact Or.inr h
  | followerLock =>
      simp only [Node.onFollowerLock]
      split
      · exact Or.inr ⟨fun _ => trivial, by simp⟩
      · exact Or.inr h
  | decide v =>
      simp only [Node.onDecide]
      split
      · split
        · rename_i e he
          cases e with
          | error e => exact Or.inr (.of_free rfl)
          | panic reason => exact Or.inl rfl
        · exact Or.inr (.of_free rfl)
        · exact Or.inr (h.of_eq rfl (fun _ => trivial) id)
      · exact Or.inr h
  | submit rpc =>
      simp only [Node.onSubmit]
      split
      · split
        · rename_i e he
          cases e with
          | error e => exact Or.inr (.of_free rfl)
          | panic reason => exact Or.inl rfl
        · exact Or.inr (.of_free rfl)
      · exact Or.inr h
  | block hash fetched =>
      simp only [Node.onBlock]
      split
      · rename_i hidle
        have hnot : ¬ s.eventTask.Holds := by rw [hidle]; exact id
        split
        · exact Or.inr (h.of_eq rfl id fun hh => absurd hh hnot)
        · exact Or.inr h
      · exact Or.inr h
  | event reading =>
      simp only [Node.onEvent]
      split
      · rename_i hreading
        have hnot : ¬ s.eventTask.Holds := by rw [hreading]; exact id
        exact Or.inr (h.of_eq rfl id fun hh => absurd hh hnot)
      · rename_i hreading
        have hnot : ¬ s.eventTask.Holds := by rw [hreading]; exact id
        refine Or.inr ?_
        split
        · exact h.of_eq rfl id fun hh => absurd hh hnot
        · exact h.of_eq rfl id fun hh => absurd hh hnot
        · split
          · exact h.of_eq rfl id fun hh => absurd hh hnot
          · exact h.of_eq rfl id fun hh => absurd hh hnot
      · exact Or.inr h
  | eventLock =>
      simp only [Node.onEventLock]
      split
      · exact Or.inr ⟨by simp, fun _ => trivial⟩
      · exact Or.inr h
  | eventWrite =>
      simp only [Node.onEventWrite]
      split
      · exact Or.inr (.of_free rfl)
      · exact Or.inr h
  | provide =>
      simp only
      split
      · exact Or.inr ⟨by simp, by simp⟩
      · exact Or.inr h
  | provided =>
      simp only
      split
      · exact Or.inr (.of_free rfl)
      · exact Or.inr h

theorem next_of_crashed (hcrashed : s.crashed = true) (act : Action A) :
    (node S chain).next s act = s := by
  simp only [Transducer.next, node, hcrashed, if_true]

/-- Along every run the node has crashed, or the lock is free or held. -/
theorem lockHeld_run (S : Service A) (chain : H256 → List RelayEvent) (acts : List (Action A)) :
    ((node S chain).run Node.start acts).crashed = true ∨
      LockHeld ((node S chain).run Node.start acts) := by
  refine (node S chain).run_invariant (fun s => s.crashed = true ∨ LockHeld s)
    (Or.inr (.of_free rfl)) fun act _ t ht => ?_
  rcases ht with hcrashed | hheld
  · rw [next_of_crashed hcrashed]
    exact Or.inl hcrashed
  · exact hheld.step S chain act

/-! ### What a step leaves alone -/

/-- A step of the follower. -/
def Action.OfFollower : Action A → Prop
  | .head _ _ => True
  | .followerLock => True
  | .decide _ => True
  | .submit _ => True
  | _ => False

/-- A step of the event task. -/
def Action.OfEventTask : Action A → Prop
  | .block _ _ => True
  | .event _ => True
  | .eventLock => True
  | .eventWrite => True
  | _ => False

/-- Only the follower moves the follower. -/
theorem follower_of_not (S : Service A) (chain : H256 → List RelayEvent) {act : Action A}
    (hact : ¬act.OfFollower) : ((node S chain).next s act).follower = s.follower := by
  unfold Transducer.next node
  by_cases hcrashed : s.crashed = true
  · simp only [hcrashed, if_true]
  simp only [hcrashed, Bool.false_eq_true, if_false]
  cases act with
  | block hash fetched =>
      simp only [Node.onBlock]
      split
      · split <;> rfl
      · rfl
  | event reading =>
      simp only [Node.onEvent]
      split
      · rfl
      · split
        · rfl
        · rfl
        · split <;> rfl
      · rfl
  | eventLock => simp only [Node.onEventLock]; split <;> rfl
  | eventWrite => simp only [Node.onEventWrite]; split <;> rfl
  | provide => simp only; split <;> rfl
  | provided => simp only; split <;> rfl
  | _ => exact absurd trivial hact

theorem Node.failed_eventTask (s : Node A) (h : Halt) : (s.failed h).eventTask = s.eventTask := by
  cases h <;> rfl

/-- Only the event task moves the event task. -/
theorem eventTask_of_not (S : Service A) (chain : H256 → List RelayEvent) {act : Action A}
    (hact : ¬act.OfEventTask) : ((node S chain).next s act).eventTask = s.eventTask := by
  unfold Transducer.next node
  by_cases hcrashed : s.crashed = true
  · simp only [hcrashed, if_true]
  simp only [hcrashed, Bool.false_eq_true, if_false]
  cases act with
  | head v head =>
      simp only [Node.onHead]
      split
      · split <;> rfl
      · rfl
  | followerLock => simp only [Node.onFollowerLock]; split <;> rfl
  | decide v =>
      simp only [Node.onDecide]
      split
      · split
        · exact s.failed_eventTask _
        · rfl
        · rfl
      · rfl
  | submit rpc =>
      simp only [Node.onSubmit]
      split
      · split
        · exact s.failed_eventTask _
        · rfl
      · rfl
  | provide => simp only; split <;> rfl
  | provided => simp only; split <;> rfl
  | _ => exact absurd trivial hact

/-! ### Whoever holds the lock drops it -/

/-- Nobody has the lock, or nobody runs. -/
def Released (s : Node A) : Prop := s.crashed = true ∨ s.lock = none

/-- Failing drops the lock, or ends the node. -/
theorem Released.failed (s : Node A) (h : Halt) : Released (s.failed h) := by
  cases h with
  | error e => exact Or.inr rfl
  | panic reason => exact Or.inl rfl

/-- A follower at `submit_order` stays there until the relay node answers, and
drops the lock whatever the answer is. -/
theorem submitting_step (S : Service A) (chain : H256 → List RelayEvent) {q : Request A}
    (hq : s.follower = .submitting q) (act : Action A) :
    Released ((node S chain).next s act) ∨
      ((node S chain).next s act).follower = .submitting q ∧ ∀ rpc, act ≠ .submit rpc := by
  by_cases hcrashed : s.crashed = true
  · rw [next_of_crashed hcrashed]
    exact Or.inl (Or.inl hcrashed)
  by_cases hact : act.OfFollower
  · unfold Transducer.next node
    simp only [hcrashed, Bool.false_eq_true, if_false]
    cases act with
    | submit rpc =>
        simp only [Node.onSubmit, hq]
        split
        · exact Or.inl (Released.failed s _)
        · exact Or.inl (Or.inr rfl)
    | head v head => exact Or.inr ⟨by simp only [Node.onHead, hq], by simp⟩
    | followerLock => exact Or.inr ⟨by simp only [Node.onFollowerLock, hq], by simp⟩
    | decide v => exact Or.inr ⟨by simp only [Node.onDecide, hq], by simp⟩
    | _ => exact absurd hact id
  · refine Or.inr ⟨(follower_of_not S chain hact).trans hq, ?_⟩
    rintro rpc rfl
    exact hact trivial

/-- A follower at the guard stays there until it decides, and then drops the
lock or is at `submit_order`. -/
theorem locked_step (S : Service A) (chain : H256 → List RelayEvent) {a : Attempt}
    (ha : s.follower = .locked a) (act : Action A) :
    (Released ((node S chain).next s act) ∨
      ∃ q, ((node S chain).next s act).follower = .submitting q) ∨
    ((node S chain).next s act).follower = .locked a ∧ ∀ v, act ≠ .decide v := by
  by_cases hcrashed : s.crashed = true
  · rw [next_of_crashed hcrashed]
    exact Or.inl (Or.inl (Or.inl hcrashed))
  by_cases hact : act.OfFollower
  · unfold Transducer.next node
    simp only [hcrashed, Bool.false_eq_true, if_false]
    cases act with
    | decide v =>
        simp only [Node.onDecide, ha]
        split
        · exact Or.inl (Or.inl (Released.failed s _))
        · exact Or.inl (Or.inl (Or.inr rfl))
        · exact Or.inl (Or.inr ⟨_, rfl⟩)
    | head v head => exact Or.inr ⟨by simp only [Node.onHead, ha], by simp⟩
    | followerLock => exact Or.inr ⟨by simp only [Node.onFollowerLock, ha], by simp⟩
    | submit rpc => exact Or.inr ⟨by simp only [Node.onSubmit, ha], by simp⟩
    | _ => exact absurd hact id
  · refine Or.inr ⟨(follower_of_not S chain hact).trans ha, ?_⟩
    rintro v rfl
    exact hact trivial

/-- The event task stays under the lock until its write, which drops it. -/
theorem eventTask_locked_step (S : Service A) (chain : H256 → List RelayEvent) {hash : H256}
    {rest : List RelayEvent} (hlocked : s.eventTask = .locked hash rest) (act : Action A) :
    Released ((node S chain).next s act) ∧
      ((node S chain).next s act).record.relayBlockHash = some hash ∨
    ((node S chain).next s act).eventTask = .locked hash rest ∧
      (s.crashed = false → act ≠ .eventWrite) := by
  by_cases hcrashed : s.crashed = true
  · rw [next_of_crashed hcrashed]
    exact Or.inr ⟨hlocked, fun hup => by rw [hup] at hcrashed; cases hcrashed⟩
  by_cases hact : act.OfEventTask
  · unfold Transducer.next node
    simp only [hcrashed, Bool.false_eq_true, if_false]
    cases act with
    | eventWrite =>
        simp only [Node.onEventWrite, hlocked]
        exact Or.inl ⟨Or.inr rfl, trivial⟩
    | block hash' fetched => exact Or.inr ⟨by simp only [Node.onBlock, hlocked], by simp⟩
    | event reading => exact Or.inr ⟨by simp only [Node.onEvent, hlocked], by simp⟩
    | eventLock => exact Or.inr ⟨by simp only [Node.onEventLock, hlocked], by simp⟩
    | _ => exact absurd hact id
  · refine Or.inr ⟨(eventTask_of_not S chain hact).trans hlocked, ?_⟩
    rintro - rfl
    exact hact trivial

/-- While the provider has the lock, it keeps it until it has read the record. -/
theorem provider_step (S : Service A) (chain : H256 → List RelayEvent) (hinv : LockInv s)
    (hlock : s.lock = some .provider) (act : Action A) :
    Released ((node S chain).next s act) ∨
      ((node S chain).next s act).lock = some .provider ∧ act ≠ .provided := by
  by_cases hcrashed : s.crashed = true
  · rw [next_of_crashed hcrashed]
    exact Or.inl (Or.inl hcrashed)
  have hfollower : ¬s.follower.Holds := hinv.not_follower (by rw [hlock]; decide)
  have hevent : ¬s.eventTask.Holds := hinv.not_eventTask (by rw [hlock]; decide)
  unfold Transducer.next node
  simp only [hcrashed, Bool.false_eq_true, if_false]
  cases act with
  | head v head =>
      simp only [Node.onHead]
      split
      · split
        · exact Or.inl (Or.inl rfl)
        · exact Or.inr ⟨hlock, by simp⟩
        · exact Or.inr ⟨hlock, by simp⟩
        · exact Or.inr ⟨hlock, by simp⟩
      · exact Or.inr ⟨hlock, by simp⟩
  | followerLock =>
      simp only [Node.onFollowerLock]
      split
      · rename_i hfree
        rw [hlock] at hfree
        cases hfree
      · exact Or.inr ⟨hlock, by simp⟩
  | decide v =>
      simp only [Node.onDecide]
      split
      · rename_i hlocked
        rw [hlocked] at hfollower
        exact absurd trivial hfollower
      · exact Or.inr ⟨hlock, by simp⟩
  | submit rpc =>
      simp only [Node.onSubmit]
      split
      · rename_i hsubmitting
        rw [hsubmitting] at hfollower
        exact absurd trivial hfollower
      · exact Or.inr ⟨hlock, by simp⟩
  | block hash fetched =>
      refine Or.inr ⟨?_, by simp⟩
      simp only [Node.onBlock]
      split
      · split
        · exact hlock
        · exact hlock
      · exact hlock
  | event reading =>
      refine Or.inr ⟨?_, by simp⟩
      simp only [Node.onEvent]
      split
      · exact hlock
      · split
        · exact hlock
        · exact hlock
        · split
          · exact hlock
          · exact hlock
      · exact hlock
  | eventLock =>
      simp only [Node.onEventLock]
      split
      · rename_i hfree
        rw [hlock] at hfree
        cases hfree
      · exact Or.inr ⟨hlock, by simp⟩
  | eventWrite =>
      simp only [Node.onEventWrite]
      split
      · rename_i hlocked
        rw [hlocked] at hevent
        exact absurd trivial hevent
      · exact Or.inr ⟨hlock, by simp⟩
  | provide =>
      simp only [hlock, reduceCtorEq, if_false]
      exact Or.inr ⟨trivial, by simp⟩
  | provided =>
      simp only [hlock, if_true]
      exact Or.inl (Or.inr rfl)

/-- Past `lock().await`, the follower is at the guard or at `submit_order`. -/
theorem Follower.exists_of_holds {f : Follower A} (h : f.Holds) :
    (∃ a, f = .locked a) ∨ ∃ q, f = .submitting q := by
  cases f with
  | locked a => exact Or.inl ⟨a, rfl⟩
  | submitting q => exact Or.inr ⟨q, rfl⟩
  | _ => exact absurd h id

theorem EventTask.exists_of_holds {t : EventTask} (h : t.Holds) :
    ∃ hash rest, t = .locked hash rest := by
  cases t with
  | locked hash rest => exact ⟨hash, rest, rfl⟩
  | _ => exact absurd h id

/-- A follower at `submit_order` drops the lock with the relay node's answer. -/
theorem released_of_submitting (S : Service A) (chain : H256 → List RelayEvent) {q : Request A}
    (hq : s.follower = .submitting q) {rpc : RelayRpc} {later : List (Action A)}
    (hsubmit : .submit rpc ∈ later) :
    ∃ before after, later = before ++ after ∧ Released ((node S chain).run s before) := by
  refine (node S chain).run_ensures (P := fun t => t.follower = .submitting q) (Q := Released) hq
    hsubmit fun t act ht => ?_
  rcases submitting_step S chain ht act with h | h
  · exact Or.inl h
  · exact Or.inr ⟨h.1, h.2 rpc⟩

/-- The steps a party takes under the lock: the follower decides and hears from
the relay node, the event task writes, the provider reads. -/
def Party.steps (v : View A) (rpc : RelayRpc) : Party → List (Action A)
  | .follower => [.decide v, .submit rpc]
  | .eventTask => [.eventWrite]
  | .provider => [.provided]

/-- **The lock is never stuck.**  In every state a node can reach, when whoever
holds the lock takes its steps, with any reads and any answer of the relay node
and with any steps of the other tasks in between, the lock is dropped on the
way or the node ends. -/
theorem lock_released (S : Service A) (chain : H256 → List RelayEvent) (acts later : List (Action A))
    {party : Party} (hlock : ((node S chain).run Node.start acts).lock = some party) {v : View A}
    {rpc : RelayRpc} (hlater : (party.steps v rpc).Sublist later) :
    ∃ before after, later = before ++ after ∧
      Released ((node S chain).run ((node S chain).run Node.start acts) before) := by
  have hinv := lockInv_run S chain acts
  have hheld := lockHeld_run S chain acts
  generalize (node S chain).run Node.start acts = s at hlock hinv hheld ⊢
  rcases hheld with hcrashed | hheld
  · exact ⟨[], later, rfl, Or.inl hcrashed⟩
  cases party with
  | follower =>
      obtain ⟨first, second, rfl, hdecide, hrest⟩ := List.cons_sublist_iff.mp hlater
      have hsubmit : Action.submit rpc ∈ second := List.singleton_sublist.mp hrest
      rcases Follower.exists_of_holds (hheld.follower hlock) with ⟨a, ha⟩ | ⟨q, hq⟩
      · have hdecided := (node S chain).run_ensures (P := fun t => t.follower = .locked a)
          (Q := fun t => Released t ∨ ∃ q, t.follower = .submitting q) ha hdecide
          fun t act ht => (locked_step S chain ht act).imp_right fun h => ⟨h.1, h.2 v⟩
        obtain ⟨before, after, rfl, hfree | ⟨q, hq⟩⟩ := hdecided
        · exact ⟨before, after ++ second, List.append_assoc .., hfree⟩
        · obtain ⟨between, after', hsplit, hfree⟩ := released_of_submitting S chain hq
            (List.mem_append_right after hsubmit)
          refine ⟨before ++ between, after', ?_, ?_⟩
          · rw [List.append_assoc, hsplit, List.append_assoc]
          · rw [Transducer.run_append]
            exact hfree
      · exact released_of_submitting S chain hq (List.mem_append_right first hsubmit)
  | eventTask =>
      obtain ⟨hash, rest, hlocked⟩ := EventTask.exists_of_holds (hheld.eventTask hlock)
      refine (node S chain).run_ensures (P := fun t => t.eventTask = .locked hash rest)
        (Q := Released) hlocked (List.singleton_sublist.mp hlater) fun t act ht => ?_
      by_cases hcrashed : t.crashed = true
      · rw [next_of_crashed hcrashed]
        exact Or.inl (Or.inl hcrashed)
      · rcases eventTask_locked_step S chain ht act with h | h
        · exact Or.inl h.1
        · exact Or.inr ⟨h.1, h.2 (by simpa using hcrashed)⟩
  | provider =>
      refine (node S chain).run_ensures (P := fun t => LockInv t ∧ t.lock = some .provider)
        (Q := Released) ⟨hinv, hlock⟩ (List.singleton_sublist.mp hlater) fun t act ht => ?_
      rcases provider_step S chain ht.1 ht.2 act with h | h
      · exact Or.inl h
      · exact Or.inr ⟨⟨ht.1.step S chain act, h.1⟩, h.2⟩

/-- Alice's follower waits for the relay node while the provider, a block and
the event task come in between. -/
theorem lock_released_alice :
    ((node (collator [alice]) fun _ => []).run Node.start
      [.head (plainView [alice] 1) (headAt 4), .followerLock]).lock = some .follower ∧
    ∃ before after, [.provide, .decide (plainView [alice] 1), .block (headAt 4).hash true, .eventLock,
        .submit plainRpc, .provide] = before ++ after ∧
      Released ((node (collator [alice]) fun _ => []).run
        ((node (collator [alice]) fun _ => []).run Node.start
          [.head (plainView [alice] 1) (headAt 4), .followerLock]) before) := by
  have hlock : ((node (collator [alice]) fun _ => []).run Node.start
      [.head (plainView [alice] 1) (headAt 4), .followerLock]).lock = some .follower := by
    decide
  have hlater : (Party.steps (plainView [alice] 1) plainRpc .follower).Sublist
      [.provide, .decide (plainView [alice] 1), .block (headAt 4).hash true, .eventLock,
        .submit plainRpc, .provide] :=
    .cons _ (.cons_cons _ (.cons _ (.cons _ (.cons_cons _ (.cons _ .slnil)))))
  exact ⟨hlock, lock_released _ _ _ _ hlock hlater⟩

/-! ### Orders of the chain -/

/-- The event task has still to record the block: an order for the para is among
the events to come, or has been seen. -/
def EventTask.Pending (paraId : ParaId) (hash : H256) : EventTask → Prop
  | .idle => False
  | .reading block rest => block = hash ∧ ∃ event ∈ rest, isOrderFor paraId event = true
  | .waiting block _ => block = hash
  | .locked block _ => block = hash

/-- The event the action looks at, if it does, decodes. -/
def Action.Decodes : Action A → Prop
  | .event reading => reading = .decoded
  | _ => True

/-- Looking at the next event of the block does not skip an order. -/
theorem Node.onEvent_pending {paraId : ParaId} {hash : H256}
    (h : s.eventTask.Pending paraId hash) :
    (s.onEvent paraId .decoded).eventTask.Pending paraId hash := by
  cases htask : s.eventTask with
  | idle =>
      rw [htask] at h
      exact absurd h id
  | reading block rest =>
      rw [htask] at h
      obtain ⟨rfl, event, hmem, horder⟩ := h
      cases rest with
      | nil => cases hmem
      | cons first rest =>
          simp only [Node.onEvent, htask]
          split
          · exact rfl
          · rename_i hfirst
            refine ⟨rfl, event, ?_, horder⟩
            rcases List.mem_cons.mp hmem with rfl | hrest
            · exact absurd horder hfirst
            · exact hrest
  | waiting block rest =>
      simp only [Node.onEvent, htask]
      exact htask ▸ h
  | locked block rest =>
      simp only [Node.onEvent, htask]
      exact htask ▸ h

/-- **A block stays pending until it is recorded.** -/
theorem pending_step (S : Service A) (chain : H256 → List RelayEvent) {hash : H256}
    {act : Action A} (hact : act.Decodes) (h : s.eventTask.Pending S.paraId hash) :
    ((node S chain).next s act).eventTask.Pending S.paraId hash ∨
      ((node S chain).next s act).record.relayBlockHash = some hash := by
  by_cases hcrashed : s.crashed = true
  · rw [next_of_crashed hcrashed]
    exact Or.inl h
  by_cases hof : act.OfEventTask
  · unfold Transducer.next node
    simp only [hcrashed, Bool.false_eq_true, if_false]
    cases act with
    | block hash' fetched =>
        simp only [Node.onBlock]
        split
        · rename_i hidle
          rw [hidle] at h
          exact absurd h id
        · exact Or.inl h
    | event reading =>
        obtain rfl : reading = .decoded := hact
        exact Or.inl (Node.onEvent_pending h)
    | eventLock =>
        simp only [Node.onEventLock]
        split
        · rename_i hwaiting _
          rw [hwaiting] at h
          exact Or.inl h
        · exact Or.inl h
    | eventWrite =>
        simp only [Node.onEventWrite]
        split
        · rename_i hlocked
          rw [hlocked] at h
          exact Or.inr (congrArg some h)
        · exact Or.inl h
    | _ => exact absurd hof id
  · rw [eventTask_of_not S chain hof]
    exact Or.inl h

/-- A block with an order has an event the task takes for one. -/
theorem OrderedIn.exists_isOrderFor {paraId : ParaId} {hash : H256}
    (h : OrderedIn chain paraId hash) : ∃ event ∈ chain hash, isOrderFor paraId event = true := by
  obtain ⟨orderedBy, price, hmem⟩ := h
  exact ⟨_, hmem, by simp [isOrderFor]⟩

/-- **No order of the chain is lost.**  A block that reaches an idle event task,
whose events can be fetched and that holds an order for the para has been recorded
by the time the event task is idle again, whatever the other tasks do and write in
between, as long as its events decode. -/
theorem no_order_lost (S : Service A) (chain : H256 → List RelayEvent)
    (before after : List (Action A)) (hash : H256)
    (hup : ((node S chain).run Node.start before).crashed = false)
    (hidle : ((node S chain).run Node.start before).eventTask = .idle)
    (horder : OrderedIn chain S.paraId hash) (hafter : ∀ act ∈ after, act.Decodes)
    (hdone : ((node S chain).run Node.start (before ++ .block hash true :: after)).eventTask = .idle) :
    ∃ during rest, after = during ++ rest ∧
      ((node S chain).run Node.start (before ++ .block hash true :: during)).record.relayBlockHash =
        some hash := by
  simp only [Transducer.run_append, Transducer.run_cons] at hdone ⊢
  generalize (node S chain).run Node.start before = s at hup hidle hdone ⊢
  have hpending : ((node S chain).next s (.block hash true)).eventTask.Pending S.paraId hash := by
    simp only [Transducer.next, node, hup, Bool.false_eq_true, if_false, Node.onBlock, hidle, if_true]
    exact ⟨rfl, horder.exists_isOrderFor⟩
  have huntil := (node S chain).run_until (P := fun t => t.eventTask.Pending S.paraId hash)
    (Q := fun t => t.record.relayBlockHash = some hash) hpending
    fun act hact t ht => pending_step S chain (hafter act hact) ht
  rcases huntil with hstill | hrecorded
  · rw [hdone] at hstill
    exact absurd hstill id
  · exact hrecorded

/-- A relay chain whose block 4 holds an order of Alice's. -/
def aliceOrdered (hash : H256) : List RelayEvent :=
  if hash = (headAt 4).hash then
    [.onDemandAssignmentProvider (.onDemandOrderPlaced 2000 1000 alice)]
  else []

/-- The order of block 4 is recorded although the node submits one of its own
before the event task gets the lock. -/
theorem no_order_lost_alice :
    ∃ during rest, [.event .decoded] ++ followerCall (plainView [alice] 1) 6 ++
        [.eventLock, .provide, .eventWrite, .event .decoded] = during ++ rest ∧
      ((node (collator [alice]) aliceOrdered).run Node.start
        ([] ++ .block (headAt 4).hash true :: during)).record.relayBlockHash = some (headAt 4).hash := by
  refine no_order_lost (collator [alice]) aliceOrdered [] _ (headAt 4).hash rfl rfl ?_ ?_ (by rfl)
  · exact ⟨alice, 1000, by simp [aliceOrdered, collator]⟩
  · simp [followerCall, Action.call, Action.Decodes]

end OnDemand
