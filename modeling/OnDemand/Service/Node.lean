/-
# A collator node

The tasks of a node that share its `OrderRecord`, as one machine (`node`): the
follower of the relay chain's best heads (`follow_relay_chain` calling
`handle_relaychain_stream`), the event task (`ondemand_event_task`, restarted
by `event_notification` whenever it ends), both in
`services/order/src/lib.rs`, and the inherent provider of block authoring
(`create_inherent_data_providers`, `template/node/src/service.rs`).

An action is one step of one task between two points where another task can
run: a head arrives, the follower gets the lock, it decides under the lock, the
relay node answers its submission; a block arrives at the event task, it looks
at one event, gets the lock, writes; the provider gets and releases the lock.
What a step reads comes with the action, so reads vary freely from step to step
and fail freely.  An action whose task is not at that point does nothing, and a
list of actions is one interleaving.

The follower keeps the lock from the guard to the writes.  A panic in it ends
the node, which the task manager shuts down with its essential tasks.

`node_step` says once what an action can do; `node_ratchet` reads off it that
`last_slot` is a ratchet over the slots of the orders submitted.  `node_call`
ties the machine to the function it cuts up: a call nothing interrupts is
`handleRelaychainStream`.
-/

import OnDemand.Base.Ratchet
import OnDemand.Service.Follower

namespace OnDemand

open Word

/-- Who may hold the lock on the order record. -/
inductive Party where
  | follower
  | eventTask
  | provider
  deriving DecidableEq

/-- Where the follower is. -/
inductive Follower (A : Type) where
  | idle
  /-- At `lock().await`. -/
  | waiting (a : Attempt)
  /-- At the slot guard. -/
  | locked (a : Attempt)
  /-- At `submit_order`. -/
  | submitting (q : Request A)

/-- The call the follower is in, past its first checks. -/
def Follower.attempt? {A : Type} : Follower A → Option Attempt
  | .idle => none
  | .waiting a => some a
  | .locked a => some a
  | .submitting q => some q.attempt

/-- Where the event task is: the hash of its block and the events to come. -/
inductive EventTask where
  | idle
  | reading (hash : H256) (rest : List RelayEvent)
  /-- At `lock().await`. -/
  | waiting (hash : H256) (rest : List RelayEvent)
  | locked (hash : H256) (rest : List RelayEvent)

/-- The state of a node. -/
structure Node (A : Type) where
  record : OrderRecord
  lock : Option Party
  follower : Follower A
  eventTask : EventTask
  crashed : Bool

/-- A node that has just started. -/
def Node.start {A : Type} : Node A := ⟨.empty, none, .idle, .idle, false⟩

/-- How the next event of a block decodes. -/
inductive Reading where
  | decoded
  /-- `as_event` fails. -/
  | undecodable
  /-- The iterator yields an error. -/
  | broken
  deriving DecidableEq

/-- A step of one of the node's tasks, with what it reads. -/
inductive Action (A : Type) where
  | head (v : View A) (head : Head)
  | followerLock
  | decide (v : View A)
  | submit (rpc : RelayRpc)
  /-- A best block, and whether its events can be fetched. -/
  | block (hash : H256) (fetched : Bool)
  | event (reading : Reading)
  | eventLock
  | eventWrite
  | provide
  | provided

variable {A : Type}

/-! ### The follower -/

/-- The call returns and drops the lock. -/
def Node.returned (s : Node A) : Node A := { s with lock := none, follower := .idle }

/-- The call ends with an error, or the node with a panic. -/
def Node.failed (s : Node A) : Halt → Node A
  | .error _ => s.returned
  | .panic _ => { s with crashed := true }

/-- A head of `new_best_heads`. -/
def Node.onHead (S : Service A) (s : Node A) (v : View A) (head : Head) : Node A :=
  match s.follower with
  | .idle =>
      match untilLock S v head with
      | .error (.panic _) => { s with crashed := true }
      | .error (.error _) => s
      | .ok none => s
      | .ok (some a) => { s with follower := .waiting a }
  | _ => s

/-- The follower gets the lock. -/
def Node.onFollowerLock (s : Node A) : Node A :=
  match s.follower, s.lock with
  | .waiting a, none => { s with lock := some .follower, follower := .locked a }
  | _, _ => s

/-- The follower goes from the guard to `submit_order`. -/
def Node.onDecide (S : Service A) (s : Node A) (v : View A) : Node A :=
  match s.follower with
  | .locked a =>
      match underLock S v s.record a with
      | .error h => s.failed h
      | .ok none => s.returned
      | .ok (some q) => { s with follower := .submitting q }
  | _ => s

/-- The relay node answers the submission. -/
def Node.onSubmit (S : Service A) (s : Node A) (rpc : RelayRpc) : Node A × List (Submission A) :=
  match s.follower with
  | .submitting q =>
      match submit S rpc q with
      | .error h => (s.failed h, [])
      | .ok (record, o) => ({ s.returned with record := record }, [o])
  | _ => (s, [])

/-! ### The event task -/

/-- The event is an order for this para. -/
def isOrderFor (paraId : ParaId) : RelayEvent → Bool
  | .onDemandAssignmentProvider (.onDemandOrderPlaced id _ _) => id = paraId
  | _ => false

/-- A best block of the subscription.  The task reads its events, or ends and is
restarted when `block.events()` fails. -/
def Node.onBlock (chain : H256 → List RelayEvent) (s : Node A) (hash : H256) (fetched : Bool) :
    Node A :=
  match s.eventTask with
  | .idle => if fetched then { s with eventTask := .reading hash (chain hash) } else s
  | _ => s

/-- The event task looks at the next event. -/
def Node.onEvent (paraId : ParaId) (s : Node A) (reading : Reading) : Node A :=
  match s.eventTask with
  | .reading _ [] => { s with eventTask := .idle }
  | .reading hash (event :: rest) =>
      match reading with
      | .broken => { s with eventTask := .idle }
      | .undecodable => { s with eventTask := .reading hash rest }
      | .decoded =>
          if isOrderFor paraId event then { s with eventTask := .waiting hash rest }
          else { s with eventTask := .reading hash rest }
  | _ => s

/-- The event task gets the lock. -/
def Node.onEventLock (s : Node A) : Node A :=
  match s.eventTask, s.lock with
  | .waiting hash rest, none => { s with lock := some .eventTask, eventTask := .locked hash rest }
  | _, _ => s

/-- `record.relay_block_hash = Some(block.hash())`, and the lock is dropped. -/
def Node.onEventWrite (s : Node A) : Node A :=
  match s.eventTask with
  | .locked hash rest =>
      { s with
        record := { s.record with relayBlockHash := some hash }
        lock := none
        eventTask := .reading hash rest }
  | _ => s

/-! ### The machine -/

/-- A node of the network: the service it runs and the events of the relay
chain's blocks. -/
def node (S : Service A) (chain : H256 → List RelayEvent) :
    Transducer (Node A) (Action A) (Submission A) where
  step s act :=
    if s.crashed then (s, [])
    else
      match act with
      | .head v head => (s.onHead S v head, [])
      | .followerLock => (s.onFollowerLock, [])
      | .decide v => (s.onDecide S v, [])
      | .submit rpc => s.onSubmit S rpc
      | .block hash fetched => (s.onBlock chain hash fetched, [])
      | .event reading => (s.onEvent S.paraId reading, [])
      | .eventLock => (s.onEventLock, [])
      | .eventWrite => (s.onEventWrite, [])
      | .provide => (if s.lock = none then { s with lock := some .provider } else s, [])
      | .provided => (if s.lock = some .provider then { s with lock := none } else s, [])

/-- What an action can do to the record, the follower and the event task. -/
inductive NodeStep (S : Service A) (chain : H256 → List RelayEvent) (s : Node A) :
    Action A → Node A → List (Submission A) → Prop where
  /-- The record stays, each task stays or ends what it was doing. -/
  | quiet {act s'} (hrecord : s'.record = s.record)
      (hfollower : s'.follower = s.follower ∨ s'.follower = .idle)
      (hevent : s'.eventTask = s.eventTask ∨ s'.eventTask = .idle) : NodeStep S chain s act s' []
  | ready {v head a} (hidle : s.follower = .idle) (hready : Ready S v head a) :
      NodeStep S chain s (.head v head) { s with follower := .waiting a } []
  | followerLock {a} (hwaiting : s.follower = .waiting a) (hfree : s.lock = none) :
      NodeStep S chain s .followerLock { s with lock := some .follower, follower := .locked a } []
  | elected {v a q} (hlocked : s.follower = .locked a) (helected : Elected S v s.record a q) :
      NodeStep S chain s (.decide v) { s with follower := .submitting q } []
  | submitted {rpc q record o} (hsubmitting : s.follower = .submitting q)
      (hsubmit : submit S rpc q = .ok (record, o)) :
      NodeStep S chain s (.submit rpc) { s.returned with record := record } [o]
  | block {hash} (hidle : s.eventTask = .idle) :
      NodeStep S chain s (.block hash true) { s with eventTask := .reading hash (chain hash) } []
  | skipped {reading hash event rest} (hreading : s.eventTask = .reading hash (event :: rest)) :
      NodeStep S chain s (.event reading) { s with eventTask := .reading hash rest } []
  | found {hash event rest} (hreading : s.eventTask = .reading hash (event :: rest))
      (horder : isOrderFor S.paraId event = true) :
      NodeStep S chain s (.event .decoded) { s with eventTask := .waiting hash rest } []
  | eventLock {hash rest} (hwaiting : s.eventTask = .waiting hash rest) (hfree : s.lock = none) :
      NodeStep S chain s .eventLock
        { s with lock := some .eventTask, eventTask := .locked hash rest } []
  | written {hash rest} (hlocked : s.eventTask = .locked hash rest) :
      NodeStep S chain s .eventWrite
        { s with
          record := { s.record with relayBlockHash := some hash }
          lock := none
          eventTask := .reading hash rest } []

/-- A failed call leaves the record and the event task alone. -/
theorem Node.failed_quiet {S : Service A} {chain : H256 → List RelayEvent} {s : Node A}
    {act : Action A} (h : Halt) : NodeStep S chain s act (s.failed h) [] := by
  cases h with
  | error e => exact .quiet rfl (Or.inr rfl) (Or.inl rfl)
  | panic reason => exact .quiet rfl (Or.inl rfl) (Or.inl rfl)

/-- **One step of a node.** -/
theorem node_step (S : Service A) (chain : H256 → List RelayEvent) (s : Node A) (act : Action A) :
    NodeStep S chain s act ((node S chain).next s act) ((node S chain).emit s act) := by
  have hstay : NodeStep S chain s act s [] := .quiet rfl (Or.inl rfl) (Or.inl rfl)
  unfold Transducer.next Transducer.emit node
  by_cases hcrashed : s.crashed
  · simp only [hcrashed, if_true]
    exact hstay
  simp only [hcrashed, Bool.false_eq_true, if_false]
  cases act with
  | head v head =>
      simp only [Node.onHead]
      split
      · rename_i hidle
        split
        · exact .quiet rfl (Or.inl rfl) (Or.inl rfl)
        · exact hstay
        · exact hstay
        · rename_i a ha
          exact .ready hidle (untilLock_eq_some.mp ha)
      · exact hstay
  | followerLock =>
      simp only [Node.onFollowerLock]
      split
      · rename_i a hwaiting hfree
        exact .followerLock hwaiting hfree
      · exact hstay
  | decide v =>
      simp only [Node.onDecide]
      split
      · rename_i a hlocked
        split
        · exact Node.failed_quiet _
        · exact .quiet rfl (Or.inr rfl) (Or.inl rfl)
        · rename_i q hq
          exact .elected hlocked (underLock_eq_some.mp hq)
      · exact hstay
  | submit rpc =>
      simp only [Node.onSubmit]
      split
      · rename_i q hsubmitting
        split
        · exact Node.failed_quiet _
        · rename_i record o hsubmit
          exact .submitted hsubmitting hsubmit
      · exact hstay
  | block hash fetched =>
      simp only [Node.onBlock]
      split
      · rename_i hidle
        cases fetched with
        | false => exact hstay
        | true => exact .block hidle
      · exact hstay
  | event reading =>
      simp only [Node.onEvent]
      split
      · exact .quiet rfl (Or.inl rfl) (Or.inr rfl)
      · rename_i hash event rest hreading
        cases reading with
        | broken => exact .quiet rfl (Or.inl rfl) (Or.inr rfl)
        | undecodable => exact .skipped hreading
        | decoded =>
            by_cases horder : isOrderFor S.paraId event
            · simp only [horder, if_true]
              exact .found hreading horder
            · simp only [horder, Bool.false_eq_true, if_false]
              exact .skipped hreading
      · exact hstay
  | eventLock =>
      simp only [Node.onEventLock]
      split
      · rename_i hash rest hwaiting hfree
        exact .eventLock hwaiting hfree
      · exact hstay
  | eventWrite =>
      simp only [Node.onEventWrite]
      split
      · rename_i hash rest hlocked
        exact .written hlocked
      · exact hstay
  | provide =>
      refine .quiet ?_ (Or.inl ?_) (Or.inl ?_) <;>
        · simp only
          split_ifs <;> rfl
  | provided =>
      refine .quiet ?_ (Or.inl ?_) (Or.inl ?_) <;>
        · simp only
          split_ifs <;> rfl

/-! ### One call -/

/-- The steps of a call of the follower that nothing interrupts. -/
def Action.call (v : View A) (head : Head) (rpc : RelayRpc) : List (Action A) :=
  [.head v head, .followerLock, .decide v, .submit rpc]

/-- **An uninterrupted call is `handle_relaychain_stream`.**  From a running
node whose follower is idle and whose lock is free, the steps of one call give
the record and the order of the function, change nothing when it returns an
error, and end the node when it panics. -/
theorem node_call (S : Service A) (chain : H256 → List RelayEvent) {s : Node A}
    (hup : s.crashed = false) (hidle : s.follower = .idle) (hfree : s.lock = none) (v : View A)
    (head : Head) (rpc : RelayRpc) :
    match handleRelaychainStream S v rpc head s.record with
    | .ok (record, o) =>
        (node S chain).run s (Action.call v head rpc) = { s with record := record } ∧
          (node S chain).outputs s (Action.call v head rpc) = o.toList
    | .error (.error _) =>
        (node S chain).run s (Action.call v head rpc) = s ∧
          (node S chain).outputs s (Action.call v head rpc) = []
    | .error (.panic _) =>
        ((node S chain).run s (Action.call v head rpc)).crashed = true ∧
          (node S chain).outputs s (Action.call v head rpc) = [] := by
  obtain ⟨record, lock, follower, eventTask, crashed⟩ := s
  obtain rfl : crashed = false := hup
  obtain rfl : follower = .idle := hidle
  obtain rfl : lock = none := hfree
  unfold handleRelaychainStream
  rcases huntil : untilLock S v head with (e | p) | (_ | a)
  case ok.some =>
    rcases hunder : underLock S v record a with (e | p) | (_ | q)
    case ok.some =>
      rcases hsubmit : submit S rpc q with (e | p) | ⟨record', o⟩
      all_goals
        simp [Action.call, Transducer.next, Transducer.emit, node, Node.onHead, Node.onFollowerLock,
          Node.onDecide, Node.onSubmit, Node.failed, Node.returned, huntil, hunder, hsubmit]
    all_goals
      simp [Action.call, Transducer.next, Transducer.emit, node, Node.onHead, Node.onFollowerLock,
        Node.onDecide, Node.onSubmit, Node.failed, Node.returned, huntil, hunder]
  all_goals
    simp [Action.call, Transducer.next, Transducer.emit, node, Node.onHead, Node.onFollowerLock,
      Node.onDecide, Node.onSubmit, huntil]

/-! ### The slots a node submits for -/

/-- The widths and authority lists an action reads have `W` and `L`. -/
def Action.Reads (W : UInt32 → Prop) (L : List A → Prop) : Action A → Prop
  | .head v _ => ∀ hash w, v.api.slotWidth hash = .ok w → W w
  | .decide v => ∀ hash authorities, v.api.authorities hash = .ok authorities → L authorities
  | _ => True

/-- The call runs for the slot of its head, at a width with `W`. -/
def Attempt.InSlot (S : Service A) (W : UInt32 → Prop) (a : Attempt) : Prop :=
  OnDemand.currentSlot S.checks a.head.height a.slotWidth = .ok a.currentSlot ∧ W a.slotWidth

/-- The placer is elected from a list with `L`, and its key is the node's. -/
def Request.Chosen (S : Service A) (L : List A → Prop) (q : Request A) : Prop :=
  S.keystore.hasKeys [(S.toRawVec q.orderPlacer, aura)] = true ∧ ∃ authorities, L authorities ∧
    OnDemand.orderPlacer S.checks authorities q.attempt.head.height q.attempt.slotWidth =
      .ok q.orderPlacer

/-- What a follower in a call has established. -/
structure FollowerInv (S : Service A) (W : UInt32 → Prop) (L : List A → Prop) (s : Node A) :
    Prop where
  inSlot : ∀ a, s.follower.attempt? = some a → a.InSlot S W
  chosen : ∀ q, s.follower = .submitting q →
    s.record.lastSlot < q.attempt.currentSlot ∧ q.Chosen S L

/-- A node that has just started is in no call. -/
theorem FollowerInv.start (S : Service A) (W : UInt32 → Prop) (L : List A → Prop) :
    FollowerInv S W L Node.start := by
  constructor
  · intro a ha
    cases ha
  · intro q hq
    cases hq

section Ratchet

variable {S : Service A} {chain : H256 → List RelayEvent} {W : UInt32 → Prop} {L : List A → Prop}

/-- The invariant is about the follower and `last_slot` only. -/
theorem FollowerInv.of_eq {s s' : Node A} (h : FollowerInv S W L s)
    (hlast : s'.record.lastSlot = s.record.lastSlot)
    (hfollower : s'.follower = s.follower ∨ s'.follower = .idle) : FollowerInv S W L s' := by
  rcases hfollower with hf | hf
  · refine ⟨fun a ha => h.inSlot a (hf ▸ ha), fun q hq => ?_⟩
    rw [hlast]
    exact h.chosen q (hf ▸ hq)
  · refine ⟨fun a ha => ?_, fun q hq => ?_⟩
    · rw [hf] at ha
      cases ha
    · rw [hf] at hq
      cases hq

/-- **Every action keeps it.** -/
theorem FollowerInv.step {s s' : Node A} {act : Action A} {os : List (Submission A)}
    (hact : act.Reads W L) (hs : FollowerInv S W L s) (hstep : NodeStep S chain s act s' os) :
    FollowerInv S W L s' := by
  cases hstep with
  | quiet hrecord hfollower => exact hs.of_eq (by rw [hrecord]) hfollower
  | ready hidle hready =>
      refine ⟨fun a ha => ?_, fun q hq => ?_⟩
      · obtain rfl := Option.some.inj ha
        refine ⟨?_, hact _ _ hready.slotWidth⟩
        rw [hready.sameHead]
        exact hready.inRange
      · cases hq
  | followerLock hwaiting =>
      refine ⟨fun a ha => ?_, fun q hq => ?_⟩
      · exact hs.inSlot a (by rw [hwaiting]; exact ha)
      · cases hq
  | elected hlocked helected =>
      have hsame := helected.sameAttempt
      refine ⟨fun a ha => ?_, fun q hq => ?_⟩
      · refine hs.inSlot a ?_
        rw [hlocked]
        exact hsame ▸ ha
      · obtain rfl := Follower.submitting.inj hq
        obtain ⟨authorities, hauth, hplacer⟩ := helected.placer
        rw [← hsame] at hplacer
        refine ⟨?_, helected.hasKeys, authorities, hact _ _ hauth, hplacer⟩
        rw [hsame]
        exact helected.fresh
  | submitted =>
      refine ⟨fun a ha => ?_, fun q hq => ?_⟩
      · cases ha
      · cases hq
  | block => exact hs.of_eq rfl (Or.inl rfl)
  | skipped => exact hs.of_eq rfl (Or.inl rfl)
  | found => exact hs.of_eq rfl (Or.inl rfl)
  | eventLock => exact hs.of_eq rfl (Or.inl rfl)
  | written => exact hs.of_eq rfl (Or.inl rfl)

/-- **What a submission says**: it is for the slot of its head, by an elected
placer whose key the node holds. -/
theorem NodeStep.submission {s s' : Node A} {act : Action A} {os : List (Submission A)}
    {o : Submission A} (hs : FollowerInv S W L s) (hstep : NodeStep S chain s act s' os)
    (ho : o ∈ os) : o.request.attempt.InSlot S W ∧ o.request.Chosen S L := by
  cases hstep with
  | submitted hsubmitting hsubmit =>
      obtain rfl := List.mem_singleton.mp ho
      obtain ⟨rfl, -⟩ := submit_eq_ok hsubmit
      exact ⟨hs.inSlot _ (by rw [hsubmitting]; rfl), (hs.chosen _ hsubmitting).2⟩
  | _ => cases ho

/-- **`last_slot` is a ratchet over the slots submitted for**, whatever is read
and whatever the other tasks do in between. -/
theorem node_ratchet (S : Service A) (chain : H256 → List RelayEvent) (W : UInt32 → Prop)
    (L : List A → Prop) :
    (node S chain).Ratchet (Action.Reads W L) (FollowerInv S W L) (fun s => s.record.lastSlot.toNat)
      Submission.slot where
  keeps s act hact hs := hs.step hact (node_step S chain s act)
  step s act hact hs := by
    have hstep := node_step S chain s act
    generalize (node S chain).next s act = s' at hstep ⊢
    generalize (node S chain).emit s act = os at hstep ⊢
    cases hstep with
    | submitted hsubmitting hsubmit =>
        obtain ⟨rfl, -, -, hslot⟩ := submit_eq_ok hsubmit
        have hin := (hs.inSlot _ (by rw [hsubmitting]; rfl)).1
        rw [hslot] at hin
        refine Or.inr ⟨_, rfl, UInt32.lt_iff_toNat_lt.mp (hs.chosen _ hsubmitting).1, ?_⟩
        exact congrArg UInt32.toNat (Except.ok.inj hin)
    | quiet hrecord => exact Or.inl ⟨rfl, by rw [hrecord]⟩
    | _ => exact Or.inl ⟨rfl, rfl⟩

/-- Every order of a run is for the slot of its head, by an elected placer
whose key the node holds. -/
theorem mem_submissions {s : Node A} {acts : List (Action A)} (hs : FollowerInv S W L s)
    (hacts : ∀ act ∈ acts, act.Reads W L) : ∀ o ∈ (node S chain).outputs s acts,
      o.request.attempt.InSlot S W ∧ o.request.Chosen S L := by
  refine (node S chain).forall_mem_outputs (FollowerInv S W L) hs ?_ ?_
  · intro act hact t ht
    exact ht.step (hacts act hact) (node_step S chain t act)
  · intro act _ t ht o ho
    exact (node_step S chain t act).submission ht ho

end Ratchet

end OnDemand
