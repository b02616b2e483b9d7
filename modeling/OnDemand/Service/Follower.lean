/-
# One call of `handle_relaychain_stream`

`services/order/src/lib.rs`, the order placement logic, cut at the points where
another task can run in between: up to the lock on the order record
(`untilLock`), with the lock held up to the submission (`underLock`), and the
submission with the writes that follow it (`submit`).  Each part takes its own
`View` of the relay chain and the parachain, since reads made at different
times may see different things; `handleRelaychainStream` is the three in a row
on one view, which is what a call does when nothing runs in between.

`Ready`, `Elected` and `submit_eq_ok` say what each part has established when
the call goes on.  Everything about a node's orders is derived from these.

The availability check is the source's: the call goes on when
`on_demand_cores_available` returns `false`.
-/

import OnDemand.Service.Chain

namespace OnDemand

open Word

/-- The parachain's runtime APIs, at a block of the parachain. -/
structure ParachainApi (A : Type) where
  bulkMode : H256 → Except Unit Bool
  slotWidth : H256 → Except Unit UInt32
  authorities : H256 → Except Unit (List A)

/-- The APIs of the parachain in a state (`template/runtime/src/apis.rs`). -/
def runtimeApi {T : Types} (s : State T) : ParachainApi T.AuthorityId where
  bulkMode _ := .ok (bulkModeApi s)
  slotWidth _ := .ok (slotWidthApi s)
  authorities _ := .ok (authoritiesApi s)

/-- What a call can read at one moment. -/
structure View (A : Type) where
  relayChain : RelayChainInterface
  api : ParachainApi A
  /-- `OrderPlacementCriteria::should_place_order`, on the pool of the moment. -/
  shouldPlaceOrder : UInt32 → Bool

/-- A best head of the relay chain, as `new_best_heads` yields it. -/
structure Head where
  height : UInt32
  /-- `validation_data.parent_head`. -/
  parentHead : List UInt8
  hash : H256
  deriving DecidableEq

/-- What stays the same from call to call. -/
structure Service (A : Type) where
  /-- Built with overflow checks. -/
  checks : Bool
  paraId : ParaId
  keystore : Keystore
  decoders : Decoders
  /-- `AuthorPub::to_raw_vec`. -/
  toRawVec : A → List UInt8

/-- A call that is past the checks before the lock. -/
structure Attempt where
  head : Head
  paraHead : H256
  slotWidth : UInt32
  currentSlot : UInt32
  deriving DecidableEq

/-- A call that is about to submit an order. -/
structure Request (A : Type) where
  attempt : Attempt
  orderPlacer : A
  spotPrice : U128

/-- A successful `submit_order`. -/
structure Submission (A : Type) where
  request : Request A
  order : SignedOrder

namespace Submission

variable {A : Type}

/-- The relay height the order was submitted at. -/
def height (o : Submission A) : UInt32 := o.request.attempt.head.height

/-- The hash of that relay block. -/
def hash (o : Submission A) : H256 := o.request.attempt.head.hash

/-- The slot width the order was submitted under. -/
def width (o : Submission A) : UInt32 := o.request.attempt.slotWidth

/-- The slot the order was submitted for. -/
def slot (o : Submission A) : ℕ := o.request.attempt.currentSlot.toNat

/-- The authority elected for it. -/
def placer (o : Submission A) : A := o.request.orderPlacer

end Submission

variable {A : Type}

/-- `handle_relaychain_stream` up to `lock().await`; `none` is an early
`Ok(())`. -/
def untilLock (S : Service A) (v : View A) (head : Head) : Except Halt (Option Attempt) :=
  match isParathread S.decoders v.relayChain head.hash S.paraId with
  | .error e => .error e
  | .ok false => .ok none
  | .ok true =>
    match S.decoders.paraHead head.parentHead with
    | none => .error (.error .codec)
    | some paraHead =>
      match v.api.bulkMode paraHead with
      | .error _ => .error (.error .api)
      | .ok true => .ok none
      | .ok false =>
        match onDemandCoresAvailable S.decoders v.relayChain head.hash with
        | none =>
            .error (.error (.text "Failed to check if there are on-demand cores available"))
        | some true => .ok none
        | some false =>
          match v.api.slotWidth paraHead with
          | .error _ => .error (.error .api)
          | .ok slotWidth =>
            match currentSlot S.checks head.height slotWidth with
            | .error e => .error e
            | .ok slot => .ok (some ⟨head, paraHead, slotWidth, slot⟩)

/-- `handle_relaychain_stream` from the slot guard to `submit_order`, with the
record locked. -/
def underLock (S : Service A) (v : View A) (record : OrderRecord) (a : Attempt) :
    Except Halt (Option (Request A)) :=
  if a.currentSlot ≤ record.lastSlot then .ok none
  else
    match v.api.authorities a.paraHead with
    | .error _ => .error (.error .api)
    | .ok authorities =>
      match orderPlacer S.checks authorities a.head.height a.slotWidth with
      | .error e => .error e
      | .ok orderPlacer =>
        if S.keystore.hasKeys [(S.toRawVec orderPlacer, aura)] = false then .ok none
        else if v.shouldPlaceOrder a.head.height = false then .ok none
        else
          match getSpotPrice S.decoders v.relayChain a.head.hash with
          | none => .error (.error (.text "Failed to get spot price"))
          | some spotPrice => .ok (some ⟨a, orderPlacer, spotPrice⟩)

/-- `submit_order` and the two writes to the record. -/
def submit (S : Service A) (rpc : RelayRpc) (q : Request A) :
    Except Halt (OrderRecord × Submission A) :=
  match submitOrder S.checks rpc S.paraId q.attempt.head.height q.attempt.slotWidth q.spotPrice
      S.keystore with
  | .error e => .error e
  | .ok order =>
    match currentSlot S.checks q.attempt.head.height q.attempt.slotWidth with
    | .error e => .error e
    | .ok slot => .ok (⟨some q.attempt.head.hash, slot⟩, ⟨q, order⟩)

/-- `handle_relaychain_stream`, with the record after it and the order it
submitted. -/
def handleRelaychainStream (S : Service A) (v : View A) (rpc : RelayRpc) (head : Head)
    (record : OrderRecord) : Except Halt (OrderRecord × Option (Submission A)) :=
  match untilLock S v head with
  | .error e => .error e
  | .ok none => .ok (record, none)
  | .ok (some a) =>
    match underLock S v record a with
    | .error e => .error e
    | .ok none => .ok (record, none)
    | .ok (some q) =>
      match submit S rpc q with
      | .error e => .error e
      | .ok (record', o) => .ok (record', some o)

/-! ### What each part establishes -/

/-- What holds when a call waits for the lock. -/
structure Ready (S : Service A) (v : View A) (head : Head) (a : Attempt) : Prop where
  sameHead : a.head = head
  parathread : isParathread S.decoders v.relayChain head.hash S.paraId = .ok true
  paraHead : S.decoders.paraHead head.parentHead = some a.paraHead
  bulkMode : v.api.bulkMode a.paraHead = .ok false
  unavailable : onDemandCoresAvailable S.decoders v.relayChain head.hash = some false
  slotWidth : v.api.slotWidth a.paraHead = .ok a.slotWidth
  inRange : currentSlot S.checks head.height a.slotWidth = .ok a.currentSlot

/-- **A call waits for the lock exactly when it is ready.** -/
theorem untilLock_eq_some {S : Service A} {v : View A} {head : Head} {a : Attempt} :
    untilLock S v head = .ok (some a) ↔ Ready S v head a := by
  constructor
  · intro h
    unfold untilLock at h
    split at h
    · cases h
    · cases h
    rename_i hpara
    split at h
    · cases h
    rename_i paraHead hhead
    split at h
    · cases h
    · cases h
    rename_i hbulk
    split at h
    · cases h
    · cases h
    rename_i hcores
    split at h
    · cases h
    rename_i slotWidth hwidth
    split at h
    · cases h
    rename_i slot hslot
    obtain rfl := Option.some.inj (Except.ok.inj h)
    exact ⟨rfl, hpara, hhead, hbulk, hcores, hwidth, hslot⟩
  · intro h
    obtain ⟨head', paraHead, slotWidth, slot⟩ := a
    obtain ⟨rfl, hpara, hhead, hbulk, hcores, hwidth, hslot⟩ := h
    simp only [untilLock, hpara, hhead, hbulk, hcores, hwidth, hslot]

/-- What holds when a call is about to submit an order. -/
structure Elected (S : Service A) (v : View A) (record : OrderRecord) (a : Attempt)
    (q : Request A) : Prop where
  sameAttempt : q.attempt = a
  fresh : record.lastSlot < a.currentSlot
  placer : ∃ authorities, v.api.authorities a.paraHead = .ok authorities ∧
    orderPlacer S.checks authorities a.head.height a.slotWidth = .ok q.orderPlacer
  hasKeys : S.keystore.hasKeys [(S.toRawVec q.orderPlacer, aura)] = true
  criterion : v.shouldPlaceOrder a.head.height = true
  spotPrice : getSpotPrice S.decoders v.relayChain a.head.hash = some q.spotPrice

/-- **A call goes on to submit exactly when its node is elected**, the slot is
past the recorded one and the criterion holds. -/
theorem underLock_eq_some {S : Service A} {v : View A} {record : OrderRecord} {a : Attempt}
    {q : Request A} : underLock S v record a = .ok (some q) ↔ Elected S v record a q := by
  constructor
  · intro h
    unfold underLock at h
    split at h
    · cases h
    rename_i hfresh
    split at h
    · cases h
    rename_i authorities hauth
    split at h
    · cases h
    rename_i placer hplacer
    split at h
    · cases h
    rename_i hkeys
    split at h
    · cases h
    rename_i hcrit
    split at h
    · cases h
    rename_i spotPrice hprice
    obtain rfl := Option.some.inj (Except.ok.inj h)
    exact ⟨rfl, UInt32.not_le.mp hfresh, ⟨authorities, hauth, hplacer⟩, by simpa using hkeys,
      by simpa using hcrit, hprice⟩
  · intro h
    obtain ⟨a', placer, spotPrice⟩ := q
    obtain ⟨rfl, hfresh, ⟨authorities, hauth, hplacer⟩, hkeys, hcrit, hprice⟩ := h
    have hfresh' : ¬a'.currentSlot ≤ record.lastSlot := UInt32.not_le.mpr hfresh
    simp only [underLock, if_neg hfresh', hauth, hplacer, hkeys, hcrit, hprice,
      Bool.true_eq_false, if_false]

/-- **What a submission writes**: the head's hash and its slot. -/
theorem submit_eq_ok {S : Service A} {rpc : RelayRpc} {q : Request A} {record : OrderRecord}
    {o : Submission A} (h : submit S rpc q = .ok (record, o)) : o.request = q ∧
      submitOrder S.checks rpc S.paraId q.attempt.head.height q.attempt.slotWidth q.spotPrice
        S.keystore = .ok o.order ∧
      record.relayBlockHash = some q.attempt.head.hash ∧
      currentSlot S.checks q.attempt.head.height q.attempt.slotWidth = .ok record.lastSlot := by
  unfold submit at h
  split at h
  · cases h
  rename_i order horder
  split at h
  · cases h
  rename_i slot hslot
  obtain ⟨rfl, rfl⟩ := Prod.mk.inj (Except.ok.inj h)
  exact ⟨rfl, horder, rfl, hslot⟩

/-- **A call that submits** was ready, was elected and handed the order over. -/
theorem handleRelaychainStream_submits {S : Service A} {v : View A} {rpc : RelayRpc} {head : Head}
    {record record' : OrderRecord} {o : Submission A}
    (h : handleRelaychainStream S v rpc head record = .ok (record', some o)) :
    Ready S v head o.request.attempt ∧ Elected S v record o.request.attempt o.request ∧
      submitOrder S.checks rpc S.paraId o.height o.width o.request.spotPrice S.keystore =
        .ok o.order := by
  unfold handleRelaychainStream at h
  split at h
  · cases h
  · cases h
  rename_i a ha
  split at h
  · cases h
  · cases h
  rename_i q hq
  split at h
  · cases h
  rename_i record'' o' ho
  obtain rfl := Option.some.inj (Prod.mk.inj (Except.ok.inj h)).2
  obtain ⟨rfl, horder, -⟩ := submit_eq_ok ho
  have helected := underLock_eq_some.mp hq
  obtain rfl := helected.sameAttempt
  exact ⟨untilLock_eq_some.mp ha, helected, horder⟩

/-- A call that is ready has read the width at the para head. -/
theorem Ready.reads {S : Service A} {v : View A} {head : Head} {a : Attempt} {paraHead : H256}
    {width : UInt32} (h : Ready S v head a)
    (hhead : S.decoders.paraHead head.parentHead = some paraHead)
    (hwidth : v.api.slotWidth paraHead = .ok width) : a.paraHead = paraHead ∧ a.slotWidth = width := by
  have hsame : a.paraHead = paraHead := Option.some.inj (h.paraHead.symm.trans hhead)
  refine ⟨hsame, ?_⟩
  have hread := h.slotWidth
  rw [hsame, hwidth] at hread
  exact (Except.ok.inj hread).symm

/-- **The placer of a call is the one `order_placer` elects from its reads.** -/
theorem Elected.elects {S : Service A} {v : View A} {head : Head} {record : OrderRecord} {a : Attempt}
    {q : Request A} {paraHead : H256} {authorities : List A} {width : UInt32}
    (h : Elected S v record a q) (hready : Ready S v head a)
    (hhead : S.decoders.paraHead head.parentHead = some paraHead)
    (hauth : v.api.authorities paraHead = .ok authorities)
    (hwidth : v.api.slotWidth paraHead = .ok width) :
    orderPlacer S.checks authorities head.height width = .ok q.orderPlacer := by
  obtain ⟨hsame, hw⟩ := hready.reads hhead hwidth
  obtain ⟨authorities', hauth', hplacer⟩ := h.placer
  rw [hsame, hauth] at hauth'
  obtain rfl := Except.ok.inj hauth'
  rw [hready.sameHead, hw] at hplacer
  exact hplacer

end OnDemand
