/-
# When an order is placed

`handle_relaychain_stream` (`services/order/src/lib.rs`) asks the relay chain
whether cores are allocated to on-demand and goes on to place an order only
after six more conditions.  Both halves are about the same answer.

`on_demand_cores_available` (`services/order/src/chain.rs`) looks for a core in
the pool, but returns at the first core that has any work (`scanCores_stop`):
`scanCores_eq` is the loop, and `onDemandCoresAvailable_iff` says when the answer is the one its
name promises, namely when no core is in the pool or the first core with work
is.

`submitCall_isSome_iff` is the exact gate of the call when every read succeeds
(`AllReads`).  The check on the answer has the wrong sign, the call stops where
cores are available and logs that none are: `gating_iff` says that the gate is
the intended one only where one of the other conditions stops the call anyway.
-/

import OnDemand.Service.Network

namespace OnDemand

open Word

/-! ### Cores in the pool -/

/-- What a core is working on. -/
def workOf (cores : UInt32 → Option CoreDescriptor) (core : UInt32) : Option WorkState :=
  (cores core).bind CoreDescriptor.currentWork

/-- The core has current work, and an assignment of it is the pool. -/
def HasPool (cores : UInt32 → Option CoreDescriptor) (core : UInt32) : Prop :=
  ∃ work, workOf cores core = some work ∧ .pool ∈ work.assignments

section Scan

variable {read : UInt32 → Option (Option CoreDescriptor)} {cores : UInt32 → Option CoreDescriptor}
  {core : UInt32} {rest : List UInt32}

/-- The loop goes past a core without work. -/
theorem scanCores_skip (hread : read core = some (cores core)) (hwork : workOf cores core = none) :
    scanCores read (core :: rest) = scanCores read rest := by
  cases hd : cores core with
  | none => simp only [scanCores, hread, hd]
  | some descriptor =>
      have hcur : descriptor.currentWork = none := by
        simpa [workOf, hd] using hwork
      simp only [scanCores, hread, hd, hcur]

/-- The loop ends at a core with work. -/
theorem scanCores_stop (hread : read core = some (cores core)) {work : WorkState}
    (hwork : workOf cores core = some work) :
    scanCores read (core :: rest) = some (decide (.pool ∈ work.assignments)) := by
  obtain ⟨descriptor, hd, hcur⟩ := Option.bind_eq_some_iff.mp hwork
  have hany : (work.assignments.any fun a => decide (a = .pool)) =
      decide (.pool ∈ work.assignments) := by
    rw [Bool.eq_iff_iff, List.any_eq_true, decide_eq_true_iff]
    simp
  simp only [scanCores, hread, hd, hcur, hany]

/-- **The loop answers for the first core with work.**  Over an ascending list
of readable cores it returns, and returns `true` exactly when a core of the list
is in the pool and no core before it has any work. -/
theorem scanCores_eq {list : List UInt32} (hsorted : list.Pairwise (· < ·))
    (hread : ∀ core ∈ list, read core = some (cores core)) :
    ∃ b, scanCores read list = some b ∧ (b = true ↔ ∃ core ∈ list, HasPool cores core ∧
      ∀ c ∈ list, c < core → workOf cores c = none) := by
  induction list with
  | nil => exact ⟨false, rfl, by simp⟩
  | cons core rest ih =>
      obtain ⟨hfirst, hsorted⟩ := List.pairwise_cons.mp hsorted
      have hcore := hread core (List.mem_cons_self ..)
      cases hwork : workOf cores core with
      | none =>
          obtain ⟨b, hb, hiff⟩ := ih hsorted fun c hc => hread c (List.mem_cons_of_mem _ hc)
          refine ⟨b, (scanCores_skip hcore hwork).trans hb, hiff.trans ⟨?_, ?_⟩⟩
          · rintro ⟨c, hc, hpool, hbefore⟩
            refine ⟨c, List.mem_cons_of_mem _ hc, hpool, fun c' hc' hlt => ?_⟩
            rcases List.mem_cons.mp hc' with rfl | hc'
            · exact hwork
            · exact hbefore c' hc' hlt
          · rintro ⟨c, hc, hpool, hbefore⟩
            rcases List.mem_cons.mp hc with rfl | hc
            · obtain ⟨work, hw, -⟩ := hpool
              rw [hwork] at hw
              cases hw
            · exact ⟨c, hc, hpool, fun c' hc' => hbefore c' (List.mem_cons_of_mem _ hc')⟩
      | some work =>
          refine ⟨_, scanCores_stop hcore hwork, ?_⟩
          rw [decide_eq_true_iff]
          constructor
          · intro hpool
            refine ⟨core, List.mem_cons_self .., ⟨work, hwork, hpool⟩, fun c hc hlt => ?_⟩
            rcases List.mem_cons.mp hc with rfl | hc
            · exact absurd hlt (UInt32.lt_irrefl _)
            · exact absurd hlt (UInt32.lt_asymm (hfirst c hc))
          · rintro ⟨c, hc, ⟨work', hw', hpool⟩, hbefore⟩
            rcases List.mem_cons.mp hc with rfl | hc
            · obtain rfl := Option.some.inj (hwork.symm.trans hw')
              exact hpool
            · have hnone := hbefore core (List.mem_cons_self ..) (hfirst c hc)
              rw [hwork] at hnone
              cases hnone

end Scan

/-- The cores of a configuration, in the order of the loop. -/
theorem mem_coreIndices {n core : UInt32} :
    core ∈ (List.range n.toNat).map UInt32.ofNat ↔ core < n := by
  simp only [List.mem_map, List.mem_range]
  constructor
  · rintro ⟨i, hi, rfl⟩
    have hn := n.toNat_lt
    rw [UInt32.lt_iff_toNat_lt, UInt32.toNat_ofNat', Nat.mod_eq_of_lt (by omega)]
    exact hi
  · intro h
    exact ⟨core.toNat, UInt32.lt_iff_toNat_lt.mp h, UInt32.ofNat_toNat⟩

theorem pairwise_coreIndices (n : UInt32) :
    ((List.range n.toNat).map UInt32.ofNat).Pairwise (· < ·) := by
  rw [List.pairwise_map]
  refine List.pairwise_lt_range.imp_of_mem fun {i j} hi hj hij => ?_
  have hn := n.toNat_lt
  have hi := List.mem_range.mp hi
  have hj := List.mem_range.mp hj
  rw [UInt32.lt_iff_toNat_lt, UInt32.toNat_ofNat', UInt32.toNat_ofNat', Nat.mod_eq_of_lt (by omega),
    Nat.mod_eq_of_lt (by omega)]
  exact hij

section Available

variable {D : Decoders} {rc : RelayChainInterface} {hash : H256} {config : HostConfiguration}
  {cores : UInt32 → Option CoreDescriptor}

/-- What `on_demand_cores_available` returns: whether the first core with work
is in the pool. -/
theorem onDemandCoresAvailable_eq
    (hconfig : readStorage rc hash activeConfig D.hostConfiguration = some (some config))
    (hcores : ∀ core, core < config.numCores →
      readStorage rc hash (coreDescriptor D.hashing core) D.coreDescriptor = some (cores core)) :
    ∃ b, onDemandCoresAvailable D rc hash = some b ∧ (b = true ↔ ∃ core, core < config.numCores ∧
      HasPool cores core ∧ ∀ c, c < core → workOf cores c = none) := by
  obtain ⟨b, hb, hiff⟩ := scanCores_eq (pairwise_coreIndices config.numCores)
    fun core hcore => hcores core (mem_coreIndices.mp hcore)
  refine ⟨b, ?_, hiff.trans ⟨?_, ?_⟩⟩
  · simp only [onDemandCoresAvailable, hconfig]
    exact hb
  · rintro ⟨core, hcore, hpool, hbefore⟩
    have hlt := mem_coreIndices.mp hcore
    exact ⟨core, hlt, hpool, fun c hc => hbefore c (mem_coreIndices.mpr (UInt32.lt_trans hc hlt)) hc⟩
  · rintro ⟨core, hlt, hpool, hbefore⟩
    exact ⟨core, mem_coreIndices.mpr hlt, hpool, fun c _ hc => hbefore c hc⟩

/-- **When the cores are reported rightly.**  With a readable configuration and
readable descriptors, `on_demand_cores_available` says `true` where some core is
in the pool and `false` otherwise, if and only if no core is in the pool or one
of them comes before every other core with work. -/
theorem onDemandCoresAvailable_iff
    (hconfig : readStorage rc hash activeConfig D.hostConfiguration = some (some config))
    (hcores : ∀ core, core < config.numCores →
      readStorage rc hash (coreDescriptor D.hashing core) D.coreDescriptor = some (cores core)) :
    (((∃ core, core < config.numCores ∧ HasPool cores core) →
        onDemandCoresAvailable D rc hash = some true) ∧
      ((¬∃ core, core < config.numCores ∧ HasPool cores core) →
        onDemandCoresAvailable D rc hash = some false)) ↔
    ((∀ core, core < config.numCores → ¬HasPool cores core) ∨
      ∃ core, core < config.numCores ∧ HasPool cores core ∧
        ∀ c, c < core → workOf cores c = none) := by
  obtain ⟨b, hb, hiff⟩ := onDemandCoresAvailable_eq hconfig hcores
  rw [hb]
  constructor
  · rintro ⟨htrue, -⟩
    by_cases hpool : ∃ core, core < config.numCores ∧ HasPool cores core
    · exact Or.inr (hiff.mp (Option.some.inj (htrue hpool)))
    · exact Or.inl fun core hcore h => hpool ⟨core, hcore, h⟩
  · rintro (hnone | hfirst)
    · have hfalse : b = false := by
        rw [← Bool.not_eq_true]
        intro h
        obtain ⟨core, hcore, hpool, -⟩ := hiff.mp h
        exact hnone core hcore hpool
      refine ⟨fun ⟨core, hcore, hpool⟩ => absurd hpool (hnone core hcore), fun _ => ?_⟩
      rw [hfalse]
    · refine ⟨fun _ => by rw [hiff.mpr hfirst], fun hno => ?_⟩
      obtain ⟨core, hcore, hpool, -⟩ := hfirst
      exact absurd ⟨core, hcore, hpool⟩ hno

end Available

/-- Hash functions that tell the cores apart. -/
def coreHashing : Hashing :=
  { plainHashing with
    twox_256 := fun raw => List.replicate 32 (raw.headD 0)
    length_twox_256 := fun _ => List.length_replicate }

/-- Decoders of the plain relay chain, with a core in the pool and one that
works for para 3000. -/
def coreDecoders : Decoders :=
  { plainDecoders with
    hashing := coreHashing
    coreDescriptor := fun raw =>
      if raw = [4] then some ⟨some ⟨[.pool]⟩⟩
      else if raw = [5] then some ⟨some ⟨[.task 3000]⟩⟩
      else none }

/-- The plain relay chain with two cores of the given descriptors. -/
def coreRelayChain (first second : UInt8) : RelayChainInterface where
  header _ := .error .failed
  proveRead _ _ := .error .failed
  getStorageByKey _ key :=
    if key = coreDescriptor coreHashing 0 then .ok (some [first])
    else if key = coreDescriptor coreHashing 1 then .ok (some [second])
    else .ok (plainStorage key)

/-- Those descriptors. -/
def twoCores (first second : UInt8) (core : UInt32) : Option CoreDescriptor :=
  coreDecoders.coreDescriptor [if core = 0 then first else second]

theorem eq_zero_or_one_of_lt_two {core : UInt32} (h : core < 2) : core = 0 ∨ core = 1 := by
  have hlt : core.toNat < 2 := UInt32.lt_iff_toNat_lt.mp h
  rcases Nat.lt_succ_iff_lt_or_eq.mp hlt with h | h
  · exact Or.inl (UInt32.toNat_inj.mp (Nat.lt_one_iff.mp h))
  · exact Or.inr (UInt32.toNat_inj.mp h)

theorem readStorage_twoCores : ∀ core, core < 2 →
    readStorage (coreRelayChain 4 5) (.replicate 0) (coreDescriptor coreDecoders.hashing core)
      coreDecoders.coreDescriptor = some (twoCores 4 5 core) ∧
    readStorage (coreRelayChain 5 4) (.replicate 0) (coreDescriptor coreDecoders.hashing core)
      coreDecoders.coreDescriptor = some (twoCores 5 4 core) := by
  intro core hcore
  rcases eq_zero_or_one_of_lt_two hcore with rfl | rfl
  · exact ⟨by decide, by decide⟩
  · exact ⟨by decide, by decide⟩

/-- The pool core comes first and is found. -/
theorem onDemandCoresAvailable_pool_first :
    onDemandCoresAvailable coreDecoders (coreRelayChain 4 5) (.replicate 0) = some true := by
  have hconfig : readStorage (coreRelayChain 4 5) (.replicate 0) activeConfig
      coreDecoders.hostConfiguration = some (some ⟨2, 1000⟩) := by decide
  have hpool : HasPool (twoCores 4 5) 0 := ⟨_, rfl, by decide⟩
  refine ((onDemandCoresAvailable_iff hconfig fun core hcore => (readStorage_twoCores core hcore).1).mpr
    (Or.inr ⟨0, by decide, hpool, ?_⟩)).1 ⟨0, by decide, hpool⟩
  intro c hc
  exact absurd hc UInt32.not_lt_zero

/-- **A busy core hides the pool.**  Core 0 works for para 3000 and core 1 is in
the pool: the loop returns at core 0. -/
theorem pool_hidden_by_busy_core :
    onDemandCoresAvailable coreDecoders (coreRelayChain 5 4) (.replicate 0) = some false ∧
    readStorage (coreRelayChain 5 4) (.replicate 0) activeConfig coreDecoders.hostConfiguration =
      some (some ⟨2, 1000⟩) ∧
    (∀ core, core < 2 → readStorage (coreRelayChain 5 4) (.replicate 0)
      (coreDescriptor coreDecoders.hashing core) coreDecoders.coreDescriptor =
        some (twoCores 5 4 core)) ∧
    HasPool (twoCores 5 4) 1 := by
  refine ⟨by decide, by decide, ?_, ⟨_, rfl, by decide⟩⟩
  exact fun core hcore => (readStorage_twoCores core hcore).2

/-! ### The gate -/

section Gate

variable {A : Type} {S : Service A} {v : View A} {head : Head} {record : OrderRecord}

/-- The call of `submit_order` that `handle_relaychain_stream` makes, if any. -/
def submitCall (S : Service A) (v : View A) (head : Head) (record : OrderRecord) :
    Option (Request A) :=
  match untilLock S v head with
  | .ok (some a) =>
      match underLock S v record a with
      | .ok (some q) => some q
      | _ => none
  | _ => none

theorem submitCall_eq_some {q : Request A} : submitCall S v head record = some q ↔
    ∃ a, untilLock S v head = .ok (some a) ∧ underLock S v record a = .ok (some q) := by
  unfold submitCall
  constructor
  · intro h
    split at h
    · rename_i a ha
      split at h
      · rename_i q' hq
        obtain rfl := Option.some.inj h
        exact ⟨a, ha, hq⟩
      · cases h
    · cases h
  · rintro ⟨a, ha, hq⟩
    simp only [ha, hq]

/-- **With that call the function ends as the submission does; without it the
relay node is never asked.** -/
theorem handleRelaychainStream_submitCall :
    match submitCall S v head record with
    | some q => ∀ rpc, handleRelaychainStream S v rpc head record =
        (submit S rpc q).map fun p => (p.1, some p.2)
    | none => ∃ r, (∀ rpc, handleRelaychainStream S v rpc head record = r) ∧
        ∀ record' o, r ≠ .ok (record', some o) := by
  unfold submitCall handleRelaychainStream
  rcases untilLock S v head with e | (_ | a)
  · exact ⟨_, fun _ => rfl, fun _ _ h => nomatch h⟩
  · exact ⟨_, fun _ => rfl, fun _ _ h => nomatch h⟩
  · simp only
    rcases underLock S v record a with e | (_ | q)
    · exact ⟨_, fun _ => rfl, fun _ _ h => nomatch h⟩
    · exact ⟨_, fun _ => rfl, fun _ _ h => nomatch h⟩
    · intro rpc
      simp only
      cases submit S rpc q with
      | error e => rfl
      | ok p => rfl

/-- Every read of a call at a head succeeds, with these values. -/
structure AllReads (S : Service A) (v : View A) (head : Head) where
  parathread : Bool
  paraHead : H256
  bulkMode : Bool
  available : Bool
  slotWidth : UInt32
  authorities : List A
  spotPrice : U128
  read_parathread : isParathread S.decoders v.relayChain head.hash S.paraId = .ok parathread
  read_paraHead : S.decoders.paraHead head.parentHead = some paraHead
  read_bulkMode : v.api.bulkMode paraHead = .ok bulkMode
  read_available : onDemandCoresAvailable S.decoders v.relayChain head.hash = some available
  read_slotWidth : v.api.slotWidth paraHead = .ok slotWidth
  read_authorities : v.api.authorities paraHead = .ok authorities
  read_spotPrice : getSpotPrice S.decoders v.relayChain head.hash = some spotPrice

/-- The conditions of an order besides the cores: a parathread out of bulk
mode, a slot past the recorded one, the elected placer's key in the keystore,
and the criterion. -/
structure OrderWanted (record : OrderRecord) (r : AllReads S v head) : Prop where
  parathread : r.parathread = true
  onDemand : r.bulkMode = false
  fresh : ∃ slot, currentSlot S.checks head.height r.slotWidth = .ok slot ∧ record.lastSlot < slot
  elected : ∃ placer, orderPlacer S.checks r.authorities head.height r.slotWidth = .ok placer ∧
    S.keystore.hasKeys [(S.toRawVec placer, aura)] = true
  criterion : v.shouldPlaceOrder head.height = true

/-- **The gate of the code**: an order is wanted, and no cores are available. -/
theorem submitCall_isSome_iff (r : AllReads S v head) :
    (submitCall S v head record).isSome = true ↔ OrderWanted record r ∧ r.available = false := by
  rw [Option.isSome_iff_exists]
  constructor
  · rintro ⟨q, hq⟩
    obtain ⟨a, ha, hq⟩ := submitCall_eq_some.mp hq
    have hready := untilLock_eq_some.mp ha
    have helected := underLock_eq_some.mp hq
    obtain ⟨hparaHead, hwidth⟩ := hready.reads r.read_paraHead r.read_slotWidth
    have hslot := hready.inRange
    rw [hwidth] at hslot
    have hplacer := helected.elects hready r.read_paraHead r.read_authorities r.read_slotWidth
    refine ⟨⟨?_, ?_, ⟨_, hslot, helected.fresh⟩, ⟨_, hplacer, helected.hasKeys⟩, ?_⟩, ?_⟩
    · exact Except.ok.inj (r.read_parathread.symm.trans hready.parathread)
    · exact Except.ok.inj ((hparaHead ▸ r.read_bulkMode).symm.trans hready.bulkMode)
    · exact hready.sameHead ▸ helected.criterion
    · exact Option.some.inj (r.read_available.symm.trans hready.unavailable)
  · rintro ⟨hwanted, hcores⟩
    obtain ⟨slot, hslot, hfresh⟩ := hwanted.fresh
    obtain ⟨placer, hplacer, hkeys⟩ := hwanted.elected
    have hready : Ready S v head ⟨head, r.paraHead, r.slotWidth, slot⟩ :=
      { sameHead := rfl
        parathread := hwanted.parathread ▸ r.read_parathread
        paraHead := r.read_paraHead
        bulkMode := hwanted.onDemand ▸ r.read_bulkMode
        unavailable := hcores ▸ r.read_available
        slotWidth := r.read_slotWidth
        inRange := hslot }
    have helected : Elected S v record ⟨head, r.paraHead, r.slotWidth, slot⟩
        ⟨⟨head, r.paraHead, r.slotWidth, slot⟩, placer, r.spotPrice⟩ :=
      { sameAttempt := rfl
        fresh := hfresh
        placer := ⟨r.authorities, r.read_authorities, hplacer⟩
        hasKeys := hkeys
        criterion := hwanted.criterion
        spotPrice := r.read_spotPrice }
    exact ⟨_, submitCall_eq_some.mpr
      ⟨_, untilLock_eq_some.mpr hready, underLock_eq_some.mpr helected⟩⟩

/-- **When the gate is the intended one.**  For every relay state, parachain
state, record, keystore and pool whose reads all succeed,
`handle_relaychain_stream` calls `submit_order` exactly when an order is wanted
and cores are available, if and only if no order is wanted in the first place. -/
theorem gating_iff (S : Service A) (v : View A) (head : Head) (record : OrderRecord)
    (r : AllReads S v head) :
    ((submitCall S v head record).isSome = true ↔ OrderWanted record r ∧ r.available = true) ↔
      ¬OrderWanted record r := by
  rw [submitCall_isSome_iff r]
  constructor
  · intro hgate hwanted
    cases hcores : r.available with
    | false => exact Bool.false_ne_true (hcores.symm.trans (hgate.mp ⟨hwanted, hcores⟩).2)
    | true => exact Bool.false_ne_true ((hgate.mpr ⟨hwanted, hcores⟩).2.symm.trans hcores)
  · intro hnot
    exact ⟨fun h => absurd h.1 hnot, fun h => absurd h.1 hnot⟩

end Gate

/-- Alice's node on the relay chain with two cores. -/
def coreCollator : Service Sr25519Public := { collator [alice] with decoders := coreDecoders }

/-- What it reads at head 4, with the first core in the pool. -/
def poolReads :
    AllReads coreCollator { plainView [alice] 1 with relayChain := coreRelayChain 4 5 } (headAt 4) where
  parathread := true
  paraHead := .replicate 0
  bulkMode := false
  available := true
  slotWidth := 1
  authorities := [alice]
  spotPrice := 1000000000000000000000
  read_parathread := by decide
  read_paraHead := by decide
  read_bulkMode := rfl
  read_available := by decide
  read_slotWidth := rfl
  read_authorities := rfl
  read_spotPrice := by decide

/-- **Available cores stop the order.**  Alice is elected for slot 2, the para
is a parathread out of bulk mode, the criterion holds and a core is in the pool,
and her node does not call `submit_order`. -/
theorem available_cores_stop_order :
    OrderWanted .empty poolReads ∧ poolReads.available = true ∧
    submitCall coreCollator { plainView [alice] 1 with relayChain := coreRelayChain 4 5 } (headAt 4)
      .empty = none := by
  refine ⟨⟨rfl, rfl, ⟨2, by decide, by decide⟩, ⟨alice, by decide, by decide⟩, rfl⟩, rfl, ?_⟩
  rfl

end OnDemand
