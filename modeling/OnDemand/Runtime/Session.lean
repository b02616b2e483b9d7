/-
# Chains that do not stall

A key change can stop a chain with honest order data: the elected authority has
given up the key the pallet still elects (`OnDemand.Runtime.Block`).  This file
says when exactly that is, and what a chain has to keep to so that it never
happens.

What the session pallet does to keys is `SessionPallet.Lawful`: a call that fails
changes none, `set_keys` succeeds only for a key nobody else owns and moves the
entry, a purge removes it.  `plainSession_lawful` is one that does so.

Two invariants carry the file.  `KeyOwner` stays the inverse of `NextKeys`, whatever
keys are set and purged (`keysMatch_run`); so an honest order inherent fails exactly
when the key it elects is nobody's session key any more (`honest_order_stalls_iff`).
And while nobody gives up a key that is in use, and rotations bring in registered
keys only, every key in use has its owner (`Running`); so every block is valid
(`orderly_chain`).
-/

import OnDemand.Runtime.Block

namespace OnDemand

open Word

variable {T : Types}

/-! ### What is relied on of the session pallet -/

/-- No AURA key and no owner of one changes. -/
structure SameKeys (e e' : Env T) : Prop where
  nextKeys : e'.nextKeys = e.nextKeys
  keyOwner : ∀ raw, e'.keyOwner aura raw = e.keyOwner aura raw

/-- `who` registers a key that nobody else owns.  A new key gets its owner entry and
the old one loses its own; with the key one has no entry is touched. -/
structure RegistersKey (who : T.ValidatorId) (key : T.AuthorityId) (e e' : Env T) : Prop where
  free : ∀ owner, e.keyOwner aura (T.toRawVec key) = some owner → owner = who
  nextKeys : e'.nextKeys = Function.update e.nextKeys who (some key)
  same : (e.nextKeys who).map T.toRawVec = some (T.toRawVec key) →
    ∀ raw, e'.keyOwner aura raw = e.keyOwner aura raw
  changed : (e.nextKeys who).map T.toRawVec ≠ some (T.toRawVec key) →
    ∀ raw, e'.keyOwner aura raw =
      if raw = T.toRawVec key then some who
      else if (e.nextKeys who).map T.toRawVec = some raw then none
      else e.keyOwner aura raw

/-- `who` gives up its key. -/
structure RemovesKey (who : T.ValidatorId) (old : T.AuthorityId) (e e' : Env T) : Prop where
  registered : e.nextKeys who = some old
  nextKeys : e'.nextKeys = Function.update e.nextKeys who none
  keyOwner : ∀ raw, e'.keyOwner aura raw =
    if raw = T.toRawVec old then none else e.keyOwner aura raw

/-- What the calls of the session pallet can do.  None of them changes AuRa's
authorities; that is left to rotations. -/
structure SessionPallet.Lawful (P : SessionPallet T) : Prop where
  setKeys : ∀ who key e, SameKeys e (P.setKeys who key e) ∨ RegistersKey who key e (P.setKeys who key e)
  purgeKeys : ∀ who e, SameKeys e (P.purgeKeys who e) ∨ ∃ old, RemovesKey who old e (P.purgeKeys who e)
  setKeys_auraAuthorities : ∀ who key e, (P.setKeys who key e).auraAuthorities = e.auraAuthorities
  purgeKeys_auraAuthorities : ∀ who e, (P.purgeKeys who e).auraAuthorities = e.auraAuthorities

theorem keyOwner_putKeyOwner (e : Env T) (raw raw' : List UInt8) (who : T.ValidatorId) :
    (putKeyOwner raw who e).keyOwner aura raw' =
      if raw' = raw then some who else e.keyOwner aura raw' := by
  simp [putKeyOwner]

theorem keyOwner_clearKeyOwner (e : Env T) (raw raw' : List UInt8) :
    (clearKeyOwner raw e).keyOwner aura raw' =
      if raw' = raw then none else e.keyOwner aura raw' := by
  simp [clearKeyOwner]

/-- A `set_keys` of the plain session that is not refused. -/
theorem plainSession_registers {who : T.ValidatorId} {key : T.AuthorityId} {e : Env T}
    (hfree : (e.keyOwner aura (T.toRawVec key)).all (· = who) = true) :
    RegistersKey who key e (plainSession.setKeys who key e) where
  free owner howner := by simpa [howner] using hfree
  nextKeys := by simp only [plainSession, if_pos hfree]
  same hsame raw := by
    obtain ⟨old, hold, hraw⟩ := Option.map_eq_some_iff.mp hsame
    simp only [plainSession, if_pos hfree, hold, if_pos hraw]
  changed hchange raw := by
    cases hold : e.nextKeys who with
    | none =>
        simp only [plainSession, if_pos hfree, hold]
        simpa using keyOwner_putKeyOwner e (T.toRawVec key) raw who
    | some old =>
        have hne : T.toRawVec old ≠ T.toRawVec key := by simpa [hold] using hchange
        simp only [plainSession, if_pos hfree, hold, if_neg hne, Option.map_some, Option.some.injEq]
        rw [keyOwner_putKeyOwner, keyOwner_clearKeyOwner]
        simp only [eq_comm (a := raw)]

/-- The plain session does what a session pallet does. -/
theorem plainSession_lawful : (plainSession (T := T)).Lawful where
  setKeys who key e := by
    by_cases hfree : (e.keyOwner aura (T.toRawVec key)).all (· = who) = true
    · exact Or.inr (plainSession_registers hfree)
    · have hsame : plainSession.setKeys who key e = e := by simp only [plainSession, if_neg hfree]
      rw [hsame]
      exact Or.inl ⟨rfl, fun _ => rfl⟩
  purgeKeys who e := by
    cases hold : e.nextKeys who with
    | none =>
        have hsame : plainSession.purgeKeys who e = e := by simp only [plainSession, hold]
        rw [hsame]
        exact Or.inl ⟨rfl, fun _ => rfl⟩
    | some old =>
        refine Or.inr ⟨old, hold, by simp only [plainSession, hold], fun raw => ?_⟩
        simp only [plainSession, hold]
        exact keyOwner_clearKeyOwner e (T.toRawVec old) raw
  setKeys_auraAuthorities who key e := by
    simp only [plainSession]
    split
    · split
      · rfl
      · split
        · rfl
        · rfl
    · rfl
  purgeKeys_auraAuthorities who e := by
    simp only [plainSession]
    split
    · rfl
    · rfl

/-! ### Key owners and next keys -/

/-- `KeyOwner` of AURA keys is the inverse of `NextKeys`. -/
def KeysMatch (e : Env T) : Prop :=
  ∀ raw who, e.keyOwner aura raw = some who ↔ ∃ key, e.nextKeys who = some key ∧ T.toRawVec key = raw

/-- What changes no key keeps them inverse. -/
theorem KeysMatch.same {e e' : Env T} (h : KeysMatch e) (hsame : SameKeys e e') : KeysMatch e' := by
  intro raw who
  rw [hsame.keyOwner, hsame.nextKeys]
  exact h raw who

/-- **Registering a key keeps owners and keys inverse.** -/
theorem KeysMatch.registers {e e' : Env T} (h : KeysMatch e) {who : T.ValidatorId}
    {key : T.AuthorityId} (hset : RegistersKey who key e e') : KeysMatch e' := by
  intro raw w
  rw [hset.nextKeys]
  by_cases hsame : (e.nextKeys who).map T.toRawVec = some (T.toRawVec key)
  · rw [hset.same hsame raw, h raw w]
    obtain ⟨old, hold, hraw⟩ := Option.map_eq_some_iff.mp hsame
    by_cases hw : w = who
    · subst hw
      simp [hold, hraw]
    · rw [Function.update_of_ne hw]
  · rw [hset.changed hsame raw]
    by_cases hw : w = who
    · subst hw
      rw [Function.update_self]
      by_cases hkey : raw = T.toRawVec key
      · simp [hkey]
      · -- an owner of anything but the new key would have had it as the old one
        have hnone : ¬ (if (e.nextKeys w).map T.toRawVec = some raw then none
            else e.keyOwner aura raw) = some w := by
          split
          · exact nofun
          · rename_i hold
            intro howner
            obtain ⟨k, hk, hkraw⟩ := (h raw w).mp howner
            exact hold (by rw [hk, Option.map_some, hkraw])
        rw [if_neg hkey]
        refine ⟨fun howner => absurd howner hnone, ?_⟩
        rintro ⟨k, hk, rfl⟩
        exact absurd (congrArg T.toRawVec (Option.some.inj hk)).symm hkey
    · rw [Function.update_of_ne hw, ← h raw w]
      by_cases hkey : raw = T.toRawVec key
      · rw [if_pos hkey, hkey]
        refine ⟨fun hwho => absurd (Option.some.inj hwho).symm hw, fun howner => ?_⟩
        exact absurd (hset.free w howner) hw
      · rw [if_neg hkey]
        split
        · rename_i hold
          obtain ⟨old, hnext, hraw⟩ := Option.map_eq_some_iff.mp hold
          have howner := (h raw who).mpr ⟨old, hnext, hraw⟩
          rw [howner]
          exact ⟨nofun, fun hwho => absurd (Option.some.inj hwho).symm hw⟩
        · exact Iff.rfl

/-- **Giving up a key keeps owners and keys inverse.** -/
theorem KeysMatch.removes {e e' : Env T} (h : KeysMatch e) {who : T.ValidatorId}
    {old : T.AuthorityId} (hpurge : RemovesKey who old e e') : KeysMatch e' := by
  intro raw w
  rw [hpurge.nextKeys, hpurge.keyOwner]
  by_cases hw : w = who
  · subst hw
    rw [Function.update_self]
    split
    · exact ⟨nofun, nofun⟩
    · rename_i hraw
      refine ⟨fun howner => ?_, nofun⟩
      obtain ⟨k, hk, hkraw⟩ := (h raw w).mp howner
      rw [hpurge.registered, Option.some.injEq] at hk
      rw [← hkraw, hk] at hraw
      exact absurd rfl hraw
  · rw [Function.update_of_ne hw, ← h raw w]
    split
    · rename_i hraw
      have howner := (h raw who).mpr ⟨old, hpurge.registered, hraw.symm⟩
      rw [howner]
      exact ⟨nofun, fun hwho => absurd (Option.some.inj hwho).symm hw⟩
    · exact Iff.rfl

theorem KeysMatch.setKeys {P : SessionPallet T} (hP : P.Lawful) {e : Env T} (h : KeysMatch e)
    (who : T.ValidatorId) (key : T.AuthorityId) : KeysMatch (P.setKeys who key e) :=
  (hP.setKeys who key e).elim h.same h.registers

theorem KeysMatch.purgeKeys {P : SessionPallet T} (hP : P.Lawful) {e : Env T} (h : KeysMatch e)
    (who : T.ValidatorId) : KeysMatch (P.purgeKeys who e) :=
  (hP.purgeKeys who e).elim h.same fun ⟨_, hpurge⟩ => h.removes hpurge

/-- The session's state at genesis: exactly the keys of the configuration are
registered. -/
structure SessionGenesis (keys : List (T.ValidatorId × T.AuthorityId)) (e : Env T) : Prop where
  nextKeys : ∀ who key, e.nextKeys who = some key ↔ (who, key) ∈ keys
  keyOwner : ∀ raw who, e.keyOwner aura raw = some who ↔ ∃ key, (who, key) ∈ keys ∧ T.toRawVec key = raw

theorem SessionGenesis.keysMatch {keys : List (T.ValidatorId × T.AuthorityId)} {e : Env T}
    (h : SessionGenesis keys e) : KeysMatch e := by
  intro raw who
  simp only [h.keyOwner, h.nextKeys]

/-! ### Owners and keys along a chain -/

/-- `create_order` leaves the state alone, or pays a reward. -/
theorem next_createOrder (C : Config T) (s : State T) (origin : Origin) (d : OrderInherentData) :
    (pallet C).next s (.createOrder origin d) = s ∨
      ∃ data owner, (pallet C).next s (.createOrder origin d) = rewarded C s data owner := by
  cases hd : dispatch C s (.createOrder origin d) with
  | error e => exact Or.inl (by simp only [Transducer.next, pallet, hd])
  | ok p =>
      obtain ⟨s', r⟩ := p
      rw [(pallet_step_of_ok hd).1]
      obtain ⟨-, ⟨-, hsame⟩ | ⟨data, owner, -, -, -, hpaid⟩⟩ := createOrder_cases hd
      · exact Or.inl hsame
      · exact Or.inr ⟨data, owner, hpaid⟩

/-- An admin call leaves the state alone, or is admitted and writes its item. -/
theorem next_adminCall {C : Config T} {s : State T} (op : Op T) {origin : Origin}
    {write : Storage T → Storage T} {event : Event T}
    (hop : dispatch C s op = (adminCall C s origin write event).map (·, none)) :
    (pallet C).next s op = s ∨ (ensureOriginOrRoot C origin = true ∧
      (pallet C).next s op = depositEvent { s with storage := write s.storage } event) := by
  unfold adminCall at hop
  split at hop
  · rename_i hadmin
    exact Or.inr ⟨hadmin, (pallet_step_of_ok hop).1⟩
  · exact Or.inl (by simp only [Transducer.next, pallet, hop, Except.map])

/-- An operation of a block keeps owners and keys inverse. -/
theorem KeysMatch.op {C : Config T} {P : SessionPallet T} (hP : P.Lawful) {s : State T}
    {b : Block T} {op : Op T} (hop : op ∈ b.ops P) (h : KeysMatch s.env) :
    KeysMatch ((pallet C).next s op).env := by
  have hadmin : ∀ {origin write event} {op : Op T},
      dispatch C s op = (adminCall C s origin write event).map (·, none) →
      KeysMatch ((pallet C).next s op).env := by
    intro origin write event op hop
    rcases next_adminCall _ hop with hnext | ⟨-, hnext⟩
    · rwa [hnext]
    · rw [hnext]
      exact h
  rcases List.mem_cons.mp hop with rfl | hop
  · exact h
  rcases List.mem_append.mp hop with hop | hop
  · obtain ⟨i, -, rfl⟩ := List.mem_map.mp hop
    cases i with
    | createOrder d =>
        show KeysMatch ((pallet C).next s (.createOrder .none d)).env
        rcases next_createOrder C s .none d with hnext | ⟨data, owner, hnext⟩
        · rwa [hnext]
        · rw [hnext]
          exact h
    | other change => exact h
  rcases List.mem_append.mp hop with hop | hop
  · obtain ⟨t, -, rfl⟩ := List.mem_map.mp hop
    cases t with
    | setSlotWidth origin width => exact hadmin rfl
    | setThresholdParameter origin parameter => exact hadmin rfl
    | setBulkMode origin bulkMode => exact hadmin rfl
    | setKeys who key => exact h.setKeys hP who key
    | purgeKeys who => exact h.purgeKeys hP who
    | other change => exact h
  · obtain rfl := List.mem_singleton.mp hop
    exact h

/-- **`KeyOwner` stays the inverse of `NextKeys`** at every point of every
chain. -/
theorem keysMatch_run (C : Config T) {P : SessionPallet T} (hP : P.Lawful) {s : State T}
    (h : KeysMatch s.env) (bs : List (Block T)) (b : Block T) (earlier : List (Inherent T))
    (hearlier : ∀ i ∈ earlier, i ∈ b.inherents) : KeysMatch (dispatchState C P s bs b earlier).env := by
  refine (pallet C).run_invariant (fun s => KeysMatch s.env) h fun op hop t ht => ?_
  rcases List.mem_append.mp hop with hop | hop
  · obtain ⟨b', -, hop⟩ := List.mem_flatMap.mp hop
    exact ht.op hP hop
  · refine ht.op hP (b := b) ?_
    rcases List.mem_cons.mp hop with rfl | hop
    · exact List.mem_cons_self ..
    · obtain ⟨i, hi, rfl⟩ := List.mem_map.mp hop
      exact List.mem_cons_of_mem _ (List.mem_append_left _ (List.mem_map_of_mem (hearlier i hi)))

/-- **When honest order data stalls a chain.**  Whatever blocks came before, with
whatever keys set, purged and rotated in: an order inherent that reaches its proof
with the data of a real relay block fails exactly when the key it elects is
nobody's session key. -/
theorem honest_order_stalls_iff (C : Config T) (P : SessionPallet T) (hP : P.Lawful) (s : State T)
    (h : KeysMatch s.env) (bs : List (Block T)) (b : Block T) (earlier : List (Inherent T))
    (hearlier : ∀ i ∈ earlier, i ∈ b.inherents)
    (hw : (dispatchState C P s bs b earlier).storage.slotWidth < 32) (block : RelayBlock)
    (data : InherentData) (hdata : HonestData C.proofs block data)
    (hreaches : ReachesProof C (dispatchState C P s bs b earlier) data) :
    ∃ placer, electedPlacer (dispatchState C P s bs b earlier).storage data.relayHeight = some placer ∧
      (createOrder C (dispatchState C P s bs b earlier) .none ⟨some data⟩ =
          .error (.module .failedToGetOrderPlacerAccount) ↔
        ∀ who key, (dispatchState C P s bs b earlier).env.nextKeys who = some key →
          T.toRawVec key ≠ T.toRawVec placer) := by
  have hmatch := keysMatch_run C hP h bs b earlier hearlier
  obtain ⟨placer, hplacer, -, hfails, hreturns⟩ := createOrder_of_reaches hw hreaches
  refine ⟨placer, hplacer, fun herror who key hkey hraw => ?_, fun hnobody => ?_⟩
  · obtain ⟨r, hr⟩ := hreturns hdata.present who ((hmatch _ who).mpr ⟨key, hkey, hraw⟩)
    rw [hr] at herror
    cases herror
  · refine hfails hdata.present ?_
    by_contra hsome
    obtain ⟨who, hwho⟩ := Option.ne_none_iff_exists'.mp hsome
    obtain ⟨key, hkey, hraw⟩ := (hmatch _ who).mp hwho
    exact hnobody who key hkey hraw

/-- Looking up a key that stands for one entry only finds that entry. -/
theorem find?_eq_some_iff_mem {α β : Type*} [BEq β] [LawfulBEq β] {f : α → β} {xs : List α}
    (hxs : (xs.map f).Nodup) {b : β} {x : α} :
    xs.find? (fun y => f y == b) = some x ↔ x ∈ xs ∧ f x = b := by
  induction xs with
  | nil => simp
  | cons y xs ih =>
      rw [List.map_cons, List.nodup_cons] at hxs
      rw [List.find?_cons]
      by_cases hy : f y = b
      · have hfresh : ∀ z ∈ xs, f z ≠ b := fun z hz hzb =>
          hxs.1 (List.mem_map.mpr ⟨z, hz, hzb.trans hy.symm⟩)
        simp only [hy, BEq.rfl, Option.some.injEq, List.mem_cons]
        constructor
        · rintro rfl
          exact ⟨Or.inl rfl, hy⟩
        · rintro ⟨rfl | hz, hxb⟩
          · rfl
          · exact absurd hxb (hfresh x hz)
      · have hne : (f y == b) = false := by simpa using hy
        rw [hne, ih hxs.2, List.mem_cons]
        constructor
        · rintro ⟨hz, hxb⟩
          exact ⟨Or.inr hz, hxb⟩
        · rintro ⟨rfl | hz, hxb⟩
          · exact absurd hxb hy
          · exact ⟨hz, hxb⟩

/-- Collators of different accounts with different keys are a genesis of the
session. -/
theorem collatorEnv_genesis (collators : List (AccountId32 × Sr25519Public))
    (haccounts : (collators.map Prod.fst).Nodup)
    (hkeys : (collators.map fun c => c.2.toList).Nodup) :
    SessionGenesis (T := runtimeTypes (AccountId32 → U128)) collators (collatorEnv collators) where
  nextKeys who key := by
    simp only [collatorEnv, Option.map_eq_some_iff, find?_eq_some_iff_mem haccounts]
    constructor
    · rintro ⟨⟨_, _⟩, ⟨hmem, rfl⟩, rfl⟩
      exact hmem
    · intro hmem
      exact ⟨(who, key), ⟨hmem, rfl⟩, rfl⟩
  keyOwner raw who := by
    simp only [collatorEnv, if_true, Option.map_eq_some_iff, find?_eq_some_iff_mem hkeys]
    constructor
    · rintro ⟨⟨_, key⟩, ⟨hmem, hraw⟩, rfl⟩
      exact ⟨key, hmem, hraw⟩
    · rintro ⟨key, hmem, hraw⟩
      exact ⟨(who, key), ⟨hmem, hraw⟩, rfl⟩

/-- Alice gives up the key the pallet still elects. -/
theorem honest_order_stalls_key_change :
    createOrder (tableRuntime [orderEntry 8 alice])
      (dispatchState (tableRuntime [orderEntry 8 alice]) plainSession
        (genesis 0 true (collatorEnv [(alice, alice)])) (keyChange bob) plainBlock []) .none
      ⟨some (dataOf (orderBlock 8 alice) 2000)⟩ =
      .error (.module .failedToGetOrderPlacerAccount) := by
  have hmatch : KeysMatch (collatorEnv [(alice, alice)]) :=
    (collatorEnv_genesis [(alice, alice)] (by decide) (by decide)).keysMatch
  obtain ⟨placer, hplacer, hiff⟩ := honest_order_stalls_iff (tableRuntime [orderEntry 8 alice])
    plainSession plainSession_lawful (genesis 0 true (collatorEnv [(alice, alice)])) hmatch
    (keyChange bob) plainBlock [] nofun (by decide) (orderBlock 8 alice)
    (dataOf (orderBlock 8 alice) 2000) ⟨rfl, rfl, by decide, by decide⟩
    ⟨by decide, by decide, by decide, by decide⟩
  obtain rfl : alice = placer := Option.some.inj hplacer
  refine hiff.mpr fun who key hkey => ?_
  have hnext : Function.update (collatorEnv [(alice, alice)]).nextKeys alice (some bob) who =
      some key := hkey
  rw [Function.update_apply] at hnext
  split at hnext
  · obtain rfl := Option.some.inj hnext
    decide
  · rename_i hwho
    have hlisted := ((collatorEnv_genesis [(alice, alice)] (by decide) (by decide)).nextKeys
      who key).mp hnext
    exact absurd (congrArg Prod.fst (List.mem_singleton.mp hlisted)) hwho

/-! ### What a chain has to keep to -/

/-- The authority lists in use: the pallet's copy and AuRa's own. -/
def inUse (s : State T) : List T.AuthorityId := s.storage.authorities ++ s.env.auraAuthorities

/-- Owners and keys match, every key in use has its owner, and the slot width
is a shift. -/
structure Running (s : State T) : Prop where
  keysMatch : KeysMatch s.env
  owned : ∀ a ∈ inUse s, ∃ who, s.env.keyOwner aura (T.toRawVec a) = some who
  width : s.storage.slotWidth < 32

/-- The order inherent is what `create_at` makes of a relay chain it sees
faithfully. -/
def FromRelay (C : Config T) (d : OrderInherentData) : Prop :=
  ∃ rc chain recorded paraId, RelayChainInterface.Faithful rc C.proofs chain ∧
    createAt rc recorded paraId = some d

/-- Nobody gives up a key in use, and an admitted width is a shift. -/
def Transaction.Orderly (C : Config T) (s : State T) : Transaction T → Prop
  | .setSlotWidth origin width => ensureOriginOrRoot C origin = true → width < 32
  | .setKeys who key => ∀ old, s.env.nextKeys who = some old → T.toRawVec old ≠ T.toRawVec key →
      ∀ a ∈ inUse s, T.toRawVec a ≠ T.toRawVec old
  | .purgeKeys who => ∀ old, s.env.nextKeys who = some old →
      ∀ a ∈ inUse s, T.toRawVec a ≠ T.toRawVec old
  | _ => True

/-- Each transaction is orderly where it is executed. -/
def OrderlyTransactions (C : Config T) (P : SessionPallet T) : State T → List (Transaction T) → Prop
  | _, [] => True
  | s, t :: ts => t.Orderly C s ∧ OrderlyTransactions C P ((pallet C).next s (t.op P)) ts

/-- The block's rotation brings in registered keys, its order inherents are
honest, and its transactions are orderly. -/
structure Block.Orderly (C : Config T) (P : SessionPallet T) (s : State T) (b : Block T) :
    Prop where
  rotation : ∀ list, b.rotation = some list → ∀ a ∈ list, ∃ who, s.env.nextKeys who = some a
  inherents : ∀ d, .createOrder d ∈ b.inherents → FromRelay C d
  transactions : OrderlyTransactions C P
    ((pallet C).run s (b.opening :: b.inherents.map Inherent.op)) b.transactions

/-- Each block is orderly where it is executed. -/
def OrderlyChain (C : Config T) (P : SessionPallet T) : State T → List (Block T) → Prop
  | _, [] => True
  | s, b :: bs => b.Orderly C P s ∧ OrderlyChain C P ((pallet C).run s (b.ops P)) bs

/-- A genesis of the session where AuRa's authorities have registered keys starts a
running chain. -/
theorem SessionGenesis.running {keys : List (T.ValidatorId × T.AuthorityId)} {e : Env T}
    (h : SessionGenesis keys e) (hauthorities : ∀ a ∈ e.auraAuthorities, ∃ who, (who, a) ∈ keys)
    (threshold : T.ThresholdParameter) (bulkMode : Bool) :
    Running (genesis threshold bulkMode e) where
  keysMatch := h.keysMatch
  owned a ha := by
    obtain ⟨who, hwho⟩ := hauthorities a (by simpa [inUse, genesis] using ha)
    exact ⟨who, (h.keyOwner _ who).mpr ⟨a, hwho, rfl⟩⟩
  width := by
    show (0 : UInt32) < 32
    decide

/-! ### One operation -/

variable {C : Config T} {P : SessionPallet T} {s : State T}

/-- An operation that touches neither keys nor lists keeps a state running, if
it leaves a width that is a shift. -/
theorem Running.same {s' : State T} (h : Running s) (hsame : SameKeys s.env s'.env)
    (hinUse : inUse s' = inUse s) (hwidth : s'.storage.slotWidth < 32) : Running s' where
  keysMatch := h.keysMatch.same hsame
  owned a ha := by
    rw [hsame.keyOwner]
    exact h.owned a (hinUse ▸ ha)
  width := hwidth

/-- An admin call that leaves the lists alone keeps a state running. -/
theorem Running.adminCall (h : Running s) {origin : Origin} {write : Storage T → Storage T}
    {event : Event T} {op : Op T}
    (hop : dispatch C s op = (OnDemand.adminCall C s origin write event).map (·, none))
    (hlists : (write s.storage).authorities = s.storage.authorities)
    (hwidth : ensureOriginOrRoot C origin = true → (write s.storage).slotWidth < 32) :
    Running ((pallet C).next s op) := by
  rcases next_adminCall _ hop with hnext | ⟨hadmin, hnext⟩
  · rw [hnext]
    exact h
  · rw [hnext]
    exact h.same ⟨rfl, fun _ => rfl⟩ (congrArg (· ++ s.env.auraAuthorities) hlists) (hwidth hadmin)

/-- A key change that clears only a key not in use keeps a state running. -/
theorem Running.keys (h : Running s) {change : Env T → Env T} (hmatch : KeysMatch (change s.env))
    (haura : (change s.env).auraAuthorities = s.env.auraAuthorities)
    (howned : ∀ a ∈ inUse s, ∃ who, (change s.env).keyOwner aura (T.toRawVec a) = some who) :
    Running ((pallet C).next s (.environment change)) where
  keysMatch := hmatch
  owned a ha := by
    refine howned a ?_
    show a ∈ s.storage.authorities ++ s.env.auraAuthorities
    rw [← haura]
    exact ha
  width := h.width

/-- A registration that clears no key in use leaves every key in use its owner. -/
theorem RegistersKey.owned {who : T.ValidatorId} {key a : T.AuthorityId} {e e' : Env T}
    (hset : RegistersKey who key e e') {owner : T.ValidatorId}
    (howner : e.keyOwner aura (T.toRawVec a) = some owner)
    (hkept : ∀ old, e.nextKeys who = some old → T.toRawVec old ≠ T.toRawVec key →
      T.toRawVec a ≠ T.toRawVec old) :
    ∃ owner', e'.keyOwner aura (T.toRawVec a) = some owner' := by
  by_cases hsame : (e.nextKeys who).map T.toRawVec = some (T.toRawVec key)
  · rw [hset.same hsame]
    exact ⟨owner, howner⟩
  · rw [hset.changed hsame]
    split
    · exact ⟨who, rfl⟩
    · rw [if_neg]
      · exact ⟨owner, howner⟩
      · intro hcleared
        obtain ⟨old, hold, hraw⟩ := Option.map_eq_some_iff.mp hcleared
        refine hkept old hold (fun hkey => hsame ?_) hraw.symm
        rw [hold, Option.map_some, hkey]

/-- **An orderly transaction keeps a state running.** -/
theorem Running.transaction (hP : P.Lawful) (h : Running s) {t : Transaction T}
    (ht : t.Orderly C s) : Running ((pallet C).next s (t.op P)) := by
  cases t with
  | setSlotWidth origin width => exact h.adminCall rfl rfl ht
  | setThresholdParameter origin parameter => exact h.adminCall rfl rfl fun _ => h.width
  | setBulkMode origin bulkMode => exact h.adminCall rfl rfl fun _ => h.width
  | other change => exact h.same ⟨rfl, fun _ => rfl⟩ rfl h.width
  | setKeys who key =>
      refine h.keys (h.keysMatch.setKeys hP who key) (hP.setKeys_auraAuthorities who key s.env) ?_
      intro a ha
      obtain ⟨owner, howner⟩ := h.owned a ha
      rcases hP.setKeys who key s.env with hsame | hset
      · exact ⟨owner, (hsame.keyOwner _).trans howner⟩
      · exact hset.owned howner fun old hold hraw => ht old hold hraw a ha
  | purgeKeys who =>
      refine h.keys (h.keysMatch.purgeKeys hP who) (hP.purgeKeys_auraAuthorities who s.env) ?_
      intro a ha
      obtain ⟨owner, howner⟩ := h.owned a ha
      rcases hP.purgeKeys who s.env with hsame | ⟨old, hpurge⟩
      · exact ⟨owner, (hsame.keyOwner _).trans howner⟩
      · refine ⟨owner, ?_⟩
        rw [hpurge.keyOwner, if_neg (ht old hpurge.registered a ha)]
        exact howner

/-- **An honest inherent returns and keeps a state running.** -/
theorem Running.inherent (h : Running s) {i : Inherent T}
    (hi : ∀ d, i = .createOrder d → FromRelay C d) :
    (dispatch C s i.op).isOk = true ∧ Running ((pallet C).next s i.op) := by
  cases i with
  | other change => exact ⟨rfl, h.same ⟨rfl, fun _ => rfl⟩ rfl h.width⟩
  | createOrder d =>
      obtain ⟨rc, chain, recorded, paraId, hrc, hd⟩ := hi d rfl
      have hok : ∃ r, createOrder C s .none d = .ok r := by
        obtain ⟨data?⟩ := d
        rcases createAt_honest hrc hd with ⟨-, hnone⟩ | ⟨hash, block, data, -, -, hdata, -, hhonest⟩
        · obtain rfl : data? = none := hnone
          exact ⟨_, rfl⟩
        · obtain rfl : data? = some data := hdata
          refine (createOrder_returns_iff h.width hhonest.present).mpr fun hreaches => ?_
          -- the placer is in use, so its key has an owner
          have hlength : s.storage.authorities.length ≠ 0 := by
            simpa using hreaches.nonempty
          obtain ⟨placer, hplacer⟩ := exists_electedPlacer hlength data.relayHeight
          obtain ⟨owner, howner⟩ :=
            h.owned placer (List.mem_append_left _ (List.mem_of_getElem? hplacer))
          exact ⟨placer, owner, hplacer, howner⟩
      obtain ⟨⟨s', r⟩, hr⟩ := hok
      have hdispatch : dispatch C s (Inherent.op (.createOrder d)) = .ok (s', r) := hr
      refine ⟨by rw [hdispatch]; rfl, ?_⟩
      show Running ((pallet C).next s (.createOrder .none d))
      rcases next_createOrder C s .none d with hnext | ⟨data, owner, hnext⟩
      · rwa [hnext]
      · rw [hnext]
        exact h.same ⟨rfl, fun _ => rfl⟩ rfl h.width

/-! ### Blocks and chains -/

/-- The initialize hooks keep a state running when the rotation brings in
registered keys. -/
theorem Running.opening (h : Running s) {b : Block T}
    (hb : ∀ list, b.rotation = some list → ∀ a ∈ list, ∃ who, s.env.nextKeys who = some a) :
    Running ((pallet C).next s b.opening) where
  keysMatch := h.keysMatch.same ⟨rfl, fun _ => rfl⟩
  owned a ha := by
    change a ∈ s.storage.authorities ++ b.rotation.getD s.env.auraAuthorities at ha
    show ∃ who, s.env.keyOwner aura (T.toRawVec a) = some who
    cases hrotation : b.rotation with
    | none =>
        rw [hrotation] at ha
        exact h.owned a ha
    | some list =>
        rw [hrotation] at ha
        rcases List.mem_append.mp ha with hold | hnew
        · exact h.owned a (List.mem_append_left _ hold)
        · obtain ⟨who, hwho⟩ := hb list hrotation a hnew
          exact ⟨who, (h.keysMatch _ who).mpr ⟨a, hwho, rfl⟩⟩
  width := h.width

/-- After the finalize hook both lists are AuRa's. -/
theorem Running.finalize (h : Running s) : Running ((pallet C).next s .onFinalize) where
  keysMatch := h.keysMatch
  owned a ha := by
    refine h.owned a (List.mem_append_right _ ?_)
    exact (List.mem_append.mp ha).elim id id
  width := h.width

/-- The inherents of an orderly block all return. -/
theorem Running.inherents (h : Running s) {is : List (Inherent T)}
    (his : ∀ d, .createOrder d ∈ is → FromRelay C d) :
    inherentsReturn C s is = true ∧ Running ((pallet C).run s (is.map Inherent.op)) := by
  induction is generalizing s with
  | nil => exact ⟨rfl, h⟩
  | cons i is ih =>
      obtain ⟨hok, hnext⟩ := h.inherent (C := C) (i := i) fun d hd => his d (hd ▸ List.mem_cons_self ..)
      obtain ⟨hrest, hrun⟩ := ih hnext fun d hd => his d (List.mem_cons_of_mem _ hd)
      refine ⟨?_, hrun⟩
      rw [inherentsReturn, hok, hrest]
      rfl

/-- The transactions of an orderly block keep a state running. -/
theorem Running.transactions (hP : P.Lawful) (h : Running s) {ts : List (Transaction T)}
    (hts : OrderlyTransactions C P s ts) :
    Running ((pallet C).run s (ts.map (Transaction.op P))) := by
  induction ts generalizing s with
  | nil => exact h
  | cons t ts ih => exact ih (h.transaction hP hts.1) hts.2

/-- **An orderly block is valid**, and keeps the state running. -/
theorem Running.block (hP : P.Lawful) (h : Running s) {b : Block T} (hb : b.Orderly C P s) :
    applyBlock C P s b = some ((pallet C).run s (b.ops P)) ∧
      Running ((pallet C).run s (b.ops P)) := by
  have hopen := h.opening (C := C) hb.rotation
  obtain ⟨hreturn, hinherents⟩ := hopen.inherents hb.inherents
  refine ⟨by rw [applyBlock, if_pos hreturn], ?_⟩
  rw [Block.ops, Transducer.run_cons, Transducer.run_append, Transducer.run_append]
  exact (hinherents.transactions hP hb.transactions).finalize

/-- **Orderly chains never stall.**  Start where owners and keys match, every key
in use has its owner and the slot width is a shift.  As long as no one gives up a
key that is in use, rotations bring in registered keys, admitted widths are
shifts and order inherents are those of a faithfully seen relay chain, every block
is valid, whatever else the blocks do. -/
theorem orderly_chain (C : Config T) (hP : P.Lawful) {s : State T} (h : Running s)
    {bs : List (Block T)} (hbs : OrderlyChain C P s bs) :
    ∃ s', applyBlocks C P s bs = some s' ∧ Running s' := by
  induction bs generalizing s with
  | nil => exact ⟨s, rfl, h⟩
  | cons b bs ih =>
      obtain ⟨hblock, hnext⟩ := h.block hP hbs.1
      obtain ⟨s', hs', hrunning⟩ := ih hnext hbs.2
      refine ⟨s', ?_, hrunning⟩
      rw [applyBlocks, hblock]
      exact hs'

end OnDemand
