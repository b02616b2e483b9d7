/-
# The exact effect of one `create_order`

`create_order` (`pallets/on-demand/src/lib.rs`) gates one composite update by
nine conditions on the inherent, the pallet's storage, AuRa, the session pallet
and the events of a relay block.  `createOrder_next_of_due` and
`createOrder_next_of_not_due` split every call in two: a reward was due and the
state is `rewarded`, or nothing changed.

`createOrder_changes_iff` writes the conditions out and names the three things
that change, for the pallet's own `OnReward` and a currency whose `mint_into`
succeeds.  The orders are read off the relay block's events one by one, so
events about anything else, in any order, make no difference.

The update is not atomic in the currency.  `OnReward::reward` returns nothing,
and `create_order` marks the slot as rewarded whether or not the reward could be
minted: `reward_all_or_nothing_iff` says that the three writes come together
exactly when `mint_into` succeeds wherever a reward is due.
-/

import OnDemand.Pallet.Run

namespace OnDemand

open Word

section Calls

variable {T : Types} {C : Config T} {s : State T} {origin : Origin} {d : OrderInherentData}

/-- A due reward leads to `rewarded`. -/
theorem createOrder_next_of_due {data : InherentData} {owner : T.ValidatorId}
    (hdata : d.data = some data) (hdue : Due C s data owner) :
    (pallet C).next s (.createOrder .none d) = rewarded C s data owner := by
  obtain ⟨_⟩ := d
  obtain rfl := hdata
  have hcall : dispatch C s (.createOrder .none ⟨some data⟩) =
      .ok (rewarded C s data owner, some (rewardCall s data owner)) := createOrder_of_due hdue
  exact (pallet_step_of_ok hcall).1

/-- Where no reward is due, nothing changes. -/
theorem createOrder_next_of_not_due
    (hnot : ∀ data owner, origin = .none → d.data = some data → ¬Due C s data owner) :
    (pallet C).next s (.createOrder origin d) = s := by
  cases hd : dispatch C s (.createOrder origin d) with
  | error e => simp only [Transducer.next, pallet, hd]
  | ok p =>
      obtain ⟨s', r⟩ := p
      rw [(pallet_step_of_ok hd).1]
      obtain ⟨horigin, ⟨-, rfl⟩ | ⟨data, owner, hdata, hdue, -, -⟩⟩ := createOrder_cases hd
      · rfl
      · exact absurd hdue (hnot data owner horigin hdata)

end Calls

/-! ### What changes, and when -/

section Effect

variable {L : Type}

/-- The conditions of a reward for `owner`, on the state and the events under
the proof of the inherent. -/
structure Rewardable (C : Config (runtimeTypes L)) (s : State (runtimeTypes L)) (data : InherentData)
    (owner : AccountId32) : Prop where
  onDemand : s.storage.bulkMode = none
  nonempty : s.storage.authorities ≠ []
  criterion : C.shouldPlaceOrder s = true
  fresh : s.storage.previousSlot < slotOf data.relayHeight s.storage.slotWidth
  /-- The AURA key `Authorities[slot mod len]` has the owner. -/
  elected : ∃ placer, s.storage.authorities[
      slotOf data.relayHeight s.storage.slotWidth % s.storage.authorities.length]? = some placer ∧
    s.env.keyOwner aura placer.toList = some owner
  /-- One of the events is an order for the para by an account of the owner. -/
  ordered : ∃ orderedBy, HasOrder ((RelayChainStateProof.readEntry C.proofs
      ⟨data.paraId, data.relayStateRoot, data.relayStorageProof⟩ eventsKey).getD [])
        data.paraId orderedBy ∧ C.validatorIdOf orderedBy = some owner

/-- At a width below 32 and with a valid proof, a reward is due under exactly
these conditions. -/
theorem due_iff_rewardable {C : Config (runtimeTypes L)} {s : State (runtimeTypes L)}
    {data : InherentData} {owner : AccountId32}
    (hC : C.ordersPlaced = orderPlacementChecker C.proofs) (hw : s.storage.slotWidth < 32)
    (hproof : C.proofs.rootPresent data.relayStateRoot data.relayStorageProof = true) :
    Due C s data owner ↔ Rewardable C s data owner := by
  constructor
  · intro h
    obtain ⟨placer, hplacer, howner⟩ := h.elected
    refine ⟨h.onDemand, ?_, h.criterion, h.fresh, ⟨placer, hplacer, howner⟩,
      (exists_ordersPlaced_iff hC).mp h.ordered⟩
    intro hnil
    exact length_ne_zero_of_elected hplacer (List.length_eq_zero_iff.mpr hnil)
  · intro h
    exact ⟨h.onDemand, h.criterion, slotAt_of_lt hw _, h.fresh, hproof, h.elected,
      (exists_ordersPlaced_iff hC).mpr h.ordered⟩

/-- What `Currency::mint_into` does when it succeeds: the amount is added to
the balance of the account, and no other balance changes. -/
structure Credits (mintInto : L → AccountId32 → U128 → Option L) (balance : L → AccountId32 → ℕ) :
    Prop where
  credited : ∀ {ledger ledger' who amount}, mintInto ledger who amount = some ledger' →
    balance ledger' who = balance ledger who + amount.toNat
  others : ∀ {ledger ledger' who amount}, mintInto ledger who amount = some ledger' →
    ∀ other, other ≠ who → balance ledger' other = balance ledger other

/-- Three things differ between the two states: `PreviousSlot`, the balance of
the rewardee and one more event. -/
structure Paid (balance : L → AccountId32 → ℕ) (s s' : State (runtimeTypes L)) (slot : ℕ)
    (rewardee : AccountId32) (amount : U128) : Prop where
  storage : s'.storage = { s.storage with previousSlot := slot }
  env : s'.env = { s.env with outside :=
    { s.env.outside with
      ledger := s'.env.outside.ledger
      events := s.env.outside.events ++ [.orderPlacerRewarded rewardee amount] } }
  gains : balance s'.env.outside.ledger rewardee = balance s.env.outside.ledger rewardee + amount.toNat
  others : ∀ other, other ≠ rewardee →
    balance s'.env.outside.ledger other = balance s.env.outside.ledger other

/-- What the pallet's own reward changes when the amount can be minted. -/
theorem rewarded_paid {C : Config (runtimeTypes L)} {s : State (runtimeTypes L)} {data : InherentData}
    {owner : AccountId32} {balance : L → AccountId32 → ℕ} (hreward : C.onReward = .pallet)
    (hcredit : Credits C.mintInto balance)
    (hmint : (C.mintInto s.env.outside.ledger (C.toAccountId owner)
      (C.rewardSize s.env.outside)).isSome = true) :
    Paid balance s (rewarded C s data owner) (slotOf data.relayHeight s.storage.slotWidth)
      (C.toAccountId owner) (C.rewardSize s.env.outside) := by
  obtain ⟨ledger, hledger⟩ := Option.isSome_iff_exists.mp hmint
  have houtside : (rewarded C s data owner).env.outside =
      { s.env.outside with
        ledger := ledger
        events := s.env.outside.events ++
          [.orderPlacerRewarded (C.toAccountId owner) (C.rewardSize s.env.outside)] } := by
    simp only [rewarded, onReward, hreward, reward, hledger]
  refine ⟨rfl, ?_, ?_, ?_⟩
  · rw [houtside, ← houtside]
    rfl
  · rw [houtside]
    exact hcredit.credited hledger
  · rw [houtside]
    exact hcredit.others hledger

/-- **The exact effect of `create_order`.**  In a state of width below 32, with
an inherent whose proof is valid, the pallet's own `OnReward` and a `mint_into`
that succeeds, the call changes the state if and only if it carries data and the
conditions of a reward hold for some owner, whatever other events the relay
block holds; and then `PreviousSlot` becomes the slot, the owner's account gains
the reward size, one `OrderPlacerRewarded` is deposited, and nothing else
changes. -/
theorem createOrder_changes_iff (C : Config (runtimeTypes L))
    (hC : C.ordersPlaced = orderPlacementChecker C.proofs) (hreward : C.onReward = .pallet)
    {balance : L → AccountId32 → ℕ} (hcredit : Credits C.mintInto balance)
    (s : State (runtimeTypes L)) (hw : s.storage.slotWidth < 32) (d : OrderInherentData)
    (hproof : ∀ data, d.data = some data →
      C.proofs.rootPresent data.relayStateRoot data.relayStorageProof = true)
    (hmint : ∀ data owner, d.data = some data → Rewardable C s data owner →
      (C.mintInto s.env.outside.ledger (C.toAccountId owner)
        (C.rewardSize s.env.outside)).isSome = true) :
    ((pallet C).next s (.createOrder .none d) ≠ s ↔
      ∃ data owner, d.data = some data ∧ Rewardable C s data owner) ∧
    ∀ data owner, d.data = some data → Rewardable C s data owner →
      Paid balance s ((pallet C).next s (.createOrder .none d))
        (slotOf data.relayHeight s.storage.slotWidth) (C.toAccountId owner)
        (C.rewardSize s.env.outside) := by
  have hpaid : ∀ data owner, d.data = some data → Rewardable C s data owner →
      Paid balance s ((pallet C).next s (.createOrder .none d))
        (slotOf data.relayHeight s.storage.slotWidth) (C.toAccountId owner)
        (C.rewardSize s.env.outside) := by
    intro data owner hdata hr
    rw [createOrder_next_of_due hdata ((due_iff_rewardable hC hw (hproof data hdata)).mpr hr)]
    exact rewarded_paid hreward hcredit (hmint data owner hdata hr)
  refine ⟨⟨?_, ?_⟩, hpaid⟩
  · intro hne
    by_contra hnone
    refine hne (createOrder_next_of_not_due ?_)
    intro data owner _ hdata hdue
    exact hnone ⟨data, owner, hdata, (due_iff_rewardable hC hw (hproof data hdata)).mp hdue⟩
  · rintro ⟨data, owner, hdata, hr⟩ hsame
    have hprevious := congrArg (fun t => t.storage.previousSlot) hsame
    rw [(hpaid data owner hdata hr).storage] at hprevious
    exact absurd hprevious (Nat.ne_of_gt hr.fresh)

/-- Balances kept as a map credit what they mint. -/
theorem mintInto_credits : Credits mintInto fun ledger who => (ledger who).toNat := by
  have hfits : ∀ {ledger ledger' : AccountId32 → U128} {who : AccountId32} {amount : U128},
      mintInto ledger who amount = some ledger' → (ledger who).toNat + amount.toNat < 2 ^ 128 ∧
        ledger' = Function.update ledger who
          (BitVec.ofNat 128 ((ledger who).toNat + amount.toNat)) := by
    intro ledger ledger' who amount h
    unfold mintInto at h
    simp only at h
    split_ifs at h with _ hmax
    exact ⟨Nat.lt_of_not_le hmax, (Option.some.inj h).symm⟩
  constructor
  · intro ledger ledger' who amount h
    obtain ⟨hlt, rfl⟩ := hfits h
    rw [Function.update_self, BitVec.toNat_ofNat, Nat.mod_eq_of_lt hlt]
  · intro ledger ledger' who amount h other hother
    obtain ⟨-, rfl⟩ := hfits h
    rw [Function.update_of_ne hother]

/-- The end of the first block of a collator that is out of bulk mode. -/
def firstBlock (C : Config (runtimeTypes (AccountId32 → U128))) (collator : AccountId32) :
    State (runtimeTypes (AccountId32 → U128)) :=
  (pallet C).run (genesis 0 false (collatorEnv [(collator, collator)])) [.onFinalize]

/-- The template's reward can be minted for everybody who owns nothing. -/
theorem mintInto_fixedReward {ledger : AccountId32 → U128} {who : AccountId32} (h : ledger who = 0) :
    (mintInto ledger who (fixedReward milliUnit)).isSome = true := by
  have hreward : fixedReward milliUnit = milliUnit := by decide
  rw [hreward]
  simp [mintInto, h, milliUnit]

/-- Alice's order of relay block 8 changes the state of the template runtime,
in three places. -/
theorem createOrder_changes_orderBlock :
    (pallet (tableRuntime [orderEntry 8 alice])).next
        (firstBlock (tableRuntime [orderEntry 8 alice]) alice)
        (.createOrder .none ⟨some (dataOf (orderBlock 8 alice) 2000)⟩) ≠
      firstBlock (tableRuntime [orderEntry 8 alice]) alice := by
  refine (createOrder_changes_iff (tableRuntime [orderEntry 8 alice]) rfl rfl mintInto_credits
    (firstBlock (tableRuntime [orderEntry 8 alice]) alice) (by decide)
    ⟨some (dataOf (orderBlock 8 alice) 2000)⟩ ?_ ?_).1.mpr
      ⟨_, alice, rfl, rfl, List.cons_ne_nil _ _, by decide, by decide, ⟨alice, rfl, by decide⟩,
        alice, ⟨1000000, List.mem_singleton_self _⟩, rfl⟩
  · intro data hdata
    obtain rfl := Option.some.inj hdata
    decide
  · intro data owner _ _
    simp only [tableRuntime, runtimeConfig]
    exact mintInto_fixedReward rfl

end Effect

/-! ### All or nothing -/

section Atomicity

variable {T : Types}

/-- Mint, event and `PreviousSlot`: all three of them or none. -/
def AllOrNothing (C : Config T) (d : OrderInherentData) (s s' : State T) : Prop :=
  (∃ data owner ledger, d.data = some data ∧
    C.mintInto s.env.outside.ledger (C.toAccountId owner) (C.rewardSize s.env.outside) = some ledger ∧
    s'.env.outside.ledger = ledger ∧
    s'.env.outside.events = s.env.outside.events ++
      [.orderPlacerRewarded (C.toAccountId owner) (C.rewardSize s.env.outside)] ∧
    s'.storage.previousSlot = slotOf data.relayHeight s.storage.slotWidth) ∨
  (s'.env.outside.ledger = s.env.outside.ledger ∧ s'.env.outside.events = s.env.outside.events ∧
    s'.storage.previousSlot = s.storage.previousSlot)

/-- A reward the currency refuses still marks its slot. -/
theorem rewarded_of_not_minted {C : Config T} {s : State T} {owner : T.ValidatorId}
    (data : InherentData) (hreward : C.onReward = .pallet)
    (hmint : C.mintInto s.env.outside.ledger (C.toAccountId owner) (C.rewardSize s.env.outside) =
      none) :
    (rewarded C s data owner).env = s.env ∧
      (rewarded C s data owner).storage.previousSlot =
        slotOf data.relayHeight s.storage.slotWidth := by
  simp only [rewarded, onReward, hreward, reward, hmint, and_self]

/-- **When reward and bookkeeping come together.**  With the pallet's own
`OnReward`, from every state, for every inherent, reward size and currency, a
`create_order` call mints, deposits the event and marks the slot, or does none
of these, if and only if `mint_into` succeeds for the owner whenever a reward is
due. -/
theorem reward_all_or_nothing_iff (C : Config T) (hreward : C.onReward = .pallet) (s : State T)
    (origin : Origin) (d : OrderInherentData) :
    AllOrNothing C d s ((pallet C).next s (.createOrder origin d)) ↔
      ∀ data owner, origin = .none → d.data = some data → Due C s data owner →
        (C.mintInto s.env.outside.ledger (C.toAccountId owner)
          (C.rewardSize s.env.outside)).isSome = true := by
  constructor
  · rintro hall data owner rfl hdata hdue
    rw [createOrder_next_of_due hdata hdue] at hall
    by_contra hfails
    have hnone := Option.not_isSome_iff_eq_none.mp hfails
    obtain ⟨henv, hprevious⟩ := rewarded_of_not_minted data hreward hnone
    rcases hall with ⟨_, _, _, _, _, _, hevents, _⟩ | ⟨-, -, hsame⟩
    · have hlength := congrArg List.length hevents
      rw [henv, List.length_append, List.length_singleton] at hlength
      omega
    · rw [hprevious] at hsame
      exact absurd hsame (Nat.ne_of_gt hdue.fresh)
  · intro hmints
    by_cases hdue : ∃ data owner, origin = .none ∧ d.data = some data ∧ Due C s data owner
    · obtain ⟨data, owner, rfl, hdata, hdue⟩ := hdue
      obtain ⟨ledger, hledger⟩ :=
        Option.isSome_iff_exists.mp (hmints data owner rfl hdata hdue)
      rw [createOrder_next_of_due hdata hdue]
      refine Or.inl ⟨data, owner, ledger, hdata, hledger, ?_, ?_, rfl⟩
      · simp only [rewarded, onReward, hreward, reward, hledger]
      · simp only [rewarded, onReward, hreward, reward, hledger]
    · rw [createOrder_next_of_not_due fun data owner ho hd h => hdue ⟨data, owner, ho, hd, h⟩]
      exact Or.inr ⟨rfl, rfl, rfl⟩

/-- In the template's first block everybody can be paid. -/
theorem reward_all_or_nothing_orderBlock :
    AllOrNothing (tableRuntime [orderEntry 8 alice])
      ⟨some (dataOf (orderBlock 8 alice) 2000)⟩ (firstBlock (tableRuntime [orderEntry 8 alice]) alice)
      ((pallet (tableRuntime [orderEntry 8 alice])).next
        (firstBlock (tableRuntime [orderEntry 8 alice]) alice)
        (.createOrder .none ⟨some (dataOf (orderBlock 8 alice) 2000)⟩)) := by
  refine (reward_all_or_nothing_iff (tableRuntime [orderEntry 8 alice]) rfl _ _ _).mpr ?_
  intro data owner _ _ _
  simp only [tableRuntime, runtimeConfig]
  exact mintInto_fixedReward rfl

/-- The template runtime with a reward below the existential deposit. -/
def smallReward : Config (runtimeTypes (AccountId32 → U128)) :=
  { tableRuntime [orderEntry 8 alice] with rewardSize := fun _ => 999999999 }

/-- **A slot marked as rewarded without a payment.**  Alice owns nothing, so
999999999 cannot be minted for her; her order of relay block 8 marks slot 8 and
leaves balances and events alone. -/
theorem unpaid_slot_marked :
    ((pallet smallReward).next (firstBlock smallReward alice)
      (.createOrder .none ⟨some (dataOf (orderBlock 8 alice) 2000)⟩)).storage.previousSlot = 8 ∧
    ((pallet smallReward).next (firstBlock smallReward alice)
      (.createOrder .none ⟨some (dataOf (orderBlock 8 alice) 2000)⟩)).env =
        (firstBlock smallReward alice).env ∧
    ¬AllOrNothing smallReward ⟨some (dataOf (orderBlock 8 alice) 2000)⟩ (firstBlock smallReward alice)
      ((pallet smallReward).next (firstBlock smallReward alice)
        (.createOrder .none ⟨some (dataOf (orderBlock 8 alice) 2000)⟩)) := by
  have hprevious : ((pallet smallReward).next (firstBlock smallReward alice)
      (.createOrder .none ⟨some (dataOf (orderBlock 8 alice) 2000)⟩)).storage.previousSlot = 8 := by
    decide
  have henv : ((pallet smallReward).next (firstBlock smallReward alice)
      (.createOrder .none ⟨some (dataOf (orderBlock 8 alice) 2000)⟩)).env =
        (firstBlock smallReward alice).env := rfl
  refine ⟨hprevious, henv, ?_⟩
  rintro (⟨_, _, _, _, _, _, hevents, _⟩ | ⟨-, -, hsame⟩)
  · rw [henv] at hevents
    exact absurd hevents (by simp)
  · rw [hprevious] at hsame
    exact absurd hsame (by decide)

end Atomicity

end OnDemand
