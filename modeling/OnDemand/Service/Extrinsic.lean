/-
# What is in a submitted order

`submit_order` (`services/order/src/chain.rs`) signs a `place_order_allow_death`
with an amount, a signer and an era (`submitOrder_carries`).  This file asks of
each of them whether it is the right one.

* The amount is the spot price of `get_spot_price`, which multiplies the raw
  number of a fixed point traffic: `bid_is_relay_price_iff` says when that is
  the relay chain's price.
* The signer is the first AURA key of the keystore, not the key the node was
  elected with: `signed_by_elected_iff`.
* The era starts at the first block of the slot and lasts as many blocks as the
  slot has, but never fewer than four: `included_in_slot_iff` says that it ends
  with the slot at widths from 2 on, and outlives it at widths 0 and 1.
-/

import OnDemand.Base.Era
import OnDemand.Service.Reward

namespace OnDemand

open Word

/-! ### The amount -/

section Amount

/-- The spot price of the relay chain's on-demand pallet. -/
def relaySpotPrice (status : QueueStatus) (config : HostConfiguration) : U128 :=
  status.traffic.satMulInt config.onDemandBaseFee

/-- What `get_spot_price` returns where both items are there. -/
theorem getSpotPrice_eq {D : Decoders} {rc : RelayChainInterface} {hash : H256} {status : QueueStatus}
    {config : HostConfiguration}
    (hstatus : readStorage rc hash queueStatus D.queueStatus = some (some status))
    (hconfig : readStorage rc hash activeConfig D.hostConfiguration = some (some config)) :
    getSpotPrice D rc hash = some (satMul status.traffic.inner config.onDemandBaseFee) := by
  simp only [getSpotPrice, hstatus, hconfig]

variable {A : Type}

/-- **When the bid is the relay chain's price.**  Where the queue status and the
configuration are there and decode, `get_spot_price` returns the relay chain's
own spot price, and every order submitted at that head bids it, if and only if
the traffic or the base fee is zero, or the price itself saturates. -/
theorem bid_is_relay_price_iff (S : Service A) (v : View A) (head : Head) {status : QueueStatus}
    {config : HostConfiguration}
    (hstatus : readStorage v.relayChain head.hash queueStatus S.decoders.queueStatus =
      some (some status))
    (hconfig : readStorage v.relayChain head.hash activeConfig S.decoders.hostConfiguration =
      some (some config)) :
    (getSpotPrice S.decoders v.relayChain head.hash = some (relaySpotPrice status config) ↔
      (status.traffic.inner.toNat * config.onDemandBaseFee.toNat = 0 ∨
        (2 ^ 128 - 1) * 10 ^ 18 ≤ status.traffic.inner.toNat * config.onDemandBaseFee.toNat)) ∧
    ∀ rpc record record' o, handleRelaychainStream S v rpc head record = .ok (record', some o) →
      (o.order.maxAmount = relaySpotPrice status config ↔
        (status.traffic.inner.toNat * config.onDemandBaseFee.toNat = 0 ∨
          (2 ^ 128 - 1) * 10 ^ 18 ≤ status.traffic.inner.toNat * config.onDemandBaseFee.toNat)) := by
  have hspot := getSpotPrice_eq hstatus hconfig
  have hprice := FixedU128.satMul_inner_eq_iff status.traffic config.onDemandBaseFee
  constructor
  · rw [hspot, ← hprice, Option.some.injEq]
    rfl
  · intro rpc record record' o ho
    obtain ⟨hready, helected, horder⟩ := handleRelaychainStream_submits ho
    have hbid : o.order.maxAmount = satMul status.traffic.inner config.onDemandBaseFee := by
      rw [(submitOrder_carries horder).maxAmount]
      refine Option.some.inj (Eq.trans ?_ hspot)
      rw [← helected.spotPrice, hready.sameHead]
    rw [hbid, ← hprice]
    rfl

/-- A node that reads this queue status and this configuration of the relay chain. -/
def pricedCollator (status : QueueStatus) (config : HostConfiguration) : Service Sr25519Public :=
  { collator [alice] with
    decoders :=
      { plainDecoders with
        queueStatus := fun _ => some status
        hostConfiguration := fun _ => some config } }

/-- Where the traffic has decayed to zero the relay chain asks for nothing, and where
it is the largest there is and the base fee `10^18` it asks for the largest amount there
is.  The orders submitted there bid that. -/
theorem bid_is_relay_price_extremes :
    (∃ record o, handleRelaychainStream (pricedCollator ⟨⟨0⟩⟩ ⟨2, 1000⟩) (plainView [alice] 2) plainRpc
        (headAt 8) .empty = .ok (record, some o) ∧
      o.order.maxAmount = relaySpotPrice ⟨⟨0⟩⟩ ⟨2, 1000⟩ ∧ o.order.maxAmount = 0) ∧
    ∃ record o, handleRelaychainStream
        (pricedCollator ⟨⟨.allOnes 128⟩⟩ ⟨2, 1000000000000000000⟩) (plainView [alice] 2) plainRpc
        (headAt 8) .empty = .ok (record, some o) ∧
      o.order.maxAmount = relaySpotPrice ⟨⟨.allOnes 128⟩⟩ ⟨2, 1000000000000000000⟩ ∧
      o.order.maxAmount = .allOnes 128 := by
  constructor
  · refine ⟨_, _, rfl, ?_, rfl⟩
    exact ((bid_is_relay_price_iff (pricedCollator ⟨⟨0⟩⟩ ⟨2, 1000⟩) (plainView [alice] 2) (headAt 8)
      (by decide) (by decide)).2 plainRpc .empty _ _ rfl).mpr (Or.inl rfl)
  · refine ⟨_, _, rfl, ?_, rfl⟩
    exact ((bid_is_relay_price_iff (pricedCollator ⟨⟨.allOnes 128⟩⟩ ⟨2, 1000000000000000000⟩)
      (plainView [alice] 2) (headAt 8) (by decide) (by decide)).2 plainRpc .empty _ _ rfl).mpr
      (Or.inr (by decide))

/-- **A bid a quintillion times the price.**  The traffic is 1 and the base fee
1000: the relay chain's price is 1000, and Alice's node bids `10^21`. -/
theorem bid_forgets_decimals :
    getSpotPrice plainDecoders (plainView [alice] 2).relayChain (headAt 8).hash =
      some 1000000000000000000000 ∧
    (∃ record, handleRelaychainStream (collator [alice]) (plainView [alice] 2) plainRpc (headAt 8)
      .empty = .ok (record, some aliceOrder)) ∧
    aliceOrder.order.maxAmount = 1000000000000000000000 ∧
    relaySpotPrice ⟨⟨1000000000000000000⟩⟩ ⟨2, 1000⟩ = 1000 := by
  refine ⟨by decide, ⟨_, rfl⟩, rfl, by decide⟩

end Amount

/-! ### The signer -/

section Signer

variable {A : Type}

/-- **When the elected placer signs.**  Let the node read an authority list and
a width, and go on to submit an order.  The key `order_placer` elects is the one
the keystore was asked for, and account and signature of the order are those of
that key if and only if it is the first AURA key of the keystore. -/
theorem signed_by_elected_iff (S : Service A) (v : View A) (rpc : RelayRpc) (head : Head)
    (record record' : OrderRecord) (o : Submission A)
    (hsubmit : handleRelaychainStream S v rpc head record = .ok (record', some o))
    {paraHead : H256} (hhead : S.decoders.paraHead head.parentHead = some paraHead)
    {authorities : List A} (hauth : v.api.authorities paraHead = .ok authorities) {width : UInt32}
    (hwidth : v.api.slotWidth paraHead = .ok width) {placer : A}
    (hplacer : orderPlacer S.checks authorities head.height width = .ok placer) :
    (o.placer = placer ∧ S.keystore.hasKeys [(S.toRawVec placer, aura)] = true) ∧
    ((o.order.accountId.toList = S.toRawVec placer ∧ o.order.signedBy.toList = S.toRawVec placer) ↔
      (S.keystore.sr25519PublicKeys aura).head?.map Bytes32.toList = some (S.toRawVec placer)) := by
  obtain ⟨hready, helected, horder⟩ := handleRelaychainStream_submits hsubmit
  have hchosen : o.placer = placer := by
    have helects := helected.elects hready hhead hauth hwidth
    rw [hplacer] at helects
    exact (Except.ok.inj helects).symm
  have hcarries := submitOrder_carries horder
  refine ⟨⟨hchosen, hchosen ▸ helected.hasKeys⟩, ?_⟩
  rw [hcarries.signedBy, hcarries.accountId, Option.map_some, Option.some.injEq, and_self]

/-- A node with one key signs with it. -/
theorem signed_by_elected_one_key :
    aliceOrder.order.accountId.toList = alice.toList ∧
      aliceOrder.order.signedBy.toList = alice.toList := by
  have hhead : (collator [alice]).decoders.paraHead (headAt 8).parentHead = some (.replicate 0) := by
    decide
  have hauth : (plainView [alice] 2).api.authorities (.replicate 0) = .ok [alice] := rfl
  have hwidth : (plainView [alice] 2).api.slotWidth (.replicate 0) = .ok 2 := rfl
  have hplacer : orderPlacer (collator [alice]).checks [alice] (headAt 8).height 2 = .ok alice := by
    decide
  exact (signed_by_elected_iff (collator [alice]) (plainView [alice] 2) plainRpc (headAt 8) .empty _
    aliceOrder (handleRelaychainStream_aliceOrder alice) hhead hauth hwidth hplacer).2.mpr (by decide)

/-- **Another key of the same keystore signs.**  Bob's key comes first in a
keystore with Alice's, Alice is elected at head 8, and the order is Bob's. -/
theorem first_key_signs :
    orderPlacer false [alice] 8 2 = .ok alice ∧
    (handleRelaychainStream (collator [bob, alice]) (plainView [alice] 2) plainRpc (headAt 8)
      .empty).map (fun r => r.2.map fun o => (o.placer, o.order.accountId, o.order.signedBy)) =
        .ok (some (alice, bob, bob)) := by
  refine ⟨by decide, ?_⟩
  rfl

end Signer

/-! ### The era -/

section Era

/-- The relay chain accepts the signature at block `n`: there the era counts
from the block it was made with. -/
def SignedOrder.ValidAt (order : SignedOrder) (n : UInt32) : Prop :=
  (Era.mortal order.mortality.toNat order.mortalFrom.number.toNat).birth n.toNat =
    order.mortalFrom.number.toNat

/-- The relay node answers the number of a block with the hash of that block. -/
structure RelayRpc.ServesNumbers (rpc : RelayRpc) : Prop where
  number : ∀ {n hash header}, rpc.blockHash n = .ok (some hash) → rpc.blockAt hash = .ok header →
    header.number = n

variable {checks : Bool} {rpc : RelayRpc} {paraId : ParaId} {h w : UInt32} {maxAmount : U128}
  {ks : Keystore} {order : SignedOrder}

/-- The era of an order starts with its slot and is asked to last as long. -/
theorem submitOrder_era (hrpc : rpc.ServesNumbers) (hw : w < 32)
    (horder : submitOrder checks rpc paraId h w maxAmount ks = .ok order) :
    order.mortalFrom.number.toNat = h.toNat / 2 ^ w.toNat * 2 ^ w.toNat ∧
      order.mortality.toNat = 2 ^ w.toNat := by
  have hcarries := submitOrder_carries horder
  obtain ⟨slot, first, hash, hslot, hfirst, hhash, hheader⟩ := hcarries.mortalFrom
  rw [currentSlot_eq hslot, shl_of_lt checks hw] at hfirst
  have hmortality := hcarries.mortality
  rw [shl_of_lt checks hw] at hmortality
  constructor
  · rw [hrpc.number hhash hheader, ← Option.some.inj hfirst, toNat_shiftRight_shiftLeft hw]
  · rw [← Option.some.inj hmortality, toNat_one_shiftLeft hw]

/-- Nothing of the first block of a slot is lost in the phase: a short period
has quantum 1, and a long one divides the number of the block. -/
theorem quantum_dvd_first (h w : ℕ) :
    Era.quantum (Era.periodOf (2 ^ w)) ∣ h / 2 ^ w * 2 ^ w % Era.periodOf (2 ^ w) := by
  rcases Nat.lt_or_ge w 2 with hw | hw
  · have hpow : 2 ^ w ≤ 2 ^ 1 := Nat.pow_le_pow_right (by omega) (by omega)
    have hquantum : Era.quantum (Era.periodOf (2 ^ w)) = 1 := by
      rw [Era.quantum, Era.periodOf_two_pow]
      omega
    rw [hquantum]
    exact Nat.one_dvd _
  · have hdvd : Era.periodOf (2 ^ w) ∣ h / 2 ^ w * 2 ^ w :=
      Nat.dvd_trans (Era.periodOf_two_pow_dvd hw) (Nat.dvd_mul_left _ _)
    rw [Nat.mod_eq_zero_of_dvd hdvd]
    exact Nat.dvd_zero _

/-- **At which blocks an order is valid**, from its head on. -/
theorem submitOrder_validAt_iff (hrpc : rpc.ServesNumbers) (hw : w < 32)
    (horder : submitOrder checks rpc paraId h w maxAmount ks = .ok order) {n : UInt32} (hn : h < n) :
    order.ValidAt n ↔
      n.toNat < h.toNat / 2 ^ w.toNat * 2 ^ w.toNat + Era.periodOf (2 ^ w.toNat) := by
  obtain ⟨hfrom, hmortality⟩ := submitOrder_era hrpc hw horder
  have hlt : h.toNat < n.toNat := UInt32.lt_iff_toNat_lt.mp hn
  have hfirst : h.toNat / 2 ^ w.toNat * 2 ^ w.toNat ≤ h.toNat := Nat.div_mul_le_self _ _
  rw [SignedOrder.ValidAt, hfrom, hmortality]
  exact Era.birth_mortal_eq_iff (quantum_dvd_first h.toNat w.toNat) (by omega)

/-- **At widths 0 and 1 an order outlives its slot**: the era lasts four blocks,
and the first block of the next slot is one of them. -/
theorem submitOrder_outlives_slot (hrpc : rpc.ServesNumbers) (hw : w.toNat < 2)
    (horder : submitOrder checks rpc paraId h w maxAmount ks = .ok order)
    (hlast : h >>> w ≠ 4294967295 >>> w) : ∃ n, h < n ∧ order.ValidAt n ∧ n >>> w ≠ h >>> w := by
  have hw' : w < 32 := UInt32.lt_iff_toNat_lt.mpr (Nat.lt_trans hw (by decide))
  have hmax : (4294967295 : UInt32).toNat = 4294967295 := rfl
  rw [ne_eq, shiftRight_eq_iff hw', hmax] at hlast
  have hpow : 2 ^ w.toNat ≤ 2 ^ 1 := Nat.pow_le_pow_right (by omega) (by omega)
  have hpos : 0 < 2 ^ w.toNat := Nat.two_pow_pos _
  have hh := h.toNat_lt
  have hle : h.toNat / 2 ^ w.toNat ≤ 4294967295 / 2 ^ w.toNat := Nat.div_le_div_right (by omega)
  have hnext : (h.toNat / 2 ^ w.toNat + 1) * 2 ^ w.toNat ≤ 4294967295 :=
    (Nat.le_div_iff_mul_le hpos).mp (by omega)
  rw [Nat.add_mul, Nat.one_mul] at hnext
  have hafter : h.toNat < h.toNat / 2 ^ w.toNat * 2 ^ w.toNat + 2 ^ w.toNat :=
    Nat.lt_div_mul_add hpos
  have hnat : (UInt32.ofNat (h.toNat / 2 ^ w.toNat * 2 ^ w.toNat + 2 ^ w.toNat)).toNat =
      h.toNat / 2 ^ w.toNat * 2 ^ w.toNat + 2 ^ w.toNat := by
    rw [UInt32.toNat_ofNat', Nat.mod_eq_of_lt (by omega)]
  generalize UInt32.ofNat (h.toNat / 2 ^ w.toNat * 2 ^ w.toNat + 2 ^ w.toNat) = n at hnat
  have hn : h < n := by
    rw [UInt32.lt_iff_toNat_lt, hnat]
    exact hafter
  refine ⟨n, hn, ?_, ?_⟩
  · rw [submitOrder_validAt_iff hrpc hw' horder hn, hnat, Era.periodOf_two_pow]
    omega
  · rw [ne_eq, shiftRight_eq_iff hw', hnat, Nat.add_div_right _ hpos, Nat.mul_div_cancel _ hpos]
    omega

/-- **From width 2 on an order dies with its slot.** -/
theorem submitOrder_dies_with_slot (hrpc : rpc.ServesNumbers) (hw : w < 32) (hwidth : 2 ≤ w)
    (horder : submitOrder checks rpc paraId h w maxAmount ks = .ok order) {n : UInt32} (hn : h < n)
    (hvalid : order.ValidAt n) : n >>> w = h >>> w := by
  have hlt : h.toNat < n.toNat := UInt32.lt_iff_toNat_lt.mp hn
  have hperiod : Era.periodOf (2 ^ w.toNat) ≤ 2 ^ w.toNat :=
    Nat.le_of_dvd (Nat.two_pow_pos _) (Era.periodOf_two_pow_dvd (UInt32.le_iff_toNat_le.mp hwidth))
  have hbound := (submitOrder_validAt_iff hrpc hw horder hn).mp hvalid
  rw [shiftRight_eq_iff hw]
  exact window_eq_of_lt hlt.le (by omega)

/-- Every block after one of the last slot is in the last slot. -/
theorem shiftRight_eq_of_last {h n w : UInt32} (hw : w < 32) (hn : h < n)
    (hlast : h >>> w = 4294967295 >>> w) : n >>> w = h >>> w := by
  have hlt : h.toNat < n.toNat := UInt32.lt_iff_toNat_lt.mp hn
  have hmax : (4294967295 : UInt32).toNat = 4294967295 := rfl
  have hn' := n.toNat_lt
  rw [shiftRight_eq_iff hw, hmax] at hlast
  rw [shiftRight_eq_iff hw]
  have hup : n.toNat / 2 ^ w.toNat ≤ 4294967295 / 2 ^ w.toNat := Nat.div_le_div_right (by omega)
  have hdown : h.toNat / 2 ^ w.toNat ≤ n.toNat / 2 ^ w.toNat := Nat.div_le_div_right hlt.le
  omega

/-- The pallet elects one placer for all heights of a slot. -/
theorem orderPlacerAt_congr {n : UInt32} (hslot : n >>> w = h >>> w) {T : Types} (C : Config T)
    {st : Storage T} (hst : st.slotWidth = w) : orderPlacerAt C st n = orderPlacerAt C st h := by
  have hshr : shr C.overflowChecks n w = shr C.overflowChecks h w := by
    rw [shr, shr, hslot]
  simp only [orderPlacerAt, slotAt, hst, hshr]

/-- **When an order can only be included in its slot.**  For every height and
every width below 32, every later relay block at which the extrinsic that
`submit_order` signs is valid lies in the slot of the height, so that the pallet
elects the placer of the height there, if and only if the width is at least 2 or
the slot is the last one of the block numbers. -/
theorem included_in_slot_iff (hrpc : rpc.ServesNumbers) (hw : w < 32)
    (horder : submitOrder checks rpc paraId h w maxAmount ks = .ok order) :
    (∀ n, h < n → order.ValidAt n → n >>> w = h >>> w ∧
      ∀ (T : Types) (C : Config T) (st : Storage T), st.slotWidth = w →
        orderPlacerAt C st n = orderPlacerAt C st h) ↔
    (2 ≤ w ∨ h >>> w = 4294967295 >>> w) := by
  constructor
  · intro hall
    by_contra hcond
    obtain ⟨hwidth, hlast⟩ := not_or.mp hcond
    have hwidth : w.toNat < 2 := UInt32.lt_iff_toNat_lt.mp (UInt32.not_le.mp hwidth)
    obtain ⟨n, hn, hvalid, hout⟩ := submitOrder_outlives_slot hrpc hwidth horder hlast
    exact hout (hall n hn hvalid).1
  · intro hcond n hn hvalid
    have hslot : n >>> w = h >>> w := by
      rcases hcond with hwidth | hlast
      · exact submitOrder_dies_with_slot hrpc hw hwidth horder hn hvalid
      · exact shiftRight_eq_of_last hw hn hlast
    exact ⟨hslot, fun T C st hst => orderPlacerAt_congr hslot C hst⟩

/-- A relay node that knows one block only. -/
def oneBlockRpc (number : UInt8) : RelayRpc where
  connects := true
  blockHash n := .ok (if n = number.toUInt32 then some (.replicate number) else none)
  blockAt _ := .ok ⟨number.toUInt32, .replicate number, .replicate number⟩
  servesNonce _ := true
  accepts _ := true

theorem oneBlockRpc_servesNumbers (number : UInt8) : (oneBlockRpc number).ServesNumbers := by
  constructor
  intro n hash header hhash hheader
  simp only [oneBlockRpc, Except.ok.injEq, Option.ite_none_right_eq_some] at hhash hheader
  rw [hhash.1, ← hheader]

/-- The order of Alice's node at a height of the slot that starts at block 8. -/
def eraOrder (mortality : UInt32) : SignedOrder :=
  ⟨1000, 2000, alice, alice, ⟨8, .replicate 8, .replicate 8⟩, mortality⟩

/-- At width 2 the order of height 9 is valid at block 11, which is in its
slot. -/
theorem included_in_slot_width_two :
    submitOrder false (oneBlockRpc 8) 2000 9 2 1000 (collator [alice]).keystore = .ok (eraOrder 4) ∧
    (eraOrder 4).ValidAt 11 ∧ (11 : UInt32) >>> 2 = (9 : UInt32) >>> 2 := by
  have horder : submitOrder false (oneBlockRpc 8) 2000 9 2 1000 (collator [alice]).keystore =
      .ok (eraOrder 4) := by decide
  have hvalid : (eraOrder 4).ValidAt 11 := by
    rw [submitOrder_validAt_iff (oneBlockRpc_servesNumbers 8) (by decide) horder (by decide),
      Era.periodOf_two_pow]
    decide
  refine ⟨horder, hvalid, ?_⟩
  exact ((included_in_slot_iff (oneBlockRpc_servesNumbers 8) (by decide) horder).mpr
    (Or.inl (by decide)) 11 (by decide) hvalid).1

/-- **A short slot leaks its order into the next one.**  At width 1 slot 4 has
the blocks 8 and 9; the order of height 8 is still valid at block 10 of slot 5,
where the pallet elects the next authority. -/
theorem short_slot_order_leaks :
    submitOrder false (oneBlockRpc 8) 2000 8 1 1000 (collator [alice]).keystore = .ok (eraOrder 2) ∧
    (eraOrder 2).ValidAt 10 ∧ (10 : UInt32) >>> 1 ≠ (8 : UInt32) >>> 1 ∧
    electedPlacer (T := runtimeTypes Unit) ⟨[alice, bob], 1, 0, none, 0⟩ 8 = some alice ∧
    electedPlacer (T := runtimeTypes Unit) ⟨[alice, bob], 1, 0, none, 0⟩ 10 = some bob := by
  have horder : submitOrder false (oneBlockRpc 8) 2000 8 1 1000 (collator [alice]).keystore =
      .ok (eraOrder 2) := by decide
  refine ⟨horder, ?_, by decide, by decide, by decide⟩
  rw [submitOrder_validAt_iff (oneBlockRpc_servesNumbers 8) (by decide) horder (by decide),
    Era.periodOf_two_pow]
  decide

end Era

end OnDemand
