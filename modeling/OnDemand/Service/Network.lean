/-
# The collators of a network

Any number of nodes side by side, each with its own record, keystore and view
of the relay chain (`Transducer.interleave` of `node`).  Nothing passes between
them; that two nodes never order for the same slot rests on two facts.  Within
one node `last_slot` is a ratchet (`node_ratchet`).  Between nodes the round
robin elects one key for a slot (`orderPlacer_unique`), and that key is in one
keystore.

Heads come to each node in any order: a head may repeat, the chain may
reorganise to lower heights, heights may be skipped.
-/

import OnDemand.Service.Node

namespace OnDemand

open Word

variable {A κ : Type}

/-- **The round robin elects one key for a slot**, whichever builds of the
service compute it and for whichever heights of the slot. -/
theorem orderPlacer_unique {checks checks' : Bool} {authorities : List A}
    {h h' w slot : UInt32} {placer placer' : A}
    (hs : currentSlot checks h w = .ok slot) (hs' : currentSlot checks' h' w = .ok slot)
    (hp : orderPlacer checks authorities h w = .ok placer)
    (hp' : orderPlacer checks' authorities h' w = .ok placer') :
    placer = placer' ∧ placer ∈ authorities := by
  have hsame : slotOf h w = slotOf h' w := by
    rw [slotOf, slotOf, ← currentSlot_eq hs, ← currentSlot_eq hs']
  have hp := orderPlacer_eq hp
  have hp' := orderPlacer_eq hp'
  rw [hsame, hp'] at hp
  exact ⟨(Option.some.inj hp).symm, Option.some.inj hp ▸ List.mem_of_getElem? hp'⟩

/-- **At most one order for a slot across the network.**  When every authority
key is in at most one node's keystore, and the nodes that can read a width and
an authority list all read the same ones, no slot number is submitted for
twice, over any interleaving of the nodes' steps. -/
theorem one_order_per_slot [DecidableEq κ] (S : κ → Service A) (chain : κ → H256 → List RelayEvent)
    (authorities : List A) (width : UInt32)
    (hkeys : ∀ a ∈ authorities, ∀ k l, (S k).keystore.hasKeys [((S k).toRawVec a, aura)] = true →
      (S l).keystore.hasKeys [((S l).toRawVec a, aura)] = true → k = l)
    (steps : List (κ × Action A))
    (hreads : ∀ x ∈ steps, x.2.Reads (· = width) (· = authorities)) :
    (((Transducer.interleave fun k => node (S k) (chain k)).outputs (fun _ => Node.start) steps).map
      fun x => x.2.slot).Nodup := by
  have hinv : ∀ k, FollowerInv (S k) (· = width) (· = authorities) Node.start :=
    fun k => FollowerInv.start _ _ _
  have hpair := Transducer.interleave_pairwise (fun k => node (S k) (chain k)) (fun _ => Node.start)
    steps (R := fun a b : Submission A => a.slot ≠ b.slot)
    (Q := fun k o => o.request.attempt.InSlot (S k) (· = width) ∧
      o.request.Chosen (S k) (· = authorities)) ?_ ?_ ?_
  · exact List.pairwise_map.mpr hpair
  · intro k ys hys
    refine ((node_ratchet (S k) (chain k) _ _).pairwise (hinv k) ?_).imp fun h => h.ne
    exact fun y hy => hreads (k, y) (hys y hy)
  · intro k ys hys
    exact mem_submissions (hinv k) fun y hy => hreads (k, y) (hys y hy)
  · rintro k l o o' hkl ⟨⟨hslot, hw⟩, hhas, l₁, rfl, hplacer⟩
      ⟨⟨hslot', hw'⟩, hhas', l₂, rfl, hplacer'⟩ hsame
    have hsame' : o.request.attempt.currentSlot = o'.request.attempt.currentSlot :=
      UInt32.toNat_inj.mp hsame
    rw [hw] at hslot hplacer
    rw [hw', ← hsame'] at hslot'
    rw [hw'] at hplacer'
    obtain ⟨heq, hmem⟩ := orderPlacer_unique hslot hslot' hplacer hplacer'
    rw [← heq] at hhas'
    exact hkl (hkeys _ hmem k l hhas hhas')

/-! ### A network to run -/

/-- Decoders for the storage of `plainStorage`. -/
def plainDecoders : Decoders where
  hashing := plainHashing
  paraHead := sr25519FromSlice
  paraLifecycle raw := if raw = [1] then some .parathread else none
  coreDescriptor _ := none
  queueStatus raw := if raw = [2] then some ⟨⟨1000000000000000000⟩⟩ else none
  hostConfiguration raw := if raw = [3] then some ⟨2, 1000⟩ else none

/-- A relay chain on which para 2000 is a parathread and no core has work. -/
def plainStorage (key : List UInt8) : Option (List UInt8) :=
  if key = paraLifecycle plainHashing 2000 then some [1]
  else if key = queueStatus then some [2]
  else if key = activeConfig then some [3]
  else none

/-- A view of that relay chain, and of a parachain out of bulk mode whose
criterion holds. -/
def plainView (authorities : List Sr25519Public) (width : UInt32) : View Sr25519Public where
  relayChain :=
    ⟨fun _ => .error .failed, fun _ _ => .error .failed, fun _ key => .ok (plainStorage key)⟩
  api := ⟨fun _ => .ok false, fun _ => .ok width, fun _ => .ok authorities⟩
  shouldPlaceOrder _ := true

/-- A relay node that takes every order; block `n` has a hash of bytes `n`. -/
def plainRpc : RelayRpc where
  connects := true
  blockHash n := .ok (some (.replicate n.toUInt8))
  blockAt hash := .ok ⟨(hash.toList.headD 0).toUInt32, hash, hash⟩
  servesNonce _ := true
  accepts _ := true

/-- The service of a collator of para 2000 with the given AURA keys. -/
def collator (keys : List Sr25519Public) : Service Sr25519Public where
  checks := false
  paraId := 2000
  keystore :=
    { rawPublicKeys := fun keyType => if keyType = aura then keys.map Bytes32.toList else []
      signs := fun _ _ => true }
  decoders := plainDecoders
  toRawVec := Bytes32.toList

/-- The best head at a height. -/
def headAt (height : UInt8) : Head where
  height := height.toUInt32
  parentHead := (Bytes32.replicate 0).toList
  hash := .replicate height

/-- One uninterrupted call of the follower. -/
def followerCall (v : View Sr25519Public) (height : UInt8) : List (Action Sr25519Public) :=
  Action.call v (headAt height) plainRpc

/-- Such a call reads the view's width and authority list. -/
theorem followerCall_reads {authorities : List Sr25519Public} {width : UInt32} {height : UInt8} :
    ∀ act ∈ followerCall (plainView authorities width) height,
      act.Reads (· = width) (· = authorities) := by
  simp [followerCall, Action.call, Action.Reads, plainView]

/-- Alice's node and Bob's node both see heads 4 and 6 at width 1, Alice's one
step behind. -/
def aliceAndBob : List (Bool × Action Sr25519Public) :=
  let v := plainView [alice, bob] 1
  (followerCall v 4 ++ followerCall v 6).flatMap fun act => [(false, act), (true, act)]

/-- Alice submits for slot 2 and Bob for slot 3. -/
theorem one_order_per_slot_alice_and_bob :
    (((Transducer.interleave fun k => node (collator [if k then alice else bob]) fun _ => []).outputs
      (fun _ => Node.start) aliceAndBob).map fun x => (x.1, x.2.slot)) = [(true, 2), (false, 3)] ∧
    (((Transducer.interleave fun k => node (collator [if k then alice else bob]) fun _ => []).outputs
      (fun _ => Node.start) aliceAndBob).map fun x => x.2.slot).Nodup := by
  refine ⟨by decide, one_order_per_slot _ _ [alice, bob] 1 (by decide) aliceAndBob ?_⟩
  intro x hx
  obtain ⟨act, hact, hx⟩ := List.mem_flatMap.mp hx
  have hsame : x.2 = act := by
    rcases List.mem_pair.mp hx with rfl | rfl <;> rfl
  rw [hsame]
  rcases List.mem_append.mp hact with h | h
  · exact followerCall_reads act h
  · exact followerCall_reads act h

end OnDemand
