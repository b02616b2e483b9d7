/-
# The namespaces of the storage keys

Each builder of `primitives/order/src/well_known_keys.rs` is meant for one map of
the relay chain's state: `account` for `System.Account`, `session_key_owner` for
`Session.KeyOwner`, `core_descriptor` for the core descriptors and
`para_lifecycle` for `Paras.ParaLifecycles`.  `StorageItem.layout` is how the
relay chain lays these maps out, with the prefixes the module declares, and
`BuilderCall.key` is what the builders return.

`session_key_owner` chains `PARAS_PARA_LIFECYCLES` and leaves
`SESSION_KEY_OWNER`, declared above it, unused.  So its keys are the keys
`Paras.ParaLifecycles` would have for key owners (`key_eq`), and
`keys_in_own_namespace_iff` says what that leaves: every other builder's key is
in its own map, and two different builders share a prefix exactly when they are
these two.  The concat builders are injective all the same.
-/

import OnDemand.Base.MapLayout
import OnDemand.Primitives.WellKnownKeys
import Mathlib.Algebra.Order.Ring.Nat
import Mathlib.Data.Nat.Log

namespace OnDemand

/-! ### The encodings are injective -/

theorem toNat_toUInt8_shiftRight (n : UInt32) {k : UInt32} (hk : k < 32) :
    (n >>> k).toUInt8.toNat = n.toNat / 2 ^ k.toNat % 256 := by
  rw [UInt32.toNat_toUInt8, Word.toNat_shiftRight hk]

theorem encodeU32_injective : Function.Injective encodeU32 := by
  intro n m h
  obtain ⟨h₀, h₁, h₂, h₃⟩ : n.toUInt8 = m.toUInt8 ∧ (n >>> 8).toUInt8 = (m >>> 8).toUInt8 ∧
      (n >>> 16).toUInt8 = (m >>> 16).toUInt8 ∧ (n >>> 24).toUInt8 = (m >>> 24).toUInt8 := by
    simpa [encodeU32] using h
  have hn : n.toNat < 2 ^ 32 := n.toNat_lt
  have hm : m.toNat < 2 ^ 32 := m.toNat_lt
  rw [← UInt8.toNat_inj, UInt32.toNat_toUInt8, UInt32.toNat_toUInt8] at h₀
  rw [← UInt8.toNat_inj, toNat_toUInt8_shiftRight n (by decide),
    toNat_toUInt8_shiftRight m (by decide)] at h₁ h₂ h₃
  simp only [UInt32.reduceToNat] at h₁ h₂ h₃
  refine UInt32.toNat_inj.mp ?_
  omega

theorem length_littleEndian (k n : ℕ) : (littleEndian k n).length = k := by
  induction k generalizing n with
  | zero => rfl
  | succ k ih => rw [littleEndian, List.length_cons, ih]

/-- A larger number takes at least as many bytes. -/
theorem length_encodeCompact_mono {n m : ℕ} (h : n ≤ m) :
    (encodeCompact n).length ≤ (encodeCompact m).length := by
  have hlog : Nat.log2 n ≤ Nat.log2 m := by
    rw [Nat.log2_eq_log_two, Nat.log2_eq_log_two]
    exact Nat.log_mono_right h
  unfold encodeCompact
  split_ifs <;> simp only [List.length_cons, length_littleEndian] <;> omega

/-- A vector after its compact length can be read back: the whole grows with the
vector, so equal encodings have equal lengths. -/
theorem encodeKeyOwner_injective {k k' : KeyTypeId} {acc acc' : List UInt8}
    (h : encodeKeyOwner k acc = encodeKeyOwner k' acc') : k = k' ∧ acc = acc' := by
  obtain ⟨hkey, htail⟩ := List.append_inj h rfl
  have hlength : acc.length = acc'.length := by
    have hsum := congrArg List.length htail
    rw [List.length_append, List.length_append] at hsum
    rcases Nat.le_total acc.length acc'.length with hle | hle
    · have hcompact := length_encodeCompact_mono hle
      omega
    · have hcompact := length_encodeCompact_mono hle
      omega
  rw [hlength] at htail
  refine ⟨?_, List.append_cancel_left htail⟩
  cases k
  cases k'
  simpa using hkey

/-! ### The maps -/

/-- The maps of the relay chain that the builders are for. -/
inductive StorageItem where
  | account
  | keyOwner
  | coreDescriptor
  | paraLifecycle
  deriving DecidableEq

/-- The prefix of a map. -/
def StorageItem.head : StorageItem → List UInt8
  | .account => systemAccount
  | .keyOwner => sessionKeyOwnerPrefix
  | .coreDescriptor => coreDescriptors
  | .paraLifecycle => parasParaLifecycles

/-- Different maps have different prefixes. -/
theorem StorageItem.head_inj {i j : StorageItem} : i.head = j.head ↔ i = j := by
  cases i <;> cases j <;> decide

theorem StorageItem.length_head (i : StorageItem) : i.head.length = 32 := by
  cases i <;> rfl

/-- How the relay chain lays a map out. -/
def StorageItem.layout (H : Hashing) (i : StorageItem) : MapLayout UInt8 32 :=
  match i with
  | .account => ⟨head .account, length_head _, H.blake2_128, 16, H.length_blake2_128, true⟩
  | .keyOwner => ⟨head .keyOwner, length_head _, H.twox_64, 8, H.length_twox_64, true⟩
  | .coreDescriptor =>
      ⟨head .coreDescriptor, length_head _, H.twox_256, 32, H.length_twox_256, false⟩
  | .paraLifecycle => ⟨head .paraLifecycle, length_head _, H.twox_64, 8, H.length_twox_64, true⟩

theorem StorageItem.take_key (H : Hashing) (i : StorageItem) (x : List UInt8) :
    ((i.layout H).key x).take 32 = i.head := by
  rw [MapLayout.take_key]
  cases i <;> rfl

/-! ### The builders -/

section Builders

variable {A : Type*}

/-- A call of one of the four builders. -/
inductive BuilderCall (A : Type*) where
  | account (acc : A)
  | sessionKeyOwner (keyType : KeyTypeId) (acc : List UInt8)
  | coreDescriptor (coreIndex : UInt32)
  | paraLifecycle (paraId : ParaId)

/-- The key the call returns. -/
def BuilderCall.key (H : Hashing) (encode : A → List UInt8) : BuilderCall A → List UInt8
  | .account acc => OnDemand.account H encode acc
  | .sessionKeyOwner keyType acc => OnDemand.sessionKeyOwner H keyType acc
  | .coreDescriptor coreIndex => OnDemand.coreDescriptor H coreIndex
  | .paraLifecycle paraId => OnDemand.paraLifecycle H paraId

/-- The SCALE encoding of its argument. -/
def BuilderCall.encoded (encode : A → List UInt8) : BuilderCall A → List UInt8
  | .account acc => encode acc
  | .sessionKeyOwner keyType acc => encodeKeyOwner keyType acc
  | .coreDescriptor coreIndex => encodeU32 coreIndex
  | .paraLifecycle paraId => encodeU32 paraId

/-- The map the builder is for. -/
def BuilderCall.item : BuilderCall A → StorageItem
  | .account _ => .account
  | .sessionKeyOwner _ _ => .keyOwner
  | .coreDescriptor _ => .coreDescriptor
  | .paraLifecycle _ => .paraLifecycle

/-- The map whose prefix the builder for a map chains. -/
def StorageItem.chained : StorageItem → StorageItem
  | .keyOwner => .paraLifecycle
  | item => item

theorem StorageItem.chained_eq_self_iff {i : StorageItem} : i.chained = i ↔ i ≠ .keyOwner := by
  cases i <;> decide

/-- Two builders chain one prefix exactly when they are these two. -/
theorem StorageItem.chained_eq_iff {i j : StorageItem} (hne : i ≠ j) : i.chained = j.chained ↔
    i = .keyOwner ∧ j = .paraLifecycle ∨ i = .paraLifecycle ∧ j = .keyOwner := by
  revert hne
  cases i <;> cases j <;> decide

theorem StorageItem.concat_chained {H : Hashing} {i : StorageItem} (hcore : i ≠ .coreDescriptor) :
    (i.chained.layout H).concat = true := by
  cases i with
  | coreDescriptor => exact absurd rfl hcore
  | account | keyOwner | paraLifecycle => rfl

/-- **Every builder lays its key out as the map it chains does.** -/
theorem BuilderCall.key_eq (H : Hashing) (encode : A → List UInt8) (c : BuilderCall A) :
    c.key H encode = (c.item.chained.layout H).key (c.encoded encode) := by
  cases c with
  | account acc => rfl
  | sessionKeyOwner keyType acc => rfl
  | coreDescriptor coreIndex =>
      exact congrArg (coreDescriptors ++ ·) (List.append_nil _).symm
  | paraLifecycle paraId => rfl

theorem BuilderCall.take_key (H : Hashing) (encode : A → List UInt8) (c : BuilderCall A) :
    (c.key H encode).take 32 = c.item.chained.head := by
  rw [c.key_eq]
  exact StorageItem.take_key H _ _

/-- The argument can be read off its encoding, once the builder is known. -/
theorem BuilderCall.encoded_inj {encode : A → List UInt8} (hencode : Function.Injective encode)
    {c c' : BuilderCall A} (hitem : c.item = c'.item) (h : c.encoded encode = c'.encoded encode) :
    c = c' := by
  cases c with
  | account acc =>
      cases c' <;> cases hitem
      exact congrArg _ (hencode h)
  | sessionKeyOwner keyType acc =>
      cases c' <;> cases hitem
      obtain ⟨rfl, rfl⟩ := encodeKeyOwner_injective h
      rfl
  | coreDescriptor coreIndex =>
      cases c' <;> cases hitem
      exact congrArg _ (encodeU32_injective h)
  | paraLifecycle paraId =>
      cases c' <;> cases hitem
      exact congrArg _ (encodeU32_injective h)

/-- **Which keys are in their own namespace.**  A key is the prefix of its
builder's map, the hash of the encoded argument and, for the concat hashers, the
encoding, exactly when the builder is not `session_key_owner`.  Keys of two
different builders differ in their prefixes exactly when the two are not
`session_key_owner` and `para_lifecycle`.  The three concat builders are
injective. -/
theorem keys_in_own_namespace_iff (H : Hashing) (encode : A → List UInt8)
    (hencode : Function.Injective encode) :
    (∀ c : BuilderCall A,
      c.key H encode = (c.item.layout H).key (c.encoded encode) ↔ c.item ≠ .keyOwner) ∧
    (∀ c c' : BuilderCall A, c.item ≠ c'.item →
      ((c.key H encode).take 32 ≠ (c'.key H encode).take 32 ↔
        ¬(c.item = .keyOwner ∧ c'.item = .paraLifecycle ∨
          c.item = .paraLifecycle ∧ c'.item = .keyOwner))) ∧
    (∀ c c' : BuilderCall A, c.item = c'.item → c.item ≠ .coreDescriptor →
      c.key H encode = c'.key H encode → c = c') := by
  refine ⟨?_, ?_, ?_⟩
  · intro c
    constructor
    · intro h
      have htake : (c.key H encode).take 32 = c.item.head := by
        rw [h]
        exact StorageItem.take_key H _ _
      rw [c.take_key, StorageItem.head_inj] at htake
      exact StorageItem.chained_eq_self_iff.mp htake
    · intro hitem
      rw [c.key_eq, StorageItem.chained_eq_self_iff.mpr hitem]
  · intro c c' hne
    rw [c.take_key, c'.take_key, Ne, StorageItem.head_inj, StorageItem.chained_eq_iff hne]
  · intro c c' hitem hcore hkey
    refine BuilderCall.encoded_inj hencode hitem ?_
    rw [c.key_eq, c'.key_eq, ← hitem] at hkey
    exact MapLayout.key_injective (StorageItem.concat_chained hcore) hkey

end Builders

/-- With accounts of 32 bytes: a core descriptor is in its own namespace and
apart from a key owner, and two lifecycle keys differ. -/
theorem keys_in_own_namespace_plain :
    coreDescriptor plainHashing 7 =
      coreDescriptors ++ (plainHashing.twox_256 (encodeU32 7) ++ []) ∧
    (coreDescriptor plainHashing 7).take 32 ≠
      (sessionKeyOwner plainHashing aura (List.replicate 32 1)).take 32 ∧
    paraLifecycle plainHashing 2000 ≠ paraLifecycle plainHashing 2001 := by
  have hinj : Function.Injective Bytes32.toList := by
    rintro ⟨a, ha⟩ ⟨b, hb⟩ rfl
    rfl
  have h := keys_in_own_namespace_iff plainHashing Bytes32.toList hinj
  refine ⟨(h.1 (.coreDescriptor 7)).mpr (by decide), ?_, ?_⟩
  · exact (h.2.1 (.coreDescriptor 7) (.sessionKeyOwner aura (List.replicate 32 1))
      (by decide)).mpr (by decide)
  · intro hkey
    have hcall := h.2.2 (.paraLifecycle 2000) (.paraLifecycle 2001) rfl (by decide) hkey
    exact absurd (BuilderCall.paraLifecycle.inj hcall) (by decide)

/-- **The key of a session key's owner is looked up among the lifecycles.**  It
does not begin with `SESSION_KEY_OWNER`, and it shares its prefix with the
lifecycle of para 2000. -/
theorem session_key_owner_among_lifecycles :
    (sessionKeyOwner plainHashing aura (List.replicate 32 1)).take 32 ≠ sessionKeyOwnerPrefix ∧
    (sessionKeyOwner plainHashing aura (List.replicate 32 1)).take 32 =
      (paraLifecycle plainHashing 2000).take 32 :=
  ⟨by decide, by decide⟩

end OnDemand
