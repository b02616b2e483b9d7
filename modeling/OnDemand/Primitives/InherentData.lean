/-
# The inherent data of a block

The order inherent goes from the node to the runtime through the block's
`sp_inherents::InherentData`: the provider (`provide_inherent_data`,
`primitives/order/src/inherent.rs`) puts it there encoded, and the pallet's
`create_inherent` decodes it.

Both `sp_inherents` and the codec behind `#[derive(Encode, Decode)]` are third party.
`Inherents` is what is used of the former, at the codec of any type, and
`Inherents.Lawful` what is relied on: what was put under an identifier is read back
there, and replacing the data of one identifier leaves the others' alone.  Of the
codec of `OrderInherentData` it is that well formed data is read back as it was
written, whatever follows (`Codec.Faithful`).

`plainInherents` and `orderInherentDataCodec` meet both.  The codec is the one the
derive gives the types of `primitives/order/src/lib.rs`: the fields in order, an option
behind a byte, a collection behind its compact length, and a storage proof, a
`BTreeSet` of trie nodes, written in order.
-/

import OnDemand.Base.Codec
import OnDemand.Primitives.KeyNamespaces
import Mathlib.Data.List.Lex

namespace OnDemand

/-! ### Well formed data -/

/-- The order of `Vec<u8>`: lexicographic. -/
def nodeKey (node : List UInt8) : List ℕ := node.map UInt8.toNat

/-- A vector of a length a compact `u32` can hold. -/
def FitsVec (bytes : List UInt8) : Prop := bytes.length < 2 ^ 32

/-- A set of trie nodes: in order, each once, and of lengths that can be
written. -/
structure StorageProof.WellFormed (proof : StorageProof) : Prop where
  sorted : StrictlySorted nodeKey proof.trieNodes
  count : proof.trieNodes.length < 2 ^ 32
  nodes : ∀ node ∈ proof.trieNodes, FitsVec node

/-- The proof the inherent carries, if it carries data, is well formed. -/
def OrderInherentData.WellFormed (d : OrderInherentData) : Prop :=
  ∀ data, d.data = some data → data.relayStorageProof.WellFormed

/-! ### `sp_inherents` -/

/-- `sp_inherents::Error`. -/
inductive InherentError where
  | inherentDataExists (identifier : List UInt8)
  | decodingFailed (identifier : List UInt8)
  deriving DecidableEq

/-- What is used of `sp_inherents::InherentData`, each at the codec of what is put
or read. -/
structure Inherents where
  Data : Type
  new : Data
  putData : {α : Type} → Codec UInt8 α → Data → List UInt8 → α → Except InherentError Data
  getData : {α : Type} → Codec UInt8 α → Data → List UInt8 → Except InherentError (Option α)
  replaceData : {α : Type} → Codec UInt8 α → Data → List UInt8 → α → Data

/-- What is relied on of `sp_inherents`. -/
structure Inherents.Lawful (I : Inherents) : Prop where
  /-- What was put there is read back, if its codec reads it back. -/
  getData_putData : ∀ {α : Type} {c : Codec UInt8 α} {P : α → Prop}, c.Faithful P →
    ∀ {data data' : I.Data} {identifier : List UInt8} {a : α}, P a →
      I.putData c data identifier a = .ok data' → I.getData c data' identifier = .ok (some a)
  /-- Other identifiers keep their data. -/
  getData_replaceData : ∀ {α β : Type} (c : Codec UInt8 α) (d : Codec UInt8 β) (data : I.Data)
    {identifier identifier' : List UInt8} (b : β), identifier' ≠ identifier →
      I.getData c (I.replaceData d data identifier b) identifier' = I.getData c data identifier'

/-- `ON_DEMAND_INHERENT_IDENTIFIER`, the bytes of `"orderiht"`. -/
def onDemandInherentIdentifier : List UInt8 := [0x6f, 0x72, 0x64, 0x65, 0x72, 0x69, 0x68, 0x74]

/-- `provide_inherent_data`. -/
def provideInherentData (I : Inherents) (c : Codec UInt8 OrderInherentData) (d : OrderInherentData)
    (data : I.Data) : Except InherentError I.Data :=
  I.putData c data onDemandInherentIdentifier d

/-! ### Numbers -/

/-- The number little-endian bytes stand for. -/
def fromLittleEndian : List UInt8 → ℕ
  | [] => 0
  | b :: bs => b.toNat + 256 * fromLittleEndian bs

theorem fromLittleEndian_littleEndian {k n : ℕ} (hn : n < 256 ^ k) :
    fromLittleEndian (littleEndian k n) = n := by
  induction k generalizing n with
  | zero =>
      rw [pow_zero] at hn
      rw [littleEndian, fromLittleEndian]
      omega
  | succ k ih =>
      have hdiv : n / 256 < 256 ^ k := by
        rw [Nat.div_lt_iff_lt_mul (by omega)]
        rwa [pow_succ] at hn
      rw [littleEndian, fromLittleEndian, ih hdiv, UInt8.toNat_ofNat']
      omega

/-- A byte. -/
def u8Codec : Codec UInt8 UInt8 where
  encode b := [b]
  decode
    | [] => none
    | b :: rest => some (b, rest)

theorem u8Codec_faithful : u8Codec.Faithful fun _ => True := fun _ _ _ => rfl

/-- A number of bytes, without their length. -/
def bytesCodec (k : ℕ) : Codec UInt8 (List UInt8) where
  encode bytes := bytes
  decode := u8Codec.decodeN k

theorem u8_encode (bytes : List UInt8) : bytes.flatMap u8Codec.encode = bytes := by
  induction bytes with
  | nil => rfl
  | cons b bytes ih => rw [List.flatMap_cons, ih]; rfl

theorem bytesCodec_faithful (k : ℕ) : (bytesCodec k).Faithful fun bytes => bytes.length = k := by
  rintro bytes rfl rest
  have h : u8Codec.decodeN bytes.length (bytes.flatMap u8Codec.encode ++ rest) = some (bytes, rest) :=
    u8Codec_faithful.decodeN (fun _ _ => trivial) rest
  rwa [u8_encode] at h

theorem bytesCodec_append {k : ℕ} {bytes : List UInt8} (h : bytes.length = k) (rest : List UInt8) :
    (bytesCodec k).decode (bytes ++ rest) = some (bytes, rest) :=
  bytesCodec_faithful k bytes h rest

/-- A `u32`. -/
def u32Codec : Codec UInt8 UInt32 :=
  (bytesCodec 4).map encodeU32 fun bytes => UInt32.ofNat (fromLittleEndian bytes)

theorem encodeU32_eq (n : UInt32) : encodeU32 n = littleEndian 4 n.toNat := by
  have hbyte : ∀ m : UInt32, m.toUInt8 = UInt8.ofNat m.toNat := fun m => rfl
  have h₁ := Word.toNat_shiftRight (a := n) (b := 8) (by decide)
  have h₂ := Word.toNat_shiftRight (a := n) (b := 16) (by decide)
  have h₃ := Word.toNat_shiftRight (a := n) (b := 24) (by decide)
  simp only [encodeU32, littleEndian, hbyte, h₁, h₂, h₃, Nat.div_div_eq_div_mul]
  rfl

theorem u32Codec_faithful : u32Codec.Faithful fun _ => True := by
  refine (bytesCodec_faithful 4).map (fun n _ => rfl) fun n _ => ?_
  rw [encodeU32_eq, fromLittleEndian_littleEndian n.toNat_lt, UInt32.ofNat_toNat]

/-- A `u64`. -/
def u64Codec : Codec UInt8 UInt64 :=
  (bytesCodec 8).map (fun n => littleEndian 8 n.toNat) fun bytes =>
    UInt64.ofNat (fromLittleEndian bytes)

/-- An `H256`.  The reader never gives another number of bytes than 32. -/
def h256Codec : Codec UInt8 H256 :=
  (bytesCodec 32).map Bytes32.toList fun bytes =>
    if h : bytes.length = 32 then ⟨bytes, h⟩ else .replicate 0

theorem h256Codec_faithful : h256Codec.Faithful fun _ => True := by
  refine (bytesCodec_faithful 32).map (fun hash _ => hash.length_toList) fun hash _ => ?_
  rw [dif_pos hash.length_toList]

/-! ### Compact numbers -/

/-- The rest of a number whose two low bits are a tag: `k` more bytes, and a number
that would have fitted in fewer is refused. -/
def compactTail (b : UInt8) (k low : ℕ) (input : List UInt8) : Option (ℕ × List UInt8) :=
  match (bytesCodec k).decode input with
  | none => none
  | some (bytes, rest) =>
      let n := fromLittleEndian (b :: bytes) / 4
      if low ≤ n then some (n, rest) else none

/-- `Compact<u32>`. -/
def compactCodec : Codec UInt8 ℕ where
  encode := encodeCompact
  decode
    | [] => none
    | b :: input =>
        if b.toNat % 4 = 0 then some (b.toNat / 4, input)
        else if b.toNat % 4 = 1 then compactTail b 1 (2 ^ 6) input
        else if b.toNat % 4 = 2 then compactTail b 3 (2 ^ 14) input
        else if b.toNat / 4 = 0 then
          match (bytesCodec 4).decode input with
          | none => none
          | some (bytes, rest) =>
              if 2 ^ 30 ≤ fromLittleEndian bytes then some (fromLittleEndian bytes, rest) else none
        else none

theorem compactTail_append {k n : ℕ} (tag low : ℕ) (htag : tag < 4) (hlow : low ≤ n)
    (hn : 4 * n + tag < 256 ^ (k + 1)) (rest : List UInt8) :
    compactTail (UInt8.ofNat (4 * n + tag)) k low
      (littleEndian k ((4 * n + tag) / 256) ++ rest) = some (n, rest) := by
  have hvalue := fromLittleEndian_littleEndian hn
  rw [littleEndian] at hvalue
  have hdiv : (4 * n + tag) / 4 = n := by omega
  simp only [compactTail, bytesCodec_append (length_littleEndian k _), hvalue, hdiv, if_pos hlow]

/-- The two low bits of the first byte. -/
theorem toNat_ofNat_mod (n tag : ℕ) (htag : tag < 4) :
    (UInt8.ofNat (4 * n + tag)).toNat % 4 = tag := by
  rw [UInt8.toNat_ofNat']
  omega

/-- **A compact number is read back.** -/
theorem compactCodec_faithful : compactCodec.Faithful (· < 2 ^ 32) := by
  intro n hn rest
  simp only [compactCodec, encodeCompact]
  split_ifs with h₁ h₂ h₃
  · have hbyte : (UInt8.ofNat (4 * n)).toNat = 4 * n := by
      rw [UInt8.toNat_ofNat']
      omega
    simp only [littleEndian, List.cons_append, List.nil_append, hbyte]
    rw [if_pos (by omega)]
    congr 2
    omega
  · have htag := toNat_ofNat_mod n 1 (by omega)
    have htail := compactTail_append (k := 1) (n := n) 1 (2 ^ 6) (by omega)
      (by omega) (by omega) rest
    rw [littleEndian, List.cons_append]
    simp only [htag, Nat.one_ne_zero, if_false, if_true]
    exact htail
  · have htag := toNat_ofNat_mod n 2 (by omega)
    have htail := compactTail_append (k := 3) (n := n) 2 (2 ^ 14) (by omega)
      (by omega) (by omega) rest
    rw [littleEndian, List.cons_append]
    simp only [htag, OfNat.ofNat_ne_zero, OfNat.ofNat_ne_one, if_false, if_true]
    exact htail
  · have hlog : Nat.log2 n / 8 + 1 ≤ 4 := by
      have hlt : Nat.log2 n < 32 := (Nat.log2_lt (by omega)).mpr hn
      omega
    have hbytes : max 4 (Nat.log2 n / 8 + 1) = 4 := max_eq_left hlog
    have hvalue := fromLittleEndian_littleEndian (k := 4) (n := n) (by omega)
    simp only [hbytes, List.cons_append]
    simp [bytesCodec_append (length_littleEndian 4 n), hvalue]
    omega

/-! ### The codec of the order inherent -/

/-- A `Vec<u8>`. -/
def vecCodec : Codec UInt8 (List UInt8) := .counted compactCodec u8Codec

/-- `sp_trie::StorageProof`, a `BTreeSet` of trie nodes. -/
def storageProofCodec : Codec UInt8 StorageProof :=
  (Codec.counted compactCodec vecCodec).map StorageProof.trieNodes fun nodes =>
    ⟨collectSorted nodeKey nodes⟩

/-- `order_primitives::InherentData`. -/
def inherentDataCodec : Codec UInt8 InherentData :=
  (storageProofCodec.pair (h256Codec.pair (u32Codec.pair u32Codec))).map
    (fun data => (data.relayStorageProof, data.relayStateRoot, data.relayHeight, data.paraId))
    fun raw => ⟨raw.1, raw.2.1, raw.2.2.1, raw.2.2.2⟩

/-- `OrderInherentData`. -/
def orderInherentDataCodec : Codec UInt8 OrderInherentData :=
  (inherentDataCodec.option 0 1).map OrderInherentData.data OrderInherentData.mk

theorem vecCodec_faithful : vecCodec.Faithful FitsVec := by
  intro bytes hbytes
  exact compactCodec_faithful.counted u8Codec_faithful bytes ⟨hbytes, fun _ _ => trivial⟩

theorem storageProofCodec_faithful : storageProofCodec.Faithful StorageProof.WellFormed := by
  refine (compactCodec_faithful.counted vecCodec_faithful).map ?_ ?_
  · intro proof h
    exact ⟨h.count, h.nodes⟩
  · intro proof h
    rw [collectSorted_of_strictlySorted h.sorted]

theorem inherentDataCodec_faithful :
    inherentDataCodec.Faithful fun data => data.relayStorageProof.WellFormed := by
  refine (storageProofCodec_faithful.pair
    (h256Codec_faithful.pair (u32Codec_faithful.pair u32Codec_faithful))).map ?_ fun _ _ => rfl
  intro data h
  exact ⟨h, trivial, trivial, trivial⟩

/-- **What is well formed is read back as it was written**, whatever follows. -/
theorem orderInherentDataCodec_faithful :
    orderInherentDataCodec.Faithful OrderInherentData.WellFormed :=
  (inherentDataCodec_faithful.option (by decide)).map (fun _ h => h) fun _ _ => rfl

/-! ### A plain instance -/

/-- Encoded data by the identifier of the inherent. -/
abbrev InherentDataMap : Type := List UInt8 → Option (List UInt8)

/-- Nothing is put twice. -/
def InherentDataMap.putData {α : Type} (c : Codec UInt8 α) (data : InherentDataMap)
    (identifier : List UInt8) (a : α) : Except InherentError InherentDataMap :=
  match data identifier with
  | some _ => .error (.inherentDataExists identifier)
  | none => .ok (Function.update data identifier (some (c.encode a)))

def InherentDataMap.getData {α : Type} (c : Codec UInt8 α) (data : InherentDataMap)
    (identifier : List UInt8) : Except InherentError (Option α) :=
  match data identifier with
  | none => .ok none
  | some value =>
      match c.decode value with
      | none => .error (.decodingFailed identifier)
      | some (a, _) => .ok (some a)

theorem InherentDataMap.getData_putData {α : Type} {c : Codec UInt8 α} {P : α → Prop}
    (hc : c.Faithful P) {data data' : InherentDataMap} {identifier : List UInt8} {a : α} (ha : P a)
    (h : data.putData c identifier a = .ok data') : data'.getData c identifier = .ok (some a) := by
  unfold InherentDataMap.putData at h
  split at h
  · cases h
  cases h
  have hread := hc a ha []
  rw [List.append_nil] at hread
  simp only [InherentDataMap.getData, Function.update_self, hread]

def InherentDataMap.replaceData {α : Type} (c : Codec UInt8 α) (data : InherentDataMap)
    (identifier : List UInt8) (a : α) : InherentDataMap :=
  Function.update data identifier (some (c.encode a))

theorem InherentDataMap.getData_replaceData {α β : Type} (c : Codec UInt8 α) (d : Codec UInt8 β)
    (data : InherentDataMap) {identifier identifier' : List UInt8} (b : β)
    (hne : identifier' ≠ identifier) :
    (data.replaceData d identifier b).getData c identifier' = data.getData c identifier' := by
  have hsame : data.replaceData d identifier b identifier' = data identifier' :=
    Function.update_of_ne hne _ _
  simp only [InherentDataMap.getData, hsame]

def plainInherents : Inherents where
  Data := InherentDataMap
  new _ := none
  putData c data := data.putData c
  getData c data := data.getData c
  replaceData c data := data.replaceData c

theorem plainInherents_lawful : plainInherents.Lawful where
  getData_putData hc := InherentDataMap.getData_putData hc
  getData_replaceData := InherentDataMap.getData_replaceData

end OnDemand
