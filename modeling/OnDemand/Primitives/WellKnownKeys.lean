/-
# Storage keys

`primitives/order/src/well_known_keys.rs`: the storage prefixes, as hex
literals, and the four key builders.  A key is the item's prefix, the hasher's
output on the SCALE encoding of the argument and, for the concat hashers, that
encoding itself.

The hash functions are host functions; they enter as arbitrary functions with
the output length the host gives them (`Hashing`).
-/

import OnDemand.Primitives.Basic

namespace OnDemand

/-- `sp_io::hashing`, as far as the key builders use it. -/
structure Hashing where
  blake2_128 : List UInt8 → List UInt8
  twox_64 : List UInt8 → List UInt8
  twox_256 : List UInt8 → List UInt8
  length_blake2_128 : ∀ x, (blake2_128 x).length = 16
  length_twox_64 : ∀ x, (twox_64 x).length = 8
  length_twox_256 : ∀ x, (twox_256 x).length = 32

/-- Hash functions of the right output lengths. -/
def plainHashing : Hashing where
  blake2_128 _ := List.replicate 16 0
  twox_64 _ := List.replicate 8 0
  twox_256 _ := List.replicate 32 0
  length_blake2_128 _ := List.length_replicate
  length_twox_64 _ := List.length_replicate
  length_twox_256 _ := List.length_replicate

/-! ### SCALE encodings -/

/-- A `u32`, little-endian. -/
def encodeU32 (n : UInt32) : List UInt8 :=
  [n.toUInt8, (n >>> 8).toUInt8, (n >>> 16).toUInt8, (n >>> 24).toUInt8]

/-- `k` bytes of a number, little-endian. -/
def littleEndian : ℕ → ℕ → List UInt8
  | 0, _ => []
  | k + 1, n => UInt8.ofNat n :: littleEndian k (n / 256)

/-- `Compact(n)`: the two low bits of the first byte choose one, two or four
bytes, or a length-prefixed number of at least four. -/
def encodeCompact (n : ℕ) : List UInt8 :=
  if n < 2 ^ 6 then littleEndian 1 (4 * n)
  else if n < 2 ^ 14 then littleEndian 2 (4 * n + 1)
  else if n < 2 ^ 30 then littleEndian 4 (4 * n + 2)
  else
    let bytes := max 4 ((Nat.log2 n) / 8 + 1)
    UInt8.ofNat (4 * (bytes - 4) + 3) :: littleEndian bytes n

/-- `(KeyTypeId, Vec<u8>)`: four bytes, then the length and the bytes. -/
def encodeKeyOwner (keyType : KeyTypeId) (acc : List UInt8) : List UInt8 :=
  [keyType.b₀, keyType.b₁, keyType.b₂, keyType.b₃] ++ (encodeCompact acc.length ++ acc)

/-! ### Prefixes -/

/-- OnDemandAssignmentProvider QueueStatus. -/
def queueStatus : List UInt8 :=
  [0x8f, 0x32, 0x43, 0x0b, 0x49, 0x60, 0x7f, 0x8d, 0x60, 0xbf, 0xd3, 0xa0, 0x03, 0xdd, 0xf4, 0xb5,
    0x8b, 0xf2, 0x93, 0x30, 0x83, 0x3e, 0xa7, 0x90, 0x4c, 0x72, 0x09, 0xf4, 0xce, 0x9d, 0x91, 0x7a]

/-- Configuration ActiveConfig. -/
def activeConfig : List UInt8 :=
  [0x06, 0xde, 0x3d, 0x8a, 0x54, 0xd2, 0x7e, 0x44, 0xa9, 0xd5, 0xce, 0x18, 0x96, 0x18, 0xf2, 0x2d,
    0xb4, 0xb4, 0x9d, 0x95, 0x32, 0x0d, 0x90, 0x21, 0x99, 0x4c, 0x85, 0x0f, 0x25, 0xb8, 0xe3, 0x85]

def parasParaLifecycles : List UInt8 :=
  [0xcd, 0x71, 0x0b, 0x30, 0xbd, 0x2e, 0xab, 0x03, 0x52, 0xdd, 0xcc, 0x26, 0x41, 0x7a, 0xa1, 0x94,
    0x28, 0x1e, 0x0b, 0xfd, 0xe1, 0x7b, 0x36, 0x57, 0x32, 0x08, 0xa0, 0x6c, 0xb5, 0xcf, 0xba, 0x6b]

def coreDescriptors : List UInt8 :=
  [0x63, 0x85, 0x95, 0xee, 0xba, 0xa4, 0x45, 0xce, 0x03, 0xa1, 0x35, 0x47, 0xbe, 0xce, 0x90, 0xe7,
    0x04, 0xe6, 0xac, 0x77, 0x5a, 0x32, 0x45, 0x62, 0x31, 0x03, 0xff, 0xec, 0x2c, 0xb2, 0xc9, 0x2f]

def systemAccount : List UInt8 :=
  [0x26, 0xaa, 0x39, 0x4e, 0xea, 0x56, 0x30, 0xe0, 0x7c, 0x48, 0xae, 0x0c, 0x95, 0x58, 0xce, 0xf7,
    0xb9, 0x9d, 0x88, 0x0e, 0xc6, 0x81, 0x79, 0x9c, 0x0c, 0xf3, 0x0e, 0x88, 0x86, 0x37, 0x1d, 0xa9]

/-- System Events. -/
def eventsKey : List UInt8 :=
  [0x26, 0xaa, 0x39, 0x4e, 0xea, 0x56, 0x30, 0xe0, 0x7c, 0x48, 0xae, 0x0c, 0x95, 0x58, 0xce, 0xf7,
    0x80, 0xd4, 0x1e, 0x5e, 0x16, 0x05, 0x67, 0x65, 0xbc, 0x84, 0x61, 0x85, 0x10, 0x72, 0xc9, 0xd7]

def sessionKeyOwnerPrefix : List UInt8 :=
  [0xce, 0xc5, 0x07, 0x0d, 0x60, 0x9d, 0xd3, 0x49, 0x7f, 0x72, 0xbd, 0xe0, 0x7f, 0xc9, 0x6b, 0xa0,
    0x72, 0x63, 0x80, 0x40, 0x46, 0x83, 0xfc, 0x89, 0xe8, 0x23, 0x34, 0x50, 0xc8, 0xaa, 0x19, 0x50]

/-! ### Key builders -/

/-- `account`, for any encodable account type. -/
def account {A : Type*} (H : Hashing) (encode : A → List UInt8) (acc : A) : List UInt8 :=
  systemAccount ++ (H.blake2_128 (encode acc) ++ encode acc)

/-- `session_key_owner`.  The source chains `PARAS_PARA_LIFECYCLES`, not
`SESSION_KEY_OWNER`. -/
def sessionKeyOwner (H : Hashing) (keyType : KeyTypeId) (acc : List UInt8) : List UInt8 :=
  parasParaLifecycles ++ (H.twox_64 (encodeKeyOwner keyType acc) ++ encodeKeyOwner keyType acc)

/-- `core_descriptor`. -/
def coreDescriptor (H : Hashing) (coreIndex : UInt32) : List UInt8 :=
  coreDescriptors ++ H.twox_256 (encodeU32 coreIndex)

/-- `para_lifecycle`. -/
def paraLifecycle (H : Hashing) (paraId : ParaId) : List UInt8 :=
  parasParaLifecycles ++ (H.twox_64 (encodeU32 paraId) ++ encodeU32 paraId)

end OnDemand
