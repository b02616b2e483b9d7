/-
# Maps in a flat store

A key-value store over lists of symbols holds several maps at once: each map has
a head of a common length, and an entry's key is the head, a hash of fixed length
of the encoded argument and, where the hasher is a concat one, the encoded
argument itself.

What keeps the maps apart is the head (`take_key`); what keeps the entries of a
map apart is the encoding that follows the hash, whatever the hash function does
(`key_injective`).
-/

import Mathlib.Data.List.Basic

/-- The layout of a map whose head has length `n`. -/
structure MapLayout (β : Type*) (n : ℕ) where
  head : List β
  length_head : head.length = n
  hash : List β → List β
  hashLength : ℕ
  length_hash : ∀ x, (hash x).length = hashLength
  /-- The hasher appends what it has hashed. -/
  concat : Bool

namespace MapLayout

variable {β : Type*} {n : ℕ}

/-- The key of the entry whose argument is encoded as `x`. -/
def key (L : MapLayout β n) (x : List β) : List β :=
  L.head ++ (L.hash x ++ if L.concat then x else [])

/-- **A key begins with the head of its map.** -/
theorem take_key (L : MapLayout β n) (x : List β) : (L.key x).take n = L.head := by
  rw [key, List.take_append_of_le_length (Nat.le_of_eq L.length_head.symm)]
  exact List.take_of_length_le (Nat.le_of_eq L.length_head)

/-- **A concat hasher keeps the entries apart**, also where the hashes collide. -/
theorem key_injective {L : MapLayout β n} (hconcat : L.concat = true) :
    Function.Injective L.key := by
  intro x y h
  have htail := List.append_cancel_left h
  have hlength : (L.hash x).length = (L.hash y).length := by rw [L.length_hash, L.length_hash]
  have henc := (List.append_inj htail hlength).2
  rwa [if_pos hconcat, if_pos hconcat] at henc

end MapLayout
