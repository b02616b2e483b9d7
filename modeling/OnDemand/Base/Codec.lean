/-
# Codecs that read a part of their input

A `Codec` writes a value as a list of symbols and reads one off the front of a
list, with what is left.  It is `Faithful` on the values with `P` when reading
gives back what was written, whatever follows.  Values need not have only one
encoding: a faithful codec may read a value from symbols it would not write.

That carries through the combinators: pairs (`Codec.pair`), values that stand for
others (`Codec.map`), a list behind its length (`Codec.counted`) and options behind
a tag (`Codec.option`).  `collectSorted` is what a reader of a set needs: the
elements may come in any order and repeatedly, and a sorted list comes back as it
was.
-/

import Mathlib.Data.List.Pairwise
import Mathlib.Order.Lattice

/-- How values of `α` are written as symbols `σ`, and read off an input. -/
structure Codec (σ α : Type*) where
  encode : α → List σ
  decode : List σ → Option (α × List σ)

namespace Codec

variable {σ α β : Type*}

/-- Reading gives back what was written. -/
def Faithful (c : Codec σ α) (P : α → Prop) : Prop :=
  ∀ a, P a → ∀ rest, c.decode (c.encode a ++ rest) = some (a, rest)

/-! ### Pairs -/

/-- One value, then another. -/
def pair (c : Codec σ α) (d : Codec σ β) : Codec σ (α × β) where
  encode x := c.encode x.1 ++ d.encode x.2
  decode input :=
    match c.decode input with
    | none => none
    | some (a, rest) =>
        match d.decode rest with
        | none => none
        | some (b, rest') => some ((a, b), rest')

variable {c : Codec σ α} {d : Codec σ β} {P : α → Prop} {Q : β → Prop}

theorem Faithful.pair (hc : c.Faithful P) (hd : d.Faithful Q) :
    (c.pair d).Faithful fun x => P x.1 ∧ Q x.2 := by
  rintro ⟨a, b⟩ ⟨ha, hb⟩ rest
  simp only [Codec.pair, List.append_assoc, hc a ha, hd b hb]

/-! ### Values that stand for others -/

/-- `β` as written through `α`. -/
def map (c : Codec σ α) (toRaw : β → α) (ofRaw : α → β) : Codec σ β where
  encode b := c.encode (toRaw b)
  decode input :=
    match c.decode input with
    | none => none
    | some (a, rest) => some (ofRaw a, rest)

theorem Faithful.map (hc : c.Faithful P) {toRaw : β → α} {ofRaw : α → β}
    (hP : ∀ b, Q b → P (toRaw b)) (hinv : ∀ b, Q b → ofRaw (toRaw b) = b) :
    (c.map toRaw ofRaw).Faithful Q := by
  intro b hb rest
  simp only [Codec.map, hc _ (hP b hb), hinv b hb]

/-! ### A number of values -/

/-- Read `n` values. -/
def decodeN (c : Codec σ α) : ℕ → List σ → Option (List α × List σ)
  | 0, input => some ([], input)
  | n + 1, input =>
      match c.decode input with
      | none => none
      | some (a, rest) =>
          match c.decodeN n rest with
          | none => none
          | some (as, rest') => some (a :: as, rest')

theorem Faithful.decodeN (hc : c.Faithful P) {as : List α} (has : ∀ a ∈ as, P a) (rest : List σ) :
    c.decodeN as.length (as.flatMap c.encode ++ rest) = some (as, rest) := by
  induction as with
  | nil => rfl
  | cons a as ih =>
      have ha := hc a (has a (List.mem_cons_self ..)) (as.flatMap c.encode ++ rest)
      have hrest := ih fun b hb => has b (List.mem_cons_of_mem _ hb)
      simp only [List.length_cons, List.flatMap_cons, List.append_assoc, Codec.decodeN, ha, hrest]

/-- The number of values, then the values. -/
def counted (count : Codec σ ℕ) (c : Codec σ α) : Codec σ (List α) where
  encode as := count.encode as.length ++ as.flatMap c.encode
  decode input :=
    match count.decode input with
    | none => none
    | some (n, rest) => c.decodeN n rest

theorem Faithful.counted {count : Codec σ ℕ} {N : ℕ → Prop} (hcount : count.Faithful N)
    (hc : c.Faithful P) : (counted count c).Faithful fun as => N as.length ∧ ∀ a ∈ as, P a := by
  intro as has rest
  simp only [Codec.counted, List.append_assoc, hcount _ has.1, hc.decodeN has.2]

/-! ### Options -/

/-- Nothing behind the tag `none`, a value behind the tag `some`. -/
def option [DecidableEq σ] (tagNone tagSome : σ) (c : Codec σ α) : Codec σ (Option α) where
  encode
    | none => [tagNone]
    | some a => tagSome :: c.encode a
  decode
    | [] => none
    | tag :: input =>
        if tag = tagNone then some (none, input)
        else if tag = tagSome then
          match c.decode input with
          | none => none
          | some (a, rest) => some (some a, rest)
        else none

theorem Faithful.option [DecidableEq σ] (hc : c.Faithful P) {tagNone tagSome : σ}
    (htags : tagSome ≠ tagNone) :
    (c.option tagNone tagSome).Faithful fun x => ∀ a, x = some a → P a := by
  intro x hx rest
  cases x with
  | none => simp [Codec.option]
  | some a => simp [Codec.option, htags, hc a (hx a rfl)]

end Codec

/-! ### Sets -/

section Sorted

variable {α β : Type*} [LinearOrder β] {key : α → β} {a b : α} {l : List α}

/-- Put an element into a sorted list, unless one with its key is there. -/
def sortedInsert (key : α → β) (a : α) : List α → List α
  | [] => [a]
  | b :: l =>
      if key a < key b then a :: b :: l
      else if key b < key a then b :: sortedInsert key a l
      else b :: l

/-- Sorted by key, each key once. -/
def StrictlySorted (key : α → β) (l : List α) : Prop := l.Pairwise fun a b => key a < key b

/-- **Collecting into a set**: the elements in order of their keys, one for each
key. -/
def collectSorted (key : α → β) (l : List α) : List α := l.foldr (sortedInsert key) []

/-- **A sorted list is collected as it is.** -/
theorem collectSorted_of_strictlySorted (h : StrictlySorted key l) : collectSorted key l = l := by
  induction l with
  | nil => rfl
  | cons a l ih =>
      obtain ⟨ha, hl⟩ := List.pairwise_cons.mp h
      rw [collectSorted, List.foldr_cons]
      have hcollected : l.foldr (sortedInsert key) [] = l := ih hl
      rw [hcollected]
      cases l with
      | nil => rfl
      | cons b l => rw [sortedInsert, if_pos (ha b (List.mem_cons_self ..))]

end Sorted
