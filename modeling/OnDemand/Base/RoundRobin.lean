/-
# Taking turns

Round robin over a list: in round `s` it is the turn of the entry at `s` modulo
the length.  Over as many consecutive rounds as the list is long, wherever they
start, everybody of a list without repetitions gets exactly one turn
(`existsUnique_turn`): the residues of such a window are the positions of the
list, each once.
-/

import Mathlib.Order.Interval.Finset.Nat

namespace RoundRobin

variable {α : Type*} {l : List α} {a : α}

/-- Whose turn round `s` is. -/
def turn (l : List α) (s : ℕ) : Option α := l[s % l.length]?

/-- With anybody on the list, every round is somebody's turn. -/
theorem exists_turn (hne : l ≠ []) (s : ℕ) : ∃ a, turn l s = some a := by
  have hlt : s % l.length < l.length := Nat.mod_lt s (List.length_pos_of_ne_nil hne)
  exact ⟨l.get ⟨_, hlt⟩, List.getElem?_eq_getElem hlt⟩

/-- Without repetitions, two rounds that are the same turn leave the same
residue. -/
theorem mod_eq_of_turn_eq (hnd : l.Nodup) {s s' : ℕ} (hs : turn l s = some a)
    (hs' : turn l s' = some a) : s % l.length = s' % l.length := by
  obtain ⟨hlt, -⟩ := List.getElem?_eq_some_iff.mp hs
  exact (List.getElem?_inj hlt hnd).mp (hs.trans hs'.symm)

/-- **Everybody gets one turn in every window.** -/
theorem existsUnique_turn (hnd : l.Nodup) (ha : a ∈ l) (start : ℕ) :
    ∃! s, start ≤ s ∧ s < start + l.length ∧ turn l s = some a := by
  obtain ⟨i, hi, hget⟩ := List.mem_iff_getElem.mp ha
  have hmem : i ∈ (Finset.Ico start (start + l.length)).image (· % l.length) := by
    rw [Nat.image_Ico_mod]
    exact Finset.mem_range.mpr hi
  obtain ⟨s, hs, hmod⟩ := Finset.mem_image.mp hmem
  have hturn : turn l s = some a := by
    rw [turn, hmod, List.getElem?_eq_getElem hi, hget]
  obtain ⟨hlo, hhi⟩ := Finset.mem_Ico.mp hs
  refine ⟨s, ⟨hlo, hhi, hturn⟩, ?_⟩
  rintro s' ⟨hlo', hhi', hturn'⟩
  exact Nat.mod_injOn_Ico start l.length (Finset.mem_coe.mpr (Finset.mem_Ico.mpr ⟨hlo', hhi'⟩))
    (Finset.mem_coe.mpr hs) (mod_eq_of_turn_eq hnd hturn' hturn)

end RoundRobin
