/-
# New heights of a list

`highs val m l` goes through `l` with a mark that starts at `m`: an element whose
value is above the mark is kept and becomes the mark.  What is kept are the
elements above everything before them (`mem_highs`), and where the values never go
down it is one element for each value there is (`exists_mem_highs`).

A machine whose register is such a mark emits the new heights of what its inputs
offer (`Transducer.outputs_eq_highs`): unlike a ratchet it also has to take an
offer above the register.
-/

import OnDemand.Base.Transducer
import Mathlib.Order.Lattice

variable {α β : Type*} [LinearOrder β]

/-- The elements above the mark, which each of them moves. -/
def highs (val : α → β) : β → List α → List α
  | _, [] => []
  | m, a :: as => if m < val a then a :: highs val (val a) as else highs val m as

namespace Highs

variable {val : α → β} {m : β} {a : α} {l : List α}

theorem highs_cons_of_lt (h : m < val a) : highs val m (a :: l) = a :: highs val (val a) l := by
  rw [highs, if_pos h]

theorem highs_cons_of_le (h : val a ≤ m) : highs val m (a :: l) = highs val m l := by
  rw [highs, if_neg (not_lt.mpr h)]

/-- **What is kept**: the elements above the first mark and everything before
them. -/
theorem mem_highs : a ∈ highs val m l ↔
    ∃ before after, l = before ++ a :: after ∧ m < val a ∧ ∀ b ∈ before, val b < val a := by
  induction l generalizing m with
  | nil => simp [highs]
  | cons b l ih =>
      rcases lt_or_ge m (val b) with hb | hb
      · rw [highs_cons_of_lt hb, List.mem_cons, ih]
        constructor
        · rintro (rfl | ⟨before, after, rfl, hlt, hbefore⟩)
          · exact ⟨[], l, rfl, hb, nofun⟩
          · refine ⟨b :: before, after, rfl, hb.trans hlt, ?_⟩
            simpa using ⟨hlt, hbefore⟩
        · rintro ⟨before, after, hl, hlt, hbefore⟩
          rcases List.cons_eq_append_iff.mp hl with ⟨rfl, h⟩ | ⟨before', rfl, rfl⟩
          · exact Or.inl (List.cons.inj h).1
          · refine Or.inr ⟨before', after, rfl, hbefore b (by simp), fun c hc => ?_⟩
            exact hbefore c (List.mem_cons_of_mem _ hc)
      · rw [highs_cons_of_le hb, ih]
        constructor
        · rintro ⟨before, after, rfl, hlt, hbefore⟩
          refine ⟨b :: before, after, rfl, hlt, ?_⟩
          simpa using ⟨hb.trans_lt hlt, hbefore⟩
        · rintro ⟨before, after, hl, hlt, hbefore⟩
          rcases List.cons_eq_append_iff.mp hl with ⟨rfl, h⟩ | ⟨before', rfl, rfl⟩
          · obtain ⟨rfl, rfl⟩ := List.cons.inj h
            exact absurd hlt (not_lt.mpr hb)
          · exact ⟨before', after, rfl, hlt, fun c hc => hbefore c (List.mem_cons_of_mem _ hc)⟩

/-- The values kept strictly increase. -/
theorem pairwise_highs : (highs val m l).Pairwise fun a b => val a < val b := by
  induction l generalizing m with
  | nil => exact .nil
  | cons b l ih =>
      rcases lt_or_ge m (val b) with hb | hb
      · rw [highs_cons_of_lt hb]
        refine List.pairwise_cons.mpr ⟨fun c hc => ?_, ih⟩
        obtain ⟨_, _, _, hlt, _⟩ := mem_highs.mp hc
        exact hlt
      · rw [highs_cons_of_le hb]
        exact ih

/-- **One element for each value**, where the values never go down: the first
one that has it. -/
theorem exists_mem_highs (hl : l.Pairwise fun a b => val a ≤ val b) (ha : a ∈ l) (hm : m < val a) :
    ∃ b ∈ highs val m l, val b = val a := by
  induction l generalizing m with
  | nil => cases ha
  | cons b l ih =>
      obtain ⟨hle, hl⟩ := List.pairwise_cons.mp hl
      rcases lt_or_ge m (val b) with hb | hb
      · rw [highs_cons_of_lt hb]
        rcases List.mem_cons.mp ha with rfl | hmem
        · exact ⟨a, List.mem_cons_self .., rfl⟩
        · rcases (hle a hmem).lt_or_eq with hlt | heq
          · obtain ⟨c, hc, hval⟩ := ih hl hmem hlt
            exact ⟨c, List.mem_cons_of_mem _ hc, hval⟩
          · exact ⟨b, List.mem_cons_self .., heq⟩
      · rw [highs_cons_of_le hb]
        rcases List.mem_cons.mp ha with rfl | hmem
        · exact absurd hm (not_lt.mpr hb)
        · exact ih hl hmem hm

end Highs

namespace Transducer

variable {σ ι ο : Type*}

/-- **A register that takes every offer above it.**  If each input either offers
something above the register, which the machine emits and moves the register to,
or offers nothing above it and makes the machine emit nothing, then a run emits
the new heights of what was offered. -/
theorem outputs_eq_highs (M : Transducer σ ι ο) (Inv : σ → Prop) (reg : σ → β) {val : ο → β}
    {offer : ι → Option ο} {s : σ} {is : List ι} (hs : Inv s)
    (hkeep : ∀ i ∈ is, ∀ t, Inv t → Inv (M.next t i))
    (hstep : ∀ i ∈ is, ∀ t, Inv t →
      (∃ o, offer i = some o ∧ reg t < val o ∧ M.emit t i = [o] ∧ reg (M.next t i) = val o) ∨
      (∀ o, offer i = some o → val o ≤ reg t) ∧ M.emit t i = [] ∧ reg (M.next t i) = reg t) :
    M.outputs s is = highs val (reg s) (is.filterMap offer) := by
  induction is generalizing s with
  | nil => rfl
  | cons i is ih =>
      have hmem : i ∈ i :: is := List.mem_cons_self ..
      have hrest := ih (hkeep i hmem s hs) (fun j hj => hkeep j (List.mem_cons_of_mem _ hj))
        (fun j hj => hstep j (List.mem_cons_of_mem _ hj))
      rw [outputs_cons, hrest]
      rcases hstep i hmem s hs with ⟨o, hoffer, hlt, hemit, hreg⟩ | ⟨hle, hemit, hreg⟩
      · rw [List.filterMap_cons_some hoffer, Highs.highs_cons_of_lt hlt, hemit, hreg]
        rfl
      · rw [hemit, hreg, List.nil_append]
        cases hoffer : offer i with
        | none => rw [List.filterMap_cons_none hoffer]
        | some o => rw [List.filterMap_cons_some hoffer, Highs.highs_cons_of_le (hle o hoffer)]

end Transducer
