/-
# Registers that only move up

A machine whose outputs carry a value has a *ratchet* when one register of its
state admits a value only above what it holds and then holds that value:
every step either emits nothing and leaves the register alone, or emits
exactly one output, of a value above the register, and moves the register to
it (`Transducer.Ratchet`).  Both facts may rest on an invariant of the state
and on a condition on the inputs, so that a machine whose guard and update are
several steps apart can still be one.

Whatever the inputs, the values emitted strictly increase and all lie above the
register's first value (`Ratchet.pairwise`, `Ratchet.lt_of_mem`), the register
is the last value emitted (`Ratchet.reg_eq_last`), and over `ℕ` it bounds how
many outputs there were (`Ratchet.length_le`).
-/

import OnDemand.Base.Transducer
import Mathlib.Order.Nat

namespace Transducer

variable {σ ι ο α : Type*}

/-- The register `reg` admits outputs by their value `val`, on inputs with `G`
from states with `Inv`. -/
structure Ratchet [Preorder α] (M : Transducer σ ι ο) (G : ι → Prop) (Inv : σ → Prop)
    (reg : σ → α) (val : ο → α) : Prop where
  /-- Every admissible input keeps the invariant. -/
  keeps : ∀ s i, G i → Inv s → Inv (M.next s i)
  /-- A step that emits moves the register up to the value it emits. -/
  step : ∀ s i, G i → Inv s → (M.emit s i = [] ∧ reg (M.next s i) = reg s) ∨
    ∃ o, M.emit s i = [o] ∧ reg s < val o ∧ reg (M.next s i) = val o

namespace Ratchet

section Order

variable [Preorder α] {M : Transducer σ ι ο} {G : ι → Prop} {Inv : σ → Prop} {reg : σ → α}
  {val : ο → α} {s : σ} {is : List ι}

/-- One step never lowers the register. -/
theorem reg_le_next (R : M.Ratchet G Inv reg val) {i : ι} (hi : G i) (hs : Inv s) :
    reg s ≤ reg (M.next s i) := by
  rcases R.step s i hi hs with ⟨-, h⟩ | ⟨o, -, hlt, h⟩
  · exact h.ge
  · exact h ▸ hlt.le

/-- **The register never decreases along a run.** -/
theorem reg_le_run (R : M.Ratchet G Inv reg val) (hs : Inv s) (his : ∀ i ∈ is, G i) :
    reg s ≤ reg (M.run s is) := by
  induction is generalizing s with
  | nil => exact le_rfl
  | cons i is ih =>
      have hi := his i (List.mem_cons_self ..)
      refine (R.reg_le_next hi hs).trans ?_
      exact ih (R.keeps s i hi hs) fun j hj => his j (List.mem_cons_of_mem _ hj)

/-- **Every value emitted lies above the register's first value.** -/
theorem lt_of_mem (R : M.Ratchet G Inv reg val) (hs : Inv s) (his : ∀ i ∈ is, G i) :
    ∀ o ∈ M.outputs s is, reg s < val o := by
  induction is generalizing s with
  | nil => intro o ho; cases ho
  | cons i is ih =>
      intro o ho
      have hi := his i (List.mem_cons_self ..)
      have hrest := ih (R.keeps s i hi hs) fun j hj => his j (List.mem_cons_of_mem _ hj)
      rcases List.mem_append.mp ho with h | h
      · rcases R.step s i hi hs with ⟨he, -⟩ | ⟨o', he, hlt, -⟩
        · rw [he] at h; cases h
        · rw [he] at h
          obtain rfl := List.mem_singleton.mp h
          exact hlt
      · exact (R.reg_le_next hi hs).trans_lt (hrest o h)

/-- **The values emitted strictly increase.** -/
theorem pairwise (R : M.Ratchet G Inv reg val) (hs : Inv s) (his : ∀ i ∈ is, G i) :
    (M.outputs s is).Pairwise fun a b => val a < val b := by
  induction is generalizing s with
  | nil => exact .nil
  | cons i is ih =>
      have hi := his i (List.mem_cons_self ..)
      have his' : ∀ j ∈ is, G j := fun j hj => his j (List.mem_cons_of_mem _ hj)
      have hrest := ih (R.keeps s i hi hs) his'
      rw [outputs_cons]
      rcases R.step s i hi hs with ⟨he, -⟩ | ⟨o, he, -, hreg⟩
      · rw [he]
        exact hrest
      · rw [he]
        refine List.pairwise_cons.mpr ⟨fun o' ho' => ?_, hrest⟩
        exact hreg ▸ R.lt_of_mem (R.keeps s i hi hs) his' o' ho'

/-- **The register is the last value emitted**, or its first value when
nothing was. -/
theorem reg_eq_last (R : M.Ratchet G Inv reg val) (hs : Inv s) (his : ∀ i ∈ is, G i) :
    reg (M.run s is) = ((M.outputs s is).getLast?.map val).getD (reg s) := by
  induction is generalizing s with
  | nil => rfl
  | cons i is ih =>
      have hi := his i (List.mem_cons_self ..)
      rw [run_cons, ih (R.keeps s i hi hs) fun j hj => his j (List.mem_cons_of_mem _ hj),
        outputs_cons, List.getLast?_append]
      rcases R.step s i hi hs with ⟨he, hreg⟩ | ⟨o, he, -, hreg⟩
      · rw [he, hreg]
        cases (M.outputs (M.next s i) is).getLast? <;> rfl
      · rw [he, hreg]
        cases (M.outputs (M.next s i) is).getLast? <;> rfl

end Order

/-- **A natural register counts its outputs.**  Each output moves it up by at
least one. -/
theorem length_le {M : Transducer σ ι ο} {G : ι → Prop} {Inv : σ → Prop} {reg : σ → ℕ}
    {val : ο → ℕ} {s : σ} {is : List ι} (R : M.Ratchet G Inv reg val) (hs : Inv s)
    (his : ∀ i ∈ is, G i) : (M.outputs s is).length + reg s ≤ reg (M.run s is) := by
  induction is generalizing s with
  | nil => simp
  | cons i is ih =>
      have hi := his i (List.mem_cons_self ..)
      have hrest := ih (R.keeps s i hi hs) fun j hj => his j (List.mem_cons_of_mem _ hj)
      rw [outputs_cons, run_cons, List.length_append]
      rcases R.step s i hi hs with ⟨he, hreg⟩ | ⟨o, he, hlt, hreg⟩
      · rw [hreg] at hrest
        rw [he, List.length_nil]
        omega
      · rw [hreg] at hrest
        rw [he, List.length_singleton]
        omega

end Ratchet

end Transducer
