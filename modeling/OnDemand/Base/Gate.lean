/-
# Registers with a guard

A `Transducer.Gate` is a register of a machine that takes the values of some of
its outputs: every step either emits none of them and leaves the register alone,
or emits exactly one, of a value the guard `R` admits from what the register
holds, and moves the register to it.  A ratchet is the gate of `<`; a gate's guard
need not be an order.

Along any run the values are a chain of `R` from the register's first value
(`Gate.isChain`).  On a stretch of the run where one alternative of the guard is
ruled out, what the other says holds between any two values
(`Gate.pairwise_of_stretch`).
-/

import OnDemand.Base.Transducer
import Mathlib.Data.List.Chain

namespace Transducer

variable {σ ι ο α : Type*}

/-- The register `reg` takes the values `val` the guard `R` admits. -/
structure Gate (M : Transducer σ ι ο) (reg : σ → α) (val : ο → Option α) (R : α → α → Prop) :
    Prop where
  step : ∀ s i, ((M.emit s i).filterMap val = [] ∧ reg (M.next s i) = reg s) ∨
    ∃ a, (M.emit s i).filterMap val = [a] ∧ R (reg s) a ∧ reg (M.next s i) = a

namespace Gate

variable {M : Transducer σ ι ο} {reg : σ → α} {val : ο → Option α} {R : α → α → Prop}

/-- **The values along a run are a chain of the guard.** -/
theorem isChain (G : M.Gate reg val R) (s : σ) (is : List ι) :
    (reg s :: (M.outputs s is).filterMap val).IsChain R := by
  induction is generalizing s with
  | nil => exact .singleton _
  | cons i is ih =>
      have hrest := ih (M.next s i)
      rw [outputs_cons, List.filterMap_append]
      rcases G.step s i with ⟨hemit, hreg⟩ | ⟨a, hemit, hguard, hreg⟩
      · rw [hreg] at hrest
        rw [hemit]
        exact hrest
      · rw [hreg] at hrest
        rw [hemit, List.singleton_append]
        exact List.isChain_cons_cons.mpr ⟨hguard, hrest⟩

/-- **A stretch of the run.**  Where the guard together with `S` means a
transitive `T`, a stretch of the values that is a chain of `S` has `T` between
any two. -/
theorem pairwise_of_stretch (G : M.Gate reg val R) {S T : α → α → Prop} [Trans T T T]
    (hT : ∀ a b, R a b → S a b → T a b) {s : σ} {is : List ι} {stretch : List α}
    (hstretch : stretch <:+: reg s :: (M.outputs s is).filterMap val) (hS : stretch.IsChain S) :
    stretch.Pairwise T := by
  obtain ⟨pre, post, hsplit⟩ := hstretch
  have hall := G.isChain s is
  rw [← hsplit] at hall
  have hR := (List.isChain_append.mp (List.isChain_append.mp hall).1).2.1
  refine List.IsChain.pairwise (List.isChain_iff_getElem.mpr fun k hk => ?_)
  exact hT _ _ (hR.getElem k hk) (hS.getElem k hk)

end Gate

end Transducer
