/-
# Machines that read a list of inputs

A `Transducer` reads one input at a time, moves to its next state and emits a
list of outputs.  A run is a list of inputs, so *every run* is *every list*,
and what holds along a run is proved by adding one input at the end
(`Transducer.run_induction`): the property is about the inputs read so far, the
state reached and everything emitted on the way.

`Transducer.interleave` puts a family of machines side by side.  An input of
the family names the machine that reads it, so a list of inputs is one
interleaving of the members' steps.  A member never sees the others:
`interleave_run` gives its state as its own run over its own inputs, and
`mem_interleave_outputs` traces every output of the family back to one
member.  `interleave_pairwise` is the rule for a relation between any two
outputs of the family: prove it within each member, and between members from
what each member guarantees about its own outputs.

`Transducer.added` is what chosen inputs of a run add to a measure of the state;
it is bounded by the number of outputs when every chosen step is (`added_le`).
-/

import Mathlib.Algebra.Order.Ring.Int
import Mathlib.Data.List.Induction
import Mathlib.Data.List.Pairwise
import Mathlib.Logic.Function.Basic

/-- A machine with states `σ` that reads inputs `ι` and emits outputs `ο`. -/
structure Transducer (σ ι ο : Type*) where
  /-- One input read: the state after it and what is emitted. -/
  step : σ → ι → σ × List ο

namespace Transducer

variable {σ ι ο κ : Type*}

/-- The state after one input. -/
def next (M : Transducer σ ι ο) (s : σ) (i : ι) : σ := (M.step s i).1

/-- What one input makes the machine emit. -/
def emit (M : Transducer σ ι ο) (s : σ) (i : ι) : List ο := (M.step s i).2

/-- The state after a list of inputs. -/
def run (M : Transducer σ ι ο) : σ → List ι → σ
  | s, [] => s
  | s, i :: is => M.run (M.next s i) is

/-- Everything a list of inputs makes the machine emit, in order. -/
def outputs (M : Transducer σ ι ο) : σ → List ι → List ο
  | _, [] => []
  | s, i :: is => M.emit s i ++ M.outputs (M.next s i) is

@[simp] theorem run_nil (M : Transducer σ ι ο) (s : σ) : M.run s [] = s := rfl

@[simp] theorem run_cons (M : Transducer σ ι ο) (s : σ) (i : ι) (is : List ι) :
    M.run s (i :: is) = M.run (M.next s i) is := rfl

@[simp] theorem outputs_nil (M : Transducer σ ι ο) (s : σ) : M.outputs s [] = [] := rfl

@[simp] theorem outputs_cons (M : Transducer σ ι ο) (s : σ) (i : ι) (is : List ι) :
    M.outputs s (i :: is) = M.emit s i ++ M.outputs (M.next s i) is := rfl

/-- A run over two lists is the second run from where the first ends. -/
@[simp] theorem run_append (M : Transducer σ ι ο) (s : σ) (is js : List ι) :
    M.run s (is ++ js) = M.run (M.run s is) js := by
  induction is generalizing s with
  | nil => rfl
  | cons i is ih => simpa only [List.cons_append, run_cons] using ih (M.next s i)

/-- The outputs of two lists are those of the first, then those of the second
from where the first ends. -/
@[simp] theorem outputs_append (M : Transducer σ ι ο) (s : σ) (is js : List ι) :
    M.outputs s (is ++ js) = M.outputs s is ++ M.outputs (M.run s is) js := by
  induction is generalizing s with
  | nil => rfl
  | cons i is ih =>
      simp only [List.cons_append, outputs_cons, run_cons, ih, List.append_assoc]

/-- **Induction along a run.**  What holds before the first input, and is kept
when one more input is read at the end, holds of every run. -/
theorem run_induction (M : Transducer σ ι ο) (s : σ) {P : List ι → σ → List ο → Prop}
    (base : P [] s [])
    (snoc : ∀ is i, P is (M.run s is) (M.outputs s is) →
      P (is ++ [i]) (M.next (M.run s is) i)
        (M.outputs s is ++ M.emit (M.run s is) i)) (is : List ι) :
    P is (M.run s is) (M.outputs s is) := by
  induction is using List.reverseRecOn with
  | nil => exact base
  | append_singleton is i ih =>
      have h := snoc is i ih
      simpa only [run_append, outputs_append, run_cons, run_nil, outputs_cons, outputs_nil,
        List.append_nil] using h

/-- **Invariants.**  A property of states that every input of the list keeps
holds at the end of the run when it holds at the start. -/
theorem run_invariant (M : Transducer σ ι ο) (Inv : σ → Prop) {s : σ} {is : List ι}
    (hs : Inv s) (hstep : ∀ i ∈ is, ∀ t, Inv t → Inv (M.next t i)) : Inv (M.run s is) := by
  induction is generalizing s with
  | nil => exact hs
  | cons i is ih =>
      rw [run_cons]
      refine ih (hstep i (List.mem_cons_self ..) s hs) fun j hj t ht => ?_
      exact hstep j (List.mem_cons_of_mem _ hj) t ht

/-- **Until.**  If every input of the list keeps `P` or brings `Q` about, then `P`
still holds at the end of the run or `Q` held somewhere along it. -/
theorem run_until (M : Transducer σ ι ο) {P Q : σ → Prop} {s : σ} {is : List ι} (hs : P s)
    (hstay : ∀ i ∈ is, ∀ t, P t → P (M.next t i) ∨ Q (M.next t i)) :
    P (M.run s is) ∨ ∃ before after, is = before ++ after ∧ Q (M.run s before) := by
  induction is generalizing s with
  | nil => exact Or.inl hs
  | cons i is ih =>
      rcases hstay i (List.mem_cons_self ..) s hs with hP | hQ
      · have hrest := ih hP fun j hj => hstay j (List.mem_cons_of_mem _ hj)
        rcases hrest with hend | ⟨before, after, rfl, hbefore⟩
        · exact Or.inl hend
        · exact Or.inr ⟨i :: before, after, rfl, hbefore⟩
      · exact Or.inr ⟨[i], is, rfl, hQ⟩

/-- **Ensures.**  If every input keeps `P` or brings `Q` about, and one input of
the list cannot be read without bringing `Q` about, then `Q` held somewhere along
the run. -/
theorem run_ensures (M : Transducer σ ι ο) {P Q : σ → Prop} {s : σ} {is : List ι} {i : ι} (hs : P s)
    (hi : i ∈ is) (hstep : ∀ t j, P t → Q (M.next t j) ∨ P (M.next t j) ∧ j ≠ i) :
    ∃ before after, is = before ++ after ∧ Q (M.run s before) := by
  obtain ⟨pre, post, rfl⟩ := List.append_of_mem hi
  have hpre : P (M.run s pre) ∨ ∃ before after, pre = before ++ after ∧ Q (M.run s before) :=
    M.run_until hs fun j _ t ht => (hstep t j ht).symm.imp_left And.left
  rcases hpre with hP | ⟨before, after, rfl, hQ⟩
  · refine ⟨pre ++ [i], post, by simp, ?_⟩
    rw [run_append, run_cons, run_nil]
    rcases hstep _ i hP with hQ | ⟨-, hne⟩
    · exact hQ
    · exact absurd rfl hne
  · exact ⟨before, after ++ i :: post, by simp, hQ⟩

/-- **Simulation by some of the inputs.**  If each input is silent and keeps `R`
with the other machine where it is, or has `G` and makes both machines emit the same
and keep `R`, then a run is matched by a run of the other machine over some of its
inputs, all with `G`. -/
theorem exists_sublist_of_simulation {τ : Type*} (M : Transducer σ ι ο) (N : Transducer τ ι ο)
    {R : σ → τ → Prop} {G : ι → Prop} {s : σ} {t : τ} (hR : R s t) (is : List ι)
    (hstep : ∀ i s t, R s t → M.emit s i = [] ∧ R (M.next s i) t ∨
      G i ∧ M.emit s i = N.emit t i ∧ R (M.next s i) (N.next t i)) :
    ∃ js, js.Sublist is ∧ (∀ j ∈ js, G j) ∧ N.outputs t js = M.outputs s is ∧
      R (M.run s is) (N.run t js) := by
  induction is generalizing s t with
  | nil => exact ⟨[], List.Sublist.refl _, nofun, rfl, hR⟩
  | cons i is ih =>
      rcases hstep i s t hR with ⟨hemit, hnext⟩ | ⟨hi, hemit, hnext⟩
      · obtain ⟨js, hsub, hjs, houtputs, hrun⟩ := ih hnext
        exact ⟨js, hsub.cons i, hjs, by rw [outputs_cons, hemit, houtputs, List.nil_append], hrun⟩
      · obtain ⟨js, hsub, hjs, houtputs, hrun⟩ := ih hnext
        refine ⟨i :: js, hsub.cons_cons i, ?_, by rw [outputs_cons, outputs_cons, hemit, houtputs], hrun⟩
        exact List.forall_mem_cons.mpr ⟨hi, hjs⟩

/-- **What every output satisfies.**  If the steps of the list keep an
invariant and emit only outputs with `Q` from states that have it, every output
of the run has `Q`. -/
theorem forall_mem_outputs (M : Transducer σ ι ο) (Inv : σ → Prop) {Q : ο → Prop} {s : σ}
    {is : List ι} (hs : Inv s) (hstep : ∀ i ∈ is, ∀ t, Inv t → Inv (M.next t i))
    (hemit : ∀ i ∈ is, ∀ t, Inv t → ∀ o ∈ M.emit t i, Q o) : ∀ o ∈ M.outputs s is, Q o := by
  induction is generalizing s with
  | nil => intro o ho; cases ho
  | cons i is ih =>
      intro o ho
      rcases List.mem_append.mp ho with h | h
      · exact hemit i (List.mem_cons_self ..) s hs o h
      · refine ih (hstep i (List.mem_cons_self ..) s hs)
          (fun j hj t ht => hstep j (List.mem_cons_of_mem _ hj) t ht)
          (fun j hj t ht => hemit j (List.mem_cons_of_mem _ hj) t ht) o h

/-- **Every output has its step.**  An output of a run was emitted by one of
its inputs, from the state the inputs before it lead to. -/
theorem exists_of_mem_outputs (M : Transducer σ ι ο) {s : σ} {is : List ι} {o : ο}
    (ho : o ∈ M.outputs s is) :
    ∃ before i after, is = before ++ i :: after ∧ o ∈ M.emit (M.run s before) i := by
  induction is generalizing s with
  | nil => cases ho
  | cons i is ih =>
      rcases List.mem_append.mp ho with h | h
      · exact ⟨[], i, is, rfl, h⟩
      · obtain ⟨before, j, after, rfl, hj⟩ := ih h
        exact ⟨i :: before, j, after, rfl, hj⟩

/-- **Every output has its place.**  What comes before an output of a run was
emitted by the inputs before its step, and by that step itself. -/
theorem exists_of_outputs_eq_append (M : Transducer σ ι ο) {s : σ} {is : List ι} {pre post : List ο}
    {o : ο} (ho : M.outputs s is = pre ++ o :: post) :
    ∃ before i after first rest, is = before ++ i :: after ∧
      pre = M.outputs s before ++ first ∧ M.emit (M.run s before) i = first ++ o :: rest := by
  induction is generalizing s pre with
  | nil => simp at ho
  | cons i is ih =>
      rw [outputs_cons] at ho
      rcases List.append_eq_append_iff.mp ho with ⟨a, rfl, ha⟩ | ⟨c, hc, hrest⟩
      · obtain ⟨before, j, after, first, rest, rfl, rfl, hj⟩ := ih ha
        exact ⟨i :: before, j, after, first, rest, rfl, by simp, hj⟩
      · cases c with
        | nil =>
            rw [List.append_nil] at hc
            have hfirst : M.outputs (M.next s i) is = [] ++ o :: post := hrest.symm
            obtain ⟨before, j, after, first, rest, rfl, hpre, hj⟩ := ih hfirst
            refine ⟨i :: before, j, after, first, rest, rfl, ?_, hj⟩
            rw [outputs_cons, hc, List.append_assoc, ← hpre, List.append_nil]
        | cons o' c =>
            obtain ⟨rfl, -⟩ := List.cons.inj hrest
            exact ⟨[], i, is, pre, c, rfl, rfl, hc⟩

/-! ### Measures of the state -/

/-- What the inputs with `p` add to the measure `m` along a run. -/
def added (M : Transducer σ ι ο) (p : ι → Bool) (m : σ → ℤ) : σ → List ι → ℤ
  | _, [] => 0
  | s, i :: is => (if p i then m (M.next s i) - m s else 0) + M.added p m (M.next s i) is

/-- **What a run adds is bounded by its outputs**, if what each chosen step adds
is bounded by its own. -/
theorem added_le (M : Transducer σ ι ο) {p : ι → Bool} {m : σ → ℤ} {c : ℕ}
    (hstep : ∀ s i, p i = true → m (M.next s i) - m s ≤ c * (M.emit s i).length) (s : σ)
    (is : List ι) : M.added p m s is ≤ c * (M.outputs s is).length := by
  induction is generalizing s with
  | nil => simp [added]
  | cons i is ih =>
      have hrest := ih (M.next s i)
      have hfirst : (if p i then m (M.next s i) - m s else 0) ≤ (c : ℤ) * (M.emit s i).length := by
        split
        · rename_i hp
          exact hstep s i hp
        · exact Int.mul_nonneg (Int.natCast_nonneg _) (Int.natCast_nonneg _)
      rw [added, outputs_cons, List.length_append, Nat.cast_add, mul_add]
      exact add_le_add hfirst hrest

/-! ### Families of machines -/

section Interleave

variable [DecidableEq κ]

/-- The family as one machine: an input names the member that reads it. -/
def interleave (M : κ → Transducer σ ι ο) : Transducer (κ → σ) (κ × ι) (κ × ο) where
  step s x := (Function.update s x.1 ((M x.1).next (s x.1) x.2),
    ((M x.1).emit (s x.1) x.2).map (Prod.mk x.1))

@[simp] theorem interleave_emit (M : κ → Transducer σ ι ο) (s : κ → σ) (k : κ) (i : ι) :
    (interleave M).emit s (k, i) = ((M k).emit (s k) i).map (Prod.mk k) := rfl

@[simp] theorem interleave_next (M : κ → Transducer σ ι ο) (s : κ → σ) (k : κ) (i : ι) :
    (interleave M).next s (k, i) = Function.update s k ((M k).next (s k) i) := rfl

/-- The inputs a family's run gives to one member. -/
def inputsOf (k : κ) (xs : List (κ × ι)) : List ι :=
  xs.filterMap fun x => if x.1 = k then some x.2 else none

theorem mem_inputsOf {k : κ} {i : ι} {xs : List (κ × ι)} : i ∈ inputsOf k xs ↔ (k, i) ∈ xs := by
  simp only [inputsOf, List.mem_filterMap, Option.ite_none_right_eq_some, Option.some.injEq]
  constructor
  · rintro ⟨⟨j, i'⟩, hx, rfl, rfl⟩
    exact hx
  · intro hx
    exact ⟨(k, i), hx, rfl, rfl⟩

/-- **A member runs on its own inputs.**  Whatever the interleaving, the state
of member `k` is its own run over the inputs addressed to it. -/
theorem interleave_run (M : κ → Transducer σ ι ο) (s : κ → σ) (xs : List (κ × ι)) (k : κ) :
    (interleave M).run s xs k = (M k).run (s k) (inputsOf k xs) := by
  induction xs generalizing s with
  | nil => rfl
  | cons x xs ih =>
      obtain ⟨j, i⟩ := x
      rw [run_cons, ih]
      by_cases hj : j = k
      · subst hj
        simp [inputsOf]
      · simp [inputsOf, hj, Function.update_of_ne (Ne.symm hj)]

/-- Every output of the family is an output of the member it names. -/
theorem mem_interleave_outputs (M : κ → Transducer σ ι ο) (s : κ → σ) (xs : List (κ × ι))
    {k : κ} {o : ο} (h : (k, o) ∈ (interleave M).outputs s xs) :
    o ∈ (M k).outputs (s k) (inputsOf k xs) := by
  induction xs generalizing s with
  | nil => cases h
  | cons x xs ih =>
      obtain ⟨j, i⟩ := x
      rcases List.mem_append.mp h with h | h
      · obtain ⟨o', ho', he⟩ := List.mem_map.mp h
        obtain ⟨rfl, rfl⟩ := Prod.mk.inj he
        simp [inputsOf, ho']
      · have hk := ih _ h
        by_cases hj : j = k
        · subst hj
          simp only [inputsOf, List.filterMap_cons, if_true, outputs_cons]
          refine List.mem_append_right _ ?_
          simpa [inputsOf] using hk
        · simpa [inputsOf, hj, Function.update_of_ne (Ne.symm hj)] using hk

/-- **Any two outputs of a family.**  A relation that holds between any two
outputs of one member, and between outputs of two members because of what each
member guarantees about its own (`Q`), holds between any two outputs of every
interleaving. -/
theorem interleave_pairwise (M : κ → Transducer σ ι ο) (s : κ → σ) (xs : List (κ × ι))
    {R : ο → ο → Prop} {Q : κ → ο → Prop}
    (same : ∀ k ys, (∀ y ∈ ys, (k, y) ∈ xs) → ((M k).outputs (s k) ys).Pairwise R)
    (own : ∀ k ys, (∀ y ∈ ys, (k, y) ∈ xs) → ∀ o ∈ (M k).outputs (s k) ys, Q k o)
    (cross : ∀ k l o o', k ≠ l → Q k o → Q l o' → R o o') :
    ((interleave M).outputs s xs).Pairwise fun a b => R a.2 b.2 := by
  suffices h : ∀ ys, (∀ y ∈ ys, y ∈ xs) →
      ((interleave M).outputs s ys).Pairwise fun a b => R a.2 b.2 from h xs fun _ hy => hy
  intro ys
  induction ys using List.reverseRecOn with
  | nil => intro _; exact .nil
  | append_singleton ys y ih =>
      intro hys
      obtain ⟨k, i⟩ := y
      have hin : ∀ {l}, ∀ z ∈ inputsOf l (ys ++ [(k, i)]), (l, z) ∈ xs :=
        fun z hz => hys _ (mem_inputsOf.mp hz)
      have hk : inputsOf k (ys ++ [(k, i)]) = inputsOf k ys ++ [i] := by simp [inputsOf]
      have hrun : (interleave M).run s ys k = (M k).run (s k) (inputsOf k ys) :=
        interleave_run M s ys k
      have hsame := same k (inputsOf k ys ++ [i]) (by rw [← hk]; exact hin)
      rw [outputs_append, outputs_cons, outputs_nil, List.append_nil] at hsame
      rw [outputs_append, outputs_cons, outputs_nil, List.append_nil]
      refine List.pairwise_append.mpr
        ⟨ih fun y hy => hys y (List.mem_append_left _ hy), ?_, ?_⟩
      · rw [interleave_emit, hrun, List.pairwise_map]
        exact (List.pairwise_append.mp hsame).2.1
      · rintro ⟨l, o⟩ ho ⟨k', o'⟩ ho'
        rw [interleave_emit, hrun] at ho'
        obtain ⟨o'', hmem, he⟩ := List.mem_map.mp ho'
        obtain ⟨rfl, rfl⟩ := Prod.mk.inj he
        have hl := mem_interleave_outputs M s ys ho
        by_cases hkl : l = k
        · subst hkl
          exact (List.pairwise_append.mp hsame).2.2 o hl o'' hmem
        · refine cross l k o o'' hkl ?_ ?_
          · exact own l _ (fun z hz => hys _ (List.mem_append_left _ (mem_inputsOf.mp hz))) o hl
          · refine own k (inputsOf k ys ++ [i]) (by rw [← hk]; exact hin) o'' ?_
            rw [outputs_append, outputs_cons, outputs_nil, List.append_nil]
            exact List.mem_append_right _ hmem

end Interleave

end Transducer
