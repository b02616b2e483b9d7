/-
# Least recently used

A map of at most `n` entries that, when full, forgets the key accessed longest
ago.  Its entries are a list, the most recent first (`write`), and a history is
the list of keys accessed, the oldest first.

Which keys are there is decided by the history alone: the `n` most recent ones
(`keys_run`, over `recent`).  What a key's value is, is decided by the accesses
since it was last inserted (`AccessedSince`): the update as many times as the key
was accessed in the last part of the history that never leaves it for `n` or more
other keys (`lookup_run_eq_some_iff`, over `Stays`).
-/

import Mathlib.Data.Finset.Card
import Mathlib.Data.List.Induction
import Mathlib.Logic.Function.Iterate

namespace Lru

variable {κ ν : Type*} [DecidableEq κ] {n : ℕ} {k : κ}

/-! ### Recency -/

/-- The keys of a history, each once, the most recent first. -/
def recent (h : List κ) : List κ := h.foldl (fun l k => k :: l.erase k) []

theorem recent_snoc (h : List κ) (k : κ) : recent (h ++ [k]) = k :: (recent h).erase k := by
  rw [recent, List.foldl_append]
  rfl

theorem mem_recent {h : List κ} : k ∈ recent h ↔ k ∈ h := by
  induction h using List.reverseRecOn with
  | nil => rfl
  | append_singleton h a ih =>
      rw [recent_snoc, List.mem_cons, List.mem_append, List.mem_singleton, ← ih]
      by_cases hka : k = a
      · simp [hka]
      · simp [hka, List.mem_erase_of_ne hka]

theorem nodup_recent (h : List κ) : (recent h).Nodup := by
  induction h using List.reverseRecOn with
  | nil => exact List.nodup_nil
  | append_singleton h a ih =>
      rw [recent_snoc]
      exact List.nodup_cons.mpr ⟨ih.not_mem_erase, ih.erase a⟩

/-- There are as many recent keys as different ones in the history. -/
theorem length_recent (h : List κ) : (recent h).length = h.toFinset.card := by
  rw [← List.toFinset_card_of_nodup (nodup_recent h)]
  refine congrArg Finset.card (Finset.ext fun a => ?_)
  rw [List.mem_toFinset, List.mem_toFinset, mem_recent]

/-- **What was accessed later is more recent.** -/
theorem recent_append (h g : List κ) :
    recent (h ++ g) = recent g ++ (recent h).filter (· ∉ g) := by
  induction g using List.reverseRecOn with
  | nil => simp [recent]
  | append_singleton g a ih =>
      rw [← List.append_assoc, recent_snoc, ih, recent_snoc, List.cons_append]
      refine congrArg (a :: ·) ?_
      by_cases ha : a ∈ g
      · have hsame : (recent h).filter (· ∉ g ++ [a]) = (recent h).filter (· ∉ g) := by
          refine List.filter_congr fun x _ => ?_
          by_cases hx : x = a
          · simp [hx, ha]
          · simp [hx]
        rw [List.erase_append_left _ (mem_recent.mpr ha), hsame]
      · have hnot : a ∉ recent g := fun hmem => ha (mem_recent.mp hmem)
        rw [List.erase_append_right _ hnot, List.erase_of_not_mem hnot,
          ((nodup_recent h).filter _).erase_eq_filter, List.filter_filter]
        refine congrArg (recent g ++ ·) (List.filter_congr fun x _ => ?_)
        by_cases hx : x = a
        · simp [hx]
        · simp [hx]

/-- A key is among the `n` most recent exactly when fewer than `n` others were
accessed since. -/
theorem mem_take_recent_iff {h y : List κ} (hy : k ∉ y) :
    k ∈ (recent (h ++ k :: y)).take n ↔ y.toFinset.card < n := by
  have hsplit : recent (h ++ k :: y) =
      recent y ++ k :: ((recent h).erase k).filter (· ∉ y) := by
    rw [show h ++ k :: y = (h ++ [k]) ++ y by simp, recent_append, recent_snoc,
      List.filter_cons_of_pos (by simpa using hy)]
  have hnot : k ∉ recent y := fun hmem => hy (mem_recent.mp hmem)
  rw [hsplit, ← length_recent]
  constructor
  · intro hmem
    by_contra hle
    rw [List.take_append_of_le_length (by omega)] at hmem
    exact hnot (List.mem_of_mem_take hmem)
  · intro hlt
    rw [List.take_append, List.mem_append]
    refine Or.inr ?_
    rw [show n - (recent y).length = (n - (recent y).length - 1) + 1 by omega, List.take_succ_cons]
    exact List.mem_cons_self ..

/-- Whatever was accessed since an access to `k` by a stretch without `k` is
more recent than `k`. -/
theorem card_lt_of_mem_take_recent {u y : List κ} (hmem : k ∈ (recent (u ++ y)).take n)
    (hy : k ∉ y) : y.toFinset.card < n := by
  have hnot : k ∉ recent y := fun h => hy (mem_recent.mp h)
  rw [recent_append] at hmem
  rw [← length_recent]
  by_contra hle
  rw [List.take_append_of_le_length (by omega)] at hmem
  exact hnot (List.mem_of_mem_take hmem)

/-! ### The map -/

/-- Write `v` for `k`: the entry becomes the most recent one, and the last one
goes when there are more than `n`. -/
def write (n : ℕ) (k : κ) (v : ν) (l : List (κ × ν)) : List (κ × ν) :=
  ((k, v) :: l.eraseP (fun e => e.1 = k)).take n

/-- Access `k`: what is there, or `d`, is replaced by its image under `f`. -/
def access (n : ℕ) (f : ν → ν) (d : ν) (l : List (κ × ν)) (k : κ) : List (κ × ν) :=
  write n k (f ((l.lookup k).getD d)) l

/-- The map after a history. -/
def run (n : ℕ) (f : ν → ν) (d : ν) (h : List κ) : List (κ × ν) := h.foldl (access n f d) []

theorem run_snoc (f : ν → ν) (d : ν) (h : List κ) (k : κ) :
    run n f d (h ++ [k]) = access n f d (run n f d h) k := by
  rw [run, List.foldl_append]
  rfl

theorem keys_eraseP (l : List (κ × ν)) (k : κ) :
    (l.eraseP (fun e => e.1 = k)).map Prod.fst = (l.map Prod.fst).erase k := by
  induction l with
  | nil => rfl
  | cons e l ih =>
      by_cases he : e.1 = k
      · simp [he]
      · simp [he, ih]

/-- Cutting a list before an erasure or after it leaves the same front. -/
theorem take_erase_take (l : List κ) (k : κ) (m : ℕ) :
    ((l.take (m + 1)).erase k).take m = (l.erase k).take m := by
  induction l generalizing m with
  | nil => simp
  | cons a l ih =>
      rw [List.take_succ_cons]
      by_cases ha : a = k
      · simp [ha, List.take_take]
      · rw [List.erase_cons_tail (by simpa using ha), List.erase_cons_tail (by simpa using ha)]
        cases m with
        | zero => rfl
        | succ m => rw [List.take_succ_cons, List.take_succ_cons, ih]

/-- **The keys of the map are the `n` most recent ones.** -/
theorem keys_run (f : ν → ν) (d : ν) (h : List κ) :
    (run n f d h).map Prod.fst = (recent h).take n := by
  induction h using List.reverseRecOn with
  | nil => simp [run, recent]
  | append_singleton h a ih =>
      rw [run_snoc, recent_snoc, access, write, List.map_take, List.map_cons, keys_eraseP, ih]
      cases n with
      | zero => rfl
      | succ m => rw [List.take_succ_cons, List.take_succ_cons, take_erase_take]

/-! ### Values -/

theorem lookup_eraseP_of_ne {l : List (κ × ν)} {a : κ} (ha : k ≠ a) :
    (l.eraseP (fun e => e.1 = a)).lookup k = l.lookup k := by
  induction l with
  | nil => rfl
  | cons e l ih =>
      obtain ⟨b, w⟩ := e
      by_cases hb : b = a
      · have hka : (k == a) = false := by simpa using ha
        simp [hb, List.lookup_cons, hka]
      · simp [hb, List.lookup_cons, ih]

theorem lookup_isSome_iff {l : List (κ × ν)} : (l.lookup k).isSome ↔ k ∈ l.map Prod.fst := by
  induction l with
  | nil => simp
  | cons e l ih =>
      obtain ⟨b, w⟩ := e
      by_cases hb : k = b
      · simp [hb]
      · have hkb : (k == b) = false := by simpa using hb
        simp [List.lookup_cons, hkb, hb]

/-- Cutting off the end loses exactly the keys that are cut off. -/
theorem lookup_take {l : List (κ × ν)} {v : ν} (m : ℕ) :
    (l.take m).lookup k = some v ↔ l.lookup k = some v ∧ k ∈ (l.take m).map Prod.fst := by
  induction l generalizing m with
  | nil => simp
  | cons e l ih =>
      obtain ⟨b, w⟩ := e
      cases m with
      | zero => simp
      | succ m =>
          by_cases hb : k = b
          · simp [hb]
          · have hkb : (k == b) = false := by simpa using hb
            simpa [List.lookup_cons, hkb, hb] using ih m

/-- An access to another key keeps the value of a key that stays. -/
theorem lookup_access_of_ne {f : ν → ν} {d v : ν} {l : List (κ × ν)} {a : κ} (ha : k ≠ a) :
    (access n f d l a).lookup k = some v ↔
      l.lookup k = some v ∧ k ∈ (access n f d l a).map Prod.fst := by
  have hka : (k == a) = false := by simpa using ha
  rw [access, write, lookup_take, List.lookup_cons, hka, lookup_eraseP_of_ne ha]

/-- An access to the key itself updates its value. -/
theorem lookup_access_self (hn : 0 < n) (f : ν → ν) (d : ν) (l : List (κ × ν)) (k : κ) :
    (access n f d l k).lookup k = some (f ((l.lookup k).getD d)) := by
  obtain ⟨m, rfl⟩ : ∃ m, n = m + 1 := ⟨n - 1, by omega⟩
  simp [access, write]

/-- Every stretch of the accesses without `k` is to fewer than `n` keys: a key
that was there before them stays throughout. -/
def Stays (n : ℕ) (k : κ) (g : List κ) : Prop :=
  ∀ y, y <:+: g → k ∉ y → y.toFinset.card < n

theorem Stays.of_stretch {g g' : List κ} (h : Stays n k g) (hg : g' <:+: g) : Stays n k g' :=
  fun y hy hk => h y (hy.trans hg) hk

/-- A stretch without the key lies on one side of it. -/
theorem Stays.append {g g' : List κ} (h : Stays n k g) (h' : Stays n k g') :
    Stays n k (g ++ k :: g') := by
  intro y hy hk
  rcases List.infix_append_iff.mp hy with hy | hy | ⟨t, s, rfl, ht, hs⟩
  · exact h y hy hk
  · rcases List.infix_cons_iff.mp hy with hy | hy
    · obtain rfl | ⟨y', rfl, -⟩ := List.prefix_cons_iff.mp hy
      · exact h [] (List.nil_infix) hk
      · exact absurd (List.mem_cons_self ..) hk
    · exact h' y hy hk
  · obtain rfl | ⟨s', rfl, -⟩ := List.prefix_cons_iff.mp hs
    · rw [List.append_nil] at hk ⊢
      exact h t ht.isInfix hk
    · exact absurd (List.mem_append_right t (List.mem_cons_self ..)) hk

omit [DecidableEq κ] in
/-- The last access to a key of a history. -/
theorem exists_last_access {g : List κ} (hk : k ∈ g) : ∃ u y, g = u ++ k :: y ∧ k ∉ y := by
  obtain ⟨s, t, hst, hs⟩ := List.eq_append_cons_of_mem (List.mem_reverse.mpr hk)
  refine ⟨t.reverse, s.reverse, ?_, fun h => hs (List.mem_reverse.mp h)⟩
  rw [← List.reverse_reverse g, hst]
  simp

/-- A key that stays is among the most recent ones. -/
theorem mem_take_recent_of_stays {b g : List κ} (h : Stays n k g) :
    k ∈ (recent (b ++ k :: g)).take n := by
  obtain ⟨u, y, hu, hy⟩ := exists_last_access (List.mem_cons_self (a := k) (l := g))
  rw [hu, ← List.append_assoc, mem_take_recent_iff hy]
  refine h y ?_ hy
  obtain rfl | ⟨u', rfl⟩ : u = [] ∨ ∃ u', u = k :: u' := by
    cases u with
    | nil => exact Or.inl rfl
    | cons a u' =>
        rw [List.cons_append, List.cons.injEq] at hu
        exact Or.inr ⟨u', by rw [hu.1]⟩
  · rw [List.nil_append, List.cons.injEq] at hu
    exact ⟨[], [], by simp [hu.2]⟩
  · rw [List.cons_append, List.cons.injEq] at hu
    exact ⟨u' ++ [k], [], by simp [hu.2]⟩

/-- A key that is still among the most recent ones has stayed through the last
access too. -/
theorem Stays.snoc {b g : List κ} {a : κ} (h : Stays n k g)
    (hmem : k ∈ (recent (b ++ k :: (g ++ [a]))).take n) : Stays n k (g ++ [a]) := by
  intro y hy hk
  rcases List.infix_concat_iff.mp hy with ⟨u, hu⟩ | hy
  · refine card_lt_of_mem_take_recent (u := b ++ k :: u) ?_ hk
    rwa [show b ++ k :: u ++ y = b ++ k :: (u ++ y) by simp, hu]
  · exact h y hy hk

/-- The key has been accessed `m` times since an access found it missing, and
has stayed all that time. -/
def AccessedSince (n : ℕ) (k : κ) (h : List κ) (m : ℕ) : Prop :=
  ∃ before after, h = before ++ k :: after ∧ k ∉ (recent before).take n ∧ Stays n k after ∧
    m = after.count k + 1

/-- One more access to the key itself: it was missing, or is counted once
more. -/
theorem accessedSince_snoc_self (hn : 0 < n) {h : List κ} {m : ℕ} :
    AccessedSince n k (h ++ [k]) m ↔
      (k ∉ (recent h).take n ∧ m = 1) ∨ ∃ m', AccessedSince n k h m' ∧ m = m' + 1 := by
  have hnil : Stays n k [] := by
    intro y hy _
    rw [List.infix_nil.mp hy]
    exact hn
  constructor
  · rintro ⟨before, after, heq, hout, hstays, rfl⟩
    induction after using List.reverseRecOn with
    | nil =>
        obtain ⟨rfl, -⟩ := List.append_inj' heq rfl
        exact Or.inl ⟨hout, rfl⟩
    | append_singleton after a _ =>
        have heq' : h ++ [k] = (before ++ k :: after) ++ [a] := by simpa using heq
        obtain ⟨rfl, ha⟩ := List.append_inj' heq' rfl
        obtain rfl : k = a := by simpa using ha
        refine Or.inr ⟨_, ⟨before, after, rfl, hout, hstays.of_stretch ⟨[], [k], by simp⟩, rfl⟩, ?_⟩
        rw [List.count_append, List.count_singleton_self]
  · rintro (⟨hout, rfl⟩ | ⟨m', ⟨before, after, rfl, hout, hstays, rfl⟩, rfl⟩)
    · exact ⟨h, [], rfl, hout, hnil, rfl⟩
    · refine ⟨before, after ++ [k], by simp, hout, hstays.append hnil, ?_⟩
      rw [List.count_append, List.count_singleton_self]

/-- One more access to another key: the count goes on if the key is still
there. -/
theorem accessedSince_snoc_of_ne {h : List κ} {a : κ} {m : ℕ} (ha : k ≠ a) :
    AccessedSince n k (h ++ [a]) m ↔
      AccessedSince n k h m ∧ k ∈ (recent (h ++ [a])).take n := by
  have hcount : ∀ g : List κ, (g ++ [a]).count k = g.count k := by
    intro g
    rw [List.count_append, List.count_singleton, if_neg (by simpa using Ne.symm ha)]
    rfl
  constructor
  · rintro ⟨before, after, heq, hout, hstays, rfl⟩
    induction after using List.reverseRecOn with
    | nil => exact absurd (List.append_inj' heq rfl).2 (by simpa using Ne.symm ha)
    | append_singleton after b _ =>
        have heq' : h ++ [a] = (before ++ k :: after) ++ [b] := by simpa using heq
        obtain ⟨rfl, hb⟩ := List.append_inj' heq' rfl
        obtain rfl : a = b := by simpa using hb
        refine ⟨⟨before, after, rfl, hout, hstays.of_stretch ⟨[], [a], by simp⟩, ?_⟩, ?_⟩
        · rw [hcount]
        · rw [heq]
          exact mem_take_recent_of_stays hstays
  · rintro ⟨⟨before, after, rfl, hout, hstays, rfl⟩, hmem⟩
    refine ⟨before, after ++ [a], by simp, hout, hstays.snoc (b := before) ?_, ?_⟩
    · simpa using hmem
    · rw [hcount]

/-- **What a key's value is.**  It is `v` exactly when `v` is the update applied
once for each access to the key since it was found missing. -/
theorem lookup_run_eq_some_iff (hn : 0 < n) (f : ν → ν) (d : ν) (h : List κ) (v : ν) :
    (run n f d h).lookup k = some v ↔ ∃ m, AccessedSince n k h m ∧ v = f^[m] d := by
  induction h using List.reverseRecOn generalizing v with
  | nil => simp [run, AccessedSince]
  | append_singleton h a ih =>
      by_cases ha : k = a
      · subst ha
        have hmissing : (run n f d h).lookup k = none ↔ k ∉ (recent h).take n := by
          rw [← keys_run f d, ← lookup_isSome_iff, Option.not_isSome_iff_eq_none]
        rw [run_snoc, lookup_access_self hn, Option.some.injEq]
        constructor
        · intro hv
          cases hl : (run n f d h).lookup k with
          | none =>
              rw [hl] at hv
              refine ⟨1, (accessedSince_snoc_self hn).mpr (Or.inl ⟨hmissing.mp hl, rfl⟩), hv.symm⟩
          | some w =>
              rw [hl] at hv
              obtain ⟨m, hm, rfl⟩ := (ih w).mp hl
              refine ⟨m + 1, (accessedSince_snoc_self hn).mpr (Or.inr ⟨m, hm, rfl⟩), ?_⟩
              rw [Function.iterate_succ_apply']
              exact hv.symm
        · rintro ⟨m, hm, rfl⟩
          rcases (accessedSince_snoc_self hn).mp hm with ⟨hout, rfl⟩ | ⟨m', hm', rfl⟩
          · rw [hmissing.mpr hout]
            rfl
          · rw [(ih _).mpr ⟨m', hm', rfl⟩, Function.iterate_succ_apply', Option.getD_some]
      · rw [run_snoc, lookup_access_of_ne ha, ih, ← run_snoc, keys_run]
        constructor
        · rintro ⟨⟨m, hm, rfl⟩, hmem⟩
          exact ⟨m, (accessedSince_snoc_of_ne ha).mpr ⟨hm, hmem⟩, rfl⟩
        · rintro ⟨m, hm, rfl⟩
          obtain ⟨hm', hmem⟩ := (accessedSince_snoc_of_ne ha).mp hm
          exact ⟨⟨m, hm', rfl⟩, hmem⟩

/-- **A part of the history that never leaves the key counts in full.**  If the
key stays from one of its accesses on, it has been accessed at least as often
since it was found missing. -/
theorem exists_accessedSince_of_stays (hn : 0 < n) {b g : List κ} (h : Stays n k g) :
    ∃ m, AccessedSince n k (b ++ k :: g) m ∧ g.count k + 1 ≤ m := by
  by_cases hout : k ∈ (recent b).take n
  · -- the key was there already, inserted in some earlier part of the history
    have hsome : ((run n id () b).lookup k).isSome := by
      rw [lookup_isSome_iff, keys_run]
      exact hout
    obtain ⟨v, hv⟩ := Option.isSome_iff_exists.mp hsome
    obtain ⟨-, ⟨before, after, rfl, hmissing, hstays, -⟩, -⟩ :=
      (lookup_run_eq_some_iff hn id () b v).mp hv
    refine ⟨_, ⟨before, after ++ k :: g, by simp, hmissing, hstays.append h, rfl⟩, ?_⟩
    rw [List.count_append, List.count_cons_self]
    omega
  · exact ⟨_, ⟨b, g, rfl, hout, h, rfl⟩, le_rfl⟩

end Lru
