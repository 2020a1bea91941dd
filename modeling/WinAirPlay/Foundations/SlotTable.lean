import Mathlib.Data.List.FinRange
import Mathlib.Data.List.Nodup
import Mathlib.Logic.Function.Basic

/-! # Tables of slots

A table of `n` slots, each empty or holding one value. `contents` lists what it holds; filling an
empty slot adds one value to it and emptying a slot removes exactly the value it held.
-/

namespace Foundations.SlotTable
set_option autoImplicit false

variable {α : Type*} {n : ℕ}

/-- What the table holds, in slot order. -/
def contents (f : Fin n → Option α) : List α := (List.finRange n).filterMap f

theorem filterMap_update_of_notMem {ι : Type*} [DecidableEq ι] {f : ι → Option α} {i : ι}
    {o : Option α} {l : List ι} (hi : i ∉ l) :
    l.filterMap (Function.update f i o) = l.filterMap f := by
  refine List.filterMap_congr fun j hj => ?_
  rw [Function.update_of_ne]
  rintro rfl
  exact hi hj

theorem filterMap_update_perm {ι : Type*} [DecidableEq ι] {f : ι → Option α} {i : ι} {x : α}
    (hf : f i = none) {l : List ι} (hl : l.Nodup) (hi : i ∈ l) :
    (l.filterMap (Function.update f i (some x))).Perm (x :: l.filterMap f) := by
  induction l with
  | nil => simp at hi
  | cons j l ih =>
    obtain ⟨hj, hl⟩ := List.nodup_cons.mp hl
    by_cases hji : j = i
    · subst hji
      rw [List.filterMap_cons_some (Function.update_self ..), filterMap_update_of_notMem hj,
        List.filterMap_cons_none hf]
    · have hi : i ∈ l := (List.mem_cons.mp hi).resolve_left (Ne.symm hji)
      have hj : Function.update f i (some x) j = f j := Function.update_of_ne hji ..
      cases hfj : f j with
      | none =>
        rw [List.filterMap_cons_none (hj.trans hfj), List.filterMap_cons_none hfj]
        exact ih hl hi
      | some y =>
        rw [List.filterMap_cons_some (hj.trans hfj), List.filterMap_cons_some hfj]
        exact ((ih hl hi).cons y).trans (List.Perm.swap x y _)

theorem contents_fill {f : Fin n → Option α} {i : Fin n} (x : α) (hf : f i = none) :
    (contents (Function.update f i (some x))).Perm (x :: contents f) :=
  filterMap_update_perm hf (List.nodup_finRange n) (List.mem_finRange i)

theorem contents_empty {f : Fin n → Option α} {i : Fin n} {x : α} (hf : f i = some x) :
    (contents f).Perm (x :: contents (Function.update f i none)) := by
  have h := contents_fill (f := Function.update f i none) (i := i) x (Function.update_self ..)
  rwa [Function.update_idem, ← hf, Function.update_eq_self] at h

theorem mem_contents {f : Fin n → Option α} {x : α} : x ∈ contents f ↔ ∃ i, f i = some x := by
  simp [contents]

theorem nodup_contents {f : Fin n → Option α} (h : ∀ i j x, f i = some x → f j = some x → i = j) :
    (contents f).Nodup :=
  (List.nodup_finRange n).filterMap fun i j x hi hj => h i j x hi hj

theorem contents_eq_nil {f : Fin n → Option α} (h : ∀ i, f i = none) : contents f = [] :=
  List.filterMap_eq_nil_iff.mpr fun i _ => h i

/-! ## Read in order

A ring of `n` slots is read once around as `(List.range n).filterMap f`, where `f k` is what the slot
`k` places after the first one holds. -/

/-- A value that is put behind everything the ring holds is read last. -/
theorem filterMap_range_snoc {f g : ℕ → Option α} {n k : ℕ} {x : α} (hk : k < n)
    (hbefore : ∀ j < k, g j = f j) (hempty : ∀ j < n, k ≤ j → f j = none) (hx : g k = some x)
    (hafter : ∀ j < n, k < j → g j = none) :
    (List.range n).filterMap g = (List.range n).filterMap f ++ [x] := by
  induction n with
  | zero => omega
  | succ n ih =>
    rw [List.range_succ, List.filterMap_append, List.filterMap_append]
    by_cases hkn : k = n
    · subst hkn
      rw [List.filterMap_congr fun j hj => hbefore j (List.mem_range.mp hj),
        List.filterMap_cons_none (hempty k (by omega) le_rfl), List.filterMap_cons_some hx]
      simp
    · rw [ih (by omega) (fun j hj => hempty j (by omega)) fun j hj => hafter j (by omega),
        List.filterMap_cons_none (hafter n (by omega) (by omega)),
        List.filterMap_cons_none (hempty n (by omega) (by omega))]
      simp

/-- Reading from the second slot on, when the first one holds nothing any more. -/
theorem filterMap_range_rotate {f g : ℕ → Option α} {n : ℕ} (hnext : ∀ j < n, g j = f (j + 1))
    (hlast : g n = none) :
    (List.range (n + 1)).filterMap f = (f 0).toList ++ (List.range (n + 1)).filterMap g := by
  have hg : (List.range (n + 1)).filterMap g = (List.range n).filterMap fun j => f (j + 1) := by
    rw [List.range_succ, List.filterMap_append, List.filterMap_cons_none hlast,
      List.filterMap_congr fun j hj => hnext j (List.mem_range.mp hj)]
    simp
  rw [hg, List.range_succ_eq_map, List.filterMap_cons, List.filterMap_map]
  cases f 0 <;> rfl

end Foundations.SlotTable
