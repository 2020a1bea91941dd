import Mathlib.Algebra.Order.Group.Nat
import Mathlib.Data.List.Count
import Mathlib.Logic.Function.Basic

/-! # Reference counts

A heap of objects that count the references to them and are deleted with the last one. An operation
on an object that was deleted has no result. `Counts h refs` says that the counts are those of the
references `refs` that are really there; then taking and dropping a reference that is there has a
result, and an object lives exactly as long as there is a reference to it.
-/

namespace Foundations.RefCount
set_option autoImplicit false

structure Object (α : Type) where
  value : α
  refCount : ℕ

abbrev Heap (ι α : Type) := ι → Option (Object α)

section
variable {ι α : Type} [DecidableEq ι]

def addRef (h : Heap ι α) (i : ι) : Option (Heap ι α) :=
  (h i).map fun o => Function.update h i (some { o with refCount := o.refCount + 1 })

/-- The object is deleted when the count becomes 0. -/
def release (h : Heap ι α) (i : ι) : Option (Heap ι α) :=
  (h i).map fun o => Function.update h i
    (if o.refCount - 1 = 0 then none else some { o with refCount := o.refCount - 1 })

theorem addRef_eq {h : Heap ι α} {i : ι} {o : Object α} (ho : h i = some o) :
    addRef h i = some (Function.update h i (some { o with refCount := o.refCount + 1 })) := by
  rw [addRef, ho, Option.map_some]

theorem release_eq {h : Heap ι α} {i : ι} {o : Object α} (ho : h i = some o) :
    release h i = some (Function.update h i
      (if o.refCount - 1 = 0 then none else some { o with refCount := o.refCount - 1 })) := by
  rw [release, ho, Option.map_some]

/-- A new object, which nothing refers to yet. -/
def create (h : Heap ι α) (i : ι) (value : α) : Heap ι α := Function.update h i (some ⟨value, 0⟩)

def Counts (h : Heap ι α) (refs : ι → ℕ) : Prop :=
  ∀ i, (h i).elim 0 Object.refCount = refs i ∧ ∀ o, h i = some o → 0 < o.refCount

/-- The objects of `h'` are objects of `h`. -/
def Keeps (h h' : Heap ι α) : Prop :=
  ∀ i o', h' i = some o' → ∃ o, h i = some o ∧ o.value = o'.value

omit [DecidableEq ι] in
theorem Keeps.refl (h : Heap ι α) : Keeps h h := fun _ o ho => ⟨o, ho, rfl⟩

omit [DecidableEq ι] in
theorem Keeps.trans {h h' h'' : Heap ι α} (h₁ : Keeps h h') (h₂ : Keeps h' h'') : Keeps h h'' := by
  intro i o'' ho''
  obtain ⟨o', ho', hvalue'⟩ := h₂ i o'' ho''
  obtain ⟨o, ho, hvalue⟩ := h₁ i o' ho'
  exact ⟨o, ho, hvalue.trans hvalue'⟩

omit [DecidableEq ι] in
/-- An object that is still there has the value that it had. -/
theorem Keeps.value_iff {h h' : Heap ι α} (hk : Keeps h h') {i : ι} (hi : (h' i).isSome) (value : α) :
    (∃ o, h i = some o ∧ o.value = value) ↔ ∃ o, h' i = some o ∧ o.value = value := by
  obtain ⟨o', ho'⟩ := Option.isSome_iff_exists.mp hi
  obtain ⟨o, ho, hvalue⟩ := hk i o' ho'
  constructor
  · rintro ⟨o₁, ho₁, rfl⟩
    obtain rfl : o = o₁ := Option.some.inj (ho.symm.trans ho₁)
    exact ⟨o', ho', hvalue.symm⟩
  · rintro ⟨o₁, ho₁, rfl⟩
    obtain rfl : o' = o₁ := Option.some.inj (ho'.symm.trans ho₁)
    exact ⟨o, ho, hvalue⟩

variable {h : Heap ι α} {refs : ι → ℕ}

omit [DecidableEq ι] in
/-- An object that is referred to is there, with the right count. -/
theorem Counts.exists_object (hc : Counts h refs) {i : ι} (hi : 0 < refs i) :
    ∃ o, h i = some o ∧ o.refCount = refs i := by
  obtain ⟨hcount, -⟩ := hc i
  cases ho : h i with
  | none =>
    rw [ho] at hcount
    change 0 = refs i at hcount
    omega
  | some o =>
    rw [ho] at hcount
    exact ⟨o, rfl, hcount⟩

omit [DecidableEq ι] in
theorem Counts.isSome_iff (hc : Counts h refs) (i : ι) : (h i).isSome ↔ 0 < refs i := by
  constructor
  · intro hsome
    obtain ⟨o, ho⟩ := Option.isSome_iff_exists.mp hsome
    obtain ⟨hcount, hpos⟩ := hc i
    rw [ho] at hcount
    change o.refCount = refs i at hcount
    have := hpos o ho
    omega
  · intro hi
    obtain ⟨o, ho, -⟩ := hc.exists_object hi
    rw [ho]
    rfl

theorem Counts.addRef (hc : Counts h refs) {i : ι} (hi : 0 < refs i) :
    ∃ h', addRef h i = some h' ∧ Counts h' (Function.update refs i (refs i + 1)) ∧ Keeps h h' := by
  obtain ⟨o, ho, hcount⟩ := hc.exists_object hi
  refine ⟨_, addRef_eq ho, fun j => ?_, fun j o' ho' => ?_⟩
  · by_cases hj : j = i
    · subst hj
      rw [Function.update_self, Function.update_self]
      refine ⟨by show o.refCount + 1 = _; rw [hcount], fun o' ho' => ?_⟩
      cases ho'
      exact Nat.succ_pos _
    · rw [Function.update_of_ne hj, Function.update_of_ne hj]
      exact hc j
  · by_cases hj : j = i
    · subst hj
      rw [Function.update_self] at ho'
      cases ho'
      exact ⟨o, ho, rfl⟩
    · rw [Function.update_of_ne hj] at ho'
      exact ⟨o', ho', rfl⟩

theorem Counts.release (hc : Counts h refs) {i : ι} (hi : 0 < refs i) :
    ∃ h', release h i = some h' ∧ Counts h' (Function.update refs i (refs i - 1)) ∧ Keeps h h' := by
  obtain ⟨o, ho, hcount⟩ := hc.exists_object hi
  refine ⟨_, release_eq ho, fun j => ?_, fun j o' ho' => ?_⟩
  · by_cases hj : j = i
    · subst hj
      rw [Function.update_self, Function.update_self]
      by_cases hlast : o.refCount - 1 = 0
      · rw [if_pos hlast]
        exact ⟨by show 0 = _; omega, nofun⟩
      · rw [if_neg hlast]
        refine ⟨by show o.refCount - 1 = _; rw [hcount], fun o' ho' => ?_⟩
        cases ho'
        exact Nat.pos_of_ne_zero hlast
    · rw [Function.update_of_ne hj, Function.update_of_ne hj]
      exact hc j
  · by_cases hj : j = i
    · subst hj
      rw [Function.update_self] at ho'
      split at ho'
      · cases ho'
      · cases ho'
        exact ⟨o, ho, rfl⟩
    · rw [Function.update_of_ne hj] at ho'
      exact ⟨o', ho', rfl⟩

theorem Counts.create (hc : Counts h refs) (i : ι) (value : α) :
    ∃ h', RefCount.addRef (create h i value) i = some h' ∧ Counts h' (Function.update refs i 1) ∧
      (∃ o, h' i = some o ∧ o.value = value) ∧ ∀ j, j ≠ i → h' j = h j := by
  refine ⟨_, addRef_eq (Function.update_self ..), fun j => ?_, ?_, ?_⟩
  · by_cases hj : j = i
    · subst hj
      rw [Function.update_self, Function.update_self]
      refine ⟨rfl, fun o' ho' => ?_⟩
      cases ho'
      exact Nat.one_pos
    · rw [Function.update_of_ne hj, RefCount.create, Function.update_of_ne hj,
        Function.update_of_ne hj]
      exact hc j
  · exact ⟨_, Function.update_self .., rfl⟩
  · intro j hj
    rw [Function.update_of_ne hj, RefCount.create, Function.update_of_ne hj]

/-! ## Dropping some references of a list -/

/-- Going through `refs` some references are dropped; `kept` are the others. -/
inductive Sweeps : Heap ι α → List ι → Heap ι α → List ι → Prop
  | nil (h : Heap ι α) : Sweeps h [] h []
  | keep {h h' : Heap ι α} {l kept : List ι} (i : ι) (rest : Sweeps h l h' kept) :
      Sweeps h (i :: l) h' (i :: kept)
  | drop {h h₁ h' : Heap ι α} {l kept : List ι} {i : ι} (hdrop : release h i = some h₁)
      (rest : Sweeps h₁ l h' kept) : Sweeps h (i :: l) h' kept

theorem Sweeps.refl (h : Heap ι α) (l : List ι) : Sweeps h l h l := by
  induction l with
  | nil => exact .nil h
  | cons i l ih => exact .keep i ih

theorem Sweeps.sublist {h h' : Heap ι α} {l kept : List ι} (hs : Sweeps h l h' kept) :
    kept.Sublist l := by
  induction hs with
  | nil => exact List.Sublist.refl _
  | keep i _ ih => exact ih.cons_cons i
  | drop _ _ ih => exact ih.cons _

/-- The references of the list that are kept, and the references from elsewhere, are still counted. -/
theorem Sweeps.counts {h h' : Heap ι α} {l kept : List ι} (hs : Sweeps h l h' kept)
    {refs rest : ι → ℕ} (hc : Counts h refs) (hrefs : ∀ i, refs i = l.count i + rest i) :
    Counts h' (fun i => kept.count i + rest i) ∧ Keeps h h' := by
  induction hs generalizing refs rest with
  | nil h =>
    have hrest : refs = fun i => [].count i + rest i := funext hrefs
    rw [← hrest]
    exact ⟨hc, Keeps.refl h⟩
  | keep i _ ih =>
    obtain ⟨hcounts, hkeeps⟩ := @ih refs (fun j => rest j + if i = j then 1 else 0) hc (by
      intro j
      rw [hrefs j, List.count_cons]
      simp only [beq_iff_eq]
      omega)
    refine ⟨?_, hkeeps⟩
    convert hcounts using 2 with j
    rw [List.count_cons]
    simp only [beq_iff_eq]
    omega
  | @drop h h₁ h' l kept i hdrop _ ih =>
    have hpos : 0 < refs i := by
      rw [hrefs i, List.count_cons_self]
      omega
    obtain ⟨h₂, hrelease, hcounts, hkeeps⟩ := hc.release hpos
    obtain rfl : h₁ = h₂ := Option.some.inj (hdrop.symm.trans hrelease)
    obtain ⟨hcounts', hkeeps'⟩ := @ih _ rest hcounts (by
      intro j
      by_cases hj : j = i
      · subst hj
        rw [Function.update_self, hrefs j, List.count_cons_self]
        omega
      · rw [Function.update_of_ne hj, hrefs j, List.count_cons_of_ne (Ne.symm hj)])
    exact ⟨hcounts', hkeeps.trans hkeeps'⟩

end

end Foundations.RefCount
