import WinAirPlay.Foundations.HashTable
import WinAirPlay.Foundations.RoseTree

/-! # Interning a tree

A tree is flattened to a list of objects, in which a node that compares equal to an earlier one of
its bucket is left out together with its subtree. `refs` holds the number of the object that stands
for a node. What `intern` adds to the state is said once, in `intern_adds`; `intern_complete` is
what holds of a tree that is interned on its own.
-/

namespace Foundations.Interning
open Foundations.HashTable
set_option autoImplicit false

structure Interned (α : Type) where
  objects : List (RoseTree α)
  refs : Table (RoseTree α) ℕ

def Interned.empty {α : Type} : Interned α := ⟨[], Table.empty⟩

section
variable {α : Type} (bucket : RoseTree α → ℕ) (same : RoseTree α → RoseTree α → Bool)

/-- The number of the object that stands for a node. -/
abbrev ref (s : Interned α) (t : RoseTree α) : Option ℕ := lookup bucket same s.refs t

def add (s : Interned α) (t : RoseTree α) : Interned α :=
  ⟨s.objects ++ [t], insert bucket same s.refs t s.objects.length⟩

mutual
def intern (s : Interned α) : RoseTree α → Interned α
  | .node a ts =>
    if (ref bucket same s (.node a ts)).isSome then s
    else internAll (add bucket same s (.node a ts)) ts

def internAll (s : Interned α) : List (RoseTree α) → Interned α
  | [] => s
  | t :: ts => internAll (intern s t) ts
end

/-- Every reference is to an object that compares equal, and every object has its own number. -/
structure Sound (s : Interned α) : Prop where
  object : ∀ t i, ref bucket same s t = some i → ∃ o, s.objects[i]? = some o ∧ same o t = true
  number : ∀ i o, s.objects[i]? = some o → ref bucket same s o = some i

/-- `s'` has more objects than `s`; each of them `P`, and its children have references. -/
structure Adds (P : RoseTree α → Prop) (s s' : Interned α) : Prop where
  objects : s.objects <+: s'.objects
  refs : ∀ t i, ref bucket same s t = some i → ref bucket same s' t = some i
  new : ∀ o ∈ s'.objects, o ∈ s.objects ∨ P o ∧ ∀ c ∈ o.children, ∃ i, ref bucket same s' c = some i

variable {bucket same} {s s₁ s₂ s₃ : Interned α} {P : RoseTree α → Prop}

theorem sound_empty : Sound bucket same (Interned.empty : Interned α) where
  object t i h := by cases h
  number i o h := by simp [Interned.empty] at h

theorem Adds.refl : Adds bucket same P s s where
  objects := List.prefix_refl _
  refs _ _ h := h
  new _ h := .inl h

theorem Adds.trans (h₁ : Adds bucket same P s₁ s₂) (h₂ : Adds bucket same P s₂ s₃) :
    Adds bucket same P s₁ s₃ where
  objects := h₁.objects.trans h₂.objects
  refs t i h := h₂.refs t i (h₁.refs t i h)
  new o ho := by
    obtain ho | hnew := h₂.new o ho
    · obtain ho | ⟨hP, hrefs⟩ := h₁.new o ho
      · exact .inl ho
      · refine .inr ⟨hP, fun c hc => ?_⟩
        obtain ⟨i, hi⟩ := hrefs c hc
        exact ⟨i, h₂.refs c i hi⟩
    · exact .inr hnew

theorem Adds.mono {Q : RoseTree α → Prop} (h : Adds bucket same P s₁ s₂) (hPQ : ∀ t, P t → Q t) :
    Adds bucket same Q s₁ s₂ where
  objects := h.objects
  refs := h.refs
  new o ho := (h.new o ho).imp_right fun hnew => ⟨hPQ o hnew.1, hnew.2⟩

/-! ## One object -/

section
variable (hsame : Compares same)
include hsame

theorem ref_add (t t' : RoseTree α) :
    ref bucket same (add bucket same s t) t' =
      if bucket t = bucket t' ∧ same t t' = true then some s.objects.length
      else ref bucket same s t' :=
  lookup_insert hsame s.refs t t' s.objects.length

theorem ref_add_self (t : RoseTree α) :
    ref bucket same (add bucket same s t) t = some s.objects.length := by
  rw [ref_add hsame, if_pos ⟨rfl, hsame.refl t⟩]

theorem ref_add_of_some {t t' : RoseTree α} {i : ℕ} (h : ref bucket same s t = none)
    (hi : ref bucket same s t' = some i) : ref bucket same (add bucket same s t) t' = some i := by
  rw [ref_add hsame, if_neg, hi]
  rintro ⟨hbucket, heq⟩
  have hcongr : ref bucket same s t = ref bucket same s t' :=
    lookup_congr hsame s.refs hbucket heq
  rw [h, hi] at hcongr
  cases hcongr

theorem sound_add {t : RoseTree α} (hs : Sound bucket same s) (h : ref bucket same s t = none) :
    Sound bucket same (add bucket same s t) where
  object t' i hi := by
    rw [ref_add hsame] at hi
    by_cases hkey : bucket t = bucket t' ∧ same t t' = true
    · rw [if_pos hkey] at hi
      obtain rfl := Option.some.inj hi
      exact ⟨t, by simp [add], hkey.2⟩
    · rw [if_neg hkey] at hi
      obtain ⟨o, ho, heq⟩ := hs.object t' i hi
      exact ⟨o, by rw [add, List.getElem?_append_left (List.getElem?_eq_some_iff.mp ho).1, ho], heq⟩
  number i o hi := by
    unfold add at hi
    by_cases hlt : i < s.objects.length
    · rw [List.getElem?_append_left hlt] at hi
      exact ref_add_of_some hsame h (hs.number i o hi)
    · obtain ⟨hlen, ho⟩ := List.getElem?_eq_some_iff.mp hi
      rw [List.length_append, List.length_singleton] at hlen
      obtain rfl : i = s.objects.length := by omega
      rw [List.getElem_append_right (by omega)] at ho
      simp only [Nat.sub_self, List.getElem_cons_zero] at ho
      subst ho
      exact ref_add_self hsame t

/-! ## A tree -/

/-- The children of the object that was added are the last to get their references. -/
theorem adds_of_add {t : RoseTree α} {s' : Interned α} (h : ref bucket same s t = none) (hP : P t)
    (hrest : Adds bucket same P (add bucket same s t) s')
    (hchildren : ∀ c ∈ t.children, ∃ i, ref bucket same s' c = some i) :
    Adds bucket same P s s' where
  objects := (List.prefix_append _ _).trans hrest.objects
  refs t' i hi := hrest.refs t' i (ref_add_of_some hsame h hi)
  new o ho := by
    obtain hold | hnew := hrest.new o ho
    · unfold add at hold
      obtain hold | hlast := List.mem_append.mp hold
      · exact .inl hold
      · obtain rfl := List.mem_singleton.mp hlast
        exact .inr ⟨hP, hchildren⟩
    · exact .inr hnew

theorem intern_adds (t : RoseTree α) (hs : Sound bucket same s) :
    Sound bucket same (intern bucket same s t) ∧
      Adds bucket same (· ∈ t.nodes) s (intern bucket same s t) ∧
      ∃ i, ref bucket same (intern bucket same s t) t = some i := by
  induction t using RoseTree.induct generalizing s with
  | node a ts ih =>
    have hall : ∀ cs, (∀ c ∈ cs, c ∈ ts) → ∀ {s : Interned α}, Sound bucket same s →
        Sound bucket same (internAll bucket same s cs) ∧
          Adds bucket same (· ∈ (RoseTree.node a ts).nodes) s (internAll bucket same s cs) ∧
          ∀ c ∈ cs, ∃ i, ref bucket same (internAll bucket same s cs) c = some i := by
      intro cs
      induction cs with
      | nil =>
        intro _ s hs
        rw [internAll]
        exact ⟨hs, Adds.refl, by simp⟩
      | cons c cs ihcs =>
        intro hmem s hs
        have hc : c ∈ ts := hmem c List.mem_cons_self
        obtain ⟨hs₁, hadd₁, i, hi⟩ := ih c hc hs
        obtain ⟨hs₂, hadd₂, hrefs⟩ := ihcs (fun c hc => hmem c (List.mem_cons_of_mem _ hc)) hs₁
        have hsub := RoseTree.nodes_subset_of_child (t := .node a ts) hc
        rw [internAll]
        refine ⟨hs₂, (hadd₁.mono fun o ho => hsub ho).trans hadd₂, fun c' hc' => ?_⟩
        obtain rfl | hc' := List.mem_cons.mp hc'
        · exact ⟨i, hadd₂.refs _ _ hi⟩
        · exact hrefs c' hc'
    rw [intern]
    by_cases href : (ref bucket same s (.node a ts)).isSome = true
    · rw [if_pos href]
      exact ⟨hs, Adds.refl, Option.isSome_iff_exists.mp href⟩
    · rw [if_neg href]
      have hnone : ref bucket same s (.node a ts) = none := by simpa using href
      obtain ⟨hsound, hadds, hrefs⟩ := hall ts (fun _ h => h) (sound_add hsame hs hnone)
      refine ⟨hsound, adds_of_add hsame hnone (RoseTree.mem_nodes_self _) hadds hrefs, ?_⟩
      exact ⟨_, hadds.refs _ _ (ref_add_self hsame _)⟩

/-- The first object is the tree itself. -/
theorem intern_head (t : RoseTree α) :
    ∃ rest, (intern bucket same Interned.empty t).objects = t :: rest := by
  have hall : ∀ (ts : List (RoseTree α)) {s : Interned α}, Sound bucket same s →
      s.objects <+: (internAll bucket same s ts).objects := by
    intro ts
    induction ts with
    | nil => exact fun _ => List.prefix_refl _
    | cons t ts ih =>
      intro s hs
      obtain ⟨hs₁, hadd, -⟩ := intern_adds hsame t hs
      rw [internAll]
      exact hadd.objects.trans (ih hs₁)
  cases t with
  | node a ts =>
    have hsofar := hall ts (sound_add (t := .node a ts) hsame sound_empty rfl)
    obtain ⟨rest, hrest⟩ := hsofar
    rw [intern, if_neg (by simp [ref, Interned.empty])]
    exact ⟨rest, hrest.symm⟩

variable (bucket) in
/-- Every node of an interned tree has a reference if its parent is an object. -/
theorem intern_complete (t : RoseTree α) :
    Sound bucket same (intern bucket same Interned.empty t) ∧
      (∃ rest, (intern bucket same Interned.empty t).objects = t :: rest) ∧
      ∀ o ∈ (intern bucket same Interned.empty t).objects, o ∈ t.nodes ∧
        ∀ c ∈ o.children, ∃ i, ref bucket same (intern bucket same Interned.empty t) c = some i := by
  obtain ⟨hsound, hadds, -⟩ := intern_adds hsame t (sound_empty : Sound bucket same Interned.empty)
  refine ⟨hsound, intern_head hsame t, fun o ho => ?_⟩
  exact (hadds.new o ho).resolve_left (by simp [Interned.empty])

end

/-- No two objects of a bucket compare equal. -/
theorem Sound.distinct (hsame : Compares same) (hs : Sound bucket same s) {i j : ℕ}
    {o o' : RoseTree α} (hi : s.objects[i]? = some o) (hj : s.objects[j]? = some o')
    (hbucket : bucket o = bucket o') (heq : same o o' = true) : i = j := by
  have hcongr : ref bucket same s o = ref bucket same s o' :=
    lookup_congr hsame s.refs hbucket heq
  rw [hs.number i o hi, hs.number j o' hj] at hcongr
  exact Option.some.inj hcongr

end

end Foundations.Interning
