import Mathlib.Data.List.Basic
import Mathlib.Logic.Function.Basic

/-! # Hash tables with chaining

A table of buckets. An entry is found by walking through the bucket of its key and comparing; a new
entry goes to the front of its bucket, the value of a key that is there is replaced. Nothing is
assumed of the bucket function: keys that compare equal may hash to different buckets, and such
keys have entries of their own.
-/

namespace Foundations.HashTable
set_option autoImplicit false

structure Table (κ υ : Type) where
  entries : ℕ → List (κ × υ)

def Table.empty {κ υ : Type} : Table κ υ := ⟨fun _ => []⟩

section
variable {κ υ : Type} (bucket : κ → ℕ) (same : κ → κ → Bool)

def find (key : κ) (chain : List (κ × υ)) : Option υ :=
  (chain.find? fun e => same e.1 key).map Prod.snd

def put (key : κ) (value : υ) (chain : List (κ × υ)) : List (κ × υ) :=
  if chain.any fun e => same e.1 key then
    chain.replaceF fun e => if same e.1 key then some (e.1, value) else none
  else (key, value) :: chain

def lookup (t : Table κ υ) (key : κ) : Option υ := find same key (t.entries (bucket key))

def insert (t : Table κ υ) (key : κ) (value : υ) : Table κ υ :=
  ⟨Function.update t.entries (bucket key) (put same key value (t.entries (bucket key)))⟩

/-- The first entry whose key compares equal is taken out of its bucket. -/
def remove (t : Table κ υ) (key : κ) : Table κ υ :=
  ⟨Function.update t.entries (bucket key)
    ((t.entries (bucket key)).eraseP fun e => same e.1 key)⟩

structure Compares : Prop where
  refl : ∀ a, same a a = true
  symm : ∀ a b, same a b = true → same b a = true
  trans : ∀ a b c, same a b = true → same b c = true → same a c = true

variable {bucket same}

@[simp] theorem lookup_empty (key : κ) : lookup bucket same (Table.empty : Table κ υ) key = none :=
  rfl

theorem find_cons (key : κ) (e : κ × υ) (chain : List (κ × υ)) :
    find same key (e :: chain) = if same e.1 key then some e.2 else find same key chain := by
  rw [find, List.find?_cons]
  cases same e.1 key <;> rfl

/-- Keys of one bucket that compare equal find the same entry. -/
theorem lookup_congr (hsame : Compares same) (t : Table κ υ) {key key' : κ}
    (hbucket : bucket key = bucket key') (heq : same key key' = true) :
    lookup bucket same t key = lookup bucket same t key' := by
  have hcongr : (fun e : κ × υ => same e.1 key) = fun e => same e.1 key' := by
    funext e
    rw [Bool.eq_iff_iff]
    constructor
    · exact fun h => hsame.trans _ _ _ h heq
    · exact fun h => hsame.trans _ _ _ h (hsame.symm _ _ heq)
  rw [lookup, lookup, find, find, hbucket, hcongr]

theorem find_replace (hsame : Compares same) (key key' : κ) (value : υ) (chain : List (κ × υ))
    (hmem : chain.any (fun e => same e.1 key) = true) :
    find same key' (chain.replaceF fun e => if same e.1 key then some (e.1, value) else none) =
      if same key key' then some value else find same key' chain := by
  induction chain with
  | nil => cases hmem
  | cons e chain ih =>
    rw [List.replaceF_cons]
    by_cases he : same e.1 key = true
    · rw [if_pos he]
      dsimp only
      rw [find_cons, find_cons]
      by_cases hkey : same key key' = true
      · rw [if_pos hkey, if_pos (hsame.trans _ _ _ he hkey)]
      · have hne : ¬ same e.1 key' = true := fun h => hkey (hsame.trans _ _ _ (hsame.symm _ _ he) h)
        rw [if_neg hkey, if_neg hne, if_neg hne]
    · rw [if_neg he]
      dsimp only
      have hrest : chain.any (fun e => same e.1 key) = true := by
        rw [List.any_cons, Bool.or_eq_true] at hmem
        exact hmem.resolve_left he
      rw [find_cons, find_cons, ih hrest]
      by_cases hkey : same key key' = true
      · have hne : ¬ same e.1 key' = true := fun h => he (hsame.trans _ _ _ h (hsame.symm _ _ hkey))
        rw [if_neg hne, if_pos hkey, if_pos hkey]
      · rw [if_neg hkey, if_neg hkey]

theorem find_put (hsame : Compares same) (key key' : κ) (value : υ) (chain : List (κ × υ)) :
    find same key' (put same key value chain) =
      if same key key' then some value else find same key' chain := by
  unfold put
  by_cases hmem : chain.any (fun e => same e.1 key) = true
  · rw [if_pos hmem, find_replace hsame key key' value chain hmem]
  · rw [if_neg hmem, find_cons]

/-- An insertion is seen by the keys of the same bucket that compare equal, and by no others. -/
theorem lookup_insert (hsame : Compares same) (t : Table κ υ) (key key' : κ) (value : υ) :
    lookup bucket same (insert bucket same t key value) key' =
      if bucket key = bucket key' ∧ same key key' = true then some value
      else lookup bucket same t key' := by
  unfold lookup insert
  by_cases hbucket : bucket key = bucket key'
  · dsimp only
    rw [← hbucket, Function.update_self, find_put hsame]
    simp only [true_and]
  · dsimp only
    rw [Function.update_of_ne (Ne.symm hbucket), if_neg (fun h => hbucket h.1)]

/-! ## Removal -/

/-- No bucket has two entries whose keys compare equal. -/
def Distinct (same : κ → κ → Bool) (t : Table κ υ) : Prop :=
  ∀ b, (t.entries b).Pairwise fun e e' => ¬ same e.1 e'.1 = true

theorem distinct_empty : Distinct same (Table.empty : Table κ υ) := fun _ => List.Pairwise.nil

theorem pairwise_replaceF {key : κ} {value : υ} {chain : List (κ × υ)}
    (h : chain.Pairwise fun e e' => ¬ same e.1 e'.1 = true) :
    (chain.replaceF fun e => if same e.1 key then some (e.1, value) else none).Pairwise
      fun e e' => ¬ same e.1 e'.1 = true := by
  have hkeys : ∀ chain : List (κ × υ),
      (chain.replaceF fun e => if same e.1 key then some (e.1, value) else none).map Prod.fst =
        chain.map Prod.fst := by
    intro chain
    induction chain with
    | nil => rfl
    | cons e chain ih =>
      rw [List.replaceF_cons]
      by_cases he : same e.1 key = true
      · rw [if_pos he]
        rfl
      · rw [if_neg he]
        exact congrArg (e.1 :: ·) ih
  have hmap := (List.pairwise_map (f := Prod.fst) (R := fun a b => ¬ same a b = true)).mpr h
  rw [← hkeys chain] at hmap
  exact List.pairwise_map.mp hmap

theorem Distinct.insert (hsame : Compares same) {t : Table κ υ} (h : Distinct same t) (key : κ)
    (value : υ) : Distinct same (insert bucket same t key value) := by
  intro b
  unfold HashTable.insert
  dsimp only
  by_cases hb : b = bucket key
  · subst hb
    rw [Function.update_self, put]
    by_cases hmem : (t.entries (bucket key)).any (fun e => same e.1 key) = true
    · rw [if_pos hmem]
      exact pairwise_replaceF (h _)
    · rw [if_neg hmem]
      refine List.pairwise_cons.mpr ⟨fun e he heq => hmem ?_, h _⟩
      exact List.any_eq_true.mpr ⟨e, he, hsame.symm _ _ heq⟩
  · rw [Function.update_of_ne hb]
    exact h b

theorem Distinct.remove {t : Table κ υ} (h : Distinct same t) (key : κ) :
    Distinct same (remove bucket same t key) := by
  intro b
  unfold HashTable.remove
  dsimp only
  by_cases hb : b = bucket key
  · subst hb
    rw [Function.update_self]
    exact (h _).sublist List.eraseP_sublist
  · rw [Function.update_of_ne hb]
    exact h b

theorem find_eraseP (hsame : Compares same) {chain : List (κ × υ)}
    (h : chain.Pairwise fun e e' => ¬ same e.1 e'.1 = true) (key key' : κ) :
    find same key' (chain.eraseP fun e => same e.1 key) =
      if same key key' then none else find same key' chain := by
  induction chain with
  | nil => simp [find]
  | cons e chain ih =>
    obtain ⟨hhead, htail⟩ := List.pairwise_cons.mp h
    rw [List.eraseP_cons, find_cons]
    by_cases he : same e.1 key = true
    · rw [he, cond_true]
      by_cases hkey : same key key' = true
      · -- no later entry compares equal to the one that is removed
        rw [if_pos hkey, find, List.find?_eq_none.mpr fun e' he' heq => ?_, Option.map_none]
        exact hhead e' he' (hsame.trans _ _ _ (hsame.trans _ _ _ he hkey) (hsame.symm _ _ heq))
      · have hne : ¬ same e.1 key' = true := fun h => hkey (hsame.trans _ _ _ (hsame.symm _ _ he) h)
        rw [if_neg hkey, if_neg hne]
    · rw [Bool.eq_false_iff.mpr he, cond_false, find_cons, ih htail]
      by_cases hkey : same key key' = true
      · have hne : ¬ same e.1 key' = true := fun h => he (hsame.trans _ _ _ h (hsame.symm _ _ hkey))
        rw [if_neg hne, if_pos hkey, if_pos hkey]
      · rw [if_neg hkey, if_neg hkey]

theorem lookup_remove (hsame : Compares same) {t : Table κ υ} (h : Distinct same t) (key key' : κ) :
    lookup bucket same (remove bucket same t key) key' =
      if bucket key = bucket key' ∧ same key key' = true then none
      else lookup bucket same t key' := by
  unfold lookup remove
  by_cases hbucket : bucket key = bucket key'
  · dsimp only
    rw [← hbucket, Function.update_self, find_eraseP hsame (h _)]
    simp only [true_and]
  · dsimp only
    rw [Function.update_of_ne (Ne.symm hbucket), if_neg (fun h => hbucket h.1)]

end

end Foundations.HashTable
