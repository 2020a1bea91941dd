import Mathlib.Data.List.Induction
import Mathlib.Data.List.Perm.Basic
import Mathlib.Data.Nat.Notation

/-! # Ring buffers

A ring of fixed size and the index of its newest entry. `push` moves the index on by one and
overwrites the entry there. Counted backwards from the index, the ring holds the history of what
was pushed, newest first (`Holds`); the entries it started with are the oldest part of it.
-/

namespace Foundations.RingBuffer
set_option autoImplicit false

variable {α : Type}

structure Circular (α : Type) where
  entries : List α
  index : ℕ

def push (r : Circular α) (x : α) : Circular α :=
  let j := (r.index + 1) % r.entries.length
  { entries := r.entries.set j x, index := j }

/-- Entry number `j` of the history, counted backwards from the index. -/
def Holds (r : Circular α) (history : List α) : Prop :=
  r.index < r.entries.length ∧
    ∀ j < r.entries.length,
      r.entries[(r.index + r.entries.length - j) % r.entries.length]? = history[j]?

theorem holds_replicate {n : ℕ} (hn : 0 < n) (x : α) :
    Holds ⟨List.replicate n x, 0⟩ (List.replicate n x) := by
  refine ⟨by simpa using hn, fun j hj => ?_⟩
  simp only [List.length_replicate] at hj ⊢
  rw [List.getElem?_replicate, List.getElem?_replicate, if_pos hj, if_pos (Nat.mod_lt _ hn)]

@[simp] theorem length_push (r : Circular α) (x : α) :
    (push r x).entries.length = r.entries.length := List.length_set

/-- The new entry becomes the newest of the history and the others move back. -/
theorem holds_push {r : Circular α} {history : List α} (h : Holds r history) (x : α) :
    Holds (push r x) (x :: history) := by
  obtain ⟨hindex, hentries⟩ := h
  generalize hn : r.entries.length = n at hindex hentries
  have hpush : (push r x).index = (r.index + 1) % n := by rw [← hn]; rfl
  refine ⟨?_, fun j hj => ?_⟩
  · rw [length_push, hn, hpush]
    exact Nat.mod_lt _ (by omega)
  · rw [length_push, hn] at hj ⊢
    rw [hpush]
    show (r.entries.set ((r.index + 1) % r.entries.length) x)[_]? = _
    rw [hn]
    cases j with
    | zero =>
      have hpos : ((r.index + 1) % n + n - 0) % n = (r.index + 1) % n := by
        rw [Nat.sub_zero, Nat.add_mod_right, Nat.mod_mod]
      rw [hpos, List.getElem?_set_self (by rw [hn]; exact Nat.mod_lt _ (by omega))]
      rfl
    | succ m =>
      have hpos : ((r.index + 1) % n + n - (m + 1)) % n = (r.index + n - m) % n := by
        rcases Nat.lt_or_ge (r.index + 1) n with hlt | hge
        · rw [Nat.mod_eq_of_lt hlt]
          congr 1
          omega
        · obtain rfl : n = r.index + 1 := by omega
          rw [Nat.mod_self, show r.index + (r.index + 1) - m = r.index - m + (r.index + 1) by omega,
            Nat.add_mod_right]
          congr 1
          omega
      have hne : (r.index + 1) % n ≠ (r.index + n - m) % n := by
        rcases Nat.lt_or_ge m (r.index + 1) with hm | hm
        · rw [show r.index + n - m = r.index - m + n by omega, Nat.add_mod_right,
            Nat.mod_eq_of_lt (a := r.index - m) (by omega)]
          rcases Nat.lt_or_ge (r.index + 1) n with hlt | hge
          · rw [Nat.mod_eq_of_lt hlt]
            omega
          · obtain rfl : n = r.index + 1 := by omega
            rw [Nat.mod_self]
            omega
        · rw [Nat.mod_eq_of_lt (a := r.index + n - m) (by omega), Nat.mod_eq_of_lt (by omega)]
          omega
      rw [hpos, List.getElem?_set_ne hne, hentries m (by omega), List.getElem?_cons_succ]

/-- Slot `p` holds entry number `(index + n - p) % n`. -/
theorem index_back {index p n : ℕ} (hindex : index < n) (hp : p < n) :
    (index + n - (index + n - p) % n) % n = p := by
  rcases Nat.lt_or_ge index p with hlt | hge
  · rw [Nat.mod_eq_of_lt (a := index + n - p) (by omega),
      show index + n - (index + n - p) = p by omega, Nat.mod_eq_of_lt hp]
  · rw [show index + n - p = index - p + n by omega, Nat.add_mod_right,
      Nat.mod_eq_of_lt (a := index - p) (by omega),
      show index + n - (index - p) = p + n by omega, Nat.add_mod_right, Nat.mod_eq_of_lt hp]

/-- What the ring contains is the newest part of the history. -/
theorem mem_entries_iff {r : Circular α} {history : List α} (h : Holds r history) (x : α) :
    x ∈ r.entries ↔ x ∈ history.take r.entries.length := by
  obtain ⟨hindex, hentries⟩ := h
  generalize hn : r.entries.length = n at hindex hentries
  constructor
  · intro hx
    obtain ⟨p, hp, rfl⟩ := List.getElem_of_mem hx
    rw [hn] at hp
    have hback := index_back hindex hp
    have hj := hentries ((r.index + n - p) % n) (Nat.mod_lt _ (by omega))
    rw [hback, List.getElem?_eq_getElem (by omega)] at hj
    refine List.mem_of_getElem? (i := (r.index + n - p) % n) ?_
    rw [List.getElem?_take, if_pos (Nat.mod_lt _ (by omega)), ← hj]
  · intro hx
    obtain ⟨j, hj, hjx⟩ := List.getElem_of_mem hx
    rw [List.length_take] at hj
    have hentry := hentries j (by omega)
    rw [← hjx, List.getElem_take]
    rw [List.getElem?_eq_getElem (by omega : j < history.length)] at hentry
    exact List.mem_of_getElem? hentry

/-- Two rings with the same newest entries and the same index have every entry in the same slot. -/
theorem entries_ext {r r' : Circular α} {history history' : List α} (h : Holds r history)
    (h' : Holds r' history') (hlength : r.entries.length = r'.entries.length)
    (hindex : r.index = r'.index)
    (hnewest : history.take r.entries.length = history'.take r.entries.length) :
    r.entries = r'.entries := by
  refine List.ext_getElem? fun p => ?_
  rcases Nat.lt_or_ge p r.entries.length with hp | hp
  · have hage : (r.index + r.entries.length - p) % r.entries.length < r.entries.length :=
      Nat.mod_lt _ (by omega)
    have hentry := h.2 _ hage
    have hentry' := h'.2 _ (hlength ▸ hage)
    rw [index_back h.1 hp] at hentry
    rw [← hlength, ← hindex, index_back h.1 hp] at hentry'
    rw [hentry, hentry', ← List.getElem?_take_of_lt hage, hnewest, List.getElem?_take_of_lt hage]
  · rw [List.getElem?_eq_none hp, List.getElem?_eq_none (hlength ▸ hp)]

/-! ## The ring as a multiset -/

/-- The entry that is overwritten is the oldest one. -/
theorem perm_push {r : Circular α} {history : List α} (h : Holds r history)
    (hperm : r.entries.Perm (history.take r.entries.length)) (x : α) :
    (push r x).entries.Perm ((x :: history).take r.entries.length) := by
  obtain ⟨hindex, hentries⟩ := h
  have hj : (r.index + 1) % r.entries.length < r.entries.length := Nat.mod_lt _ (by omega)
  obtain ⟨n, hn⟩ : ∃ n, r.entries.length = n + 1 := ⟨r.entries.length - 1, by omega⟩
  have holdest := hentries n (by omega)
  rw [show r.index + r.entries.length - n = r.index + 1 by omega,
    List.getElem?_eq_getElem hj] at holdest
  have hsplit : history.take (n + 1) =
      history.take n ++ [r.entries[(r.index + 1) % r.entries.length]] := by
    rw [List.take_add_one, ← holdest]
    rfl
  rw [hn, hsplit] at hperm
  have herase := (List.getElem_cons_eraseIdx_perm hj).trans hperm
  have hrest := (herase.trans List.perm_append_comm).cons_inv
  have hset := List.set_perm_cons_eraseIdx hj x
  rw [hn, List.take_succ_cons]
  exact hset.trans (hrest.cons x)

/-- A ring that starts filled with one value holds the newest of what was pushed. -/
theorem pushes_replicate {n : ℕ} (hn : 0 < n) (x : α) (xs : List α) :
    let r := xs.foldl push ⟨List.replicate n x, 0⟩
    r.entries.length = n ∧ Holds r (xs.reverse ++ List.replicate n x) ∧
      r.entries.Perm ((xs.reverse ++ List.replicate n x).take n) := by
  induction xs using List.reverseRecOn with
  | nil =>
    refine ⟨List.length_replicate, holds_replicate hn x, ?_⟩
    rw [List.reverse_nil, List.nil_append, List.take_of_length_le (Nat.le_of_eq List.length_replicate)]
    exact List.Perm.refl _
  | append_singleton xs y ih =>
    obtain ⟨hlen, hholds, hperm⟩ := ih
    rw [List.foldl_append, List.reverse_append]
    refine ⟨(length_push _ _).trans hlen, holds_push hholds y, ?_⟩
    have hpush := perm_push hholds (hlen.symm ▸ hperm) y
    rw [hlen] at hpush
    exact hpush

theorem index_pushes {n : ℕ} (hn : 0 < n) (x : α) (xs : List α) :
    (xs.foldl push ⟨List.replicate n x, 0⟩).index = xs.length % n := by
  induction xs using List.reverseRecOn with
  | nil => exact (Nat.zero_mod n).symm
  | append_singleton xs y ih =>
    have hlen := (pushes_replicate hn x xs).1
    rw [List.foldl_append, List.length_append]
    show (_ + 1) % _ = (xs.length + 1) % n
    rw [hlen, ih, Nat.mod_add_mod]

end Foundations.RingBuffer
