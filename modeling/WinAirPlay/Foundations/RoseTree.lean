import Mathlib.Data.List.Nodup

/-! # Trees with ordered children

`nodes` lists a tree and all its subtrees, a node before its children. The functions on a tree and
on a list of trees are mutual, so that they compute; the lemmas say what they are of a list.
-/

namespace Foundations
set_option autoImplicit false

inductive RoseTree (α : Type)
  | node (label : α) (children : List (RoseTree α))

namespace RoseTree
variable {α β : Type}

@[elab_as_elim]
theorem induct {motive : RoseTree α → Prop}
    (node : ∀ a ts, (∀ t ∈ ts, motive t) → motive (.node a ts)) (t : RoseTree α) : motive t := by
  refine @RoseTree.rec α motive (fun ts => ∀ t ∈ ts, motive t) ?_ ?_ ?_ t
  · exact node
  · intro t ht
    cases ht
  · intro t ts iht ihts t' ht'
    obtain rfl | ht' := List.mem_cons.mp ht'
    · exact iht
    · exact ihts t' ht'

def label : RoseTree α → α
  | .node a _ => a

def children : RoseTree α → List (RoseTree α)
  | .node _ ts => ts

mutual
def map (f : α → β) : RoseTree α → RoseTree β
  | .node a ts => .node (f a) (mapAll f ts)

def mapAll (f : α → β) : List (RoseTree α) → List (RoseTree β)
  | [] => []
  | t :: ts => t.map f :: mapAll f ts
end

mutual
def nodes : RoseTree α → List (RoseTree α)
  | .node a ts => .node a ts :: nodesAll ts

def nodesAll : List (RoseTree α) → List (RoseTree α)
  | [] => []
  | t :: ts => t.nodes ++ nodesAll ts
end

theorem mapAll_eq (f : α → β) (ts : List (RoseTree α)) : mapAll f ts = ts.map (map f) := by
  induction ts with
  | nil => rfl
  | cons t ts ih => rw [mapAll, ih, List.map_cons]

theorem nodesAll_eq (ts : List (RoseTree α)) : nodesAll ts = ts.flatMap nodes := by
  induction ts with
  | nil => rfl
  | cons t ts ih => rw [nodesAll, ih, List.flatMap_cons]

@[simp] theorem map_node (f : α → β) (a : α) (ts : List (RoseTree α)) :
    map f (.node a ts) = .node (f a) (ts.map (map f)) := by
  rw [map, mapAll_eq]

@[simp] theorem nodes_node (a : α) (ts : List (RoseTree α)) :
    nodes (.node a ts) = .node a ts :: ts.flatMap nodes := by
  rw [nodes, nodesAll_eq]

theorem label_map (f : α → β) (t : RoseTree α) : (t.map f).label = f t.label := by
  cases t
  rfl

theorem nodes_map (f : α → β) (t : RoseTree α) : (t.map f).nodes = t.nodes.map (map f) := by
  induction t using induct with
  | node a ts ih =>
    rw [map_node, nodes_node, nodes_node, List.map_cons, map_node, List.flatMap_map,
      List.map_flatMap]
    congr 1
    exact List.flatMap_congr ih

theorem mem_nodes_self (t : RoseTree α) : t ∈ t.nodes := by
  cases t
  simp

theorem nodes_subset_of_child {t c : RoseTree α} (h : c ∈ t.children) : c.nodes ⊆ t.nodes := by
  cases t with
  | node a ts =>
    intro n hn
    rw [nodes_node]
    exact List.mem_cons_of_mem _ (List.mem_flatMap.mpr ⟨c, h, hn⟩)

/-- A node of a tree is the tree, or a node of one of its children. -/
theorem mem_nodes_cases {t n : RoseTree α} (h : n ∈ t.nodes) :
    n = t ∨ ∃ c ∈ t.children, n ∈ c.nodes := by
  cases t with
  | node a ts =>
    rw [nodes_node] at h
    obtain rfl | h := List.mem_cons.mp h
    · exact .inl rfl
    · exact .inr (List.mem_flatMap.mp h)

theorem nodes_subset {t n : RoseTree α} (h : n ∈ t.nodes) : n.nodes ⊆ t.nodes := by
  induction t using induct with
  | node a ts ih =>
    obtain rfl | ⟨c, hc, hn⟩ := mem_nodes_cases h
    · exact List.Subset.refl _
    · exact List.Subset.trans (ih c hc hn) (nodes_subset_of_child hc)

/-- A node below a child is smaller than the tree. -/
theorem length_nodes_lt {t c n : RoseTree α} (hc : c ∈ t.children) (hn : n ∈ c.nodes) :
    n.nodes.length < t.nodes.length := by
  have hchild : ∀ {u v : RoseTree α}, v ∈ u.children → v.nodes.length < u.nodes.length := by
    intro u v hv
    cases u with
    | node a ts =>
      have hsub := (List.sublist_flatten_of_mem (List.mem_map_of_mem hv : v.nodes ∈ _)).length_le
      rw [children] at hsub
      rw [nodes_node, List.length_cons, List.flatMap_def]
      omega
  have hle : n.nodes.length ≤ c.nodes.length := by
    clear hc
    induction c using induct with
    | node a ts ih =>
      obtain rfl | ⟨d, hd, hn⟩ := mem_nodes_cases hn
      · exact Nat.le_refl _
      · have hlt := hchild hd
        have hle := ih d hd hn
        omega
  have hlt := hchild hc
  omega

/-! ## Numbered nodes -/

mutual
/-- The nodes are numbered in the order of `nodes`, from `k` on; `alloc` is what a number stands
for. -/
def number (alloc : ℕ → ℕ) (k : ℕ) : RoseTree α → RoseTree (ℕ × α)
  | .node a ts => .node (alloc k, a) (numberAll alloc (k + 1) ts)

def numberAll (alloc : ℕ → ℕ) (k : ℕ) : List (RoseTree α) → List (RoseTree (ℕ × α))
  | [] => []
  | t :: ts => number alloc k t :: numberAll alloc (k + t.nodes.length) ts
end

theorem map_snd_number (alloc : ℕ → ℕ) (t : RoseTree α) (k : ℕ) :
    (number alloc k t).map Prod.snd = t := by
  induction t using induct generalizing k with
  | node a ts ih =>
    have hall : ∀ (cs : List (RoseTree α)), (∀ c ∈ cs, c ∈ ts) → ∀ k,
        (numberAll alloc k cs).map (map Prod.snd) = cs := by
      intro cs
      induction cs with
      | nil => exact fun _ _ => by rw [numberAll, List.map_nil]
      | cons c cs ihcs =>
        intro hmem k
        obtain ⟨hc, hrest⟩ := List.forall_mem_cons.mp hmem
        rw [numberAll, List.map_cons, ih c hc, ihcs hrest]
    rw [number, map_node, hall ts (fun _ h => h)]

theorem numbers_number (alloc : ℕ → ℕ) (t : RoseTree α) (k : ℕ) :
    (number alloc k t).nodes.map (fun node => node.label.1) =
      (List.range' k t.nodes.length).map alloc := by
  induction t using induct generalizing k with
  | node a ts ih =>
    have hall : ∀ (cs : List (RoseTree α)), (∀ c ∈ cs, c ∈ ts) → ∀ k,
        ((numberAll alloc k cs).flatMap nodes).map (fun node => node.label.1) =
          (List.range' k (cs.flatMap nodes).length).map alloc := by
      intro cs
      induction cs with
      | nil => exact fun _ _ => by rw [numberAll]; rfl
      | cons c cs ihcs =>
        intro hmem k
        obtain ⟨hc, hrest⟩ := List.forall_mem_cons.mp hmem
        rw [numberAll, List.flatMap_cons, List.map_append, ih c hc, ihcs hrest, List.flatMap_cons,
          List.length_append, ← List.map_append, List.range'_append_1]
    rw [number, nodes_node, nodes_node, List.map_cons, hall ts (fun _ h => h), List.length_cons,
      List.range'_succ, List.map_cons]
    rfl

theorem nodup_number {alloc : ℕ → ℕ} (halloc : Function.Injective alloc) (t : RoseTree α) (k : ℕ) :
    ((number alloc k t).nodes.map fun node => node.label.1).Nodup := by
  rw [numbers_number]
  exact List.Nodup.map halloc List.nodup_range'

end RoseTree

end Foundations
