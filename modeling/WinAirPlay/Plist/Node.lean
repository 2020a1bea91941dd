import Mathlib.Data.List.TakeWhile
import WinAirPlay.Foundations.RoseTree
import WinAirPlay.Foundations.Unicode

/-! # The nodes of a property list

A node of `libcnary` with the `plist_data_t` it points to. The children of a dictionary are its keys
and values in turn. A node that is read has no address that anything depends on; a node that is
written is a `PlistTree`, whose nodes have addresses, since the writer compares some of them by
pointer.
-/

namespace WinAirPlay
open Foundations Foundations.ByteBuffer Foundations.Unicode
set_option autoImplicit false

/-- The part of a text that `strlen` and `strcmp` look at. -/
def untilNul (strval : Bytes) : Bytes := strval.takeWhile fun x => x ≠ 0

theorem untilNul_eq_self {s : Bytes} (h : 0 ∉ s) : untilNul s = s := by
  rw [untilNul, List.takeWhile_eq_self_iff]
  intro x hx
  simp only [decide_eq_true_eq]
  rintro rfl
  exact h hx

theorem zero_notMem_untilNul (s : Bytes) : 0 ∉ untilNul s := by
  intro hmem
  have hne := List.mem_takeWhile_imp hmem
  simp at hne

/-- `plist_data_t`; a `double` is its bit pattern. `length` is the size of a number in the file, and
the `length` of a text is that of `strval`. -/
inductive PlistData
  | boolean (boolval : Bool)
  | uint (intval length : ℕ)
  | real (realval : ℕ)
  | string (strval : Bytes)
  | array
  | dict
  | date (realval : ℕ)
  | data (buff : Bytes)
  | key (strval : Bytes)
  | uid (intval : ℕ)
  deriving DecidableEq

abbrev PlistNode := RoseTree PlistData

/-- What a scalar holds, where `Text` is what is required of a string. -/
def PlistData.InRange (Text : Bytes → Prop) : PlistData → Prop
  | .boolean _ => True
  | .uint intval length => intval < 2 ^ 64 ∧ (length = 8 ∨ length = 16)
  | .real realval => realval < 2 ^ 64
  | .string strval => Text strval
  | .date realval => realval < 2 ^ 64
  | .data _ => True
  | .uid intval => intval < 2 ^ 32
  | .array | .dict | .key _ => False

/-- The children of a dictionary. -/
def dictChildren (items : List (Bytes × PlistNode)) : List PlistNode :=
  items.flatMap fun item => [.node (.key item.1) [], item.2]

/-- A key is only found in front of a value of a dictionary, and only containers have children. -/
inductive WellFormed (Text : Bytes → Prop) : PlistNode → Prop
  | scalar (d : PlistData) (h : d.InRange Text) : WellFormed Text (.node d [])
  | array (items : List PlistNode) (h : ∀ item ∈ items, WellFormed Text item) :
    WellFormed Text (.node .array items)
  | dict (items : List (Bytes × PlistNode)) (hkey : ∀ item ∈ items, Text item.1)
    (hvalue : ∀ item ∈ items, WellFormed Text item.2) :
    WellFormed Text (.node .dict (dictChildren items))

theorem WellFormed.mono {Text Text' : Bytes → Prop} (h : ∀ b, Text b → Text' b) {node : PlistNode}
    (hnode : WellFormed Text node) : WellFormed Text' node := by
  induction hnode with
  | scalar d hd =>
    refine .scalar d ?_
    cases d with
    | string b => exact h b hd
    | _ => exact hd
  | array items _ ih => exact .array items ih
  | dict items hkey _ ih => exact .dict items (fun item hitem => h _ (hkey item hitem)) ih

/-- A text without a NUL whose size in the file and in memory stays within a `long`. -/
def StringOk (b : Bytes) : Prop := (∃ text, b = utf8 text) ∧ 0 ∉ b ∧ 4 * (b.length + 1) < 2 ^ 31

/-- A property list that a program builds; the address of a node comes first. -/
structure PlistTree where
  root : RoseTree (ℕ × PlistData)
  wellFormed : WellFormed StringOk (root.map Prod.snd)
  distinct : (root.nodes.map fun node => node.label.1).Nodup

end WinAirPlay
