import WinAirPlay.Plist.RoundTrip
import WinAirPlay.Raop.Plist

/-! # The library as the handlers use it

The handlers see a property list as a `Plist`. `Plist.ofNode` is what they see of the nodes of
`libcnary`, `Plist.toNode` the nodes they build, and `libplist` puts `plist_from_bin` and
`plist_to_bin` behind the interface of the handlers. The addresses that the allocator hands out are
a parameter.
-/

namespace WinAirPlay
open Foundations Foundations.ByteBuffer Foundations.CheckedMemory
set_option autoImplicit false

/-! ## Nodes as values -/

mutual
/-- What the accessors tell of a node; the keys are compared up to a NUL. -/
def Plist.ofNode : PlistNode → Plist
  | .node d ts =>
    match d with
    | .boolean boolval => .boolean boolval
    | .uint intval _ => .uint intval
    | .real realval => .real realval
    | .string strval => .string strval
    | .data buff => .data buff
    | .array => .array (ofNodes ts)
    | .dict => .dict (ofItems ts)
    | .date _ | .key _ | .uid _ => .other

def ofNodes : List PlistNode → List Plist
  | [] => []
  | t :: ts => Plist.ofNode t :: ofNodes ts

def ofItems : List PlistNode → List (Bytes × Plist)
  | k :: v :: ts =>
    match k.label with
    | .key strval => (untilNul strval, Plist.ofNode v) :: ofItems ts
    | _ => ofItems ts
  | _ => []
end

mutual
/-- The nodes of a value; the nodes that the handlers do not know are not built. -/
def Plist.toNode : Plist → PlistNode
  | .boolean val => .node (.boolean val) []
  | .uint val => .node (.uint val 8) []
  | .real bits => .node (.real bits) []
  | .string val => .node (.string val) []
  | .data val => .node (.data val) []
  | .array items => .node .array (toNodes items)
  | .dict items => .node .dict (toChildren items)
  | .other => .node (.uid 0) []

def toNodes : List Plist → List PlistNode
  | [] => []
  | p :: ps => p.toNode :: toNodes ps

def toChildren : List (Bytes × Plist) → List PlistNode
  | [] => []
  | (key, val) :: items => .node (.key key) [] :: val.toNode :: toChildren items
end

def libplist (alloc : ℕ → ℕ) : Libplist where
  fromBin block :=
    match plistFromBin block with
    | .ok (some node) => some (.ofNode node)
    | _ => none
  toBin plist :=
    match plistToBin (plist.toNode.number alloc 0) with
    | .ok ba => ba.data
    | .error _ => []

/-- The values that the library can write. -/
inductive Encodable : Plist → Prop
  | boolean (val : Bool) : Encodable (.boolean val)
  | uint (val : ℕ) (h : val < 2 ^ 64) : Encodable (.uint val)
  | real (bits : ℕ) (h : bits < 2 ^ 64) : Encodable (.real bits)
  | string (val : Bytes) (h : StringOk val) : Encodable (.string val)
  | data (val : Bytes) : Encodable (.data val)
  | array (items : List Plist) (h : ∀ item ∈ items, Encodable item) : Encodable (.array items)
  | dict (items : List (Bytes × Plist)) (hkey : ∀ item ∈ items, StringOk item.1)
    (hvalue : ∀ item ∈ items, Encodable item.2) : Encodable (.dict items)

theorem toNodes_eq (items : List Plist) : toNodes items = items.map Plist.toNode := by
  induction items with
  | nil => rfl
  | cons p ps ih => rw [toNodes, ih, List.map_cons]

theorem toChildren_eq (items : List (Bytes × Plist)) :
    toChildren items = dictChildren (items.map fun item => (item.1, item.2.toNode)) := by
  induction items with
  | nil => rfl
  | cons item items ih =>
    obtain ⟨key, val⟩ := item
    rw [toChildren, ih]
    rfl

theorem wellFormed_toNode {p : Plist} (h : Encodable p) : WellFormed StringOk p.toNode := by
  induction h with
  | boolean val => exact .scalar _ trivial
  | uint val h => exact .scalar _ ⟨h, .inl rfl⟩
  | real bits h => exact .scalar _ h
  | string val h => exact .scalar _ h
  | data val => exact .scalar _ trivial
  | array items _ ih =>
    rw [Plist.toNode, toNodes_eq]
    refine .array _ fun node hnode => ?_
    obtain ⟨item, hitem, rfl⟩ := List.mem_map.mp hnode
    exact ih item hitem
  | dict items hkey _ ih =>
    rw [Plist.toNode, toChildren_eq]
    refine .dict _ (fun node hnode => ?_) fun node hnode => ?_
    · obtain ⟨item, hitem, rfl⟩ := List.mem_map.mp hnode
      exact hkey item hitem
    · obtain ⟨item, hitem, rfl⟩ := List.mem_map.mp hnode
      exact ih item hitem

theorem ofNode_toNode {p : Plist} (h : Encodable p) : Plist.ofNode p.toNode = p := by
  induction h with
  | boolean val => rfl
  | uint val h => rfl
  | real bits h => rfl
  | string val h => rfl
  | data val => rfl
  | array items hitems ih =>
    have hall : ofNodes (toNodes items) = items := by
      clear hitems
      induction items with
      | nil => rfl
      | cons item items ihitems =>
        obtain ⟨hitem, hrest⟩ := List.forall_mem_cons.mp ih
        rw [toNodes, ofNodes, hitem, ihitems hrest]
    rw [Plist.toNode, Plist.ofNode, hall]
  | dict items hkey hvalue ih =>
    have hall : ofItems (toChildren items) = items := by
      clear hvalue
      induction items with
      | nil => rfl
      | cons item items ihitems =>
        obtain ⟨hitem, hrest⟩ := List.forall_mem_cons.mp ih
        obtain ⟨hkitem, hkrest⟩ := List.forall_mem_cons.mp hkey
        obtain ⟨key, val⟩ := item
        rw [toChildren, ofItems, hitem, ihitems hkrest hrest]
        dsimp only [RoseTree.label]
        rw [untilNul_of_stringOk hkitem]
    rw [Plist.toNode, Plist.ofNode, hall]

/-! ## Both ways -/

section
variable {alloc alloc' : ℕ → ℕ} (halloc : Function.Injective alloc)

/-- The nodes of a value in memory. -/
def treeOf {p : Plist} (hp : Encodable p) : PlistTree where
  root := p.toNode.number alloc 0
  wellFormed := by
    rw [RoseTree.map_snd_number]
    exact wellFormed_toNode hp
  distinct := RoseTree.nodup_number halloc _ _

include halloc in
/-- What one process writes the other reads, wherever the two keep their nodes. -/
theorem libplist_fromBin_toBin {p : Plist} (hp : Encodable p)
    (hlen : ((libplist alloc).toBin p).length < 2 ^ 32) :
    (libplist alloc').fromBin ((libplist alloc).toBin p) = some p := by
  obtain ⟨ba, hrun, hdata, -⟩ := plistToBin_fileOf (treeOf halloc hp)
  have hbin : (libplist alloc).toBin p = fileOf (treeOf halloc hp) := by
    dsimp only [libplist]
    rw [show plistToBin (p.toNode.number alloc 0) = .ok ba from hrun]
    exact hdata
  rw [hbin] at hlen ⊢
  have hread := plistFromBin_fileOf hlen
  rw [show (treeOf halloc hp).root.map Prod.snd = p.toNode from RoseTree.map_snd_number _ _ _] at hread
  dsimp only [libplist]
  rw [hread]
  exact congrArg some (ofNode_toNode hp)

end

/-! ## Looking up a key -/

/-- The loop of `plist_dict_get_item` over every other child; a dictionary that was read has no hash
table. -/
def dictGetItem (key : Bytes) : List PlistNode → Checked (Option PlistNode)
  | [] => .ok none
  | current :: rest =>
    match current.label with
    | .key strval =>
      if key = untilNul strval then .ok rest.head?
      else
        match rest with
        | [] => .ok none
        | _ :: rest => dictGetItem key rest
    -- `assert( PLIST_KEY == plist_get_node_type(current) )`
    | _ => .error .assertionFailed

def plistDictGetItemOf (node : Option PlistNode) (key : Bytes) : Checked (Option PlistNode) :=
  match node with
  | some (.node .dict ts) => dictGetItem key ts
  | _ => .ok none

theorem dictGetItem_eq (key : Bytes) (items : List (Bytes × PlistNode)) :
    dictGetItem key (dictChildren items) =
      .ok ((items.find? fun item => untilNul item.1 = key).map Prod.snd) := by
  induction items with
  | nil => rfl
  | cons item items ih =>
    rw [dictChildren, List.flatMap_cons, ← dictChildren, List.cons_append, List.cons_append,
      List.nil_append, dictGetItem, List.find?_cons]
    dsimp only [RoseTree.label]
    by_cases hkey : key = untilNul item.1
    · rw [if_pos hkey, decide_eq_true hkey.symm]
      rfl
    · rw [if_neg hkey, decide_eq_false (Ne.symm hkey), ih]

theorem ofItems_dictChildren (items : List (Bytes × PlistNode)) :
    ofItems (dictChildren items) = items.map fun item => (untilNul item.1, .ofNode item.2) := by
  induction items with
  | nil => rfl
  | cons item items ih =>
    rw [dictChildren, List.flatMap_cons, ← dictChildren, List.cons_append, List.cons_append,
      List.nil_append, ofItems, ih]
    rfl

theorem dictGetItem_ofNode {Text : Bytes → Prop} {node : PlistNode} (h : WellFormed Text node)
    (key : String) :
    ∃ r, plistDictGetItemOf (some node) (ascii key) = .ok r ∧
      plistDictGetItem (some (.ofNode node)) key = r.map .ofNode := by
  cases h with
  | scalar d hd =>
    refine ⟨none, ?_, ?_⟩
    · cases d with
      | dict => exact hd.elim
      | _ => rfl
    · cases d with
      | dict => exact hd.elim
      | _ => rfl
  | array items h => exact ⟨none, rfl, rfl⟩
  | dict items hkey hvalue =>
    refine ⟨_, dictGetItem_eq (ascii key) items, ?_⟩
    rw [Plist.ofNode, ofItems_dictChildren, plistDictGetItem, List.find?_map, Option.map_map,
      Option.map_map]
    rfl

/-- Whatever block of less than `2 ^ 30` bytes is read, the lookup of a key in any of its nodes ends
without a failing assertion, and finds the node whose value the handlers see. -/
theorem plistDictGetItem_ofNode {block : Bytes} {root node : PlistNode}
    (hblock : block.length < 2 ^ 30) (hread : plistFromBin block = .ok (some root))
    (hnode : node ∈ root.nodes) (key : String) :
    ∃ r, plistDictGetItemOf (some node) (ascii key) = .ok r ∧
      plistDictGetItem (some (.ofNode node)) key = r.map .ofNode := by
  have hsafe := plistFromBin_safe block hblock
  rw [hread] at hsafe
  obtain hwf | ⟨s, rfl, -⟩ := wellFormed_nodes (hsafe root rfl) node hnode
  · exact dictGetItem_ofNode hwf key
  · exact ⟨none, rfl, rfl⟩

/-- The dictionary `{"a": true, "b": {"c": false, "a": true}}`, with shared objects. -/
def nestedBlock : Bytes :=
  bplistMagic ++ bplistVersion ++
    [0xd2, 1, 2, 3, 4, 0x51, 0x61, 0x51, 0x62, 9, 0xd2, 5, 1, 6, 3, 0x51, 0x63, 8] ++
    [8, 13, 15, 17, 18, 23, 25] ++
    (List.replicate 6 0 ++ [1, 1] ++ [0, 0, 0, 0, 0, 0, 0, 7] ++ List.replicate 8 0 ++
      [0, 0, 0, 0, 0, 0, 0, 26])

def innerNode : PlistNode :=
  .node .dict [.node (.key [99]) [], .node (.boolean false) [], .node (.key [97]) [],
    .node (.boolean true) []]

def nestedNode : PlistNode :=
  .node .dict [.node (.key [97]) [], .node (.boolean true) [], .node (.key [98]) [], innerNode]

set_option maxRecDepth 4000 in
/-- Keys of both dictionaries, and one that is only in the outer. -/
theorem plistDictGetItem_ofNode_nested :
    plistDictGetItem (some (.ofNode nestedNode)) "b" = some (.ofNode innerNode) ∧
      plistDictGetItem (some (.ofNode innerNode)) "a" = some (.boolean true) ∧
      plistDictGetItem (some (.ofNode innerNode)) "b" = none := by
  have hread : plistFromBin nestedBlock = .ok (some nestedNode) := by
    rfl
  have hinner : innerNode ∈ nestedNode.nodes := by
    simp [nestedNode, innerNode, RoseTree.nodes]
  obtain ⟨r, hr, houter⟩ := plistDictGetItem_ofNode (by decide) hread (RoseTree.mem_nodes_self _) "b"
  obtain rfl : r = some innerNode := by
    cases hr
    rfl
  obtain ⟨r, hr, ha⟩ := plistDictGetItem_ofNode (by decide) hread hinner "a"
  obtain rfl : r = some (.node (.boolean true) []) := by
    cases hr
    rfl
  obtain ⟨r, hr, hb⟩ := plistDictGetItem_ofNode (by decide) hread hinner "b"
  obtain rfl : r = none := by
    cases hr
    rfl
  exact ⟨houter, ha, hb⟩

end WinAirPlay
