import WinAirPlay.Plist.Decoding

/-! # What is written is read back

`plistToBin` writes each node once and refers to it by number; `plistFromBin` follows the numbers.
The nodes on the way from the root to a node are containers that have it below them, and their
numbers are different, so that the check for recursion does not end the reading.
-/

namespace WinAirPlay
open Foundations Foundations.ByteBuffer Foundations.BlockCipher Foundations.CheckedMemory
  Foundations.FloatFormat Foundations.Unicode Foundations.HashTable Foundations.Interning
set_option autoImplicit false

/-! ## Nodes of a tree -/

def IsContainer (d : PlistData) : Prop := d = .array ∨ d = .dict

/-- A key is written as a string. -/
def readNode : PlistNode → PlistNode
  | .node (.key strval) ts => .node (.string strval) ts
  | node => node

theorem readNode_of_wellFormed {Text : Bytes → Prop} {node : PlistNode} (h : WellFormed Text node) :
    readNode node = node := by
  cases h with
  | scalar d hd =>
    cases d with
    | key s => exact hd.elim
    | _ => rfl
  | array items h => rfl
  | dict items hkey hvalue => rfl

/-- The nodes of a well-formed tree are well formed, but for the keys. -/
theorem wellFormed_nodes {Text : Bytes → Prop} {node : PlistNode} (h : WellFormed Text node) :
    ∀ n ∈ node.nodes, WellFormed Text n ∨ ∃ s, n = .node (.key s) [] ∧ Text s := by
  induction h with
  | scalar d hd =>
    intro n hn
    obtain rfl : n = .node d [] := by simpa using hn
    exact .inl (.scalar d hd)
  | array items h ih =>
    intro n hn
    obtain rfl | ⟨c, hc, hn⟩ := RoseTree.mem_nodes_cases hn
    · exact .inl (.array items h)
    · exact ih c hc n hn
  | dict items hkey hvalue ih =>
    intro n hn
    obtain rfl | ⟨c, hc, hn⟩ := RoseTree.mem_nodes_cases hn
    · exact .inl (.dict items hkey hvalue)
    · obtain ⟨item, hitem, hc⟩ := List.mem_flatMap.mp hc
      obtain rfl | hc := List.mem_cons.mp hc
      · obtain rfl : n = .node (.key item.1) [] := by simpa using hn
        exact .inr ⟨item.1, rfl, hkey item hitem⟩
      · obtain rfl := List.mem_singleton.mp hc
        exact ih item hitem n hn

/-- The data of a scalar or a key. -/
def IsScalar (d : PlistData) : Prop := d.InRange StringOk ∨ ∃ s, d = .key s ∧ StringOk s

section
variable (t : PlistTree) {n o : PlistHandle}

theorem WellFormed.cases_label {Text : Bytes → Prop} {d : PlistData} {ts : List PlistNode}
    (h : WellFormed Text (.node d ts)) : d.InRange Text ∧ ts = [] ∨ IsContainer d := by
  cases h with
  | scalar d hd => exact .inl ⟨hd, rfl⟩
  | array items h => exact .inr (.inl rfl)
  | dict items hkey hvalue => exact .inr (.inr rfl)

theorem wellFormed_array {Text : Bytes → Prop} {ts : List PlistNode}
    (h : WellFormed Text (.node .array ts)) : ∀ t ∈ ts, WellFormed Text t := by
  cases h with
  | scalar d hd => exact hd.elim
  | array items h => exact h

theorem wellFormed_dict {Text : Bytes → Prop} {ts : List PlistNode}
    (h : WellFormed Text (.node .dict ts)) :
    ∃ items : List (Bytes × PlistNode), ts = dictChildren items ∧
      ∀ item ∈ items, WellFormed Text item.2 := by
  cases h with
  | scalar d hd => exact hd.elim
  | dict items hkey hvalue => exact ⟨items, rfl, hvalue⟩

theorem node_cases (hn : n ∈ t.root.nodes) :
    IsScalar n.label.2 ∧ n.children = [] ∨
      IsContainer n.label.2 ∧ WellFormed StringOk (n.map Prod.snd) := by
  have hmem : n.map Prod.snd ∈ (t.root.map Prod.snd).nodes := by
    rw [RoseTree.nodes_map]
    exact List.mem_map_of_mem hn
  obtain ⟨⟨a, d⟩, ts⟩ := n
  have hnode := wellFormed_nodes t.wellFormed _ hmem
  rw [RoseTree.map_node] at hnode ⊢
  obtain hwf | ⟨s, hs, htext⟩ := hnode
  · obtain ⟨hrange, hts⟩ | hcontainer := hwf.cases_label
    · exact .inl ⟨.inl hrange, List.map_eq_nil_iff.mp hts⟩
    · exact .inr ⟨hcontainer, hwf⟩
  · rw [RoseTree.node.injEq] at hs
    exact .inl ⟨.inr ⟨s, hs.1, htext⟩, List.map_eq_nil_iff.mp hs.2⟩

theorem untilNul_of_stringOk {s : Bytes} (h : StringOk s) : untilNul s = s := untilNul_eq_self h.2.1

/-- Equal scalars have the same data. -/
theorem data_of_compare (hn : n ∈ t.root.nodes) (ho : o ∈ t.root.nodes)
    (h : plistDataCompare o n = true) : o.label.2 = n.label.2 := by
  have hkey := (plistDataCompare_iff o n).mp h
  have htext : ∀ {n : PlistHandle}, n ∈ t.root.nodes →
      (∀ s, n.label.2 = .string s → untilNul s = s) ∧ ∀ s, n.label.2 = .key s → untilNul s = s := by
    intro n hn
    obtain ⟨hscalar, -⟩ | ⟨hcontainer, -⟩ := node_cases t hn
    · obtain hrange | ⟨s, hs, hok⟩ := hscalar
      · constructor
        · intro s hs
          rw [hs] at hrange
          exact untilNul_of_stringOk hrange
        · intro s hs
          rw [hs] at hrange
          exact hrange.elim
      · constructor
        · intro s' hs'
          rw [hs] at hs'
          cases hs'
        · intro s' hs'
          rw [hs] at hs'
          cases hs'
          exact untilNul_of_stringOk hok
    · obtain hd | hd := hcontainer
      · simp [hd]
      · simp [hd]
  have hfst : ∀ {n : PlistHandle}, n ∈ t.root.nodes → (compareKey n).1 = n.label.2 := by
    intro n hn
    have h := htext hn
    unfold compareKey
    cases hd : n.label.2 with
    | string s => exact congrArg PlistData.string (h.1 s hd)
    | key s => exact congrArg PlistData.key (h.2 s hd)
    | _ => rfl
  rw [← hfst ho, ← hfst hn, hkey]

/-- A container is equal to itself alone. -/
theorem eq_of_compare (hn : n ∈ t.root.nodes) (ho : o ∈ t.root.nodes)
    (h : plistDataCompare o n = true) (hcontainer : IsContainer n.label.2) : o = n := by
  have hkey := (plistDataCompare_iff o n).mp h
  have hdata := data_of_compare t hn ho h
  have haddress : o.label.1 = n.label.1 := by
    have hsnd := congrArg Prod.snd hkey
    unfold compareKey at hsnd
    rw [hdata] at hsnd
    obtain hd | hd := hcontainer
    · simpa only [hd] using hsnd
    · simpa only [hd] using hsnd
  exact List.inj_on_of_nodup_map t.distinct ho hn haddress

theorem writable_node (hn : n ∈ t.root.nodes) : n.label.2.Writable := by
  obtain ⟨hscalar, -⟩ | ⟨hcontainer, -⟩ := node_cases t hn
  · obtain hrange | ⟨s, hs, hok⟩ := hscalar
    · cases hd : n.label.2 with
      | uint v length =>
        rw [hd] at hrange
        exact hrange.2
      | string s =>
        rw [hd] at hrange
        exact hrange.2.2
      | uid v =>
        rw [hd] at hrange
        exact hrange
      | key s =>
        rw [hd] at hrange
        exact hrange.elim
      | _ => exact trivial
    · rw [hs]
      exact hok.2.2
  · obtain hd | hd := hcontainer
    · rw [hd]
      exact trivial
    · rw [hd]
      exact trivial

end

/-! ## Scalars -/

theorem parseBinNode_scalar {b : BplistData} {off refSize : ℕ} {child : ℕ → Checked (Option PlistNode)}
    {index : PlistHandle → ℕ} {o : PlistHandle} (hscalar : IsScalar o.label.2)
    (hlen : b.data.length < 2 ^ 32) (h : Stands b off (encodeObject index refSize o)) :
    parseBinNode b child off = .ok (some (readNode (.node o.label.2 []))) := by
  unfold encodeObject at h
  obtain hrange | ⟨s, hs, hok⟩ := hscalar
  · cases hd : o.label.2 with
    | boolean v =>
      rw [hd] at h
      exact parseBinNode_boolean v h
    | uint v length =>
      rw [hd] at h hrange
      obtain ⟨hv, rfl | rfl⟩ := hrange
      · exact parseBinNode_int hv h
      · exact parseBinNode_uint hv h
    | real v =>
      rw [hd] at h hrange
      exact parseBinNode_real hrange h
    | date v =>
      rw [hd] at h hrange
      exact parseBinNode_date hrange h
    | string s =>
      rw [hd] at h hrange
      exact parseBinNode_text hrange h
    | data s =>
      rw [hd] at h
      have hfits := h.right.hasAt.fits
      exact parseBinNode_data h (by omega)
    | uid v =>
      rw [hd] at h hrange
      exact parseBinNode_uid hrange h
    | array | dict | key s =>
      rw [hd] at hrange
      exact hrange.elim
  · rw [hs] at h ⊢
    exact parseBinNode_text hok h

theorem encodeObject_pos (index : PlistHandle → ℕ) (refSize : ℕ) (o : PlistHandle) :
    0 < (encodeObject index refSize o).length := by
  have hmarker : ∀ mark size rest, 0 < (encodeMarker mark size ++ rest).length := by
    intro mark size rest
    simp [encodeMarker]
  unfold encodeObject
  cases o.label.2 with
  | uint v length =>
    dsimp only
    split
    · simp
    · simp [encodeInt]
  | real v =>
    dsimp only [encodeReal]
    cases narrow v <;> simp
  | key s | string s =>
    dsimp only [encodeText]
    split <;> exact hmarker _ _ _
  | data s | array | dict => exact hmarker _ _ _
  | _ => simp

/-! ## The file of a tree -/

section
variable (t : PlistTree)

abbrev objectsOf : List PlistHandle := (serializePlist t.root).objects

def fileOf : Bytes := bplistFile (objectIndex t.root) (objectRefSize t.root) (objectsOf t)

/-- What is read from the trailer of the file. -/
def fileData : BplistData where
  data := fileOf t
  numObjects := (objectsOf t).length
  refSize := objectRefSize t.root
  offsetSize := getNeededBytes (offsetTableIndex (objectIndex t.root) (objectRefSize t.root) (objectsOf t))
  offsetTable := offsetTableIndex (objectIndex t.root) (objectRefSize t.root) (objectsOf t)

theorem sound_objects : Sound plistBucket plistDataCompare (serializePlist t.root) :=
  (intern_complete plistBucket compares_plistDataCompare t.root).1

theorem mem_objects {o : PlistHandle} (ho : o ∈ objectsOf t) : o ∈ t.root.nodes :=
  ((intern_complete plistBucket compares_plistDataCompare t.root).2.2 o ho).1

/-- A child of an object stands for an object that compares equal. -/
theorem object_of_child {o c : PlistHandle} (ho : o ∈ objectsOf t) (hc : c ∈ o.children) :
    ∃ o', (objectsOf t)[objectIndex t.root c]? = some o' ∧ plistDataCompare o' c = true := by
  obtain ⟨i, hi⟩ := ((intern_complete plistBucket compares_plistDataCompare t.root).2.2 o ho).2 c hc
  have hindex : objectIndex t.root c = i := congrArg (fun r => Option.getD r 0) hi
  rw [hindex]
  exact (sound_objects t).object c i hi

theorem length_fileOf : (fileOf t).length =
    (fileData t).offsetTable + ((fileData t).numObjects * (fileData t).offsetSize + 32) :=
  length_bplistFile

theorem offsetSize_cases : 0 < (fileData t).offsetSize ∧ (fileData t).offsetSize ≤ 8 := by
  have h := getNeededBytes_cases (fileData t).offsetTable
  have hsize : (fileData t).offsetSize = getNeededBytes (fileData t).offsetTable := rfl
  omega

theorem refSize_cases : 0 < (fileData t).refSize ∧ (fileData t).refSize ≤ 8 := by
  have h := getNeededBytes_cases (fileData t).numObjects
  have hsize : (fileData t).refSize = getNeededBytes (fileData t).numObjects := rfl
  omega

variable {t}

theorem object_stands {i : ℕ} {o : PlistHandle} (ho : (objectsOf t)[i]? = some o) :
    ∃ off, Stands (fileData t) off (encodeObject (objectIndex t.root) (objectRefSize t.root) o) ∧
      off < (fileData t).offsetTable ∧
      HasAt (fileOf t) ((fileData t).offsetTable + i * (fileData t).offsetSize)
        (bigEndian (fileData t).offsetSize off) := by
  have henc : (encodeObjects (objectIndex t.root) (objectRefSize t.root) (objectsOf t))[i]? =
      some (encodeObject (objectIndex t.root) (objectRefSize t.root) o) := by
    rw [encodeObjects, List.getElem?_map, ho]
    rfl
  obtain ⟨off, hoff, hat⟩ := hasAt_offsetsFrom henc bplistHeader
  have hpos := encodeObject_pos (objectIndex t.root) (objectRefSize t.root) o
  have hlen := length_fileOf t
  have hinside := (hat []).fits
  rw [List.append_nil, List.length_append] at hinside
  have htable : HasAt (fileOf t) (fileData t).offsetTable
      (offsetTable (objectIndex t.root) (objectRefSize t.root) (objectsOf t)) := by
    refine ⟨bplistHeader ++ (encodeObjects (objectIndex t.root) (objectRefSize t.root)
      (objectsOf t)).flatten, bplistTrailer (objectIndex t.root) (objectRefSize t.root) (objectsOf t),
      (List.append_assoc _ _ _).symm, List.length_append⟩
  refine ⟨off, ⟨hat _, hinside, ?_⟩, ?_, hasAt_flatMap_bigEndian htable hoff⟩
  · show _ ≤ (fileOf t).length
    omega
  · exact Nat.lt_of_lt_of_le (Nat.lt_add_of_pos_right hpos) hinside

/-- An object is parsed where its offset points to. -/
theorem parseBinNodeAtIndex_object (depth : ℕ) {i : ℕ} {o : PlistHandle} {used : List ℕ}
    (hlen : (fileOf t).length < 2 ^ 32) (ho : (objectsOf t)[i]? = some o) (hused : i ∉ used) :
    ∃ off, Stands (fileData t) off (encodeObject (objectIndex t.root) (objectRefSize t.root) o) ∧
      parseBinNodeAtIndex (fileData t) (depth + 1) used i =
        parseBinNode (fileData t) (parseBinNodeAtIndex (fileData t) depth (i :: used)) off := by
  obtain ⟨off, hstands, hoff, hat⟩ := object_stands ho
  refine ⟨off, hstands, ?_⟩
  have hi : i < (fileData t).numObjects := (List.getElem?_eq_some_iff.mp ho).1
  have hfile := length_fileOf t
  have hsize := offsetSize_cases t
  have hle : (i + 1) * (fileData t).offsetSize ≤ (fileData t).numObjects * (fileData t).offsetSize :=
    Nat.mul_le_mul_right _ hi
  have hi32 : i ≤ i * (fileData t).offsetSize := Nat.le_mul_of_pos_right _ hsize.1
  rw [Nat.succ_mul] at hle
  have hmod : i % 2 ^ 32 = i := Nat.mod_eq_of_lt (by omega)
  have hmod' : i * (fileData t).offsetSize % 2 ^ 32 = i * (fileData t).offsetSize :=
    Nat.mod_eq_of_lt (by omega)
  have hvalue : off < 256 ^ (fileData t).offsetSize := by
    refine hoff.trans (lt_getNeededBytes (v := (fileData t).offsetTable) (by omega))
  have hread := uintToHost_bigEndian hsize hvalue hat (by omega)
  rw [parseBinNodeAtIndex]
  simp only [hmod, hmod']
  rw [if_neg (by omega), if_neg (by omega)]
  show (uintToHost (fileOf t) _ _ >>= _) = _
  rw [hread, ok_bind, if_neg (by omega), if_neg hused]

/-- The containers above a node, by their numbers. -/
def Above (t : PlistTree) (n : PlistHandle) (used : List ℕ) : Prop :=
  ∀ u ∈ used, ∃ m, (objectsOf t)[u]? = some m ∧ IsContainer m.label.2 ∧
    n.nodes.length < m.nodes.length

theorem Above.not_mem {n o : PlistHandle} {i : ℕ} {used : List ℕ} (h : Above t n used)
    (hn : n ∈ t.root.nodes) (ho : (objectsOf t)[i]? = some o) (hcmp : plistDataCompare o n = true) :
    i ∉ used := by
  intro hi
  obtain ⟨m, hm, hcontainer, hlt⟩ := h i hi
  obtain rfl : o = m := Option.some.inj (ho.symm.trans hm)
  have hmem := mem_objects t (List.mem_of_getElem? ho)
  have hdata := data_of_compare t hn hmem hcmp
  rw [hdata] at hcontainer
  rw [eq_of_compare t hn hmem hcmp hcontainer] at hlt
  exact lt_irrefl _ hlt

theorem Above.child {n c : PlistHandle} {i : ℕ} {used : List ℕ} (h : Above t n used)
    (hi : (objectsOf t)[i]? = some n) (hcontainer : IsContainer n.label.2) (hc : c ∈ n.children) :
    Above t c (i :: used) := by
  have hlt := RoseTree.length_nodes_lt hc (RoseTree.mem_nodes_self c)
  intro u hu
  obtain rfl | hu := List.mem_cons.mp hu
  · exact ⟨n, hi, hcontainer, hlt⟩
  · obtain ⟨m, hm, hmc, hnm⟩ := h u hu
    exact ⟨m, hm, hmc, hlt.trans hnm⟩

theorem Above.depth_pos {n : PlistHandle} {used : List ℕ} {depth : ℕ} (h : Above t n used)
    (hnodup : used.Nodup) (hdepth : used.length + depth = (objectsOf t).length + 1) : 0 < depth := by
  have hsub : used ⊆ List.range (objectsOf t).length := by
    intro u hu
    obtain ⟨m, hm, -⟩ := h u hu
    exact List.mem_range.mpr (List.getElem?_eq_some_iff.mp hm).1
  have hle := hnodup.length_le_of_subset hsub
  rw [List.length_range] at hle
  omega

def keyOf (node : PlistHandle) : Bytes :=
  match node.label.2 with
  | .key s => s
  | _ => []

/-- The children of a dictionary, taken in pairs. -/
theorem pairs_children {cs : List PlistHandle} {items : List (Bytes × PlistNode)}
    (h : cs.map (RoseTree.map Prod.snd) = dictChildren items) :
    (∀ p ∈ pairs cs, p.1.map Prod.snd = .node (.key (keyOf p.1)) []) ∧
      (pairs cs).map (fun p => (keyOf p.1, p.2.map Prod.snd)) = items := by
  induction items generalizing cs with
  | nil =>
    obtain rfl := List.map_eq_nil_iff.mp h
    simp [pairs]
  | cons item items ih =>
    obtain ⟨k, cs, rfl, hk, h⟩ := List.map_eq_cons_iff.mp h
    obtain ⟨v, cs, rfl, hv, h⟩ := List.map_eq_cons_iff.mp h
    obtain ⟨hkeys, hitems⟩ := ih h
    have hkey : keyOf k = item.1 := by
      have hlabel := congrArg RoseTree.label hk
      rw [RoseTree.label_map] at hlabel
      unfold keyOf
      rw [hlabel]
      rfl
    rw [pairs, List.map_cons, hitems]
    refine ⟨List.forall_mem_cons.mpr ⟨by rw [hkey]; exact hk, hkeys⟩, ?_⟩
    rw [hkey, hv]

section
variable {b : BplistData} {off a : ℕ} {child : ℕ → Checked (Option PlistNode)}
  {index : PlistHandle → ℕ} {cs : List PlistHandle}
  (href : 0 < b.refSize ∧ b.refSize ≤ 8) (hlen : b.data.length < 2 ^ 64)
  (hrefers : ∀ c ∈ cs, RefersTo b child (index c) (readNode (c.map Prod.snd)))
include href hlen hrefers

theorem parseBinNode_arrayObject (hwf : WellFormed StringOk (.node .array (cs.map (RoseTree.map Prod.snd))))
    (h : Stands b off (encodeObject index b.refSize (.node (a, .array) cs))) :
    parseBinNode b child off = .ok (some (.node .array (cs.map (RoseTree.map Prod.snd)))) := by
  have hitems := wellFormed_array hwf
  have hl : ∀ p ∈ cs.map fun c => (index c, c.map Prod.snd), RefersTo b child p.1 p.2 := by
    intro p hp
    obtain ⟨c, hc, rfl⟩ := List.mem_map.mp hp
    have hr := hrefers c hc
    rw [readNode_of_wellFormed (hitems _ (List.mem_map_of_mem hc))] at hr
    exact hr
  have hstands : Stands b off (encodeMarker 0xA0 (cs.map fun c => (index c, c.map Prod.snd)).length ++
      encodeRefs b.refSize ((cs.map fun c => (index c, c.map Prod.snd)).map Prod.fst)) := by
    rw [List.length_map, List.map_map]
    exact h
  have hparse := parseBinNode_array href hlen hl hstands
  rw [List.map_map] at hparse
  exact hparse

theorem parseBinNode_dictObject (hwf : WellFormed StringOk (.node .dict (cs.map (RoseTree.map Prod.snd))))
    (h : Stands b off (encodeObject index b.refSize (.node (a, .dict) cs))) :
    parseBinNode b child off = .ok (some (.node .dict (cs.map (RoseTree.map Prod.snd)))) := by
  obtain ⟨items, hchildren, hvalues⟩ := wellFormed_dict hwf
  obtain ⟨hkeys, hpairs⟩ := pairs_children hchildren
  have hl : ∀ p ∈ (pairs cs).map fun p => ((index p.1, keyOf p.1), (index p.2, p.2.map Prod.snd)),
      RefersTo b child p.1.1 (.node (.string p.1.2) []) ∧ RefersTo b child p.2.1 p.2.2 := by
    intro p hp
    obtain ⟨q, hq, rfl⟩ := List.mem_map.mp hp
    have hmem := mem_pairs cs hq
    have hkey := hrefers q.1 hmem.1
    have hvalue := hrefers q.2 hmem.2
    have hitem : (keyOf q.1, q.2.map Prod.snd) ∈ items := by
      rw [← hpairs]
      exact List.mem_map.mpr ⟨q, hq, rfl⟩
    rw [hkeys q hq] at hkey
    rw [readNode_of_wellFormed (hvalues _ hitem)] at hvalue
    exact ⟨hkey, hvalue⟩
  have hparse := parseBinNode_dict href hlen hl (by
    rw [List.length_map, List.map_map, List.map_map, length_pairs]
    unfold encodeObject at h
    rw [List.map_append, List.map_map, List.map_map] at h
    exact h)
  rw [List.map_map] at hparse
  rw [hchildren, ← hpairs]
  exact hparse

end

/-- Every node of the tree is read back from the object that stands for it. -/
theorem parseBinNodeAtIndex_node (hlen : (fileOf t).length < 2 ^ 32) {n : PlistHandle}
    (hn : n ∈ t.root.nodes) {o : PlistHandle} {i depth : ℕ} {used : List ℕ}
    (ho : (objectsOf t)[i]? = some o) (hcmp : plistDataCompare o n = true) (hnodup : used.Nodup)
    (hdepth : used.length + depth = (objectsOf t).length + 1) (habove : Above t n used) :
    parseBinNodeAtIndex (fileData t) depth used i = .ok (some (readNode (n.map Prod.snd))) := by
  induction n using RoseTree.induct generalizing o i depth used with
  | node label cs ih =>
    have hmem := mem_objects t (List.mem_of_getElem? ho)
    have hdata := data_of_compare t hn hmem hcmp
    have hfresh := habove.not_mem hn ho hcmp
    obtain ⟨d, rfl⟩ := Nat.exists_eq_add_of_le' (habove.depth_pos hnodup hdepth)
    obtain ⟨off, hstands, hstep⟩ := parseBinNodeAtIndex_object d hlen ho hfresh
    rw [hstep]
    obtain ⟨hscalar, hleaf⟩ | ⟨hcontainer, hwf⟩ := node_cases t hn
    · -- a scalar may be read from an equal one
      rw [← hdata] at hscalar
      rw [parseBinNode_scalar hscalar hlen hstands, hdata]
      obtain rfl : cs = [] := hleaf
      rw [RoseTree.map_node]
      rfl
    · obtain rfl : o = .node label cs := eq_of_compare t hn hmem hcmp hcontainer
      have hfile := length_fileOf t
      have hsize := offsetSize_cases t
      have hnum : (fileData t).numObjects ≤ (fileData t).numObjects * (fileData t).offsetSize :=
        Nat.le_mul_of_pos_right _ hsize.1
      have hlen64 : (fileData t).data.length < 2 ^ 64 := Nat.lt_trans hlen (by decide)
      have hrefers : ∀ c ∈ cs, RefersTo (fileData t) (parseBinNodeAtIndex (fileData t) d (i :: used))
          (objectIndex t.root c) (readNode (c.map Prod.snd)) := by
        intro c hc
        obtain ⟨o', ho', hcmp'⟩ := object_of_child t (List.mem_of_getElem? ho) hc
        have hcn : c ∈ t.root.nodes := RoseTree.nodes_subset hn
          (RoseTree.nodes_subset_of_child (t := .node label cs) hc (RoseTree.mem_nodes_self c))
        have hlt : objectIndex t.root c < (fileData t).numObjects :=
          (List.getElem?_eq_some_iff.mp ho').1
        refine ⟨hlt, hlt.trans (lt_getNeededBytes (by omega)), ?_⟩
        refine ih c hc hcn ho' hcmp' (List.nodup_cons.mpr ⟨hfresh, hnodup⟩) ?_
          (habove.child ho hcontainer hc)
        rw [List.length_cons]
        omega
      rw [readNode_of_wellFormed hwf]
      obtain ⟨a, data⟩ := label
      rw [RoseTree.map_node] at hwf ⊢
      obtain hd | hd := hcontainer
      · obtain rfl : data = .array := hd
        exact parseBinNode_arrayObject (refSize_cases t) hlen64 hrefers hwf hstands
      · obtain rfl : data = .dict := hd
        exact parseBinNode_dictObject (refSize_cases t) hlen64 hrefers hwf hstands

theorem hasAt_header : HasAt (fileOf t) 0 bplistHeader :=
  ⟨[], _, List.append_assoc _ _ _, rfl⟩

theorem hasAt_trailer : HasAt (fileOf t) ((fileOf t).length - 32)
    (bplistTrailer (objectIndex t.root) (objectRefSize t.root) (objectsOf t)) := by
  refine ⟨bplistHeader ++ (encodeObjects (objectIndex t.root) (objectRefSize t.root)
      (objectsOf t)).flatten ++ offsetTable (objectIndex t.root) (objectRefSize t.root) (objectsOf t),
    [], ?_, ?_⟩
  · rw [List.append_nil, List.append_assoc _ (offsetTable _ _ _)]
    rfl
  · have hheader : bplistHeader.length = 8 := rfl
    rw [fileOf, length_bplistFile, List.length_append, List.length_append, length_offsetTable, hheader]
    unfold offsetTableIndex
    omega

theorem readTrailer_fileOf (hlen : (fileOf t).length < 2 ^ 32) :
    readTrailer (fileOf t) = .ok (fileData t, 0) := by
  have hfile := length_fileOf t
  have hsize := offsetSize_cases t
  have href := refSize_cases t
  have hnum : (fileData t).numObjects ≤ (fileData t).numObjects * (fileData t).offsetSize :=
    Nat.le_mul_of_pos_right _ hsize.1
  have htrailer := hasAt_trailer (t := t)
  have hsizes := htrailer.left.left.left.right
  have hcount : HasAt (fileOf t) ((fileOf t).length - 32 + 8) (bigEndian 8 (fileData t).numObjects) :=
    htrailer.left.left.right
  have hroot : HasAt (fileOf t) ((fileOf t).length - 32 + 16) (bigEndian 8 0) := htrailer.left.right
  have htable : HasAt (fileOf t) ((fileOf t).length - 32 + 24) (bigEndian 8 (fileData t).offsetTable) :=
    htrailer.right
  have hoffset : byteAt (fileOf t) ((fileOf t).length - 32 + 6) = UInt8.ofNat (fileData t).offsetSize :=
    hsizes.byteAt
  have hrefs : byteAt (fileOf t) ((fileOf t).length - 32 + 7) = UInt8.ofNat (fileData t).refSize :=
    hsizes.tail.byteAt
  have hheader : 8 ≤ (fileData t).offsetTable := Nat.le_add_right 8 _
  have hbyte : ∀ n, n ≤ 8 → (UInt8.ofNat n).toNat = n := by
    intro n hn
    rw [UInt8.toNat_ofNat']
    omega
  have hnumber : ∀ {off v : ℕ}, v < 2 ^ 64 → HasAt (fileOf t) off (bigEndian 8 v) →
      readBigEndian (slice (fileOf t) off 8) = v := by
    intro off v hv h
    have hslice := h.slice
    rw [length_bigEndian] at hslice
    rw [hslice, readBigEndian_bigEndian, Nat.mod_eq_of_lt (by omega)]
  rw [readTrailer_eq (by omega), hnumber (by omega) hcount, hnumber (by omega) hroot,
    hnumber (by omega) htable, hoffset, hrefs, hbyte _ hsize.2, hbyte _ href.2]
  rfl

theorem plistToBin_fileOf (t : PlistTree) :
    ∃ ba, plistToBin t.root = .ok ba ∧ ba.data = fileOf t ∧
      ba.capacity = pages (required (objectRefSize t.root) (objectsOf t)) :=
  plistToBin_layout fun _ hn => writable_node t hn

theorem plistFromBin_fileOf (hlen : (fileOf t).length < 2 ^ 32) :
    plistFromBin (fileOf t) = .ok (some (t.root.map Prod.snd)) := by
  have hfile := length_fileOf t
  have hsize := offsetSize_cases t
  have href := refSize_cases t
  have hstart : 8 ≤ (fileData t).offsetTable := Nat.le_add_right 8 _
  have hheader : HasAt (fileOf t) 0 (bplistMagic ++ bplistVersion) := hasAt_header
  have hmagic : readRange (fileOf t) 0 6 = .ok bplistMagic := by
    rw [@readRange_eq (fileOf t) 0 6 0 6 rfl rfl (by omega)]
    exact congrArg Except.ok hheader.left.slice
  have hversion : readRange (fileOf t) 6 2 = .ok bplistVersion := by
    rw [@readRange_eq (fileOf t) 6 2 6 2 rfl rfl (by omega)]
    exact congrArg Except.ok hheader.right.slice
  obtain ⟨rest, hobjects⟩ := (intern_complete plistBucket compares_plistDataCompare t.root).2.1
  have hroot : (objectsOf t)[0]? = some t.root := by
    unfold objectsOf serializePlist
    rw [hobjects]
    rfl
  have hcount : 0 < (fileData t).numObjects := (List.getElem?_eq_some_iff.mp hroot).1
  have habove : Above t t.root [] := by
    intro u hu
    cases hu
  have hparse := parseBinNodeAtIndex_node hlen (RoseTree.mem_nodes_self t.root) hroot
    (compares_plistDataCompare.refl _) List.nodup_nil (Nat.zero_add _) habove
  rw [readNode_of_wellFormed t.wellFormed] at hparse
  have hpos : (fileData t).offsetSize ≤ (fileData t).numObjects * (fileData t).offsetSize :=
    Nat.le_mul_of_pos_left _ hcount
  unfold plistFromBin
  rw [if_neg (by omega), hmagic, ok_bind, if_neg (by simp), hversion, ok_bind, if_neg (by simp),
    readTrailer_fileOf hlen, ok_bind]
  dsimp only
  rw [if_neg (by omega), if_neg (by omega), if_neg (by omega), if_neg (by omega), if_neg (by omega),
    if_neg (by omega), if_neg (by omega)]
  exact hparse

end

/-- A file that was written can be read, and gives the tree without the addresses. -/
theorem plistFromBin_plistToBin (t : PlistTree) :
    ∃ ba, plistToBin t.root = .ok ba ∧
      (ba.data.length < 2 ^ 32 → plistFromBin ba.data = .ok (some (t.root.map Prod.snd))) := by
  obtain ⟨ba, hrun, hdata, -⟩ := plistToBin_fileOf t
  refine ⟨ba, hrun, fun hlen => ?_⟩
  rw [hdata] at hlen ⊢
  exact plistFromBin_fileOf hlen

/-! ## Sharing -/

theorem plistBucket_congr {a b : PlistHandle} (h : a.label.2 = b.label.2)
    (hscalar : ¬ IsContainer a.label.2) (hdata : ∀ buff, a.label.2 ≠ .data buff) :
    plistBucket a = plistBucket b := by
  unfold plistBucket plistDataHash
  rw [← h]
  cases hd : a.label.2 with
  | array => exact absurd (.inl hd) hscalar
  | dict => exact absurd (.inr hd) hscalar
  | data buff => exact absurd hd (hdata buff)
  | _ => rfl

/-- No two objects that are written, neither containers nor raw data, have the same data: a number is
written once for each stored length, a text once as a key and once as a string. Every reference is
found, and the array stays as large as it was made. -/
theorem plistToBin_once (t : PlistTree) :
    (∃ ba, plistToBin t.root = .ok ba ∧
      ba.data.length ≤ required (objectRefSize t.root) (objectsOf t) ∧
      ba.capacity = (byteArrayNew (required (objectRefSize t.root) (objectsOf t))).capacity) ∧
    ∀ (i j : ℕ) (o o' : PlistHandle), (objectsOf t)[i]? = some o → (objectsOf t)[j]? = some o' →
      o.label.2 = o'.label.2 → ¬ IsContainer o.label.2 → (∀ buff, o.label.2 ≠ .data buff) → i = j := by
  constructor
  · obtain ⟨ba, hrun, hdata, hcapacity⟩ := plistToBin_fileOf t
    refine ⟨ba, hrun, ?_, hcapacity⟩
    rw [hdata]
    exact length_bplistFile_le fun o ho => writable_node t (mem_objects t ho)
  · intro i j o o' hi hj heq hscalar hdata
    refine (sound_objects t).distinct compares_plistDataCompare hi hj
      (plistBucket_congr heq hscalar hdata) ?_
    rw [plistDataCompare_iff]
    unfold compareKey
    rw [← heq]
    cases hd : o.label.2 with
    | array => exact absurd (.inl hd) hscalar
    | dict => exact absurd (.inr hd) hscalar
    | _ => rfl

end WinAirPlay
