import WinAirPlay.Plist.Writer

/-! # What the writer writes

The bytes of an object as a function of its data and the numbers of its children. Every `write`
function appends these bytes to the array, and as long as they fit the array keeps its capacity;
`plistToBin_layout` puts the objects together with the offset table and the trailer. The size that
is worked out beforehand is enough, so that the array never grows.
-/

namespace WinAirPlay
open Foundations Foundations.ByteBuffer Foundations.BlockCipher Foundations.CheckedMemory
  Foundations.FloatFormat Foundations.HashTable Foundations.Interning
set_option autoImplicit false

/-! ## Comparing nodes -/

/-- Two nodes compare equal exactly if they agree in this. -/
def compareKey (node : PlistHandle) : PlistData × ℕ :=
  match node.label.2 with
  | .key strval => (.key (untilNul strval), 0)
  | .string strval => (.string (untilNul strval), 0)
  | .array => (.array, node.label.1)
  | .dict => (.dict, node.label.1)
  | d => (d, 0)

theorem plistDataCompare_iff (a b : PlistHandle) :
    plistDataCompare a b = true ↔ compareKey a = compareKey b := by
  unfold plistDataCompare compareKey
  cases a.label.2 <;> cases b.label.2 <;> simp
  case uint.uint => exact and_comm
  case data.data =>
    rintro rfl
    rfl

theorem compares_plistDataCompare : Compares plistDataCompare where
  refl a := (plistDataCompare_iff a a).mpr rfl
  symm a b h := (plistDataCompare_iff b a).mpr ((plistDataCompare_iff a b).mp h).symm
  trans a b c hab hbc := (plistDataCompare_iff a c).mpr
    (((plistDataCompare_iff a b).mp hab).trans ((plistDataCompare_iff b c).mp hbc))

/-! ## Encodings -/

/-- There is no number of three bytes. -/
def intSize (v : ℕ) : ℕ := if getNeededBytes v = 3 then 4 else getNeededBytes v

def encodeInt (v : ℕ) : Bytes := UInt8.ofNat (0x10 + log2 (intSize v)) :: bigEndian (intSize v) v

def encodeMarker (mark size : ℕ) : Bytes :=
  UInt8.ofNat (mark + if size < 15 then size else 15) :: if 15 ≤ size then encodeInt size else []

def encodeText (s : Bytes) : Bytes :=
  if isAsciiString s s.length then encodeMarker 0x50 s.length ++ s
  else encodeMarker 0x60 (utf8ToUtf16 s).length ++ (utf8ToUtf16 s).flatMap (bigEndian 2)

def encodeReal (v : ℕ) : Bytes :=
  match narrow v with
  | some f => 0x22 :: bigEndian 4 f
  | none => 0x23 :: bigEndian 8 v

def encodeRefs (refSize : ℕ) (indexes : List ℕ) : Bytes := indexes.flatMap (bigEndian refSize)

/-- `index` is the number of a child. -/
def encodeObject (index : PlistHandle → ℕ) (refSize : ℕ) (node : PlistHandle) : Bytes :=
  match node.label.2 with
  | .boolean boolval => [if boolval then 9 else 8]
  | .uint intval length =>
    if length = 16 then 0x14 :: (bigEndian 8 0 ++ bigEndian 8 intval) else encodeInt intval
  | .real realval => encodeReal realval
  | .key strval | .string strval => encodeText strval
  | .data buff => encodeMarker 0x40 buff.length ++ buff
  | .array =>
    encodeMarker 0xA0 node.children.length ++ encodeRefs refSize (node.children.map index)
  | .dict =>
    encodeMarker 0xD0 (node.children.length / 2) ++
      encodeRefs refSize
        (((pairs node.children).map Prod.fst ++ (pairs node.children).map Prod.snd).map index)
  | .date realval => 0x33 :: bigEndian 8 realval
  | .uid intval => UInt8.ofNat (0x80 + (intSize intval - 1)) :: bigEndian (intSize intval) intval

theorem getNeededBytes_cases (v : ℕ) :
    getNeededBytes v = 1 ∨ getNeededBytes v = 2 ∨ getNeededBytes v = 3 ∨ getNeededBytes v = 4 ∨
      getNeededBytes v = 8 := by
  unfold getNeededBytes
  split_ifs <;> simp

theorem intSize_cases (v : ℕ) : intSize v = 1 ∨ intSize v = 2 ∨ intSize v = 4 ∨ intSize v = 8 := by
  have h := getNeededBytes_cases v
  unfold intSize
  split <;> omega

theorem getNeededBytes_mono {v w : ℕ} (h : v ≤ w) : getNeededBytes v ≤ getNeededBytes w := by
  unfold getNeededBytes
  split_ifs <;> omega

theorem lt_getNeededBytes {v : ℕ} (h : v < 2 ^ 64) : v < 256 ^ getNeededBytes v := by
  unfold getNeededBytes
  split_ifs <;> omega

theorem lt_intSize {v : ℕ} (h : v < 2 ^ 64) : v < 256 ^ intSize v := by
  have hlt := lt_getNeededBytes h
  unfold intSize
  split
  · rename_i h3
    rw [h3] at hlt
    omega
  · exact hlt

/-! ## Appending -/

def Appends (ba : Bytearray) (bytes : Bytes) (ba' : Bytearray) : Prop :=
  ba'.data = ba.data ++ bytes ∧
    (ba.data.length + bytes.length ≤ ba.capacity → ba'.capacity = ba.capacity)

section
variable {ba ba' ba'' : Bytearray} {bytes bytes' : Bytes}

theorem appends_nil : Appends ba [] ba := ⟨(List.append_nil _).symm, fun _ => rfl⟩

theorem appends_append (ba : Bytearray) (bytes : Bytes) :
    Appends ba bytes (byteArrayAppend ba bytes) := by
  refine ⟨rfl, fun h => ?_⟩
  unfold byteArrayAppend Bytearray.grown
  dsimp only
  rw [if_neg (by omega)]

theorem Appends.trans (h : Appends ba bytes ba') (h' : Appends ba' bytes' ba'') :
    Appends ba (bytes ++ bytes') ba'' := by
  refine ⟨by rw [h'.1, h.1, List.append_assoc], fun hroom => ?_⟩
  rw [List.length_append] at hroom
  have hcap := h.2 (by omega)
  have hlen := congrArg List.length h.1
  rw [List.length_append] at hlen
  rw [h'.2 (by omega), hcap]

end

section
variable (ba : Bytearray)

theorem writeInt_appends (v : ℕ) : Appends ba (encodeInt v) (writeInt ba v) := by
  have hsize : (if getNeededBytes v = 3 then getNeededBytes v + 1 else getNeededBytes v) = intSize v := by
    unfold intSize
    split <;> omega
  have hle : intSize v ≤ 8 := by
    have := intSize_cases v
    omega
  unfold writeInt
  dsimp only
  rw [hsize, drop_bigEndian hle]
  exact (appends_append _ _).trans (appends_append _ _)

theorem writeUid_appends {v : ℕ} (hv : v < 2 ^ 32) :
    Appends ba (UInt8.ofNat (0x80 + (intSize v - 1)) :: bigEndian (intSize v) v) (writeUid ba v) := by
  have hsize : (if getNeededBytes v = 3 then getNeededBytes v + 1 else getNeededBytes v) = intSize v := by
    unfold intSize
    split <;> omega
  have hle : intSize v ≤ 8 := by
    have := intSize_cases v
    omega
  unfold writeUid
  dsimp only
  rw [Nat.mod_eq_of_lt hv, hsize, drop_bigEndian hle]
  exact (appends_append _ _).trans (appends_append _ _)

theorem writeUint_appends (v : ℕ) :
    Appends ba (0x14 :: (bigEndian 8 0 ++ bigEndian 8 v)) (writeUint ba v) := by
  have h := ((appends_append ba [0x14]).trans (appends_append _ (memoryBytes 0))).trans
    (appends_append _ (bigEndian 8 v))
  exact h

theorem writeReal_appends (v : ℕ) : Appends ba (encodeReal v) (writeReal ba v) := by
  unfold encodeReal writeReal getRealBytes
  cases narrow v with
  | some f => exact appends_append _ _
  | none => exact appends_append _ _

theorem writeMarker_appends (mark size : ℕ) :
    Appends ba (encodeMarker mark size) (writeMarker ba mark size) := by
  unfold encodeMarker writeMarker
  by_cases h : 15 ≤ size
  · simp only [if_pos h]
    exact (appends_append ba [_]).trans (writeInt_appends _ size)
  · simp only [if_neg h]
    exact appends_append ba [_]

theorem writeRawData_appends {mark size : ℕ} {val : Bytes}
    (h : val.length = if mark = 0x60 then size * 2 else size) :
    Appends ba (encodeMarker mark size ++ val) (writeRawData ba mark val size) := by
  unfold writeRawData
  rw [← h, List.take_length]
  exact (writeMarker_appends ba mark size).trans (appends_append _ _)

theorem length_flatMap_bigEndian (n : ℕ) (units : List ℕ) :
    (units.flatMap (bigEndian n)).length = units.length * n := by
  induction units with
  | nil => simp
  | cons u units ih =>
    rw [List.flatMap_cons, List.length_append, ih, length_bigEndian, List.length_cons, Nat.succ_mul,
      Nat.add_comm]

theorem plistUtf8ToUtf16be_eq {s : Bytes} (h : 4 * (s.length + 1) < 2 ^ 31) :
    plistUtf8ToUtf16be s s.length = .ok (utf8ToUtf16 s) := by
  have hmul : mulInt s.length 2 = .ok ((2 * s.length : ℕ) : ℤ) := mulInt_two (by omega)
  have hadd : addInt ((2 * s.length : ℕ) : ℤ) 1 = .ok ((2 * s.length + 1 : ℕ) : ℤ) :=
    addInt_nat (b := 1) (by omega)
  have hsize : ((2 * s.length + 1 : ℕ) : ℤ) * 2 = ((4 * s.length + 2 : ℕ) : ℤ) := by
    push_cast
    ring
  have hread : readRange s 0 s.length = .ok s := by
    rw [@readRange_eq s 0 _ 0 _ rfl rfl (by omega), slice, List.drop_zero, List.take_length]
  have hunits := length_utf8ToUtf16 s
  unfold plistUtf8ToUtf16be
  rw [hmul, ok_bind, hadd, ok_bind, hsize, malloc_nat, ok_bind, hread, ok_bind]
  dsimp only
  rw [@writeRange_eq _ _ 0 0 rfl (by
    rw [List.length_append, length_flatMap_bigEndian, List.length_map, List.length_range]
    simp only [List.length_cons, List.length_nil]
    omega)]
  rfl

theorem writeUnicode_appends {s : Bytes} (h : 4 * (s.length + 1) < 2 ^ 31) :
    ∃ ba', writeUnicode ba s = .ok ba' ∧
      Appends ba (encodeMarker 0x60 (utf8ToUtf16 s).length ++ (utf8ToUtf16 s).flatMap (bigEndian 2))
        ba' := by
  unfold writeUnicode
  rw [intOf_nat (by omega), plistUtf8ToUtf16be_eq h]
  refine ⟨_, rfl, writeRawData_appends ba ?_⟩
  rw [if_pos rfl, length_flatMap_bigEndian]

theorem writeText_appends {s : Bytes} (h : 4 * (s.length + 1) < 2 ^ 31) :
    ∃ ba', (if isAsciiString s (intOf s.length) then .ok (writeString ba s) else writeUnicode ba s) =
        .ok ba' ∧ Appends ba (encodeText s) ba' := by
  unfold encodeText
  rw [intOf_nat (by omega)]
  by_cases hascii : isAsciiString s s.length = true
  · rw [if_pos hascii, if_pos hascii]
    exact ⟨_, rfl, writeRawData_appends ba (by simp)⟩
  · rw [if_neg hascii, if_neg hascii]
    exact writeUnicode_appends ba h

end

/-! ## References -/

section
variable {ref : PlistHandle → Option ℕ} {index : PlistHandle → ℕ} {refSize : ℕ}

theorem writeRefs_appends (hsize : refSize ≤ 8) {nodes : List PlistHandle}
    (href : ∀ node ∈ nodes, ref node = some (index node)) (ba : Bytearray) :
    ∃ ba', writeRefs ref refSize ba nodes = .ok ba' ∧
      Appends ba (encodeRefs refSize (nodes.map index)) ba' := by
  induction nodes generalizing ba with
  | nil => exact ⟨ba, rfl, appends_nil⟩
  | cons node nodes ih =>
    obtain ⟨hnode, hnodes⟩ := List.forall_mem_cons.mp href
    obtain ⟨ba', hrun, happ⟩ := ih hnodes (byteArrayAppend ba (bigEndian refSize (index node)))
    refine ⟨ba', ?_, (appends_append ba _).trans happ⟩
    rw [writeRefs, List.foldlM_cons, writeRef, hnode]
    dsimp only
    rw [drop_bigEndian hsize, ok_bind]
    exact hrun

theorem mem_pairs {α : Type} {p : α × α} (l : List α) (h : p ∈ pairs l) : p.1 ∈ l ∧ p.2 ∈ l := by
  induction l using pairs.induct with
  | case1 a b rest ih =>
    rw [pairs] at h
    obtain rfl | h := List.mem_cons.mp h
    · simp
    · simp [ih h]
  | case2 l hl =>
    rw [pairs] at h
    · cases h
    · exact hl

/-- What the writer assumes of a node: strings that a `long` can count, numbers of one of the two
sizes, and a `uint32_t`. -/
def PlistData.Writable : PlistData → Prop
  | .key s | .string s => 4 * (s.length + 1) < 2 ^ 31
  | .uint _ length => length = 8 ∨ length = 16
  | .uid v => v < 2 ^ 32
  | _ => True

theorem writeObject_appends (hsize : refSize ≤ 8) {node : PlistHandle}
    (hnode : node.label.2.Writable) (href : ∀ c ∈ node.children, ref c = some (index c))
    (ba : Bytearray) :
    ∃ ba', writeObject ref refSize ba node = .ok ba' ∧
      Appends ba (encodeObject index refSize node) ba' := by
  unfold writeObject encodeObject
  cases hdata : node.label.2 with
  | boolean v => exact ⟨_, rfl, appends_append _ _⟩
  | uint v n =>
    dsimp only
    split
    · exact ⟨_, rfl, writeUint_appends ba v⟩
    · exact ⟨_, rfl, writeInt_appends ba v⟩
  | real v => exact ⟨_, rfl, writeReal_appends ba v⟩
  | date v => exact ⟨_, rfl, appends_append _ _⟩
  | key s =>
    rw [hdata] at hnode
    exact writeText_appends ba hnode
  | string s =>
    rw [hdata] at hnode
    exact writeText_appends ba hnode
  | data s => exact ⟨_, rfl, writeRawData_appends ba (by simp)⟩
  | uid v =>
    rw [hdata] at hnode
    exact ⟨_, rfl, writeUid_appends ba hnode⟩
  | array =>
    obtain ⟨ba', hrun, happ⟩ := writeRefs_appends hsize href
      (writeMarker ba 0xA0 node.children.length)
    exact ⟨ba', hrun, (writeMarker_appends ba _ _).trans happ⟩
  | dict =>
    dsimp only [writeDict]
    have hkeys : ∀ c ∈ (pairs node.children).map Prod.fst, ref c = some (index c) := by
      intro c hc
      obtain ⟨p, hp, rfl⟩ := List.mem_map.mp hc
      exact href _ (mem_pairs _ hp).1
    have hvalues : ∀ c ∈ (pairs node.children).map Prod.snd, ref c = some (index c) := by
      intro c hc
      obtain ⟨p, hp, rfl⟩ := List.mem_map.mp hc
      exact href _ (mem_pairs _ hp).2
    obtain ⟨ba₁, hrun₁, happ₁⟩ := writeRefs_appends hsize hkeys
      (writeMarker ba 0xD0 (node.children.length / 2))
    obtain ⟨ba₂, hrun₂, happ₂⟩ := writeRefs_appends hsize hvalues ba₁
    refine ⟨ba₂, by rw [hrun₁, ok_bind, hrun₂], ?_⟩
    rw [List.map_append, encodeRefs, List.flatMap_append]
    exact (writeMarker_appends ba _ _).trans (happ₁.trans happ₂)

/-! ## All objects -/

/-- The offsets of parts that stand one behind the other. -/
def offsetsFrom : ℕ → List Bytes → List ℕ
  | _, [] => []
  | start, e :: es => start :: offsetsFrom (start + e.length) es

theorem length_offsetsFrom (start : ℕ) (es : List Bytes) :
    (offsetsFrom start es).length = es.length := by
  induction es generalizing start with
  | nil => rfl
  | cons e es ih => rw [offsetsFrom, List.length_cons, ih, List.length_cons]

theorem hasAt_offsetsFrom {es : List Bytes} {i : ℕ} {e : Bytes} (he : es[i]? = some e)
    (before : Bytes) :
    ∃ off, (offsetsFrom before.length es)[i]? = some off ∧
      ∀ after, HasAt (before ++ es.flatten ++ after) off e := by
  induction es generalizing i before with
  | nil => simp at he
  | cons e' es ih =>
    cases i with
    | zero =>
      obtain rfl := Option.some.inj he
      exact ⟨_, rfl, fun after => ⟨before, es.flatten ++ after, by simp, rfl⟩⟩
    | succ i =>
      obtain ⟨off, hoff, hat⟩ := ih he (before ++ e')
      rw [List.length_append] at hoff
      refine ⟨off, hoff, fun after => ?_⟩
      rw [List.flatten_cons, ← List.append_assoc]
      exact hat after

variable (index refSize) in
def encodeObjects (objects : List PlistHandle) : List Bytes :=
  objects.map (encodeObject index refSize)

theorem writeObjects_appends (hsize : refSize ≤ 8) {objects : List PlistHandle}
    (hobjects : ∀ o ∈ objects, o.label.2.Writable ∧ ∀ c ∈ o.children, ref c = some (index c))
    (ba : Bytearray) :
    ∃ ba', writeObjects ref refSize ba objects =
        .ok (ba', offsetsFrom ba.data.length (encodeObjects index refSize objects)) ∧
      Appends ba (encodeObjects index refSize objects).flatten ba' := by
  have hrun : ∀ (objects : List PlistHandle),
      (∀ o ∈ objects, o.label.2.Writable ∧ ∀ c ∈ o.children, ref c = some (index c)) →
      ∀ (ba : Bytearray) (offsets : List ℕ),
      ∃ ba', objects.foldlM (fun (s : Bytearray × List ℕ) node => do
          .ok (← writeObject ref refSize s.1 node, s.2 ++ [s.1.data.length])) (ba, offsets) =
          Except.ok (ε := Fault)
            (ba', offsets ++ offsetsFrom ba.data.length (encodeObjects index refSize objects)) ∧
        Appends ba (encodeObjects index refSize objects).flatten ba' := by
    intro objects hobjects
    induction objects with
    | nil => exact fun ba offsets => ⟨ba, by simp [encodeObjects, offsetsFrom]; rfl, appends_nil⟩
    | cons o objects ih =>
      intro ba offsets
      obtain ⟨⟨hwrite, href⟩, hrest⟩ := List.forall_mem_cons.mp hobjects
      obtain ⟨ba₁, hrun₁, happ₁⟩ := writeObject_appends hsize hwrite href ba
      obtain ⟨ba₂, hrun₂, happ₂⟩ := ih hrest ba₁ (offsets ++ [ba.data.length])
      refine ⟨ba₂, ?_, happ₁.trans happ₂⟩
      have hlen := congrArg List.length happ₁.1
      rw [List.length_append] at hlen
      rw [List.foldlM_cons, hrun₁, ok_bind]
      dsimp only
      rw [ok_bind, hrun₂, hlen, List.append_assoc]
      rfl
  obtain ⟨ba', h, happ⟩ := hrun objects hobjects ba []
  exact ⟨ba', h, happ⟩

end

/-! ## Sizes -/

theorem length_encodeInt (v : ℕ) : (encodeInt v).length = 1 + intSize v := by
  rw [encodeInt, List.length_cons, length_bigEndian, Nat.add_comm]

theorem length_encodeMarker (mark size : ℕ) :
    (encodeMarker mark size).length = 1 + requiredForSize size := by
  unfold encodeMarker requiredForSize
  rw [List.length_cons, Nat.add_comm]
  congr 1
  split
  · exact length_encodeInt size
  · rfl

theorem requiredForSize_mono {n m : ℕ} (h : n ≤ m) : requiredForSize n ≤ requiredForSize m := by
  have hneeded := getNeededBytes_mono h
  have hn := getNeededBytes_cases n
  have hm := getNeededBytes_cases m
  unfold requiredForSize
  split_ifs <;> omega

theorem length_encodeText {s : Bytes} (h : 4 * (s.length + 1) < 2 ^ 31) :
    (encodeText s).length ≤ 1 + requiredForSize s.length +
      if isAsciiString s (intOf s.length) then s.length else s.length * 2 := by
  have hunits := length_utf8ToUtf16 s
  have hmono := requiredForSize_mono hunits
  rw [intOf_nat (by omega)]
  unfold encodeText
  split
  · rw [List.length_append, length_encodeMarker]
  · rw [List.length_append, length_encodeMarker, length_flatMap_bigEndian]
    omega

theorem length_pairs {α : Type} (l : List α) : (pairs l).length = l.length / 2 := by
  induction l using pairs.induct with
  | case1 a b rest ih =>
    rw [pairs, List.length_cons, List.length_cons, List.length_cons, ih]
    omega
  | case2 l hl =>
    match l, hl with
    | [], _ => simp [pairs]
    | [a], _ => simp [pairs]
    | a :: b :: rest, hl => exact absurd rfl (hl a b rest)

/-- What is reserved for an object is enough. -/
theorem length_encodeObject_le (index : PlistHandle → ℕ) (refSize : ℕ) {node : PlistHandle}
    (h : node.label.2.Writable) :
    (encodeObject index refSize node).length ≤ requiredFor refSize node := by
  have hsize := fun v => intSize_cases v
  unfold encodeObject requiredFor
  cases hdata : node.label.2 with
  | boolean v => exact Nat.le_refl 1
  | uint v n =>
    rw [hdata] at h
    have hint := hsize v
    dsimp only
    split
    · rename_i h16
      subst h16
      exact (by decide : 17 ≤ 1 + requiredForSize 16 + 16)
    · rw [length_encodeInt]
      obtain rfl | h16 := h
      · have hzero : requiredForSize 8 = 0 := rfl
        omega
      · omega
  | real v =>
    dsimp only
    unfold encodeReal getRealBytes
    cases narrow v with
    | some f => simp
    | none => simp
  | date v => simp
  | key s =>
    rw [hdata] at h
    exact length_encodeText h
  | string s =>
    rw [hdata] at h
    exact length_encodeText h
  | data s =>
    dsimp only
    rw [List.length_append, length_encodeMarker]
  | uid v =>
    have hint := hsize v
    dsimp only
    rw [List.length_cons, length_bigEndian]
    omega
  | array =>
    dsimp only
    rw [List.length_append, length_encodeMarker, encodeRefs, length_flatMap_bigEndian, List.length_map]
  | dict =>
    dsimp only
    rw [List.length_append, length_encodeMarker, encodeRefs, length_flatMap_bigEndian, List.length_map,
      List.length_append, List.length_map, List.length_map, length_pairs, Nat.mul_two]

theorem length_encodeObjects_le (index : PlistHandle → ℕ) (refSize : ℕ) {objects : List PlistHandle}
    (h : ∀ o ∈ objects, o.label.2.Writable) :
    (encodeObjects index refSize objects).flatten.length ≤
      (objects.map (requiredFor refSize)).sum := by
  induction objects with
  | nil => exact Nat.le_refl 0
  | cons o objects ih =>
    obtain ⟨ho, hrest⟩ := List.forall_mem_cons.mp h
    have hfirst := length_encodeObject_le index refSize ho
    have hrest := ih hrest
    rw [encodeObjects, List.map_cons, List.flatten_cons, List.length_append, List.map_cons,
      List.sum_cons]
    exact Nat.add_le_add hfirst hrest

/-! ## The file -/

section
variable (index : PlistHandle → ℕ) (refSize : ℕ) (objects : List PlistHandle)

def bplistHeader : Bytes := [0x62, 0x70, 0x6C, 0x69, 0x73, 0x74, 0x30, 0x30]

def offsetTableIndex : ℕ := 8 + (encodeObjects index refSize objects).flatten.length

def offsetTable : Bytes :=
  (offsetsFrom 8 (encodeObjects index refSize objects)).flatMap
    (bigEndian (getNeededBytes (offsetTableIndex index refSize objects)))

def bplistTrailer : Bytes :=
  List.replicate 6 0 ++
    [UInt8.ofNat (getNeededBytes (offsetTableIndex index refSize objects)), UInt8.ofNat refSize] ++
    bigEndian 8 objects.length ++ bigEndian 8 0 ++ bigEndian 8 (offsetTableIndex index refSize objects)

def bplistFile : Bytes :=
  bplistHeader ++ (encodeObjects index refSize objects).flatten ++
    (offsetTable index refSize objects ++ bplistTrailer index refSize objects)

variable {index refSize objects}

theorem length_bplistTrailer : (bplistTrailer index refSize objects).length = 32 := by
  simp [bplistTrailer]

theorem length_offsetTable : (offsetTable index refSize objects).length =
    objects.length * getNeededBytes (offsetTableIndex index refSize objects) := by
  rw [offsetTable, length_flatMap_bigEndian, length_offsetsFrom, encodeObjects, List.length_map]

theorem length_bplistFile : (bplistFile index refSize objects).length =
    offsetTableIndex index refSize objects +
      (objects.length * getNeededBytes (offsetTableIndex index refSize objects) + 32) := by
  rw [bplistFile, List.length_append, List.length_append, List.length_append, length_offsetTable,
    length_bplistTrailer]
  rfl

/-- The size that was worked out is enough for the file. -/
theorem length_bplistFile_le (h : ∀ o ∈ objects, o.label.2.Writable) :
    (bplistFile index refSize objects).length ≤ required refSize objects := by
  have hobjects := length_encodeObjects_le index refSize h
  have hindex : offsetTableIndex index refSize objects ≤
      (objects.map (requiredFor refSize)).sum + 6 + 2 := by
    unfold offsetTableIndex
    omega
  have htable := Nat.mul_le_mul_left objects.length (getNeededBytes_mono hindex)
  rw [length_bplistFile]
  unfold required
  dsimp only
  rw [Nat.mul_comm (getNeededBytes _) objects.length]
  omega

end

/-- The offset table is appended entry by entry. -/
theorem appendOffsets_appends {size : ℕ} (hsize : size ≤ 8) (offsets : List ℕ) (ba : Bytearray) :
    Appends ba (offsets.flatMap (bigEndian size))
      (offsets.foldl (fun ba offset => byteArrayAppend ba ((bigEndian 8 offset).drop (8 - size))) ba) := by
  induction offsets generalizing ba with
  | nil => exact appends_nil
  | cons offset offsets ih =>
    rw [List.flatMap_cons, List.foldl_cons, drop_bigEndian hsize]
    exact (appends_append _ _).trans (ih _)

/-- The number of an object that stands for a node. -/
def objectIndex (plist : PlistHandle) (node : PlistHandle) : ℕ :=
  (ref plistBucket plistDataCompare (serializePlist plist) node).getD 0

def objectRefSize (plist : PlistHandle) : ℕ := getNeededBytes (serializePlist plist).objects.length

/-- Every reference is found, and the array has the capacity that it was made with. -/
theorem plistToBin_layout {plist : PlistHandle} (h : ∀ node ∈ plist.nodes, node.label.2.Writable) :
    ∃ ba, plistToBin plist = .ok ba ∧
      ba.data = bplistFile (objectIndex plist) (objectRefSize plist) (serializePlist plist).objects ∧
      ba.capacity = pages (required (objectRefSize plist) (serializePlist plist).objects) := by
  obtain ⟨-, -, hobjects⟩ := intern_complete plistBucket compares_plistDataCompare plist
  have hwrite : ∀ o ∈ (serializePlist plist).objects, o.label.2.Writable :=
    fun o ho => h o (hobjects o ho).1
  have hrefs : ∀ o ∈ (serializePlist plist).objects, o.label.2.Writable ∧
      ∀ c ∈ o.children, ref plistBucket plistDataCompare (serializePlist plist) c =
        some (objectIndex plist c) := by
    intro o ho
    refine ⟨hwrite o ho, fun c hc => ?_⟩
    obtain ⟨i, hi⟩ := (hobjects o ho).2 c hc
    have hindex : objectIndex plist c = i := congrArg (fun r => Option.getD r 0) hi
    rw [hindex]
    exact hi
  have hsize : ∀ v, getNeededBytes v ≤ 8 := by
    intro v
    have := getNeededBytes_cases v
    omega
  have hrefSize : objectRefSize plist ≤ 8 := hsize _
  have hheader := (appends_append (byteArrayNew
    (required (objectRefSize plist) (serializePlist plist).objects))
    [0x62, 0x70, 0x6C, 0x69, 0x73, 0x74]).trans (appends_append _ [0x30, 0x30])
  obtain ⟨ba, hrun, happ⟩ := writeObjects_appends hrefSize hrefs (byteArrayAppend (byteArrayAppend
    (byteArrayNew (required (objectRefSize plist) (serializePlist plist).objects))
    [0x62, 0x70, 0x6C, 0x69, 0x73, 0x74]) [0x30, 0x30])
  have hlen : ba.data.length =
      offsetTableIndex (objectIndex plist) (objectRefSize plist) (serializePlist plist).objects :=
    (congrArg List.length happ.1).trans List.length_append
  have htable := appendOffsets_appends (hsize ba.data.length)
    (offsetsFrom 8 (encodeObjects (objectIndex plist) (objectRefSize plist)
      (serializePlist plist).objects)) ba
  have hall := (hheader.trans happ).trans (htable.trans (appends_append _
    (bplistTrailer (objectIndex plist) (objectRefSize plist) (serializePlist plist).objects)))
  rw [hlen] at hall
  refine ⟨_, ?_, hall.1, hall.2 ?_⟩
  · unfold plistToBin
    dsimp only
    rw [← objectRefSize, hrun, ok_bind]
    dsimp only
    rw [hlen]
    rfl
  · refine (Nat.zero_add _).trans_le (le_trans ?_ (le_pages _))
    exact length_bplistFile_le hwrite

end WinAirPlay
