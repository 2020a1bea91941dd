import WinAirPlay.Plist.Parser

/-! # Reading any block

What `plistFromBin` does with bytes from the network. No access is outside the block, the recursion
ends, and what is accepted is well formed. One size of a size descriptor is read with a shift by 64
bits, which is the only fault: `WideSize` says where.
-/

namespace WinAirPlay
open Foundations Foundations.ByteBuffer Foundations.BlockCipher Foundations.CheckedMemory
  Foundations.Unicode Foundations.FloatFormat
set_option autoImplicit false

/-- What `plist_from_bin` has checked of the trailer. -/
structure BplistData.Checked (b : BplistData) : Prop where
  length : b.data.length < 2 ^ 30
  refSize : 0 < b.refSize ∧ b.refSize < 256
  offsetSize : 0 < b.offsetSize ∧ b.offsetSize < 256
  offsetTable : b.offsetTable + b.numObjects * b.offsetSize + 32 ≤ b.data.length

/-- A size descriptor of `2 ^ 8` bytes or more before the end of the object area. -/
def WideSize (data : Bytes) (areaEnd object : ℕ) : Prop :=
  let marker := (byteAt data object).toNat
  let descriptor := (byteAt data (object + 1)).toNat
  marker % 16 = 15 ∧ BplistType.ofCode (marker / 16 * 16) ∈ sizedTypes ∧
    descriptor / 16 * 16 = BplistType.uint.code ∧ 8 ≤ descriptor % 16 ∧
      object + 2 + 2 ^ (descriptor % 16) ≤ areaEnd

def ShiftIn (data : Bytes) (areaEnd : ℕ) (e : Fault) : Prop :=
  e = .overflow 64 ∧ ∃ object, WideSize data areaEnd object

/-- A string that was read: a copy up to the first NUL, or the conversion of UTF-16. -/
def Stored (s : Bytes) : Prop := 0 ∉ s ∨ ∃ text, s = utf8 text

/-! ## Numbers -/

theorem readBigEndian_replicate (k : ℕ) (bytes : Bytes) :
    readBigEndian (List.replicate k 0 ++ bytes) = readBigEndian bytes := by
  induction k with
  | zero => rfl
  | succ k ih =>
    rw [← ih, List.replicate_succ, List.cons_append]
    rfl

section
variable {data : Bytes} {x n : ℕ}

/-- The last eight bytes of a number, which is all of a number of up to eight bytes. -/
theorem uintToHost_eq (hn : 0 < n) (hn256 : n < 256) (hend : x + n ≤ data.length)
    (hroom : x + 8 ≤ data.length) :
    uintToHost data x n = .ok (readBigEndian (slice data (x + (n - 8)) (min n 8))) := by
  have hmod : n % 256 = n := Nat.mod_eq_of_lt hn256
  unfold uintToHost
  simp only [hmod]
  by_cases h8 : 8 ≤ n
  · have hsrc : (if 8 < n then x + (n - 8) else x) = x + (n - 8) := by
      split <;> omega
    rw [hsrc, if_pos h8, readRange_eq (n := 8) (m := 8) rfl rfl (by omega), Nat.min_eq_right h8]
    rfl
  · have hsrc : (if 8 < n then x + (n - 8) else x) = x + (n - 8) := by
      rw [if_neg (by omega)]
      omega
    have hx : x + (n - 8) = x := by omega
    rw [hsrc, hx, if_neg h8, Nat.min_eq_left (by omega)]
    by_cases h4 : n = 4
    · subst h4
      rw [if_pos rfl, readRange_eq (n := 4) (m := 4) rfl rfl (by omega)]
      rfl
    · rw [if_neg h4]
      by_cases h2 : n = 2
      · subst h2
        rw [if_pos rfl, readRange_eq (n := 2) (m := 2) rfl rfl (by omega)]
        rfl
      · rw [if_neg h2]
        by_cases h1 : n = 1
        · subst h1
          rw [if_pos rfl, readRange_eq (n := 1) (m := 1) rfl rfl (by omega)]
          rfl
        · have htake : (slice data x 8).take n = slice data x n := by
            rw [slice, slice, List.take_take, Nat.min_eq_left (by omega)]
          rw [if_neg h1, readRange_eq (n := 8) (m := 8) rfl rfl (by omega), ok_bind, beNtoh,
            if_pos (by omega), readBigEndian_replicate, htake]

/-- A size that is zero as a `uint8_t` shifts by all 64 bits. -/
theorem uintToHost_wide (hn : n % 256 = 0) (hroom : x + 8 ≤ data.length) :
    uintToHost data x n = .error (.overflow 64) := by
  unfold uintToHost
  simp only [hn]
  rw [if_neg (by omega), if_neg (by omega), if_neg (by omega), if_neg (by omega), if_neg (by omega),
    readRange_eq (n := 8) (m := 8) rfl rfl hroom]
  rfl

theorem readBigEndian_slice_lt (off : ℕ) (k : ℕ) : readBigEndian (slice data off k) < 256 ^ k :=
  readBigEndian_lt_pow (by rw [slice, List.length_take]; exact Nat.min_le_left _ _)

variable {Allowed : Fault → Prop}

theorem uintToHost_yields (hn : 0 < n) (hn256 : n < 256) (hend : x + n ≤ data.length)
    (hroom : x + 8 ≤ data.length) :
    Yields Allowed (· < 2 ^ 64) (uintToHost data x n) := by
  rw [uintToHost_eq hn hn256 hend hroom, yields_ok]
  have hlt := @readBigEndian_slice_lt data (x + (n - 8)) (min n 8)
  have hpow : (256 : ℕ) ^ min n 8 ≤ 256 ^ 8 := Nat.pow_le_pow_right (by omega) (by omega)
  omega

end

/-! ## Nodes -/

def NodeAccepted (r : Option PlistNode) : Prop := ∀ node, r = some node → WellFormed Stored node

theorem nodeAccepted_none : NodeAccepted none := by
  intro node h
  cases h

theorem nodeAccepted_some {node : PlistNode} (h : WellFormed Stored node) : NodeAccepted (some node) := by
  intro node' h'
  cases h'
  exact h

theorem unitsOf_lt (s : Bytes) : ∀ u ∈ unitsOf s, u < 0x10000 := by
  induction s using unitsOf.induct with
  | case1 hi lo rest ih =>
    rw [unitsOf]
    refine List.forall_mem_cons.mpr ⟨?_, ih⟩
    have hlt : readBigEndian [hi, lo] < 256 ^ 2 := readBigEndian_lt [hi, lo]
    omega
  | case2 s h =>
    rw [unitsOf]
    · simp
    · exact h

theorem length_unitsOf (s : Bytes) : (unitsOf s).length = s.length / 2 := by
  induction s using unitsOf.induct with
  | case1 hi lo rest ih =>
    rw [unitsOf, List.length_cons, ih, List.length_cons, List.length_cons]
    omega
  | case2 s h =>
    rw [unitsOf]
    · match s, h with
      | [], _ => rfl
      | [x], _ => simp
      | hi :: lo :: rest, h => exact absurd rfl (h hi lo rest)
    · exact h

/-- The buffer of four bytes for each unit is large enough for the text and its NUL. -/
theorem plistUtf16beToUtf8_eq {data : Bytes} {unistr len : ℕ} (hpos : 0 < len)
    (hlen : 4 * (len + 1) < 2 ^ 31) (hend : unistr + 2 * len ≤ data.length) :
    plistUtf16beToUtf8 data unistr len =
      .ok (some (utf16ToUtf8 none (unitsOf (slice data unistr (2 * len))))) := by
  have hadd : addInt (len : ℤ) 1 = .ok ((len + 1 : ℕ) : ℤ) := addInt_nat (b := 1) (by omega)
  have hmul : mulInt 4 ((len + 1 : ℕ) : ℤ) = .ok ((4 * (len + 1) : ℕ) : ℤ) := by
    rw [mulInt, if_pos (by omega)]
    rfl
  have hread : readRange data unistr (2 * (len : ℤ)) = .ok (slice data unistr (2 * len)) :=
    readRange_eq rfl (by push_cast; rfl) hend
  have hout : (utf16ToUtf8 none (unitsOf (slice data unistr (2 * len)))).length ≤ 3 * len := by
    have h := length_utf16ToUtf8 (unitsOf (slice data unistr (2 * len))) none
    rw [length_unitsOf, length_slice hend, Nat.mul_div_cancel_left _ (by omega)] at h
    exact h
  rw [plistUtf16beToUtf8, if_neg (by omega), hadd, ok_bind, hmul, ok_bind, malloc_nat, ok_bind, hread,
    ok_bind]
  dsimp only
  rw [@writeRange_eq _ _ 0 0 rfl (by simp; omega)]
  rfl

section
variable {b : BplistData} {Allowed : Fault → Prop} {object size : ℕ}

section
variable (hb : b.Checked)
include hb

theorem parseUintNode_yields (h : object + 2 ^ size ≤ b.offsetTable) :
    Yields Allowed NodeAccepted (parseUintNode b.data object size) := by
  have hlen := hb.offsetTable
  have hmod : 2 ^ size % 256 ≤ 2 ^ size := Nat.mod_le _ _
  have hread : 0 < 2 ^ size % 256 →
      Yields Allowed (· < 2 ^ 64) (uintToHost b.data object (2 ^ size % 256)) :=
    fun hpos => uintToHost_yields hpos (Nat.mod_lt _ (by omega)) (by omega) (by omega)
  unfold parseUintNode
  dsimp only
  split
  · refine (hread (by omega)).bind fun v hv => ?_
    exact nodeAccepted_some (.scalar _ ⟨hv, .inl rfl⟩)
  · split
    · rename_i h16
      refine (hread (by omega)).bind fun v hv => ?_
      exact nodeAccepted_some (.scalar _ ⟨hv, .inr h16⟩)
    · exact nodeAccepted_none

theorem parseRealNode_yields (h : object + 2 ^ size ≤ b.offsetTable) :
    Yields Allowed (fun r => (∀ v, r = some v → v < 2 ^ 64) ∧ (size = 3 → r ≠ none))
      (parseRealNode b.data object size) := by
  have hlen := hb.offsetTable
  have hmod : 2 ^ size % 256 ≤ 2 ^ size := Nat.mod_le _ _
  unfold parseRealNode
  dsimp only
  split
  · rename_i h4
    rw [readRange_eq (n := 4) (m := 4) rfl rfl (by omega), ok_bind, yields_ok]
    refine ⟨fun v hv => ?_, by simp⟩
    obtain rfl := Option.some.inj hv
    exact widen_lt (readBigEndian_slice_lt _ 4)
  · split
    · rw [readRange_eq (n := 8) (m := 8) rfl rfl (by omega), ok_bind, yields_ok]
      refine ⟨fun v hv => ?_, by simp⟩
      obtain rfl := Option.some.inj hv
      exact readBigEndian_slice_lt object 8
    · rename_i h8
      exact ⟨by simp, by rintro rfl; exact absurd rfl h8⟩

theorem parseDateNode_yields (h : object + 2 ^ 3 ≤ b.offsetTable) :
    Yields Allowed NodeAccepted (parseDateNode b.data object 3) := by
  refine (parseRealNode_yields hb h).bind fun r hr => ?_
  cases r with
  | none => exact absurd rfl (hr.2 rfl)
  | some v => exact nodeAccepted_some (.scalar _ (hr.1 v rfl))

theorem parseStringNode_yields (h : object + size ≤ b.offsetTable) :
    Yields Allowed NodeAccepted (parseStringNode b.data object size) := by
  have hlen := hb.offsetTable
  rw [parseStringNode, readRange_nat (by omega)]
  exact nodeAccepted_some (.scalar _ (.inl (zero_notMem_untilNul _)))

theorem parseDataNode_yields (h : object + size ≤ b.offsetTable) :
    Yields Allowed NodeAccepted (parseDataNode b.data object size) := by
  have hlen := hb.offsetTable
  rw [parseDataNode, readRange_nat (by omega)]
  exact nodeAccepted_some (.scalar _ trivial)

theorem parseUnicodeNode_yields (h : object + size * 2 ≤ b.offsetTable) :
    Yields Allowed NodeAccepted (parseUnicodeNode b.data object size) := by
  have hlen := hb.offsetTable
  have hsmall := hb.length
  rw [parseUnicodeNode, intOf_nat (by omega)]
  by_cases hzero : size = 0
  · subst hzero
    exact nodeAccepted_none
  · rw [plistUtf16beToUtf8_eq (by omega) (by omega) (by omega)]
    refine nodeAccepted_some (.scalar _ (.inr ?_))
    exact utf16ToUtf8_valid _ none (unitsOf_lt _) (by simp)

theorem parseUidNode_yields (hsize : size < 16) (h : object + size + 1 ≤ b.offsetTable) :
    Yields Allowed NodeAccepted (parseUidNode b.data object size) := by
  have hlen := hb.offsetTable
  have hread : Yields Allowed (· < 2 ^ 64) (uintToHost b.data object (size + 1)) :=
    uintToHost_yields (by omega) (by omega) (by omega) (by omega)
  refine hread.bind fun v _ => ?_
  split
  · exact nodeAccepted_none
  · refine nodeAccepted_some (.scalar _ ?_)
    rename_i h
    simp only [PlistData.InRange]
    omega

/-! ## Containers -/

omit hb in
/-- `Q` of the items of every list, if it holds of what each step adds. -/
theorem parseItems_yields {α : Type} {item : ℕ → Checked (Option (List α))} {Q : List α → Prop}
    (hnil : Q []) (happend : ∀ l l', Q l → Q l' → Q (l ++ l'))
    (hitem : ∀ j, Yields Allowed (fun r => ∀ l, r = some l → Q l) (item j)) (n j : ℕ) :
    Yields Allowed (fun r => ∀ l, r = some l → Q l) (parseItems item n j) := by
  induction n generalizing j with
  | zero =>
    intro l hl
    obtain rfl := Option.some.inj hl
    exact hnil
  | succ n ih =>
    refine (hitem j).bind fun r hr => ?_
    cases r with
    | none =>
      intro l hl
      cases hl
    | some first =>
      refine (ih (j + 1)).bind fun r hr' => ?_
      cases r with
      | none =>
        intro l hl
        cases hl
      | some rest =>
        intro l hl
        obtain rfl := Option.some.inj hl
        exact happend _ _ (hr first rfl) (hr' rest rfl)

section
variable {child : ℕ → Checked (Option PlistNode)}
  (hchild : ∀ i < b.numObjects, Yields Allowed NodeAccepted (child i))
include hchild

theorem parseArrayItem_yields (j : ℕ) :
    Yields Allowed (fun r => ∀ l, r = some l → ∀ node ∈ l, WellFormed Stored node)
      (parseArrayItem b child object j) := by
  have hlen := hb.offsetTable
  have href := hb.refSize
  unfold parseArrayItem
  dsimp only
  split
  · intro l hl
    cases hl
  · have hread : Yields Allowed (· < 2 ^ 64) (uintToHost b.data (object + j * b.refSize) b.refSize) :=
      uintToHost_yields href.1 href.2 (by omega) (by omega)
    refine hread.bind fun index1 _ => ?_
    split
    · intro l hl
      cases hl
    · refine (hchild index1 (by omega)).bind fun r hr => ?_
      cases r with
      | none =>
        intro l hl
        cases hl
      | some val =>
        intro l hl node hnode
        obtain rfl := Option.some.inj hl
        obtain rfl := List.mem_singleton.mp hnode
        exact hr _ rfl

theorem parseArrayNode_yields :
    Yields Allowed NodeAccepted (parseArrayNode b child object size) := by
  have happend : ∀ l l' : List PlistNode, (∀ node ∈ l, WellFormed Stored node) →
      (∀ node ∈ l', WellFormed Stored node) → ∀ node ∈ l ++ l', WellFormed Stored node :=
    fun l l' hl hl' => List.forall_mem_append.mpr ⟨hl, hl'⟩
  unfold parseArrayNode
  refine Yields.bind (parseItems_yields (by simp) happend
    (fun j => parseArrayItem_yields hb hchild j) size 0) fun r hr => ?_
  cases r with
  | none => exact nodeAccepted_none
  | some items => exact nodeAccepted_some (.array items (hr items rfl))

/-- The children of a dictionary that was read. -/
def ItemsAccepted (l : List PlistNode) : Prop :=
  ∃ items : List (Bytes × PlistNode), l = dictChildren items ∧ (∀ item ∈ items, Stored item.1) ∧
    ∀ item ∈ items, WellFormed Stored item.2

omit hchild hb in
theorem itemsAccepted_append {l l' : List PlistNode} (h : ItemsAccepted l) (h' : ItemsAccepted l') :
    ItemsAccepted (l ++ l') := by
  obtain ⟨items, rfl, hkey, hvalue⟩ := h
  obtain ⟨items', rfl, hkey', hvalue'⟩ := h'
  exact ⟨items ++ items', List.flatMap_append.symm, List.forall_mem_append.mpr ⟨hkey, hkey'⟩,
    List.forall_mem_append.mpr ⟨hvalue, hvalue'⟩⟩

theorem parseDictItem_yields (j : ℕ) :
    Yields Allowed (fun r => ∀ l, r = some l → ItemsAccepted l)
      (parseDictItem b child object size j) := by
  have hlen := hb.offsetTable
  have href := hb.refSize
  have hnone : Yields Allowed (fun r => ∀ l, r = some l → ItemsAccepted l) (.ok none) := by
    intro l hl
    cases hl
  unfold parseDictItem
  dsimp only
  split
  · exact hnone
  · have hread : ∀ x, x + b.refSize ≤ b.offsetTable →
        Yields Allowed (· < 2 ^ 64) (uintToHost b.data x b.refSize) :=
      fun x hx => uintToHost_yields href.1 href.2 (by omega) (by omega)
    refine (hread _ (by omega)).bind fun index1 _ => (hread _ (by omega)).bind fun index2 _ => ?_
    split
    · exact hnone
    · split
      · exact hnone
      · refine (hchild index1 (by omega)).bind fun key hkey => ?_
        split
        · rename_i strval ts
          refine (hchild index2 (by omega)).bind fun val hval => ?_
          cases val with
          | none => exact hnone
          | some val =>
            intro l hl
            obtain rfl := Option.some.inj hl
            refine ⟨[(strval, val)], rfl, ?_, ?_⟩
            · cases hkey _ rfl with
              | scalar d hd => exact List.forall_mem_singleton.mpr hd
            · exact List.forall_mem_singleton.mpr (hval val rfl)
        · exact hnone

theorem parseDictNode_yields :
    Yields Allowed NodeAccepted (parseDictNode b child object size) := by
  have hnil : ItemsAccepted [] := ⟨[], rfl, by simp, by simp⟩
  unfold parseDictNode
  refine Yields.bind (parseItems_yields hnil (fun l l' hl hl' => itemsAccepted_append hl hl')
    (fun j => parseDictItem_yields hb hchild j) size 0) fun r hr => ?_
  cases r with
  | none => exact nodeAccepted_none
  | some items =>
    obtain ⟨items, rfl, hkey, hvalue⟩ := hr _ rfl
    exact nodeAccepted_some (.dict items hkey hvalue)

end

/-! ## Objects -/

/-- What is known of a marker that was read, which has a small size unless a descriptor follows. -/
def MarkerRead (r : Option (Option BplistType × ℕ × ℕ)) : Prop :=
  ∀ type size object, r = some (type, size, object) →
    type ∉ sizedTypes → size < 16

omit hb in
theorem two_pow_lt {d : ℕ} (h : d < 8) : 0 < 2 ^ d ∧ 2 ^ d < 256 := by
  refine ⟨Nat.two_pow_pos d, ?_⟩
  calc 2 ^ d < 2 ^ 8 := Nat.pow_lt_pow_right (by omega) h
    _ = 256 := rfl

theorem readMarker_yields (h : object < b.offsetTable) :
    Yields (ShiftIn b.data b.offsetTable) MarkerRead (readMarker b object) := by
  have hlen := hb.offsetTable
  unfold readMarker
  rw [readByte_nat (by omega), ok_bind]
  dsimp only
  split
  · rename_i hfill
    rw [readByte_eq (n := object + 1) (by push_cast; rfl) (by omega), ok_bind]
    split
    · intro type size object hr
      cases hr
    · rename_i hcode
      split
      · intro type size object hr
        cases hr
      · by_cases hwide : 8 ≤ (byteAt b.data (object + 1)).toNat % 16
        · obtain ⟨k, hk⟩ := Nat.exists_eq_add_of_le hwide
          have hpow : 2 ^ ((byteAt b.data (object + 1)).toNat % 16) = 256 * 2 ^ k := by
            rw [hk, Nat.pow_add]
          have hpos : 0 < 2 ^ k := Nat.two_pow_pos k
          rw [uintToHost_wide (by omega) (by omega)]
          exact ⟨rfl, object, hfill.1, hfill.2, not_not.mp hcode, hwide, by omega⟩
        · have hpow := two_pow_lt (by omega : (byteAt b.data (object + 1)).toNat % 16 < 8)
          have hread : Yields (ShiftIn b.data b.offsetTable) (· < 2 ^ 64)
              (uintToHost b.data (object + 1 + 1)
                (2 ^ ((byteAt b.data (object + 1)).toNat % 16))) :=
            uintToHost_yields hpow.1 hpow.2 (by omega) (by omega)
          refine hread.bind fun v _ => ?_
          intro type size object hr hnot
          cases hr
          exact absurd hfill.2 hnot
  · intro type size object hr _
    cases hr
    exact Nat.mod_lt _ (by omega)

theorem parseBinNode_yields {child : ℕ → Checked (Option PlistNode)}
    (hchild : ∀ i < b.numObjects, Yields (ShiftIn b.data b.offsetTable) NodeAccepted (child i))
    (h : object < b.offsetTable) :
    Yields (ShiftIn b.data b.offsetTable) NodeAccepted (parseBinNode b child object) := by
  unfold parseBinNode
  refine (readMarker_yields hb h).bind fun r hr => ?_
  cases r with
  | none => exact nodeAccepted_none
  | some r =>
    obtain ⟨type, size, object⟩ := r
    cases type with
    | none => exact nodeAccepted_none
    | some type =>
      have hsmall : some type ∉ sizedTypes → size < 16 := hr _ _ _ rfl
      cases type with
      | null =>
        dsimp only
        split_ifs
        · exact nodeAccepted_some (.scalar _ trivial)
        · exact nodeAccepted_some (.scalar _ trivial)
        · exact nodeAccepted_none
      | uint =>
        exact yields_unless nodeAccepted_none fun hend => parseUintNode_yields hb (by omega)
      | real =>
        refine yields_unless nodeAccepted_none fun hend => ?_
        refine (parseRealNode_yields hb (by omega)).bind fun r hr => ?_
        cases r with
        | none => exact nodeAccepted_none
        | some v => exact nodeAccepted_some (.scalar _ (hr.1 v rfl))
      | date =>
        refine yields_unless nodeAccepted_none fun hthree => ?_
        obtain rfl := not_not.mp hthree
        exact yields_unless nodeAccepted_none fun hend => parseDateNode_yields hb (by omega)
      | data =>
        exact yields_unless nodeAccepted_none fun hend => parseDataNode_yields hb (by omega)
      | string =>
        exact yields_unless nodeAccepted_none fun hend => parseStringNode_yields hb (by omega)
      | unicode =>
        exact yields_unless nodeAccepted_none fun hend => parseUnicodeNode_yields hb (by omega)
      | uid =>
        refine yields_unless nodeAccepted_none fun hend => ?_
        exact parseUidNode_yields hb (hsmall (by decide)) (by omega)
      | array | set => exact yields_unless nodeAccepted_none fun hend => parseArrayNode_yields hb hchild
      | dict => exact yields_unless nodeAccepted_none fun hend => parseDictNode_yields hb hchild

/-- The indexes in use are different objects, so there are not more of them than objects. -/
theorem parseBinNodeAtIndex_yields {depth : ℕ} {used : List ℕ} (hnodup : used.Nodup)
    (hused : ∀ i ∈ used, i < b.numObjects) (hdepth : used.length + depth = b.numObjects + 1)
    (nodeIndex : ℕ) :
    Yields (ShiftIn b.data b.offsetTable) NodeAccepted
      (parseBinNodeAtIndex b depth used nodeIndex) := by
  induction depth generalizing used nodeIndex with
  | zero =>
    have hsub : used ⊆ List.range b.numObjects := fun i hi => List.mem_range.mpr (hused i hi)
    have hle := hnodup.length_le_of_subset hsub
    rw [List.length_range] at hle
    omega
  | succ depth ih =>
    have hlen := hb.offsetTable
    have hsize := hb.offsetSize
    have hsmall := hb.length
    unfold parseBinNodeAtIndex
    dsimp only
    generalize nodeIndex % 2 ^ 32 = i
    refine yields_unless nodeAccepted_none fun hi => yields_unless nodeAccepted_none fun _ => ?_
    have hle : (i + 1) * b.offsetSize ≤ b.numObjects * b.offsetSize :=
      Nat.mul_le_mul_right _ (by omega)
    rw [Nat.succ_mul] at hle
    have hmod : i * b.offsetSize % 2 ^ 32 = i * b.offsetSize := Nat.mod_eq_of_lt (by omega)
    have hread : Yields (ShiftIn b.data b.offsetTable) (· < 2 ^ 64)
        (uintToHost b.data (b.offsetTable + i * b.offsetSize % 2 ^ 32) b.offsetSize) :=
      uintToHost_yields hsize.1 hsize.2 (by omega) (by omega)
    refine hread.bind fun ptr _ => yields_unless nodeAccepted_none fun hptr =>
      yields_unless nodeAccepted_none fun hfresh => ?_
    refine parseBinNode_yields hb (fun j _ => ?_) (by omega)
    refine ih (List.nodup_cons.mpr ⟨hfresh, hnodup⟩) ?_ (by rw [List.length_cons]; omega) j
    exact List.forall_mem_cons.mpr ⟨by omega, hused⟩

end
end

theorem readTrailer_eq {block : Bytes} (h : 40 ≤ block.length) :
    readTrailer block = .ok (⟨block,
      readBigEndian (slice block (block.length - 32 + 8) 8),
      (byteAt block (block.length - 32 + 7)).toNat,
      (byteAt block (block.length - 32 + 6)).toNat,
      readBigEndian (slice block (block.length - 32 + 24) 8)⟩,
      readBigEndian (slice block (block.length - 32 + 16) 8)) := by
  have hfield : ∀ k, k + 8 ≤ 32 → readRange block ((block.length - 32 + k : ℕ) : ℤ) 8 =
      .ok (slice block (block.length - 32 + k) 8) :=
    fun k hk => readRange_eq rfl rfl (by omega)
  unfold readTrailer
  dsimp only
  rw [readByte_nat (by omega), ok_bind, readByte_nat (by omega), ok_bind, hfield 8 (by omega),
    ok_bind, hfield 16 (by omega), ok_bind, hfield 24 (by omega), ok_bind]

/-- Every block of less than `2 ^ 30` bytes is read to an end, and what is accepted is well formed;
the only fault is the shift of a wide size descriptor. -/
theorem plistFromBin_safe (block : Bytes) (hblock : block.length < 2 ^ 30) :
    Yields (ShiftIn block (block.length - 33)) NodeAccepted (plistFromBin block) := by
  unfold plistFromBin
  refine yields_unless nodeAccepted_none fun hlength => ?_
  rw [@readRange_eq block 0 6 0 6 rfl rfl (by omega), ok_bind]
  refine yields_unless nodeAccepted_none fun _ => ?_
  rw [@readRange_eq block 6 2 6 2 rfl rfl (by omega), ok_bind]
  refine yields_unless nodeAccepted_none fun _ => ?_
  rw [readTrailer_eq (by omega), ok_bind]
  dsimp only
  have hoff := (byteAt block (block.length - 32 + 6)).toNat_lt
  have hrefs := (byteAt block (block.length - 32 + 7)).toNat_lt
  refine yields_unless nodeAccepted_none fun _ => yields_unless nodeAccepted_none fun hoffset =>
    yields_unless nodeAccepted_none fun href => yields_unless nodeAccepted_none fun _ =>
    yields_unless nodeAccepted_none fun hstart => yields_unless nodeAccepted_none fun hmul =>
    yields_unless nodeAccepted_none fun hend => ?_
  refine Yields.weaken (parseBinNodeAtIndex_yields ?_ List.nodup_nil (by simp) ?_ _) ?_
  · exact ⟨hblock, ⟨Nat.pos_of_ne_zero href, hrefs⟩, ⟨Nat.pos_of_ne_zero hoffset, hoff⟩,
      by dsimp only; omega⟩
  · dsimp only
    rw [List.length_nil]
    omega
  · rintro e ⟨he, object, hfill, htype, hcode, hwide, harea⟩
    dsimp only at harea
    exact ⟨he, object, hfill, htype, hcode, hwide, by omega⟩

/-- Whatever the block, reading it ends with nothing or with a well formed tree, unless it has a wide
size descriptor, and for that it must be longer than 290 bytes. -/
theorem anyBlock_read (block : Bytes) (hblock : block.length < 2 ^ 30) :
    ((∃ root, plistFromBin block = .ok root ∧ ∀ node, root = some node → WellFormed Stored node) ∨
      (plistFromBin block = .error (.overflow 64) ∧
        ∃ object, WideSize block (block.length - 33) object)) ∧
      (block.length ≤ 290 → ∃ root, plistFromBin block = .ok root) := by
  have hcases := (plistFromBin_safe block hblock).cases
  have hread : (∃ root, plistFromBin block = .ok root ∧
        ∀ node, root = some node → WellFormed Stored node) ∨
      (plistFromBin block = .error (.overflow 64) ∧
        ∃ object, WideSize block (block.length - 33) object) := by
    rcases hcases with hok | ⟨e, herror, rfl, hwide⟩
    · exact .inl hok
    · exact .inr ⟨herror, hwide⟩
  refine ⟨hread, fun hshort => ?_⟩
  rcases hread with ⟨root, hok, -⟩ | ⟨-, object, -, -, -, hsize, harea⟩
  · exact ⟨root, hok⟩
  · have hpow : 2 ^ 8 ≤ 2 ^ ((byteAt block (object + 1)).toNat % 16) :=
      Nat.pow_le_pow_right (by omega) hsize
    omega

/-- A string whose size is said to take 256 bytes. -/
def wideBlock : Bytes :=
  bplistMagic ++ bplistVersion ++ [0x5f, 0x18] ++ List.replicate 256 0 ++ [0] ++ [8] ++
    (List.replicate 6 0 ++ [1, 1] ++ [0, 0, 0, 0, 0, 0, 0, 1] ++ List.replicate 8 0 ++
      [0, 0, 0, 0, 0, 0, 1, 11])

theorem anyBlock_read_wide :
    plistFromBin wideBlock = .error (.overflow 64) ∧ ∃ object, WideSize wideBlock 267 object := by
  have hlength : wideBlock.length = 300 := by decide +kernel
  obtain ⟨⟨root, hok, -⟩ | hwide, -⟩ := anyBlock_read wideBlock (by omega)
  · have hfault : (plistFromBin wideBlock).toOption.isNone := by decide +kernel
    rw [hok] at hfault
    cases hfault
  · rwa [hlength] at hwide

end WinAirPlay
