import WinAirPlay.Plist.Encoding
import WinAirPlay.Plist.Safety

/-! # What the parser makes of an encoding

One lemma for each kind of object: where the block has its encoding, `parseBinNode` gives its node.
-/

namespace WinAirPlay
open Foundations Foundations.ByteBuffer Foundations.BlockCipher Foundations.CheckedMemory
  Foundations.FloatFormat Foundations.Unicode
set_option autoImplicit false

theorem utf16_lt (text : List Char) : ∀ u ∈ utf16 text, u < 2 ^ 16 := by
  intro u hu
  obtain ⟨c, -, hc⟩ := List.mem_flatMap.mp hu
  have hrange := scalar_range c
  unfold utf16EncodeChar at hc
  by_cases hbasic : c.toNat < 0x10000
  · rw [if_pos hbasic] at hc
    have hu := List.mem_singleton.mp hc
    omega
  · rw [if_neg hbasic] at hc
    obtain hu | hc := List.mem_cons.mp hc
    · omega
    · have hu := List.mem_singleton.mp hc
      omega

/-- Units that were written in big-endian order. -/
theorem unitsOf_flatMap {units : List ℕ} (h : ∀ u ∈ units, u < 2 ^ 16) :
    unitsOf (units.flatMap (bigEndian 2)) = units := by
  induction units with
  | nil => simp [unitsOf]
  | cons u units ih =>
    obtain ⟨hu, hrest⟩ := List.forall_mem_cons.mp h
    have hread := readBigEndian_bigEndian 2 u
    rw [Nat.mod_eq_of_lt (by omega)] at hread
    have htwo : bigEndian 2 u = [UInt8.ofNat (u / 256), UInt8.ofNat u] := rfl
    rw [htwo] at hread
    rw [List.flatMap_cons, htwo, List.cons_append, List.cons_append, List.nil_append, unitsOf, hread,
      ih hrest]

/-! ## Numbers -/

section
variable {data : Bytes} {x : ℕ}

theorem uintToHost_bigEndian {k v : ℕ} (hk : 0 < k ∧ k ≤ 8) (hv : v < 256 ^ k)
    (h : HasAt data x (bigEndian k v)) (hroom : x + 8 ≤ data.length) :
    uintToHost data x k = .ok v := by
  have hfits := h.fits
  have hslice := h.slice
  rw [length_bigEndian] at hfits hslice
  have hx : x + (k - 8) = x := by omega
  rw [uintToHost_eq hk.1 (by omega) hfits hroom, hx, Nat.min_eq_left hk.2, hslice,
    readBigEndian_bigEndian, Nat.mod_eq_of_lt hv]

/-- A number of sixteen bytes is its last eight bytes. -/
theorem uintToHost_sixteen {v : ℕ} (hv : v < 2 ^ 64)
    (h : HasAt data x (bigEndian 8 0 ++ bigEndian 8 v)) : uintToHost data x 16 = .ok v := by
  have hfits := h.fits
  have hslice := h.right.slice
  rw [List.length_append, length_bigEndian, length_bigEndian] at hfits
  rw [length_bigEndian, length_bigEndian] at hslice
  rw [uintToHost_eq (by omega) (by omega) (by omega) (by omega)]
  show Except.ok (readBigEndian (slice data (x + 8) 8)) = _
  rw [hslice, readBigEndian_bigEndian, Nat.mod_eq_of_lt (by omega)]

end

theorem two_pow_log2 (v : ℕ) : 2 ^ log2 (intSize v) = intSize v ∧ log2 (intSize v) < 4 := by
  obtain h | h | h | h := intSize_cases v <;> rw [h] <;> decide

theorem ofCode_code (type : BplistType) : BplistType.ofCode type.code = some type := by
  cases type <;> rfl

theorem code_lt (type : BplistType) : type.code % 16 = 0 ∧ type.code < 240 := by
  cases type <;> decide

/-! ## Markers -/

section
variable {b : BplistData} {off : ℕ}

/-- Bytes of the object area, which is followed by more than a trailer. -/
structure Stands (b : BplistData) (off : ℕ) (bytes : Bytes) : Prop where
  hasAt : HasAt b.data off bytes
  inside : off + bytes.length ≤ b.offsetTable
  room : b.offsetTable + 32 ≤ b.data.length

theorem Stands.left {bytes bytes' : Bytes} (h : Stands b off (bytes ++ bytes')) :
    Stands b off bytes := by
  have hinside := h.inside
  rw [List.length_append] at hinside
  exact ⟨h.hasAt.left, by omega, h.room⟩

theorem Stands.right {bytes bytes' : Bytes} (h : Stands b off (bytes ++ bytes')) :
    Stands b (off + bytes.length) bytes' := by
  have hinside := h.inside
  rw [List.length_append] at hinside
  exact ⟨h.hasAt.right, by omega, h.room⟩

theorem Stands.tail {x : UInt8} {bytes : Bytes} (h : Stands b off (x :: bytes)) :
    Stands b (off + 1) bytes := @Stands.right b off [x] bytes h

/-- A marker whose size is the lower half of the byte. -/
theorem readMarker_small {type : BplistType} {size : ℕ} {rest : Bytes} (hsize : size < 16)
    (hfill : ¬ (size = 15 ∧ some type ∈ sizedTypes))
    (h : Stands b off (UInt8.ofNat (type.code + size) :: rest)) :
    readMarker b off = .ok (some (some type, size, off + 1)) := by
  have hfits := h.hasAt.fits
  rw [List.length_cons] at hfits
  have hcode := code_lt type
  have hbyte : (UInt8.ofNat (type.code + size)).toNat = type.code + size := by
    rw [UInt8.toNat_ofNat']
    omega
  have htype : (type.code + size) / 16 * 16 = type.code := by omega
  have hlow : (type.code + size) % 16 = size := by omega
  unfold readMarker
  rw [readByte_nat (by omega), ok_bind, h.hasAt.byteAt]
  simp only [hbyte, htype, hlow, ofCode_code]
  rw [if_neg hfill]

theorem readMarker_encodeMarker {type : BplistType} {size : ℕ} {rest : Bytes}
    (htype : some type ∈ sizedTypes) (hsize : size < 2 ^ 64)
    (h : Stands b off (encodeMarker type.code size ++ rest)) :
    readMarker b off =
      .ok (some (some type, size, off + (encodeMarker type.code size).length)) := by
  unfold encodeMarker at h ⊢
  by_cases hsmall : size < 15
  · have hbig : ¬ 15 ≤ size := by omega
    simp only [if_pos hsmall, if_neg hbig] at h ⊢
    exact readMarker_small (by omega) (by omega) h
  · have hbig : 15 ≤ size := by omega
    simp only [if_neg hsmall, if_pos hbig] at h ⊢
    have hcode := code_lt type
    have hint := h.left.tail
    have hdescriptor := hint.hasAt.byteAt
    have hnumber := hint.tail
    have hinside := hnumber.inside
    have hfits := h.left.hasAt.fits
    have hroom := h.room
    obtain ⟨hpow, hlog⟩ := two_pow_log2 size
    have hcases := intSize_cases size
    rw [length_bigEndian] at hinside
    have hmarker : (UInt8.ofNat (type.code + 15)).toNat = type.code + 15 := by
      rw [UInt8.toNat_ofNat']
      omega
    have hdesc : (UInt8.ofNat (0x10 + log2 (intSize size))).toNat = 0x10 + log2 (intSize size) := by
      rw [UInt8.toNat_ofNat']
      omega
    have hmarkerType : (type.code + 15) / 16 * 16 = type.code := by omega
    have hmarkerSize : (type.code + 15) % 16 = 15 := by omega
    have hdescType : (0x10 + log2 (intSize size)) / 16 * 16 = BplistType.uint.code := by
      show _ = 0x10
      omega
    have hdescSize : (0x10 + log2 (intSize size)) % 16 = log2 (intSize size) := by omega
    unfold readMarker
    rw [readByte_nat (by omega), ok_bind, h.hasAt.byteAt]
    simp only [hmarker, hmarkerType, hmarkerSize, ofCode_code]
    rw [if_pos ⟨trivial, htype⟩, readByte_eq (n := off + 1) (by push_cast; rfl) (by omega), ok_bind,
      hdescriptor]
    simp only [hdesc, hdescType, hdescSize, hpow]
    rw [if_neg (by simp), if_neg (by omega),
      uintToHost_bigEndian (by omega) (lt_intSize hsize) hnumber.hasAt (by omega), ok_bind]
    congr 4
    rw [List.length_cons, length_encodeInt]
    omega

/-! ## Scalars -/

variable {child : ℕ → Checked (Option PlistNode)}

theorem parseBinNode_boolean (v : Bool) (h : Stands b off [if v then 9 else 8]) :
    parseBinNode b child off = .ok (some (.node (.boolean v) [])) := by
  unfold parseBinNode
  cases v with
  | true =>
    rw [@readMarker_small b off .null 9 [] (by omega) (by omega) h]
    rfl
  | false =>
    rw [@readMarker_small b off .null 8 [] (by omega) (by omega) h]
    rfl

theorem parseBinNode_int {v : ℕ} (hv : v < 2 ^ 64) (h : Stands b off (encodeInt v)) :
    parseBinNode b child off = .ok (some (.node (.uint v 8) [])) := by
  obtain ⟨hpow, hlog⟩ := two_pow_log2 v
  have hcases := intSize_cases v
  have hnumber := h.tail
  have hinside := hnumber.inside
  have hroom := h.room
  rw [length_bigEndian] at hinside
  have hmod : intSize v % 256 = intSize v := Nat.mod_eq_of_lt (by omega)
  unfold parseBinNode
  rw [@readMarker_small b off .uint (log2 (intSize v)) _ (by omega) (by omega) h, ok_bind]
  dsimp only
  rw [hpow, if_neg (by omega), parseUintNode]
  simp only [hpow, hmod]
  rw [if_pos hcases, uintToHost_bigEndian (by omega) (lt_intSize hv) hnumber.hasAt (by omega)]
  rfl

theorem parseBinNode_uint {v : ℕ} (hv : v < 2 ^ 64)
    (h : Stands b off (0x14 :: (bigEndian 8 0 ++ bigEndian 8 v))) :
    parseBinNode b child off = .ok (some (.node (.uint v 16) [])) := by
  have hnumber := h.tail
  have hinside := hnumber.inside
  rw [List.length_append, length_bigEndian, length_bigEndian] at hinside
  unfold parseBinNode
  rw [@readMarker_small b off .uint 4 _ (by omega) (by omega) h, ok_bind]
  dsimp only
  rw [if_neg (by omega), parseUintNode]
  show (uintToHost b.data (off + 1) 16 >>= fun v => _) = _
  rw [uintToHost_sixteen hv hnumber.hasAt]
  rfl

theorem readRange_stands {bytes : Bytes} {n : ℕ} (h : Stands b off bytes) (hn : bytes.length = n) :
    readRange b.data off n = .ok bytes := by
  have hfits := h.hasAt.fits
  have hslice := h.hasAt.slice
  rw [readRange_nat (by omega), ← hn, hslice]

/-- The `float` that was written for a `double` is widened to it. -/
theorem parseBinNode_real {v : ℕ} (hv : v < 2 ^ 64) (h : Stands b off (encodeReal v)) :
    parseBinNode b child off = .ok (some (.node (.real v) [])) := by
  unfold encodeReal at h
  unfold parseBinNode
  cases hnarrow : narrow v with
  | some f =>
    rw [hnarrow] at h
    obtain ⟨hf, hwiden⟩ := widen_narrow hv hnarrow
    have hnumber := h.tail
    have hinside := hnumber.inside
    have hread : readRange b.data ((off + 1 : ℕ) : ℤ) 4 = .ok (bigEndian 4 f) :=
      readRange_stands hnumber (length_bigEndian 4 f)
    rw [length_bigEndian] at hinside
    rw [@readMarker_small b off .real 2 _ (by omega) (by omega) h, ok_bind]
    dsimp only
    rw [if_neg (by omega), parseRealNode]
    show (readRange b.data ((off + 1 : ℕ) : ℤ) 4 >>= _) >>= _ = _
    rw [hread, ok_bind, readBigEndian_bigEndian, Nat.mod_eq_of_lt (by omega), hwiden]
    rfl
  | none =>
    rw [hnarrow] at h
    have hnumber := h.tail
    have hinside := hnumber.inside
    have hread : readRange b.data ((off + 1 : ℕ) : ℤ) 8 = .ok (bigEndian 8 v) :=
      readRange_stands hnumber (length_bigEndian 8 v)
    rw [length_bigEndian] at hinside
    rw [@readMarker_small b off .real 3 _ (by omega) (by omega) h, ok_bind]
    dsimp only
    rw [if_neg (by omega), parseRealNode]
    show (readRange b.data ((off + 1 : ℕ) : ℤ) 8 >>= _) >>= _ = _
    rw [hread, ok_bind, readBigEndian_bigEndian, Nat.mod_eq_of_lt (by omega)]
    rfl

theorem parseBinNode_date {v : ℕ} (hv : v < 2 ^ 64) (h : Stands b off (0x33 :: bigEndian 8 v)) :
    parseBinNode b child off = .ok (some (.node (.date v) [])) := by
  have hnumber := h.tail
  have hinside := hnumber.inside
  have hread : readRange b.data ((off + 1 : ℕ) : ℤ) 8 = .ok (bigEndian 8 v) :=
    readRange_stands hnumber (length_bigEndian 8 v)
  rw [length_bigEndian] at hinside
  unfold parseBinNode
  rw [@readMarker_small b off .date 3 _ (by omega) (by omega) h, ok_bind]
  dsimp only
  rw [if_neg (by simp), if_neg (by omega), parseDateNode, parseRealNode]
  show ((readRange b.data ((off + 1 : ℕ) : ℤ) 8 >>= _) >>= _) = _
  rw [hread, ok_bind, readBigEndian_bigEndian, Nat.mod_eq_of_lt (by omega)]
  rfl

theorem parseBinNode_uid {v : ℕ} (hv : v < 2 ^ 32)
    (h : Stands b off (UInt8.ofNat (0x80 + (intSize v - 1)) :: bigEndian (intSize v) v)) :
    parseBinNode b child off = .ok (some (.node (.uid v) [])) := by
  have hcases := intSize_cases v
  have hnumber := h.tail
  have hinside := hnumber.inside
  have hroom := h.room
  rw [length_bigEndian] at hinside
  have hsize : intSize v - 1 + 1 = intSize v := by omega
  unfold parseBinNode
  rw [@readMarker_small b off .uid (intSize v - 1) _ (by omega) (by simp [sizedTypes]) h, ok_bind]
  dsimp only
  rw [if_neg (by omega), parseUidNode, hsize,
    uintToHost_bigEndian (by omega) (lt_intSize (by omega)) hnumber.hasAt (by omega), ok_bind,
    if_neg (by omega)]

theorem parseBinNode_data {s : Bytes} (h : Stands b off (encodeMarker 0x40 s.length ++ s))
    (hs : s.length < 2 ^ 64) :
    parseBinNode b child off = .ok (some (.node (.data s) [])) := by
  have hbytes := h.right
  have hinside := hbytes.inside
  unfold parseBinNode
  rw [@readMarker_encodeMarker b off .data s.length s (by decide) hs h, ok_bind]
  dsimp only [BplistType.code]
  rw [if_neg (by omega), parseDataNode, readRange_stands hbytes rfl]
  rfl

theorem parseBinNode_text {s : Bytes} (hs : StringOk s) (h : Stands b off (encodeText s)) :
    parseBinNode b child off = .ok (some (.node (.string s) [])) := by
  obtain ⟨⟨text, rfl⟩, hnul, hlen⟩ := hs
  unfold encodeText at h
  unfold parseBinNode
  by_cases hascii : isAsciiString (utf8 text) (utf8 text).length = true
  · rw [if_pos hascii] at h
    have hbytes := h.right
    have hinside := hbytes.inside
    rw [@readMarker_encodeMarker b off .string _ _ (by decide) (by omega) h, ok_bind]
    dsimp only [BplistType.code]
    rw [if_neg (by omega), parseStringNode, readRange_stands hbytes rfl, ok_bind,
      untilNul_eq_self hnul]
  · rw [if_neg hascii] at h
    have hunits := length_utf8ToUtf16 (utf8 text)
    rw [utf8ToUtf16_utf8] at h hunits
    have hbytes := h.right
    have hinside := hbytes.inside
    have hfits := hbytes.hasAt.fits
    have hslice := hbytes.hasAt.slice
    rw [length_flatMap_bigEndian] at hinside hfits hslice
    have hpos : 0 < (utf16 text).length := by
      cases text with
      | nil => exact absurd rfl hascii
      | cons c text =>
        rw [utf16_cons, List.length_append]
        unfold utf16EncodeChar
        split <;> simp
    rw [@readMarker_encodeMarker b off .unicode _ _ (by decide) (by omega) h, ok_bind]
    dsimp only [BplistType.code]
    rw [if_neg (by omega), parseUnicodeNode, intOf_nat (by omega),
      plistUtf16beToUtf8_eq hpos (by omega) (by omega), Nat.mul_comm 2, hslice,
      unitsOf_flatMap (utf16_lt text), utf16ToUtf8_utf16]
    rfl

/-! ## Containers -/

theorem parseItems_list {α β : Type} {item : ℕ → Checked (Option (List α))} (l : List β)
    (result : β → List α) (j : ℕ)
    (h : ∀ k x, l[k]? = some x → item (j + k) = .ok (some (result x))) :
    parseItems item l.length j = .ok (some (l.flatMap result)) := by
  induction l generalizing j with
  | nil => rfl
  | cons x l ih =>
    have hfirst := h 0 x rfl
    have hrest := ih (j + 1) fun k y hk => by
      have hnext := h (k + 1) y hk
      rw [← Nat.add_assoc, Nat.add_right_comm] at hnext
      exact hnext
    rw [Nat.add_zero] at hfirst
    rw [List.length_cons, parseItems, hfirst, ok_bind]
    dsimp only
    rw [hrest]
    rfl

theorem hasAt_flatMap_bigEndian {data : Bytes} {size : ℕ} {l : List ℕ} {k i : ℕ}
    (h : HasAt data off (l.flatMap (bigEndian size))) (hk : l[k]? = some i) :
    HasAt data (off + k * size) (bigEndian size i) := by
  induction l generalizing off k with
  | nil => simp at hk
  | cons i' l ih =>
    rw [List.flatMap_cons] at h
    cases k with
    | zero =>
      obtain rfl := Option.some.inj hk
      rw [Nat.zero_mul]
      exact h.left
    | succ k =>
      have hrest := h.right
      rw [length_bigEndian] at hrest
      have hnext := ih hrest hk
      rw [Nat.add_assoc, Nat.add_comm size, ← Nat.succ_mul] at hnext
      exact hnext

theorem stands_encodeRefs {refSize : ℕ} {indexes : List ℕ} {k i : ℕ}
    (h : Stands b off (encodeRefs refSize indexes)) (hk : indexes[k]? = some i) :
    Stands b (off + k * refSize) (bigEndian refSize i) := by
  have hlt := (List.getElem?_eq_some_iff.mp hk).1
  have hinside := h.inside
  have hle : (k + 1) * refSize ≤ indexes.length * refSize := Nat.mul_le_mul_right _ hlt
  rw [encodeRefs, length_flatMap_bigEndian] at hinside
  rw [Nat.succ_mul] at hle
  refine ⟨hasAt_flatMap_bigEndian h.hasAt hk, ?_, h.room⟩
  rw [length_bigEndian]
  omega

section
variable (href : 0 < b.refSize ∧ b.refSize ≤ 8)
include href

/-- What is needed of a reference to the node `v`. -/
structure RefersTo (b : BplistData) (child : ℕ → Checked (Option PlistNode)) (i : ℕ)
    (v : PlistNode) : Prop where
  inside : i < b.numObjects
  fits : i < 256 ^ b.refSize
  node : child i = .ok (some v)

theorem uintToHost_ref {i : ℕ} (h : Stands b off (bigEndian b.refSize i)) (hi : i < 256 ^ b.refSize) :
    uintToHost b.data off b.refSize = .ok i := by
  have hinside := h.inside
  have hroom := h.room
  exact uintToHost_bigEndian href hi h.hasAt (by omega)

theorem parseArrayItem_eq {i j : ℕ} {v : PlistNode}
    (h : Stands b (off + j * b.refSize) (bigEndian b.refSize i)) (hi : RefersTo b child i v) :
    parseArrayItem b child off j = .ok (some [v]) := by
  have hinside := h.inside
  have hin := hi.inside
  rw [length_bigEndian] at hinside
  unfold parseArrayItem
  dsimp only
  rw [if_neg (by omega), uintToHost_ref href h hi.fits, ok_bind, if_neg (by omega), hi.node]
  rfl

theorem parseBinNode_array {l : List (ℕ × PlistNode)} (hlen : b.data.length < 2 ^ 64)
    (hl : ∀ p ∈ l, RefersTo b child p.1 p.2)
    (h : Stands b off (encodeMarker 0xA0 l.length ++ encodeRefs b.refSize (l.map Prod.fst))) :
    parseBinNode b child off = .ok (some (.node .array (l.map Prod.snd))) := by
  have hrefs := h.right
  have hinside := hrefs.inside
  have hroom := h.room
  have hmul : l.length ≤ l.length * b.refSize := Nat.le_mul_of_pos_right _ href.1
  rw [encodeRefs, length_flatMap_bigEndian, List.length_map] at hinside
  have hitems := parseItems_list l (fun p : ℕ × PlistNode => [p.2]) 0 fun k p hk => by
    have hat := stands_encodeRefs hrefs (k := k) (i := p.1) (by rw [List.getElem?_map, hk]; rfl)
    rw [Nat.zero_add]
    exact parseArrayItem_eq href hat (hl p (List.mem_of_getElem? hk))
  unfold parseBinNode
  rw [@readMarker_encodeMarker b off .array l.length _ (by decide) (by omega) h, ok_bind]
  dsimp only [BplistType.code]
  rw [if_neg (by omega), parseArrayNode, hitems, ok_bind, List.map_eq_flatMap]

theorem parseDictItem_eq {i i' j size : ℕ} {s : Bytes} {v : PlistNode}
    (h : Stands b (off + j * b.refSize) (bigEndian b.refSize i))
    (h' : Stands b (off + (j + size) * b.refSize) (bigEndian b.refSize i'))
    (hi : RefersTo b child i (.node (.string s) [])) (hi' : RefersTo b child i' v) :
    parseDictItem b child off size j = .ok (some [.node (.key s) [], v]) := by
  have hinside := h.inside
  have hinside' := h'.inside
  have hin := hi.inside
  have hin' := hi'.inside
  rw [length_bigEndian] at hinside hinside'
  unfold parseDictItem
  dsimp only
  rw [if_neg (by omega), uintToHost_ref href h hi.fits, ok_bind, uintToHost_ref href h' hi'.fits,
    ok_bind, if_neg (by omega), if_neg (by omega), hi.node, ok_bind]
  dsimp only
  rw [hi'.node]
  rfl

/-- The references of the values follow those of all the keys. -/
theorem parseBinNode_dict {l : List ((ℕ × Bytes) × (ℕ × PlistNode))} (hlen : b.data.length < 2 ^ 64)
    (hl : ∀ p ∈ l, RefersTo b child p.1.1 (.node (.string p.1.2) []) ∧ RefersTo b child p.2.1 p.2.2)
    (h : Stands b off (encodeMarker 0xD0 l.length ++
      encodeRefs b.refSize (l.map (fun p => p.1.1) ++ l.map (fun p => p.2.1)))) :
    parseBinNode b child off =
      .ok (some (.node .dict (dictChildren (l.map fun p => (p.1.2, p.2.2))))) := by
  have hrefs := h.right
  have hinside := hrefs.inside
  have hroom := h.room
  have hmul : l.length ≤ l.length * b.refSize := Nat.le_mul_of_pos_right _ href.1
  rw [encodeRefs, length_flatMap_bigEndian, List.length_append, List.length_map, List.length_map,
    Nat.add_mul] at hinside
  have hitems := parseItems_list l
    (fun p : (ℕ × Bytes) × (ℕ × PlistNode) => [.node (.key p.1.2) [], p.2.2]) 0 fun k p hk => by
      have hlt := (List.getElem?_eq_some_iff.mp hk).1
      have hat := stands_encodeRefs hrefs (k := k) (i := p.1.1) (by
        rw [List.getElem?_append_left (by simpa using hlt), List.getElem?_map, hk]
        rfl)
      have hat' := stands_encodeRefs hrefs (k := k + l.length) (i := p.2.1) (by
        rw [List.getElem?_append_right (by simp), List.length_map, Nat.add_sub_cancel,
          List.getElem?_map, hk]
        rfl)
      obtain ⟨hkey, hvalue⟩ := hl p (List.mem_of_getElem? hk)
      rw [Nat.zero_add]
      exact parseDictItem_eq href hat hat' hkey hvalue
  unfold parseBinNode
  rw [@readMarker_encodeMarker b off .dict l.length _ (by decide) (by omega) h, ok_bind]
  dsimp only [BplistType.code]
  rw [if_neg (by omega), parseDictNode, hitems, ok_bind, dictChildren, List.flatMap_map]

end
end

end WinAirPlay
