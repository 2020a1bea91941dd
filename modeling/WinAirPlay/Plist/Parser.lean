import WinAirPlay.Foundations.BlockCipher
import WinAirPlay.Foundations.CheckedMemory
import WinAirPlay.Foundations.FloatFormat
import WinAirPlay.Plist.Node
import WinAirPlay.Plist.Unicode

/-! # Reading a binary property list

`bplist.c` from `UINT_TO_HOST` to `plist_from_bin`, in the variant that is compiled for Windows,
where `long` has 32 bits. A pointer into the block is its offset: the additions of the source that
could wrap around are all checked for it, so that a pointer that wraps around is a pointer beyond
the object area here. A node that is `NULL` is `none`.
-/

namespace WinAirPlay
open Foundations Foundations.ByteBuffer Foundations.BlockCipher Foundations.CheckedMemory
  Foundations.FloatFormat
set_option autoImplicit false

structure BplistData where
  data : Bytes
  numObjects : ℕ
  refSize : ℕ
  offsetSize : ℕ
  /-- The offset of the offset table, where the object area ends. -/
  offsetTable : ℕ

/-- The types of the upper half of a marker byte. -/
inductive BplistType
  | null | uint | real | date | data | string | unicode | uid | array | set | dict
  deriving DecidableEq

def BplistType.code : BplistType → ℕ
  | .null => 0x00
  | .uint => 0x10
  | .real => 0x20
  | .date => 0x30
  | .data => 0x40
  | .string => 0x50
  | .unicode => 0x60
  | .uid => 0x80
  | .array => 0xA0
  | .set => 0xC0
  | .dict => 0xD0

def BplistType.ofCode (code : ℕ) : Option BplistType :=
  [.null, .uint, .real, .date, .data, .string, .unicode, .uid, .array, .set, .dict].find?
    fun type : BplistType => type.code = code

/-! ## Numbers -/

/-- `beNtoh(x, n)` of the eight bytes that were loaded: the shift drops all but the first `n`. -/
def beNtoh (bytes : Bytes) (n : ℕ) : Checked ℕ :=
  if (8 - n) * 8 < 64 then .ok (readBigEndian (List.replicate (8 - n) 0 ++ bytes.take n))
  else .error (.overflow ((8 - n) * 8))

/-- `UINT_TO_HOST`, whose argument `n` is a `uint8_t`. -/
def uintToHost (data : Bytes) (x n : ℕ) : Checked ℕ := do
  let n := n % 256
  let src := if 8 < n then x + (n - 8) else x
  if 8 ≤ n then .ok (readBigEndian (← readRange data src 8))
  else if n = 4 then .ok (readBigEndian (← readRange data src 4))
  else if n = 2 then .ok (readBigEndian (← readRange data src 2))
  else if n = 1 then .ok (readBigEndian (← readRange data src 1))
  else beNtoh (← readRange data src 8) n

/-! ## Scalars -/

def parseUintNode (data : Bytes) (bnode size : ℕ) : Checked (Option PlistNode) := do
  let size := 2 ^ size % 256
  if size = 1 ∨ size = 2 ∨ size = 4 ∨ size = 8 then
    .ok (some (.node (.uint (← uintToHost data bnode size) 8) []))
  else if size = 16 then .ok (some (.node (.uint (← uintToHost data bnode size) size) []))
  else .ok none

def parseRealNode (data : Bytes) (bnode size : ℕ) : Checked (Option ℕ) := do
  let size := 2 ^ size % 256
  if size = 4 then .ok (some (widen (readBigEndian (← readRange data bnode 4))))
  else if size = 8 then .ok (some (readBigEndian (← readRange data bnode 8)))
  else .ok none

/-- The type is set without a look at the node. -/
def parseDateNode (data : Bytes) (bnode size : ℕ) : Checked (Option PlistNode) := do
  match ← parseRealNode data bnode size with
  | none => .error .nullPointer
  | some realval => .ok (some (.node (.date realval) []))

/-- `strlen` of the copy, which ends with a NUL. -/
def parseStringNode (data : Bytes) (bnode size : ℕ) : Checked (Option PlistNode) := do
  let strval ← readRange data bnode size
  .ok (some (.node (.string (untilNul strval)) []))

def unitsOf : Bytes → List ℕ
  | hi :: lo :: rest => readBigEndian [hi, lo] :: unitsOf rest
  | _ => []

/-- `plist_utf16be_to_utf8`: the loop fills a buffer of `4 * (len + 1)` bytes. -/
def plistUtf16beToUtf8 (data : Bytes) (unistr : ℕ) (len : ℤ) : Checked (Option Bytes) := do
  if len ≤ 0 then .ok none
  else
    let outbuf ← malloc (fun _ => 0) (← mulInt 4 (← addInt len 1))
    let out := utf16ToUtf8 none (unitsOf (← readRange data unistr (2 * len)))
    let _ ← writeRange outbuf 0 (out ++ [0])
    .ok (some out)

def parseUnicodeNode (data : Bytes) (bnode size : ℕ) : Checked (Option PlistNode) := do
  match ← plistUtf16beToUtf8 data bnode (intOf size) with
  | none => .ok none
  | some strval => .ok (some (.node (.string strval) []))

def parseDataNode (data : Bytes) (bnode size : ℕ) : Checked (Option PlistNode) := do
  .ok (some (.node (.data (← readRange data bnode size)) []))

def parseUidNode (data : Bytes) (bnode size : ℕ) : Checked (Option PlistNode) := do
  let intval ← uintToHost data bnode (size + 1)
  if 2 ^ 32 - 1 < intval then .ok none else .ok (some (.node (.uid intval) []))

/-! ## Containers -/

/-- The loops over the items: the first item that fails ends them. -/
def parseItems {α : Type} (item : ℕ → Checked (Option (List α))) :
    ℕ → ℕ → Checked (Option (List α))
  | 0, _ => .ok (some [])
  | n + 1, j => do
    match ← item j with
    | none => .ok none
    | some first =>
      match ← parseItems item n (j + 1) with
      | none => .ok none
      | some rest => .ok (some (first ++ rest))

section
variable (b : BplistData) (child : ℕ → Checked (Option PlistNode)) (bnode size : ℕ)

/-- Item `j` of a dictionary with `size` items: both references are read before the key. -/
def parseDictItem (j : ℕ) : Checked (Option (List PlistNode)) := do
  let index1Ptr := bnode + j * b.refSize
  let index2Ptr := bnode + (j + size) * b.refSize
  if b.offsetTable < index1Ptr + b.refSize ∨ b.offsetTable < index2Ptr + b.refSize then .ok none
  else
    let index1 ← uintToHost b.data index1Ptr b.refSize
    let index2 ← uintToHost b.data index2Ptr b.refSize
    if b.numObjects ≤ index1 then .ok none
    else if b.numObjects ≤ index2 then .ok none
    else
      match ← child index1 with
      | some (.node (.string strval) _) =>
        match ← child index2 with
        | some val => .ok (some [.node (.key strval) [], val])
        | none => .ok none
      | _ => .ok none

def parseDictNode : Checked (Option PlistNode) := do
  match ← parseItems (parseDictItem b child bnode size) size 0 with
  | none => .ok none
  | some items => .ok (some (.node .dict items))

def parseArrayItem (j : ℕ) : Checked (Option (List PlistNode)) := do
  let index1Ptr := bnode + j * b.refSize
  if b.offsetTable < index1Ptr + b.refSize then .ok none
  else
    let index1 ← uintToHost b.data index1Ptr b.refSize
    if b.numObjects ≤ index1 then .ok none
    else
      match ← child index1 with
      | some val => .ok (some [val])
      | none => .ok none

def parseArrayNode : Checked (Option PlistNode) := do
  match ← parseItems (parseArrayItem b child bnode) size 0 with
  | none => .ok none
  | some items => .ok (some (.node .array items))

end

/-! ## Objects -/

def sizedTypes : List (Option BplistType) :=
  [some .data, some .string, some .unicode, some .array, some .set, some .dict]

/-- The start of `parse_bin_node`: the type, the size and the offset behind them. A size of 15 of
one of the `sizedTypes` stands for a number that follows. -/
def readMarker (b : BplistData) (object : ℕ) : Checked (Option (Option BplistType × ℕ × ℕ)) := do
  let marker := (← readByte b.data object).toNat
  let type := BplistType.ofCode (marker / 16 * 16)
  let size := marker % 16
  let object := object + 1
  if size = 15 ∧ type ∈ sizedTypes then
    let descriptor := (← readByte b.data object).toNat
    if descriptor / 16 * 16 ≠ BplistType.uint.code then .ok none
    else
      let object := object + 1
      let nextSize := 2 ^ (descriptor % 16)
      if b.offsetTable < object + nextSize then .ok none
      else .ok (some (type, ← uintToHost b.data object nextSize, object + nextSize))
  else .ok (some (type, size, object))

def parseBinNode (b : BplistData) (child : ℕ → Checked (Option PlistNode)) (object : ℕ) :
    Checked (Option PlistNode) := do
  match ← readMarker b object with
  | none => .ok none
  | some (type, size, object) =>
    match type with
    | some .null =>
      .ok (if size = 9 then some (.node (.boolean true) [])
        else if size = 8 then some (.node (.boolean false) [])
        else none)
    | some .uint =>
      if b.offsetTable < object + 2 ^ size then .ok none else parseUintNode b.data object size
    | some .real =>
      if b.offsetTable < object + 2 ^ size then .ok none
      else
        match ← parseRealNode b.data object size with
        | none => .ok none
        | some realval => .ok (some (.node (.real realval) []))
    | some .date =>
      if size ≠ 3 then .ok none
      else if b.offsetTable < object + 2 ^ size then .ok none
      else parseDateNode b.data object size
    | some .data =>
      if b.offsetTable < object + size then .ok none else parseDataNode b.data object size
    | some .string =>
      if b.offsetTable < object + size then .ok none else parseStringNode b.data object size
    | some .unicode =>
      if b.offsetTable < object + size * 2 then .ok none else parseUnicodeNode b.data object size
    | some .array | some .set =>
      if b.offsetTable < object + size then .ok none else parseArrayNode b child object size
    | some .uid =>
      if b.offsetTable < object + size + 1 then .ok none else parseUidNode b.data object size
    | some .dict =>
      if b.offsetTable < object + size then .ok none else parseDictNode b child object size
    | none => .ok none

/-- `used` holds `used_indexes` below the current level. An index that is in use fails, so that no
recursion is deeper than the number of objects. -/
def parseBinNodeAtIndex (b : BplistData) : ℕ → List ℕ → ℕ → Checked (Option PlistNode)
  | 0, _, _ => .error .endlessLoop
  | depth + 1, used, nodeIndex => do
    let nodeIndex := nodeIndex % 2 ^ 32
    if b.numObjects ≤ nodeIndex then .ok none
    else
      let idxPtr := b.offsetTable + nodeIndex * b.offsetSize % 2 ^ 32
      if b.offsetTable + b.numObjects * b.offsetSize ≤ idxPtr then .ok none
      else
        let ptr ← uintToHost b.data idxPtr b.offsetSize
        if b.offsetTable ≤ ptr then .ok none
        else if nodeIndex ∈ used then .ok none
        else parseBinNode b (parseBinNodeAtIndex b depth (nodeIndex :: used)) ptr

def bplistMagic : Bytes := [0x62, 0x70, 0x6C, 0x69, 0x73, 0x74]
def bplistVersion : Bytes := [0x30, 0x30]

/-- The trailer is the last 32 bytes; the first six of them are unused. -/
def readTrailer (plistBin : Bytes) : Checked (BplistData × ℕ) := do
  let endData := plistBin.length - 32
  let offsetSize := (← readByte plistBin (endData + 6 : ℕ)).toNat
  let refSize := (← readByte plistBin (endData + 7 : ℕ)).toNat
  let numObjects := readBigEndian (← readRange plistBin (endData + 8 : ℕ) 8)
  let rootObject := readBigEndian (← readRange plistBin (endData + 16 : ℕ) 8)
  let offsetTable := readBigEndian (← readRange plistBin (endData + 24 : ℕ) 8)
  .ok (⟨plistBin, numObjects, refSize, offsetSize, offsetTable⟩, rootObject)

/-- `none` is a `*plist` that stays or becomes `NULL`; the callers start with `NULL`. -/
def plistFromBin (plistBin : Bytes) : Checked (Option PlistNode) := do
  if plistBin.length < 6 + 2 + 32 then .ok none
  else if (← readRange plistBin 0 6) ≠ bplistMagic then .ok none
  else if (← readRange plistBin 6 2) ≠ bplistVersion then .ok none
  else
    let startData := 6 + 2
    let endData := plistBin.length - 32
    let (b, rootObject) ← readTrailer plistBin
    if b.numObjects = 0 then .ok none
    else if b.offsetSize = 0 then .ok none
    else if b.refSize = 0 then .ok none
    else if b.numObjects ≤ rootObject then .ok none
    else if b.offsetTable < startData ∨ endData ≤ b.offsetTable then .ok none
    else if 2 ^ 64 ≤ b.numObjects * b.offsetSize then .ok none
    else if endData < b.offsetTable + b.numObjects * b.offsetSize then .ok none
    else parseBinNodeAtIndex b (b.numObjects + 1) [] rootObject

end WinAirPlay
