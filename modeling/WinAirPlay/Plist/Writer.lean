import WinAirPlay.Foundations.BlockCipher
import WinAirPlay.Foundations.CheckedMemory
import WinAirPlay.Foundations.FloatFormat
import WinAirPlay.Foundations.Interning
import WinAirPlay.Plist.Node
import WinAirPlay.Plist.Unicode

/-! # Writing a binary property list

`bplist.c` from `plist_data_hash` to `plist_to_bin`, with `bytearray.c` and `plist_data_compare` of
`plist.c`. Sums of sizes are those of objects in memory and do not reach 64 bits. Memory that cannot
be allocated is left out.
-/

namespace WinAirPlay
open Foundations Foundations.ByteBuffer Foundations.BlockCipher Foundations.CheckedMemory
  Foundations.FloatFormat Foundations.HashTable Foundations.Interning
set_option autoImplicit false

/-- A node in memory, with its address. -/
abbrev PlistHandle := RoseTree (ℕ × PlistData)

/-! ## Growing arrays of bytes -/

/-- `bytearray_t`, of which `data` is the part that is in use. -/
structure Bytearray where
  data : Bytes
  capacity : ℕ
  fits : data.length ≤ capacity

/-- A size in whole pages, at least one. -/
def pages (n : ℕ) : ℕ := if 4096 < n then (n + 4095) / 4096 * 4096 else 4096

theorem le_pages (n : ℕ) : n ≤ pages n := by
  unfold pages
  split <;> omega

def byteArrayNew (initial : ℕ) : Bytearray := ⟨[], pages initial, Nat.zero_le _⟩

/-- The capacity after `byte_array_append` made room for `len` bytes. -/
def Bytearray.grown (ba : Bytearray) (len : ℕ) : ℕ :=
  let remaining := ba.capacity - ba.data.length
  if remaining < len then ba.capacity + pages (len - remaining) else ba.capacity

theorem Bytearray.le_grown (ba : Bytearray) (len : ℕ) : ba.data.length + len ≤ ba.grown len := by
  have hfits := ba.fits
  have hpages := le_pages (len - (ba.capacity - ba.data.length))
  unfold Bytearray.grown
  dsimp only
  split <;> omega

/-- The bytes fit in what was made room for. -/
def byteArrayAppend (ba : Bytearray) (buf : Bytes) : Bytearray :=
  ⟨ba.data ++ buf, ba.grown buf.length, by rw [List.length_append]; exact ba.le_grown _⟩

/-! ## Nodes that are written once -/

/-- The number of a `plist_type`. -/
def PlistData.type : PlistData → ℕ
  | .boolean _ => 0
  | .uint _ _ => 1
  | .real _ => 2
  | .string _ => 3
  | .array => 4
  | .dict => 5
  | .date _ => 6
  | .data _ => 7
  | .key _ => 8
  | .uid _ => 9

/-- The hash loop, where a `char` is signed. -/
def djb2 (hash : ℕ) (buff : Bytes) : ℕ :=
  buff.foldl (fun hash x =>
    (hash * 2 ^ 5 + hash + (if x.toNat < 2 ^ 7 then x.toNat else 2 ^ 32 - 2 ^ 8 + x.toNat)) % 2 ^ 32)
    hash

/-- The eight bytes of a number in memory. -/
def memoryBytes (v : ℕ) : Bytes := (bigEndian 8 v).reverse

def plistDataHash (node : PlistHandle) : ℕ :=
  let buff := match node.label.2 with
    | .boolean boolval => memoryBytes boolval.toNat
    | .uint intval _ | .uid intval => memoryBytes intval
    | .real realval | .date realval => memoryBytes realval
    | .key strval | .string strval => strval
    | .data _ | .array | .dict => memoryBytes node.label.1
  djb2 (node.label.2.type + 5381) buff

/-- `hash & 0xFFF` -/
def plistBucket (node : PlistHandle) : ℕ := plistDataHash node % 4096

def plistDataCompare (a b : PlistHandle) : Bool :=
  match a.label.2, b.label.2 with
  | .boolean v, .boolean w => v == w
  | .uint v n, .uint w m => n == m && v == w
  | .real v, .real w => v == w
  | .date v, .date w => v == w
  | .uid v, .uid w => v == w
  | .key s, .key t => untilNul s == untilNul t
  | .string s, .string t => untilNul s == untilNul t
  | .data s, .data t => s.length == t.length && s == t
  | .array, .array => a.label.1 == b.label.1
  | .dict, .dict => a.label.1 == b.label.1
  | _, _ => false

/-- `serialize_plist`: `objects` is the pointer array and `refs` the hash table. -/
def serializePlist (node : PlistHandle) : Interned (ℕ × PlistData) :=
  intern plistBucket plistDataCompare Interned.empty node

/-! ## Objects -/

def getNeededBytes (x : ℕ) : ℕ :=
  if x < 2 ^ 8 then 1
  else if x < 2 ^ 16 then 2
  else if x < 2 ^ 24 then 3
  else if x < 2 ^ 32 then 4
  else 8

def getRealBytes (x : ℕ) : ℕ := if (narrow x).isSome then 4 else 8

def log2 (x : ℕ) : ℕ := if x = 8 then 3 else if x = 4 then 2 else if x = 2 then 1 else 0

section
variable (ba : Bytearray)

def writeInt (val : ℕ) : Bytearray :=
  let size := getNeededBytes val
  let size := if size = 3 then size + 1 else size
  byteArrayAppend (byteArrayAppend ba [UInt8.ofNat (0x10 + log2 size)])
    ((bigEndian 8 val).drop (8 - size))

def writeUint (val : ℕ) : Bytearray :=
  byteArrayAppend (byteArrayAppend (byteArrayAppend ba [0x10 + 4]) (memoryBytes 0)) (bigEndian 8 val)

def writeReal (val : ℕ) : Bytearray :=
  let size := getRealBytes val
  byteArrayAppend ba (UInt8.ofNat (0x20 + log2 size) ::
    (match narrow val with
      | some floatval => bigEndian 4 floatval
      | none => bigEndian 8 val))

def writeDate (val : ℕ) : Bytearray := byteArrayAppend ba ((0x30 + 3) :: bigEndian 8 val)

/-- The marker and the size that `write_raw_data`, `write_array` and `write_dict` start with. -/
def writeMarker (mark size : ℕ) : Bytearray :=
  let ba := byteArrayAppend ba [UInt8.ofNat (mark + if size < 15 then size else 15)]
  if 15 ≤ size then writeInt ba size else ba

/-- `size` counts units of two bytes for a `BPLIST_UNICODE`. -/
def writeRawData (mark : ℕ) (val : Bytes) (size : ℕ) : Bytearray :=
  byteArrayAppend (writeMarker ba mark size) (val.take (if mark = 0x60 then size * 2 else size))

def writeData (val : Bytes) : Bytearray := writeRawData ba 0x40 val val.length

def writeString (val : Bytes) : Bytearray := writeRawData ba 0x50 val val.length

/-- `plist_utf8_to_utf16be`: the loop fills a buffer of `size * 2 + 1` units. -/
def plistUtf8ToUtf16be (unistr : Bytes) (size : ℤ) : Checked (List ℕ) := do
  let outbuf ← malloc (fun _ => 0) ((← addInt (← mulInt size 2) 1) * 2)
  let units := utf8ToUtf16 (← readRange unistr 0 size)
  let _ ← writeRange outbuf 0 (units.flatMap (bigEndian 2) ++ [0, 0])
  .ok units

def writeUnicode (val : Bytes) : Checked Bytearray := do
  let units ← plistUtf8ToUtf16be val (intOf val.length)
  .ok (writeRawData ba 0x60 (units.flatMap (bigEndian 2)) units.length)

def writeUid (val : ℕ) : Bytearray :=
  let val := val % 2 ^ 32
  let size := getNeededBytes val
  let size := if size = 3 then size + 1 else size
  byteArrayAppend (byteArrayAppend ba [UInt8.ofNat (0x80 + (size - 1))])
    ((bigEndian 8 val).drop (8 - size))

/-- One reference; a node that is not in the table has no number to read. -/
def writeRef (ref : PlistHandle → Option ℕ) (refSize : ℕ) (node : PlistHandle) : Checked Bytearray :=
  match ref node with
  | none => .error .nullPointer
  | some idx => .ok (byteArrayAppend ba ((bigEndian 8 idx).drop (8 - refSize)))

end

def writeRefs (ref : PlistHandle → Option ℕ) (refSize : ℕ) (ba : Bytearray)
    (nodes : List PlistHandle) : Checked Bytearray :=
  nodes.foldlM (fun ba node => writeRef ba ref refSize node) ba

def writeArray (ref : PlistHandle → Option ℕ) (refSize : ℕ) (ba : Bytearray) (node : PlistHandle) :
    Checked Bytearray :=
  writeRefs ref refSize (writeMarker ba 0xA0 node.children.length) node.children

/-- The keys and values in turn. -/
def pairs {α : Type} : List α → List (α × α)
  | a :: b :: rest => (a, b) :: pairs rest
  | _ => []

/-- All keys, then all values. -/
def writeDict (ref : PlistHandle → Option ℕ) (refSize : ℕ) (ba : Bytearray) (node : PlistHandle) :
    Checked Bytearray := do
  let ba := writeMarker ba 0xD0 (node.children.length / 2)
  let ba ← writeRefs ref refSize ba ((pairs node.children).map Prod.fst)
  writeRefs ref refSize ba ((pairs node.children).map Prod.snd)

def isAsciiString (s : Bytes) (len : ℤ) : Bool := (s.take len.toNat).all fun x => x.toNat < 0x80

def writeObject (ref : PlistHandle → Option ℕ) (refSize : ℕ) (ba : Bytearray) (node : PlistHandle) :
    Checked Bytearray :=
  match node.label.2 with
  | .boolean boolval => .ok (byteArrayAppend ba [if boolval then 9 else 8])
  | .uint intval length => .ok (if length = 16 then writeUint ba intval else writeInt ba intval)
  | .real realval => .ok (writeReal ba realval)
  | .key strval | .string strval =>
    if isAsciiString strval (intOf strval.length) then .ok (writeString ba strval)
    else writeUnicode ba strval
  | .data buff => .ok (writeData ba buff)
  | .array => writeArray ref refSize ba node
  | .dict => writeDict ref refSize ba node
  | .date realval => .ok (writeDate ba realval)
  | .uid intval => .ok (writeUid ba intval)

/-! ## The file -/

/-- The bytes of a size that does not fit in the marker. -/
def requiredForSize (size : ℕ) : ℕ :=
  if 15 ≤ size then 1 + (if getNeededBytes size = 3 then 4 else getNeededBytes size) else 0

/-- What one object adds to `req`; the cases that are not listed use the `length` of the data. -/
def requiredFor (refSize : ℕ) (node : PlistHandle) : ℕ :=
  match node.label.2 with
  | .boolean _ => 1
  | .key strval | .string strval =>
    1 + requiredForSize strval.length +
      if isAsciiString strval (intOf strval.length) then strval.length else strval.length * 2
  | .real realval => 1 + getRealBytes realval
  | .date _ => 9
  | .array => 1 + requiredForSize node.children.length + node.children.length * refSize
  | .dict =>
    1 + requiredForSize (node.children.length / 2) + node.children.length / 2 * 2 * refSize
  | .uint _ length => 1 + requiredForSize length + length
  | .uid _ => 1 + requiredForSize 8 + 8
  | .data buff => 1 + requiredForSize buff.length + buff.length

def required (refSize : ℕ) (objects : List PlistHandle) : ℕ :=
  let req := (objects.map (requiredFor refSize)).sum + 6 + 2
  req + getNeededBytes req * objects.length + 32

/-- `offsets` has one entry for each object that was written. -/
def writeObjects (ref : PlistHandle → Option ℕ) (refSize : ℕ) (ba : Bytearray)
    (objects : List PlistHandle) : Checked (Bytearray × List ℕ) :=
  objects.foldlM (fun (ba, offsets) node => do
    .ok (← writeObject ref refSize ba node, offsets ++ [ba.data.length])) (ba, [])

def plistToBin (plist : PlistHandle) : Checked Bytearray := do
  let serS := serializePlist plist
  let numObjects := serS.objects.length
  let refSize := getNeededBytes numObjects
  let ba := byteArrayNew (required refSize serS.objects)
  let ba := byteArrayAppend (byteArrayAppend ba [0x62, 0x70, 0x6C, 0x69, 0x73, 0x74]) [0x30, 0x30]
  let (ba, offsets) ← writeObjects (ref plistBucket plistDataCompare serS) refSize ba serS.objects
  let offsetTableIndex := ba.data.length
  let offsetSize := getNeededBytes offsetTableIndex
  let ba := offsets.foldl
    (fun ba offset => byteArrayAppend ba ((bigEndian 8 offset).drop (8 - offsetSize))) ba
  .ok (byteArrayAppend ba (List.replicate 6 0 ++ [UInt8.ofNat offsetSize, UInt8.ofNat refSize] ++
    bigEndian 8 numObjects ++ bigEndian 8 0 ++ bigEndian 8 offsetTableIndex))

end WinAirPlay
