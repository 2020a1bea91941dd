import WinAirPlay.Http.Request

/-! # Property lists

The nodes of `libplist` and the accessors that the handlers use. A node pointer is an
`Option Plist`, where `none` is `NULL`; the accessors take it and nodes of another type. What
`plist_from_bin` reads from a body and what `plist_to_bin` writes is a parameter.
-/

namespace WinAirPlay
open Foundations.ByteBuffer
set_option autoImplicit false

inductive Plist
  | boolean (val : Bool)
  | uint (val : ℕ)
  /-- The bit pattern of the `double`. -/
  | real (bits : ℕ)
  | string (val : Bytes)
  | data (val : Bytes)
  | array (items : List Plist)
  | dict (items : List (Bytes × Plist))
  /-- A date, a uid or a null node. -/
  | other

structure Libplist where
  /-- The root node, or `NULL` for what is no binary property list. -/
  fromBin : Bytes → Option Plist
  toBin : Plist → Bytes

/-- The value of the first item with this key. -/
def plistDictGetItem (node : Option Plist) (key : String) : Option Plist :=
  match node with
  | some (.dict items) => (items.find? fun item => item.1 = ascii key).map Prod.snd
  | _ => none

/-- What `PLIST_IS_DATA` asks for, with the value of `plist_get_data_val`. -/
def plistGetDataVal : Option Plist → Option Bytes
  | some (.data val) => some val
  | _ => none

/-- `none` leaves the variable of the caller as it is. -/
def plistGetUintVal : Option Plist → Option ℕ
  | some (.uint val) => some val
  | _ => none

/-- What `PLIST_IS_ARRAY` asks for, with the items. -/
def plistArrayItems : Option Plist → Option (List Plist)
  | some (.array items) => some items
  | _ => none

/-- `plist_new_dict` and its `plist_dict_set_item` calls, each with a new key. -/
def plistNewDict (items : List (String × Plist)) : Plist :=
  .dict (items.map fun item => (ascii item.1, item.2))

def plistNewString (s : String) : Plist := .string (ascii s)

end WinAirPlay
