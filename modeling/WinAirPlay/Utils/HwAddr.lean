import WinAirPlay.Foundations.CheckedMemory
import WinAirPlay.Foundations.Scanf

/-! # Texts of hardware addresses

`utils_hwaddr_raop` writes upper case digits, `utils_hwaddr_airplay` lower case digits with a colon
after each byte, the last of which gives way to the terminator. `utils_parse_hex` and
`parse_hw_addr` read them again. The bytes of an address and of a text are values of type `char`,
which is signed: an arithmetic expression extends the sign first.
-/

namespace WinAirPlay.Utils
open Foundations.ByteBuffer Foundations.CheckedMemory
open Foundations.Scanf (isSpace)
set_option autoImplicit false

/-! ## The writers -/

/-- A `char` as the `int` that it is converted to. -/
def charInt (c : UInt8) : BitVec 32 := c.toBitVec.signExtend 32

/-- `(c >> 4) & 0x0f`. -/
def hiNibble (c : UInt8) : ℕ := ((charInt c).sshiftRight 4 &&& 0x0f#32).toNat

/-- `c & 0x0f`. -/
def loNibble (c : UInt8) : ℕ := (charInt c &&& 0x0f#32).toNat

/-- The digit of `n`; `letter` is the digit of ten. -/
def digitChar (letter : UInt8) (n : ℕ) : UInt8 :=
  if n < 10 then UInt8.ofNat (48 + n) else UInt8.ofNat (letter.toNat + n - 10)

/-- The two digits of a byte, written to `str[j]` and `str[j + 1]`. -/
def writeDigits (letter : UInt8) (str : Bytes) (j : ℤ) (c : UInt8) : Checked Bytes := do
  let str ← writeByte str j (digitChar letter (hiNibble c))
  writeByte str (j + 1) (digitChar letter (loNibble c))

/-- `str` and the result after the call; `hwaddrlen` is the length of `hwaddr`. -/
def utilsHwaddrRaop (str : Bytes) (strlen : ℤ) (hwaddr : Bytes) : Checked (Bytes × ℤ) := do
  if strlen = 0 then .ok (str, -1)
  else if strlen < (← addInt (← mulInt 2 hwaddr.length) 1) then .ok (str, -1)
  else
    let s ← forLoop hwaddr.length (str, 0) fun i s => do
      .ok (← writeDigits 65 s.1 s.2 (← readByte hwaddr i), s.2 + 2)
    .ok (← writeByte s.1 s.2 0, s.2 + 1)

def utilsHwaddrAirplay (str : Bytes) (strlen : ℤ) (hwaddr : Bytes) : Checked (Bytes × ℤ) := do
  if strlen = 0 then .ok (str, -1)
  else if strlen < (← addInt (← mulInt 2 hwaddr.length) hwaddr.length) then .ok (str, -1)
  else
    let s ← forLoop hwaddr.length (str, 0) fun i s => do
      let str ← writeDigits 97 s.1 s.2 (← readByte hwaddr i)
      .ok (← writeByte str (s.2 + 2) 58, s.2 + 3)
    let j := if s.2 ≠ 0 then s.2 - 1 else s.2
    .ok (← writeByte s.1 j 0, j + 1)

/-! ## The readers -/

/-- The value of a `char` in a comparison. -/
def charVal (c : UInt8) : ℤ := (charInt c).toInt

/-- The value of a digit, or `none` where `utils_parse_hex` gives up. -/
def digitValue (c : UInt8) : Option UInt8 :=
  if 97 ≤ charVal c ∧ charVal c ≤ 102 then some (c - (97 - 10))
  else if 65 ≤ charVal c ∧ charVal c ≤ 70 then some (c - (65 - 10))
  else if 48 ≤ charVal c ∧ charVal c ≤ 57 then some (c - 48)
  else none

/-- The loop of `utils_parse_hex` from pass `i` on, with the number of passes that are left. -/
def parseHexFrom (str : Bytes) : ℕ → ℕ → Bytes → Checked (Option Bytes)
  | 0, _, data => .ok (some data)
  | passes + 1, i, data => do
    match digitValue (← readByte str (2 * i : ℕ)) with
    | none => .ok none
    | some c1 =>
      match digitValue (← readByte str (2 * i + 1 : ℕ)) with
      | none => .ok none
      | some c2 => parseHexFrom str passes (i + 1) (← writeByte data i ((c1 <<< 4) ||| c2))

/-- `none` is the null pointer; the length of the result is `*data_len`. -/
def utilsParseHex (garbage : ℕ → UInt8) (str : Bytes) (strLen : ℤ) : Checked (Option Bytes) := do
  assertThat (strLen.tmod 2 = 0)
  let data ← malloc garbage (strLen.tdiv 2)
  parseHexFrom str (strLen.tdiv 2).toNat 0 data

/-- The value of a hexadecimal digit for `stol`. -/
def xdigit (c : UInt8) : Option ℕ :=
  if 48 ≤ c ∧ c ≤ 57 then some (c.toNat - 48)
  else if 65 ≤ c ∧ c ≤ 70 then some (c.toNat - 55)
  else if 97 ≤ c ∧ c ≤ 102 then some (c.toNat - 87)
  else none

/-- The digits at the start of a text and the number that they spell. -/
def xdigits : Bytes → List ℕ
  | [] => []
  | c :: text =>
    match xdigit c with
    | some d => d :: xdigits text
    | none => []

/-- Without a prefix `0x` or `0X`, where a digit follows it. -/
def dropBasePrefix : Bytes → Bytes
  | 48 :: x :: c :: text =>
    if (x = 120 ∨ x = 88) ∧ (xdigit c).isSome then c :: text else 48 :: x :: c :: text
  | text => text

/-- `LONG_MAX`; a `long` has 32 bits here. -/
def longMax : ℤ := 2 ^ 31 - 1

/-- `std::stol(text, NULL, 16)`. An exception ends the program, as nobody catches it. -/
def stol (text : Bytes) : Checked ℤ :=
  let text := text.dropWhile isSpace
  let negative := text.head? = some 45
  let text := if text.head? = some 45 ∨ text.head? = some 43 then text.tail else text
  let digits := xdigits (dropBasePrefix text)
  let value : ℤ := digits.foldl (fun v d => 16 * v + d) 0
  let value := if negative then -value else value
  if digits = [] ∨ value < -longMax - 1 ∨ longMax < value then .error .exited else .ok value

/-- The loop of `parse_hw_addr` from index `i` on; every pass skips three characters. -/
def parseHwAddrFrom (str : Bytes) : ℕ → ℕ → Bytes → Checked Bytes
  | 0, _, _ => .error .endlessLoop
  | passes + 1, i, hwAddr =>
    if i < str.length then do
      let value ← stol (str.drop i)
      let _ ← addInt i 3
      parseHwAddrFrom str passes (i + 3) (hwAddr ++ [⟨BitVec.ofInt 8 value⟩])
    else .ok hwAddr

def parseHwAddr (str hwAddr : Bytes) : Checked Bytes :=
  parseHwAddrFrom str (str.length + 1) 0 hwAddr

/-! ## Nibbles and digits -/

theorem forall_byte {p : UInt8 → Prop} (h : ∀ n : Fin 256, p (UInt8.ofNat n)) (c : UInt8) : p c := by
  have hc := h ⟨c.toNat, c.toNat_lt⟩
  rwa [UInt8.ofNat_toNat] at hc

/-- Extending the sign does not reach the lower eight bits. -/
theorem nibbles_eq : ∀ c : UInt8, hiNibble c = c.toNat / 16 ∧ loNibble c = c.toNat % 16 :=
  forall_byte (by decide +kernel)

theorem hiNibble_lt (c : UInt8) : hiNibble c < 16 := by
  have hc := c.toNat_lt
  rw [(nibbles_eq c).1]
  omega

theorem loNibble_lt (c : UInt8) : loNibble c < 16 := by
  rw [(nibbles_eq c).2]
  omega

theorem digitValue_digitChar : ∀ n < 16, digitValue (digitChar 65 n) = some (UInt8.ofNat n) := by
  decide +kernel

theorem xdigit_digitChar : ∀ n < 16, xdigit (digitChar 97 n) = some n := by
  decide +kernel

theorem digitChar_ne_zero : ∀ n < 16, digitChar 65 n ≠ 0 ∧ digitChar 97 n ≠ 0 := by
  decide +kernel

/-- The digits of a byte, put together again. -/
theorem join_nibbles : ∀ c : UInt8,
    (UInt8.ofNat (hiNibble c) <<< 4) ||| UInt8.ofNat (loNibble c) = c :=
  forall_byte (by decide +kernel)

def IsHexDigit (c : UInt8) : Prop :=
  (48 ≤ c.toNat ∧ c.toNat ≤ 57) ∨ (65 ≤ c.toNat ∧ c.toNat ≤ 70) ∨
    (97 ≤ c.toNat ∧ c.toNat ≤ 102)

instance (c : UInt8) : Decidable (IsHexDigit c) :=
  inferInstanceAs (Decidable (_ ∨ _ ∨ _))

theorem digitValue_isSome : ∀ c : UInt8, (digitValue c).isSome = true ↔ IsHexDigit c :=
  forall_byte (by decide +kernel)

/-! ## What the writers write -/

def digits (letter c : UInt8) : Bytes :=
  [digitChar letter (hiNibble c), digitChar letter (loNibble c)]

/-- The text of `utils_hwaddr_raop`. -/
def raopText (hwaddr : Bytes) : Bytes := hwaddr.flatMap (digits 65)

/-- The three characters of `utils_hwaddr_airplay` for a byte. -/
def hwaddrByte (c : UInt8) : Bytes := digits 97 c ++ [58]

/-- The text of `utils_hwaddr_airplay`, in which no colon follows the last byte. -/
def hwaddrText (hwaddr : Bytes) : Bytes := (hwaddr.flatMap hwaddrByte).dropLast

/-- The bytes that a text of digits spells, if it is one. -/
def hexBytes : Bytes → Option Bytes
  | c1 :: c2 :: rest => do return (16 * (← digitValue c1) + (← digitValue c2)) :: (← hexBytes rest)
  | _ => some []

theorem range_flatMap_byteAt (f : UInt8 → Bytes) (b : Bytes) :
    (List.range b.length).flatMap (fun i => f (byteAt b i)) = b.flatMap f := by
  conv_rhs => rw [← map_byteAt b, List.flatMap_map]

theorem writeDigits_middle (letter : UInt8) {done : Bytes} {j : ℤ} (hj : j = done.length)
    (x y : UInt8) (rest : Bytes) (c : UInt8) :
    writeDigits letter (done ++ x :: y :: rest) j c = .ok (done ++ digits letter c ++ rest) := by
  have hnext : done ++ digitChar letter (hiNibble c) :: y :: rest =
      (done ++ [digitChar letter (hiNibble c)]) ++ y :: rest := by simp
  rw [writeDigits, writeByte_middle hj, ok_bind, hnext, writeByte_middle (by simp [hj])]
  simp [digits]

theorem length_raopText (hwaddr : Bytes) : (raopText hwaddr).length = 2 * hwaddr.length := by
  rw [raopText, List.length_flatMap]
  simp [digits, mul_comm]

theorem length_flatMap_hwaddrByte (hwaddr : Bytes) :
    (hwaddr.flatMap hwaddrByte).length = 3 * hwaddr.length := by
  rw [List.length_flatMap]
  simp [hwaddrByte, digits, mul_comm]

/-- A buffer with room for two characters starts with two characters. -/
theorem exists_cons_cons {rest : Bytes} (h : 2 ≤ rest.length) :
    ∃ x y tail, rest = x :: y :: tail := by
  obtain ⟨x, y, hxy⟩ : ∃ x y, rest.take 2 = [x, y] := by
    have htwo : (rest.take 2).length = 2 := by rw [List.length_take, Nat.min_eq_left h]
    exact List.length_eq_two.mp htwo
  exact ⟨x, y, rest.drop 2, by rw [← List.take_append_drop 2 rest, hxy]; rfl⟩

/-- The writer needs the bytes of its check and no more: two for each byte, and the terminator. -/
theorem utilsHwaddrRaop_ok {str hwaddr : Bytes} {strlen : ℤ}
    (hlen : 2 * (hwaddr.length : ℤ) + 1 ≤ strlen) (hint : strlen < 2 ^ 31)
    (hstr : 2 * hwaddr.length + 1 ≤ str.length) :
    utilsHwaddrRaop str strlen hwaddr =
      .ok (raopText hwaddr ++ 0 :: str.drop (2 * hwaddr.length + 1),
        ((2 * hwaddr.length + 1 : ℕ) : ℤ)) := by
  have hloop : forLoop hwaddr.length (str, 0) (fun i s => do
      .ok (← writeDigits 65 s.1 s.2 (← readByte hwaddr i), s.2 + 2)) =
        .ok (raopText hwaddr ++ str.drop (2 * hwaddr.length), ((2 * hwaddr.length : ℕ) : ℤ)) := by
    refine (forLoop_fill (w := 2) (fun i => digits 65 (byteAt hwaddr i)) (fun _ => rfl) ?_
      (by omega)).trans ?_
    · intro i hi done rest hdone hrest
      obtain ⟨x, y, tail, rfl⟩ := exists_cons_cons hrest
      rw [readByte_nat hi, ok_bind, writeDigits_middle 65 (by rw [hdone]), ok_bind]
      congr 2
    · rw [range_flatMap_byteAt, raopText]
  have hend : str.drop (2 * hwaddr.length) =
      byteAt str (2 * hwaddr.length) :: str.drop (2 * hwaddr.length + 1) := by
    rw [byteAt, List.getD_eq_getElem _ _ (by omega)]
    exact List.drop_eq_getElem_cons (by omega)
  unfold utilsHwaddrRaop
  rw [if_neg (by omega), mulInt, if_pos (by omega), ok_bind, addInt, if_pos (by omega), ok_bind,
    if_neg (by omega), hloop, ok_bind, hend, writeByte_middle (by rw [length_raopText]), ok_bind]
  congr 2

/-- While the last colon is there, the text is one character longer. -/
theorem hwaddrText_concat {hwaddr : Bytes} (h : hwaddr ≠ []) :
    ∃ colon, hwaddr.flatMap hwaddrByte = hwaddrText hwaddr ++ [colon] ∧
      (hwaddrText hwaddr).length + 1 = 3 * hwaddr.length := by
  have hlength := length_flatMap_hwaddrByte hwaddr
  have hpos : 0 < hwaddr.length := List.length_pos_iff.mpr h
  have hne : hwaddr.flatMap hwaddrByte ≠ [] := List.length_pos_iff.mp (by omega)
  refine ⟨(hwaddr.flatMap hwaddrByte).getLast hne, ?_, ?_⟩
  · rw [hwaddrText, List.dropLast_concat_getLast]
  · rw [hwaddrText, List.length_dropLast, hlength]
    omega

/-- The writer needs three bytes for each byte: the terminator takes the place of the last colon. -/
theorem utilsHwaddrAirplay_ok {str hwaddr : Bytes} {strlen : ℤ} (hne : hwaddr ≠ [])
    (hlen : 3 * (hwaddr.length : ℤ) ≤ strlen) (hint : strlen < 2 ^ 31)
    (hstr : 3 * hwaddr.length ≤ str.length) :
    utilsHwaddrAirplay str strlen hwaddr =
      .ok (hwaddrText hwaddr ++ 0 :: str.drop (3 * hwaddr.length),
        ((3 * hwaddr.length : ℕ) : ℤ)) := by
  have hpos : 0 < hwaddr.length := List.length_pos_iff.mpr hne
  have hloop : forLoop hwaddr.length (str, 0) (fun i s => do
      let str ← writeDigits 97 s.1 s.2 (← readByte hwaddr i)
      .ok (← writeByte str (s.2 + 2) 58, s.2 + 3)) =
        .ok (hwaddr.flatMap hwaddrByte ++ str.drop (3 * hwaddr.length),
          ((3 * hwaddr.length : ℕ) : ℤ)) := by
    refine (forLoop_fill (w := 3) (fun i => hwaddrByte (byteAt hwaddr i)) (fun _ => rfl) ?_
      (by omega)).trans ?_
    · intro i hi done rest hdone hrest
      obtain ⟨x, y, tail, rfl⟩ := exists_cons_cons (show 2 ≤ rest.length by omega)
      simp only [List.length_cons] at hrest
      obtain ⟨z, tail, rfl⟩ := List.exists_cons_of_length_pos (show 0 < tail.length by omega)
      rw [readByte_nat hi, ok_bind, writeDigits_middle 97 (by rw [hdone]), ok_bind,
        writeByte_middle (by simp [digits, hdone]), ok_bind]
      congr 2
      simp [hwaddrByte]
    · rw [range_flatMap_byteAt hwaddrByte]
  obtain ⟨colon, hcolon, hlength⟩ := hwaddrText_concat hne
  unfold utilsHwaddrAirplay
  rw [if_neg (by omega), mulInt, if_pos (by omega), ok_bind, addInt, if_pos (by omega), ok_bind,
    if_neg (by omega), hloop, ok_bind]
  dsimp only
  rw [if_pos (by omega), hcolon, List.append_assoc, List.singleton_append,
    writeByte_middle (by omega), ok_bind]
  congr 2
  omega

/-! ## What `utils_parse_hex` reads -/

theorem digitValue_lt : ∀ c : UInt8, ∀ v ∈ digitValue c, v < 16 :=
  forall_byte (by decide +kernel)

theorem shift_or {c1 c2 : UInt8} (h1 : c1 < 16) (h2 : c2 < 16) :
    (c1 <<< 4) ||| c2 = 16 * c1 + c2 := by
  have hall : ∀ n m : Fin 16, (UInt8.ofNat n <<< 4) ||| UInt8.ofNat m =
      16 * UInt8.ofNat n + UInt8.ofNat m := by decide +kernel
  have h := hall ⟨c1.toNat, h1⟩ ⟨c2.toNat, h2⟩
  rwa [UInt8.ofNat_toNat, UInt8.ofNat_toNat] at h

/-- The loop reads the bytes that the rest of the text spells. -/
theorem parseHexFrom_eq {str data : Bytes} {passes i : ℕ} (hstr : str.length = 2 * (i + passes))
    (hdata : data.length = i + passes) :
    parseHexFrom str passes i data =
      .ok ((hexBytes (str.drop (2 * i))).map fun rest => data.take i ++ rest) := by
  induction passes generalizing i data with
  | zero =>
    rw [List.drop_eq_nil_of_le (by omega), List.take_of_length_le (by omega)]
    simp [parseHexFrom, hexBytes]
  | succ passes ih =>
    have hpair : str.drop (2 * i) =
        byteAt str (2 * i) :: byteAt str (2 * i + 1) :: str.drop (2 * (i + 1)) := by
      rw [byteAt, byteAt, List.getD_eq_getElem _ _ (by omega), List.getD_eq_getElem _ _ (by omega),
        List.drop_eq_getElem_cons (by omega), List.drop_eq_getElem_cons (by omega)]
      rfl
    rw [parseHexFrom, readByte_nat (by omega), ok_bind, hpair, hexBytes]
    cases h1 : digitValue (byteAt str (2 * i)) with
    | none => rfl
    | some c1 =>
      dsimp only
      rw [readByte_nat (by omega), ok_bind]
      cases h2 : digitValue (byteAt str (2 * i + 1)) with
      | none => rfl
      | some c2 =>
        have hc1 := digitValue_lt _ c1 h1
        have hc2 := digitValue_lt _ c2 h2
        dsimp only
        rw [writeByte_nat (by omega), ok_bind,
          ih (by omega) (by rw [List.length_set]; omega), shift_or hc1 hc2]
        congr 1
        cases hexBytes (str.drop (2 * (i + 1))) with
        | none => rfl
        | some rest =>
          have htake : (data.set i (16 * c1 + c2)).take (i + 1) = data.take i ++ [16 * c1 + c2] := by
            rw [List.take_succ_eq_append_getElem (by rw [List.length_set]; omega),
              List.getElem_set_self, List.take_set_of_le (le_refl i)]
          simp [htake]

theorem utilsParseHex_eq (garbage : ℕ → UInt8) {text : Bytes} (heven : text.length % 2 = 0) :
    utilsParseHex garbage text text.length = .ok (hexBytes text) := by
  have hdiv : (text.length : ℤ).tdiv 2 = ((text.length / 2 : ℕ) : ℤ) := rfl
  have hmod : (text.length : ℤ).tmod 2 = 0 := by
    rw [Int.tmod_eq_emod_of_nonneg (by omega)]
    omega
  rw [utilsParseHex, assertThat_true hmod, ok_bind, hdiv, malloc_nat, ok_bind, Int.toNat_natCast,
    parseHexFrom_eq (by omega) (by simp)]
  simp

theorem hexBytes_raopText (hwaddr : Bytes) :
    hexBytes (raopText hwaddr) = some hwaddr := by
  induction hwaddr with
  | nil => rfl
  | cons c hwaddr ih =>
    have hlt : ∀ n < 16, UInt8.ofNat n < 16 := by decide +kernel
    have hcons : raopText (c :: hwaddr) = digitChar 65 (hiNibble c) :: digitChar 65 (loNibble c) ::
        raopText hwaddr := rfl
    have hjoin := shift_or (hlt _ (hiNibble_lt c)) (hlt _ (loNibble_lt c))
    rw [join_nibbles] at hjoin
    rw [hcons, hexBytes, digitValue_digitChar _ (hiNibble_lt c),
      digitValue_digitChar _ (loNibble_lt c), ih]
    simp [← hjoin]

theorem hexBytes_isSome {text : Bytes} (heven : text.length % 2 = 0) :
    (hexBytes text).isSome = true ↔ ∀ c ∈ text, IsHexDigit c := by
  induction text using hexBytes.induct with
  | case1 c1 c2 rest ih =>
    have hrest : rest.length % 2 = 0 := by
      simp only [List.length_cons] at heven
      omega
    rw [List.forall_mem_cons, List.forall_mem_cons, ← ih hrest, ← digitValue_isSome,
      ← digitValue_isSome, hexBytes]
    cases digitValue c1 <;> cases digitValue c2 <;>
      cases hexBytes rest <;> simp
  | case2 text h =>
    have hnil : text = [] := by
      cases text with
      | nil => rfl
      | cons c1 rest =>
        cases rest with
        | nil => simp at heven
        | cons c2 rest => exact absurd rfl (h c1 c2 rest)
    subst hnil
    simp [hexBytes]

/-! ## What `parse_hw_addr` reads -/

theorem digitChar_plain : ∀ n < 16, isSpace (digitChar 97 n) = false ∧ digitChar 97 n ≠ 45 ∧
    digitChar 97 n ≠ 43 ∧ digitChar 97 n ≠ 120 ∧ digitChar 97 n ≠ 88 := by
  decide +kernel

theorem dropBasePrefix_digits {x : UInt8} (h : x ≠ 120 ∧ x ≠ 88) (c : UInt8) (rest : Bytes) :
    dropBasePrefix (c :: x :: rest) = c :: x :: rest := by
  unfold dropBasePrefix
  split
  · next heq =>
    obtain ⟨rfl, rfl, rfl⟩ : c = 48 ∧ x = _ ∧ rest = _ := by simpa using heq
    rw [if_neg fun hprefix => hprefix.1.elim h.1 h.2]
  · rfl

/-- The digits of a byte, up to the first character that is none. -/
theorem stol_digits (c : UInt8) {rest : Bytes} (hrest : xdigits rest = []) :
    stol (digits 97 c ++ rest) = .ok c.toNat := by
  have hc := c.toNat_lt
  obtain ⟨hspace, hminus, hplus, -⟩ := digitChar_plain _ (hiNibble_lt c)
  obtain ⟨-, -, -, hx, hX⟩ := digitChar_plain _ (loNibble_lt c)
  have htext : digits 97 c ++ rest =
      digitChar 97 (hiNibble c) :: digitChar 97 (loNibble c) :: rest := rfl
  have hdigits : xdigits (digitChar 97 (hiNibble c) :: digitChar 97 (loNibble c) :: rest) =
      [hiNibble c, loNibble c] := by
    simp only [xdigits, xdigit_digitChar _ (hiNibble_lt c), xdigit_digitChar _ (loNibble_lt c),
      hrest]
  have hvalue : [hiNibble c, loNibble c].foldl (fun (v : ℤ) d => 16 * v + d) 0 = c.toNat := by
    show 16 * (16 * (0 : ℤ) + hiNibble c) + loNibble c = c.toNat
    rw [(nibbles_eq c).1, (nibbles_eq c).2]
    omega
  unfold stol
  rw [htext, List.dropWhile_cons_of_neg (by simpa using hspace)]
  simp only [List.head?_cons, Option.some.injEq, hminus, hplus, or_self, if_false,
    dropBasePrefix_digits ⟨hx, hX⟩, hdigits, hvalue, longMax]
  rw [if_neg (by simp; omega)]

/-- The text of an address, byte by byte: the rest of it starts three characters further on. -/
theorem hwaddrText_cons (c : UInt8) (rest : Bytes) :
    ∃ tail, hwaddrText (c :: rest) = digits 97 c ++ tail ∧ xdigits tail = [] ∧
      (digits 97 c ++ tail).drop 3 = hwaddrText rest ∧
      (digits 97 c ++ tail).length + 1 = 3 * (c :: rest).length := by
  have hdigits : hwaddrByte c = digits 97 c ++ [58] := rfl
  obtain ⟨-, -, hlength⟩ := hwaddrText_concat (List.cons_ne_nil c rest)
  cases rest with
  | nil => exact ⟨[], by rw [hwaddrText, List.flatMap_singleton, hdigits]; rfl, rfl, rfl, rfl⟩
  | cons next rest =>
    have hne : (next :: rest).flatMap hwaddrByte ≠ [] := by simp [hwaddrByte]
    have hcons : hwaddrText (c :: next :: rest) =
        digits 97 c ++ 58 :: hwaddrText (next :: rest) := by
      rw [hwaddrText, List.flatMap_cons, List.dropLast_append_of_ne_nil hne, hdigits,
        List.append_assoc, hwaddrText, List.singleton_append]
    refine ⟨58 :: hwaddrText (next :: rest), hcons, rfl, rfl, ?_⟩
    rw [← hcons, hlength]

/-- Every pass reads one byte and skips its two digits and the colon. -/
theorem parseHwAddrFrom_ok {str : Bytes} (hint : str.length + 1 < 2 ^ 31) {rest : Bytes}
    {passes i : ℕ} (hdrop : str.drop i = hwaddrText rest) (hi : i ≤ str.length + 1)
    (hpasses : rest.length < passes) (hwAddr : Bytes) :
    parseHwAddrFrom str passes i hwAddr = .ok (hwAddr ++ rest) := by
  obtain ⟨passes, rfl⟩ : ∃ p, passes = p + 1 := ⟨passes - 1, by omega⟩
  induction rest generalizing passes i hwAddr with
  | nil =>
    have hend : ¬ i < str.length := by
      have hnil : str.drop i = [] := hdrop
      rw [List.drop_eq_nil_iff] at hnil
      omega
    rw [parseHwAddrFrom, if_neg hend, List.append_nil]
  | cons c rest ih =>
    obtain ⟨tail, htext, htail, hnext, hlength⟩ := hwaddrText_cons c rest
    have hbyte : (⟨BitVec.ofInt 8 (c.toNat : ℤ)⟩ : UInt8) = c := by
      rw [BitVec.ofInt_natCast]
      exact UInt8.ofNat_toNat
    rw [← htext, ← hdrop, List.length_drop, List.length_cons] at hlength
    rw [List.length_cons] at hpasses
    obtain ⟨passes, rfl⟩ : ∃ p, passes = p + 1 := ⟨passes - 1, by omega⟩
    have hrest : str.drop (i + 3) = hwaddrText rest := by
      rw [← List.drop_drop, hdrop, htext, hnext]
    rw [parseHwAddrFrom, if_pos (by omega), hdrop, htext, stol_digits c htail, ok_bind,
      addInt, if_pos (by omega), ok_bind, hbyte, ih hrest (by omega) _ passes (by omega)]
    simp

theorem parseHwAddr_hwaddrText {hwaddr : Bytes} (hint : 3 * hwaddr.length < 2 ^ 31)
    (hne : hwaddr ≠ []) : parseHwAddr (hwaddrText hwaddr) [] = .ok hwaddr := by
  obtain ⟨-, -, hlength⟩ := hwaddrText_concat hne
  have hfits : (hwaddrText hwaddr).length + 1 < 2 ^ 31 := by omega
  rw [parseHwAddr, parseHwAddrFrom_ok hfits rfl (by omega) (by omega), List.nil_append]

/-! ## Round trips -/

/-- The texts of an address. A buffer of the size that a writer checks for is large enough, what
follows the terminator is not touched, and the reader gives the address back. -/
structure RoundTrips (hwaddr : Bytes) : Prop where
  raop : ∀ (str : Bytes) (strlen : ℤ), 2 * (hwaddr.length : ℤ) + 1 ≤ strlen → strlen < 2 ^ 31 →
    2 * hwaddr.length + 1 ≤ str.length →
    ∃ text, utilsHwaddrRaop str strlen hwaddr =
        .ok (text ++ 0 :: str.drop (2 * hwaddr.length + 1), ((2 * hwaddr.length + 1 : ℕ) : ℤ)) ∧
      0 ∉ text ∧ ∀ garbage, utilsParseHex garbage text text.length = .ok (some hwaddr)
  airplay : ∀ (str : Bytes) (strlen : ℤ), 3 * (hwaddr.length : ℤ) ≤ strlen → strlen < 2 ^ 31 →
    3 * hwaddr.length ≤ str.length →
    ∃ text, utilsHwaddrAirplay str strlen hwaddr =
        .ok (text ++ 0 :: str.drop (3 * hwaddr.length), ((3 * hwaddr.length : ℕ) : ℤ)) ∧
      0 ∉ text ∧ parseHwAddr text [] = .ok hwaddr

/-- `utils_parse_hex` accepts a text. -/
def Accepts (text : Bytes) : Prop :=
  ∀ garbage, ∃ data, utilsParseHex garbage text text.length = .ok (some data)

theorem zero_notMem_digits {letter : UInt8} (hletter : ∀ n < 16, digitChar letter n ≠ 0)
    (c : UInt8) : 0 ∉ digits letter c := by
  have hhi := hletter _ (hiNibble_lt c)
  have hlo := hletter _ (loNibble_lt c)
  simp only [digits, List.mem_cons, List.not_mem_nil, or_false, not_or]
  exact ⟨hhi.symm, hlo.symm⟩

theorem zero_notMem_raopText (hwaddr : Bytes) : 0 ∉ raopText hwaddr := by
  intro hzero
  obtain ⟨c, -, hc⟩ := List.mem_flatMap.mp hzero
  exact zero_notMem_digits (fun n hn => (digitChar_ne_zero n hn).1) c hc

theorem zero_notMem_hwaddrText (hwaddr : Bytes) : 0 ∉ hwaddrText hwaddr := by
  intro hzero
  obtain ⟨c, -, hc⟩ := List.mem_flatMap.mp ((List.dropLast_sublist _).subset hzero)
  rw [hwaddrByte, List.mem_append, List.mem_singleton] at hc
  rcases hc with hc | hc
  · exact zero_notMem_digits (fun n hn => (digitChar_ne_zero n hn).2) c hc
  · cases hc

theorem accepts_iff {text : Bytes} (heven : text.length % 2 = 0) :
    Accepts text ↔ ∀ c ∈ text, IsHexDigit c := by
  rw [← hexBytes_isSome heven, Option.isSome_iff_exists]
  constructor
  · intro h
    obtain ⟨data, hdata⟩ := h fun _ => 0
    rw [utilsParseHex_eq _ heven] at hdata
    exact ⟨data, Except.ok.inj hdata⟩
  · rintro ⟨data, hdata⟩ garbage
    exact ⟨data, by rw [utilsParseHex_eq _ heven, hdata]⟩

theorem hwaddr_roundTrips {hwaddr : Bytes} (hne : hwaddr ≠ []) :
    RoundTrips hwaddr ∧
      ∀ text : Bytes, text.length % 2 = 0 → (Accepts text ↔ ∀ c ∈ text, IsHexDigit c) := by
  refine ⟨⟨fun str strlen hlen hint hstr => ?_, fun str strlen hlen hint hstr => ?_⟩,
    fun text heven => accepts_iff heven⟩
  · have heven : (raopText hwaddr).length % 2 = 0 := by
      rw [length_raopText]
      omega
    refine ⟨raopText hwaddr, utilsHwaddrRaop_ok hlen hint hstr, zero_notMem_raopText hwaddr,
      fun garbage => ?_⟩
    rw [utilsParseHex_eq garbage heven, hexBytes_raopText]
  · exact ⟨hwaddrText hwaddr, utilsHwaddrAirplay_ok hne hlen hint hstr,
      zero_notMem_hwaddrText hwaddr, parseHwAddr_hwaddrText (by omega) hne⟩

/-- An address with bytes that are negative as `char`. -/
theorem hwaddr_roundTrips_negative :
    [(0x80 : UInt8), 0x0a, 0xff] ≠ [] ∧ RoundTrips [0x80, 0x0a, 0xff] ∧
      ∀ text : Bytes, text.length % 2 = 0 → (Accepts text ↔ ∀ c ∈ text, IsHexDigit c) :=
  ⟨by decide, hwaddr_roundTrips (by decide)⟩

end WinAirPlay.Utils
