import Mathlib.Data.List.Basic
import WinAirPlay.Foundations.ByteBuffer

/-! # Encoding forms of Unicode

A text is a list of scalar values. Its UTF-8 form is a list of bytes, its UTF-16 form a list of
16-bit code units, where a scalar value above the basic plane becomes a surrogate pair.
-/

namespace Foundations.Unicode
open Foundations.ByteBuffer
set_option autoImplicit false

def utf8 (text : List Char) : Bytes := text.flatMap String.utf8EncodeChar

def utf16EncodeChar (c : Char) : List ℕ :=
  if c.toNat < 0x10000 then [c.toNat]
  else [0xD800 + (c.toNat - 0x10000) / 0x400, 0xDC00 + (c.toNat - 0x10000) % 0x400]

def utf16 (text : List Char) : List ℕ := text.flatMap utf16EncodeChar

@[simp] theorem utf8_cons (c : Char) (text : List Char) :
    utf8 (c :: text) = String.utf8EncodeChar c ++ utf8 text := rfl

@[simp] theorem utf16_cons (c : Char) (text : List Char) :
    utf16 (c :: text) = utf16EncodeChar c ++ utf16 text := rfl

/-- A scalar value is no surrogate. -/
theorem scalar_range (c : Char) :
    c.toNat < 0xD800 ∨ 0xDFFF < c.toNat ∧ c.toNat < 0x110000 := c.valid

/-- Every other number below 0x110000 is a scalar value. -/
theorem exists_scalar {v : ℕ} (h : v < 0xD800 ∨ 0xDFFF < v ∧ v < 0x110000) :
    ∃ c : Char, c.toNat = v :=
  ⟨Char.ofNat v, by
    have hvalid : v.isValidChar := h
    rw [Char.ofNat, dif_pos hvalid]
    rfl⟩

/-! ## The bytes of a scalar value -/

section
variable {c : Char}

theorem utf8EncodeChar_one (h : c.toNat < 0x80) :
    String.utf8EncodeChar c = [UInt8.ofNat c.toNat] :=
  if_pos (Nat.le_of_lt_succ h)

theorem utf8EncodeChar_two (hlow : 0x80 ≤ c.toNat) (h : c.toNat < 0x800) :
    String.utf8EncodeChar c =
      [UInt8.ofNat (0xC0 + c.toNat / 0x40), UInt8.ofNat (0x80 + c.toNat % 0x40)] := by
  have hlead : c.toNat / 64 % 32 + 192 = 0xC0 + c.toNat / 0x40 := by omega
  have htail : c.toNat % 64 + 128 = 0x80 + c.toNat % 0x40 := by omega
  rw [← hlead, ← htail]
  refine (if_neg ?_).trans (if_pos ?_)
  · show ¬ c.toNat ≤ 0x7f
    omega
  · show c.toNat ≤ 0x7ff
    omega

theorem utf8EncodeChar_three (hlow : 0x800 ≤ c.toNat) (h : c.toNat < 0x10000) :
    String.utf8EncodeChar c =
      [UInt8.ofNat (0xE0 + c.toNat / 0x1000), UInt8.ofNat (0x80 + c.toNat / 0x40 % 0x40),
        UInt8.ofNat (0x80 + c.toNat % 0x40)] := by
  have hlead : c.toNat / 4096 % 16 + 224 = 0xE0 + c.toNat / 0x1000 := by omega
  have hmid : c.toNat / 64 % 64 + 128 = 0x80 + c.toNat / 0x40 % 0x40 := by omega
  have htail : c.toNat % 64 + 128 = 0x80 + c.toNat % 0x40 := by omega
  rw [← hlead, ← hmid, ← htail]
  refine (if_neg ?_).trans ((if_neg ?_).trans (if_pos ?_))
  · show ¬ c.toNat ≤ 0x7f
    omega
  · show ¬ c.toNat ≤ 0x7ff
    omega
  · show c.toNat ≤ 0xffff
    omega

theorem utf8EncodeChar_four (hlow : 0x10000 ≤ c.toNat) :
    String.utf8EncodeChar c =
      [UInt8.ofNat (0xF0 + c.toNat / 0x40000), UInt8.ofNat (0x80 + c.toNat / 0x1000 % 0x40),
        UInt8.ofNat (0x80 + c.toNat / 0x40 % 0x40), UInt8.ofNat (0x80 + c.toNat % 0x40)] := by
  have hrange := scalar_range c
  have hlead : c.toNat / 262144 % 8 + 240 = 0xF0 + c.toNat / 0x40000 := by omega
  have hsecond : c.toNat / 4096 % 64 + 128 = 0x80 + c.toNat / 0x1000 % 0x40 := by omega
  have hthird : c.toNat / 64 % 64 + 128 = 0x80 + c.toNat / 0x40 % 0x40 := by omega
  have htail : c.toNat % 64 + 128 = 0x80 + c.toNat % 0x40 := by omega
  rw [← hlead, ← hsecond, ← hthird, ← htail]
  refine (if_neg ?_).trans ((if_neg ?_).trans (if_neg ?_))
  · show ¬ c.toNat ≤ 0x7f
    omega
  · show ¬ c.toNat ≤ 0x7ff
    omega
  · show ¬ c.toNat ≤ 0xffff
    omega

end

end Foundations.Unicode
