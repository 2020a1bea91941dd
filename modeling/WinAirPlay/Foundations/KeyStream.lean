import WinAirPlay.Foundations.ByteBuffer

/-! # Stream ciphers

A stream cipher XORs byte `n` of a text with byte `n` of a keystream. `xorFrom ks n` treats a
piece of text that starts at position `n`; pieces of one text may be treated one after the other
(`xorFrom_append`), and treating a piece twice gives it back (`xorFrom_xorFrom`).
-/

namespace Foundations.KeyStream
open Foundations.ByteBuffer
set_option autoImplicit false

/-- The bytes XORed with the keystream from position `n` on. -/
def xorFrom (ks : ℕ → UInt8) : ℕ → Bytes → Bytes
  | _, [] => []
  | n, b :: bs => (b ^^^ ks n) :: xorFrom ks (n + 1) bs

variable (ks : ℕ → UInt8)

@[simp] theorem xorFrom_nil (n : ℕ) : xorFrom ks n [] = [] := rfl

@[simp] theorem length_xorFrom (n : ℕ) (b : Bytes) : (xorFrom ks n b).length = b.length := by
  induction b generalizing n with
  | nil => rfl
  | cons x b ih => simp [xorFrom, ih]

theorem xorFrom_append (n : ℕ) (b c : Bytes) :
    xorFrom ks n (b ++ c) = xorFrom ks n b ++ xorFrom ks (n + b.length) c := by
  induction b generalizing n with
  | nil => simp
  | cons x b ih =>
    rw [List.cons_append, xorFrom, ih, xorFrom, List.cons_append, List.length_cons]
    congr 3
    omega

theorem xorFrom_xorFrom (n : ℕ) (b : Bytes) : xorFrom ks n (xorFrom ks n b) = b := by
  induction b generalizing n with
  | nil => rfl
  | cons x b ih =>
    rw [xorFrom, xorFrom, ih, UInt8.xor_assoc, UInt8.xor_self, UInt8.xor_zero]

/-- Byte `i` of a piece is treated with byte `n + i` of the keystream. -/
theorem byteAt_xorFrom {n i : ℕ} {b : Bytes} (h : i < b.length) :
    byteAt (xorFrom ks n b) i = byteAt b i ^^^ ks (n + i) := by
  induction b generalizing n i with
  | nil => simp at h
  | cons x b ih =>
    cases i with
    | zero => rfl
    | succ i =>
      have := ih (n := n + 1) (i := i) (by simpa using h)
      simp only [byteAt, xorFrom, List.getD_cons_succ] at this ⊢
      rw [this]
      congr 2
      omega

theorem xorFrom_eq_map (n : ℕ) (b : Bytes) :
    xorFrom ks n b = (List.range b.length).map fun i => byteAt b i ^^^ ks (n + i) := by
  refine List.ext_getElem (by simp) fun i h _ => ?_
  have hi : i < b.length := by simpa using h
  rw [List.getElem_map, List.getElem_range, ← byteAt_xorFrom ks hi, byteAt,
    List.getD_eq_getElem _ _ h]

theorem byteAt_xorFrom_zeros {n m i : ℕ} (h : i < m) :
    byteAt (xorFrom ks n (List.replicate m 0)) i = ks (n + i) := by
  rw [byteAt_xorFrom ks (by simpa using h), byteAt, List.getD_eq_getElem _ _ (by simpa using h)]
  simp

end Foundations.KeyStream
