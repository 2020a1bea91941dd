import Mathlib.Data.List.Basic
import Mathlib.Data.List.GetD
import Mathlib.Tactic.Ring

/-! # Byte buffers

A C buffer is a list of bytes: `byteAt` reads one byte, `slice` is the block a `memcpy` reads and
`writeAt` the buffer after a `memcpy` into it.
-/

namespace Foundations.ByteBuffer
set_option autoImplicit false

/-- A buffer of `unsigned char`. -/
abbrev Bytes := List UInt8

/-- The byte at index `i`; a buffer has no byte past its end, which reads as zero here. -/
def byteAt (b : Bytes) (i : ℕ) : UInt8 := b.getD i 0

/-- The `n` bytes from offset `off` on. -/
def slice (b : Bytes) (off n : ℕ) : Bytes := (b.drop off).take n

/-- The buffer after `src` was copied to offset `off`. -/
def writeAt (b : Bytes) (off : ℕ) (src : Bytes) : Bytes :=
  b.take off ++ src ++ b.drop (off + src.length)

theorem slice_middle (a b c : Bytes) : slice (a ++ b ++ c) a.length b.length = b := by
  rw [slice, List.append_assoc, List.drop_left, List.take_left]

theorem length_slice {b : Bytes} {off n : ℕ} (h : off + n ≤ b.length) :
    (slice b off n).length = n := by
  simp [slice]; omega

theorem byteAt_slice (b : Bytes) (off : ℕ) {n i : ℕ} (h : i < n) :
    byteAt (slice b off n) i = byteAt b (off + i) := by
  simp only [byteAt, slice, List.getD_eq_getElem?_getD, List.getElem?_take, if_pos h,
    List.getElem?_drop]

/-- The bytes of a buffer, index by index. -/
theorem map_byteAt (b : Bytes) : (List.range b.length).map (byteAt b) = b := by
  refine List.ext_getElem (by simp) fun i hi hi' => ?_
  rw [List.getElem_map, List.getElem_range]
  exact List.getD_eq_getElem _ _ hi'

/-- The bytes `src` stand at offset `off`. -/
def HasAt (b : Bytes) (off : ℕ) (src : Bytes) : Prop :=
  ∃ before after, b = before ++ src ++ after ∧ before.length = off

section
variable {b src src' : Bytes} {off : ℕ}

theorem HasAt.fits (h : HasAt b off src) : off + src.length ≤ b.length := by
  obtain ⟨before, after, rfl, rfl⟩ := h
  simp only [List.length_append]
  omega

theorem HasAt.slice (h : HasAt b off src) : slice b off src.length = src := by
  obtain ⟨before, after, rfl, rfl⟩ := h
  exact slice_middle before src after

theorem HasAt.left (h : HasAt b off (src ++ src')) : HasAt b off src := by
  obtain ⟨before, after, rfl, hoff⟩ := h
  exact ⟨before, src' ++ after, by simp only [List.append_assoc], hoff⟩

theorem HasAt.right (h : HasAt b off (src ++ src')) : HasAt b (off + src.length) src' := by
  obtain ⟨before, after, rfl, rfl⟩ := h
  exact ⟨before ++ src, after, by simp only [List.append_assoc], List.length_append⟩

theorem HasAt.byteAt {x : UInt8} (h : HasAt b off (x :: src)) : byteAt b off = x := by
  obtain ⟨before, after, rfl, rfl⟩ := h
  simp [ByteBuffer.byteAt]

theorem HasAt.tail {x : UInt8} (h : HasAt b off (x :: src)) : HasAt b (off + 1) src :=
  @HasAt.right b [x] src off h

end

theorem length_writeAt {b src : Bytes} {off : ℕ} (h : off + src.length ≤ b.length) :
    (writeAt b off src).length = b.length := by
  simp only [writeAt, List.length_append, List.length_take, List.length_drop]
  omega

/-- Copying right after a written prefix extends the prefix. -/
theorem writeAt_prefix (p src rest : Bytes) :
    writeAt (p ++ rest) p.length src = p ++ src ++ rest.drop src.length := by
  simp [writeAt, List.drop_append]

theorem byteAt_writeAt {b src : Bytes} {off : ℕ} (h : off + src.length ≤ b.length) (i : ℕ) :
    byteAt (writeAt b off src) i =
      if off ≤ i ∧ i < off + src.length then byteAt src (i - off) else byteAt b i := by
  have hpre : (b.take off ++ src).length = off + src.length := by
    rw [List.length_append, List.length_take, Nat.min_eq_left (by omega)]
  unfold byteAt writeAt
  by_cases hin : off ≤ i ∧ i < off + src.length
  · rw [if_pos hin, List.getD_append _ _ _ _ (by omega), List.getD_append_right _ _ _ _ (by
      rw [List.length_take]; omega), List.length_take, Nat.min_eq_left (by omega)]
  · rw [if_neg hin]
    by_cases hlt : i < off
    · rw [List.getD_append _ _ _ _ (by omega), List.getD_append _ _ _ _ (by
        rw [List.length_take]; omega), List.getD_eq_getElem?_getD, List.getD_eq_getElem?_getD,
        List.getElem?_take, if_pos hlt]
    · rw [List.getD_append_right _ _ _ _ (by omega), hpre, List.getD_eq_getElem?_getD,
        List.getD_eq_getElem?_getD, List.getElem?_drop]
      congr 2
      omega

theorem take_writeAt {b src : Bytes} {off : ℕ} (h : off ≤ b.length) :
    (writeAt b off src).take (off + src.length) = b.take off ++ src := by
  have hlen : (b.take off ++ src).length = off + src.length := by
    rw [List.length_append, List.length_take, Nat.min_eq_left h]
  rw [writeAt, ← hlen, List.take_left]

/-! ## Buffers that agree up to a length -/

section
variable {a b : Bytes} {n : ℕ}

theorem byteAt_congr (h : a.take n = b.take n) {i : ℕ} (hi : i < n) : byteAt a i = byteAt b i := by
  have hget := congrArg (fun l : Bytes => l[i]?) h
  simp only [List.getElem?_take, if_pos hi] at hget
  rw [byteAt, byteAt, List.getD_eq_getElem?_getD, List.getD_eq_getElem?_getD, hget]

theorem slice_congr (h : a.take n = b.take n) {off k : ℕ} (hk : off + k ≤ n) :
    slice a off k = slice b off k := by
  have htake : ∀ c : Bytes, slice c off k = ((c.take n).drop off).take k := fun c => by
    rw [slice, List.drop_take, List.take_take, Nat.min_eq_left (by omega)]
  rw [htake, htake, h]

theorem drop_congr (h : a.take n = b.take n) (k : ℕ) :
    (a.drop k).take (n - k) = (b.drop k).take (n - k) := by
  rw [← List.drop_take, ← List.drop_take, h]

end

end Foundations.ByteBuffer
