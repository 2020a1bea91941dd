import Mathlib.Data.BitVec
import Mathlib.Logic.Equiv.Defs
import Mathlib.Tactic.Ring
import WinAirPlay.Foundations.ByteBuffer

/-! # Modes of a block cipher

Under one key a block cipher is a permutation of the blocks. Cipher block chaining mixes every block
of the plaintext with the ciphertext block before it; counter mode encrypts consecutive counter
blocks and so makes a keystream. A text is a list of bytes: `blocks` are its whole blocks, each read as
a big-endian number, and `text` writes blocks out again.

* `cbcDecrypt_cbcEncrypt`: chained decryption gives back the blocks that were encrypted.
* `text_blocks`, `blocks_text`: the two readings of a text agree on its whole blocks.
* `ctrKeystream_not_periodic`: a keystream is not its own shift by less than a block.
-/

namespace Foundations.BlockCipher
open Foundations.ByteBuffer
set_option autoImplicit false

/-! ## Chaining -/

section Chaining
variable {B : Type*} (E : Equiv.Perm B) (mix : B → B → B)

/-- The ciphertext blocks; the first argument is the block that the next one is mixed with. -/
def cbcEncrypt : B → List B → List B
  | _, [] => []
  | chain, p :: ps => E (mix p chain) :: cbcEncrypt (E (mix p chain)) ps

def cbcDecrypt : B → List B → List B
  | _, [] => []
  | chain, c :: cs => mix (E.symm c) chain :: cbcDecrypt c cs

@[simp] theorem length_cbcEncrypt (chain : B) (ps : List B) :
    (cbcEncrypt E mix chain ps).length = ps.length := by
  induction ps generalizing chain with
  | nil => rfl
  | cons p ps ih => simp [cbcEncrypt, ih]

theorem cbcDecrypt_cbcEncrypt (hmix : ∀ a b, mix (mix a b) b = a) (chain : B) (ps : List B) :
    cbcDecrypt E mix chain (cbcEncrypt E mix chain ps) = ps := by
  induction ps generalizing chain with
  | nil => rfl
  | cons p ps ih => rw [cbcEncrypt, cbcDecrypt, ih, Equiv.symm_apply_apply, hmix]

end Chaining

/-! ## Numbers as bytes -/

/-- The number that the bytes spell, the first byte being the most significant one. -/
def readBigEndian (b : Bytes) : ℕ := b.foldl (fun v x => v * 256 + x.toNat) 0

/-- The last `n` bytes of a number. -/
def bigEndian : ℕ → ℕ → Bytes
  | 0, _ => []
  | n + 1, v => bigEndian n (v / 256) ++ [UInt8.ofNat v]

@[simp] theorem length_bigEndian (n v : ℕ) : (bigEndian n v).length = n := by
  induction n generalizing v with
  | zero => rfl
  | succ n ih => simp [bigEndian, ih]

theorem readBigEndian_snoc (b : Bytes) (x : UInt8) : readBigEndian (b ++ [x]) = readBigEndian b * 256 + x.toNat := by
  simp [readBigEndian]

theorem readBigEndian_lt (b : Bytes) : readBigEndian b < 256 ^ b.length := by
  induction b using List.reverseRecOn with
  | nil => decide
  | append_singleton b x ih =>
    have hx := x.toNat_lt
    rw [readBigEndian_snoc, List.length_append, List.length_singleton, pow_succ]
    omega

theorem readBigEndian_lt_pow {b : Bytes} {n : ℕ} (h : b.length ≤ n) : readBigEndian b < 256 ^ n :=
  (readBigEndian_lt b).trans_le (Nat.pow_le_pow_right (by decide) h)

theorem readBigEndian_bigEndian (n v : ℕ) : readBigEndian (bigEndian n v) = v % 256 ^ n := by
  induction n generalizing v with
  | zero => simp [bigEndian, readBigEndian, Nat.mod_one]
  | succ n ih =>
    have hlast : (UInt8.ofNat v).toNat = v % 256 := UInt8.toNat_ofNat'
    rw [bigEndian, readBigEndian_snoc, ih, hlast, pow_succ, Nat.mul_comm (256 ^ n) 256, Nat.mod_mul]
    ring

theorem bigEndian_readBigEndian (b : Bytes) : bigEndian b.length (readBigEndian b) = b := by
  induction b using List.reverseRecOn with
  | nil => rfl
  | append_singleton b x ih =>
    have hx := x.toNat_lt
    have hdiv : (readBigEndian b * 256 + x.toNat) / 256 = readBigEndian b := by omega
    have hlast : UInt8.ofNat (readBigEndian b * 256 + x.toNat) = x := by
      refine UInt8.toNat_inj.mp ?_
      rw [UInt8.toNat_ofNat']
      omega
    rw [List.length_append, List.length_singleton, readBigEndian_snoc, bigEndian, hdiv, ih, hlast]

theorem bigEndian_add (m n v : ℕ) :
    bigEndian (m + n) v = bigEndian m (v / 256 ^ n) ++ bigEndian n v := by
  induction n generalizing v with
  | zero => rw [Nat.add_zero, pow_zero, Nat.div_one, bigEndian, List.append_nil]
  | succ n ih =>
    rw [← Nat.add_assoc, bigEndian, ih, bigEndian, pow_succ', Nat.div_div_eq_div_mul,
      List.append_assoc]

/-- The last bytes of a number. -/
theorem drop_bigEndian {k n : ℕ} (h : k ≤ n) (v : ℕ) :
    (bigEndian n v).drop (n - k) = bigEndian k v := by
  obtain ⟨m, rfl⟩ := Nat.exists_eq_add_of_le' h
  rw [bigEndian_add, Nat.add_sub_cancel, List.drop_left' (length_bigEndian m _)]

/-! ## Blocks of a text -/

section Blocks
variable {n : ℕ}

def blockBytes (x : BitVec (8 * n)) : Bytes := bigEndian n x.toNat

def blockOf (n : ℕ) (b : Bytes) : BitVec (8 * n) := BitVec.ofNat (8 * n) (readBigEndian b)

@[simp] theorem length_blockBytes (x : BitVec (8 * n)) : (blockBytes x).length = n :=
  length_bigEndian n _

theorem pow_block (n : ℕ) : 2 ^ (8 * n) = 256 ^ n := pow_mul 2 8 n

theorem blockOf_blockBytes (x : BitVec (8 * n)) : blockOf n (blockBytes x) = x := by
  have hx : x.toNat < 256 ^ n := by
    rw [← pow_block]
    exact x.isLt
  rw [blockOf, blockBytes, readBigEndian_bigEndian, Nat.mod_eq_of_lt hx, BitVec.ofNat_toNat,
    BitVec.setWidth_eq]

theorem blockBytes_blockOf {b : Bytes} (h : b.length = n) : blockBytes (blockOf n b) = b := by
  have hb := readBigEndian_lt b
  rw [h, ← pow_block] at hb
  rw [blockBytes, blockOf, BitVec.toNat_ofNat, Nat.mod_eq_of_lt hb, ← h, bigEndian_readBigEndian]

theorem blockBytes_injective : Function.Injective (blockBytes (n := n)) :=
  Function.LeftInverse.injective blockOf_blockBytes

/-- The whole blocks of a text; the bytes after the last one are dropped. -/
def blocks (n : ℕ) (b : Bytes) : List (BitVec (8 * n)) :=
  (List.range (b.length / n)).map fun i => blockOf n (slice b (n * i) n)

def text (bs : List (BitVec (8 * n))) : Bytes := bs.flatMap blockBytes

@[simp] theorem text_cons (x : BitVec (8 * n)) (bs : List (BitVec (8 * n))) :
    text (x :: bs) = blockBytes x ++ text bs := rfl

theorem length_text (bs : List (BitVec (8 * n))) : (text bs).length = bs.length * n := by
  induction bs with
  | nil => simp [text]
  | cons x bs ih =>
    rw [text_cons, List.length_append, length_blockBytes, ih, List.length_cons]
    ring

@[simp] theorem length_blocks (b : Bytes) : (blocks n b).length = b.length / n := by simp [blocks]

theorem blocks_append {b : Bytes} (h : b.length = n) (hn : 0 < n) (rest : Bytes) :
    blocks n (b ++ rest) = blockOf n b :: blocks n rest := by
  have hlen : (b ++ rest).length / n = rest.length / n + 1 := by
    rw [List.length_append, h, Nat.add_comm, Nat.add_div_right _ hn]
  have hfirst : slice (b ++ rest) (n * 0) n = b := by
    rw [slice, Nat.mul_zero, List.drop_zero, ← h, List.take_left]
  have hlater : ∀ i, slice (b ++ rest) (n * (i + 1)) n = slice rest (n * i) n := fun i => by
    have hoff : n * (i + 1) = b.length + n * i := by
      rw [h]
      ring
    rw [slice, slice, hoff, ← List.drop_drop, List.drop_left]
  rw [blocks, hlen, List.range_succ_eq_map, List.map_cons, List.map_map, hfirst]
  congr 1
  refine List.map_congr_left fun i _ => ?_
  exact congrArg (blockOf n) (hlater i)

theorem blocks_text (hn : 0 < n) (bs : List (BitVec (8 * n))) : blocks n (text bs) = bs := by
  induction bs with
  | nil => simp [text, blocks]
  | cons x bs ih =>
    rw [text_cons, blocks_append (length_blockBytes x) hn, blockOf_blockBytes, ih]

theorem text_blocks (hn : 0 < n) (b : Bytes) : text (blocks n b) = b.take (b.length / n * n) := by
  induction hk : b.length / n generalizing b with
  | zero => simp [blocks, hk, text]
  | succ k ih =>
    have hle : n ≤ b.length := by
      by_contra hlt
      rw [Nat.div_eq_of_lt (by omega)] at hk
      exact absurd hk (by omega)
    obtain ⟨first, rest, rfl, hfirst⟩ : ∃ first rest, b = first ++ rest ∧ first.length = n :=
      ⟨b.take n, b.drop n, (List.take_append_drop n b).symm, by simp [hle]⟩
    have hrest : rest.length / n = k := by
      rw [List.length_append, hfirst, Nat.add_comm, Nat.add_div_right _ hn] at hk
      omega
    have htake : (first ++ rest).take ((k + 1) * n) = first ++ rest.take (k * n) := by
      rw [add_mul, one_mul, Nat.add_comm, ← hfirst, List.take_length_add_append]
    rw [blocks_append hfirst hn, text_cons, blockBytes_blockOf hfirst, ih rest hrest, htake]

end Blocks

/-! ## Counter mode -/

section Counter
variable {n : ℕ} (E : Equiv.Perm (BitVec (8 * n)))

/-- Byte `i` of the keystream that starts with the counter block `iv`. -/
def ctrKeystream (iv : BitVec (8 * n)) (i : ℕ) : UInt8 :=
  byteAt (blockBytes (E (iv + BitVec.ofNat (8 * n) (i / n)))) (i % n)

/-- Bytes of one block, read one by one, determine the block. -/
theorem block_eq_of_keystream {iv : BitVec (8 * n)} (hn : 0 < n) {i j : ℕ}
    (h : ∀ k < n, ctrKeystream E iv (n * i + k) = ctrKeystream E iv (n * j + k)) :
    BitVec.ofNat (8 * n) i = BitVec.ofNat (8 * n) j := by
  have hbyte : ∀ m, ∀ k < n, ctrKeystream E iv (n * m + k) =
      byteAt (blockBytes (E (iv + BitVec.ofNat (8 * n) m))) k := fun m k hk => by
    rw [ctrKeystream, Nat.mul_add_div hn, Nat.div_eq_of_lt hk, Nat.add_zero, Nat.mul_add_mod,
      Nat.mod_eq_of_lt hk]
  have hblock : blockBytes (E (iv + BitVec.ofNat (8 * n) i)) =
      blockBytes (E (iv + BitVec.ofNat (8 * n) j)) := by
    rw [← map_byteAt (blockBytes (E (iv + BitVec.ofNat (8 * n) i))), ← map_byteAt
      (blockBytes (E (iv + BitVec.ofNat (8 * n) j))), length_blockBytes, length_blockBytes]
    refine List.map_congr_left fun k hk => ?_
    have hk := List.mem_range.mp hk
    rw [← hbyte i k hk, ← hbyte j k hk]
    exact h k hk
  exact add_left_cancel (E.injective (blockBytes_injective hblock))

/-- A keystream does not repeat with a period shorter than a block. -/
theorem ctrKeystream_not_periodic (hn : 0 < n) (iv : BitVec (8 * n)) {p : ℕ} (hpos : 0 < p)
    (hp : p < n) : ∃ i < n * p + n, ctrKeystream E iv (p + i) ≠ ctrKeystream E iv i := by
  by_contra hall
  have hperiod : ∀ i < n * p + n, ctrKeystream E iv (p + i) = ctrKeystream E iv i := fun i hi => by
    by_contra hne
    exact hall ⟨i, hi, hne⟩
  have hperiods : ∀ m ≤ n, ∀ k < n, ctrKeystream E iv (m * p + k) = ctrKeystream E iv k := by
    intro m hm k hk
    induction m with
    | zero => rw [zero_mul, zero_add]
    | succ m ih =>
      have hshift : (m + 1) * p + k = p + (m * p + k) := by ring
      have hmul : m * p ≤ n * p := Nat.mul_le_mul_right p (by omega)
      rw [hshift, hperiod _ (by omega), ih (by omega)]
  -- after `n` periods the first block would come again as block `p`
  have heq : BitVec.ofNat (8 * n) p = BitVec.ofNat (8 * n) 0 :=
    block_eq_of_keystream E hn fun k hk => by
      rw [hperiods n le_rfl k hk, Nat.mul_zero, Nat.zero_add]
  have hsmall : p < 2 ^ (8 * n) :=
    calc p < n := hp
      _ < 2 ^ n := Nat.lt_two_pow_self
      _ ≤ 2 ^ (8 * n) := Nat.pow_le_pow_right (by decide) (by omega)
  have hzero := congrArg BitVec.toNat heq
  rw [BitVec.toNat_ofNat, BitVec.toNat_ofNat, Nat.mod_eq_of_lt hsmall, Nat.zero_mod] at hzero
  omega

end Counter

end Foundations.BlockCipher
