import Mathlib.Data.List.Induction
import WinAirPlay.Foundations.ByteBuffer

/-! # Checked memory

Programs over C buffers that stop at the first access outside a buffer or through a null pointer,
the first negative number used as a size, the first `int` overflow, the first `assert` that
fails, the first `exit` and the first loop that does not end. A `Checked` computation is
either `ok` with a result, and then every access it made was in bounds, or the first `Fault`.
Indices and lengths are integers, as C computes them, so that a negative one is a fault and not a
large number.

`forLoop` is a counting loop; `forLoop_write` and `forLoop_fault` are its rules for a loop that
fills a stretch of a buffer.
-/

namespace Foundations.CheckedMemory
open Foundations.ByteBuffer
set_option autoImplicit false

inductive Fault
  | outOfBounds (index : ℤ) (size : ℕ)
  | negativeSize (n : ℤ)
  | overflow (value : ℤ)
  | nullPointer
  | assertionFailed
  | exited
  | endlessLoop
  deriving DecidableEq

abbrev Checked := Except Fault

theorem bind_eq_ok {α β : Type} {x : Checked α} {f : α → Checked β} {b : β} :
    (x >>= f) = .ok b ↔ ∃ a, x = .ok a ∧ f a = .ok b := by
  cases x with
  | error e => simp [bind, Except.bind]
  | ok a => simp [bind, Except.bind]

@[simp] theorem ok_bind {α β : Type} (a : α) (f : α → Checked β) :
    ((.ok a : Checked α) >>= f) = f a := rfl

@[simp] theorem error_bind {α β : Type} (e : Fault) (f : α → Checked β) :
    ((.error e : Checked α) >>= f) = .error e := rfl

@[simp] theorem bind_ok {α : Type} (x : Checked α) : (x >>= Except.ok) = x := by
  cases x <;> rfl

/-- The run stops at a fault. -/
def Faults {α : Type} (x : Checked α) : Prop := ∃ f, x = .error f

theorem not_faults_iff {α : Type} {x : Checked α} : ¬ Faults x ↔ ∃ a, x = .ok a := by
  cases x with
  | error f => simp [Faults]
  | ok a => simp [Faults]

theorem Faults.bind {α β : Type} {x : Checked α} (h : Faults x) (f : α → Checked β) :
    Faults (x >>= f) := by
  obtain ⟨e, rfl⟩ := h
  exact ⟨e, rfl⟩

/-- A fault of every continuation is a fault, whether or not the first step faults. -/
theorem faults_bind {α β : Type} {x : Checked α} {f : α → Checked β} (h : ∀ a, Faults (f a)) :
    Faults (x >>= f) := by
  cases x with
  | error e => exact ⟨e, rfl⟩
  | ok a => exact h a

/-- The result satisfies `P`, or the run stops at a fault that is allowed. -/
def Yields {α : Type} (Allowed : Fault → Prop) (P : α → Prop) : Checked α → Prop
  | .ok a => P a
  | .error e => Allowed e

section
variable {α β : Type} {Allowed : Fault → Prop} {P : α → Prop} {Q : β → Prop} {x : Checked α}

@[simp] theorem yields_ok {a : α} : Yields Allowed P (.ok a) ↔ P a := Iff.rfl

theorem Yields.bind {f : α → Checked β} (hx : Yields Allowed P x)
    (hf : ∀ a, P a → Yields Allowed Q (f a)) : Yields Allowed Q (x >>= f) := by
  cases x with
  | error e => exact hx
  | ok a => exact hf a hx

/-- A check that ends the run with the result `a`. -/
theorem yields_unless {p : Prop} [Decidable p] {a : α} (ha : P a) (hx : ¬ p → Yields Allowed P x) :
    Yields Allowed P (if p then .ok a else x) := by
  by_cases h : p
  · rw [if_pos h]
    exact ha
  · rw [if_neg h]
    exact hx h

theorem Yields.weaken {Allowed' : Fault → Prop} (hx : Yields Allowed P x)
    (h : ∀ e, Allowed e → Allowed' e) : Yields Allowed' P x := by
  cases x with
  | error e => exact h e hx
  | ok a => exact hx

theorem Yields.cases (hx : Yields Allowed P x) :
    (∃ a, x = .ok a ∧ P a) ∨ ∃ e, x = .error e ∧ Allowed e := by
  cases x with
  | error e => exact .inr ⟨e, rfl, hx⟩
  | ok a => exact .inl ⟨a, rfl, hx⟩

end

/-! ## Accesses -/

def readByte (b : Bytes) (i : ℤ) : Checked UInt8 :=
  if 0 ≤ i ∧ i < b.length then .ok (byteAt b i.toNat) else .error (.outOfBounds i b.length)

def writeByte (b : Bytes) (i : ℤ) (x : UInt8) : Checked Bytes :=
  if 0 ≤ i ∧ i < b.length then .ok (b.set i.toNat x) else .error (.outOfBounds i b.length)

/-- The block of `n` bytes that a `memcpy` reads at offset `off`. -/
def readRange (b : Bytes) (off n : ℤ) : Checked Bytes :=
  if n < 0 then .error (.negativeSize n)
  else if 0 ≤ off ∧ off + n ≤ b.length then .ok (slice b off.toNat n.toNat)
  else .error (.outOfBounds (if off < 0 then off else b.length) b.length)

/-- The buffer after a `memcpy` of `src` to offset `off`. -/
def writeRange (b : Bytes) (off : ℤ) (src : Bytes) : Checked Bytes :=
  if 0 ≤ off ∧ off + src.length ≤ b.length then .ok (writeAt b off.toNat src)
  else .error (.outOfBounds (if off < 0 then off else b.length) b.length)

/-- A fresh block of `n` bytes, holding whatever `garbage` the memory held. -/
def malloc (garbage : ℕ → UInt8) (n : ℤ) : Checked Bytes :=
  if n < 0 then .error (.negativeSize n) else .ok ((List.range n.toNat).map garbage)

/-- A number used as a size. -/
def asSize (n : ℤ) : Checked ℕ := if n < 0 then .error (.negativeSize n) else .ok n.toNat

/-- The value of a bit pattern of `w` bits read as a signed number. -/
def signed (w v : ℕ) : ℤ := if 2 * v < 2 ^ w then v else v - 2 ^ w

/-- An addition of two values of type `int`. -/
def addInt (a b : ℤ) : Checked ℤ :=
  if -2 ^ 31 ≤ a + b ∧ a + b < 2 ^ 31 then .ok (a + b) else .error (.overflow (a + b))

/-- A multiplication of two values of type `int`. -/
def mulInt (a b : ℤ) : Checked ℤ :=
  if -2 ^ 31 ≤ a * b ∧ a * b < 2 ^ 31 then .ok (a * b) else .error (.overflow (a * b))

/-- Row `i` of a two-dimensional table. -/
def readRow (table : List Bytes) (i : ℕ) : Checked Bytes :=
  if i < table.length then .ok (table.getD i []) else .error (.outOfBounds i table.length)

/-- A number of type `size_t` stored in an `int`. -/
def intOf (n : ℕ) : ℤ := signed 32 (n % 2 ^ 32)

/-- `assert(p)`. -/
def assertThat (p : Prop) [Decidable p] : Checked Unit :=
  if p then .ok () else .error .assertionFailed

/-- The block after a `realloc` to `n` bytes: it keeps the bytes that fit in the new size. -/
def realloc (garbage : ℕ → UInt8) (b : Bytes) (n : ℤ) : Checked Bytes := do
  let fresh ← malloc garbage n
  .ok (b.take fresh.length ++ fresh.drop b.length)

/-- `while (limit > size) size *= 2`; a positive `int` overflows before the 31st pass. -/
def doubleUntil : ℕ → ℤ → ℤ → Checked ℤ
  | 0, limit, size => if limit > size then .error (.overflow size) else .ok size
  | passes + 1, limit, size =>
    if limit > size then do doubleUntil passes limit (← mulInt size 2) else .ok size

/-! An index that a program computes is an integer expression; the rules take its value `n`. -/

theorem readByte_eq {b : Bytes} {i : ℤ} {n : ℕ} (hi : i = n) (h : n < b.length) :
    readByte b i = .ok (byteAt b n) := by
  subst hi
  simp [readByte, h]

theorem readByte_nat {b : Bytes} {i : ℕ} (h : i < b.length) :
    readByte b i = .ok (byteAt b i) := readByte_eq rfl h

theorem readByte_fault {b : Bytes} {i : ℤ} (h : i < 0 ∨ b.length ≤ i) :
    Faults (readByte b i) := ⟨_, if_neg (by omega)⟩

theorem writeByte_eq {b : Bytes} {i : ℤ} {n : ℕ} (hi : i = n) (h : n < b.length) (x : UInt8) :
    writeByte b i x = .ok (b.set n x) := by
  subst hi
  simp [writeByte, h]

theorem writeByte_nat {b : Bytes} {i : ℕ} (h : i < b.length) (x : UInt8) :
    writeByte b i x = .ok (b.set i x) := writeByte_eq rfl h x

theorem readRange_eq {b : Bytes} {off n : ℤ} {o m : ℕ} (ho : off = o) (hn : n = m)
    (h : o + m ≤ b.length) : readRange b off n = .ok (slice b o m) := by
  subst ho hn
  rw [readRange, if_neg (by omega), if_pos (by omega)]
  rfl

theorem readRange_nat {b : Bytes} {off n : ℕ} (h : off + n ≤ b.length) :
    readRange b off n = .ok (slice b off n) := readRange_eq rfl rfl h

theorem readRange_fault {b : Bytes} {off n : ℤ} (h : b.length < off + n) :
    Faults (readRange b off n) := by
  by_cases hn : n < 0
  · exact ⟨_, by rw [readRange, if_pos hn]⟩
  · exact ⟨_, by rw [readRange, if_neg hn, if_neg (by omega)]⟩

theorem writeRange_eq {b src : Bytes} {off : ℤ} {o : ℕ} (ho : off = o)
    (h : o + src.length ≤ b.length) : writeRange b off src = .ok (writeAt b o src) := by
  subst ho
  rw [writeRange, if_pos (by omega)]
  rfl

theorem writeRange_nat {b src : Bytes} {off : ℕ} (h : off + src.length ≤ b.length) :
    writeRange b off src = .ok (writeAt b off src) := writeRange_eq rfl h

/-! A buffer that is filled from its start: each write extends what is written. -/

theorem writeRange_append {b done src : Bytes} {off : ℤ} (h : done <+: b) (hoff : off = done.length)
    (hroom : done.length + src.length ≤ b.length) :
    ∃ b', writeRange b off src = .ok b' ∧ done ++ src <+: b' ∧ b'.length = b.length := by
  obtain ⟨rest, rfl⟩ := h
  refine ⟨_, writeRange_eq hoff hroom, ?_, length_writeAt hroom⟩
  have hwrite := writeAt_prefix done src rest
  rw [hwrite]
  exact List.prefix_append _ _

theorem writeByte_append {b done : Bytes} {i : ℤ} (h : done <+: b) (hi : i = done.length)
    (hroom : done.length < b.length) (x : UInt8) :
    ∃ b', writeByte b i x = .ok b' ∧ done ++ [x] <+: b' ∧ b'.length = b.length := by
  obtain ⟨rest, rfl⟩ := h
  refine ⟨_, writeByte_eq hi hroom x, ?_, List.length_set⟩
  cases rest with
  | nil => simp at hroom
  | cons y rest => exact ⟨rest, by simp⟩

/-- A byte of the buffer that is written over. -/
theorem writeByte_middle {done : Bytes} {i : ℤ} (hi : i = done.length) (x y : UInt8) (rest : Bytes) :
    writeByte (done ++ x :: rest) i y = .ok (done ++ y :: rest) := by
  rw [writeByte_eq hi (by simp)]
  simp

/-- A block that is copied over as a whole. -/
theorem writeRange_full {b src : Bytes} (h : b.length = src.length) : writeRange b 0 src = .ok src := by
  rw [@writeRange_eq b src 0 0 rfl (by omega), writeAt, List.take_zero, List.nil_append,
    List.drop_eq_nil_of_le (by omega), List.append_nil]

theorem malloc_nat (garbage : ℕ → UInt8) (n : ℕ) :
    malloc garbage n = .ok ((List.range n).map garbage) := by
  rw [malloc, if_neg (by omega)]
  rfl

theorem signed_eq {w v : ℕ} (h : 2 * v < 2 ^ w) : signed w v = v := if_pos h

theorem signed_neg {w v : ℕ} (hv : v < 2 ^ w) (h : ¬ 2 * v < 2 ^ w) : signed w v < 0 := by
  rw [signed, if_neg h]
  have : ((2 ^ w : ℕ) : ℤ) = 2 ^ w := by push_cast; rfl
  omega

theorem malloc_signed_fault (garbage : ℕ → UInt8) {w v : ℕ} (hv : v < 2 ^ w)
    (h : ¬ 2 * v < 2 ^ w) : Faults (malloc garbage (signed w v)) :=
  ⟨_, if_pos (signed_neg hv h)⟩

theorem addInt_nat {a b : ℕ} (h : a + b < 2 ^ 31) : addInt a b = .ok ((a + b : ℕ) : ℤ) := by
  rw [addInt, if_pos (by omega)]
  rfl

theorem addInt_fault {a b : ℕ} (h : 2 ^ 31 ≤ a + b) : Faults (addInt a b) :=
  ⟨_, by rw [addInt, if_neg (by omega)]⟩

theorem writeRange_fault {b src : Bytes} {off : ℤ} (h : b.length < off + src.length) :
    Faults (writeRange b off src) := ⟨_, if_neg (by omega)⟩

theorem intOf_nat {n : ℕ} (h : n < 2 ^ 31) : intOf n = n := by
  rw [intOf, Nat.mod_eq_of_lt (by omega), signed_eq (by omega)]

theorem intOf_lt (n : ℕ) : intOf n < 2 ^ 31 := by
  have hlt : n % 2 ^ 32 < 2 ^ 32 := Nat.mod_lt _ (by omega)
  by_cases h : 2 * (n % 2 ^ 32) < 2 ^ 32
  · rw [intOf, signed_eq h]
    omega
  · have := signed_neg hlt h
    rw [intOf]
    omega

theorem intOf_ge (n : ℕ) : -2 ^ 31 ≤ intOf n := by
  rw [intOf, signed]
  split
  · omega
  · omega

theorem intOf_le (n : ℕ) : intOf n ≤ n := by
  have hlt : n % 2 ^ 32 < 2 ^ 32 := Nat.mod_lt _ (by omega)
  have hmod := Nat.mod_le n (2 ^ 32)
  rw [intOf]
  by_cases h : 2 * (n % 2 ^ 32) < 2 ^ 32
  · rw [signed_eq h]
    omega
  · have := signed_neg hlt h
    omega

theorem readRow_ok {table : List Bytes} {i : ℕ} (h : i < table.length) :
    readRow table i = .ok (table.getD i []) := if_pos h

theorem readRow_fault {table : List Bytes} {i : ℕ} (h : table.length ≤ i) :
    Faults (readRow table i) := ⟨_, if_neg (by omega)⟩

theorem assertThat_true {p : Prop} [Decidable p] (h : p) : assertThat p = .ok () := if_pos h

theorem assertThat_fault {p : Prop} [Decidable p] (h : ¬ p) : Faults (assertThat p) :=
  ⟨_, if_neg h⟩

/-- A `realloc` to `n` bytes gives `n` bytes and keeps a prefix that fits. -/
theorem realloc_nat (garbage : ℕ → UInt8) (b : Bytes) (n : ℕ) :
    ∃ b', realloc garbage b n = .ok b' ∧ b'.length = n ∧
      ∀ m, m ≤ b.length → m ≤ n → b'.take m = b.take m := by
  refine ⟨_, by rw [realloc, malloc_nat, ok_bind], ?_, ?_⟩
  · simp only [List.length_append, List.length_take, List.length_map, List.length_range,
      List.length_drop]
    omega
  · intro m hb hn
    rw [List.take_append_of_le_length (by simp; omega), List.take_take]
    simp [hn]

/-! ## A size that doubles until it is large enough -/

theorem mulInt_two {n : ℕ} (h : 2 * n < 2 ^ 31) : mulInt n 2 = .ok ((2 * n : ℕ) : ℤ) := by
  rw [mulInt, if_pos (by omega)]
  congr 1
  push_cast
  omega

/-- The loop ends with the first size that is large enough. -/
theorem doubleUntil_ok (passes : ℕ) {limit size : ℕ} (hlimit : limit ≤ size * 2 ^ passes)
    (hfit : ∀ k, size * 2 ^ k < limit → size * 2 ^ (k + 1) < 2 ^ 31) :
    ∃ k, doubleUntil passes limit size = .ok ((size * 2 ^ k : ℕ) : ℤ) ∧
      limit ≤ size * 2 ^ k ∧ ∀ j < k, size * 2 ^ j < limit := by
  induction passes generalizing size with
  | zero => exact ⟨0, by rw [doubleUntil, if_neg (by omega)]; simp, by simpa using hlimit, by omega⟩
  | succ passes ih =>
    by_cases h : limit ≤ size
    · exact ⟨0, by rw [doubleUntil, if_neg (by omega)]; simp, by simpa using h, by omega⟩
    · have hstep : ∀ k, 2 * size * 2 ^ k = size * 2 ^ (k + 1) := by
        intro k
        rw [Nat.pow_succ]
        ring
      have hsize : 2 * size < 2 ^ 31 := by
        have := hfit 0 (by omega)
        omega
      obtain ⟨k, hk, hge, hlt⟩ := @ih (2 * size) (by rw [hstep]; exact hlimit)
        (fun k hk => by rw [hstep] at hk ⊢; exact hfit (k + 1) hk)
      refine ⟨k + 1, ?_, by rw [← hstep]; exact hge, ?_⟩
      · rw [doubleUntil, if_pos (by omega), mulInt_two hsize, ok_bind, hk, hstep]
      · intro j hj
        cases j with
        | zero => omega
        | succ j =>
          rw [← hstep]
          exact hlt j (by omega)

/-- No power of two of type `int` is larger than `2 ^ 30`. -/
theorem doubleUntil_fault (passes m : ℕ) {limit : ℕ} (hm : m ≤ 30) (hlimit : 2 ^ 30 < limit) :
    Faults (doubleUntil passes limit ((2 ^ m : ℕ) : ℤ)) := by
  have hpow : 2 ^ m ≤ 2 ^ 30 := Nat.pow_le_pow_right (by omega) hm
  induction passes generalizing m with
  | zero => exact ⟨_, by rw [doubleUntil, if_pos (by omega)]⟩
  | succ passes ih =>
    rw [doubleUntil, if_pos (by omega)]
    by_cases h : m = 30
    · subst h
      exact ⟨_, rfl⟩
    · have hnext : 2 ^ (m + 1) ≤ 2 ^ 30 := Nat.pow_le_pow_right (by omega) (by omega)
      have hdouble : 2 * 2 ^ m = 2 ^ (m + 1) := by rw [Nat.pow_succ]; omega
      rw [mulInt_two (by omega), ok_bind, hdouble]
      exact ih (m + 1) (by omega) hnext

theorem addInt_eq {a b c : ℤ} (h : addInt a b = .ok c) : c = a + b := by
  unfold addInt at h
  split at h
  · cases h
    rfl
  · cases h

/-! ## Counting loops -/

/-- `for (int i = 0; i < n; i++)`: pass `i` is run after the passes before it. -/
def forLoop {σ : Type} (n : ℕ) (s : σ) (body : ℕ → σ → Checked σ) : Checked σ :=
  match n with
  | 0 => .ok s
  | n + 1 => do body n (← forLoop n s body)

/-- A loop that writes one computed byte a pass fills a stretch of the buffer. -/
theorem forLoop_write {n : ℕ} (off : ℕ) {b : Bytes} {get : ℕ → Checked UInt8} (v : ℕ → UInt8)
    {index : ℕ → ℤ} (hindex : ∀ i, index i = ((off + i : ℕ) : ℤ))
    (hget : ∀ i < n, get i = .ok (v i)) (h : off + n ≤ b.length) :
    forLoop n b (fun i b => do writeByte b (index i) (← get i)) =
      .ok (writeAt b off ((List.range n).map v)) := by
  induction n with
  | zero => simp [forLoop, writeAt]
  | succ n ih =>
    have hlen : off + n < (writeAt b off ((List.range n).map v)).length := by
      rw [length_writeAt (by simp; omega)]
      omega
    rw [forLoop, ih (fun i hi => hget i (by omega)) (by omega), ok_bind, hget n (by omega), ok_bind,
      hindex, writeByte_nat hlen]
    congr 1
    have hdrop : b.drop (off + n) = byteAt b (off + n) :: b.drop (off + n + 1) := by
      rw [byteAt, List.getD_eq_getElem _ _ (by omega)]
      exact List.drop_eq_getElem_cons (by omega)
    simp only [writeAt, List.length_map, List.length_range, List.range_succ, List.map_append,
      List.length_append, List.map_cons, List.map_nil, List.length_cons, List.length_nil]
    rw [hdrop, List.set_append_right _ _ (by simp)]
    have hzero : off + n - (min off b.length + n) = 0 := by omega
    simp [Nat.add_assoc, hzero]

theorem length_range_flatMap {w : ℕ} {v : ℕ → Bytes} (hv : ∀ i, (v i).length = w) (n : ℕ) :
    ((List.range n).flatMap v).length = w * n := by
  induction n with
  | zero => rfl
  | succ n ih =>
    rw [List.range_succ, List.flatMap_append, List.length_append, ih, List.flatMap_singleton, hv,
      Nat.mul_succ]

/-- A loop that moves an index along and leaves `w` bytes behind it in every pass. -/
theorem forLoop_fill {n w : ℕ} {b : Bytes} (v : ℕ → Bytes) (hv : ∀ i, (v i).length = w)
    {body : ℕ → Bytes × ℤ → Checked (Bytes × ℤ)}
    (hbody : ∀ i < n, ∀ done rest : Bytes, done.length = w * i → w ≤ rest.length →
      body i (done ++ rest, ((w * i : ℕ) : ℤ)) =
        .ok (done ++ v i ++ rest.drop w, ((w * (i + 1) : ℕ) : ℤ)))
    (h : w * n ≤ b.length) :
    forLoop n (b, 0) body =
      .ok ((List.range n).flatMap v ++ b.drop (w * n), ((w * n : ℕ) : ℤ)) := by
  have hflat : ∀ n, ((List.range n).flatMap v).length = w * n := length_range_flatMap hv
  induction n with
  | zero => simp [forLoop]
  | succ n ih =>
    rw [Nat.mul_succ] at h
    have hrest : w ≤ (b.drop (w * n)).length := by
      rw [List.length_drop]
      omega
    rw [forLoop, ih (fun i hi => hbody i (by omega)) (by omega), ok_bind,
      hbody n (by omega) _ _ (hflat n) hrest, List.range_succ, List.flatMap_append,
      List.flatMap_singleton, List.drop_drop, Nat.mul_succ]

/-- A loop with a pass that faults in every state faults. -/
theorem forLoop_fault {σ : Type} {n i : ℕ} {body : ℕ → σ → Checked σ} (hi : i < n)
    (hf : ∀ s, Faults (body i s)) (s : σ) : Faults (forLoop n s body) := by
  induction n with
  | zero => omega
  | succ n ih =>
    rw [forLoop]
    by_cases h : i < n
    · exact (ih h).bind _
    · obtain rfl : i = n := by omega
      exact faults_bind hf

/-! ## Steps over a list

`Holds s as` relates the state to the elements handled so far, `Fits as a` says that the next
element can be handled.
-/

theorem foldlM_snoc {σ α : Type} (step : σ → α → Checked σ) (s : σ) (as : List α) (a : α) :
    (as ++ [a]).foldlM step s = as.foldlM step s >>= fun s' => step s' a := by
  rw [List.foldlM_append]
  congr 1
  funext s'
  simp [List.foldlM]

/-- What every step that returns keeps holds of the state and the elements handled so far. -/
theorem foldlM_invariant {σ α : Type} {step : σ → α → Checked σ} {Holds : σ → List α → Prop}
    {s : σ} (hstart : Holds s [])
    (hstep : ∀ {s as a s'}, Holds s as → step s a = .ok s' → Holds s' (as ++ [a])) {as : List α}
    {s' : σ} (hrun : as.foldlM step s = .ok s') : Holds s' as := by
  induction as using List.reverseRecOn generalizing s' with
  | nil =>
    cases hrun
    exact hstart
  | append_singleton as a ih =>
    rw [foldlM_snoc] at hrun
    obtain ⟨s₁, hbefore, hlast⟩ := bind_eq_ok.mp hrun
    exact hstep (ih hbefore) hlast

/-- The state is right after every element exactly when each element fits what came before. -/
theorem foldlM_prefix_iff {σ α : Type} {step : σ → α → Checked σ} {Holds : σ → List α → Prop}
    {Fits : List α → α → Prop} {s : σ} (hstart : Holds s [])
    (hfits : ∀ {s as a}, Holds s as → Fits as a → ∃ s', step s a = .ok s' ∧ Holds s' (as ++ [a]))
    (hnot : ∀ {s as a s'}, Holds s as → ¬ Fits as a → step s a = .ok s' → ¬ Holds s' (as ++ [a]))
    (as : List α) :
    (∀ ps, ps <+: as → ∃ s', ps.foldlM step s = .ok s' ∧ Holds s' ps) ↔
      ∀ before a after, as = before ++ a :: after → Fits before a := by
  constructor
  · intro h before a after has
    by_contra hfit
    obtain ⟨s₁, hrun, hholds⟩ := h before (has ▸ List.prefix_append _ _)
    obtain ⟨s₂, hrun', hholds'⟩ := h (before ++ [a]) ⟨after, by rw [has]; simp⟩
    rw [foldlM_snoc, hrun, ok_bind] at hrun'
    exact hnot hholds hfit hrun' hholds'
  · intro h ps
    -- one element more: it fits, since the list goes on with it
    induction ps using List.reverseRecOn with
    | nil => exact fun _ => ⟨s, rfl, hstart⟩
    | append_singleton ps a ih =>
      rintro ⟨after, has⟩
      obtain ⟨s₁, hrun, hholds⟩ := ih ⟨a :: after, by rw [← has]; simp⟩
      obtain ⟨s₂, hstep, hholds'⟩ := hfits hholds (h ps a after (by rw [← has]; simp))
      exact ⟨s₂, by rw [foldlM_snoc, hrun, ok_bind, hstep], hholds'⟩

end Foundations.CheckedMemory
