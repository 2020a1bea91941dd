import WinAirPlay.Foundations.CheckedMemory

/-! # The walk over the NAL units of a video payload

The loop of `raop_rtp_mirror_thread` that overwrites the length in front of each NAL unit with the
start code. The length is a signed `int` and the assertion that it is positive is compiled out of a
release build, so a pass may step back into the part that is rewritten already. It ends all the
same: a step back uses up a byte with its top bit set, since a start code has none.

`NalHeaders` is the condition on the payload: every header the walk comes to lies within it, and no
position passes 2³¹.
-/

namespace WinAirPlay
open Foundations.ByteBuffer Foundations.CheckedMemory
set_option autoImplicit false

/-- The big-endian length in front of a NAL unit. -/
def nalLength (b0 b1 b2 b3 : UInt8) : ℕ :=
  b0.toNat * 2 ^ 24 + b1.toNat * 2 ^ 16 + b2.toNat * 2 ^ 8 + b3.toNat

/-- One pass of the loop: the length is read as an `int` and replaced by the start code; the result
holds the new `nalu_size`. -/
def rewriteNal (payloadDecrypted : Bytes) (naluSize : ℤ) : Checked (Bytes × ℤ) := do
  let b0 ← readByte payloadDecrypted (naluSize + 0)
  let b1 ← readByte payloadDecrypted (naluSize + 1)
  let b2 ← readByte payloadDecrypted (naluSize + 2)
  let b3 ← readByte payloadDecrypted (naluSize + 3)
  let ncLen := signed 32 (nalLength b0 b1 b2 b3)
  let d ← writeByte payloadDecrypted (naluSize + 0) 0
  let d ← writeByte d (naluSize + 1) 0
  let d ← writeByte d (naluSize + 2) 0
  let d ← writeByte d (naluSize + 3) 1
  .ok (d, ← addInt naluSize (← addInt ncLen 4))

/-! ## What a pass does -/

def startCode : Bytes := [0, 0, 0, 1]

theorem length_startCode : startCode.length = 4 := rfl

/-- The length that the header at `pos` holds. -/
def ncLen (d : Bytes) (pos : ℕ) : ℤ :=
  signed 32 (nalLength (byteAt d pos) (byteAt d (pos + 1)) (byteAt d (pos + 2)) (byteAt d (pos + 3)))

theorem ncLen_ge (d : Bytes) (pos : ℕ) : -2 ^ 31 ≤ ncLen d pos := by
  unfold ncLen signed
  split
  · omega
  · omega

/-- A negative length starts with a byte that has its top bit set. -/
theorem byteAt_of_ncLen_neg {d : Bytes} {pos : ℕ} (h : ncLen d pos < 0) :
    128 ≤ (byteAt d pos).toNat := by
  by_contra hbyte
  have h1 := (byteAt d (pos + 1)).toNat_lt
  have h2 := (byteAt d (pos + 2)).toNat_lt
  have h3 := (byteAt d (pos + 3)).toNat_lt
  rw [ncLen, signed_eq (by unfold nalLength; omega)] at h
  omega

theorem drop_eq_header {d : Bytes} {pos : ℕ} (room : pos + 4 ≤ d.length) :
    d.drop pos = byteAt d pos :: byteAt d (pos + 1) :: byteAt d (pos + 2) :: byteAt d (pos + 3) ::
      d.drop (pos + 4) := by
  have hcons : ∀ i, i < d.length → d.drop i = byteAt d i :: d.drop (i + 1) := by
    intro i hi
    rw [byteAt, List.getD_eq_getElem _ _ hi]
    exact List.drop_eq_getElem_cons hi
  rw [hcons pos (by omega), hcons (pos + 1) (by omega), hcons (pos + 2) (by omega),
    hcons (pos + 3) (by omega)]

/-- The four writes of a pass. -/
theorem set_startCode {d : Bytes} {pos : ℕ} (room : pos + 4 ≤ d.length) :
    (((d.set pos 0).set (pos + 1) 0).set (pos + 2) 0).set (pos + 3) 1 = writeAt d pos startCode := by
  have htake : (d.take pos).length = pos := by
    rw [List.length_take]
    omega
  rw [writeAt, length_startCode]
  conv_lhs => rw [← List.take_append_drop pos d, drop_eq_header room]
  simp [htake, startCode]

theorem rewriteNal_eq {d : Bytes} {pos : ℕ} (room : pos + 4 ≤ d.length) :
    rewriteNal d pos =
      (do .ok (writeAt d pos startCode, ← addInt pos (← addInt (ncLen d pos) 4))) := by
  unfold rewriteNal
  rw [readByte_eq (n := pos) (by simp) (by omega), ok_bind,
    readByte_eq (n := pos + 1) (by simp) (by omega), ok_bind,
    readByte_eq (n := pos + 2) (by simp) (by omega), ok_bind,
    readByte_eq (n := pos + 3) (by simp) (by omega), ok_bind]
  dsimp only
  rw [writeByte_eq (n := pos) (by simp) (by omega), ok_bind,
    writeByte_eq (n := pos + 1) (by simp) (by simp; omega), ok_bind,
    writeByte_eq (n := pos + 2) (by simp) (by simp; omega), ok_bind,
    writeByte_eq (n := pos + 3) (by simp) (by simp; omega), ok_bind, set_startCode room]
  rfl

/-- A header that does not lie within the buffer is read outside it. -/
theorem rewriteNal_fault {d : Bytes} {p : ℤ} (h : p < 0 ∨ d.length < p + 4) :
    Faults (rewriteNal d p) := by
  unfold rewriteNal
  rcases h with hneg | hend
  · exact (readByte_fault (Or.inl (by omega))).bind _
  · refine faults_bind fun _ => faults_bind fun _ => faults_bind fun _ => ?_
    exact (readByte_fault (Or.inr (by omega))).bind _

/-- A pass succeeds on a header within the buffer whose length leads to a position below 2³¹. -/
theorem rewriteNal_ok_iff {d : Bytes} {p : ℤ} {r : Bytes × ℤ} :
    rewriteNal d p = .ok r ↔ ∃ pos : ℕ, p = pos ∧ pos + 4 ≤ d.length ∧
      pos + ncLen d pos + 4 < 2 ^ 31 ∧ r = (writeAt d pos startCode, pos + ncLen d pos + 4) := by
  by_cases hroom : 0 ≤ p ∧ p + 4 ≤ d.length
  · obtain ⟨pos, rfl⟩ := Int.eq_ofNat_of_zero_le hroom.1
    have hge := ncLen_ge d pos
    rw [rewriteNal_eq (by omega)]
    by_cases hrange : pos + ncLen d pos + 4 < 2 ^ 31
    · have hfour : addInt (ncLen d pos) 4 = .ok (ncLen d pos + 4) := if_pos (by omega)
      have hsum : addInt pos (ncLen d pos + 4) = .ok (pos + (ncLen d pos + 4)) := if_pos (by omega)
      rw [hfour, ok_bind, hsum, ok_bind, ← Int.add_assoc]
      constructor
      · intro h
        cases h
        exact ⟨pos, rfl, by omega, hrange, rfl⟩
      · rintro ⟨pos', hpos, -, -, rfl⟩
        obtain rfl : pos = pos' := by omega
        rfl
    · constructor
      · intro h
        obtain ⟨advance, hadvance, h⟩ := bind_eq_ok.mp h
        obtain ⟨next, hnext, -⟩ := bind_eq_ok.mp h
        have hvalue := addInt_eq hadvance
        unfold addInt at hnext
        rw [if_neg (by omega)] at hnext
        cases hnext
      · rintro ⟨pos', hpos, -, hrange', -⟩
        obtain rfl : pos = pos' := by omega
        exact absurd hrange' hrange
  · constructor
    · intro h
      exact absurd (rewriteNal_fault (by omega)) (not_faults_iff.mpr ⟨r, h⟩)
    · rintro ⟨pos, rfl, room, -, -⟩
      exact absurd ⟨by omega, by omega⟩ hroom

/-! ## The walk ends -/

/-- The number of bytes that have their top bit set. -/
def topBits (d : Bytes) : ℕ := d.countP fun b => 128 ≤ b.toNat

/-- A start code puts four bytes without a top bit in the place of the header. -/
theorem topBits_writeAt {d : Bytes} {pos : ℕ} (room : pos + 4 ≤ d.length) :
    topBits (writeAt d pos startCode) ≤ topBits d ∧
      (128 ≤ (byteAt d pos).toNat → topBits (writeAt d pos startCode) < topBits d) := by
  have hold : topBits d = topBits (d.take pos) + topBits (d.drop pos) := by
    rw [topBits, topBits, topBits, ← List.countP_append, List.take_append_drop]
  have hnew : topBits (writeAt d pos startCode) = topBits (d.take pos) + topBits (d.drop (pos + 4)) := by
    simp [topBits, writeAt, startCode]
  have hrest : topBits (d.drop (pos + 4)) ≤ topBits (d.drop pos) := by
    rw [drop_eq_header room]
    simp only [topBits, List.countP_cons]
    omega
  refine ⟨by omega, fun hbyte => ?_⟩
  have hfirst : topBits (d.drop (pos + 4)) < topBits (d.drop pos) := by
    rw [drop_eq_header room]
    simp only [topBits, List.countP_cons, hbyte, decide_true, if_true]
    omega
  omega

/-- A pass goes forward by four bytes at least, or uses up a byte with its top bit set. -/
theorem rewriteNal_measure {payloadSize : ℕ} {d : Bytes} {p : ℤ} {r : Bytes × ℤ}
    (hp : p < payloadSize) (h : rewriteNal d p = .ok r) :
    Prod.Lex (· < ·) (· < ·) (topBits r.1, (payloadSize - r.2).toNat)
      (topBits d, (payloadSize - p).toNat) := by
  obtain ⟨pos, rfl, room, -, rfl⟩ := rewriteNal_ok_iff.mp h
  obtain ⟨hle, hlt⟩ := topBits_writeAt room
  by_cases hneg : ncLen d pos < 0
  · exact Prod.Lex.left _ _ (hlt (byteAt_of_ncLen_neg hneg))
  · rcases Nat.lt_or_eq_of_le hle with hless | hsame
    · exact Prod.Lex.left _ _ hless
    · dsimp only
      rw [hsame]
      exact Prod.Lex.right _ (by omega)

/-- `while (nalu_size < payload_size)`. Nothing reads `nalus_count`; the result counts the passes. -/
def nalLoop (payloadSize : ℕ) (payloadDecrypted : Bytes) (naluSize : ℤ) (nalusCount : ℕ) :
    Checked (Bytes × ℕ) :=
  if naluSize < payloadSize then
    match hpass : rewriteNal payloadDecrypted naluSize with
    | .ok r => nalLoop payloadSize r.1 r.2 (nalusCount + 1)
    | .error e => .error e
  else .ok (payloadDecrypted, nalusCount)
termination_by (topBits payloadDecrypted, (payloadSize - naluSize).toNat)
decreasing_by exact rewriteNal_measure ‹_› hpass

theorem nalLoop_end {N : ℕ} {p : ℤ} (h : N ≤ p) (d : Bytes) (count : ℕ) :
    nalLoop N d p count = .ok (d, count) := by
  rw [nalLoop, if_neg (by omega)]

theorem nalLoop_pass {N : ℕ} {p : ℤ} (h : p < N) (d : Bytes) (count : ℕ) :
    nalLoop N d p count = rewriteNal d p >>= fun r => nalLoop N r.1 r.2 (count + 1) := by
  rw [nalLoop, if_pos h]
  split
  · rename_i r hr
    rw [hr, ok_bind]
  · rename_i e he
    rw [he, error_bind]

/-! ## The headers of the walk -/

/-- The byte at `q` of the plaintext once start codes are written at `headers`, the last one written
first in the list. -/
def byteUnder (plaintext : Bytes) : List ℕ → ℕ → UInt8
  | [], q => byteAt plaintext q
  | p :: headers, q =>
    if p ≤ q ∧ q < p + 4 then byteAt startCode (q - p) else byteUnder plaintext headers q

/-- The length in the header at `pos`, when the walk has come over `headers` before. -/
def headerLength (plaintext : Bytes) (headers : List ℕ) (pos : ℕ) : ℤ :=
  signed 32 (nalLength (byteUnder plaintext headers pos) (byteUnder plaintext headers (pos + 1))
    (byteUnder plaintext headers (pos + 2)) (byteUnder plaintext headers (pos + 3)))

/-- From `pos` on the walk comes to headers within the payload only, and then to its end. A negative
length leads back, where bytes of an earlier header count as bytes of its start code. -/
inductive NalHeaders (plaintext : Bytes) : List ℕ → ℤ → Prop
  | done {headers : List ℕ} {pos : ℤ} (past : plaintext.length ≤ pos) :
      NalHeaders plaintext headers pos
  | header {headers : List ℕ} {pos : ℕ} (room : pos + 4 ≤ plaintext.length)
      (range : pos + headerLength plaintext headers pos + 4 < 2 ^ 31)
      (next : NalHeaders plaintext (pos :: headers) (pos + headerLength plaintext headers pos + 4)) :
      NalHeaders plaintext headers pos

theorem nalHeaders_iff {plaintext : Bytes} {headers : List ℕ} {p : ℤ} (h : p < plaintext.length) :
    NalHeaders plaintext headers p ↔ ∃ pos : ℕ, p = pos ∧ pos + 4 ≤ plaintext.length ∧
      pos + headerLength plaintext headers pos + 4 < 2 ^ 31 ∧
      NalHeaders plaintext (pos :: headers) (pos + headerLength plaintext headers pos + 4) := by
  constructor
  · intro hwalk
    cases hwalk with
    | done past => omega
    | @header _ pos room range next => exact ⟨pos, rfl, room, range, next⟩
  · rintro ⟨pos, rfl, room, range, next⟩
    exact .header room range next

/-- The buffer after passes at `headers`. -/
def Overwritten (plaintext : Bytes) (headers : List ℕ) (d : Bytes) : Prop :=
  d.length = plaintext.length ∧ ∀ q, byteAt d q = byteUnder plaintext headers q

theorem overwritten_nil (plaintext : Bytes) : Overwritten plaintext [] plaintext :=
  ⟨rfl, fun _ => rfl⟩

theorem Overwritten.cons {plaintext d : Bytes} {headers : List ℕ} {pos : ℕ}
    (h : Overwritten plaintext headers d) (room : pos + 4 ≤ d.length) :
    Overwritten plaintext (pos :: headers) (writeAt d pos startCode) := by
  have hfits : pos + startCode.length ≤ d.length := room
  refine ⟨(length_writeAt hfits).trans h.1, fun q => ?_⟩
  rw [byteAt_writeAt hfits, byteUnder, h.2 q]
  rfl

theorem Overwritten.ncLen_eq {plaintext d : Bytes} {headers : List ℕ}
    (h : Overwritten plaintext headers d) (pos : ℕ) :
    ncLen d pos = headerLength plaintext headers pos := by
  unfold ncLen headerLength
  rw [h.2, h.2, h.2, h.2]

/-- The loop runs to its end exactly when each header it comes to lies within the payload. -/
theorem nalLoop_ok_iff {plaintext d : Bytes} {headers : List ℕ}
    (h : Overwritten plaintext headers d) (p : ℤ) (count : ℕ) :
    (∃ out, nalLoop plaintext.length d p count = .ok out) ↔ NalHeaders plaintext headers p := by
  induction d, p, count using nalLoop.induct plaintext.length generalizing headers with
  | case1 d p count hmore r hr ih =>
    rw [nalLoop_pass hmore, hr, ok_bind, nalHeaders_iff hmore]
    obtain ⟨pos, rfl, room, range, rfl⟩ := rewriteNal_ok_iff.mp hr
    rw [ih (h.cons room), h.ncLen_eq]
    rw [h.ncLen_eq] at range
    constructor
    · intro next
      exact ⟨pos, rfl, h.1 ▸ room, range, next⟩
    · rintro ⟨pos', hpos, -, -, next⟩
      obtain rfl : pos = pos' := by omega
      exact next
  | case2 d p count hmore e he =>
    rw [nalLoop_pass hmore, he, nalHeaders_iff hmore]
    constructor
    · rintro ⟨out, hout⟩
      cases hout
    · rintro ⟨pos, rfl, room, range, -⟩
      rw [← h.ncLen_eq] at range
      have hpass := rewriteNal_ok_iff.mpr ⟨pos, rfl, h.1 ▸ room, range, rfl⟩
      rw [he] at hpass
      cases hpass
  | case3 d p count hdone =>
    rw [nalLoop_end (by omega)]
    exact ⟨fun _ => .done (by omega), fun _ => ⟨_, rfl⟩⟩

/-- A length of -1 leads to the last byte of the start code that replaces it. -/
example : NalHeaders [0xff, 0xff, 0xff, 0xff, 1, 2, 3, 4] [] 0 := by
  refine (nalHeaders_iff (by decide)).mpr ⟨0, rfl, by decide, by decide, ?_⟩
  refine (nalHeaders_iff (by decide)).mpr ⟨3, by decide, by decide, by decide, ?_⟩
  exact .done (by decide)

/-! ## NAL units -/

/-- The bytes from position `pos` on are NAL units: a length below 2³¹, then that many bytes, where
the last unit may be cut short; positions stay below 2³¹. -/
inductive NalUnits : ℕ → Bytes → Prop
  | done (pos : ℕ) : NalUnits pos []
  | unit {pos : ℕ} {b0 b1 b2 b3 : UInt8} {rest : Bytes}
      (sign : 2 * nalLength b0 b1 b2 b3 < 2 ^ 32)
      (range : pos + nalLength b0 b1 b2 b3 + 4 < 2 ^ 31)
      (next : NalUnits (pos + nalLength b0 b1 b2 b3 + 4) (rest.drop (nalLength b0 b1 b2 b3))) :
      NalUnits pos (b0 :: b1 :: b2 :: b3 :: rest)

theorem byteAt_of_drop {d : Bytes} {pos : ℕ} {l : Bytes} (h : d.drop pos = l) (i : ℕ) :
    byteAt d (pos + i) = byteAt l i := by
  subst h
  simp [byteAt, List.getD_eq_getElem?_getD, List.getElem?_drop]

theorem byteUnder_of_before {headers : List ℕ} {pos : ℕ} (h : ∀ p ∈ headers, p + 4 ≤ pos)
    (plaintext : Bytes) : byteUnder plaintext headers pos = byteAt plaintext pos := by
  induction headers with
  | nil => rfl
  | cons p headers ih =>
    have hp := h p List.mem_cons_self
    rw [byteUnder, if_neg (by omega), ih fun q hq => h q (List.mem_cons_of_mem p hq)]

/-- Over NAL units the walk goes forward only, and reads each length as it came. -/
theorem NalUnits.headers {plaintext l : Bytes} {pos : ℕ} (h : NalUnits pos l)
    (hdrop : plaintext.drop pos = l) {headers : List ℕ} (hbefore : ∀ p ∈ headers, p + 4 ≤ pos) :
    NalHeaders plaintext headers pos := by
  induction h generalizing headers with
  | done pos =>
    rw [List.drop_eq_nil_iff] at hdrop
    exact .done (by omega)
  | @unit pos b0 b1 b2 b3 rest sign range _ ih =>
    have hlen := congrArg List.length hdrop
    simp only [List.length_drop, List.length_cons] at hlen
    have hread : ∀ i, byteUnder plaintext headers (pos + i) =
        byteAt (b0 :: b1 :: b2 :: b3 :: rest) i := by
      intro i
      rw [byteUnder_of_before fun p hp => (hbefore p hp).trans (by omega), byteAt_of_drop hdrop]
    have hlength : headerLength plaintext headers pos = nalLength b0 b1 b2 b3 := by
      rw [headerLength, hread 1, hread 2, hread 3]
      have h0 := hread 0
      rw [Nat.add_zero] at h0
      rw [h0]
      exact signed_eq sign
    refine .header (by omega) (by omega) ?_
    have hnext : (pos : ℤ) + headerLength plaintext headers pos + 4 =
        ((pos + nalLength b0 b1 b2 b3 + 4 : ℕ) : ℤ) := by
      rw [hlength]
      omega
    rw [hnext]
    refine ih ?_ ?_
    · rw [show pos + nalLength b0 b1 b2 b3 + 4 = pos + (4 + nalLength b0 b1 b2 b3) by omega,
        ← List.drop_drop, hdrop, ← List.drop_drop, List.drop_succ_cons, List.drop_succ_cons,
        List.drop_succ_cons, List.drop_succ_cons, List.drop_zero]
    · intro p hp
      rcases List.mem_cons.mp hp with rfl | hp
      · omega
      · have := hbefore p hp
        omega

/-- Two units, the second of which is cut short. -/
example : NalHeaders [0, 0, 0, 1, 0x41, 0, 0, 0, 9, 0x42] [] 0 := by
  have hunits : NalUnits 0 [0, 0, 0, 1, 0x41, 0, 0, 0, 9, 0x42] :=
    .unit (by decide) (by decide) (.unit (by decide) (by decide) (.done _))
  exact hunits.headers rfl (by simp)

end WinAirPlay
