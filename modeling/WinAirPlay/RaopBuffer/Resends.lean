import WinAirPlay.RaopBuffer.Calls

/-! # Resend requests

`raop_buffer_handle_resends` looks for the first filled slot from `first_seqnum` on, at most up to
`last_seqnum`. In a window that is not empty the last slot is filled, so what comes before the slot
it finds is a hole at the head of the window. The function does not look at `is_empty`, and after a
complete flush the counters still span the window that was flushed.
-/

namespace WinAirPlay
open Foundations.ByteBuffer Foundations.SerialNumber Foundations.Transition
set_option autoImplicit false

/-- The packet with this number waits in its slot. -/
def Buffered (b : RaopBuffer) (s : BitVec 16) : Prop :=
  (b.entries (slot s)).filled = true ∧ (b.entries (slot s)).seqnum = s

/-- The condition that ends the loop at this number. -/
def ScanEnds (b : RaopBuffer) (s : BitVec 16) : Prop :=
  seqnumCmp s b.lastSeqnum < 0 → (b.entries (slot s)).filled = true

/-- The packets from `first` on that a request asks for are a hole before a packet that waits. -/
structure HeadMissing (b : RaopBuffer) (first count : BitVec 16) : Prop where
  head : first = b.firstSeqnum
  range : 1 ≤ count.toNat ∧ count.toNat ≤ 31
  missing : ∀ k < count.toNat, ¬ Buffered b (numbered first k)
  next : Buffered b (first + count)

/-- The loop comes to its end, and what is missing at the head of the window is asked for, if
anything is. -/
structure ResendsRight (b : RaopBuffer) : Prop where
  terminates : ∃ passes, ScanEnds b (missingUntil b passes b.firstSeqnum) ∧
    ∀ more, missingUntil b (passes + more) b.firstSeqnum = missingUntil b passes b.firstSeqnum
  called : (∃ request, raopBufferHandleResends b = some request) ↔
    b.isEmpty = false ∧ (b.entries (slot b.firstSeqnum)).filled = false ∧
      ∃ k, 0 < k ∧ k < 2 ^ 15 ∧ Buffered b (numbered b.firstSeqnum k)
  exact : ∀ first count, raopBufferHandleResends b = some (first, count) → HeadMissing b first count

/-! ## The loop -/

theorem missingUntil_of_ends {b : RaopBuffer} {s : BitVec 16} (h : ScanEnds b s) (passes : ℕ) :
    missingUntil b passes s = s := by
  cases passes with
  | zero => rfl
  | succ passes =>
    rw [missingUntil]
    by_cases hlast : seqnumCmp s b.lastSeqnum < 0
    · rw [if_pos hlast, if_pos (h hlast)]
    · rw [if_neg hlast]

theorem missingUntil_more {b : RaopBuffer} {passes : ℕ} {s : BitVec 16}
    (h : ScanEnds b (missingUntil b passes s)) (more : ℕ) :
    missingUntil b (passes + more) s = missingUntil b passes s := by
  induction passes generalizing s with
  | zero => exact missingUntil_of_ends h (0 + more)
  | succ passes ih =>
    rw [Nat.add_right_comm, missingUntil, missingUntil]
    rw [missingUntil] at h
    split_ifs at h ⊢
    · rfl
    · exact ih h
    · rfl

theorem ahead_le_of_before {s t : BitVec 16} (h : seqnumCmp s t < 0) : ahead s t ≤ 2 ^ 15 := by
  rw [seqnumCmp, signedDiff_neg_iff] at h
  unfold ahead at h ⊢
  bv_omega

/-- From `a` steps before `last_seqnum` on, the loop passes unfilled slots and ends at a filled one or
at `last_seqnum`. -/
theorem missingUntil_spec {b : RaopBuffer} (a : ℕ) (ha : a ≤ 2 ^ 15) {f : BitVec 16}
    (hlast : b.lastSeqnum = numbered f a) (passes : ℕ) {j : ℕ} (hj : j + passes = a) :
    ∃ k, missingUntil b passes (numbered f j) = numbered f k ∧ j ≤ k ∧ k ≤ a ∧
      (∀ i, j ≤ i → i < k → (b.entries (slot (numbered f i))).filled = false) ∧
      (k = a ∨ (b.entries (slot (numbered f k))).filled = true) := by
  induction passes generalizing j with
  | zero => exact ⟨j, rfl, le_rfl, by omega, fun i h1 h2 => by omega, Or.inl (by omega)⟩
  | succ passes ih =>
    have hcmp : seqnumCmp (numbered f j) b.lastSeqnum < 0 := by
      have hdiff := signedDiff_numbered (by decide) f (show a ≤ j + 2 ^ (16 - 1) by omega)
        (show j < a + 2 ^ (16 - 1) by omega)
      rw [hlast, seqnumCmp, hdiff]
      omega
    rw [missingUntil, if_pos hcmp]
    cases hfilled : (b.entries (slot (numbered f j))).filled with
    | true => exact ⟨j, rfl, le_rfl, by omega, fun i h1 h2 => by omega, Or.inr hfilled⟩
    | false =>
      obtain ⟨k, hk, hjk, hka, hbefore, hat⟩ := ih (show j + 1 + passes = a by omega)
      refine ⟨k, ?_, by omega, hka, fun i h1 h2 => ?_, hat⟩
      · rw [if_neg (by decide), numbered_succ]
        exact hk
      · by_cases hij : i = j
        · rw [hij]
          exact hfilled
        · exact hbefore i (by omega) h2

/-- No call is made, or the loop has found slot number `k` of the window. -/
theorem handleResends_cases (b : RaopBuffer) :
    let a := ahead b.firstSeqnum b.lastSeqnum
    (¬ seqnumCmp b.firstSeqnum b.lastSeqnum < 0 ∧ raopBufferHandleResends b = none) ∨
      (seqnumCmp b.firstSeqnum b.lastSeqnum < 0 ∧ 0 < a ∧ a ≤ 2 ^ 15 ∧ ∃ k ≤ a,
        (∀ i < k, (b.entries (slot (numbered b.firstSeqnum i))).filled = false) ∧
        (k = a ∨ (b.entries (slot (numbered b.firstSeqnum k))).filled = true) ∧
        raopBufferHandleResends b =
          if k = 0 then none else some (b.firstSeqnum, BitVec.ofNat 16 k)) := by
  intro a
  by_cases hcmp : seqnumCmp b.firstSeqnum b.lastSeqnum < 0
  · have hle : a ≤ 2 ^ 15 := ahead_le_of_before hcmp
    have hpos : 0 < a := by
      rw [Nat.pos_iff_ne_zero]
      intro hzero
      have heq := numbered_ahead b.firstSeqnum b.lastSeqnum
      rw [show ahead b.firstSeqnum b.lastSeqnum = 0 from hzero, numbered_zero] at heq
      rw [heq, seqnumCmp, (signedDiff_eq_zero_iff _ _).mpr rfl] at hcmp
      omega
    obtain ⟨k, hk, -, hka, hbefore, hat⟩ := missingUntil_spec a hle (numbered_ahead _ _).symm a
      (Nat.zero_add a)
    refine Or.inr ⟨hcmp, hpos, hle, k, hka, fun i hi => hbefore i (by omega) hi, hat, ?_⟩
    have hstep : numbered b.firstSeqnum k - b.firstSeqnum = BitVec.ofNat 16 k := by
      rw [numbered]
      bv_omega
    have hnone : seqnumCmp (numbered b.firstSeqnum k) b.firstSeqnum = 0 ↔ k = 0 := by
      rw [seqnumCmp, signedDiff_eq_zero_iff, numbered]
      bv_omega
    have hcount : BitVec.ofInt 16 (seqnumCmp (numbered b.firstSeqnum k) b.firstSeqnum) =
        BitVec.ofNat 16 k := by
      rw [seqnumCmp, signedDiff, BitVec.ofInt_toInt, hstep]
    rw [numbered_zero] at hk
    rw [raopBufferHandleResends, if_pos hcmp]
    dsimp only
    rw [hk, hcount]
    exact if_congr hnone rfl rfl
  · exact Or.inl ⟨hcmp, if_neg hcmp⟩

theorem scan_terminates (b : RaopBuffer) :
    ∃ passes, ScanEnds b (missingUntil b passes b.firstSeqnum) ∧
      ∀ more, missingUntil b (passes + more) b.firstSeqnum =
        missingUntil b passes b.firstSeqnum := by
  by_cases hcmp : seqnumCmp b.firstSeqnum b.lastSeqnum < 0
  · have ha : ahead b.firstSeqnum b.lastSeqnum ≤ 2 ^ 15 := ahead_le_of_before hcmp
    obtain ⟨k, hk, -, -, -, hat⟩ := missingUntil_spec _ ha (numbered_ahead _ _).symm
      (ahead b.firstSeqnum b.lastSeqnum) (Nat.zero_add _)
    rw [numbered_zero] at hk
    have hends : ScanEnds b (numbered b.firstSeqnum k) := by
      obtain rfl | hfilled := hat
      · intro hbefore
        rw [numbered_ahead, seqnumCmp, (signedDiff_eq_zero_iff _ _).mpr rfl] at hbefore
        omega
      · exact fun _ => hfilled
    rw [← hk] at hends
    exact ⟨_, hends, missingUntil_more hends⟩
  · have hends : ScanEnds b (missingUntil b 0 b.firstSeqnum) := fun h => absurd h hcmp
    exact ⟨0, hends, missingUntil_more hends⟩

/-! ## Every reachable buffer -/

theorem buffered_of_filled {b : RaopBuffer} (hb : Window b) (he : b.isEmpty = false) {s : BitVec 16}
    (hnear : ahead b.firstSeqnum s < 32) (hfilled : (b.entries (slot s)).filled = true) :
    Buffered b s := by
  obtain ⟨hplace, hlt⟩ := hb.place he _ hfilled
  have hspan := hb.span_le he
  exact ⟨hfilled, eq_of_slot_eq (lt_of_lt_of_le hlt hspan) hnear hplace⟩

/-- The requests are right exactly if the buffer is not empty, or its counters show no window. -/
theorem resendsRight_iff {b : RaopBuffer} (hb : Window b) :
    ResendsRight b ↔ b.isEmpty = false ∨ 0 ≤ seqnumCmp b.firstSeqnum b.lastSeqnum := by
  have hcases := handleResends_cases b
  dsimp only at hcases
  constructor
  · intro h
    cases he : b.isEmpty with
    | false => exact Or.inl rfl
    | true =>
      obtain ⟨hcmp, -⟩ | ⟨-, hpos, -, k, -, -, hat, hresult⟩ := hcases
      · exact Or.inr (not_lt.mp hcmp)
      · -- nothing is filled, so the loop runs up to the last number
        have hk : k ≠ 0 := by
          have hunfilled := hb.unfilled he (slot (numbered b.firstSeqnum k))
          obtain rfl | hfilled := hat
          · omega
          · rw [hunfilled] at hfilled
            cases hfilled
        rw [if_neg hk] at hresult
        have hempty := (h.called.mp ⟨_, hresult⟩).1
        rw [he] at hempty
        cases hempty
  · intro hcond
    obtain ⟨hcmp, hresult⟩ | ⟨hcmp, hpos, ha, k, hka, hbefore, hat, hresult⟩ := hcases
    -- no call: a packet behind the head would make the counters show a window
    · refine ⟨scan_terminates b, ?_, fun first count h => by rw [hresult] at h; cases h⟩
      rw [hresult]
      refine ⟨fun ⟨_, h⟩ => (by cases h), ?_⟩
      rintro ⟨he, -, k, hk, hlt, hbuffered⟩
      obtain ⟨-, hplace⟩ := hb.place he _ hbuffered.1
      rw [hbuffered.2, ahead_numbered _ (by omega)] at hplace
      have hspan : span b ≤ 32 := hb.span_le he
      rw [seqnumCmp, signedDiff_neg_iff] at hcmp
      unfold span ahead at hplace hspan
      unfold ahead at hcmp
      bv_omega
    -- the loop ends at a filled slot, since the one of `last_seqnum` is filled
    · have he : b.isEmpty = false := hcond.resolve_right (not_le.mpr hcmp)
      have hspan : span b ≤ 32 := hb.span_le he
      have hnear : ahead b.firstSeqnum b.lastSeqnum + 1 = span b := by
        unfold span ahead at hspan ⊢
        unfold ahead at hpos ha
        bv_omega
      have hfilled : (b.entries (slot (numbered b.firstSeqnum k))).filled = true := by
        obtain rfl | hfilled := hat
        · rw [numbered_ahead]
          exact hb.newest he (by omega)
        · exact hfilled
      have hbuffered : Buffered b (numbered b.firstSeqnum k) :=
        buffered_of_filled hb he (by rw [ahead_numbered _ (by omega)]; omega) hfilled
      by_cases hk : k = 0
      · rw [if_pos hk] at hresult
        refine ⟨scan_terminates b, ?_, fun first count h => by rw [hresult] at h; cases h⟩
        rw [hresult]
        refine ⟨fun ⟨_, h⟩ => (by cases h), ?_⟩
        rintro ⟨-, hmissing, -⟩
        rw [hk, numbered_zero, hmissing] at hfilled
        cases hfilled
      · rw [if_neg hk] at hresult
        have hcount : (BitVec.ofNat 16 k).toNat = k := by
          rw [BitVec.toNat_ofNat]
          omega
        refine ⟨scan_terminates b, ?_, fun first count h => ?_⟩
        · rw [hresult]
          refine ⟨fun _ => ⟨he, ?_, k, by omega, by omega, hbuffered⟩, fun _ => ⟨_, rfl⟩⟩
          have hfirst := hbefore 0 (by omega)
          rwa [numbered_zero] at hfirst
        · rw [hresult] at h
          cases h
          refine ⟨rfl, by omega, fun i hi hmissing => ?_, hbuffered⟩
          have hunfilled := hbefore i (by omega)
          rw [hmissing.1] at hunfilled
          cases hunfilled

/-- In every state that any sequence of calls leads to, the function asks for the missing head of the
window exactly if the buffer is not empty or its counters show no window. -/
theorem handleResends_iff (P : Openssl) (aeskey aesiv ecdhSecret : Bytes) {calls : List BufferCall}
    {b : RaopBuffer}
    (hrun : run (callStep P) (raopBufferInit P aeskey aesiv ecdhSecret) calls = some b) :
    ResendsRight b ↔ b.isEmpty = false ∨ 0 ≤ seqnumCmp b.firstSeqnum b.lastSeqnum :=
  resendsRight_iff (window_run (window_init P aeskey aesiv ecdhSecret) hrun)

/-- Of the packets 1 to 3 the second is missing once the first is played. -/
theorem handleResends_iff_hole :
    ∃ b, run (callStep default) (raopBufferInit default [] [] [])
        [enqueueShort 1, enqueueShort 3, .dequeue 0 0 false] = some b ∧
      ResendsRight b ∧ raopBufferHandleResends b = some (2, 1) :=
  ⟨_, rfl, (@handleResends_iff default [] [] [] [enqueueShort 1, enqueueShort 3,
    .dequeue 0 0 false] _ rfl).mpr (Or.inl rfl), by decide +kernel⟩

/-- After a complete flush the window that was flushed is asked for. -/
theorem handleResends_flushed :
    ¬ ∀ (P : Openssl) (aeskey aesiv ecdhSecret : Bytes) (calls : List BufferCall) (b : RaopBuffer),
      run (callStep P) (raopBufferInit P aeskey aesiv ecdhSecret) calls = some b →
        ResendsRight b := by
  intro h
  have hright := h default [] [] [] [enqueueShort 1, enqueueShort 3, .flush (-1)] _ rfl
  have hempty := (hright.called.mp ⟨(1, 2), by decide +kernel⟩).1
  cases hempty

end WinAirPlay
