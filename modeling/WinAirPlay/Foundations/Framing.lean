import WinAirPlay.Foundations.ByteBuffer

/-! # Framed streams

A stream of frames: a header of `hdr` bytes, which says by `size` how many payload bytes follow.
`parse` reads the complete frames of a stream in one piece, `encode` writes frames one after the
other. Frames in front of any bytes are read back (`parse_encode_append`), and an incomplete frame
at the end is not (`parse_short_header`, `parse_short_payload`).
-/

namespace Foundations.Framing
open Foundations.ByteBuffer
set_option autoImplicit false

/-- A frame: its header and its payload. -/
abbrev Frame := Bytes × Bytes

variable (hdr : ℕ) (size : Bytes → ℕ)

/-- The payload is as long as the header says. -/
def WellFormed (f : Frame) : Prop := f.1.length = hdr ∧ f.2.length = size f.1

def encode : List Frame → Bytes
  | [] => []
  | f :: fs => f.1 ++ f.2 ++ encode fs

/-- The complete frames at the front of a stream. -/
def parse (b : Bytes) : List Frame :=
  if 0 < hdr ∧ hdr ≤ b.length ∧ hdr + size (b.take hdr) ≤ b.length then
    (b.take hdr, slice b hdr (size (b.take hdr))) :: parse (b.drop (hdr + size (b.take hdr)))
  else []
termination_by b.length
decreasing_by
  rw [List.length_drop]
  omega

variable {hdr size}

theorem encode_append (fs gs : List Frame) : encode (fs ++ gs) = encode fs ++ encode gs := by
  induction fs with
  | nil => rfl
  | cons f fs ih => simp [encode, ih]

theorem parse_cons (hpos : 0 < hdr) {f : Frame} (hf : WellFormed hdr size f) (rest : Bytes) :
    parse hdr size (f.1 ++ f.2 ++ rest) = f :: parse hdr size rest := by
  obtain ⟨hheader, hpayload⟩ := hf
  have htake : (f.1 ++ f.2 ++ rest).take hdr = f.1 := by
    rw [List.append_assoc, ← hheader, List.take_left]
  have hslice : slice (f.1 ++ f.2 ++ rest) hdr f.2.length = f.2 := by
    rw [slice, List.append_assoc, ← hheader, List.drop_left, List.take_left]
  have hdrop : (f.1 ++ f.2 ++ rest).drop (hdr + f.2.length) = rest := by
    rw [← hheader, ← List.length_append, List.drop_left]
  rw [parse, htake, ← hpayload, hslice, hdrop, if_pos]
  refine ⟨hpos, ?_, ?_⟩
  · rw [List.length_append, List.length_append]
    omega
  · rw [List.length_append, List.length_append]
    omega

theorem parse_encode_append (hpos : 0 < hdr) {fs : List Frame}
    (hfs : ∀ f ∈ fs, WellFormed hdr size f) (rest : Bytes) :
    parse hdr size (encode fs ++ rest) = fs ++ parse hdr size rest := by
  induction fs with
  | nil => rfl
  | cons f fs ih =>
    have hf := hfs f (List.mem_cons_self ..)
    rw [encode, List.append_assoc (f.1 ++ f.2), parse_cons hpos hf,
      ih fun g hg => hfs g (List.mem_cons_of_mem _ hg)]
    rfl

theorem parse_short_header {b : Bytes} (h : b.length < hdr) : parse hdr size b = [] := by
  rw [parse, if_neg]
  omega

theorem parse_short_payload {header payload : Bytes} (hheader : header.length = hdr)
    (hpayload : payload.length < size header) : parse hdr size (header ++ payload) = [] := by
  rw [parse, ← hheader, List.take_left, if_neg]
  rw [List.length_append]
  omega

theorem parse_encode (hpos : 0 < hdr) {fs : List Frame}
    (hfs : ∀ f ∈ fs, WellFormed hdr size f) : parse hdr size (encode fs) = fs := by
  have hnil : parse hdr size [] = [] := parse_short_header hpos
  have h := parse_encode_append hpos hfs []
  rw [List.append_nil, hnil, List.append_nil] at h
  exact h

/-- Frames at the front of a stream of frames are the first of them. -/
theorem encode_append_eq (hpos : 0 < hdr) {fs gs : List Frame} {rest : Bytes}
    (hfs : ∀ f ∈ fs, WellFormed hdr size f) (hgs : ∀ g ∈ gs, WellFormed hdr size g)
    (h : encode fs ++ rest = encode gs) : ∃ later, gs = fs ++ later ∧ rest = encode later := by
  induction fs generalizing gs with
  | nil => exact ⟨gs, rfl, h⟩
  | cons f fs ih =>
    obtain ⟨hf1, hf2⟩ := hfs f (List.mem_cons_self ..)
    cases gs with
    | nil =>
      have := congrArg List.length h
      simp only [encode, List.length_append, List.length_nil] at this
      omega
    | cons g gs =>
      obtain ⟨hg1, hg2⟩ := hgs g (List.mem_cons_self ..)
      simp only [encode, List.append_assoc] at h
      obtain ⟨hheader, h⟩ := List.append_inj h (by rw [hf1, hg1])
      obtain ⟨hpayload, h⟩ := List.append_inj h (by rw [hf2, hg2, hheader])
      obtain ⟨later, rfl, hrest⟩ := ih (fun f hf => hfs f (List.mem_cons_of_mem _ hf))
        (fun g hg => hgs g (List.mem_cons_of_mem _ hg)) (by rw [← h])
      have hfg : f = g := Prod.ext hheader hpayload
      rw [hfg]
      exact ⟨later, rfl, hrest⟩

end Foundations.Framing
