import Mathlib.Tactic.SplitIfs
import WinAirPlay.Foundations.Unicode

/-! # The strings of a binary property list

`libplist` keeps strings as UTF-8. A string with a character beyond ASCII is written as UTF-16 and
converted back when it is read. Both converters are loops over whatever bytes they are given: an
invalid UTF-8 sequence ends the text, and a surrogate that has no partner is left out. A leading
surrogate waits for its partner across other characters, since only a second leading one clears
`read_lead_surrogate`.
-/

namespace WinAirPlay
open Foundations.ByteBuffer Foundations.Unicode
set_option autoImplicit false

/-! ## The converters -/

/-- The loop of `plist_utf16be_to_utf8`; `lead` is `w` while `read_lead_surrogate` is set. -/
def utf16ToUtf8 : Option ℕ → List ℕ → Bytes
  | _, [] => []
  | lead, wc :: units =>
    if 0xD800 ≤ wc ∧ wc ≤ 0xDBFF then
      match lead with
      | none => utf16ToUtf8 (some (0x10000 + wc % 0x400 * 0x400)) units
      | some _ => utf16ToUtf8 none units
    else if 0xDC00 ≤ wc ∧ wc ≤ 0xDFFF then
      match lead with
      | none => utf16ToUtf8 none units
      | some w =>
        let w := w ||| wc % 0x400
        [UInt8.ofNat (0xF0 + w / 0x40000 % 8), UInt8.ofNat (0x80 + w / 0x1000 % 0x40),
          UInt8.ofNat (0x80 + w / 0x40 % 0x40), UInt8.ofNat (0x80 + w % 0x40)] ++
          utf16ToUtf8 none units
    else if 0x800 ≤ wc then
      [UInt8.ofNat (0xE0 + wc / 0x1000 % 0x10), UInt8.ofNat (0x80 + wc / 0x40 % 0x40),
        UInt8.ofNat (0x80 + wc % 0x40)] ++ utf16ToUtf8 lead units
    else if 0x80 ≤ wc then
      [UInt8.ofNat (0xC0 + wc / 0x40 % 0x20), UInt8.ofNat (0x80 + wc % 0x40)] ++
        utf16ToUtf8 lead units
    else UInt8.ofNat (wc % 0x80) :: utf16ToUtf8 lead units

/-- The loop of `plist_utf8_to_utf16be`. The arithmetic of `w` is that of a `uint32_t`, and what is
stored of a surrogate has 16 bits. -/
def utf8ToUtf16 : Bytes → List ℕ
  | [] => []
  | b0 :: rest =>
    let c0 := b0.toNat
    let c1 := (byteAt rest 0).toNat
    let c2 := (byteAt rest 1).toNat
    let c3 := (byteAt rest 2).toNat
    if 0xF0 ≤ c0 ∧ 3 ≤ rest.length ∧ 0x80 ≤ c1 ∧ 0x80 ≤ c2 ∧ 0x80 ≤ c3 then
      let w := ((c0 % 8 * 0x40000 + c1 % 0x40 * 0x1000 + c2 % 0x40 * 0x40 + c3 % 0x40) % 0x200000 +
        2 ^ 32 - 0x10000) % 2 ^ 32
      (0xD800 + w / 0x400) % 0x10000 :: (0xDC00 + w % 0x400) :: utf8ToUtf16 (rest.drop 3)
    else if 0xE0 ≤ c0 ∧ 2 ≤ rest.length ∧ 0x80 ≤ c1 ∧ 0x80 ≤ c2 then
      ((c2 % 0x40 + c1 % 4 * 0x40) + c1 / 4 % 0x10 * 0x100 + c0 % 0x10 * 0x1000) ::
        utf8ToUtf16 (rest.drop 2)
    else if 0xC0 ≤ c0 ∧ 1 ≤ rest.length ∧ 0x80 ≤ c1 then
      ((c1 % 0x40 + c0 % 4 * 0x40) + c0 / 4 % 8 * 0x100) :: utf8ToUtf16 (rest.drop 1)
    else if c0 < 0x80 then c0 :: utf8ToUtf16 rest
    else []
termination_by b => b.length
decreasing_by all_goals simp only [List.length_drop, List.length_cons]; omega

/-! ## Valid texts -/

theorem utf16ToUtf8_char (c : Char) (units : List ℕ) :
    utf16ToUtf8 none (utf16EncodeChar c ++ units) =
      String.utf8EncodeChar c ++ utf16ToUtf8 none units := by
  have hrange := scalar_range c
  unfold utf16EncodeChar
  by_cases hbasic : c.toNat < 0x10000
  · rw [if_pos hbasic, List.singleton_append, utf16ToUtf8, if_neg (by omega), if_neg (by omega)]
    by_cases hthree : 0x800 ≤ c.toNat
    · rw [if_pos hthree, utf8EncodeChar_three hthree hbasic, Nat.mod_eq_of_lt (by omega)]
    · rw [if_neg hthree]
      by_cases htwo : 0x80 ≤ c.toNat
      · rw [if_pos htwo, utf8EncodeChar_two htwo (by omega), Nat.mod_eq_of_lt (by omega)]
      · rw [if_neg htwo, utf8EncodeChar_one (by omega), Nat.mod_eq_of_lt (by omega)]
        rfl
  · -- the two halves are put together to the number they were made of
    have hor : 0x10000 + (0xD800 + (c.toNat - 0x10000) / 0x400) % 0x400 * 0x400 |||
        (0xDC00 + (c.toNat - 0x10000) % 0x400) % 0x400 = c.toNat := by
      have hlow : (0xDC00 + (c.toNat - 0x10000) % 0x400) % 0x400 < 2 ^ 10 := by omega
      have hsplit := Nat.two_pow_add_eq_or_of_lt hlow
        (0x40 + (0xD800 + (c.toNat - 0x10000) / 0x400) % 0x400)
      have hhigh : 2 ^ 10 * (0x40 + (0xD800 + (c.toNat - 0x10000) / 0x400) % 0x400) =
          0x10000 + (0xD800 + (c.toNat - 0x10000) / 0x400) % 0x400 * 0x400 := by ring
      rw [← hhigh, ← hsplit]
      omega
    rw [if_neg hbasic, List.cons_append, List.singleton_append, utf16ToUtf8, if_pos (by omega),
      utf16ToUtf8, if_neg (by omega), if_pos (by omega)]
    dsimp only
    rw [hor, utf8EncodeChar_four (by omega), Nat.mod_eq_of_lt (a := c.toNat / 0x40000) (by omega)]

/-- A text that was written is read as it was. -/
theorem utf16ToUtf8_utf16 (text : List Char) : utf16ToUtf8 none (utf16 text) = utf8 text := by
  induction text with
  | nil => rfl
  | cons c text ih => rw [utf16_cons, utf16ToUtf8_char, ih, utf8_cons]

theorem utf8ToUtf16_char (c : Char) (rest : Bytes) :
    utf8ToUtf16 (String.utf8EncodeChar c ++ rest) = utf16EncodeChar c ++ utf8ToUtf16 rest := by
  have hrange := scalar_range c
  unfold utf16EncodeChar
  by_cases hone : c.toNat < 0x80
  · have hbyte : (UInt8.ofNat c.toNat).toNat = c.toNat := by
      rw [UInt8.toNat_ofNat']
      omega
    rw [utf8EncodeChar_one hone, if_pos (show c.toNat < 0x10000 by omega), List.singleton_append,
      utf8ToUtf16]
    dsimp only
    rw [hbyte, if_neg (by omega), if_neg (by omega), if_neg (by omega), if_pos hone]
    rfl
  by_cases htwo : c.toNat < 0x800
  · rw [utf8EncodeChar_two (by omega) htwo, if_pos (show c.toNat < 0x10000 by omega),
      List.cons_append, List.singleton_append, utf8ToUtf16]
    simp only [byteAt, List.getD_cons_zero, List.getD_cons_succ, List.length_cons,
      UInt8.toNat_ofNat', List.drop_succ_cons, List.drop_zero]
    rw [if_neg (by omega), if_neg (by omega), if_pos (by omega)]
    refine List.cons_eq_cons.mpr ⟨?_, rfl⟩
    omega
  by_cases hthree : c.toNat < 0x10000
  · rw [utf8EncodeChar_three (by omega) hthree, List.cons_append, List.cons_append,
      List.singleton_append, if_pos hthree, utf8ToUtf16]
    simp only [byteAt, List.getD_cons_zero, List.getD_cons_succ, List.length_cons,
      UInt8.toNat_ofNat', List.drop_succ_cons, List.drop_zero]
    rw [if_neg (by omega), if_pos (by omega)]
    refine List.cons_eq_cons.mpr ⟨?_, rfl⟩
    omega
  · rw [utf8EncodeChar_four (by omega), List.cons_append, List.cons_append, List.cons_append,
      List.singleton_append, if_neg hthree, utf8ToUtf16]
    simp only [byteAt, List.getD_cons_zero, List.getD_cons_succ, List.length_cons,
      UInt8.toNat_ofNat', List.drop_succ_cons, List.drop_zero]
    rw [if_pos (by omega)]
    refine List.cons_eq_cons.mpr ⟨?_, List.cons_eq_cons.mpr ⟨?_, rfl⟩⟩
    · omega
    · omega

theorem utf8ToUtf16_utf8 (text : List Char) : utf8ToUtf16 (utf8 text) = utf16 text := by
  induction text with
  | nil => rw [show utf8 [] = [] from rfl, utf8ToUtf16, show utf16 [] = [] from rfl]
  | cons c text ih => rw [utf8_cons, utf8ToUtf16_char, ih, utf16_cons]

/-! ## Any input -/

/-- What a leading surrogate leaves in `w`. -/
def IsLead (w : ℕ) : Prop := ∃ k < 0x400, w = 0x10000 + k * 0x400

/-- Whatever the code units are, what is made of them is the UTF-8 form of a text. -/
theorem utf16ToUtf8_valid (units : List ℕ) (lead : Option ℕ) (hunits : ∀ wc ∈ units, wc < 2 ^ 16)
    (hlead : ∀ w ∈ lead, IsLead w) : ∃ text : List Char, utf16ToUtf8 lead units = utf8 text := by
  induction units generalizing lead with
  | nil => exact ⟨[], by cases lead <;> rfl⟩
  | cons wc units ih =>
    have hwc : wc < 2 ^ 16 := hunits wc List.mem_cons_self
    have hrest : ∀ u ∈ units, u < 2 ^ 16 := fun u hu => hunits u (List.mem_cons_of_mem wc hu)
    have hnone : ∀ w ∈ (none : Option ℕ), IsLead w := fun w hw => by cases hw
    rw [utf16ToUtf8.eq_def]
    dsimp only
    by_cases hhigh : 0xD800 ≤ wc ∧ wc ≤ 0xDBFF
    · rw [if_pos hhigh]
      cases lead with
      | none =>
        refine ih _ hrest fun w hw => ?_
        obtain rfl := Option.mem_some_iff.mp hw
        exact ⟨wc % 0x400, Nat.mod_lt _ (by decide), rfl⟩
      | some w => exact ih none hrest hnone
    rw [if_neg hhigh]
    by_cases hlow : 0xDC00 ≤ wc ∧ wc ≤ 0xDFFF
    · rw [if_pos hlow]
      cases lead with
      | none => exact ih none hrest hnone
      | some w =>
        obtain ⟨k, hk, rfl⟩ := hlead w rfl
        have hor : 0x10000 + k * 0x400 ||| wc % 0x400 = 0x10000 + k * 0x400 + wc % 0x400 := by
          have hmod : wc % 0x400 < 2 ^ 10 := Nat.mod_lt _ (by decide)
          have hsplit := Nat.two_pow_add_eq_or_of_lt hmod (0x40 + k)
          have hshift : 2 ^ 10 * (0x40 + k) = 0x10000 + k * 0x400 := by ring
          rw [← hshift, ← hsplit]
        obtain ⟨text, htext⟩ := ih none hrest hnone
        obtain ⟨c, hc⟩ := @exists_scalar (0x10000 + k * 0x400 + wc % 0x400) (by omega)
        refine ⟨c :: text, ?_⟩
        dsimp only
        rw [hor, ← hc, htext, utf8_cons, utf8EncodeChar_four (by omega),
          Nat.mod_eq_of_lt (a := c.toNat / 0x40000) (by omega)]
    rw [if_neg hlow]
    obtain ⟨text, htext⟩ := ih lead hrest hlead
    obtain ⟨c, hc⟩ := @exists_scalar wc (by omega)
    refine ⟨c :: text, ?_⟩
    rw [htext, utf8_cons, ← hc]
    by_cases hthree : 0x800 ≤ c.toNat
    · rw [if_pos hthree, utf8EncodeChar_three hthree (by omega), Nat.mod_eq_of_lt (by omega)]
    rw [if_neg hthree]
    by_cases htwo : 0x80 ≤ c.toNat
    · rw [if_pos htwo, utf8EncodeChar_two htwo (by omega), Nat.mod_eq_of_lt (by omega)]
    · rw [if_neg htwo, utf8EncodeChar_one (by omega), Nat.mod_eq_of_lt (by omega)]
      rfl

/-- The bytes a waiting leading surrogate has paid for. -/
def leadCost : Option ℕ → ℕ
  | none => 0
  | some _ => 3

/-- A code unit becomes at most three bytes, two surrogates become four. -/
theorem length_utf16ToUtf8 (units : List ℕ) (lead : Option ℕ) :
    (utf16ToUtf8 lead units).length ≤ 3 * units.length + leadCost lead := by
  induction units generalizing lead with
  | nil => cases lead <;> simp [utf16ToUtf8]
  | cons wc units ih =>
    have hnone := ih none
    have hsome := ih (some (0x10000 + wc % 0x400 * 0x400))
    have hsame := ih lead
    rw [utf16ToUtf8.eq_def, List.length_cons]
    dsimp only [leadCost] at hnone hsome hsame ⊢
    split_ifs with hhigh hlow hthree htwo
    · cases lead with
      | none => exact hsome.trans (by omega)
      | some w => exact hnone.trans (by omega)
    · cases lead with
      | none => exact hnone.trans (by omega)
      | some w =>
        simp only [List.length_append, List.length_cons, List.length_nil]
        omega
    · simp only [List.length_append, List.length_cons, List.length_nil]
      omega
    · simp only [List.length_append, List.length_cons, List.length_nil]
      omega
    · simp only [List.length_cons]
      omega

/-- There are no more code units than bytes, whatever the bytes are. -/
theorem length_utf8ToUtf16 (b : Bytes) : (utf8ToUtf16 b).length ≤ b.length := by
  induction b using utf8ToUtf16.induct with
  | case1 =>
    rw [utf8ToUtf16]
    exact le_rfl
  | case2 b0 rest c0 c1 c2 c3 hfour ih =>
    rw [utf8ToUtf16, if_pos hfour]
    simp only [List.length_cons, List.length_drop] at ih ⊢
    omega
  | case3 b0 rest c0 c1 c2 c3 hfour hthree ih =>
    rw [utf8ToUtf16, if_neg hfour, if_pos hthree]
    simp only [List.length_cons, List.length_drop] at ih ⊢
    omega
  | case4 b0 rest c0 c1 c2 c3 hfour hthree htwo ih =>
    rw [utf8ToUtf16, if_neg hfour, if_neg hthree, if_pos htwo]
    simp only [List.length_cons, List.length_drop] at ih ⊢
    omega
  | case5 b0 rest c0 c1 c2 c3 hfour hthree htwo hone ih =>
    rw [utf8ToUtf16, if_neg hfour, if_neg hthree, if_neg htwo, if_pos hone]
    simp only [List.length_cons] at ih ⊢
    omega
  | case6 b0 rest c0 c1 c2 c3 hfour hthree htwo hone =>
    rw [utf8ToUtf16, if_neg hfour, if_neg hthree, if_neg htwo, if_neg hone]
    simp only [List.length_nil, List.length_cons]
    omega

end WinAirPlay
