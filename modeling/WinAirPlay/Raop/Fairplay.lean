import WinAirPlay.Foundations.CheckedMemory

/-! # The FairPlay session of `fairplay_playfair.cpp`

The table of replies is indexed with a byte of the first message, and `playfair_decrypt` indexes its
tables `message_key` and `message_iv` with a byte of the second one. Both tables have four rows.
What `playfair_decrypt` computes of the bytes it reads is a parameter.
-/

namespace WinAirPlay
open Foundations.ByteBuffer Foundations.CheckedMemory
set_option autoImplicit false

def replyMessage : List Bytes :=
  [[0x46, 0x50, 0x4c, 0x59, 0x03, 0x01, 0x02, 0x00, 0x00, 0x00, 0x00, 0x82, 0x02, 0x00, 0x0f,
     0x9f, 0x3f, 0x9e, 0x0a, 0x25, 0x21, 0xdb, 0xdf, 0x31, 0x2a, 0xb2, 0xbf, 0xb2, 0x9e, 0x8d,
     0x23, 0x2b, 0x63, 0x76, 0xa8, 0xc8, 0x18, 0x70, 0x1d, 0x22, 0xae, 0x93, 0xd8, 0x27, 0x37,
     0xfe, 0xaf, 0x9d, 0xb4, 0xfd, 0xf4, 0x1c, 0x2d, 0xba, 0x9d, 0x1f, 0x49, 0xca, 0xaa, 0xbf,
     0x65, 0x91, 0xac, 0x1f, 0x7b, 0xc6, 0xf7, 0xe0, 0x66, 0x3d, 0x21, 0xaf, 0xe0, 0x15, 0x65,
     0x95, 0x3e, 0xab, 0x81, 0xf4, 0x18, 0xce, 0xed, 0x09, 0x5a, 0xdb, 0x7c, 0x3d, 0x0e, 0x25,
     0x49, 0x09, 0xa7, 0x98, 0x31, 0xd4, 0x9c, 0x39, 0x82, 0x97, 0x34, 0x34, 0xfa, 0xcb, 0x42,
     0xc6, 0x3a, 0x1c, 0xd9, 0x11, 0xa6, 0xfe, 0x94, 0x1a, 0x8a, 0x6d, 0x4a, 0x74, 0x3b, 0x46,
     0xc3, 0xa7, 0x64, 0x9e, 0x44, 0xc7, 0x89, 0x55, 0xe4, 0x9d, 0x81, 0x55, 0x00, 0x95, 0x49,
     0xc4, 0xe2, 0xf7, 0xa3, 0xf6, 0xd5, 0xba],
    [0x46, 0x50, 0x4c, 0x59, 0x03, 0x01, 0x02, 0x00, 0x00, 0x00, 0x00, 0x82, 0x02, 0x01, 0xcf,
     0x32, 0xa2, 0x57, 0x14, 0xb2, 0x52, 0x4f, 0x8a, 0xa0, 0xad, 0x7a, 0xf1, 0x64, 0xe3, 0x7b,
     0xcf, 0x44, 0x24, 0xe2, 0x00, 0x04, 0x7e, 0xfc, 0x0a, 0xd6, 0x7a, 0xfc, 0xd9, 0x5d, 0xed,
     0x1c, 0x27, 0x30, 0xbb, 0x59, 0x1b, 0x96, 0x2e, 0xd6, 0x3a, 0x9c, 0x4d, 0xed, 0x88, 0xba,
     0x8f, 0xc7, 0x8d, 0xe6, 0x4d, 0x91, 0xcc, 0xfd, 0x5c, 0x7b, 0x56, 0xda, 0x88, 0xe3, 0x1f,
     0x5c, 0xce, 0xaf, 0xc7, 0x43, 0x19, 0x95, 0xa0, 0x16, 0x65, 0xa5, 0x4e, 0x19, 0x39, 0xd2,
     0x5b, 0x94, 0xdb, 0x64, 0xb9, 0xe4, 0x5d, 0x8d, 0x06, 0x3e, 0x1e, 0x6a, 0xf0, 0x7e, 0x96,
     0x56, 0x16, 0x2b, 0x0e, 0xfa, 0x40, 0x42, 0x75, 0xea, 0x5a, 0x44, 0xd9, 0x59, 0x1c, 0x72,
     0x56, 0xb9, 0xfb, 0xe6, 0x51, 0x38, 0x98, 0xb8, 0x02, 0x27, 0x72, 0x19, 0x88, 0x57, 0x16,
     0x50, 0x94, 0x2a, 0xd9, 0x46, 0x68, 0x8a],
    [0x46, 0x50, 0x4c, 0x59, 0x03, 0x01, 0x02, 0x00, 0x00, 0x00, 0x00, 0x82, 0x02, 0x02, 0xc1,
     0x69, 0xa3, 0x52, 0xee, 0xed, 0x35, 0xb1, 0x8c, 0xdd, 0x9c, 0x58, 0xd6, 0x4f, 0x16, 0xc1,
     0x51, 0x9a, 0x89, 0xeb, 0x53, 0x17, 0xbd, 0x0d, 0x43, 0x36, 0xcd, 0x68, 0xf6, 0x38, 0xff,
     0x9d, 0x01, 0x6a, 0x5b, 0x52, 0xb7, 0xfa, 0x92, 0x16, 0xb2, 0xb6, 0x54, 0x82, 0xc7, 0x84,
     0x44, 0x11, 0x81, 0x21, 0xa2, 0xc7, 0xfe, 0xd8, 0x3d, 0xb7, 0x11, 0x9e, 0x91, 0x82, 0xaa,
     0xd7, 0xd1, 0x8c, 0x70, 0x63, 0xe2, 0xa4, 0x57, 0x55, 0x59, 0x10, 0xaf, 0x9e, 0x0e, 0xfc,
     0x76, 0x34, 0x7d, 0x16, 0x40, 0x43, 0x80, 0x7f, 0x58, 0x1e, 0xe4, 0xfb, 0xe4, 0x2c, 0xa9,
     0xde, 0xdc, 0x1b, 0x5e, 0xb2, 0xa3, 0xaa, 0x3d, 0x2e, 0xcd, 0x59, 0xe7, 0xee, 0xe7, 0x0b,
     0x36, 0x29, 0xf2, 0x2a, 0xfd, 0x16, 0x1d, 0x87, 0x73, 0x53, 0xdd, 0xb9, 0x9a, 0xdc, 0x8e,
     0x07, 0x00, 0x6e, 0x56, 0xf8, 0x50, 0xce],
    [0x46, 0x50, 0x4c, 0x59, 0x03, 0x01, 0x02, 0x00, 0x00, 0x00, 0x00, 0x82, 0x02, 0x03, 0x90,
     0x01, 0xe1, 0x72, 0x7e, 0x0f, 0x57, 0xf9, 0xf5, 0x88, 0x0d, 0xb1, 0x04, 0xa6, 0x25, 0x7a,
     0x23, 0xf5, 0xcf, 0xff, 0x1a, 0xbb, 0xe1, 0xe9, 0x30, 0x45, 0x25, 0x1a, 0xfb, 0x97, 0xeb,
     0x9f, 0xc0, 0x01, 0x1e, 0xbe, 0x0f, 0x3a, 0x81, 0xdf, 0x5b, 0x69, 0x1d, 0x76, 0xac, 0xb2,
     0xf7, 0xa5, 0xc7, 0x08, 0xe3, 0xd3, 0x28, 0xf5, 0x6b, 0xb3, 0x9d, 0xbd, 0xe5, 0xf2, 0x9c,
     0x8a, 0x17, 0xf4, 0x81, 0x48, 0x7e, 0x3a, 0xe8, 0x63, 0xc6, 0x78, 0x32, 0x54, 0x22, 0xe6,
     0xf7, 0x8e, 0x16, 0x6d, 0x18, 0xaa, 0x7f, 0xd6, 0x36, 0x25, 0x8b, 0xce, 0x28, 0x72, 0x6f,
     0x66, 0x1f, 0x73, 0x88, 0x93, 0xce, 0x44, 0x31, 0x1e, 0x4b, 0xe6, 0xc0, 0x53, 0x51, 0x93,
     0xe5, 0xef, 0x72, 0xe8, 0x68, 0x62, 0x33, 0x72, 0x9c, 0x22, 0x7d, 0x82, 0x0c, 0x99, 0x94,
     0x45, 0xd8, 0x92, 0x46, 0xc8, 0xc3, 0x59]]

def fpHeader : Bytes :=
  [0x46, 0x50, 0x4c, 0x59, 0x03, 0x01, 0x04, 0x00, 0x00, 0x00, 0x00, 0x14]

structure Fairplay where
  keymsg : Bytes
  keymsglen : ℕ
  deriving DecidableEq

def fairplayInit : Fairplay where
  keymsg := List.replicate 164 0
  keymsglen := 0

/-- `none` is the return value -1, with which nothing is written. -/
def fairplaySetup (fp : Fairplay) (req : Bytes) : Checked (Fairplay × Option Bytes) := do
  if (← readByte req 4) ≠ 0x03 then .ok (fp, none)
  else
    let mode ← readByte req 14
    let res ← readRow replyMessage mode.toNat
    .ok ({ fp with keymsglen := 0 }, some res)

def fairplayHandshake (fp : Fairplay) (req : Bytes) : Checked (Fairplay × Option Bytes) := do
  if (← readByte req 4) ≠ 0x03 then .ok (fp, none)
  else
    let keymsg ← readRange req 0 164
    let res ← readRange req 144 20
    .ok ({ fp with keymsg := keymsg, keymsglen := 164 }, some (fpHeader ++ res))

/-- The key that `playfair_decrypt` computes from the message and the two chunks of the input. -/
abbrev Playfair := Bytes → Bytes → Bytes → Bytes

/-- The rows of `message_key` and of `message_iv`. -/
def messageModes : ℕ := 4

section
variable (F : Playfair)

def playfairDecrypt (message3 cipherText : Bytes) : Checked Bytes := do
  -- `decryptMessage` takes row `messageIn[12]` of its tables
  let mode ← readByte message3 12
  if messageModes ≤ mode.toNat then .error (.outOfBounds mode.toNat messageModes)
  else
    let chunk2 ← readRange cipherText 56 16
    let chunk1 ← readRange cipherText 16 16
    .ok (F message3 chunk1 chunk2)

/-- `none` is the return value -1, with which `output` is not written. -/
def fairplayDecrypt (fp : Fairplay) (input : Bytes) : Checked (Option Bytes) :=
  if fp.keymsglen ≠ 164 then .ok none
  else do .ok (some (← playfairDecrypt F fp.keymsg input))

end

/-! ## When the accesses are in bounds -/

/-- A message of the first phase that is refused or names one of the four replies. -/
def ReplyKnown (req : Bytes) : Prop := byteAt req 4 = 0x03 → (byteAt req 14).toNat < 4

/-- There is no key, or the message for it has a known mode and the input is long enough. -/
def Decryptable (fp : Fairplay) (input : Bytes) : Prop :=
  fp.keymsglen = 164 → (byteAt fp.keymsg 12).toNat < messageModes ∧ 72 ≤ input.length

instance (req : Bytes) : Decidable (ReplyKnown req) := inferInstanceAs (Decidable (_ → _))

instance (fp : Fairplay) (input : Bytes) : Decidable (Decryptable fp input) :=
  inferInstanceAs (Decidable (_ → _))

/-- What the first phase does when the reply exists. -/
def setupPhase (fp : Fairplay) (req : Bytes) : Fairplay × Option Bytes :=
  if byteAt req 4 = 0x03 then
    ({ fp with keymsglen := 0 }, some (replyMessage.getD (byteAt req 14).toNat []))
  else (fp, none)

def handshakePhase (fp : Fairplay) (req : Bytes) : Fairplay × Option Bytes :=
  if byteAt req 4 = 0x03 then
    ({ fp with keymsg := slice req 0 164, keymsglen := 164 },
      some (fpHeader ++ slice req 144 20))
  else (fp, none)

/-- The key of `fairplay_decrypt`, if there is one. -/
def decryptedKey (F : Playfair) (fp : Fairplay) (input : Bytes) : Option Bytes :=
  if fp.keymsglen = 164 then some (F fp.keymsg (slice input 16 16) (slice input 56 16)) else none

theorem fairplaySetup_ok (fp : Fairplay) {req : Bytes} (hlen : 15 ≤ req.length)
    (h : ReplyKnown req) : fairplaySetup fp req = .ok (setupPhase fp req) := by
  rw [fairplaySetup, readByte_eq (i := 4) (n := 4) rfl (by omega), ok_bind, setupPhase]
  by_cases hversion : byteAt req 4 = 0x03
  · rw [if_neg (not_not.mpr hversion), if_pos hversion,
      readByte_eq (i := 14) (n := 14) rfl (by omega), ok_bind, readRow_ok (h hversion), ok_bind]
  · rw [if_pos hversion, if_neg hversion]

theorem fairplaySetup_fault (fp : Fairplay) {req : Bytes} (hlen : 15 ≤ req.length)
    (h : ¬ ReplyKnown req) : Faults (fairplaySetup fp req) := by
  obtain ⟨hversion, hmode⟩ := Classical.not_imp.mp h
  rw [fairplaySetup, readByte_eq (i := 4) (n := 4) rfl (by omega), ok_bind,
    if_neg (not_not.mpr hversion), readByte_eq (i := 14) (n := 14) rfl (by omega), ok_bind]
  exact (readRow_fault (not_lt.mp hmode)).bind _

theorem fairplaySetup_eq {fp : Fairplay} {req : Bytes} {r : Fairplay × Option Bytes}
    (hlen : 15 ≤ req.length) (h : fairplaySetup fp req = .ok r) : r = setupPhase fp req := by
  by_cases hreply : ReplyKnown req
  · rw [fairplaySetup_ok fp hlen hreply] at h
    cases h
    rfl
  · exact absurd (fairplaySetup_fault fp hlen hreply) (not_faults_iff.mpr ⟨r, h⟩)

theorem fairplayHandshake_ok (fp : Fairplay) {req : Bytes} (hlen : 164 ≤ req.length) :
    fairplayHandshake fp req = .ok (handshakePhase fp req) := by
  rw [fairplayHandshake, readByte_eq (i := 4) (n := 4) rfl (by omega), ok_bind, handshakePhase]
  by_cases hversion : byteAt req 4 = 0x03
  · rw [if_neg (not_not.mpr hversion), if_pos hversion,
      @readRange_eq req 0 164 0 164 rfl rfl (by omega), ok_bind,
      @readRange_eq req 144 20 144 20 rfl rfl (by omega), ok_bind]
  · rw [if_pos hversion, if_neg hversion]

section
variable (F : Playfair)

theorem fairplayDecrypt_ok {fp : Fairplay} {input : Bytes} (hlen : fp.keymsg.length = 164)
    (h : Decryptable fp input) : fairplayDecrypt F fp input = .ok (decryptedKey F fp input) := by
  rw [fairplayDecrypt, decryptedKey]
  by_cases hready : fp.keymsglen = 164
  · obtain ⟨hmode, hinput⟩ := h hready
    rw [if_neg (not_not.mpr hready), if_pos hready, playfairDecrypt,
      readByte_eq (i := 12) (n := 12) rfl (by omega), ok_bind, if_neg (by omega),
      @readRange_eq input 56 16 56 16 rfl rfl (by omega), ok_bind,
      @readRange_eq input 16 16 16 16 rfl rfl (by omega), ok_bind, ok_bind]
  · rw [if_pos hready, if_neg hready]

theorem fairplayDecrypt_fault {fp : Fairplay} {input : Bytes} (hlen : fp.keymsg.length = 164)
    (h : ¬ Decryptable fp input) : Faults (fairplayDecrypt F fp input) := by
  obtain ⟨hready, hnot⟩ := Classical.not_imp.mp h
  rw [fairplayDecrypt, if_neg (not_not.mpr hready), playfairDecrypt,
    readByte_eq (i := 12) (n := 12) rfl (by omega), ok_bind]
  by_cases hmode : messageModes ≤ (byteAt fp.keymsg 12).toNat
  · rw [if_pos hmode]
    exact ⟨_, rfl⟩
  · have hshort : input.length < 72 := by
      by_contra hlong
      exact hnot ⟨by omega, by omega⟩
    rw [if_neg hmode]
    exact ((readRange_fault (by omega)).bind _).bind _

end

/-- The message of the second phase fills `keymsg`. -/
theorem handshakePhase_length {fp : Fairplay} {req : Bytes} (hlen : 164 ≤ req.length)
    (h : fp.keymsg.length = 164) : (handshakePhase fp req).1.keymsg.length = 164 := by
  rw [handshakePhase]
  split
  · exact length_slice (by omega)
  · exact h

end WinAirPlay
