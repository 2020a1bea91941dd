import WinAirPlay.ByteUtils
import WinAirPlay.Foundations.CheckedMemory
import WinAirPlay.Foundations.Framing
import WinAirPlay.Foundations.Transition

/-! # Reading the mirror stream

The loop of `raop_rtp_mirror_thread`, one system call at a time. The header and the payload of a
frame are read by two loops that share `readstart`; a timeout of `recv` leaves them through the
`select` at the top, and only `payload` says which of them goes on afterwards. `ret` is assigned by
`select` in every pass and then by each `recv`, so when it is tested it holds the result of the
last call of this pass.

The invariant `Reading` says what the thread's variables hold of the stream, and the result is that
the frames handed on are those of the stream read in one piece, however `recv` cuts it.
-/

namespace WinAirPlay
open Foundations.ByteBuffer Foundations.CheckedMemory Foundations.Framing Foundations.Transition
set_option autoImplicit false

/-- What `recv` returns: bytes, 0, or -1 with `errno`. -/
inductive RecvResult
  | data (chunk : Bytes)
  | closed
  | again
  | error

/-- What the next system call of the thread returns. `stopped` is the check of `running`. -/
inductive MirrorCall
  | stopped
  | selectTimeout
  | selectError
  | accepted
  | acceptError
  | readable
  | recv (result : RecvResult)

/-- Where the thread is: before `select`, in one of the two `recv` calls, or out of the loop. -/
inductive MirrorPoint
  | select
  | headerRecv
  | payloadRecv
  | exited
  deriving DecidableEq

structure MirrorThread where
  point : MirrorPoint
  /-- `stream_fd != -1`. -/
  connected : Bool
  packet : Bytes
  payload : Option Bytes
  readstart : ℕ

def mirrorThreadInit : MirrorThread where
  point := .select
  connected := false
  packet := List.replicate 128 0
  payload := none
  readstart := 0

def payloadSizeOf (packet : Bytes) : ℤ := signed 32 (byteutilsGetInt packet 0)

/-- `while (readstart < payload_size)`. A complete frame is processed and the thread made ready for
the next one. -/
def payloadLoop (t : MirrorThread) (payload : Bytes) : MirrorThread × List Frame :=
  if (t.readstart : ℤ) < payloadSizeOf t.packet then
    ({ t with point := .payloadRecv, payload := some payload }, [])
  else
    ({ t with point := .select, packet := List.replicate 128 0, payload := none, readstart := 0 },
      [(t.packet, payload)])

/-- `while (payload == NULL && readstart < 128)`. The block for the payload is allocated once the
header is complete; there is no block of a negative size. -/
def headerLoop (garbage : ℕ → UInt8) (t : MirrorThread) : Option (MirrorThread × List Frame) :=
  match t.payload with
  | some payload => some (payloadLoop t payload)
  | none =>
    if t.readstart < 128 then some ({ t with point := .headerRecv }, [])
    else
      match malloc garbage (payloadSizeOf t.packet) with
      | .ok payload => some (payloadLoop { t with readstart := 0 } payload)
      | .error _ => none

/-- The number of bytes the thread asks `recv` for. -/
def MirrorThread.request (t : MirrorThread) : ℕ :=
  match t.payload with
  | none => 128 - t.readstart
  | some _ => (payloadSizeOf t.packet).toNat - t.readstart

/-- The step of the thread when its next system call returns; `none` for a result that this call
does not have. -/
def mirrorStep (garbage : ℕ → UInt8) (t : MirrorThread) :
    MirrorCall → Option (MirrorThread × List Frame)
  | .stopped | .selectError =>
    if t.point = .select then some ({ t with point := .exited }, []) else none
  | .selectTimeout => if t.point = .select then some (t, []) else none
  | .accepted =>
    if t.point = .select ∧ t.connected = false then
      some ({ t with connected := true, readstart := 0 }, [])
    else none
  | .acceptError =>
    if t.point = .select ∧ t.connected = false then some ({ t with point := .exited }, []) else none
  | .readable =>
    if t.point = .select ∧ t.connected = true then headerLoop garbage t else none
  | .recv (.data chunk) =>
    if chunk = [] ∨ t.request < chunk.length then none
    else
      match t.point, t.payload with
      | .headerRecv, none =>
        headerLoop garbage
          { t with packet := writeAt t.packet t.readstart chunk
                   readstart := t.readstart + chunk.length }
      | .payloadRecv, some payload =>
        some (payloadLoop { t with readstart := t.readstart + chunk.length }
          (writeAt payload t.readstart chunk))
      | _, _ => none
  | .recv .closed =>
    match t.point with
    | .headerRecv => some ({ t with point := .select, connected := false }, [])
    | .payloadRecv => some ({ t with point := .exited }, [])
    | _ => none
  | .recv .again =>
    match t.point with
    | .headerRecv | .payloadRecv => some ({ t with point := .select }, [])
    | _ => none
  | .recv .error =>
    match t.point with
    | .headerRecv | .payloadRecv => some ({ t with point := .exited }, [])
    | _ => none

/-! ## What was received -/

/-- The bytes received on each connection, the latest connection first. -/
def connectionsStep (connections : List Bytes) : MirrorCall → List Bytes
  | .accepted => [] :: connections
  | .recv (.data chunk) =>
    match connections with
    | [] => [chunk]
    | current :: before => (current ++ chunk) :: before
  | _ => connections

def connections (calls : List MirrorCall) : List Bytes := calls.foldl connectionsStep []

/-- The number of payload bytes a header announces. -/
def announced (packet : Bytes) : ℕ := byteutilsGetInt packet 0

abbrev parseStream (b : Bytes) : List Frame := parse 128 announced b

/-- A frame as the peer sends it, with a payload size below 2³¹. -/
structure SentFrame (f : Frame) : Prop where
  wellFormed : WellFormed 128 announced f
  size : 2 * announced f.1 < 2 ^ 32

/-- The bytes of the frame in progress that the thread has read. -/
def partialFrame (t : MirrorThread) : Bytes :=
  match t.payload with
  | none => t.packet.take t.readstart
  | some payload => t.packet ++ payload.take t.readstart

/-- What is left to read of the frame in progress, and where the thread can be. -/
structure InFrame (t : MirrorThread) : Prop where
  packet : t.packet.length = 128
  header : t.payload = none → t.readstart < 128
  payload : ∀ payload, t.payload = some payload → 2 * announced t.packet < 2 ^ 32 ∧
    payload.length = announced t.packet ∧ t.readstart < announced t.packet ∧ t.connected = true
  headerRecv : t.point = .headerRecv → t.connected = true ∧ t.payload = none
  payloadRecv : t.point = .payloadRecv → t.payload ≠ none

/-- After the calls `calls` the thread has handed on `processed`: every connection's frames, where
the latest connection ends in the frame in progress. -/
structure Reading (calls : List MirrorCall) (processed : List Frame) (t : MirrorThread) : Prop where
  inFrame : InFrame t
  opened : t.connected = true → connections calls ≠ []
  frames : ∃ done : List Frame, (∀ f ∈ done, WellFormed 128 announced f) ∧
    (connections calls).headD [] = encode done ++ partialFrame t ∧
    processed = (connections calls).tail.reverse.flatMap parseStream ++ done

theorem reading_init : Reading [] [] mirrorThreadInit where
  inFrame :=
    { packet := by simp [mirrorThreadInit]
      header := fun _ => by simp [mirrorThreadInit]
      payload := fun _ h => by simp [mirrorThreadInit] at h
      headerRecv := fun h => by simp [mirrorThreadInit] at h
      payloadRecv := fun h => by simp [mirrorThreadInit] at h }
  opened := fun h => by simp [mirrorThreadInit] at h
  frames := ⟨[], by simp, by simp [connections, mirrorThreadInit, partialFrame, encode],
    by simp [connections]⟩

theorem parse_partialFrame {t : MirrorThread} (h : InFrame t) :
    parseStream (partialFrame t) = [] := by
  unfold partialFrame
  cases hp : t.payload with
  | none =>
    apply parse_short_header
    have := h.header hp
    rw [List.length_take]
    omega
  | some payload =>
    obtain ⟨-, hlen, hread, -⟩ := h.payload payload hp
    apply parse_short_payload h.packet
    rw [List.length_take]
    omega

/-! ## One step -/

theorem payloadSizeOf_eq {packet : Bytes} (h : 2 * announced packet < 2 ^ 32) :
    payloadSizeOf packet = announced packet := signed_eq h

/-- The frames that a step completes are those at the front of the bytes read, and what follows
them is the new frame in progress. -/
def Completes (read : Bytes) (r : MirrorThread × List Frame) : Prop :=
  InFrame r.1 ∧ r.1.connected = true ∧ (∀ f ∈ r.2, WellFormed 128 announced f) ∧
    read = encode r.2 ++ partialFrame r.1

theorem payloadLoop_completes (t : MirrorThread) (payload : Bytes) (hpacket : t.packet.length = 128)
    (hconnected : t.connected = true) (hsize : 2 * announced t.packet < 2 ^ 32)
    (hlen : payload.length = announced t.packet) (hread : t.readstart ≤ announced t.packet) :
    Completes (t.packet ++ payload.take t.readstart) (payloadLoop t payload) := by
  unfold payloadLoop
  rw [payloadSizeOf_eq hsize]
  by_cases hmore : (t.readstart : ℤ) < (announced t.packet : ℤ)
  · rw [if_pos hmore]
    refine ⟨⟨hpacket, ?_, ?_, ?_, ?_⟩, hconnected, by simp, rfl⟩
    · intro h
      cases h
    · intro p hp
      cases hp
      exact ⟨hsize, hlen, by exact_mod_cast hmore, hconnected⟩
    · intro h
      cases h
    · intro _ h
      cases h
  · rw [if_neg hmore]
    have hall : t.readstart = payload.length := by omega
    refine ⟨⟨by simp, ?_, ?_, ?_, ?_⟩, hconnected, ?_, ?_⟩
    · intro _
      show 0 < 128
      omega
    · intro p hp
      cases hp
    · intro h
      cases h
    · intro h
      cases h
    · intro f hf
      rw [List.mem_singleton] at hf
      rw [hf]
      exact ⟨hpacket, hlen⟩
    · rw [hall, List.take_length]
      simp [encode, partialFrame]

theorem headerLoop_completes {garbage : ℕ → UInt8} {t : MirrorThread}
    {r : MirrorThread × List Frame} (hpacket : t.packet.length = 128)
    (hconnected : t.connected = true) (hheader : t.payload = none → t.readstart ≤ 128)
    (hpayload : ∀ payload, t.payload = some payload → 2 * announced t.packet < 2 ^ 32 ∧
      payload.length = announced t.packet ∧ t.readstart ≤ announced t.packet)
    (h : headerLoop garbage t = some r) : Completes (partialFrame t) r := by
  unfold headerLoop at h
  unfold partialFrame
  cases hp : t.payload with
  | some payload =>
    rw [hp] at h
    obtain ⟨hsize, hlen, hread⟩ := hpayload payload hp
    cases h
    exact payloadLoop_completes _ _ hpacket hconnected hsize hlen hread
  | none =>
    rw [hp] at h
    dsimp only at h ⊢
    by_cases hmore : t.readstart < 128
    · rw [if_pos hmore] at h
      cases h
      refine ⟨⟨hpacket, fun _ => hmore, ?_, fun _ => ⟨hconnected, rfl⟩, ?_⟩, hconnected, by simp, ?_⟩
      · intro p hp'
        cases hp'
      · intro h
        cases h
      · simp [encode, partialFrame]
    · -- the header is complete, and the payload begins
      rw [if_neg hmore] at h
      have hall : t.readstart = t.packet.length := by
        have := hheader hp
        omega
      by_cases hsize : 2 * announced t.packet < 2 ^ 32
      · rw [payloadSizeOf_eq hsize, malloc_nat] at h
        cases h
        have hdone := payloadLoop_completes { t with readstart := 0 }
          ((List.range (announced t.packet)).map garbage) hpacket hconnected hsize
          (by simp) (Nat.zero_le _)
        rw [List.take_zero, List.append_nil] at hdone
        rw [hall, List.take_length]
        exact hdone
      · obtain ⟨f, hf⟩ := malloc_signed_fault garbage (byteutilsGetInt_lt t.packet 0) hsize
        rw [payloadSizeOf, hf] at h
        cases h

theorem connections_append (calls : List MirrorCall) (call : MirrorCall) :
    connections (calls ++ [call]) = connectionsStep (connections calls) call := by
  simp [connections]

/-- A step that neither opens a connection nor receives anything keeps the bytes read. -/
theorem reading_same {calls : List MirrorCall} {call : MirrorCall} {processed : List Frame}
    {t t' : MirrorThread} (h : Reading calls processed t)
    (hcall : connectionsStep (connections calls) call = connections calls)
    (hconnected : t'.connected = true → t.connected = true) (hin : InFrame t')
    (hpart : partialFrame t' = partialFrame t) :
    Reading (calls ++ [call]) (processed ++ []) t' := by
  have hconns : connections (calls ++ [call]) = connections calls := by
    rw [connections_append, hcall]
  refine ⟨hin, fun hc => ?_, ?_⟩
  · rw [hconns]
    exact h.opened (hconnected hc)
  · rw [hconns, hpart, List.append_nil]
    exact h.frames

/-- The thread may stop or go back to `select` anywhere. -/
theorem InFrame.move {t : MirrorThread} (h : InFrame t) {point : MirrorPoint}
    (hpoint : point = .select ∨ point = .exited) : InFrame { t with point := point } := by
  refine ⟨h.packet, h.header, h.payload, fun hp => ?_, fun hp => ?_⟩
  · rcases hpoint with hpoint | hpoint <;> exact absurd (hpoint.symm.trans hp) (by decide)
  · rcases hpoint with hpoint | hpoint <;> exact absurd (hpoint.symm.trans hp) (by decide)

theorem reading_accepted {calls : List MirrorCall} {processed : List Frame} {t : MirrorThread}
    (h : Reading calls processed t) (hselect : t.point = .select) (hclosed : t.connected = false) :
    Reading (calls ++ [.accepted]) (processed ++ [])
      { t with connected := true, readstart := 0 } := by
  have hnone : t.payload = none := by
    cases hp : t.payload with
    | none => rfl
    | some payload =>
      have := (h.inFrame.payload payload hp).2.2.2
      rw [hclosed] at this
      cases this
  have hconns : connections (calls ++ [.accepted]) = [] :: connections calls :=
    connections_append ..
  refine ⟨⟨h.inFrame.packet, fun _ => by simp, ?_, fun _ => ⟨rfl, hnone⟩, ?_⟩, ?_, [], by simp, ?_, ?_⟩
  · intro p hp
    exact absurd (hnone.symm.trans hp) (by simp)
  · intro hp
    exact absurd (hselect.symm.trans hp) (by decide)
  · intro _
    rw [hconns]
    simp
  · rw [hconns]
    simp [encode, partialFrame, hnone]
  · obtain ⟨done, hdone, hcur, hproc⟩ := h.frames
    -- the frame in progress on the old connection is given up
    have hparse : parseStream ((connections calls).headD []) = done := by
      rw [hcur, parseStream, parse_encode_append (by decide) hdone]
      show done ++ parseStream (partialFrame t) = done
      rw [parse_partialFrame h.inFrame, List.append_nil]
    rw [hconns, hproc, List.append_nil, List.append_nil, List.tail_cons]
    cases hc : connections calls with
    | nil =>
      rw [hc] at hparse
      have hnil : parseStream [] = [] := parse_short_header (by decide)
      rw [List.headD_nil, hnil] at hparse
      simp [← hparse]
    | cons current before =>
      rw [hc, List.headD_cons] at hparse
      simp [hparse]

theorem reading_completes {calls : List MirrorCall} {call : MirrorCall} {processed : List Frame}
    {t : MirrorThread} (chunk : Bytes) {r : MirrorThread × List Frame}
    (hcall : ∀ current before,
      connectionsStep (current :: before) call = (current ++ chunk) :: before)
    (h : Reading calls processed t) (hconnected : t.connected = true)
    (hr : Completes (partialFrame t ++ chunk) r) :
    Reading (calls ++ [call]) (processed ++ r.2) r.1 := by
  obtain ⟨hin, hconn, hwf, hread⟩ := hr
  obtain ⟨done, hdone, hcur, hproc⟩ := h.frames
  obtain ⟨current, before, hc⟩ := List.exists_cons_of_ne_nil (h.opened hconnected)
  have hconns : connections (calls ++ [call]) = (current ++ chunk) :: before := by
    rw [connections_append, hc, hcall]
  rw [hc, List.headD_cons] at hcur
  refine ⟨hin, fun _ => ?_, done ++ r.2, ?_, ?_, ?_⟩
  · rw [hconns]
    simp
  · intro f hf
    rcases List.mem_append.mp hf with hf | hf
    · exact hdone f hf
    · exact hwf f hf
  · rw [hconns, List.headD_cons, hcur, List.append_assoc, hread, encode_append, List.append_assoc]
  · rw [hconns, hproc, hc, List.tail_cons, List.tail_cons, List.append_assoc]

theorem request_header {t : MirrorThread} (h : t.payload = none) : t.request = 128 - t.readstart := by
  rw [MirrorThread.request, h]

theorem request_payload {t : MirrorThread} {payload : Bytes} (h : t.payload = some payload)
    (hsize : 2 * announced t.packet < 2 ^ 32) :
    t.request = announced t.packet - t.readstart := by
  rw [MirrorThread.request, h, payloadSizeOf_eq hsize]
  rfl

theorem partialFrame_header {t : MirrorThread} (h : InFrame t) (hp : t.payload = none)
    (chunk : Bytes) :
    partialFrame { t with packet := writeAt t.packet t.readstart chunk
                          readstart := t.readstart + chunk.length } =
      partialFrame t ++ chunk := by
  have hread := h.header hp
  simp only [partialFrame, hp]
  rw [take_writeAt (by rw [h.packet]; omega)]

theorem reading_step {garbage : ℕ → UInt8} {calls : List MirrorCall} {processed : List Frame}
    {t : MirrorThread} {call : MirrorCall} {r : MirrorThread × List Frame}
    (h : Reading calls processed t) (hr : mirrorStep garbage t call = some r) :
    Reading (calls ++ [call]) (processed ++ r.2) r.1 := by
  have hin := h.inFrame
  cases call with
  | stopped | selectError =>
    simp only [mirrorStep, Option.ite_none_right_eq_some, Option.some.injEq] at hr
    obtain ⟨-, rfl⟩ := hr
    exact reading_same h rfl id (hin.move (Or.inr rfl)) rfl
  | selectTimeout =>
    simp only [mirrorStep, Option.ite_none_right_eq_some, Option.some.injEq] at hr
    obtain ⟨-, rfl⟩ := hr
    exact reading_same h rfl id hin rfl
  | acceptError =>
    simp only [mirrorStep, Option.ite_none_right_eq_some, Option.some.injEq] at hr
    obtain ⟨-, rfl⟩ := hr
    exact reading_same h rfl id (hin.move (Or.inr rfl)) rfl
  | accepted =>
    simp only [mirrorStep, Option.ite_none_right_eq_some, Option.some.injEq] at hr
    obtain ⟨⟨hselect, hclosed⟩, rfl⟩ := hr
    exact reading_accepted h hselect hclosed
  | readable =>
    simp only [mirrorStep, Option.ite_none_right_eq_some] at hr
    obtain ⟨⟨-, hconnected⟩, hr⟩ := hr
    have hdone := headerLoop_completes hin.packet hconnected (fun hp => (hin.header hp).le)
      (fun p hp => ⟨(hin.payload p hp).1, (hin.payload p hp).2.1, (hin.payload p hp).2.2.1.le⟩) hr
    apply reading_completes [] (fun current before => ?_) h hconnected
    · rw [List.append_nil]
      exact hdone
    · rw [List.append_nil]
      rfl
  | recv result =>
    cases result with
    | data chunk =>
      simp only [mirrorStep, Option.ite_none_left_eq_some, not_or, not_lt] at hr
      obtain ⟨⟨-, hchunk⟩, hr⟩ := hr
      cases hpoint : t.point with
      | select => simp [hpoint] at hr
      | exited => simp [hpoint] at hr
      | headerRecv =>
        obtain ⟨hconnected, hp⟩ := hin.headerRecv hpoint
        have hr : headerLoop garbage { t with packet := writeAt t.packet t.readstart chunk
                                              readstart := t.readstart + chunk.length } = some r := by
          simpa only [hpoint, hp] using hr
        rw [request_header hp] at hchunk
        have hread := hin.header hp
        apply reading_completes _ (fun _ _ => rfl) h hconnected
        rw [← partialFrame_header hin hp chunk]
        refine headerLoop_completes ?_ hconnected (fun _ => ?_) (fun p hp' => ?_) hr
        · show (writeAt t.packet t.readstart chunk).length = 128
          rw [length_writeAt (by rw [hin.packet]; omega), hin.packet]
        · show t.readstart + chunk.length ≤ 128
          omega
        · exact absurd (hp.symm.trans hp') (by simp)
      | payloadRecv =>
        obtain ⟨payload, hp⟩ := Option.ne_none_iff_exists'.mp (hin.payloadRecv hpoint)
        obtain ⟨hsize, hlen, hread, hconnected⟩ := hin.payload payload hp
        simp only [hpoint, hp, Option.some.injEq] at hr
        subst hr
        rw [request_payload hp hsize] at hchunk
        apply reading_completes _ (fun _ _ => rfl) h hconnected
        have hdone := payloadLoop_completes { t with readstart := t.readstart + chunk.length }
          (writeAt payload t.readstart chunk) hin.packet hconnected hsize
          (by rw [length_writeAt (by omega), hlen])
          (by show t.readstart + chunk.length ≤ announced t.packet; omega)
        have hpart : partialFrame t ++ chunk =
            t.packet ++ (writeAt payload t.readstart chunk).take (t.readstart + chunk.length) := by
          rw [take_writeAt (by omega), partialFrame, hp, List.append_assoc]
        rw [hpart]
        exact hdone
    | closed =>
      simp only [mirrorStep] at hr
      cases hpoint : t.point with
      | select => simp [hpoint] at hr
      | exited => simp [hpoint] at hr
      | headerRecv =>
        obtain ⟨hconnected, hp⟩ := hin.headerRecv hpoint
        simp only [hpoint, Option.some.injEq] at hr
        subst hr
        have hmove : InFrame { t with point := .select } := hin.move (Or.inl rfl)
        refine reading_same h rfl (fun hc => hconnected) ⟨hmove.packet, hmove.header, ?_, ?_, ?_⟩ rfl
        · intro p hp'
          exact absurd (hp.symm.trans hp') (by simp)
        · intro hc
          cases hc
        · intro hc
          cases hc
      | payloadRecv =>
        simp only [hpoint, Option.some.injEq] at hr
        subst hr
        exact reading_same h rfl id (hin.move (Or.inr rfl)) rfl
    | again =>
      simp only [mirrorStep] at hr
      cases hpoint : t.point with
      | select => simp [hpoint] at hr
      | exited => simp [hpoint] at hr
      | headerRecv | payloadRecv =>
        simp only [hpoint, Option.some.injEq] at hr
        subst hr
        exact reading_same h rfl id (hin.move (Or.inl rfl)) rfl
    | error =>
      simp only [mirrorStep] at hr
      cases hpoint : t.point with
      | select => simp [hpoint] at hr
      | exited => simp [hpoint] at hr
      | headerRecv | payloadRecv =>
        simp only [hpoint, Option.some.injEq] at hr
        subst hr
        exact reading_same h rfl id (hin.move (Or.inr rfl)) rfl

/-! ## Where the thread ends, and why it does not stick -/

/-- The calls after which the thread leaves its loop. The peer's close is one only within a
payload. -/
def Ends (t : MirrorThread) (call : MirrorCall) : Prop :=
  call = .stopped ∨ call = .selectError ∨ call = .acceptError ∨ call = .recv .error ∨
    (call = .recv .closed ∧ t.payload ≠ none)

theorem payloadLoop_point (t : MirrorThread) (payload : Bytes) :
    (payloadLoop t payload).1.point ≠ .exited := by
  unfold payloadLoop
  by_cases h : (t.readstart : ℤ) < payloadSizeOf t.packet
  · rw [if_pos h]
    exact MirrorPoint.noConfusion
  · rw [if_neg h]
    exact MirrorPoint.noConfusion

theorem headerLoop_point {garbage : ℕ → UInt8} {t : MirrorThread} {r : MirrorThread × List Frame}
    (h : headerLoop garbage t = some r) : r.1.point ≠ .exited := by
  unfold headerLoop at h
  cases hp : t.payload with
  | some payload =>
    rw [hp] at h
    cases h
    exact payloadLoop_point t payload
  | none =>
    rw [hp] at h
    dsimp only at h
    by_cases hmore : t.readstart < 128
    · rw [if_pos hmore] at h
      cases h
      exact MirrorPoint.noConfusion
    · rw [if_neg hmore] at h
      cases hm : malloc garbage (payloadSizeOf t.packet) with
      | error f =>
        rw [hm] at h
        cases h
      | ok payload =>
        rw [hm] at h
        cases h
        exact payloadLoop_point _ payload

theorem mirrorStep_exited {garbage : ℕ → UInt8} {t : MirrorThread} {call : MirrorCall}
    {r : MirrorThread × List Frame} (hin : InFrame t) (hr : mirrorStep garbage t call = some r)
    (hexit : r.1.point = .exited) : Ends t call := by
  unfold Ends
  cases call with
  | stopped | selectError | acceptError => simp
  | selectTimeout =>
    simp only [mirrorStep, Option.ite_none_right_eq_some, Option.some.injEq] at hr
    obtain ⟨hselect, rfl⟩ := hr
    exact absurd (hselect.symm.trans hexit) (by decide)
  | accepted =>
    simp only [mirrorStep, Option.ite_none_right_eq_some, Option.some.injEq] at hr
    obtain ⟨⟨hselect, -⟩, rfl⟩ := hr
    exact absurd (hselect.symm.trans hexit) (by decide)
  | readable =>
    simp only [mirrorStep, Option.ite_none_right_eq_some] at hr
    exact absurd hexit (headerLoop_point hr.2)
  | recv result =>
    cases result with
    | error => simp
    | again =>
      simp only [mirrorStep] at hr
      cases hpoint : t.point <;> simp only [hpoint] at hr <;> cases hr <;> cases hexit
    | closed =>
      simp only [mirrorStep] at hr
      cases hpoint : t.point with
      | select | exited => simp [hpoint] at hr
      | headerRecv =>
        simp only [hpoint, Option.some.injEq] at hr
        subst hr
        cases hexit
      | payloadRecv => simp [hin.payloadRecv hpoint]
    | data chunk =>
      simp only [mirrorStep, Option.ite_none_left_eq_some] at hr
      obtain ⟨-, hr⟩ := hr
      cases hpoint : t.point with
      | select | exited => simp [hpoint] at hr
      | headerRecv =>
        cases hp : t.payload with
        | some payload => simp [hpoint, hp] at hr
        | none =>
          simp only [hpoint, hp] at hr
          exact absurd hexit (headerLoop_point hr)
      | payloadRecv =>
        cases hp : t.payload with
        | none => simp [hpoint, hp] at hr
        | some payload =>
          simp only [hpoint, hp, Option.some.injEq] at hr
          subst hr
          exact absurd hexit (payloadLoop_point _ _)

/-- What can happen next on a connection whose peer still sends `rest`; a new one is accepted once the
old one is closed. -/
def Deliverable (t : MirrorThread) (rest : Bytes) : MirrorCall → Prop
  | .selectTimeout => t.point = .select
  | .accepted => t.point = .select ∧ t.connected = false
  | .readable => t.point = .select ∧ t.connected = true
  | .recv .again | .recv .closed => t.point = .headerRecv ∨ t.point = .payloadRecv
  | .recv (.data chunk) => (t.point = .headerRecv ∨ t.point = .payloadRecv) ∧ chunk ≠ [] ∧
      chunk.length ≤ t.request ∧ chunk <+: rest
  | _ => False

theorem headerLoop_isSome {garbage : ℕ → UInt8} {t : MirrorThread}
    (hsize : t.payload = none → 128 ≤ t.readstart → 2 * announced t.packet < 2 ^ 32) :
    (headerLoop garbage t).isSome := by
  unfold headerLoop
  cases hp : t.payload with
  | some payload => rfl
  | none =>
    dsimp only
    by_cases hmore : t.readstart < 128
    · rw [if_pos hmore]
      rfl
    · rw [if_neg hmore, payloadSizeOf_eq (hsize hp (by omega)), malloc_nat]
      rfl

/-- On a stream of frames the thread can take whatever `recv` returns. -/
theorem mirrorStep_isSome {garbage : ℕ → UInt8} {calls : List MirrorCall} {processed : List Frame}
    {t : MirrorThread} {call : MirrorCall} {frames : List Frame} {rest : Bytes}
    (h : Reading calls processed t) (hframes : ∀ f ∈ frames, SentFrame f)
    (hstream : (connections calls).headD [] ++ rest = encode frames)
    (hcall : Deliverable t rest call) : (mirrorStep garbage t call).isSome := by
  have hin := h.inFrame
  cases call with
  | stopped | selectError | acceptError => exact hcall.elim
  | accepted =>
    obtain ⟨hselect, hclosed⟩ := hcall
    simp [mirrorStep, hselect, hclosed]
  | selectTimeout =>
    have hselect : t.point = .select := hcall
    simp [mirrorStep, hselect]
  | readable =>
    obtain ⟨hselect, hconnected⟩ := hcall
    simp only [mirrorStep, hselect, hconnected, and_self, if_true]
    apply headerLoop_isSome
    intro hp hread
    have := hin.header hp
    omega
  | recv result =>
    cases result with
    | error => exact hcall.elim
    | again | closed =>
      rcases hcall with hpoint | hpoint
      · simp [mirrorStep, hpoint]
      · simp [mirrorStep, hpoint]
    | data chunk =>
      obtain ⟨hpoint, hne, hlen, later, rfl⟩ := hcall
      simp only [mirrorStep]
      rw [if_neg (by rintro (h | h); exact hne h; omega)]
      rcases hpoint with hpoint | hpoint
      · obtain ⟨-, hp⟩ := hin.headerRecv hpoint
        simp only [hpoint, hp]
        apply headerLoop_isSome
        intro _ hfull
        -- the header is complete: it is the header of the next frame of the stream
        obtain ⟨done, hdone, hcur, -⟩ := h.frames
        have hpart := partialFrame_header hin hp chunk
        have hheader : partialFrame { t with
            packet := writeAt t.packet t.readstart chunk
            readstart := t.readstart + chunk.length } = writeAt t.packet t.readstart chunk := by
          have hread := hin.header hp
          rw [request_header hp] at hlen
          simp only [partialFrame, hp]
          apply List.take_of_length_le
          rw [length_writeAt (by rw [hin.packet]; omega), hin.packet]
          exact hfull
        rw [hcur, List.append_assoc, ← List.append_assoc _ chunk, ← hpart, hheader] at hstream
        obtain ⟨next, rfl, hnext⟩ := encode_append_eq (by decide) hdone
          (fun f hf => (hframes f hf).wellFormed) hstream
        have hlen128 : (writeAt t.packet t.readstart chunk).length = 128 := by
          have hread := hin.header hp
          rw [request_header hp] at hlen
          rw [length_writeAt (by rw [hin.packet]; omega), hin.packet]
        cases next with
        | nil =>
          have := congrArg List.length hnext
          simp only [List.length_append, encode, List.length_nil] at this
          omega
        | cons f next =>
          have hf := hframes f (by simp)
          simp only [encode, List.append_assoc] at hnext
          obtain ⟨heq, -⟩ := List.append_inj hnext (by rw [hlen128, hf.wellFormed.1])
          show 2 * announced (writeAt t.packet t.readstart chunk) < 2 ^ 32
          rw [heq]
          exact hf.size
      · obtain ⟨payload, hp⟩ := Option.ne_none_iff_exists'.mp (hin.payloadRecv hpoint)
        simp only [hpoint, hp, Option.isSome_some]

/-- When the peer closes within a header, the thread waits for a new connection and reads it from
its first byte. -/
theorem mirrorStep_reopened (garbage : ℕ → UInt8) {t : MirrorThread} (hpoint : t.point = .headerRecv) :
    run (mirrorStep garbage) t [.recv .closed, .accepted] =
      some { t with point := .select, connected := true, readstart := 0 } := by
  have hclosed : mirrorStep garbage t (.recv .closed) =
      some ({ t with point := .select, connected := false }, []) := by
    simp only [mirrorStep, hpoint]
  rw [run, hclosed]
  rfl

/-! ## Every run -/

/-- However the bytes arrive, the frames handed on are those of each connection's stream read in
one piece. The thread leaves its loop only when it is stopped, after an error, or when the peer
closes within a payload; on a stream of frames it can always go on, and what it has handed on is
the beginning of the stream, and all of it once all of it was received. After a close within a header
it goes on with a new connection. -/
theorem mirrorThread_frames (garbage : ℕ → UInt8) {calls : List MirrorCall} {t : MirrorThread}
    (h : run (mirrorStep garbage) mirrorThreadInit calls = some t) :
    let processed := events (mirrorStep garbage) mirrorThreadInit calls
    let before := (connections calls).tail.reverse.flatMap parseStream
    let current := (connections calls).headD []
    processed = before ++ parseStream current ∧
    (t.point = .exited → ∃ past s last, calls = past ++ [last] ∧
      run (mirrorStep garbage) mirrorThreadInit past = some s ∧ Ends s last) ∧
    ∀ (frames : List Frame) (rest : Bytes), (∀ f ∈ frames, SentFrame f) →
      current ++ rest = encode frames →
      (∃ done, done <+: frames ∧ processed = before ++ done) ∧
      (rest = [] → processed = before ++ frames) ∧
      (∀ call, Deliverable t rest call → (mirrorStep garbage t call).isSome) ∧
      (t.point = .headerRecv →
        (run (mirrorStep garbage) t [.recv .closed, .accepted]).isSome) := by
  intro processed before current
  have hreading : Reading calls processed t :=
    invariant_history (I := Reading) (fun _ _ _ _ _ h hr => reading_step h hr) reading_init h
  obtain ⟨done, hdone, hcur, hproc⟩ := hreading.frames
  have hparse : parseStream current = done := by
    show parseStream ((connections calls).headD []) = done
    rw [hcur, parseStream, parse_encode_append (by decide) hdone]
    show done ++ parseStream (partialFrame t) = done
    rw [parse_partialFrame hreading.inFrame, List.append_nil]
  refine ⟨by rw [hparse]; exact hproc, ?_, ?_⟩
  · intro hexit
    rcases List.eq_nil_or_concat calls with rfl | ⟨past, last, rfl⟩
    · cases h
      cases hexit
    · rw [List.concat_eq_append] at h ⊢
      rw [run_append, Option.bind_eq_some_iff] at h
      obtain ⟨s, hs, hlast⟩ := h
      obtain ⟨r, hr, hrt⟩ := run_cons_eq_some.mp hlast
      cases hrt
      have hpast : Reading past (events (mirrorStep garbage) mirrorThreadInit past) s :=
        invariant_history (I := Reading) (fun _ _ _ _ _ h hr => reading_step h hr) reading_init hs
      exact ⟨past, s, last, rfl, hs, mirrorStep_exited hpast.inFrame hr hexit⟩
  · intro frames rest hframes hstream
    have hwf : ∀ f ∈ frames, WellFormed 128 announced f := fun f hf => (hframes f hf).wellFormed
    refine ⟨⟨done, ?_, hproc⟩, ?_, fun call hcall => mirrorStep_isSome hreading hframes hstream hcall,
      fun hpoint => by rw [mirrorStep_reopened garbage hpoint]; rfl⟩
    · have hsplit : encode done ++ (partialFrame t ++ rest) = encode frames := by
        rw [← hstream, ← List.append_assoc, ← hcur]
      obtain ⟨later, rfl, -⟩ := encode_append_eq (by decide) hdone hwf hsplit
      exact List.prefix_append done later
    · rintro rfl
      rw [List.append_nil] at hstream
      have hall : done = frames := by
        rw [← hparse, hstream]
        exact parse_encode (by decide) hwf
      rw [← hall]
      exact hproc

/-- A frame with a payload of five bytes arrives in four pieces with timeouts between them. The peer
then closes within a header, and a frame without payload arrives on a second connection. -/
theorem mirrorThread_frames_reopened :
    let header := 5 :: List.replicate 127 0
    let calls : List MirrorCall := [.accepted, .readable, .recv (.data (header.take 100)),
      .recv .again, .selectTimeout, .readable, .recv (.data (header.drop 100)),
      .recv (.data [1, 2]), .recv .again, .readable, .recv (.data [3, 4, 5]),
      .readable, .recv (.data [9, 0, 0]), .recv .closed,
      .accepted, .readable, .recv (.data (List.replicate 128 0))]
    events (mirrorStep fun _ => 0) mirrorThreadInit calls =
        [(header, [1, 2, 3, 4, 5]), (List.replicate 128 0, [])] ∧
      parseStream (header ++ [1, 2, 3, 4, 5] ++ [9, 0, 0]) ++ parseStream (List.replicate 128 0) =
        [(header, [1, 2, 3, 4, 5]), (List.replicate 128 0, [])] := by
  intro header calls
  have hevents : events (mirrorStep fun _ => 0) mirrorThreadInit calls =
      [(header, [1, 2, 3, 4, 5]), (List.replicate 128 0, [])] := by decide +kernel
  obtain ⟨t, hrun⟩ := Option.isSome_iff_exists.mp
    (show (run (mirrorStep fun _ => 0) mirrorThreadInit calls).isSome = true by decide +kernel)
  have hframes := (mirrorThread_frames (fun _ => 0) hrun).1
  have hconnections : connections calls =
      [List.replicate 128 0, header ++ [1, 2, 3, 4, 5] ++ [9, 0, 0]] := by decide +kernel
  refine ⟨hevents, ?_⟩
  rw [hevents, hconnections, List.headD_cons, List.tail_cons, List.reverse_singleton,
    List.flatMap_singleton] at hframes
  exact hframes.symm

end WinAirPlay
