import WinAirPlay.RaopBuffer.Calls
import WinAirPlay.RaopBuffer.Delivery
import WinAirPlay.Rtp.Agreement

/-! # The drain loop without resends

Every session asks for no resends, since the control port of the client is taken to be 0. Then
`raop_buffer_dequeue` passes over a missing packet and returns `NULL`, which also ends the drain loop:
a packet that comes 1 to 31 numbers after the next expected one stays in the buffer.

`Playback` is the audio thread with what its buffer has accepted and what it has rendered.
-/

namespace WinAirPlay
open Foundations.ByteBuffer Foundations.SerialNumber Foundations.Transition
set_option autoImplicit false

structure Playback where
  rtp : RaopRtp
  accepted : List (BitVec 16 × AacDecodeStruct)
  rendered : List AacDecodeStruct

/-- What `audio_process` is to get of a packet. -/
def playedPacket (P : Openssl) (b : RaopBuffer) (packet : Enqueued) : AacDecodeStruct where
  dataLen := packet.datalen.toNat - 12
  data := raopBufferDecrypt P b packet.data (packet.datalen.toNat - 12)
  pts := packet.timestamp

/-- The packet and its number, if the buffer accepts it. -/
def acceptedPacket (P : Openssl) (rtpScaled : UInt32 → UInt64) (rtp : RaopRtp) (label : RtpLabel) :
    List (BitVec 16 × AacDecodeStruct) :=
  match arrival rtpScaled rtp label with
  | some (packet, entry) =>
    if (enqueuePacket P rtp.buffer packet entry).ret = 1 then
      [(packetSeqnum packet.data, playedPacket P rtp.buffer packet)]
    else []
  | none => []

/-- A datagram of the data socket, up to the end of the drain loop. -/
def playbackStep (P : Openssl) (rtpScaled : UInt32 → UInt64) (s : Playback)
    (datagram : Received × Surroundings) : Option (Playback × List Empty) :=
  let r := receiveData P rtpScaled s.rtp datagram.1 datagram.2
  match r.1.point with
  | .top =>
    some (⟨r.1, s.accepted ++ acceptedPacket P rtpScaled s.rtp (.receiveData datagram.1 datagram.2),
      s.rendered ++ renderedPackets r.2⟩, [])
  -- the thread has not come to the drain loop
  | _ => none

/-- All that was accepted has been rendered, each packet after the ones that precede it. -/
structure NothingHeld (s : Playback) : Prop where
  unfilled : ∀ i, (s.rtp.buffer.entries i).filled = false
  rendered : s.rendered = s.accepted.map Prod.snd
  inOrder : (s.accepted.map Prod.fst).IsChain fun a b => 0 < ahead a b ∧ ahead a b ≤ 2 ^ 15

/-- A packet that the buffer takes is the first one, the next one, or so far ahead that it flushes
the buffer. -/
def LeavesNoHole (rtpScaled : UInt32 → UInt64) (s : Playback)
    (datagram : Received × Surroundings) : Prop :=
  ∀ packet entry,
    arrival rtpScaled s.rtp (.receiveData datagram.1 datagram.2) = some (packet, entry) →
      Enters s.rtp.buffer packet →
        s.rtp.buffer.isEmpty = true ∨ packetSeqnum packet.data = s.rtp.buffer.firstSeqnum ∨
          0 ≤ seqnumCmp (packetSeqnum packet.data) (s.rtp.buffer.firstSeqnum + 32#16)

/-! ## The drain loop on a buffer with at most one packet -/

theorem drain_unfilled {b : RaopBuffer} (hb : Window b) (hnone : ∀ i, (b.entries i).filled = false)
    (noResend : Bool) : drain noResend b = ([], b) := by
  obtain hsame | ⟨he, hpos, -, -⟩ | ⟨-, -, hfilled, -⟩ := dequeue_cases hb 0 0 noResend
  · rw [drain_none (by rw [hsame]), hsame]
  · exact absurd ((hnone _).symm.trans (hb.newest he hpos)) (by decide)
  · exact absurd ((hnone _).symm.trans hfilled) (by decide)

/-- Without resends the first entry is taken or passed over, never waited for. -/
theorem dequeue_noResend {b : RaopBuffer} (hb : Window b) (he : b.isEmpty = false)
    (hpos : 0 < span b) (length : ℕ) (timestamp : UInt64) :
    raopBufferDequeue b length timestamp true =
      if (b.entries (slot b.firstSeqnum)).filled = false then
        ⟨none, length, timestamp, skipped b⟩
      else
        ⟨(b.entries (slot b.firstSeqnum)).payloadData,
          (b.entries (slot b.firstSeqnum)).payloadSize,
          (b.entries (slot b.firstSeqnum)).timestamp, taken b⟩ := by
  have hcount := entryCount_eq (hb.span_le he)
  have hsome : ¬ (b.isEmpty = true ∨ entryCount b ≤ 0) := by
    rw [he, hcount]
    simpa using Nat.ne_of_gt hpos
  have hwait : ¬ (true = false ∧ (b.entries (slot b.firstSeqnum)).filled = false ∧
      entryCount b < raopBufferLength) := fun h => Bool.noConfusion h.1
  unfold raopBufferDequeue
  simp only [if_neg hsome, if_neg hwait]
  rfl

theorem drain_single {b : RaopBuffer} (hb : Window b) (he : b.isEmpty = false) (hpos : 0 < span b)
    (honly : ∀ i, i ≠ slot b.firstSeqnum → (b.entries i).filled = false) {payload : Block}
    (hfilled : (b.entries (slot b.firstSeqnum)).filled = true)
    (hpayload : (b.entries (slot b.firstSeqnum)).payloadData = some payload) :
    drain true b = ([⟨(b.entries (slot b.firstSeqnum)).payloadSize, payload.bytes,
      (b.entries (slot b.firstSeqnum)).timestamp⟩], freeBlock (taken b) payload) := by
  have htake := dequeue_noResend hb he hpos 0 0
  rw [if_neg (by simp [hfilled]), hpayload] at htake
  have hnone : ∀ i, ((taken b).entries i).filled = false := by
    intro i
    by_cases hi : i = slot b.firstSeqnum
    · simp [taken, hi, takeEntry]
    · simp only [taken, Function.update_of_ne hi]
      exact honly i hi
  have hrest := drain_unfilled (window_freeBlock (window_taken hb he hpos) payload) hnone true
  have hdata : (raopBufferDequeue b 0 0 true).data = some payload := by rw [htake]
  rw [drain_some hdata, htake, hrest]

theorem drain_hole {b : RaopBuffer} (hb : Window b) (he : b.isEmpty = false) (hpos : 0 < span b)
    (hhole : (b.entries (slot b.firstSeqnum)).filled = false) :
    drain true b = ([], skipped b) := by
  have hskip := dequeue_noResend hb he hpos 0 0
  rw [if_pos hhole] at hskip
  rw [drain_none (by rw [hskip]), hskip]

/-! ## Enqueue and drain -/

section
variable {P : Openssl} {b : RaopBuffer} {packet : Enqueued} {entry : RaopBufferEntry}

/-- What accepting a packet leaves in a buffer that held nothing. -/
structure StoredAlone (P : Openssl) (b : RaopBuffer) (packet : Enqueued) (b' : RaopBuffer) :
    Prop where
  window : Window b'
  nonempty : b'.isEmpty = false
  span_pos : 0 < span b'
  only : ∀ i, i ≠ slot (packetSeqnum packet.data) → (b'.entries i).filled = false
  filled : (b'.entries (slot (packetSeqnum packet.data))).filled = true
  entry : decoderInput (b'.entries (slot (packetSeqnum packet.data))) = playedPacket P b packet
  near : ahead b'.firstSeqnum (packetSeqnum packet.data) < raopBufferLength
  first : b'.firstSeqnum = packetSeqnum packet.data ↔
    b.isEmpty = true ∨ packetSeqnum packet.data = b.firstSeqnum ∨
      0 ≤ seqnumCmp (packetSeqnum packet.data) (b.firstSeqnum + 32#16)

theorem storedAlone (hb : Window b) (hnone : ∀ i, (b.entries i).filled = false)
    (hret : (enqueuePacket P b packet entry).ret = 1)
    (hacc : Accepts P b packet.data packet.datalen packet.timestamp entry
      (enqueuePacket P b packet entry)) :
    StoredAlone P b packet (enqueuePacket P b packet entry).raopBuffer := by
  set r := enqueuePacket P b packet entry with hr
  set s := packetSeqnum packet.data with hs
  set base := storeBase b s r.flushed with hbase
  obtain ⟨hwindow, -, hempty, hnear⟩ := storeBase_ready hb hacc
  have hnone : ∀ i, (base.entries i).filled = false := by
    intro i
    rw [hbase]
    cases r.flushed with
    | true => exact raopBufferFlush_filled b _ i
    | false => exact hnone i
  have hresult : r.raopBuffer = (storePacket P base packet.data (packet.datalen.toNat - 12) s
      packet.timestamp entry r.flushed).raopBuffer := congrArg EnqueueResult.raopBuffer hacc.result
  have hw' : Window r.raopBuffer := window_enqueue P hb _ _ _ _
  have hself : r.raopBuffer.entries (slot s) =
      { filled := true
        seqnum := s
        timestamp := packet.timestamp
        payloadSize := packet.datalen.toNat - 12
        payloadData := some ⟨base.heap.next,
          raopBufferDecrypt P base packet.data (packet.datalen.toNat - 12)⟩ } := by
    rw [hresult]
    simp [storePacket]
  have hother : ∀ i, i ≠ slot s → r.raopBuffer.entries i = base.entries i := fun i hi => by
    rw [hresult]
    simp [storePacket, Function.update_of_ne hi]
  have hfirst : r.raopBuffer.firstSeqnum = if base.isEmpty then s else base.firstSeqnum := by
    rw [hresult]
    rfl
  have he' : r.raopBuffer.isEmpty = false := by
    rw [hresult]
    rfl
  have hahead := (hw'.place he' (slot s) (by rw [hself])).2
  rw [hself] at hahead
  refine ⟨hw', he', lt_of_le_of_lt (Nat.zero_le _) hahead, fun i hi => ?_,
    congrArg RaopBufferEntry.filled hself, ?_, lt_of_lt_of_le hahead (hw'.span_le he'), ?_⟩
  · rw [hother i hi]
    exact hnone i
  · rw [show r.raopBuffer.entries (slot (packetSeqnum packet.data)) = _ from hself, playedPacket,
      ← storeBase_decrypt P b s r.flushed]
    rfl
  · rw [hfirst, hempty]
    cases he : b.isEmpty with
    | true => exact iff_of_true rfl (Or.inl rfl)
    | false =>
      have hflush := (enqueue_stored hret).2
      cases hf : r.flushed with
      | true =>
        have hbeyond := of_decide_eq_true (hflush.symm.trans hf)
        have hmoved : base.firstSeqnum = s := by
          rw [hbase, hf]
          exact (raopBufferFlush_seqnum b s).2.1
        exact iff_of_true hmoved (Or.inr (Or.inr hbeyond))
      | false =>
        have hwithin := of_decide_eq_false (hflush.symm.trans hf)
        have hsame : base.firstSeqnum = b.firstSeqnum := by
          rw [hbase, hf]
          rfl
        refine ⟨fun h => Or.inr (Or.inl (h.symm.trans hsame)), fun h => hsame.trans ?_⟩
        exact ((h.resolve_left (by decide)).resolve_right hwithin).symm

theorem drain_played {b' : RaopBuffer} (h : StoredAlone P b packet b')
    (hfirst : b'.firstSeqnum = packetSeqnum packet.data) :
    ∃ b'', drain true b' = ([playedPacket P b packet], b'') ∧
      (∀ i, (b''.entries i).filled = false) ∧ b''.isEmpty = false ∧
      b''.firstSeqnum = packetSeqnum packet.data + 1#16 := by
  have honly := h.only
  have hfilled := h.filled
  have hentry := h.entry
  rw [← hfirst] at honly hfilled hentry
  obtain ⟨payload, hpayload⟩ := Option.isSome_iff_exists.mp (h.window.payload _ hfilled)
  refine ⟨freeBlock (taken b') payload, ?_, fun i => ?_, h.nonempty, ?_⟩
  · rw [drain_single h.window h.nonempty h.span_pos honly hfilled hpayload, ← hentry, decoderInput,
      hpayload]
    rfl
  · by_cases hi : i = slot b'.firstSeqnum
    · simp [freeBlock, taken, hi, takeEntry]
    · simp only [freeBlock, taken, Function.update_of_ne hi]
      exact honly i hi
  · rw [← hfirst]
    rfl

theorem drain_held {b' : RaopBuffer} (h : StoredAlone P b packet b')
    (hfirst : b'.firstSeqnum ≠ packetSeqnum packet.data) :
    ((drain true b').2.entries (slot (packetSeqnum packet.data))).filled = true := by
  have hne : slot b'.firstSeqnum ≠ slot (packetSeqnum packet.data) := fun hslot =>
    hfirst (eq_of_slot_eq (by simp) h.near hslot)
  rw [drain_hole h.window h.nonempty h.span_pos (h.only _ hne)]
  exact h.filled

end

/-! ## The audio thread -/

section
variable {P : Openssl} {rtpScaled : UInt32 → UInt64}

theorem receiveData_drains {rtp : RaopRtp} {received : Received} {around : Surroundings}
    (hrport : rtp.controlRport = 0)
    (htop : (receiveData P rtpScaled rtp received around).1.point = .top) :
    (arrival rtpScaled rtp (.receiveData received around) = none ∧
      (receiveData P rtpScaled rtp received around).1.buffer = rtp.buffer ∧
      renderedPackets (receiveData P rtpScaled rtp received around).2 = []) ∨
    ∃ packet entry, arrival rtpScaled rtp (.receiveData received around) = some (packet, entry) ∧
      (receiveData P rtpScaled rtp received around).1.buffer =
        (drain true (enqueuePacket P rtp.buffer packet entry).raopBuffer).2 ∧
      renderedPackets (receiveData P rtpScaled rtp received around).2 =
        (drain true (enqueuePacket P rtp.buffer packet entry).raopBuffer).1 := by
  have hno : decide (rtp.controlRport = 0) = true := decide_eq_true hrport
  unfold arrival receiveData at *
  dsimp only at htop ⊢
  generalize recvfrom rtp.packet received = got at htop ⊢
  obtain ⟨array, packetlen⟩ := got
  dsimp only at htop ⊢
  by_cases hlen : 12 ≤ packetlen
  · simp only [if_pos hlen] at htop ⊢
    refine Or.inr ⟨_, _, rfl, ?_⟩
    have hdecode := decodePacket_eq P { rtp with packet := array }
      (dataPacket rtpScaled rtp.clock array packetlen) around.entry around.fill
    split at htop <;> rename_i buffer events heq
    · cases htop
    · cases htop
    · rw [heq] at hdecode
      obtain ⟨rfl, hevents⟩ := Prod.mk.inj hdecode
      have hsilent : renderedPackets events = [] := by
        rw [hevents]
        split_ifs <;> rfl
      obtain ⟨hrendered, -, hplayed⟩ := renderPackets_eq { rtp with
        packet := array
        buffer := (enqueuePacket P rtp.buffer (dataPacket rtpScaled rtp.clock array packetlen)
          around.entry).raopBuffer
        point := .top }
      dsimp only at hrendered hplayed
      rw [hno] at hrendered hplayed
      rw [renderedPackets_append, hsilent]
      exact ⟨hrendered, hplayed⟩
  · simp only [if_neg hlen]
    exact Or.inl ⟨trivial, trivial, rfl⟩

variable {s : Playback} {datagram : Received × Surroundings} {r : Playback × List Empty}

/-- What every datagram keeps. -/
def NoResends (s : Playback) : Prop := Window s.rtp.buffer ∧ s.rtp.controlRport = 0

/-- A step of the thread that comes to the drain loop: the buffer takes nothing and plays what it can,
or it takes a packet. -/
inductive Played (P : Openssl) (rtpScaled : UInt32 → UInt64) (s : Playback)
    (datagram : Received × Surroundings) (s' : Playback) : Prop
  | ignored
      (hnone : arrival rtpScaled s.rtp (.receiveData datagram.1 datagram.2) = none)
      (hbuffer : s'.rtp.buffer = s.rtp.buffer) (haccepted : s'.accepted = s.accepted)
      (hrendered : s'.rendered = s.rendered)
  | refused (packet : Enqueued) (entry : RaopBufferEntry)
      (hsome : arrival rtpScaled s.rtp (.receiveData datagram.1 datagram.2) = some (packet, entry))
      (hret : (enqueuePacket P s.rtp.buffer packet entry).ret ≠ 1)
      (hbuffer : s'.rtp.buffer = (drain true s.rtp.buffer).2) (haccepted : s'.accepted = s.accepted)
      (hrendered : s'.rendered = s.rendered ++ (drain true s.rtp.buffer).1)
  | accepted (packet : Enqueued) (entry : RaopBufferEntry)
      (hsome : arrival rtpScaled s.rtp (.receiveData datagram.1 datagram.2) = some (packet, entry))
      (hret : (enqueuePacket P s.rtp.buffer packet entry).ret = 1)
      (hacc : Accepts P s.rtp.buffer packet.data packet.datalen packet.timestamp entry
        (enqueuePacket P s.rtp.buffer packet entry))
      (hbuffer : s'.rtp.buffer =
        (drain true (enqueuePacket P s.rtp.buffer packet entry).raopBuffer).2)
      (haccepted : s'.accepted =
        s.accepted ++ [(packetSeqnum packet.data, playedPacket P s.rtp.buffer packet)])
      (hrendered : s'.rendered =
        s.rendered ++ (drain true (enqueuePacket P s.rtp.buffer packet entry).raopBuffer).1)

theorem played_of_step (hrport : s.rtp.controlRport = 0)
    (hr : playbackStep P rtpScaled s datagram = some r) :
    Played P rtpScaled s datagram r.1 ∧ r.1.rtp.controlRport = 0 := by
  have hframe := (receiveData_frame P rtpScaled s.rtp datagram.1 datagram.2).controlRport
  unfold playbackStep at hr
  dsimp only at hr
  split at hr
  case h_2 => cases hr
  case h_1 htop =>
    obtain rfl := Option.some.inj hr
    refine ⟨?_, hframe.trans hrport⟩
    obtain ⟨hnone, hbuffer, hrendered⟩ | ⟨packet, entry, hsome, hbuffer, hrendered⟩ :=
      receiveData_drains hrport htop
    · refine .ignored hnone hbuffer ?_ ?_
      · dsimp only
        rw [acceptedPacket, hnone, List.append_nil]
      · dsimp only
        rw [hrendered, List.append_nil]
    · rcases enqueue_cases P s.rtp.buffer packet.data packet.datalen packet.timestamp entry with
        ⟨hret, hsame, -, -⟩ | ⟨hret, hacc⟩
      · have hsame : (enqueuePacket P s.rtp.buffer packet entry).raopBuffer = s.rtp.buffer := hsame
        rw [hsame] at hbuffer hrendered
        refine .refused packet entry hsome hret hbuffer ?_ (congrArg _ hrendered)
        dsimp only
        rw [acceptedPacket, hsome]
        exact (congrArg _ (if_neg hret)).trans (List.append_nil _)
      · refine .accepted packet entry hsome hret hacc hbuffer ?_ (congrArg _ hrendered)
        dsimp only
        rw [acceptedPacket, hsome]
        exact congrArg _ (if_pos hret)

theorem noResends_step (h : NoResends s) (hr : playbackStep P rtpScaled s datagram = some r) :
    NoResends r.1 := by
  obtain ⟨hplayed, hrport⟩ := played_of_step h.2 hr
  refine ⟨?_, hrport⟩
  cases hplayed with
  | ignored hnone hbuffer haccepted hrendered =>
    rw [hbuffer]
    exact h.1
  | refused packet entry hsome hret hbuffer haccepted hrendered =>
    rw [hbuffer]
    exact (waiting_drain h.1 true).2.1
  | accepted packet entry hsome hret hacc hbuffer haccepted hrendered =>
    rw [hbuffer]
    exact (waiting_drain (window_enqueue P h.1 _ _ _ _) true).2.1

/-- Where nothing is held after a step, the step has left no hole. -/
theorem leavesNoHole_of_step (h : NoResends s) (hbefore : NothingHeld s)
    (hr : playbackStep P rtpScaled s datagram = some r) (hafter : NothingHeld r.1) :
    LeavesNoHole rtpScaled s datagram := by
  intro packet entry hsome henters
  have hret : (enqueuePacket P s.rtp.buffer packet entry).ret = 1 :=
    (enters_iff_ret P s.rtp.buffer packet entry).mp henters
  cases (played_of_step h.2 hr).1 with
  | ignored hnone => exact absurd (hnone.symm.trans hsome) (by simp)
  | refused packet' entry' hsome' hret' =>
    obtain ⟨rfl, rfl⟩ := Prod.mk.inj (Option.some.inj (hsome.symm.trans hsome'))
    exact absurd hret hret'
  | accepted packet' entry' hsome' hret' hacc hbuffer =>
    obtain ⟨rfl, rfl⟩ := Prod.mk.inj (Option.some.inj (hsome.symm.trans hsome'))
    have hstored := storedAlone h.1 hbefore.unfilled hret hacc
    refine hstored.first.mp ?_
    by_contra hhole
    have hheld := drain_held hstored hhole
    rw [← hbuffer, hafter.unfilled] at hheld
    cases hheld

/-- Nothing is held, and the last number accepted is the one before `first_seqnum`. -/
structure CaughtUp (s : Playback) : Prop where
  noResends : NoResends s
  nothingHeld : NothingHeld s
  last : (s.accepted.map Prod.fst).getLast? =
    if s.rtp.buffer.isEmpty then none else some (s.rtp.buffer.firstSeqnum - 1#16)

theorem ahead_of_timely {f s : BitVec 16} (h : 0 ≤ seqnumCmp s f) :
    0 < ahead (f - 1#16) s ∧ ahead (f - 1#16) s ≤ 2 ^ 15 := by
  rw [seqnumCmp, signedDiff_nonneg_iff] at h
  unfold ahead at h ⊢
  bv_omega

theorem caughtUp_accepted (h : CaughtUp s) {s' : Playback} {packet : Enqueued}
    {entry : RaopBufferEntry} (hkept : NoResends s')
    (hret : (enqueuePacket P s.rtp.buffer packet entry).ret = 1)
    (hacc : Accepts P s.rtp.buffer packet.data packet.datalen packet.timestamp entry
      (enqueuePacket P s.rtp.buffer packet entry))
    (hguard : s.rtp.buffer.isEmpty = true ∨
      packetSeqnum packet.data = s.rtp.buffer.firstSeqnum ∨
        0 ≤ seqnumCmp (packetSeqnum packet.data) (s.rtp.buffer.firstSeqnum + 32#16))
    (hbuffer : s'.rtp.buffer =
      (drain true (enqueuePacket P s.rtp.buffer packet entry).raopBuffer).2)
    (haccepted : s'.accepted =
      s.accepted ++ [(packetSeqnum packet.data, playedPacket P s.rtp.buffer packet)])
    (hrendered : s'.rendered =
      s.rendered ++ (drain true (enqueuePacket P s.rtp.buffer packet entry).raopBuffer).1) :
    CaughtUp s' := by
  have hstored := storedAlone h.noResends.1 h.nothingHeld.unfilled hret hacc
  obtain ⟨b', hdrain, hnone, hempty, hfirst⟩ := drain_played hstored (hstored.first.mpr hguard)
  rw [hdrain] at hbuffer hrendered
  refine ⟨hkept, ⟨?_, ?_, ?_⟩, ?_⟩
  · rw [hbuffer]
    exact hnone
  · rw [hrendered, haccepted, h.nothingHeld.rendered, List.map_append]
    rfl
  · rw [haccepted, List.map_append]
    refine h.nothingHeld.inOrder.append (List.isChain_singleton _) fun a ha b hb => ?_
    have hlast : some a = if s.rtp.buffer.isEmpty then none
        else some (s.rtp.buffer.firstSeqnum - 1#16) := (Option.mem_def.mp ha).symm.trans h.last
    obtain rfl : packetSeqnum packet.data = b := by simpa using hb
    cases he : s.rtp.buffer.isEmpty with
    | true => simp [he] at hlast
    | false =>
      obtain rfl : a = s.rtp.buffer.firstSeqnum - 1#16 := by simpa [he] using hlast
      exact ahead_of_timely (not_lt.mp (hacc.timely he))
  · rw [haccepted, List.map_append, hbuffer, hempty, hfirst]
    simp

theorem CaughtUp.of_same (h : CaughtUp s) {s' : Playback} (hkept : NoResends s')
    (hbuffer : s'.rtp.buffer = s.rtp.buffer) (haccepted : s'.accepted = s.accepted)
    (hrendered : s'.rendered = s.rendered) : CaughtUp s' := by
  refine ⟨hkept, ⟨?_, ?_, ?_⟩, ?_⟩
  · rw [hbuffer]
    exact h.nothingHeld.unfilled
  · rw [hrendered, haccepted]
    exact h.nothingHeld.rendered
  · rw [haccepted]
    exact h.nothingHeld.inOrder
  · rw [haccepted, hbuffer]
    exact h.last

theorem caughtUp_step (h : CaughtUp s) (hguard : LeavesNoHole rtpScaled s datagram)
    (hr : playbackStep P rtpScaled s datagram = some r) : CaughtUp r.1 := by
  have hkept := noResends_step h.noResends hr
  have hdrain := drain_unfilled h.noResends.1 h.nothingHeld.unfilled true
  cases (played_of_step h.noResends.2 hr).1 with
  | ignored hnone hbuffer haccepted hrendered =>
    exact h.of_same hkept hbuffer haccepted hrendered
  | refused packet entry hsome hret hbuffer haccepted hrendered =>
    rw [hdrain] at hbuffer hrendered
    exact h.of_same hkept hbuffer haccepted (hrendered.trans (List.append_nil _))
  | accepted packet entry hsome hret hacc hbuffer haccepted hrendered =>
    exact caughtUp_accepted h hkept hret hacc
      (hguard packet entry hsome (enters_of_accepts hret hacc)) hbuffer haccepted
      hrendered

end

/-- The thread of an audio stream, as every SETUP starts it. -/
def playbackStart (P : Openssl) (callbacks : RaopCallbacks) (aeskey aesiv ecdhSecret garbage : Bytes) :
    Playback where
  rtp := audioThread P callbacks aeskey aesiv ecdhSecret 0 garbage
  accepted := []
  rendered := []

theorem caughtUp_start (P : Openssl) (callbacks : RaopCallbacks)
    (aeskey aesiv ecdhSecret garbage : Bytes) :
    CaughtUp (playbackStart P callbacks aeskey aesiv ecdhSecret garbage) where
  noResends := ⟨window_init P aeskey aesiv ecdhSecret, rfl⟩
  nothingHeld := ⟨fun _ => rfl, rfl, List.isChain_nil⟩
  last := rfl

/-- After every drain loop nothing is held exactly if no packet leaves a hole. -/
theorem nothingHeld_iff (P : Openssl) (rtpScaled : UInt32 → UInt64) (callbacks : RaopCallbacks)
    (aeskey aesiv ecdhSecret garbage : Bytes) (datagrams : List (Received × Surroundings)) :
    Throughout (playbackStep P rtpScaled) NothingHeld
        (playbackStart P callbacks aeskey aesiv ecdhSecret garbage) datagrams ↔
      Along (playbackStep P rtpScaled) (LeavesNoHole rtpScaled)
        (playbackStart P callbacks aeskey aesiv ecdhSecret garbage) datagrams := by
  have hstart := caughtUp_start P callbacks aeskey aesiv ecdhSecret garbage
  constructor
  · intro h
    exact h.along (fun s datagram r hs hr => noResends_step hs hr)
      (fun s datagram r hs hbefore hr hafter => leavesNoHole_of_step hs hbefore hr hafter)
      hstart.noResends
  · intro h
    have hcaught := throughout_of_along
      (fun s datagram r hs hguard hr => caughtUp_step hs hguard hr) hstart h
    exact hcaught.imp fun _ hs => hs.nothingHeld

/-- One byte of audio that comes in a datagram of its own, taken by the decoder. -/
def shortDatagram (s : BitVec 16) : Received × Surroundings :=
  (.datagram (shortPacket s), ⟨[], emptyEntry, 0, true⟩)

/-- Packet 2 is lost: packet 3 stays in the buffer. -/
theorem nothingHeld_lost :
    ¬ ∀ (P : Openssl) (rtpScaled : UInt32 → UInt64) (callbacks : RaopCallbacks)
      (aeskey aesiv ecdhSecret garbage : Bytes) (datagrams : List (Received × Surroundings)),
      garbage.length = raopPacketLen →
        Throughout (playbackStep P rtpScaled) NothingHeld
          (playbackStart P callbacks aeskey aesiv ecdhSecret garbage) datagrams := by
  intro h
  have hrun := h default (fun t => t.toUInt64) ⟨true, true, true, true, true, true⟩ [] [] []
    (List.replicate raopPacketLen 0) [shortDatagram 1, shortDatagram 3] List.length_replicate
  have hheld := ((hrun.2 _ rfl).2 _ rfl).unfilled (slot 3)
  exact absurd hheld (by decide +kernel)

end WinAirPlay
