import Mathlib.Data.List.Chain
import WinAirPlay.Foundations.SlotTable
import WinAirPlay.Rtp.Events
import WinAirPlay.RaopBuffer.Reordering

/-! # The decoder and the renderer

A packet goes to the decoder as it comes and to `audio_process` out of the jitter buffer. The two
sequences are the same, up to the packets that still wait, as long as every packet the buffer takes
is newer than all before it, none is lost in a flush, and the time stamp the decoder gets, which
`raop_buffer_enqueue` does not set, happens to be that of the packet.

`Agreement` is the invariant: what was decoded is what was rendered followed by what waits, and the
last packet decoded has number `last_seqnum`.
-/

namespace WinAirPlay
open Foundations.ByteBuffer Foundations.SerialNumber Foundations.SlotTable
open Foundations.Transition
set_option autoImplicit false

/-! ## What waits in the buffer -/

/-- The filled slots, from the slot of `first_seqnum` once around the ring. -/
def waitingFrom (first : BitVec 16) (entries : Fin raopBufferLength → RaopBufferEntry) :
    List AacDecodeStruct :=
  (List.range raopBufferLength).filterMap fun k =>
    let entry := entries (slot (numbered first k))
    if entry.filled then some (decoderInput entry) else none

def waiting (b : RaopBuffer) : List AacDecodeStruct := waitingFrom b.firstSeqnum b.entries

theorem slot_numbered_eq_iff {f : BitVec 16} {k j : ℕ} :
    slot (numbered f k) = slot (numbered f j) ↔ k % 32 = j % 32 := by
  refine ⟨slot_numbered, fun h => Fin.ext ?_⟩
  show (numbered f k).toNat % 32 = (numbered f j).toNat % 32
  simp only [numbered, BitVec.toNat_add, BitVec.toNat_ofNat]
  omega

theorem waitingFrom_eq_nil {first : BitVec 16} {entries : Fin raopBufferLength → RaopBufferEntry}
    (h : ∀ i, (entries i).filled = false) : waitingFrom first entries = [] :=
  List.filterMap_eq_nil_iff.mpr fun k _ => by simp [h]

/-- A packet that is stored behind everything that waits, waits last. -/
theorem waitingFrom_store {first s : BitVec 16} {entries : Fin raopBufferLength → RaopBufferEntry}
    {entry : RaopBufferEntry} (hfilled : entry.filled = true) (hs : ahead first s < raopBufferLength)
    (hbefore : ∀ i, (entries i).filled = true →
      ∃ k < ahead first s, slot (numbered first k) = i) :
    waitingFrom first (Function.update entries (slot s) entry) =
      waitingFrom first entries ++ [decoderInput entry] := by
  have hself : slot (numbered first (ahead first s)) = slot s := by rw [numbered_ahead]
  have hother : ∀ j < raopBufferLength, j ≠ ahead first s → slot (numbered first j) ≠ slot s := by
    intro j hj hne
    rw [← hself]
    have hlen : raopBufferLength = 32 := rfl
    exact slot_numbered_ne first hne (by omega) (by omega)
  have hbehind : ∀ j < raopBufferLength, ahead first s ≤ j →
      (entries (slot (numbered first j))).filled = false := by
    intro j hj hle
    by_contra hf
    rw [Bool.not_eq_false] at hf
    obtain ⟨k, hk, hslot⟩ := hbefore _ hf
    have hlen : raopBufferLength = 32 := rfl
    exact slot_numbered_ne first (by omega) (by omega) (by omega) hslot
  refine filterMap_range_snoc hs (fun j hj => ?_) (fun j hj hle => ?_) ?_ fun j hj hlt => ?_
  · rw [Function.update_of_ne (hother j (by omega) (by omega))]
  · simp [hbehind j hj hle]
  · rw [hself, Function.update_self]
    simp [hfilled]
  · rw [Function.update_of_ne (hother j hj (by omega))]
    simp [hbehind j hj (by omega)]

/-- One slot further on, when the first slot is empty or emptied. -/
theorem waitingFrom_next {first : BitVec 16} {entries : Fin raopBufferLength → RaopBufferEntry}
    (entries' : Fin raopBufferLength → RaopBufferEntry)
    (hempty : (entries' (slot first)).filled = false)
    (hsame : ∀ i, i ≠ slot first → entries' i = entries i) :
    waitingFrom first entries = (if (entries (slot first)).filled then
        [decoderInput (entries (slot first))] else []) ++ waitingFrom (first + 1#16) entries' := by
  have hzero : numbered first 0 = first := by simp [numbered]
  have hshift : ∀ j, numbered (first + 1#16) j = numbered first (j + 1) := by
    intro j
    rw [← numbered_succ, numbered, numbered, BitVec.add_assoc, BitVec.add_comm 1#16,
      BitVec.add_assoc]
  have hrotate := filterMap_range_rotate (n := raopBufferLength - 1)
    (f := fun k => if (entries (slot (numbered first k))).filled then
      some (decoderInput (entries (slot (numbered first k)))) else none)
    (g := fun k => if (entries' (slot (numbered (first + 1#16) k))).filled then
      some (decoderInput (entries' (slot (numbered (first + 1#16) k)))) else none) ?_ ?_
  · have hlen : raopBufferLength - 1 + 1 = raopBufferLength := rfl
    rw [hlen] at hrotate
    rw [waitingFrom, waitingFrom]
    refine hrotate.trans ?_
    rw [hzero]
    congr 1
    by_cases hf : (entries (slot first)).filled = true <;> simp [hf]
  · intro j hj
    have hne : slot (numbered first (j + 1)) ≠ slot first := by
      have hlen : raopBufferLength = 32 := rfl
      have := slot_numbered_ne first (k := j + 1) (j := 0) (by omega) (by omega) (by omega)
      rwa [hzero] at this
    simp only [hshift, hsame _ hne]
  · have hround : slot (numbered (first + 1#16) (raopBufferLength - 1)) = slot first := by
      rw [hshift]
      have := (slot_numbered_eq_iff (f := first) (k := 32) (j := 0)).mpr rfl
      rwa [hzero] at this
    simp [hround, hempty]

/-! ## Draining -/

theorem window_freeBlock {b : RaopBuffer} (hb : Window b) (block : Block) :
    Window (freeBlock b block) :=
  ⟨hb.unfilled, hb.span_le, hb.place, hb.newest, hb.payload⟩

/-- One pass of the drain loop takes what it returns off what waits. -/
theorem waiting_dequeue {b : RaopBuffer} (hb : Window b) (noResend : Bool) :
    let r := raopBufferDequeue b 0 0 noResend
    waiting b = (match r.data with
      | none => []
      | some payload => [⟨r.length, payload.bytes, r.timestamp⟩]) ++ waiting r.raopBuffer ∧
    r.raopBuffer.isEmpty = b.isEmpty ∧ r.raopBuffer.lastSeqnum = b.lastSeqnum := by
  intro r
  rcases dequeue_cases hb 0 0 noResend with h | ⟨-, -, hfilled, h⟩ | ⟨-, -, hfilled, h⟩
  · rw [show r = _ from h]
    exact ⟨rfl, rfl, rfl⟩
  · rw [show r = _ from h]
    refine ⟨?_, rfl, rfl⟩
    rw [waiting, waitingFrom_next b.entries hfilled fun _ _ => rfl, hfilled]
    rfl
  · rw [show r = _ from h]
    refine ⟨?_, rfl, rfl⟩
    obtain ⟨payload, hpayload⟩ := Option.isSome_iff_exists.mp (hb.payload _ hfilled)
    rw [waiting, waitingFrom_next (taken b).entries (by simp [taken, takeEntry])
      fun i hi => by simp [taken, Function.update_of_ne hi], hfilled, if_pos rfl, hpayload]
    simp only [decoderInput, hpayload, Option.map_some, Option.getD_some]
    rfl

theorem waiting_drain {b : RaopBuffer} (hb : Window b) (noResend : Bool) :
    waiting b = (drain noResend b).1 ++ waiting (drain noResend b).2 ∧
      Window (drain noResend b).2 ∧ (drain noResend b).2.isEmpty = b.isEmpty ∧
      (drain noResend b).2.lastSeqnum = b.lastSeqnum := by
  induction hcount : (entryCount b).toNat using Nat.strong_induction_on generalizing b with
  | _ count ih =>
    obtain ⟨hwaiting, hempty, hlast⟩ := waiting_dequeue hb noResend
    have hwindow := window_dequeue hb 0 0 noResend
    cases hdata : (raopBufferDequeue b 0 0 noResend).data with
    | none =>
      rw [drain_none hdata]
      rw [hdata] at hwaiting
      exact ⟨hwaiting, hwindow, hempty, hlast⟩
    | some payload =>
      have hless := entryCount_dequeue hdata
      obtain ⟨hrest, hwindow', hempty', hlast'⟩ := ih _ (by
        show (entryCount (raopBufferDequeue b 0 0 noResend).raopBuffer).toNat < count
        omega) (window_freeBlock hwindow payload) rfl
      rw [drain_some hdata]
      rw [hdata] at hwaiting
      refine ⟨?_, hwindow', hempty'.trans hempty, hlast'.trans hlast⟩
      rw [hwaiting, List.cons_append]
      exact congrArg (_ :: ·) hrest

/-! ## Enqueueing -/

/-- The packet passes the checks of `raop_buffer_enqueue`. -/
structure Enters (b : RaopBuffer) (packet : Enqueued) : Prop where
  length : 12 ≤ packet.datalen.toNat ∧ packet.datalen.toNat ≤ raopPacketLen
  audio : isNoDataPacket packet.data packet.datalen = false
  timely : b.isEmpty = true ∨ 0 ≤ seqnumCmp (packetSeqnum packet.data) b.firstSeqnum
  fresh : 0 ≤ seqnumCmp (packetSeqnum packet.data) (b.firstSeqnum + 32#16) ∨
    (b.entries (slot (packetSeqnum packet.data))).filled = false ∨
    (b.entries (slot (packetSeqnum packet.data))).seqnum ≠ packetSeqnum packet.data

/-- A packet that comes after all packets so far, makes room for itself at no other's expense, and
finds its time stamp in the entry already. -/
structure InOrder (b : RaopBuffer) (packet : Enqueued) (entry : RaopBufferEntry) : Prop where
  newer : b.isEmpty = true ∨ 0 < seqnumCmp (packetSeqnum packet.data) b.lastSeqnum
  room : seqnumCmp (packetSeqnum packet.data) (b.firstSeqnum + 32#16) < 0 ∨
    ∀ i, (b.entries i).filled = false
  timestamp : entry.timestamp = packet.timestamp

section

variable {P : Openssl} {b : RaopBuffer} {packet : Enqueued} {entry : RaopBufferEntry}

theorem storeBase_waiting {s : BitVec 16} {flushed : Bool}
    (hflushed : flushed = true → ∀ i, (b.entries i).filled = false) :
    waiting (storeBase b s flushed) = waiting b := by
  cases flushed with
  | false => rfl
  | true =>
    rw [waiting, waiting, waitingFrom_eq_nil (hflushed rfl)]
    exact waitingFrom_eq_nil (raopBufferFlush_filled b _)

/-- The packet that `raop_buffer_enqueue` stores has passed its checks. -/
theorem enters_of_accepts (hret : (enqueuePacket P b packet entry).ret = 1)
    (hacc : Accepts P b packet.data packet.datalen packet.timestamp entry
      (enqueuePacket P b packet entry)) : Enters b packet where
  length := hacc.length
  audio := (enqueue_stored hret).1
  timely := by
    cases he : b.isEmpty with
    | true => exact Or.inl rfl
    | false => exact Or.inr (not_lt.mp (hacc.timely he))
  fresh := by
    cases hf : (enqueuePacket P b packet entry).flushed with
    | true => exact Or.inl (of_decide_eq_true ((enqueue_stored hret).2.symm.trans hf))
    | false =>
      have hfresh := hacc.fresh _ rfl
      rw [hf] at hfresh
      by_cases hfilled : (b.entries (slot (packetSeqnum packet.data))).filled = true
      · exact Or.inr (Or.inr (hfresh hfilled))
      · exact Or.inr (Or.inl (by simpa using hfilled))

theorem enters_iff_ret (P : Openssl) (b : RaopBuffer) (packet : Enqueued)
    (entry : RaopBufferEntry) : Enters b packet ↔ (enqueuePacket P b packet entry).ret = 1 := by
  constructor
  · intro h
    exact enqueue_ret_one P packet.timestamp entry h.length h.audio h.timely h.fresh
  · intro hret
    rcases enqueue_cases P b packet.data packet.datalen packet.timestamp entry with
      ⟨hne, -⟩ | ⟨-, hacc⟩
    · exact absurd hret hne
    · exact enters_of_accepts hret hacc

/-- Storing a packet that is newer than the whole window. -/
theorem waiting_storePacket {base : RaopBuffer} (hwindow : Window base) {s : BitVec 16}
    (hnear : base.isEmpty = false → ahead base.firstSeqnum s < 32)
    (hnewer : base.isEmpty = false → 0 < seqnumCmp s base.lastSeqnum) (data : Bytes)
    (payloadSize : ℕ) {timestamp : UInt64} (htimestamp : entry.timestamp = timestamp)
    (flushed : Bool) :
    let r := storePacket P base data payloadSize s timestamp entry flushed
    waiting r.raopBuffer = waiting base ++ [decoderInput r.bufferEntry] ∧
      r.raopBuffer.lastSeqnum = s := by
  intro r
  set stored : RaopBufferEntry :=
    { filled := true
      seqnum := s
      timestamp := timestamp
      payloadSize := payloadSize
      payloadData := some ⟨base.heap.next, raopBufferDecrypt P base data payloadSize⟩ } with hstored
  have hdecoded : decoderInput r.bufferEntry = decoderInput stored := by
    simp [r, hstored, decoderInput, storePacket, htimestamp]
  have hentries : r.raopBuffer.entries = Function.update base.entries (slot s) stored := rfl
  rw [hdecoded, waiting, hentries]
  cases he : base.isEmpty with
  | true =>
    have hfirst : r.raopBuffer.firstSeqnum = s := by simp [r, storePacket, he]
    have hlast : r.raopBuffer.lastSeqnum = s := by simp [r, storePacket, he]
    have hunfilled := hwindow.unfilled he
    refine ⟨?_, hlast⟩
    rw [hfirst, waitingFrom_store rfl (by simp [raopBufferLength])
      fun i hi => by simp [hunfilled i] at hi]
    rw [waiting, waitingFrom_eq_nil hunfilled, waitingFrom_eq_nil hunfilled]
  | false =>
    have hfirst : r.raopBuffer.firstSeqnum = base.firstSeqnum := by simp [r, storePacket, he]
    have hlast : r.raopBuffer.lastSeqnum = s := by
      simp only [r, storePacket, he, Bool.false_eq_true, if_false, if_pos (hnewer he)]
    have hspan : span base < ahead base.firstSeqnum s + 1 :=
      (newer_iff (hwindow.span_le he) (hnear he)).mp (hnewer he)
    refine ⟨?_, hlast⟩
    rw [hfirst, waitingFrom_store rfl (hnear he)]
    · rfl
    · intro i hi
      obtain ⟨hplace, hahead⟩ := hwindow.place he i hi
      exact ⟨ahead base.firstSeqnum (base.entries i).seqnum, by omega, by
        rw [numbered_ahead, hplace]⟩

/-- The buffer takes a packet that is in order behind everything that waits. -/
theorem waiting_store (hb : Window b) (hret : (enqueuePacket P b packet entry).ret = 1)
    (hacc : Accepts P b packet.data packet.datalen packet.timestamp entry
      (enqueuePacket P b packet entry)) (horder : InOrder b packet entry) :
    let r := enqueuePacket P b packet entry
    waiting r.raopBuffer = waiting b ++ [decoderInput r.bufferEntry] ∧
      r.raopBuffer.isEmpty = false ∧ r.raopBuffer.lastSeqnum = packetSeqnum packet.data := by
  intro r
  set s := packetSeqnum packet.data with hs
  obtain ⟨hwindow, -, hempty, hnear⟩ := storeBase_ready hb hacc
  have hroom : r.flushed = true → ∀ i, (b.entries i).filled = false := by
    intro hf
    have hfar : 0 ≤ seqnumCmp s (b.firstSeqnum + 32#16) :=
      of_decide_eq_true ((enqueue_stored hret).2.symm.trans hf)
    exact horder.room.resolve_left (not_lt.mpr hfar)
  have hnewer : (storeBase b s r.flushed).isEmpty = false →
      0 < seqnumCmp s (storeBase b s r.flushed).lastSeqnum := by
    intro he
    cases hf : r.flushed with
    | true =>
      -- the flush has put the window just before the packet
      have hlast := (raopBufferFlush_seqnum b s).2.2
      rw [storeBase, if_pos rfl, hlast, seqnumCmp, signedDiff,
        show s - (s - 1#16) = 1#16 by bv_omega]
      decide
    | false =>
      rw [hempty] at he
      exact horder.newer.resolve_left (by simp [he])
  obtain ⟨hwaiting, hlast⟩ := waiting_storePacket (P := P) hwindow hnear hnewer packet.data
    (packet.datalen.toNat - 12) horder.timestamp r.flushed
  rw [← hacc.result, storeBase_waiting hroom] at hwaiting
  rw [← hacc.result] at hlast
  refine ⟨hwaiting, ?_, hlast⟩
  show (enqueuePacket P b packet entry).raopBuffer.isEmpty = false
  rw [hacc.result]
  rfl

end

/-! ## What was decoded and what was rendered -/

def RtpEvent.decoded : RtpEvent → Option (BitVec 16 × AacDecodeStruct)
  | .decode seqnum packet => some (seqnum, packet)
  | _ => none

def RtpEvent.rendered : RtpEvent → Option AacDecodeStruct
  | .render packet => some packet
  | _ => none

def decodedPackets (events : List RtpEvent) : List (BitVec 16 × AacDecodeStruct) :=
  events.filterMap RtpEvent.decoded

def renderedPackets (events : List RtpEvent) : List AacDecodeStruct :=
  events.filterMap RtpEvent.rendered

/-- The decoder got what was rendered and then what still waits, in the order of the sequence
numbers, no number twice in a row. -/
structure Agree (emitted : List RtpEvent) (b : RaopBuffer) : Prop where
  same : (decodedPackets emitted).map Prod.snd = renderedPackets emitted ++ waiting b
  increasing : ((decodedPackets emitted).map Prod.fst).IsChain fun s t => 0 < seqnumCmp t s

/-! ## The invariant -/

structure Agreement (emitted : List RtpEvent) (b : RaopBuffer) : Prop where
  window : Window b
  agree : Agree emitted b
  last : ((decodedPackets emitted).map Prod.fst).getLast? =
    if b.isEmpty then none else some b.lastSeqnum

theorem agreement_init (P : Openssl) (aeskey aesiv ecdhSecret : Bytes) :
    Agreement [] (raopBufferInit P aeskey aesiv ecdhSecret) where
  window := window_init P aeskey aesiv ecdhSecret
  agree := by
    refine ⟨?_, List.isChain_nil⟩
    rw [waiting, waitingFrom_eq_nil fun _ => rfl]
    rfl
  last := rfl

theorem decodedPackets_append (a b : List RtpEvent) :
    decodedPackets (a ++ b) = decodedPackets a ++ decodedPackets b := List.filterMap_append

theorem renderedPackets_append (a b : List RtpEvent) :
    renderedPackets (a ++ b) = renderedPackets a ++ renderedPackets b := List.filterMap_append

theorem Agreement.of_silent {emitted more : List RtpEvent} {b : RaopBuffer}
    (h : Agreement emitted b) (hdecoded : decodedPackets more = [])
    (hrendered : renderedPackets more = []) : Agreement (emitted ++ more) b where
  window := h.window
  agree := by
    refine ⟨?_, ?_⟩
    · rw [decodedPackets_append, renderedPackets_append, hdecoded, hrendered, List.append_nil,
        List.append_nil]
      exact h.agree.same
    · rw [decodedPackets_append, hdecoded, List.append_nil]
      exact h.agree.increasing
  last := by
    rw [decodedPackets_append, hdecoded, List.append_nil]
    exact h.last

/-- One more packet is decoded and waits behind the others. -/
theorem Agreement.store {emitted : List RtpEvent} {b b' : RaopBuffer} {s : BitVec 16}
    {packet : AacDecodeStruct} (h : Agreement emitted b) (hwindow : Window b')
    (hwaiting : waiting b' = waiting b ++ [packet]) (hempty : b'.isEmpty = false)
    (hlast : b'.lastSeqnum = s) (hnewer : b.isEmpty = true ∨ 0 < seqnumCmp s b.lastSeqnum) :
    Agreement (emitted ++ [.decode s packet]) b' where
  window := hwindow
  agree := by
    have hdecoded : decodedPackets (emitted ++ [.decode s packet]) =
        decodedPackets emitted ++ [(s, packet)] := decodedPackets_append ..
    have hrendered : renderedPackets (emitted ++ [.decode s packet]) =
        renderedPackets emitted := (renderedPackets_append ..).trans (List.append_nil _)
    refine ⟨?_, ?_⟩
    · rw [hdecoded, hrendered, List.map_append, h.agree.same, hwaiting, List.append_assoc]
      rfl
    · rw [hdecoded, List.map_append]
      refine h.agree.increasing.append (List.isChain_singleton _) fun t ht u hu => ?_
      have hlast_t : some t = if b.isEmpty then none else some b.lastSeqnum :=
        (Option.mem_def.mp ht).symm.trans h.last
      obtain rfl : s = u := by simpa using hu
      cases he : b.isEmpty with
      | true => simp [he] at hlast_t
      | false =>
        obtain rfl : t = b.lastSeqnum := by simpa [he] using hlast_t
        exact hnewer.resolve_left (by simp [he])
  last := by
    rw [decodedPackets_append, List.map_append, hempty, hlast]
    exact List.getLast?_concat

theorem enqueue_ret_le (P : Openssl) (b : RaopBuffer) (packet : Enqueued)
    (entry : RaopBufferEntry) : (enqueuePacket P b packet entry).ret ≤ 1 := by
  unfold enqueuePacket raopBufferEnqueue
  simp only [if_true]
  split_ifs <;> simp [storePacket]

theorem decodePacket_eq (P : Openssl) (rtp : RaopRtp) (packet : Enqueued)
    (entry : RaopBufferEntry) (fill : Bool) :
    (decodePacket P rtp packet entry fill).2 =
      ((enqueuePacket P rtp.buffer packet entry).raopBuffer,
        if 0 < (enqueuePacket P rtp.buffer packet entry).ret then
          [.decode (packetSeqnum packet.data)
            (decoderInput (enqueuePacket P rtp.buffer packet entry).bufferEntry)]
        else []) := by
  unfold decodePacket
  by_cases hneg : (enqueuePacket P rtp.buffer packet entry).ret < 0
  · simp [if_pos hneg, not_lt.mpr hneg.le]
  · simp only [if_neg hneg]
    split_ifs <;> rfl

theorem Agreement.decode {emitted : List RtpEvent} {P : Openssl} (rtp : RaopRtp)
    {packet : Enqueued} {entry : RaopBufferEntry} (fill : Bool) (h : Agreement emitted rtp.buffer)
    (horder : Enters rtp.buffer packet → InOrder rtp.buffer packet entry) :
    Agreement (emitted ++ (decodePacket P rtp packet entry fill).2.2)
      (decodePacket P rtp packet entry fill).2.1 := by
  have hle := enqueue_ret_le P rtp.buffer packet entry
  rw [decodePacket_eq]
  rcases enqueue_cases P rtp.buffer packet.data packet.datalen packet.timestamp entry with
    ⟨hret, hsame, -, -⟩ | ⟨hret, hacc⟩
  · have hnot : ¬ 0 < (enqueuePacket P rtp.buffer packet entry).ret := by
      have hret : (enqueuePacket P rtp.buffer packet entry).ret ≠ 1 := hret
      omega
    have hsame : (enqueuePacket P rtp.buffer packet entry).raopBuffer = rtp.buffer := hsame
    rw [if_neg hnot, hsame, List.append_nil]
    exact h
  · have horder := horder (enters_of_accepts hret hacc)
    obtain ⟨hwaiting, hempty, hlast⟩ := waiting_store h.window hret hacc horder
    have hpos : 0 < (enqueuePacket P rtp.buffer packet entry).ret := by
      rw [show (enqueuePacket P rtp.buffer packet entry).ret = 1 from hret]
      decide
    rw [if_pos hpos]
    exact h.store (window_enqueue P h.window ..) hwaiting hempty hlast horder.newer

theorem renderPackets_eq (rtp : RaopRtp) :
    (renderPackets rtp).1.buffer = (drain (decide (rtp.controlRport = 0)) rtp.buffer).2 ∧
      decodedPackets (renderPackets rtp).2 = [] ∧
      renderedPackets (renderPackets rtp).2 =
        (drain (decide (rtp.controlRport = 0)) rtp.buffer).1 := by
  have hdecoded : ∀ packets : List AacDecodeStruct,
      decodedPackets (packets.map RtpEvent.render) = [] := fun packets =>
    List.filterMap_eq_nil_iff.mpr fun event hevent => by
      obtain ⟨packet, -, rfl⟩ := List.mem_map.mp hevent
      rfl
  have hrendered : ∀ packets : List AacDecodeStruct,
      renderedPackets (packets.map RtpEvent.render) = packets := fun packets => by
    rw [renderedPackets, List.filterMap_map]
    exact List.filterMap_some
  unfold renderPackets
  dsimp only
  split
  · exact ⟨rfl, hdecoded _, hrendered _⟩
  · split
    · refine ⟨rfl, ?_, ?_⟩
      · rw [decodedPackets_append, hdecoded]
        rfl
      · rw [renderedPackets_append, hrendered]
        exact List.append_nil _
    · exact ⟨rfl, hdecoded _, hrendered _⟩

theorem Agreement.render {emitted : List RtpEvent} {rtp : RaopRtp}
    (h : Agreement emitted rtp.buffer) :
    Agreement (emitted ++ (renderPackets rtp).2) (renderPackets rtp).1.buffer := by
  obtain ⟨hbuffer, hdecoded, hrendered⟩ := renderPackets_eq rtp
  obtain ⟨hwaiting, hwindow, hempty, hlast⟩ :=
    waiting_drain h.window (decide (rtp.controlRport = 0))
  rw [hbuffer]
  refine ⟨hwindow, ⟨?_, ?_⟩, ?_⟩
  · rw [decodedPackets_append, renderedPackets_append, hdecoded, hrendered, List.append_nil,
      h.agree.same, hwaiting, List.append_assoc]
  · rw [decodedPackets_append, hdecoded, List.append_nil]
    exact h.agree.increasing
  · rw [decodedPackets_append, hdecoded, List.append_nil, hempty, hlast]
    exact h.last

/-! ## The steps of the audio thread -/

/-- The packet a step brings to the buffer, and the entry it comes with. -/
def arrival (rtpScaled : UInt32 → UInt64) (rtp : RaopRtp) :
    RtpLabel → Option (Enqueued × RaopBufferEntry)
  | .receiveControl received around =>
    let (packet, packetlen) := recvfrom rtp.packet received
    if packetType packet = 0x56 then
      some (resentPacket rtpScaled rtp.clock packet packetlen, around.entry)
    else none
  | .receiveData received around =>
    let (packet, packetlen) := recvfrom rtp.packet received
    if 12 ≤ packetlen then some (dataPacket rtpScaled rtp.clock packet packetlen, around.entry)
    else none
  | _ => none

/-- A packet that the buffer takes arrives in order. -/
def ArrivesInOrder (rtpScaled : UInt32 → UInt64) (rtp : RaopRtp) (label : RtpLabel) : Prop :=
  ∀ packet entry, arrival rtpScaled rtp label = some (packet, entry) →
    Enters rtp.buffer packet → InOrder rtp.buffer packet entry

/-- No flush is under way. -/
structure Quiet (rtp : RaopRtp) : Prop where
  mailbox : rtp.mailbox.volumeChanged = false
  handling : ∀ taken since, rtp.point = .handling taken since → taken.volumeChanged = false

theorem Quiet.of_frame {rtp rtp' : RaopRtp} (h : Quiet rtp) (hframe : Received.Frame rtp rtp') :
    Quiet rtp' where
  mailbox := by
    rw [hframe.mailbox]
    exact h.mailbox
  handling taken since hhandling := absurd hhandling (hframe.point taken since)

section

variable {P : Openssl} {rtpScaled : UInt32 → UInt64} {rtp : RaopRtp} {emitted : List RtpEvent}

theorem Agreement.receiveControl (h : Agreement emitted rtp.buffer) (next : RtpPoint)
    {received : Received} {around : Surroundings}
    (horder : ArrivesInOrder rtpScaled rtp (.receiveControl received around)) :
    Agreement (emitted ++ (receiveControl P rtpScaled rtp next received around).2)
      (receiveControl P rtpScaled rtp next received around).1.buffer := by
  unfold ArrivesInOrder arrival at horder
  unfold WinAirPlay.receiveControl
  dsimp only at horder ⊢
  by_cases htype : packetType (recvfrom rtp.packet received).1 = 0x56
  · rw [if_pos htype]
    have hdecode := Agreement.decode (P := P)
      { rtp with packet := (recvfrom rtp.packet received).1, controlSaddr := around.saddr }
      around.fill h
      (horder _ _ (if_pos htype))
    split <;> rename_i heq <;> rw [heq] at hdecode <;> exact hdecode
  · rw [if_neg htype]
    split
    · split <;> exact h.of_silent rfl rfl
    · exact h.of_silent rfl rfl

theorem Agreement.receiveData (h : Agreement emitted rtp.buffer) {received : Received}
    {around : Surroundings} (horder : ArrivesInOrder rtpScaled rtp (.receiveData received around)) :
    Agreement (emitted ++ (receiveData P rtpScaled rtp received around).2)
      (receiveData P rtpScaled rtp received around).1.buffer := by
  unfold ArrivesInOrder arrival at horder
  unfold WinAirPlay.receiveData
  dsimp only at horder ⊢
  by_cases hlen : 12 ≤ (recvfrom rtp.packet received).2
  · rw [if_pos hlen]
    have hdecode := Agreement.decode (P := P)
      { rtp with packet := (recvfrom rtp.packet received).1 } around.fill h
      (horder _ _ (if_pos hlen))
    split <;> rename_i heq <;> rw [heq] at hdecode
    · exact hdecode
    · exact hdecode
    · rw [← List.append_assoc]
      exact Agreement.render hdecode
  · rw [if_neg hlen]
    exact h.of_silent rfl rfl

theorem processEvents_buffer (callbacks : RaopCallbacks) {taken : RtpMailbox}
    (hvolume : taken.volumeChanged = false) (b : RaopBuffer) :
    (raopRtpProcessEvents callbacks taken).foldl RtpAction.onBuffer b = b := by
  rw [foldl_onBuffer, bufferFlushes_processEvents, hvolume]
  rfl

theorem agreement_step {label : RtpLabel} {r : RaopRtp × List RtpEvent}
    (h : Agreement emitted rtp.buffer) (hquiet : Quiet rtp) (hthread : label.ofThread = true)
    (horder : ArrivesInOrder rtpScaled rtp label) (hr : rtpStep P rtpScaled rtp label = some r) :
    Agreement (emitted ++ r.2) r.1.buffer ∧ Quiet r.1 := by
  cases rtpMove_of_step hr with
  | post | start | stopEarly | stop | join => cases hthread
  | takeMailbox =>
    refine ⟨h.of_silent rfl rfl, rfl, fun taken since hc => ?_⟩
    cases hc
    exact hquiet.mailbox
  | handleMailbox taken since hpoint =>
    rw [processEvents_buffer _ (hquiet.handling taken since hpoint)]
    exact ⟨h.of_silent rfl rfl, hquiet.mailbox, fun _ _ hc => by cases hc⟩
  | goOn _ _ running point hpoint =>
    exact ⟨h.of_silent rfl rfl, hquiet.mailbox, fun taken since hc => absurd hc (hpoint taken since)⟩
  | receiveControl data received around =>
    exact ⟨h.receiveControl _ horder,
      hquiet.of_frame (receiveControl_frame P rtpScaled rtp (by intros; split <;> simp) ..)⟩
  | receiveData received around =>
    exact ⟨h.receiveData horder, hquiet.of_frame (receiveData_frame ..)⟩

end

/-- The audio thread as it is started on a new `raop_rtp`. -/
def audioThread (P : Openssl) (callbacks : RaopCallbacks) (aeskey aesiv ecdhSecret : Bytes)
    (controlRport : BitVec 16) (garbage : Bytes) : RaopRtp :=
  raopRtpStartAudio (raopRtpInit P callbacks aeskey aesiv ecdhSecret) controlRport true garbage

/-- However the audio thread runs, if every packet that the buffer takes arrives in order, decoder
and renderer agree in every state it reaches. -/
theorem decoder_renderer_agree (P : Openssl) (rtpScaled : UInt32 → UInt64)
    (callbacks : RaopCallbacks) (aeskey aesiv ecdhSecret : Bytes) (controlRport : BitVec 16)
    (garbage : Bytes) (run : List RtpLabel) (hthread : ∀ label ∈ run, label.ofThread = true)
    (horder : Along (rtpStep P rtpScaled) (ArrivesInOrder rtpScaled)
      (audioThread P callbacks aeskey aesiv ecdhSecret controlRport garbage) run) (rtp : RaopRtp)
    (hrun : Foundations.Transition.run (rtpStep P rtpScaled)
      (audioThread P callbacks aeskey aesiv ecdhSecret controlRport garbage) run = some rtp) :
    Agree (events (rtpStep P rtpScaled)
      (audioThread P callbacks aeskey aesiv ecdhSecret controlRport garbage) run) rtp.buffer := by
  have hguard := horder.imp (fun rtp label => label.ofThread = true ∧ ArrivesInOrder rtpScaled rtp label)
    fun label hlabel _ hin => ⟨hthread label hlabel, hin⟩
  have hinit : Agreement []
      (audioThread P callbacks aeskey aesiv ecdhSecret controlRport garbage).buffer ∧
      Quiet (audioThread P callbacks aeskey aesiv ecdhSecret controlRport garbage) :=
    ⟨agreement_init P aeskey aesiv ecdhSecret, rfl, fun _ _ hc => by cases hc⟩
  have hend := invariant_history_along
    (I := fun _ emitted rtp => Agreement emitted rtp.buffer ∧ Quiet rtp)
    (fun _ _ _ _ _ h hg hr => agreement_step h.1 h.2 hg.1 hg.2 hr) [] [] hinit hguard hrun
  exact hend.1.agree

/-- A datagram of the data socket: packet `seqnum` with an RTP time and one byte of payload. -/
def dataDatagram (seqnum rtpTime payload : UInt8) : Bytes :=
  [0x80, 0x60, 0, seqnum, 0, 0, 0, rtpTime, 0, 0, 0, 0, payload]

/-- A pass of the loop in which the thread receives it, with `timestamp` in the uninitialised entry. -/
def dataPass (datagram : Bytes) (timestamp : UInt64) : List RtpLabel :=
  [.takeMailbox, .handleMailbox, .ready false true,
    .receiveData (.datagram datagram) ⟨[], { emptyEntry with timestamp := timestamp }, 0, true⟩]

def examplePlayer : RaopRtp :=
  audioThread default ⟨true, true, true, true, true, true⟩ [] [] [] 0
    (List.replicate raopPacketLen 0)

/-- Packets 7, 8 and 10; packet 9 is lost. -/
def threePasses : List RtpLabel :=
  dataPass (dataDatagram 7 5 0x2a) 5 ++ dataPass (dataDatagram 8 6 0x2b) 6 ++
    dataPass (dataDatagram 10 8 0x2c) 8

/-- Decoder and renderer agree on the packets whose time stamps are in their entries already. -/
theorem decoder_renderer_agree_run :
    ∃ rtp, Foundations.Transition.run (rtpStep default fun t => t.toUInt64) examplePlayer
        threePasses = some rtp ∧
      Agree (events (rtpStep default fun t => t.toUInt64) examplePlayer threePasses) rtp.buffer := by
  refine ⟨_, rfl, decoder_renderer_agree default _ _ [] [] [] 0 _ _ (by decide) ?_ _ rfl⟩
  have hnone : ∀ (rtp : RaopRtp) (label : RtpLabel),
      arrival (fun t => t.toUInt64) rtp label = none →
      ArrivesInOrder (fun t => t.toUInt64) rtp label := fun rtp label h packet entry hsome => by
    rw [h] at hsome
    cases hsome
  refine along_cons rfl (hnone _ _ rfl) (along_cons rfl (hnone _ _ rfl)
    (along_cons rfl (hnone _ _ rfl) (along_cons rfl ?_ ?_)))
  · intro packet entry hpacket _
    cases hpacket
    exact ⟨Or.inl rfl, Or.inr fun _ => rfl, by decide⟩
  refine along_cons rfl (hnone _ _ rfl) (along_cons rfl (hnone _ _ rfl)
    (along_cons rfl (hnone _ _ rfl) (along_cons rfl ?_ ?_)))
  · intro packet entry hpacket _
    cases hpacket
    exact ⟨Or.inr (by decide +kernel), Or.inl (by decide +kernel), by decide⟩
  refine along_cons rfl (hnone _ _ rfl) (along_cons rfl (hnone _ _ rfl)
    (along_cons rfl (hnone _ _ rfl) (along_cons rfl ?_ trivial)))
  intro packet entry hpacket _
  cases hpacket
  exact ⟨Or.inr (by decide +kernel), Or.inl (by decide +kernel), by decide⟩

/-- The decoder gets whatever the entry held, the renderer the time stamp of the packet. -/
theorem decoder_renderer_differ :
    ¬ ∀ (P : Openssl) (rtpScaled : UInt32 → UInt64) (callbacks : RaopCallbacks)
      (aeskey aesiv ecdhSecret : Bytes) (controlRport : BitVec 16) (garbage : Bytes)
      (run : List RtpLabel), (∀ label ∈ run, label.ofThread = true) → ∀ rtp,
      Foundations.Transition.run (rtpStep P rtpScaled)
        (audioThread P callbacks aeskey aesiv ecdhSecret controlRport garbage) run = some rtp →
      Agree (events (rtpStep P rtpScaled)
        (audioThread P callbacks aeskey aesiv ecdhSecret controlRport garbage) run) rtp.buffer := by
  intro h
  have hsame := (h default (fun t => t.toUInt64) ⟨true, true, true, true, true, true⟩ [] [] [] 0
    (List.replicate raopPacketLen 0) (dataPass (dataDatagram 7 5 0x2a) 9) (by decide) _ rfl).same
  exact absurd hsame (by decide +kernel)

end WinAirPlay
