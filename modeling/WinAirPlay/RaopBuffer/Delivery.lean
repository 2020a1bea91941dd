import WinAirPlay.Foundations.SlotTable
import WinAirPlay.RaopBuffer.Window

/-! # Exactly-once, in-order delivery by the jitter buffer

A `History` is a buffer together with what happened to it since `raop_buffer_init`: the packets
whose enqueue returned 1, the ones a dequeue returned, the ones a flush discarded (an explicit
one or the one inside enqueue), and the number returned last, which a flush forgets. A packet is
named by the block its payload was stored in; a block number is never used twice.

The invariant is `Ledger`: the buffer is a window, each accepted packet is in exactly one of the
three places, a filled slot holds an accepted packet as it was stored, and the number returned
last is at most 32 behind the next packet that waits in the window.
-/

namespace WinAirPlay
open Foundations.ByteBuffer Foundations.SerialNumber Foundations.SlotTable
set_option autoImplicit false

/-- A packet whose enqueue returned 1, with what was stored for it. -/
structure Packet where
  id : ℕ
  seqnum : BitVec 16
  timestamp : UInt64
  size : ℕ
  payload : Bytes

inductive BufferOp
  | enqueue (data : Bytes) (datalen : BitVec 16) (timestamp : UInt64) (out : RaopBufferEntry)
  | dequeue (length : ℕ) (timestamp : UInt64) (noResend : Bool)
  | flush (nextSeq : ℤ)

structure History where
  raopBuffer : RaopBuffer
  accepted : List Packet
  returned : List ℕ
  discarded : List ℕ
  lastReturned : Option (BitVec 16)

/-- The block a filled slot holds. -/
def storedId (e : RaopBufferEntry) : Option ℕ :=
  if e.filled then e.payloadData.map Block.id else none

/-- The packets in filled entries, in slot order. -/
def stored (b : RaopBuffer) : List ℕ := contents fun i => storedId (b.entries i)

def packetOf (P : Openssl) (b : RaopBuffer) (data : Bytes) (datalen : BitVec 16)
    (timestamp : UInt64) : Packet where
  id := b.heap.next
  seqnum := packetSeqnum data
  timestamp := timestamp
  size := datalen.toNat - 12
  payload := raopBufferDecrypt P b data (datalen.toNat - 12)

def History.init (P : Openssl) (aeskey aesiv ecdhSecret : Bytes) : History where
  raopBuffer := raopBufferInit P aeskey aesiv ecdhSecret
  accepted := []
  returned := []
  discarded := []
  lastReturned := none

def History.step (P : Openssl) (h : History) : BufferOp → History
  | .enqueue data datalen timestamp out =>
      let r := raopBufferEnqueue P h.raopBuffer data datalen timestamp true out
      { h with
        raopBuffer := r.raopBuffer
        accepted :=
          if r.ret = 1 then h.accepted ++ [packetOf P h.raopBuffer data datalen timestamp]
          else h.accepted
        discarded := if r.flushed then h.discarded ++ stored h.raopBuffer else h.discarded
        lastReturned := if r.flushed then none else h.lastReturned }
  | .dequeue length timestamp noResend =>
      let r := raopBufferDequeue h.raopBuffer length timestamp noResend
      match r.data with
      | none => { h with raopBuffer := r.raopBuffer }
      | some block =>
          { h with
            raopBuffer := r.raopBuffer
            returned := h.returned ++ [block.id]
            lastReturned := some h.raopBuffer.firstSeqnum }
  | .flush nextSeq =>
      { h with
        raopBuffer := raopBufferFlush h.raopBuffer nextSeq
        discarded := h.discarded ++ stored h.raopBuffer
        lastReturned := none }

def History.run (P : Openssl) (h : History) (ops : List BufferOp) : History :=
  ops.foldl (History.step P) h

/-- The slot holds the packet as it was stored. -/
def Holds (e : RaopBufferEntry) (p : Packet) : Prop :=
  e.seqnum = p.seqnum ∧ e.timestamp = p.timestamp ∧ e.payloadSize = p.size ∧
    e.payloadData = some ⟨p.id, p.payload⟩

structure Ledger (h : History) : Prop where
  window : Window h.raopBuffer
  fresh : ∀ p ∈ h.accepted, p.id < h.raopBuffer.heap.next
  distinct : (h.accepted.map Packet.id).Nodup
  places : (stored h.raopBuffer ++ h.returned ++ h.discarded).Perm (h.accepted.map Packet.id)
  holds : ∀ i, (h.raopBuffer.entries i).filled = true →
    ∃ p ∈ h.accepted, Holds (h.raopBuffer.entries i) p
  gap : ∀ f, h.lastReturned = some f → h.raopBuffer.isEmpty = false ∧
    ((span h.raopBuffer = 0 ∧ h.raopBuffer.firstSeqnum = f + 1#16) ∨
      ∃ i, (h.raopBuffer.entries i).filled = true ∧ 0 < ahead f h.raopBuffer.firstSeqnum ∧
        ahead f h.raopBuffer.firstSeqnum + ahead h.raopBuffer.firstSeqnum
          (h.raopBuffer.entries i).seqnum ≤ raopBufferLength)

/-! ## What is stored -/

theorem storedId_unfilled {e : RaopBufferEntry} (h : e.filled = false) : storedId e = none := by
  simp [storedId, h]

theorem storedId_holds {e : RaopBufferEntry} {p : Packet} (hf : e.filled = true)
    (hp : Holds e p) : storedId e = some p.id := by
  simp [storedId, hf, hp.2.2.2]

theorem stored_unfilled {b : RaopBuffer} (h : ∀ i, (b.entries i).filled = false) :
    stored b = [] := contents_eq_nil fun i => storedId_unfilled (h i)

theorem storedId_update (entries : Fin raopBufferLength → RaopBufferEntry)
    (s : Fin raopBufferLength) (e : RaopBufferEntry) :
    (fun i => storedId (Function.update entries s e i)) =
      Function.update (fun i => storedId (entries i)) s (storedId e) := by
  funext i
  by_cases h : i = s
  · subst h
    simp
  · simp [Function.update_of_ne h]

theorem stored_storePacket (P : Openssl) {base : RaopBuffer} (data : Bytes) (payloadSize : ℕ)
    {s : BitVec 16} (timestamp : UInt64) (out : RaopBufferEntry) (flushed : Bool)
    (hslot : (base.entries (slot s)).filled = false) :
    (stored (storePacket P base data payloadSize s timestamp out flushed).raopBuffer).Perm
      (base.heap.next :: stored base) := by
  have h := contents_fill (f := fun i => storedId (base.entries i)) (i := slot s) base.heap.next
    (storedId_unfilled hslot)
  unfold stored storePacket
  dsimp only
  rw [storedId_update]
  exact h

theorem stored_taken {b : RaopBuffer} {p : Packet}
    (hf : (b.entries (slot b.firstSeqnum)).filled = true)
    (hp : Holds (b.entries (slot b.firstSeqnum)) p) :
    (stored b).Perm (p.id :: stored (taken b)) := by
  have h := contents_empty (f := fun i => storedId (b.entries i)) (storedId_holds hf hp)
  unfold stored taken
  dsimp only
  rw [storedId_update, storedId_unfilled (e := takeEntry _) rfl]
  exact h

/-! ## The ledger is kept -/

theorem ledger_init (P : Openssl) (aeskey aesiv ecdhSecret : Bytes) :
    Ledger (History.init P aeskey aesiv ecdhSecret) where
  window := window_init P aeskey aesiv ecdhSecret
  fresh p hp := by simp [History.init] at hp
  distinct := by simp [History.init]
  places := by
    have h : stored (raopBufferInit P aeskey aesiv ecdhSecret) = [] := stored_unfilled fun _ => rfl
    simp [History.init, h]
  holds i hi := by simp [History.init, raopBufferInit, emptyEntry] at hi
  gap f hf := by simp [History.init] at hf

/-- The key does not depend on the flush before the packet is stored. -/
theorem storeBase_decrypt (P : Openssl) (b : RaopBuffer) (s : BitVec 16) (flushed : Bool)
    (data : Bytes) (n : ℕ) :
    raopBufferDecrypt P (storeBase b s flushed) data n = raopBufferDecrypt P b data n := by
  unfold storeBase
  cases flushed with
  | false => rfl
  | true =>
    obtain ⟨hk, hiv⟩ := raopBufferFlush_key b s.toNat
    simp [raopBufferDecrypt, hk, hiv]

theorem storeBase_next (b : RaopBuffer) (s : BitVec 16) (flushed : Bool) :
    (storeBase b s flushed).heap.next = b.heap.next := by
  cases flushed with
  | false => rfl
  | true => exact raopBufferFlush_next b _

theorem stored_storeBase (b : RaopBuffer) (s : BitVec 16) (flushed : Bool) :
    stored (storeBase b s flushed) = if flushed then [] else stored b := by
  cases flushed with
  | false => rfl
  | true => exact stored_unfilled fun i => raopBufferFlush_filled b _ i

section
variable {P : Openssl} {b : RaopBuffer} {data : Bytes} {datalen : BitVec 16} {timestamp : UInt64}
  {out : RaopBufferEntry} {r : EnqueueResult}

/-- The slot an accepted packet was stored at is filled and holds it. -/
theorem accepts_slot (h : Accepts P b data datalen timestamp out r) :
    (r.raopBuffer.entries (slot (packetSeqnum data))).filled = true ∧
      Holds (r.raopBuffer.entries (slot (packetSeqnum data)))
        (packetOf P b data datalen timestamp) := by
  rw [h.result]
  simp only [storePacket, Function.update_self]
  exact ⟨trivial, rfl, rfl, rfl, by simp [packetOf, storeBase_decrypt, storeBase_next]⟩

theorem accepts_other (h : Accepts P b data datalen timestamp out r) {i : Fin raopBufferLength}
    (hi : i ≠ slot (packetSeqnum data)) :
    r.raopBuffer.entries i = (storeBase b (packetSeqnum data) r.flushed).entries i := by
  conv_lhs => rw [h.result]
  simp [storePacket, Function.update_of_ne hi]

theorem accepts_next (h : Accepts P b data datalen timestamp out r) :
    r.raopBuffer.heap.next = b.heap.next + 2 := by
  conv_lhs => rw [h.result]
  simp [storePacket, storeBase_next]

/-- Without a flush an accepted packet leaves the start of a window in place. -/
theorem accepts_first (h : Accepts P b data datalen timestamp out r) (hf : r.flushed = false)
    (he : b.isEmpty = false) :
    r.raopBuffer.isEmpty = false ∧ r.raopBuffer.firstSeqnum = b.firstSeqnum := by
  rw [h.result, hf]
  simp [storePacket, storeBase, he]

theorem accepts_stored (hb : Window b) (h : Accepts P b data datalen timestamp out r) :
    (stored r.raopBuffer).Perm (b.heap.next :: if r.flushed then [] else stored b) := by
  obtain ⟨-, hslot, -, -⟩ := storeBase_ready hb h
  have hperm := stored_storePacket P data (datalen.toNat - 12) timestamp out r.flushed hslot
  rw [stored_storeBase, storeBase_next] at hperm
  rw [h.result]
  exact hperm

end

/-- An accepted packet is stored; what a flush inside the call discarded is discarded. -/
theorem places_enqueue {old new returned discarded accepted : List ℕ} {id : ℕ} {flushed : Bool}
    (hplaces : (old ++ returned ++ discarded).Perm accepted)
    (hnew : new.Perm (id :: if flushed then [] else old)) :
    (new ++ returned ++ if flushed then discarded ++ old else discarded).Perm
      (accepted ++ [id]) := by
  rw [List.perm_iff_count] at hplaces hnew ⊢
  intro a
  have h1 := hplaces a
  have h2 := hnew a
  cases flushed <;>
    simp only [List.count_append, List.count_cons, List.count_nil, if_true, if_false,
      Bool.false_eq_true] at h1 h2 ⊢ <;> omega

theorem ledger_enqueue (P : Openssl) {h : History} (hl : Ledger h) (data : Bytes)
    (datalen : BitVec 16) (timestamp : UInt64) (out : RaopBufferEntry) :
    Ledger (h.step P (.enqueue data datalen timestamp out)) := by
  have hwindow := window_enqueue P hl.window data datalen timestamp out
  have hcases := enqueue_cases P h.raopBuffer data datalen timestamp out
  simp only [History.step]
  generalize raopBufferEnqueue P h.raopBuffer data datalen timestamp true out = r at hwindow hcases
  rcases hcases with ⟨hret, hsame, -, hfl⟩ | ⟨hret, hacc⟩
  · simp only [if_neg hret, hsame, hfl, Bool.false_eq_true, if_false]
    exact hl
  set p := packetOf P h.raopBuffer data datalen timestamp with hp
  obtain ⟨hfilled, hholds⟩ := accepts_slot hacc
  have hid : p.id = h.raopBuffer.heap.next := rfl
  simp only [if_pos hret]
  refine ⟨hwindow, ?_, ?_, ?_, ?_, ?_⟩
  · intro q hq
    have hnext := accepts_next hacc
    simp only
    rcases List.mem_append.mp hq with hq | hq
    · have := hl.fresh q hq
      omega
    · obtain rfl : q = p := by simpa using hq
      omega
  · rw [List.map_append, List.nodup_append]
    refine ⟨hl.distinct, by simp, ?_⟩
    rintro a ha c hc rfl
    obtain ⟨q, hq, rfl⟩ := List.mem_map.mp ha
    have hlt := hl.fresh q hq
    have heq : q.id = p.id := by simpa using hc
    omega
  · rw [List.map_append]
    exact places_enqueue hl.places (accepts_stored hl.window hacc)
  · intro i hi
    by_cases hs : i = slot (packetSeqnum data)
    · exact ⟨p, by simp, by rw [hs]; exact hholds⟩
    · simp only [accepts_other hacc hs] at hi ⊢
      cases hf : r.flushed with
      | true => simp [storeBase, hf] at hi
      | false =>
        simp only [storeBase, hf, Bool.false_eq_true, if_false] at hi ⊢
        obtain ⟨q, hq, hqholds⟩ := hl.holds i hi
        exact ⟨q, List.mem_append_left _ hq, hqholds⟩
  · intro f hf
    cases hfl : r.flushed with
    | true => simp [hfl] at hf
    | false =>
      simp only [hfl, Bool.false_eq_true, if_false] at hf ⊢
      obtain ⟨he, hgap⟩ := hl.gap f hf
      obtain ⟨he', hfirst⟩ := accepts_first hacc hfl he
      refine ⟨he', .inr ?_⟩
      rw [hfirst]
      rcases hgap with ⟨-, hnext⟩ | ⟨i, hi, hpos, hle⟩
      · -- nothing waited: the packet itself is the one that waits now
        have hnear := ahead_lt_of_accepted (hacc.timely he) (hacc.room hfl)
        have hone : ahead f h.raopBuffer.firstSeqnum = 1 := by
          rw [hnext]
          unfold ahead
          bv_omega
        refine ⟨_, hfilled, by omega, ?_⟩
        rw [hholds.1, hone]
        show 1 + ahead h.raopBuffer.firstSeqnum (packetSeqnum data) ≤ 32
        omega
      · have hs : i ≠ slot (packetSeqnum data) := by
          rintro rfl
          obtain ⟨-, hslot, -, -⟩ := storeBase_ready hl.window hacc
          simp only [storeBase, hfl, Bool.false_eq_true, if_false, hi] at hslot
          exact absurd hslot (by decide)
        have hsame : r.raopBuffer.entries i = h.raopBuffer.entries i := by
          rw [accepts_other hacc hs, hfl]
          rfl
        exact ⟨i, by rw [hsame]; exact hi, hpos, by rw [hsame]; exact hle⟩

theorem ledger_flush (P : Openssl) {h : History} (hl : Ledger h) (nextSeq : ℤ) :
    Ledger (h.step P (.flush nextSeq)) where
  window := window_flush _ _
  fresh p hp := by
    have := hl.fresh p hp
    rwa [← raopBufferFlush_next h.raopBuffer nextSeq] at this
  distinct := hl.distinct
  places := by
    have hs : stored (raopBufferFlush h.raopBuffer nextSeq) = [] :=
      stored_unfilled fun i => raopBufferFlush_filled _ _ i
    have hplaces := hl.places
    show (stored (raopBufferFlush h.raopBuffer nextSeq) ++ h.returned ++
      (h.discarded ++ stored h.raopBuffer)).Perm (h.accepted.map Packet.id)
    rw [hs]
    rw [List.perm_iff_count] at hplaces ⊢
    intro a
    have := hplaces a
    simp only [List.count_append, List.count_nil] at this ⊢
    omega
  holds i hi := by simp [History.step] at hi
  gap f hf := by simp [History.step] at hf

/-- What a dequeue that returns data hands out: the accepted packet whose number is
`first_seqnum`, as it was stored. -/
theorem dequeue_returns {h : History} (hl : Ledger h) {length : ℕ} {timestamp : UInt64}
    {noResend : Bool} {block : Block}
    (hd : (raopBufferDequeue h.raopBuffer length timestamp noResend).data = some block) :
    h.raopBuffer.isEmpty = false ∧ 0 < span h.raopBuffer ∧
      (h.raopBuffer.entries (slot h.raopBuffer.firstSeqnum)).filled = true ∧
      ∃ p ∈ h.accepted, Holds (h.raopBuffer.entries (slot h.raopBuffer.firstSeqnum)) p ∧
        p.seqnum = h.raopBuffer.firstSeqnum ∧
        raopBufferDequeue h.raopBuffer length timestamp noResend =
          ⟨some ⟨p.id, p.payload⟩, p.size, p.timestamp, taken h.raopBuffer⟩ := by
  rcases dequeue_cases hl.window length timestamp noResend with
    hr | ⟨-, -, -, hr⟩ | ⟨he, hpos, hf, hr⟩
  · simp [hr] at hd
  · simp [hr] at hd
  · obtain ⟨p, hp, hholds⟩ := hl.holds _ hf
    obtain ⟨hplace, hlt⟩ := hl.window.place he _ hf
    have hspan : span h.raopBuffer ≤ 32 := hl.window.span_le he
    have hseq : (h.raopBuffer.entries (slot h.raopBuffer.firstSeqnum)).seqnum =
        h.raopBuffer.firstSeqnum :=
      eq_of_slot_eq (f := h.raopBuffer.firstSeqnum) (by omega) (by simp) hplace
    refine ⟨he, hpos, hf, p, hp, hholds, hholds.1.symm.trans hseq, ?_⟩
    rw [hr, hholds.2.1, hholds.2.2.1, hholds.2.2.2]

theorem ledger_skipped {h : History} (hl : Ledger h) (he : h.raopBuffer.isEmpty = false)
    (hpos : 0 < span h.raopBuffer)
    (hf : (h.raopBuffer.entries (slot h.raopBuffer.firstSeqnum)).filled = false) :
    Ledger { h with raopBuffer := skipped h.raopBuffer } where
  window := window_skipped hl.window he hpos hf
  fresh := hl.fresh
  distinct := hl.distinct
  places := hl.places
  holds := hl.holds
  gap := by
    intro f hlast
    obtain ⟨-, ⟨hz, -⟩ | ⟨i, hi, hp, hle⟩⟩ := hl.gap f hlast
    · omega
    refine ⟨he, .inr ⟨i, hi, ?_⟩⟩
    have hne : (h.raopBuffer.entries i).seqnum ≠ h.raopBuffer.firstSeqnum := by
      intro heq
      rw [← heq, (hl.window.place he i hi).1, hi] at hf
      exact absurd hf (by decide)
    have hshort := ahead_succ_of_ne hne
    have hlong : ahead f (h.raopBuffer.firstSeqnum + 1#16) =
        ahead f h.raopBuffer.firstSeqnum + 1 := by
      have hle' : _ ≤ 32 := hle
      unfold ahead at hp hle' ⊢
      bv_omega
    show 0 < ahead f (h.raopBuffer.firstSeqnum + 1#16) ∧
      ahead f (h.raopBuffer.firstSeqnum + 1#16) + ahead (h.raopBuffer.firstSeqnum + 1#16)
        (h.raopBuffer.entries i).seqnum ≤ raopBufferLength
    omega

theorem ledger_taken {h : History} (hl : Ledger h) (he : h.raopBuffer.isEmpty = false)
    (hpos : 0 < span h.raopBuffer)
    (hf : (h.raopBuffer.entries (slot h.raopBuffer.firstSeqnum)).filled = true) {p : Packet}
    (hp : Holds (h.raopBuffer.entries (slot h.raopBuffer.firstSeqnum)) p) :
    Ledger
      { h with
        raopBuffer := taken h.raopBuffer
        returned := h.returned ++ [p.id]
        lastReturned := some h.raopBuffer.firstSeqnum } where
  window := window_taken hl.window he hpos
  fresh := hl.fresh
  distinct := hl.distinct
  places := by
    have hplaces := hl.places
    have hstored := stored_taken hf hp
    rw [List.perm_iff_count] at hplaces hstored ⊢
    intro a
    have h1 := hplaces a
    have h2 := hstored a
    simp only [List.count_append, List.count_cons, List.count_nil] at h1 h2 ⊢
    omega
  holds := by
    intro i hi
    by_cases hs : i = slot h.raopBuffer.firstSeqnum
    · simp [taken, takeEntry, hs] at hi
    · have hsame : (taken h.raopBuffer).entries i = h.raopBuffer.entries i := by
        simp [taken, Function.update_of_ne hs]
      simp only [hsame] at hi ⊢
      exact hl.holds i hi
  gap := by
    rintro f hlast
    obtain rfl : h.raopBuffer.firstSeqnum = f := by simpa using hlast
    refine ⟨he, ?_⟩
    have hspan : span (taken h.raopBuffer) + 1 = span h.raopBuffer := ahead_succ hpos
    have hle : span h.raopBuffer ≤ 32 := hl.window.span_le he
    have hwindow := window_taken hl.window he hpos
    by_cases hz : span (taken h.raopBuffer) = 0
    · exact .inl ⟨hz, rfl⟩
    · -- the last number of the window waits
      refine .inr ⟨slot h.raopBuffer.lastSeqnum, hwindow.newest he (Nat.pos_of_ne_zero hz), ?_⟩
      obtain ⟨-, hlt⟩ := hwindow.place he _ (hwindow.newest he (Nat.pos_of_ne_zero hz))
      have hone : ahead h.raopBuffer.firstSeqnum (taken h.raopBuffer).firstSeqnum = 1 := by
        show ahead h.raopBuffer.firstSeqnum (h.raopBuffer.firstSeqnum + 1#16) = 1
        unfold ahead
        bv_omega
      have hlt' : ahead (taken h.raopBuffer).firstSeqnum
        ((taken h.raopBuffer).entries (slot h.raopBuffer.lastSeqnum)).seqnum <
          span (taken h.raopBuffer) := hlt
      refine ⟨by simp only [hone]; decide, ?_⟩
      show _ ≤ 32
      simp only [hone]
      omega

theorem ledger_dequeue (P : Openssl) {h : History} (hl : Ledger h) (length : ℕ)
    (timestamp : UInt64) (noResend : Bool) :
    Ledger (h.step P (.dequeue length timestamp noResend)) := by
  simp only [History.step]
  cases hd : (raopBufferDequeue h.raopBuffer length timestamp noResend).data with
  | none =>
    simp only
    rcases dequeue_cases hl.window length timestamp noResend with
      hr | ⟨he, hpos, hf, hr⟩ | ⟨he, hpos, hf, hr⟩
    · rw [hr]
      exact hl
    · rw [hr]
      exact ledger_skipped hl he hpos hf
    · rw [hr] at hd
      have := hl.window.payload _ hf
      simp only at hd
      rw [hd] at this
      exact absurd this (by decide)
  | some block =>
    obtain ⟨he, hpos, hf, p, -, hholds, -, hr⟩ := dequeue_returns hl hd
    rw [hr] at hd
    obtain rfl : ⟨p.id, p.payload⟩ = block := Option.some.inj hd
    simp only [hr]
    exact ledger_taken hl he hpos hf hholds

theorem ledger_step (P : Openssl) {h : History} (hl : Ledger h) (op : BufferOp) :
    Ledger (h.step P op) := by
  cases op with
  | enqueue data datalen timestamp out => exact ledger_enqueue P hl data datalen timestamp out
  | dequeue length timestamp noResend => exact ledger_dequeue P hl length timestamp noResend
  | flush nextSeq => exact ledger_flush P hl nextSeq

theorem ledger_run (P : Openssl) {h : History} (hl : Ledger h) (ops : List BufferOp) :
    Ledger (h.run P ops) := by
  induction ops generalizing h with
  | nil => exact hl
  | cons op ops ih => exact ih (ledger_step P hl op)

/-! ## The result -/

/-- Two packets returned one after the other without a flush between them are 1 to 32 apart. -/
theorem returned_gap {h : History} (hl : Ledger h) {f : BitVec 16}
    (hlast : h.lastReturned = some f) (hpos : 0 < span h.raopBuffer) :
    1 ≤ ahead f h.raopBuffer.firstSeqnum ∧
      ahead f h.raopBuffer.firstSeqnum ≤ raopBufferLength := by
  obtain ⟨-, ⟨hz, -⟩ | ⟨i, hi, hp, hle⟩⟩ := hl.gap f hlast
  · omega
  · omega

/-- Whatever sequence of enqueues (by sequence number), dequeues and flushes a fresh buffer went
through: an enqueue that does not return 1 changes nothing; every accepted packet is in exactly
one place, exactly once; a dequeue that returns data returns what was stored for the packet
numbered `first_seqnum`; and the numbers of two packets returned with no flush between are 1 to
32 apart modulo 2^16. -/
theorem jitterBuffer_delivers_once_in_order (P : Openssl) (aeskey aesiv ecdhSecret : Bytes)
    (ops : List BufferOp) :
    let h := (History.init P aeskey aesiv ecdhSecret).run P ops
    (∀ data datalen timestamp out,
      (raopBufferEnqueue P h.raopBuffer data datalen timestamp true out).ret ≠ 1 →
        (raopBufferEnqueue P h.raopBuffer data datalen timestamp true out).raopBuffer =
          h.raopBuffer) ∧
      ((h.accepted.map Packet.id).Nodup ∧
        (stored h.raopBuffer ++ h.returned ++ h.discarded).Perm (h.accepted.map Packet.id)) ∧
      (∀ length timestamp noResend block,
        let r := raopBufferDequeue h.raopBuffer length timestamp noResend
        r.data = some block →
          ∃ p ∈ h.accepted, p.id ∈ stored h.raopBuffer ∧
            p.seqnum = h.raopBuffer.firstSeqnum ∧ block = ⟨p.id, p.payload⟩ ∧
            r.length = p.size ∧ r.timestamp = p.timestamp) ∧
      (∀ length timestamp noResend block f,
        (raopBufferDequeue h.raopBuffer length timestamp noResend).data = some block →
          h.lastReturned = some f →
            1 ≤ (h.raopBuffer.firstSeqnum - f).toNat ∧
              (h.raopBuffer.firstSeqnum - f).toNat ≤ 32) := by
  intro h
  have hl : Ledger h := ledger_run P (ledger_init P aeskey aesiv ecdhSecret) ops
  refine ⟨?_, ⟨hl.distinct, hl.places⟩, ?_, ?_⟩
  · intro data datalen timestamp out hret
    rcases enqueue_cases P h.raopBuffer data datalen timestamp out with ⟨-, hsame, -, -⟩ | ⟨h1, -⟩
    · exact hsame
    · exact absurd h1 hret
  · intro length timestamp noResend block r hd
    obtain ⟨-, -, hf, p, hp, hholds, hseq, hr⟩ := dequeue_returns hl hd
    have hr : r = ⟨some ⟨p.id, p.payload⟩, p.size, p.timestamp, taken h.raopBuffer⟩ := hr
    rw [hr] at hd ⊢
    exact ⟨p, hp, mem_contents.mpr ⟨_, storedId_holds hf hholds⟩, hseq,
      (Option.some.inj hd).symm, rfl, rfl⟩
  · intro length timestamp noResend block f hd hlast
    obtain ⟨-, hpos, -, -⟩ := dequeue_returns hl hd
    exact returned_gap hl hlast hpos

end WinAirPlay
