import WinAirPlay.RaopBuffer.Calls
import WinAirPlay.Foundations.SlotTable

/-! # Who owns a payload

`raop_buffer_flush` frees the payload of every entry and clears `filled`, but not `payload_data`.
So a flush that finds a packet leaves a pointer to a freed block, which the next flush or
`raop_buffer_destroy` frees again unless the slot was used in between. Here `free` fails on a block
that is not live.
-/

namespace WinAirPlay
open Foundations.ByteBuffer Foundations.SerialNumber Foundations.SlotTable Foundations.Transition
set_option autoImplicit false

/-! ## A heap that checks `free` -/

def Heap.Live (heap : Heap) (id : ℕ) : Prop := id < heap.next ∧ id ∉ heap.freed

instance (heap : Heap) (id : ℕ) : Decidable (heap.Live id) := inferInstanceAs (Decidable (_ ∧ _))

/-- `free` of a block that is not live fails. -/
def Heap.free (heap : Heap) (id : ℕ) : Option Heap :=
  if heap.Live id then some { heap with freed := heap.freed ++ [id] } else none

def Heap.freeAll (heap : Heap) : List ℕ → Option Heap
  | [] => some heap
  | id :: ids => (heap.free id).bind fun heap => heap.freeAll ids

theorem Heap.freeAll_eq_some {heap : Heap} {ids : List ℕ} (hids : ids.Nodup)
    (hlive : ∀ id ∈ ids, heap.Live id) :
    heap.freeAll ids = some { heap with freed := heap.freed ++ ids } := by
  induction ids generalizing heap with
  | nil => rw [Heap.freeAll, List.append_nil]
  | cons id ids ih =>
    obtain ⟨hid, hids⟩ := List.nodup_cons.mp hids
    rw [Heap.freeAll, Heap.free, if_pos (hlive id (List.mem_cons_self ..)), Option.bind_some,
      ih hids]
    · simp
    · intro other hother
      obtain ⟨hnext, hfreed⟩ := hlive other (List.mem_cons_of_mem id hother)
      refine ⟨hnext, ?_⟩
      rw [List.mem_append, List.mem_singleton, not_or]
      exact ⟨hfreed, fun heq => hid (heq ▸ hother)⟩

/-! ## Calls on such a heap -/

/-- The allocation numbers that a call gives to `free`, in order. -/
def BufferCall.frees (P : Openssl) (b : RaopBuffer) : BufferCall → List ℕ
  | .enqueue data datalen timestamp useSeqnum bufferEntry =>
    if (raopBufferEnqueue P b data datalen timestamp useSeqnum bufferEntry).flushed then
      flushFrees b
    else []
  | .dequeue .. => []
  | .flush _ => flushFrees b

/-- A call is not possible when one of its frees fails. -/
def checkedStep (P : Openssl) (b : RaopBuffer) (call : BufferCall) :
    Option (RaopBuffer × List Empty) :=
  (b.heap.freeAll (call.frees P b)).map fun heap =>
    ({ call.apply P b with heap := { (call.apply P b).heap with freed := heap.freed } }, [])

/-- `raop_buffer_destroy` frees the payload of each entry that has one. -/
def raopBufferDestroy (b : RaopBuffer) : Option Heap := b.heap.freeAll (flushFrees b)

/-- The block that a call hands to its caller. -/
def BufferCall.returned (b : RaopBuffer) : BufferCall → Option Block
  | .dequeue length timestamp noResend => (raopBufferDequeue b length timestamp noResend).data
  | _ => none

/-- After the call no pointer is left to a block that is live: it was overwritten. -/
def Loses (P : Openssl) (b : RaopBuffer) (call : BufferCall) : Prop :=
  ∃ i block, (b.entries i).payloadData = some block ∧ (call.apply P b).heap.Live block.id ∧
    (∀ j, ((call.apply P b).entries j).payloadData ≠ some block) ∧ call.returned b ≠ some block

/-- Exactly the filled entries have a payload, a live block that no other entry has. -/
structure PayloadsOwned (b : RaopBuffer) : Prop where
  filled : ∀ i, (b.entries i).payloadData.isSome = (b.entries i).filled
  live : ∀ i block, (b.entries i).payloadData = some block → b.heap.Live block.id
  distinct : ∀ i j block block', (b.entries i).payloadData = some block →
    (b.entries j).payloadData = some block' → block.id = block'.id → i = j

/-- The buffer owns its payloads through the calls, loses none and can be destroyed at the end. -/
structure OwnsPayloads (P : Openssl) (b : RaopBuffer) (calls : List BufferCall) : Prop where
  owned : Throughout (callStep P) PayloadsOwned b calls
  kept : Along (callStep P) (fun b call => ¬ Loses P b call) b calls
  destroyed : ((run (checkedStep P) b calls).bind raopBufferDestroy).isSome = true

/-- The packet is accepted and is 32 or more numbers ahead of the first one. -/
structure Overruns (b : RaopBuffer) (data : Bytes) (datalen seqnum : BitVec 16) : Prop where
  length : 12 ≤ datalen.toNat ∧ datalen.toNat ≤ raopPacketLen
  audio : isNoDataPacket data datalen = false
  far : raopBufferLength ≤ ahead b.firstSeqnum seqnum ∧ ahead b.firstSeqnum seqnum < 2 ^ 15

/-- No packet is flushed but one whose slot is filled again at once. -/
def FlushesNone (b : RaopBuffer) : BufferCall → Prop
  | .enqueue data datalen _ useSeqnum _ =>
    Overruns b data datalen (enqueueSeqnum b data useSeqnum) →
      ∀ i, (b.entries i).filled = true → i = slot (enqueueSeqnum b data useSeqnum)
  | .dequeue .. => True
  | .flush _ => ∀ i, (b.entries i).filled = false

/-! ## What a call does to the payloads -/

theorem flushEntry_payload (e : RaopBufferEntry) : (flushEntry e).payloadData = e.payloadData := by
  unfold flushEntry
  split <;> simp_all

theorem raopBufferFlush_payload (b : RaopBuffer) (n : ℤ) (i : Fin raopBufferLength) :
    ((raopBufferFlush b n).entries i).payloadData = (b.entries i).payloadData := by
  unfold raopBufferFlush
  split <;> exact flushEntry_payload _

theorem raopBufferFlush_heap (b : RaopBuffer) (n : ℤ) :
    (raopBufferFlush b n).heap = { b.heap with freed := b.heap.freed ++ flushFrees b } := by
  unfold raopBufferFlush
  split <;> rfl

theorem storeBase_freed (b : RaopBuffer) (s : BitVec 16) (flushed : Bool) :
    (storeBase b s flushed).heap.freed =
      b.heap.freed ++ (if flushed then flushFrees b else []) := by
  cases flushed with
  | true => exact congrArg Heap.freed (raopBufferFlush_heap b _)
  | false => exact (List.append_nil _).symm

theorem apply_freed (P : Openssl) (b : RaopBuffer) (call : BufferCall) :
    (call.apply P b).heap.freed = b.heap.freed ++ call.frees P b := by
  cases call with
  | enqueue data datalen timestamp useSeqnum bufferEntry =>
    obtain ⟨data', -, -, heq⟩ := enqueue_numbered P b data datalen timestamp useSeqnum bufferEntry
    rw [BufferCall.apply, BufferCall.frees, heq]
    obtain ⟨-, hsame, -, hflushed⟩ | ⟨-, hacc⟩ :=
      enqueue_cases P b data' datalen timestamp bufferEntry
    · rw [hsame, hflushed]
      exact (List.append_nil _).symm
    · rw [← storeBase_freed b (packetSeqnum data')]
      rw [hacc.result]
      rfl
  | dequeue length timestamp noResend =>
    have hheap : (raopBufferDequeue b length timestamp noResend).raopBuffer.heap = b.heap := by
      unfold raopBufferDequeue
      dsimp only
      split_ifs <;> rfl
    rw [BufferCall.apply, hheap]
    exact (List.append_nil _).symm
  | flush nextSeq =>
    exact congrArg Heap.freed (raopBufferFlush_heap b nextSeq)

theorem mem_flushFrees {b : RaopBuffer} {id : ℕ} :
    id ∈ flushFrees b ↔ ∃ i block, (b.entries i).payloadData = some block ∧ block.id = id := by
  unfold flushFrees
  simp

/-! ## Frees that do not fail -/

theorem payloadsOwned_init (P : Openssl) (aeskey aesiv ecdhSecret : Bytes) :
    PayloadsOwned (raopBufferInit P aeskey aesiv ecdhSecret) where
  filled _ := rfl
  live _ _ h := by cases h
  distinct _ _ _ _ h := by cases h

theorem flushFrees_nodup {b : RaopBuffer} (hb : PayloadsOwned b) : (flushFrees b).Nodup := by
  refine nodup_contents (f := fun i => (b.entries i).payloadData.map Block.id) ?_
  intro i j id hi hj
  obtain ⟨block, hblock, rfl⟩ := Option.map_eq_some_iff.mp hi
  obtain ⟨block', hblock', hid⟩ := Option.map_eq_some_iff.mp hj
  exact hb.distinct i j block block' hblock hblock' hid.symm

theorem freeAll_flushFrees {b : RaopBuffer} (hb : PayloadsOwned b) :
    b.heap.freeAll (flushFrees b) =
      some { b.heap with freed := b.heap.freed ++ flushFrees b } := by
  refine Heap.freeAll_eq_some (flushFrees_nodup hb) fun id hid => ?_
  obtain ⟨i, block, hblock, rfl⟩ := mem_flushFrees.mp hid
  exact hb.live i block hblock

theorem freeAll_frees (P : Openssl) {b : RaopBuffer} (hb : PayloadsOwned b) (call : BufferCall) :
    b.heap.freeAll (call.frees P b) =
      some { b.heap with freed := b.heap.freed ++ call.frees P b } := by
  have hnone : b.heap.freeAll [] = some { b.heap with freed := b.heap.freed ++ [] } := by
    rw [Heap.freeAll, List.append_nil]
  cases call with
  | enqueue data datalen timestamp useSeqnum bufferEntry =>
    rw [BufferCall.frees]
    split_ifs
    · exact freeAll_flushFrees hb
    · exact hnone
  | dequeue length timestamp noResend => exact hnone
  | flush nextSeq => exact freeAll_flushFrees hb

theorem checkedStep_eq (P : Openssl) {b : RaopBuffer} (hb : PayloadsOwned b) (call : BufferCall) :
    checkedStep P b call = callStep P b call := by
  rw [checkedStep, freeAll_frees P hb call, Option.map_some, ← apply_freed]
  rfl

/-! ## Nothing is lost -/

theorem not_loses_of_kept {P : Openssl} {b : RaopBuffer} {call : BufferCall}
    (h : ∀ i block, (b.entries i).payloadData = some block →
      (∃ j, ((call.apply P b).entries j).payloadData = some block) ∨
        call.returned b = some block ∨ ¬ (call.apply P b).heap.Live block.id) :
    ¬ Loses P b call := by
  rintro ⟨i, block, hblock, hlive, hgone, hkept⟩
  obtain ⟨j, hj⟩ | hreturned | hfreed := h i block hblock
  · exact hgone j hj
  · exact hkept hreturned
  · exact hfreed hlive

theorem payload_of_unfilled {b : RaopBuffer} (hb : PayloadsOwned b) {i : Fin raopBufferLength}
    (hi : (b.entries i).filled = false) : (b.entries i).payloadData = none := by
  have h := hb.filled i
  rw [hi] at h
  simpa using h

theorem payloadsOwned_not_loses (P : Openssl) {b : RaopBuffer} (hw : Window b)
    (hb : PayloadsOwned b) (call : BufferCall) : ¬ Loses P b call := by
  refine not_loses_of_kept fun i block hblock => ?_
  cases call with
  | enqueue data datalen timestamp useSeqnum bufferEntry =>
    obtain ⟨data', -, -, heq⟩ := enqueue_numbered P b data datalen timestamp useSeqnum bufferEntry
    rw [BufferCall.apply, heq]
    obtain ⟨-, hsame, -, -⟩ | ⟨-, hacc⟩ := enqueue_cases P b data' datalen timestamp bufferEntry
    · exact Or.inl ⟨i, by rw [hsame]; exact hblock⟩
    · cases hf : (raopBufferEnqueue P b data' datalen timestamp true bufferEntry).flushed with
      | true =>
        refine Or.inr (Or.inr fun hlive => hlive.2 ?_)
        rw [hacc.result, hf]
        show block.id ∈ (storeBase b (packetSeqnum data') true).heap.freed
        rw [storeBase_freed, if_pos rfl]
        exact List.mem_append_right _ (mem_flushFrees.mpr ⟨i, block, hblock, rfl⟩)
      | false =>
        have hslot := (storeBase_ready hw hacc).2.1
        rw [hf] at hslot
        have hne : i ≠ slot (packetSeqnum data') := by
          rintro rfl
          rw [payload_of_unfilled hb hslot] at hblock
          cases hblock
        refine Or.inl ⟨i, ?_⟩
        rw [hacc.result, hf]
        show (Function.update b.entries _ _ i).payloadData = _
        rw [Function.update_of_ne hne]
        exact hblock
  | dequeue length timestamp noResend =>
    obtain hsame | ⟨-, -, -, hskip⟩ | ⟨-, -, -, htake⟩ :=
      dequeue_cases hw length timestamp noResend
    · exact Or.inl ⟨i, by rw [BufferCall.apply, hsame]; exact hblock⟩
    · exact Or.inl ⟨i, by rw [BufferCall.apply, hskip]; exact hblock⟩
    · by_cases hi : i = slot b.firstSeqnum
      · refine Or.inr (Or.inl ?_)
        rw [BufferCall.returned, htake, ← hi]
        exact hblock
      · refine Or.inl ⟨i, ?_⟩
        rw [BufferCall.apply, htake]
        show (Function.update b.entries _ _ i).payloadData = _
        rw [Function.update_of_ne hi]
        exact hblock
  | flush nextSeq => exact Or.inl ⟨i, (raopBufferFlush_payload b nextSeq i).trans hblock⟩

/-! ## When a call keeps the payloads owned -/

theorem payloadsOwned_flush_iff {b : RaopBuffer} (hb : PayloadsOwned b) (n : ℤ) :
    PayloadsOwned (raopBufferFlush b n) ↔ ∀ i, (b.entries i).filled = false := by
  constructor
  · intro h i
    rw [← hb.filled i, ← raopBufferFlush_payload b n i, h.filled i]
    exact raopBufferFlush_filled b n i
  · intro hnone
    have hpayload : ∀ i, ((raopBufferFlush b n).entries i).payloadData = none := fun i =>
      (raopBufferFlush_payload b n i).trans (payload_of_unfilled hb (hnone i))
    refine ⟨fun i => ?_, fun i block h => ?_, fun i j block block' h => ?_⟩
    · rw [hpayload, raopBufferFlush_filled]
      rfl
    · rw [hpayload] at h
      cases h
    · rw [hpayload] at h
      cases h

theorem payloadsOwned_storePacket (P : Openssl) {base : RaopBuffer} (data : Bytes) (payloadSize : ℕ)
    {s : BitVec 16} (timestamp : UInt64) (out : RaopBufferEntry) (flushed : Bool)
    (hfilled : ∀ i, i ≠ slot s → (base.entries i).payloadData.isSome = (base.entries i).filled)
    (hlive : ∀ i block, i ≠ slot s → (base.entries i).payloadData = some block →
      base.heap.Live block.id)
    (hdistinct : ∀ i j block block', i ≠ slot s → j ≠ slot s →
      (base.entries i).payloadData = some block → (base.entries j).payloadData = some block' →
        block.id = block'.id → i = j)
    (hfreed : ∀ id ∈ base.heap.freed, id < base.heap.next) :
    PayloadsOwned (storePacket P base data payloadSize s timestamp out flushed).raopBuffer := by
  set b' := (storePacket P base data payloadSize s timestamp out flushed).raopBuffer with hb'
  set stored : Block := ⟨base.heap.next, raopBufferDecrypt P base data payloadSize⟩ with hstored
  have hself : (b'.entries (slot s)).filled = true ∧
      (b'.entries (slot s)).payloadData = some stored := by
    simp [hb', storePacket, hstored]
  have hother : ∀ i, i ≠ slot s → b'.entries i = base.entries i := fun i hi => by
    simp [hb', storePacket, Function.update_of_ne hi]
  have hnew : ∀ i block, i ≠ slot s → (b'.entries i).payloadData = some block →
      base.heap.Live block.id := fun i block hi h => by
    rw [hother i hi] at h
    exact hlive i block hi h
  refine ⟨fun i => ?_, fun i block h => ?_, fun i j block block' hi hj hid => ?_⟩
  · by_cases hi : i = slot s
    · rw [hi, hself.1, hself.2]
      rfl
    · rw [hother i hi]
      exact hfilled i hi
  · have hnext : b'.heap = { base.heap with next := base.heap.next + 2 } := rfl
    rw [hnext]
    by_cases hi : i = slot s
    · rw [hi, hself.2] at h
      obtain rfl := Option.some.inj h
      exact ⟨Nat.lt_add_of_pos_right (by decide), fun hmem => (hfreed _ hmem).false⟩
    · obtain ⟨hlt, hnot⟩ := hnew i block hi h
      exact ⟨Nat.lt_add_right 2 hlt, hnot⟩
  · by_cases hi' : i = slot s <;> by_cases hj' : j = slot s
    · rw [hi', hj']
    · rw [hi', hself.2] at hi
      obtain rfl := Option.some.inj hi
      exact absurd (hnew j block' hj' hj).1 (by rw [← hid]; exact lt_irrefl _)
    · rw [hj', hself.2] at hj
      obtain rfl := Option.some.inj hj
      exact absurd (hnew i block hi' hi).1 (by rw [hid]; exact lt_irrefl _)
    · rw [hother i hi'] at hi
      rw [hother j hj'] at hj
      exact hdistinct i j block block' hi' hj' hi hj hid

/-- Every block number that the buffer knows has been allocated. -/
structure Allocated (b : RaopBuffer) : Prop where
  payload : ∀ i block, (b.entries i).payloadData = some block → block.id < b.heap.next
  freed : ∀ id ∈ b.heap.freed, id < b.heap.next

theorem allocated_init (P : Openssl) (aeskey aesiv ecdhSecret : Bytes) :
    Allocated (raopBufferInit P aeskey aesiv ecdhSecret) where
  payload _ _ h := by cases h
  freed _ h := by cases h

theorem allocated_flush {b : RaopBuffer} (hb : Allocated b) (n : ℤ) :
    Allocated (raopBufferFlush b n) where
  payload i block h := by
    rw [raopBufferFlush_payload] at h
    rw [raopBufferFlush_next]
    exact hb.payload i block h
  freed id h := by
    rw [raopBufferFlush_heap] at h ⊢
    obtain h | h := List.mem_append.mp h
    · exact hb.freed id h
    · obtain ⟨i, block, hblock, rfl⟩ := mem_flushFrees.mp h
      exact hb.payload i block hblock

theorem allocated_storeBase {b : RaopBuffer} (hb : Allocated b) (s : BitVec 16) (flushed : Bool) :
    Allocated (storeBase b s flushed) := by
  cases flushed with
  | true => exact allocated_flush hb _
  | false => exact hb

theorem allocated_storePacket (P : Openssl) {base : RaopBuffer} (hb : Allocated base) (data : Bytes)
    (payloadSize : ℕ) {s : BitVec 16} (timestamp : UInt64) (out : RaopBufferEntry)
    (flushed : Bool) :
    Allocated (storePacket P base data payloadSize s timestamp out flushed).raopBuffer := by
  have hnext : ∀ id, id < base.heap.next → id < base.heap.next + 2 := fun id h =>
    Nat.lt_add_right 2 h
  refine ⟨fun i block h => ?_, fun id h => hnext id (hb.freed id h)⟩
  by_cases hi : i = slot s
  · simp only [hi, storePacket, Function.update_self] at h
    obtain rfl := Option.some.inj h
    exact Nat.lt_add_of_pos_right (by decide)
  · simp only [storePacket, Function.update_of_ne hi] at h
    exact hnext _ (hb.payload i block h)

theorem allocated_call (P : Openssl) {b : RaopBuffer} (hw : Window b) (hb : Allocated b)
    (call : BufferCall) : Allocated (call.apply P b) := by
  cases call with
  | enqueue data datalen timestamp useSeqnum bufferEntry =>
    obtain ⟨data', -, -, heq⟩ := enqueue_numbered P b data datalen timestamp useSeqnum bufferEntry
    rw [BufferCall.apply, heq]
    obtain ⟨-, hsame, -, -⟩ | ⟨-, hacc⟩ := enqueue_cases P b data' datalen timestamp bufferEntry
    · rw [hsame]
      exact hb
    · rw [hacc.result]
      exact allocated_storePacket P (allocated_storeBase hb _ _) data' _ timestamp bufferEntry _
  | dequeue length timestamp noResend =>
    rw [BufferCall.apply]
    obtain hsame | ⟨-, -, -, hskip⟩ | ⟨-, -, -, htake⟩ :=
      dequeue_cases hw length timestamp noResend
    · rw [hsame]
      exact hb
    · rw [hskip]
      exact ⟨hb.payload, hb.freed⟩
    · rw [htake]
      refine ⟨fun i block h => ?_, hb.freed⟩
      by_cases hi : i = slot b.firstSeqnum
      · simp [taken, hi, takeEntry] at h
      · simp only [taken, Function.update_of_ne hi] at h
        exact hb.payload i block h
  | flush nextSeq => exact allocated_flush hb nextSeq

/-! ### Enqueue -/

section
variable {P : Openssl} {b : RaopBuffer} {data : Bytes} {datalen : BitVec 16} {timestamp : UInt64}
  {out : RaopBufferEntry}

theorem overruns_flushed (h : Overruns b data datalen (packetSeqnum data)) :
    (raopBufferEnqueue P b data datalen timestamp true out).ret = 1 ∧
      (raopBufferEnqueue P b data datalen timestamp true out).flushed = true := by
  obtain ⟨hlow, hhigh⟩ := h.far
  have hlow : 32 ≤ ahead b.firstSeqnum (packetSeqnum data) := hlow
  have htimely : 0 ≤ seqnumCmp (packetSeqnum data) b.firstSeqnum := by
    rw [seqnumCmp, signedDiff_nonneg_iff]
    omega
  have hroom : 0 ≤ seqnumCmp (packetSeqnum data) (b.firstSeqnum + 32#16) := by
    rw [seqnumCmp, signedDiff_nonneg_iff]
    unfold ahead at hlow hhigh ⊢
    bv_omega
  have hret := enqueue_ret_one P timestamp out h.length h.audio (Or.inr htimely) (Or.inl hroom)
  exact ⟨hret, (enqueue_stored hret).2.trans (decide_eq_true hroom)⟩

theorem overruns_of_accepts
    (hret : (raopBufferEnqueue P b data datalen timestamp true out).ret = 1)
    (hacc : Accepts P b data datalen timestamp out
      (raopBufferEnqueue P b data datalen timestamp true out))
    (hflushed : (raopBufferEnqueue P b data datalen timestamp true out).flushed = true)
    (he : b.isEmpty = false) : Overruns b data datalen (packetSeqnum data) where
  length := hacc.length
  audio := (enqueue_stored hret).1
  far := by
    have htimely := hacc.timely he
    have hroom := of_decide_eq_true ((enqueue_stored hret).2.symm.trans hflushed)
    rw [seqnumCmp, signedDiff_neg_iff] at htimely
    rw [seqnumCmp, signedDiff_nonneg_iff] at hroom
    show 32 ≤ _ ∧ _
    unfold ahead at htimely hroom ⊢
    bv_omega

theorem payloadsOwned_store_fits (hb : PayloadsOwned b) (hall : Allocated b)
    (hacc : Accepts P b data datalen timestamp out
      (raopBufferEnqueue P b data datalen timestamp true out))
    (hf : (raopBufferEnqueue P b data datalen timestamp true out).flushed = false) :
    PayloadsOwned (raopBufferEnqueue P b data datalen timestamp true out).raopBuffer := by
  rw [hacc.result, hf]
  exact payloadsOwned_storePacket P data _ timestamp out false (fun i _ => hb.filled i)
    (fun i block _ => hb.live i block) (fun i j block block' _ _ => hb.distinct i j block block')
    hall.freed

/-- A packet that is stored after a flush leaves the pointers of the other slots. -/
theorem payloadsOwned_store_flushed_iff (hb : PayloadsOwned b) (hall : Allocated b)
    (hacc : Accepts P b data datalen timestamp out
      (raopBufferEnqueue P b data datalen timestamp true out))
    (hf : (raopBufferEnqueue P b data datalen timestamp true out).flushed = true) :
    PayloadsOwned (raopBufferEnqueue P b data datalen timestamp true out).raopBuffer ↔
      ∀ i, (b.entries i).filled = true → i = slot (packetSeqnum data) := by
  rw [hacc.result, hf]
  set base := storeBase b (packetSeqnum data) true with hbase
  have hpayload : ∀ i, (base.entries i).payloadData = (b.entries i).payloadData :=
    raopBufferFlush_payload b _
  have hfilled : ∀ i, (base.entries i).filled = false := raopBufferFlush_filled b _
  constructor
  · intro h i hi
    by_contra hne
    -- the flush has emptied the slot and left its pointer
    have hother := h.filled i
    have hentry : (storePacket P base data (datalen.toNat - 12) (packetSeqnum data) timestamp out
        true).raopBuffer.entries i = base.entries i := by
      simp [storePacket, Function.update_of_ne hne]
    rw [hentry, hfilled, hpayload, hb.filled i, hi] at hother
    cases hother
  · intro h
    have hnone : ∀ i, i ≠ slot (packetSeqnum data) → (base.entries i).payloadData = none := by
      intro i hi
      rw [hpayload]
      refine payload_of_unfilled hb ?_
      by_contra hi'
      exact hi (h i (by simpa using hi'))
    refine payloadsOwned_storePacket P data _ timestamp out true (fun i hi => ?_)
      (fun i block hi hblock => ?_) (fun i j block block' hi _ hblock => ?_)
      (allocated_storeBase hall _ true).freed
    · rw [hnone i hi, hfilled]
      rfl
    · rw [hnone i hi] at hblock
      cases hblock
    · rw [hnone i hi] at hblock
      cases hblock

theorem payloadsOwned_enqueue_iff (hw : Window b) (hb : PayloadsOwned b) (hall : Allocated b) :
    PayloadsOwned (raopBufferEnqueue P b data datalen timestamp true out).raopBuffer ↔
      (Overruns b data datalen (packetSeqnum data) →
        ∀ i, (b.entries i).filled = true → i = slot (packetSeqnum data)) := by
  obtain ⟨hret, hsame, -, -⟩ | ⟨hret, hacc⟩ := enqueue_cases P b data datalen timestamp out
  · rw [hsame]
    exact ⟨fun _ hover => absurd (overruns_flushed hover).1 hret, fun _ => hb⟩
  · cases hf : (raopBufferEnqueue P b data datalen timestamp true out).flushed with
    | false =>
      refine ⟨fun _ hover => ?_, fun _ => payloadsOwned_store_fits hb hall hacc hf⟩
      exact absurd (hf.symm.trans (overruns_flushed hover).2) (by decide)
    | true =>
      rw [payloadsOwned_store_flushed_iff hb hall hacc hf]
      refine ⟨fun h _ => h, fun h i hi => ?_⟩
      cases he : b.isEmpty with
      | true => exact absurd (hi.symm.trans (hw.unfilled he i)) (by decide)
      | false => exact h (overruns_of_accepts hret hacc hf he) i hi

end

/-! ### Every call -/

theorem payloadsOwned_dequeue {b : RaopBuffer} (hw : Window b) (hb : PayloadsOwned b) (length : ℕ)
    (timestamp : UInt64) (noResend : Bool) :
    PayloadsOwned (raopBufferDequeue b length timestamp noResend).raopBuffer := by
  obtain hsame | ⟨-, -, -, hskip⟩ | ⟨-, -, -, htake⟩ := dequeue_cases hw length timestamp noResend
  · rw [hsame]
    exact hb
  · rw [hskip]
    exact ⟨hb.filled, hb.live, hb.distinct⟩
  · rw [htake]
    have hself : ((taken b).entries (slot b.firstSeqnum)).filled = false ∧
        ((taken b).entries (slot b.firstSeqnum)).payloadData = none := by
      simp [taken, takeEntry]
    have hother : ∀ i block, ((taken b).entries i).payloadData = some block →
        (b.entries i).payloadData = some block := by
      intro i block h
      by_cases hi : i = slot b.firstSeqnum
      · rw [hi, hself.2] at h
        cases h
      · simpa only [taken, Function.update_of_ne hi] using h
    refine ⟨fun i => ?_, fun i block h => hb.live i block (hother i block h),
      fun i j block block' hi hj => hb.distinct i j block block' (hother i block hi)
        (hother j block' hj)⟩
    by_cases hi : i = slot b.firstSeqnum
    · rw [hi, hself.1, hself.2]
      rfl
    · simp only [taken, Function.update_of_ne hi]
      exact hb.filled i

/-- A call leaves the payloads owned exactly if it flushes no packet. -/
theorem payloadsOwned_call_iff (P : Openssl) {b : RaopBuffer} (hw : Window b) (hall : Allocated b)
    (hb : PayloadsOwned b) (call : BufferCall) :
    PayloadsOwned (call.apply P b) ↔ FlushesNone b call := by
  cases call with
  | enqueue data datalen timestamp useSeqnum bufferEntry =>
    obtain ⟨data', hseq, hnodata, heq⟩ :=
      enqueue_numbered P b data datalen timestamp useSeqnum bufferEntry
    rw [BufferCall.apply, heq, payloadsOwned_enqueue_iff hw hb hall, FlushesNone, ← hseq]
    refine imp_congr ⟨fun h => ?_, fun h => ?_⟩ Iff.rfl
    · exact ⟨h.length, hnodata.symm.trans h.audio, h.far⟩
    · exact ⟨h.length, hnodata.trans h.audio, h.far⟩
  | dequeue length timestamp noResend =>
    exact ⟨fun _ => trivial, fun _ => payloadsOwned_dequeue hw hb length timestamp noResend⟩
  | flush nextSeq => exact payloadsOwned_flush_iff hb nextSeq

/-! ## Any sequence of calls -/

theorem callStep_sound {P : Openssl} {b : RaopBuffer} {call : BufferCall}
    {r : RaopBuffer × List Empty} (hb : Window b ∧ Allocated b) (hr : callStep P b call = some r) :
    Window r.1 ∧ Allocated r.1 := by
  obtain rfl : (call.apply P b, []) = r := Option.some.inj hr
  exact ⟨window_call P hb.1 call, allocated_call P hb.1 hb.2 call⟩

/-- The buffer owns its payloads through the calls exactly if no call flushes a packet. -/
theorem ownsPayloads_iff (P : Openssl) (aeskey aesiv ecdhSecret : Bytes) (calls : List BufferCall) :
    OwnsPayloads P (raopBufferInit P aeskey aesiv ecdhSecret) calls ↔
      Along (callStep P) FlushesNone (raopBufferInit P aeskey aesiv ecdhSecret) calls := by
  set b := raopBufferInit P aeskey aesiv ecdhSecret with hb
  have hsound : Window b ∧ Allocated b :=
    ⟨window_init P aeskey aesiv ecdhSecret, allocated_init P aeskey aesiv ecdhSecret⟩
  have hiff : Throughout (callStep P) PayloadsOwned b calls ↔
      Along (callStep P) FlushesNone b calls := by
    refine throughout_iff_along_of (I := fun b => Window b ∧ Allocated b)
      (fun b call r hb hr => callStep_sound hb hr)
      (fun b call r hb hown hr => ?_) hsound (payloadsOwned_init P aeskey aesiv ecdhSecret)
    obtain rfl : (call.apply P b, []) = r := Option.some.inj hr
    exact payloadsOwned_call_iff P hb.1 hb.2 hown call
  rw [← hiff]
  -- with payloads that are owned, no pointer is overwritten and each `free` finds its block
  refine ⟨fun h => h.owned, fun howned => ⟨howned, ?_, ?_⟩⟩
  · exact howned.along (I := fun b => Window b ∧ Allocated b)
      (fun b call r hb hr => callStep_sound hb hr)
      (fun b call _ hb hown _ _ => payloadsOwned_not_loses P hb.1 hown call) hsound
  · obtain ⟨b', hrun⟩ := callStep_total P b calls
    rw [howned.run_eq fun b call hown => checkedStep_eq P hown call, hrun, Option.bind_some,
      raopBufferDestroy, freeAll_flushFrees (howned.last hrun)]
    rfl

/-- The payload that a flush has freed is freed again when the session ends. -/
theorem ownsPayloads_flushed :
    ¬ ∀ (P : Openssl) (aeskey aesiv ecdhSecret : Bytes) (calls : List BufferCall),
      OwnsPayloads P (raopBufferInit P aeskey aesiv ecdhSecret) calls := by
  intro h
  have hdestroyed := (h default [] [] [] [enqueueShort 1, .flush (-1)]).destroyed
  exact absurd hdestroyed (by decide +kernel)

end WinAirPlay
