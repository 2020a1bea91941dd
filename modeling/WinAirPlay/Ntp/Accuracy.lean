import Mathlib.Algebra.Order.Floor.Defs
import Mathlib.Algebra.Order.Floor.Semiring
import Mathlib.Data.Rat.Floor
import Mathlib.Tactic.Linarith
import WinAirPlay.Ntp.Clock

/-! # How accurate the published clock offset is

The clock of the client is the local clock plus a constant `theta`. An exchange is given by its
real times, in microseconds of the local clock and in any ordered field with a floor; a reading of
a clock rounds down. The receive and transmit times of the client lie between the two readings
that the thread makes, so offset and delay determine `theta` up to the roundings: each reading
loses less than one microsecond and each timestamp on the wire at most one more.
-/

namespace WinAirPlay
open Foundations.ByteBuffer Foundations.RingBuffer
set_option autoImplicit false

/-! ## The arithmetic of an entry -/

theorem toInt64_of_lt {t : UInt64} (h : t.toNat < 2 ^ 51) : t.toInt64.toInt = t.toNat := by
  have hof : t.toInt64 = Int64.ofNat t.toNat := by
    rw [← UInt64.toInt64_ofNat', UInt64.ofNat_toNat]
  rw [hof, Int64.toInt_ofNat_of_lt (by omega)]

theorem toInt_sub_of_small {a b : Int64} (ha : -2 ^ 52 ≤ a.toInt ∧ a.toInt ≤ 2 ^ 52)
    (hb : -2 ^ 52 ≤ b.toInt ∧ b.toInt ≤ 2 ^ 52) : (a - b).toInt = a.toInt - b.toInt := by
  rw [Int64.toInt_sub, Int.bmod_eq_of_le (by omega) (by omega)]

theorem toInt_add_of_small {a b : Int64} (ha : -2 ^ 52 ≤ a.toInt ∧ a.toInt ≤ 2 ^ 52)
    (hb : -2 ^ 52 ≤ b.toInt ∧ b.toInt ≤ 2 ^ 52) : (a + b).toInt = a.toInt + b.toInt := by
  rw [Int64.toInt_add, Int.bmod_eq_of_le (by omega) (by omega)]

section
variable {t0 t1 t2 t3 : UInt64} (h0 : t0.toNat < 2 ^ 51) (h1 : t1.toNat < 2 ^ 51)
  (h2 : t2.toNat < 2 ^ 51) (h3 : t3.toNat < 2 ^ 51)
include h0 h1 h2 h3

theorem sampleOffset_toInt :
    (((t1.toInt64 - t0.toInt64) + (t2.toInt64 - t3.toInt64)) / 2).toInt =
      (((t1.toNat : ℤ) - t0.toNat) + ((t2.toNat : ℤ) - t3.toNat)).tdiv 2 := by
  have e0 := toInt64_of_lt h0
  have e1 := toInt64_of_lt h1
  have e2 := toInt64_of_lt h2
  have e3 := toInt64_of_lt h3
  have e10 := toInt_sub_of_small (a := t1.toInt64) (b := t0.toInt64) (by omega) (by omega)
  have e23 := toInt_sub_of_small (a := t2.toInt64) (b := t3.toInt64) (by omega) (by omega)
  rw [Int64.toInt_div_of_ne_right _ _ (by decide), toInt_add_of_small (by omega) (by omega), e10, e23,
    e0, e1, e2, e3]
  rfl

theorem sampleDelay_toInt :
    ((t3.toInt64 - t0.toInt64) - (t2.toInt64 - t1.toInt64)).toInt =
      ((t3.toNat : ℤ) - t0.toNat) - ((t2.toNat : ℤ) - t1.toNat) := by
  have e0 := toInt64_of_lt h0
  have e1 := toInt64_of_lt h1
  have e2 := toInt64_of_lt h2
  have e3 := toInt64_of_lt h3
  have e30 := toInt_sub_of_small (a := t3.toInt64) (b := t0.toInt64) (by omega) (by omega)
  have e21 := toInt_sub_of_small (a := t2.toInt64) (b := t1.toInt64) (by omega) (by omega)
  rw [toInt_sub_of_small (by omega) (by omega), e30, e21, e0, e1, e2, e3]

end

/-! ## Readings and exchanges -/

section
variable {K : Type*} [Field K] [LinearOrder K]

/-- The times that the 32.32 format holds. -/
def InRange (x : K) : Prop := 0 ≤ x ∧ x < ((2 ^ 32 - 2208988800) * 1000000 : ℕ)

/-- A value that is at most the time `x`, and less than `loss` below it. -/
def ReadsWithin (t : UInt64) (x : K) (loss : ℕ) : Prop :=
  (t.toNat : K) ≤ x ∧ x < t.toNat + loss

/-- A request and its reply, with the first eight bytes of the reply. -/
structure NtpExchange (K : Type*) [Field K] [LinearOrder K] where
  sent : K
  there : K
  answering : K
  back : K
  head : Bytes
  there_nonneg : 0 ≤ there
  answering_nonneg : 0 ≤ answering
  back_nonneg : 0 ≤ back
  head_length : head.length = 8

namespace NtpExchange

def received (e : NtpExchange K) : K := e.sent + e.there
def answered (e : NtpExchange K) : K := e.received + e.answering
def returned (e : NtpExchange K) : K := e.answered + e.back

/-- All four readings can be written as timestamps. -/
structure Ranged (theta : K) (e : NtpExchange K) : Prop where
  sent : InRange e.sent
  received : InRange (e.received + theta)
  answered : InRange (e.answered + theta)
  returned : InRange e.returned

/-- The reply before the client writes its two timestamps: it echoes the one of the request. -/
def replyBase (e : NtpExchange K) (request : Bytes) : Bytes :=
  e.head ++ slice request 24 8 ++ List.replicate 16 0

theorem length_replyBase (e : NtpExchange K) {request : Bytes} (hreq : request.length = 32) :
    (e.replyBase request).length = 32 := by
  rw [replyBase, List.length_append, List.length_append, e.head_length, length_slice (by omega),
    List.length_replicate]

theorem byteAt_replyBase (e : NtpExchange K) {request : Bytes} (hreq : request.length = 32)
    {k : ℕ} (hk : k < 8) : byteAt (e.replyBase request) (8 + k) = byteAt request (24 + k) := by
  have hslice : (slice request 24 8).length = 8 := length_slice (by omega)
  rw [← byteAt_slice request 24 hk]
  unfold byteAt replyBase
  rw [List.append_assoc, List.getD_append_right _ _ _ _ (by rw [e.head_length]; omega),
    e.head_length, Nat.add_sub_cancel_left, List.getD_append _ _ _ _ (by omega)]

end NtpExchange

variable [FloorSemiring K]

/-- What a clock that shows `x` returns. -/
noncomputable def reading (x : K) : UInt64 := UInt64.ofNat ⌊x⌋₊

theorem reading_toNat {x : K} (h : InRange x) : (reading x).toNat = ⌊x⌋₊ := by
  have hlt : ⌊x⌋₊ < (2 ^ 32 - 2208988800) * 1000000 := (Nat.floor_lt h.1).mpr h.2
  rw [reading, UInt64.toNat_ofNat', Nat.mod_eq_of_lt (by omega)]

theorem reading_range {x : K} (h : InRange x) : NtpRange (reading x).toNat := by
  rw [reading_toNat h]
  exact (Nat.floor_lt h.1).mpr h.2

namespace NtpExchange

/-- The reply with the time the request was received, and the whole reply. -/
noncomputable def replyReceived (theta : K) (e : NtpExchange K) (request : Bytes) : Bytes :=
  byteutilsPutNtpTimestamp (e.replyBase request) 16 (reading (e.received + theta))

noncomputable def reply (theta : K) (e : NtpExchange K) (request : Bytes) : Bytes :=
  clientReply e.head request (reading (e.received + theta)) (reading (e.answered + theta))

theorem reply_eq (theta : K) (e : NtpExchange K) (request : Bytes) : e.reply theta request =
    byteutilsPutNtpTimestamp (e.replyReceived theta request) 24 (reading (e.answered + theta)) :=
  rfl

end NtpExchange

/-! ## The thread -/

/-- One successful exchange. -/
noncomputable def ntpExchange (Q : DelaySort) (theta : K) (thread : NtpThread) (e : NtpExchange K) :
    NtpThread :=
  let request := byteutilsPutNtpTimestamp thread.request 24 (reading e.sent)
  let response := writeAt thread.response 0 (e.reply theta request)
  { ntp := ntpUpdate Q thread.ntp response (reading e.returned)
    request := request
    response := response }

noncomputable def ntpExchanges (Q : DelaySort) (theta : K) (thread : NtpThread)
    (exchanges : List (NtpExchange K)) : NtpThread :=
  exchanges.foldl (ntpExchange Q theta) thread

/-- The entry that an exchange adds to the ring. -/
noncomputable def NtpExchange.sample (theta : K) (e : NtpExchange K) : NtpData :=
  ntpSample (e.reply theta (byteutilsPutNtpTimestamp (List.replicate 32 0) 24 (reading e.sent)))
    (reading e.returned)

/-! ## The entry of an exchange -/

theorem length_replyReceived (theta : K) (e : NtpExchange K) {request : Bytes}
    (hreq : request.length = 32) : (e.replyReceived theta request).length = 32 := by
  have hbase := e.length_replyBase hreq
  rw [NtpExchange.replyReceived, length_byteutilsPutNtpTimestamp (by omega), hbase]

theorem length_reply (theta : K) (e : NtpExchange K) {request : Bytes}
    (hreq : request.length = 32) : (e.reply theta request).length = 32 := by
  have hreceived := length_replyReceived theta e hreq
  rw [NtpExchange.reply_eq, length_byteutilsPutNtpTimestamp (by omega), hreceived]

/-- The reply carries the transmit timestamp of the request. -/
theorem reply_echo (theta : K) (e : NtpExchange K) {request : Bytes}
    (hreq : request.length = 32) :
    byteutilsGetNtpTimestamp (e.reply theta request) 8 = byteutilsGetNtpTimestamp request 24 := by
  have hbase := e.length_replyBase hreq
  have hreceived := length_replyReceived theta e hreq
  apply byteutilsGetNtpTimestamp_congr
  intro k hk
  rw [NtpExchange.reply_eq, byteAt_byteutilsPutNtpTimestamp_other (by omega) (by omega),
    NtpExchange.replyReceived, byteAt_byteutilsPutNtpTimestamp_other (by omega) (by omega),
    e.byteAt_replyBase hreq hk]

theorem reply_receivedTimestamp (theta : K) (e : NtpExchange K) {request : Bytes}
    (hreq : request.length = 32) :
    byteutilsGetNtpTimestamp (e.reply theta request) 16 =
      byteutilsGetNtpTimestamp (e.replyReceived theta request) 16 := by
  have hreceived := length_replyReceived theta e hreq
  apply byteutilsGetNtpTimestamp_congr
  intro k hk
  rw [NtpExchange.reply_eq, byteAt_byteutilsPutNtpTimestamp_other (by omega) (by omega)]

/-- A timestamp that is read back does not depend on what the buffer held. -/
theorem writtenTimestamp_eq (b c : Bytes) (offset : ℕ) (hb : offset + 8 ≤ b.length)
    (hc : offset + 8 ≤ c.length) (us : UInt64) :
    byteutilsGetNtpTimestamp (byteutilsPutNtpTimestamp b offset us) offset =
      byteutilsGetNtpTimestamp (byteutilsPutNtpTimestamp c offset us) offset :=
  byteutilsGetNtpTimestamp_congr fun _ hk => byteAt_byteutilsPutNtpTimestamp hb hc hk us

theorem ntpSample_exchange (theta : K) {thread : NtpThread} (e : NtpExchange K)
    (hreq : thread.request.length = 32) (hresp : thread.response.length = 128) :
    ntpSample (writeAt thread.response 0
      (e.reply theta (byteutilsPutNtpTimestamp thread.request 24 (reading e.sent))))
      (reading e.returned) = e.sample theta := by
  have hblank : (List.replicate 32 (0 : UInt8)).length = 32 := List.length_replicate ..
  have hr : (byteutilsPutNtpTimestamp thread.request 24 (reading e.sent)).length = 32 := by
    rw [length_byteutilsPutNtpTimestamp (by omega), hreq]
  have hr' : (byteutilsPutNtpTimestamp (List.replicate 32 0) 24 (reading e.sent)).length = 32 := by
    rw [length_byteutilsPutNtpTimestamp (by omega), hblank]
  have hsent := writtenTimestamp_eq thread.request (List.replicate 32 0) 24
    (by omega) (by omega) (reading e.sent)
  generalize byteutilsPutNtpTimestamp thread.request 24 (reading e.sent) = request at hr hsent ⊢
  generalize hq : byteutilsPutNtpTimestamp (List.replicate 32 0) 24 (reading e.sent) = blank
    at hr' hsent
  have hbase := e.length_replyBase hr
  have hbase' := e.length_replyBase hr'
  have hreceived := length_replyReceived theta e hr
  have hreceived' := length_replyReceived theta e hr'
  have hlen := length_reply theta e hr
  have hread : ∀ o, o + 8 ≤ 32 → byteutilsGetNtpTimestamp
      (writeAt thread.response 0 (e.reply theta request)) o =
        byteutilsGetNtpTimestamp (e.reply theta request) o := by
    intro o ho
    apply byteutilsGetNtpTimestamp_congr
    intro k hk
    rw [byteAt_writeAt (by omega), if_pos (by omega), Nat.sub_zero]
  have h16 : byteutilsGetNtpTimestamp (e.reply theta request) 16 =
      byteutilsGetNtpTimestamp (e.reply theta blank) 16 := by
    rw [reply_receivedTimestamp theta e hr, reply_receivedTimestamp theta e hr']
    exact writtenTimestamp_eq _ _ _ (by omega) (by omega) _
  have h24 : byteutilsGetNtpTimestamp (e.reply theta request) 24 =
      byteutilsGetNtpTimestamp (e.reply theta blank) 24 := by
    rw [NtpExchange.reply_eq, NtpExchange.reply_eq]
    exact writtenTimestamp_eq _ _ _ (by omega) (by omega) _
  unfold NtpExchange.sample ntpSample
  rw [hq, hread 8 (by omega), hread 16 (by omega), hread 24 (by omega), h16, h24,
    reply_echo theta e hr, reply_echo theta e hr', hsent]

/-! ## The ring over a run -/

/-- The ring holds the entries of the exchanges, behind them the entries it started with. -/
structure Filtering (theta : K) (time : UInt64) (past : List (NtpExchange K)) (thread : NtpThread) :
    Prop where
  request : thread.request.length = 32
  response : thread.response.length = 128
  entries : thread.ntp.data.entries.length = raopNtpDataCount
  holds : Holds thread.ntp.data
    ((past.map (NtpExchange.sample theta)).reverse ++
      List.replicate raopNtpDataCount (placeholder time))

theorem filtering_init (theta : K) (time : UInt64) (garbage : ℕ → UInt8) :
    Filtering theta time [] (ntpThreadInit time garbage) where
  request := rfl
  response := by simp [ntpThreadInit]
  entries := by simp [ntpThreadInit, raopNtpInit]
  holds := holds_replicate (by decide) _

theorem filtering_step (Q : DelaySort) {theta : K} {time : UInt64} {past : List (NtpExchange K)}
    {thread : NtpThread} (h : Filtering theta time past thread) (e : NtpExchange K) :
    Filtering theta time (past ++ [e]) (ntpExchange Q theta thread e) := by
  have hsample := ntpSample_exchange theta e h.request h.response
  have hreq : (byteutilsPutNtpTimestamp thread.request 24 (reading e.sent)).length = 32 := by
    rw [length_byteutilsPutNtpTimestamp (by rw [h.request]), h.request]
  refine ⟨hreq, ?_, ?_, ?_⟩
  · have hlen := length_reply theta e hreq
    have hresponse := h.response
    show (writeAt thread.response 0 _).length = 128
    rw [length_writeAt (by omega), hresponse]
  · show (push thread.ntp.data _).entries.length = _
    rw [length_push, h.entries]
  · rw [List.map_append, List.reverse_append]
    have hpush := holds_ntpUpdate Q h.holds (writeAt thread.response 0
      (e.reply theta (byteutilsPutNtpTimestamp thread.request 24 (reading e.sent))))
      (reading e.returned)
    rw [hsample] at hpush
    exact hpush

theorem filtering_run (Q : DelaySort) {theta : K} {time : UInt64}
    {past : List (NtpExchange K)} (exchanges : List (NtpExchange K)) {thread : NtpThread}
    (h : Filtering theta time past thread) :
    Filtering theta time (past ++ exchanges) (ntpExchanges Q theta thread exchanges) := by
  induction exchanges generalizing past thread with
  | nil =>
    rw [List.append_nil]
    exact h
  | cons e exchanges ih =>
    have := ih (filtering_step Q h e)
    rw [List.append_assoc] at this
    exact this

/-! ## Offset and delay -/

theorem reading_within {x : K} (h : InRange x) : ReadsWithin (reading x) x 1 := by
  rw [ReadsWithin, reading_toNat h, Nat.cast_one]
  exact ⟨Nat.floor_le h.1, Nat.lt_floor_add_one x⟩

variable [IsStrictOrderedRing K]

/-- A reading that was sent as a timestamp. -/
theorem timestamp_within {x : K} (h : InRange x) (b : Bytes) (offset : ℕ)
    (hb : offset + 8 ≤ b.length) :
    ReadsWithin (byteutilsGetNtpTimestamp (byteutilsPutNtpTimestamp b offset (reading x)) offset)
      x 2 := by
  obtain ⟨hle, hlt⟩ := reading_within h
  obtain ⟨hback, hloss⟩ := ntpTimestamp_roundTrip hb (reading_range h)
  rw [Nat.cast_one] at hlt
  generalize (byteutilsGetNtpTimestamp (byteutilsPutNtpTimestamp b offset (reading x))
    offset) = t at hback hloss ⊢
  have hback' : (t.toNat : K) ≤ (reading x).toNat := by exact_mod_cast hback
  have hloss' : ((reading x).toNat : K) ≤ t.toNat + 1 := by exact_mod_cast hloss
  refine ⟨by linarith, ?_⟩
  push_cast
  linarith

theorem lt_of_within {t : UInt64} {x : K} {loss : ℕ} (h : ReadsWithin t x loss)
    (hx : InRange x) : t.toNat < 2 ^ 51 := by
  have hlt : (t.toNat : K) < ((2 ^ 32 - 2208988800) * 1000000 : ℕ) := lt_of_le_of_lt h.1 hx.2
  have hnat : t.toNat < (2 ^ 32 - 2208988800) * 1000000 := by exact_mod_cast hlt
  omega

/-- Offset and delay of the entry, computed from the four times without overflow. -/
theorem sample_spec {theta : K} {e : NtpExchange K} (h : e.Ranged theta) :
    ∃ t0 t1 t2 t3 : UInt64, ReadsWithin t0 e.sent 2 ∧ ReadsWithin t1 (e.received + theta) 2 ∧
      ReadsWithin t2 (e.answered + theta) 2 ∧ ReadsWithin t3 e.returned 1 ∧
      (e.sample theta).offset.toInt =
        (((t1.toNat : ℤ) - t0.toNat) + ((t2.toNat : ℤ) - t3.toNat)).tdiv 2 ∧
      (e.sample theta).delay.toInt =
        ((t3.toNat : ℤ) - t0.toNat) - ((t2.toNat : ℤ) - t1.toNat) := by
  generalize hq : byteutilsPutNtpTimestamp (List.replicate 32 0) 24 (reading e.sent) = request
  have hreq : request.length = 32 := by
    rw [← hq, length_byteutilsPutNtpTimestamp (by simp), List.length_replicate]
  have hreceived := length_replyReceived theta e hreq
  have hbase := e.length_replyBase hreq
  have h0 := timestamp_within h.sent (List.replicate 32 0) 24 (by simp)
  rw [hq, ← reply_echo theta e hreq] at h0
  have h1 := timestamp_within h.received (e.replyBase request) 16 (by omega)
  rw [show byteutilsPutNtpTimestamp (e.replyBase request) 16 (reading (e.received + theta)) =
    e.replyReceived theta request from rfl, ← reply_receivedTimestamp theta e hreq] at h1
  have h2 := timestamp_within h.answered (e.replyReceived theta request) 24
    (by omega)
  have h3 := reading_within h.returned
  refine ⟨_, _, _, _, h0, h1, h2, h3, ?_, ?_⟩
  · rw [← sampleOffset_toInt (lt_of_within h0 h.sent) (lt_of_within h1 h.received)
      (lt_of_within h2 h.answered) (lt_of_within h3 h.returned), NtpExchange.sample, hq]
    rfl
  · rw [← sampleDelay_toInt (lt_of_within h0 h.sent) (lt_of_within h1 h.received)
      (lt_of_within h2 h.answered) (lt_of_within h3 h.returned), NtpExchange.sample, hq]
    rfl

/-- The offset of an entry is `theta` up to half its delay and the roundings. -/
theorem sample_accurate {theta : K} {e : NtpExchange K} (h : e.Ranged theta) :
    |((e.sample theta).offset.toInt : K) - theta| ≤ (e.sample theta).delay.toInt / 2 + 3 := by
  obtain ⟨t0, t1, t2, t3, ⟨l0, u0⟩, ⟨l1, u1⟩, ⟨l2, u2⟩, ⟨l3, u3⟩, hoffset, hdelay⟩ := sample_spec h
  rw [hoffset, hdelay]
  generalize hs : ((t1.toNat : ℤ) - t0.toNat) + ((t2.toNat : ℤ) - t3.toNat) = s
  -- the division by two moves the doubled offset by at most one
  have htdiv : s - 1 ≤ 2 * s.tdiv 2 ∧ 2 * s.tdiv 2 ≤ s + 1 := by
    have hsplit := Int.mul_tdiv_add_tmod s 2
    have hrem := Int.tmod_two_eq s
    omega
  have hlow : (s : K) - 1 ≤ 2 * (s.tdiv 2 : ℤ) := by exact_mod_cast htdiv.1
  have hhigh : 2 * ((s.tdiv 2 : ℤ) : K) ≤ s + 1 := by exact_mod_cast htdiv.2
  have hcast : (s : K) = (t1.toNat - t0.toNat) + (t2.toNat - t3.toNat) := by
    rw [← hs]
    push_cast
    rfl
  have hthere := e.there_nonneg
  have hback := e.back_nonneg
  unfold NtpExchange.returned NtpExchange.answered at *
  unfold NtpExchange.received at *
  push_cast at u0 u1 u2 u3 ⊢
  rw [abs_le]
  constructor
  · linarith
  · linarith

/-- The computed delay of an exchange exceeds its two delays by less than four microseconds. -/
theorem sample_delay_lt {theta : K} {e : NtpExchange K} (h : e.Ranged theta) :
    ((e.sample theta).delay.toInt : K) < e.there + e.back + 4 := by
  obtain ⟨t0, t1, t2, t3, ⟨l0, u0⟩, ⟨l1, u1⟩, ⟨l2, u2⟩, ⟨l3, u3⟩, -, hdelay⟩ := sample_spec h
  rw [hdelay]
  unfold NtpExchange.returned NtpExchange.answered at *
  unfold NtpExchange.received at *
  push_cast at u0 u1 u2 u3 ⊢
  linarith

/-! ## Every run -/

/-- After every run of successful exchanges the published offset is that of an exchange of smallest
delay among the last eight, and it is `theta` up to half that delay and three microseconds. -/
theorem ntp_offset_accurate (Q : DelaySort) (theta : K) (time : UInt64) (garbage : ℕ → UInt8)
    (exchanges : List (NtpExchange K)) (hne : exchanges ≠ [])
    (hrange : ∀ e ∈ exchanges, e.Ranged theta)
    (hdelay : ∀ e ∈ exchanges, (e.sample theta).delay < raopNtpMaxDisp.toInt64) :
    let ntp := (ntpExchanges Q theta (ntpThreadInit time garbage) exchanges).ntp
    let newest := exchanges.reverse.take raopNtpDataCount
    ∃ e ∈ newest, ntp.syncOffset = (e.sample theta).offset ∧
      (∀ other ∈ newest, (e.sample theta).delay ≤ (other.sample theta).delay) ∧
      |(ntp.syncOffset.toInt : K) - theta| ≤ (e.sample theta).delay.toInt / 2 + 3 := by
  intro ntp newest
  obtain ⟨past, last, rfl⟩ : ∃ past last, exchanges = past ++ [last] := by
    rcases List.eq_nil_or_concat exchanges with h | ⟨past, last, h⟩
    · exact absurd h hne
    · exact ⟨past, last, by rw [h, List.concat_eq_append]⟩
  have hpast := filtering_run Q past (filtering_init theta time garbage)
  rw [List.nil_append] at hpast
  have hsample := ntpSample_exchange theta last hpast.request hpast.response
  obtain ⟨best, hbest, hoffset, hmin⟩ := ntpUpdate_offset Q hpast.entries hpast.holds
    (writeAt (ntpExchanges Q theta (ntpThreadInit time garbage) past).response 0
      (last.reply theta (byteutilsPutNtpTimestamp
        (ntpExchanges Q theta (ntpThreadInit time garbage) past).request 24 (reading last.sent))))
    (reading last.returned)
  have hntp : ntp.syncOffset = best.offset := by
    rw [← hoffset]
    show (ntpExchanges Q theta _ (past ++ [last])).ntp.syncOffset = _
    unfold ntpExchanges
    rw [List.foldl_append]
    rfl
  -- the newest entries are those of the newest exchanges, then entries of the start
  have hnewest : (e : NtpData) → e ∈ (last.sample theta ::
      ((past.map (NtpExchange.sample theta)).reverse ++
        List.replicate raopNtpDataCount (placeholder time))).take raopNtpDataCount ↔
      (∃ x ∈ newest, x.sample theta = e) ∨ e ∈ (List.replicate raopNtpDataCount
        (placeholder time)).take (raopNtpDataCount - (past.length + 1)) := by
    intro e
    have hsplit : (last.sample theta :: ((past.map (NtpExchange.sample theta)).reverse ++
        List.replicate raopNtpDataCount (placeholder time))) =
        ((past ++ [last]).reverse.map (NtpExchange.sample theta)) ++
          List.replicate raopNtpDataCount (placeholder time) := by
      simp
    rw [hsplit, List.take_append, List.mem_append, ← List.map_take, List.mem_map]
    simp [newest]
  rw [hsample] at hbest hmin
  have hlast : last.sample theta ∈ (last.sample theta ::
      ((past.map (NtpExchange.sample theta)).reverse ++
        List.replicate raopNtpDataCount (placeholder time))).take raopNtpDataCount :=
    List.mem_cons_self ..
  rcases (hnewest best).mp hbest with ⟨e, he, rfl⟩ | hstart
  · refine ⟨e, he, hntp, fun other hother => ?_, ?_⟩
    · exact hmin _ ((hnewest _).mpr (Or.inl ⟨other, hother, rfl⟩))
    · rw [hntp]
      apply sample_accurate
      exact hrange e (List.mem_reverse.mp (List.mem_of_mem_take he))
  · -- an entry of the start has a larger delay than the exchange just made
    have hplace : best = placeholder time :=
      List.eq_of_mem_replicate (List.mem_of_mem_take hstart)
    have hle := hmin _ hlast
    rw [hplace] at hle
    have hlt := hdelay last (by simp)
    rw [Int64.le_iff_toInt_le] at hle
    rw [Int64.lt_iff_toInt_lt] at hlt
    exact absurd hlt (not_lt.mpr hle)

end

/-- An exchange with a client an hour ahead that answers within fifty microseconds. -/
def hourAhead (sent there back : ℕ) : NtpExchange ℚ where
  sent := sent
  there := there
  answering := 50
  back := back
  head := List.replicate 8 0
  there_nonneg := Nat.cast_nonneg there
  answering_nonneg := by norm_num
  back_nonneg := Nat.cast_nonneg back
  head_length := rfl

theorem hourAhead_ranged {sent there back : ℕ} (h : sent + there + back < 2 ^ 40) :
    (hourAhead sent there back).Ranged 3600000000 := by
  have hsum : (sent : ℚ) + there + back < 2 ^ 40 := by exact_mod_cast h
  have hsent : (0 : ℚ) ≤ sent := Nat.cast_nonneg sent
  have hthere : (0 : ℚ) ≤ there := Nat.cast_nonneg there
  have hback : (0 : ℚ) ≤ back := Nat.cast_nonneg back
  constructor
  all_goals
    simp only [InRange, hourAhead, NtpExchange.received, NtpExchange.answered, NtpExchange.returned]
    norm_num at hsum
    constructor <;> push_cast <;> linarith

theorem hourAhead_delay {sent there back : ℕ} (h : sent + there + back < 2 ^ 40)
    (hnetwork : there + back + 4 ≤ 2 ^ 36) :
    ((hourAhead sent there back).sample 3600000000).delay < raopNtpMaxDisp.toInt64 := by
  have hlt := sample_delay_lt (hourAhead_ranged h)
  change (((hourAhead sent there back).sample 3600000000).delay.toInt : ℚ) <
    (there : ℚ) + back + 4 at hlt
  have hdelay : ((hourAhead sent there back).sample 3600000000).delay.toInt <
      (there : ℤ) + back + 4 := by
    exact_mod_cast hlt
  have hmax : raopNtpMaxDisp.toInt64.toInt = 2 ^ 36 := by decide
  rw [Int64.lt_iff_toInt_lt, hmax]
  omega

/-- Ten exchanges, three seconds apart; the fourth is the fastest, the first two are forgotten. -/
def tenExchanges : List (NtpExchange ℚ) :=
  [(10, 9), (30, 1), (12, 40), (2, 3), (25, 5), (7, 7), (90, 2), (3, 60), (11, 11), (8, 30)].zipIdx.map
    fun ((there, back), i) => hourAhead (1000000 + 3000000 * i) (1000 * there) (1000 * back)

theorem exists_of_mem_tenExchanges {e : NtpExchange ℚ} (he : e ∈ tenExchanges) :
    ∃ sent there back : ℕ, e = hourAhead sent there back ∧ sent + there + back < 2 ^ 36 - 4 := by
  obtain ⟨⟨⟨there, back⟩, i⟩, hmem, rfl⟩ := List.mem_map.mp he
  refine ⟨_, _, _, rfl, ?_⟩
  simp only [List.zipIdx_cons, List.zipIdx_nil, List.mem_cons, List.not_mem_nil, or_false,
    Prod.mk.injEq] at hmem
  omega

theorem ntp_offset_accurate_hourAhead :
    let ntp := (ntpExchanges delayMergeSort (3600000000 : ℚ) (ntpThreadInit 0 fun _ => 0)
      tenExchanges).ntp
    ∃ e ∈ tenExchanges.reverse.take raopNtpDataCount,
      ntp.syncOffset = (e.sample 3600000000).offset ∧
      (∀ other ∈ tenExchanges.reverse.take raopNtpDataCount,
        (e.sample 3600000000).delay ≤ (other.sample 3600000000).delay) ∧
      |(ntp.syncOffset.toInt : ℚ) - 3600000000| ≤ (e.sample 3600000000).delay.toInt / 2 + 3 := by
  refine ntp_offset_accurate delayMergeSort 3600000000 0 (fun _ => 0) tenExchanges
    (List.ne_nil_of_length_pos (by decide)) ?_ ?_
  · intro e he
    obtain ⟨sent, there, back, rfl, h⟩ := exists_of_mem_tenExchanges he
    exact hourAhead_ranged (by omega)
  · intro e he
    obtain ⟨sent, there, back, rfl, h⟩ := exists_of_mem_tenExchanges he
    exact hourAhead_delay (by omega) (by omega)

end WinAirPlay
