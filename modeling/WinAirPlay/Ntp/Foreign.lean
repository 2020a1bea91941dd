import WinAirPlay.Ntp.Thread

/-! # Datagrams from other addresses

`recvfrom` writes the sender of every datagram into `remote_saddr`, to which the next request goes,
and every datagram that fits the response buffer goes through the clock filter. So a run is not
disturbed exactly if nothing is ever received from another address than that of `raop_ntp_init`.

Two runs that receive the same from the client then publish the same values, however many requests
they send and time out on in between: `replay` computes the values from what was received.
-/

namespace WinAirPlay
open Foundations.ByteBuffer Foundations.Transition
set_option autoImplicit false

structure SockAddr where
  address : Bytes
  port : BitVec 16
  deriving DecidableEq

structure NtpPeer where
  point : NtpPoint
  thread : NtpThread
  remoteSaddr : SockAddr

/-- The thread of a new `raop_ntp`, for a client at `remoteAddr`. The text that `raop_ntp_init` makes
of the address has four numbers, so only an address of four bytes can be parsed. -/
def ntpPeerInit (remoteAddr : Bytes) (timingRport : BitVec 16) (time : UInt64)
    (garbage : ℕ → UInt8) : Option NtpPeer :=
  if remoteAddr.length = 4 then
    some
      { point := .top
        thread := ntpThreadInit time garbage
        remoteSaddr := ⟨remoteAddr, timingRport⟩ }
  else none

structure SyncValues where
  syncOffset : Int64
  syncDispersion : Int64
  syncDelay : Int64
  deriving DecidableEq

def RaopNtp.values (ntp : RaopNtp) : SyncValues where
  syncOffset := ntp.syncOffset
  syncDispersion := ntp.syncDispersion
  syncDelay := ntp.syncDelay

inductive NtpPeerLabel
  | stopped
  | send (sendTime : UInt64) (sent : Bool)
  | receive (sender : SockAddr) (bytes : Bytes) (t3 : UInt64)
  | timeout
  | wake

inductive NtpOutput
  | request (dest : SockAddr) (request : Bytes)
  | synced (sender : SockAddr) (values : SyncValues)

def responseLength : ℕ := 128

/-- The clock filter and the response buffer after `recvfrom`; a datagram that does not fit is an
error, and fills the buffer. -/
def receiveResponse (Q : DelaySort) (ntp : RaopNtp) (response bytes : Bytes) (t3 : UInt64) :
    RaopNtp × Bytes :=
  if bytes.length ≤ responseLength then
    let response := writeAt response 0 bytes
    (ntpUpdate Q ntp response t3, response)
  else (ntp, writeAt response 0 (bytes.take responseLength))

def ntpPeerStep (Q : DelaySort) (s : NtpPeer) :
    NtpPeerLabel → Option (NtpPeer × List NtpOutput)
  | .stopped => if s.point = .top then some ({ s with point := .exited }, []) else none
  | .send sendTime sent =>
    if s.point = .top then
      let request := byteutilsPutNtpTimestamp s.thread.request 24 sendTime
      let thread := { s.thread with request }
      if sent then
        some ({ s with point := .receiving, thread }, [.request s.remoteSaddr request])
      else some ({ s with point := .sleeping, thread }, [])
    else none
  | .receive sender bytes t3 =>
    if s.point = .receiving then
      let r := receiveResponse Q s.thread.ntp s.thread.response bytes t3
      some ({ point := .sleeping
              thread := { s.thread with ntp := r.1, response := r.2 }
              remoteSaddr := sender },
        if bytes.length ≤ responseLength then [.synced sender r.1.values] else [])
    else none
  | .timeout =>
    if s.point = .receiving then some ({ s with point := .sleeping }, []) else none
  | .wake => if s.point = .sleeping then some ({ s with point := .top }, []) else none

/-! ## What a run receives and does -/

def NtpPeerLabel.reply (addr : SockAddr) : NtpPeerLabel → Option (Bytes × UInt64)
  | .receive sender bytes t3 => if sender = addr then some (bytes, t3) else none
  | _ => none

/-- What is received from `addr`, with the local times. -/
def replies (addr : SockAddr) (run : List NtpPeerLabel) : List (Bytes × UInt64) :=
  run.filterMap (NtpPeerLabel.reply addr)

/-- Nothing is received from another address. -/
def NoForeign (addr : SockAddr) (run : List NtpPeerLabel) : Prop :=
  ∀ sender bytes t3, .receive sender bytes t3 ∈ run → sender = addr

def NtpOutput.dest : NtpOutput → Option SockAddr
  | .request dest _ => some dest
  | _ => none

def destinations (outputs : List NtpOutput) : List SockAddr := outputs.filterMap NtpOutput.dest

def NtpOutput.genuine (addr : SockAddr) : NtpOutput → Option SyncValues
  | .synced sender values => if sender = addr then some values else none
  | _ => none

/-- The values after each reply from `addr`. -/
def genuineSyncs (addr : SockAddr) (outputs : List NtpOutput) : List SyncValues :=
  outputs.filterMap (NtpOutput.genuine addr)

/-- The first run and the second send to the same destinations and publish the same values after
each reply of the client, and both keep the client's address. -/
structure ClockUndisturbed (Q : DelaySort) (s : NtpPeer) (addr : SockAddr)
    (first second : List NtpPeerLabel) : Prop where
  remote : Throughout (ntpPeerStep Q) (fun s => s.remoteSaddr = addr) s first ∧
    Throughout (ntpPeerStep Q) (fun s => s.remoteSaddr = addr) s second
  destinations : ∀ dest ∈ destinations (events (ntpPeerStep Q) s first) ++
    WinAirPlay.destinations (events (ntpPeerStep Q) s second), dest = addr
  values : genuineSyncs addr (events (ntpPeerStep Q) s first) =
    genuineSyncs addr (events (ntpPeerStep Q) s second)

/-! ## The address -/

/-- What is received comes from `addr`. -/
def FromClient (addr : SockAddr) (label : NtpPeerLabel) : Prop :=
  ∀ sender bytes t3, label = .receive sender bytes t3 → sender = addr

theorem noForeign_iff {addr : SockAddr} {run : List NtpPeerLabel} :
    NoForeign addr run ↔ ∀ label ∈ run, FromClient addr label :=
  ⟨fun h _ hlabel sender bytes t3 heq => h sender bytes t3 (heq ▸ hlabel),
    fun h sender bytes t3 hmem => h _ hmem sender bytes t3 rfl⟩

variable {Q : DelaySort} {s : NtpPeer} {label : NtpPeerLabel} {r : NtpPeer × List NtpOutput}

/-- A step keeps the address of the client unless it receives from another one. -/
theorem remoteSaddr_step {addr : SockAddr} (haddr : s.remoteSaddr = addr)
    (hr : ntpPeerStep Q s label = some r) : r.1.remoteSaddr = addr ↔ FromClient addr label := by
  cases label with
  | receive sender bytes t3 =>
    simp only [ntpPeerStep, Option.ite_none_right_eq_some, Option.some.injEq] at hr
    obtain ⟨-, rfl⟩ := hr
    constructor
    · intro hsender _ _ _ heq
      cases heq
      exact hsender
    · exact fun hclient => hclient sender bytes t3 rfl
  | send sendTime sent =>
    simp only [ntpPeerStep, Option.ite_none_right_eq_some] at hr
    obtain ⟨-, hr⟩ := hr
    refine ⟨fun _ _ _ _ heq => (nomatch heq), fun _ => ?_⟩
    split at hr <;> cases hr <;> exact haddr
  | stopped | timeout | wake =>
    simp only [ntpPeerStep, Option.ite_none_right_eq_some, Option.some.injEq] at hr
    obtain ⟨-, rfl⟩ := hr
    exact ⟨fun _ _ _ _ heq => (nomatch heq), fun _ => haddr⟩

theorem remoteSaddr_throughout_iff {addr : SockAddr} {run : List NtpPeerLabel} {last : NtpPeer}
    (haddr : s.remoteSaddr = addr)
    (hrun : Foundations.Transition.run (ntpPeerStep Q) s run = some last) :
    Throughout (ntpPeerStep Q) (fun s => s.remoteSaddr = addr) s run ↔ NoForeign addr run := by
  have hstep : Throughout (ntpPeerStep Q) (fun s => s.remoteSaddr = addr) s run ↔
      Along (ntpPeerStep Q) (fun _ label => FromClient addr label) s run :=
    throughout_iff_along (P := fun s => s.remoteSaddr = addr)
      (G := fun _ label => FromClient addr label) (fun _ _ _ hs hr => remoteSaddr_step hs hr) haddr
  exact hstep.trans ((along_label_iff hrun).trans noForeign_iff.symm)

theorem destinations_client {addr : SockAddr} {run : List NtpPeerLabel} {last : NtpPeer}
    (haddr : s.remoteSaddr = addr) (hforeign : NoForeign addr run)
    (hrun : Foundations.Transition.run (ntpPeerStep Q) s run = some last) :
    ∀ dest ∈ destinations (events (ntpPeerStep Q) s run), dest = addr := by
  have houtput := emits_along (I := fun s => s.remoteSaddr = addr)
    (G := fun _ label => FromClient addr label) (P := fun output => ∀ dest,
      output.dest = some dest → dest = addr) (fun _ _ _ hs hg hr => (remoteSaddr_step hs hr).mpr hg)
    (fun s label r hs _ hr output houtput dest hdest => ?_) haddr
    ((along_label_iff hrun).mpr (noForeign_iff.mp hforeign))
  · intro dest hdest
    obtain ⟨output, houtput', heq⟩ := List.mem_filterMap.mp hdest
    exact houtput output houtput' dest heq
  · cases label with
    | send sendTime sent =>
      simp only [ntpPeerStep, Option.ite_none_right_eq_some] at hr
      obtain ⟨-, hr⟩ := hr
      split at hr <;> cases hr
      · rw [List.mem_singleton.mp houtput] at hdest
        obtain rfl : s.remoteSaddr = dest := Option.some.inj hdest
        exact hs
      · cases houtput
    | receive sender bytes t3 =>
      simp only [ntpPeerStep, Option.ite_none_right_eq_some, Option.some.injEq] at hr
      obtain ⟨-, rfl⟩ := hr
      split at houtput
      · rw [List.mem_singleton.mp houtput] at hdest
        cases hdest
      · cases houtput
    | stopped | timeout | wake =>
      simp only [ntpPeerStep, Option.ite_none_right_eq_some, Option.some.injEq] at hr
      obtain ⟨-, rfl⟩ := hr
      cases houtput

/-! ## The values -/

/-- One reply through the clock filter, and the values after it. -/
def replayReply (Q : DelaySort) (state : (RaopNtp × Bytes) × List SyncValues)
    (reply : Bytes × UInt64) : (RaopNtp × Bytes) × List SyncValues :=
  let r := receiveResponse Q state.1.1 state.1.2 reply.1 reply.2
  (r, state.2 ++ if reply.1.length ≤ responseLength then [r.1.values] else [])

def replay (Q : DelaySort) (start : NtpThread) (replies : List (Bytes × UInt64)) :
    (RaopNtp × Bytes) × List SyncValues :=
  replies.foldl (replayReply Q) ((start.ntp, start.response), [])

/-- The filter and the values so far are those of the replies so far. -/
def Replays (Q : DelaySort) (start : NtpThread) (addr : SockAddr) (past : List NtpPeerLabel)
    (emitted : List NtpOutput) (s : NtpPeer) : Prop :=
  replay Q start (replies addr past) =
    ((s.thread.ntp, s.thread.response), genuineSyncs addr emitted)

/-- A step that receives nothing. -/
theorem Replays.of_silent {start : NtpThread} {addr : SockAddr} {past : List NtpPeerLabel}
    {emitted more : List NtpOutput} {s' : NtpPeer} (h : Replays Q start addr past emitted s)
    (hlabel : label.reply addr = none) (houtput : genuineSyncs addr more = [])
    (hthread : s'.thread.ntp = s.thread.ntp ∧ s'.thread.response = s.thread.response) :
    Replays Q start addr (past ++ [label]) (emitted ++ more) s' := by
  have hreplies : replies addr (past ++ [label]) = replies addr past := by
    simp [replies, hlabel]
  have hsyncs : genuineSyncs addr (emitted ++ more) = genuineSyncs addr emitted := by
    rw [genuineSyncs, List.filterMap_append]
    exact (congrArg _ houtput).trans (List.append_nil _)
  unfold Replays at h ⊢
  rw [hreplies, hsyncs, hthread.1, hthread.2]
  exact h

theorem replays_step {start : NtpThread} {addr : SockAddr} {past : List NtpPeerLabel}
    {emitted : List NtpOutput} (h : Replays Q start addr past emitted s)
    (hclient : FromClient addr label) (hr : ntpPeerStep Q s label = some r) :
    Replays Q start addr (past ++ [label]) (emitted ++ r.2) r.1 := by
  cases label with
  | receive sender bytes t3 =>
    simp only [ntpPeerStep, Option.ite_none_right_eq_some, Option.some.injEq] at hr
    obtain ⟨-, rfl⟩ := hr
    obtain rfl : sender = addr := hclient sender bytes t3 rfl
    have hreplies : replies sender (past ++ [.receive sender bytes t3]) =
        replies sender past ++ [(bytes, t3)] := by
      simp [replies, NtpPeerLabel.reply]
    have hsyncs : ∀ (more : List NtpOutput), genuineSyncs sender (emitted ++ more) =
        genuineSyncs sender emitted ++ genuineSyncs sender more := fun more =>
      List.filterMap_append
    unfold Replays at h ⊢
    rw [replay, hreplies, List.foldl_concat, ← replay, h, hsyncs, replayReply]
    dsimp only
    congr 2
    split_ifs <;> simp [genuineSyncs, NtpOutput.genuine]
  | send sendTime sent =>
    simp only [ntpPeerStep, Option.ite_none_right_eq_some] at hr
    obtain ⟨-, hr⟩ := hr
    split at hr <;> cases hr <;> exact h.of_silent rfl rfl ⟨rfl, rfl⟩
  | stopped | timeout | wake =>
    simp only [ntpPeerStep, Option.ite_none_right_eq_some, Option.some.injEq] at hr
    obtain ⟨-, rfl⟩ := hr
    exact h.of_silent rfl rfl ⟨rfl, rfl⟩

theorem genuineSyncs_eq {addr : SockAddr} {run : List NtpPeerLabel} {last : NtpPeer}
    (hforeign : NoForeign addr run)
    (hrun : Foundations.Transition.run (ntpPeerStep Q) s run = some last) :
    genuineSyncs addr (events (ntpPeerStep Q) s run) =
      (replay Q s.thread (replies addr run)).2 := by
  have hend := invariant_history_along (I := Replays Q s.thread addr)
    (fun _ _ _ _ _ h hg hr => replays_step h hg hr) [] [] rfl
    ((along_label_iff hrun).mpr (noForeign_iff.mp hforeign)) hrun
  rw [List.nil_append, List.nil_append] at hend
  exact (congrArg Prod.snd hend).symm

/-! ## Two runs -/

/-- Two runs with the same replies of the client are both undisturbed exactly if neither receives
anything from another address. -/
theorem ntpForeign_undisturbed_iff (Q : DelaySort) (remoteAddr : Bytes) (timingRport : BitVec 16)
    (time : UInt64) (garbage : ℕ → UInt8) (s : NtpPeer)
    (hinit : ntpPeerInit remoteAddr timingRport time garbage = some s)
    (first second : List NtpPeerLabel) (last last' : NtpPeer)
    (hfirst : run (ntpPeerStep Q) s first = some last)
    (hsecond : run (ntpPeerStep Q) s second = some last')
    (hsame : replies ⟨remoteAddr, timingRport⟩ first = replies ⟨remoteAddr, timingRport⟩ second) :
    ClockUndisturbed Q s ⟨remoteAddr, timingRport⟩ first second ↔
      NoForeign ⟨remoteAddr, timingRport⟩ first ∧ NoForeign ⟨remoteAddr, timingRport⟩ second := by
  have haddr : s.remoteSaddr = ⟨remoteAddr, timingRport⟩ := by
    obtain ⟨-, hs⟩ := Option.ite_none_right_eq_some.mp hinit
    rw [← Option.some.inj hs]
  have hremote := remoteSaddr_throughout_iff haddr hfirst
  have hremote' := remoteSaddr_throughout_iff haddr hsecond
  constructor
  · exact fun h => ⟨hremote.mp h.remote.1, hremote'.mp h.remote.2⟩
  · rintro ⟨hforeign, hforeign'⟩
    refine ⟨⟨hremote.mpr hforeign, hremote'.mpr hforeign'⟩, ?_, ?_⟩
    · intro dest hdest
      rcases List.mem_append.mp hdest with hdest | hdest
      · exact destinations_client haddr hforeign hfirst dest hdest
      · exact destinations_client haddr hforeign' hsecond dest hdest
    · rw [genuineSyncs_eq hforeign hfirst, genuineSyncs_eq hforeign' hsecond, hsame]

/-- A client, its first reply, and the thread that asks it. -/
def exampleClient : SockAddr := ⟨[192, 168, 1, 2], 7010⟩

def exampleReply : Bytes := List.replicate 32 0

def examplePeer : NtpPeer := ⟨.top, ntpThreadInit 0 fun _ => 0, exampleClient⟩

/-- One run gets the reply at once, the other one after a request that is lost. -/
theorem ntpForeign_undisturbed_iff_lost :
    ClockUndisturbed delayMergeSort examplePeer exampleClient
        [.send 1 true, .receive exampleClient exampleReply 2]
        [.send 1 true, .timeout, .wake, .send 5 true, .receive exampleClient exampleReply 2] ↔
      NoForeign exampleClient [.send 1 true, .receive exampleClient exampleReply 2] ∧
        NoForeign exampleClient
          [.send 1 true, .timeout, .wake, .send 5 true, .receive exampleClient exampleReply 2] :=
  ntpForeign_undisturbed_iff delayMergeSort [192, 168, 1, 2] 7010 0 (fun _ => 0) examplePeer rfl
    _ _ _ _ rfl rfl rfl

/-- After one datagram from another address the next request goes there. -/
theorem ntpForeign_disturbs :
    ¬ ∀ (Q : DelaySort) (remoteAddr : Bytes) (timingRport : BitVec 16) (time : UInt64)
      (garbage : ℕ → UInt8) (s : NtpPeer),
      ntpPeerInit remoteAddr timingRport time garbage = some s →
      ∀ (first second : List NtpPeerLabel) (last last' : NtpPeer),
        run (ntpPeerStep Q) s first = some last → run (ntpPeerStep Q) s second = some last' →
        replies ⟨remoteAddr, timingRport⟩ first = replies ⟨remoteAddr, timingRport⟩ second →
        ClockUndisturbed Q s ⟨remoteAddr, timingRport⟩ first second := by
  intro h
  let foreign : SockAddr := ⟨[10, 0, 0, 9], 9⟩
  have hdisturbed := h delayMergeSort [192, 168, 1, 2] 7010 0 (fun _ => 0) examplePeer rfl
    [.send 1 true, .receive foreign exampleReply 2, .wake, .send 5 true]
    [.send 1 true, .timeout, .wake, .send 5 true] _ _ rfl rfl rfl
  have hdest := hdisturbed.destinations foreign (List.mem_append_left _ ?_)
  · exact absurd hdest (by decide)
  · show foreign ∈ [exampleClient, foreign]
    simp

end WinAirPlay
