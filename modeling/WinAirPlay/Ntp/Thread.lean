import Mathlib.Data.List.Perm.Basic
import WinAirPlay.Foundations.Transition
import WinAirPlay.Ntp.Clock

/-! # Requests and replies of `raop_ntp_thread`

The thread, the client and the network between them, one step at a time. The network may lose
every request and every reply and keep them as long as it likes, and it neither forges nor alters
any. Each request carries the number of the iteration that sent it, and so does its reply; the
thread does not see the number.

`recvfrom` takes the oldest datagram that waits on the socket. `raop_ntp_flush_socket` does nothing,
so a reply that comes after its own iteration gave up is read by a later iteration. As long as no
reply comes that late, every update is made from the reply to the request of its own iteration.
-/

namespace WinAirPlay
open Foundations.ByteBuffer Foundations.Transition
set_option autoImplicit false

structure NtpDatagram where
  iteration : ℕ
  bytes : Bytes

inductive NtpPoint
  | top
  | receiving
  | sleeping
  | exited
  deriving DecidableEq

structure NtpWorld where
  point : NtpPoint
  iteration : ℕ
  thread : NtpThread
  /-- On the way to the client, on the way back, and waiting on the socket. -/
  requests : List NtpDatagram
  replies : List NtpDatagram
  socket : List NtpDatagram

def ntpWorldInit (time : UInt64) (garbage : ℕ → UInt8) : NtpWorld where
  point := .top
  iteration := 0
  thread := ntpThreadInit time garbage
  requests := []
  replies := []
  socket := []

inductive NtpEvent
  | stopped
  | send (sendTime : UInt64)
  | sendFailed (sendTime : UInt64)
  | receive (t3 : UInt64)
  | timeout
  | wake
  | loseRequest (k : ℕ)
  | answer (k : ℕ) (head : Bytes) (received answered : UInt64)
  | loseReply (k : ℕ)
  | deliver (k : ℕ)

/-- An update of the clock: the iteration that makes it and the reply it uses. -/
structure NtpSync where
  iteration : ℕ
  reply : NtpDatagram

/-- The loop that would drain the socket is commented out. -/
def raopNtpFlushSocket (socket : List NtpDatagram) : List NtpDatagram := socket

def ntpStep (Q : DelaySort) (w : NtpWorld) : NtpEvent → Option (NtpWorld × List NtpSync)
  | .stopped => if w.point = .top then some ({ w with point := .exited }, []) else none
  | .send sendTime =>
    if w.point = .top then
      let request := byteutilsPutNtpTimestamp w.thread.request 24 sendTime
      some ({ w with
        point := .receiving
        iteration := w.iteration + 1
        thread := { w.thread with request := request }
        requests := w.requests ++ [⟨w.iteration + 1, request⟩]
        socket := raopNtpFlushSocket w.socket }, [])
    else none
  | .sendFailed sendTime =>
    if w.point = .top then
      some ({ w with
        point := .sleeping
        iteration := w.iteration + 1
        thread := { w.thread with
          request := byteutilsPutNtpTimestamp w.thread.request 24 sendTime }
        socket := raopNtpFlushSocket w.socket }, [])
    else none
  | .receive t3 =>
    match w.point, w.socket with
    | .receiving, reply :: socket =>
      let response := writeAt w.thread.response 0 reply.bytes
      some ({ w with
        point := .sleeping
        thread := { w.thread with ntp := ntpUpdate Q w.thread.ntp response t3, response := response }
        socket := socket }, [⟨w.iteration, reply⟩])
    | _, _ => none
  | .timeout =>
    if w.point = .receiving ∧ w.socket.isEmpty then some ({ w with point := .sleeping }, [])
    else none
  | .wake => if w.point = .sleeping then some ({ w with point := .top }, []) else none
  | .loseRequest k => some ({ w with requests := w.requests.eraseIdx k }, [])
  | .answer k head received answered =>
    match w.requests[k]? with
    | some request =>
      if head.length = 8 then
        some ({ w with
          requests := w.requests.eraseIdx k
          replies := w.replies ++
            [⟨request.iteration, clientReply head request.bytes received answered⟩] }, [])
      else none
    | none => none
  | .loseReply k => some ({ w with replies := w.replies.eraseIdx k }, [])
  | .deliver k =>
    match w.replies[k]? with
    | some reply =>
      some ({ w with replies := w.replies.eraseIdx k, socket := w.socket ++ [reply] }, [])
    | none => none

/-- A reply that reaches the socket finds its own iteration waiting for it. -/
def OnTime (w : NtpWorld) : NtpEvent → Prop
  | .deliver k => ∀ reply, w.replies[k]? = some reply →
      reply.iteration = w.iteration ∧ w.point = .receiving
  | _ => True

/-- The iterations of all requests and replies that are still somewhere. -/
def pendingIterations (w : NtpWorld) : List ℕ :=
  (w.requests ++ w.replies ++ w.socket).map NtpDatagram.iteration

/-- Every iteration has at most one datagram, and only a waiting iteration has one on the socket. -/
structure SocketCurrent (w : NtpWorld) : Prop where
  past : ∀ i ∈ pendingIterations w, i ≤ w.iteration
  nodup : (pendingIterations w).Nodup
  current : ∀ reply ∈ w.socket, reply.iteration = w.iteration ∧ w.point = .receiving

theorem socketCurrent_init (time : UInt64) (garbage : ℕ → UInt8) :
    SocketCurrent (ntpWorldInit time garbage) where
  past := by simp [pendingIterations, ntpWorldInit]
  nodup := by simp [pendingIterations, ntpWorldInit]
  current := by simp [ntpWorldInit]

/-- Losing datagrams, or moving them without adding any. -/
theorem SocketCurrent.of_sublist {w w' : NtpWorld} (h : SocketCurrent w)
    (hiteration : w'.iteration = w.iteration) {l : List ℕ} (hsub : l.Sublist (pendingIterations w))
    (hperm : (pendingIterations w').Perm l)
    (hcurrent : ∀ reply ∈ w'.socket, reply.iteration = w'.iteration ∧ w'.point = .receiving) :
    SocketCurrent w' := by
  refine ⟨fun i hi => ?_, hperm.nodup_iff.mpr (h.nodup.sublist hsub), hcurrent⟩
  rw [hiteration]
  exact h.past i (hsub.subset (hperm.mem_iff.mp hi))

theorem perm_eraseIdx_of_getElem? {α : Type} {l : List α} {k : ℕ} {a : α} (h : l[k]? = some a) :
    l.Perm (a :: l.eraseIdx k) := by
  obtain ⟨hk, rfl⟩ := List.getElem?_eq_some_iff.mp h
  exact (List.getElem_cons_eraseIdx_perm hk).symm

theorem socketCurrent_send {w w' : NtpWorld} (h : SocketCurrent w) (htop : w.point = .top)
    (hiteration : w'.iteration = w.iteration + 1)
    (hpending : (pendingIterations w').Perm (w'.iteration :: pendingIterations w) ∨
      pendingIterations w' = pendingIterations w)
    (hsocket : w'.socket = w.socket) : SocketCurrent w' := by
  have hempty : w.socket = [] := by
    cases hs : w.socket with
    | nil => rfl
    | cons reply rest =>
      have := (h.current reply (by rw [hs]; exact List.mem_cons_self ..)).2
      rw [htop] at this
      cases this
  have hcurrent : ∀ reply ∈ w'.socket, reply.iteration = w'.iteration ∧ w'.point = .receiving := by
    intro reply hreply
    rw [hsocket, hempty] at hreply
    cases hreply
  rcases hpending with hperm | heq
  · refine ⟨fun i hi => ?_, hperm.nodup_iff.mpr (List.nodup_cons.mpr ⟨?_, h.nodup⟩), hcurrent⟩
    · rcases List.mem_cons.mp (hperm.mem_iff.mp hi) with rfl | hi
      · exact le_rfl
      · have := h.past i hi
        omega
    · -- the number of the new iteration is new
      intro hmem
      have := h.past _ hmem
      omega
  · refine ⟨fun i hi => ?_, by rw [heq]; exact h.nodup, hcurrent⟩
    rw [heq] at hi
    have := h.past i hi
    omega

theorem socketCurrent_receive {w : NtpWorld} {reply : NtpDatagram} {socket : List NtpDatagram}
    (h : SocketCurrent w) (hsocket : w.socket = reply :: socket) : socket = [] := by
  cases socket with
  | nil => rfl
  | cons second rest =>
    have h1 := (h.current reply (by rw [hsocket]; simp)).1
    have h2 := (h.current second (by rw [hsocket]; simp)).1
    have hnodup := h.nodup
    rw [pendingIterations, hsocket, List.map_append] at hnodup
    have htail := (List.nodup_append.mp hnodup).2.1
    simp [h1, h2] at htail

theorem socketCurrent_step {Q : DelaySort} {w : NtpWorld} {event : NtpEvent}
    {r : NtpWorld × List NtpSync} (h : SocketCurrent w) (hguard : OnTime w event)
    (hr : ntpStep Q w event = some r) : SocketCurrent r.1 := by
  cases event with
  | stopped =>
    simp only [ntpStep, Option.ite_none_right_eq_some, Option.some.injEq] at hr
    obtain ⟨htop, rfl⟩ := hr
    refine h.of_sublist rfl (List.Sublist.refl _) (List.Perm.refl _) fun reply hreply => ?_
    have := (h.current reply hreply).2
    rw [htop] at this
    cases this
  | send sendTime =>
    simp only [ntpStep, Option.ite_none_right_eq_some, Option.some.injEq] at hr
    obtain ⟨htop, rfl⟩ := hr
    refine socketCurrent_send h htop rfl (Or.inl ?_) rfl
    simp only [pendingIterations, raopNtpFlushSocket, List.map_append, List.map_cons, List.map_nil]
    exact (List.perm_append_right_iff _).mpr
      ((List.perm_append_right_iff _).mpr (List.perm_append_singleton _ _)) |>.trans (by simp)
  | sendFailed sendTime =>
    simp only [ntpStep, Option.ite_none_right_eq_some, Option.some.injEq] at hr
    obtain ⟨htop, rfl⟩ := hr
    exact socketCurrent_send h htop rfl (Or.inr rfl) rfl
  | receive t3 =>
    cases hpoint : w.point with
    | top | sleeping | exited => simp [ntpStep, hpoint] at hr
    | receiving =>
      cases hsocket : w.socket with
      | nil => simp [ntpStep, hpoint, hsocket] at hr
      | cons reply socket =>
        have hempty := socketCurrent_receive h hsocket
        simp only [ntpStep, hpoint, hsocket, Option.some.injEq] at hr
        subst hr
        subst hempty
        refine h.of_sublist (l := (w.requests ++ w.replies ++ []).map NtpDatagram.iteration) rfl ?_
          (List.Perm.refl _) (by simp)
        rw [pendingIterations]
        exact ((List.nil_sublist w.socket).append_left _).map _
  | timeout =>
    simp only [ntpStep, Option.ite_none_right_eq_some, Option.some.injEq] at hr
    obtain ⟨⟨-, hempty⟩, rfl⟩ := hr
    refine h.of_sublist rfl (List.Sublist.refl _) (List.Perm.refl _) fun reply hreply => ?_
    rw [List.isEmpty_iff] at hempty
    rw [hempty] at hreply
    cases hreply
  | wake =>
    simp only [ntpStep, Option.ite_none_right_eq_some, Option.some.injEq] at hr
    obtain ⟨hsleeping, rfl⟩ := hr
    refine h.of_sublist rfl (List.Sublist.refl _) (List.Perm.refl _) fun reply hreply => ?_
    have := (h.current reply hreply).2
    rw [hsleeping] at this
    cases this
  | loseRequest k =>
    simp only [ntpStep, Option.some.injEq] at hr
    subst hr
    refine h.of_sublist (l := (w.requests.eraseIdx k ++ w.replies ++ w.socket).map
      NtpDatagram.iteration) rfl ?_ (List.Perm.refl _) h.current
    exact (((List.eraseIdx_sublist ..).append_right _).append_right _).map _
  | answer k head received answered =>
    cases hk : w.requests[k]? with
    | none => simp [ntpStep, hk] at hr
    | some request =>
      simp only [ntpStep, hk, Option.ite_none_right_eq_some, Option.some.injEq] at hr
      obtain ⟨-, rfl⟩ := hr
      refine h.of_sublist rfl (List.Sublist.refl _) ?_ h.current
      have hperm := (perm_eraseIdx_of_getElem? hk).map NtpDatagram.iteration
      simp only [pendingIterations, List.map_append, List.map_cons, List.map_nil,
        List.append_assoc] at hperm ⊢
      refine List.Perm.trans ?_ (hperm.append_right _).symm
      rw [← List.append_assoc, List.singleton_append]
      exact List.perm_middle.trans (by rw [List.cons_append, List.append_assoc])
  | loseReply k =>
    simp only [ntpStep, Option.some.injEq] at hr
    subst hr
    refine h.of_sublist (l := (w.requests ++ w.replies.eraseIdx k ++ w.socket).map
      NtpDatagram.iteration) rfl ?_ (List.Perm.refl _) h.current
    exact (((List.eraseIdx_sublist ..).append_left _).append_right _).map _
  | deliver k =>
    cases hk : w.replies[k]? with
    | none => simp [ntpStep, hk] at hr
    | some reply =>
      obtain ⟨hiteration, hreceiving⟩ := hguard reply hk
      simp only [ntpStep, hk, Option.some.injEq] at hr
      subst hr
      refine h.of_sublist rfl (List.Sublist.refl _) ?_ fun other hother => ?_
      · have hperm := (perm_eraseIdx_of_getElem? hk).map NtpDatagram.iteration
        simp only [pendingIterations, List.map_append, List.map_cons, List.map_nil,
          List.append_assoc] at hperm ⊢
        apply List.Perm.append_left
        refine List.Perm.trans ?_ (hperm.append_right _).symm
        rw [← List.append_assoc]
        exact List.perm_append_singleton _ _
      · rcases List.mem_append.mp hother with hold | hnew
        · exact h.current other hold
        · rw [List.mem_singleton.mp hnew]
          exact ⟨hiteration, hreceiving⟩

/-! ## Every run -/

/-- The reply that an update uses answers the request of its own iteration. -/
def Paired (sync : NtpSync) : Prop := sync.reply.iteration = sync.iteration

theorem paired_step {Q : DelaySort} {w : NtpWorld} {event : NtpEvent}
    {r : NtpWorld × List NtpSync} (h : SocketCurrent w) (hr : ntpStep Q w event = some r) :
    ∀ sync ∈ r.2, Paired sync := by
  intro sync hsync
  cases event with
  | receive t3 =>
    cases hpoint : w.point with
    | top | sleeping | exited => simp [ntpStep, hpoint] at hr
    | receiving =>
      cases hsocket : w.socket with
      | nil => simp [ntpStep, hpoint, hsocket] at hr
      | cons reply socket =>
        simp only [ntpStep, hpoint, hsocket, Option.some.injEq] at hr
        subst hr
        rw [List.mem_singleton.mp hsync]
        exact (h.current reply (by rw [hsocket]; exact List.mem_cons_self ..)).1
  | stopped | send | sendFailed | timeout | wake =>
    simp only [ntpStep, Option.ite_none_right_eq_some, Option.some.injEq] at hr
    obtain ⟨-, rfl⟩ := hr
    cases hsync
  | loseRequest k | loseReply k =>
    simp only [ntpStep, Option.some.injEq] at hr
    subst hr
    cases hsync
  | answer k head received answered =>
    cases hk : w.requests[k]? with
    | none => simp [ntpStep, hk] at hr
    | some request =>
      simp only [ntpStep, hk, Option.ite_none_right_eq_some, Option.some.injEq] at hr
      obtain ⟨-, rfl⟩ := hr
      cases hsync
  | deliver k =>
    cases hk : w.replies[k]? with
    | none => simp [ntpStep, hk] at hr
    | some reply =>
      simp only [ntpStep, hk, Option.some.injEq] at hr
      subst hr
      cases hsync

/-- In every run in which no reply reaches the socket after its own iteration stopped waiting, every
update is made from the reply to the request of its own iteration. -/
theorem ntpReplies_paired (Q : DelaySort) (time : UInt64) (garbage : ℕ → UInt8)
    {run : List NtpEvent} (h : Along (ntpStep Q) OnTime (ntpWorldInit time garbage) run) :
    ∀ sync ∈ events (ntpStep Q) (ntpWorldInit time garbage) run, Paired sync :=
  emits_along (I := SocketCurrent) (fun _ _ _ hs hg hr => socketCurrent_step hs hg hr)
    (fun _ _ _ hs _ hr => paired_step hs hr) (socketCurrent_init time garbage) h

/-- An exchange whose reply is lost, and one that succeeds. -/
theorem ntpReplies_paired_run :
    let syncs := events (ntpStep delayMergeSort) (ntpWorldInit 0 fun _ => 0)
      [.send 0, .loseRequest 0, .timeout, .wake, .send 3000000,
        .answer 0 (List.replicate 8 0) 7 8, .deliver 0, .receive 3000009]
    syncs.length = 1 ∧ ∀ sync ∈ syncs, Paired sync := by
  refine ⟨rfl, ntpReplies_paired delayMergeSort 0 (fun _ => 0) ?_⟩
  refine along_cons rfl trivial (along_cons rfl trivial (along_cons rfl trivial
    (along_cons rfl trivial (along_cons rfl trivial (along_cons rfl trivial
    (along_cons rfl ?_ (along_cons rfl trivial trivial)))))))
  intro reply hreply
  cases hreply
  exact ⟨rfl, rfl⟩

/-- A reply that comes after the timeout is taken for the reply to the next request. -/
theorem ntpReplies_late :
    ¬ ∀ (Q : DelaySort) (time : UInt64) (garbage : ℕ → UInt8) (run : List NtpEvent),
      ∀ sync ∈ events (ntpStep Q) (ntpWorldInit time garbage) run, Paired sync := by
  intro h
  have hlate := h delayMergeSort 0 (fun _ => 0)
    [.send 0, .answer 0 (List.replicate 8 0) 7 8, .timeout, .deliver 0, .wake, .send 3000000,
      .receive 3000001]
  have hsync : (events (ntpStep delayMergeSort) (ntpWorldInit 0 fun _ => 0)
    [.send 0, .answer 0 (List.replicate 8 0) 7 8, .timeout, .deliver 0, .wake, .send 3000000,
      .receive 3000001]).map (fun sync => (sync.iteration, sync.reply.iteration)) = [(2, 1)] := by
    rfl
  generalize events (ntpStep delayMergeSort) (ntpWorldInit 0 fun _ => 0)
    [.send 0, .answer 0 (List.replicate 8 0) 7 8, .timeout, .deliver 0, .wake, .send 3000000,
      .receive 3000001] = syncs at hlate hsync
  obtain ⟨sync, rfl, hpair⟩ := List.map_eq_singleton_iff.mp hsync
  have hpaired : sync.reply.iteration = sync.iteration := hlate sync (List.mem_singleton_self _)
  rw [Prod.mk.injEq] at hpair
  omega

end WinAirPlay
