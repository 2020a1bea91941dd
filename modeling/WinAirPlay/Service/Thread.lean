import Mathlib.Data.List.Basic

/-! # Starting and stopping a service thread

`raop_rtp`, `raop_rtp_mirror`, `raop_ntp` and `httpd` all keep `running` and `joined` under
`run_mutex`. The control thread starts, stops and destroys the service; the service thread checks
`running` at the top of its loop and clears it when it has left the loop, for whatever reason.

Each critical section is one step, and so is each blocking call. `httpd_start` also creates
`run_mutex` anew; while a thread runs, `joined` is 0 and the call returns without an effect.
-/

namespace WinAirPlay
set_option autoImplicit false

/-- What the loop of a service ends on, apart from `running` being cleared. -/
inductive ServiceError
  | select
  | accept
  | streamTimeout
  | headerReceive
  | payloadReceive
  | payloadClosed
  | decoder
  deriving DecidableEq

/-- Who closes the sockets of a service. -/
inductive SocketsClosed
  | beforeJoin
  | afterJoin
  | byThread
  deriving DecidableEq

/-- What the four services do differently. -/
structure ServiceCode where
  errors : List ServiceError
  closed : SocketsClosed

/-- `raop_rtp_start_audio`, `raop_rtp_stop`, `raop_rtp_destroy`, `raop_rtp_thread_udp`. A decoder
that refuses a packet makes the thread clear `running` and return on the spot. -/
def raopRtpService : ServiceCode where
  errors := [.select, .decoder]
  closed := .afterJoin

/-- `raop_rtp_start_mirror`, `raop_rtp_mirror_stop`, `raop_rtp_mirror_destroy`,
`raop_rtp_mirror_thread`. -/
def raopRtpMirrorService : ServiceCode where
  errors := [.select, .accept, .streamTimeout, .headerReceive, .payloadReceive, .payloadClosed]
  closed := .beforeJoin

/-- `raop_ntp_start`, `raop_ntp_stop`, `raop_ntp_destroy`, `raop_ntp_thread`. No error ends the
loop. -/
def raopNtpService : ServiceCode where
  errors := []
  closed := .beforeJoin

/-- `httpd_start`, `httpd_stop`, `httpd_destroy`, `httpd_thread`. The thread closes the server
sockets itself, once it has removed the connections. -/
def httpdService : ServiceCode where
  errors := [.select, .accept]
  closed := .byThread

inductive Service
  | raopRtp
  | raopRtpMirror
  | raopNtp
  | httpd
  deriving DecidableEq

def Service.code : Service → ServiceCode
  | .raopRtp => raopRtpService
  | .raopRtpMirror => raopRtpMirrorService
  | .raopNtp => raopNtpService
  | .httpd => httpdService

/-- Where the service thread is. -/
inductive ThreadPoint
  | absent
  /-- About to read `running`. -/
  | top
  | body
  /-- Out of the loop, `running` not yet cleared. -/
  | leaving
  /-- `running` is cleared; the thread logs that it exits and returns. -/
  | returning
  | ended
  /-- `THREAD_JOIN` has returned. -/
  | joined
  deriving DecidableEq

/-- The thread has been created and has not returned. -/
def Alive (thread : ThreadPoint) : Prop :=
  thread = .top ∨ thread = .body ∨ thread = .leaving ∨ thread = .returning

/-- Where the control thread is; `destroying` tells a stop that a destroy makes. -/
inductive ControlPoint
  | idle
  | joining (destroying : Bool)
  | joined (destroying : Bool)
  | freeing
  | freed
  deriving DecidableEq

structure ServiceState where
  running : Bool
  joined : Bool
  thread : ThreadPoint
  sockets : Bool
  control : ControlPoint
  /-- A stop has returned since the last thread was created; the source does not keep it. -/
  stopped : Bool
  deriving DecidableEq

def serviceInit : ServiceState where
  running := false
  joined := true
  thread := .absent
  sockets := false
  control := .idle
  stopped := false

inductive SocketResult
  | opened
  | initFailed
  | listenFailed
  deriving DecidableEq

/-- `httpd_start` returns 0, -1, -2 and 1 for these; the other services return nothing. -/
inductive StartReturn
  | alreadyStarted
  | initFailed
  | listenFailed
  | started
  deriving DecidableEq

def serviceStart (s : ServiceState) (sockets : SocketResult) : ServiceState × StartReturn :=
  if s.running || !s.joined then (s, .alreadyStarted)
  else
    match sockets with
    | .initFailed => (s, .initFailed)
    | .listenFailed => (s, .listenFailed)
    | .opened =>
      ({ s with
        running := true
        joined := false
        thread := .top
        sockets := true
        stopped := false }, .started)

/-- What a call of the control thread returns with, and the state in which it does. -/
inductive ServiceReturn
  | start (s : ServiceState) (sockets : SocketResult) (result : StartReturn)
  | stop (s : ServiceState)
  | free (s : ServiceState)
  deriving DecidableEq

inductive ServiceLabel
  -- the service thread
  | check
  | iterate
  | fail (error : ServiceError)
  | clear
  | exit
  -- the control thread
  | start (sockets : SocketResult)
  | stop
  | destroy
  | join
  | finish
  | free
  deriving DecidableEq

/-- The check at the top of a stop: nothing to do unless the thread runs and is not joined. -/
def stopCheck (s : ServiceState) : Bool := !s.running || s.joined

def serviceJoin (code : ServiceCode) (s : ServiceState) (destroying : Bool) : ServiceState :=
  { s with
    running := false
    sockets := s.sockets && decide (code.closed ≠ .beforeJoin)
    control := .joining destroying }

def serviceStep (code : ServiceCode) (s : ServiceState) :
    ServiceLabel → Option (ServiceState × List ServiceReturn)
  | .check =>
    if s.thread = .top then
      some ({ s with thread := if s.running then .body else .leaving }, [])
    else none
  | .iterate => if s.thread = .body then some ({ s with thread := .top }, []) else none
  | .fail error =>
    if s.thread = .body ∧ error ∈ code.errors then some ({ s with thread := .leaving }, []) else none
  | .clear =>
    if s.thread = .leaving then
      some ({ s with
        running := false
        thread := .returning
        sockets := s.sockets && decide (code.closed ≠ .byThread) }, [])
    else none
  | .exit => if s.thread = .returning then some ({ s with thread := .ended }, []) else none
  | .start sockets =>
    if s.control = .idle then
      some ((serviceStart s sockets).1, [.start s sockets (serviceStart s sockets).2])
    else none
  | .stop =>
    if s.control = .idle then
      if stopCheck s then some ({ s with stopped := true }, [.stop s])
      else some (serviceJoin code s false, [])
    else none
  | .destroy =>
    if s.control = .idle then
      if stopCheck s then some ({ s with stopped := true, control := .freeing }, [.stop s])
      else some (serviceJoin code s true, [])
    else none
  | .join =>
    match s.control with
    | .joining destroying =>
      if s.thread = .ended then
        some ({ s with
          thread := .joined
          sockets := s.sockets && decide (code.closed ≠ .afterJoin)
          control := .joined destroying }, [])
      else none
    | _ => none
  | .finish =>
    match s.control with
    | .joined destroying =>
      let s' := { s with
        joined := true
        control := if destroying then .freeing else .idle
        stopped := true }
      some (s', [.stop s'])
    | _ => none
  | .free =>
    if s.control = .freeing then some ({ s with control := .freed }, [.free s]) else none

/-- What a step can be, and when. -/
inductive ServiceMove (code : ServiceCode) (s : ServiceState) :
    ServiceLabel → ServiceState × List ServiceReturn → Prop
  | check (htop : s.thread = .top) :
    ServiceMove code s .check ({ s with thread := if s.running then .body else .leaving }, [])
  | iterate (hbody : s.thread = .body) :
    ServiceMove code s .iterate ({ s with thread := .top }, [])
  | fail (error : ServiceError) (hbody : s.thread = .body) (herror : error ∈ code.errors) :
    ServiceMove code s (.fail error) ({ s with thread := .leaving }, [])
  | clear (hleaving : s.thread = .leaving) :
    ServiceMove code s .clear
      ({ s with
        running := false
        thread := .returning
        sockets := s.sockets && decide (code.closed ≠ .byThread) }, [])
  | exit (hreturning : s.thread = .returning) :
    ServiceMove code s .exit ({ s with thread := .ended }, [])
  | start (sockets : SocketResult) (hidle : s.control = .idle) :
    ServiceMove code s (.start sockets)
      ((serviceStart s sockets).1, [.start s sockets (serviceStart s sockets).2])
  | stopEarly (hidle : s.control = .idle) (hcheck : stopCheck s) :
    ServiceMove code s .stop ({ s with stopped := true }, [.stop s])
  | stop (hidle : s.control = .idle) (hcheck : ¬ stopCheck s) :
    ServiceMove code s .stop (serviceJoin code s false, [])
  | destroyEarly (hidle : s.control = .idle) (hcheck : stopCheck s) :
    ServiceMove code s .destroy ({ s with stopped := true, control := .freeing }, [.stop s])
  | destroy (hidle : s.control = .idle) (hcheck : ¬ stopCheck s) :
    ServiceMove code s .destroy (serviceJoin code s true, [])
  | join (destroying : Bool) (hcontrol : s.control = .joining destroying)
    (hended : s.thread = .ended) :
    ServiceMove code s .join
      ({ s with
        thread := .joined
        sockets := s.sockets && decide (code.closed ≠ .afterJoin)
        control := .joined destroying }, [])
  | finish (destroying : Bool) (hcontrol : s.control = .joined destroying) :
    ServiceMove code s .finish
      ({ s with
        joined := true
        control := if destroying then .freeing else .idle
        stopped := true },
        [.stop { s with
          joined := true
          control := if destroying then .freeing else .idle
          stopped := true }])
  | free (hfreeing : s.control = .freeing) :
    ServiceMove code s .free ({ s with control := .freed }, [.free s])

theorem serviceMove_of_step {code : ServiceCode} {s : ServiceState} {l : ServiceLabel}
    {r : ServiceState × List ServiceReturn} (hr : serviceStep code s l = some r) :
    ServiceMove code s l r := by
  cases l with
  | check =>
    obtain ⟨htop, hr⟩ := Option.ite_none_right_eq_some.mp hr
    cases hr
    exact .check htop
  | iterate =>
    obtain ⟨hbody, hr⟩ := Option.ite_none_right_eq_some.mp hr
    cases hr
    exact .iterate hbody
  | fail error =>
    obtain ⟨⟨hbody, herror⟩, hr⟩ := Option.ite_none_right_eq_some.mp hr
    cases hr
    exact .fail error hbody herror
  | clear =>
    obtain ⟨hleaving, hr⟩ := Option.ite_none_right_eq_some.mp hr
    cases hr
    exact .clear hleaving
  | exit =>
    obtain ⟨hreturning, hr⟩ := Option.ite_none_right_eq_some.mp hr
    cases hr
    exact .exit hreturning
  | start sockets =>
    obtain ⟨hidle, hr⟩ := Option.ite_none_right_eq_some.mp hr
    cases hr
    exact .start sockets hidle
  | stop =>
    obtain ⟨hidle, hr⟩ := Option.ite_none_right_eq_some.mp hr
    split at hr <;> cases hr
    · next hcheck => exact .stopEarly hidle hcheck
    · next hcheck => exact .stop hidle hcheck
  | destroy =>
    obtain ⟨hidle, hr⟩ := Option.ite_none_right_eq_some.mp hr
    split at hr <;> cases hr
    · next hcheck => exact .destroyEarly hidle hcheck
    · next hcheck => exact .destroy hidle hcheck
  | join =>
    simp only [serviceStep] at hr
    split at hr
    · next destroying hcontrol =>
      obtain ⟨hended, hr⟩ := Option.ite_none_right_eq_some.mp hr
      cases hr
      exact .join destroying hcontrol hended
    · cases hr
  | finish =>
    simp only [serviceStep] at hr
    split at hr
    · next destroying hcontrol =>
      cases hr
      exact .finish destroying hcontrol
    · cases hr
  | free =>
    obtain ⟨hfreeing, hr⟩ := Option.ite_none_right_eq_some.mp hr
    cases hr
    exact .free hfreeing

end WinAirPlay
