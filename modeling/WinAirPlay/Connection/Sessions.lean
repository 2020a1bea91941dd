import WinAirPlay.Foundations.Transition
import WinAirPlay.Service.Thread

/-! # The sessions of a connection

`raop_handler_setup` creates a timing, an audio and a mirror session for the connection and starts
their threads; a TEARDOWN stops or destroys the audio and the mirror session; `conn_destroy`
destroys whatever the connection still points to. The control thread does this one action at a time
while the threads of all sessions take their own steps.

The handlers are reduced to what they do to sessions: whether an object can be created and whether
its sockets can be opened is part of the request here. A second SETUP with keys overwrites the
pointers; the sessions they pointed to stay in the table.
-/

namespace WinAirPlay
open Foundations.Transition
set_option autoImplicit false

inductive SessionKind
  | raopNtp
  | raopRtp
  | raopRtpMirror
  deriving DecidableEq

def SessionKind.code : SessionKind → ServiceCode
  | .raopNtp => raopNtpService
  | .raopRtp => raopRtpService
  | .raopRtpMirror => raopRtpMirrorService

structure Session where
  kind : SessionKind
  /-- The `raop_ntp` the session was created with, by its place in the table. -/
  clock : Option ℕ
  state : ServiceState

inductive StopCall
  | stop
  | destroy
  deriving DecidableEq

/-- What the control thread does to the sessions, in the order of the source. -/
inductive ConnAction
  | init (kind : SessionKind) (created : Bool)
  | start (kind : SessionKind) (sockets : SocketResult)
  | teardown
  | call (kind : SessionKind) (call : StopCall)
  | clear (kind : SessionKind)
  deriving DecidableEq

structure ConnWorld where
  sessions : List Session
  pointer : SessionKind → Option ℕ
  todo : List ConnAction
  /-- `conn_destroy` has been called. -/
  destroying : Bool

def connInit : ConnWorld where
  sessions := []
  pointer := fun _ => none
  todo := []
  destroying := false

/-! ## The requests -/

/-- The keys of a first SETUP: which of the three objects can be created, and the timing socket. -/
structure SetupKeys where
  ntp : Bool
  timing : SocketResult
  rtp : Bool
  mirror : Bool

/-- An entry of `streams`: type 110, type 96 or another. -/
inductive SetupStream
  | mirroring (sockets : SocketResult)
  | audio (sockets : SocketResult)
  | unknown

inductive ConnRequest
  | setup (keys : Option SetupKeys) (streams : List SetupStream)
  | teardown
  | other

def setupKeysActions (keys : SetupKeys) : List ConnAction :=
  [.init .raopNtp keys.ntp, .start .raopNtp keys.timing, .init .raopRtp keys.rtp,
    .init .raopRtpMirror keys.mirror]

def setupStreamActions : SetupStream → List ConnAction
  | .mirroring sockets => [.start .raopRtpMirror sockets]
  | .audio sockets => [.start .raopRtp sockets]
  | .unknown => []

def connRequestActions : ConnRequest → List ConnAction
  | .setup keys streams =>
    (keys.map setupKeysActions).getD [] ++ streams.flatMap setupStreamActions
  | .teardown => [.teardown]
  | .other => []

def connDestroyActions : List ConnAction :=
  [.call .raopNtp .destroy, .call .raopRtp .destroy, .call .raopRtpMirror .destroy]

/-- TEARDOWN stops a running audio session; otherwise it destroys both media sessions if there is a
mirror session. -/
def teardownActions (w : ConnWorld) : List ConnAction :=
  match (w.pointer .raopRtp).bind (w.sessions[·]?) with
  | some { state := { running := true, .. }, .. } => [.call .raopRtp .stop]
  | _ =>
    if (w.pointer .raopRtpMirror).isSome then
      [.call .raopRtp .destroy, .clear .raopRtp, .call .raopRtpMirror .destroy,
        .clear .raopRtpMirror]
    else []

/-! ## The steps -/

inductive ConnEvent
  /-- A media thread uses its clock, which may have been destroyed. -/
  | clockUse (session clock : ℕ) (destroyed : Bool)
  | service (session : ℕ) (result : ServiceReturn)
  deriving DecidableEq

inductive ConnLabel
  | request (request : ConnRequest)
  | destroy
  | control
  | thread (session : ℕ) (label : ServiceLabel)
  | consult (session : ℕ)

/-- The labels of the service thread. -/
def ServiceLabel.ofThread : ServiceLabel → Bool
  | .check | .iterate | .fail _ | .clear | .exit => true
  | .start _ | .stop | .destroy | .join | .finish | .free => false

def stepSession (w : ConnWorld) (i : ℕ) (label : ServiceLabel) :
    Option (ConnWorld × List ConnEvent) :=
  match w.sessions[i]? with
  | none => none
  | some session =>
    (serviceStep session.kind.code session.state label).map fun r =>
      ({ w with sessions := w.sessions.set i { session with state := r.1 } },
        r.2.map (.service i))

/-- The next step of a stop or a destroy. -/
def callLabel : StopCall → ControlPoint → ServiceLabel
  | .stop, .idle => .stop
  | .destroy, .idle => .destroy
  | _, .joining _ => .join
  | _, .joined _ => .finish
  | _, .freeing | _, .freed => .free

/-- The call has returned. -/
def callReturned (w : ConnWorld) (i : ℕ) : Bool :=
  match w.sessions[i]? with
  | some session => session.state.control = .idle || session.state.control = .freed
  | none => true

def connControl (w : ConnWorld) : Option (ConnWorld × List ConnEvent) :=
  match w.todo with
  | [] => none
  | .init kind created :: todo =>
    if created then
      let session : Session :=
        { kind := kind
          clock := if kind = .raopNtp then none else w.pointer .raopNtp
          state := serviceInit }
      some ({ w with
        sessions := w.sessions ++ [session]
        pointer := Function.update w.pointer kind (some w.sessions.length)
        todo := todo }, [])
    else some ({ w with pointer := Function.update w.pointer kind none, todo := todo }, [])
  | .start kind sockets :: todo =>
    match w.pointer kind with
    | some i => (stepSession w i (.start sockets)).map fun r => ({ r.1 with todo := todo }, r.2)
    -- a stream without a session is refused; `raop_ntp_start` does not expect NULL
    | none => if kind = .raopNtp then none else some ({ w with todo := todo }, [])
  | .teardown :: todo => some ({ w with todo := teardownActions w ++ todo }, [])
  | .call kind call :: todo =>
    match w.pointer kind with
    | none => some ({ w with todo := todo }, [])
    | some i =>
      match w.sessions[i]? with
      | none => none
      | some session =>
        (stepSession w i (callLabel call session.state.control)).map fun r =>
          ({ r.1 with todo := if callReturned r.1 i then todo else w.todo }, r.2)
  | .clear kind :: todo =>
    some ({ w with pointer := Function.update w.pointer kind none, todo := todo }, [])

/-- The object has been freed. -/
def destroyed (w : ConnWorld) (i : ℕ) : Bool :=
  match w.sessions[i]? with
  | some session => session.state.control = .freed
  | none => true

def connStep (w : ConnWorld) : ConnLabel → Option (ConnWorld × List ConnEvent)
  | .request request =>
    if w.todo.isEmpty && !w.destroying then
      some ({ w with todo := connRequestActions request }, [])
    else none
  | .destroy =>
    if w.todo.isEmpty && !w.destroying then
      some ({ w with todo := connDestroyActions, destroying := true }, [])
    else none
  | .control => connControl w
  | .thread i label => if label.ofThread then stepSession w i label else none
  | .consult i =>
    match w.sessions[i]? with
    | some { clock := some clock, state := { thread := .body, .. }, .. } =>
      some (w, [.clockUse i clock (destroyed w clock)])
    | _ => none

end WinAirPlay
