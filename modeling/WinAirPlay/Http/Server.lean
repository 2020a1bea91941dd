import WinAirPlay.Foundations.SlotTable
import WinAirPlay.Http.Receive

/-! # The server loop of `httpd_thread`

All connections of the server: `select` on the server sockets and the connected slots, `accept`
into a free slot, one `recv` for every slot that is ready, and the removal of what is left when the
loop is left. Every blocking call is one label, so a run is any list of results of `select`,
`accept`, `getsockname`, `conn_init` and `recv`, with `httpd_start` and `httpd_stop` in between.

`user_data` is numbered in the order in which `conn_init` returns it; a slot of the `calloc`ed table
holds `NULL`, which is `none`.
-/

namespace WinAirPlay
open Foundations.ByteBuffer Foundations.Transition
set_option autoImplicit false

structure HttpdSlot (L : Llhttp) where
  /-- `connected` and `request`, with what was received since the connection was added. -/
  connection : HttpConnection L
  socketFd : ℕ
  userData : Option ℕ

/-- The sockets that `select` left in the set. -/
abbrev FdSet := ℕ → Bool

/-- Where the thread is. -/
inductive HttpdPoint
  /-- About to read `running`. -/
  | top
  | select
  | accept4 (rfds : FdSet)
  | accept6 (rfds : FdSet)
  /-- In the loop over the slots, at slot `i`. -/
  | receive (rfds : FdSet) (i : ℕ)
  /-- Out of the loop, removing the connections from slot `i` on. -/
  | remove (i : ℕ)
  | closing
  /-- There is no thread. -/
  | ended

structure Httpd (L : Llhttp) (maxConnections : ℕ) where
  running : Bool
  serverFd4 : Option ℕ
  serverFd6 : Option ℕ
  openConnections : ℤ
  connections : Fin maxConnections → HttpdSlot L
  point : HttpdPoint
  /-- How often `conn_init` has returned a `user_data`; the source does not keep it. -/
  initialised : ℕ

inductive HttpdEvent
  | connInit (slot : ℕ) (userData : ℕ)
  | connRequest (userData : Option ℕ) (request : HttpRequest)
  | connDestroy (slot : ℕ) (userData : Option ℕ)
  deriving DecidableEq

/-- `httpd_init`. -/
def httpdInit (L : Llhttp) (maxConnections : ℕ) : Httpd L maxConnections where
  running := false
  serverFd4 := none
  serverFd6 := none
  openConnections := 0
  connections := fun _ =>
    { connection := { httpConnectionInit L with connected := false }, socketFd := 0,
      userData := none }
  point := .ended
  initialised := 0

inductive SelectResult
  | timeout
  | error
  | ready (rfds : FdSet)

/-- What `accept`, `getsockname` and `conn_init` return. -/
inductive AcceptResult
  | failed
  | noName
  | accepted (fd : ℕ) (initialises : Bool)

inductive HttpdLabel
  | start (serverFd4 serverFd6 : Option ℕ)
  | stop
  /-- A step of the thread that calls nothing that blocks. -/
  | pass
  | select (result : SelectResult)
  | accept (result : AcceptResult)
  | recv (result : HttpRecv)

variable {L : Llhttp} {n : ℕ}

def Httpd.setSlot (s : Httpd L n) (i : Fin n) (slot : HttpdSlot L) : Httpd L n :=
  { s with connections := Function.update s.connections i slot }

def Httpd.setConnection (s : Httpd L n) (i : Fin n) (c : HttpConnection L) : Httpd L n :=
  s.setSlot i { s.connections i with connection := c }

/-- The first slot that is not connected. -/
def Httpd.freeSlot (s : Httpd L n) : Option (Fin n) :=
  (List.finRange n).find? fun i => !(s.connections i).connection.connected

/-- The assignments once `conn_init` has returned a `user_data`. `request` is not assigned: a slot
that is not connected has none. -/
def Httpd.connect (s : Httpd L n) (i : Fin n) (fd : ℕ) : Httpd L n :=
  let slot : HttpdSlot L :=
    { connection := { httpConnectionInit L with request := (s.connections i).connection.request }
      socketFd := fd
      userData := some s.initialised }
  { s.setSlot i slot with
    openConnections := s.openConnections + 1
    initialised := s.initialised + 1 }

def httpdAddConnection (s : Httpd L n) (fd : ℕ) (initialises : Bool) :
    Httpd L n × List HttpdEvent × ℤ :=
  match s.freeSlot with
  | none => (s, [], -1)
  | some i =>
    if initialises then (s.connect i fd, [.connInit i s.initialised], 0) else (s, [], -1)

/-- Returns -1 if `accept` fails, 0 if the connection is not added and 1 if it is. -/
def httpdAcceptConnection (s : Httpd L n) : AcceptResult → Httpd L n × List HttpdEvent × ℤ
  | .failed => (s, [], -1)
  | .noName => (s, [], 0)
  | .accepted fd initialises =>
    let r := httpdAddConnection s fd initialises
    if r.2.2 = -1 then (r.1, r.2.1, 0) else (r.1, r.2.1, 1)

def httpdRemoveSlot (s : Httpd L n) (i : Fin n) : Httpd L n × List HttpdEvent :=
  let slot := s.connections i
  ({ s.setConnection i (httpdRemoveConnection slot.connection) with
      openConnections := s.openConnections - 1 },
    [.connDestroy i slot.userData])

/-- `http_request_add_data` and what follows it in the loop over the slots. -/
def httpdProcess (s : Httpd L n) (i : Fin n) (data : Bytes) (disconnect : Bool) :
    Httpd L n × List HttpdEvent :=
  let slot := s.connections i
  let request :=
    httpRequestAddData L (slot.connection.request.getD (L.init, httpRequestInit)) data
  let c := { slot.connection with request := some request, handed := slot.connection.handed ++ data }
  if L.error request.1 then httpdRemoveSlot (s.setConnection i c) i
  else if request.2.complete then
    let s := s.setConnection i { c with request := none }
    let event := HttpdEvent.connRequest slot.userData request.2
    if disconnect then
      let r := httpdRemoveSlot s i
      (r.1, event :: r.2)
    else (s, [event])
  else (s.setConnection i c, [])

/-- A slot that is ready; `recv` returns 0, up to 1024 bytes or -1. -/
def httpdReceive (s : Httpd L n) (i : Fin n) : HttpRecv → Option (Httpd L n × List HttpdEvent)
  | .closed => some (httpdRemoveSlot s i)
  | .data chunk disconnect =>
    if chunk ≠ [] ∧ chunk.length ≤ 1024 then
      let c := (s.connections i).connection
      let s := s.setConnection i { c with received := c.received ++ chunk }
      some (httpdProcess s i chunk disconnect)
    else none
  | .error memory disconnect =>
    let s := s.setConnection i { (s.connections i).connection with failed := true }
    some (httpdProcess s i (sizeMaxBytes memory) disconnect)

/-- The server socket is in the set and there is a free connection. -/
def Httpd.accepts (s : Httpd L n) (fd : Option ℕ) (rfds : FdSet) : Bool :=
  decide (s.openConnections < n) && fd.any rfds

/-- Where the thread goes after `httpd_accept_connection`. -/
def afterAccept (ret : ℤ) (next : HttpdPoint) : HttpdPoint :=
  if ret = -1 then .remove 0 else if ret = 0 then .top else next

/-- An `accept` on one of the server sockets, or the step past it. -/
def httpdAccept (s : Httpd L n) (fd : Option ℕ) (rfds : FdSet) (next : HttpdPoint) :
    HttpdLabel → Option (Httpd L n × List HttpdEvent)
  | .accept result =>
    if s.accepts fd rfds then
      let r := httpdAcceptConnection s result
      some ({ r.1 with point := afterAccept r.2.2 next }, r.2.1)
    else none
  | .pass => if s.accepts fd rfds then none else some ({ s with point := next }, [])
  | _ => none

/-- Slot `i` of the loop over the slots. -/
def httpdReceiveSlot (s : Httpd L n) (rfds : FdSet) (i : ℕ) :
    HttpdLabel → Option (Httpd L n × List HttpdEvent)
  | .recv result =>
    if h : i < n then
      let slot := s.connections ⟨i, h⟩
      if slot.connection.connected ∧ rfds slot.socketFd then
        (httpdReceive s ⟨i, h⟩ result).map fun r =>
          ({ r.1 with point := .receive rfds (i + 1) }, r.2)
      else none
    else none
  | .pass =>
    if h : i < n then
      let slot := s.connections ⟨i, h⟩
      if slot.connection.connected ∧ rfds slot.socketFd then none
      else some ({ s with point := .receive rfds (i + 1) }, [])
    else some ({ s with point := .top }, [])
  | _ => none

/-- Slot `i` of the loop that removes all connections. -/
def httpdRemoveRest (s : Httpd L n) (i : ℕ) : Httpd L n × List HttpdEvent :=
  if h : i < n then
    if (s.connections ⟨i, h⟩).connection.connected then
      let r := httpdRemoveSlot s ⟨i, h⟩
      ({ r.1 with point := .remove (i + 1) }, r.2)
    else ({ s with point := .remove (i + 1) }, [])
  else ({ s with point := .closing }, [])

/-- The steps of the thread itself. -/
def httpdThreadStep (s : Httpd L n) (label : HttpdLabel) :
    Option (Httpd L n × List HttpdEvent) :=
  match s.point, label with
  | .top, .pass => some ({ s with point := if s.running then .select else .remove 0 }, [])
  | .select, .select .timeout => some ({ s with point := .top }, [])
  | .select, .select .error => some ({ s with point := .remove 0 }, [])
  | .select, .select (.ready rfds) => some ({ s with point := .accept4 rfds }, [])
  | .accept4 rfds, label => httpdAccept s s.serverFd4 rfds (.accept6 rfds) label
  | .accept6 rfds, label => httpdAccept s s.serverFd6 rfds (.receive rfds 0) label
  | .receive rfds i, label => httpdReceiveSlot s rfds i label
  | .remove i, .pass => some (httpdRemoveRest s i)
  | .closing, .pass =>
    some ({ s with running := false, serverFd4 := none, serverFd6 := none, point := .ended }, [])
  | _, _ => none

/-- `httpd_start` starts a thread only when none is left; `httpd_stop` clears `running`. -/
def httpdServerStep (s : Httpd L n) : HttpdLabel → Option (Httpd L n × List HttpdEvent)
  | .start serverFd4 serverFd6 =>
    match s.point with
    | .ended =>
      some ({ s with running := true, serverFd4 := serverFd4, serverFd6 := serverFd6, point := .top },
        [])
    | _ => none
  | .stop => some ({ s with running := false }, [])
  | label => httpdThreadStep s label

end WinAirPlay
