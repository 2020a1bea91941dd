import WinAirPlay.Http.Server

/-! # The bookkeeping of `httpd_thread`

Connections are added at two places of the loop and removed at four. `ConnectionLedger` relates the slots and
`open_connections` to the calls of the callbacks made so far, and every operation keeps it. A slot
is also a connection of the receive loop, so what it holds comes from its own `recv`s only.
-/

namespace WinAirPlay
open Foundations.ByteBuffer Foundations.Transition Foundations.SlotTable
set_option autoImplicit false

/-- The `user_data` that `conn_init` returned. -/
def connInits (es : List HttpdEvent) : List ℕ :=
  es.filterMap fun
    | .connInit _ userData => some userData
    | _ => none

/-- What was passed to `conn_destroy`. -/
def connDestroyed (es : List HttpdEvent) : List (Option ℕ) :=
  es.filterMap fun
    | .connDestroy _ userData => some userData
    | _ => none

theorem connInits_append (es fs : List HttpdEvent) :
    connInits (es ++ fs) = connInits es ++ connInits fs := List.filterMap_append

theorem connDestroyed_append (es fs : List HttpdEvent) :
    connDestroyed (es ++ fs) = connDestroyed es ++ connDestroyed fs := List.filterMap_append

/-- A `user_data` is passed to `conn_request` after `conn_init` returned it and before it is passed
to `conn_destroy`. -/
def RequestInTime (before : List HttpdEvent) : HttpdEvent → Prop
  | .connRequest userData _ =>
    ∃ u, userData = some u ∧ u ∈ connInits before ∧ some u ∉ connDestroyed before
  | _ => True

/-- A connection is added to a slot when the earlier ones of the slot were removed. -/
def SlotFree (before : List HttpdEvent) : HttpdEvent → Prop
  | .connInit slot _ => ∀ u, .connInit slot u ∈ before → .connDestroy slot (some u) ∈ before
  | _ => True

section Ledger
variable {L : Llhttp} {n : ℕ}

def connectedAt (s : Httpd L n) (i : Fin n) : Bool := (s.connections i).connection.connected

/-- The `user_data` of a connected slot. -/
def held (s : Httpd L n) (i : Fin n) : Option (Option ℕ) :=
  if connectedAt s i then some (s.connections i).userData else none

structure ConnectionLedger (es : List HttpdEvent) (s : Httpd L n) : Prop where
  counted : s.openConnections = (contents (held s)).length
  owned : (connDestroyed es ++ contents (held s)).Perm ((List.range s.initialised).map some)
  numbered : connInits es = List.range s.initialised
  empty : ∀ i, connectedAt s i = false → (s.connections i).connection.request = none
  slots : ∀ (i : Fin n) u, .connInit i u ∈ es →
    .connDestroy i (some u) ∈ es ∨ connectedAt s i = true ∧ (s.connections i).userData = some u
  requests : EachAfter RequestInTime es
  reuse : EachAfter SlotFree es

/-! ## Updating a slot -/

@[simp] theorem setSlot_self (s : Httpd L n) (i : Fin n) (slot : HttpdSlot L) :
    (s.setSlot i slot).connections i = slot := Function.update_self ..

theorem setSlot_of_ne (s : Httpd L n) {i j : Fin n} (slot : HttpdSlot L) (h : j ≠ i) :
    (s.setSlot i slot).connections j = s.connections j := Function.update_of_ne h ..

theorem held_setSlot (s : Httpd L n) (i : Fin n) (slot : HttpdSlot L) :
    held (s.setSlot i slot) =
      Function.update (held s) i
        (if slot.connection.connected then some slot.userData else none) := by
  funext j
  by_cases h : j = i
  · subst h
    rw [Function.update_self, held, connectedAt, setSlot_self]
  · rw [Function.update_of_ne h, held, held, connectedAt, connectedAt, setSlot_of_ne s slot h]

/-- The ledger looks at the slots, the counter and the number of `user_data` only. -/
theorem ConnectionLedger.congr {es : List HttpdEvent} {s s' : Httpd L n} (h : ConnectionLedger es s)
    (hslots : s'.connections = s.connections) (hopen : s'.openConnections = s.openConnections)
    (hinit : s'.initialised = s.initialised) : ConnectionLedger es s' := by
  have hat : connectedAt s' = connectedAt s := by
    funext i
    rw [connectedAt, connectedAt, hslots]
  have hheld : held s' = held s := by
    funext i
    rw [held, held, hat, hslots]
  refine ⟨?_, ?_, ?_, ?_, ?_, h.requests, h.reuse⟩
  · rw [hopen, hheld]
    exact h.counted
  · rw [hinit, hheld]
    exact h.owned
  · rw [hinit]
    exact h.numbered
  · rw [hat, hslots]
    exact h.empty
  · rw [hat, hslots]
    exact h.slots

theorem held_of_connected {s : Httpd L n} {i : Fin n} (h : connectedAt s i = true) :
    held s i = some (s.connections i).userData := by rw [held, if_pos h]

theorem held_of_not_connected {s : Httpd L n} {i : Fin n} (h : connectedAt s i = false) :
    held s i = none := by rw [held, h]; rfl

theorem ConnectionLedger.userData {es : List HttpdEvent} {s : Httpd L n}
    (h : ConnectionLedger es s) {i : Fin n} (hi : connectedAt s i = true) :
    ∃ u, (s.connections i).userData = some u ∧ u < s.initialised ∧ some u ∉ connDestroyed es := by
  have hmem : (s.connections i).userData ∈ contents (held s) :=
    mem_contents.mpr ⟨i, held_of_connected hi⟩
  obtain ⟨u, hu, hsome⟩ := List.mem_map.mp (h.owned.mem_iff.mp (List.mem_append_right _ hmem))
  refine ⟨u, hsome.symm, List.mem_range.mp hu, fun hdestroyed => ?_⟩
  have hnodup : ((List.range s.initialised).map (some : ℕ → Option ℕ)).Nodup :=
    List.nodup_range.map (Option.some_injective ℕ)
  have hdisjoint := (List.nodup_append.mp (h.owned.nodup_iff.mpr hnodup)).2.2
  exact hdisjoint _ hdestroyed _ hmem hsome

theorem connectedAt_setConnection (s : Httpd L n) (i : Fin n) (c : HttpConnection L) :
    connectedAt (s.setConnection i c) i = c.connected := by
  rw [connectedAt, Httpd.setConnection, setSlot_self]

theorem userData_setConnection (s : Httpd L n) (i : Fin n) (c : HttpConnection L) (j : Fin n) :
    ((s.setConnection i c).connections j).userData = (s.connections j).userData := by
  by_cases hj : j = i
  · subst hj
    rw [Httpd.setConnection, setSlot_self]
  · rw [Httpd.setConnection, setSlot_of_ne s _ hj]

/-- Of a connected slot only the request and what was received change. -/
theorem ConnectionLedger.setConnection {es : List HttpdEvent} {s : Httpd L n}
    (h : ConnectionLedger es s) {i : Fin n} (c : HttpConnection L) (hi : connectedAt s i = true)
    (hc : c.connected = true) : ConnectionLedger es (s.setConnection i c) := by
  have hat : connectedAt (s.setConnection i c) = connectedAt s := by
    funext j
    by_cases hj : j = i
    · subst hj
      rw [connectedAt, Httpd.setConnection, setSlot_self, hi]
      exact hc
    · rw [connectedAt, Httpd.setConnection, setSlot_of_ne s _ hj, connectedAt]
  have hheld : held (s.setConnection i c) = held s := by
    funext j
    rw [held, held, hat, userData_setConnection]
  refine ⟨?_, ?_, h.numbered, ?_, ?_, h.requests, h.reuse⟩
  · rw [hheld]
    exact h.counted
  · rw [hheld]
    exact h.owned
  · intro j hj
    rw [hat] at hj
    have hne : j ≠ i := by
      rintro rfl
      rw [hi] at hj
      cases hj
    rw [Httpd.setConnection, setSlot_of_ne s _ hne]
    exact h.empty j hj
  · intro j u hu
    rw [hat, userData_setConnection]
    exact h.slots j u hu

/-! ## The operations -/

theorem ConnectionLedger.request {es : List HttpdEvent} {s : Httpd L n}
    (h : ConnectionLedger es s) {i : Fin n} (hi : connectedAt s i = true) (r : HttpRequest) :
    ConnectionLedger (es ++ [.connRequest (s.connections i).userData r]) s := by
  obtain ⟨u, hu, hlt, hnot⟩ := h.userData hi
  refine ⟨h.counted, ?_, ?_, h.empty, ?_, ?_, eachAfter_snoc.mpr ⟨h.reuse, trivial⟩⟩
  · rw [connDestroyed_append]
    exact (List.append_nil (connDestroyed es)).symm ▸ h.owned
  · rw [connInits_append]
    exact (List.append_nil (connInits es)).trans h.numbered
  · intro j v hv
    have hmem : .connInit j v ∈ es := by simpa using hv
    obtain hgone | hheld := h.slots j v hmem
    · exact .inl (List.mem_append_left _ hgone)
    · exact .inr hheld
  · exact eachAfter_snoc.mpr ⟨h.requests, u, hu, by rw [h.numbered]; exact List.mem_range.mpr hlt, hnot⟩

theorem ConnectionLedger.remove {es : List HttpdEvent} {s : Httpd L n}
    (h : ConnectionLedger es s) {i : Fin n} (hi : connectedAt s i = true) :
    ConnectionLedger (es ++ (httpdRemoveSlot s i).2) (httpdRemoveSlot s i).1 := by
  have hheld : held (httpdRemoveSlot s i).1 = Function.update (held s) i none :=
    held_setSlot s i _
  have hperm := contents_empty (held_of_connected hi)
  refine ⟨?_, ?_, ?_, ?_, ?_, eachAfter_snoc.mpr ⟨h.requests, trivial⟩,
    eachAfter_snoc.mpr ⟨h.reuse, trivial⟩⟩
  · rw [hheld]
    have hlen := hperm.length_eq
    rw [List.length_cons] at hlen
    have hcounted := h.counted
    simp only [httpdRemoveSlot]
    omega
  · rw [hheld]
    rw [connDestroyed_append, List.append_assoc]
    exact (hperm.symm.append_left _).trans h.owned
  · rw [connInits_append]
    exact (List.append_nil (connInits es)).trans h.numbered
  · intro j hj
    by_cases hji : j = i
    · subst hji
      rw [httpdRemoveSlot, Httpd.setConnection, setSlot_self]
      rfl
    · rw [connectedAt, httpdRemoveSlot, Httpd.setConnection, setSlot_of_ne s _ hji] at hj
      rw [httpdRemoveSlot, Httpd.setConnection, setSlot_of_ne s _ hji]
      exact h.empty j hj
  · intro j u hu
    have hmem : .connInit j u ∈ es := by simpa [httpdRemoveSlot] using hu
    obtain hgone | ⟨hj, hdata⟩ := h.slots j u hmem
    · exact .inl (List.mem_append_left _ hgone)
    · by_cases hji : j = i
      · subst hji
        rw [← hdata]
        exact .inl (List.mem_append_right _ (List.mem_singleton_self _))
      · rw [connectedAt, httpdRemoveSlot, Httpd.setConnection, setSlot_of_ne s _ hji]
        exact .inr ⟨hj, hdata⟩

theorem ConnectionLedger.connect {es : List HttpdEvent} {s : Httpd L n}
    (h : ConnectionLedger es s) {i : Fin n} (fd : ℕ) (hi : connectedAt s i = false) :
    ConnectionLedger (es ++ [.connInit i s.initialised]) (s.connect i fd) := by
  have hheld : held (s.connect i fd) = Function.update (held s) i (some (some s.initialised)) :=
    held_setSlot s i _
  have hperm := contents_fill (some s.initialised) (held_of_not_connected hi)
  refine ⟨?_, ?_, ?_, ?_, ?_, eachAfter_snoc.mpr ⟨h.requests, trivial⟩,
    eachAfter_snoc.mpr ⟨h.reuse, ?_⟩⟩
  · rw [hheld, hperm.length_eq, List.length_cons, Nat.cast_succ, ← h.counted]
    rfl
  · have hrange : (List.range (s.connect i fd).initialised).map some =
        (List.range s.initialised).map some ++ [some s.initialised] := by
      rw [Httpd.connect, List.range_succ, List.map_append]
      rfl
    have hdestroyed : connDestroyed (es ++ [.connInit i s.initialised]) = connDestroyed es := by
      rw [connDestroyed_append]
      exact List.append_nil _
    rw [hheld, hrange, hdestroyed]
    have := (hperm.append_left (connDestroyed es)).trans List.perm_middle
    exact (this.trans (h.owned.cons _)).trans (List.perm_append_singleton _ _).symm
  · rw [connInits_append, h.numbered]
    exact List.range_succ.symm
  · intro j hj
    by_cases hji : j = i
    · subst hji
      rw [connectedAt, Httpd.connect, setSlot_self] at hj
      cases hj
    · rw [connectedAt, Httpd.connect, setSlot_of_ne s _ hji] at hj
      rw [Httpd.connect, setSlot_of_ne s _ hji]
      exact h.empty j hj
  · intro j u hu
    obtain hold | hnew := List.mem_append.mp hu
    · obtain hgone | ⟨hj, hdata⟩ := h.slots j u hold
      · exact .inl (List.mem_append_left _ hgone)
      · have hji : j ≠ i := by
          rintro rfl
          rw [hi] at hj
          cases hj
        rw [connectedAt, Httpd.connect, setSlot_of_ne s _ hji]
        exact .inr ⟨hj, hdata⟩
    · obtain ⟨hval, rfl⟩ := HttpdEvent.connInit.inj (List.mem_singleton.mp hnew)
      obtain rfl := Fin.ext hval
      rw [connectedAt, Httpd.connect, setSlot_self]
      exact .inr ⟨rfl, rfl⟩
  -- the slot is free, so what was added to it before is destroyed
  · intro u hu
    obtain hgone | ⟨hconnected, -⟩ := h.slots i u hu
    · exact hgone
    · rw [hi] at hconnected
      cases hconnected

theorem freeSlot_not_connected {s : Httpd L n} {i : Fin n} (h : s.freeSlot = some i) :
    connectedAt s i = false := by
  simpa [connectedAt] using List.find?_some h

theorem ConnectionLedger.add {es : List HttpdEvent} {s : Httpd L n} (h : ConnectionLedger es s)
    (fd : ℕ) (initialises : Bool) :
    ConnectionLedger (es ++ (httpdAddConnection s fd initialises).2.1)
      (httpdAddConnection s fd initialises).1 := by
  rw [httpdAddConnection]
  cases hfree : s.freeSlot with
  | none => exact (List.append_nil es).symm ▸ h
  | some i =>
    cases initialises with
    | false => exact (List.append_nil es).symm ▸ h
    | true => exact h.connect fd (freeSlot_not_connected hfree)

theorem ConnectionLedger.accept {es : List HttpdEvent} {s : Httpd L n}
    (h : ConnectionLedger es s) (result : AcceptResult) :
    ConnectionLedger (es ++ (httpdAcceptConnection s result).2.1)
      (httpdAcceptConnection s result).1 := by
  cases result with
  | failed => exact (List.append_nil es).symm ▸ h
  | noName => exact (List.append_nil es).symm ▸ h
  | accepted fd initialises =>
    by_cases hret : (httpdAddConnection s fd initialises).2.2 = -1
    · simp only [httpdAcceptConnection, if_pos hret]
      exact h.add fd initialises
    · simp only [httpdAcceptConnection, if_neg hret]
      exact h.add fd initialises

theorem ConnectionLedger.process {es : List HttpdEvent} {s : Httpd L n}
    (h : ConnectionLedger es s) {i : Fin n} (hi : connectedAt s i = true) (data : Bytes)
    (disconnect : Bool) :
    ConnectionLedger (es ++ (httpdProcess s i data disconnect).2)
      (httpdProcess s i data disconnect).1 := by
  have hat : ∀ c : HttpConnection L, c.connected = true → connectedAt (s.setConnection i c) i = true :=
    fun c hc => (connectedAt_setConnection s i c).trans hc
  simp only [httpdProcess]
  split
  · apply ConnectionLedger.remove
    · apply h.setConnection _ hi
      exact hi
    · apply hat
      exact hi
  · split
    · split
      · rw [List.append_cons]
        apply ConnectionLedger.remove
        · apply (h.request hi _).setConnection _ hi
          exact hi
        · apply hat
          exact hi
      · apply (h.request hi _).setConnection _ hi
        exact hi
    · rw [List.append_nil]
      apply h.setConnection _ hi
      exact hi

theorem ConnectionLedger.receive {es : List HttpdEvent} {s : Httpd L n}
    (h : ConnectionLedger es s) {i : Fin n} (hi : connectedAt s i = true) {result : HttpRecv}
    {r : Httpd L n × List HttpdEvent} (hr : httpdReceive s i result = some r) :
    ConnectionLedger (es ++ r.2) r.1 := by
  cases result with
  | closed =>
    cases hr
    exact h.remove hi
  | data chunk disconnect =>
    simp only [httpdReceive] at hr
    split at hr
    · cases hr
      apply ConnectionLedger.process
      · apply h.setConnection _ hi
        exact hi
      · exact (connectedAt_setConnection s i _).trans hi
    · cases hr
  | error memory disconnect =>
    cases hr
    apply ConnectionLedger.process
    · apply h.setConnection _ hi
      exact hi
    · exact (connectedAt_setConnection s i _).trans hi

/-! ## What a step of the server can do -/

structure SameSlots (s' s : Httpd L n) : Prop where
  connections : s'.connections = s.connections
  openConnections : s'.openConnections = s.openConnections
  initialised : s'.initialised = s.initialised

/-- At this point the loop that removes the connections is past slot `i`. -/
def HttpdPoint.past : HttpdPoint → ℕ → Prop
  | .remove k, i => i < k
  | .closing, _ => True
  | .ended, _ => True
  | _, _ => False

inductive ServerMove (s : Httpd L n) (r : Httpd L n × List HttpdEvent) : Prop
  | pass (hslots : SameSlots r.1 s) (hevents : r.2 = [])
      (hpast : ∀ i : Fin n, r.1.point.past i → s.point.past i ∨ connectedAt s i = false)
  | accept (result : AcceptResult) (hslots : SameSlots r.1 (httpdAcceptConnection s result).1)
      (hevents : r.2 = (httpdAcceptConnection s result).2.1) (hpast : ∀ i, ¬ r.1.point.past i)
  | receive (i : Fin n) (result : HttpRecv) (r' : Httpd L n × List HttpdEvent)
      (hi : connectedAt s i = true) (hr : httpdReceive s i result = some r')
      (hslots : SameSlots r.1 r'.1) (hevents : r.2 = r'.2) (hpast : ∀ j, ¬ r.1.point.past j)
  | remove (i : Fin n) (hi : connectedAt s i = true) (hslots : SameSlots r.1 (httpdRemoveSlot s i).1)
      (hevents : r.2 = (httpdRemoveSlot s i).2)
      (hpast : ∀ j : Fin n, r.1.point.past j → s.point.past j ∨ j = i)

theorem accept_move {s : Httpd L n} {fd : Option ℕ} {rfds : FdSet} {next : HttpdPoint}
    {label : HttpdLabel} {r : Httpd L n × List HttpdEvent} (hnext : ∀ i, ¬ next.past i)
    (hr : httpdAccept s fd rfds next label = some r) : ServerMove s r := by
  unfold httpdAccept at hr
  split at hr
  case h_1 result =>
    split at hr
    · cases hr
      refine .accept result ⟨rfl, rfl, rfl⟩ rfl fun i => ?_
      simp only [afterAccept]
      split
      · exact Nat.not_lt_zero i
      · split
        · exact id
        · exact hnext i
    · cases hr
  case h_2 =>
    split at hr
    · cases hr
    · cases hr
      exact .pass ⟨rfl, rfl, rfl⟩ rfl fun i hi => absurd hi (hnext i)
  case h_3 => cases hr

theorem receive_move {s : Httpd L n} {rfds : FdSet} {i : ℕ} {label : HttpdLabel}
    {r : Httpd L n × List HttpdEvent} (hr : httpdReceiveSlot s rfds i label = some r) :
    ServerMove s r := by
  unfold httpdReceiveSlot at hr
  split at hr
  case h_1 result =>
    split at hr
    case isTrue h =>
      simp only at hr
      split at hr
      case isTrue hready =>
        obtain ⟨r', hr', rfl⟩ := Option.map_eq_some_iff.mp hr
        exact .receive ⟨i, h⟩ result r' hready.1 hr' ⟨rfl, rfl, rfl⟩ rfl fun _ => id
      case isFalse => cases hr
    case isFalse => cases hr
  case h_2 =>
    split at hr
    · simp only at hr
      split at hr
      · cases hr
      · cases hr
        exact .pass ⟨rfl, rfl, rfl⟩ rfl fun _ => False.elim
    · cases hr
      exact .pass ⟨rfl, rfl, rfl⟩ rfl fun _ => False.elim
  case h_3 => cases hr

theorem removeRest_move {s : Httpd L n} {i : ℕ} (hpoint : s.point = .remove i) :
    ServerMove s (httpdRemoveRest s i) := by
  unfold httpdRemoveRest
  split
  case isTrue h =>
    have hpast : ∀ j : Fin n, (j : ℕ) < i + 1 → s.point.past j ∨ j = ⟨i, h⟩ := by
      intro j hj
      rw [hpoint]
      obtain hlt | heq := Nat.lt_succ_iff_lt_or_eq.mp hj
      · exact .inl hlt
      · exact .inr (Fin.ext heq)
    split
    case isTrue hi => exact .remove ⟨i, h⟩ hi ⟨rfl, rfl, rfl⟩ rfl hpast
    case isFalse hi =>
      refine .pass ⟨rfl, rfl, rfl⟩ rfl fun j hj => ?_
      obtain hold | rfl := hpast j hj
      · exact .inl hold
      · exact .inr (by simpa [connectedAt] using hi)
  case isFalse h =>
    refine .pass ⟨rfl, rfl, rfl⟩ rfl fun j _ => ?_
    rw [hpoint]
    exact .inl (show (j : ℕ) < i by omega)

theorem thread_move {s : Httpd L n} {label : HttpdLabel} {r : Httpd L n × List HttpdEvent}
    (hr : httpdThreadStep s label = some r) : ServerMove s r := by
  unfold httpdThreadStep at hr
  split at hr
  -- `running` is read
  case h_1 =>
    cases hr
    refine .pass ⟨rfl, rfl, rfl⟩ rfl fun i hi => ?_
    cases hrun : s.running with
    | true => exact absurd hi (by simp [hrun, HttpdPoint.past])
    | false => exact absurd hi (by simp [hrun, HttpdPoint.past])
  case h_2 =>
    cases hr
    exact .pass ⟨rfl, rfl, rfl⟩ rfl fun _ => False.elim
  case h_3 =>
    cases hr
    exact .pass ⟨rfl, rfl, rfl⟩ rfl fun i hi => absurd hi (Nat.not_lt_zero i)
  case h_4 =>
    cases hr
    exact .pass ⟨rfl, rfl, rfl⟩ rfl fun _ => False.elim
  case h_5 => exact accept_move (fun _ => id) hr
  case h_6 => exact accept_move (fun _ => id) hr
  case h_7 => exact receive_move hr
  case h_8 hpoint =>
    cases hr
    exact removeRest_move hpoint
  case h_9 hpoint =>
    cases hr
    refine .pass ⟨rfl, rfl, rfl⟩ rfl fun _ _ => ?_
    rw [hpoint]
    exact .inl trivial
  case h_10 => cases hr

theorem step_move {s : Httpd L n} {label : HttpdLabel} {r : Httpd L n × List HttpdEvent}
    (hr : httpdServerStep s label = some r) : ServerMove s r := by
  cases label with
  | start serverFd4 serverFd6 =>
    simp only [httpdServerStep] at hr
    split at hr
    · cases hr
      exact .pass ⟨rfl, rfl, rfl⟩ rfl fun _ => False.elim
    · cases hr
  | stop =>
    cases hr
    exact .pass ⟨rfl, rfl, rfl⟩ rfl fun _ hi => .inl hi
  | pass => exact thread_move hr
  | select result => exact thread_move hr
  | accept result => exact thread_move hr
  | recv result => exact thread_move hr

/-! ## Every run -/

theorem ConnectionLedger.step {es : List HttpdEvent} {s : Httpd L n}
    {r : Httpd L n × List HttpdEvent} (h : ConnectionLedger es s) (hmove : ServerMove s r) :
    ConnectionLedger (es ++ r.2) r.1 := by
  cases hmove with
  | pass hslots hevents _ =>
    rw [hevents, List.append_nil]
    exact h.congr hslots.1 hslots.2 hslots.3
  | accept result hslots hevents _ =>
    rw [hevents]
    exact (h.accept result).congr hslots.1 hslots.2 hslots.3
  | receive i result r' hi hr hslots hevents _ =>
    rw [hevents]
    exact (h.receive hi hr).congr hslots.1 hslots.2 hslots.3
  | remove i hi hslots hevents _ =>
    rw [hevents]
    exact (h.remove hi).congr hslots.1 hslots.2 hslots.3

/-- The slots that the removing loop is past are not connected. -/
def Removed (s : Httpd L n) : Prop := ∀ i : Fin n, s.point.past i → connectedAt s i = false

/-- What a connected slot holds comes from its own `recv`s, on a new connection. -/
def Own (s : Httpd L n) : Prop :=
  ∀ i, connectedAt s i = true →
    ∃ rs, run (httpdStep L) (httpConnectionInit L) rs = some (s.connections i).connection

theorem Removed.step {s : Httpd L n} {r : Httpd L n × List HttpdEvent} (h : Removed s)
    (hmove : ServerMove s r) : Removed r.1 := by
  intro j hj
  cases hmove with
  | pass hslots _ hpast =>
    rw [connectedAt, hslots.connections]
    exact (hpast j hj).elim (h j) id
  | accept result _ _ hpast => exact absurd hj (hpast j)
  | receive i result r' _ _ _ _ hpast => exact absurd hj (hpast j)
  | remove i hi hslots _ hpast =>
    rw [connectedAt, hslots.connections]
    by_cases hji : j = i
    · subst hji
      rw [httpdRemoveSlot, Httpd.setConnection, setSlot_self]
      rfl
    · rw [httpdRemoveSlot, Httpd.setConnection, setSlot_of_ne s _ hji]
      exact h j ((hpast j hj).resolve_right hji)

@[simp] theorem setConnection_self (s : Httpd L n) (i : Fin n) (c : HttpConnection L) :
    ((s.setConnection i c).connections i).connection = c := by
  rw [Httpd.setConnection, setSlot_self]

@[simp] theorem removeSlot_self (s : Httpd L n) (i : Fin n) :
    ((httpdRemoveSlot s i).1.connections i).connection =
      httpdRemoveConnection (s.connections i).connection := setConnection_self s i _

theorem setConnection_of_ne (s : Httpd L n) {i j : Fin n} (c : HttpConnection L) (h : j ≠ i) :
    (s.setConnection i c).connections j = s.connections j := setSlot_of_ne s _ h

theorem removeSlot_of_ne (s : Httpd L n) {i j : Fin n} (h : j ≠ i) :
    (httpdRemoveSlot s i).1.connections j = s.connections j := setSlot_of_ne s _ h

theorem process_connection (s : Httpd L n) (i : Fin n) (data : Bytes) (disconnect : Bool) :
    ((httpdProcess s i data disconnect).1.connections i).connection =
      (httpdHandleData (s.connections i).connection data disconnect).1 := by
  simp only [httpdProcess, httpdHandleData]
  split
  · simp only [removeSlot_self, setConnection_self, httpdRemoveConnection]
  · split
    · split
      · simp only [removeSlot_self, setConnection_self, httpdRemoveConnection]
      · simp only [setConnection_self]
    · simp only [setConnection_self]

theorem process_of_ne (s : Httpd L n) {i j : Fin n} (data : Bytes) (disconnect : Bool)
    (h : j ≠ i) : (httpdProcess s i data disconnect).1.connections j = s.connections j := by
  simp only [httpdProcess]
  split
  · rw [removeSlot_of_ne _ h, setConnection_of_ne _ _ h]
  · split
    · split
      · rw [removeSlot_of_ne _ h, setConnection_of_ne _ _ h]
      · rw [setConnection_of_ne _ _ h]
    · rw [setConnection_of_ne _ _ h]

/-- A slot that is ready takes the step of the receive loop. -/
theorem receive_connection {s : Httpd L n} {i : Fin n} {result : HttpRecv}
    {r : Httpd L n × List HttpdEvent} (hi : connectedAt s i = true)
    (hr : httpdReceive s i result = some r) :
    (httpdStep L (s.connections i).connection result).map Prod.fst =
      some (r.1.connections i).connection := by
  rw [connectedAt] at hi
  cases result with
  | closed =>
    cases hr
    rw [removeSlot_self, httpdStep, if_pos hi]
    rfl
  | data chunk disconnect =>
    simp only [httpdReceive] at hr
    split at hr
    case isTrue hchunk =>
      cases hr
      rw [process_connection, setConnection_self, httpdStep, if_pos ⟨hi, hchunk⟩]
      rfl
    case isFalse => cases hr
  | error memory disconnect =>
    cases hr
    rw [process_connection, setConnection_self, httpdStep, if_pos hi]
    rfl

theorem receive_of_ne {s : Httpd L n} {i j : Fin n} {result : HttpRecv}
    {r : Httpd L n × List HttpdEvent} (h : j ≠ i) (hr : httpdReceive s i result = some r) :
    r.1.connections j = s.connections j := by
  cases result with
  | closed =>
    cases hr
    exact removeSlot_of_ne s h
  | data chunk disconnect =>
    simp only [httpdReceive] at hr
    split at hr
    · cases hr
      rw [process_of_ne _ _ _ h, setConnection_of_ne _ _ h]
    · cases hr
  | error memory disconnect =>
    cases hr
    rw [process_of_ne _ _ _ h, setConnection_of_ne _ _ h]

/-- After an `accept` a slot is as before or holds a new connection. -/
theorem accept_connection {es : List HttpdEvent} {s : Httpd L n} (h : ConnectionLedger es s)
    (result : AcceptResult) (j : Fin n) :
    (httpdAcceptConnection s result).1.connections j = s.connections j ∨
      ((httpdAcceptConnection s result).1.connections j).connection = httpConnectionInit L := by
  have hadd : ∀ fd initialises,
      (httpdAddConnection s fd initialises).1.connections j = s.connections j ∨
        ((httpdAddConnection s fd initialises).1.connections j).connection =
          httpConnectionInit L := by
    intro fd initialises
    rw [httpdAddConnection]
    cases hfree : s.freeSlot with
    | none => exact .inl rfl
    | some i =>
      cases initialises with
      | false => exact .inl rfl
      | true =>
        by_cases hji : j = i
        · subst hji
          have hrequest := h.empty j (freeSlot_not_connected hfree)
          refine .inr (?_ : ((s.connect j fd).connections j).connection = httpConnectionInit L)
          rw [Httpd.connect, setSlot_self, hrequest]
          rfl
        · exact .inl (setSlot_of_ne s _ hji)
  cases result with
  | failed => exact .inl rfl
  | noName => exact .inl rfl
  | accepted fd initialises =>
    by_cases hret : (httpdAddConnection s fd initialises).2.2 = -1
    · simp only [httpdAcceptConnection, if_pos hret]
      exact hadd fd initialises
    · simp only [httpdAcceptConnection, if_neg hret]
      exact hadd fd initialises

theorem Own.step {es : List HttpdEvent} {s : Httpd L n} {r : Httpd L n × List HttpdEvent}
    (h : Own s) (hledger : ConnectionLedger es s) (hmove : ServerMove s r) : Own r.1 := by
  intro j hj
  cases hmove with
  | pass hslots _ _ =>
    rw [connectedAt, hslots.connections] at hj
    rw [hslots.connections]
    exact h j hj
  | accept result hslots _ _ =>
    rw [connectedAt, hslots.connections] at hj
    rw [hslots.connections]
    obtain hold | hnew := accept_connection hledger result j
    · rw [hold] at hj ⊢
      exact h j hj
    · exact ⟨[], by rw [hnew, run_nil]⟩
  | receive i result r' hi hr hslots _ _ =>
    rw [connectedAt, hslots.connections] at hj
    rw [hslots.connections]
    by_cases hji : j = i
    · subst hji
      obtain ⟨rs, hrun⟩ := h j hi
      obtain ⟨next, hstep, hnext⟩ := Option.map_eq_some_iff.mp (receive_connection hi hr)
      refine ⟨rs ++ [result], ?_⟩
      rw [run_append, hrun, Option.bind_some, run, hstep, Option.bind_some, hnext, run_nil]
    · rw [receive_of_ne hji hr] at hj ⊢
      exact h j hj
  | remove i hi hslots _ _ =>
    rw [connectedAt, hslots.connections] at hj
    rw [hslots.connections]
    by_cases hji : j = i
    · subst hji
      rw [removeSlot_self] at hj
      cases hj
    · rw [removeSlot_of_ne s hji] at hj ⊢
      exact h j hj

theorem connectionLedger_init (L : Llhttp) (n : ℕ) : ConnectionLedger [] (httpdInit L n) := by
  have hcontents : contents (held (httpdInit L n)) = [] := contents_eq_nil fun _ => rfl
  refine ⟨?_, ?_, rfl, fun _ _ => rfl, ?_, eachAfter_nil _, eachAfter_nil _⟩
  · rw [hcontents]
    rfl
  · rw [hcontents]
    exact List.Perm.refl _
  · intro i u hu
    cases hu

/-- The ledger, and what the run of the thread keeps besides. -/
theorem httpd_run {L : Llhttp} {n : ℕ} {labels : List HttpdLabel} {s : Httpd L n}
    (hrun : run httpdServerStep (httpdInit L n) labels = some s) :
    ConnectionLedger (events httpdServerStep (httpdInit L n) labels) s ∧ Removed s ∧ Own s := by
  have hstep : ∀ (past : List HttpdLabel) (es : List HttpdEvent) (s : Httpd L n)
      (label : HttpdLabel) (r : Httpd L n × List HttpdEvent),
      ConnectionLedger es s ∧ Removed s ∧ Own s → httpdServerStep s label = some r →
      ConnectionLedger (es ++ r.2) r.1 ∧ Removed r.1 ∧ Own r.1 := by
    rintro - es s label r ⟨hledger, hremoved, hown⟩ hr
    have hmove := step_move hr
    exact ⟨hledger.step hmove, hremoved.step hmove, hown.step hledger hmove⟩
  have hinit : ConnectionLedger [] (httpdInit L n) ∧ Removed (httpdInit L n) ∧
      Own (httpdInit L n) := ⟨connectionLedger_init L n, fun _ _ => rfl, fun _ h => nomatch h⟩
  exact @invariant_history _ _ _ httpdServerStep
    (fun _ es s => ConnectionLedger es s ∧ Removed s ∧ Own s) hstep labels [] [] _ _ hinit hrun

/-! ## The bookkeeping -/

structure HttpdExact (es : List HttpdEvent) (s : Httpd L n) : Prop where
  counted : s.openConnections = (List.finRange n).countP (connectedAt s)
  nonneg : 0 ≤ s.openConnections
  atMost : s.openConnections ≤ n
  /-- A slot is reused after it was removed. -/
  reuse : EachAfter SlotFree es
  /-- `conn_request` comes after `conn_init` and before `conn_destroy`. -/
  requests : EachAfter RequestInTime es
  /-- A `user_data` is returned once, is destroyed at most once, and is in a connected slot until
  it is destroyed. -/
  initsOnce : (connInits es).Nodup
  destroyedOnce : ∀ u ∈ connInits es, (connDestroyed es).count (some u) ≤ 1
  kept : ∀ u ∈ connInits es, some u ∈ connDestroyed es ∨
    ∃ i, connectedAt s i = true ∧ (s.connections i).userData = some u
  /-- Nothing else is destroyed. -/
  destroyedOwn : ∀ d ∈ connDestroyed es, ∃ u ∈ connInits es, d = some u
  /-- What a connection holds comes from its own `recv`s; a free slot holds no request. -/
  own : Own s
  empty : ∀ i, connectedAt s i = false → (s.connections i).connection.request = none
  /-- Once the thread has ended no slot is connected, and everything is destroyed exactly once. -/
  ended : s.point = .ended → (∀ i, connectedAt s i = false) ∧
    ∀ u ∈ connInits es, (connDestroyed es).count (some u) = 1

theorem ConnectionLedger.count_destroyed {es : List HttpdEvent} {s : Httpd L n}
    (h : ConnectionLedger es s) {u : ℕ} (hu : u ∈ connInits es) :
    (connDestroyed es).count (some u) + (contents (held s)).count (some u) = 1 := by
  have hnodup : ((List.range s.initialised).map (some : ℕ → Option ℕ)).Nodup :=
    List.nodup_range.map (Option.some_injective ℕ)
  have hmem : some u ∈ (List.range s.initialised).map (some : ℕ → Option ℕ) :=
    List.mem_map_of_mem (h.numbered ▸ hu)
  rw [← List.count_append, h.owned.count_eq, List.count_eq_one_of_mem hnodup hmem]

theorem ConnectionLedger.exact {es : List HttpdEvent} {s : Httpd L n}
    (h : ConnectionLedger es s) (hremoved : Removed s) (hown : Own s) : HttpdExact es s := by
  have hcount : (contents (held s)).length = (List.finRange n).countP (connectedAt s) := by
    rw [contents, List.length_filterMap_eq_countP]
    refine List.countP_congr fun i _ => ?_
    rw [held]
    cases connectedAt s i <;> simp
  have hlength := (List.finRange n).countP_le_length (p := connectedAt s)
  rw [List.length_finRange] at hlength
  have hopen := h.counted
  refine ⟨by rw [hopen, hcount], by omega, by omega, h.reuse, h.requests, ?_, ?_, ?_, ?_, hown,
    h.empty, ?_⟩
  · rw [h.numbered]
    exact List.nodup_range
  · intro u hu
    have := h.count_destroyed hu
    omega
  · intro u hu
    by_cases hdestroyed : some u ∈ connDestroyed es
    · exact .inl hdestroyed
    · have hone := h.count_destroyed hu
      rw [List.count_eq_zero_of_not_mem hdestroyed, Nat.zero_add] at hone
      have hmem : some u ∈ contents (held s) := List.count_pos_iff.mp (by rw [hone]; omega)
      obtain ⟨i, hi⟩ := mem_contents.mp hmem
      refine .inr ⟨i, ?_⟩
      rw [held] at hi
      split at hi
      case isTrue hconnected => exact ⟨hconnected, Option.some.inj hi⟩
      case isFalse => cases hi
  · intro d hd
    have hmem := h.owned.mem_iff.mp (List.mem_append_left _ hd)
    obtain ⟨u, hu, rfl⟩ := List.mem_map.mp hmem
    exact ⟨u, h.numbered ▸ hu, rfl⟩
  · intro hended
    have hnone : ∀ i, connectedAt s i = false := fun i => hremoved i (by rw [hended]; trivial)
    refine ⟨hnone, fun u hu => ?_⟩
    have hone := h.count_destroyed hu
    rwa [contents_eq_nil fun i => held_of_not_connected (hnone i), List.count_nil] at hone

/-- The bookkeeping of `httpd_thread` is exact in every run. -/
theorem httpd_exact (L : Llhttp) (n : ℕ) (labels : List HttpdLabel) (s : Httpd L n)
    (hrun : run httpdServerStep (httpdInit L n) labels = some s) :
    HttpdExact (events httpdServerStep (httpdInit L n) labels) s := by
  obtain ⟨hledger, hremoved, hown⟩ := httpd_run hrun
  exact hledger.exact hremoved hown

end Ledger

/-- One client asks for the options and is disconnected; then the server is stopped. -/
def oneClient : List HttpdLabel :=
  [.start (some 3) none, .pass, .select (.ready (· == 3)), .accept (.accepted 7 true), .pass, .pass,
    .pass, .pass, .select (.ready (· == 7)), .pass, .pass, .recv (.data optionsRequest.1 true), .pass,
    .stop, .pass, .pass, .pass, .pass]

theorem httpd_exact_oneClient :
    ∃ s, run httpdServerStep (httpdInit bytewiseLlhttp 1) oneClient = some s ∧
      s.point = .ended ∧
      HttpdExact (events httpdServerStep (httpdInit bytewiseLlhttp 1) oneClient) s :=
  ⟨_, rfl, rfl, httpd_exact bytewiseLlhttp 1 oneClient _ rfl⟩

end WinAirPlay
