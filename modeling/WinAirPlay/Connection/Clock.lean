import WinAirPlay.Connection.Sessions

/-! # The clock of the media threads

`conn_destroy` destroys the `raop_ntp` first and only then stops the audio and the mirror thread,
which use it until they leave their loops. Nothing else destroys a clock, so the clock is there for
every use in a run exactly as far as `conn_destroy` comes after the loops have ended.
-/

namespace WinAirPlay
open Foundations.Transition
set_option autoImplicit false

/-- The thread may still consult the clock. -/
def InLoop (thread : ThreadPoint) : Prop := thread = .top ∨ thread = .body

/-- The session that the next step of the control thread frees, if it frees one. -/
def freesNext (w : ConnWorld) : Option ℕ :=
  match w.todo with
  | .call kind call :: _ =>
    match w.pointer kind with
    | none => none
    | some i =>
      match w.sessions[i]? with
      | none => none
      | some session => if callLabel call session.state.control = .free then some i else none
  | _ => none

/-- No object is freed while a thread that has it for its clock is in its loop. -/
def ClockReleased (w : ConnWorld) : ConnLabel → Prop
  | .control => ∀ i ∈ freesNext w, ∀ session ∈ w.sessions, session.clock = some i →
      ¬ InLoop session.state.thread
  | _ => True

instance (w : ConnWorld) (label : ConnLabel) : Decidable (ClockReleased w label) := by
  unfold ClockReleased InLoop
  cases label <;> infer_instance

def ClockAlive : ConnEvent → Prop
  | .clockUse _ _ destroyed => destroyed = false
  | .service _ _ => True

/-! ## What a step does to one session -/

section Service

variable {code : ServiceCode} {s : ServiceState} {r : ServiceState × List ServiceReturn}
  {l : ServiceLabel}

theorem serviceStart_control (sockets : SocketResult) :
    (serviceStart s sockets).1.control = s.control := by
  unfold serviceStart
  split
  · rfl
  · cases sockets <;> rfl

theorem serviceStep_freed (hr : serviceStep code s l = some r) (hfreed : r.1.control = .freed) :
    s.control = .freed ∨ l = .free := by
  cases serviceMove_of_step hr with
  | free => exact Or.inr rfl
  | check | iterate | fail | clear | exit => exact Or.inl hfreed
  | start sockets => exact Or.inl ((serviceStart_control sockets).symm.trans hfreed)
  | stopEarly hidle => simp [hidle] at hfreed
  | stop | destroyEarly | destroy | join => cases hfreed
  | finish destroying => cases destroying <;> cases hfreed

theorem serviceStep_inLoop (hr : serviceStep code s l = some r) (hloop : InLoop r.1.thread) :
    InLoop s.thread ∨ ∃ sockets, l = .start sockets := by
  cases serviceMove_of_step hr with
  | start sockets => exact Or.inr ⟨sockets, rfl⟩
  | check hthread | iterate hthread => exact Or.inl (by simp [InLoop, hthread])
  | fail | clear | exit | join => simp [InLoop] at hloop
  | _ => exact Or.inl hloop

end Service

/-! ## The invariant -/

structure ClockSafe (w : ConnWorld) : Prop where
  /-- The pointers of the connection point to sessions of their kind. -/
  pointer : ∀ kind i, w.pointer kind = some i →
    ∃ session, w.sessions[i]? = some session ∧ session.kind = kind
  /-- Only `conn_destroy` destroys a clock, and it starts nothing. -/
  requests : w.destroying = false → ∀ call, .call .raopNtp call ∉ w.todo
  destroys : w.destroying = true → ∀ action ∈ w.todo, ∃ kind, action = .call kind .destroy
  clock : ∀ (i : ℕ) (session : Session), w.sessions[i]? = some session → session.kind = .raopNtp →
    session.state.control = .freed → w.destroying = true
  /-- A clock is a timing session, and is there as long as a thread may consult it. -/
  kind : ∀ session ∈ w.sessions, ∀ c, session.clock = some c →
    ∃ clock, w.sessions[c]? = some clock ∧ clock.kind = .raopNtp
  alive : ∀ session ∈ w.sessions, ∀ c, session.clock = some c → InLoop session.state.thread →
    destroyed w c = false

theorem clockSafe_init : ClockSafe connInit where
  pointer := by simp [connInit]
  requests := by simp [connInit]
  destroys := by simp [connInit]
  clock := by simp [connInit]
  kind := by simp [connInit]
  alive := by simp [connInit]

variable {w w' : ConnWorld}

theorem destroyed_eq_false {i : ℕ} :
    destroyed w i = false ↔ ∃ session, w.sessions[i]? = some session ∧
      session.state.control ≠ .freed := by
  unfold destroyed
  cases w.sessions[i]? <;> simp

/-- One session moves: what becomes of the others and of itself. -/
theorem getElem?_set_session {i : ℕ} {session : Session} {s' : ServiceState} {j : ℕ}
    {other : Session}
    (hj : (w.sessions.set i { session with state := s' })[j]? = some other) :
    (i = j ∧ other = { session with state := s' }) ∨ (i ≠ j ∧ w.sessions[j]? = some other) := by
  rw [List.getElem?_set] at hj
  by_cases hij : i = j
  · rw [if_pos hij] at hj
    obtain ⟨-, hother⟩ := Option.ite_none_right_eq_some.mp hj
    exact Or.inl ⟨hij, (Option.some.inj hother).symm⟩
  · rw [if_neg hij] at hj
    exact Or.inr ⟨hij, hj⟩

theorem getElem?_set_kind {i : ℕ} {session : Session} (s' : ServiceState)
    (hi : w.sessions[i]? = some session) {j : ℕ} {old : Session} (hj : w.sessions[j]? = some old) :
    ∃ other, (w.sessions.set i { session with state := s' })[j]? = some other ∧
      other.kind = old.kind := by
  rw [List.getElem?_set]
  by_cases hij : i = j
  · subst hij
    obtain rfl : session = old := Option.some.inj (hi.symm.trans hj)
    obtain ⟨hlt, -⟩ := List.getElem?_eq_some_iff.mp hi
    exact ⟨{ session with state := s' }, by simp [hlt], rfl⟩
  · exact ⟨old, by simp [hij, hj], rfl⟩

/-- A session moves. It may only be freed when no thread uses it for a clock, and its thread may
enter the loop only before `conn_destroy`. -/
theorem clockSafe_set {i : ℕ} {session : Session} (s' : ServiceState) (h : ClockSafe w)
    (hi : w.sessions[i]? = some session)
    (hsessions : w'.sessions = w.sessions.set i { session with state := s' })
    (hpointer : w'.pointer = w.pointer) (hdestroying : w'.destroying = w.destroying)
    (htodo : ∀ action ∈ w'.todo, action ∈ w.todo)
    (hfreed : s'.control = .freed → session.state.control ≠ .freed → session.kind = .raopNtp →
      w.destroying = true ∧ ∀ other ∈ w.sessions, other.clock = some i →
        ¬ InLoop other.state.thread)
    (hloop : InLoop s'.thread → InLoop session.state.thread ∨ w.destroying = false) :
    ClockSafe w' := by
  have hclock : ∀ (j : ℕ) (other : Session), w'.sessions[j]? = some other →
      other.kind = .raopNtp → other.state.control = .freed → w'.destroying = true := by
    intro j other hj hkind hcontrol
    rw [hdestroying]
    rw [hsessions] at hj
    rcases getElem?_set_session hj with ⟨-, rfl⟩ | ⟨-, hold⟩
    · by_cases hbefore : session.state.control = .freed
      · exact h.clock i session hi hkind hbefore
      · exact (hfreed hcontrol hbefore hkind).1
    · exact h.clock j other hold hkind hcontrol
  have hkind : ∀ other ∈ w'.sessions, ∀ c, other.clock = some c →
      ∃ clock, w'.sessions[c]? = some clock ∧ clock.kind = .raopNtp := by
    intro other hother c hc
    rw [hsessions] at hother ⊢
    obtain ⟨j, hj⟩ := List.mem_iff_getElem?.mp hother
    obtain ⟨old, hold, hkind⟩ : ∃ clock, w.sessions[c]? = some clock ∧ clock.kind = .raopNtp := by
      rcases getElem?_set_session hj with ⟨-, rfl⟩ | ⟨-, hold⟩
      · exact h.kind session (List.mem_of_getElem? hi) c hc
      · exact h.kind other (List.mem_of_getElem? hold) c hc
    obtain ⟨clock, hclock, heq⟩ := getElem?_set_kind s' hi hold
    exact ⟨clock, hclock, heq.trans hkind⟩
  refine ⟨?_, ?_, ?_, hclock, hkind, ?_⟩
  · intro kind j hj
    rw [hpointer] at hj
    obtain ⟨old, hold, hkind⟩ := h.pointer kind j hj
    obtain ⟨other, hother, heq⟩ := getElem?_set_kind s' hi hold
    rw [hsessions]
    exact ⟨other, hother, heq.trans hkind⟩
  · intro hbefore call hcall
    exact h.requests (hdestroying ▸ hbefore) call (htodo _ hcall)
  · intro hafter action haction
    exact h.destroys (hdestroying ▸ hafter) action (htodo _ haction)
  · intro other hother c hc hother_loop
    obtain ⟨clock, hget, hclock_kind⟩ := hkind other hother c hc
    refine destroyed_eq_false.mpr ⟨clock, hget, fun hgone => ?_⟩
    have hafter : w.destroying = true := hdestroying ▸ hclock c clock hget hclock_kind hgone
    -- the thread was in its loop already, so the clock was still there
    have hold_loop : ∃ old ∈ w.sessions, old.clock = some c ∧ InLoop old.state.thread := by
      rw [hsessions] at hother
      obtain ⟨j, hj⟩ := List.mem_iff_getElem?.mp hother
      rcases getElem?_set_session hj with ⟨-, rfl⟩ | ⟨-, hold⟩
      · rcases hloop hother_loop with hwas | hearly
        · exact ⟨session, List.mem_of_getElem? hi, hc, hwas⟩
        · rw [hafter] at hearly
          cases hearly
      · exact ⟨other, List.mem_of_getElem? hold, hc, hother_loop⟩
    obtain ⟨old, hold, hold_clock, hwas⟩ := hold_loop
    obtain ⟨before, hbefore, hpresent⟩ := destroyed_eq_false.mp (h.alive old hold c hold_clock hwas)
    rw [hsessions] at hget
    rcases getElem?_set_session hget with ⟨rfl, rfl⟩ | ⟨-, hsame⟩
    · obtain rfl : session = before := Option.some.inj (hi.symm.trans hbefore)
      exact (hfreed hgone hpresent hclock_kind).2 old hold hold_clock hwas
    · obtain rfl : clock = before := Option.some.inj (hsame.symm.trans hbefore)
      exact hpresent hgone

theorem clockSafe_create (h : ClockSafe w) (hdestroying : w.destroying = false)
    (kind : SessionKind) (todo : List ConnAction) (htodo : ∀ action ∈ todo, action ∈ w.todo) :
    ClockSafe { w with
      sessions := w.sessions ++ [{ kind := kind
                                   clock := if kind = .raopNtp then none else w.pointer .raopNtp
                                   state := serviceInit }]
      pointer := Function.update w.pointer kind (some w.sessions.length)
      todo := todo } := by
  set session : Session :=
    { kind := kind
      clock := if kind = .raopNtp then none else w.pointer .raopNtp
      state := serviceInit } with hsession
  have hold : ∀ {j : ℕ} {old : Session}, w.sessions[j]? = some old →
      (w.sessions ++ [session])[j]? = some old := fun hj =>
    (List.getElem?_append_left (List.getElem?_eq_some_iff.mp hj).1).trans hj
  have hclock : ∀ c, session.clock = some c →
      ∃ clock, w.sessions[c]? = some clock ∧ clock.kind = .raopNtp := by
    intro c hc
    have hpointer : w.pointer .raopNtp = some c := by
      rw [hsession] at hc
      exact (Option.ite_none_left_eq_some.mp hc).2
    exact h.pointer .raopNtp c hpointer
  have hkind : ∀ other ∈ w.sessions ++ [session], ∀ c, other.clock = some c →
      ∃ clock, w.sessions[c]? = some clock ∧ clock.kind = .raopNtp := by
    intro other hother c hc
    rcases List.mem_append.mp hother with hother | hother
    · exact h.kind other hother c hc
    · rw [List.mem_singleton.mp hother] at hc
      exact hclock c hc
  have hnever : ∀ (j : ℕ) (other : Session), (w.sessions ++ [session])[j]? = some other →
      other.kind = .raopNtp → other.state.control ≠ .freed := by
    intro j other hj hother hfreed
    rcases List.mem_append.mp (List.mem_of_getElem? hj) with hmem | hmem
    · obtain ⟨k, hk⟩ := List.mem_iff_getElem?.mp hmem
      have := h.clock k other hk hother hfreed
      simp [hdestroying] at this
    · rw [List.mem_singleton.mp hmem] at hfreed
      cases hfreed
  refine ⟨?_, ?_, ?_, ?_, ?_, ?_⟩
  · intro other_kind i hi
    by_cases hsame : other_kind = kind
    · subst hsame
      simp only [Function.update_self, Option.some.injEq] at hi
      subst hi
      exact ⟨session, by simp, rfl⟩
    · simp only [Function.update_of_ne hsame] at hi
      obtain ⟨old, hget, hold_kind⟩ := h.pointer other_kind i hi
      exact ⟨old, hold hget, hold_kind⟩
  · intro hbefore call hcall
    exact h.requests hbefore call (htodo _ hcall)
  · intro hafter
    simp [hdestroying] at hafter
  · intro i other hi hother hfreed
    exact absurd hfreed (hnever i other hi hother)
  · intro other hother c hc
    obtain ⟨clock, hget, hclock_kind⟩ := hkind other hother c hc
    exact ⟨clock, hold hget, hclock_kind⟩
  · intro other hother c hc _
    obtain ⟨clock, hget, hclock_kind⟩ := hkind other hother c hc
    exact destroyed_eq_false.mpr ⟨clock, hold hget, hnever c clock (hold hget) hclock_kind⟩

theorem clockSafe_clear (h : ClockSafe w) (kind : SessionKind) (todo : List ConnAction)
    (htodo : ∀ action ∈ todo, action ∈ w.todo) :
    ClockSafe { w with pointer := Function.update w.pointer kind none, todo := todo } where
  pointer := by
    intro other i hi
    by_cases hsame : other = kind
    · simp [hsame] at hi
    · simp only [Function.update_of_ne hsame] at hi
      exact h.pointer other i hi
  requests hbefore call hcall := h.requests hbefore call (htodo _ hcall)
  destroys hafter action haction := h.destroys hafter action (htodo _ haction)
  clock := h.clock
  kind := h.kind
  alive := h.alive

theorem clockSafe_todo (h : ClockSafe w) {todo : List ConnAction}
    (hrequests : w.destroying = false → ∀ call, .call .raopNtp call ∉ todo)
    (hdestroys : w.destroying = true → ∀ action ∈ todo, ∃ kind, action = .call kind .destroy) :
    ClockSafe { w with todo := todo } where
  pointer := h.pointer
  requests := hrequests
  destroys := hdestroys
  clock := h.clock
  kind := h.kind
  alive := h.alive

/-! ## One step -/

theorem stepSession_eq_some {i : ℕ} {label : ServiceLabel} {r : ConnWorld × List ConnEvent}
    (hr : stepSession w i label = some r) :
    ∃ session s', w.sessions[i]? = some session ∧
      serviceStep session.kind.code session.state label = some s' ∧
      r.1 = { w with sessions := w.sessions.set i { session with state := s'.1 } } := by
  unfold stepSession at hr
  cases hi : w.sessions[i]? with
  | none => simp [hi] at hr
  | some session =>
    rw [hi] at hr
    obtain ⟨s', hs', rfl⟩ := Option.map_eq_some_iff.mp hr
    exact ⟨session, s', rfl, hs', rfl⟩

theorem clockSafe_stepSession {i : ℕ} {label : ServiceLabel} {r : ConnWorld × List ConnEvent}
    (h : ClockSafe w) (hr : stepSession w i label = some r)
    (hstart : (∃ sockets, label = .start sockets) → w.destroying = false)
    (hfree : label = .free → ∀ session, w.sessions[i]? = some session →
      session.kind = .raopNtp → w.destroying = true ∧
        ∀ other ∈ w.sessions, other.clock = some i → ¬ InLoop other.state.thread)
    {todo : List ConnAction} (htodo : ∀ action ∈ todo, action ∈ w.todo) :
    ClockSafe { r.1 with todo := todo } := by
  obtain ⟨session, s', hi, hs', hr1⟩ := stepSession_eq_some hr
  rw [hr1]
  refine clockSafe_set s'.1 h hi rfl rfl rfl htodo ?_ ?_
  · intro hfreed hbefore hkind
    have hlabel := (serviceStep_freed hs' hfreed).resolve_left hbefore
    exact hfree hlabel session hi hkind
  · intro hloop
    exact (serviceStep_inLoop hs' hloop).imp_right hstart

theorem callLabel_ne_start (call : StopCall) (control : ControlPoint) (sockets : SocketResult) :
    callLabel call control ≠ .start sockets := by
  cases call <;> cases control <;> simp [callLabel]

theorem teardownActions_requests (w : ConnWorld) (call : StopCall) :
    .call .raopNtp call ∉ teardownActions w := by
  unfold teardownActions
  split
  · simp
  · split <;> simp

theorem connRequestActions_requests (request : ConnRequest) (call : StopCall) :
    .call .raopNtp call ∉ connRequestActions request := by
  cases request with
  | teardown | other => simp [connRequestActions]
  | setup keys streams =>
    simp only [connRequestActions, List.mem_append, List.mem_flatMap, not_or, not_exists, not_and]
    refine ⟨?_, fun stream _ => ?_⟩
    · cases keys <;> simp [setupKeysActions]
    · cases stream <;> simp [setupStreamActions]

theorem clockSafe_control (h : ClockSafe w) (hguard : ClockReleased w .control)
    {r : ConnWorld × List ConnEvent} (hr : connControl w = some r) : ClockSafe r.1 := by
  cases htodo : w.todo with
  | nil => simp [connControl, htodo] at hr
  | cons action todo =>
    have hrest : ∀ other ∈ todo, other ∈ w.todo := by
      intro other hother
      rw [htodo]
      exact List.mem_cons_of_mem _ hother
    -- an action that `conn_destroy` does not make
    have hearly : (∀ kind, action ≠ .call kind .destroy) → w.destroying = false := by
      intro hother
      by_contra hafter
      rw [Bool.not_eq_false] at hafter
      obtain ⟨kind, hkind⟩ := h.destroys hafter action (by rw [htodo]; exact List.mem_cons_self ..)
      exact hother kind hkind
    unfold connControl at hr
    rw [htodo] at hr
    cases action with
    | init kind created =>
      by_cases hcreated : created
      · simp only [hcreated, if_true, Option.some.injEq] at hr
        subst hr
        exact clockSafe_create h (hearly (by simp)) kind todo hrest
      · simp only [hcreated, Bool.false_eq_true, if_false, Option.some.injEq] at hr
        subst hr
        exact clockSafe_clear h kind todo hrest
    | start kind sockets =>
      cases hpointer : w.pointer kind with
      | none =>
        simp only [hpointer, Option.ite_none_left_eq_some, Option.some.injEq] at hr
        obtain ⟨-, rfl⟩ := hr
        exact clockSafe_todo h (fun hbefore call hcall => h.requests hbefore call (hrest _ hcall))
          (fun hafter other hother => h.destroys hafter other (hrest _ hother))
      | some i =>
        simp only [hpointer] at hr
        obtain ⟨r', hr', rfl⟩ := Option.map_eq_some_iff.mp hr
        exact clockSafe_stepSession h hr' (fun _ => hearly (by simp)) (by simp) hrest
    | teardown =>
      simp only [Option.some.injEq] at hr
      subst hr
      have hbefore : w.destroying = false := hearly (by simp)
      refine clockSafe_todo h (fun _ call hcall => ?_) (by simp [hbefore])
      rcases List.mem_append.mp hcall with hcall | hcall
      · exact teardownActions_requests w call hcall
      · exact h.requests hbefore call (hrest _ hcall)
    | call kind call =>
      cases hpointer : w.pointer kind with
      | none =>
        simp only [hpointer, Option.some.injEq] at hr
        subst hr
        exact clockSafe_todo h (fun hbefore call hcall => h.requests hbefore call (hrest _ hcall))
          (fun hafter other hother => h.destroys hafter other (hrest _ hother))
      | some i =>
        obtain ⟨session, hi, hkind⟩ := h.pointer kind i hpointer
        simp only [hpointer, hi] at hr
        obtain ⟨r', hr', rfl⟩ := Option.map_eq_some_iff.mp hr
        refine clockSafe_stepSession h hr' ?_ ?_ ?_
        · rintro ⟨sockets, hsockets⟩
          exact absurd hsockets (callLabel_ne_start _ _ _)
        · intro hlabel other hother hclock
          obtain rfl : session = other := Option.some.inj (hi.symm.trans hother)
          obtain rfl : kind = .raopNtp := hkind.symm.trans hclock
          refine ⟨?_, hguard i (by simp [freesNext, htodo, hpointer, hi, hlabel])⟩
          by_contra hbefore
          rw [Bool.not_eq_true] at hbefore
          exact h.requests hbefore call (by rw [htodo]; exact List.mem_cons_self ..)
        · intro other hother
          split at hother
          · exact hrest other hother
          · rw [htodo]
            exact hother
    | clear kind =>
      simp only [Option.some.injEq] at hr
      subst hr
      exact clockSafe_clear h kind todo hrest

theorem clockSafe_step {label : ConnLabel} {r : ConnWorld × List ConnEvent} (h : ClockSafe w)
    (hguard : ClockReleased w label) (hr : connStep w label = some r) : ClockSafe r.1 := by
  cases label with
  | request request =>
    simp only [connStep, Option.ite_none_right_eq_some, Bool.and_eq_true, Bool.not_eq_true',
      Option.some.injEq] at hr
    obtain ⟨⟨-, hbefore⟩, rfl⟩ := hr
    exact clockSafe_todo h (fun _ call => connRequestActions_requests request call)
      (by simp [hbefore])
  | destroy =>
    simp only [connStep, Option.ite_none_right_eq_some, Bool.and_eq_true, Bool.not_eq_true',
      Option.some.injEq] at hr
    obtain ⟨⟨-, hbefore⟩, rfl⟩ := hr
    exact
      { pointer := h.pointer
        requests := by simp
        destroys := by simp [connDestroyActions]
        clock := by simp
        kind := h.kind
        alive := h.alive }
  | control => exact clockSafe_control h hguard hr
  | thread i label =>
    simp only [connStep, Option.ite_none_right_eq_some] at hr
    obtain ⟨hthread, hr⟩ := hr
    have hw : ClockSafe { r.1 with todo := w.todo } := by
      refine clockSafe_stepSession h hr ?_ ?_ fun _ => id
      · rintro ⟨sockets, rfl⟩
        cases hthread
      · rintro rfl
        cases hthread
    obtain ⟨session, s', -, -, hr1⟩ := stepSession_eq_some hr
    rw [hr1] at hw ⊢
    exact hw
  | consult i =>
    simp only [connStep] at hr
    split at hr
    · cases hr
      exact h
    · cases hr

theorem stepSession_service {i : ℕ} {label : ServiceLabel} {r : ConnWorld × List ConnEvent}
    (hr : stepSession w i label = some r) : ∀ e ∈ r.2, ∃ result, e = .service i result := by
  unfold stepSession at hr
  cases hi : w.sessions[i]? with
  | none => simp [hi] at hr
  | some session =>
    rw [hi] at hr
    obtain ⟨s', -, rfl⟩ := Option.map_eq_some_iff.mp hr
    intro e he
    obtain ⟨result, -, rfl⟩ := List.mem_map.mp he
    exact ⟨result, rfl⟩

theorem connControl_service {r : ConnWorld × List ConnEvent} (hr : connControl w = some r) :
    ∀ e ∈ r.2, ∃ i result, e = .service i result := by
  unfold connControl at hr
  intro e he
  split at hr
  · cases hr
  · split at hr <;> cases hr <;> cases he
  · split at hr
    · obtain ⟨r', hr', rfl⟩ := Option.map_eq_some_iff.mp hr
      exact ⟨_, stepSession_service hr' e he⟩
    · split at hr <;> cases hr
      cases he
  · cases hr
    cases he
  · split at hr
    · cases hr
      cases he
    · split at hr
      · cases hr
      · obtain ⟨r', hr', rfl⟩ := Option.map_eq_some_iff.mp hr
        exact ⟨_, stepSession_service hr' e he⟩
  · cases hr
    cases he

theorem clockAlive_step {label : ConnLabel} {r : ConnWorld × List ConnEvent} (h : ClockSafe w)
    (hr : connStep w label = some r) : ∀ e ∈ r.2, ClockAlive e := by
  intro e he
  cases label with
  | request | destroy =>
    simp only [connStep, Option.ite_none_right_eq_some, Option.some.injEq] at hr
    obtain ⟨-, rfl⟩ := hr
    cases he
  | control =>
    obtain ⟨i, result, rfl⟩ := connControl_service hr e he
    trivial
  | thread i label =>
    simp only [connStep, Option.ite_none_right_eq_some] at hr
    obtain ⟨result, rfl⟩ := stepSession_service hr.2 e he
    trivial
  | consult i =>
    simp only [connStep] at hr
    split at hr
    · rename_i hi
      cases hr
      rw [List.mem_singleton.mp he]
      exact h.alive _ (List.mem_of_getElem? hi) _ rfl (Or.inr rfl)
    · cases hr

/-- In every run in which no clock is freed while a thread that uses it is in its loop, the clock
has not been destroyed when it is used. -/
theorem clock_alive {run : List ConnLabel} (h : Along connStep ClockReleased connInit run) :
    ∀ e ∈ events connStep connInit run, ClockAlive e :=
  emits_along (I := ClockSafe) (fun _ _ _ hs hg hr => clockSafe_step hs hg hr)
    (fun _ _ _ hs _ hr => clockAlive_step hs hr) clockSafe_init h

/-- A mirror session that is set up, uses its clock and is torn down before the connection. -/
theorem clock_alive_teardown :
    let uses := events connStep connInit
      [.request (.setup (some ⟨true, .opened, true, true⟩) [.mirroring .opened]), .control,
        .control, .control, .control, .control, .thread 2 .check, .consult 2, .request .teardown,
        .control, .control, .control, .control, .control, .thread 2 .iterate, .thread 2 .check,
        .thread 2 .clear, .thread 2 .exit, .control, .control, .control, .control, .destroy,
        .control, .thread 0 .check, .thread 0 .clear, .thread 0 .exit, .control, .control,
        .control, .control, .control]
    .clockUse 2 0 false ∈ uses ∧ ∀ e ∈ uses, ClockAlive e :=
  ⟨by decide +kernel, clock_alive (by decide +kernel)⟩

/-- The connection is closed without a TEARDOWN: the timing session is freed, and the mirror thread
goes on with it. -/
theorem clock_destroyed :
    ¬ ∀ run : List ConnLabel, ∀ e ∈ events connStep connInit run, ClockAlive e := by
  intro h
  have huse := h
    [.request (.setup (some ⟨true, .opened, true, true⟩) [.mirroring .opened]), .control, .control,
      .control, .control, .control, .thread 2 .check, .destroy, .control, .thread 0 .check,
      .thread 0 .clear, .thread 0 .exit, .control, .control, .control, .consult 2]
    (.clockUse 2 0 true) (by decide +kernel)
  cases huse

end WinAirPlay
