import WinAirPlay.Connection.Clock

/-! # What a connection leaves behind

A session that is not freed is the one its pointer points to, as long as no session is created while
the pointer of its kind is set: `raop_handler_setup` overwrites the pointer, and the session it
pointed to is never freed. `conn_destroy` then frees every session, each once. Its thread is gone by
then unless the thread had left its loop by itself and was just about to return: it is not joined.

`Owned` is the invariant over the sessions, the pointers and what the control thread has still to do;
`ThreadGone` the one over a single session.
-/

namespace WinAirPlay
open Foundations.Transition
set_option autoImplicit false

/-! ## One session -/

section Service

variable {code : ServiceCode} {s : ServiceState} {r : ServiceState × List ServiceReturn}
  {l : ServiceLabel}

/-- A session whose thread is joined, or that is being freed, has no thread any more. -/
structure ThreadGone (s : ServiceState) : Prop where
  joined : s.joined = true → ¬ Alive s.thread
  finishing : ∀ destroying, s.control = .joined destroying → s.thread = .joined
  freeing : s.control = .freeing ∨ s.control = .freed → ¬ Alive s.thread

theorem threadGone_init : ThreadGone serviceInit where
  joined _ := by simp [serviceInit, Alive]
  finishing _ h := by cases h
  freeing h := by simp [serviceInit] at h

/-- A destroy finds a thread that it will join, or none. -/
def DestroysStopped (s : ServiceState) : ServiceLabel → Prop
  | .destroy => s.running = true ∨ s.joined = true ∨ ¬ Alive s.thread
  | _ => True

/-- The thread moves: only a live one can. -/
theorem ThreadGone.thread {s' : ServiceState} (h : ThreadGone s) (halive : Alive s.thread)
    (hjoined : s'.joined = s.joined) (hcontrol : s'.control = s.control) : ThreadGone s' where
  joined hj := absurd halive (h.joined (hjoined ▸ hj))
  finishing destroying hc := by
    have := h.finishing destroying (hcontrol ▸ hc)
    simp [this, Alive] at halive
  freeing hc := absurd halive (h.freeing (hcontrol ▸ hc))

theorem threadGone_step (h : ThreadGone s) (hguard : DestroysStopped s l)
    (hr : serviceStep code s l = some r) : ThreadGone r.1 := by
  cases serviceMove_of_step hr with
  | check hthread | iterate hthread | fail _ hthread | clear hthread | exit hthread =>
    exact h.thread (by simp [Alive, hthread]) rfl rfl
  | start sockets hidle =>
    unfold serviceStart
    split
    · exact h
    · cases sockets with
      | initFailed | listenFailed => exact h
      | opened =>
        exact ⟨fun hj => (by cases hj), fun _ hc => absurd hc (by simp [hidle]), by simp [hidle]⟩
  | stopEarly => exact ⟨h.joined, h.finishing, h.freeing⟩
  | stop | destroy =>
    exact ⟨h.joined, fun _ hc => (by cases hc), fun hc => by simp [serviceJoin] at hc⟩
  | destroyEarly hidle hcheck =>
    refine ⟨h.joined, fun _ hc => (by cases hc), fun _ => ?_⟩
    -- nothing to stop: the thread is joined, or it has ended by itself
    rcases hguard with hrunning | hjoined | hgone
    · exact h.joined (by simpa [stopCheck, hrunning] using hcheck)
    · exact h.joined hjoined
    · exact hgone
  | join => exact ⟨fun _ => by simp [Alive], fun _ _ => rfl, fun _ => by simp [Alive]⟩
  | finish destroying hcontrol =>
    have hthread := h.finishing destroying hcontrol
    refine ⟨fun _ => by simp [Alive, hthread], fun _ _ => hthread, fun _ => ?_⟩
    simp [Alive, hthread]
  | free hfreeing =>
    exact ⟨h.joined, fun _ hc => (by cases hc), fun _ => h.freeing (Or.inl hfreeing)⟩

def ServiceReturn.isFree : ServiceReturn → Bool
  | .free _ => true
  | _ => false

/-- A session is freed by exactly one step, and stays freed. -/
theorem serviceStep_isFree (hr : serviceStep code s l = some r) :
    (s.control = .freed → r.1.control = .freed ∧ r.2.countP ServiceReturn.isFree = 0) ∧
      (s.control ≠ .freed → r.2.countP ServiceReturn.isFree =
        if r.1.control = .freed then 1 else 0) := by
  cases serviceMove_of_step hr with
  | check | iterate | fail | clear | exit => exact ⟨fun h => ⟨h, rfl⟩, fun h => by simp [h]⟩
  | start sockets hidle =>
    refine ⟨fun h => by simp [hidle] at h, fun h => ?_⟩
    simp only [serviceStart_control, hidle]
    rfl
  | stopEarly hidle | stop hidle | destroyEarly hidle | destroy hidle =>
    refine ⟨fun h => by simp [hidle] at h, fun _ => ?_⟩
    simp [ServiceReturn.isFree, serviceJoin, hidle]
  | join destroying hcontrol => simp [hcontrol]
  | finish destroying hcontrol => cases destroying <;> simp [ServiceReturn.isFree, hcontrol]
  | free hfreeing => simp [ServiceReturn.isFree, hfreeing]

/-- Whether a stop, and not a destroy, waits for the thread. -/
def PlainStop (s : ServiceState) : Prop :=
  s.control = .joining false ∨ s.control = .joined false

theorem plainStop_thread (hthread : l.ofThread = true) (hr : serviceStep code s l = some r) :
    r.1.control = s.control := by
  cases serviceMove_of_step hr with
  | check | iterate | fail | clear | exit => rfl
  | _ => cases hthread

theorem freed_of_destroy (hstop : ¬ PlainStop s) (hr : serviceStep code s
    (callLabel .destroy s.control) = some r) :
    ¬ PlainStop r.1 ∧ (r.1.control = .idle ∨ r.1.control = .freed → r.1.control = .freed) := by
  cases hcontrol : s.control with
  | idle =>
    simp only [callLabel, hcontrol, serviceStep, if_true] at hr
    split at hr <;> cases hr <;> simp [PlainStop, serviceJoin]
  | joining destroying =>
    simp only [callLabel, hcontrol, serviceStep, Option.ite_none_right_eq_some,
      Option.some.injEq] at hr
    obtain ⟨-, rfl⟩ := hr
    cases destroying
    · exact absurd (Or.inl hcontrol) hstop
    · simp [PlainStop]
  | joined destroying =>
    simp only [callLabel, hcontrol, serviceStep, Option.some.injEq] at hr
    subst hr
    cases destroying
    · exact absurd (Or.inr hcontrol) hstop
    · simp [PlainStop]
  | freeing | freed =>
    simp only [callLabel, hcontrol, serviceStep, Option.ite_none_right_eq_some,
      Option.some.injEq] at hr
    obtain ⟨-, rfl⟩ := hr
    simp [PlainStop]

end Service

/-! ## The sessions of a connection -/

variable {w w' : ConnWorld}

/-- What a SETUP does, and what a TEARDOWN and `conn_destroy` do. -/
def ConnAction.isSetup : ConnAction → Bool
  | .init .. | .start .. => true
  | _ => false

def ConnAction.isRelease : ConnAction → Bool
  | .call .. | .clear _ => true
  | _ => false

structure Owned (w : ConnWorld) : Prop where
  phase : (∀ action ∈ w.todo, action.isSetup = true) ∨ w.todo = [.teardown] ∨
    ∀ action ∈ w.todo, action.isRelease = true
  pointer : ∀ kind i, w.pointer kind = some i →
    ∃ session, w.sessions[i]? = some session ∧ session.kind = kind
  /-- A session that is not freed is not lost. -/
  covered : ∀ (i : ℕ) (session : Session), w.sessions[i]? = some session →
    session.state.control ≠ .freed → w.pointer session.kind = some i
  gone : ∀ session ∈ w.sessions, ThreadGone session.state
  /-- A stop is waited for by the TEARDOWN that made it. -/
  stopping : ∀ session ∈ w.sessions, PlainStop session.state →
    ∃ todo, w.todo = .call session.kind .stop :: todo
  /-- A pointer is cleared once its session has been destroyed. -/
  clears : ∀ before kind after, w.todo = before ++ .clear kind :: after →
    .call kind .destroy ∈ before ∨ ∀ i, w.pointer kind = some i → destroyed w i = true
  /-- `conn_destroy` destroys everything that is left. -/
  destroys : w.destroying = true → (∀ action ∈ w.todo, ∃ kind, action = .call kind .destroy) ∧
    ∀ kind, .call kind .destroy ∈ w.todo ∨ ∀ i, w.pointer kind = some i → destroyed w i = true

theorem owned_init : Owned connInit where
  phase := by simp [connInit]
  pointer := by simp [connInit]
  covered := by simp [connInit]
  gone := by simp [connInit]
  stopping := by simp [connInit]
  clears := by simp [connInit]
  destroys := by simp [connInit]

theorem destroyed_eq_true {i : ℕ} {session : Session} (hi : w.sessions[i]? = some session) :
    destroyed w i = true ↔ session.state.control = .freed := by
  simp [destroyed, hi]

theorem destroyed_set {i : ℕ} {session : Session} {s' : ServiceState}
    (hi : w.sessions[i]? = some session)
    (hsessions : w'.sessions = w.sessions.set i { session with state := s' })
    (hfreed : session.state.control = .freed → s'.control = .freed) {j : ℕ}
    (hj : destroyed w j = true) : destroyed w' j = true := by
  unfold destroyed at hj ⊢
  rw [hsessions, List.getElem?_set]
  by_cases hij : i = j
  · subst hij
    obtain ⟨hlt, -⟩ := List.getElem?_eq_some_iff.mp hi
    rw [hi] at hj
    simp only [if_true, hlt]
    exact decide_eq_true (hfreed (of_decide_eq_true hj))
  · rw [if_neg hij]
    exact hj

theorem phase_pop {todo rest : List ConnAction} {action : ConnAction}
    (h : (∀ action ∈ todo, action.isSetup = true) ∨ todo = [.teardown] ∨
      ∀ action ∈ todo, action.isRelease = true)
    (htodo : todo = action :: rest) (hteardown : action ≠ .teardown) :
    (∀ action ∈ rest, action.isSetup = true) ∨ rest = [.teardown] ∨
      ∀ action ∈ rest, action.isRelease = true := by
  subst htodo
  rcases h with hsetup | hsingle | hrelease
  · exact Or.inl fun other hother => hsetup other (List.mem_cons_of_mem _ hother)
  · exact absurd (List.cons.inj hsingle).1 hteardown
  · exact Or.inr (Or.inr fun other hother => hrelease other (List.mem_cons_of_mem _ hother))

/-- The control thread has returned from a call on session `i`, freed if the call was a destroy. -/
def CallDone (w w' : ConnWorld) (i : ℕ) (session : Session) (s' : ServiceState) : Prop :=
  w.pointer session.kind = some i ∧ ∃ call, w.todo = .call session.kind call :: w'.todo ∧
    (call = .destroy → s'.control = .freed)

/-- One session moves, and the control thread may have returned from a call on it. -/
theorem owned_set {i : ℕ} {session : Session} (s' : ServiceState) (h : Owned w)
    (hi : w.sessions[i]? = some session)
    (hsessions : w'.sessions = w.sessions.set i { session with state := s' })
    (hpointer : w'.pointer = w.pointer) (hdestroying : w'.destroying = w.destroying)
    (hgone : ThreadGone s') (hfreed : session.state.control = .freed → s'.control = .freed)
    (hself : PlainStop s' → w'.todo = w.todo ∧ ∃ todo, w.todo = .call session.kind .stop :: todo)
    (htodo : w'.todo = w.todo ∨ CallDone w w' i session s') : Owned w' := by
  have hkept : ∀ {j : ℕ}, destroyed w j = true → destroyed w' j = true :=
    destroyed_set hi hsessions hfreed
  -- what was still to be destroyed is so, or has been destroyed
  have hdone : ∀ kind call rest, w.todo = call :: rest → w'.todo = rest →
      call = .call kind .destroy → ∀ j, w.pointer kind = some j → destroyed w' j = true := by
    rintro kind call rest hw hw' rfl j hj
    rcases htodo with hsame | ⟨hi', call, hcall, hcontrol⟩
    · rw [hsame, hw] at hw'
      exact absurd hw' (List.cons_ne_self _ _)
    · rw [hw, hw'] at hcall
      obtain ⟨⟨rfl, rfl⟩, -⟩ : (kind = session.kind ∧ StopCall.destroy = call) ∧ True := by
        simpa using hcall
      obtain rfl : i = j := Option.some.inj (hi'.symm.trans hj)
      obtain ⟨hlt, -⟩ := List.getElem?_eq_some_iff.mp hi
      rw [destroyed, hsessions, List.getElem?_set_self hlt]
      exact decide_eq_true (hcontrol rfl)
  refine ⟨?_, ?_, ?_, ?_, ?_, ?_, ?_⟩
  · rcases htodo with hsame | ⟨-, call, hcall, -⟩
    · rw [hsame]
      exact h.phase
    · exact phase_pop h.phase hcall (by simp)
  · intro kind j hj
    rw [hpointer] at hj
    obtain ⟨old, hold, hkind⟩ := h.pointer kind j hj
    obtain ⟨other, hother, heq⟩ := getElem?_set_kind s' hi hold
    rw [hsessions]
    exact ⟨other, hother, heq.trans hkind⟩
  · intro j other hj hlive
    rw [hsessions] at hj
    rw [hpointer]
    rcases getElem?_set_session hj with ⟨rfl, rfl⟩ | ⟨-, hold⟩
    · exact h.covered i session hi fun hc => hlive (hfreed hc)
    · exact h.covered j other hold hlive
  · intro other hother
    rw [hsessions] at hother
    obtain ⟨j, hj⟩ := List.mem_iff_getElem?.mp hother
    rcases getElem?_set_session hj with ⟨-, rfl⟩ | ⟨-, hold⟩
    · exact hgone
    · exact h.gone other (List.mem_of_getElem? hold)
  · intro other hother hplain
    rw [hsessions] at hother
    obtain ⟨j, hj⟩ := List.mem_iff_getElem?.mp hother
    rcases getElem?_set_session hj with ⟨-, rfl⟩ | ⟨hij, hold⟩
    · obtain ⟨hsame, hhead⟩ := hself hplain
      rw [hsame]
      exact hhead
    · obtain ⟨todo, hhead⟩ := h.stopping other (List.mem_of_getElem? hold) hplain
      rcases htodo with hsame | ⟨hi', call, hcall, -⟩
      · exact ⟨todo, hsame.trans hhead⟩
      · -- only one session at a time is waited for
        have hlive : other.state.control ≠ .freed := by
          rcases hplain with hc | hc <;> simp [hc]
        rw [hhead] at hcall
        have hkind : other.kind = session.kind := by
          simp only [List.cons.injEq, ConnAction.call.injEq] at hcall
          exact hcall.1.1
        have hj' := h.covered j other hold hlive
        rw [hkind, hi'] at hj'
        exact absurd (Option.some.inj hj') hij
  · intro before kind after hclear
    rw [hpointer]
    rcases htodo with hsame | ⟨hi', call, hcall, hcontrol⟩
    · exact (h.clears before kind after (hsame ▸ hclear)).imp_right fun hd j hj => hkept (hd j hj)
    · have hold : w.todo = (.call session.kind call :: before) ++ .clear kind :: after := by
        rw [hcall, hclear]
        rfl
      rcases h.clears _ kind after hold with hmem | hd
      · rcases List.mem_cons.mp hmem with heq | hmem
        · exact Or.inr (hdone kind _ _ hcall rfl heq.symm)
        · exact Or.inl hmem
      · exact Or.inr fun j hj => hkept (hd j hj)
  · intro hafter
    rw [hdestroying] at hafter
    obtain ⟨hactions, hdestroys⟩ := h.destroys hafter
    rw [hpointer]
    rcases htodo with hsame | ⟨hi', call, hcall, hcontrol⟩
    · rw [hsame]
      exact ⟨hactions, fun kind => (hdestroys kind).imp_right fun hd j hj => hkept (hd j hj)⟩
    · rw [hcall] at hactions hdestroys
      refine ⟨fun action haction => hactions action (List.mem_cons_of_mem _ haction), fun kind => ?_⟩
      rcases hdestroys kind with hmem | hd
      · rcases List.mem_cons.mp hmem with heq | hmem
        · exact Or.inr (hdone kind _ _ hcall rfl heq.symm)
        · exact Or.inl hmem
      · exact Or.inr fun j hj => hkept (hd j hj)

/-- The next action needs no step of a session. -/
theorem owned_pop {action : ConnAction} {todo : List ConnAction} (h : Owned w)
    (hw : w.todo = action :: todo) (hteardown : action ≠ .teardown)
    (hcall : ∀ kind call, action = .call kind call → w.pointer kind = none) :
    Owned { w with todo := todo } where
  phase := phase_pop h.phase hw hteardown
  pointer := h.pointer
  covered := h.covered
  gone := h.gone
  stopping := by
    intro session hsession hplain
    obtain ⟨rest, hhead⟩ := h.stopping session hsession hplain
    obtain ⟨i, hi⟩ := List.mem_iff_getElem?.mp hsession
    have hlive : session.state.control ≠ .freed := by
      rcases hplain with hc | hc <;> simp [hc]
    rw [hw] at hhead
    have hnone := hcall session.kind .stop (List.cons.inj hhead).1
    rw [h.covered i session hi hlive] at hnone
    cases hnone
  clears := by
    intro before kind after hclear
    have hold : w.todo = (action :: before) ++ .clear kind :: after := by
      rw [hw, show todo = _ from hclear]
      rfl
    rcases h.clears _ kind after hold with hmem | hd
    · rcases List.mem_cons.mp hmem with heq | hmem
      · exact Or.inr fun i hi => by
          rw [hcall kind .destroy heq.symm] at hi
          cases hi
      · exact Or.inl hmem
    · exact Or.inr hd
  destroys := by
    intro hafter
    obtain ⟨hactions, hdestroys⟩ := h.destroys hafter
    rw [hw] at hactions hdestroys
    refine ⟨fun other hother => hactions other (List.mem_cons_of_mem _ hother), fun kind => ?_⟩
    rcases hdestroys kind with hmem | hd
    · rcases List.mem_cons.mp hmem with heq | hmem
      · exact Or.inr fun i hi => by
          rw [hcall kind .destroy heq.symm] at hi
          cases hi
      · exact Or.inl hmem
    · exact Or.inr hd

/-- A session is created while the pointer of its kind is not set. -/
theorem owned_create {kind : SessionKind} {clock : Option ℕ} {todo : List ConnAction} (h : Owned w)
    (hw : w.todo = .init kind true :: todo) (hfresh : w.pointer kind = none) :
    Owned { w with
      sessions := w.sessions ++ [{ kind := kind, clock := clock, state := serviceInit }]
      pointer := Function.update w.pointer kind (some w.sessions.length)
      todo := todo } := by
  have hsetup : ∀ action ∈ w.todo, action.isSetup = true := by
    rcases h.phase with hsetup | hsingle | hrelease
    · exact hsetup
    · rw [hw] at hsingle
      cases (List.cons.inj hsingle).1
    · have := hrelease (.init kind true) (by rw [hw]; exact List.mem_cons_self ..)
      cases this
  have hrest : ∀ action ∈ todo, action.isSetup = true := fun action haction =>
    hsetup action (by rw [hw]; exact List.mem_cons_of_mem _ haction)
  have hold : ∀ {j : ℕ} {old : Session}, w.sessions[j]? = some old →
      (w.sessions ++ [{ kind := kind, clock := clock, state := serviceInit }])[j]? = some old :=
    fun hj => (List.getElem?_append_left (List.getElem?_eq_some_iff.mp hj).1).trans hj
  refine ⟨Or.inl hrest, ?_, ?_, ?_, ?_, ?_, ?_⟩
  · intro other i hi
    by_cases hsame : other = kind
    · subst hsame
      simp only [Function.update_self, Option.some.injEq] at hi
      subst hi
      exact ⟨_, List.getElem?_concat_length, rfl⟩
    · simp only [Function.update_of_ne hsame] at hi
      obtain ⟨old, hget, hkind⟩ := h.pointer other i hi
      exact ⟨old, hold hget, hkind⟩
  · intro i session hi hlive
    by_cases hlast : i = w.sessions.length
    · subst hlast
      rw [List.getElem?_concat_length, Option.some.injEq] at hi
      subst hi
      exact Function.update_self ..
    · have hlt : i < w.sessions.length := by
        have := (List.getElem?_eq_some_iff.mp hi).1
        rw [List.length_append, List.length_singleton] at this
        omega
      rw [List.getElem?_append_left hlt] at hi
      have hpointer := h.covered i session hi hlive
      -- a session of the same kind that is not freed would be pointed to
      have hkind : session.kind ≠ kind := by
        rintro rfl
        rw [hfresh] at hpointer
        cases hpointer
      exact (Function.update_of_ne hkind ..).trans hpointer
  · intro session hsession
    rcases List.mem_append.mp hsession with hsession | hsession
    · exact h.gone session hsession
    · rw [List.mem_singleton.mp hsession]
      exact threadGone_init
  · intro session hsession hplain
    rcases List.mem_append.mp hsession with hsession | hsession
    · obtain ⟨rest, hhead⟩ := h.stopping session hsession hplain
      rw [hw] at hhead
      cases (List.cons.inj hhead).1
    · rw [List.mem_singleton.mp hsession] at hplain
      rcases hplain with hc | hc <;> cases hc
  · intro before other after hclear
    have hmem : .clear other ∈ todo := by
      rw [show todo = _ from hclear]
      simp
    cases hrest _ hmem
  · intro hafter
    obtain ⟨other, hother⟩ := (h.destroys hafter).1 (.init kind true) (by
      rw [hw]
      exact List.mem_cons_self ..)
    cases hother

theorem owned_clear {kind : SessionKind} {todo : List ConnAction} (h : Owned w)
    (hw : w.todo = .clear kind :: todo) :
    Owned { w with pointer := Function.update w.pointer kind none, todo := todo } := by
  have hdone : ∀ i, w.pointer kind = some i → destroyed w i = true :=
    (h.clears [] kind todo hw).resolve_left List.not_mem_nil
  have hless : ∀ other i, Function.update w.pointer kind none other = some i →
      w.pointer other = some i := by
    intro other i hi
    by_cases hsame : other = kind
    · simp [hsame] at hi
    · rwa [Function.update_of_ne hsame] at hi
  have hpop : Owned { w with todo := todo } :=
    owned_pop h hw (by simp) fun _ _ hc => by cases hc
  refine ⟨hpop.phase, fun other i hi => h.pointer other i (hless other i hi), ?_, h.gone,
    hpop.stopping, ?_, ?_⟩
  · intro i session hi hlive
    have hpointer := h.covered i session hi hlive
    have hkind : session.kind ≠ kind := by
      rintro rfl
      exact hlive ((destroyed_eq_true hi).mp (hdone i hpointer))
    exact (Function.update_of_ne hkind ..).trans hpointer
  · intro before other after hclear
    exact (hpop.clears before other after hclear).imp_right fun hd i hi => hd i (hless other i hi)
  · intro hafter
    obtain ⟨other, hother⟩ := (h.destroys hafter).1 (.clear kind) (by
      rw [hw]
      exact List.mem_cons_self ..)
    cases hother

/-- A list of actions for a control thread that has nothing to do, or only the TEARDOWN itself. -/
theorem owned_todo {todo : List ConnAction} (h : Owned w)
    (hidle : w.todo = [] ∨ w.todo = [.teardown]) (hbefore : w.destroying = false)
    (hphase : (∀ action ∈ todo, action.isSetup = true) ∨ todo = [.teardown] ∨
      ∀ action ∈ todo, action.isRelease = true)
    (hclears : ∀ before kind after, todo = before ++ .clear kind :: after →
      .call kind .destroy ∈ before) : Owned { w with todo := todo } where
  phase := hphase
  pointer := h.pointer
  covered := h.covered
  gone := h.gone
  stopping := by
    intro session hsession hplain
    obtain ⟨rest, hhead⟩ := h.stopping session hsession hplain
    rcases hidle with hw | hw <;> rw [hw] at hhead
    · cases hhead
    · cases (List.cons.inj hhead).1
  clears before kind after hclear := Or.inl (hclears before kind after hclear)
  destroys hafter := by
    rw [show w.destroying = true from hafter] at hbefore
    cases hbefore

/-! ## The actions -/

theorem connRequestActions_owned (request : ConnRequest) :
    ((∀ action ∈ connRequestActions request, action.isSetup = true) ∨
      connRequestActions request = [.teardown]) ∧
    ∀ kind, .clear kind ∉ connRequestActions request := by
  cases request with
  | teardown => exact ⟨Or.inr rfl, by simp [connRequestActions]⟩
  | other => exact ⟨Or.inl (by simp [connRequestActions]), by simp [connRequestActions]⟩
  | setup keys streams =>
    have hsetup : ∀ action ∈ connRequestActions (.setup keys streams), action.isSetup = true := by
      intro action haction
      rcases List.mem_append.mp haction with haction | haction
      · cases keys with
        | none => cases haction
        | some keys =>
          simp only [Option.map_some, Option.getD_some, setupKeysActions, List.mem_cons,
            List.not_mem_nil, or_false] at haction
          rcases haction with rfl | rfl | rfl | rfl <;> rfl
      · obtain ⟨stream, -, haction⟩ := List.mem_flatMap.mp haction
        cases stream with
        | unknown => cases haction
        | mirroring | audio =>
          rw [List.mem_singleton.mp haction]
          rfl
    exact ⟨Or.inl hsetup, fun kind hclear => by cases hsetup _ hclear⟩

theorem teardownActions_isRelease (w : ConnWorld) :
    ∀ action ∈ teardownActions w, action.isRelease = true := by
  intro action haction
  unfold teardownActions at haction
  split at haction
  · rw [List.mem_singleton.mp haction]
    rfl
  · split at haction
    · simp only [List.mem_cons, List.not_mem_nil, or_false] at haction
      rcases haction with rfl | rfl | rfl | rfl <;> rfl
    · cases haction

/-- A TEARDOWN clears a pointer only after it has destroyed its session. -/
theorem teardownActions_clears (w : ConnWorld) (before : List ConnAction) (kind : SessionKind)
    (after : List ConnAction) (h : teardownActions w = before ++ .clear kind :: after) :
    .call kind .destroy ∈ before := by
  unfold teardownActions at h
  split at h
  · rcases before with _ | ⟨action, before⟩
    · cases h
    · obtain ⟨-, hnil⟩ := List.cons.inj h
      simp at hnil
  · split at h
    · rcases before with _ | ⟨a, _ | ⟨b, _ | ⟨c, _ | ⟨d, before⟩⟩⟩⟩ <;> simp at h
      · obtain ⟨rfl, rfl, -⟩ := h
        exact List.mem_cons_self ..
      · obtain ⟨rfl, rfl, rfl, rfl, -⟩ := h
        simp
    · simp at h

/-! ## One step -/

/-- No session is created while the pointer of its kind is set, and no destroy finds a thread that
has cleared `running` and not yet returned. -/
def ReleasesAll (w : ConnWorld) (label : ConnLabel) : Prop :=
  match label, w.todo with
  | .control, .init kind _ :: _ => w.pointer kind = none
  | .control, .call kind call :: _ => ∀ session ∈ (w.pointer kind).bind (w.sessions[·]?),
      DestroysStopped session.state (callLabel call session.state.control)
  | _, _ => True

instance (s : ServiceState) (label : ServiceLabel) : Decidable (DestroysStopped s label) := by
  unfold DestroysStopped Alive
  cases label <;> infer_instance

instance (w : ConnWorld) (label : ConnLabel) : Decidable (ReleasesAll w label) := by
  unfold ReleasesAll
  split <;> infer_instance

/-- One session takes a step that is not the last of a call. -/
theorem owned_stepSession {i : ℕ} {label : ServiceLabel} {r : ConnWorld × List ConnEvent}
    {session : Session} (h : Owned w) (hi : w.sessions[i]? = some session)
    (hr : stepSession w i label = some r)
    (hguard : DestroysStopped session.state label)
    (hself : ∀ s', serviceStep session.kind.code session.state label = some s' →
      PlainStop s'.1 → ∃ todo, w.todo = .call session.kind .stop :: todo) : Owned r.1 := by
  obtain ⟨session', s', hi', hs', hr1⟩ := stepSession_eq_some hr
  obtain rfl : session = session' := Option.some.inj (hi.symm.trans hi')
  rw [hr1]
  exact owned_set s'.1 h hi rfl rfl rfl
    (threadGone_step (h.gone session (List.mem_of_getElem? hi)) hguard hs')
    (fun hc => ((serviceStep_isFree hs').1 hc).1) (fun hplain => ⟨rfl, hself s' hs' hplain⟩)
    (Or.inl rfl)

/-- The control thread takes a step of a stop or a destroy. -/
theorem owned_call {kind : SessionKind} {call : StopCall} {todo : List ConnAction} {i : ℕ}
    {session : Session} {r : ConnWorld × List ConnEvent} (h : Owned w)
    (hw : w.todo = .call kind call :: todo) (hpointer : w.pointer kind = some i)
    (hi : w.sessions[i]? = some session) (hkind : session.kind = kind)
    (hguard : DestroysStopped session.state (callLabel call session.state.control))
    (hr : stepSession w i (callLabel call session.state.control) = some r) :
    Owned { r.1 with todo := if callReturned r.1 i then todo else w.todo } := by
  obtain ⟨session', s', hi', hs', hr1⟩ := stepSession_eq_some hr
  obtain rfl : session = session' := Option.some.inj (hi.symm.trans hi')
  obtain ⟨hlt, -⟩ := List.getElem?_eq_some_iff.mp hi
  have hreturned : callReturned r.1 i = true ↔
      s'.1.control = .idle ∨ s'.1.control = .freed := by
    rw [hr1, callReturned, List.getElem?_set_self hlt]
    simp
  have hdestroy : call = .destroy → ¬ PlainStop s'.1 ∧
      (s'.1.control = .idle ∨ s'.1.control = .freed → s'.1.control = .freed) := by
    rintro rfl
    refine freed_of_destroy (fun hplain => ?_) hs'
    obtain ⟨rest, hhead⟩ := h.stopping session (List.mem_of_getElem? hi) hplain
    rw [hw] at hhead
    cases (List.cons.inj hhead).1
  refine owned_set s'.1 h hi (by rw [hr1]) (by rw [hr1]) (by rw [hr1])
    (threadGone_step (h.gone session (List.mem_of_getElem? hi)) hguard hs')
    (fun hc => ((serviceStep_isFree hs').1 hc).1) ?_ ?_
  · intro hplain
    have hnot : ¬ callReturned r.1 i = true := by
      rw [hreturned]
      rcases hplain with hc | hc <;> simp [hc]
    have hstop : call = .stop := by
      cases call with
      | stop => rfl
      | destroy => exact absurd hplain (hdestroy rfl).1
    refine ⟨if_neg hnot, todo, ?_⟩
    rw [hw, hkind, hstop]
  · by_cases hret : callReturned r.1 i = true
    · refine Or.inr ⟨by rw [hkind]; exact hpointer, call, ?_, fun hcall =>
        (hdestroy hcall).2 (hreturned.mp hret)⟩
      rw [hw, hkind]
      simp [hret]
    · exact Or.inl (if_neg hret)

theorem owned_control (h : Owned w) (hguard : ReleasesAll w .control)
    {r : ConnWorld × List ConnEvent} (hr : connControl w = some r) : Owned r.1 := by
  cases hw : w.todo with
  | nil => simp [connControl, hw] at hr
  | cons action todo =>
    unfold connControl at hr
    rw [hw] at hr
    cases action with
    | init kind created =>
      have hfresh : w.pointer kind = none := by simpa [ReleasesAll, hw] using hguard
      cases created with
      | true =>
        simp only [if_true, Option.some.injEq] at hr
        subst hr
        exact owned_create h hw hfresh
      | false =>
        simp only [Bool.false_eq_true, if_false, Option.some.injEq] at hr
        subst hr
        have hsame : Function.update w.pointer kind none = w.pointer := by
          rw [← hfresh]
          exact Function.update_eq_self ..
        rw [hsame]
        exact owned_pop h hw (by simp) fun _ _ hc => by cases hc
    | start kind sockets =>
      cases hpointer : w.pointer kind with
      | none =>
        simp only [hpointer, Option.ite_none_left_eq_some, Option.some.injEq] at hr
        obtain ⟨-, rfl⟩ := hr
        exact owned_pop h hw (by simp) fun _ _ hc => by cases hc
      | some i =>
        simp only [hpointer] at hr
        obtain ⟨r', hr', rfl⟩ := Option.map_eq_some_iff.mp hr
        obtain ⟨session, hi, -⟩ := h.pointer kind i hpointer
        have hmoved : Owned r'.1 := by
          refine owned_stepSession h hi hr' trivial fun s' hs' hplain => ?_
          simp only [serviceStep, Option.ite_none_right_eq_some, Option.some.injEq] at hs'
          obtain ⟨hidle, rfl⟩ := hs'
          simp [PlainStop, serviceStart_control, hidle] at hplain
        obtain ⟨session', s', -, -, hr1⟩ := stepSession_eq_some hr'
        have hw' : r'.1.todo = .start kind sockets :: todo := by rw [hr1]; exact hw
        exact owned_pop hmoved hw' (by simp) fun _ _ hc => by cases hc
    | teardown =>
      simp only [Option.some.injEq] at hr
      subst hr
      have hsingle : todo = [] := by
        rcases h.phase with hsetup | hsingle | hrelease
        · cases hsetup .teardown (by rw [hw]; exact List.mem_cons_self ..)
        · rw [hw] at hsingle
          exact (List.cons.inj hsingle).2
        · cases hrelease .teardown (by rw [hw]; exact List.mem_cons_self ..)
      have hbefore : w.destroying = false := by
        by_contra hafter
        rw [Bool.not_eq_false] at hafter
        obtain ⟨kind, hkind⟩ := (h.destroys hafter).1 .teardown (by
          rw [hw]
          exact List.mem_cons_self ..)
        cases hkind
      rw [hsingle, List.append_nil]
      exact owned_todo h (Or.inr (by rw [hw, hsingle])) hbefore
        (Or.inr (Or.inr (teardownActions_isRelease w))) (teardownActions_clears w)
    | call kind call =>
      cases hpointer : w.pointer kind with
      | none =>
        simp only [hpointer, Option.some.injEq] at hr
        subst hr
        refine owned_pop h hw (by simp) fun other _ hc => ?_
        obtain ⟨rfl, -⟩ : kind = other ∧ _ := by simpa using hc
        exact hpointer
      | some i =>
        obtain ⟨session, hi, hkind⟩ := h.pointer kind i hpointer
        simp only [hpointer, hi] at hr
        obtain ⟨r', hr', rfl⟩ := Option.map_eq_some_iff.mp hr
        rw [← hw]
        refine owned_call h hw hpointer hi hkind ?_ hr'
        have hguard' := hguard
        simp only [ReleasesAll, hw] at hguard'
        exact hguard' session (by simp [hpointer, hi])
    | clear kind =>
      simp only [Option.some.injEq] at hr
      subst hr
      exact owned_clear h hw

theorem owned_step {label : ConnLabel} {r : ConnWorld × List ConnEvent} (h : Owned w)
    (hguard : ReleasesAll w label) (hr : connStep w label = some r) : Owned r.1 := by
  cases label with
  | request request =>
    simp only [connStep, Option.ite_none_right_eq_some, Bool.and_eq_true, Bool.not_eq_true',
      List.isEmpty_iff, Option.some.injEq] at hr
    obtain ⟨⟨hidle, hbefore⟩, rfl⟩ := hr
    obtain ⟨hphase, hclears⟩ := connRequestActions_owned request
    refine owned_todo h (Or.inl hidle) hbefore (hphase.imp_right Or.inl) ?_
    intro before kind after hclear
    exact absurd (by rw [hclear]; simp) (hclears kind)
  | destroy =>
    simp only [connStep, Option.ite_none_right_eq_some, Bool.and_eq_true, Bool.not_eq_true',
      List.isEmpty_iff, Option.some.injEq] at hr
    obtain ⟨⟨hidle, hbefore⟩, rfl⟩ := hr
    have hrelease : ∀ action ∈ connDestroyActions, ∃ kind, action = .call kind .destroy := by
      simp [connDestroyActions]
    have htodo : Owned { w with todo := connDestroyActions } := by
      refine owned_todo h (Or.inl hidle) hbefore (Or.inr (Or.inr fun action haction => ?_)) ?_
      · obtain ⟨kind, rfl⟩ := hrelease action haction
        rfl
      · intro before kind after hclear
        obtain ⟨other, hother⟩ := hrelease (.clear kind) (by rw [hclear]; simp)
        cases hother
    exact ⟨htodo.phase, htodo.pointer, htodo.covered, htodo.gone, htodo.stopping, htodo.clears,
      fun _ => ⟨hrelease, fun kind => Or.inl (by cases kind <;> simp [connDestroyActions])⟩⟩
  | control => exact owned_control h hguard hr
  | thread i label =>
    simp only [connStep, Option.ite_none_right_eq_some] at hr
    obtain ⟨hthread, hr⟩ := hr
    obtain ⟨session, s', hi, hs', -⟩ := stepSession_eq_some hr
    refine owned_stepSession h hi hr ?_ fun s' hs' hplain => ?_
    · cases label <;> trivial
    · refine h.stopping session (List.mem_of_getElem? hi) ?_
      rwa [PlainStop, plainStop_thread hthread hs'] at hplain
  | consult i =>
    simp only [connStep] at hr
    split at hr
    · cases hr
      exact h
    · cases hr

/-! ## How often a session is freed -/

/-- The event reports that session `i` was freed. -/
def ConnEvent.frees (i : ℕ) : ConnEvent → Bool
  | .service j result => j == i && result.isFree
  | .clockUse .. => false

/-- The sessions before and after a step: nothing, one more, or one that moves. -/
inductive SessionsStep (w : ConnWorld) (r : ConnWorld × List ConnEvent) : Prop
  | same (sessions : r.1.sessions = w.sessions) (silent : ∀ e ∈ r.2, ∀ i, e.frees i = false)
  | create (session : Session) (sessions : r.1.sessions = w.sessions ++ [session])
      (fresh : session.state.control ≠ .freed) (silent : r.2 = [])
  | move (i : ℕ) (session : Session) (label : ServiceLabel)
      (s' : ServiceState × List ServiceReturn) (found : w.sessions[i]? = some session)
      (step : serviceStep session.kind.code session.state label = some s')
      (sessions : r.1.sessions = w.sessions.set i { session with state := s'.1 })
      (events : r.2 = s'.2.map (.service i))

theorem sessionsStep_stepSession {i : ℕ} {label : ServiceLabel} {r : ConnWorld × List ConnEvent}
    (hr : stepSession w i label = some r) (todo : List ConnAction) :
    SessionsStep w ({ r.1 with todo := todo }, r.2) := by
  unfold stepSession at hr
  cases hi : w.sessions[i]? with
  | none => simp [hi] at hr
  | some session =>
    rw [hi] at hr
    obtain ⟨s', hs', rfl⟩ := Option.map_eq_some_iff.mp hr
    exact .move i session label s' hi hs' rfl rfl

theorem sessionsStep_control {r : ConnWorld × List ConnEvent} (hr : connControl w = some r) :
    SessionsStep w r := by
  cases hw : w.todo with
  | nil => simp [connControl, hw] at hr
  | cons action todo =>
    unfold connControl at hr
    rw [hw] at hr
    cases action with
    | init kind created =>
      cases created <;> cases hr
      · exact .same rfl (by simp)
      · exact .create _ rfl (by simp [serviceInit]) rfl
    | start kind sockets =>
      cases hpointer : w.pointer kind with
      | none =>
        simp only [hpointer, Option.ite_none_left_eq_some, Option.some.injEq] at hr
        obtain ⟨-, rfl⟩ := hr
        exact .same rfl (by simp)
      | some i =>
        simp only [hpointer] at hr
        obtain ⟨r', hr', rfl⟩ := Option.map_eq_some_iff.mp hr
        exact sessionsStep_stepSession hr' todo
    | teardown | clear =>
      cases hr
      exact .same rfl (by simp)
    | call kind call =>
      cases hpointer : w.pointer kind with
      | none =>
        simp only [hpointer, Option.some.injEq] at hr
        subst hr
        exact .same rfl (by simp)
      | some i =>
        cases hi : w.sessions[i]? with
        | none => simp [hpointer, hi] at hr
        | some session =>
          simp only [hpointer, hi] at hr
          obtain ⟨r', hr', rfl⟩ := Option.map_eq_some_iff.mp hr
          exact sessionsStep_stepSession hr' _

theorem sessionsStep_step {label : ConnLabel} {r : ConnWorld × List ConnEvent}
    (hr : connStep w label = some r) : SessionsStep w r := by
  cases label with
  | request | destroy =>
    simp only [connStep, Option.ite_none_right_eq_some, Option.some.injEq] at hr
    obtain ⟨-, rfl⟩ := hr
    exact .same rfl (by simp)
  | control => exact sessionsStep_control hr
  | thread i label =>
    simp only [connStep, Option.ite_none_right_eq_some] at hr
    obtain ⟨session, s', -, -, hr1⟩ := stepSession_eq_some hr.2
    have hstep := sessionsStep_stepSession hr.2 w.todo
    rw [hr1] at hstep
    obtain ⟨w'', events⟩ := r
    dsimp only at hr1 hstep
    rw [hr1]
    exact hstep
  | consult i =>
    simp only [connStep] at hr
    split at hr
    · cases hr
      exact .same rfl (by simp [ConnEvent.frees])
    · cases hr

/-- Every session that is freed has been freed once, every other one never. -/
def FreedOnce (emitted : List ConnEvent) (w : ConnWorld) : Prop :=
  ∀ i, emitted.countP (ConnEvent.frees i) =
    if (w.sessions[i]?.map fun session => session.state.control) = some .freed then 1 else 0

theorem countP_frees_map (i j : ℕ) (results : List ServiceReturn) :
    (results.map (ConnEvent.service j)).countP (ConnEvent.frees i) =
      if j = i then results.countP ServiceReturn.isFree else 0 := by
  rw [List.countP_map]
  by_cases hij : j = i
  · rw [if_pos hij]
    congr 1
    funext result
    simp [ConnEvent.frees, hij]
  · rw [if_neg hij, List.countP_eq_zero]
    intro result _
    simp [ConnEvent.frees, hij]

theorem freedOnce_step {emitted : List ConnEvent} {r : ConnWorld × List ConnEvent}
    (h : FreedOnce emitted w) (hstep : SessionsStep w r) : FreedOnce (emitted ++ r.2) r.1 := by
  intro i
  rw [List.countP_append, h i]
  cases hstep with
  | same hsessions hsilent =>
    have hzero : r.2.countP (ConnEvent.frees i) = 0 :=
      List.countP_eq_zero.mpr fun e he => by simp [hsilent e he i]
    rw [hzero, hsessions, Nat.add_zero]
  | create session hsessions hfresh hsilent =>
    rw [hsilent, hsessions, List.countP_nil, Nat.add_zero]
    rcases Nat.lt_trichotomy i w.sessions.length with hlt | rfl | hgt
    · rw [List.getElem?_append_left hlt]
    · rw [List.getElem?_concat_length, List.getElem?_eq_none (Nat.le_refl _)]
      simp [hfresh]
    · have hbeyond : (w.sessions ++ [session]).length ≤ i := by
        rw [List.length_append, List.length_singleton]
        omega
      rw [List.getElem?_eq_none hbeyond, List.getElem?_eq_none (Nat.le_of_lt hgt)]
  | move j session label s' hj hs' hsessions hevents =>
    rw [hevents, hsessions, countP_frees_map]
    by_cases hij : j = i
    · subst hij
      obtain ⟨hlt, -⟩ := List.getElem?_eq_some_iff.mp hj
      obtain ⟨hstays, hfrees⟩ := serviceStep_isFree hs'
      rw [if_pos rfl, hj, List.getElem?_set_self hlt]
      simp only [Option.map_some, Option.some.injEq]
      by_cases hfreed : session.state.control = .freed
      · obtain ⟨hstill, hzero⟩ := hstays hfreed
        rw [if_pos hfreed, if_pos hstill, hzero]
      · rw [if_neg hfreed, hfrees hfreed, Nat.zero_add]
    · rw [if_neg hij, List.getElem?_set_ne hij, Nat.add_zero]

/-! ## Every run -/

/-- Every session ever created has been destroyed, once, and its thread is gone. -/
def AllReleased (emitted : List ConnEvent) (w : ConnWorld) : Prop :=
  ∀ (i : ℕ) (session : Session), w.sessions[i]? = some session →
    emitted.countP (ConnEvent.frees i) = 1 ∧ ¬ Alive session.state.thread

/-- When `conn_destroy` has returned, in a run in which no session was created over another one and
no destroy found a thread about to return by itself, every session has been destroyed, once, and no
thread is left. -/
theorem connection_released (run : List ConnLabel) (w : ConnWorld)
    (hrun : Foundations.Transition.run connStep connInit run = some w)
    (hdestroyed : w.destroying = true ∧ w.todo = [])
    (h : Along connStep ReleasesAll connInit run) :
    AllReleased (events connStep connInit run) w := by
  have hend := invariant_history_along
    (I := fun _ emitted w => Owned w ∧ FreedOnce emitted w) (fun _ _ _ _ _ h hg hr =>
      ⟨owned_step h.1 hg hr, freedOnce_step h.2 (sessionsStep_step hr)⟩) [] []
    ⟨owned_init, fun i => rfl⟩ h hrun
  obtain ⟨howned, honce⟩ := hend
  intro i session hi
  have hfreed : session.state.control = .freed := by
    by_contra hlive
    have hpointer := howned.covered i session hi hlive
    have hdone := (howned.destroys hdestroyed.1).2 session.kind
    rw [hdestroyed.2] at hdone
    exact hlive ((destroyed_eq_true hi).mp (hdone.resolve_left List.not_mem_nil i hpointer))
  refine ⟨?_, (howned.gone session (List.mem_of_getElem? hi)).freeing (Or.inr hfreed)⟩
  have hcount := honce i
  rw [hi] at hcount
  simpa [hfreed] using hcount

/-- A mirror session that is torn down before the connection is closed. -/
def tornDown : List ConnLabel :=
  [.request (.setup (some ⟨true, .opened, true, true⟩) [.mirroring .opened]), .control, .control,
    .control, .control, .control, .request .teardown, .control, .control, .control, .control,
    .control, .thread 2 .check, .thread 2 .clear, .thread 2 .exit, .control, .control, .control,
    .control, .destroy, .control, .thread 0 .check, .thread 0 .clear, .thread 0 .exit, .control,
    .control, .control, .control, .control]

theorem connection_released_teardown :
    ∃ w, run connStep connInit tornDown = some w ∧ w.sessions.length = 3 ∧
      AllReleased (events connStep connInit tornDown) w :=
  ⟨_, rfl, rfl, connection_released tornDown _ rfl (by decide +kernel) (by decide +kernel)⟩

/-- A second SETUP with keys on one connection: the first timing session keeps running. -/
def setUpTwice : List ConnLabel :=
  [.request (.setup (some ⟨true, .opened, true, true⟩) []), .control, .control, .control, .control,
    .request (.setup (some ⟨true, .opened, true, true⟩) []), .control, .control, .control, .control,
    .destroy, .control, .thread 3 .check, .thread 3 .clear, .thread 3 .exit, .control, .control,
    .control, .control, .control, .control, .control]

theorem connection_not_released :
    ¬ ∀ (run : List ConnLabel) (w : ConnWorld),
      Foundations.Transition.run connStep connInit run = some w →
      w.destroying = true ∧ w.todo = [] → AllReleased (events connStep connInit run) w := by
  intro h
  obtain ⟨-, hthread⟩ := h setUpTwice _ rfl (by decide +kernel) 0 _ rfl
  exact hthread (Or.inl rfl)

end WinAirPlay
