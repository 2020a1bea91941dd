import WinAirPlay.Foundations.Transition
import WinAirPlay.Service.Thread

/-! # A stopped service is stopped

A stop and a destroy join the thread only while `running` is set. A thread that ended by itself has
cleared it, so its service is never joined again: the stop returns at once, the destroy frees the
object although the thread may still be returning, and the next start finds `joined` at 0. As long
as every stop and every destroy comes before its thread clears `running`, all three are as they
should be, and only then.
-/

namespace WinAirPlay
open Foundations.Transition
set_option autoImplicit false

/-! ## What the calls promise -/

def Honest : ServiceReturn → Prop
  | .start s sockets result => s.stopped → sockets = .opened → result = .started
  | .stop s => s.thread ≠ .absent → s.thread = .joined ∧ s.joined
  | .free s => ¬ Alive s.thread

/-- A stop or a destroy does not find a thread that is still to be joined, but no longer runs. -/
def StopsRunning (s : ServiceState) : ServiceLabel → Prop
  | .stop | .destroy => s.running ∨ s.joined
  | _ => True

/-! ## The invariant -/

/-- The thread is gone, and with it the sockets. -/
structure Gone (s : ServiceState) : Prop where
  running : s.running = false
  joined : s.joined = true
  thread : s.thread = .absent ∨ s.thread = .joined
  sockets : s.sockets = false

/-- The thread is there or has returned, and is not joined. -/
structure Present (s : ServiceState) : Prop where
  joined : s.joined = false
  thread : Alive s.thread ∨ s.thread = .ended
  stopped : s.stopped = false
  running : s.running ↔ s.thread = .top ∨ s.thread = .body ∨ s.thread = .leaving

/-- A stop waits for the thread. -/
structure Stopping (code : ServiceCode) (s : ServiceState) : Prop where
  running : s.running = false
  joined : s.joined = false
  thread : Alive s.thread ∨ s.thread = .ended
  beforeJoin : code.closed = .beforeJoin → s.sockets = false
  byThread : code.closed = .byThread → s.thread = .returning ∨ s.thread = .ended → s.sockets = false

/-- The thread is joined and `joined` not yet set. -/
structure Reaped (s : ServiceState) : Prop where
  running : s.running = false
  thread : s.thread = .joined
  sockets : s.sockets = false

def Orderly (code : ServiceCode) (s : ServiceState) : Prop :=
  match s.control with
  | .idle => Gone s ∨ Present s
  | .joining _ => Stopping code s
  | .joined _ => Reaped s
  | .freeing | .freed => Gone s

theorem orderly_init (code : ServiceCode) : Orderly code serviceInit :=
  Or.inl ⟨rfl, rfl, Or.inl rfl, rfl⟩

/-! ## One step -/

variable {code : ServiceCode} {s s' : ServiceState} {r : ServiceState × List ServiceReturn}

theorem Gone.not_alive (h : Gone s) : ¬ Alive s.thread := by
  rcases h.thread with hthread | hthread <;> simp [hthread, Alive]

/-- The service thread moves: it changes nothing but `thread`, `running` and `sockets`, and of these
it only ever clears the last two. -/
theorem orderly_thread (h : Orderly code s) (halive : Alive s.thread)
    (hcontrol : s'.control = s.control) (hjoined : s'.joined = s.joined)
    (hstopped : s'.stopped = s.stopped) (hthread : Alive s'.thread ∨ s'.thread = .ended)
    (hcleared : s.running = false → s'.running = false)
    (hclosed : s.sockets = false → s'.sockets = false)
    (hrunning : Present s →
      (s'.running ↔ s'.thread = .top ∨ s'.thread = .body ∨ s'.thread = .leaving))
    (hbyThread : Stopping code s → code.closed = .byThread →
      s'.thread = .returning ∨ s'.thread = .ended → s'.sockets = false) :
    Orderly code s' := by
  unfold Orderly at h ⊢
  rw [hcontrol]
  cases hc : s.control with
  | idle =>
    rw [hc] at h
    rcases h with hgone | hpresent
    · exact absurd halive hgone.not_alive
    · exact Or.inr ⟨hjoined.trans hpresent.joined, hthread, hstopped.trans hpresent.stopped,
        hrunning hpresent⟩
  | joining destroying =>
    rw [hc] at h
    exact ⟨hcleared h.running, hjoined.trans h.joined, hthread,
      fun hbefore => hclosed (h.beforeJoin hbefore), hbyThread h⟩
  | joined destroying =>
    rw [hc] at h
    simp [h.thread, Alive] at halive
  | freeing | freed =>
    rw [hc] at h
    exact absurd halive h.not_alive

theorem orderly_start {sockets : SocketResult} (h : Orderly code s) (hidle : s.control = .idle) :
    Orderly code (serviceStart s sockets).1 := by
  have hservice : Gone s ∨ Present s := by simpa [Orderly, hidle] using h
  rcases hservice with hgone | hpresent
  · cases sockets with
    | initFailed | listenFailed => simpa [serviceStart, hgone.running, hgone.joined] using h
    | opened =>
      simp only [serviceStart, hgone.running, hgone.joined, Orderly, hidle]
      exact Or.inr ⟨rfl, Or.inl (Or.inl rfl), rfl, by simp⟩
  · simpa [serviceStart, hpresent.joined] using h

/-- Under the guard a stop finds either nothing to do or a running thread. -/
theorem gone_of_stopCheck (h : Orderly code s) (hidle : s.control = .idle)
    (hguard : s.running ∨ s.joined) (hcheck : stopCheck s) : Gone s := by
  have hservice : Gone s ∨ Present s := by simpa [Orderly, hidle] using h
  rcases hservice with hgone | hpresent
  · exact hgone
  · simp [stopCheck, hpresent.joined] at hcheck hguard
    simp [hcheck] at hguard

theorem stopping_serviceJoin (h : Orderly code s) (hidle : s.control = .idle)
    (hcheck : ¬ stopCheck s) (destroying : Bool) :
    Orderly code (serviceJoin code s destroying) := by
  have hservice : Gone s ∨ Present s := by simpa [Orderly, hidle] using h
  rcases hservice with hgone | hpresent
  · simp [stopCheck, hgone.joined] at hcheck
  · have hrunning : s.running = true := by
      simpa [stopCheck, hpresent.joined] using hcheck
    have hloop := hpresent.running.mp hrunning
    refine ⟨rfl, hpresent.joined, hpresent.thread, ?_, ?_⟩
    · intro hbefore
      simp [serviceJoin, hbefore]
    · intro _ hended
      simp only [serviceJoin] at hended
      rcases hended with hended | hended <;> simp [hended] at hloop

theorem reaped_join {destroying : Bool} (h : Orderly code s) (hcontrol : s.control = .joining destroying)
    (hended : s.thread = .ended) :
    Orderly code { s with
      thread := .joined
      sockets := s.sockets && decide (code.closed ≠ .afterJoin)
      control := .joined destroying } := by
  have hstopping : Stopping code s := by simpa [Orderly, hcontrol] using h
  refine ⟨hstopping.running, rfl, ?_⟩
  cases hclosed : code.closed with
  | beforeJoin => simp [hstopping.beforeJoin hclosed]
  | afterJoin => simp
  | byThread => simp [hstopping.byThread hclosed (Or.inr hended)]

theorem orderly_step {l : ServiceLabel} (h : Orderly code s) (hguard : StopsRunning s l)
    (hr : serviceStep code s l = some r) : Orderly code r.1 := by
  cases serviceMove_of_step hr with
  | check htop =>
    refine orderly_thread h (Or.inl htop) rfl rfl rfl ?_ id id ?_ ?_
    · cases s.running <;> simp [Alive]
    · intro hpresent
      simp [hpresent.running.mpr (Or.inl htop)]
    · intro hstopping
      simp [hstopping.running]
  | iterate hbody =>
    refine orderly_thread h (Or.inr (Or.inl hbody)) rfl rfl rfl (Or.inl (Or.inl rfl)) id id ?_ ?_
    · intro hpresent
      simp [hpresent.running.mpr (Or.inr (Or.inl hbody))]
    · simp
  | fail error hbody =>
    refine orderly_thread h (Or.inr (Or.inl hbody)) rfl rfl rfl (by simp [Alive]) id id ?_ ?_
    · intro hpresent
      simp [hpresent.running.mpr (Or.inr (Or.inl hbody))]
    · simp
  | clear hleaving =>
    refine orderly_thread h (by simp [Alive, hleaving]) rfl rfl rfl (by simp [Alive])
      (fun _ => rfl) ?_ ?_ ?_
    · intro hclosed
      simp [hclosed]
    · simp
    · intro _ hbyThread _
      simp [hbyThread]
  | exit hreturning =>
    refine orderly_thread h (by simp [Alive, hreturning]) rfl rfl rfl (Or.inr rfl) id id ?_ ?_
    · intro hpresent
      have := hpresent.running
      simpa [hreturning] using this
    · intro hstopping hbyThread _
      exact hstopping.byThread hbyThread (Or.inl hreturning)
  | start sockets hidle => exact orderly_start h hidle
  | stopEarly hidle hcheck =>
    have hgone := gone_of_stopCheck h hidle hguard hcheck
    simp only [Orderly, hidle]
    exact Or.inl ⟨hgone.running, hgone.joined, hgone.thread, hgone.sockets⟩
  | stop hidle hcheck => exact stopping_serviceJoin h hidle hcheck false
  | destroyEarly hidle hcheck =>
    have hgone := gone_of_stopCheck h hidle hguard hcheck
    exact ⟨hgone.running, hgone.joined, hgone.thread, hgone.sockets⟩
  | destroy hidle hcheck => exact stopping_serviceJoin h hidle hcheck true
  | join destroying hcontrol hended => exact reaped_join h hcontrol hended
  | finish destroying hcontrol =>
    have hreaped : Reaped s := by simpa [Orderly, hcontrol] using h
    cases destroying with
    | false => exact Or.inl ⟨hreaped.running, rfl, Or.inr hreaped.thread, hreaped.sockets⟩
    | true => exact ⟨hreaped.running, rfl, Or.inr hreaped.thread, hreaped.sockets⟩
  | free hfreeing =>
    have hgone : Gone s := by simpa [Orderly, hfreeing] using h
    exact ⟨hgone.running, hgone.joined, hgone.thread, hgone.sockets⟩

/-! ## Every run -/

theorem Gone.honest_stop (h : Gone s) : Honest (.stop s) := fun hpresent =>
  ⟨h.thread.resolve_left hpresent, h.joined⟩

theorem honest_step {l : ServiceLabel} (h : Orderly code s) (hguard : StopsRunning s l)
    (hr : serviceStep code s l = some r) : ∀ e ∈ r.2, Honest e := by
  intro e he
  cases serviceMove_of_step hr with
  | check | iterate | fail | clear | exit | stop | destroy | join => cases he
  | start sockets hidle =>
    rw [List.mem_singleton.mp he]
    intro hstopped hopened
    have hservice : Gone s ∨ Present s := by simpa [Orderly, hidle] using h
    rcases hservice with hgone | hpresent
    · simp [serviceStart, hgone.running, hgone.joined, hopened]
    · simp [hpresent.stopped] at hstopped
  | stopEarly hidle hcheck | destroyEarly hidle hcheck =>
    rw [List.mem_singleton.mp he]
    exact (gone_of_stopCheck h hidle hguard hcheck).honest_stop
  | finish destroying hcontrol =>
    have hreaped : Reaped s := by simpa [Orderly, hcontrol] using h
    rw [List.mem_singleton.mp he]
    exact fun _ => ⟨hreaped.thread, rfl⟩
  | free hfreeing =>
    rw [List.mem_singleton.mp he]
    have hgone : Gone s := by simpa [Orderly, hfreeing] using h
    exact hgone.not_alive

/-- A stop that finds a thread which cleared `running` itself returns without joining it. -/
theorem stopsRunning_of_honest {l : ServiceLabel} (h : Orderly code s)
    (hr : serviceStep code s l = some r) (hhonest : ∀ e ∈ r.2, Honest e) : StopsRunning s l := by
  cases serviceMove_of_step hr with
  | stopEarly hidle | destroyEarly hidle =>
    have hservice : Gone s ∨ Present s := by simpa [Orderly, hidle] using h
    rcases hservice with hgone | hpresent
    · exact Or.inr hgone.joined
    · have hthere : s.thread ≠ .absent := by
        rcases hpresent.thread with halive | hended
        · rintro habsent
          simp [habsent, Alive] at halive
        · simp [hended]
      exact Or.inr (hhonest (.stop s) (List.mem_singleton_self _) hthere).2
  | stop hidle hcheck | destroy hidle hcheck =>
    left
    simp only [stopCheck, Bool.or_eq_true, Bool.not_eq_true', not_or, Bool.not_eq_false] at hcheck
    exact hcheck.1
  | _ => trivial

/-- In every run of a service the calls keep their promises exactly if every stop and every destroy
is made before the thread of the service, if any, has cleared `running` by itself. -/
theorem service_honest_iff (service : Service) (run : List ServiceLabel) :
    (∀ e ∈ events (serviceStep service.code) serviceInit run, Honest e) ↔
      Along (serviceStep service.code) StopsRunning serviceInit run :=
  ⟨along_of_emits (I := Orderly service.code) (fun _ _ _ hs hg hr => orderly_step hs hg hr)
      (fun _ _ _ hs hr hhonest => stopsRunning_of_honest hs hr hhonest) (orderly_init _),
    emits_along (I := Orderly service.code) (fun _ _ _ hs hg hr => orderly_step hs hg hr)
      (fun _ _ _ hs hg hr => honest_step hs hg hr) (orderly_init _)⟩

/-- The thread fails in `select`, clears `running` and is still returning when the stop returns
without a join, the next start finds the service started, and the destroy frees the object. -/
theorem service_not_honest :
    ¬ ∀ (service : Service) (run : List ServiceLabel),
      ∀ e ∈ events (serviceStep service.code) serviceInit run, Honest e := by
  intro h
  let unjoined : ServiceState :=
    { running := false, joined := false, thread := .returning, sockets := true, control := .freeing,
      stopped := true }
  have hfree : Honest (.free unjoined) := h .raopRtp
    [.start .opened, .check, .fail .select, .clear, .stop, .start .opened, .destroy, .free] _
    (by decide)
  exact hfree (Or.inr (Or.inr (Or.inr rfl)))

/-! ## The service that never ends by itself -/

/-- No stop is under way, and the thread is in its loop or there is none. -/
def Undisturbed (s : ServiceState) : Prop :=
  s.control = .idle → s.thread ≠ .leaving ∧ s.thread ≠ .returning ∧ s.thread ≠ .ended

theorem Undisturbed.stopsRunning {l : ServiceLabel} (h : Orderly code s) (hs : Undisturbed s)
    (hr : serviceStep code s l = some r) : StopsRunning s l := by
  cases l with
  | check | iterate | fail | clear | exit | start | join | finish | free => trivial
  | stop | destroy =>
    simp only [serviceStep, Option.ite_none_right_eq_some] at hr
    have hservice : Gone s ∨ Present s := by simpa [Orderly, hr.1] using h
    rcases hservice with hgone | hpresent
    · exact Or.inr hgone.joined
    · left
      obtain ⟨hleaving, hreturning, hended⟩ := hs hr.1
      have hthread := hpresent.thread
      simp only [Alive, hleaving, hreturning, hended, or_false] at hthread
      exact hpresent.running.mpr (hthread.imp_right Or.inl)

theorem undisturbed_step {l : ServiceLabel} (herrors : code.errors = []) (h : Orderly code s)
    (hs : Undisturbed s) (hr : serviceStep code s l = some r) : Undisturbed r.1 := by
  cases serviceMove_of_step hr with
  | check htop =>
    intro hidle
    have hservice : Gone s ∨ Present s := by simpa [Orderly, show s.control = .idle from hidle] using h
    rcases hservice with hgone | hpresent
    · exact absurd (Or.inl htop) hgone.not_alive
    · simp [hpresent.running.mpr (Or.inl htop)]
  | fail error hbody herror => simp [herrors] at herror
  | clear hleaving => exact fun hidle => absurd hleaving (hs hidle).1
  | exit hreturning => exact fun hidle => absurd hreturning (hs hidle).2.1
  | start sockets hidle =>
    intro _
    unfold serviceStart
    split
    · exact hs hidle
    · cases sockets with
      | initFailed | listenFailed => exact hs hidle
      | opened => simp
  | stopEarly hidle | destroyEarly hidle => exact fun _ => hs hidle
  | stop | destroy => simp [Undisturbed, serviceJoin]
  | finish destroying hcontrol =>
    have hreaped : Reaped s := by simpa [Orderly, hcontrol] using h
    simp [Undisturbed, hreaped.thread]
  | iterate | join | free => simp [Undisturbed]

/-- The timing service keeps its promises in every run. -/
theorem raopNtp_honest (run : List ServiceLabel) :
    ∀ e ∈ events (serviceStep raopNtpService) serviceInit run, Honest e := by
  have hguard : Along (serviceStep raopNtpService) StopsRunning serviceInit run :=
    along_of_emits (I := fun s => Orderly raopNtpService s ∧ Undisturbed s) (P := fun _ => True)
      (fun _ _ _ hs hg hr => ⟨orderly_step hs.1 hg hr, undisturbed_step rfl hs.1 hs.2 hr⟩)
      (fun _ _ _ hs hr _ => hs.2.stopsRunning hs.1 hr)
      ⟨orderly_init _, by simp [Undisturbed, serviceInit]⟩ (fun _ _ => trivial)
  exact emits_along (I := Orderly raopNtpService) (fun _ _ _ hs hg hr => orderly_step hs hg hr)
    (fun _ _ _ hs hg hr => honest_step hs hg hr) (orderly_init _) hguard

end WinAirPlay
