import Mathlib.Data.List.Basic
import Mathlib.Logic.Basic

/-! # Runs of a labelled transition system

A system is a partial step function `step : S → L → Option (S × List E)`: in state `s` the
label `l` is either impossible, or leads to one next state and emits a list of events. Several
processes that interleave are one such system whose labels say which process moves, so that
"every interleaving" is "every list of labels".

* `run` executes a list of labels, `events` is what the run emits.
* `Along G` says that every step of a run is taken under the guard `G`, `Throughout P` that every
  state on the way has `P`.
* `invariant` and `invariant_along` are the induction rules; `emits_along` is the version that
  concludes a property of every emitted event; `invariant_history` and `invariant_history_along` are
  for a property that also looks at what happened before.
* `along_of_emits` reads a guard off the events of a run.
* `run_view` is for two runs that differ in what a projection forgets, `run_simulates` for a run of
  one system that follows a run of another.
* `EachAfter P` says that every event has `P` with respect to the events before it.
-/

namespace Foundations.Transition
set_option autoImplicit false

variable {S L E : Type*}

/-- Execute a list of labels; `none` when one of them is impossible where it is taken. -/
def run (step : S → L → Option (S × List E)) : S → List L → Option S
  | s, [] => some s
  | s, l :: ls => (step s l).bind fun r => run step r.1 ls

/-- The events a run emits, in order; the run stops at the first impossible label. -/
def events (step : S → L → Option (S × List E)) : S → List L → List E
  | _, [] => []
  | s, l :: ls =>
      match step s l with
      | none => []
      | some r => r.2 ++ events step r.1 ls

/-- Every step of the run from `s` is taken in a state and with a label that meet `G`. -/
def Along (step : S → L → Option (S × List E)) (G : S → L → Prop) : S → List L → Prop
  | _, [] => True
  | s, l :: ls => ∀ r, step s l = some r → G s l ∧ Along step G r.1 ls

/-- Every state that the run from `s` passes through, the first and the last included, has `P`. -/
def Throughout (step : S → L → Option (S × List E)) (P : S → Prop) : S → List L → Prop
  | s, [] => P s
  | s, l :: ls => P s ∧ ∀ r, step s l = some r → Throughout step P r.1 ls

variable {step : S → L → Option (S × List E)}

@[simp] theorem run_nil (s : S) : run step s [] = some s := rfl

theorem run_cons_eq_some {s s' : S} {l : L} {ls : List L} :
    run step s (l :: ls) = some s' ↔ ∃ r, step s l = some r ∧ run step r.1 ls = some s' := by
  simp [run, Option.bind_eq_some_iff]

theorem run_append (s : S) (ls ms : List L) :
    run step s (ls ++ ms) = (run step s ls).bind fun s' => run step s' ms := by
  induction ls generalizing s with
  | nil => rfl
  | cons l ls ih =>
    simp only [List.cons_append, run]
    cases step s l with
    | none => rfl
    | some r => exact ih r.1

theorem along_cons {G : S → L → Prop} {s : S} {l : L} {ls : List L} {r : S × List E}
    (hr : step s l = some r) (hG : G s l) (h : Along step G r.1 ls) : Along step G s (l :: ls) := by
  intro r' hr'
  obtain rfl : r = r' := Option.some.inj (hr.symm.trans hr')
  exact ⟨hG, h⟩

theorem Throughout.first {P : S → Prop} {s : S} {ls : List L} (h : Throughout step P s ls) :
    P s := by
  cases ls with
  | nil => exact h
  | cons => exact h.1

theorem Throughout.last {P : S → Prop} {ls : List L} {s s' : S} (h : Throughout step P s ls)
    (hrun : run step s ls = some s') : P s' := by
  induction ls generalizing s with
  | nil =>
    obtain rfl : s = s' := by simpa using hrun
    exact h
  | cons l ls ih =>
    obtain ⟨r, hr, hrest⟩ := run_cons_eq_some.mp hrun
    exact ih (h.2 r hr) hrest

theorem Throughout.imp {P Q : S → Prop} (himp : ∀ s, P s → Q s) {s : S} {ls : List L}
    (h : Throughout step P s ls) : Throughout step Q s ls := by
  induction ls generalizing s with
  | nil => exact himp s h
  | cons l ls ih => exact ⟨himp s h.1, fun r hr => ih (h.2 r hr)⟩

/-- Where the states before and after a step have what the guard asks for, the run meets the guard.
`I` is what all steps keep. -/
theorem Throughout.along {I P : S → Prop} {G : S → L → Prop}
    (hinv : ∀ s l r, I s → step s l = some r → I r.1)
    (hguard : ∀ s l r, I s → P s → step s l = some r → P r.1 → G s l)
    {ls : List L} {s : S} (hs : I s) (h : Throughout step P s ls) : Along step G s ls := by
  induction ls generalizing s with
  | nil => trivial
  | cons l ls ih =>
    intro r hr
    have hrest := h.2 r hr
    exact ⟨hguard s l r hs h.1 hr hrest.first, ih (hinv s l r hs hr) hrest⟩

/-- What guarded steps keep holds in every state of a guarded run. -/
theorem throughout_of_along {I : S → Prop} {G : S → L → Prop}
    (hstep : ∀ s l r, I s → G s l → step s l = some r → I r.1) {ls : List L} {s : S} (hs : I s)
    (h : Along step G s ls) : Throughout step I s ls := by
  induction ls generalizing s with
  | nil => exact hs
  | cons l ls ih =>
    refine ⟨hs, fun r hr => ?_⟩
    obtain ⟨hg, hrest⟩ := h r hr
    exact ih (hstep s l r hs hg hr) hrest

/-- Two systems whose steps agree in the states of a run have the same run. -/
theorem Throughout.run_eq {step' : S → L → Option (S × List E)} {P : S → Prop}
    (hsame : ∀ s l, P s → step' s l = step s l) {ls : List L} {s : S}
    (h : Throughout step P s ls) : run step' s ls = run step s ls := by
  induction ls generalizing s with
  | nil => rfl
  | cons l ls ih =>
    rw [run, run, hsame s l h.1]
    cases hr : step s l with
    | none => rfl
    | some r => exact ih (h.2 r hr)

/-- A guard may be traded for another one that it implies for the labels of the run. -/
theorem Along.imp {G : S → L → Prop} (G' : S → L → Prop) {s : S} {ls : List L}
    (h : Along step G s ls)
    (himp : ∀ l ∈ ls, ∀ s, G s l → G' s l) : Along step G' s ls := by
  induction ls generalizing s with
  | nil => trivial
  | cons l ls ih =>
    intro r hr
    obtain ⟨hG, hrest⟩ := h r hr
    exact ⟨himp l (List.mem_cons_self ..) s hG,
      ih hrest fun l' hl' => himp l' (List.mem_cons_of_mem l hl')⟩

/-- Two guards that agree in the states of an invariant, for the labels of the run. -/
theorem along_congr_mem {I : S → Prop} {G G' : S → L → Prop}
    (hinv : ∀ s l r, I s → step s l = some r → I r.1) {ls : List L}
    (hiff : ∀ s, ∀ l ∈ ls, ∀ r, I s → step s l = some r → (G s l ↔ G' s l))
    {s : S} (hs : I s) : Along step G s ls ↔ Along step G' s ls := by
  induction ls generalizing s with
  | nil => exact Iff.rfl
  | cons l ls ih =>
    have hrest : ∀ {s : S}, I s → (Along step G s ls ↔ Along step G' s ls) :=
      ih fun s l' hl' => hiff s l' (List.mem_cons_of_mem l hl')
    exact forall_congr' fun r => imp_congr_right fun hr =>
      and_congr (hiff s l List.mem_cons_self r hs hr) (hrest (hinv s l r hs hr))

theorem along_congr {I : S → Prop} {G G' : S → L → Prop}
    (hinv : ∀ s l r, I s → step s l = some r → I r.1)
    (hiff : ∀ s l r, I s → step s l = some r → (G s l ↔ G' s l))
    {ls : List L} {s : S} (hs : I s) : Along step G s ls ↔ Along step G' s ls :=
  along_congr_mem hinv (fun s l _ => hiff s l) hs

/-- Two runs that look the same step by step look the same as a whole. `view` and `look` are what one
sees of a state and of a label. -/
theorem run_view {V W : Type*} {view : S → V} {look : L → W} {G : S → L → Prop}
    (hstep : ∀ s s' l l', view s = view s' → look l = look l' →
      ((step s l).isSome = true → G s l) →
      (step s l).map (Prod.map view id) = (step s' l').map (Prod.map view id)) :
    ∀ {ls ls' : List L} {s s' : S}, view s = view s' → ls.map look = ls'.map look →
      Along step G s ls →
      (run step s ls).map view = (run step s' ls').map view ∧ events step s ls = events step s' ls' := by
  intro ls
  induction ls with
  | nil =>
    intro ls' s s' hview hlook _
    obtain rfl : ls' = [] := List.map_eq_nil_iff.mp hlook.symm
    exact ⟨congrArg some hview, rfl⟩
  | cons l ls ih =>
    intro ls' s s' hview hlook hG
    obtain ⟨l', ls', rfl, hl, hls⟩ := List.map_eq_cons_iff.mp hlook.symm
    have hmap := hstep s s' l l' hview hl.symm fun hsome =>
      (hG _ (Option.some_get hsome).symm).1
    cases hr : step s l with
    | none =>
      have hr' : step s' l' = none := by simpa [hr] using hmap.symm
      exact ⟨by simp [run, hr, hr'], by simp [events, hr, hr']⟩
    | some r =>
      obtain ⟨r', hr', hrr⟩ : ∃ r', step s' l' = some r' ∧ Prod.map view id r' = Prod.map view id r := by
        simpa [hr] using hmap.symm
      obtain ⟨hnext, hevents⟩ := Prod.ext_iff.mp hrr
      obtain ⟨hrun, hrest⟩ := ih hnext.symm hls.symm (hG r hr).2
      have hevents : r'.2 = r.2 := hevents
      exact ⟨by simpa [run, hr, hr'] using hrun, by simp [events, hr, hr', hevents, hrest]⟩

theorem along_label_iff {G : L → Prop} {s s' : S} {ls : List L} (hrun : run step s ls = some s') :
    Along step (fun _ l => G l) s ls ↔ ∀ l ∈ ls, G l := by
  induction ls generalizing s with
  | nil => exact ⟨fun _ l hl => absurd hl List.not_mem_nil, fun _ => trivial⟩
  | cons l ls ih =>
    obtain ⟨r, hr, hrest⟩ := run_cons_eq_some.mp hrun
    rw [List.forall_mem_cons, ← ih hrest]
    refine ⟨fun h => h r hr, fun h r' hr' => ?_⟩
    obtain rfl : r = r' := Option.some.inj (hr.symm.trans hr')
    exact h

instance decidableAlong {G : S → L → Prop} [∀ s l, Decidable (G s l)] :
    ∀ (s : S) (ls : List L), Decidable (Along step G s ls)
  | _, [] => .isTrue trivial
  | s, l :: ls =>
    match h : step s l with
    | none => .isTrue fun r hr => by simp [h] at hr
    | some r =>
      have : Decidable (Along step G r.1 ls) := decidableAlong r.1 ls
      decidable_of_iff (G s l ∧ Along step G r.1 ls) (by simp [Along, h])

/-- What holds at the start and is kept by every step taken under `G` holds at the end of every
run whose steps meet `G`. -/
theorem invariant_along {I : S → Prop} {G : S → L → Prop}
    (hstep : ∀ s l r, I s → G s l → step s l = some r → I r.1) :
    ∀ {ls : List L} {s s' : S}, I s → Along step G s ls → run step s ls = some s' → I s' := by
  intro ls
  induction ls with
  | nil =>
    intro s s' hs _ hrun
    obtain rfl : s = s' := by simpa using hrun
    exact hs
  | cons l ls ih =>
    intro s s' hs hG hrun
    obtain ⟨r, hr, hrest⟩ := run_cons_eq_some.mp hrun
    obtain ⟨hg, hG'⟩ := hG r hr
    exact ih (hstep s l r hs hg hr) hG' hrest

/-- Under an invariant kept by guarded steps, every event of a guarded run has the property that
one guarded step gives its events. -/
theorem emits_along {I : S → Prop} {G : S → L → Prop} {P : E → Prop}
    (hstep : ∀ s l r, I s → G s l → step s l = some r → I r.1)
    (hemit : ∀ s l r, I s → G s l → step s l = some r → ∀ e ∈ r.2, P e) :
    ∀ {ls : List L} {s : S}, I s → Along step G s ls → ∀ e ∈ events step s ls, P e := by
  intro ls
  induction ls with
  | nil => intro s _ _ e he; simp [events] at he
  | cons l ls ih =>
    intro s hs hG e he
    simp only [events] at he
    cases hr : step s l with
    | none => simp [hr] at he
    | some r =>
      obtain ⟨hg, hG'⟩ := hG r hr
      rw [hr] at he
      rcases List.mem_append.mp he with h | h
      · exact hemit s l r hs hg hr e h
      · exact ih (hstep s l r hs hg hr) hG' e h

/-- The converse of `emits_along`: where the events of a step have the property only if the step is
taken under the guard, a run whose events have it meets the guard throughout. -/
theorem along_of_emits {I : S → Prop} {G : S → L → Prop} {P : E → Prop}
    (hstep : ∀ s l r, I s → G s l → step s l = some r → I r.1)
    (hguard : ∀ s l r, I s → step s l = some r → (∀ e ∈ r.2, P e) → G s l) :
    ∀ {ls : List L} {s : S}, I s → (∀ e ∈ events step s ls, P e) → Along step G s ls := by
  intro ls
  induction ls with
  | nil => intro s _ _; trivial
  | cons l ls ih =>
    intro s hs hall r hr
    simp only [events, hr, List.mem_append] at hall
    have hg := hguard s l r hs hr fun e he => hall e (Or.inl he)
    exact ⟨hg, ih (hstep s l r hs hg hr) fun e he => hall e (Or.inr he)⟩

/-- Where a step keeps `P` exactly if it is taken under `G`, a run has `P` throughout exactly if it
meets `G`. `I` is what all steps keep. -/
theorem throughout_iff_along_of {I P : S → Prop} {G : S → L → Prop}
    (hinv : ∀ s l r, I s → step s l = some r → I r.1)
    (hstep : ∀ s l r, I s → P s → step s l = some r → (P r.1 ↔ G s l))
    {ls : List L} {s : S} (hI : I s) (hs : P s) :
    Throughout step P s ls ↔ Along step G s ls := by
  constructor
  · exact fun h => h.along hinv (fun s l r hI hs hr => (hstep s l r hI hs hr).mp) hI
  · intro hG
    have hboth : Throughout step (fun s => I s ∧ P s) s ls :=
      throughout_of_along (fun s l r hs hg hr =>
        ⟨hinv s l r hs.1 hr, (hstep s l r hs.1 hs.2 hr).mpr hg⟩) ⟨hI, hs⟩ hG
    exact hboth.imp fun _ => And.right

theorem throughout_iff_along {P : S → Prop} {G : S → L → Prop}
    (hstep : ∀ s l r, P s → step s l = some r → (P r.1 ↔ G s l)) {ls : List L} {s : S} (hs : P s) :
    Throughout step P s ls ↔ Along step G s ls :=
  throughout_iff_along_of (I := fun _ => True) (fun _ _ _ _ _ => trivial)
    (fun s l r _ => hstep s l r) trivial hs

/-- A property of the labels taken, the events emitted and the state reached: each step taken under
`G` extends the two histories. -/
theorem invariant_history_along {I : List L → List E → S → Prop} {G : S → L → Prop}
    (hstep : ∀ past emitted s l r, I past emitted s → G s l → step s l = some r →
      I (past ++ [l]) (emitted ++ r.2) r.1) :
    ∀ {ls : List L} (past : List L) (emitted : List E) {s s' : S}, I past emitted s →
      Along step G s ls → run step s ls = some s' →
      I (past ++ ls) (emitted ++ events step s ls) s' := by
  intro ls
  induction ls with
  | nil =>
    intro past emitted s s' hs _ hrun
    obtain rfl : s = s' := by simpa using hrun
    simpa [events] using hs
  | cons l ls ih =>
    intro past emitted s s' hs hG hrun
    obtain ⟨r, hr, hrest⟩ := run_cons_eq_some.mp hrun
    obtain ⟨hg, hG'⟩ := hG r hr
    have := ih _ _ (hstep past emitted s l r hs hg hr) hG' hrest
    simpa [events, hr] using this

theorem along_true (s : S) (ls : List L) : Along step (fun _ _ => True) s ls := by
  induction ls generalizing s with
  | nil => trivial
  | cons l ls ih => exact fun r _ => ⟨trivial, ih r.1⟩

theorem invariant_history {I : List L → List E → S → Prop}
    (hstep : ∀ past emitted s l r, I past emitted s → step s l = some r →
      I (past ++ [l]) (emitted ++ r.2) r.1)
    {ls : List L} {past : List L} {emitted : List E} {s s' : S} (hs : I past emitted s)
    (hrun : run step s ls = some s') : I (past ++ ls) (emitted ++ events step s ls) s' :=
  invariant_history_along (G := fun _ _ => True)
    (fun past emitted s l r hs _ => hstep past emitted s l r hs) past emitted hs (along_true s ls)
    hrun

theorem invariant {I : S → Prop} (hstep : ∀ s l r, I s → step s l = some r → I r.1)
    {ls : List L} {s s' : S} (hs : I s) (hrun : run step s ls = some s') : I s' :=
  invariant_along (G := fun _ _ => True) (fun s l r hs _ => hstep s l r hs) hs
    (along_true s ls) hrun

/-! ## Two systems side by side -/

/-- A system that takes the steps of another one, as far as this one allows them, and shows in its
events what the other one emits. -/
theorem run_simulates {S' M F : Type*} {step : S → L → Option (S × List E)}
    {step' : S' → M → Option (S' × List F)} {look : M → L} {view : E → Option F} {R : S → S' → Prop}
    (hstep : ∀ s t m r r', R s t → step s (look m) = some r → step' t m = some r' →
      R r.1 r'.1 ∧ r.2.filterMap view = r'.2) :
    ∀ {ms : List M} {s s' : S} {t t' : S'}, R s t → run step s (ms.map look) = some s' →
      run step' t ms = some t' →
      R s' t' ∧ (events step s (ms.map look)).filterMap view = events step' t ms := by
  intro ms
  induction ms with
  | nil =>
    intro s s' t t' hR hrun hrun'
    obtain rfl : s = s' := Option.some.inj hrun
    obtain rfl : t = t' := Option.some.inj hrun'
    exact ⟨hR, rfl⟩
  | cons m ms ih =>
    intro s s' t t' hR hrun hrun'
    obtain ⟨r, hr, hrest⟩ := run_cons_eq_some.mp hrun
    obtain ⟨r', hr', hrest'⟩ := run_cons_eq_some.mp hrun'
    obtain ⟨hnext, hview⟩ := hstep s t m r r' hR hr hr'
    obtain ⟨hend, hevents⟩ := ih hnext hrest hrest'
    refine ⟨hend, ?_⟩
    rw [List.map_cons, events, hr, events, hr']
    dsimp only
    rw [List.filterMap_append, hview, hevents]

/-! ## What came before an event -/

/-- Every event of the history has the property with respect to the events before it. -/
def EachAfter (P : List E → E → Prop) (es : List E) : Prop :=
  ∀ before e after, es = before ++ e :: after → P before e

theorem eachAfter_nil (P : List E → E → Prop) : EachAfter P [] := by
  intro before e after h
  simp at h

theorem eachAfter_snoc {P : List E → E → Prop} {es : List E} {e : E} :
    EachAfter P (es ++ [e]) ↔ EachAfter P es ∧ P es e := by
  constructor
  · intro h
    exact ⟨fun before x after hes => h before x (after ++ [e]) (by rw [hes]; simp), h es e [] rfl⟩
  · rintro ⟨h, he⟩ before x after hes
    obtain rfl | ⟨after, y, rfl⟩ := List.eq_nil_or_concat after
    · obtain ⟨rfl, hxe⟩ := List.append_inj' hes rfl
      rw [List.singleton_inj] at hxe
      exact hxe ▸ he
    · rw [List.concat_eq_append, ← List.cons_append, ← List.append_assoc] at hes
      obtain ⟨rfl, -⟩ := List.append_inj' hes rfl
      exact h before x after rfl

end Foundations.Transition
