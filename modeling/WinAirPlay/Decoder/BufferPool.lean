import Mathlib.Data.List.Nodup
import WinAirPlay.Foundations.RefCount
import WinAirPlay.Foundations.Transition

/-! # The frame buffers of the decoder: `i420_buffer_pool.cc`

The pool keeps a reference to every buffer that it has made and gives out one whose count says that
there is no other. The application takes and drops references as it likes. The result is that a
buffer which is given out is nobody else's, that no buffer is used after it was deleted, and that
none is lost.
-/

namespace WinAirPlay
open Foundations.RefCount Foundations.Transition
set_option autoImplicit false

structure Geometry where
  width : ℤ
  height : ℤ
  strideY : ℤ
  strideU : ℤ
  strideV : ℤ
  deriving DecidableEq

/-- The pool and the application, which holds one reference for each entry of `held`. A new buffer
gets the next address. -/
structure PoolState where
  heap : Heap ℕ Geometry
  next : ℕ
  buffers : List ℕ
  maxNumberOfBuffers : ℕ
  held : List ℕ

def poolInit (maxNumberOfBuffers : ℕ) : PoolState := ⟨fun _ => none, 0, [], maxNumberOfBuffers, []⟩

/-- Release buffers with wrong resolution. -/
def eraseMismatched (geometry : Geometry) (heap : Heap ℕ Geometry) :
    List ℕ → Option (Heap ℕ Geometry × List ℕ)
  | [] => some (heap, [])
  | b :: buffers => do
    let buffer ← heap b
    if buffer.value ≠ geometry then eraseMismatched geometry (← release heap b) buffers
    else
      let r ← eraseMismatched geometry heap buffers
      some (r.1, b :: r.2)

/-- Look for a free buffer. -/
def findFree (heap : Heap ℕ Geometry) : List ℕ → Option (Option ℕ)
  | [] => some none
  | b :: buffers => do
    let buffer ← heap b
    if buffer.refCount = 1 then some (some b) else findFree heap buffers

def createBuffer (s : PoolState) (geometry : Geometry) : Option (PoolState × Option ℕ) := do
  let r ← eraseMismatched geometry s.heap s.buffers
  match ← findFree r.1 r.2 with
  | some b =>
    some ({ s with heap := ← addRef r.1 b, buffers := r.2, held := b :: s.held }, some b)
  | none =>
    if s.maxNumberOfBuffers ≤ r.2.length then some ({ s with heap := r.1, buffers := r.2 }, none)
    else
      -- the references of the variable, of the list and of the result; the first one goes again
      let heap ← addRef (create r.1 s.next geometry) s.next
      let heap ← addRef heap s.next
      let heap ← addRef heap s.next
      let heap ← release heap s.next
      some ({ s with heap := heap, next := s.next + 1, buffers := r.2 ++ [s.next]
                     held := s.next :: s.held }, some s.next)

def usedBuffersCount (heap : Heap ℕ Geometry) : List ℕ → Option ℕ
  | [] => some 0
  | b :: buffers => do
    let buffer ← heap b
    let count ← usedBuffersCount heap buffers
    some (if buffer.refCount = 1 then count else count + 1)

/-- Erases up to `buffersToPurge` free buffers. -/
def purge (heap : Heap ℕ Geometry) : ℕ → List ℕ → Option (Heap ℕ Geometry × List ℕ)
  | _, [] => some (heap, [])
  | 0, buffers => some (heap, buffers)
  | buffersToPurge + 1, b :: buffers => do
    let buffer ← heap b
    if buffer.refCount = 1 then purge (← release heap b) buffersToPurge buffers
    else
      let r ← purge heap (buffersToPurge + 1) buffers
      some (r.1, b :: r.2)

/-- `buffers_to_purge` is a `size_t`, also where the new number is the larger one. -/
def resize (s : PoolState) (maxNumberOfBuffers : ℕ) : Option (PoolState × Bool) := do
  let used ← usedBuffersCount s.heap s.buffers
  if maxNumberOfBuffers < used then some (s, false)
  else
    let r ← purge s.heap ((s.buffers.length + 2 ^ 64 - maxNumberOfBuffers) % 2 ^ 64) s.buffers
    some ({ s with heap := r.1, buffers := r.2, maxNumberOfBuffers := maxNumberOfBuffers }, true)

/-- `buffers_.clear()`. -/
def clear (heap : Heap ℕ Geometry) : List ℕ → Option (Heap ℕ Geometry)
  | [] => some heap
  | b :: buffers => do clear (← release heap b) buffers

inductive PoolCall
  | createBuffer (geometry : Geometry)
  | resize (maxNumberOfBuffers : ℕ)
  | release
  | copy (b : ℕ)
  | drop (b : ℕ)

inductive PoolEvent
  | created (geometry : Geometry) (b : Option ℕ)
  | resized (ok : Bool)

/-- One call of the pool, or the application copies or drops one of its references. -/
def poolStep (s : PoolState) : PoolCall → Option (PoolState × List PoolEvent)
  | .createBuffer geometry => do
    let r ← createBuffer s geometry
    some (r.1, [.created geometry r.2])
  | .resize n =>
    -- a `size_t`
    if n < 2 ^ 64 then do
      let r ← resize s n
      some (r.1, [.resized r.2])
    else none
  | .release => do some ({ s with heap := ← clear s.heap s.buffers, buffers := [] }, [])
  | .copy b =>
    if b ∈ s.held then do some ({ s with heap := ← addRef s.heap b, held := b :: s.held }, []) else none
  | .drop b =>
    if b ∈ s.held then do some ({ s with heap := ← release s.heap b, held := s.held.erase b }, [])
    else none

/-- What the application may do, and the sizes that a `size_t` holds. -/
def PoolCall.Allowed (s : PoolState) : PoolCall → Prop
  | .copy b | .drop b => b ∈ s.held
  | .resize n => n < 2 ^ 64
  | _ => True

/-- The references to a buffer. -/
def poolRefs (buffers held : List ℕ) (b : ℕ) : ℕ := buffers.count b + held.count b

theorem poolRefs_eq (buffers held : List ℕ) (b : ℕ) :
    poolRefs buffers held b = buffers.count b + held.count b := rfl

structure PoolInv (s : PoolState) : Prop where
  counts : Counts s.heap (poolRefs s.buffers s.held)
  nodup : s.buffers.Nodup
  fresh : ∀ b, s.next ≤ b → b ∉ s.buffers ∧ b ∉ s.held
  size : s.buffers.length ≤ s.maxNumberOfBuffers
  limit : s.maxNumberOfBuffers < 2 ^ 64

/-! ## The loops -/

section
variable {heap : Heap ℕ Geometry} {refs rest : ℕ → ℕ}

/-- The step of a loop that drops the reference in front. -/
theorem exists_release (hc : Counts heap refs) {b : ℕ} {buffers : List ℕ}
    (hrefs : ∀ i, refs i = (b :: buffers).count i + rest i) :
    ∃ heap' refs', release heap b = some heap' ∧ Counts heap' refs' ∧
      (∀ i, refs' i = buffers.count i + rest i) ∧ (∀ i, i ≠ b → refs' i = refs i) ∧
      Keeps heap heap' := by
  have hpos : 0 < refs b := by
    rw [hrefs b, List.count_cons_self]
    omega
  obtain ⟨heap', hrelease, hcounts, hkeeps⟩ := hc.release hpos
  refine ⟨heap', _, hrelease, hcounts, fun i => ?_, fun i hi => Function.update_of_ne hi .., hkeeps⟩
  by_cases hi : i = b
  · subst hi
    rw [Function.update_self, hrefs i, List.count_cons_self]
    omega
  · rw [Function.update_of_ne hi, hrefs i, List.count_cons_of_ne (Ne.symm hi)]

theorem exists_buffer (hc : Counts heap refs) {b : ℕ} {buffers : List ℕ}
    (hrefs : ∀ i, refs i = (b :: buffers).count i + rest i) :
    ∃ buffer, heap b = some buffer ∧ buffer.refCount = refs b := by
  refine hc.exists_object ?_
  rw [hrefs b, List.count_cons_self]
  omega

/-- The reference in front belongs to the rest when it is kept. -/
theorem refs_keep {b : ℕ} {buffers : List ℕ} (hrefs : ∀ i, refs i = (b :: buffers).count i + rest i) :
    ∀ i, refs i = buffers.count i + (rest i + if b = i then 1 else 0) := by
  intro i
  rw [hrefs i, List.count_cons]
  simp only [beq_iff_eq]
  omega

theorem eraseMismatched_spec (geometry : Geometry) {buffers : List ℕ} (hc : Counts heap refs)
    (hrefs : ∀ i, refs i = buffers.count i + rest i) :
    ∃ r, eraseMismatched geometry heap buffers = some r ∧ Sweeps heap buffers r.1 r.2 ∧
      ∀ b ∈ buffers, b ∈ r.2 ↔ ∃ o, heap b = some o ∧ o.value = geometry := by
  induction buffers generalizing heap refs rest with
  | nil => exact ⟨(heap, []), rfl, .nil heap, fun b hb => absurd hb List.not_mem_nil⟩
  | cons b buffers ih =>
    obtain ⟨buffer, hbuffer, -⟩ := exists_buffer hc hrefs
    rw [eraseMismatched, hbuffer, Option.bind_eq_bind, Option.bind_some]
    by_cases hvalue : buffer.value = geometry
    · obtain ⟨r, hr, hsweeps, hmem⟩ := ih hc (refs_keep hrefs)
      rw [if_neg (not_not.mpr hvalue), hr]
      refine ⟨_, rfl, .keep b hsweeps, fun i hi => ?_⟩
      rw [List.mem_cons]
      rcases List.mem_cons.mp hi with rfl | hi'
      · exact ⟨fun _ => ⟨buffer, hbuffer, hvalue⟩, fun _ => .inl rfl⟩
      · rw [← hmem i hi']
        refine ⟨?_, .inr⟩
        rintro (heq | h)
        · rw [hmem i hi', heq]
          exact ⟨buffer, hbuffer, hvalue⟩
        · exact h
    · obtain ⟨heap₁, refs₁, hrelease, hc₁, hrefs₁, -, hkeeps⟩ := exists_release hc hrefs
      obtain ⟨r, hr, hsweeps, hmem⟩ := ih hc₁ hrefs₁
      have hlater : ∀ i ∈ buffers, i ∈ r.2 ↔ ∃ o, heap i = some o ∧ o.value = geometry := by
        intro i hi
        have hpos : 0 < refs₁ i := by
          have := List.count_pos_iff.mpr hi
          rw [hrefs₁ i]
          omega
        rw [hmem i hi, hkeeps.value_iff ((hc₁.isSome_iff i).mpr hpos)]
      rw [if_pos hvalue, hrelease]
      refine ⟨r, hr, .drop hrelease hsweeps, fun i hi => ?_⟩
      rcases List.mem_cons.mp hi with rfl | hi
      · constructor
        · exact fun h => (hlater i (hsweeps.sublist.subset h)).mp h
        · rintro ⟨o, ho, ho'⟩
          obtain rfl : buffer = o := Option.some.inj (hbuffer.symm.trans ho)
          exact absurd ho' hvalue
      · exact hlater i hi

theorem findFree_spec {buffers : List ℕ} (hc : Counts heap refs) (hpos : ∀ b ∈ buffers, 0 < refs b) :
    ∃ r, findFree heap buffers = some r ∧ (∀ b, r = some b → b ∈ buffers ∧ refs b = 1) ∧
      (r = none → ∀ b ∈ buffers, refs b ≠ 1) := by
  induction buffers with
  | nil => exact ⟨none, rfl, nofun, fun _ b hb => absurd hb List.not_mem_nil⟩
  | cons b buffers ih =>
    obtain ⟨buffer, hbuffer, hcount⟩ := hc.exists_object (hpos b List.mem_cons_self)
    obtain ⟨r, hr, hsome, hnone⟩ := ih fun i hi => hpos i (List.mem_cons_of_mem _ hi)
    rw [findFree, hbuffer, Option.bind_eq_bind, Option.bind_some]
    by_cases hone : buffer.refCount = 1
    · rw [if_pos hone]
      refine ⟨some b, rfl, fun i hi => ?_, nofun⟩
      obtain rfl := Option.some.inj hi
      exact ⟨List.mem_cons_self, hcount ▸ hone⟩
    · rw [if_neg hone]
      refine ⟨r, hr, fun i hi => ?_, fun hr' i hi => ?_⟩
      · exact ⟨List.mem_cons_of_mem _ (hsome i hi).1, (hsome i hi).2⟩
      · rcases List.mem_cons.mp hi with rfl | hi
        · exact hcount ▸ hone
        · exact hnone hr' i hi

theorem usedBuffersCount_spec {buffers : List ℕ} (hc : Counts heap refs)
    (hpos : ∀ b ∈ buffers, 0 < refs b) :
    usedBuffersCount heap buffers = some (buffers.countP fun b => refs b ≠ 1) := by
  induction buffers with
  | nil => rfl
  | cons b buffers ih =>
    obtain ⟨buffer, hbuffer, hcount⟩ := hc.exists_object (hpos b List.mem_cons_self)
    rw [usedBuffersCount, hbuffer, ih fun i hi => hpos i (List.mem_cons_of_mem _ hi),
      List.countP_cons, ← hcount]
    by_cases hone : buffer.refCount = 1
    · simp [hone]
    · simp [hone]

theorem purge_spec {buffers : List ℕ} (hc : Counts heap refs)
    (hrefs : ∀ i, refs i = buffers.count i + rest i) (hnodup : buffers.Nodup) (n : ℕ) :
    ∃ r, purge heap n buffers = some r ∧ Sweeps heap buffers r.1 r.2 ∧
      (∀ b ∈ buffers, refs b ≠ 1 → b ∈ r.2) ∧
      r.2.length + min n (buffers.countP fun b => refs b = 1) = buffers.length := by
  induction buffers generalizing heap refs rest n with
  | nil => exact ⟨(heap, []), by cases n <;> rfl, .nil heap, fun b hb => absurd hb List.not_mem_nil, by simp⟩
  | cons b buffers ih =>
    obtain ⟨hb, hnodup'⟩ := List.nodup_cons.mp hnodup
    obtain ⟨buffer, hbuffer, hcount⟩ := exists_buffer hc hrefs
    cases n with
    | zero => exact ⟨_, rfl, Sweeps.refl heap _, fun _ hi _ => hi, by simp⟩
    | succ n =>
      rw [purge, hbuffer, Option.bind_eq_bind, Option.bind_some, List.countP_cons, List.length_cons]
      by_cases hone : refs b = 1
      · obtain ⟨heap₁, refs₁, hrelease, hc₁, hrefs₁, hother, -⟩ := exists_release hc hrefs
        obtain ⟨r, hr, hsweeps, hused, hlength⟩ := ih hc₁ hrefs₁ hnodup' n
        have hsame : ∀ i ∈ buffers, refs₁ i = refs i := fun i hi =>
          hother i (ne_of_mem_of_not_mem hi hb)
        have hcongr : (buffers.countP fun b => refs₁ b = 1) = buffers.countP fun b => refs b = 1 :=
          List.countP_congr fun i hi => by rw [hsame i hi]
        rw [if_pos (hcount.trans hone), hrelease]
        refine ⟨r, hr, .drop hrelease hsweeps, fun i hi hi1 => ?_, ?_⟩
        · rcases List.mem_cons.mp hi with rfl | hi
          · exact absurd hone hi1
          · exact hused i hi (by rw [hsame i hi]; exact hi1)
        · rw [if_pos (decide_eq_true hone), ← hlength, hcongr]
          omega
      · obtain ⟨r, hr, hsweeps, hused, hlength⟩ := ih hc (refs_keep hrefs) hnodup' (n + 1)
        rw [if_neg (fun h => hone (hcount.symm.trans h)), hr]
        refine ⟨_, rfl, .keep b hsweeps, fun i hi hi1 => ?_, ?_⟩
        · rcases List.mem_cons.mp hi with rfl | hi
          · exact List.mem_cons_self
          · exact List.mem_cons_of_mem _ (hused i hi hi1)
        · rw [if_neg (by simpa using hone), ← hlength, List.length_cons]
          omega

theorem clear_spec {buffers : List ℕ} (hc : Counts heap refs)
    (hrefs : ∀ i, refs i = buffers.count i + rest i) :
    ∃ heap', clear heap buffers = some heap' ∧ Sweeps heap buffers heap' [] := by
  induction buffers generalizing heap refs with
  | nil => exact ⟨heap, rfl, .nil heap⟩
  | cons b buffers ih =>
    obtain ⟨heap₁, refs₁, hrelease, hc₁, hrefs₁, -, -⟩ := exists_release hc hrefs
    obtain ⟨heap', hclear, hsweeps⟩ := ih hc₁ hrefs₁
    exact ⟨heap', by rw [clear, hrelease]; exact hclear, .drop hrelease hsweeps⟩

end

/-! ## The calls -/

/-- What `CreateBuffer` does: all buffers that stay have the geometry; the one that is given out is
one that the application does not hold; none is given out if all are in use and there may not be
more; and a buffer is made only if all that stay are in use. -/
structure Created (s : PoolState) (geometry : Geometry) (s' : PoolState) (result : Option ℕ) : Prop where
  matching : ∀ b ∈ s'.buffers, ∃ o, s'.heap b = some o ∧ o.value = geometry
  exclusive : ∀ b, result = some b → b ∉ s.held ∧ s'.held = b :: s.held ∧ b ∈ s'.buffers
  exhausted : result = none →
    s'.held = s.held ∧ s.maxNumberOfBuffers ≤ s'.buffers.length ∧ ∀ b ∈ s'.buffers, b ∈ s.held
  reused : ∀ b ∈ s.buffers, b ∉ s.held → (∃ o, s.heap b = some o ∧ o.value = geometry) →
    ∃ b' ∈ s.buffers, result = some b'
  limit : s'.maxNumberOfBuffers = s.maxNumberOfBuffers
  others : ∀ b ∈ s'.buffers, b ∈ s.buffers ∨ result = some b
  idle : ∀ b, result = some b → b ∉ s.buffers → ∀ b' ∈ s'.buffers, b' = b ∨ b' ∈ s.held

theorem refs_pos {buffers held : List ℕ} {b : ℕ} (hb : b ∈ buffers ∨ b ∈ held) :
    0 < poolRefs buffers held b := by
  unfold poolRefs
  rcases hb with hb | hb
  · have := List.count_pos_iff.mpr hb
    omega
  · have := List.count_pos_iff.mpr hb
    omega

theorem poolRefs_cons_held (buffers held : List ℕ) (b : ℕ) :
    Function.update (poolRefs buffers held) b (poolRefs buffers held b + 1) =
      poolRefs buffers (b :: held) := by
  funext i
  unfold poolRefs
  by_cases hi : i = b
  · subst hi
    rw [Function.update_self, List.count_cons_self]
    omega
  · rw [Function.update_of_ne hi, List.count_cons_of_ne (Ne.symm hi)]

theorem poolRefs_erase_held (buffers : List ℕ) {held : List ℕ} {b : ℕ} (hb : b ∈ held) :
    Function.update (poolRefs buffers held) b (poolRefs buffers held b - 1) =
      poolRefs buffers (held.erase b) := by
  have hpos := List.count_pos_iff.mpr hb
  funext i
  unfold poolRefs
  by_cases hi : i = b
  · subst hi
    rw [Function.update_self, List.count_erase_self]
    omega
  · rw [Function.update_of_ne hi, List.count_erase_of_ne hi]

/-- A new buffer is referred to by the list and by the result. -/
theorem poolRefs_new {buffers held : List ℕ} {b : ℕ} (hbuffers : b ∉ buffers) (hheld : b ∉ held) :
    Function.update (poolRefs buffers held) b 2 = poolRefs (buffers ++ [b]) (b :: held) := by
  funext i
  unfold poolRefs
  by_cases hi : i = b
  · subst hi
    rw [Function.update_self, List.count_append, List.count_eq_zero_of_not_mem hbuffers,
      List.count_singleton_self, List.count_cons_self, List.count_eq_zero_of_not_mem hheld]
  · rw [Function.update_of_ne hi, List.count_append, List.count_cons_of_ne (Ne.symm hi),
      List.count_cons_of_ne (Ne.symm hi), List.count_nil, Nat.add_zero]

theorem createBuffer_spec {s : PoolState} (hs : PoolInv s) (geometry : Geometry) :
    ∃ r, createBuffer s geometry = some r ∧ PoolInv r.1 ∧ Created s geometry r.1 r.2 := by
  obtain ⟨r, hr, hsweeps, hmem⟩ := eraseMismatched_spec geometry hs.counts
    (poolRefs_eq s.buffers s.held)
  obtain ⟨hcounts, hkeeps⟩ := hsweeps.counts hs.counts (poolRefs_eq s.buffers s.held)
  change Counts r.1 (poolRefs r.2 s.held) at hcounts
  have hsub := hsweeps.sublist
  have hnodup : r.2.Nodup := hs.nodup.sublist hsub
  have hsize := hsub.length_le.trans hs.size
  have hpos : ∀ b ∈ r.2, 0 < poolRefs r.2 s.held b := fun b hb => refs_pos (.inl hb)
  have hvalue : ∀ b ∈ r.2, ∃ o, r.1 b = some o ∧ o.value = geometry := by
    intro b hb
    rw [← hkeeps.value_iff ((hcounts.isSome_iff b).mpr (hpos b hb)), ← hmem b (hsub.subset hb)]
    exact hb
  obtain ⟨free, hfree, hsome, hnone⟩ := findFree_spec hcounts hpos
  unfold createBuffer
  rw [hr, Option.bind_eq_bind, Option.bind_some, hfree, Option.bind_eq_bind, Option.bind_some]
  cases free with
  | some b =>
    obtain ⟨hb, hone⟩ := hsome b rfl
    have hheld : b ∉ s.held := by
      intro hheld
      have h1 := List.count_pos_iff.mpr hb
      have h2 := List.count_pos_iff.mpr hheld
      unfold poolRefs at hone
      omega
    obtain ⟨heap', hadd, hcounts', hkeeps'⟩ := hcounts.addRef (hpos b hb)
    rw [poolRefs_cons_held] at hcounts'
    dsimp only
    rw [hadd]
    refine ⟨_, rfl, ⟨hcounts', hnodup, fun i hi => ⟨?_, ?_⟩, hsize, hs.limit⟩, ⟨fun i hi => ?_, ?_, nofun, ?_, rfl,
      fun i hi => .inl (hsub.subset hi), fun i hi hnew => ?_⟩⟩
    · exact fun h => (hs.fresh i hi).1 (hsub.subset h)
    · intro h
      rcases List.mem_cons.mp h with rfl | h
      · exact (hs.fresh i hi).1 (hsub.subset hb)
      · exact (hs.fresh i hi).2 h
    · rw [← hkeeps'.value_iff ((hcounts'.isSome_iff i).mpr (refs_pos (.inl hi)))]
      exact hvalue i hi
    · intro i hi
      obtain rfl := Option.some.inj hi
      exact ⟨hheld, rfl, hb⟩
    · exact fun _ _ _ _ => ⟨b, hsub.subset hb, rfl⟩
    · obtain rfl := Option.some.inj hi
      exact absurd (hsub.subset hb) hnew
  | none =>
    have hused : ∀ b ∈ r.2, b ∈ s.held := by
      intro b hb
      by_contra hheld
      refine hnone rfl b hb ?_
      unfold poolRefs
      rw [List.count_eq_one_of_mem hnodup hb, List.count_eq_zero_of_not_mem hheld]
    have hreused : ∀ b ∈ s.buffers, b ∉ s.held → (∃ o, s.heap b = some o ∧ o.value = geometry) →
        False := fun b hb hheld hgeometry => hheld (hused b ((hmem b hb).mpr hgeometry))
    dsimp only
    by_cases hfull : s.maxNumberOfBuffers ≤ r.2.length
    · rw [if_pos hfull]
      refine ⟨_, rfl, ⟨hcounts, hnodup, fun i hi => ⟨?_, (hs.fresh i hi).2⟩, hsize, hs.limit⟩,
        ⟨hvalue, nofun, fun _ => ⟨rfl, hfull, hused⟩, ?_, rfl, fun i hi => .inl (hsub.subset hi), nofun⟩⟩
      · exact fun h => (hs.fresh i hi).1 (hsub.subset h)
      · exact fun b hb hheld hgeometry => (hreused b hb hheld hgeometry).elim
    · rw [if_neg hfull]
      obtain ⟨hnext, hnextHeld⟩ := hs.fresh s.next le_rfl
      have hnextBuffers : s.next ∉ r.2 := fun h => hnext (hsub.subset h)
      obtain ⟨heap₁, h₁, hc₁, hnew, hold⟩ := hcounts.create s.next geometry
      obtain ⟨heap₂, h₂, hc₂, hk₂⟩ := hc₁.addRef (i := s.next) (by rw [Function.update_self]; decide)
      obtain ⟨heap₃, h₃, hc₃, hk₃⟩ := hc₂.addRef (i := s.next) (by rw [Function.update_self]; omega)
      obtain ⟨heap₄, h₄, hc₄, hk₄⟩ := hc₃.release (i := s.next) (by rw [Function.update_self]; omega)
      simp only [Function.update_self, Function.update_idem] at hc₄
      rw [poolRefs_new hnextBuffers hnextHeld] at hc₄
      simp only [h₁, h₂, h₃, h₄, Option.bind_eq_bind, Option.bind_some]
      refine ⟨_, rfl, ⟨hc₄, ?_, fun i hi => ⟨?_, ?_⟩, ?_, hs.limit⟩, ⟨fun i hi => ?_, ?_, nofun, ?_, rfl,
        fun i hi => ?_, fun i hi _ i' hi' => ?_⟩⟩
      · exact hnodup.append (List.nodup_singleton _) (List.disjoint_singleton.mpr hnextBuffers)
      · intro h
        have hlt : s.next < i := hi
        rcases List.mem_append.mp h with h | h
        · exact (hs.fresh i hlt.le).1 (hsub.subset h)
        · exact absurd (List.mem_singleton.mp h) (by omega)
      · intro h
        have hlt : s.next < i := hi
        rcases List.mem_cons.mp h with h | h
        · omega
        · exact (hs.fresh i hlt.le).2 h
      · show (r.2 ++ [s.next]).length ≤ s.maxNumberOfBuffers
        rw [List.length_append, List.length_singleton]
        omega
      · have hkeep := (hk₂.trans hk₃).trans hk₄
        rw [← hkeep.value_iff ((hc₄.isSome_iff i).mpr (refs_pos (.inl hi)))]
        rcases List.mem_append.mp hi with hi | hi
        · rw [hold i (ne_of_mem_of_not_mem hi hnextBuffers)]
          exact hvalue i hi
        · rw [List.mem_singleton.mp hi]
          exact hnew
      · intro i hi
        obtain rfl := Option.some.inj hi
        exact ⟨hnextHeld, rfl, List.mem_append_right _ (List.mem_singleton_self _)⟩
      · exact fun b hb hheld hgeometry => (hreused b hb hheld hgeometry).elim
      · rcases List.mem_append.mp hi with hi | hi
        · exact .inl (hsub.subset hi)
        · exact .inr (congrArg some (List.mem_singleton.mp hi).symm)
      · obtain rfl := Option.some.inj hi
        rcases List.mem_append.mp hi' with hi' | hi'
        · exact .inr (hused i' hi')
        · exact .inl (List.mem_singleton.mp hi')

/-- What `Resize` does. A buffer in use stays; what happens to the free ones depends on the sign of
a difference that has none: if the new number is the larger one, all of them go. -/
structure Resized (s : PoolState) (n : ℕ) (s' : PoolState) (ok : Bool) : Prop where
  refused : ok = false ↔ n < s.buffers.countP fun b => b ∈ s.held
  unchanged : ok = false → s' = s
  kept : ∀ b ∈ s.buffers, b ∈ s.held → b ∈ s'.buffers
  smaller : ok = true → n ≤ s.buffers.length → s'.buffers.length = n
  larger : ok = true → s.buffers.length < n → ∀ b ∈ s'.buffers, b ∈ s.held

theorem poolRefs_ne_one_iff {buffers held : List ℕ} (hnodup : buffers.Nodup) {b : ℕ} (hb : b ∈ buffers) :
    poolRefs buffers held b ≠ 1 ↔ b ∈ held := by
  rw [poolRefs, List.count_eq_one_of_mem hnodup hb, ← List.count_pos_iff]
  omega

theorem resize_spec {s : PoolState} (hs : PoolInv s) {n : ℕ} (hn : n < 2 ^ 64) :
    ∃ r, resize s n = some r ∧ PoolInv r.1 ∧ Resized s n r.1 r.2 := by
  have hpos : ∀ b ∈ s.buffers, 0 < poolRefs s.buffers s.held b := fun b hb => refs_pos (.inl hb)
  have hused : (s.buffers.countP fun b => poolRefs s.buffers s.held b ≠ 1) =
      s.buffers.countP fun b => b ∈ s.held :=
    List.countP_congr fun b hb => by
      rw [decide_eq_true_iff, decide_eq_true_iff, poolRefs_ne_one_iff hs.nodup hb]
  have hfree : (s.buffers.countP fun b => poolRefs s.buffers s.held b = 1) +
      s.buffers.countP (fun b => b ∈ s.held) = s.buffers.length := by
    rw [← hused, List.length_eq_countP_add_countP (fun b => poolRefs s.buffers s.held b = 1)]
    simp
  have hlimit := hs.limit
  have hsize := hs.size
  unfold resize
  rw [usedBuffersCount_spec hs.counts hpos, hused, Option.bind_eq_bind, Option.bind_some]
  by_cases hrefuse : n < s.buffers.countP fun b => b ∈ s.held
  · rw [if_pos hrefuse]
    exact ⟨_, rfl, hs, ⟨fun _ => hrefuse, fun _ => rfl⟩, fun _ => rfl, fun _ h _ => h, nofun, nofun⟩
  · rw [if_neg hrefuse]
    obtain ⟨r, hr, hsweeps, hkept, hlength⟩ := purge_spec hs.counts (poolRefs_eq s.buffers s.held)
      hs.nodup ((s.buffers.length + 2 ^ 64 - n) % 2 ^ 64)
    obtain ⟨hcounts, -⟩ := hsweeps.counts hs.counts (poolRefs_eq s.buffers s.held)
    have hsub := hsweeps.sublist
    have hkept' : ∀ b ∈ s.buffers, b ∈ s.held → b ∈ r.2 := fun b hb hheld =>
      hkept b hb ((poolRefs_ne_one_iff hs.nodup hb).mpr hheld)
    generalize hfreeCount : (s.buffers.countP fun b => poolRefs s.buffers s.held b = 1) = free
      at hfree hlength
    have hsmaller : n ≤ s.buffers.length → r.2.length = n := by
      intro hle
      have hpurge : (s.buffers.length + 2 ^ 64 - n) % 2 ^ 64 = s.buffers.length - n := by omega
      rw [hpurge] at hlength
      omega
    have hlarger : s.buffers.length < n → r.2.length = s.buffers.countP fun b => b ∈ s.held := by
      intro hlt
      have hpurge : (s.buffers.length + 2 ^ 64 - n) % 2 ^ 64 = s.buffers.length + 2 ^ 64 - n := by
        omega
      rw [hpurge] at hlength
      omega
    rw [hr, Option.bind_eq_bind, Option.bind_some]
    refine ⟨_, rfl, ⟨hcounts, hs.nodup.sublist hsub, fun b hb => ?_, ?_, hn⟩,
      ⟨nofun, fun h => absurd h hrefuse⟩, nofun, hkept', fun _ => hsmaller, fun _ hlt b hb => ?_⟩
    · exact ⟨fun h => (hs.fresh b hb).1 (hsub.subset h), (hs.fresh b hb).2⟩
    · show r.2.length ≤ n
      by_cases hle : n ≤ s.buffers.length
      · exact (hsmaller hle).le
      · rw [hlarger (by omega)]
        omega
    · -- the buffers in use are as many as those that are left
      have hfilter : (s.buffers.filter fun b => b ∈ s.held).length = r.2.length := by
        rw [← List.countP_eq_length_filter, hlarger hlt]
      have hsubset : (s.buffers.filter fun b => b ∈ s.held) ⊆ r.2 := by
        intro i hi
        obtain ⟨hi, hheld⟩ := List.mem_filter.mp hi
        exact hkept' i hi (by simpa using hheld)
      have hperm := (List.subperm_of_subset (hs.nodup.filter _) hsubset).perm_of_length_le hfilter.ge
      have hmem := hperm.mem_iff.mpr hb
      simpa using (List.mem_filter.mp hmem).2

theorem release_spec {s : PoolState} (hs : PoolInv s) :
    ∃ heap, clear s.heap s.buffers = some heap ∧ PoolInv { s with heap := heap, buffers := [] } := by
  obtain ⟨heap, hclear, hsweeps⟩ := clear_spec hs.counts (poolRefs_eq s.buffers s.held)
  obtain ⟨hcounts, -⟩ := hsweeps.counts hs.counts (poolRefs_eq s.buffers s.held)
  exact ⟨heap, hclear, hcounts, List.nodup_nil,
    fun b hb => ⟨List.not_mem_nil, (hs.fresh b hb).2⟩, Nat.zero_le _, hs.limit⟩

/-! ## Every run -/

/-- What is true of every call: it touches no deleted buffer, and what it returns is right. -/
def CallRight (s : PoolState) (r : PoolState × List PoolEvent) : PoolCall → Prop
  | .createBuffer geometry =>
    ∃ result, r.2 = [.created geometry result] ∧ Created s geometry r.1 result
  | .resize n => ∃ ok, r.2 = [.resized ok] ∧ Resized s n r.1 ok
  | .release => r.1 = { s with heap := r.1.heap, buffers := [] }
  | .copy b => r.1 = { s with heap := r.1.heap, held := b :: s.held }
  | .drop b => r.1 = { s with heap := r.1.heap, held := s.held.erase b }

theorem poolStep_spec {s : PoolState} (hs : PoolInv s) {call : PoolCall} (hcall : call.Allowed s) :
    ∃ r, poolStep s call = some r ∧ PoolInv r.1 ∧ CallRight s r call := by
  cases call with
  | createBuffer geometry =>
    obtain ⟨r, hr, hinv, hcreated⟩ := createBuffer_spec hs geometry
    exact ⟨_, by rw [poolStep, hr]; rfl, hinv, r.2, rfl, hcreated⟩
  | resize n =>
    change n < 2 ^ 64 at hcall
    obtain ⟨r, hr, hinv, hresized⟩ := resize_spec hs hcall
    exact ⟨_, by rw [poolStep, if_pos hcall, hr]; rfl, hinv, r.2, rfl, hresized⟩
  | release =>
    obtain ⟨heap, hclear, hinv⟩ := release_spec hs
    exact ⟨({ s with heap := heap, buffers := [] }, []), by rw [poolStep, hclear]; rfl, hinv, rfl⟩
  | copy b =>
    change b ∈ s.held at hcall
    obtain ⟨heap, hadd, hcounts, -⟩ := hs.counts.addRef (refs_pos (.inr hcall : b ∈ s.buffers ∨ b ∈ s.held))
    rw [poolRefs_cons_held] at hcounts
    refine ⟨({ s with heap := heap, held := b :: s.held }, []), by rw [poolStep, if_pos hcall, hadd]; rfl,
      ⟨hcounts, hs.nodup, fun i hi => ⟨(hs.fresh i hi).1, ?_⟩, hs.size, hs.limit⟩, rfl⟩
    intro h
    rcases List.mem_cons.mp h with rfl | h
    · exact (hs.fresh i hi).2 hcall
    · exact (hs.fresh i hi).2 h
  | drop b =>
    change b ∈ s.held at hcall
    obtain ⟨heap, hdrop, hcounts, -⟩ := hs.counts.release (refs_pos (.inr hcall : b ∈ s.buffers ∨ b ∈ s.held))
    rw [poolRefs_erase_held s.buffers hcall] at hcounts
    exact ⟨({ s with heap := heap, held := s.held.erase b }, []), by rw [poolStep, if_pos hcall, hdrop]; rfl,
      ⟨hcounts, hs.nodup, fun i hi => ⟨(hs.fresh i hi).1,
        fun h => (hs.fresh i hi).2 (List.mem_of_mem_erase h)⟩, hs.size, hs.limit⟩, rfl⟩

theorem allowed_of_step {s : PoolState} {call : PoolCall} {r : PoolState × List PoolEvent}
    (h : poolStep s call = some r) : call.Allowed s := by
  cases call with
  | createBuffer => trivial
  | release => trivial
  | resize n =>
    by_contra hnot
    have hbound : ¬ n < 2 ^ 64 := hnot
    rw [poolStep, if_neg hbound] at h
    cases h
  | copy b | drop b =>
    by_contra hnot
    have hheld : b ∉ s.held := hnot
    rw [poolStep, if_neg hheld] at h
    cases h

theorem poolInv_init {maxNumberOfBuffers : ℕ} (h : maxNumberOfBuffers < 2 ^ 64) :
    PoolInv (poolInit maxNumberOfBuffers) where
  counts _ := ⟨rfl, nofun⟩
  nodup := List.nodup_nil
  fresh _ _ := ⟨List.not_mem_nil, List.not_mem_nil⟩
  size := Nat.zero_le _
  limit := h

/-- In every run of calls of the pool and of an application that copies and drops its references,
a call that is allowed never touches a deleted buffer; a buffer lives exactly as long as the pool or
the application refers to it; there are never more than the maximum; and what is given out, refused,
kept and purged is as `Created` and `Resized` say. -/
theorem bufferPool_exclusive {maxNumberOfBuffers : ℕ} (hmax : maxNumberOfBuffers < 2 ^ 64)
    {calls : List PoolCall} {s : PoolState}
    (hrun : run poolStep (poolInit maxNumberOfBuffers) calls = some s) :
    (∀ b, (s.heap b).isSome ↔ b ∈ s.buffers ∨ b ∈ s.held) ∧
      s.buffers.length ≤ s.maxNumberOfBuffers ∧
      ∀ call : PoolCall, (call.Allowed s ↔ (poolStep s call).isSome) ∧
        ∀ r, poolStep s call = some r → CallRight s r call := by
  have hs : PoolInv s := invariant (I := PoolInv) (fun s call r h hr => by
    obtain ⟨r', hr', hinv, -⟩ := poolStep_spec h (allowed_of_step hr)
    obtain rfl : r = r' := Option.some.inj (hr.symm.trans hr')
    exact hinv) (poolInv_init hmax) hrun
  refine ⟨fun b => ?_, hs.size, fun call => ⟨⟨fun hcall => ?_, fun hsome => ?_⟩, fun r hr => ?_⟩⟩
  · rw [hs.counts.isSome_iff, poolRefs, Nat.add_pos_iff_pos_or_pos, List.count_pos_iff,
      List.count_pos_iff]
  · obtain ⟨r, hr, -, -⟩ := poolStep_spec hs hcall
    rw [hr]
    rfl
  · obtain ⟨r, hr⟩ := Option.isSome_iff_exists.mp hsome
    exact allowed_of_step hr
  · obtain ⟨r', hr', -, hright⟩ := poolStep_spec hs (allowed_of_step hr)
    obtain rfl : r = r' := Option.some.inj (hr.symm.trans hr')
    exact hright

/-- A pool of one buffer, which is given out, taken back and given out again. -/
def reuseCalls : List PoolCall :=
  [.createBuffer ⟨4, 4, 4, 2, 2⟩, .drop 0, .createBuffer ⟨4, 4, 4, 2, 2⟩]

theorem bufferPool_exclusive_reuse :
    ∃ s, run poolStep (poolInit 1) reuseCalls = some s ∧ s.held = [0] ∧
      (∀ b, (s.heap b).isSome ↔ b ∈ s.buffers ∨ b ∈ s.held) ∧
      s.buffers.length ≤ s.maxNumberOfBuffers ∧
      ∀ call : PoolCall, (call.Allowed s ↔ (poolStep s call).isSome) ∧
        ∀ r, poolStep s call = some r → CallRight s r call := by
  have hheld : (run poolStep (poolInit 1) reuseCalls).map PoolState.held = some [0] := rfl
  obtain ⟨s, hs, hheld⟩ := Option.map_eq_some_iff.mp hheld
  exact ⟨s, hs, hheld, bufferPool_exclusive (show 1 < 2 ^ 64 by decide) hs⟩

end WinAirPlay
