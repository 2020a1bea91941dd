import WinAirPlay.Decoder.BufferPool
import WinAirPlay.Foundations.ByteBuffer

/-! # The decoder: `h264_decoder_mf_impl.cc`

`Decode` puts an image into a transform of the operating system and takes out the frames that are
ready. What the transform answers is part of a call. The decoder drops images until a key frame, and
again after the transform refused one: `Gapless` says that an image other than a key frame reaches
the transform only if nothing was lost since the last key frame. The buffer of a frame is dropped
when the frame is done, so the pool never has a second one and never runs out. `Release` empties the
pool, and the decoder then takes no image any more.
-/

namespace WinAirPlay
open Foundations.ByteBuffer Foundations.Transition
set_option autoImplicit false

inductive VideoFrameType
  | key
  | delta
  deriving DecidableEq

/-- `data` is a pointer, and null where it is `none`. -/
structure EncodedImage where
  data : Option Bytes
  size : ℕ
  frameType : VideoFrameType
  completeFrame : Bool

/-- The results that are told apart. -/
inductive HResult
  | ok
  | notAccepting
  | needMoreInput
  | streamChange
  | failure
  deriving DecidableEq

inductive CodecResult
  | ok
  | error
  | uninitialized
  | errParameter
  deriving DecidableEq

/-- The frames that come out, with their width and height, and what ends the loop. -/
structure FlushResult where
  frames : List (ℤ × ℤ)
  hr : HResult

/-- A call, and what the transform answers to it in turn: the two `EnqueueFrame`, the flush between
them, the two `FlushFrames`, and whether a new output type was found between those. -/
structure DecodeCall where
  image : EncodedImage
  enqueue : HResult
  flush : HResult
  enqueueAgain : HResult
  frames : FlushResult
  configured : Bool
  framesAgain : FlushResult

inductive DecoderCall
  | decode (call : DecodeCall)
  | release

structure H264Decoder where
  inited : Bool
  requireKeyframe : Bool
  bufferPool : PoolState

def h264DecoderInit (inited : Bool) : H264Decoder := ⟨inited, true, poolInit 300⟩

/-- One call of `Decode`: whether the transform took the image, and the result. -/
structure DecodedImage where
  image : EncodedImage
  taken : Bool
  result : CodecResult

/-- The default strides. -/
def defaultGeometry (width height : ℤ) : Geometry :=
  ⟨width, height, width, (width + 1).tdiv 2, (width + 1).tdiv 2⟩

/-- The buffer of a frame is dropped at the end of the pass. Without a buffer the frame and those
after it stay in the transform. -/
def flushFrames (pool : PoolState) (hr : HResult) : List (ℤ × ℤ) → Option (PoolState × HResult)
  | [] => some (pool, hr)
  | (width, height) :: frames => do
    let r ← createBuffer pool (defaultGeometry width height)
    match r.2 with
    | none => some (r.1, .ok)
    | some b => flushFrames (← poolStep r.1 (.drop b)).1 hr frames

/-- The frames are taken out; on a change of the stream a second time. -/
def takeFrames (pool : PoolState) (call : DecodeCall) : Option (PoolState × CodecResult) := do
  let finish (hr : HResult) : CodecResult := if hr = .ok ∨ hr = .needMoreInput then .ok else .error
  let r ← flushFrames pool call.frames.hr call.frames.frames
  if r.2 = .streamChange then
    if call.configured then
      let r ← flushFrames r.1 call.framesAgain.hr call.framesAgain.frames
      some (r.1, finish r.2)
    else some (r.1, .error)
  else some (r.1, finish r.2)

def decode (d : H264Decoder) (call : DecodeCall) : Option (H264Decoder × DecodedImage) :=
  let image := call.image
  if d.inited = false then some (d, ⟨image, false, .uninitialized⟩)
  else if image.data = none ∧ image.size > 0 then some (d, ⟨image, false, .errParameter⟩)
  else if d.requireKeyframe ∧ (image.frameType ≠ .key ∨ image.completeFrame = false) then
    some (d, ⟨image, false, .error⟩)
  else
    let d := { d with requireKeyframe := false }
    if call.enqueue = .notAccepting ∧ image.frameType ≠ .key then
      some ({ d with requireKeyframe := true }, ⟨image, false, .error⟩)
    else
      -- a key frame is enqueued once more after the flush
      let hr := if call.enqueue = .notAccepting then
          (if call.flush = .ok then call.enqueueAgain else call.flush)
        else call.enqueue
      if hr = .ok then do
        let r ← takeFrames d.bufferPool call
        some ({ d with bufferPool := r.1 }, ⟨image, true, r.2⟩)
      else some (d, ⟨image, false, .error⟩)

/-- `Release`: the pool lets go of its buffers. -/
def decoderRelease (d : H264Decoder) : Option H264Decoder := do
  let r ← poolStep d.bufferPool .release
  some { d with inited := false, bufferPool := r.1 }

def decoderStep (d : H264Decoder) : DecoderCall → Option (H264Decoder × List DecodedImage)
  | .decode call => do
    let r ← decode d call
    some (r.1, [r.2])
  | .release => do some (← decoderRelease d, [])

/-! ## The buffers -/

/-- Between two calls nothing is in use, and there is at most one buffer. -/
structure PoolIdle (pool : PoolState) : Prop where
  inv : PoolInv pool
  held : pool.held = []
  single : pool.buffers.length ≤ 1
  limit : pool.maxNumberOfBuffers = 300

theorem poolIdle_init : PoolIdle (poolInit 300) where
  inv := poolInv_init (by decide)
  held := rfl
  single := Nat.zero_le _
  limit := rfl

/-- The buffer of a frame, once it is dropped. -/
theorem poolIdle_frame {pool : PoolState} (hp : PoolIdle pool) (geometry : Geometry) :
    ∃ r b r', createBuffer pool geometry = some r ∧ r.2 = some b ∧
      poolStep r.1 (.drop b) = some r' ∧ PoolIdle r'.1 := by
  obtain ⟨r, hr, hinv, hcreated⟩ := createBuffer_spec hp.inv geometry
  have hlimit : r.1.maxNumberOfBuffers = 300 := hcreated.limit.trans hp.limit
  cases hb : r.2 with
  | none =>
    -- all buffers would be in use, but none is
    obtain ⟨-, hfull, hused⟩ := hcreated.exhausted hb
    have hempty : r.1.buffers = [] := by
      refine List.eq_nil_iff_forall_not_mem.mpr fun b hmem => ?_
      have := hused b hmem
      rw [hp.held] at this
      exact List.not_mem_nil this
    rw [hempty, hp.limit] at hfull
    exact absurd hfull (by decide)
  | some b =>
    obtain ⟨-, hheld, hmem⟩ := hcreated.exclusive b hb
    rw [hp.held] at hheld
    have hallowed : (PoolCall.drop b).Allowed r.1 := by
      change b ∈ r.1.held
      rw [hheld]
      exact List.mem_singleton_self b
    obtain ⟨r', hr', hinv', hdropped⟩ := poolStep_spec hinv hallowed
    change r'.1 = { r.1 with heap := r'.1.heap, held := r.1.held.erase b } at hdropped
    rw [hheld, List.erase_cons_head] at hdropped
    have hbuffers : r'.1.buffers = r.1.buffers := by rw [hdropped]
    refine ⟨r, b, r', hr, hb, hr', hinv', by rw [hdropped], ?_, by rw [hdropped]; exact hlimit⟩
    rw [hbuffers]
    by_cases hnew : b ∈ pool.buffers
    · -- the buffers that stay are among those that were there
      have hsub : r.1.buffers ⊆ pool.buffers := by
        intro b' hb'
        rcases hcreated.others b' hb' with h | h
        · exact h
        · rw [hb] at h
          exact Option.some.inj h ▸ hnew
      exact (List.subperm_of_subset hinv.nodup hsub).length_le.trans hp.single
    · have hsub : r.1.buffers ⊆ [b] := by
        intro b' hb'
        rcases hcreated.idle b hb hnew b' hb' with rfl | h
        · exact List.mem_singleton_self _
        · rw [hp.held] at h
          exact absurd h List.not_mem_nil
      exact (List.subperm_of_subset hinv.nodup hsub).length_le

/-- All frames are taken out. -/
theorem flushFrames_spec {pool : PoolState} (hp : PoolIdle pool) (hr : HResult) (frames : List (ℤ × ℤ)) :
    ∃ pool', flushFrames pool hr frames = some (pool', hr) ∧ PoolIdle pool' := by
  induction frames generalizing pool with
  | nil => exact ⟨pool, rfl, hp⟩
  | cons frame frames ih =>
    obtain ⟨r, b, r', hcreate, hb, hdrop, hp'⟩ := poolIdle_frame hp (defaultGeometry frame.1 frame.2)
    obtain ⟨pool', hflush, hidle⟩ := ih hp'
    refine ⟨pool', ?_, hidle⟩
    rw [flushFrames, hcreate, Option.bind_eq_bind, Option.bind_some, hb]
    dsimp only
    rw [hdrop]
    exact hflush

theorem takeFrames_spec {pool : PoolState} (hp : PoolIdle pool) (call : DecodeCall) :
    ∃ r, takeFrames pool call = some r ∧ PoolIdle r.1 := by
  obtain ⟨pool', hflush, hidle⟩ := flushFrames_spec hp call.frames.hr call.frames.frames
  unfold takeFrames
  rw [hflush, Option.bind_eq_bind, Option.bind_some]
  by_cases hchange : call.frames.hr = .streamChange
  · rw [if_pos hchange]
    by_cases hconfigured : call.configured = true
    · obtain ⟨pool'', hflush', hidle'⟩ := flushFrames_spec hidle call.framesAgain.hr
        call.framesAgain.frames
      rw [if_pos hconfigured, hflush']
      exact ⟨_, rfl, hidle'⟩
    · rw [if_neg hconfigured]
      exact ⟨_, rfl, hidle⟩
  · rw [if_neg hchange]
    exact ⟨_, rfl, hidle⟩

theorem decode_spec {d : H264Decoder} (hd : PoolIdle d.bufferPool) (call : DecodeCall) :
    ∃ r, decode d call = some r ∧ PoolIdle r.1.bufferPool := by
  obtain ⟨r, htake, hidle⟩ := takeFrames_spec hd call
  unfold decode
  by_cases hinited : d.inited = false
  · rw [if_pos hinited]
    exact ⟨_, rfl, hd⟩
  rw [if_neg hinited]
  by_cases hnull : call.image.data = none ∧ call.image.size > 0
  · rw [if_pos hnull]
    exact ⟨_, rfl, hd⟩
  rw [if_neg hnull]
  by_cases hdropped : d.requireKeyframe = true ∧
      (call.image.frameType ≠ .key ∨ call.image.completeFrame = false)
  · rw [if_pos hdropped]
    exact ⟨_, rfl, hd⟩
  rw [if_neg hdropped]
  dsimp only
  by_cases hrefused : call.enqueue = .notAccepting ∧ call.image.frameType ≠ .key
  · rw [if_pos hrefused]
    exact ⟨_, rfl, hd⟩
  rw [if_neg hrefused]
  generalize (if call.enqueue = .notAccepting then
    (if call.flush = .ok then call.enqueueAgain else call.flush) else call.enqueue) = hr
  by_cases hok : hr = .ok
  · rw [if_pos hok, htake]
    exact ⟨_, rfl, hidle⟩
  · rw [if_neg hok]
    exact ⟨_, rfl, hd⟩

theorem decoderRelease_spec {d : H264Decoder} (hd : PoolIdle d.bufferPool) :
    ∃ d', decoderRelease d = some d' ∧ PoolIdle d'.bufferPool := by
  have hallowed : PoolCall.release.Allowed d.bufferPool := trivial
  obtain ⟨r, hr, hinv, hreleased⟩ := poolStep_spec hd.inv hallowed
  change r.1 = { d.bufferPool with heap := r.1.heap, buffers := [] } at hreleased
  refine ⟨_, by rw [decoderRelease, hr]; rfl, hinv, ?_, ?_, ?_⟩
  · dsimp only
    rw [hreleased]
    exact hd.held
  · dsimp only
    rw [hreleased]
    exact Nat.zero_le _
  · dsimp only
    rw [hreleased]
    exact hd.limit

theorem decoderStep_spec {d : H264Decoder} (hd : PoolIdle d.bufferPool) (call : DecoderCall) :
    ∃ r, decoderStep d call = some r ∧ PoolIdle r.1.bufferPool := by
  cases call with
  | decode call =>
    obtain ⟨r, hr, hidle⟩ := decode_spec hd call
    exact ⟨_, by rw [decoderStep, hr]; rfl, hidle⟩
  | release =>
    obtain ⟨d', hd', hidle⟩ := decoderRelease_spec hd
    exact ⟨_, by rw [decoderStep, hd']; rfl, hidle⟩

/-- In every run of calls, whatever the transform answers: no call uses a deleted buffer, nothing is
in use between two calls, the pool has at most one buffer, and taking frames out never ends because
there is none to be had. -/
theorem decoder_buffers (inited : Bool) (calls : List DecoderCall) :
    ∃ d, run decoderStep (h264DecoderInit inited) calls = some d ∧ d.bufferPool.held = [] ∧
      d.bufferPool.buffers.length ≤ 1 ∧
      ∀ hr frames, ∃ pool, flushFrames d.bufferPool hr frames = some (pool, hr) := by
  have hrun : ∀ (calls : List DecoderCall) (d : H264Decoder), PoolIdle d.bufferPool →
      ∃ d', run decoderStep d calls = some d' ∧ PoolIdle d'.bufferPool := by
    intro calls
    induction calls with
    | nil => exact fun d hd => ⟨d, rfl, hd⟩
    | cons call calls ih =>
      intro d hd
      obtain ⟨r, hr, hidle⟩ := decoderStep_spec hd call
      obtain ⟨d', hd', hidle'⟩ := ih r.1 hidle
      exact ⟨d', run_cons_eq_some.mpr ⟨r, hr, hd'⟩, hidle'⟩
  obtain ⟨d, hd, hidle⟩ := hrun calls (h264DecoderInit inited) poolIdle_init
  refine ⟨d, hd, hidle.held, hidle.single, fun hr frames => ?_⟩
  obtain ⟨pool, hflush, -⟩ := flushFrames_spec hidle hr frames
  exact ⟨pool, hflush⟩

/-! ## The images -/

/-- The image has its data; the transform takes it, or refuses it and takes a key frame after the
flush. -/
structure DecodeCall.Clean (call : DecodeCall) : Prop where
  present : ¬ (call.image.data = none ∧ call.image.size > 0)
  enqueue : call.enqueue = .ok ∨ call.enqueue = .notAccepting
  retry : call.enqueue = .notAccepting → call.image.frameType = .key →
    call.flush = .ok ∧ call.enqueueAgain = .ok

def DecoderCall.Clean : DecoderCall → Prop
  | .decode call => call.Clean
  | .release => True

/-- The calls end in a key frame that was taken and images that were all taken. -/
def SinceKeyFrame (before : List DecodedImage) : Prop :=
  ∃ past key since, before = past ++ key :: since ∧ key.taken = true ∧
    key.image.frameType = .key ∧ ∀ e ∈ since, e.taken = true

/-- An image that is taken is a key frame, or nothing was lost since one. -/
def Gapless (before : List DecodedImage) (e : DecodedImage) : Prop :=
  e.taken = true → e.image.frameType = .key ∨ SinceKeyFrame before

/-- What the calls leave behind: an image may go in without a key frame only if none is missing. -/
structure Following (events : List DecodedImage) (d : H264Decoder) : Prop where
  gapless : EachAfter Gapless events
  since : d.inited = true → d.requireKeyframe = false → SinceKeyFrame events

theorem following_lost {events : List DecodedImage} {d d' : H264Decoder} {e : DecodedImage}
    (h : Following events d) (he : e.taken = false)
    (hwaits : d'.inited = false ∨ d'.requireKeyframe = true) : Following (events ++ [e]) d' where
  gapless := eachAfter_snoc.mpr ⟨h.gapless, fun ht => absurd (he.symm.trans ht) Bool.false_ne_true⟩
  since hinited hrequire := by
    rcases hwaits with hfalse | htrue
    · exact absurd (hfalse.symm.trans hinited) Bool.false_ne_true
    · exact absurd (hrequire.symm.trans htrue) Bool.false_ne_true

theorem following_taken {events : List DecodedImage} {d d' : H264Decoder} {e : DecodedImage}
    (h : Following events d) (he : e.taken = true)
    (hkey : e.image.frameType = .key ∨ d.inited = true ∧ d.requireKeyframe = false) :
    Following (events ++ [e]) d' where
  gapless := eachAfter_snoc.mpr ⟨h.gapless, fun _ => hkey.imp id fun hd => h.since hd.1 hd.2⟩
  since _ _ := by
    rcases hkey with hkey | hkey
    · exact ⟨events, e, [], rfl, he, hkey, fun _ hx => absurd hx List.not_mem_nil⟩
    · obtain ⟨past, key, since, rfl, htaken, htype, hall⟩ := h.since hkey.1 hkey.2
      refine ⟨past, key, since ++ [e], by simp, htaken, htype, fun x hx => ?_⟩
      rcases List.mem_append.mp hx with hx | hx
      · exact hall x hx
      · rw [List.mem_singleton.mp hx]
        exact he

theorem following_decode {events : List DecodedImage} {d : H264Decoder} {call : DecodeCall}
    {r : H264Decoder × DecodedImage} (h : Following events d) (hclean : call.Clean)
    (hr : decode d call = some r) : Following (events ++ [r.2]) r.1 := by
  unfold decode at hr
  by_cases hinited : d.inited = false
  · rw [if_pos hinited] at hr
    cases hr
    exact following_lost h rfl (.inl hinited)
  rw [if_neg hinited, if_neg hclean.present] at hr
  by_cases hdropped : d.requireKeyframe = true ∧
      (call.image.frameType ≠ .key ∨ call.image.completeFrame = false)
  · rw [if_pos hdropped] at hr
    cases hr
    exact following_lost h rfl (.inr hdropped.1)
  rw [if_neg hdropped] at hr
  dsimp only at hr
  by_cases hrefused : call.enqueue = .notAccepting ∧ call.image.frameType ≠ .key
  · rw [if_pos hrefused] at hr
    cases hr
    exact following_lost h rfl (.inr rfl)
  rw [if_neg hrefused] at hr
  have hok : (if call.enqueue = .notAccepting then
      (if call.flush = .ok then call.enqueueAgain else call.flush) else call.enqueue) = .ok := by
    by_cases hnot : call.enqueue = .notAccepting
    · have hkey : call.image.frameType = .key := by
        by_contra hdelta
        exact hrefused ⟨hnot, hdelta⟩
      obtain ⟨hflush, hagain⟩ := hclean.retry hnot hkey
      rw [if_pos hnot, if_pos hflush, hagain]
    · rw [if_neg hnot]
      exact hclean.enqueue.resolve_right hnot
  rw [if_pos hok] at hr
  cases htake : takeFrames d.bufferPool call with
  | none =>
    rw [htake] at hr
    cases hr
  | some taken =>
    rw [htake] at hr
    cases hr
    refine following_taken h rfl ?_
    by_contra hno
    rw [not_or, not_and] at hno
    have hrequire := hno.2 (by simpa using hinited)
    exact hdropped ⟨by simpa using hrequire, .inl hno.1⟩

theorem following_step {events : List DecodedImage} {d : H264Decoder} {call : DecoderCall}
    {r : H264Decoder × List DecodedImage} (h : Following events d) (hclean : call.Clean)
    (hr : decoderStep d call = some r) : Following (events ++ r.2) r.1 := by
  cases call with
  | decode call =>
    obtain ⟨r', hr', hr⟩ := Option.bind_eq_some_iff.mp hr
    cases hr
    exact following_decode h hclean hr'
  | release =>
    obtain ⟨d', hd', hr⟩ := Option.bind_eq_some_iff.mp hr
    cases hr
    obtain ⟨pool, -, hd'⟩ := Option.bind_eq_some_iff.mp hd'
    cases hd'
    rw [List.append_nil]
    exact ⟨h.gapless, fun hinited => absurd hinited Bool.false_ne_true⟩

/-- As long as every image has its data and the transform fails only by not accepting, and then
takes a key frame, an image that is no key frame is put in only if every image since the last key
frame was. -/
theorem decoder_gapless {inited : Bool} {calls : List DecoderCall} {d : H264Decoder}
    (hclean : ∀ call ∈ calls, call.Clean)
    (hrun : run decoderStep (h264DecoderInit inited) calls = some d) :
    EachAfter Gapless (events decoderStep (h264DecoderInit inited) calls) ∧
      (d.inited = true → d.requireKeyframe = false →
        SinceKeyFrame (events decoderStep (h264DecoderInit inited) calls)) := by
  have hinit : Following [] (h264DecoderInit inited) :=
    ⟨eachAfter_nil _, fun _ h => absurd h Bool.noConfusion⟩
  have hfollowing : Following (events decoderStep (h264DecoderInit inited) calls) d :=
    invariant_history_along (I := fun _ => Following) (G := fun _ call => DecoderCall.Clean call)
      (fun _ _ _ _ _ h hg hr => following_step h hg hr) [] [] hinit
      ((along_label_iff hrun).mpr hclean) hrun
  exact ⟨hfollowing.gapless, hfollowing.since⟩

/-- A call that the transform answers without a frame. -/
def quietCall (frameType : VideoFrameType) (enqueue : HResult) : DecodeCall where
  image := ⟨some [0, 0, 0, 1], 4, frameType, true⟩
  enqueue := enqueue
  flush := .ok
  enqueueAgain := .ok
  frames := ⟨[], .needMoreInput⟩
  configured := false
  framesAgain := ⟨[], .needMoreInput⟩

/-- An image is refused, and those after it are dropped until the next key frame; another one is
refused and put in after the flush. The last image comes after `Release`. -/
theorem decoder_gapless_refused :
    let calls := [.decode (quietCall .key .ok), .decode (quietCall .delta .ok),
      .decode (quietCall .delta .notAccepting), .decode (quietCall .delta .ok),
      .decode (quietCall .key .notAccepting), .decode (quietCall .delta .ok), .release,
      .decode (quietCall .key .ok)]
    (events decoderStep (h264DecoderInit true) calls).map DecodedImage.taken =
        [true, true, false, false, true, true, false] ∧
      EachAfter Gapless (events decoderStep (h264DecoderInit true) calls) := by
  intro calls
  obtain ⟨d, hrun⟩ := Option.isSome_iff_exists.mp
    (show (run decoderStep (h264DecoderInit true) calls).isSome = true from rfl)
  refine ⟨rfl, (decoder_gapless ?_ hrun).1⟩
  intro call hcall
  simp only [calls, List.mem_cons, List.not_mem_nil, or_false] at hcall
  rcases hcall with rfl | rfl | rfl | rfl | rfl | rfl | rfl | rfl <;>
    first
      | trivial
      | exact ⟨by simp [quietCall], by simp [quietCall], fun _ _ => ⟨rfl, rfl⟩⟩

end WinAirPlay
