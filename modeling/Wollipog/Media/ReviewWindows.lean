import Mathlib
/-!
# ReviewWindows — the delivery windows of a paced video review

The plan is cut greedily from a frame manifest; each window repeats the last frame of the one before it, where that
leaves progress.
-/
namespace Wollipog.Media

structure PacedVideoReviewWindowLimits where
  revision : ℕ
  frames : ℕ
  base64Bytes : ℕ
  overlapFrames : ℕ
  notesChars : ℕ
  maxWindows : ℕ
  notesAttempts : ℕ

def PACED_VIDEO_REVIEW_WINDOW_LIMITS : PacedVideoReviewWindowLimits where
  revision := 1
  frames := 60
  base64Bytes := 24 * 1024 * 1024
  overlapFrames := 1
  notesChars := 6000
  maxWindows := 32
  notesAttempts := 2

/-- A frame of a manifest; a size that is no integer is refused like one that is not positive. -/
structure Frame where
  index : ℤ
  sizeBytes : ℤ

structure PacedVideoReviewWindow where
  index : ℕ
  firstIndex : ℕ
  endIndex : ℕ
  final : Bool

structure PacedVideoReviewWindowPlan where
  limits : PacedVideoReviewWindowLimits
  frameCount : ℕ
  windows : List PacedVideoReviewWindow

inductive PlanFailure
  | manifest
  | tooManyWindows

def base64Length (bytes : ℕ) : ℕ := (bytes + 2) / 3 * 4

namespace Frame

def base64 (frame : Frame) : ℕ := base64Length frame.sizeBytes.toNat

def complete (frame : Frame) (index : ℕ) : Bool :=
  decide (frame.index = index) && decide (0 < frame.sizeBytes) && decide (frame.sizeBytes ≤ 9007199254740991) &&
    decide (frame.base64 ≤ PACED_VIDEO_REVIEW_WINDOW_LIMITS.base64Bytes)

end Frame

def completeManifest (frames : List Frame) : Bool :=
  !frames.isEmpty && decide (frames.length ≤ 900) && frames.zipIdx.all (fun f => f.1.complete f.2)

/-- The inner loop, over the frames from `stop` on; `bytes` are those of the window so far. -/
def windowEnd (first : ℕ) : List Frame → ℕ → ℕ → ℕ
  | [], stop, _ => stop
  | frame :: rest, stop, bytes =>
    if stop - first < PACED_VIDEO_REVIEW_WINDOW_LIMITS.frames then
      if first < stop ∧ PACED_VIDEO_REVIEW_WINDOW_LIMITS.base64Bytes < bytes + frame.base64 then stop
      else windowEnd first rest (stop + 1) (bytes + frame.base64)
    else stop

def nextFirst (first stop : ℕ) : ℕ :=
  if first < stop - PACED_VIDEO_REVIEW_WINDOW_LIMITS.overlapFrames then stop - PACED_VIDEO_REVIEW_WINDOW_LIMITS.overlapFrames
  else stop

/-- The outer loop; `none` when the fuel runs out. -/
def windowsFrom (frames : List Frame) : ℕ → ℕ → List PacedVideoReviewWindow →
    Option (Except PlanFailure (List PacedVideoReviewWindow))
  | 0, _, _ => none
  | n + 1, first, windows =>
    let stop := windowEnd first (frames.drop first) first 0
    let pushed := windows ++ [⟨windows.length, first, stop, decide (stop = frames.length)⟩]
    if PACED_VIDEO_REVIEW_WINDOW_LIMITS.maxWindows < pushed.length then some (.error .tooManyWindows)
    else if stop = frames.length then some (.ok pushed)
    else windowsFrom frames n (nextFirst first stop) pushed

def pacedVideoReviewWindowPlan (frames : List Frame) : Option (Except PlanFailure PacedVideoReviewWindowPlan) :=
  if completeManifest frames then
    (windowsFrom frames frames.length 0 []).map (fun r => r.map (fun windows =>
      ⟨PACED_VIDEO_REVIEW_WINDOW_LIMITS, frames.length, windows⟩))
  else some (.error .manifest)

/-- The base64 bytes of the frames from `first` to before `stop`. -/
def span (frames : List Frame) (first stop : ℕ) : ℕ := (((frames.drop first).take (stop - first)).map Frame.base64).sum

structure Fits (frames : List Frame) (first stop : ℕ) : Prop where
  progress : first < stop
  inside : stop ≤ frames.length
  short : stop - first ≤ PACED_VIDEO_REVIEW_WINDOW_LIMITS.frames
  light : span frames first stop ≤ PACED_VIDEO_REVIEW_WINDOW_LIMITS.base64Bytes
  full : ∀ h : stop < frames.length, stop - first = PACED_VIDEO_REVIEW_WINDOW_LIMITS.frames ∨
    PACED_VIDEO_REVIEW_WINDOW_LIMITS.base64Bytes < span frames first stop + frames[stop].base64

section

variable {frames : List Frame}

theorem span_succ {first stop : ℕ} (hle : first ≤ stop) (h : stop < frames.length) :
    span frames first (stop + 1) = span frames first stop + frames[stop].base64 := by
  have hcount : stop + 1 - first = stop - first + 1 := by omega
  have hbound : stop - first < (frames.drop first).length := by
    rw [List.length_drop]
    omega
  have hget : (frames.drop first)[stop - first] = frames[stop] := by
    rw [List.getElem_drop]
    congr 1
    omega
  rw [span, hcount, List.take_succ_eq_append_getElem hbound, hget, List.map_append, List.sum_append, List.map_singleton,
    List.sum_singleton]
  rfl

theorem fits_windowEnd (hlight : ∀ f ∈ frames, f.base64 ≤ PACED_VIDEO_REVIEW_WINDOW_LIMITS.base64Bytes) {first : ℕ}
    (hfirst : first < frames.length) : ∀ (rest : List Frame) (stop : ℕ), rest = frames.drop stop → first ≤ stop →
      stop ≤ frames.length → stop - first ≤ PACED_VIDEO_REVIEW_WINDOW_LIMITS.frames →
      span frames first stop ≤ PACED_VIDEO_REVIEW_WINDOW_LIMITS.base64Bytes →
      Fits frames first (windowEnd first rest stop (span frames first stop))
  | [], stop, hrest, hle, hinside, hshort, hspan => by
    have hend : frames.length ≤ stop := List.drop_eq_nil_iff.1 hrest.symm
    show Fits frames first stop
    exact ⟨by omega, hinside, hshort, hspan, fun h => absurd h (by omega)⟩
  | frame :: rest, stop, hrest, hle, hinside, hshort, hspan => by
    have hstop : stop < frames.length := by
      by_contra hnot
      rw [List.drop_eq_nil_of_le (by omega)] at hrest
      cases hrest
    rw [List.drop_eq_getElem_cons hstop] at hrest
    cases hrest
    unfold windowEnd
    split
    · rename_i hroom
      split
      · rename_i hover
        exact ⟨hover.1, hinside, hshort, hspan, fun _ => .inr hover.2⟩
      · rename_i hroomy
        have hshorter : stop + 1 - first ≤ PACED_VIDEO_REVIEW_WINDOW_LIMITS.frames := by omega
        have hnext : span frames first (stop + 1) ≤ PACED_VIDEO_REVIEW_WINDOW_LIMITS.base64Bytes := by
          rw [span_succ hle hstop]
          by_cases hone : first < stop
          · exact Nat.not_lt.1 fun hover => hroomy ⟨hone, hover⟩
          · -- the first frame of a window is never refused; the manifest's check bounds it
            obtain rfl : first = stop := by omega
            have hempty : span frames first first = 0 := by simp [span]
            rw [hempty, Nat.zero_add]
            exact hlight _ (List.getElem_mem hstop)
        rw [← span_succ hle hstop]
        exact fits_windowEnd hlight hfirst _ (stop + 1) rfl (by omega) hstop hshorter hnext
    · rename_i hfull
      exact ⟨by unfold PACED_VIDEO_REVIEW_WINDOW_LIMITS at hfull; dsimp only at hfull; omega, hinside, hshort, hspan,
        fun _ => .inl (by omega)⟩

/-- **The windows the loop builds** from a first frame, numbered from `n`. -/
inductive Tiled (frames : List Frame) : ℕ → ℕ → List PacedVideoReviewWindow → Prop
  | last {n first : ℕ} : Fits frames first frames.length → Tiled frames n first [⟨n, first, frames.length, true⟩]
  | next {n first stop : ℕ} {rest : List PacedVideoReviewWindow} : Fits frames first stop → stop < frames.length →
      Tiled frames (n + 1) (nextFirst first stop) rest → Tiled frames n first (⟨n, first, stop, false⟩ :: rest)

theorem nextFirst_cases {first stop : ℕ} (h : first < stop) :
    nextFirst first stop + 1 = stop ∧ first < nextFirst first stop ∨ nextFirst first stop = stop ∧ stop = first + 1 := by
  unfold nextFirst PACED_VIDEO_REVIEW_WINDOW_LIMITS
  dsimp only
  split
  · left
    omega
  · right
    omega

theorem windowsFrom_tiled (hlight : ∀ f ∈ frames, f.base64 ≤ PACED_VIDEO_REVIEW_WINDOW_LIMITS.base64Bytes) :
    ∀ (fuel first : ℕ) (windows : List PacedVideoReviewWindow), first < frames.length → frames.length - first ≤ fuel →
      ∃ outcome, windowsFrom frames fuel first windows = some outcome ∧
        ∀ all, outcome = .ok all → ∃ rest, all = windows ++ rest ∧ Tiled frames windows.length first rest
  | 0, first, windows, hfirst, hfuel => absurd hfuel (by omega)
  | fuel + 1, first, windows, hfirst, hfuel => by
    have hfits : Fits frames first (windowEnd first (frames.drop first) first 0) := by
      have hempty : span frames first first = 0 := by simp [span]
      rw [← hempty]
      exact fits_windowEnd hlight hfirst _ first rfl (Nat.le_refl _) hfirst.le (by omega) (by omega)
    unfold windowsFrom
    dsimp only
    generalize windowEnd first (frames.drop first) first 0 = stop at hfits ⊢
    have hprogress := hfits.progress
    have hinside := hfits.inside
    split
    · exact ⟨_, rfl, fun all hall => by cases hall⟩
    split
    · rename_i hend
      subst hend
      refine ⟨_, rfl, fun all hall => ?_⟩
      cases hall
      rw [decide_eq_true rfl]
      exact ⟨_, rfl, .last hfits⟩
    · rename_i hmore
      have hnext := nextFirst_cases hprogress
      obtain ⟨outcome, hrun, htiled⟩ := windowsFrom_tiled hlight fuel (nextFirst first stop)
        (windows ++ [⟨windows.length, first, stop, decide (stop = frames.length)⟩]) (by omega) (by omega)
      refine ⟨outcome, hrun, fun all hall => ?_⟩
      obtain ⟨rest, rfl, hrest⟩ := htiled all hall
      rw [List.length_append, List.length_singleton] at hrest
      refine ⟨⟨windows.length, first, stop, decide (stop = frames.length)⟩ :: rest, List.append_assoc .., ?_⟩
      rw [decide_eq_false hmore]
      exact .next hfits (by omega) hrest

namespace Tiled

variable {n first : ℕ} {windows : List PacedVideoReviewWindow}

theorem head (h : Tiled frames n first windows) : ∃ w rest, windows = w :: rest ∧ w.firstIndex = first ∧ w.index = n := by
  cases h with
  | last _ => exact ⟨_, _, rfl, rfl, rfl⟩
  | next _ _ _ => exact ⟨_, _, rfl, rfl, rfl⟩

theorem fits (h : Tiled frames n first windows) : ∀ w ∈ windows, Fits frames w.firstIndex w.endIndex := by
  induction h with
  | last hfits =>
    intro w hw
    rw [List.mem_singleton.1 hw]
    exact hfits
  | next hfits _ _ ih =>
    intro w hw
    rcases List.mem_cons.1 hw with rfl | hw
    · exact hfits
    · exact ih w hw

def Consecutive (a b : PacedVideoReviewWindow) : Prop :=
  b.index = a.index + 1 ∧ (b.firstIndex = a.endIndex ∨ b.firstIndex + 1 = a.endIndex)

theorem consecutive (h : Tiled frames n first windows) : windows.IsChain Consecutive := by
  induction h with
  | last _ => exact .singleton _
  | next hfits _ hrest ih =>
    obtain ⟨w, rest, rfl, hfirst, hindex⟩ := hrest.head
    refine .cons_cons ⟨hindex, ?_⟩ ih
    rw [hfirst]
    exact (nextFirst_cases hfits.progress).elim (fun hover => .inr hover.1) (fun hone => .inl hone.1)

theorem final (h : Tiled frames n first windows) :
    ∃ init w, windows = init ++ [w] ∧ w.final = true ∧ ∀ v ∈ init, v.final = false := by
  induction h with
  | last _ => exact ⟨[], _, rfl, rfl, fun v hv => by cases hv⟩
  | @next n first stop rest _ _ _ ih =>
    obtain ⟨init, w, rfl, hw, hinit⟩ := ih
    refine ⟨⟨n, first, stop, false⟩ :: init, w, rfl, hw, fun v hv => ?_⟩
    rcases List.mem_cons.1 hv with rfl | hv
    · rfl
    · exact hinit v hv

theorem covers (h : Tiled frames n first windows) {i : ℕ} (hi : first ≤ i) (hin : i < frames.length) :
    ∃ w ∈ windows, w.firstIndex ≤ i ∧ i < w.endIndex := by
  induction h with
  | last _ => exact ⟨_, List.mem_singleton_self _, hi, hin⟩
  | @next n first stop rest hfits _ _ ih =>
    have hnext := nextFirst_cases hfits.progress
    by_cases hbefore : i < stop
    · exact ⟨_, List.mem_cons_self, hi, hbefore⟩
    · obtain ⟨w, hw, hwindow⟩ := ih (by omega)
      exact ⟨w, List.mem_cons_of_mem _ hw, hwindow⟩

theorem shares (h : Tiled frames n first windows) {i : ℕ} (hi : first ≤ i) (hin : i + 1 < frames.length)
    (hfit : frames[i].base64 + frames[i + 1].base64 ≤ PACED_VIDEO_REVIEW_WINDOW_LIMITS.base64Bytes) :
    ∃ w ∈ windows, w.firstIndex ≤ i ∧ i + 1 < w.endIndex := by
  induction h with
  | last _ => exact ⟨_, List.mem_singleton_self _, hi, hin⟩
  | @next n first stop rest hfits hmore _ ih =>
    by_cases hinside : i + 1 < stop
    · exact ⟨_, List.mem_cons_self, hi, hinside⟩
    have hnext : nextFirst first stop ≤ i := by
      rcases nextFirst_cases hfits.progress with ⟨hover, -⟩ | ⟨hnone, hone⟩
      · omega
      · by_contra hlater
        obtain rfl : i = first := by omega
        subst hone
        have hspan : span frames i (i + 1) = frames[i].base64 := by
          rw [span_succ (Nat.le_refl i) (by omega)]
          simp [span]
        rcases hfits.full hmore with hframes | hbytes
        · unfold PACED_VIDEO_REVIEW_WINDOW_LIMITS at hframes
          dsimp only at hframes
          omega
        · rw [hspan] at hbytes
          omega
    obtain ⟨w, hw, hwindow⟩ := ih hnext hfit
    exact ⟨w, List.mem_cons_of_mem _ hw, hwindow⟩

end Tiled

theorem completeManifest_light (h : completeManifest frames = true) :
    0 < frames.length ∧ ∀ f ∈ frames, f.base64 ≤ PACED_VIDEO_REVIEW_WINDOW_LIMITS.base64Bytes := by
  unfold completeManifest at h
  rw [Bool.and_eq_true, Bool.and_eq_true, List.all_eq_true] at h
  obtain ⟨⟨hne, -⟩, hall⟩ := h
  refine ⟨?_, fun f hf => ?_⟩
  · cases frames with
    | nil => cases hne
    | cons f fs => exact Nat.succ_pos _
  · obtain ⟨i, hi, rfl⟩ := List.getElem_of_mem hf
    have hcomplete := hall (frames[i], i) (List.mem_zipIdx_iff_getElem?.2 (List.getElem?_eq_getElem hi))
    unfold Frame.complete at hcomplete
    rw [Bool.and_eq_true, decide_eq_true_iff (p := Frame.base64 _ ≤ _)] at hcomplete
    exact hcomplete.2

end

/-- **The plan covers every frame within the limits**: consecutive windows without a gap, one of them around every two
frames that fit. -/
theorem plan_covers (frames : List Frame) : ∃ outcome, pacedVideoReviewWindowPlan frames = some outcome ∧
    ∀ plan, outcome = .ok plan →
      (∀ w ∈ plan.windows, w.firstIndex < w.endIndex ∧ w.endIndex ≤ frames.length ∧ w.endIndex - w.firstIndex ≤ 60 ∧
        span frames w.firstIndex w.endIndex ≤ 24 * 1024 * 1024) ∧
      (∃ w rest, plan.windows = w :: rest ∧ w.firstIndex = 0 ∧ w.index = 0) ∧
      plan.windows.IsChain Tiled.Consecutive ∧
      (∀ i, i < frames.length → ∃ w ∈ plan.windows, w.firstIndex ≤ i ∧ i < w.endIndex) ∧
      (∃ init w, plan.windows = init ++ [w] ∧ w.final = true ∧ ∀ v ∈ init, v.final = false) ∧
      ∀ i (h : i + 1 < frames.length),
        frames[i].base64 + frames[i + 1].base64 ≤ 24 * 1024 * 1024 →
        ∃ w ∈ plan.windows, w.firstIndex ≤ i ∧ i + 1 < w.endIndex := by
  unfold pacedVideoReviewWindowPlan
  split
  · rename_i hcomplete
    obtain ⟨hne, hlight⟩ := completeManifest_light hcomplete
    obtain ⟨outcome, hrun, htiled⟩ := windowsFrom_tiled hlight frames.length 0 [] hne (Nat.sub_le _ _)
    rw [hrun]
    refine ⟨_, rfl, fun plan hplan => ?_⟩
    cases outcome with
    | error failure => cases hplan
    | ok all =>
      obtain rfl := Except.ok.inj hplan
      obtain ⟨rest, rfl, hrest⟩ := htiled all rfl
      refine ⟨fun w hw => ?_, hrest.head, hrest.consecutive, fun i hi => hrest.covers (Nat.zero_le i) hi, hrest.final,
        fun i h hfit => hrest.shares (Nat.zero_le i) h hfit⟩
      have hfits := hrest.fits w hw
      exact ⟨hfits.progress, hfits.inside, hfits.short, hfits.light⟩
  · exact ⟨_, rfl, fun plan hplan => by cases hplan⟩

theorem plan_covers_two : ∃ plan, pacedVideoReviewWindowPlan [⟨0, 3⟩, ⟨1, 6⟩] = some (.ok plan) ∧
      ∃ w ∈ plan.windows, w.firstIndex ≤ 0 ∧ 0 + 1 < w.endIndex := by
  obtain ⟨outcome, hrun, hplan⟩ := plan_covers [⟨0, 3⟩, ⟨1, 6⟩]
  have hok : pacedVideoReviewWindowPlan [⟨0, 3⟩, ⟨1, 6⟩] =
    some (.ok ⟨PACED_VIDEO_REVIEW_WINDOW_LIMITS, 2, [⟨0, 0, 2, true⟩]⟩) := rfl
  rw [hok] at hrun
  obtain rfl := Option.some.inj hrun
  exact ⟨_, hok, (hplan _ rfl).2.2.2.2.2 0 (by decide) (by decide)⟩

end Wollipog.Media
