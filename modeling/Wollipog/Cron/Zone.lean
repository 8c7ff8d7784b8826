import Wollipog.Lib.Civil
/-!
# Zone — the offsets of a time zone, and the epoch of a wall-clock minute

A day's model holds the offsets of the three days around it, found by hourly probes and a search to the minute.
-/
namespace Wollipog.Cron

open Civil

structure Zone where
  offset : Int → Int
  /-- Offsets are whole minutes below a day. -/
  aligned : ∀ e, minuteMs ∣ offset e
  below : ∀ e, -dayMs < offset e ∧ offset e < dayMs
  /-- In three days the offset changes at most once, at a minute. -/
  regimes : ∀ w, ∃ t, minuteMs ∣ t ∧ (∀ e, w ≤ e → e < t → offset e = offset w) ∧
    ∀ e, t ≤ e → e ≤ w + 3 * dayMs → offset e = offset (w + 3 * dayMs)
  /-- The local date never goes back. -/
  dates : ∀ e e', e ≤ e' → (e + offset e) / dayMs ≤ (e' + offset e') / dayMs

structure LocalParts where
  year : Int
  month : Int
  day : Int
  hour : Int
  minute : Int

def partsOf (wall : Int) : LocalParts :=
  ⟨getUTCFullYear wall, getUTCMonth wall + 1, getUTCDate wall, getUTCHours wall, getUTCMinutes wall⟩

def localParts (epoch : Int) (zone : Zone) : LocalParts := partsOf (epoch + zone.offset epoch)

def localMinute (parts : LocalParts) : Int := dateUTC parts.year (parts.month - 1) parts.day parts.hour parts.minute

structure OffsetSegment where
  start : Int
  end_ : Int
  offset : Int
deriving DecidableEq

def offsetWindowMs : Int := 24 * hourMs

def offsetAt (epoch : Int) (zone : Zone) : Int := localMinute (localParts epoch zone) - epoch

def midpoint (low high : Int) : Int := (low + (high - low) / 2) / minuteMs * minuteMs

/-- The search for a transition; `fuel` bounds its steps. -/
def transitionMinute (zone : Zone) (startOffset : Int) : Nat → Int → Int → Int
  | 0, _, high => high
  | fuel + 1, low, high =>
    if minuteMs < high - low then
      if offsetAt (midpoint low high) zone = startOffset then transitionMinute zone startOffset fuel (midpoint low high) high
      else transitionMinute zone startOffset fuel low (midpoint low high)
    else high

/-- The hourly probes that are still to make, `n` of them. -/
def probeHours (zone : Zone) (end_ : Int) : Nat → Int → Int → Int → List OffsetSegment
  | 0, _, segmentStart, currentOffset => [⟨segmentStart, end_, currentOffset⟩]
  | n + 1, probe, segmentStart, currentOffset =>
    if offsetAt probe zone = currentOffset then probeHours zone end_ n (probe + hourMs) segmentStart currentOffset
    else ⟨segmentStart, transitionMinute zone currentOffset 60 (probe - hourMs) probe, currentOffset⟩ ::
      probeHours zone end_ n (probe + hourMs) (transitionMinute zone currentOffset 60 (probe - hourMs) probe) (offsetAt probe zone)

/-- The model of the day that begins at `localDay`; its probes reach to the end of the window. -/
def dayModel (localDay : Int) (zone : Zone) : List OffsetSegment :=
  probeHours zone (localDay + 24 * hourMs + offsetWindowMs) ((24 * hourMs + 2 * offsetWindowMs) / hourMs).toNat
    (localDay - offsetWindowMs + hourMs) (localDay - offsetWindowMs) (offsetAt (localDay - offsetWindowMs) zone)

def offsetModel (year month day : Int) (zone : Zone) : List OffsetSegment := dayModel (dateUTC year (month - 1) day 0 0) zone

def lookup (model : List OffsetSegment) (guess : Int) : Option Int :=
  (model.find? (fun candidate => decide (candidate.start ≤ guess) && decide (guess < candidate.end_))).map OffsetSegment.offset

def converge (model : List OffsetSegment) (desired : Int) : Nat → Int → Option Int
  | 0, guess => (lookup model guess).bind (fun offset => if guess + offset = desired then some guess else none)
  | attempts + 1, guess => (lookup model guess).bind (fun offset =>
      if desired - (guess + offset) = 0 then some guess else converge model desired attempts (guess + (desired - (guess + offset))))

def localEpoch (parts : LocalParts) (model : List OffsetSegment) : Option Int :=
  converge model (localMinute parts) 4 (localMinute parts)

section

variable {zone : Zone}

variable {e end_ guess high low probe segmentStart : Int}

theorem offsetAt_eq (haligned : minuteMs ∣ e) (hmodern : -364 * dayMs ≤ e) : offsetAt e zone = zone.offset e := by
  have hbelow := zone.below e
  have hzone := zone.aligned e
  unfold offsetAt localMinute localParts partsOf
  simp only [Int.add_sub_cancel]
  rw [dateUTC_fields (by unfold dayMs at *; omega)]
  unfold minuteMs at *
  omega

theorem midpoint_between (hlow : minuteMs ∣ low) (hhigh : minuteMs ∣ high) (h : minuteMs < high - low) :
    minuteMs ∣ midpoint low high ∧ low + minuteMs ≤ midpoint low high ∧ midpoint low high + minuteMs ≤ high := by
  unfold midpoint minuteMs at *
  omega

/-- **The search finds the transition** within an hour. -/
theorem transitionMinute_eq {t a : Int} (ht : minuteMs ∣ t) (fuel : Nat) (hlow : minuteMs ∣ low)
    (hhigh : minuteMs ∣ high) (hlt : low < t) (hle : t ≤ high) (hfuel : high - low ≤ fuel * minuteMs + minuteMs)
    (hbefore : ∀ e, minuteMs ∣ e → low ≤ e → e < t → offsetAt e zone = a)
    (hafter : ∀ e, minuteMs ∣ e → t ≤ e → e ≤ high → offsetAt e zone ≠ a) : transitionMinute zone a fuel low high = t := by
  induction fuel generalizing low high with
  | zero =>
    unfold transitionMinute minuteMs at *
    omega
  | succ fuel ih =>
    rw [transitionMinute]
    split
    · rename_i hwide
      obtain ⟨haligned, hstep, hstep'⟩ := midpoint_between hlow hhigh hwide
      have hcast : ((fuel + 1 : Nat) : Int) * minuteMs = fuel * minuteMs + minuteMs := by
        rw [Int.natCast_add, Int.add_mul]
        rfl
      rw [hcast] at hfuel
      split
      · rename_i hsame
        have hmid : midpoint low high < t := by
          by_contra hnot
          exact hafter _ haligned (Int.not_lt.1 hnot) (by unfold minuteMs at *; omega) hsame
        refine ih haligned hhigh hmid hle (by omega) ?_ hafter
        intro e he hle' hlt'
        exact hbefore e he (by unfold minuteMs at *; omega) hlt'
      · rename_i hdiff
        have hmid : t ≤ midpoint low high := by
          by_contra hnot
          exact hdiff (hbefore _ haligned (by unfold minuteMs at *; omega) (Int.not_le.1 hnot))
        refine ih hlow haligned hlt hmid (by omega) hbefore ?_
        intro e he hle' hhigh'
        exact hafter e he hle' (by unfold minuteMs at *; omega)
    · rename_i hnarrow
      unfold minuteMs at *
      omega

theorem probeHours_steady {b : Int} (n : Nat) (haligned : minuteMs ∣ probe)
    (hsteady : ∀ e, minuteMs ∣ e → probe ≤ e → e + hourMs ≤ probe + n * hourMs → offsetAt e zone = b) :
    probeHours zone end_ n probe segmentStart b = [⟨segmentStart, end_, b⟩] := by
  induction n generalizing probe with
  | zero => rfl
  | succ n ih =>
    have hcast : ((n + 1 : Nat) : Int) * hourMs = n * hourMs + hourMs := by
      rw [Int.natCast_add, Int.add_mul]
      rfl
    rw [hcast] at hsteady
    have hn : 0 ≤ (n : Int) * hourMs := Int.mul_nonneg (Int.natCast_nonneg n) (by decide)
    have hhour : (0 : Int) < hourMs := by decide
    rw [probeHours, if_pos (hsteady probe haligned (Int.le_refl _) (by omega))]
    apply ih
    · unfold minuteMs hourMs at *
      omega
    · intro e he hle hlt
      exact hsteady e he (by omega) (by omega)

theorem probeHours_turn {t a b : Int} (ht : minuteMs ∣ t) (hne : a ≠ b) (n : Nat)
    (haligned : minuteMs ∣ probe) (hlow : probe - hourMs < t) (hhigh : t + hourMs ≤ probe + n * hourMs)
    (hbefore : ∀ e, minuteMs ∣ e → probe - hourMs ≤ e → e < t → offsetAt e zone = a)
    (hafter : ∀ e, minuteMs ∣ e → t ≤ e → e + hourMs ≤ probe + n * hourMs → offsetAt e zone = b) :
    probeHours zone end_ n probe segmentStart a = [⟨segmentStart, t, a⟩, ⟨t, end_, b⟩] := by
  induction n generalizing probe with
  | zero =>
    unfold hourMs at *
    omega
  | succ n ih =>
    have hcast : ((n + 1 : Nat) : Int) * hourMs = n * hourMs + hourMs := by
      rw [Int.natCast_add, Int.add_mul]
      rfl
    rw [hcast] at hhigh hafter
    have hn : 0 ≤ (n : Int) * hourMs := Int.mul_nonneg (Int.natCast_nonneg n) (by decide)
    have hhour : (0 : Int) < hourMs := by decide
    have hback : minuteMs ∣ probe - hourMs := by
      unfold minuteMs hourMs at *
      omega
    have hnext : minuteMs ∣ probe + hourMs := by
      unfold minuteMs hourMs at *
      omega
    rw [probeHours]
    by_cases hprobe : t ≤ probe
    · have hb : offsetAt probe zone = b := hafter probe haligned hprobe (by omega)
      rw [hb, if_neg (Ne.symm hne)]
      have htransition : transitionMinute zone a 60 (probe - hourMs) probe = t := by
        apply transitionMinute_eq ht 60 hback haligned hlow hprobe
        · unfold minuteMs hourMs
          omega
        · exact hbefore
        · intro e he hle hle'
          rw [hafter e he hle (by omega)]
          exact Ne.symm hne
      rw [htransition, probeHours_steady n hnext (fun e he hle hlt => hafter e he (by omega) (by omega))]
    · have ha : offsetAt probe zone = a := hbefore probe haligned (by omega) (Int.not_le.1 hprobe)
      rw [if_pos ha]
      apply ih hnext (by omega) (by omega)
      · intro e he hle hlt
        exact hbefore e he (by omega) hlt
      · intro e he hle hlt
        exact hafter e he hle (by omega)

/-- The offsets around a day, `a` before the minute `t` and `b` from it on. -/
structure Around (zone : Zone) (localDay t a b : Int) : Prop where
  minute : minuteMs ∣ t
  first : zone.offset (localDay - dayMs) = a
  last : zone.offset (localDay + 2 * dayMs) = b
  before : ∀ e, localDay - dayMs ≤ e → e < t → zone.offset e = a
  after : ∀ e, t ≤ e → e ≤ localDay + 2 * dayMs → zone.offset e = b
  within : a ≠ b → localDay - dayMs < t ∧ t ≤ localDay + 2 * dayMs

theorem around (zone : Zone) (localDay : Int) : ∃ t a b, Around zone localDay t a b := by
  obtain ⟨t, ht, hbefore, hafter⟩ := zone.regimes (localDay - dayMs)
  have hend : localDay - dayMs + 3 * dayMs = localDay + 2 * dayMs := by omega
  rw [hend] at hafter
  refine ⟨t, zone.offset (localDay - dayMs), zone.offset (localDay + 2 * dayMs), ht, rfl, rfl, hbefore, hafter, fun hne => ⟨?_, ?_⟩⟩
  · by_contra hnot
    exact hne (hafter _ (Int.not_lt.1 hnot) (by unfold dayMs; omega))
  · by_contra hnot
    exact hne.symm (hbefore _ (by unfold dayMs; omega) (Int.not_le.1 hnot))

variable {localDay t a b : Int}

/-- **The model holds the offsets around its day.** -/
theorem Around.dayModel (h : Around zone localDay t a b) (haligned : minuteMs ∣ localDay) (hmodern : -dayMs ≤ localDay) :
    dayModel localDay zone = if a = b then [⟨localDay - dayMs, localDay + 2 * dayMs, a⟩]
      else [⟨localDay - dayMs, t, a⟩, ⟨t, localDay + 2 * dayMs, b⟩] := by
  have hcount : ((24 * hourMs + 2 * offsetWindowMs) / hourMs).toNat = 72 := by decide
  have hwindow : offsetWindowMs = dayMs := by decide
  have hend : localDay + 24 * hourMs + offsetWindowMs = localDay + 2 * dayMs := by
    unfold hourMs offsetWindowMs dayMs hourMs
    omega
  have hspan : localDay - dayMs + hourMs + (72 : Nat) * hourMs = localDay + 2 * dayMs + hourMs := by
    unfold dayMs hourMs
    omega
  have hfirst : minuteMs ∣ localDay - dayMs := by
    unfold minuteMs dayMs at *
    omega
  have hprobe : minuteMs ∣ localDay - dayMs + hourMs := by
    unfold minuteMs dayMs hourMs at *
    omega
  have hday : -364 * dayMs ≤ localDay - dayMs := by
    unfold dayMs at *
    omega
  have hbefore : ∀ e, minuteMs ∣ e → localDay - dayMs ≤ e → e < t → offsetAt e zone = a := by
    intro e he hle hlt
    rw [offsetAt_eq he (by omega), h.before e hle hlt]
  -- the last probe is at the end of the window, so a minute behind it is never asked for
  have hafter : ∀ e, minuteMs ∣ e → localDay - dayMs ≤ e → t ≤ e → e ≤ localDay + 2 * dayMs → offsetAt e zone = b := by
    intro e he hlow hle hhigh
    rw [offsetAt_eq he (by omega), h.after e hle hhigh]
  unfold Cron.dayModel
  rw [hcount, hend, hwindow]
  by_cases hab : a = b
  · subst hab
    have hsteady : ∀ e, minuteMs ∣ e → localDay - dayMs ≤ e → e ≤ localDay + 2 * dayMs → offsetAt e zone = a := by
      intro e he hlow hhigh
      by_cases hlt : e < t
      · exact hbefore e he hlow hlt
      · exact hafter e he hlow (Int.not_lt.1 hlt) hhigh
    have hhour : (0 : Int) < hourMs := by decide
    rw [if_pos rfl, hsteady _ hfirst (Int.le_refl _) (by unfold dayMs; omega)]
    exact probeHours_steady 72 hprobe (fun e he hlow hhigh => hsteady e he (by omega) (by omega))
  · obtain ⟨hlow, hhigh⟩ := h.within hab
    rw [if_neg hab, hbefore _ hfirst (Int.le_refl _) hlow]
    apply probeHours_turn h.minute hab 72 hprobe (by omega) (by omega)
    · intro e he hle hlt
      exact hbefore e he (by omega) hlt
    · intro e he hle hle'
      exact hafter e he (by omega) hle (by omega)

/-- **The model answers with the zone's offset** throughout its window. -/
theorem Around.lookup (h : Around zone localDay t a b) (haligned : minuteMs ∣ localDay) (hmodern : -dayMs ≤ localDay)
    (hlow : localDay - dayMs ≤ guess) (hhigh : guess < localDay + 2 * dayMs) :
    Cron.lookup (Cron.dayModel localDay zone) guess = some (zone.offset guess) := by
  rw [h.dayModel haligned hmodern]
  unfold Cron.lookup
  by_cases hab : a = b
  · subst hab
    have hoffset : zone.offset guess = a := by
      by_cases hlt : guess < t
      · exact h.before guess hlow hlt
      · exact h.after guess (Int.not_lt.1 hlt) (by omega)
    rw [if_pos rfl, List.find?_cons_of_pos (by simp [hlow, hhigh]), hoffset]
    rfl
  · rw [if_neg hab]
    by_cases hlt : guess < t
    · rw [List.find?_cons_of_pos (by simp [hlow, hlt]), h.before guess hlow hlt]
      rfl
    · rw [List.find?_cons_of_neg (by simp [hlt]), List.find?_cons_of_pos (by simp [Int.not_lt.1 hlt, hhigh]),
        h.after guess (Int.not_lt.1 hlt) (by omega)]
      rfl

/-! ## Resolving a wall-clock minute -/

def Shows (zone : Zone) (wall e : Int) : Prop := e + zone.offset e = wall

instance (zone : Zone) (wall e : Int) : Decidable (Shows zone wall e) := inferInstanceAs (Decidable (_ = _))

def Skips (zone : Zone) (wall : Int) : Prop := ∃ t, t + zone.offset (t - 1) ≤ wall ∧ wall < t + zone.offset t

def resolve (zone : Zone) (wall : Int) : Option Int :=
  localEpoch (partsOf wall) (offsetModel (getUTCFullYear wall) (getUTCMonth wall + 1) (getUTCDate wall) zone)

theorem localMinute_partsOf {wall : Int} (haligned : minuteMs ∣ wall) (hmodern : -dayMs ≤ wall) : localMinute (partsOf wall) = wall := by
  unfold localMinute partsOf
  simp only [Int.add_sub_cancel]
  rw [dateUTC_fields (by unfold dayMs at *; omega)]
  unfold minuteMs at *
  omega

def modelOf (zone : Zone) (wall : Int) : List OffsetSegment := dayModel (wall / dayMs * dayMs) zone

variable {wall : Int}

theorem resolve_eq (haligned : minuteMs ∣ wall) (hmodern : -dayMs ≤ wall) :
    resolve zone wall = converge (modelOf zone wall) wall 4 wall := by
  unfold resolve localEpoch offsetModel modelOf
  rw [localMinute_partsOf haligned hmodern, Int.add_sub_cancel, dateUTC_day (by unfold dayMs at *; omega)]
  simp only [Int.zero_mul, Int.add_zero]

theorem lookup_modelOf (zone : Zone) (hmodern : -dayMs ≤ wall) (hlow : wall / dayMs * dayMs - dayMs ≤ guess)
    (hhigh : guess < wall / dayMs * dayMs + 2 * dayMs) : Cron.lookup (modelOf zone wall) guess = some (zone.offset guess) := by
  obtain ⟨t, a, b, h⟩ := around zone (wall / dayMs * dayMs)
  exact h.lookup (by unfold minuteMs dayMs at *; omega) (by unfold dayMs at *; omega) hlow hhigh

theorem guess_within (zone : Zone) (wall e : Int) :
    wall / dayMs * dayMs - dayMs ≤ wall - zone.offset e ∧ wall - zone.offset e < wall / dayMs * dayMs + 2 * dayMs := by
  have hbelow := zone.below e
  unfold dayMs at *
  omega

theorem converge_zero (hmodern : -dayMs ≤ wall) (hlow : wall / dayMs * dayMs - dayMs ≤ guess)
    (hhigh : guess < wall / dayMs * dayMs + 2 * dayMs) :
    converge (modelOf zone wall) wall 0 guess = if Shows zone wall guess then some guess else none := by
  rw [converge, lookup_modelOf zone hmodern hlow hhigh]
  rfl

theorem converge_succ (hmodern : -dayMs ≤ wall) (hlow : wall / dayMs * dayMs - dayMs ≤ guess)
    (hhigh : guess < wall / dayMs * dayMs + 2 * dayMs) (attempts : Nat) :
    converge (modelOf zone wall) wall (attempts + 1) guess =
      if Shows zone wall guess then some guess else converge (modelOf zone wall) wall attempts (wall - zone.offset guess) := by
  rw [converge, lookup_modelOf zone hmodern hlow hhigh, Option.bind_some]
  have hnext : guess + (wall - (guess + zone.offset guess)) = wall - zone.offset guess := by omega
  rw [hnext]
  by_cases hshows : Shows zone wall guess
  · have hzero : wall - (guess + zone.offset guess) = 0 := by
      unfold Shows at hshows
      omega
    rw [if_pos hshows, if_pos hzero]
  · have hzero : ¬(wall - (guess + zone.offset guess) = 0) := by
      unfold Shows at hshows
      omega
    rw [if_neg hshows, if_neg hzero]

theorem converge_shows (hmodern : -dayMs ≤ wall) (attempts : Nat)
    (hlow : wall / dayMs * dayMs - dayMs ≤ guess) (hhigh : guess < wall / dayMs * dayMs + 2 * dayMs)
    (h : converge (modelOf zone wall) wall attempts guess = some e) : Shows zone wall e := by
  induction attempts generalizing guess with
  | zero =>
    rw [converge_zero hmodern hlow hhigh] at h
    split at h
    · rename_i hshows
      cases h
      exact hshows
    · cases h
  | succ attempts ih =>
    rw [converge_succ hmodern hlow hhigh] at h
    split at h
    · rename_i hshows
      cases h
      exact hshows
    · obtain ⟨hlow', hhigh'⟩ := guess_within zone wall guess
      exact ih hlow' hhigh' h

theorem converge_next (hmodern : -dayMs ≤ wall) (hlow : wall / dayMs * dayMs - dayMs ≤ guess)
    (hhigh : guess < wall / dayMs * dayMs + 2 * dayMs) (he : Shows zone wall e) (hsame : zone.offset guess = zone.offset e)
    (attempts : Nat) : converge (modelOf zone wall) wall (attempts + 2) guess ≠ none := by
  rw [converge_succ hmodern hlow hhigh]
  split
  · exact Option.some_ne_none _
  · obtain ⟨hlow', hhigh'⟩ := guess_within zone wall guess
    have hguess : wall - zone.offset guess = e := by
      unfold Shows at he
      omega
    rw [converge_succ hmodern hlow' hhigh', hguess, if_pos he]
    exact Option.some_ne_none _

/-- **Four attempts are enough**: around a day the offset is one of two. -/
theorem converge_finds (hmodern : -dayMs ≤ wall) (he : Shows zone wall e) :
    converge (modelOf zone wall) wall 4 wall ≠ none := by
  obtain ⟨t, a, b, h⟩ := around zone (wall / dayMs * dayMs)
  have htwo : ∀ g, wall / dayMs * dayMs - dayMs ≤ g → g < wall / dayMs * dayMs + 2 * dayMs → zone.offset g = a ∨ zone.offset g = b := by
    intro g hlow hhigh
    by_cases hlt : g < t
    · exact .inl (h.before g hlow hlt)
    · exact .inr (h.after g (Int.not_lt.1 hlt) (by omega))
  have hlow : wall / dayMs * dayMs - dayMs ≤ wall := by
    unfold dayMs
    omega
  have hhigh : wall < wall / dayMs * dayMs + 2 * dayMs := by
    unfold dayMs
    omega
  have heq : e = wall - zone.offset e := by
    unfold Shows at he
    omega
  obtain ⟨hlow', hhigh'⟩ := guess_within zone wall wall
  obtain ⟨helow, hehigh⟩ := guess_within zone wall e
  rw [← heq] at helow hehigh
  by_cases hfirst : zone.offset wall = zone.offset e
  · exact converge_next hmodern hlow hhigh he hfirst 2
  · rw [converge_succ hmodern hlow hhigh]
    split
    · exact Option.some_ne_none _
    · rename_i hwall
      by_cases hsecond : zone.offset (wall - zone.offset wall) = zone.offset e
      · exact converge_next hmodern hlow' hhigh' he hsecond 1
      · -- the second guess has the offset of the first, so it shows the local time
        have hagain : zone.offset (wall - zone.offset wall) = zone.offset wall := by
          rcases htwo wall hlow hhigh with h1 | h1
          · rcases htwo _ hlow' hhigh' with h2 | h2
            · rw [h1] at h2 ⊢
              exact h2
            · rcases htwo e helow hehigh with h3 | h3
              · exact absurd (h1.trans h3.symm) hfirst
              · exact absurd (h2.trans h3.symm) hsecond
          · rcases htwo _ hlow' hhigh' with h2 | h2
            · rcases htwo e helow hehigh with h3 | h3
              · exact absurd (h2.trans h3.symm) hsecond
              · exact absurd (h1.trans h3.symm) hfirst
            · rw [h1] at h2 ⊢
              exact h2
        have hshows : Shows zone wall (wall - zone.offset wall) := by
          unfold Shows
          omega
        rw [converge_succ hmodern hlow' hhigh', if_pos hshows]
        exact Option.some_ne_none _

theorem Skips.not_shows (h : Skips zone wall) (e : Int) : ¬Shows zone wall e := by
  obtain ⟨t, hleave, hreach⟩ := h
  intro he
  unfold Shows at he
  have h1 := zone.below e
  have h2 := zone.below t
  have h3 := zone.below (t - 1)
  obtain ⟨t', -, hbefore, hafter⟩ := zone.regimes (min e (t - 1))
  have hend : t ≤ min e (t - 1) + 3 * dayMs ∧ e ≤ min e (t - 1) + 3 * dayMs ∧ t - 1 ≤ min e (t - 1) + 3 * dayMs := by
    unfold dayMs at *
    omega
  have hturn : t' = t := by
    by_contra hne
    by_cases hlater : t < t'
    · have h4 := hbefore t (by omega) hlater
      have h5 := hbefore (t - 1) (by omega) (by omega)
      omega
    · have h4 := hafter t (by omega) hend.1
      have h5 := hafter (t - 1) (by omega) hend.2.2
      omega
  subst hturn
  by_cases hlt : e < t'
  · have h4 := hbefore e (by omega) hlt
    have h5 := hbefore (t' - 1) (by omega) (by omega)
    omega
  · have h4 := hafter e (by omega) hend.2.1
    have h5 := hafter t' (Int.le_refl _) hend.1
    omega

theorem skips_of_not_shows (h : ∀ e, ¬Shows zone wall e) : Skips zone wall := by
  obtain ⟨t, a, b, hat⟩ := around zone (wall / dayMs * dayMs)
  obtain ⟨halow, -⟩ := guess_within zone wall (wall / dayMs * dayMs - dayMs)
  obtain ⟨-, hbhigh⟩ := guess_within zone wall (wall / dayMs * dayMs + 2 * dayMs)
  rw [hat.first] at halow
  rw [hat.last] at hbhigh
  have ha : t ≤ wall - a := by
    by_contra hlt
    have hoffset := hat.before (wall - a) halow (Int.not_le.1 hlt)
    exact h (wall - a) (by unfold Shows; omega)
  have hb : wall - b < t := by
    by_contra hle
    have hoffset := hat.after (wall - b) (Int.not_lt.1 hle) (by omega)
    exact h (wall - b) (by unfold Shows; omega)
  obtain ⟨hlow, hhigh⟩ := hat.within (by omega)
  refine ⟨t, ?_, ?_⟩
  · rw [hat.before (t - 1) (by omega) (by omega)]
    omega
  · rw [hat.after t (Int.le_refl t) hhigh]
    omega

/-- **A local minute resolves to a moment that shows it**, and to none exactly when the clock skips it. -/
theorem resolve_spec (haligned : minuteMs ∣ wall) (hmodern : -dayMs ≤ wall) :
    (resolve zone wall = none ↔ Skips zone wall) ∧ ∀ e, resolve zone wall = some e → Shows zone wall e := by
  have hlow : wall / dayMs * dayMs - dayMs ≤ wall := by
    unfold dayMs
    omega
  have hhigh : wall < wall / dayMs * dayMs + 2 * dayMs := by
    unfold dayMs
    omega
  have hsome : ∀ e, resolve zone wall = some e → Shows zone wall e := by
    intro e he
    rw [resolve_eq haligned hmodern] at he
    exact converge_shows hmodern 4 hlow hhigh he
  refine ⟨⟨?_, ?_⟩, hsome⟩
  · intro hnone
    apply skips_of_not_shows
    intro e he
    rw [resolve_eq haligned hmodern] at hnone
    exact converge_finds hmodern he hnone
  · intro hskips
    cases hresolve : resolve zone wall with
    | none => rfl
    | some e => exact absurd (hsome e hresolve) (hskips.not_shows e)

end

end Wollipog.Cron
