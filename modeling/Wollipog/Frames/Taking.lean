import Wollipog.Frames.Advance
/-!
# Taking — frames leave the queue in runs, or are dropped with it

What `takeRun` takes is the front of the queue, a run only of frames that carry no value; handing it over and closing
are moves of the line.
-/
namespace Wollipog
namespace Frames

open Sys (Run RunOn Trace)
open Handoff (Line Act Move)

variable {T P : Type*} {cfg : Config T P}

theorem joinsRun_iff (f : QueuedFrame T P) : joinsRun f = true ↔ f.batchable = true ∧ f.prepared = none := by
  simp [joinsRun]

/-- The queue after `k` frames were taken. -/
def taken (k : List (QueuedFrame T P)) (rest : List (QueuedFrame T P)) (q : Queue T P) : Queue T P :=
  { q with
    pending := rest
    preparedCount := q.preparedCount - k.length
    bytes := q.bytes - totalBytes k }

theorem joinRun_spec (cfg : Config T P) (first : QueuedFrame T P) : ∀ (n : Nat) (q : Queue T P),
    ∃ rest, q.pending = (joinRun cfg first n q).1 ++ rest ∧ (joinRun cfg first n q).1.length ≤ n ∧
      ((joinRun cfg first n q).1 ≠ [] → joinsRun first = true) ∧ (∀ f ∈ (joinRun cfg first n q).1, joinsRun f = true) ∧
      (staged cfg = true → (joinRun cfg first n q).1.length ≤ q.preparedCount) ∧
      (joinRun cfg first n q).2 = taken (joinRun cfg first n q).1 rest q
  | 0, q => ⟨q.pending, rfl, Nat.le_refl 0, by simp [joinRun], by simp [joinRun], by simp [joinRun], rfl⟩
  | n + 1, q => by
    have hstop : ∃ rest, q.pending = [] ++ rest ∧ ([] : List (QueuedFrame T P)).length ≤ n + 1 ∧
        (([] : List (QueuedFrame T P)) ≠ [] → joinsRun first = true) ∧
        (∀ f ∈ ([] : List (QueuedFrame T P)), joinsRun f = true) ∧
        (staged cfg = true → ([] : List (QueuedFrame T P)).length ≤ q.preparedCount) ∧ q = taken [] rest q :=
      ⟨q.pending, rfl, Nat.zero_le _, by simp, by simp, by simp, rfl⟩
    rw [joinRun]
    split
    · exact hstop
    · rename_i next rest hpending
      split
      · rename_i hjoin
        simp only [Bool.and_eq_true, Bool.or_eq_true, decide_eq_true_eq] at hjoin
        obtain ⟨⟨hfirst, hnext⟩, hprepared⟩ := hjoin
        obtain ⟨rest', hp, hlen, -, hall, hcount, hq⟩ := joinRun_spec cfg first n (takeNext next rest q)
        have hrest : rest = (joinRun cfg first n (takeNext next rest q)).1 ++ rest' := hp
        refine ⟨rest', ?_, ?_, fun _ => hfirst, ?_, ?_, ?_⟩
        · rw [hpending]
          simp only [List.cons_append, List.cons.injEq, true_and]
          exact hrest
        · simp only [List.length_cons]; omega
        · intro f hf
          rcases List.mem_cons.1 hf with rfl | hmore
          · exact hnext
          · exact hall f hmore
        · intro hst
          have hle := hcount hst
          have hpos : 0 < q.preparedCount := by
            rcases hprepared with hnone | hpos
            · unfold staged at hst
              rw [Option.isNone_iff_eq_none] at hnone
              rw [hnone] at hst
              cases hst
            · exact hpos
          have hrest' : (takeNext next rest q).preparedCount = q.preparedCount - 1 := rfl
          rw [hrest'] at hle
          simp only [List.length_cons]
          omega
        · rw [hq]
          simp only [taken, takeNext, List.length_cons, totalBytes, Nat.sub_sub]
          rw [Nat.add_comm 1]
      · exact hstop

/-- **What is taken off the queue**: the first frame, and with it a run only where runs are kept. -/
theorem takeRun_spec {first : QueuedFrame T P} {rest : List (QueuedFrame T P)} {q : Queue T P}
    (hq : q.pending = first :: rest) (hpos : staged cfg = true → 0 < q.preparedCount) :
    ∃ rest', q.pending = (takeRun cfg first rest q).1 ++ rest' ∧
      (staged cfg = true → (takeRun cfg first rest q).1.length ≤ q.preparedCount) ∧
      ((takeRun cfg first rest q).1 = [first] ∨ Fits cfg (takeRun cfg first rest q).1) ∧
      (takeRun cfg first rest q).2 = taken (takeRun cfg first rest q).1 rest' q := by
  have hone : takeNext first rest q = taken [first] rest q := by simp [takeNext, taken, totalBytes]
  unfold takeRun
  split
  · exact ⟨rest, hq, fun hst => hpos hst, .inl rfl, hone⟩
  · rename_i r hr
    obtain ⟨rest', hp, hlen, hfirst, hall, hcount, hq'⟩ :=
      joinRun_spec cfg first (r.limit - 1) (takeNext first rest q)
    have hrest : rest = (joinRun cfg first (r.limit - 1) (takeNext first rest q)).1 ++ rest' := hp
    refine ⟨rest', ?_, fun hst => ?_, ?_, ?_⟩
    · rw [hq]
      simp only [List.cons_append, List.cons.injEq, true_and]
      exact hrest
    · have hle := hcount hst
      have hpos' := hpos hst
      have hrest' : (takeNext first rest q).preparedCount = q.preparedCount - 1 := rfl
      rw [hrest'] at hle
      simp only [List.length_cons]
      omega
    · simp only
      cases hmore : (joinRun cfg first (r.limit - 1) (takeNext first rest q)).1 with
      | nil => exact .inl rfl
      | cons second more =>
        rw [hmore] at hfirst hall hlen
        have hall' : ∀ f ∈ first :: second :: more, joinsRun f = true := by
          intro f hf
          rcases List.mem_cons.1 hf with rfl | hf'
          · exact hfirst (by simp)
          · exact hall f hf'
        refine .inr ⟨by simp, ⟨r, hr, ?_⟩, fun f hf => ?_, fun f hf => ?_⟩
        · simp only [List.length_cons] at hlen ⊢; omega
        · exact ((joinsRun_iff f).1 (hall' f hf)).1
        · exact ((joinsRun_iff f).1 (hall' f hf)).2
    · simp only
      rw [hq']
      simp only [taken, takeNext, List.length_cons, totalBytes, Nat.sub_sub]
      rw [Nat.add_comm 1]

theorem taken_wf {run rest : List (QueuedFrame T P)} {q : Queue T P} (h : Wf cfg q) (hw : q.pending = run ++ rest)
    (ho : q.closed = false) : Wf cfg (taken run rest q) := by
  have hbytes := h.bytes
  have hcount := h.count
  rw [hw, totalBytes_append] at hbytes
  rw [hw, List.length_append] at hcount
  refine ⟨?_, ?_, ?_, ?_, ?_, ?_⟩
  · simp only [taken]; omega
  · simp only [taken]; omega
  · intro f hf
    refine h.fresh f ?_
    rw [hw, List.drop_append]
    exact List.mem_append_right _ hf
  · intro f hf
    refine h.narrow f ?_
    have hsub : q.preparedCount - run.length - 1 = q.preparedCount - 1 - run.length := by omega
    simp only [taken, hsub] at hf
    rw [hw, List.take_append]
    exact List.mem_append_right _ hf
  · intro hc; simp only [taken, ho] at hc; cases hc
  · intro hst; have := h.unstaged hst; simp only [taken]; omega

theorem taken_advance {run rest : List (QueuedFrame T P)} {q : Queue T P} (h : Wf cfg q)
    (hw : q.pending = run ++ rest) (hl : staged cfg = true → run.length ≤ q.preparedCount) (ho : q.closed = false) :
    Advance cfg [] run q (taken run rest q) [] := by
  refine .silent (taken_wf h hw ho) ?_ rfl
  have hahead : (if staged cfg then run.length else 0) + (q.preparedCount - run.length) = q.preparedCount := by
    split
    · rename_i hst; have := hl hst; omega
    · rename_i hst; have := h.unstaged (by simpa using hst); omega
  simp only [abs, taken, hw, hahead, List.nil_append, List.length_nil, ite_self, Nat.zero_add]
  rfl

theorem act_handing (run : List (QueuedFrame T P)) : act (handing run) = .hand (run.map pair) := by
  unfold handing
  split <;> rfl

theorem handing_advance {run : List (QueuedFrame T P)} {q : Queue T P} {first : QueuedFrame T P} (h : Wf cfg q)
    (ho : q.closed = false) (hidle : running q = []) (hrun : run = [first] ∨ Fits cfg run) :
    Advance cfg run [] q { q with phase := .handling run } [handing run] := by
  refine .one ⟨h.bytes, h.count, h.fresh, h.narrow, h.shut, h.unstaged⟩ ?_ ?_ rfl ?_
  · have hbusy : (abs cfg run q).busy = [] := by simp [abs, hidle]
    have hline : (abs cfg run q).waiting = run.map pair ++ q.pending.map pair := by simp [abs]
    have hahead : staged cfg = true → (run.map pair).length ≤ (abs cfg run q).ahead := fun hst => by simp [abs, hst]
    have hafter : abs cfg [] { q with phase := .handling run } =
        { abs cfg run q with
          waiting := q.pending.map pair
          ahead := (abs cfg run q).ahead - (run.map pair).length
          busy := run.map pair } := by
      have hleft : (if staged cfg then run.length else 0) + q.preparedCount - run.length = q.preparedCount := by
        split
        · omega
        · rename_i hst; have := h.unstaged (by simpa using hst); omega
      simp [abs, running, hleft]
    rw [hafter, act_handing]
    exact .hand ho hbusy hline hahead
  · unfold handing
    split <;> rfl
  · intro r hr
    unfold handing at hr
    rcases hrun with rfl | hfits
    · cases hr
    · split at hr
      · have := hfits.two; simp at this
      · cases hr; exact hfits

theorem discards_trace (cfg : Config T P) {s : Line (Frame T) P} : ∀ (l : List (QueuedFrame T P)),
    s.held = Handoff.values (l.map pair) →
      Trace (Step cfg) s ((l.filterMap discard).map act) { s with held := [] }
  | [], h => by
    have hs : { s with held := [] } = s := by
      cases s
      simp only [List.map_nil, Handoff.values, List.filterMap_nil] at h
      rw [h]
    rw [hs]
    exact .nil
  | f :: l, h => by
    cases hv : f.prepared with
    | none =>
      have hd : discard f = none := by simp [discard, hv]
      rw [List.filterMap_cons_none hd]
      refine discards_trace cfg l ?_
      have hnone : Handoff.value (pair f) = none := by simp [Handoff.value, pair, hv]
      rw [h, Handoff.values, List.map_cons, List.filterMap_cons_none hnone]
      rfl
    | some v =>
      have hd : discard f = some (.discards f v) := by simp [discard, hv]
      rw [List.filterMap_cons_some hd, List.map_cons]
      have hsome : Handoff.value (pair f) = some (f.toFrame, v) := by simp [Handoff.value, pair, hv]
      have hheld : s.held = (f.toFrame, v) :: Handoff.values (l.map pair) := by
        rw [h, Handoff.values, List.map_cons, List.filterMap_cons_some hsome]
        rfl
      have hone : Trace (Step cfg) s [.discard f.toFrame v] { s with held := Handoff.values (l.map pair) } :=
        .single (.discard hheld)
      have hrest := discards_trace cfg (s := { s with held := Handoff.values (l.map pair) }) l rfl
      exact hone.append hrest

theorem pressures_discards (l : List (QueuedFrame T P)) : pressures (l.filterMap discard) = [] := by
  induction l with
  | nil => rfl
  | cons f l ih =>
    cases hv : f.prepared with
    | none => rw [List.filterMap_cons_none (by simp [discard, hv])]; exact ih
    | some v =>
      rw [List.filterMap_cons_some (b := .discards f v) (by simp [discard, hv])]
      simpa [pressures, Obs.pressures] using ih

theorem close_pending (q : Queue T P) : (close q).1.pending = [] := by simp only [close, updatePressure_fst]

theorem close_phase (q : Queue T P) : (close q).1.phase = q.phase := by simp only [close, updatePressure_fst]
theorem close_wide (q : Queue T P) : (close q).1.handlingRunnerWide = q.handlingRunnerWide := by
  simp only [close, updatePressure_fst]
theorem close_pressured (q : Queue T P) : (close q).1.pressured = false := by
  simp only [close, updatePressure_fst, paused, Bool.not_true, Bool.false_and]

theorem close_advance {q : Queue T P} (h : Wf cfg q) : Advance cfg [] [] q (close q).1 (close q).2 := by
  have hcleared : Wf cfg { q with closed := true, pending := [], preparedCount := 0, bytes := 0 } :=
    ⟨rfl, Nat.le_refl 0, by simp, by simp, fun _ => rfl, fun _ => rfl⟩
  have hpress := updatePressure_advance [] hcleared
  refine ⟨?_, ?_, ?_, ?_⟩
  · exact hpress.wf
  · simp only [close, List.map_append]
    cases hc : q.closed with
    | true =>
      -- a second close drops nothing
      have hempty := h.shut hc
      have hcount := h.count
      rw [hempty] at hcount
      have hzero : q.preparedCount = 0 := Nat.le_zero.1 hcount
      have hsame : abs cfg [] { q with closed := true, pending := [], preparedCount := 0, bytes := 0 } = abs cfg [] q := by
        simp [abs, hempty, hzero, hc, running]
      rw [hempty]
      have htrace := hpress.trace
      rw [hsame] at htrace
      simpa using htrace
    | false =>
      have hclose : Step cfg (abs cfg [] q) .close { abs cfg [] q with
          waiting := [], ahead := 0, closed := true
          held := Handoff.values ((abs cfg [] q).waiting.take (abs cfg [] q).ahead) } := .close hc
      have hheld : Handoff.values ((abs cfg [] q).waiting.take (abs cfg [] q).ahead) =
          Handoff.values ((q.pending.take q.preparedCount).map pair) := by
        simp [abs, List.map_take]
      rw [hheld] at hclose
      have hdiscards := discards_trace cfg (q.pending.take q.preparedCount)
        (s := { abs cfg [] q with
          waiting := [], ahead := 0, closed := true, held := Handoff.values ((q.pending.take q.preparedCount).map pair) })
        rfl
      have hother : ∀ (o : List (Obs T P)) (s : Line (Frame T) P), (∀ x ∈ o, act x = .other) →
          Trace (Step cfg) s (o.map act) s := by
        intro o s ho
        induction o with
        | nil => exact .nil
        | cons x o ih =>
          rw [List.map_cons, ho x List.mem_cons_self]
          exact (Trace.single .other).append (ih (fun y hy => ho y (List.mem_cons_of_mem _ hy)))
      have hpressure := hother (updatePressure { q with closed := true, pending := [], preparedCount := 0, bytes := 0 }).2
        { abs cfg [] q with
          waiting := [], ahead := 0, closed := true, held := Handoff.values ((q.pending.take q.preparedCount).map pair) }
        (by
          intro x hx
          unfold updatePressure at hx
          split at hx
          · simp at hx
          · rw [List.mem_singleton.1 hx]; rfl)
      have hafter : abs cfg [] (updatePressure { q with
          closed := true, pending := [], preparedCount := 0, bytes := 0 }).1 =
          { abs cfg [] q with waiting := [], ahead := 0, closed := true, held := [] } := by
        rw [updatePressure_fst]
        simp [abs, running]
      rw [hafter]
      exact (((Trace.single hclose).append hpressure).append hdiscards)
  · have htoggles := hpress.toggles
    simp only [close, pressures_append, pressures_discards, List.append_nil]
    have hfirst : pressures (if q.closed = true then [] else [Obs.closes (T := T) (P := P)]) = [] := by
      split <;> rfl
    rw [hfirst, List.nil_append]
    exact htoggles
  · intro run hmem
    simp only [close, List.mem_append, List.mem_filterMap] at hmem
    rcases hmem with (hc | hp) | ⟨f, -, hd⟩
    · split at hc <;> simp at hc
    · exact hpress.runs run hp
    · unfold discard at hd
      obtain ⟨v, -, hv⟩ := Option.map_eq_some_iff.1 hd
      cases hv

end Frames
end Wollipog
