import Wollipog.Frames.Taking
/-!
# Delivery — the queue hands its frames over in order, once, and leaks nothing

A step of the queue is a trace of the line (`step_advance`), so a run is one, and what the line keeps is what the queue
delivers.
-/
namespace Wollipog
namespace Frames

open Sys (Run RunOn Trace)
open Handoff (Line Act Move Kept)

variable {T P : Type*} {cfg : Config T P}

structure Rest (cfg : Config T P) (q : Queue T P) : Prop where
  wf : Wf cfg q
  calm : Calm q
  apart : Apart [] q
  free : (∀ run, q.phase ≠ .handling run) → q.handlingRunnerWide = false
  idle : q.phase = .idle → q.pending = []

variable {q : Queue T P}

theorem running_nil (h : ∀ run, q.phase ≠ .handling run) : running q = [] := by
  unfold running
  split
  · rename_i run hp; exact absurd hp (h run)
  · rfl

theorem Wf.phase (h : Wf cfg q) (p : Phase T P) (b : Bool) : Wf cfg { q with phase := p, handlingRunnerWide := b } :=
  ⟨h.bytes, h.count, h.fresh, h.narrow, h.shut, h.unstaged⟩

theorem phase_advance {p : Phase T P} {b : Bool} (h : Wf cfg q) (hq : running q = [])
    (hp : running { q with phase := p, handlingRunnerWide := b } = []) :
    Advance cfg [] [] q { q with phase := p, handlingRunnerWide := b } [] := by
  refine .silent (h.phase p b) ?_ rfl
  simp only [abs, hq, hp]

theorem drain_advance (h : Wf cfg q) (hc : Calm q) (hidle : ∀ run, q.phase ≠ .handling run)
    (hfree : q.handlingRunnerWide = false) :
    Advance cfg [] [] q (drain cfg q).1 (drain cfg q).2 ∧ Rest cfg (drain cfg q).1 := by
  have hrun := running_nil hidle
  have hapart : Apart [] q := fun _ f hf => by simp [hrun] at hf
  unfold drain
  split
  · rename_i hclosed
    have hempty := h.shut hclosed
    exact ⟨phase_advance h hrun rfl, h.phase _ _, hc, fun _ f hf => by simp [running] at hf, fun _ => hfree,
      fun _ => hempty⟩
  · rename_i hopen
    have hopen' : q.closed = false := by simpa using hopen
    split
    · rename_i hempty
      have hempty' : q.pending = [] := by simpa using hempty
      refine ⟨?_, h.phase _ _, hc, fun _ f hf => by simp [running] at hf, fun _ => hfree, fun hp => by cases hp⟩
      have hnext := phase_advance (p := .afterDrain) (b := q.handlingRunnerWide) h hrun rfl
      exact hnext.trans (.one hnext.wf .other rfl rfl (by simp))
    · rename_i hnonempty
      have hne : q.pending ≠ [] := by simpa using hnonempty
      have hprep := prepareAhead_advance h hapart
      have hsame := prepareAhead_same cfg q
      have hlen := hsame.length
      simp only
      generalize hq₁ : prepareAhead cfg q = r₁ at hprep hsame hlen ⊢
      obtain ⟨q₁, o₁⟩ := r₁
      simp only at hprep hsame hlen ⊢
      split
      · rename_i hnil
        rw [hnil] at hlen
        exact absurd (List.length_eq_zero_iff.1 hlen.symm) hne
      · rename_i first rest hpending
        have hopen₁ : q₁.closed = false := by rw [hsame.closed]; exact hopen'
        have hpos : staged cfg = true → 0 < q₁.preparedCount := by
          intro hst
          have hp := prepareAhead_pos hst hfree hne
          rw [hq₁] at hp
          exact hp
        obtain ⟨rest', hw, hl, hfits, htaken⟩ := takeRun_spec hpending hpos
        simp only
        generalize hrun' : (takeRun cfg first rest q₁).1 = run at hw hl hfits htaken ⊢
        rw [htaken]
        have htake := taken_advance hprep.wf hw hl hopen₁
        have hpress := updatePressure_advance run htake.wf
        have hcalm := updatePressure_calm htake.wf
        rw [updatePressure_fst] at hpress hcalm ⊢
        -- the barrier is up for the run while the next frames are prepared
        have hwide : Wf cfg { ({ taken run rest' q₁ with pressured := paused (taken run rest' q₁) } : Queue T P) with
            handlingRunnerWide := run.any (fun f => f.runnerWide) } := hpress.wf.phase _ _
        have hrun₁ : running q₁ = [] := by rw [hsame.running]; exact hrun
        have hapart' : Apart run { ({ taken run rest' q₁ with pressured := paused (taken run rest' q₁) } : Queue T P) with
            handlingRunnerWide := run.any (fun f => f.runnerWide) } := by
          intro hnone f hf
          have hbusy : running (taken run rest' q₁) = [] := hrun₁
          have hmem : f ∈ run := by
            rcases List.mem_append.1 hf with hb | hr
            · exact absurd (hbusy ▸ hb : f ∈ ([] : List (QueuedFrame T P))) (by simp)
            · exact hr
          simpa using List.any_eq_false.1 hnone f hmem
        have hset : Advance cfg run run { taken run rest' q₁ with pressured := paused (taken run rest' q₁) }
            { ({ taken run rest' q₁ with pressured := paused (taken run rest' q₁) } : Queue T P) with
              handlingRunnerWide := run.any (fun f => f.runnerWide) } [] := .silent hwide rfl rfl
        have hprep' := prepareAhead_advance hwide hapart'
        have hsame' := prepareAhead_same cfg
          { ({ taken run rest' q₁ with pressured := paused (taken run rest' q₁) } : Queue T P) with
            handlingRunnerWide := run.any (fun f => f.runnerWide) }
        have hrun₄ := hsame'.running.trans hrun₁
        have hopen₄ := hsame'.closed.trans hopen₁
        have hhand := handing_advance hprep'.wf hopen₄ hrun₄ hfits
        refine ⟨?_, ?_⟩
        · have hall := ((((hprep.trans htake).trans hpress).trans hset).trans hprep').trans hhand
          simpa only [List.append_nil] using hall
        · refine ⟨hhand.wf, hsame'.calm hcalm, ?_, fun hno => absurd rfl (hno run), fun hp => by cases hp⟩
          intro hnone f hf
          have hmem : f ∈ run := by simpa [running] using hf
          have hany : run.any (fun f => f.runnerWide) = false := hsame'.wide.symm.trans hnone
          simpa using List.any_eq_false.1 hany f hmem

theorem close_rest (h : Wf cfg q) (hfree : (∀ run, q.phase ≠ .handling run) → q.handlingRunnerWide = false)
    (ha : Apart [] q) : Rest cfg (close q).1 := by
  refine ⟨(close_advance h).wf, fun _ => close_pressured q, ?_, ?_, fun _ => close_pending q⟩
  · unfold Apart running
    rw [close_wide, close_phase]
    exact ha
  · rw [close_wide, close_phase]
    exact hfree

theorem close_of_phase (q : Queue T P) (p : Phase T P) :
    close { q with phase := p } = ({ (close q).1 with phase := p }, (close q).2) := by
  have hpaused : paused { q with phase := p, closed := true, pending := [], preparedCount := 0, bytes := 0 } =
      paused { q with closed := true, pending := [], preparedCount := 0, bytes := 0 } := rfl
  simp only [close, updatePressure, hpaused]
  split <;> rfl

theorem fail_advance (h : Wf cfg q) (hidle : running q = []) :
    Advance cfg [] [] q (fail q).1 (fail q).2 ∧ Rest cfg (fail q).1 := by
  have hphase := phase_advance (p := .idle) (b := false) h hidle rfl
  have hclose := close_advance hphase.wf
  have hrest := close_rest hphase.wf (fun _ => rfl) (fun _ f hf => by simp [running] at hf)
  have hq := close_of_phase { q with handlingRunnerWide := false } .idle
  have hfail : fail q = ((close { q with phase := .idle, handlingRunnerWide := false }).1,
      (close { q with phase := .idle, handlingRunnerWide := false }).2 ++ [.fails]) := by
    rw [hq]
    rfl
  rw [hfail]
  refine ⟨?_, hrest⟩
  have hall := (hphase.trans hclose).trans (.one (x := .fails) hclose.wf .other rfl rfl (by simp))
  exact hall

theorem settle_advance {run : List (QueuedFrame T P)} (h : Wf cfg q) (hp : q.phase = .handling run)
    (p : Phase T P) (b : Bool) (hidle : running { q with phase := p, handlingRunnerWide := b } = []) :
    Advance cfg [] [] q { q with phase := p, handlingRunnerWide := b } [.settles run] := by
  refine .one (h.phase p b) ?_ rfl rfl (by simp)
  have hbusy : (abs cfg [] q).busy = run.map pair := by simp [abs, running, hp]
  have hmove : Step cfg (abs cfg [] q) (.settle (abs cfg [] q).busy) { abs cfg [] q with busy := [] } := .settle
  rw [hbusy] at hmove
  have hafter : abs cfg [] { q with phase := p, handlingRunnerWide := b } = { abs cfg [] q with busy := [] } := by
    simp [abs, hidle]
  rw [hafter]
  exact hmove

theorem push_advance {frame : QueuedFrame T P} (h : Wf cfg q) (ho : q.closed = false) (hf : frame.prepared = none) :
    Advance cfg [] [] q { q with pending := q.pending ++ [frame], bytes := q.bytes + frame.bytes } [.accepts frame] := by
  have hcount := h.count
  refine .one ?_ ?_ rfl rfl (by simp)
  · refine ⟨?_, ?_, ?_, ?_, ?_, h.unstaged⟩
    · simp [h.bytes, totalBytes_append, totalBytes]
    · simp only [List.length_append]; omega
    · intro f hmem
      simp only [List.drop_append_of_le_length hcount, List.mem_append, List.mem_singleton] at hmem
      rcases hmem with hold | rfl
      · exact h.fresh f hold
      · exact hf
    · intro f hmem
      simp only [List.take_append_of_le_length (Nat.le_trans (Nat.sub_le _ 1) hcount)] at hmem
      exact h.narrow f hmem
    · intro hc; simp only [ho] at hc; cases hc
  · have hafter : abs cfg [] { q with pending := q.pending ++ [frame], bytes := q.bytes + frame.bytes } =
        { abs cfg [] q with waiting := (abs cfg [] q).waiting ++ [(frame.toFrame, none)] } := by
      simp [abs, pair, running, hf]
    rw [hafter]
    exact .accept ho

theorem enqueue_advance (h : Rest cfg q) (message : T) (bytes : Nat) :
    Advance cfg [] [] q (enqueue cfg q message bytes).1 (enqueue cfg q message bytes).2 ∧
      Rest cfg (enqueue cfg q message bytes).1 := by
  unfold enqueue
  split
  · exact ⟨.refl h.wf, h⟩
  · rename_i hopen
    have hopen' : q.closed = false := by simpa using hopen
    split
    · have hclose := close_advance h.wf
      exact ⟨hclose.trans (.one (x := .fails) hclose.wf .other rfl rfl (by simp)), close_rest h.wf h.free h.apart⟩
    · generalize hframe : (QueuedFrame.mk (P := P) (Frame.mk message bytes _ _) none) = frame
      have hnone : frame.prepared = none := by rw [← hframe]
      have hbytes : frame.bytes = bytes := by rw [← hframe]
      have hpush := push_advance h.wf hopen' hnone
      rw [hbytes] at hpush
      have hpress := updatePressure_advance [] hpush.wf
      have hcalm := updatePressure_calm hpush.wf
      rw [updatePressure_fst] at hpress hcalm
      simp only [updatePressure_fst]
      have hprep := prepareAhead_advance hpress.wf h.apart
      have hsame := prepareAhead_same cfg { ({ q with
        pending := q.pending ++ [frame], bytes := q.bytes + bytes } : Queue T P) with
        pressured := paused { q with pending := q.pending ++ [frame], bytes := q.bytes + bytes } }
      have hcalm' := hsame.calm hcalm
      have hqueued := (hpush.trans hpress).trans hprep
      split
      · rename_i hidle
        have hphase := hsame.phase.trans hidle
        have hfree := hsame.wide.trans (h.free (fun run hp => by rw [hidle] at hp; cases hp))
        obtain ⟨hdrain, hrest⟩ := drain_advance hprep.wf hcalm' (fun run hp => by rw [hphase] at hp; cases hp) hfree
        exact ⟨hqueued.trans hdrain, hrest⟩
      · rename_i hbusy
        refine ⟨hqueued, hprep.wf, hcalm', hsame.apart h.apart, ?_, ?_⟩
        · intro hno
          rw [hsame.wide]
          rw [hsame.phase] at hno
          exact h.free hno
        · intro hp
          exact absurd (hsame.phase.symm.trans hp) hbusy

/-- **A step is a trace of the line.** -/
theorem step_advance {q q' : Queue T P} {e : Event T} {o : List (Obs T P)} (h : Rest cfg q)
    (hst : step cfg q e = some (q', o)) : Advance cfg [] [] q q' o ∧ Rest cfg q' := by
  cases e with
  | enqueue message bytes =>
    simp only [step, Option.some.injEq] at hst
    have henq := enqueue_advance h message bytes
    rw [hst] at henq
    exact henq
  | reserveInventory n =>
    cases hst
    unfold reserveInventory
    split
    · exact ⟨.refl h.wf, h⟩
    · have hw := h.wf
      have hw' : Wf cfg (reserveInventory q n) := by
        unfold reserveInventory
        split
        · exact hw
        · exact ⟨hw.bytes, hw.count, hw.fresh, hw.narrow, hw.shut, hw.unstaged⟩
      rename_i hn
      rw [reserveInventory, if_neg hn] at hw'
      exact ⟨.silent hw' rfl rfl, hw', h.calm, h.apart, h.free, h.idle⟩
  | close =>
    simp only [step, Option.some.injEq] at hst
    have hclose := close_advance h.wf
    have hrest := close_rest h.wf h.free h.apart
    rw [hst] at hclose hrest
    exact ⟨hclose, hrest⟩
  | handlerSettles ok =>
    simp only [step] at hst
    split at hst
    · rename_i run hp
      split at hst
      · cases hst
        have hsettle := settle_advance h.wf hp .yielding false rfl
        have hapart : Apart [] { q with phase := .yielding, handlingRunnerWide := false } :=
          fun _ f hf => by simp [running] at hf
        have hprep := prepareAhead_advance hsettle.wf hapart
        have hsame := prepareAhead_same cfg { q with phase := .yielding, handlingRunnerWide := false }
        have hcalm := hsame.calm h.calm
        refine ⟨hsettle.trans hprep, hprep.wf, hcalm, hsame.apart hapart, fun _ => hsame.wide, fun hidle => ?_⟩
        have hyield := hsame.phase.symm.trans hidle
        cases hyield
      · cases hst
        have hsettle := settle_advance h.wf hp .idle q.handlingRunnerWide rfl
        obtain ⟨hfail, hrest⟩ := fail_advance hsettle.wf rfl
        have hq : fail { q with phase := .idle } = fail q := by
          unfold fail
          rw [close_of_phase { q with handlingRunnerWide := false } .idle]
        rw [show ({ q with phase := .idle, handlingRunnerWide := q.handlingRunnerWide } : Queue T P) =
          { q with phase := .idle } from rfl, hq] at hfail hrest
        exact ⟨hsettle.trans hfail, hrest⟩
    · cases hst
  | afterDrainSettles ok =>
    simp only [step] at hst
    split at hst
    · rename_i hp
      have hno : ∀ run, q.phase ≠ .handling run := fun run hr => by rw [hp] at hr; cases hr
      have hfree := h.free hno
      have hrun := running_nil hno
      split at hst
      · split at hst
        · rename_i hempty
          cases hst
          exact ⟨phase_advance h.wf hrun rfl, h.wf.phase _ _, h.calm, fun _ f hf => by simp [running] at hf,
            fun _ => hfree, fun _ => hempty⟩
        · simp only [Option.some.injEq] at hst
          have hdrain := drain_advance h.wf h.calm hno hfree
          rw [hst] at hdrain
          exact hdrain
      · simp only [Option.some.injEq] at hst
        have hfail := fail_advance h.wf hrun
        rw [hst] at hfail
        exact hfail
    · cases hst
  | immediate =>
    simp only [step] at hst
    split at hst
    · rename_i hp
      have hno : ∀ run, q.phase ≠ .handling run := fun run hr => by rw [hp] at hr; cases hr
      simp only [Option.some.injEq] at hst
      have hdrain := drain_advance h.wf h.calm hno (h.free hno)
      rw [hst] at hdrain
      exact hdrain
    · cases hst

/-! ## A run -/

def Obs.accepted : Obs T P → List (Frame T)
  | .accepts f => [f.toFrame]
  | _ => []

def Obs.prepared : Obs T P → List (QueuedFrame T P)
  | .prepares f => [f]
  | _ => []

def Obs.handed : Obs T P → List (QueuedFrame T P)
  | .handles f => [f]
  | .handlesRun run => run
  | _ => []

def Obs.settled : Obs T P → List (QueuedFrame T P)
  | .settles run => run
  | _ => []

def carried (f : QueuedFrame T P) : Option (Frame T × P) := f.prepared.map (fun v => (f.toFrame, v))

def Obs.passed : Obs T P → List (Frame T × P)
  | .handles f => (carried f).toList
  | _ => []

def Obs.discarded : Obs T P → List (Frame T × P)
  | .discards f v => [(f.toFrame, v)]
  | _ => []

/-- **What the queue delivers.** -/
structure Delivers (cfg : Config T P) (l : List (Obs T P)) (q : Queue T P) : Prop where
  fifo : (l.flatMap Obs.handed).map QueuedFrame.toFrame <+: l.flatMap Obs.accepted
  complete : q.closed = false →
    l.flatMap Obs.accepted = (l.flatMap Obs.handed ++ q.pending).map QueuedFrame.toFrame
  dropped : q.closed = true → q.pending = []
  once : (l.flatMap Obs.prepared).map QueuedFrame.toFrame <+: l.flatMap Obs.accepted
  /-- Whenever a frame is prepared, those before it are the settled ones and then some that are not runner-wide. -/
  barrier : ∀ l₁ f l₂, l = l₁ ++ .prepares f :: l₂ → ∃ unsettled behind,
    l₁.flatMap Obs.accepted =
      (l₁.flatMap Obs.settled ++ unsettled).map QueuedFrame.toFrame ++ f.toFrame :: behind ∧
    ∀ g ∈ unsettled, g.runnerWide = false
  /-- Every prepared value was passed on, was discarded, or waits with its frame. -/
  values : (l.flatMap Obs.prepared).filterMap carried =
    l.flatMap Obs.passed ++ l.flatMap Obs.discarded ++ q.pending.filterMap carried
  bytes : q.bytes = totalBytes q.pending
  count : q.preparedCount ≤ q.pending.length
  runs : ∀ run, .handlesRun run ∈ l → Fits cfg run
  toggles : Toggles false (pressures l) q.pressured
  calm : q.pending = [] → q.pressured = false
  idle : q.phase = .idle → q.pending = []

theorem accepted_act (l : List (Obs T P)) : Handoff.accepted (l.map act) = l.flatMap Obs.accepted := by
  rw [Handoff.accepted, List.flatMap_map]
  congr 1
  funext x
  cases x <;> rfl

theorem prepared_act (l : List (Obs T P)) : Handoff.prepared (l.map act) = (l.flatMap Obs.prepared).map pair := by
  rw [Handoff.prepared, List.flatMap_map, List.map_flatMap]
  congr 1
  funext x
  cases x <;> rfl

theorem handed_act (l : List (Obs T P)) : Handoff.handed (l.map act) = (l.flatMap Obs.handed).map pair := by
  rw [Handoff.handed, List.flatMap_map, List.map_flatMap]
  congr 1
  funext x
  cases x <;> rfl

theorem settled_act (l : List (Obs T P)) : Handoff.settled (l.map act) = (l.flatMap Obs.settled).map pair := by
  rw [Handoff.settled, List.flatMap_map, List.map_flatMap]
  congr 1
  funext x
  cases x <;> rfl

theorem discarded_act (l : List (Obs T P)) : Handoff.discarded (l.map act) = l.flatMap Obs.discarded := by
  rw [Handoff.discarded, List.flatMap_map]
  congr 1
  funext x
  cases x <;> rfl

theorem fst_pair (l : List (QueuedFrame T P)) : (l.map pair).map Prod.fst = l.map QueuedFrame.toFrame := by
  rw [List.map_map]; rfl

theorem values_pair (l : List (QueuedFrame T P)) : Handoff.values (l.map pair) = l.filterMap carried := by
  rw [Handoff.values, List.filterMap_map]; rfl

theorem passed_eq : ∀ {l : List (Obs T P)}, (∀ run, .handlesRun run ∈ l → Fits cfg run) →
    l.flatMap Obs.passed = (l.flatMap Obs.handed).filterMap carried
  | [], _ => rfl
  | x :: l, h => by
    have ih := passed_eq (l := l) (fun run hm => h run (List.mem_cons_of_mem _ hm))
    rw [List.flatMap_cons, List.flatMap_cons, List.filterMap_append, ih]
    congr 1
    cases x with
    | handles f => cases hv : f.prepared <;> simp [Obs.passed, Obs.handed, carried, hv]
    | handlesRun run =>
      have hfits := h run List.mem_cons_self
      symm
      simp only [Obs.passed, Obs.handed, List.filterMap_eq_nil_iff]
      intro f hf
      simp [carried, hfits.unprepared f hf]
    | _ => rfl

theorem start_rest (l : Limits) : Rest cfg (start l : Queue T P) := by
  refine ⟨⟨rfl, Nat.le_refl 0, by simp [start], by simp [start], fun _ => rfl, fun _ => rfl⟩, fun _ => rfl, ?_,
    fun _ => rfl, fun _ => rfl⟩
  intro _ f hf
  simp [running, start] at hf

structure Ran (cfg : Config T P) (l : List (Obs T P)) (q : Queue T P) : Prop where
  rest : Rest cfg q
  toggles : Toggles false (pressures l) q.pressured
  runs : ∀ run, .handlesRun run ∈ l → Fits cfg run

theorem Ran.step {l o : List (Obs T P)} {q q' : Queue T P} {e : Event T} (h : Ran cfg l q)
    (hst : Frames.step cfg q e = some (q', o)) : Ran cfg (l ++ o) q' := by
  obtain ⟨hadv, hrest⟩ := step_advance h.rest hst
  refine ⟨hrest, ?_, fun run hmem => ?_⟩
  · rw [pressures_append]; exact h.toggles.append hadv.toggles
  · rcases List.mem_append.1 hmem with hm | hm
    · exact h.runs run hm
    · exact hadv.runs run hm

theorem run_trace {l : List (Obs T P)} {lim : Limits} (h : Run (step cfg) (start lim) l q) :
    Ran cfg l q ∧ Trace (Step cfg) Line.empty (l.map act) (abs cfg [] q) := by
  have href := RunOn.refines (R := Step cfg) (fun _ q => abs cfg [] q) act (Ran cfg)
    ⟨start_rest lim, rfl, by simp⟩ (fun l q e q' o hr _ hst => hr.step hst)
    (fun l q e q' o hr _ hst => (step_advance hr.rest hst).1.trace) h
  obtain ⟨hran, htrace⟩ := href
  refine ⟨hran, ?_⟩
  have hempty : abs cfg [] (start lim : Queue T P) = Line.empty := by simp [abs, start, running, Line.empty]
  rwa [hempty] at htrace

/-- **FIFO, exactly once, with no leaked preparation**, whatever the calls, the settlements and their order. -/
theorem queue_delivers (cfg : Config T P) (lim : Limits) (l : List (Obs T P)) (q : Queue T P)
    (h : Run (step cfg) (start lim) l q) : Delivers cfg l q := by
  obtain ⟨hran, htrace⟩ := run_trace h
  have hkept := Handoff.trace_kept htrace
  have hw := hran.rest.wf
  have hwaiting : (abs cfg [] q).waiting = q.pending.map pair := rfl
  have hahead : (abs cfg [] q).ahead = q.preparedCount := by simp [abs]
  constructor
  case fifo =>
    have hf := hkept.fifo
    rwa [handed_act, fst_pair, accepted_act] at hf
  case complete =>
    intro ho
    have hl := hkept.line ho
    rwa [accepted_act, handed_act, hwaiting, ← List.map_append, fst_pair] at hl
  case dropped => exact hw.shut
  case once =>
    have ho := hkept.order
    rwa [prepared_act, fst_pair, accepted_act] at ho
  case barrier =>
    intro l₁ f l₂ hl
    obtain ⟨unsettled, behind, heq, hnarrow⟩ := hkept.barrier (l₁.map act) f.toFrame f.prepared (l₂.map act)
      (by rw [hl, List.map_append]; rfl)
    rw [accepted_act, settled_act] at heq
    refine ⟨unsettled.map (fun b => ⟨b.1, b.2⟩), behind, ?_, fun g hg => ?_⟩
    · rw [heq]
      simp [pair, Function.comp_def]
    · obtain ⟨b, hb, rfl⟩ := List.mem_map.1 hg
      exact hnarrow b hb
  case values =>
    have hv := hkept.values
    have hsplit : q.pending.filterMap carried = (q.pending.take q.preparedCount).filterMap carried := by
      have hnone : (q.pending.drop q.preparedCount).filterMap carried = [] := by
        rw [List.filterMap_eq_nil_iff]
        intro f hf
        simp [carried, hw.fresh f hf]
      conv_lhs => rw [← List.take_append_drop q.preparedCount q.pending]
      rw [List.filterMap_append, hnone, List.append_nil]
    have hheld : (abs cfg [] q).held = [] := rfl
    rw [prepared_act, values_pair, handed_act, values_pair, discarded_act, hheld, List.append_nil, hwaiting, hahead,
      ← List.map_take, values_pair] at hv
    rw [passed_eq hran.runs, hsplit, hv]
  case bytes => exact hw.bytes
  case count => exact hw.count
  case runs => exact hran.runs
  case toggles => exact hran.toggles
  case calm => exact hran.rest.calm
  case idle => exact hran.rest.idle

/-- Message 0 is about the runner, odd ones are prepared, even ones may share a run of two. -/
def sampleConfig : Config Nat Nat where
  preparation := some ⟨fun m => some (decide (m = 0)), fun _ m => if m % 2 = 1 then some m else none⟩
  runs := some ⟨fun m => some (decide (m % 2 = 0)), 2⟩

def sampleLimits : Limits := ⟨4096, 80, by decide⟩

def sampleEvents : List (Event Nat) :=
  [.enqueue 0 5, .enqueue 1 30, .enqueue 2 3, .enqueue 4 3, .handlerSettles true, .immediate, .handlerSettles true,
    .immediate, .enqueue 3 9, .close]

theorem queue_delivers_sample : ∃ q l, (l.flatMap Obs.handed).map (fun f => f.message) = [0, 1, 2, 4] ∧
    (l.flatMap Obs.discarded).map (fun d => d.2) = [3] ∧ pressures l = [true, false] ∧ Delivers sampleConfig l q := by
  have hshown : (Sys.replay (step sampleConfig) (start sampleLimits) sampleEvents).map (fun r =>
      ((r.2.flatMap Obs.handed).map (fun f => f.message), (r.2.flatMap Obs.discarded).map (fun d => d.2),
        pressures r.2)) = some ([0, 1, 2, 4], [3], [true, false]) := by
    decide +kernel
  obtain ⟨⟨q, l⟩, hreplay, heq⟩ := Option.map_eq_some_iff.1 hshown
  simp only [Prod.mk.injEq] at heq
  obtain ⟨hhanded, hdiscarded, hpressures⟩ := heq
  exact ⟨q, l, hhanded, hdiscarded, hpressures, queue_delivers _ _ _ _ (Sys.replay_run _ _ _ _ hreplay)⟩

end Frames
end Wollipog
