import Wollipog.Frames.Queue
/-!
# Advance — what pressure and preparation do to the line

Each function of the queue is a trace of moves of the abstract line (`Advance`), over the counters it keeps (`Wf`).
-/
namespace Wollipog
namespace Frames

open Sys (Run RunOn Trace)
open Handoff (Line Act Move)

variable {T P : Type*}

def running (q : Queue T P) : List (QueuedFrame T P) :=
  match q.phase with
  | .handling run => run
  | _ => []

def pair (f : QueuedFrame T P) : Frame T × Option P := (f.toFrame, f.prepared)

def staged (cfg : Config T P) : Bool := cfg.preparation.isSome

def abs (cfg : Config T P) (flight : List (QueuedFrame T P)) (q : Queue T P) : Line (Frame T) P where
  waiting := (flight ++ q.pending).map pair
  ahead := (if staged cfg then flight.length else 0) + q.preparedCount
  busy := (running q).map pair
  closed := q.closed
  held := []

def act : Obs T P → Act (Frame T) P
  | .accepts f => .accept f.toFrame
  | .prepares f => .prepare f.toFrame f.prepared
  | .handles f => .hand [pair f]
  | .handlesRun run => .hand (run.map pair)
  | .settles run => .settle (run.map pair)
  | .closes => .close
  | .discards f v => .discard f.toFrame v
  | .pressure _ => .other
  | .drains => .other
  | .fails => .other

def Obs.pressures : Obs T P → List Bool
  | .pressure b => [b]
  | _ => []

def pressures (l : List (Obs T P)) : List Bool := l.flatMap Obs.pressures

@[simp] theorem pressures_append (l m : List (Obs T P)) : pressures (l ++ m) = pressures l ++ pressures m := by
  simp [pressures]

/-- Signals that each change the state, from `b` to `c`. -/
def Toggles : Bool → List Bool → Bool → Prop
  | b, [], c => b = c
  | b, x :: xs, c => x ≠ b ∧ Toggles x xs c

theorem Toggles.append {b c d : Bool} : ∀ {xs ys : List Bool}, Toggles b xs c → Toggles c ys d → Toggles b (xs ++ ys) d
  | [], _, h, h' => by cases h; exact h'
  | _ :: _, _, ⟨hne, h⟩, h' => ⟨hne, h.append h'⟩

structure Fits (cfg : Config T P) (run : List (QueuedFrame T P)) : Prop where
  two : 2 ≤ run.length
  limit : ∃ r, cfg.runs = some r ∧ run.length ≤ r.limit
  batchable : ∀ f ∈ run, f.batchable = true
  unprepared : ∀ f ∈ run, f.prepared = none

def totalBytes : List (QueuedFrame T P) → Nat
  | [] => 0
  | f :: l => f.bytes + totalBytes l

theorem totalBytes_append : ∀ (l m : List (QueuedFrame T P)), totalBytes (l ++ m) = totalBytes l + totalBytes m
  | [], m => by simp [totalBytes]
  | f :: l, m => by
    have ih := totalBytes_append l m
    simp only [List.cons_append, totalBytes]
    omega

structure Wf (cfg : Config T P) (q : Queue T P) : Prop where
  bytes : q.bytes = totalBytes q.pending
  count : q.preparedCount ≤ q.pending.length
  fresh : ∀ f ∈ q.pending.drop q.preparedCount, f.prepared = none
  narrow : ∀ f ∈ q.pending.take (q.preparedCount - 1), f.runnerWide = false
  shut : q.closed = true → q.pending = []
  unstaged : staged cfg = false → q.preparedCount = 0

def Apart (flight : List (QueuedFrame T P)) (q : Queue T P) : Prop :=
  q.handlingRunnerWide = false → ∀ f ∈ running q ++ flight, f.runnerWide = false

abbrev Step (cfg : Config T P) : Line (Frame T) P → Act (Frame T) P → Line (Frame T) P → Prop :=
  Move Frame.runnerWide (staged cfg)

structure Advance (cfg : Config T P) (flight flight' : List (QueuedFrame T P)) (q q' : Queue T P) (o : List (Obs T P)) :
    Prop where
  wf : Wf cfg q'
  trace : Trace (Step cfg) (abs cfg flight q) (o.map act) (abs cfg flight' q')
  toggles : Toggles q.pressured (pressures o) q'.pressured
  runs : ∀ run, .handlesRun run ∈ o → Fits cfg run

variable {cfg : Config T P}

variable {flight : List (QueuedFrame T P)}

theorem Advance.refl {q : Queue T P} (h : Wf cfg q) : Advance cfg flight flight q q [] := ⟨h, .nil, rfl, by simp⟩

theorem Advance.trans {f₁ f₂ f₃ : List (QueuedFrame T P)} {q₁ q₂ q₃ : Queue T P} {o o' : List (Obs T P)}
    (h : Advance cfg f₁ f₂ q₁ q₂ o) (h' : Advance cfg f₂ f₃ q₂ q₃ o') : Advance cfg f₁ f₃ q₁ q₃ (o ++ o') := by
  refine ⟨h'.wf, ?_, ?_, fun run hmem => ?_⟩
  · rw [List.map_append]; exact h.trace.append h'.trace
  · rw [pressures_append]; exact h.toggles.append h'.toggles
  · rcases List.mem_append.1 hmem with hm | hm
    · exact h.runs run hm
    · exact h'.runs run hm

theorem Advance.silent {f f' : List (QueuedFrame T P)} {q q' : Queue T P} (hw : Wf cfg q')
    (ha : abs cfg f' q' = abs cfg f q) (hp : q'.pressured = q.pressured) : Advance cfg f f' q q' [] := by
  refine ⟨hw, ?_, hp.symm, by simp⟩
  rw [ha]
  exact .nil

theorem Advance.one {f f' : List (QueuedFrame T P)} {q q' : Queue T P} {x : Obs T P} (hw : Wf cfg q')
    (hm : Step cfg (abs cfg f q) (act x) (abs cfg f' q')) (hx : x.pressures = [])
    (hp : q'.pressured = q.pressured) (hr : ∀ run, x = .handlesRun run → Fits cfg run) : Advance cfg f f' q q' [x] := by
  refine ⟨hw, .single hm, ?_, fun run hmem => ?_⟩
  · rw [show pressures [x] = [] by simp [pressures, hx]]; exact hp.symm
  · exact hr run (List.mem_singleton.1 hmem).symm

theorem updatePressure_fst (q : Queue T P) : (updatePressure q).1 = { q with pressured := paused q } := by
  unfold updatePressure
  split
  · rename_i h; rw [h]
  · rfl

theorem Wf.pressured {q : Queue T P} (h : Wf cfg q) (b : Bool) : Wf cfg { q with pressured := b } :=
  ⟨h.bytes, h.count, h.fresh, h.narrow, h.shut, h.unstaged⟩

theorem updatePressure_advance (flight : List (QueuedFrame T P)) {q : Queue T P} (h : Wf cfg q) :
    Advance cfg flight flight q (updatePressure q).1 (updatePressure q).2 := by
  rw [updatePressure_fst]
  refine ⟨h.pressured _, ?_, ?_, ?_⟩
  · have habs : abs cfg flight { q with pressured := paused q } = abs cfg flight q := rfl
    rw [habs]
    unfold updatePressure
    split
    · exact .nil
    · exact .single .other
  · unfold updatePressure
    split
    · rename_i hp; exact hp.symm
    · rename_i hp; exact ⟨hp, rfl⟩
  · unfold updatePressure
    split <;> simp

def Calm (q : Queue T P) : Prop := q.pending = [] → q.pressured = false

theorem updatePressure_calm {q : Queue T P} (h : Wf cfg q) : Calm (updatePressure q).1 := by
  intro hempty
  rw [updatePressure_fst] at hempty ⊢
  simp only at hempty ⊢
  have hbytes : q.bytes = 0 := by rw [h.bytes, hempty]; rfl
  have hpos := q.limits.positive
  have hhigh : 0 < highFrames q := by unfold highFrames; omega
  unfold paused
  rw [hempty, hbytes]
  split
  · simp
  · have h1 : ¬ highFrames q ≤ 0 := by omega
    have h2 : ¬ q.limits.bytes ≤ 0 := by omega
    simp [h1, h2]

theorem prepareNext_some {p : RunnerFramePreparation T P} {q q' : Queue T P} {done : QueuedFrame T P} (h : Wf cfg q)
    (hn : prepareNext p q = some (done, q')) :
    ∃ pre frame post, q.pending = pre ++ frame :: post ∧ pre.length = q.preparedCount ∧
      (∀ f ∈ pre, f.runnerWide = false) ∧
      done = { frame with prepared := p.prepare q.prepares frame.message } ∧
      q' = { q with pending := pre ++ done :: post, preparedCount := q.preparedCount + 1, prepares := q.prepares + 1 } := by
  unfold prepareNext at hn
  split at hn
  · cases hn
  · rename_i hblocked
    obtain ⟨frame, hframe, heq⟩ := Option.map_eq_some_iff.1 hn
    obtain ⟨hlt, hget⟩ := List.getElem?_eq_some_iff.1 hframe
    simp only [Prod.mk.injEq] at heq
    obtain ⟨hdone, rfl⟩ := heq
    have hsplit : q.pending = q.pending.take q.preparedCount ++ frame :: q.pending.drop (q.preparedCount + 1) := by
      rw [← hget, List.getElem_cons_drop, List.take_append_drop]
    have hlen : (q.pending.take q.preparedCount).length = q.preparedCount := by
      rw [List.length_take]; omega
    refine ⟨q.pending.take q.preparedCount, frame, q.pending.drop (q.preparedCount + 1), hsplit, hlen, ?_, hdone.symm, ?_⟩
    · -- the frames before the last one by `narrow`, the last one because nothing blocks
      intro f hf
      obtain ⟨i, hi, rfl⟩ := List.mem_iff_getElem.1 hf
      rw [List.length_take] at hi
      rw [List.getElem_take]
      by_cases hlast : i = q.preparedCount - 1
      · subst hlast
        have hpos : 0 < q.preparedCount := by omega
        have hb : blocked q = false := by simpa using hblocked
        unfold blocked at hb
        rw [List.getElem?_eq_getElem (by omega)] at hb
        simpa [hpos] using hb
      · refine h.narrow _ ?_
        rw [List.mem_take_iff_getElem]
        exact ⟨i, by omega, rfl⟩
    · rw [hdone, List.set_eq_take_append_cons_drop, if_pos hlt]

theorem prepareNext_advance {p : RunnerFramePreparation T P} {q q' : Queue T P}
    {done : QueuedFrame T P} (hp : cfg.preparation = some p) (h : Wf cfg q) (ha : Apart flight q)
    (hfree : q.handlingRunnerWide = false) (hn : prepareNext p q = some (done, q')) :
    Advance cfg flight flight q q' [.prepares done] ∧ Apart flight q' ∧ q'.handlingRunnerWide = false := by
  obtain ⟨pre, frame, post, hw, hlen, hpre, hdone, rfl⟩ := prepareNext_some h hn
  have hst : staged cfg = true := by unfold staged; rw [hp]; rfl
  have hopen : q.closed = false := by
    cases hc : q.closed with
    | false => rfl
    | true => rw [h.shut hc] at hw; exact absurd hw (by simp)
  have hfreshFrame : frame.prepared = none := by
    refine h.fresh frame ?_
    rw [hw, ← hlen, List.drop_left]
    exact List.mem_cons_self
  have hbare : done.toFrame = frame.toFrame := by rw [hdone]
  have hbytes : done.bytes = frame.bytes := by rw [hdone]
  have htake : (pre ++ done :: post).take q.preparedCount = pre := by rw [← hlen, List.take_left]
  have hdrop : (pre ++ done :: post).drop (q.preparedCount + 1) = post := by rw [← hlen]; simp [List.drop_append]
  have hwf : Wf cfg { q with
      pending := pre ++ done :: post, preparedCount := q.preparedCount + 1, prepares := q.prepares + 1 } := by
    refine ⟨?_, ?_, ?_, ?_, ?_, ?_⟩
    · have hb := h.bytes
      rw [hw, totalBytes_append] at hb
      simpa only [totalBytes_append, totalBytes, hbytes] using hb
    · simp only [List.length_append, List.length_cons]; omega
    · intro f hf
      simp only [hdrop] at hf
      refine h.fresh f ?_
      rw [hw, ← hlen, List.drop_left]
      exact List.mem_cons_of_mem _ hf
    · intro f hf
      simp only [Nat.add_sub_cancel, htake] at hf
      exact hpre f hf
    · intro hc; simp only [hopen] at hc; cases hc
    · intro hf; rw [hst] at hf; cases hf
  refine ⟨Advance.one hwf ?_ rfl rfl (by simp), ha, hfree⟩
  have hline : (abs cfg flight q).waiting = (flight ++ pre).map pair ++ (done.toFrame, none) :: post.map pair := by
    simp [abs, hw, pair, hbare, hfreshFrame]
  have hahead : ((flight ++ pre).map pair).length = (abs cfg flight q).ahead := by simp [abs, hst, hlen]
  have hbarrier : ∀ b ∈ (abs cfg flight q).busy ++ (flight ++ pre).map pair, b.1.runnerWide = false := by
    intro b hb
    simp only [abs, ← List.map_append, List.mem_map] at hb
    obtain ⟨f, hf, rfl⟩ := hb
    rw [← List.append_assoc, List.mem_append] at hf
    rcases hf with hbusy | hp'
    · exact ha hfree f hbusy
    · exact hpre f hp'
  have hafter : abs cfg flight { q with
      pending := pre ++ done :: post, preparedCount := q.preparedCount + 1, prepares := q.prepares + 1 } =
      { abs cfg flight q with
        waiting := (flight ++ pre).map pair ++ (done.toFrame, done.prepared) :: post.map pair
        ahead := (abs cfg flight q).ahead + 1 } := by
    simp [abs, pair, running, Nat.add_assoc]
  rw [hafter]
  exact .prepare hst hopen hline hahead hbarrier

theorem prepareLoop_advance {p : RunnerFramePreparation T P}
    (hp : cfg.preparation = some p) : ∀ (n : Nat) (q : Queue T P), Wf cfg q → Apart flight q →
      q.handlingRunnerWide = false → Advance cfg flight flight q (prepareLoop p n q).1 (prepareLoop p n q).2
  | 0, _, h, _, _ => .refl h
  | n + 1, q, h, ha, hfree => by
    rw [prepareLoop]
    cases hn : prepareNext p q with
    | none => exact .refl h
    | some r =>
      obtain ⟨done, q'⟩ := r
      obtain ⟨hadv, ha', hfree'⟩ := prepareNext_advance hp h ha hfree hn
      exact hadv.trans (prepareLoop_advance hp n q' hadv.wf ha' hfree')

theorem prepareAhead_advance {q : Queue T P} (h : Wf cfg q) (ha : Apart flight q) :
    Advance cfg flight flight q (prepareAhead cfg q).1 (prepareAhead cfg q).2 := by
  unfold prepareAhead
  split
  · exact .refl h
  · rename_i p hp
    split
    · exact .refl h
    · rename_i hfree
      exact prepareLoop_advance hp _ q h ha (by simpa using hfree)

structure Same (q q' : Queue T P) : Prop where
  length : q'.pending.length = q.pending.length
  count : q.preparedCount ≤ q'.preparedCount
  closed : q'.closed = q.closed
  pressured : q'.pressured = q.pressured
  phase : q'.phase = q.phase
  wide : q'.handlingRunnerWide = q.handlingRunnerWide

theorem prepareLoop_same (p : RunnerFramePreparation T P) : ∀ (n : Nat) (q : Queue T P), Same q (prepareLoop p n q).1
  | 0, q => ⟨rfl, Nat.le_refl _, rfl, rfl, rfl, rfl⟩
  | n + 1, q => by
    rw [prepareLoop]
    cases hn : prepareNext p q with
    | none => exact ⟨rfl, Nat.le_refl _, rfl, rfl, rfl, rfl⟩
    | some r =>
      obtain ⟨done, q'⟩ := r
      have ih := prepareLoop_same p n q'
      unfold prepareNext at hn
      split at hn
      · cases hn
      · obtain ⟨frame, -, heq⟩ := Option.map_eq_some_iff.1 hn
        cases heq
        refine ⟨?_, Nat.le_trans (Nat.le_succ _) ih.count, ih.closed, ih.pressured, ih.phase, ih.wide⟩
        rw [ih.length]
        simp

theorem prepareAhead_same (cfg : Config T P) (q : Queue T P) : Same q (prepareAhead cfg q).1 := by
  unfold prepareAhead
  split
  · exact ⟨rfl, Nat.le_refl _, rfl, rfl, rfl, rfl⟩
  · split
    · exact ⟨rfl, Nat.le_refl _, rfl, rfl, rfl, rfl⟩
    · exact prepareLoop_same _ _ q

theorem Same.calm {q q' : Queue T P} (h : Same q q') (hc : Calm q) : Calm q' := by
  intro hempty
  have hlen := h.length
  rw [hempty] at hlen
  rw [h.pressured]
  exact hc (List.length_eq_zero_iff.1 hlen.symm)

theorem Same.running {q q' : Queue T P} (h : Same q q') : Frames.running q' = Frames.running q := by
  unfold Frames.running; rw [h.phase]

theorem Same.apart {q q' : Queue T P} (h : Same q q') (ha : Apart flight q) : Apart flight q' := by
  unfold Apart
  rw [h.running, h.wide]
  exact ha

/-- **The first frame is prepared before it is taken.** -/
theorem prepareAhead_pos {q : Queue T P} (hst : staged cfg = true) (hfree : q.handlingRunnerWide = false)
    (hne : q.pending ≠ []) : 0 < (prepareAhead cfg q).1.preparedCount := by
  unfold staged at hst
  obtain ⟨p, hp⟩ := Option.isSome_iff_exists.1 hst
  by_cases hpos : 0 < q.preparedCount
  · exact Nat.lt_of_lt_of_le hpos (prepareAhead_same cfg q).count
  · have hzero : q.preparedCount = 0 := by omega
    have hlen : 0 < q.pending.length := List.length_pos_iff.2 hne
    obtain ⟨n, hn⟩ : ∃ n, q.pending.length - q.preparedCount = n + 1 := ⟨q.pending.length - 1, by omega⟩
    unfold prepareAhead
    rw [hp]
    simp only [hfree, Bool.false_eq_true, if_false, hn]
    rw [prepareLoop]
    have hblocked : blocked q = false := by unfold blocked; rw [hzero]; rfl
    have hnext : ∃ done, prepareNext p q = some (done, { q with
        pending := q.pending.set q.preparedCount done, preparedCount := q.preparedCount + 1,
        prepares := q.prepares + 1 }) := by
      unfold prepareNext
      rw [hblocked, if_neg (by simp), hzero, List.getElem?_eq_getElem hlen]
      exact ⟨_, rfl⟩
    obtain ⟨done, hdone⟩ := hnext
    rw [hdone]
    have hcount := (prepareLoop_same p n { q with
        pending := q.pending.set q.preparedCount done, preparedCount := q.preparedCount + 1,
        prepares := q.prepares + 1 }).count
    simp only at hcount ⊢
    omega

end Frames
end Wollipog
