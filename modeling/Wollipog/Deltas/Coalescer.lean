import Wollipog.Lib.Run
import Mathlib.Data.List.Forall2
/-!
# Coalescer — streamed text deltas, merged

Consecutive deltas of one stream become one event, with at most one text event in a window; whatever else comes first
sends the text that waits.
-/
namespace Wollipog.Deltas

abbrev Text := List UInt16

inductive Kind
  | agentMessage | agentThought | other (name : String)
  deriving DecidableEq

/-- An event of a driver; `others` are its further fields, of a kind or value that no merge reads. -/
structure Payload (ε : Type) where
  kind : Kind
  text : Option Text
  final : Option Bool
  messageId : Option String
  parentToolUseId : Option String
  others : List (String × ε)
  deriving DecidableEq

variable {ε : Type}

def textDeltaWindowMs : Int := 75

def textDeltaMaxPendingChars : Nat := 4 * 1024

def deltaFields : List String := ["kind", "text", "final", "messageId", "parentToolUseId"]

def isCoalescibleTextDelta (payload : Payload ε) : Bool :=
  (payload.kind == .agentMessage || payload.kind == .agentThought) && payload.final != some true && payload.text.isSome &&
    payload.others.all (fun field => deltaFields.contains field.1)

def sameStream (a b : Payload ε) : Bool :=
  a.kind == b.kind && a.messageId.getD "" == b.messageId.getD "" && a.parentToolUseId.getD "" == b.parentToolUseId.getD ""

def Payload.chars (payload : Payload ε) : Text := payload.text.getD []

/-- How an emission ended: a flush reports its failure, and a push throws it to its caller. -/
inductive Outcome
  | done | reported | thrown
  deriving DecidableEq

inductive Seen (ε : Type)
  | pushed (payload : Payload ε)
  | emitted (payload : Payload ε) (outcome : Outcome)
  | called (name : String)
  deriving DecidableEq

structure Coalescer (ε : Type) where
  windowMs : Int := textDeltaWindowMs
  maxPendingChars : Nat := textDeltaMaxPendingChars
  pending : Option (Payload ε) := none
  pendingChunks : List Text := []
  pendingChars : Nat := 0
  /-- `none` before any text was emitted. -/
  lastTextEmitAt : Option Int := none
  /-- The delay of the timer that runs. -/
  timer : Option Int := none
  closed : Bool := false

/-- What the clock and `emit` answer in one call: to the flush in it, and to its own emission. -/
structure Answers where
  flushAt : Int
  flushFails : Bool
  now : Int
  fails : Bool

namespace Coalescer

def flush (c : Coalescer ε) (a : Answers) : Coalescer ε × List (Seen ε) :=
  let stopped := { c with timer := none }
  match c.pending with
  | none => (stopped, [])
  | some pending =>
    ({ stopped with pending := none, pendingChunks := [], pendingChars := 0, lastTextEmitAt := some a.flushAt },
      [.emitted { pending with text := some c.pendingChunks.flatten } (if a.flushFails then .reported else .done)])

def emit (payload : Payload ε) (a : Answers) : Seen ε := .emitted payload (if a.fails then .thrown else .done)

def quiet (c : Coalescer ε) (now : Int) : Bool := c.lastTextEmitAt.all (fun last => decide (c.windowMs ≤ now - last))

/-- A delta when nothing waits: out at once after a quiet window, and else it waits with a timer. -/
def pushFirst (c : Coalescer ε) (payload : Payload ε) (a : Answers) : Coalescer ε × List (Seen ε) :=
  if c.quiet a.now then ({ c with lastTextEmitAt := some a.now }, [emit payload a])
  else
    ({ c with
        pending := some payload
        pendingChunks := [payload.chars]
        pendingChars := payload.chars.length
        timer := some (max 0 (c.lastTextEmitAt.getD 0 + c.windowMs - a.now)) }, [])

def apart (c : Coalescer ε) (payload : Payload ε) : Bool :=
  c.pending.any (fun pending => !sameStream pending payload || decide (c.maxPendingChars < c.pendingChars + payload.chars.length))

def pushDelta (c : Coalescer ε) (payload : Payload ε) (a : Answers) : Coalescer ε × List (Seen ε) :=
  match c.pending with
  | some _ => ({ c with pendingChunks := c.pendingChunks ++ [payload.chars], pendingChars := c.pendingChars + payload.chars.length }, [])
  | none => c.pushFirst payload a

def push (c : Coalescer ε) (payload : Payload ε) (a : Answers) : Coalescer ε × List (Seen ε) :=
  if c.closed || !isCoalescibleTextDelta payload then
    let flushed := c.flush a
    (flushed.1, flushed.2 ++ [emit payload a])
  else
    let flushed := if c.apart payload then c.flush a else (c, [])
    let pushed := flushed.1.pushDelta payload a
    (pushed.1, flushed.2 ++ pushed.2)

def close (c : Coalescer ε) (a : Answers) : Coalescer ε × List (Seen ε) := { c with closed := true }.flush a

end Coalescer

/-- What can happen: a push, the timer, a flush, a close, and another callback of the driver. -/
inductive Op (ε : Type)
  | push (payload : Payload ε) (a : Answers)
  | fire (a : Answers)
  | flush (a : Answers)
  | close (a : Answers)
  | callback (name : String) (a : Answers)

def coalesceDriverTextDeltas (c : Coalescer ε) (name : String) (a : Answers) : Coalescer ε × List (Seen ε) :=
  if name = "supportsWorkerAttention" then (c, [.called name])
  else
    let flushed := c.flush a
    (flushed.1, flushed.2 ++ [.called name])

def step (c : Coalescer ε) : Op ε → Option (Coalescer ε × List (Seen ε))
  | .push payload a =>
    let pushed := c.push payload a
    some (pushed.1, .pushed payload :: pushed.2)
  | .fire a => if c.timer.isSome then some (c.flush a) else none
  | .flush a => some (c.flush a)
  | .close a => some (c.close a)
  | .callback name a => some (coalesceDriverTextDeltas c name a)

def pushed (l : List (Seen ε)) : List (Payload ε) :=
  l.filterMap (fun | .pushed payload => some payload | _ => none)

def emitted (l : List (Seen ε)) : List (Payload ε) :=
  l.filterMap (fun | .emitted payload _ => some payload | _ => none)

@[simp] theorem pushed_append (l k : List (Seen ε)) : pushed (l ++ k) = pushed l ++ pushed k := List.filterMap_append

@[simp] theorem emitted_append (l k : List (Seen ε)) : emitted (l ++ k) = emitted l ++ emitted k := List.filterMap_append

structure OneStream (first : Payload ε) (rest : List (Payload ε)) : Prop where
  delta : ∀ d ∈ first :: rest, isCoalescibleTextDelta d = true
  same : ∀ d ∈ rest, sameStream first d = true

def joined (first : Payload ε) (rest : List (Payload ε)) : Payload ε :=
  { first with text := some ((first :: rest).map Payload.chars).flatten }

/-- An event stands for itself, or for deltas of one stream that fit the cap together. -/
def StandsFor (cap : Nat) (run : List (Payload ε)) (event : Payload ε) : Prop :=
  run = [event] ∨ ∃ first rest, run = first :: rest ∧ OneStream first rest ∧ event = joined first rest ∧ event.chars.length ≤ cap

structure Waits (c : Coalescer ε) (held : List (Payload ε)) : Prop where
  idle : c.pending = none → held = []
  stream : ∀ first, c.pending = some first → ∃ rest, held = first :: rest ∧ OneStream first rest ∧
    (rest ≠ [] → c.pendingChars ≤ c.maxPendingChars)
  chunks : c.pending.isSome = true → c.pendingChunks = held.map Payload.chars
  chars : c.pending.isSome = true → c.pendingChars = (held.map Payload.chars).flatten.length
  armed : c.pending.isSome = true → c.timer.isSome = true

def Kept (cap : Nat) (l : List (Seen ε)) (c : Coalescer ε) : Prop :=
  c.maxPendingChars = cap ∧ ∃ runs held, pushed l = runs.flatten ++ held ∧ List.Forall₂ (StandsFor cap) runs (emitted l) ∧ Waits c held

theorem chars_of_delta {d : Payload ε} (hd : isCoalescibleTextDelta d = true) : d.text = some d.chars := by
  unfold isCoalescibleTextDelta at hd
  simp only [Bool.and_eq_true] at hd
  obtain ⟨text, htext⟩ := Option.isSome_iff_exists.1 hd.1.2
  rw [Payload.chars, htext]
  rfl

theorem joined_nil {d : Payload ε} (hd : isCoalescibleTextDelta d = true) : joined d [] = d := by
  unfold joined
  rw [List.map_singleton, List.flatten_singleton, ← chars_of_delta hd]

theorem waits_idle {c : Coalescer ε} (hnone : c.pending = none) : Waits c [] where
  idle := fun _ => rfl
  stream := fun first h => by rw [hnone] at h; cases h
  chunks := fun h => by rw [hnone] at h; cases h
  chars := fun h => by rw [hnone] at h; cases h
  armed := fun h => by rw [hnone] at h; cases h

/-! ## Each step -/

theorem flush_of_none {c : Coalescer ε} (hnone : c.pending = none) (a : Answers) : c.flush a = ({ c with timer := none }, []) := by
  unfold Coalescer.flush
  rw [hnone]

theorem flush_of_some {c : Coalescer ε} {first : Payload ε} (hsome : c.pending = some first) (a : Answers) :
    c.flush a = ({ c with timer := none, pending := none, pendingChunks := [], pendingChars := 0, lastTextEmitAt := some a.flushAt },
      [.emitted { first with text := some c.pendingChunks.flatten } (if a.flushFails then .reported else .done)]) := by
  unfold Coalescer.flush
  rw [hsome]

theorem pushDelta_of_none {c : Coalescer ε} (hnone : c.pending = none) (payload : Payload ε) (a : Answers) :
    c.pushDelta payload a = c.pushFirst payload a := by
  unfold Coalescer.pushDelta
  rw [hnone]

theorem pushDelta_of_some {c : Coalescer ε} {first : Payload ε} (hsome : c.pending = some first) (payload : Payload ε) (a : Answers) :
    c.pushDelta payload a =
      ({ c with pendingChunks := c.pendingChunks ++ [payload.chars], pendingChars := c.pendingChars + payload.chars.length }, []) := by
  unfold Coalescer.pushDelta
  rw [hsome]

theorem flush_pending (c : Coalescer ε) (a : Answers) : (c.flush a).1.pending = none := by
  rcases Option.eq_none_or_eq_some c.pending with hp | ⟨first, hp⟩
  · rw [flush_of_none hp]
    exact hp
  · rw [flush_of_some hp]

theorem flush_cap (c : Coalescer ε) (a : Answers) : (c.flush a).1.maxPendingChars = c.maxPendingChars := by
  unfold Coalescer.flush
  cases c.pending <;> rfl

theorem pushed_flush (c : Coalescer ε) (a : Answers) : pushed (c.flush a).2 = [] := by
  unfold Coalescer.flush
  cases c.pending <;> rfl

variable {cap : Nat} {l : List (Seen ε)} {c : Coalescer ε}

/-- **A flush** emits the deltas that wait, as one event. -/
theorem Kept.flush (hk : Kept cap l c) (a : Answers) : Kept cap (l ++ (c.flush a).2) (c.flush a).1 := by
  obtain ⟨hcap, runs, held, hpushed, hruns, hwaits⟩ := hk
  refine ⟨(flush_cap c a).trans hcap, ?_⟩
  rw [pushed_append, pushed_flush, List.append_nil, emitted_append]
  rcases Option.eq_none_or_eq_some c.pending with hp | ⟨first, hp⟩
  · rw [flush_of_none hp]
    have hheld := hwaits.idle hp
    have hruns' : List.Forall₂ (StandsFor cap) runs (emitted l ++ emitted []) := (List.append_nil (emitted l)).symm ▸ hruns
    have hidle : ({ c with timer := none } : Coalescer ε).pending = none := hp
    exact ⟨runs, [], by rw [hpushed, hheld], hruns', waits_idle hidle⟩
  · rw [flush_of_some hp]
    obtain ⟨rest, hheld, hstream, hfits⟩ := hwaits.stream first hp
    have hsome : c.pending.isSome = true := by rw [hp]; rfl
    have hchunks := hwaits.chunks hsome
    have hchars := hwaits.chars hsome
    have hevent : ({ first with text := some c.pendingChunks.flatten } : Payload ε) = joined first rest := by
      rw [hchunks, hheld]
      rfl
    have hstands : StandsFor cap held { first with text := some c.pendingChunks.flatten } := by
      rw [hevent, hheld]
      by_cases hrest : rest = []
      · subst hrest
        rw [joined_nil (hstream.delta first List.mem_cons_self)]
        exact .inl rfl
      · refine .inr ⟨first, rest, rfl, hstream, rfl, ?_⟩
        have hlength : (joined first rest).chars.length = c.pendingChars := by
          rw [hchars, hheld]
          rfl
        rw [hlength, ← hcap]
        exact hfits hrest
    refine ⟨runs ++ [held], [], ?_, ?_, waits_idle rfl⟩
    · rw [hpushed, List.flatten_append, List.flatten_singleton, List.append_nil]
    · exact List.rel_append hruns (List.Forall₂.cons hstands List.Forall₂.nil)

theorem Kept.direct (hk : Kept cap l c) (hnone : c.pending = none) {c' : Coalescer ε} (hnone' : c'.pending = none)
    (hcap : c'.maxPendingChars = c.maxPendingChars) (payload : Payload ε) {k : List (Seen ε)} (hpushed : pushed k = [payload])
    (hemitted : emitted k = [payload]) : Kept cap (l ++ k) c' := by
  obtain ⟨hc, runs, held, hp, hruns, hwaits⟩ := hk
  refine ⟨hcap.trans hc, runs ++ [[payload]], [], ?_, ?_, waits_idle hnone'⟩
  · rw [pushed_append, hp, hwaits.idle hnone, hpushed, List.flatten_append]
    simp
  · rw [emitted_append, hemitted]
    exact List.rel_append hruns (List.Forall₂.cons (.inl rfl) List.Forall₂.nil)

theorem kept_swap {payload : Payload ε} {k m : List (Seen ε)} (hk : pushed k = []) :
    Kept cap (l ++ (k ++ .pushed payload :: m)) c ↔ Kept cap (l ++ .pushed payload :: (k ++ m)) c := by
  have hpushed : pushed (l ++ (k ++ .pushed payload :: m)) = pushed (l ++ .pushed payload :: (k ++ m)) := by
    have hcons (n : List (Seen ε)) : pushed (Seen.pushed payload :: n) = payload :: pushed n := rfl
    rw [pushed_append, pushed_append, pushed_append, hcons, hcons, pushed_append, hk]
    rfl
  have hemitted : emitted (l ++ (k ++ .pushed payload :: m)) = emitted (l ++ .pushed payload :: (k ++ m)) := by
    have hcons (n : List (Seen ε)) : emitted (Seen.pushed payload :: n) = emitted n := rfl
    rw [emitted_append, emitted_append, emitted_append, hcons, hcons, emitted_append]
  unfold Kept
  rw [hpushed, hemitted]

theorem Kept.pushFirst (hk : Kept cap l c) {payload : Payload ε} (hdelta : isCoalescibleTextDelta payload = true)
    (hp : c.pending = none) (a : Answers) :
    Kept cap (l ++ .pushed payload :: (c.pushFirst payload a).2) (c.pushFirst payload a).1 := by
  unfold Coalescer.pushFirst
  by_cases hquiet : c.quiet a.now = true
  · rw [if_pos hquiet]
    have hemitted : emitted [.pushed payload, Coalescer.emit payload a] = [payload] := rfl
    have hidle : ({ c with lastTextEmitAt := some a.now } : Coalescer ε).pending = none := hp
    exact hk.direct hp hidle rfl payload rfl hemitted
  · rw [if_neg hquiet]
    obtain ⟨hc, runs, held, hpushed, hruns, hwaits⟩ := hk
    refine ⟨hc, runs, [payload], ?_, ?_, ?_⟩
    · rw [pushed_append, hpushed, hwaits.idle hp, List.append_nil]
      rfl
    · rw [emitted_append]
      exact (List.append_nil (emitted l)).symm ▸ hruns
    · constructor
      · exact fun h => absurd h (Option.some_ne_none payload)
      · intro first hfirst
        cases hfirst
        refine ⟨[], rfl, ⟨fun d hd => ?_, List.forall_mem_nil _⟩, fun h => absurd rfl h⟩
        rw [List.mem_singleton.1 hd]
        exact hdelta
      · exact fun _ => rfl
      · intro _
        rw [List.map_singleton, List.flatten_singleton]
      · exact fun _ => rfl

theorem Kept.join (hk : Kept cap l c) {first payload : Payload ε} (hdelta : isCoalescibleTextDelta payload = true)
    (hjoins : c.apart payload = false) (hp : c.pending = some first) :
    Kept cap (l ++ [.pushed payload])
      { c with pendingChunks := c.pendingChunks ++ [payload.chars], pendingChars := c.pendingChars + payload.chars.length } := by
  obtain ⟨hc, runs, held, hpushed, hruns, hwaits⟩ := hk
  obtain ⟨rest, hheld, hstream, _⟩ := hwaits.stream first hp
  have hsome : c.pending.isSome = true := by rw [hp]; rfl
  have hfits : sameStream first payload = true ∧ c.pendingChars + payload.chars.length ≤ c.maxPendingChars := by
    unfold Coalescer.apart at hjoins
    rw [hp, Option.any_some, Bool.or_eq_false_iff, Bool.not_eq_false', decide_eq_false_iff_not, Nat.not_lt] at hjoins
    exact hjoins
  refine ⟨hc, runs, held ++ [payload], ?_, ?_, ?_⟩
  · rw [pushed_append, hpushed, List.append_assoc]
    rfl
  · rw [emitted_append]
    exact (List.append_nil (emitted l)).symm ▸ hruns
  · constructor
    · intro h
      have hnone : c.pending = none := h
      rw [hp] at hnone
      cases hnone
    · intro first' hfirst
      obtain rfl := Option.some.inj (hp.symm.trans hfirst)
      refine ⟨rest ++ [payload], by rw [hheld]; rfl, ⟨fun d hd => ?_, fun d hd => ?_⟩, fun _ => hfits.2⟩
      · rw [← List.cons_append, List.mem_append, List.mem_singleton] at hd
        rcases hd with hold | rfl
        · exact hstream.delta d hold
        · exact hdelta
      · rw [List.mem_append, List.mem_singleton] at hd
        rcases hd with hold | rfl
        · exact hstream.same d hold
        · exact hfits.1
    · intro _
      rw [List.map_append, ← hwaits.chunks hsome]
      rfl
    · intro _
      rw [List.map_append, List.flatten_append, List.length_append, ← hwaits.chars hsome, List.map_singleton, List.flatten_singleton]
    · exact fun _ => hwaits.armed hsome

theorem Kept.pushDelta (hk : Kept cap l c) {payload : Payload ε} (hdelta : isCoalescibleTextDelta payload = true)
    (hjoins : c.apart payload = false) (a : Answers) :
    Kept cap (l ++ .pushed payload :: (c.pushDelta payload a).2) (c.pushDelta payload a).1 := by
  rcases Option.eq_none_or_eq_some c.pending with hp | ⟨first, hp⟩
  · rw [pushDelta_of_none hp]
    exact hk.pushFirst hdelta hp a
  · rw [pushDelta_of_some hp]
    exact hk.join hdelta hjoins hp

/-- **A push** -/
theorem Kept.push (hk : Kept cap l c) (payload : Payload ε) (a : Answers) :
    Kept cap (l ++ .pushed payload :: (c.push payload a).2) (c.push payload a).1 := by
  unfold Coalescer.push
  by_cases hpass : (c.closed || !isCoalescibleTextDelta payload) = true
  · rw [if_pos hpass, ← kept_swap (pushed_flush c a), ← List.append_assoc]
    exact (hk.flush a).direct (flush_pending c a) (flush_pending c a) rfl payload rfl rfl
  · rw [if_neg hpass]
    have hdelta : isCoalescibleTextDelta payload = true := by
      by_contra hnot
      exact hpass (by simp [hnot])
    simp only
    by_cases hapart : c.apart payload = true
    · rw [if_pos hapart, ← kept_swap (pushed_flush c a), ← List.append_assoc]
      refine (hk.flush a).pushDelta hdelta ?_ a
      unfold Coalescer.apart
      rw [flush_pending]
      rfl
    · rw [if_neg hapart]
      exact hk.pushDelta hdelta (Bool.eq_false_iff.2 hapart) a

theorem Kept.called (hk : Kept cap l c) (name : String) : Kept cap (l ++ [.called name]) c := by
  have hpushed : pushed (l ++ [.called name]) = pushed l := (pushed_append _ _).trans (List.append_nil _)
  have hemitted : emitted (l ++ [.called name]) = emitted l := (emitted_append _ _).trans (List.append_nil _)
  unfold Kept
  rw [hpushed, hemitted]
  exact hk

theorem kept_step {op : Op ε} {c' : Coalescer ε} {o : List (Seen ε)} (hk : Kept cap l c) (hstep : step c op = some (c', o)) :
    Kept cap (l ++ o) c' := by
  cases op with
  | push payload a =>
    cases hstep
    exact hk.push payload a
  | fire a =>
    simp only [step] at hstep
    split at hstep
    · have hflushed := hk.flush a
      rw [Option.some.inj hstep] at hflushed
      exact hflushed
    · cases hstep
  | flush a =>
    have hflushed := hk.flush a
    have heq : c.flush a = (c', o) := Option.some.inj hstep
    rw [heq] at hflushed
    exact hflushed
  | close a =>
    have hclosed : Kept cap l { c with closed := true } := by
      obtain ⟨hc, runs, held, hp, hruns, hw⟩ := hk
      exact ⟨hc, runs, held, hp, hruns, ⟨hw.idle, hw.stream, hw.chunks, hw.chars, hw.armed⟩⟩
    have hflushed := hclosed.flush a
    have heq : Coalescer.flush { c with closed := true } a = (c', o) := Option.some.inj hstep
    rw [heq] at hflushed
    exact hflushed
  | callback name a =>
    simp only [step, coalesceDriverTextDeltas] at hstep
    split at hstep
    · cases hstep
      exact hk.called name
    · cases hstep
      rw [← List.append_assoc]
      exact (hk.flush a).called name

theorem kept_run {windowMs : Int} {maxPendingChars : Nat}
    (hrun : Sys.Run step { windowMs := windowMs, maxPendingChars := maxPendingChars } l c) : Kept maxPendingChars l c :=
  hrun.hist (Kept maxPendingChars) ⟨rfl, [], [], rfl, List.Forall₂.nil, waits_idle rfl⟩ (fun _ _ _ _ _ hk _ hstep => kept_step hk hstep)

/-- **Coalescing preserves the stream**: what was emitted is what was pushed with adjacent deltas joined within the cap, up
to those that still wait. -/
theorem coalescing_preserves_stream {windowMs : Int} {maxPendingChars : Nat}
    (hrun : Sys.Run step { windowMs := windowMs, maxPendingChars := maxPendingChars } l c) :
    (∃ runs held, pushed l = runs.flatten ++ held ∧ List.Forall₂ (StandsFor maxPendingChars) runs (emitted l) ∧ Waits c held) ∧
      ∀ a, ∃ runs, pushed l = runs.flatten ∧ List.Forall₂ (StandsFor maxPendingChars) runs (emitted (l ++ (c.flush a).2)) := by
  have hkept := kept_run hrun
  refine ⟨hkept.2, fun a => ?_⟩
  obtain ⟨_, runs, held, hpushed, hruns, hwaits⟩ := hkept.flush a
  refine ⟨runs, ?_, hruns⟩
  rw [pushed_append, pushed_flush, List.append_nil, hwaits.idle (flush_pending c a), List.append_nil] at hpushed
  exact hpushed

def sampleDelta (text : Text) : Payload Unit := ⟨.agentMessage, some text, none, some "m", none, []⟩

/-- The first delta goes out, the next two wait, and the timer sends them as one event, whose emission fails. -/
def sampleOps : List (Op Unit) :=
  [.push (sampleDelta [104]) ⟨0, false, 0, false⟩, .push (sampleDelta [105]) ⟨10, false, 10, false⟩,
    .push (sampleDelta [33]) ⟨20, false, 20, false⟩, .fire ⟨75, true, 75, false⟩]

theorem coalescing_preserves_stream_sample :
    ∃ l c, Sys.Run (step (ε := Unit)) { windowMs := 75, maxPendingChars := 4096 } l c ∧ emitted l = [sampleDelta [104], sampleDelta [105, 33]] ∧
      ∃ runs held, pushed l = runs.flatten ++ held ∧ List.Forall₂ (StandsFor 4096) runs (emitted l) ∧ Waits c held := by
  have hemitted : (Sys.replay step { windowMs := 75, maxPendingChars := 4096 } sampleOps).map (fun r => emitted r.2) =
      some [sampleDelta [104], sampleDelta [105, 33]] := by decide
  obtain ⟨r, hr, heq⟩ := Option.map_eq_some_iff.1 hemitted
  have hrun := Sys.replay_run _ _ _ _ hr
  exact ⟨r.2, r.1, hrun, heq, (coalescing_preserves_stream hrun).1⟩

end Wollipog.Deltas
