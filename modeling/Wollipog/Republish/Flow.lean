import Wollipog.Lib.Run
import Wollipog.Lib.Utf8
import Wollipog.Reviews.Contract
/-!
# Flow — what a runner publishes again after a reconnect, and what a peer sees of the windows

The inventories are one list of work, sent in windows that each end in a barrier; the next starts when the barrier is
acknowledged.
-/
namespace Wollipog.Republish

open Json (Text)
open Utf8 (byteLength)
open Reviews (lit)

def RUNNER_WINDOW_BYTES : ℕ := 2 * 1024 * 1024
def RUNNER_WINDOW_FRAMES : ℕ := 128

inductive Read
  | absent
  | wire (text : Text)
  | failed

structure ReconnectSource where
  republishSessionSnapshot : Text → Read
  republishSessionQueue : Text → Read
  recentDurableUpdate : Text → Read
  recentInvocationUpdate : Text → Read

/-- Sessions in batches of `RUNNER_WINDOW_FRAMES`: their runtime states, then their queues. -/
def sessionWork : ℕ → List Text → List Text
  | 0, _ => []
  | _, [] => []
  | n + 1, ids =>
    let batch := ids.take RUNNER_WINDOW_FRAMES
    batch.map (fun id => lit "runtime:" ++ id) ++ batch.map (fun id => lit "queue:" ++ id) ++
      sessionWork n (ids.drop RUNNER_WINDOW_FRAMES)

structure Inventory where
  sessions : List Text
  durable : List Text
  invocations : List Text

def Inventory.work (i : Inventory) : List Text :=
  sessionWork i.sessions.length i.sessions ++
    (i.durable.map (fun id => lit "durable:" ++ id) ++ i.invocations.map (fun id => lit "invocation:" ++ id))

/-- The `read` of the window. -/
def ReconnectSource.read (source : ReconnectSource) (key : Text) : Read :=
  if (lit "runtime:").isPrefixOf key then source.republishSessionSnapshot (key.drop 8)
  else if (lit "durable:").isPrefixOf key then source.recentDurableUpdate (key.drop 8)
  else if (lit "invocation:").isPrefixOf key then source.recentInvocationUpdate (key.drop 11)
  else source.republishSessionQueue (key.drop 6)

structure Waiting where
  id : ℕ
  bytes : ℕ
  frames : ℕ

structure ProcessingWindow where
  ids : List Text
  index : ℕ
  scheduled : Bool
  waiting : Option Waiting
  nextId : ℕ
  closed : Bool
  readFailureReported : Bool

/-- What is seen of a window; a frame and an item without one carry the item's place in the work. -/
inductive Output
  | opened (items : ℕ)
  | frame (place : ℕ) (wire : Text)
  | passed (place : ℕ)
  | barrier (id : ℕ)
  | acknowledged (id : ℕ)
  | diagnostic (event : Text)
  | failed

namespace ProcessingWindow

def complete (w : ProcessingWindow) : Bool := w.closed && decide (w.index = w.ids.length)

def create (ids : List Text) : ProcessingWindow := ⟨ids, 0, true, none, 1, false, false⟩

def close (w : ProcessingWindow) : ProcessingWindow := { w with closed := true, scheduled := false, waiting := none }

def acknowledge (w : ProcessingWindow) (id : ℕ) : ProcessingWindow × List Output :=
  match w.waiting with
  | none => (w, [])
  | some waiting =>
    if w.closed ∨ id ≠ waiting.id then (w, [])
    else if w.index = w.ids.length then ({ w with waiting := none }.close, [.acknowledged id])
    else ({ w with waiting := none, scheduled := true }, [.acknowledged id])

structure Turn where
  index : ℕ
  bytes : ℕ
  frames : ℕ
  reported : Bool
  threw : Bool
  out : List Output

/-- The loop of one turn over the items that may still be visited; `writes` says which writes succeed. -/
def visit (ids : List Text) (source : ReconnectSource) (writes : ℕ → Bool) : ℕ → Turn → Turn
  | 0, t => t
  | n + 1, t =>
    match ids[t.index]? with
    | none => t
    | some key =>
      match source.read key with
      | .failed => visit ids source writes n { t with
          index := t.index + 1
          reported := true
          out := t.out ++ ((if t.reported then [] else [.diagnostic (lit "runner_republish_snapshot_failed")]) ++
            [.passed t.index]) }
      | .absent => visit ids source writes n { t with index := t.index + 1, out := t.out ++ [.passed t.index] }
      | .wire text =>
        if t.frames ≠ 0 ∧ RUNNER_WINDOW_BYTES < t.bytes + byteLength text then t
        else if writes t.frames then visit ids source writes n { t with
          index := t.index + 1
          bytes := t.bytes + byteLength text
          frames := t.frames + 1
          out := t.out ++ [.frame t.index text] }
        else { t with threw := true }

def abandon (w : ProcessingWindow) (out : List Output) : ProcessingWindow × List Output :=
  (w.close, out ++ [.diagnostic (lit "runner_republish_write_failed"), .failed])

def turn (w : ProcessingWindow) (source : ReconnectSource) (writes : ℕ → Bool) : ProcessingWindow × List Output :=
  let t := visit w.ids source writes RUNNER_WINDOW_FRAMES ⟨w.index, 0, 0, w.readFailureReported, false, []⟩
  let next := { w with index := t.index, scheduled := false, readFailureReported := t.reported }
  if t.threw then next.abandon t.out
  else if t.frames ≠ 0 then
    if writes t.frames then
      ({ next with waiting := some ⟨w.nextId, t.bytes, t.frames⟩, nextId := w.nextId + 1 }, t.out ++ [.barrier w.nextId])
    else ({ next with nextId := w.nextId + 1 } : ProcessingWindow).abandon t.out
  else if t.index = w.ids.length then (next.close, t.out)
  else ({ next with scheduled := true }, t.out)

end ProcessingWindow

/-! ## Reconnects -/

/-- The runner's connection: its number, whether its registration is over, and the window of that. -/
structure Connection where
  socket : ℕ
  answered : Bool
  window : Option ProcessingWindow

def Connection.initial : Connection := ⟨0, true, none⟩

inductive Event
  | connect
  /-- The peer's answer to the registration of the current socket, which it sends once. -/
  | registered (inventory : Inventory)
  | yield (source : ReconnectSource) (writes : ℕ → Bool)
  /-- An acknowledgement that comes in on a socket. -/
  | acknowledge (socket id : ℕ)
  | disconnect

def step (c : Connection) : Event → Option (Connection × List Output)
  | .connect => some (⟨c.socket + 1, false, none⟩, [])
  | .registered inventory =>
    if c.answered then none
    else some ({ c with answered := true, window := some (.create inventory.work) }, [.opened inventory.work.length])
  | .yield source writes => c.window.bind (fun w =>
      if w.scheduled ∧ w.closed = false then
        let turned := w.turn source writes
        some ({ c with window := some turned.1 }, turned.2)
      else none)
  | .acknowledge socket id =>
    if socket = c.socket then
      match c.window with
      | none => some (c, [])
      | some w =>
        let told := w.acknowledge id
        some ({ c with window := some told.1 }, told.2)
    else some (c, [])
  | .disconnect => some ({ c with answered := true, window := none }, [])

end Wollipog.Republish

/-! ## What a peer sees of the windows

`Flow` accepts the outputs that a peer may see: items in order, each once, at most one barrier outstanding.
-/
namespace Wollipog.Republish

open Json (Text)
open Utf8 (byteLength)

structure Flow where
  total : ℕ
  next : ℕ
  frames : ℕ
  bytes : ℕ
  nextBarrier : ℕ
  pending : Option ℕ

namespace Flow

def initial : Flow := ⟨0, 0, 0, 0, 1, none⟩

def step (f : Flow) : Output → Option Flow
  | .opened items => some ⟨items, 0, 0, 0, 1, none⟩
  | .frame place wire =>
    if place = f.next ∧ place < f.total ∧ f.pending = none ∧ f.frames < RUNNER_WINDOW_FRAMES ∧
        (f.frames = 0 ∨ f.bytes + byteLength wire ≤ RUNNER_WINDOW_BYTES) then
      some { f with next := f.next + 1, frames := f.frames + 1, bytes := f.bytes + byteLength wire }
    else none
  | .passed place => if place = f.next ∧ place < f.total ∧ f.pending = none then some { f with next := f.next + 1 } else none
  | .barrier id =>
    if id = f.nextBarrier ∧ f.pending = none ∧ f.frames ≠ 0 then
      some { f with pending := some id, nextBarrier := f.nextBarrier + 1 }
    else none
  | .acknowledged id => if f.pending = some id then some { f with pending := none, frames := 0, bytes := 0 } else none
  | .diagnostic _ => some f
  | .failed => some f

def run (f : Flow) (log : List Output) : Option Flow := log.foldlM step f

theorem run_append (f : Flow) (l k : List Output) : f.run (l ++ k) = (f.run l).bind (fun g => g.run k) := by
  unfold run
  rw [List.foldlM_append]
  rfl

theorem run_concat {f g : Flow} {l : List Output} (h : f.run l = some g) (o : Output) : f.run (l ++ [o]) = g.step o := by
  rw [run_append, h, Option.bind_some]
  unfold run
  rw [List.foldlM_cons]
  cases g.step o <;> rfl

structure Within (f : Flow) : Prop where
  empty : f.frames = 0 → f.bytes = 0
  frames : f.frames ≤ RUNNER_WINDOW_FRAMES
  bytes : f.bytes ≤ RUNNER_WINDOW_BYTES ∨ f.frames = 1

end Flow

/-- What a reader has seen since the window was opened. -/
structure Seen where
  places : List ℕ
  barriers : List ℕ
  acknowledged : List ℕ
  unacknowledged : List Text

def Seen.add (s : Seen) : Output → Seen
  | .opened _ => ⟨[], [], [], []⟩
  | .frame place wire => { s with places := s.places ++ [place], unacknowledged := s.unacknowledged ++ [wire] }
  | .passed place => { s with places := s.places ++ [place] }
  | .barrier id => { s with barriers := s.barriers ++ [id] }
  | .acknowledged id => { s with acknowledged := s.acknowledged ++ [id], unacknowledged := [] }
  | .diagnostic _ => s
  | .failed => s

def seen (log : List Output) : Seen := log.foldl Seen.add ⟨[], [], [], []⟩

/-- **A reader's counts** are those of the flow. -/
structure Counted (f : Flow) (s : Seen) : Prop where
  places : s.places = List.range f.next
  barriers : s.barriers = List.range' 1 (f.nextBarrier - 1)
  first : 1 ≤ f.nextBarrier
  pending : s.acknowledged ++ f.pending.toList = s.barriers
  frames : s.unacknowledged.length = f.frames
  bytes : (s.unacknowledged.map byteLength).sum = f.bytes
  within : f.Within

theorem Counted.step {f g : Flow} {s : Seen} (h : Counted f s) {o : Output} (hst : f.step o = some g) :
    Counted g (s.add o) := by
  obtain ⟨hplaces, hbarriers, hfirst, hpending, hframes, hbytes, hempty, hfew, hlight⟩ := h
  cases o with
  | opened items =>
    cases hst
    exact ⟨rfl, rfl, Nat.le_refl 1, rfl, rfl, rfl, fun _ => rfl, Nat.zero_le _, .inl (Nat.zero_le _)⟩
  | frame place wire =>
    rw [Flow.step, Option.ite_none_right_eq_some] at hst
    obtain ⟨⟨rfl, -, -, hroom, hfits⟩, ⟨⟩⟩ := hst
    refine ⟨?_, hbarriers, hfirst, hpending, ?_, ?_, fun h => absurd h (Nat.succ_ne_zero _), hroom, ?_⟩
    · rw [Seen.add, hplaces, List.range_succ]
    · rw [Seen.add, List.length_append, hframes, List.length_singleton]
    · rw [Seen.add, List.map_append, List.sum_append, hbytes, List.map_singleton, List.sum_singleton]
    · exact hfits.elim (fun hzero => .inr (by show f.frames + 1 = 1; rw [hzero])) .inl
  | passed place =>
    rw [Flow.step, Option.ite_none_right_eq_some] at hst
    obtain ⟨⟨rfl, -⟩, ⟨⟩⟩ := hst
    refine ⟨?_, hbarriers, hfirst, hpending, hframes, hbytes, hempty, hfew, hlight⟩
    rw [Seen.add, hplaces, List.range_succ]
  | barrier id =>
    rw [Flow.step, Option.ite_none_right_eq_some] at hst
    obtain ⟨⟨rfl, hnone, -⟩, ⟨⟩⟩ := hst
    rw [hnone, Option.toList_none, List.append_nil] at hpending
    have hcount : f.nextBarrier + 1 - 1 = f.nextBarrier - 1 + 1 := by omega
    have hlast : 1 + (f.nextBarrier - 1) = f.nextBarrier := by omega
    refine ⟨hplaces, ?_, Nat.le_add_left _ _, ?_, hframes, hbytes, hempty, hfew, hlight⟩
    · rw [Seen.add, hbarriers, hcount, List.range'_1_concat, hlast]
    · rw [Seen.add, hpending]
      rfl
  | acknowledged id =>
    rw [Flow.step, Option.ite_none_right_eq_some] at hst
    obtain ⟨hguard, ⟨⟩⟩ := hst
    rw [hguard, Option.toList_some] at hpending
    refine ⟨hplaces, hbarriers, hfirst, ?_, rfl, rfl, fun _ => rfl, Nat.zero_le _, .inl (Nat.zero_le _)⟩
    rw [Seen.add, Option.toList_none, List.append_nil]
    exact hpending
  | diagnostic event | failed =>
    cases hst
    exact ⟨hplaces, hbarriers, hfirst, hpending, hframes, hbytes, hempty, hfew, hlight⟩

theorem counted_run {f : Flow} {log : List Output} (h : Flow.initial.run log = some f) : Counted f (seen log) := by
  induction log using List.reverseRecOn generalizing f with
  | nil =>
    cases h
    exact ⟨rfl, rfl, Nat.le_refl 1, rfl, rfl, rfl, fun _ => rfl, Nat.zero_le _, .inl (Nat.zero_le _)⟩
  | append_singleton log o ih =>
    cases hlog : Flow.initial.run log with
    | none =>
      rw [Flow.run_append, hlog] at h
      cases h
    | some g =>
      rw [Flow.run_concat hlog] at h
      rw [seen, List.foldl_concat]
      exact (ih hlog).step h

structure Tracks (f : Flow) (w : ProcessingWindow) : Prop where
  total : f.total = w.ids.length
  next : f.next = w.index
  inside : w.index ≤ w.ids.length
  pending : w.closed = false → f.pending = w.waiting.map Waiting.id
  barrier : w.closed = false → f.nextBarrier = w.nextId
  idle : w.closed = false → w.waiting = none → f.frames = 0 ∧ f.bytes = 0
  scheduled : w.closed = false → (w.scheduled = true ↔ w.waiting = none)
  silent : w.closed = true → w.waiting = none

/-- The counters of a turn and the flow of its outputs; `left` items may still be visited. -/
structure Turning (f : Flow) (ids : List Text) (left : ℕ) (t : ProcessingWindow.Turn) (g : Flow) : Prop where
  run : f.run t.out = some g
  total : g.total = ids.length
  next : g.next = t.index
  inside : t.index ≤ ids.length
  pending : g.pending = none
  frames : g.frames = t.frames
  bytes : g.bytes = t.bytes
  empty : t.frames = 0 → t.bytes = 0
  barrier : g.nextBarrier = f.nextBarrier
  room : t.frames + left ≤ RUNNER_WINDOW_FRAMES

open ProcessingWindow (visit Turn)

theorem Turning.visit {f : Flow} {ids : List Text} (source : ReconnectSource) (writes : ℕ → Bool) :
    ∀ (left : ℕ) {t : Turn} {g : Flow}, Turning f ids left t g →
      ∃ g', Turning f ids 0 (visit ids source writes left t) g' ∧ t.index ≤ (visit ids source writes left t).index ∧
        t.index + (visit ids source writes left t).frames ≤ (visit ids source writes left t).index + t.frames ∧
        (t.threw = false → 0 < left → t.index < ids.length → t.index < (visit ids source writes left t).index ∨
          t.frames ≠ 0 ∨ (visit ids source writes left t).threw = true)
  | 0, t, g, h => ⟨g, h, Nat.le_refl _, Nat.le_refl _, fun _ hpos => absurd hpos (Nat.lt_irrefl 0)⟩
  | left + 1, t, g, h => by
    have hroom := h.room
    have hdone : Turning f ids 0 t g := { h with room := by omega }
    cases hkey : ids[t.index]? with
    | none =>
      have hend : ids.length ≤ t.index := List.getElem?_eq_none_iff.1 hkey
      simp only [ProcessingWindow.visit, hkey]
      exact ⟨g, hdone, Nat.le_refl _, Nat.le_refl _, fun _ _ hlt => absurd hlt (Nat.not_lt.2 hend)⟩
    | some key =>
      have hlt : t.index < ids.length := (List.getElem?_eq_some_iff.1 hkey).1
      have hpassed : g.step (.passed t.index) = some { g with next := g.next + 1 } :=
        if_pos ⟨h.next.symm, by rw [h.total]; exact hlt, h.pending⟩
      have hstep : ∀ {t' : Turn} {g' : Flow}, Turning f ids left t' g' → t'.index = t.index + 1 →
          t'.frames ≤ t.frames + 1 → ∃ g'', Turning f ids 0 (ProcessingWindow.visit ids source writes left t') g'' ∧
            t.index ≤ (ProcessingWindow.visit ids source writes left t').index ∧
            t.index + (ProcessingWindow.visit ids source writes left t').frames ≤
              (ProcessingWindow.visit ids source writes left t').index + t.frames ∧
            (t.threw = false → 0 < left + 1 → t.index < ids.length →
              t.index < (ProcessingWindow.visit ids source writes left t').index ∨ t.frames ≠ 0 ∨
              (ProcessingWindow.visit ids source writes left t').threw = true) := by
        intro t' g' h' hindex hframes
        obtain ⟨g'', hg'', hle, hgrow, -⟩ := Turning.visit source writes left h'
        exact ⟨g'', hg'', by omega, by omega, fun _ _ _ => .inl (by omega)⟩
      cases hread : source.read key with
      | failed =>
        have hrun : f.run (t.out ++ ((if t.reported then []
            else [.diagnostic (Reviews.lit "runner_republish_snapshot_failed")]) ++ [.passed t.index])) =
            some { g with next := g.next + 1 } := by
          rw [← List.append_assoc]
          refine (Flow.run_concat ?_ _).trans hpassed
          cases t.reported with
          | true =>
            rw [if_pos rfl, List.append_nil]
            exact h.run
          | false => exact Flow.run_concat h.run _
        have hnext : Turning f ids left { t with
            index := t.index + 1
            reported := true
            out := t.out ++ ((if t.reported then [] else [.diagnostic (Reviews.lit "runner_republish_snapshot_failed")]) ++
              [.passed t.index]) } { g with next := g.next + 1 } :=
          ⟨hrun, h.total, congrArg (· + 1) h.next, hlt, h.pending, h.frames, h.bytes, h.empty, h.barrier,
            by dsimp only; omega⟩
        simp only [ProcessingWindow.visit, hkey, hread]
        exact hstep hnext rfl (Nat.le_succ _)
      | absent =>
        have hnext : Turning f ids left { t with index := t.index + 1, out := t.out ++ [.passed t.index] }
            { g with next := g.next + 1 } :=
          ⟨(Flow.run_concat h.run _).trans hpassed, h.total, congrArg (· + 1) h.next, hlt, h.pending, h.frames, h.bytes,
            h.empty, h.barrier, by dsimp only; omega⟩
        simp only [ProcessingWindow.visit, hkey, hread]
        exact hstep hnext rfl (Nat.le_succ _)
      | wire text =>
        simp only [ProcessingWindow.visit, hkey, hread]
        by_cases hfull : t.frames ≠ 0 ∧ RUNNER_WINDOW_BYTES < t.bytes + byteLength text
        · rw [if_pos hfull]
          exact ⟨g, hdone, Nat.le_refl _, Nat.le_refl _, fun _ _ _ => .inr (.inl hfull.1)⟩
        rw [if_neg hfull]
        by_cases hwrites : writes t.frames = true
        · have hframe : g.step (.frame t.index text) = some { g with
              next := g.next + 1, frames := g.frames + 1, bytes := g.bytes + byteLength text } := by
            refine if_pos ⟨h.next.symm, by rw [h.total]; exact hlt, h.pending, by rw [h.frames]; omega, ?_⟩
            by_cases hzero : g.frames = 0
            · exact .inl hzero
            · right
              rw [h.bytes]
              rw [h.frames] at hzero
              exact Nat.not_lt.1 fun hover => hfull ⟨hzero, hover⟩
          have hnext : Turning f ids left { t with
              index := t.index + 1
              bytes := t.bytes + byteLength text
              frames := t.frames + 1
              out := t.out ++ [.frame t.index text] }
              { g with next := g.next + 1, frames := g.frames + 1, bytes := g.bytes + byteLength text } :=
            ⟨(Flow.run_concat h.run _).trans hframe, h.total, congrArg (· + 1) h.next, hlt, h.pending,
              congrArg (· + 1) h.frames, congrArg (· + byteLength text) h.bytes,
              fun hzero => absurd hzero (Nat.succ_ne_zero _), h.barrier, by dsimp only; omega⟩
          rw [if_pos hwrites]
          exact hstep hnext rfl (Nat.le_refl _)
        · rw [if_neg hwrites]
          exact ⟨g, { hdone with }, Nat.le_refl _, Nat.le_refl _, fun _ _ _ => .inr (.inr rfl)⟩

/-- **A turn** emits what the flow accepts, and passes an item or ends the window. -/
theorem Tracks.turn {f : Flow} {w : ProcessingWindow} (h : Tracks f w) (hopen : w.closed = false)
    (hscheduled : w.scheduled = true) (source : ReconnectSource) (writes : ℕ → Bool) :
    ∃ g, f.run (w.turn source writes).2 = some g ∧ Tracks g (w.turn source writes).1 ∧
      (w.turn source writes).1.ids = w.ids ∧
      (w.index < (w.turn source writes).1.index ∨ (w.turn source writes).1.closed = true) := by
  have hwaiting := (h.scheduled hopen).1 hscheduled
  obtain ⟨hframes, hbytes⟩ := h.idle hopen hwaiting
  have hpending : f.pending = none := by rw [h.pending hopen, hwaiting]; rfl
  have hstart : Turning f w.ids RUNNER_WINDOW_FRAMES ⟨w.index, 0, 0, w.readFailureReported, false, []⟩ f :=
    ⟨rfl, h.total, h.next, h.inside, hpending, hframes, hbytes, fun _ => rfl, rfl, Nat.zero_add _ ▸ Nat.le_refl _⟩
  obtain ⟨g, hg, hindex, hgrow, hprogress⟩ := hstart.visit source writes
  unfold ProcessingWindow.turn
  dsimp only
  generalize ProcessingWindow.visit w.ids source writes RUNNER_WINDOW_FRAMES
    ⟨w.index, 0, 0, w.readFailureReported, false, []⟩ = t at hg hindex hgrow hprogress ⊢
  have hprogress' := hprogress rfl (by decide)
  have hthrown : ∀ nextId : ℕ, ∃ g', f.run (t.out ++ [.diagnostic (Reviews.lit "runner_republish_write_failed"), .failed]) = some g' ∧
      Tracks g' (({ w with index := t.index, scheduled := false, readFailureReported := t.reported, nextId := nextId } :
        ProcessingWindow).close) := by
    intro nextId
    have hrun := Flow.run_concat (Flow.run_concat hg.run (.diagnostic (Reviews.lit "runner_republish_write_failed"))) .failed
    rw [List.append_assoc] at hrun
    exact ⟨g, hrun, hg.total, hg.next, hg.inside, fun h => (by cases h), fun h => (by cases h), fun h => (by cases h),
      fun h => (by cases h), fun _ => rfl⟩
  split
  · obtain ⟨g', hrun, htracks⟩ := hthrown w.nextId
    exact ⟨g', hrun, htracks, rfl, .inr rfl⟩
  rename_i hthrew
  have hthrew' : t.threw = false := Bool.eq_false_iff.2 hthrew
  split
  · rename_i hsome
    split
    · have hbarrier : g.step (.barrier w.nextId) =
          some { g with pending := some w.nextId, nextBarrier := g.nextBarrier + 1 } :=
        if_pos ⟨by rw [hg.barrier, h.barrier hopen], hg.pending, by rw [hg.frames]; exact hsome⟩
      refine ⟨_, (Flow.run_concat hg.run _).trans hbarrier, ⟨hg.total, hg.next, hg.inside, fun _ => rfl, fun _ => ?_,
        fun _ hnone => (by cases hnone), fun _ => ⟨fun hs => (by cases hs), fun hnone => (by cases hnone)⟩, fun hclosed => ?_⟩,
        rfl, ?_⟩
      · show g.nextBarrier + 1 = w.nextId + 1
        rw [hg.barrier, h.barrier hopen]
      · rw [show w.closed = true from hclosed] at hopen
        cases hopen
      · left
        dsimp only at hgrow ⊢
        omega
    · obtain ⟨g', hrun, htracks⟩ := hthrown (w.nextId + 1)
      exact ⟨g', hrun, htracks, rfl, .inr rfl⟩
  rename_i hnone
  have hzero : t.frames = 0 := not_not.1 hnone
  split
  · exact ⟨g, hg.run, ⟨hg.total, hg.next, hg.inside, fun h => (by cases h), fun h => (by cases h), fun h => (by cases h),
      fun h => (by cases h), fun _ => rfl⟩, rfl, .inr rfl⟩
  · rename_i hmore
    have hinside := hg.inside
    refine ⟨g, hg.run, ⟨hg.total, hg.next, hg.inside, fun _ => ?_, fun _ => ?_, fun _ _ => ?_, fun _ => ?_, fun _ => hwaiting⟩,
      rfl, .inl ?_⟩
    · rw [hg.pending]
      exact (congrArg (Option.map Waiting.id) hwaiting).symm
    · rw [hg.barrier, h.barrier hopen]
    · exact ⟨hg.frames.trans hzero, hg.bytes.trans (hg.empty hzero)⟩
    · exact ⟨fun _ => hwaiting, fun _ => rfl⟩
    · rcases Nat.lt_or_ge w.index w.ids.length with hlt | hge
      · rcases hprogress' hlt with hpast | hframes | hthrew
        · exact hpast
        · exact absurd rfl hframes
        · rw [hthrew'] at hthrew
          cases hthrew
      · dsimp only at hindex
        omega

end Wollipog.Republish
