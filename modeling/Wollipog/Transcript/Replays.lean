import Wollipog.Transcript.Runs
/-!
# Replays — a host crash and the event epoch, and how rolled-back events come back

Commits of runner events are not flushed: a host crash rolls back a suffix of those after the last durable commit, and
the control plane restarts on a new boot with an empty watch.
-/
namespace Wollipog.Transcript

open Sys

/-- The cache of one session, with what a crash would leave of it and what the runner holds. -/
structure World where
  cache : Cache
  /-- The session before each relaxed commit since the last durable one, the latest first. -/
  relaxed : List Session
  /-- The number of events in the runner's log. -/
  log : Nat
  /-- The highest runner seq that was ever cached from this log. -/
  received : Nat
  /-- Whether the runner reported its tail since the restart. -/
  told : Bool
  deriving DecidableEq

inductive Happens
  | controlPlane (payload : Payload) (ts : Nat)
  | live (payload : Payload) (ts : Nat)
  /-- The runner logs an event that does not get through. -/
  | emit
  | page (expected : Cache.Expected) (events : List Cache.HydratedRunnerEvent)
  | snapshot (historyEpoch : Option Nat) (tailSeq : Nat)
  /-- A durable commit elsewhere in the database. -/
  | flush
  | crash (commits : Nat)

def replayable (payloads : List Payload) : Bool := !payloads.any (fun payload => payload.kind == .tokenUsage)

namespace World

variable (w : World)

def epoch : Nat := w.cache.session.eventEpoch

/-- Whether a control-plane event waits for the runner event that will take the epoch further. -/
def waits : Bool := w.cache.ingestReassignsSequence

/-- A commit that leaves the cache `cache`. -/
def commit (cache : Cache) (relaxedCommit : Bool) : World :=
  { w with
    cache := cache
    relaxed := if relaxedCommit then w.cache.session :: w.relaxed else []
    received := max w.received cache.session.hydratedSeq }

def rolledBack : Nat → Option Session
  | 0 => some w.cache.session
  | n + 1 => w.relaxed[n]?

def published : List (Nat × EventRow) := w.cache.session.events.map (fun row => (w.epoch, row))

def restart (session : Session) : World := { w with cache := ⟨session, some Watch.new⟩, relaxed := [], told := false }

/-- A snapshot of the runner's history: the first one after a restart tells of every event. -/
def snapshot (historyEpoch : Option Nat) (tailSeq : Nat) : Option World :=
  let reconciled := w.cache.reconcileRunnerHistory historyEpoch tailSeq
  if reconciled.2.reset then some { cache := reconciled.1, relaxed := [], log := tailSeq, received := 0, told := true }
  else if w.told || w.received ≤ tailSeq then some { w with cache := reconciled.1, relaxed := [], told := true }
  else none

/-- A page of the runner's log, read once the runner reported its tail, or a live event that was never received. -/
def page (expected : Cache.Expected) (events : List Cache.HydratedRunnerEvent) : Option World :=
  if events.all (·.seq ≤ w.log) && (w.told || events.all (w.received < ·.seq)) then
    match w.cache.appendHydratedPage expected events with
    | (cache, .applied _) =>
      some (if events.isEmpty then w else w.commit cache (replayable (events.map Cache.HydratedRunnerEvent.payload)))
    | _ => some w
  else none

def live (payload : Payload) (ts : Nat) : World :=
  let logged := { w with log := w.log + 1 }
  if w.cache.session.hydratedSeq = w.log then
    logged.commit (w.cache.appendEvent payload ts (some (w.log + 1))) (replayable [payload])
  else logged

def next : Happens → Option World
  | .controlPlane payload ts => some (w.commit (w.cache.appendEvent payload ts none) false)
  | .live payload ts => some (w.live payload ts)
  | .emit => some { w with log := w.log + 1 }
  | .page expected events => w.page expected events
  | .snapshot historyEpoch tailSeq => w.snapshot historyEpoch tailSeq
  | .flush => some { w with relaxed := [] }
  | .crash commits => (w.rolledBack commits).map w.restart

def step (w : World) (e : Happens) : Option (World × List (Nat × EventRow)) :=
  (w.next e).map (fun after => (after, after.published))

end World

def SameEvent (a b : EventRow) : Prop := a.runnerSeq = b.runnerSeq ∧ (b.runnerSeq = none → a = b)

instance (a b : EventRow) : Decidable (SameEvent a b) := inferInstanceAs (Decidable (_ ∧ _))

/-- A published event whose seq no longer names it, or that is also stored elsewhere. -/
def Reassigned (s : Session) (shown : EventRow) : Prop :=
  (∀ row ∈ s.events, row.seq = shown.seq → ¬ SameEvent row shown) ∨ ∃ row ∈ s.events, SameEvent row shown ∧ row.seq ≠ shown.seq

instance (s : Session) (shown : EventRow) : Decidable (Reassigned s shown) := inferInstanceAs (Decidable (_ ∨ _))

/-! ## What the claims of the watch fail on -/

def anyWorld : World := ⟨anySession, [], 0, 0, false⟩

def anyNotice : Happens := .controlPlane { kind := .other "notice" } 1

def anyPayload : Payload := { kind := .agentMessage }

/-- A runner event is rolled back, a notice takes its seq, and a second crash forgets the notice. -/
def forgotten : List Happens :=
  [.snapshot (some 1) 0, .live anyPayload 1, .crash 1, anyNotice, .crash 0, .snapshot (some 1) 1,
    .page ⟨0, 1, 0⟩ [⟨1, 1, anyPayload⟩]]

/-- As before, but the second crash rolls back the replay, and the new epoch with it. -/
def rolledAdvance : List Happens :=
  [.snapshot (some 1) 0, .live anyPayload 1, .crash 1, anyNotice, .snapshot (some 1) 1,
    .page ⟨0, 1, 0⟩ [⟨1, 1, anyPayload⟩], .crash 1, .snapshot (some 1) 1, .page ⟨0, 1, 0⟩ [⟨1, 1, anyPayload⟩]]

def undisturbed : List Happens := [.snapshot (some 1) 0, .live anyPayload 1, .flush, .crash 0, anyNotice, .live anyPayload 2]

/-- A run after which a seq that was reassigned is in the epoch it was published under. -/
def Unseen (events : List Happens) : Prop :=
  ∃ w l, Run World.step anyWorld l w ∧ replay World.step anyWorld events = some (w, l) ∧ w.log ≤ w.cache.session.hydratedSeq ∧
    ∃ p ∈ l, Reassigned w.cache.session p.2 ∧ ¬ p.1 < w.epoch

end Wollipog.Transcript

/-! ## Rolled-back events come back

What a crash rolls back is a run of runner events at the end, whose replay gives each its old seq unless a control-plane
event came before it.
-/
namespace Wollipog.Transcript

open Sys

variable {s t u : Session} {c c' : Cache} {w w' : World} {rows more : List EventRow} {row : EventRow} {n h : Nat}

structure Numbered (s : Session) : Prop where
  seqs : s.events.map EventRow.seq = List.range' 1 s.events.length
  unpruned : s.prune = {}

structure Whole (s : Session) : Prop where
  mirrors : Mirrors s []
  numbered : Numbered s

/-- Runner events that come after `n` rows and the runner seq `h`. -/
def Follow : Nat → Nat → List EventRow → Prop
  | _, _, [] => True
  | n, h, row :: rows => row.seq = n + 1 ∧ row.runnerSeq = some (h + 1) ∧ Follow (n + 1) (h + 1) rows

/-- `t` is `s` and the runner events that follow it. -/
def Extends (s t : Session) : Prop :=
  ∃ rows, t.events = s.events ++ rows ∧ Follow s.events.length s.hydratedSeq rows ∧ t.hydratedSeq = s.hydratedSeq + rows.length

theorem Follow.append : ∀ {rows : List EventRow} {n h : Nat}, Follow n h rows → Follow (n + rows.length) (h + rows.length) more →
    Follow n h (rows ++ more)
  | [], _, _, _, hmore => hmore
  | row :: rows, n, h, ⟨hseq, hrunner, hrest⟩, hmore => by
    refine ⟨hseq, hrunner, hrest.append ?_⟩
    have hn : n + 1 + rows.length = n + (row :: rows).length := by
      rw [List.length_cons]
      omega
    have hh : h + 1 + rows.length = h + (row :: rows).length := by
      rw [List.length_cons]
      omega
    rw [hn, hh]
    exact hmore

theorem Follow.of_mem : ∀ {rows : List EventRow} {n h : Nat}, Follow n h rows → row ∈ rows →
    ∃ r, row.runnerSeq = some r ∧ h < r ∧ r ≤ h + rows.length ∧ row.seq = n + (r - h)
  | first :: rest, n, h, ⟨hseq, hrunner, hrest⟩, hrow => by
    rcases List.mem_cons.1 hrow with rfl | hin
    · refine ⟨h + 1, hrunner, Nat.lt_succ_self h, ?_, ?_⟩
      · rw [List.length_cons]
        omega
      · omega
    · obtain ⟨r, hr, hlt, hle, heq⟩ := hrest.of_mem hin
      refine ⟨r, hr, by omega, ?_, by omega⟩
      rw [List.length_cons]
      omega

theorem Follow.exists_row : ∀ {rows : List EventRow} {n h r : Nat}, Follow n h rows → h < r → r ≤ h + rows.length →
    ∃ row ∈ rows, row.runnerSeq = some r ∧ row.seq = n + (r - h)
  | [], _, h, r, _, hlt, hle => by
    rw [List.length_nil] at hle
    omega
  | first :: rest, n, h, r, ⟨hseq, hrunner, hrest⟩, hlt, hle => by
    by_cases hfirst : r = h + 1
    · refine ⟨first, List.mem_cons_self, hrunner.trans (congrArg some hfirst.symm), ?_⟩
      omega
    · rw [List.length_cons] at hle
      obtain ⟨row, hrow, hr, heq⟩ := hrest.exists_row (r := r) (by omega) (by omega)
      exact ⟨row, List.mem_cons_of_mem _ hrow, hr, by omega⟩

theorem Extends.refl (s : Session) : Extends s s := ⟨[], (List.append_nil _).symm, trivial, rfl⟩

theorem Extends.trans (hst : Extends s t) (htu : Extends t u) : Extends s u := by
  obtain ⟨rows, hevents, hfollow, hcursor⟩ := hst
  obtain ⟨more, hmore, hfollows, hend⟩ := htu
  refine ⟨rows ++ more, ?_, hfollow.append ?_, ?_⟩
  · rw [hmore, hevents, List.append_assoc]
  · rw [hevents, List.length_append, hcursor] at hfollows
    exact hfollows
  · rw [hend, hcursor, List.length_append]
    omega

theorem Extends.length (hst : Extends s t) : t.events.length = s.events.length + (t.hydratedSeq - s.hydratedSeq) := by
  obtain ⟨rows, hevents, _, hcursor⟩ := hst
  rw [hevents, List.length_append, hcursor]
  omega

theorem Extends.le (hst : Extends s t) : s.hydratedSeq ≤ t.hydratedSeq := by
  obtain ⟨rows, _, _, hcursor⟩ := hst
  omega

theorem maxSeq_of_numbered : ∀ {rows : List EventRow} {k : Nat}, rows.map EventRow.seq = List.range' (k + 1) rows.length →
    rows ≠ [] → maxSeq rows = k + rows.length
  | [], _, _, hne => absurd rfl hne
  | [row], k, hnum, _ => by
    have hseq : row.seq = k + 1 := (List.cons.inj hnum).1
    simp [maxSeq, hseq]
  | row :: next :: rest, k, hnum, _ => by
    rw [List.length_cons, List.range'_succ, List.map_cons] at hnum
    obtain ⟨hseq, hrest⟩ := List.cons.inj hnum
    have ih := maxSeq_of_numbered hrest (List.cons_ne_nil _ _)
    have hcons : maxSeq (row :: next :: rest) = max row.seq (maxSeq (next :: rest)) := rfl
    simp only [List.length_cons] at ih ⊢
    omega

theorem Numbered.highWater (hn : Numbered s) : s.sessionSeqHighWater = s.events.length := by
  have hthrough : s.prune.throughSeq.getD 0 = 0 := by
    rw [hn.unpruned]
    rfl
  unfold Session.sessionSeqHighWater
  rw [hthrough, Nat.max_zero]
  by_cases hempty : s.events = []
  · rw [hempty]
    rfl
  · rw [maxSeq_of_numbered (k := 0) hn.seqs hempty, Nat.zero_add]

theorem Numbered.insert_events (hn : Numbered s) (runnerSeq : Option Nat) (ts : Nat) (payload : Payload) :
    (s.insertEvent runnerSeq ts payload).events = s.events ++ [⟨s.events.length + 1, runnerSeq, ts, payload⟩] := by
  unfold Session.insertEvent
  rw [hn.highWater]

theorem Numbered.insert (hn : Numbered s) (runnerSeq : Option Nat) (ts : Nat) (payload : Payload) :
    Numbered (s.insertEvent runnerSeq ts payload) where
  seqs := by
    rw [hn.insert_events, List.map_append, hn.seqs, List.length_append, List.length_singleton, List.range'_1_concat,
      List.map_singleton, Nat.add_comm 1]
  unpruned := hn.unpruned

/-- The rows that a page adds after `n` rows. -/
def pageRows : Nat → List Cache.HydratedRunnerEvent → List EventRow
  | _, [] => []
  | n, event :: events => ⟨n + 1, some event.seq, event.ts, event.payload⟩ :: pageRows (n + 1) events

theorem length_pageRows : ∀ (n : Nat) (events : List Cache.HydratedRunnerEvent), (pageRows n events).length = events.length
  | _, [] => rfl
  | n, _ :: events => congrArg (· + 1) (length_pageRows (n + 1) events)

theorem follow_pageRows : ∀ {events : List Cache.HydratedRunnerEvent} {n h : Nat}, Cache.contiguous h events = true →
    Follow n h (pageRows n events)
  | [], _, _, _ => trivial
  | event :: events, n, h, hcontiguous => by
    obtain ⟨hseq, hrest⟩ := Bool.and_eq_true_iff.1 hcontiguous
    exact ⟨rfl, congrArg some (beq_iff_eq.1 hseq), follow_pageRows hrest⟩

theorem insertPage_numbered : ∀ (events : List Cache.HydratedRunnerEvent) {s : Session}, Numbered s →
    (Cache.insertPage s events).events = s.events ++ pageRows s.events.length events ∧ Numbered (Cache.insertPage s events)
  | [], s, hn => ⟨(List.append_nil _).symm, hn⟩
  | event :: events, s, hn => by
    obtain ⟨hevents, hnumbered⟩ := insertPage_numbered events (hn.insert (some event.seq) event.ts event.payload)
    refine ⟨?_, hnumbered⟩
    rw [hn.insert_events, List.length_append, List.length_singleton, List.append_assoc] at hevents
    exact hevents

/-- What a commit of runner events leaves: the events that follow, through `final`, at a new epoch if one waits. -/
structure Ingested (c c' : Cache) (final : Nat) : Prop where
  noted : c' = Cache.noteCommittedIngest { c with session := c'.session } (some final)
  whole : Whole c'.session
  further : Extends c.session c'.session
  cursor : c'.session.hydratedSeq = final
  later : c.session.hydratedSeq < final
  tail : c.session.runnerHistoryTailSeq ≤ c'.session.runnerHistoryTailSeq
  epoch : c'.session.eventEpoch = if c.ingestReassignsSequence then c.session.eventEpoch + 1 else c.session.eventEpoch

theorem ingest_epoch (c : Cache) : (c.ingestSession true).eventEpoch =
    if c.ingestReassignsSequence then c.session.eventEpoch + 1 else c.session.eventEpoch := by
  unfold Cache.ingestSession
  rw [Bool.true_and]
  split <;> rfl

theorem ingest_same (c : Cache) :
    (c.ingestSession true).events = c.session.events ∧ (c.ingestSession true).prune = c.session.prune ∧
    (c.ingestSession true).runnerHistoryTailSeq = c.session.runnerHistoryTailSeq := by
  unfold Cache.ingestSession
  split <;> exact ⟨rfl, rfl, rfl⟩

theorem Numbered.ingest (hn : Numbered c.session) : Numbered (c.ingestSession true) := by
  obtain ⟨hevents, hprune, _⟩ := ingest_same c
  exact ⟨by rw [hevents]; exact hn.seqs, hprune.trans hn.unpruned⟩

/-- **A live event** is the one that follows. -/
theorem ingested_append (hw : Whole c.session) (payload : Payload) (ts : Nat) :
    Ingested c (c.appendEvent payload ts (some (c.session.hydratedSeq + 1))) (c.session.hydratedSeq + 1) := by
  obtain ⟨hevents, _, htail⟩ := ingest_same c
  have hraise : ∀ s : Session, s.hydratedSeq = c.session.hydratedSeq →
      s.raiseHydratedSeq (some (c.session.hydratedSeq + 1)) = { s with hydratedSeq := c.session.hydratedSeq + 1 } :=
    fun s hs => if_pos (by omega)
  have hsession : (c.appendEvent payload ts (some (c.session.hydratedSeq + 1))).session =
      { ((c.ingestSession true).insertEvent (some (c.session.hydratedSeq + 1)) ts payload).bumpMessageCount 1 with
        hydratedSeq := c.session.hydratedSeq + 1 } := by
    unfold Cache.appendEvent
    rw [note_session]
    exact hraise _ (ingest_hydratedSeq c true)
  have hmirrors : Mirrors (c.appendEvent payload ts (some (c.session.hydratedSeq + 1))).session [] :=
    hw.mirrors.append payload ts (fun r hr => (Option.some.inj hr).symm)
  have hadded := hw.numbered.ingest.insert (some (c.session.hydratedSeq + 1)) ts payload
  refine ⟨?_, ⟨hmirrors, ?_⟩, ⟨[⟨c.session.events.length + 1, some (c.session.hydratedSeq + 1), ts, payload⟩], ?_,
    ⟨rfl, rfl, trivial⟩, ?_⟩, ?_, Nat.lt_succ_self _, ?_, ?_⟩
  · conv_lhs => unfold Cache.appendEvent
    conv_rhs => unfold Cache.appendEvent
    rw [note_session]
  · rw [hsession]
    exact ⟨hadded.seqs, hadded.unpruned⟩
  · rw [hsession]
    refine (hw.numbered.ingest.insert_events _ ts payload).trans ?_
    rw [hevents]
  · rw [hsession]
    rfl
  · rw [hsession]
  · rw [hsession]
    exact Nat.le_of_eq htail.symm
  · rw [hsession]
    exact ingest_epoch c

/-- **A page** that is applied adds the events that follow. -/
theorem ingested_page (hw : Whole c.session) {expected : Cache.Expected} {events : List Cache.HydratedRunnerEvent} {epoch : Nat}
    (happ : c.appendHydratedPage expected events = (c', .applied epoch)) (hne : events.isEmpty = false) :
    ∃ final, events.getLast? = some final ∧ Ingested c c' final.seq ∧ Cache.contiguous c.session.hydratedSeq events = true := by
  have hmirrors := hw.mirrors.page expected events
  rw [happ] at hmirrors
  unfold Cache.appendHydratedPage at happ
  split at happ
  · cases happ
  · rename_i hcontiguous
    split at happ
    · cases happ
    · rename_i hcurrent
      simp only [Bool.not_eq_true', Bool.not_eq_false] at hcontiguous hcurrent
      have hcursor : c.session.hydratedSeq = expected.afterSeq := by
        unfold Cache.Expected.current at hcurrent
        simp only [Bool.and_eq_true, beq_iff_eq] at hcurrent
        exact hcurrent.1.1
      rw [← hcursor] at hcontiguous
      split at happ
      · rename_i hnone
        rw [List.getLast?_eq_none_iff] at hnone
        rw [hnone] at hne
        cases hne
      · rename_i final hfinal
        obtain ⟨hevents, _, htail⟩ := ingest_same c
        obtain ⟨hrows, hnumbered⟩ := insertPage_numbered events hw.numbered.ingest
        have hseq := contiguous_getLast hcontiguous hfinal
        have hpos : 0 < events.length := List.length_pos_of_ne_nil (fun h => by rw [h] at hne; cases hne)
        cases happ
        refine ⟨final, hfinal, ⟨?_, ⟨hmirrors, ?_⟩, ⟨pageRows c.session.events.length events, ?_, follow_pageRows hcontiguous, ?_⟩,
          ?_, ?_, ?_, ?_⟩, hcontiguous⟩
        · rw [note_session]
        · rw [note_session]
          exact ⟨hnumbered.seqs, hnumbered.unpruned⟩
        · rw [note_session]
          exact hrows.trans (by rw [hevents])
        · rw [note_session, length_pageRows]
          exact hseq
        · rw [note_session]
        · omega
        · rw [note_session]
          have hle : (c.ingestSession true).runnerHistoryTailSeq ≤
              if (c.ingestSession true).runnerHistoryTailSeq < final.seq then final.seq
              else (c.ingestSession true).runnerHistoryTailSeq := by
            split <;> omega
          exact (Nat.le_of_eq htail.symm).trans hle
        · rw [note_session]
          exact (insertPage_eventEpoch events _).trans (ingest_epoch c)

end Wollipog.Transcript
