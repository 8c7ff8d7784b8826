import Wollipog.Recovery.Bridged
import Wollipog.Recovery.Recovered
/-!
# Unskipped — a recovery skips no event

What holds of every run of a fleet's recovery, and of every run of one session's, put together.
-/
namespace Wollipog.Recovery

open Segment

variable {π : Type}

def Observation.cursor : Observation π → Option (Entry × Int)
  | .started _ entry => some (entry, entry.request.after)
  | .queued entry => some (entry, entry.request.after)
  | .ended entry result _ => some (entry, result.after)
  | _ => none

def GapObservation.cursor : GapObservation π → Option Int
  | .resumed after => some after
  | .ended result _ => some result.after
  | _ => none

def GapObservation.window : GapObservation π → Option (List (SessionEvent π))
  | .applyWindow events _ => some events
  | .deferWindow events _ => some events
  | _ => none

theorem rising_behind {log : List (SessionEvent π)} (hlog : Rising SessionEvent.seq log) (after : Int) {given : List (SessionEvent π)}
    (h : given <+: log.filter (fun x => decide (after < x.seq))) : Rising SessionEvent.seq given :=
  (hlog.filter _).sublist h.sublist

theorem Finds.cursor {log : String → Int → List (SessionEvent π)} {l : List (Observation π)} {x : Observation π}
    (h : Finds log l x) {entry : Entry} {cursor : Int} (hcursor : x.cursor = some (entry, cursor)) : Covered log l entry cursor := by
  cases x with
  | started k e | queued e =>
    cases hcursor
    exact h
  | ended e result head =>
    cases hcursor
    exact h.1
  | cancelled => cases hcursor
  | paged e page => cases hcursor
  | gave k e call => cases hcursor

variable {log : List (SessionEvent π)} {request : SessionHistoryRecoveryRequest} {l : List (GapObservation π)} {x : GapObservation π}

theorem GapFinds.cursor (h : GapFinds log request l x) {cursor : Int} (hcursor : x.cursor = some cursor) :
    gapGiven l = segment SessionEvent.seq log request.after cursor := by
  cases x with
  | resumed after =>
    cases hcursor
    exact h
  | ended result head =>
    cases hcursor
    exact h.1
  | cancelled => cases hcursor
  | gave call => cases hcursor
  | applyWindow events complete => cases hcursor
  | deferWindow events accepted => cases hcursor
  | returned complete => cases hcursor

theorem GapFinds.window (h : GapFinds log request l x) {events : List (SessionEvent π)} (hwindow : x.window = some events) :
    .cancelled ∉ l := by
  cases x with
  | applyWindow shown complete => exact h
  | deferWindow shown accepted => exact h
  | resumed after => cases hwindow
  | ended result head => cases hwindow
  | cancelled => cases hwindow
  | gave call => cases hwindow
  | returned complete => cases hwindow

variable [DecidableEq π]

/-- **A recovery skips no event**: a turn gives its events in order and without a gap, completes at the head it was told,
and gives nothing for another epoch or an old view. -/
theorem recovery_skips_nothing (log : String → Int → List (SessionEvent π))
    (hlog : ∀ sessionId eventEpoch, Rising SessionEvent.seq (log sessionId eventEpoch)) :
    (∀ options concurrency requests l w, Sys.Run (Fleet.step log options concurrency) (Fleet.start requests concurrency) l w →
      ∀ pre x post, l = pre ++ x :: post →
        (∀ entry cursor, x.cursor = some (entry, cursor) → ∀ entry' page, .paged entry' page ∈ pre → entry'.origin = entry.origin →
          ∀ event ∈ page.events, event.seq ≤ cursor → event ∈ givenTo entry.origin pre) ∧
        (∀ k entry call, x = .gave k entry call → turnGiven k pre ++ call.events <+: behind log entry.request ∧
          Rising SessionEvent.seq (turnGiven k pre ++ call.events) ∧ call.eventEpoch = entry.origin.eventEpoch ∧ .cancelled ∉ pre) ∧
        (∀ entry result head, x = .ended entry result head → result.complete = true → head = some result.after ∧
          ∀ event ∈ logOf log entry.origin, entry.origin.after < event.seq → event.seq ≤ result.after →
            event ∈ givenTo entry.origin pre)) ∧
    (∀ options budgeted request isCurrent l w,
      Sys.Run (Gap.step (logOf log request) options request budgeted) (Gap.start request isCurrent) l w →
      ∀ pre x post, l = pre ++ x :: post →
        (∀ cursor, x.cursor = some cursor → gapGiven pre = segment SessionEvent.seq (logOf log request) request.after cursor) ∧
        (∀ call, x = .gave call → gapGiven pre ++ call.events <+: behind log request ∧
          Rising SessionEvent.seq (gapGiven pre ++ call.events) ∧ call.eventEpoch = request.eventEpoch ∧ .cancelled ∉ pre) ∧
        (∀ result head, x = .ended result head → result.complete = true → head = some result.after) ∧
        (∀ events, x.window = some events → .cancelled ∉ pre) ∧
        (x = .returned true → Reached (logOf log request) request pre ∨ Windowed pre)) := by
  constructor
  · intro options concurrency requests l w hrun pre x post hsplit
    have htold := (finds_of_run hlog hrun).2
    have hfinds : Finds log pre x := htold pre x post hsplit
    refine ⟨?_, ?_, ?_⟩
    · intro entry cursor hcursor entry' page hpage horigin event hevent hle
      obtain ⟨front, back, hpre⟩ := List.append_of_mem hpage
      have hwhole : l = front ++ .paged entry' page :: (back ++ x :: post) := by
        rw [hsplit, hpre, List.append_assoc]
        rfl
      have hserved : Finds log front (.paged entry' page) := htold front _ _ hwhole
      obtain ⟨hmem, hlow⟩ := hserved event hevent
      rw [horigin] at hmem hlow
      exact (hfinds.cursor hcursor).2 event hmem hlow hle
    · rintro k entry call rfl
      obtain ⟨hcurrent, hepoch, hfront⟩ := hfinds
      exact ⟨hfront, rising_behind (hlog _ _) _ hfront, hepoch, hcurrent⟩
    · rintro entry result head rfl hcomplete
      obtain ⟨hcovered, hhead⟩ := hfinds
      exact ⟨hhead hcomplete, hcovered.2⟩
  · intro options budgeted request isCurrent l w hrun pre x post hsplit
    have hfinds : GapFinds (logOf log request) request pre x := (gapFinds_of_run (hlog _ _) hrun).2 pre x post hsplit
    refine ⟨fun cursor hcursor => hfinds.cursor hcursor, ?_, ?_, fun events hwindow => hfinds.window hwindow, ?_⟩
    · rintro call rfl
      obtain ⟨hcurrent, hepoch, hfront⟩ := hfinds
      exact ⟨hfront, rising_behind (hlog _ _) _ hfront, hepoch, hcurrent⟩
    · rintro result head rfl hcomplete
      exact hfinds.2 hcomplete
    · rintro rfl
      exact hfinds rfl

theorem recovery_skips_nothing_sample : Rising SessionEvent.seq ([⟨1, ()⟩, ⟨2, ()⟩] : List (SessionEvent Unit)) ∧
      ∀ l w, Sys.Run (Gap.step ([⟨1, ()⟩, ⟨2, ()⟩] : List (SessionEvent Unit)) ⟨⟨75, 160, false, 1000, none⟩, ⟨75, 160⟩, false⟩
          ⟨"s", 0, 1, 0, false⟩ false) (Gap.start ⟨"s", 0, 1, 0, false⟩ true) l w →
        ∀ pre post, l = pre ++ .returned true :: post →
          Reached [⟨1, ()⟩, ⟨2, ()⟩] ⟨"s", 0, 1, 0, false⟩ pre ∨ Windowed pre := by
  have hrising : Rising SessionEvent.seq ([⟨1, ()⟩, ⟨2, ()⟩] : List (SessionEvent Unit)) := by
    unfold Rising
    decide
  refine ⟨hrising, fun l w hrun pre post hsplit => ?_⟩
  have hsession := (recovery_skips_nothing (fun _ _ => ([⟨1, ()⟩, ⟨2, ()⟩] : List (SessionEvent Unit))) (fun _ _ => hrising)).2
  exact (hsession _ false ⟨"s", 0, 1, 0, false⟩ true l w hrun pre (.returned true) post hsplit).2.2.2.2 rfl

def persistent : Options := ⟨75, 160, true, 1000, none⟩

def onePage (seq : Int) : SessionEventsResponse Unit := ⟨[⟨seq, ()⟩], some 1, some seq, some true, some false⟩

def onRequest : SessionHistoryRecoveryRequest := ⟨"s", 0, 1, 0, false⟩

def failedTurn : List (FleetEvent Unit) :=
  [.work 0, .fetched 0 (some (onePage 1)) true, .fetched 0 none true, .settled 0, .work 0, .joined, .rested, .work 0,
    .fetched 0 (some (onePage 1)) true]

def windowedGap : List (GapEvent Unit) :=
  [.fetched (some (onePage 1)) true, .fetched (some (onePage 2)) true, .fetched (some (onePage 3)) true,
    .fetched (some (onePage 4)) true, .settled true, .tail (some ⟨[⟨6, ()⟩], some 1, some true, some true⟩) true false false,
    .tailSettled]

theorem recovery_repeats_and_replaces :
    (∃ l w, Sys.Run (Fleet.step (fun _ _ => [⟨1, ()⟩, ⟨2, ()⟩]) persistent 1) (Fleet.start [onRequest] 1) l w ∧
      ¬ Rising SessionEvent.seq (givenTo onRequest l)) ∧
    (∃ l w, Sys.Run (Gap.step [⟨1, ()⟩, ⟨2, ()⟩, ⟨3, ()⟩, ⟨4, ()⟩, ⟨5, ()⟩, ⟨6, ()⟩] ⟨persistent, ⟨75, 160⟩, false⟩ onRequest true)
        (Gap.start onRequest true) l w ∧
      .returned true ∈ l ∧ ⟨5, ()⟩ ∉ gapGiven l ∧ ∀ x ∈ l, ∀ events, x.window = some events → ⟨5, ()⟩ ∉ events) := by
  constructor
  · obtain ⟨r, hreplay, hgiven⟩ : ∃ r, Sys.replay (Fleet.step (fun _ _ => [⟨1, ()⟩, ⟨2, ()⟩]) persistent 1)
        (Fleet.start [onRequest] 1) failedTurn = some r ∧ (givenTo onRequest r.2).map SessionEvent.seq = [1, 1] := ⟨_, rfl, by decide +kernel⟩
    refine ⟨r.2, r.1, Sys.replay_run _ _ _ _ hreplay, fun hrising => ?_⟩
    have hseqs := List.pairwise_map.2 hrising
    rw [hgiven] at hseqs
    revert hseqs
    decide
  · obtain ⟨w, hrun⟩ := Sys.replay_obs (Gap.step [⟨1, ()⟩, ⟨2, ()⟩, ⟨3, ()⟩, ⟨4, ()⟩, ⟨5, ()⟩, ⟨6, ()⟩] ⟨persistent, ⟨75, 160⟩, false⟩
      onRequest true) (Gap.start onRequest true) windowedGap
      [.gave ⟨"s", [⟨1, ()⟩], 1, 0, false⟩, .gave ⟨"s", [⟨2, ()⟩, ⟨3, ()⟩, ⟨4, ()⟩], 1, 0, false⟩,
        .ended ⟨false, 4, true, true⟩ none, .applyWindow [⟨6, ()⟩] true, .returned true] rfl
    refine ⟨_, w, hrun, by simp, by decide, ?_⟩
    intro x hx events hwindow
    simp only [List.mem_cons, List.not_mem_nil, or_false] at hx
    rcases hx with rfl | rfl | rfl | rfl | rfl
    · cases hwindow
    · cases hwindow
    · cases hwindow
    · cases hwindow
      decide
    · cases hwindow

end Wollipog.Recovery
