import Wollipog.Recovery.Fleet
/-!
# Recovered — what a recovery of a fleet gives

A cursor that a request is queued or ended with has everything before it given; what a turn gives is a beginning of
the log behind its cursor; nothing is given once the view is not current.
-/
namespace Wollipog.Recovery

open Segment

variable {π : Type}

/-! ## The history -/

def eventsFor (origin : SessionHistoryRecoveryRequest) : Observation π → List (SessionEvent π)
  | .gave _ entry call => if entry.origin = origin then call.events else []
  | _ => []

def givenTo (origin : SessionHistoryRecoveryRequest) (l : List (Observation π)) : List (SessionEvent π) :=
  l.flatMap (eventsFor origin)

def turnStep (k : Nat) (events : List (SessionEvent π)) : Observation π → List (SessionEvent π)
  | .started j _ => if j = k then [] else events
  | .gave j _ call => if j = k then events ++ call.events else events
  | _ => events

def turnGiven (k : Nat) (l : List (Observation π)) : List (SessionEvent π) := l.foldl (turnStep k) []

theorem givenTo_append (origin : SessionHistoryRecoveryRequest) (a b : List (Observation π)) :
    givenTo origin (a ++ b) = givenTo origin a ++ givenTo origin b := List.flatMap_append

theorem turnGiven_append (k : Nat) (a b : List (Observation π)) : turnGiven k (a ++ b) = b.foldl (turnStep k) (turnGiven k a) :=
  List.foldl_append

section

variable (log : String → Int → List (SessionEvent π))

def behind (request : SessionHistoryRecoveryRequest) : List (SessionEvent π) :=
  (logOf log request).filter (fun x => decide (request.after < x.seq))

/-- Everything of the log between the cursor that the request was made with and this one was given. -/
def Covered (l : List (Observation π)) (entry : Entry) (cursor : Int) : Prop :=
  entry.origin.after ≤ cursor ∧
    ∀ x ∈ logOf log entry.origin, entry.origin.after < x.seq → x.seq ≤ cursor → x ∈ givenTo entry.origin l

structure Good (l : List (Observation π)) (entry : Entry) : Prop where
  session : entry.request.sessionId = entry.origin.sessionId
  epoch : entry.request.eventEpoch = entry.origin.eventEpoch
  covered : Covered log l entry entry.request.after

def Finds (l : List (Observation π)) : Observation π → Prop
  | .cancelled => True
  | .started _ entry => Covered log l entry entry.request.after
  | .paged entry page => ∀ x ∈ page.events, x ∈ logOf log entry.origin ∧ entry.origin.after < x.seq
  | .gave k entry call => .cancelled ∉ l ∧ call.eventEpoch = entry.origin.eventEpoch ∧
      turnGiven k l ++ call.events <+: behind log entry.request
  | .ended entry result head => Covered log l entry result.after ∧ (result.complete = true → head = some result.after)
  | .queued entry => Covered log l entry entry.request.after

structure InTurn (l : List (Observation π)) (k : Nat) (entry : Entry) (turn : Turn π) (next : Next) : Prop where
  good : Good log l entry
  holds : turn.Holds (logOf log entry.request) entry.request (turnGiven k l)
  counted : ∀ x ∈ turnGiven k l, x ∈ givenTo entry.origin l
  returned : ∀ result, next = .returned result →
    turnGiven k l = segment SessionEvent.seq (logOf log entry.request) entry.request.after result.after ∧
      entry.request.after ≤ result.after

/-- **The invariant**: requests in the queues and turns under way. -/
structure Sound (l : List (Observation π)) (w : Fleet π) : Prop where
  current : w.current = true → .cancelled ∉ l
  queued : ∀ entry ∈ w.pending ++ w.immediateRetry ++ w.delayedRetry ++ w.delayed, Good log l entry
  busy : ∀ k entry turn next, w.workers[k]? = some (.busy entry turn next) → InTurn log l k entry turn next

variable {log} {l o : List (Observation π)} {entry : Entry}

variable {cursor : Int} {k : Nat} {next : Next}

theorem Covered.mono (h : Covered log l entry cursor) (o : List (Observation π)) : Covered log (l ++ o) entry cursor := by
  refine ⟨h.1, fun x hx hlow hhigh => ?_⟩
  rw [givenTo_append]
  exact List.mem_append_left _ (h.2 x hx hlow hhigh)

theorem Good.mono (h : Good log l entry) (o : List (Observation π)) : Good log (l ++ o) entry :=
  ⟨h.session, h.epoch, h.covered.mono o⟩

theorem Good.logOf (h : Good log l entry) : logOf log entry.request = logOf log entry.origin := by
  unfold Recovery.logOf
  rw [h.session, h.epoch]

theorem Good.extend (h : Good log l entry) {o : List (Observation π)} {events : List (SessionEvent π)}
    (hevents : events = segment SessionEvent.seq (Recovery.logOf log entry.request) entry.request.after cursor)
    (hle : entry.request.after ≤ cursor) (hcounted : ∀ x ∈ events, x ∈ givenTo entry.origin (l ++ o)) :
    Covered log (l ++ o) entry cursor := by
  refine ⟨Int.le_trans h.covered.1 hle, fun x hx hlow hhigh => ?_⟩
  by_cases hbefore : x.seq ≤ entry.request.after
  · exact (h.covered.mono o).2 x hx hlow hbefore
  · apply hcounted
    rw [hevents, h.logOf]
    exact mem_segment.2 ⟨hx, by omega, hhigh⟩

def Quiet : Observation π → Prop
  | .started _ _ => False
  | .gave _ _ _ => False
  | _ => True

theorem turnGiven_quiet (k : Nat) {o : List (Observation π)} (h : ∀ x ∈ o, Quiet x) (l : List (Observation π)) :
    turnGiven k (l ++ o) = turnGiven k l := by
  rw [turnGiven_append]
  generalize turnGiven k l = events
  induction o with
  | nil => rfl
  | cons x o ih =>
    rw [List.foldl_cons]
    have hx : turnStep k events x = events := by
      have hquiet := h x List.mem_cons_self
      cases x with
      | started j entry => exact hquiet.elim
      | gave j entry call => exact hquiet.elim
      | cancelled => rfl
      | paged entry page => rfl
      | ended entry result head => rfl
      | queued entry => rfl
    rw [hx]
    exact ih (fun y hy => h y (List.mem_cons_of_mem x hy))

theorem foldl_gave (j k : Nat) (entry : Entry) (applied : List (ApplyPage π)) : ∀ events : List (SessionEvent π),
    (applied.map (.gave k entry)).foldl (turnStep j) events = if k = j then events ++ Turn.given applied else events := by
  induction applied with
  | nil => simp [Turn.given]
  | cons a applied ih =>
    intro events
    rw [List.map_cons, List.foldl_cons, ih, turnStep]
    split
    · rw [List.append_assoc]
      rfl
    · rfl

theorem turnGiven_gave (k : Nat) (entry : Entry) (applied : List (ApplyPage π)) (l : List (Observation π)) :
    turnGiven k (l ++ applied.map (.gave k entry)) = turnGiven k l ++ Turn.given applied := by
  rw [turnGiven_append, foldl_gave, if_pos rfl]

theorem turnGiven_other {k j : Nat} (hne : k ≠ j) (entry : Entry) (applied : List (ApplyPage π)) (l : List (Observation π)) :
    turnGiven j (l ++ applied.map (.gave k entry)) = turnGiven j l := by
  rw [turnGiven_append, foldl_gave, if_neg hne]

theorem mem_givenTo_gave {entry : Entry} {applied : List (ApplyPage π)} {x : SessionEvent π} (hx : x ∈ Turn.given applied)
    (l : List (Observation π)) : x ∈ givenTo entry.origin (l ++ applied.map (.gave k entry)) := by
  rw [givenTo_append]
  refine List.mem_append_right _ ?_
  obtain ⟨a, ha, hx⟩ := List.mem_flatMap.1 hx
  refine List.mem_flatMap.2 ⟨_, List.mem_map.2 ⟨a, ha, rfl⟩, ?_⟩
  have hevents : eventsFor entry.origin (.gave k entry a) = a.events := if_pos rfl
  rw [hevents]
  exact hx

theorem InTurn.keep {turn : Turn π} (h : InTurn log l k entry turn next)
    (hsame : turnGiven k (l ++ o) = turnGiven k l) : InTurn log (l ++ o) k entry turn next where
  good := h.good.mono o
  holds := by
    rw [hsame]
    exact h.holds
  counted x hx := by
    rw [hsame] at hx
    rw [givenTo_append]
    exact List.mem_append_left _ (h.counted x hx)
  returned result hresult := by
    rw [hsame]
    exact h.returned result hresult

theorem Sound.worker {w : Fleet π} (h : Sound log l w) {k j : Nat} {worker : Worker π} {turn : Turn π} {next : Next}
    (hj : (w.setWorker k worker).workers[j]? = some (.busy entry turn next)) :
    (j = k ∧ worker = .busy entry turn next) ∨ (j ≠ k ∧ InTurn log l j entry turn next) := by
  unfold Fleet.setWorker at hj
  by_cases hjk : j = k
  · subst hjk
    rw [List.getElem?_set_self'] at hj
    obtain ⟨old, -, hnew⟩ := Option.map_eq_some_iff.1 hj
    exact .inl ⟨rfl, hnew⟩
  · rw [List.getElem?_set_ne (Ne.symm hjk)] at hj
    exact .inr ⟨hjk, h.busy j entry turn next hj⟩

theorem Sound.free {w : Fleet π} (h : Sound log l w) (hquiet : ∀ x ∈ o, Quiet x) {worker : Worker π}
    (hworker : ∀ entry turn next, worker ≠ .busy entry turn next) {w' : Fleet π}
    (hcurrent : w'.current = true → .cancelled ∉ l ++ o) (hworkers : w'.workers = w.workers)
    (hqueued : ∀ entry ∈ w'.pending ++ w'.immediateRetry ++ w'.delayedRetry ++ w'.delayed, Good log (l ++ o) entry) :
    Sound log (l ++ o) (w'.setWorker k worker) where
  current := hcurrent
  queued := hqueued
  busy j entry turn next hj := by
    have hj' : (w.setWorker k worker).workers[j]? = some (.busy entry turn next) := by
      unfold Fleet.setWorker at hj ⊢
      rw [← hworkers]
      exact hj
    rcases h.worker hj' with ⟨-, heq⟩ | ⟨-, hin⟩
    · exact absurd heq (hworker entry turn next)
    · exact hin.keep (turnGiven_quiet j hquiet l)

theorem Sound.silent {w : Fleet π} (h : Sound log l w) {worker : Worker π}
    (hworker : ∀ entry turn next, worker ≠ .busy entry turn next) {w' : Fleet π} (hcurrent : w'.current = true → .cancelled ∉ l)
    (hworkers : w'.workers = w.workers)
    (hqueued : ∀ entry ∈ w'.pending ++ w'.immediateRetry ++ w'.delayedRetry ++ w'.delayed, Good log l entry) :
    Sound log l (w'.setWorker k worker) := by
  have hnone : ∀ x ∈ ([] : List (Observation π)), Quiet x := List.forall_mem_nil _
  have hfree : Sound log (l ++ []) (w'.setWorker k worker) := h.free hnone hworker (by rw [List.append_nil]; exact hcurrent) hworkers (by rw [List.append_nil]; exact hqueued)
  rw [List.append_nil] at hfree
  exact hfree

theorem Sound.open {w : Fleet π} (h : Sound log l w) (concurrency : Nat) {pending : List Entry}
    (hpending : ∀ entry ∈ pending, Good log l entry) : Sound log l (w.open concurrency pending) := by
  have hqueues : ∀ entry, (entry ∈ w.immediateRetry ∨ entry ∈ w.delayedRetry ∨ entry ∈ w.delayed) → Good log l entry := by
    intro entry hin
    apply h.queued
    simp only [List.mem_append]
    tauto
  unfold Fleet.open
  split
  · refine ⟨h.current, ?_, h.busy⟩
    intro entry hin
    simp only [List.mem_append] at hin
    rcases hin with ((hin | hin) | hin) | hin
    · exact hpending entry hin
    · exact hqueues entry (.inl hin)
    · exact hqueues entry (.inr (.inl hin))
    · exact hqueues entry (.inr (.inr hin))
  · refine ⟨h.current, ?_, ?_⟩
    · intro entry hin
      simp only [List.append_nil, List.mem_append] at hin
      rcases hin with hin | hin
      · exact hpending entry hin
      · exact hqueues entry (.inr (.inr hin))
    · intro k entry turn next hk
      have hfree := List.eq_of_mem_replicate (List.mem_of_getElem? hk)
      cases hfree

/-! ## Steps -/

variable {w w' : Fleet π}

theorem Sound.cancel (h : Sound log l w) : Sound log (l ++ [.cancelled]) { w with current := false } where
  current hcurrent := by cases hcurrent
  queued entry hin := (h.queued entry hin).mono _
  busy k entry turn next hk := (h.busy k entry turn next hk).keep
    (turnGiven_quiet k (fun x hx => by rw [List.mem_singleton.1 hx]; trivial) l)

theorem Sound.turned (h : Sound log l w) {turn : Turn π} {next' : Next} (hworker : w.workers[k]? = some (.busy entry turn next))
    (hnext : ∀ result, next' = .returned result → result = turn.incomplete) :
    Sound log (l ++ endOf entry none next') (w.setWorker k (.busy entry turn next')) ∧
      Sys.Told (Finds log) l (endOf entry none next') := by
  have hin := h.busy k entry turn next hworker
  have hquiet : ∀ x ∈ (endOf entry none next' : List (Observation π)), Quiet x ∧ x ≠ .cancelled := by
    intro x hx
    cases next' with
    | returned result =>
      rw [List.mem_singleton.1 hx]
      exact ⟨trivial, fun heq => by cases heq⟩
    | fetchPage => exact absurd hx List.not_mem_nil
    | wait ms => exact absurd hx List.not_mem_nil
    | threw => exact absurd hx List.not_mem_nil
  have hsame : ∀ j, turnGiven j (l ++ endOf entry none next') = turnGiven j l :=
    fun j => turnGiven_quiet j (fun x hx => (hquiet x hx).1) l
  have hreturned : ∀ result, next' = .returned result →
      turnGiven k l = segment SessionEvent.seq (logOf log entry.request) entry.request.after result.after ∧
        entry.request.after ≤ result.after := by
    intro result hresult
    rw [hnext result hresult]
    exact ⟨hin.holds.done_eq, hin.holds.le⟩
  constructor
  · refine ⟨?_, fun e he => (h.queued e he).mono _, ?_⟩
    · intro hc hmem
      rcases List.mem_append.1 hmem with hmem | hmem
      · exact h.current hc hmem
      · exact (hquiet _ hmem).2 rfl
    · intro j e t n hj
      rcases h.worker hj with ⟨rfl, heq⟩ | ⟨-, hother⟩
      · cases heq
        refine (InTurn.mk hin.good hin.holds hin.counted hreturned).keep (hsame j)
      · exact hother.keep (hsame j)
  · cases next' with
    | returned result =>
      refine Sys.told_single ⟨?_, ?_⟩
      · have hcovered := hin.good.extend (o := []) (hreturned result rfl).1 (hreturned result rfl).2
          (by rw [List.append_nil]; exact hin.counted)
        rw [List.append_nil] at hcovered
        exact hcovered
      · intro hcomplete
        rw [hnext result rfl] at hcomplete
        cases hcomplete
    | fetchPage => exact Sys.told_nil _ _
    | wait ms => exact Sys.told_nil _ _
    | threw => exact Sys.told_nil _ _

variable [DecidableEq π] {options : Options} {concurrency : Nat}

theorem Sound.work (h : Sound log l w) (hst : w.step log options concurrency (.work k) = some (w', o)) :
    Sound log (l ++ o) w' ∧ Sys.Told (Finds log) l o := by
  have hdone : ∀ n, Sound log l ({ w with next := n }.setWorker k .done) := by
    intro n
    exact h.silent (fun _ _ _ heq => by cases heq) h.current rfl h.queued
  unfold Fleet.step at hst
  simp only at hst
  split at hst
  · rename_i hworker
    split at hst
    · cases hst
      rw [List.append_nil]
      exact ⟨hdone w.next, Sys.told_nil _ _⟩
    · rename_i hcurrent
      split at hst
      · cases hst
        rw [List.append_nil]
        exact ⟨hdone (w.next + 1), Sys.told_nil _ _⟩
      · rename_i entry hentry
        cases hst
        have hgood := h.queued entry (List.mem_append_left _ (List.mem_append_left _ (List.mem_append_left _
          (List.mem_of_getElem? hentry))))
        refine ⟨⟨?_, fun e he => (h.queued e he).mono _, ?_⟩, Sys.told_single hgood.covered⟩
        · intro hc hmem
          rcases List.mem_append.1 hmem with hmem | hmem
          · exact h.current hc hmem
          · cases List.mem_singleton.1 hmem
        · intro j e turn next hj
          rcases h.worker hj with ⟨rfl, heq⟩ | ⟨hne, hin⟩
          · cases heq
            have hreset : turnGiven j (l ++ [(.started j entry : Observation π)]) = [] := by
              rw [turnGiven_append]
              exact if_pos rfl
            refine ⟨hgood.mono _, ?_, ?_, fun result hresult => by cases hresult⟩
            · rw [hreset]
              exact Turn.holds_start
            · rw [hreset]
              exact List.forall_mem_nil _
          · refine hin.keep ?_
            rw [turnGiven_append]
            exact if_neg (Ne.symm hne)
  · cases hst

theorem Sound.waited (h : Sound log l w) (hst : w.step log options concurrency (.waited k) = some (w', o)) :
    Sound log (l ++ o) w' ∧ Sys.Told (Finds log) l o := by
  unfold Fleet.step at hst
  simp only at hst
  split at hst
  · rename_i entry turn ms hworker
    cases hst
    refine h.turned hworker ?_
    intro result hresult
    unfold Turn.loop at hresult
    split at hresult
    · cases hresult
    · cases hresult
      rfl
  · cases hst

theorem Sound.settled (h : Sound log l w) (hst : w.step log options concurrency (.settled k) = some (w', o)) :
    Sound log (l ++ o) w' ∧ Sys.Told (Finds log) l o := by
  unfold Fleet.step at hst
  simp only at hst
  split at hst
  · rename_i entry turn next hworker
    obtain ⟨result, hresult, hst⟩ := Option.map_eq_some_iff.1 hst
    have hin := h.busy k entry turn next hworker
    have hcovered : Covered log l entry result.after := by
      cases next with
      | returned r =>
        cases hresult
        obtain ⟨hevents, hle⟩ := hin.returned result rfl
        have hextended := hin.good.extend (o := []) hevents hle (by rw [List.append_nil]; exact hin.counted)
        rw [List.append_nil] at hextended
        exact hextended
      | threw =>
        cases hresult
        exact hin.good.covered
      | fetchPage => cases hresult
      | wait ms => cases hresult
    have hretry : Good log l (entry.retry result) := ⟨hin.good.session, hin.good.epoch, hcovered⟩
    have hquiet : ∀ x ∈ [(.queued (entry.retry result) : Observation π)], Quiet x := by
      intro x hx
      rw [List.mem_singleton.1 hx]
      trivial
    have hnot : w.current = true → .cancelled ∉ l ++ [(.queued (entry.retry result) : Observation π)] := by
      intro hc hmem
      rcases List.mem_append.1 hmem with hmem | hmem
      · exact h.current hc hmem
      · cases List.mem_singleton.1 hmem
    split at hst
    · split at hst
      · cases hst
        refine ⟨h.free hquiet (fun _ _ _ heq => by cases heq) hnot rfl ?_, Sys.told_single hcovered⟩
        intro e he
        simp only [List.mem_append, List.mem_singleton] at he
        rcases he with ((he | he | he) | he) | he
        · exact (h.queued e (by simp [he])).mono _
        · exact (h.queued e (by simp [he])).mono _
        · rw [he]
          exact hretry.mono _
        · exact (h.queued e (by simp [he])).mono _
        · exact (h.queued e (by simp [he])).mono _
      · cases hst
        refine ⟨h.free hquiet (fun _ _ _ heq => by cases heq) hnot rfl ?_, Sys.told_single hcovered⟩
        intro e he
        simp only [List.mem_append, List.mem_singleton] at he
        rcases he with ((he | he) | he | he) | he
        · exact (h.queued e (by simp [he])).mono _
        · exact (h.queued e (by simp [he])).mono _
        · exact (h.queued e (by simp [he])).mono _
        · rw [he]
          exact hretry.mono _
        · exact (h.queued e (by simp [he])).mono _
    · cases hst
      rw [List.append_nil]
      exact ⟨h.silent (fun _ _ _ heq => by cases heq) h.current rfl h.queued, Sys.told_nil _ _⟩
  · cases hst

theorem Sound.joined (h : Sound log l w) (hst : w.step log options concurrency .joined = some (w', o)) :
    Sound log (l ++ o) w' ∧ Sys.Told (Finds log) l o := by
  have hqueue : ∀ entry, (entry ∈ w.immediateRetry ∨ entry ∈ w.delayed ++ w.delayedRetry) → Good log l entry := by
    intro entry hin
    apply h.queued
    simp only [List.mem_append] at hin ⊢
    tauto
  unfold Fleet.step at hst
  simp only at hst
  split at hst
  · split at hst
    · cases hst
      rw [List.append_nil]
      exact ⟨⟨h.current, h.queued, h.busy⟩, Sys.told_nil _ _⟩
    · split at hst
      · cases hst
        rw [List.append_nil]
        refine ⟨Sound.open (w := { w with delayed := w.delayed ++ w.delayedRetry }) ⟨h.current, ?_, h.busy⟩ concurrency
          (fun entry hin => hqueue entry (.inl hin)), Sys.told_nil _ _⟩
        intro entry hin
        apply h.queued
        simp only [List.mem_append] at hin ⊢
        tauto
      · split at hst
        · cases hst
          rw [List.append_nil]
          refine ⟨⟨h.current, ?_, h.busy⟩, Sys.told_nil _ _⟩
          intro entry hin
          apply h.queued
          simp only [List.mem_append, List.append_nil] at hin ⊢
          tauto
        · cases hst
          rw [List.append_nil]
          refine ⟨⟨h.current, ?_, ?_⟩, Sys.told_nil _ _⟩
          · intro entry hin
            apply hqueue
            simp only [List.mem_append, List.append_nil] at hin ⊢
            tauto
          · intro k entry turn next hk
            exact absurd hk (by simp)
  · cases hst

theorem Sound.rested (h : Sound log l w) (hst : w.step log options concurrency .rested = some (w', o)) :
    Sound log (l ++ o) w' ∧ Sys.Told (Finds log) l o := by
  unfold Fleet.step at hst
  simp only at hst
  split at hst
  · cases hst
    rw [List.append_nil]
    refine ⟨h.open concurrency (fun entry hin => h.queued entry ?_), Sys.told_nil _ _⟩
    simp only [List.mem_append]
    tauto
  · cases hst

end

theorem quiet_pageOf {page : Option (SessionEventsResponse π)} {x : Observation π} (hx : x ∈ pageOf entry page) :
    Quiet x ∧ x ≠ .cancelled := by
  cases page with
  | none => exact absurd hx List.not_mem_nil
  | some p =>
    unfold pageOf at hx
    simp only at hx
    split at hx
    · rw [List.mem_singleton.1 hx]
      exact ⟨trivial, fun heq => by cases heq⟩
    · exact absurd hx List.not_mem_nil

theorem quiet_endOf {head : Option Int} {next : Next} {x : Observation π} (hx : x ∈ endOf entry head next) :
    Quiet x ∧ x ≠ .cancelled := by
  cases next with
  | returned result =>
    rw [List.mem_singleton.1 hx]
    exact ⟨trivial, fun heq => by cases heq⟩
  | fetchPage => exact absurd hx List.not_mem_nil
  | wait ms => exact absurd hx List.not_mem_nil
  | threw => exact absurd hx List.not_mem_nil

section

variable {log : String → Int → List (SessionEvent π)} {l : List (Observation π)} {k : Nat} {turn turn' : Turn π} {next : Next}
  {page : Option (SessionEventsResponse π)}

theorem InTurn.told_page (h : InTurn log l k entry turn next)
    (hserved : ∀ p, page = some p → p.Serves (logOf log entry.request) entry.request turn.after) :
    Sys.Told (Finds log) l (pageOf entry page) := by
  cases page with
  | none => exact Sys.told_nil _ _
  | some p =>
    unfold pageOf
    simp only
    split
    · rename_i hepoch
      apply Sys.told_single
      intro x hx
      rw [hserved p rfl hepoch] at hx
      obtain ⟨hmem, hlow, -⟩ := mem_segment.1 hx
      rw [h.good.logOf] at hmem
      have hstart := h.good.covered.1
      have hle := h.holds.le
      have hle' := h.holds.le'
      exact ⟨hmem, by omega⟩
    · exact Sys.told_nil _ _

theorem told_gave (hrising : Rising SessionEvent.seq (logOf log entry.request)) {applied : List (ApplyPage π)}
    (hholds : turn'.Holds (logOf log entry.request) entry.request (turnGiven k l ++ Turn.given applied))
    (hepoch : ∀ a ∈ applied, a.eventEpoch = entry.origin.eventEpoch) (hcurrent : applied ≠ [] → .cancelled ∉ l) :
    Sys.Told (Finds log) l (applied.map (.gave k entry)) := by
  intro pre x post hsplit
  obtain ⟨a₁, rest, rfl, hpre, hrest⟩ := List.map_eq_append_iff.1 hsplit
  obtain ⟨a, a₂, rfl, rfl, -⟩ := List.map_eq_cons_iff.1 hrest
  rw [← hpre]
  refine ⟨?_, hepoch a List.mem_append_cons_self, ?_⟩
  · intro hmem
    rcases List.mem_append.1 hmem with hmem | hmem
    · exact hcurrent (List.append_ne_nil_of_right_ne_nil a₁ (List.cons_ne_nil a a₂)) hmem
    · obtain ⟨b, -, hb⟩ := List.mem_map.1 hmem
      cases hb
  · rw [turnGiven_gave]
    have hgiven : Turn.given (a₁ ++ a :: a₂) = Turn.given a₁ ++ a.events ++ Turn.given a₂ := by
      rw [Turn.given_append, List.append_assoc]
      rfl
    have hsegment := hholds.done_eq
    rw [hgiven, ← List.append_assoc, ← List.append_assoc] at hsegment
    have hprefix := segment_prefix hrising entry.request.after turn'.appliedAfter
    rw [← hsegment] at hprefix
    exact (List.prefix_append _ _).trans hprefix

theorem told_endOf {head : Option Int}
    (h : ∀ result, next = .returned result → Covered log l entry result.after ∧ (result.complete = true → head = some result.after)) :
    Sys.Told (Finds log) l (endOf entry head next) := by
  cases next with
  | returned result => exact Sys.told_single (h result rfl)
  | fetchPage => exact Sys.told_nil _ _
  | wait ms => exact Sys.told_nil _ _
  | threw => exact Sys.told_nil _ _

variable [DecidableEq π] {options : Options} {concurrency : Nat} {w w' : Fleet π} {o : List (Observation π)}

theorem Sound.fetched (hlog : ∀ sessionId eventEpoch, Rising SessionEvent.seq (log sessionId eventEpoch)) (h : Sound log l w)
    {stillCurrent : Bool} (hst : w.step log options concurrency (.fetched k page stillCurrent) = some (w', o)) :
    Sound log (l ++ o) w' ∧ Sys.Told (Finds log) l o := by
  unfold Fleet.step at hst
  simp only at hst
  split at hst
  · rename_i entry turn hworker
    split at hst
    · rename_i hserves
      have hin := h.busy k entry turn .fetchPage hworker
      have hrising : Rising SessionEvent.seq (logOf log entry.request) := hlog _ _
      have hserved : ∀ p, page = some p → p.Serves (logOf log entry.request) entry.request turn.after := by
        rintro p rfl
        exact of_decide_eq_true hserves
      have hran : Turn.Ran (logOf log entry.request) entry.request (turnGiven k l) (Turn.headOf page turn.after)
          (turn.receive (turnOptions options) entry.request page w.current (w.current && stillCurrent)) :=
        hin.holds.receive hrising (turnOptions options) hserved
      generalize hreceive : turn.receive (turnOptions options) entry.request page w.current (w.current && stillCurrent) = r
        at hst hran
      obtain ⟨turn', applied, next⟩ := r
      have happlied : applied ≠ [] → w.current = true := Turn.current_of_applied hreceive
      simp only at hst
      generalize hC : (if (w.current && !stillCurrent) = true then [(.cancelled : Observation π)] else []) = C at hst
      cases hst
      have hpage : ∀ j, turnGiven j (l ++ pageOf entry page) = turnGiven j l :=
        fun j => turnGiven_quiet j (fun x hx => (quiet_pageOf hx).1) l
      have hend : ∀ x ∈ endOf entry (Turn.headOf page turn.after) next ++ C, Quiet x := by
        intro x hx
        rcases List.mem_append.1 hx with hx | hx
        · exact (quiet_endOf hx).1
        · rw [← hC] at hx
          split at hx
          · rw [List.mem_singleton.1 hx]
            trivial
          · exact absurd hx List.not_mem_nil
      have hparts : l ++ (pageOf entry page ++ applied.map (.gave k entry) ++ endOf entry (Turn.headOf page turn.after) next ++ C) =
          ((l ++ pageOf entry page) ++ applied.map (.gave k entry)) ++ (endOf entry (Turn.headOf page turn.after) next ++ C) := by
        simp only [List.append_assoc]
      have hsame : turnGiven k (l ++ (pageOf entry page ++ applied.map (.gave k entry) ++
          endOf entry (Turn.headOf page turn.after) next ++ C)) = turnGiven k l ++ Turn.given applied := by
        rw [hparts, turnGiven_quiet k hend, turnGiven_gave, hpage]
      have hcounted : ∀ x ∈ turnGiven k l ++ Turn.given applied,
          x ∈ givenTo entry.origin (l ++ (pageOf entry page ++ applied.map (.gave k entry))) := by
        intro x hx
        rcases List.mem_append.1 hx with hx | hx
        · rw [givenTo_append]
          exact List.mem_append_left _ (hin.counted x hx)
        · rw [← List.append_assoc]
          exact mem_givenTo_gave hx (l ++ pageOf entry page)
      have hnot : w.current = true → .cancelled ∉ l ++ pageOf entry page := by
        intro hcurrent hmem
        rcases List.mem_append.1 hmem with hmem | hmem
        · exact h.current hcurrent hmem
        · exact (quiet_pageOf hmem).2 rfl
      constructor
      · refine ⟨?_, fun e he => (h.queued e he).mono _, ?_⟩
        · intro hc hmem
          have hboth : w.current = true ∧ stillCurrent = true := Bool.and_eq_true_iff.1 hc
          have hnil : C = [] := by
            rw [← hC, hboth.2]
            exact if_neg (by simp)
          rw [hparts, hnil, List.append_nil] at hmem
          rcases List.mem_append.1 hmem with hmem | hmem
          · rcases List.mem_append.1 hmem with hmem | hmem
            · exact hnot hboth.1 hmem
            · obtain ⟨a, -, ha⟩ := List.mem_map.1 hmem
              cases ha
          · exact (quiet_endOf hmem).2 rfl
        · intro j e t n hj
          rcases h.worker hj with ⟨rfl, heq⟩ | ⟨hne, hother⟩
          · cases heq
            refine ⟨hin.good.mono _, ?_, ?_, ?_⟩
            · rw [hsame]
              exact hran.holds
            · intro x hx
              rw [hsame] at hx
              rw [hparts, List.append_assoc l, givenTo_append]
              exact List.mem_append_left _ (hcounted x hx)
            · intro result hresult
              rw [hsame]
              exact hran.returned result hresult
          · refine hother.keep ?_
            rw [hparts, turnGiven_quiet j hend, turnGiven_other (Ne.symm hne), hpage]
      · refine Sys.told_append (Sys.told_append (Sys.told_append (hin.told_page hserved) ?_) ?_) ?_
        · have hholds : turn'.Holds (logOf log entry.request) entry.request
              (turnGiven k (l ++ pageOf entry page) ++ Turn.given applied) := by
            rw [hpage]
            exact hran.holds
          exact told_gave hrising hholds (fun a ha => (hran.epoch a ha).trans hin.good.epoch) (fun hne => hnot (happlied hne))
        · refine told_endOf (fun result hresult => ?_)
          obtain ⟨hevents, hle⟩ := hran.returned result hresult
          exact ⟨hin.good.extend hevents hle hcounted, hran.completed result hresult⟩
        · rw [← hC]
          split
          · exact Sys.told_single trivial
          · exact Sys.told_nil _ _
    · cases hst
  · cases hst

/-- **Every step keeps the invariant**, and its observations find what they should. -/
theorem Sound.step (hlog : ∀ sessionId eventEpoch, Rising SessionEvent.seq (log sessionId eventEpoch)) (h : Sound log l w)
    {e : FleetEvent π} (hst : w.step log options concurrency e = some (w', o)) :
    Sound log (l ++ o) w' ∧ Sys.Told (Finds log) l o := by
  cases e with
  | cancel =>
    cases hst
    exact ⟨h.cancel, Sys.told_single trivial⟩
  | work k => exact h.work hst
  | fetched k page stillCurrent => exact h.fetched hlog hst
  | waited k => exact h.waited hst
  | settled k => exact h.settled hst
  | joined => exact h.joined hst
  | rested => exact h.rested hst

omit [DecidableEq π] in
theorem sound_start (requests : List SessionHistoryRecoveryRequest) : Sound log [] (Fleet.start requests concurrency) := by
  have hempty : Sound log [] (⟨true, [], 0, [], [], [], [], .running⟩ : Fleet π) := by
    refine ⟨fun _ => List.not_mem_nil, List.forall_mem_nil _, ?_⟩
    intro k entry turn next hk
    exact absurd hk (by simp)
  refine hempty.open concurrency ?_
  intro entry hin
  obtain ⟨r, -, rfl⟩ := List.mem_map.1 hin
  refine ⟨rfl, rfl, Int.le_refl _, fun x _ hlow hhigh => ?_⟩
  simp only at hlow hhigh
  omega

/-- **In every run** each observation finds in the history what it should. -/
theorem finds_of_run (hlog : ∀ sessionId eventEpoch, Rising SessionEvent.seq (log sessionId eventEpoch))
    {requests : List SessionHistoryRecoveryRequest}
    (h : Sys.Run (Fleet.step log options concurrency) (Fleet.start requests concurrency) l w) :
    Sound log l w ∧ Sys.Told (Finds log) [] l := by
  refine h.told (Finds log) (Sound log) (sound_start requests) ?_
  intro l w e w' o hsound _ hst
  exact hsound.step hlog hst

end

end Wollipog.Recovery
