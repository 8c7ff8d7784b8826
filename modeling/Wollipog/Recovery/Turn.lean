import Wollipog.Lib.Js
import Wollipog.Lib.Segment
/-!
# Turn — one recovery turn over a session's cached history

A turn walks the server's pages from its cursor, gives the first to the view at once and gathers the others.
-/
namespace Wollipog.Recovery

open Segment

structure SessionEvent (π : Type) where
  seq : Int
  payload : π
deriving DecidableEq

variable {π : Type}

/-- A page of the server; a member is `none` where the response leaves it out. -/
structure SessionEventsResponse (π : Type) where
  events : List (SessionEvent π)
  eventEpoch : Option Int
  nextAfter : Option Int
  hasMoreCached : Option Bool
  cacheComplete : Option Bool

structure SessionHistoryRecoveryRequest where
  sessionId : String
  after : Int
  eventEpoch : Int
  recoveryRevision : Int
  initialPagePainted : Bool
deriving DecidableEq

structure Options where
  idlePollMs : Nat
  maxIdlePolls : Nat
  retryOnIdleTimeout : Bool
  idleRetryMs : Nat
  maxPagesPerTurn : Option Nat

/-- A call of `applyPage`. -/
structure ApplyPage (π : Type) where
  sessionId : String
  events : List (SessionEvent π)
  eventEpoch : Int
  recoveryRevision : Int
  complete : Bool

structure TurnResult where
  complete : Bool
  after : Int
  yielded : Bool
  initialPagePainted : Bool
deriving DecidableEq

/-- Where a turn stands when it stops running: it awaits a page or the end of a wait, or it has ended. -/
inductive Next
  | fetchPage
  | wait (ms : Nat)
  | returned (result : TurnResult)
  | threw
deriving DecidableEq

/-- The variables of `recoverSessionHistoryTurn`. -/
structure Turn (π : Type) where
  after : Int
  appliedAfter : Int
  firstPage : Bool
  initialPagePainted : Bool
  pendingEvents : List (SessionEvent π)
  idlePolls : Nat
  pagesFetched : Nat

namespace SessionEventsResponse

def responseEpoch (page : SessionEventsResponse π) (request : SessionHistoryRecoveryRequest) : Int :=
  page.eventEpoch.getD request.eventEpoch

def legacy (page : SessionEventsResponse π) : Bool :=
  page.nextAfter.isNone && page.hasMoreCached.isNone && page.cacheComplete.isNone

def next (page : SessionEventsResponse π) (after : Int) : Int :=
  page.nextAfter.getD ((page.events.getLast?.map SessionEvent.seq).getD after)

def complete (page : SessionEventsResponse π) : Bool :=
  page.legacy || (page.cacheComplete == some true && page.hasMoreCached != some true)

/-- The page holds what stands in the log of the request's epoch between its two cursors. -/
def Serves (log : List (SessionEvent π)) (request : SessionHistoryRecoveryRequest) (after : Int) (page : SessionEventsResponse π) :
    Prop :=
  page.responseEpoch request = request.eventEpoch → page.events = segment SessionEvent.seq log after (page.next after)

instance [DecidableEq π] (log : List (SessionEvent π)) (request : SessionHistoryRecoveryRequest) (after : Int)
    (page : SessionEventsResponse π) : Decidable (page.Serves log request after) :=
  inferInstanceAs (Decidable (_ → _))

end SessionEventsResponse

namespace Turn

def start (request : SessionHistoryRecoveryRequest) : Turn π where
  after := request.after
  appliedAfter := request.after
  firstPage := !request.initialPagePainted
  initialPagePainted := request.initialPagePainted
  pendingEvents := []
  idlePolls := 0
  pagesFetched := 0

def incomplete (t : Turn π) : TurnResult := ⟨false, t.appliedAfter, false, t.initialPagePainted⟩

def loop (t : Turn π) (isCurrent : Bool) : Next := if isCurrent then .fetchPage else .returned t.incomplete

def flushPending (t : Turn π) (request : SessionHistoryRecoveryRequest) (eventEpoch : Int) (complete : Bool) :
    Turn π × List (ApplyPage π) :=
  if t.pendingEvents.isEmpty && !complete then (t, [])
  else ({ t with pendingEvents := [], appliedAfter := t.after },
    [⟨request.sessionId, t.pendingEvents, eventEpoch, request.recoveryRevision, complete⟩])

def take (t : Turn π) (request : SessionHistoryRecoveryRequest) (page : SessionEventsResponse π) : Turn π × List (ApplyPage π) :=
  if t.firstPage then
    ({ t with firstPage := false, initialPagePainted := true, appliedAfter := page.next t.after, after := page.next t.after },
      [⟨request.sessionId, page.events, page.responseEpoch request, request.recoveryRevision, page.complete⟩])
  else ({ t with pendingEvents := t.pendingEvents ++ page.events, after := page.next t.after }, [])

def spent (t : Turn π) (options : Options) : Bool := options.maxPagesPerTurn.any (fun n => decide (max 1 n ≤ t.pagesFetched))

def leave (t : Turn π) (request : SessionHistoryRecoveryRequest) (eventEpoch : Int) (complete : Bool)
    (result : Turn π → TurnResult) : Turn π × List (ApplyPage π) × Next :=
  ((t.flushPending request eventEpoch complete).1, (t.flushPending request eventEpoch complete).2,
    .returned (result (t.flushPending request eventEpoch complete).1))

/-- What the turn makes of a page once it is taken; `advanced` says whether the cursor moved. -/
def settle (t : Turn π) (options : Options) (request : SessionHistoryRecoveryRequest) (page : SessionEventsResponse π)
    (wasFirstPage advanced isCurrent : Bool) : Turn π × List (ApplyPage π) × Next :=
  if page.complete then
    if wasFirstPage then (t, [], .returned ⟨true, t.after, false, t.initialPagePainted⟩)
    else t.leave request (page.responseEpoch request) true (fun _ => ⟨true, t.after, false, t.initialPagePainted⟩)
  else if page.hasMoreCached = some true && !advanced then
    t.leave request (page.responseEpoch request) false incomplete
  else if advanced then
    if t.spent options then
      { t with idlePolls := 0 }.leave request (page.responseEpoch request) false (fun _ => ⟨false, t.after, true, t.initialPagePainted⟩)
    else ({ t with idlePolls := 0 }, [],
      if page.hasMoreCached = some true then t.loop isCurrent else .wait options.idlePollMs)
  else if options.maxIdlePolls < t.idlePolls + 1 then
    if options.retryOnIdleTimeout then ({ t with idlePolls := 0 }, [], .wait options.idleRetryMs)
    else { t with idlePolls := t.idlePolls + 1 }.leave request (page.responseEpoch request) false incomplete
  else ({ t with idlePolls := t.idlePolls + 1 }, [], .wait options.idlePollMs)

def accept (t : Turn π) (options : Options) (request : SessionHistoryRecoveryRequest) (page : SessionEventsResponse π)
    (isCurrent : Bool) : Turn π × List (ApplyPage π) × Next :=
  if page.responseEpoch request ≠ request.eventEpoch then (t, [], .returned t.incomplete)
  else if !Js.isSafeInteger (page.next t.after) || decide (page.next t.after < t.after) then (t, [], .returned t.incomplete)
  else
    match (t.take request page).1.settle options request page t.firstPage (decide (t.after < page.next t.after)) isCurrent with
    | (u, applied, next) => (u, (t.take request page).2 ++ applied, next)

/-- What comes in where the turn awaits a page; an error is `none`. -/
def receive (t : Turn π) (options : Options) (request : SessionHistoryRecoveryRequest) (fetched : Option (SessionEventsResponse π))
    (isCurrent stillCurrent : Bool) : Turn π × List (ApplyPage π) × Next :=
  match fetched with
  | none =>
    if !options.retryOnIdleTimeout then (t, [], .threw)
    else if !isCurrent then (t, [], .returned t.incomplete)
    else (t, [], .wait options.idleRetryMs)
  | some page =>
    if !isCurrent then ({ t with pagesFetched := t.pagesFetched + 1 }, [], .returned t.incomplete)
    else { t with pagesFetched := t.pagesFetched + 1 }.accept options request page stillCurrent

/-! ## What a turn gives -/

/-- The events of the calls of `applyPage`. -/
def given (applied : List (ApplyPage π)) : List (SessionEvent π) := applied.flatMap ApplyPage.events

/-- **Between two waits**: what was given in the turn and what is gathered stand in the log, one behind the other. -/
structure Holds (log : List (SessionEvent π)) (request : SessionHistoryRecoveryRequest) (done : List (SessionEvent π)) (t : Turn π) :
    Prop where
  done_eq : done = segment SessionEvent.seq log request.after t.appliedAfter
  pending_eq : t.pendingEvents = segment SessionEvent.seq log t.appliedAfter t.after
  le : request.after ≤ t.appliedAfter
  le' : t.appliedAfter ≤ t.after
  first : t.firstPage = true → t.appliedAfter = t.after

variable {log : List (SessionEvent π)} {request : SessionHistoryRecoveryRequest} {done : List (SessionEvent π)} {t : Turn π}

theorem holds_start : Holds log request [] (start request) where
  done_eq := (segment_eq_nil (Int.le_refl _)).symm
  pending_eq := (segment_eq_nil (Int.le_refl _)).symm
  le := Int.le_refl _
  le' := Int.le_refl _
  first _ := rfl

theorem Holds.flushPending (hlog : Rising SessionEvent.seq log) (h : Holds log request done t) (eventEpoch : Int) (complete : Bool) :
    Holds log request (done ++ given (t.flushPending request eventEpoch complete).2) (t.flushPending request eventEpoch complete).1 ∧
      segment SessionEvent.seq log (t.flushPending request eventEpoch complete).1.appliedAfter t.after = [] ∧
      (t.flushPending request eventEpoch complete).1.after = t.after := by
  unfold Turn.flushPending
  split
  · rename_i hempty
    rw [Bool.and_eq_true, List.isEmpty_iff] at hempty
    refine ⟨?_, h.pending_eq.symm.trans hempty.1, rfl⟩
    have hnone : given ([] : List (ApplyPage π)) = [] := rfl
    rw [hnone, List.append_nil]
    exact h
  · refine ⟨⟨?_, ?_, Int.le_trans h.le h.le', Int.le_refl _, fun _ => rfl⟩, segment_eq_nil (Int.le_refl _), rfl⟩
    · have hgiven : given [(⟨request.sessionId, t.pendingEvents, eventEpoch, request.recoveryRevision, complete⟩ : ApplyPage π)] =
          t.pendingEvents := List.append_nil _
      rw [hgiven, h.done_eq, h.pending_eq]
      exact segment_append hlog h.le h.le'
    · exact (segment_eq_nil (Int.le_refl _)).symm

theorem Holds.take (hlog : Rising SessionEvent.seq log) (h : Holds log request done t) {page : SessionEventsResponse π}
    (hpage : page.events = segment SessionEvent.seq log t.after (page.next t.after)) (hnext : t.after ≤ page.next t.after) :
    Holds log request (done ++ given (t.take request page).2) (t.take request page).1 := by
  unfold Turn.take
  split
  · rename_i hfirst
    have hsame := h.first hfirst
    refine ⟨?_, ?_, Int.le_trans h.le (Int.le_trans h.le' hnext), Int.le_refl _, fun _ => rfl⟩
    · have hgiven : given [(⟨request.sessionId, page.events, page.responseEpoch request, request.recoveryRevision,
          page.complete⟩ : ApplyPage π)] = page.events := List.append_nil _
      rw [hgiven, h.done_eq, hpage, hsame]
      exact segment_append hlog (Int.le_trans h.le h.le') hnext
    · have hpending := h.pending_eq
      rw [hsame, segment_eq_nil (Int.le_refl _)] at hpending
      rw [hpending]
      exact (segment_eq_nil (Int.le_refl _)).symm
  · rename_i hfirst
    have hnone : given ([] : List (ApplyPage π)) = [] := rfl
    rw [hnone, List.append_nil]
    refine ⟨h.done_eq, ?_, h.le, Int.le_trans h.le' hnext, fun hf => absurd hf hfirst⟩
    simp only
    rw [h.pending_eq, hpage]
    exact segment_append hlog h.le' hnext

/-- What may come out of a turn: the calls give on what it holds; a completed turn gave to the head told last. -/
structure Ran (log : List (SessionEvent π)) (request : SessionHistoryRecoveryRequest) (done : List (SessionEvent π)) (head : Option Int)
    (r : Turn π × List (ApplyPage π) × Next) : Prop where
  holds : Holds log request (done ++ given r.2.1) r.1
  returned : ∀ result, r.2.2 = .returned result →
    done ++ given r.2.1 = segment SessionEvent.seq log request.after result.after ∧ request.after ≤ result.after
  completed : ∀ result, r.2.2 = .returned result → result.complete = true → head = some result.after
  epoch : ∀ a ∈ r.2.1, a.eventEpoch = request.eventEpoch

theorem Holds.counted (h : Holds log request done t) (idlePolls pagesFetched : Nat) :
    Holds log request done { t with idlePolls := idlePolls, pagesFetched := pagesFetched } :=
  ⟨h.done_eq, h.pending_eq, h.le, h.le', h.first⟩

theorem given_nil : given ([] : List (ApplyPage π)) = [] := rfl

theorem given_append (a b : List (ApplyPage π)) : given (a ++ b) = given a ++ given b := List.flatMap_append

variable {isCurrent stillCurrent : Bool} {next : Next} {head : Option Int}

theorem Holds.quiet (h : Holds log request done t)
    (hnext : ∀ result, next = .returned result → result = t.incomplete) : Ran log request done head (t, [], next) where
  holds := by
    rw [given_nil, List.append_nil]
    exact h
  returned result hresult := by
    rw [hnext result hresult, given_nil, List.append_nil]
    exact ⟨h.done_eq, h.le⟩
  completed result hresult hcomplete := by
    rw [hnext result hresult] at hcomplete
    cases hcomplete
  epoch a ha := absurd ha List.not_mem_nil

theorem Holds.leave (hlog : Rising SessionEvent.seq log) (h : Holds log request done t) (complete : Bool)
    {result : Turn π → TurnResult}
    (hresult : ∀ u, (result u).after = u.appliedAfter ∨ (result u).after = t.after)
    (hhead : ∀ u, (result u).complete = true → head = some (result u).after) :
    Ran log request done head (t.leave request request.eventEpoch complete result) := by
  obtain ⟨hholds, hempty, hafter⟩ := h.flushPending hlog request.eventEpoch complete
  refine ⟨hholds, ?_, ?_, ?_⟩
  · intro r hr
    cases hr
    have hle := hholds.le'
    rw [hafter] at hle
    rcases hresult (t.flushPending request request.eventEpoch complete).1 with heq | heq
    · rw [heq]
      exact ⟨hholds.done_eq, hholds.le⟩
    · rw [heq]
      refine ⟨hholds.done_eq.trans ?_, Int.le_trans h.le h.le'⟩
      rw [← segment_append hlog hholds.le hle, hempty, List.append_nil]
  · intro r hr hcomplete
    cases hr
    exact hhead _ hcomplete
  · intro a ha
    unfold Turn.leave Turn.flushPending at ha
    split at ha
    · exact absurd ha List.not_mem_nil
    · rw [List.mem_singleton.1 ha]

theorem Holds.settle (hlog : Rising SessionEvent.seq log) (h : Holds log request done t) (options : Options)
    {page : SessionEventsResponse π} (hepoch : page.responseEpoch request = request.eventEpoch) {wasFirstPage advanced : Bool}
    (hfirst : wasFirstPage = true → t.appliedAfter = t.after) (hhead : page.complete = true → head = some t.after) :
    Ran log request done head (t.settle options request page wasFirstPage advanced isCurrent) := by
  have hidle : ∀ n, Holds log request done { t with idlePolls := n } := fun n => h.counted n t.pagesFetched
  unfold Turn.settle
  rw [hepoch]
  split
  · rename_i hcomplete
    split
    · rename_i hwas
      have hsame := hfirst hwas
      refine ⟨?_, ?_, fun _ hr _ => by cases hr; exact hhead hcomplete, List.forall_mem_nil _⟩
      · rw [given_nil, List.append_nil]
        exact h
      · intro result hresult
        cases hresult
        rw [given_nil, List.append_nil, ← hsame]
        exact ⟨h.done_eq, h.le⟩
    · exact h.leave hlog true (fun _ => .inr rfl) (fun _ _ => hhead hcomplete)
  · split
    · exact h.leave hlog false (fun _ => .inl rfl) (fun _ hc => by cases hc)
    · split
      · split
        · exact (hidle 0).leave hlog false (fun _ => .inr rfl) (fun _ hc => by cases hc)
        · refine (hidle 0).quiet ?_
          intro result hresult
          split at hresult
          · unfold Turn.loop at hresult
            split at hresult
            · cases hresult
            · cases hresult
              rfl
          · cases hresult
      · split
        · split
          · exact (hidle 0).quiet (fun _ hr => by cases hr)
          · exact (hidle _).leave hlog false (fun _ => .inl rfl) (fun _ hc => by cases hc)
        · exact (hidle _).quiet (fun _ hr => by cases hr)

def headOf (fetched : Option (SessionEventsResponse π)) (after : Int) : Option Int :=
  fetched.bind (fun page => if page.complete then some (page.next after) else none)

/-- **One run of a turn** keeps what it holds. -/
theorem Holds.receive (hlog : Rising SessionEvent.seq log) (h : Holds log request done t) (options : Options)
    {fetched : Option (SessionEventsResponse π)} (hserves : ∀ page, fetched = some page → page.Serves log request t.after) :
    Ran log request done (headOf fetched t.after) (t.receive options request fetched isCurrent stillCurrent) := by
  cases fetched with
  | none =>
    unfold Turn.receive
    simp only
    split
    · exact h.quiet (fun _ hr => by cases hr)
    · split
      · exact h.quiet (fun _ hr => by cases hr; rfl)
      · exact h.quiet (fun _ hr => by cases hr)
  | some page =>
    have hcounted := h.counted t.idlePolls (t.pagesFetched + 1)
    unfold Turn.receive
    simp only
    split
    · exact hcounted.quiet (fun _ hr => by cases hr; rfl)
    · unfold Turn.accept
      split
      · exact hcounted.quiet (fun _ hr => by cases hr; rfl)
      · rename_i hepoch
        rw [ne_eq, not_not] at hepoch
        split
        · exact hcounted.quiet (fun _ hr => by cases hr; rfl)
        · rename_i hvalid
          simp only [Bool.or_eq_true, Bool.not_eq_true', decide_eq_true_eq, not_or, Int.not_lt] at hvalid
          have hevents := hserves page rfl hepoch
          have htake := hcounted.take hlog hevents hvalid.2
          have hnext : ({ t with pagesFetched := t.pagesFetched + 1 }.take request page).1.after = page.next t.after := by
            unfold Turn.take
            split <;> rfl
          have hsettle : Ran log request (done ++ given ({ t with pagesFetched := t.pagesFetched + 1 }.take request page).2)
              (headOf (some page) t.after) (({ t with pagesFetched := t.pagesFetched + 1 }.take request page).1.settle options
                request page t.firstPage (decide (t.after < page.next t.after)) stillCurrent) := htake.settle hlog options hepoch
            (fun hfirst => by
              have hfirst' : ({ t with pagesFetched := t.pagesFetched + 1 } : Turn π).firstPage = true := hfirst
              unfold Turn.take
              rw [if_pos hfirst'])
            (fun hcomplete => by
              rw [hnext]
              exact if_pos hcomplete)
          obtain ⟨hholds, hreturned, hcompleted, happlied⟩ := hsettle
          simp only at hholds hreturned hcompleted happlied ⊢
          refine ⟨?_, ?_, hcompleted, ?_⟩
          · rw [given_append, ← List.append_assoc]
            exact hholds
          · intro result hresult
            rw [given_append, ← List.append_assoc]
            exact hreturned result hresult
          · intro a ha
            rcases List.mem_append.1 ha with ha | ha
            · unfold Turn.take at ha
              split at ha
              · rw [List.mem_singleton.1 ha]
                exact hepoch
              · exact absurd ha List.not_mem_nil
            · exact happlied a ha

theorem receive_cancelled (t : Turn π) (options : Options) (request : SessionHistoryRecoveryRequest)
    (fetched : Option (SessionEventsResponse π)) (stillCurrent : Bool) :
    (t.receive options request fetched false stillCurrent).2.1 = [] := by
  cases fetched with
  | none =>
    unfold Turn.receive
    simp only
    split <;> rfl
  | some page => rfl

/-- Only a walk that is still current applies anything. -/
theorem current_of_applied {t t' : Turn π} {options : Options} {request : SessionHistoryRecoveryRequest}
    {fetched : Option (SessionEventsResponse π)} {current : Bool} {applied : List (ApplyPage π)}
    (hreceive : t.receive options request fetched current stillCurrent = (t', applied, next)) (hne : applied ≠ []) : current = true := by
  cases current with
  | true => rfl
  | false =>
    have hnone := receive_cancelled t options request fetched stillCurrent
    rw [hreceive] at hnone
    exact absurd hnone hne

end Turn

end Wollipog.Recovery
