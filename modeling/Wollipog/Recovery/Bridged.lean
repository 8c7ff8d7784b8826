import Wollipog.Lib.Run
import Wollipog.Recovery.Turn
/-!
# Bridged — recovering one session, with a tail window for a long gap

A turn with a page budget walks the gap; one that spends it hands over to the window at the tail, and where that
cannot be had a second turn goes on from the cursor of the first.
-/
namespace Wollipog.Recovery

open Segment

variable {π : Type}

structure TailPage (π : Type) where
  events : List (SessionEvent π)
  eventEpoch : Option Int
  hasMoreOlder : Option Bool
  cacheComplete : Option Bool

structure WindowOptions where
  idlePollMs : Nat
  maxIdlePolls : Nat

/-- The options of a gap's recovery; `defers` says that the caller gave `deferWindow`. -/
structure GapOptions where
  history : Options
  window : WindowOptions
  defers : Bool

/-- Where `recoverSessionHistoryGap` stands. -/
inductive GapStage (π : Type)
  /-- Within the first or the second turn, or behind it; the turn walks from `after`. -/
  | walk (second : Bool) (after : Int) (turn : Turn π) (next : Next)
  /-- Within the loop of `recoverSessionHistoryWindow`, awaiting a page or the end of a wait. -/
  | window (idlePolls : Nat) (waiting : Bool) (after : Int)
  /-- Behind it. -/
  | windowed (supported complete readerPaused deferred : Bool) (after : Int)
  | finished
  | threw

structure Gap (π : Type) where
  current : Bool
  stage : GapStage π

inductive GapEvent (π : Type)
  | cancel
  | fetched (page : Option (SessionEventsResponse π)) (stillCurrent : Bool)
  | waited
  /-- The caller goes on behind a turn. -/
  | settled (canReplaceWithWindow : Bool)
  | tail (page : Option (TailPage π)) (canReplaceWithWindow cacheCannotFill deferWindow : Bool)
  | tailWaited
  | tailSettled

inductive GapObservation (π : Type)
  | cancelled
  | gave (call : ApplyPage π)
  /-- The window takes the place of the gap. -/
  | applyWindow (events : List (SessionEvent π)) (complete : Bool)
  | deferWindow (events : List (SessionEvent π)) (accepted : Bool)
  | resumed (after : Int)
  /-- A turn returned; with it the head that its last page told, if that page completed the history. -/
  | ended (result : TurnResult) (head : Option Int)
  | returned (complete : Bool)

/-- `SESSION_HISTORY_RECONNECT_PAGE_BUDGET` -/
def reconnectPageBudget : Nat := 4

section

variable [DecidableEq π] (log : List (SessionEvent π)) (options : GapOptions) (request : SessionHistoryRecoveryRequest)

/-- The options of a turn; `budgeted` is what `canReplaceWithWindow` answered before the first. -/
def walkOptions (budgeted second : Bool) : Options :=
  { options.history with maxPagesPerTurn := if !second && (options.defers || budgeted) then some reconnectPageBudget else none }

/-- `{ ...request, after }`; a direct recovery says nothing of a painted page. -/
def plainRequest (after : Int) : SessionHistoryRecoveryRequest := { request with after := after, initialPagePainted := false }

def walkFrom (second : Bool) (after : Int) (isCurrent : Bool) : GapStage π :=
  .walk second after (Turn.start (plainRequest request after)) (Turn.loop (Turn.start (plainRequest request after) : Turn π) isCurrent)

def Gap.start (isCurrent : Bool) : Gap π := ⟨isCurrent, walkFrom request false request.after isCurrent⟩

def Gap.windowLoop (w : Gap π) (idlePolls : Nat) (after : Int) : Gap π :=
  if w.current then { w with stage := .window idlePolls false after } else { w with stage := .windowed true false false false after }

def Gap.resume (w : Gap π) (after : Int) : Gap π × List (GapObservation π) :=
  ({ w with stage := walkFrom request true after w.current }, [.resumed after])

def Gap.finish (w : Gap π) (complete : Bool) : Gap π × List (GapObservation π) :=
  ({ w with stage := .finished }, [.returned complete])

def Gap.tail (w : Gap π) (idlePolls : Nat) (after : Int) (page : TailPage π) (canReplaceWithWindow cacheCannotFill deferWindow : Bool) :
    Gap π × List (GapObservation π) :=
  if page.hasMoreOlder.isNone then ({ w with stage := .windowed false false false false after }, [])
  else if page.eventEpoch.getD request.eventEpoch ≠ request.eventEpoch then ({ w with stage := .windowed true false false false after }, [])
  else if page.cacheComplete = some true then
    if canReplaceWithWindow then ({ w with stage := .windowed true true false false after }, [.applyWindow page.events true])
    else ({ w with stage := .windowed true true true (options.defers && deferWindow) after },
      if options.defers then [.deferWindow page.events deferWindow] else [])
  else if options.window.maxIdlePolls < idlePolls + 1 ∨ cacheCannotFill = true then
    ({ w with stage := .windowed true false false false after }, if canReplaceWithWindow then [.applyWindow [] false] else [])
  else ({ w with stage := .window (idlePolls + 1) true after }, [])

def turnEnd (head : Option Int) : Next → List (GapObservation π)
  | .returned result => [.ended result head]
  | _ => []

def cancelledBy (before after : Bool) : List (GapObservation π) := if before && !after then [.cancelled] else []

def Gap.step (budgeted : Bool) (w : Gap π) : GapEvent π → Option (Gap π × List (GapObservation π))
  | .cancel => some ({ w with current := false }, [.cancelled])
  | .fetched page stillCurrent =>
    match w.stage with
    | .walk second after turn .fetchPage =>
      if page.all (fun page => decide (page.Serves log (plainRequest request after) turn.after)) then
        match turn.receive (walkOptions options budgeted second) (plainRequest request after) page w.current
          (w.current && stillCurrent) with
        | (turn', applied, next) =>
          some (⟨w.current && stillCurrent, .walk second after turn' next⟩,
            applied.map .gave ++ turnEnd (Turn.headOf page turn.after) next ++ cancelledBy w.current stillCurrent)
      else none
    | _ => none
  | .waited =>
    match w.stage with
    | .walk second after turn (.wait _) =>
      some ({ w with stage := .walk second after turn (turn.loop w.current) }, turnEnd none (turn.loop w.current))
    | _ => none
  | .settled canReplaceWithWindow =>
    match w.stage with
    | .walk second _ _ (.returned result) =>
      if result.complete then some (w.finish true)
      else if second || !result.yielded || !w.current then some (w.finish false)
      else if options.defers || canReplaceWithWindow then some (w.windowLoop 0 result.after, [])
      else some (w.resume request result.after)
    | .walk _ _ _ .threw => some ({ w with stage := .threw }, [])
    | _ => none
  | .tail page canReplaceWithWindow cacheCannotFill deferWindow =>
    match w.stage with
    | .window idlePolls false after =>
      match page with
      | none => some ({ w with stage := .threw }, [])
      | some page =>
        if !w.current then some ({ w with stage := .windowed true false false false after }, [])
        else some (w.tail options request idlePolls after page canReplaceWithWindow cacheCannotFill deferWindow)
    | _ => none
  | .tailWaited =>
    match w.stage with
    | .window idlePolls true after => some (w.windowLoop idlePolls after, [])
    | _ => none
  | .tailSettled =>
    match w.stage with
    | .windowed supported complete readerPaused deferred after =>
      if supported && (!readerPaused || options.defers) then some (w.finish (complete && (!readerPaused || deferred)))
      else if !w.current then some (w.finish false)
      else some (w.resume request after)
    | _ => none

end

end Wollipog.Recovery

/-! ## What recovering one session gives

Across its turns a recovery gives a beginning of the log behind its cursor, in order.
-/
namespace Wollipog.Recovery

open Segment

variable {π : Type}

def gapEvents : GapObservation π → List (SessionEvent π)
  | .gave call => call.events
  | _ => []

def gapGiven (l : List (GapObservation π)) : List (SessionEvent π) := l.flatMap gapEvents

theorem gapGiven_append (a b : List (GapObservation π)) : gapGiven (a ++ b) = gapGiven a ++ gapGiven b := List.flatMap_append

theorem gapGiven_gave (applied : List (ApplyPage π)) : gapGiven (applied.map .gave) = Turn.given applied := by
  unfold gapGiven Turn.given
  rw [List.flatMap_map]
  rfl

section

variable (log : List (SessionEvent π)) (request : SessionHistoryRecoveryRequest)

def Windowed (l : List (GapObservation π)) : Prop :=
  ∃ events, .applyWindow events true ∈ l ∨ .deferWindow events true ∈ l

/-- The forward chain reached the head that a page told, and everything up to it was given. -/
def Reached (l : List (GapObservation π)) : Prop :=
  ∃ result, result.complete = true ∧ .ended result (some result.after) ∈ l ∧
    gapGiven l = segment SessionEvent.seq log request.after result.after

def GapFinds (l : List (GapObservation π)) : GapObservation π → Prop
  | .cancelled => True
  | .gave call => .cancelled ∉ l ∧ call.eventEpoch = request.eventEpoch ∧
      gapGiven l ++ call.events <+: log.filter (fun x => decide (request.after < x.seq))
  | .applyWindow _ _ => .cancelled ∉ l
  | .deferWindow _ _ => .cancelled ∉ l
  | .resumed after => gapGiven l = segment SessionEvent.seq log request.after after
  | .ended result head => gapGiven l = segment SessionEvent.seq log request.after result.after ∧
      (result.complete = true → head = some result.after)
  | .returned complete => complete = true → Reached log request l ∨ Windowed l

structure Walks (l : List (GapObservation π)) (after : Int) (turn : Turn π) (next : Next) : Prop where
  le : request.after ≤ after
  holds : ∃ done, turn.Holds log (plainRequest request after) done ∧
    gapGiven l = segment SessionEvent.seq log request.after after ++ done
  returned : ∀ result, next = .returned result → request.after ≤ result.after ∧
    gapGiven l = segment SessionEvent.seq log request.after result.after ∧
      (result.complete = true → .ended result (some result.after) ∈ l)

def GapStage.Sound (l : List (GapObservation π)) : GapStage π → Prop
  | .walk _ after turn next => Walks log request l after turn next
  | .window _ _ after => request.after ≤ after ∧ gapGiven l = segment SessionEvent.seq log request.after after
  | .windowed _ complete readerPaused deferred after =>
    (request.after ≤ after ∧ gapGiven l = segment SessionEvent.seq log request.after after) ∧
      (complete = true → (readerPaused = true → deferred = true) → Windowed l)
  | .finished => True
  | .threw => True

/-- **The invariant** of a gap's recovery. -/
structure GapSound (l : List (GapObservation π)) (w : Gap π) : Prop where
  current : w.current = true → .cancelled ∉ l
  stage : w.stage.Sound log request l

variable {log request} {l o : List (GapObservation π)} {w w' : Gap π}

variable {after : Int} {canReplaceWithWindow : Bool}

theorem walks_from (second : Bool) (isCurrent : Bool) (hle : request.after ≤ after)
    (hgiven : gapGiven l = segment SessionEvent.seq log request.after after) :
    (walkFrom request second after isCurrent).Sound log request l := by
  refine ⟨hle, ⟨[], Turn.holds_start, by rw [List.append_nil]; exact hgiven⟩, ?_⟩
  intro result hresult
  unfold Turn.loop at hresult
  split at hresult
  · cases hresult
  · cases hresult
    exact ⟨hle, hgiven, fun hc => by cases hc⟩

theorem gapSound_start (isCurrent : Bool) : GapSound log request [] (Gap.start request isCurrent) where
  current _ := List.not_mem_nil
  stage := walks_from false isCurrent (Int.le_refl _) (segment_eq_nil (Int.le_refl _)).symm

theorem GapStage.Sound.keep {s : GapStage π} (h : s.Sound log request l) (ho : gapGiven o = []) : s.Sound log request (l ++ o) := by
  have hgiven : gapGiven (l ++ o) = gapGiven l := by rw [gapGiven_append, ho, List.append_nil]
  have hwindowed : Windowed l → Windowed (l ++ o) := by
    rintro ⟨events, hevents⟩
    exact ⟨events, hevents.imp (List.mem_append_left o) (List.mem_append_left o)⟩
  cases s with
  | walk second after turn next =>
    obtain ⟨hle, hholds, hreturned⟩ := h
    refine ⟨hle, by rw [hgiven]; exact hholds, fun result hresult => ?_⟩
    obtain ⟨hle', hsegment, hended⟩ := hreturned result hresult
    rw [hgiven]
    exact ⟨hle', hsegment, fun hc => List.mem_append_left o (hended hc)⟩
  | window idlePolls waiting after =>
    refine ⟨h.1, ?_⟩
    rw [hgiven]
    exact h.2
  | windowed supported complete readerPaused deferred after =>
    refine ⟨⟨h.1.1, ?_⟩, fun hc hp => hwindowed (h.2 hc hp)⟩
    rw [hgiven]
    exact h.1.2
  | finished => trivial
  | threw => trivial

theorem Gap.run_finish {complete : Bool} (h : GapSound log request l w)
    (hreturned : complete = true → Reached log request l ∨ Windowed l) :
    GapSound log request (l ++ (w.finish complete).2) (w.finish complete).1 ∧
      Sys.Told (GapFinds log request) l (w.finish complete).2 := by
  refine ⟨⟨?_, trivial⟩, Sys.told_single hreturned⟩
  intro hc hmem
  rcases List.mem_append.1 hmem with hmem | hmem
  · exact h.current hc hmem
  · cases List.mem_singleton.1 hmem

theorem Gap.run_resume (h : GapSound log request l w) (hle : request.after ≤ after)
    (hgiven : gapGiven l = segment SessionEvent.seq log request.after after) :
    GapSound log request (l ++ (w.resume request after).2) (w.resume request after).1 ∧
      Sys.Told (GapFinds log request) l (w.resume request after).2 := by
  refine ⟨⟨?_, ?_⟩, Sys.told_single hgiven⟩
  · intro hc hmem
    rcases List.mem_append.1 hmem with hmem | hmem
    · exact h.current hc hmem
    · cases List.mem_singleton.1 hmem
  · exact (walks_from true w.current hle hgiven).keep rfl

theorem Gap.run_windowLoop (h : GapSound log request l w) (idlePolls : Nat) (hle : request.after ≤ after)
    (hgiven : gapGiven l = segment SessionEvent.seq log request.after after) :
    GapSound log request l (w.windowLoop idlePolls after) := by
  unfold Gap.windowLoop
  split
  · exact ⟨h.current, hle, hgiven⟩
  · exact ⟨h.current, ⟨hle, hgiven⟩, fun hc => by cases hc⟩

theorem GapSound.quiet {stage : GapStage π} (h : GapSound log request l w) (hcancelled : .cancelled ∉ o)
    (hstage : stage.Sound log request (l ++ o)) : GapSound log request (l ++ o) { w with stage := stage } where
  current hc hmem := by
    rcases List.mem_append.1 hmem with hmem | hmem
    · exact h.current hc hmem
    · exact hcancelled hmem
  stage := hstage

theorem Gap.run_tail {options : GapOptions} {idlePolls : Nat} {page : TailPage π}
    {cacheCannotFill deferWindow : Bool} (h : GapSound log request l w) (hcurrent : w.current = true)
    (hafter : request.after ≤ after ∧ gapGiven l = segment SessionEvent.seq log request.after after) :
    GapSound log request (l ++ (w.tail options request idlePolls after page canReplaceWithWindow cacheCannotFill deferWindow).2)
        (w.tail options request idlePolls after page canReplaceWithWindow cacheCannotFill deferWindow).1 ∧
      Sys.Told (GapFinds log request) l
        (w.tail options request idlePolls after page canReplaceWithWindow cacheCannotFill deferWindow).2 := by
  have hnot := h.current hcurrent
  have hgiven : ∀ {o : List (GapObservation π)}, gapGiven o = [] →
      request.after ≤ after ∧ gapGiven (l ++ o) = segment SessionEvent.seq log request.after after := by
    intro o ho
    rw [gapGiven_append, ho, List.append_nil]
    exact hafter
  have hnone : ∀ {stage : GapStage π}, stage.Sound log request l →
      GapSound log request (l ++ []) { w with stage := stage } ∧ Sys.Told (GapFinds log request) l [] := by
    intro stage hstage
    rw [List.append_nil]
    exact ⟨⟨h.current, hstage⟩, Sys.told_nil _ _⟩
  unfold Gap.tail
  split
  · exact hnone ⟨hafter, fun hc => by cases hc⟩
  · split
    · exact hnone ⟨hafter, fun hc => by cases hc⟩
    · split
      · split
        · refine ⟨h.quiet (by simp) ⟨hgiven rfl, fun _ _ => ⟨page.events, .inl (by simp)⟩⟩, Sys.told_single hnot⟩
        · cases hdefers : options.defers with
          | true =>
            refine ⟨h.quiet (by simp) ⟨hgiven rfl, fun _ hp => ⟨page.events, .inr ?_⟩⟩, Sys.told_single hnot⟩
            have haccepted : deferWindow = true := by simpa using hp rfl
            rw [haccepted]
            exact List.mem_append_cons_self
          | false => exact hnone ⟨hafter, fun _ hp => by cases hp rfl⟩
      · split
        · split
          · exact ⟨h.quiet (by simp) ⟨hgiven rfl, fun hc => by cases hc⟩, Sys.told_single hnot⟩
          · exact hnone ⟨hafter, fun hc => by cases hc⟩
        · exact hnone hafter

theorem told_gapGave {applied : List (ApplyPage π)} {cursor : Int} (hrising : Rising SessionEvent.seq log)
    (hgiven : gapGiven l ++ Turn.given applied = segment SessionEvent.seq log request.after cursor)
    (hepoch : ∀ a ∈ applied, a.eventEpoch = request.eventEpoch) (hcurrent : applied ≠ [] → .cancelled ∉ l) :
    Sys.Told (GapFinds log request) l (applied.map .gave) := by
  intro pre x post hsplit
  obtain ⟨a₁, rest, rfl, hpre, hrest⟩ := List.map_eq_append_iff.1 hsplit
  obtain ⟨a, a₂, rfl, rfl, -⟩ := List.map_eq_cons_iff.1 hrest
  rw [← hpre]
  refine ⟨?_, hepoch a List.mem_append_cons_self, ?_⟩
  · intro hmem
    rcases List.mem_append.1 hmem with hmem | hmem
    · exact hcurrent (List.append_ne_nil_of_right_ne_nil a₁ (List.cons_ne_nil a a₂)) hmem
    · obtain ⟨b, -, hb⟩ := List.mem_map.1 hmem
      cases hb
  · rw [gapGiven_append, gapGiven_gave]
    have hsplit : Turn.given (a₁ ++ a :: a₂) = Turn.given a₁ ++ a.events ++ Turn.given a₂ := by
      rw [Turn.given_append, List.append_assoc]
      rfl
    rw [hsplit, ← List.append_assoc, ← List.append_assoc] at hgiven
    have hprefix := segment_prefix hrising request.after cursor
    rw [← hgiven] at hprefix
    exact (List.prefix_append _ _).trans hprefix

theorem gapGiven_turnEnd (head : Option Int) (next : Next) : gapGiven (turnEnd head next : List (GapObservation π)) = [] := by
  cases next <;> rfl

theorem gapGiven_cancelledBy (before after : Bool) : gapGiven (cancelledBy before after : List (GapObservation π)) = [] := by
  cases before <;> cases after <;> rfl

theorem cancelled_not_turnEnd (head : Option Int) (next : Next) : .cancelled ∉ (turnEnd head next : List (GapObservation π)) := by
  cases next with
  | returned result =>
    intro hmem
    cases List.mem_singleton.1 hmem
  | fetchPage => exact List.not_mem_nil
  | wait ms => exact List.not_mem_nil
  | threw => exact List.not_mem_nil

theorem told_turnEnd {head : Option Int} {next : Next}
    (h : ∀ result, next = .returned result → gapGiven l = segment SessionEvent.seq log request.after result.after ∧
      (result.complete = true → head = some result.after)) : Sys.Told (GapFinds log request) l (turnEnd head next) := by
  cases next with
  | returned result => exact Sys.told_single (h result rfl)
  | fetchPage => exact Sys.told_nil _ _
  | wait ms => exact Sys.told_nil _ _
  | threw => exact Sys.told_nil _ _

variable [DecidableEq π] {options : GapOptions} {budgeted : Bool}

theorem GapSound.fetched (hlog : Rising SessionEvent.seq log) (h : GapSound log request l w) {page : Option (SessionEventsResponse π)}
    {stillCurrent : Bool} (hst : w.step log options request budgeted (.fetched page stillCurrent) = some (w', o)) :
    GapSound log request (l ++ o) w' ∧ Sys.Told (GapFinds log request) l o := by
  unfold Gap.step at hst
  simp only at hst
  split at hst
  · rename_i second after turn hstage
    split at hst
    · rename_i hserves
      have hwalks : Walks log request l after turn .fetchPage := by
        have hsound := h.stage
        rw [hstage] at hsound
        exact hsound
      obtain ⟨hle, ⟨done, hholds, hgiven⟩, -⟩ := hwalks
      have hserved : ∀ p, page = some p → p.Serves log (plainRequest request after) turn.after := by
        rintro p rfl
        exact of_decide_eq_true hserves
      have hran : Turn.Ran log (plainRequest request after) done (Turn.headOf page turn.after)
          (turn.receive (walkOptions options budgeted second) (plainRequest request after) page w.current
            (w.current && stillCurrent)) := hholds.receive hlog (walkOptions options budgeted second) hserved
      generalize hreceive : turn.receive (walkOptions options budgeted second) (plainRequest request after) page w.current
        (w.current && stillCurrent) = r at hst hran
      obtain ⟨turn', applied, next⟩ := r
      have happlied : applied ≠ [] → w.current = true := Turn.current_of_applied hreceive
      simp only at hst
      cases hst
      have hjoin : ∀ {cursor : Int}, after ≤ cursor → done ++ Turn.given applied = segment SessionEvent.seq log after cursor →
          gapGiven l ++ Turn.given applied = segment SessionEvent.seq log request.after cursor := by
        intro cursor hcursor hdone
        rw [hgiven, List.append_assoc, hdone]
        exact segment_append hlog hle hcursor
      have hafter : gapGiven (l ++ (applied.map .gave ++ turnEnd (Turn.headOf page turn.after) next ++
          cancelledBy w.current stillCurrent)) = gapGiven l ++ Turn.given applied := by
        rw [gapGiven_append, gapGiven_append, gapGiven_append, gapGiven_gave, gapGiven_turnEnd, gapGiven_cancelledBy,
          List.append_nil, List.append_nil]
      constructor
      · refine ⟨?_, hle, ⟨done ++ Turn.given applied, hran.holds, by rw [hafter, hgiven, List.append_assoc]⟩, ?_⟩
        · intro hc hmem
          have hboth : w.current = true ∧ stillCurrent = true := Bool.and_eq_true_iff.1 hc
          have hnil : (cancelledBy w.current stillCurrent : List (GapObservation π)) = [] := by
            unfold cancelledBy
            rw [hboth.2]
            exact if_neg (by simp)
          rw [hnil, List.append_nil] at hmem
          rcases List.mem_append.1 hmem with hmem | hmem
          · exact h.current hboth.1 hmem
          · rcases List.mem_append.1 hmem with hmem | hmem
            · obtain ⟨a, -, ha⟩ := List.mem_map.1 hmem
              cases ha
            · exact cancelled_not_turnEnd _ _ hmem
        · intro result hresult
          obtain ⟨hdone, hcursor⟩ := hran.returned result hresult
          have hcursor' : after ≤ result.after := hcursor
          refine ⟨Int.le_trans hle hcursor', by rw [hafter]; exact hjoin hcursor' hdone, fun hc => ?_⟩
          have hhead := hran.completed result hresult hc
          have hresult' : next = .returned result := hresult
          refine List.mem_append_right _ (List.mem_append_left _ (List.mem_append_right _ ?_))
          rw [hresult', hhead]
          exact List.mem_cons_self
      · refine Sys.told_append (Sys.told_append ?_ ?_) ?_
        · have hcursor : after ≤ turn'.appliedAfter := hran.holds.le
          exact told_gapGave hlog (hjoin hcursor hran.holds.done_eq) hran.epoch (fun hne => h.current (happlied hne))
        · refine told_turnEnd (fun result hresult => ?_)
          obtain ⟨hdone, hcursor⟩ := hran.returned result hresult
          refine ⟨?_, hran.completed result hresult⟩
          rw [gapGiven_append, gapGiven_gave]
          exact hjoin hcursor hdone
        · unfold cancelledBy
          split
          · exact Sys.told_single trivial
          · exact Sys.told_nil _ _
    · cases hst
  · cases hst

theorem GapSound.waited (hlog : Rising SessionEvent.seq log) (h : GapSound log request l w)
    (hst : w.step log options request budgeted .waited = some (w', o)) :
    GapSound log request (l ++ o) w' ∧ Sys.Told (GapFinds log request) l o := by
  unfold Gap.step at hst
  simp only at hst
  split at hst
  · rename_i second after turn ms hstage
    cases hst
    have hwalks : Walks log request l after turn (.wait ms) := by
      have hsound := h.stage
      rw [hstage] at hsound
      exact hsound
    obtain ⟨hle, ⟨done, hholds, hgiven⟩, -⟩ := hwalks
    have hincomplete : ∀ result, turn.loop w.current = .returned result → result = turn.incomplete := by
      intro result hresult
      unfold Turn.loop at hresult
      split at hresult
      · cases hresult
      · cases hresult
        rfl
    have hsame : gapGiven (l ++ turnEnd none (turn.loop w.current)) = gapGiven l := by
      rw [gapGiven_append, gapGiven_turnEnd, List.append_nil]
    have hreached : gapGiven l = segment SessionEvent.seq log request.after turn.appliedAfter ∧ request.after ≤ turn.appliedAfter := by
      have hcursor : after ≤ turn.appliedAfter := hholds.le
      have hdone : done = segment SessionEvent.seq log after turn.appliedAfter := hholds.done_eq
      rw [hgiven, hdone]
      exact ⟨segment_append hlog hle hcursor, Int.le_trans hle hcursor⟩
    refine ⟨h.quiet (cancelled_not_turnEnd _ _) ⟨hle, ⟨done, hholds, by rw [hsame]; exact hgiven⟩, ?_⟩, told_turnEnd ?_⟩
    · intro result hresult
      rw [hincomplete result hresult, hsame]
      exact ⟨hreached.2, hreached.1, fun hc => by cases hc⟩
    · intro result hresult
      rw [hincomplete result hresult]
      exact ⟨hreached.1, fun hc => by cases hc⟩
  · cases hst

theorem GapSound.settled (h : GapSound log request l w)
    (hst : w.step log options request budgeted (.settled canReplaceWithWindow) = some (w', o)) :
    GapSound log request (l ++ o) w' ∧ Sys.Told (GapFinds log request) l o := by
  unfold Gap.step at hst
  simp only at hst
  split at hst
  · rename_i second after turn result hstage
    have hwalks : Walks log request l after turn (.returned result) := by
      have hsound := h.stage
      rw [hstage] at hsound
      exact hsound
    obtain ⟨hle, hsegment, hended⟩ := hwalks.returned result rfl
    split at hst
    · rename_i hcomplete
      cases hst
      exact Gap.run_finish h (fun _ => .inl ⟨result, hcomplete, hended hcomplete, hsegment⟩)
    · split at hst
      · cases hst
        exact Gap.run_finish h (fun hc => by cases hc)
      · split at hst
        · cases hst
          rw [List.append_nil]
          exact ⟨Gap.run_windowLoop h 0 hle hsegment, Sys.told_nil _ _⟩
        · cases hst
          exact Gap.run_resume h hle hsegment
  · cases hst
    rw [List.append_nil]
    exact ⟨⟨h.current, trivial⟩, Sys.told_nil _ _⟩
  · cases hst

/-- **Every step of a gap's recovery** keeps the invariant, and its observations find what they should. -/
theorem GapSound.step (hlog : Rising SessionEvent.seq log) (h : GapSound log request l w) {e : GapEvent π}
    (hst : w.step log options request budgeted e = some (w', o)) :
    GapSound log request (l ++ o) w' ∧ Sys.Told (GapFinds log request) l o := by
  cases e with
  | cancel =>
    cases hst
    refine ⟨⟨?_, h.stage.keep rfl⟩, Sys.told_single trivial⟩
    intro hc
    cases hc
  | fetched page stillCurrent => exact h.fetched hlog hst
  | waited => exact h.waited hlog hst
  | settled canReplaceWithWindow => exact h.settled hst
  | tail page canReplaceWithWindow cacheCannotFill deferWindow =>
    unfold Gap.step at hst
    simp only at hst
    split at hst
    · rename_i idlePolls after hstage
      have hafter : request.after ≤ after ∧ gapGiven l = segment SessionEvent.seq log request.after after := by
        have hsound := h.stage
        rw [hstage] at hsound
        exact hsound
      split at hst
      · cases hst
        rw [List.append_nil]
        exact ⟨⟨h.current, trivial⟩, Sys.told_nil _ _⟩
      · split at hst
        · cases hst
          rw [List.append_nil]
          exact ⟨⟨h.current, hafter, fun hc => by cases hc⟩, Sys.told_nil _ _⟩
        · rename_i page hcurrent
          rw [Bool.not_eq_true, Bool.not_eq_false'] at hcurrent
          rw [Option.some.injEq] at hst
          have htail : GapSound log request (l ++ (w', o).2) (w', o).1 ∧ Sys.Told (GapFinds log request) l (w', o).2 := by
            rw [← hst]
            exact Gap.run_tail h hcurrent hafter
          exact htail
    · cases hst
  | tailWaited =>
    unfold Gap.step at hst
    simp only at hst
    split at hst
    · rename_i idlePolls after hstage
      have hafter : request.after ≤ after ∧ gapGiven l = segment SessionEvent.seq log request.after after := by
        have hsound := h.stage
        rw [hstage] at hsound
        exact hsound
      cases hst
      rw [List.append_nil]
      exact ⟨Gap.run_windowLoop h idlePolls hafter.1 hafter.2, Sys.told_nil _ _⟩
    · cases hst
  | tailSettled =>
    unfold Gap.step at hst
    simp only at hst
    split at hst
    · rename_i supported complete readerPaused deferred after hstage
      obtain ⟨hafter, hwindowed⟩ : (request.after ≤ after ∧ gapGiven l = segment SessionEvent.seq log request.after after) ∧
          (complete = true → (readerPaused = true → deferred = true) → Windowed l) := by
        have hsound := h.stage
        rw [hstage] at hsound
        exact hsound
      split at hst
      · cases hst
        refine Gap.run_finish h (fun hc => .inr (hwindowed ?_ ?_))
        · exact (Bool.and_eq_true_iff.1 hc).1
        · intro hpaused
          have hdeferred := (Bool.and_eq_true_iff.1 hc).2
          rw [hpaused] at hdeferred
          exact hdeferred
      · split at hst
        · cases hst
          exact Gap.run_finish h (fun hc => by cases hc)
        · cases hst
          exact Gap.run_resume h hafter.1 hafter.2
    · cases hst

/-- **In every run** of a gap's recovery each observation finds in the history what it should. -/
theorem gapFinds_of_run (hlog : Rising SessionEvent.seq log) {isCurrent : Bool}
    (h : Sys.Run (Gap.step log options request budgeted) (Gap.start request isCurrent) l w) :
    GapSound log request l w ∧ Sys.Told (GapFinds log request) [] l := by
  refine h.told (GapFinds log request) (GapSound log request) (gapSound_start isCurrent) ?_
  intro l w e w' o hsound _ hst
  exact hsound.step hlog hst

end

end Wollipog.Recovery
