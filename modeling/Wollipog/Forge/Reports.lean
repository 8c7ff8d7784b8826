import Wollipog.Forge.Observations
import Wollipog.Reviews.Contract
/-!
# Reports — whose value a row keeps, and which changes are reported

`record` compares stored columns, and a fact also depends on its age: a value that has gone stale and is read again
unchanged becomes fresh without a report.
-/
namespace Wollipog.Forge

open Json (Text Value Number)

variable {toDouble : Number → Number}

inductive Answer (toDouble : Number → Number)
  | observed (observation : Observation toDouble)
  | failed (reason : CampaignForgeObservationFailure)

def ForgeReadResult.answer (result : ForgeReadResult toDouble) : Option (Answer toDouble) :=
  match result.observation with
  | some observation => some (.observed observation)
  | none => result.failure.map .failed

def Answer.row (runnerId : RunnerId) (at_ : ℤ) (before : Option ObservationRow) : Answer toDouble → ObservationRow
  | .observed observation => observedRow runnerId observation.json at_
  | .failed reason => failedRow before runnerId reason at_

def Answer.news (runnerId : RunnerId) (before : Option ObservationRow) (answer : Answer toDouble) : Bool :=
  match before with
  | none => true
  | some row =>
    match answer with
    | .observed observation =>
      decide (row.value_json ≠ some observation.json) || row.failure_reason.isSome || decide (row.runner_id ≠ runnerId)
    | .failed reason => decide (row.failure_reason ≠ some reason) || decide (row.runner_id ≠ runnerId)

theorem recordResult_eq (campaignId : String) (runnerId : RunnerId) (at_ : ℤ) (acc : Store × Bool)
    (result : ForgeReadResult toDouble) :
    recordResult campaignId runnerId at_ acc result =
      match result.answer with
      | none => acc
      | some answer =>
        (acc.1.set (rowKey campaignId result.ref) (answer.row runnerId at_ (acc.1.get (rowKey campaignId result.ref))),
          acc.2 || answer.news runnerId (acc.1.get (rowKey campaignId result.ref))) := by
  unfold recordResult ForgeReadResult.answer
  cases result.observation with
  | some observation => rfl
  | none =>
    cases result.failure with
    | none => rfl
    | some reason =>
      simp only [if_pos (mem_failures reason)]
      rfl

def answersTo (campaignId : String) (key : RowKey) (results : List (ForgeReadResult toDouble)) : List (Answer toDouble) :=
  results.filterMap (fun result => if rowKey campaignId result.ref = key then result.answer else none)

def rowAfter (runnerId : RunnerId) (at_ : ℤ) (before : Option ObservationRow) (answers : List (Answer toDouble)) :
    Option ObservationRow :=
  answers.foldl (fun row answer => some (answer.row runnerId at_ row)) before

def newsAlong (runnerId : RunnerId) (at_ : ℤ) : Option ObservationRow → List (Answer toDouble) → Bool
  | _, [] => false
  | before, answer :: answers =>
    answer.news runnerId before || newsAlong runnerId at_ (some (answer.row runnerId at_ before)) answers

theorem answersTo_cons (campaignId : String) (key : RowKey) (result : ForgeReadResult toDouble)
    (results : List (ForgeReadResult toDouble)) :
    answersTo campaignId key (result :: results) =
      (if rowKey campaignId result.ref = key then result.answer.toList else []) ++ answersTo campaignId key results := by
  unfold answersTo
  rw [List.filterMap_cons]
  by_cases h : rowKey campaignId result.ref = key
  · rw [if_pos h, if_pos h]
    cases result.answer <;> rfl
  · rw [if_neg h, if_neg h]
    rfl

/-- **Each row takes the answers about it, and no other.** -/
theorem recordResults_get (campaignId : String) (runnerId : RunnerId) (at_ : ℤ) (key : RowKey) :
    ∀ (results : List (ForgeReadResult toDouble)) (acc : Store × Bool),
      ((results.foldl (recordResult campaignId runnerId at_) acc).1).get key =
        rowAfter runnerId at_ (acc.1.get key) (answersTo campaignId key results)
  | [], _ => rfl
  | result :: results, acc => by
    rw [List.foldl_cons, recordResults_get campaignId runnerId at_ key results, answersTo_cons, recordResult_eq]
    cases hanswer : result.answer with
    | none =>
      rw [Option.toList_none, ite_self, List.nil_append]
    | some answer =>
      simp only
      by_cases h : rowKey campaignId result.ref = key
      · rw [h, if_pos rfl, OrdMap.get_set_self]
        rfl
      · rw [if_neg h, OrdMap.get_set_ne _ _ (Ne.symm h), List.nil_append]

/-- **The flag is set by the first row that something new is said about.** -/
theorem recordResults_changed (campaignId : String) (runnerId : RunnerId) (at_ : ℤ) :
    ∀ (results : List (ForgeReadResult toDouble)) (acc : Store × Bool),
      (results.foldl (recordResult campaignId runnerId at_) acc).2 = true ↔
        acc.2 = true ∨ ∃ key, newsAlong runnerId at_ (acc.1.get key) (answersTo campaignId key results) = true
  | [], acc => by
    constructor
    · exact Or.inl
    · rintro (h | ⟨key, h⟩)
      · exact h
      · cases h
  | result :: results, acc => by
    rw [List.foldl_cons, recordResults_changed campaignId runnerId at_ results, recordResult_eq]
    cases hanswer : result.answer with
    | none =>
      simp only [answersTo_cons, hanswer, Option.toList_none, ite_self, List.nil_append]
    | some answer =>
      have hown : answersTo campaignId (rowKey campaignId result.ref) (result :: results) =
          answer :: answersTo campaignId (rowKey campaignId result.ref) results := by
        rw [answersTo_cons, if_pos rfl, hanswer]
        rfl
      have hother : ∀ key, rowKey campaignId result.ref ≠ key →
          answersTo campaignId key (result :: results) = answersTo campaignId key results := by
        intro key hne
        rw [answersTo_cons, if_neg hne, List.nil_append]
      simp only [Bool.or_eq_true]
      constructor
      · rintro ((h | h) | ⟨key, h⟩)
        · exact Or.inl h
        · refine Or.inr ⟨rowKey campaignId result.ref, ?_⟩
          rw [hown, newsAlong, h, Bool.true_or]
        · refine Or.inr ⟨key, ?_⟩
          by_cases hkey : rowKey campaignId result.ref = key
          · subst hkey
            rw [OrdMap.get_set_self] at h
            rw [hown, newsAlong, h, Bool.or_true]
          · rw [OrdMap.get_set_ne _ _ (Ne.symm hkey)] at h
            rwa [hother key hkey]
      · rintro (h | ⟨key, h⟩)
        · exact Or.inl (Or.inl h)
        · by_cases hkey : rowKey campaignId result.ref = key
          · subst hkey
            rw [hown, newsAlong, Bool.or_eq_true] at h
            rcases h with h | h
            · exact Or.inl (Or.inr h)
            · refine Or.inr ⟨rowKey campaignId result.ref, ?_⟩
              rwa [OrdMap.get_set_self]
          · rw [hother key hkey] at h
            refine Or.inr ⟨key, ?_⟩
            rwa [OrdMap.get_set_ne _ _ (Ne.symm hkey)]

def columns (row : ObservationRow) : RunnerId × Option Text × Option CampaignForgeObservationFailure :=
  (row.runner_id, row.value_json, row.failure_reason)

variable {at_ : ℤ} {s : Store} {key : RowKey} {campaignId : String} {runnerId : RunnerId}

theorem news_congr {a b : ObservationRow} (h : columns a = columns b) (answer : Answer toDouble) :
    answer.news runnerId (some a) = answer.news runnerId (some b) := by
  simp only [columns, Prod.mk.injEq] at h
  obtain ⟨hrunner, hjson, hreason⟩ := h
  simp only [Answer.news, hrunner, hjson, hreason]

theorem columns_row {row : ObservationRow} {answer : Answer toDouble}
    (h : answer.news runnerId (some row) = false) : columns (answer.row runnerId at_ (some row)) = columns row := by
  cases answer with
  | observed observation =>
    simp only [Answer.news, Bool.or_eq_false_iff, decide_eq_false_iff_not, not_not, Option.isSome_eq_false_iff,
      Option.isNone_iff_eq_none] at h
    obtain ⟨⟨hjson, hreason⟩, hrunner⟩ := h
    unfold columns Answer.row observedRow
    rw [hjson, hreason, hrunner]
  | failed reason =>
    simp only [Answer.news, Bool.or_eq_false_iff, decide_eq_false_iff_not, not_not] at h
    obtain ⟨hreason, hrunner⟩ := h
    unfold columns Answer.row failedRow
    simp only [Option.bind_some, hreason, hrunner, if_true]

/-- **Something new is said along the way exactly where some answer is new against the stored row.** -/
theorem newsAlong_iff (runnerId : RunnerId) (at_ : ℤ) : ∀ (answers : List (Answer toDouble)) (before : Option ObservationRow),
    newsAlong runnerId at_ before answers = true ↔ ∃ answer ∈ answers, answer.news runnerId before = true
  | [], before => by
    constructor
    · intro h
      cases h
    · rintro ⟨answer, h, -⟩
      cases h
  | answer :: answers, before => by
    rw [newsAlong, Bool.or_eq_true, newsAlong_iff runnerId at_ answers]
    simp only [List.mem_cons, exists_eq_or_imp]
    by_cases hnews : answer.news runnerId before = true
    · exact iff_of_true (Or.inl hnews) (Or.inl hnews)
    · rw [Bool.not_eq_true] at hnews
      cases before with
      | none => cases hnews
      | some row => simp only [news_congr (columns_row hnews)]

inductive Availability
  | fresh | stale | unavailable
deriving DecidableEq

structure Sight where
  value : Option Value
  availability : Availability
  reason : Option CampaignObservationUnavailableReason
  supplier : Option RunnerId

def ForgeFact.value : ForgeFact → Option Value
  | .fresh v _ => some v
  | .stale v _ => some v
  | .unavailable _ last => last.map Prod.fst

def ForgeFact.availability : ForgeFact → Availability
  | .fresh _ _ => .fresh
  | .stale _ _ => .stale
  | .unavailable _ _ => .unavailable

def ForgeFact.reason : ForgeFact → Option CampaignObservationUnavailableReason
  | .unavailable reason _ => some reason
  | _ => none

variable (toDouble) in
def sightOf (row : Option ObservationRow) (observer : ForgeObserverState) (now : ℤ) : Option Sight :=
  (forgeFact toDouble row observer now).map (fun f =>
    ⟨f.value, f.availability, f.reason, row.map ObservationRow.runner_id⟩)

variable (toDouble) in
/-- What rows are: a value is an observation with its time, and a row without a value tells a failure. -/
structure Kept (row : ObservationRow) : Prop where
  read : ∀ text, row.value_json = some text →
    (∃ observation : Observation toDouble, observation.json = text) ∧ ∃ observedAt, row.observed_at = some observedAt
  told : row.value_json = none → row.failure_reason.isSome = true

theorem Kept.row {runnerId : RunnerId} {at_ : ℤ} {before : Option ObservationRow}
    (h : ∀ row, before = some row → Kept toDouble row) (answer : Answer toDouble) :
    Kept toDouble (answer.row runnerId at_ before) := by
  cases answer with
  | observed observation =>
    refine ⟨fun text htext => ⟨⟨observation, ?_⟩, at_, rfl⟩, fun hnone => by cases hnone⟩
    exact Option.some.inj htext
  | failed reason =>
    refine ⟨fun text htext => ?_, fun _ => rfl⟩
    cases before with
    | none => cases htext
    | some row =>
      simp only [Answer.row, failedRow, Option.bind_some] at htext ⊢
      split at htext
      · rename_i hrunner
        rw [if_pos hrunner]
        exact (h row rfl).read text htext
      · cases htext

theorem Kept.rowAfter {runnerId : RunnerId} {at_ : ℤ} : ∀ (answers : List (Answer toDouble)) {before : Option ObservationRow},
    (∀ row, before = some row → Kept toDouble row) →
      ∀ row, rowAfter runnerId at_ before answers = some row → Kept toDouble row
  | [], _, h => h
  | answer :: answers, before, h =>
    Kept.rowAfter answers (fun row hrow => by
      cases hrow
      exact Kept.row h answer)

theorem parse_json (observation : Observation toDouble) :
    Json.parse toDouble observation.json = some (Json.arranged id (.object observation.members)) :=
  Json.parse_stringify toDouble observation.wf

theorem storedValue_json {row : ObservationRow} {observation : Observation toDouble}
    (h : row.value_json = some observation.json) :
    storedValue toDouble (some row) = some (some (Json.arranged id (.object observation.members))) := by
  have hparse := parse_json observation
  have hhead : ∃ text, observation.json = 123 :: text := ⟨_, rfl⟩
  obtain ⟨text, htext⟩ := hhead
  rw [htext] at h hparse
  unfold storedValue
  simp only [Option.bind_some, h, hparse, Option.map_some]

def availability (row : ObservationRow) (now : ℤ) : Availability :=
  if row.failure_reason.isSome then .unavailable
  else if now - row.observed_at.getD 0 > staleAfterMs then .stale else .fresh

/-- **What a reader sees of a row**, whoever would read next. -/
theorem sightOf_kept {row : ObservationRow} (h : Kept toDouble row) (observer : ForgeObserverState) (now : ℤ) :
    sightOf toDouble (some row) observer now = some {
      value := row.value_json.bind (Json.parse toDouble)
      availability := availability row now
      reason := row.failure_reason.map .failure
      supplier := some row.runner_id } := by
  unfold sightOf forgeFact
  cases hjson : row.value_json with
  | none =>
    obtain ⟨reason, hreason⟩ := Option.isSome_iff_exists.1 (h.told hjson)
    have hvalue : storedValue toDouble (some row) = some none := by
      unfold storedValue
      rw [Option.bind_some, hjson]
    simp only [hvalue, Option.map_some, Option.bind_some, Option.bind_none, hreason, availability, Option.isSome_some,
      if_true]
    rfl
  | some text =>
    obtain ⟨⟨observation, rfl⟩, observedAt, hat⟩ := h.read text hjson
    simp only [storedValue_json hjson, Option.map_some, Option.bind_some, hat, availability, Option.getD_some,
      parse_json]
    cases hreason : row.failure_reason with
    | some reason => rfl
    | none =>
      by_cases hstale : now - observedAt > staleAfterMs
      · simp only [if_pos hstale]
        rfl
      · simp only [if_neg hstale]
        rfl

/-! ## Which calls change what is seen -/

def Answer.observation : Answer toDouble → Option (Observation toDouble)
  | .observed observation => some observation
  | .failed _ => none

def lastObserved (answers : List (Answer toDouble)) : Option (Observation toDouble) :=
  (answers.filterMap Answer.observation).getLast?

/-- The value is the stored one, read by the runner that read it before, and it has gone stale. -/
def rereads (runnerId : RunnerId) (at_ : ℤ) (before : Option ObservationRow) (observation : Observation toDouble) : Prop :=
  (Answer.observed observation).news runnerId before = false ∧
    ∃ row, before = some row ∧ at_ - row.observed_at.getD 0 > staleAfterMs

def Tells (runnerId : RunnerId) (at_ : ℤ) (before : Option ObservationRow) (answers : List (Answer toDouble)) : Prop :=
  match answers.getLast? with
  | none => False
  | some (.observed observation) =>
    (Answer.observed observation).news runnerId before = true ∨ rereads runnerId at_ before observation
  | some (.failed reason) =>
    (Answer.failed reason : Answer toDouble).news runnerId before = true ∨
      ∃ observation, lastObserved answers = some observation ∧
        before.bind ObservationRow.value_json ≠ some observation.json

theorem row_runner (runnerId : RunnerId) (at_ : ℤ) (before : Option ObservationRow) (answer : Answer toDouble) :
    (answer.row runnerId at_ before).runner_id = runnerId := by
  cases answer <;> rfl

theorem lastObserved_cons (answer : Answer toDouble) (answers : List (Answer toDouble)) :
    lastObserved (answer :: answers) = (lastObserved answers).or answer.observation := by
  unfold lastObserved
  rw [List.filterMap_cons]
  cases answer.observation with
  | none => rw [Option.or_none]
  | some observation =>
    rw [List.getLast?_cons]
    cases (answers.filterMap Answer.observation).getLast? <;> rfl

theorem rowAfter_own (runnerId : RunnerId) (at_ : ℤ) : ∀ (answers : List (Answer toDouble)) (row : ObservationRow),
    row.runner_id = runnerId → ∃ row', rowAfter runnerId at_ (some row) answers = some row' ∧ row'.runner_id = runnerId ∧
      row'.value_json = ((lastObserved answers).map Observation.json).or row.value_json
  | [], row, h => ⟨row, rfl, h, rfl⟩
  | answer :: answers, row, h => by
    obtain ⟨row', hrow', hrunner, hvalue⟩ := rowAfter_own runnerId at_ answers (answer.row runnerId at_ (some row))
      (row_runner runnerId at_ (some row) answer)
    refine ⟨row', hrow', hrunner, ?_⟩
    rw [hvalue, lastObserved_cons]
    cases lastObserved answers with
    | some observation => rfl
    | none =>
      cases answer with
      | observed observation => rfl
      | failed reason =>
        simp only [Answer.row, failedRow, Option.bind_some, if_pos h]
        rfl

theorem rowAfter_concat (runnerId : RunnerId) (at_ : ℤ) (before : Option ObservationRow) (answers : List (Answer toDouble))
    (answer : Answer toDouble) :
    rowAfter runnerId at_ before (answers ++ [answer]) =
      some (answer.row runnerId at_ (rowAfter runnerId at_ before answers)) := by
  unfold rowAfter
  rw [List.foldl_append]
  rfl

theorem json_eq_of_value {a b : Observation toDouble}
    (h : Json.parse toDouble a.json = Json.parse toDouble b.json) : a.json = b.json :=
  (Json.parse_stringify_eq_iff toDouble a.wf b.wf).1 h

theorem lastObserved_failed (answers : List (Answer toDouble)) (reason : CampaignForgeObservationFailure) :
    lastObserved (answers ++ [.failed reason]) = lastObserved answers := by
  unfold lastObserved
  rw [List.filterMap_append]
  exact congrArg List.getLast? (List.append_nil _)

theorem Kept.value_eq_iff {row : ObservationRow} (h : Kept toDouble row) (observation : Observation toDouble) :
    row.value_json.bind (Json.parse toDouble) = Json.parse toDouble observation.json ↔
      row.value_json = some observation.json := by
  cases hjson : row.value_json with
  | none =>
    rw [parse_json]
    exact iff_of_false (fun heq => by cases heq) (fun heq => by cases heq)
  | some text =>
    obtain ⟨⟨stored, rfl⟩, -⟩ := h.read text hjson
    rw [Option.bind_some, Option.some.injEq]
    exact ⟨json_eq_of_value, fun heq => congrArg _ heq⟩

theorem sight_observed {row : ObservationRow} (h : Kept toDouble row) (observation : Observation toDouble)
    (observer : ForgeObserverState) (at_ : ℤ) :
    sightOf toDouble (some (observedRow row.runner_id observation.json at_)) observer at_ ≠
        sightOf toDouble (some row) observer at_ ↔
      (Answer.observed observation).news row.runner_id (some row) = true ∨
        rereads row.runner_id at_ (some row) observation := by
  have hkept : Kept toDouble (observedRow row.runner_id observation.json at_) :=
    @Kept.row toDouble row.runner_id at_ none (fun _ hrow => by cases hrow) (.observed observation)
  rw [sightOf_kept h, sightOf_kept hkept]
  cases hreason : row.failure_reason with
  | some reason =>
    refine iff_of_true (fun heq => ?_) (Or.inl ?_)
    · have hseen := congrArg Sight.reason (Option.some.inj heq)
      cases hseen
    · simp [Answer.news, hreason]
  | none =>
    obtain ⟨text, hjson⟩ := Option.ne_none_iff_exists'.1 (fun hnone => by
      have htold := h.told hnone
      rw [hreason] at htold
      cases htold)
    obtain ⟨⟨stored, rfl⟩, observedAt, hat⟩ := h.read text hjson
    have hnews : (Answer.observed observation).news row.runner_id (some row) = true ↔ stored.json ≠ observation.json := by
      simp [Answer.news, hjson, hreason]
    have hfresh : availability (observedRow row.runner_id observation.json at_) at_ = .fresh := by
      simp [availability, observedRow, staleAfterMs]
    by_cases hsame : stored.json = observation.json
    · have hage : (availability row at_ = .fresh) ↔ ¬ at_ - observedAt > staleAfterMs := by
        unfold availability
        rw [hreason, hat]
        by_cases hstale : at_ - observedAt > staleAfterMs <;> simp [hstale]
      have hold : rereads row.runner_id at_ (some row) observation ↔ at_ - observedAt > staleAfterMs := by
        have hquiet : (Answer.observed observation).news row.runner_id (some row) = false := by
          rw [← Bool.not_eq_true, hnews, not_not]
          exact hsame
        unfold rereads
        rw [hquiet]
        simp [hat]
      rw [hnews, hold]
      constructor
      · intro hne
        by_contra hquiet
        have hstill := hage.2 (fun hstale => hquiet (Or.inr hstale))
        apply hne
        rw [hfresh, hstill, hjson, hsame]
        rfl
      · rintro (hno | hstale) heq
        · exact hno hsame
        · have hseen := congrArg Sight.availability (Option.some.inj heq)
          rw [hfresh] at hseen
          exact hage.1 hseen.symm hstale
    · refine iff_of_true (fun heq => hsame ?_) (Or.inl (hnews.2 hsame))
      have hseen := congrArg Sight.value (Option.some.inj heq)
      simp only [hjson, observedRow, Option.bind_some] at hseen
      exact (json_eq_of_value hseen).symm

theorem sight_failed {row seen : ObservationRow} (h : Kept toDouble row) (hseen : Kept toDouble seen)
    (hrunner : seen.runner_id = row.runner_id) (reason : CampaignForgeObservationFailure) (observer : ForgeObserverState)
    (at_ : ℤ) :
    sightOf toDouble (some (failedRow (some seen) row.runner_id reason at_)) observer at_ ≠
        sightOf toDouble (some row) observer at_ ↔
      (Answer.failed reason : Answer toDouble).news row.runner_id (some row) = true ∨
        row.value_json.bind (Json.parse toDouble) ≠ seen.value_json.bind (Json.parse toDouble) := by
  have hkept : Kept toDouble (failedRow (some seen) row.runner_id reason at_) :=
    @Kept.row toDouble row.runner_id at_ (some seen) (fun _ hrow => by cases hrow; exact hseen) (.failed reason)
  rw [sightOf_kept h, sightOf_kept hkept]
  by_cases hreason : row.failure_reason = some reason
  · have hquiet : (Answer.failed reason : Answer toDouble).news row.runner_id (some row) = false := by
      simp [Answer.news, hreason]
    rw [hquiet, Ne, Option.some.injEq, Sight.mk.injEq]
    simp [failedRow, hrunner, hreason, availability, eq_comm]
  · refine iff_of_true (fun heq => hreason ?_) (Or.inl (by simp [Answer.news, hreason]))
    have hwhy := congrArg Sight.reason (Option.some.inj heq)
    simp only [failedRow, Option.map_some] at hwhy
    cases hstored : row.failure_reason with
    | none =>
      rw [hstored] at hwhy
      cases hwhy
    | some stored =>
      rw [hstored] at hwhy
      cases hwhy
      rfl

/-- **What a reader sees of a row changes exactly where the call tells something about it.** -/
theorem sightOf_changes_iff {before : Option ObservationRow}
    (h : ∀ row, before = some row → Kept toDouble row) (observer : ForgeObserverState) (answers : List (Answer toDouble)) :
    sightOf toDouble (rowAfter runnerId at_ before answers) observer at_ ≠ sightOf toDouble before observer at_ ↔
      Tells runnerId at_ before answers := by
  cases hlast : answers.getLast? with
  | none =>
    rw [List.getLast?_eq_none_iff] at hlast
    subst hlast
    exact iff_of_false (fun hne => hne rfl) id
  | some answer =>
    obtain ⟨earlier, rfl⟩ := List.getLast?_eq_some_iff.1 hlast
    have hafter := rowAfter_concat runnerId at_ before earlier answer
    have hkept := @Kept.rowAfter toDouble runnerId at_ (earlier ++ [answer]) before h _ hafter
    rw [hafter, sightOf_kept hkept]
    cases before with
    | none =>
      refine iff_of_true (fun heq => ?_) ?_
      · unfold sightOf at heq
        obtain ⟨f, -, hf⟩ := Option.map_eq_some_iff.1 heq.symm
        have hsupplier := congrArg Sight.supplier hf
        cases hsupplier
      · unfold Tells
        rw [hlast]
        cases answer <;> exact Or.inl rfl
    | some row =>
      have hrow := h row rfl
      unfold Tells
      rw [hlast]
      by_cases hrunner : row.runner_id = runnerId
      · subst hrunner
        obtain ⟨seen, hseen, hown, hvalue⟩ := rowAfter_own row.runner_id at_ earlier row rfl
        rw [← sightOf_kept hkept]
        cases answer with
        | observed observation => exact sight_observed hrow observation observer at_
        | failed reason =>
          rw [hseen]
          refine (sight_failed hrow (Kept.rowAfter earlier h seen hseen) hown reason observer at_).trans ?_
          refine or_congr_right ?_
          rw [hvalue, lastObserved_failed]
          cases lastObserved earlier with
          | none => simp
          | some observation =>
            simp only [Option.map_some, Option.some_or, Option.some.injEq, exists_eq_left', Option.bind_some]
            exact (hrow.value_eq_iff observation).not
      · rw [sightOf_kept hrow]
        refine iff_of_true (fun heq => hrunner ?_) ?_
        · have hsupplier := congrArg Sight.supplier (Option.some.inj heq)
          rw [row_runner] at hsupplier
          exact (Option.some.inj hsupplier).symm
        · cases answer <;> simp [Answer.news, hrunner]

def Call.Read (call : Call toDouble) (key : RowKey) (text : Text) (observedAt : ℤ) : Prop :=
  call.at_ = observedAt ∧ ∃ result ∈ call.results, rowKey call.campaignId result.ref = key ∧
    ∃ observation, result.observation = some observation ∧ observation.json = text

def Vouched (calls : List (Call toDouble)) (key : RowKey) (row : ObservationRow) : Prop :=
  ∀ text, row.value_json = some text → ∃ call ∈ calls, ∃ observedAt,
    row.observed_at = some observedAt ∧ call.runnerId = row.runner_id ∧ call.Read key text observedAt

theorem mem_answersTo {results : List (ForgeReadResult toDouble)}
    {answer : Answer toDouble} : answer ∈ answersTo campaignId key results ↔
      ∃ result ∈ results, rowKey campaignId result.ref = key ∧ result.answer = some answer := by
  unfold answersTo
  rw [List.mem_filterMap]
  refine exists_congr (fun result => and_congr_right (fun _ => ?_))
  by_cases h : rowKey campaignId result.ref = key
  · rw [if_pos h]
    exact ⟨fun ha => ⟨h, ha⟩, And.right⟩
  · rw [if_neg h]
    exact iff_of_false (fun ha => by cases ha) (fun ha => h ha.1)

theorem answer_observed {result : ForgeReadResult toDouble} {observation : Observation toDouble}
    (h : result.answer = some (.observed observation)) : result.observation = some observation := by
  unfold ForgeReadResult.answer at h
  cases hobservation : result.observation with
  | some o =>
    rw [hobservation] at h
    cases h
    rfl
  | none =>
    rw [hobservation] at h
    obtain ⟨reason, -, hreason⟩ := Option.map_eq_some_iff.1 h
    cases hreason

variable {calls : List (Call toDouble)}

theorem Vouched.rowAfter {call : Call toDouble} {key : RowKey} :
    ∀ (answers : List (Answer toDouble)) {before : Option ObservationRow},
      (∀ answer ∈ answers, answer ∈ answersTo call.campaignId key call.results) →
      (∀ row, before = some row → Vouched (calls ++ [call]) key row) →
        ∀ row, rowAfter call.runnerId call.at_ before answers = some row → Vouched (calls ++ [call]) key row
  | [], _, _, h => h
  | answer :: answers, before, hmem, h => by
    refine Vouched.rowAfter answers (fun other hother => hmem other (List.mem_cons_of_mem _ hother)) (fun row hrow => ?_)
    cases hrow
    intro text htext
    cases answer with
    | observed observation =>
      obtain ⟨result, hresult, hkey, hanswer⟩ := mem_answersTo.1 (hmem _ List.mem_cons_self)
      exact ⟨call, by simp, call.at_, rfl, rfl, rfl, result, hresult, hkey, observation, answer_observed hanswer,
        Option.some.inj htext⟩
    | failed reason =>
      cases before with
      | none => cases htext
      | some row =>
        simp only [Answer.row, failedRow, Option.bind_some] at htext ⊢
        split at htext
        · rename_i hrunner
          rw [if_pos hrunner, ← hrunner]
          exact h row rfl text htext
        · cases htext

theorem Vouched.later {row : ObservationRow} (h : Vouched calls key row)
    (call : Call toDouble) : Vouched (calls ++ [call]) key row := by
  intro text htext
  obtain ⟨earlier, hearlier, hread⟩ := h text htext
  exact ⟨earlier, List.mem_append_left _ hearlier, hread⟩

structure Stored (calls : List (Call toDouble)) (s : Store) : Prop where
  kept : ∀ key row, s.get key = some row → Kept toDouble row
  vouched : ∀ key row, s.get key = some row → Vouched calls key row

theorem record_get (s : Store) (call : Call toDouble) (key : RowKey) : ((record s call).1).get key =
      rowAfter call.runnerId call.at_ (s.get key) (answersTo call.campaignId key call.results) :=
  recordResults_get call.campaignId call.runnerId call.at_ key call.results (s, false)

theorem Stored.record {s : Store} (h : Stored calls s) (call : Call toDouble) : Stored (calls ++ [call]) (record s call).1 where
  kept key row hrow := by
    rw [record_get] at hrow
    exact Kept.rowAfter _ (fun before hbefore => h.kept key before hbefore) row hrow
  vouched key row hrow := by
    rw [record_get] at hrow
    exact Vouched.rowAfter _ (fun _ hanswer => hanswer)
      (fun before hbefore => (h.vouched key before hbefore).later call) row hrow

/-- **Every row after any calls by any runners is kept well and vouched for.** -/
theorem stored_after (calls : List (Call toDouble)) : Stored calls (after calls) := by
  induction calls using List.reverseRecOn with
  | nil => constructor <;> exact fun _ _ h => by cases h
  | append_singleton calls call ih =>
    unfold after
    rw [List.foldl_append]
    exact ih.record call

/-! ## What `record` reports -/

variable (toDouble) in
def sight (s : Store) (observerState : String → String → ForgeObserverState) (campaignId : String)
    (ref : CampaignPullRequestRef) (now : ℤ) : Option Sight :=
  (fact toDouble s observerState campaignId ref now).map (fun f =>
    ⟨f.value, f.availability, f.reason, supplier s campaignId ref⟩)

/-- The call's report is right: it says whether some pull request is seen otherwise at the time of recording. -/
def Reports (s : Store) (observerState : String → String → ForgeObserverState) (call : Call toDouble) : Prop :=
  (record s call).2 = true ↔ ∃ ref, sight toDouble (record s call).1 observerState call.campaignId ref call.at_ ≠
    sight toDouble s observerState call.campaignId ref call.at_

def Call.answers (call : Call toDouble) (ref : CampaignPullRequestRef) : List (Answer toDouble) :=
  answersTo call.campaignId (rowKey call.campaignId ref) call.results

def Call.News (s : Store) (call : Call toDouble) : Prop :=
  ∃ ref, ∃ answer ∈ call.answers ref, answer.news call.runnerId (s.get (rowKey call.campaignId ref)) = true

def Call.Tells (s : Store) (call : Call toDouble) : Prop :=
  ∃ ref, Forge.Tells call.runnerId call.at_ (s.get (rowKey call.campaignId ref)) (call.answers ref)

def Call.Rereads (s : Store) (call : Call toDouble) : Prop :=
  ∃ ref, ∃ observation, Answer.observed observation ∈ call.answers ref ∧
    rereads call.runnerId call.at_ (s.get (rowKey call.campaignId ref)) observation

theorem record_changed_iff (s : Store) (call : Call toDouble) : (record s call).2 = true ↔ call.News s := by
  unfold record
  rw [recordResults_changed]
  simp only [Bool.false_eq_true, false_or, newsAlong_iff]
  constructor
  · rintro ⟨key, answer, hanswer, hnews⟩
    obtain ⟨result, -, rfl, -⟩ := mem_answersTo.1 hanswer
    exact ⟨result.ref, answer, hanswer, hnews⟩
  · rintro ⟨ref, answer, hanswer, hnews⟩
    exact ⟨rowKey call.campaignId ref, answer, hanswer, hnews⟩

theorem sight_eq (s : Store) (observerState : String → String → ForgeObserverState) (campaignId : String)
    (ref : CampaignPullRequestRef) (now : ℤ) : sight toDouble s observerState campaignId ref now =
      sightOf toDouble (s.get (rowKey campaignId ref)) (observerState campaignId (Js.lower ref.repository)) now := rfl

theorem sights_change_iff (h : Stored calls s) (observerState : String → String → ForgeObserverState) (call : Call toDouble) :
    (∃ ref, sight toDouble (record s call).1 observerState call.campaignId ref call.at_ ≠
      sight toDouble s observerState call.campaignId ref call.at_) ↔ call.Tells s := by
  refine exists_congr (fun ref => ?_)
  rw [sight_eq, sight_eq, record_get]
  exact sightOf_changes_iff (fun row hrow => h.kept _ row hrow) _ _

theorem tells_iff_rereads {call : Call toDouble} (hquiet : ¬ call.News s) : call.Tells s ↔ call.Rereads s := by
  have hno : ∀ ref answer, answer ∈ call.answers ref →
      answer.news call.runnerId (s.get (rowKey call.campaignId ref)) = false := by
    intro ref answer hanswer
    rw [← Bool.not_eq_true]
    exact fun hnews => hquiet ⟨ref, answer, hanswer, hnews⟩
  constructor
  · rintro ⟨ref, htells⟩
    unfold Forge.Tells at htells
    cases hlast : (call.answers ref).getLast? with
    | none =>
      rw [hlast] at htells
      cases htells
    | some answer =>
      have hmem := List.mem_of_getLast? hlast
      rw [hlast] at htells
      cases answer with
      | observed observation =>
        rcases htells with hnews | hreread
        · rw [hno ref _ hmem] at hnews
          cases hnews
        · exact ⟨ref, observation, hmem, hreread⟩
      | failed reason =>
        rcases htells with hnews | ⟨observation, hobserved, hvalue⟩
        · rw [hno ref _ hmem] at hnews
          cases hnews
        · obtain ⟨answer, hanswer, hobservation⟩ := List.mem_filterMap.1 (List.mem_of_getLast? hobserved)
          cases answer with
          | failed reason => cases hobservation
          | observed o =>
            cases hobservation
            have hsame := hno ref _ hanswer
            cases hrow : s.get (rowKey call.campaignId ref) with
            | none =>
              rw [hrow] at hsame
              cases hsame
            | some row =>
              rw [hrow] at hsame hvalue
              simp only [Answer.news, Bool.or_eq_false_iff, decide_eq_false_iff_not, not_not] at hsame
              exact absurd hsame.1.1 hvalue
  · rintro ⟨ref, observation, hanswer, hreread⟩
    refine ⟨ref, ?_⟩
    obtain ⟨hsame, row, hrow, hstale⟩ := hreread
    unfold Forge.Tells
    cases hlast : (call.answers ref).getLast? with
    | none =>
      rw [List.getLast?_eq_none_iff] at hlast
      rw [hlast] at hanswer
      cases hanswer
    | some answer =>
      have hquietLast := hno ref answer (List.mem_of_getLast? hlast)
      cases answer with
      | observed last => exact Or.inr ⟨hquietLast, row, hrow, hstale⟩
      | failed reason =>
        rw [hrow] at hsame hquietLast
        simp only [Answer.news, Bool.or_eq_false_iff, decide_eq_false_iff_not, not_not, Option.isSome_eq_false_iff,
          Option.isNone_iff_eq_none] at hsame hquietLast
        rw [hsame.1.2] at hquietLast
        cases hquietLast.1

theorem tells_of_news {call : Call toDouble} (honce : ∀ ref, (call.answers ref).length ≤ 1)
    (h : call.News s) : call.Tells s := by
  obtain ⟨ref, answer, hanswer, hnews⟩ := h
  refine ⟨ref, ?_⟩
  obtain ⟨other, hother⟩ := List.length_eq_one_iff.1 (le_antisymm (honce ref) (List.length_pos_of_mem hanswer))
  rw [hother, List.mem_singleton] at hanswer
  subst hanswer
  rw [hother]
  unfold Forge.Tells
  rw [List.getLast?_singleton]
  cases answer <;> exact Or.inl hnews

/-- **The report is right exactly where** no stale value is read again and no news taken back. -/
theorem reports_iff (h : Stored calls s) (observerState : String → String → ForgeObserverState) (call : Call toDouble) :
    Reports s observerState call ↔ (call.Rereads s → call.News s) ∧ (call.News s → call.Tells s) := by
  unfold Reports
  rw [record_changed_iff, sights_change_iff h]
  by_cases hnews : call.News s
  · simp [hnews]
  · rw [tells_iff_rereads hnews]
    simp [hnews]

theorem reader_sees (h : Stored calls s)
    (observerState : String → String → ForgeObserverState) {ref : CampaignPullRequestRef} {now : ℤ}
    {canAccessRunner : RunnerId → Bool} {forgeVisible : String → Bool} {f : ForgeFact} {v : Value}
    (hfact : forgeFactForPrincipal toDouble s observerState campaignId (.human canAccessRunner forgeVisible) ref now =
      some f) (hv : f.value = some v) :
    ∃ runner, canAccessRunner runner = true ∧ supplier s campaignId ref = some runner ∧
      ∃ call ∈ calls, call.runnerId = runner ∧ ∃ text observedAt,
        call.Read (rowKey campaignId ref) text observedAt ∧ Json.parse toDouble text = some v := by
  unfold forgeFactForPrincipal at hfact
  split at hfact
  · rename_i hvisible
    unfold fact at hfact
    cases hrow : s.get (rowKey campaignId ref) with
    | none =>
      rw [hrow] at hfact
      cases hfact
      cases hv
    | some row =>
      have hkept := h.kept _ row hrow
      have hsight := sightOf_kept hkept (observerState campaignId (Js.lower ref.repository)) now
      unfold sightOf at hsight
      rw [hrow] at hfact
      rw [hfact, Option.map_some, Option.some.injEq] at hsight
      have hvalue : f.value = row.value_json.bind (Json.parse toDouble) := congrArg Sight.value hsight
      rw [hv] at hvalue
      obtain ⟨text, htext, hparse⟩ := Option.bind_eq_some_iff.1 hvalue.symm
      have hsupplier : supplier s campaignId ref = some row.runner_id := by
        unfold supplier
        rw [hrow]
        rfl
      obtain ⟨call, hcall, observedAt, -, hrunner, hread⟩ := h.vouched _ row hrow text htext
      refine ⟨row.runner_id, ?_, hsupplier, call, hcall, hrunner, text, observedAt, hread, hparse⟩
      unfold forgeFactVisible at hvisible
      rwa [hsupplier] at hvisible
  · cases hfact
    cases hv

/-- **Facts never vouch across runners, and a report is right exactly where** no value gone stale is read again without
news, and no news is taken back within its call. -/
theorem forge_facts_reported (calls : List (Call toDouble)) (call : Call toDouble)
    (observerState : String → String → ForgeObserverState) :
    (∀ key row, (after calls).get key = some row → Vouched calls key row) ∧
      (∀ campaignId ref now canAccessRunner forgeVisible f v,
        forgeFactForPrincipal toDouble (after calls) observerState campaignId (.human canAccessRunner forgeVisible) ref now =
          some f → f.value = some v →
        ∃ runner, canAccessRunner runner = true ∧ supplier (after calls) campaignId ref = some runner ∧
          ∃ earlier ∈ calls, earlier.runnerId = runner ∧ ∃ text observedAt,
            earlier.Read (rowKey campaignId ref) text observedAt ∧ Json.parse toDouble text = some v) ∧
      (Reports (after calls) observerState call ↔
        (call.Rereads (after calls) → call.News (after calls)) ∧ (call.News (after calls) → call.Tells (after calls))) ∧
      ((∀ ref, (call.answers ref).length ≤ 1) →
        (Reports (after calls) observerState call ↔ (call.Rereads (after calls) → call.News (after calls)))) := by
  have hreports := reports_iff (stored_after calls) observerState call
  refine ⟨(stored_after calls).vouched, fun _ _ _ _ _ _ _ => reader_sees (stored_after calls) observerState, hreports,
    fun honce => ?_⟩
  rw [hreports]
  exact and_iff_left (tells_of_news honce)

section Missed

def runnerOne : RunnerId := ⟨"r1", by decide⟩

open Reviews (lit)

def openPullRequest : Observation id where
  members := [(lit "state", some (.string (lit "open"))), (lit "draft", some (.bool false)),
    (lit "headSha", some (.string (lit "0123456789012345678901234567890123456789"))),
    (lit "baseRef", some (.string (lit "main"))), (lit "reviewDecision", some (.string (lit "approved"))),
    (lit "checks", some (.object [(lit "state", some (.string (lit "passing"))), (lit "passing", some (.number .zero)),
      (lit "failing", some (.number .zero)), (lit "pending", some (.number .zero))])),
    (lit "requiredChecks", some (.object [(lit "state", some (.string (lit "none"))), (lit "passing", some (.number .zero)),
      (lit "failing", some (.number .zero)), (lit "pending", some (.number .zero))])),
    (lit "mergeQueue", some .null), (lit "mergeCommitSha", some .null)]
  wf := by
    refine ⟨by decide, ?_⟩
    simp only [Json.WfMembers, Json.Value.Wf, id_eq, and_true, true_and]
    decide

def readingAt (at_ : ℤ) : Call id where
  campaignId := "root"
  runnerId := runnerOne
  results := [⟨⟨"picoduck/wollipog", 4200⟩, some openPullRequest, none⟩]
  at_ := at_

def pullRequest : CampaignPullRequestRef := ⟨"picoduck/wollipog", 4200⟩

theorem answers_readingAt (at_ : ℤ) (ref : CampaignPullRequestRef) (answer : Answer id)
    (h : answer ∈ (readingAt at_).answers ref) :
    rowKey "root" ref = rowKey "root" pullRequest ∧ answer = .observed openPullRequest := by
  obtain ⟨result, hresult, hkey, hanswer⟩ := mem_answersTo.1 h
  rw [readingAt, List.mem_singleton] at hresult
  subst hresult
  cases hanswer
  exact ⟨hkey.symm, rfl⟩

theorem after_readingAt (at_ : ℤ) :
    (after [readingAt at_]).get (rowKey "root" pullRequest) = some (observedRow runnerOne openPullRequest.json at_) := by
  change ((record OrdMap.empty (readingAt at_)).1).get (rowKey "root" pullRequest) = _
  rw [record_get]
  simp [answersTo, readingAt, pullRequest, ForgeReadResult.answer, rowAfter, Answer.row]

theorem stale_reread_unreported :
    ¬ ∀ (calls : List (Call id)) (call : Call id) (observerState : String → String → ForgeObserverState),
      Reports (after calls) observerState call := by
  intro h
  have hreport := h [readingAt 0] (readingAt (11 * 60000)) (fun _ _ => .online)
  rw [reports_iff (stored_after _)] at hreport
  have hquiet : (Answer.observed openPullRequest).news runnerOne
      (some (observedRow runnerOne openPullRequest.json 0)) = false := by
    simp [Answer.news, observedRow]
  have hreread : (readingAt (11 * 60000)).Rereads (after [readingAt 0]) := by
    refine ⟨pullRequest, openPullRequest, ?_, ?_⟩
    · simp [Call.answers, answersTo, readingAt, pullRequest, ForgeReadResult.answer]
    · change rereads runnerOne (11 * 60000) ((after [readingAt 0]).get (rowKey "root" pullRequest)) openPullRequest
      rw [after_readingAt]
      exact ⟨hquiet, _, rfl, by decide⟩
  obtain ⟨ref, answer, hanswer, hnews⟩ := hreport.1 hreread
  obtain ⟨hkey, rfl⟩ := answers_readingAt _ ref answer hanswer
  change (Answer.observed openPullRequest).news runnerOne ((after [readingAt 0]).get (rowKey "root" ref)) = true at hnews
  rw [hkey, after_readingAt, hquiet] at hnews
  cases hnews

end Missed

end Wollipog.Forge
