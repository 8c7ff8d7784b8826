import Wollipog.Reviews.Store
import Wollipog.Lib.Run
/-!
# Backed — an upvote rests on a validated report

A valid upvote is a report that the contract accepts for its own head and scope, or an equivalence to an earlier valid
upvote of the same run.
-/
namespace Wollipog.Reviews

open Json Sys

variable {toDouble : Number → Number} {rows : List Row} {row r r' : Row}

/-- **Backed**: by its own whole output, or through a chain of earlier rows. -/
inductive Backed (toDouble : Number → Number) (rows : List Row) : Row → Prop
  | report {row : Row} {round : ReviewAttemptRound} {text : Text} {report : Value} (hstate : row.state = .completed)
      (hround : row.round = some round) (houtput : row.output = some text) (hwhole : row.outputTruncated = false)
      (hparse : parse toDouble text = some report)
      (haccepts : validateReviewReport (reportContext row.headSha round.scopeFiles) report = [])
      (hvote : memberOf report "vote" = .string (lit "UPVOTE")) : Backed toDouble rows row
  | equivalence {row earlier : Row} {round earlierRound : ReviewAttemptRound} {pre post : List Row} (hstate : row.state = .completed)
      (hround : row.round = some round) (hmode : round.mode = .equivalent) (hrows : rows = pre ++ row :: post) (hearlier : earlier ∈ pre)
      (hrun : sameRun row.requesterSessionId row.repository row.prNumber earlier = true) (hearlierRound : earlier.round = some earlierRound)
      (hepoch : earlierRound.epoch = round.epoch) (hhead : round.equivalentTo = some earlier.headSha)
      (hvote : validVote earlier = some .upvote) (hbacked : Backed toDouble rows earlier) : Backed toDouble rows row

theorem Backed.completed (h : Backed toDouble rows row) : row.state = .completed := by
  cases h with
  | report hstate => exact hstate
  | equivalence hstate => exact hstate

theorem validVote_some {vote : Vote} (h : validVote r = some vote) :
    ∃ verdict, r.verdict = some verdict ∧ verdict.valid = true ∧ verdict.effectiveVote = some vote := by
  unfold validVote at h
  split at h
  · rename_i consumed failureClass errors hverdict
    cases h
    exact ⟨_, hverdict, rfl, rfl⟩
  · rename_i consumed failureClass errors hverdict
    cases h
    exact ⟨_, hverdict, rfl, rfl⟩
  · cases h

theorem validVote_none (h : r.verdict = none) : validVote r = none := by
  unfold validVote
  rw [h]

variable {report : Value} {reported : ReviewSessionState} {round : Option ReviewAttemptRound}

theorem object_of_accepts {context : ReviewReportContext} (h : validateReviewReport context report = []) :
    hasType report .object = true := by
  by_contra hnot
  unfold validateReviewReport at h
  rw [Bool.not_eq_true] at hnot
  rw [hnot, Bool.not_false, if_pos rfl] at h
  cases h

theorem reportVote_upvote (h : reportVote report = .upvote) : memberOf report "vote" = .string (lit "UPVOTE") := by
  unfold reportVote at h
  split at h
  · rename_i htext
    cases hv : memberOf report "vote" with
    | string s =>
      rw [hv] at htext
      change s = lit "UPVOTE" at htext
      rw [htext]
    | null => rw [hv] at htext; exact absurd htext (by decide)
    | bool b => rw [hv] at htext; exact absurd htext (by change [] ≠ _; decide)
    | number n => rw [hv] at htext; exact absurd htext (by change [] ≠ _; decide)
    | array l => rw [hv] at htext; exact absurd htext (by change [] ≠ _; decide)
    | object m => rw [hv] at htext; exact absurd htext (by change [] ≠ _; decide)
  · cases h

/-- **A valid settled verdict** is that of a completed review whose whole output passes the contract. -/
theorem settledVerdict_valid {state : ReviewSessionState}
    {verdict : Option ReviewAttemptVerdictView} {output : Option (Text × Bool)} {settled : ReviewAttemptVerdictView}
    (h : (settledVerdict toDouble row state round verdict output).1 = some settled) (hvalid : settled.valid = true) :
    ∃ text planned report, state = .completed ∧ output = some (text, false) ∧ round = some planned ∧ parse toDouble text = some report ∧
      validateReviewReport (reportContext row.headSha planned.scopeFiles) report = [] ∧
      settled.effectiveVote = some (reportVote report) := by
  unfold settledVerdict at h
  split at h
  · cases h
  · split at h
    · cases h
      cases hvalid
    · split at h
      · rename_i text planned
        split at h
        · cases h
          cases hvalid
        · rename_i hstate
          dsimp only at h
          split at h
          · cases h
            cases hvalid
          · rename_i herrors
            rw [Bool.not_eq_true', Bool.not_eq_false, List.isEmpty_iff] at herrors
            cases hp : parse toDouble text with
            | none =>
              rw [hp] at herrors
              have hobject := object_of_accepts herrors
              cases hobject
            | some report =>
              rw [hp] at herrors h
              cases h
              exact ⟨text, planned, report, not_not.1 hstate, rfl, rfl, hp, herrors, rfl⟩
      · cases h
        cases hvalid

theorem history_lastValid {requesterSessionId repository : Text} {prNumber : ℕ} {last : Row}
    (h : (history rows requesterSessionId repository prNumber).lastValid = some last) :
    last ∈ rows ∧ sameRun requesterSessionId repository prNumber last = true ∧
      ∃ round, last.round = some round ∧ round.epoch = (history rows requesterSessionId repository prNumber).epoch := by
  have hmem := List.mem_of_getLast? h
  rw [List.mem_filter, List.mem_filter, List.mem_filter, Bool.and_eq_true, beq_iff_eq] at hmem
  obtain ⟨⟨⟨hrows, hrun, hround⟩, hepoch⟩, -⟩ := hmem
  obtain ⟨round, hround⟩ := Option.isSome_iff_exists.1 hround
  refine ⟨hrows, hrun, round, hround, ?_⟩
  unfold epochOf at hepoch
  rw [hround] at hepoch
  exact hepoch

theorem parsedRound_equivalent {value : Value} {round : ReviewAttemptRound} (h : parsedRound value = some round)
    (hmode : round.mode = .equivalent) : round.baseMerge = true := by
  unfold parsedRound at h
  split at h
  · obtain ⟨epoch, -, h⟩ := Option.bind_eq_some_iff.1 h
    obtain ⟨number, -, h⟩ := Option.bind_eq_some_iff.1 h
    obtain ⟨attempt, -, h⟩ := Option.bind_eq_some_iff.1 h
    obtain ⟨mode, -, h⟩ := Option.bind_eq_some_iff.1 h
    obtain ⟨baseSha, -, h⟩ := Option.bind_eq_some_iff.1 h
    obtain ⟨scopeFiles, -, h⟩ := Option.bind_eq_some_iff.1 h
    obtain ⟨since, -, h⟩ := Option.bind_eq_some_iff.1 h
    obtain ⟨rebasedFrom, -, h⟩ := Option.bind_eq_some_iff.1 h
    obtain ⟨equivalentTo, hto, h⟩ := Option.bind_eq_some_iff.1 h
    obtain ⟨baseMerge, hbase, h⟩ := Option.bind_eq_some_iff.1 h
    cases h
    dsimp only at hmode ⊢
    unfold equivalentToOf at hto
    rw [if_pos hmode] at hto
    split at hto
    · rename_i htrue
      rw [Bool.and_eq_true] at htrue
      unfold baseMergeOf at hbase
      split at hbase
      · cases hbase
      · rw [htrue.1, Option.some.injEq] at hbase
        exact hbase.symm
    · cases hto
  · cases h

/-- **A recorded equivalence** matches the last valid row of its run. -/
theorem checkedRound_equivalent {claimed round : ReviewAttemptRound} (hbase : claimed.mode = .equivalent → claimed.baseMerge = true)
    (h : checkedRound rows row (some claimed) = some round) (hmode : round.mode = .equivalent) :
    ∃ last, (history rows row.requesterSessionId row.repository row.prNumber).lastValid = some last ∧
      round.epoch = (history rows row.requesterSessionId row.repository row.prNumber).epoch ∧
      round.equivalentTo = some last.headSha := by
  dsimp only [checkedRound] at h
  by_cases hm : claimed.mode = .equivalent
  · rw [hbase hm, Bool.not_true, if_neg Bool.false_ne_true] at h
    simp only [if_pos hm] at h
    split at h
    · rename_i last hlast
      split at h
      · rename_i hmatch
        cases h
        exact ⟨last, hlast, hmatch.1, hmatch.2.1⟩
      · cases h
    · cases h
  · simp only [if_neg hm] at h
    split at h
    · cases h
      exact absurd hmode hm
    · split at h
      · split at h
        · cases h
          exact absurd hmode hm
        · cases h
          exact absurd hmode hm
      · cases h
        exact absurd hmode hm

structure Kept (r r' : Row) : Prop where
  reviewSessionId : r'.reviewSessionId = r.reviewSessionId
  requesterSessionId : r'.requesterSessionId = r.requesterSessionId
  repository : r'.repository = r.repository
  prNumber : r'.prNumber = r.prNumber
  headSha : r'.headSha = r.headSha

theorem Kept.rfl : Kept r r := ⟨Eq.refl _, Eq.refl _, Eq.refl _, Eq.refl _, Eq.refl _⟩

theorem Kept.trans {r'' : Row} (h : Kept r r') (h' : Kept r' r'') : Kept r r'' where
  reviewSessionId := h'.reviewSessionId.trans h.reviewSessionId
  requesterSessionId := h'.requesterSessionId.trans h.requesterSessionId
  repository := h'.repository.trans h.repository
  prNumber := h'.prNumber.trans h.prNumber
  headSha := h'.headSha.trans h.headSha

/-- How an upvote comes into a row: a report of its own, or the last valid upvote of its run. -/
inductive Settles (toDouble : Number → Number) (rows : List Row) (r' : Row) : Prop
  | report {round : ReviewAttemptRound} {text : Text} {report : Value} (hstate : r'.state = .completed) (hround : r'.round = some round)
      (houtput : r'.output = some text) (hwhole : r'.outputTruncated = false) (hparse : parse toDouble text = some report)
      (haccepts : validateReviewReport (reportContext r'.headSha round.scopeFiles) report = [])
      (hvote : memberOf report "vote" = .string (lit "UPVOTE"))
  | equivalence {last : Row} {round lastRound : ReviewAttemptRound} (hstate : r'.state = .completed) (hround : r'.round = some round)
      (hmode : round.mode = .equivalent) (hlast : last ∈ rows)
      (hrun : sameRun r'.requesterSessionId r'.repository r'.prNumber last = true) (hlastRound : last.round = some lastRound)
      (hepoch : lastRound.epoch = round.epoch) (hhead : round.equivalentTo = some last.headSha) (hvote : validVote last = some .upvote)

/-- **What an operation may do to a row**: nothing, or to an active row what keeps its identity and its planned round. -/
def Moves (toDouble : Number → Number) (rows : List Row) (r r' : Row) : Prop :=
  r' = r ∨ (r.active = true ∧ Kept r r' ∧ (∀ round, r.round = some round → r'.round = some round) ∧
    (r'.active = true → r'.verdict = none) ∧ (validVote r' = some .upvote → Settles toDouble rows r'))

theorem admitted_kept (row : Row) (u : ReviewSessionUpdate) (now : ℕ) : Kept row (admitted row u now) ∧
    (admitted row u now).state = row.state ∧ (admitted row u now).round = row.round ∧ (admitted row u now).verdict = row.verdict := by
  unfold admitted
  split
  · split
    · exact ⟨⟨rfl, rfl, rfl, rfl, rfl⟩, rfl, rfl, rfl⟩
    · exact ⟨Kept.rfl, rfl, rfl, rfl⟩
  · exact ⟨Kept.rfl, rfl, rfl, rfl⟩

theorem reportRunning_spec (now : ℕ) (hround : ∀ planned, row.round = some planned → round = some planned) :
    Kept row (reportRunning row round now) ∧ (reportRunning row round now).verdict = row.verdict ∧
      ∀ planned, row.round = some planned → (reportRunning row round now).round = some planned := by
  unfold reportRunning
  dsimp only
  split
  · split
    · exact ⟨⟨rfl, rfl, rfl, rfl, rfl⟩, rfl, hround⟩
    · exact ⟨⟨rfl, rfl, rfl, rfl, rfl⟩, rfl, hround⟩
  · split
    · exact ⟨⟨rfl, rfl, rfl, rfl, rfl⟩, rfl, fun _ h => h⟩
    · exact ⟨Kept.rfl, rfl, fun _ h => h⟩

theorem reportEnded_spec (toDouble : Number → Number) (rows : List Row) (row : Row) (round : Option ReviewAttemptRound)
    (u : ReviewSessionUpdate) (now : ℕ) (hended : reported.terminal = true) :
    Kept row (reportEnded toDouble row round u reported now) ∧ (reportEnded toDouble row round u reported now).round = round ∧
      (reportEnded toDouble row round u reported now).active = false ∧
      (validVote (reportEnded toDouble row round u reported now) = some .upvote →
        Settles toDouble rows (reportEnded toDouble row round u reported now)) := by
  have hkept : Kept row (reportEnded toDouble row round u reported now) := ⟨rfl, rfl, rfl, rfl, rfl⟩
  have hclosed : (reportEnded toDouble row round u reported now).active = false := by
    have hterminal : ∀ (p : Prop) [Decidable p], (if p then ReviewSessionState.failed else reported).terminal = true := by
      intro p _
      split
      · rfl
      · exact hended
    have hstate : (reportEnded toDouble row round u reported now).state.terminal = true := hterminal _
    unfold Row.active
    rw [hstate]
    rfl
  refine ⟨hkept, rfl, hclosed, fun hvote => ?_⟩
  obtain ⟨verdict, hverdict, hvalid, hup⟩ := validVote_some hvote
  obtain ⟨text, planned, report, hstate, houtput, hround, hparse, haccepts, hsettled⟩ := settledVerdict_valid hverdict hvalid
  rw [hup, Option.some.injEq] at hsettled
  rw [if_pos hstate, Option.map_eq_some_iff] at houtput
  obtain ⟨whole, hwhole, htext⟩ := houtput
  rw [Prod.mk.injEq] at htext
  have hstored : (reportEnded toDouble row round u reported now).output = some text := by
    unfold reportEnded
    dsimp only
    rw [if_pos hstate, hwhole, Option.map_some, htext.1]
  exact .report hstate hround hstored htext.2 hparse haccepts (reportVote_upvote hsettled.symm)

theorem acceptEquivalence_spec (toDouble : Number → Number) (reported : ReviewSessionState)
    (now : ℕ) (hmatch : ∀ planned, round = some planned → planned.mode = .equivalent →
      ∃ last, (history rows row.requesterSessionId row.repository row.prNumber).lastValid = some last ∧
        planned.epoch = (history rows row.requesterSessionId row.repository row.prNumber).epoch ∧
        planned.equivalentTo = some last.headSha) :
    Kept row (acceptEquivalence rows row round reported now) ∧ (acceptEquivalence rows row round reported now).active = false ∧
      (validVote (acceptEquivalence rows row round reported now) = some .upvote →
        Settles toDouble rows (acceptEquivalence rows row round reported now)) := by
  unfold acceptEquivalence
  dsimp only
  split
  · rename_i last hproven
    refine ⟨⟨rfl, rfl, rfl, rfl, rfl⟩, rfl, fun _ => ?_⟩
    split at hproven
    · rename_i hcompleted
      obtain ⟨-, hany⟩ := hcompleted
      rw [Option.filter_eq_some_iff, beq_iff_eq] at hproven
      obtain ⟨hlast, hvote⟩ := hproven
      cases hr : round with
      | none =>
        rw [hr] at hany
        cases hany
      | some planned =>
        rw [hr, Option.any_some, beq_iff_eq] at hany
        obtain ⟨last', hlast', hepoch, hhead⟩ := hmatch planned hr hany
        rw [hlast, Option.some.injEq] at hlast'
        subst hlast'
        obtain ⟨hmem, hrun, lastRound, hlastRound, hlastEpoch⟩ := history_lastValid hlast
        exact .equivalence rfl rfl hany hmem hrun hlastRound (hlastEpoch.trans hepoch.symm) hhead hvote
    · cases hproven
  · exact ⟨⟨rfl, rfl, rfl, rfl, rfl⟩, rfl, fun h => by cases h⟩

/-- **The row after a report of its runner.** -/
theorem reportRow_spec {u : ReviewSessionUpdate} {now : ℕ} (hactive : row.active = true)
    (hblank : row.verdict = none) (hreported : reported ≠ .requested) :
    Moves toDouble rows row (reportRow toDouble rows row u reported now) := by
  obtain ⟨hkept, hstate, hround, hverdict⟩ := admitted_kept row u now
  have hplanned : ∀ planned, (admitted row u now).round = some planned →
      row.round.or (checkedRound rows row (u.round.bind parsedRound)) = some planned := by
    intro planned hp
    rw [hround] at hp
    rw [hp, Option.some_or]
  have hblank' : (admitted row u now).verdict = none := hverdict.trans hblank
  refine .inr ⟨hactive, ?_⟩
  unfold reportRow
  dsimp only
  split
  · rename_i hequivalent
    obtain ⟨hany, hnone⟩ := hequivalent
    rw [Option.isNone_iff_eq_none] at hnone
    have hnoRound : row.round = none := hround.symm.trans hnone
    split
    · refine ⟨hkept, fun planned hp => ?_, fun _ => hblank', fun hvote => ?_⟩
      · rw [hnoRound] at hp
        cases hp
      · rw [validVote_none hblank'] at hvote
        cases hvote
    · have hmatch : ∀ planned, row.round.or (checkedRound rows row (u.round.bind parsedRound)) = some planned →
          planned.mode = .equivalent →
          ∃ last, (history rows (admitted row u now).requesterSessionId (admitted row u now).repository
              (admitted row u now).prNumber).lastValid = some last ∧
            planned.epoch = (history rows (admitted row u now).requesterSessionId (admitted row u now).repository
              (admitted row u now).prNumber).epoch ∧ planned.equivalentTo = some last.headSha := by
        intro planned hp hmode
        rw [hkept.requesterSessionId, hkept.repository, hkept.prNumber]
        rw [hnoRound, Option.none_or] at hp
        cases hc : u.round.bind parsedRound with
        | none =>
          rw [hc] at hp
          cases hp
        | some claimed =>
          rw [hc] at hp
          obtain ⟨value, -, hparsed⟩ := Option.bind_eq_some_iff.1 hc
          exact checkedRound_equivalent (parsedRound_equivalent hparsed) hp hmode
      obtain ⟨hkept', hclosed, hsettles⟩ := acceptEquivalence_spec toDouble reported now hmatch
      refine ⟨hkept.trans hkept', fun planned hp => ?_, fun ha => ?_, hsettles⟩
      · rw [hnoRound] at hp
        cases hp
      · rw [hclosed] at ha
        cases ha
  · split
    · obtain ⟨hkept', hverdict', hround'⟩ := reportRunning_spec now hplanned
      have hnone := hverdict'.trans hblank'
      refine ⟨hkept.trans hkept', fun planned hp => hround' planned (hround.trans hp), fun _ => hnone, fun hvote => ?_⟩
      rw [validVote_none hnone] at hvote
      cases hvote
    · rename_i hrunning
      have hended : reported.terminal = true := by
        cases reported with
        | requested => exact absurd rfl hreported
        | running => exact absurd rfl hrunning
        | completed => rfl
        | failed => rfl
        | cancelled => rfl
      obtain ⟨hkept', hround', hclosed, hsettles⟩ := reportEnded_spec toDouble rows (admitted row u now)
        (row.round.or (checkedRound rows row (u.round.bind parsedRound))) u now hended
      refine ⟨hkept.trans hkept', fun planned hp => ?_, fun ha => ?_, hsettles⟩
      · rw [hround']
        exact hplanned planned (hround.trans hp)
      · rw [hclosed] at ha
        cases ha

end Wollipog.Reviews
