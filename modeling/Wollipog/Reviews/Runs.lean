import Wollipog.Reviews.Backed
/-!
# Runs — reviews over whole runs

What each operation does to the rows, and from it that every upvote is backed, that what is closed stays, and that merge
evidence stands until a newer vote.
-/
namespace Wollipog.Reviews

open Json Sys

variable {toDouble : Number → Number} {rows rows' : List Row} {row r r' : Row}

structure Inv (toDouble : Number → Number) (rows : List Row) : Prop where
  ids : (rows.map Row.reviewSessionId).Nodup
  /-- A review that is active is the last one of its requester. -/
  latest : rows.Pairwise (fun a b => a.active = true → b.requesterSessionId ≠ a.requesterSessionId)
  blank : ∀ r ∈ rows, r.active = true → r.verdict = none
  backed : ∀ r ∈ rows, validVote r = some .upvote → Backed toDouble rows r

theorem inv_nil : Inv toDouble [] := ⟨List.nodup_nil, List.Pairwise.nil, List.forall_mem_nil _,
  List.forall_mem_nil _⟩

theorem active_of_terminal (h : r.state.terminal = false) : r.active = true := by
  unfold Row.active
  rw [h]
  rfl

theorem not_active_of_completed (h : r.state = .completed) : r.active = false := by
  unfold Row.active
  rw [h]
  rfl

theorem update_moves {id : Text} {test : Row → Bool} {g : Row → Row} (hblank : ∀ r ∈ rows, r.active = true → r.verdict = none)
    (hactive : ∀ r, test r = true → r.active = true)
    (hkept : ∀ r, Kept r (g r) ∧ (g r).round = r.round ∧ (g r).verdict = r.verdict) :
    ∀ r ∈ rows, Moves toDouble rows r (if r.reviewSessionId = id ∧ test r then g r else r) := by
  intro r hr
  split
  · rename_i hboth
    have ha := hactive r hboth.2
    obtain ⟨hk, hround, hverdict⟩ := hkept r
    have hnone : (g r).verdict = none := hverdict.trans (hblank r hr ha)
    refine .inr ⟨ha, hk, fun planned hp => hround.trans hp, fun _ => hnone, fun hvote => ?_⟩
    rw [validVote_none hnone] at hvote
    cases hvote
  · exact .inl rfl

variable {e : Event} {m o : List Unit} {f : Row → Row}

/-- **What an operation does**: it adds a requested review, or moves rows. -/
theorem step_cases (hinv : Inv toDouble rows) (hst : step toDouble rows e = some (rows', o)) :
    (∃ x, rows' = rows ++ [x] ∧ x.state = .requested ∧ x.verdict = none ∧ ∀ r ∈ rows, r.reviewSessionId ≠ x.reviewSessionId ∧
      (r.active = true → x.requesterSessionId ≠ r.requesterSessionId)) ∨
    ∃ f : Row → Row, rows' = rows.map f ∧ ∀ r ∈ rows, Moves toDouble rows r (f r) := by
  cases e with
  | record input now =>
    obtain ⟨t, ht, heq⟩ := Option.map_eq_some_iff.1 hst
    cases heq
    unfold record at ht
    split at ht
    · cases ht
    · rename_i hnew
      cases ht
      rw [Bool.not_eq_true, List.any_eq_false] at hnew
      refine .inl ⟨_, rfl, rfl, rfl, fun r hr => ?_⟩
      have hrow := hnew r hr
      rw [Bool.or_eq_true, not_or, Bool.and_eq_true, not_and, beq_iff_eq, beq_iff_eq] at hrow
      exact ⟨hrow.1, fun ha heq => hrow.2 ha heq.symm⟩
  | markRunning id now =>
    cases hst
    refine .inr ⟨_, rfl, update_moves hinv.blank (fun r hr => ?_) (fun r => ⟨⟨rfl, rfl, rfl, rfl, rfl⟩, rfl, rfl⟩)⟩
    rw [beq_iff_eq] at hr
    exact active_of_terminal (by rw [hr]; rfl)
  | requestCancel id now | abandon id reason now owed =>
    cases hst
    exact .inr ⟨_, rfl, update_moves hinv.blank (fun r hr => hr) (fun r => ⟨⟨rfl, rfl, rfl, rfl, rfl⟩, rfl, rfl⟩)⟩
  | accept runnerId u now =>
    cases hst
    have hsame : ∃ f : Row → Row, rows = rows.map f ∧ ∀ r ∈ rows, Moves toDouble rows r (f r) :=
      ⟨id, (List.map_id rows).symm, fun _ _ => .inl rfl⟩
    refine .inr ?_
    unfold accept
    split
    · rename_i row reported hfind hreported
      split
      · exact hsame
      · rename_i hopen
        rw [not_or, not_or, Bool.not_eq_true] at hopen
        refine ⟨_, rfl, fun r hr => ?_⟩
        have hrow := List.mem_of_find?_eq_some hfind
        have hid := List.find?_some hfind
        rw [beq_iff_eq] at hid
        split
        · rename_i hboth
          have heq : r = row := List.inj_on_of_nodup_map hinv.ids hr hrow (hboth.1.trans hid.symm)
          have ha := active_of_terminal hopen.2.1
          rw [heq]
          exact reportRow_spec ha (hinv.blank row hrow ha) hopen.2.2
        · exact .inl rfl
    · exact hsame

theorem Moves.kept (h : Moves toDouble rows r r') : Kept r r' := by
  rcases h with rfl | ⟨-, hk, -⟩
  · exact Kept.rfl
  · exact hk

theorem Moves.closed (h : Moves toDouble rows r r') (hclosed : r.active = false) : r' = r := by
  rcases h with rfl | ⟨ha, -⟩
  · rfl
  · rw [hclosed] at ha
    cases ha

theorem Moves.active (h : Moves toDouble rows r r') (ha : r'.active = true) : r.active = true := by
  rcases h with rfl | ⟨hactive, -⟩
  · exact ha
  · exact hactive

theorem Backed.map (hf : ∀ r ∈ rows, Moves toDouble rows r (f r)) (h : Backed toDouble rows row) :
    Backed toDouble (rows.map f) row := by
  induction h with
  | report hstate hround houtput hwhole hparse haccepts hvote => exact .report hstate hround houtput hwhole hparse haccepts hvote
  | @equivalence row earlier round earlierRound pre post hstate hround hmode hrows hearlier hrun hearlierRound hepoch hhead hvote hbacked ih =>
    have hrow : f row = row :=
      (hf row (by rw [hrows]; exact List.mem_append_cons_self)).closed (not_active_of_completed hstate)
    have hlast : f earlier = earlier :=
      (hf earlier (by rw [hrows]; exact List.mem_append_left _ hearlier)).closed (not_active_of_completed hbacked.completed)
    have hrows' : rows.map f = pre.map f ++ row :: post.map f := by rw [hrows, List.map_append, List.map_cons, hrow]
    have hearlier' : earlier ∈ pre.map f := by
      rw [← hlast]
      exact List.mem_map_of_mem hearlier
    exact .equivalence hstate hround hmode hrows' hearlier' hrun hearlierRound hepoch hhead hvote ih

theorem Backed.append (x : Row) (h : Backed toDouble rows row) : Backed toDouble (rows ++ [x]) row := by
  induction h with
  | report hstate hround houtput hwhole hparse haccepts hvote => exact .report hstate hround houtput hwhole hparse haccepts hvote
  | @equivalence row earlier round earlierRound pre post hstate hround hmode hrows hearlier hrun hearlierRound hepoch hhead hvote hbacked ih =>
    have hrows' : rows ++ [x] = pre ++ row :: (post ++ [x]) := by rw [hrows, List.append_assoc, List.cons_append]
    exact .equivalence hstate hround hmode hrows' hearlier hrun hearlierRound hepoch hhead hvote ih

theorem sameRun_requester {requesterSessionId repository : Text} {prNumber : ℕ}
    (h : sameRun requesterSessionId repository prNumber r = true) : r.requesterSessionId = requesterSessionId := by
  unfold sameRun at h
  rw [Bool.and_eq_true, Bool.and_eq_true, beq_iff_eq] at h
  exact h.1.1

theorem backed_of_settles (hinv : Inv toDouble rows) (hf : ∀ r ∈ rows, Moves toDouble rows r (f r)) (hr : r ∈ rows)
    (ha : r.active = true) (h : Settles toDouble rows (f r)) : Backed toDouble (rows.map f) (f r) := by
  cases h with
  | report hstate hround houtput hwhole hparse haccepts hvote => exact .report hstate hround houtput hwhole hparse haccepts hvote
  | @equivalence last round lastRound hstate hround hmode hlast hrun hlastRound hepoch hhead hvote =>
    obtain ⟨pre, post, hrows⟩ := List.append_of_mem hr
    have hbacked := hinv.backed last hlast hvote
    have hsame : f last = last := (hf last hlast).closed (not_active_of_completed hbacked.completed)
    have hpre : last ∈ pre := by
      rw [hrows] at hlast
      rcases List.mem_append.1 hlast with hlast | hlast
      · exact hlast
      · exfalso
        rcases List.mem_cons.1 hlast with rfl | hlast
        · rw [not_active_of_completed hbacked.completed] at ha
          cases ha
        · have hlatest := hinv.latest
          rw [hrows, List.pairwise_append] at hlatest
          have hother := (List.pairwise_cons.1 hlatest.2.1).1 last hlast ha
          rw [sameRun_requester hrun, (hf r hr).kept.requesterSessionId] at hother
          exact hother rfl
    have hrows' : rows.map f = pre.map f ++ f r :: post.map f := by rw [hrows, List.map_append, List.map_cons]
    have hpre' : last ∈ pre.map f := by
      rw [← hsame]
      exact List.mem_map_of_mem hpre
    exact .equivalence hstate hround hmode hrows' hpre' hrun hlastRound hepoch hhead hvote (hbacked.map hf)

theorem step_inv (hinv : Inv toDouble rows) (hst : step toDouble rows e = some (rows', o)) : Inv toDouble rows' := by
  rcases step_cases hinv hst with ⟨x, rfl, hstate, hverdict, hnew⟩ | ⟨f, rfl, hf⟩
  · refine ⟨?_, ?_, ?_, ?_⟩
    · rw [List.map_append, List.map_singleton, ← List.concat_eq_append]
      refine hinv.ids.concat (fun hmem => ?_)
      obtain ⟨r, hr, hid⟩ := List.mem_map.1 hmem
      exact (hnew r hr).1 hid
    · rw [List.pairwise_append]
      refine ⟨hinv.latest, List.pairwise_singleton _ _, fun a ha b hb hactive => ?_⟩
      rw [List.mem_singleton] at hb
      rw [hb]
      exact (hnew a ha).2 hactive
    · intro r hr ha
      rcases List.mem_append.1 hr with hr | hr
      · exact hinv.blank r hr ha
      · rw [List.mem_singleton] at hr
        rw [hr]
        exact hverdict
    · intro r hr hvote
      rcases List.mem_append.1 hr with hr | hr
      · exact (hinv.backed r hr hvote).append x
      · rw [List.mem_singleton] at hr
        rw [hr, validVote_none hverdict] at hvote
        cases hvote
  · refine ⟨?_, ?_, ?_, ?_⟩
    · have hids : (rows.map f).map Row.reviewSessionId = rows.map Row.reviewSessionId := by
        rw [List.map_map]
        exact List.map_congr_left (fun r hr => (hf r hr).kept.reviewSessionId)
      rw [hids]
      exact hinv.ids
    · rw [List.pairwise_map]
      refine hinv.latest.imp_of_mem (fun {a b} ha hb hab hactive => ?_)
      rw [(hf a ha).kept.requesterSessionId, (hf b hb).kept.requesterSessionId]
      exact hab ((hf a ha).active hactive)
    · intro r' hr' ha
      obtain ⟨r, hr, rfl⟩ := List.mem_map.1 hr'
      rcases hf r hr with hsame | ⟨-, -, -, hnone, -⟩
      · rw [hsame] at ha ⊢
        exact hinv.blank r hr ha
      · exact hnone ha
    · intro r' hr' hvote
      obtain ⟨r, hr, rfl⟩ := List.mem_map.1 hr'
      rcases hf r hr with hsame | ⟨ha, -, -, -, hsettles⟩
      · rw [hsame] at hvote ⊢
        exact (hinv.backed r hr hvote).map hf
      · exact backed_of_settles hinv hf hr ha (hsettles hvote)

theorem run_inv (h : Run (step toDouble) rows m rows') (hinv : Inv toDouble rows) : Inv toDouble rows' :=
  h.inv (Inv toDouble) (fun _ _ _ _ hst hi => step_inv hi hst) hinv

theorem step_row (hinv : Inv toDouble rows) (hst : step toDouble rows e = some (rows', o)) (hr : r ∈ rows) :
    (r.active = false → r ∈ rows') ∧ ∃ r' ∈ rows', Kept r r' ∧ ∀ round, r.round = some round → r'.round = some round := by
  rcases step_cases hinv hst with ⟨x, rfl, -⟩ | ⟨f, rfl, hf⟩
  · exact ⟨fun _ => List.mem_append_left _ hr, r, List.mem_append_left _ hr, Kept.rfl, fun _ h => h⟩
  · have hmem := List.mem_map_of_mem (f := f) hr
    refine ⟨fun hclosed => ?_, f r, hmem, (hf r hr).kept, ?_⟩
    · rwa [(hf r hr).closed hclosed] at hmem
    · intro round hround
      rcases hf r hr with hsame | ⟨-, -, hplanned, -⟩
      · rwa [hsame]
      · exact hplanned round hround

/-- **What is closed stays.** -/
theorem run_closed (hinv : Inv toDouble rows) (h : Run (step toDouble) rows m rows') (hr : r ∈ rows)
    (hclosed : r.active = false) : r ∈ rows' := by
  have hboth : Inv toDouble rows' ∧ r ∈ rows' :=
    h.inv (fun t => Inv toDouble t ∧ r ∈ t) (fun _ _ _ _ hst hi => ⟨step_inv hi.1 hst, (step_row hi.1 hst hi.2).1 hclosed⟩) ⟨hinv, hr⟩
  exact hboth.2

/-- **A planned round stays.** -/
theorem run_round {round : ReviewAttemptRound} (hinv : Inv toDouble rows) (h : Run (step toDouble) rows m rows')
    (hr : r ∈ rows) (hround : r.round = some round) : ∃ r' ∈ rows', Kept r r' ∧ r'.round = some round := by
  have hboth : Inv toDouble rows' ∧ ∃ r' ∈ rows', Kept r r' ∧ r'.round = some round := by
    refine h.inv (fun t => Inv toDouble t ∧ ∃ r' ∈ t, Kept r r' ∧ r'.round = some round) ?_ ⟨hinv, r, hr, Kept.rfl, hround⟩
    rintro s e t o hst ⟨hi, r', hr', hk, hround'⟩
    obtain ⟨r'', hr'', hk', hplanned⟩ := (step_row hi hst hr').2
    exact ⟨step_inv hi hst, r'', hr'', hk.trans hk', hplanned round hround'⟩
  exact hboth.2

theorem one_active {rows : List Row} (h : rows.Pairwise (fun a b => a.active = true → b.requesterSessionId ≠ a.requesterSessionId))
    (hr : r ∈ rows) (hr' : r' ∈ rows) (ha : r.active = true) (ha' : r'.active = true)
    (hrequester : r.requesterSessionId = r'.requesterSessionId) : r = r' := by
  induction rows with
  | nil => cases hr
  | cons x rest ih =>
    obtain ⟨hx, hrest⟩ := List.pairwise_cons.1 h
    rcases List.mem_cons.1 hr with rfl | hin
    · rcases List.mem_cons.1 hr' with rfl | hin'
      · rfl
      · exact absurd hrequester.symm (hx r' hin' ha)
    · rcases List.mem_cons.1 hr' with rfl | hin'
      · exact absurd hrequester (hx r hin ha')
      · exact ih hrest hin hin'

section Evidence

variable {lower : Text → Text} {requesterSessionId : Text} {snapshot : MergeSnapshot} {id requester repository : Text} {number : ℕ}
  {head : Text} {reviewer : SessionReviewHarness} {round : ReviewAttemptRound} {completedAt : ℕ}

/-- **Verified evidence** reads one row, that of the cited review. -/
theorem mergeEvidence_verified (h : mergeEvidence lower rows requesterSessionId snapshot =
      some (.verified id requester repository number head reviewer round completedAt)) :
    snapshot.reviewSessionId = some id ∧ ∃ r, rows.find? (fun r => r.reviewSessionId == id) = some r ∧
      r.requesterSessionId = requesterSessionId ∧ lower r.repository = lower snapshot.repository ∧ r.prNumber = snapshot.pullRequest ∧
      r.headSha = snapshot.headSha ∧ r.state = .completed ∧ validVote r = some .upvote ∧ r.round = some round ∧
      requester = requesterSessionId ∧ repository = r.repository ∧ number = r.prNumber ∧ head = r.headSha ∧ reviewer = r.reviewer ∧
      completedAt = r.updatedAt := by
  unfold mergeEvidence at h
  obtain ⟨cited, hcited, h⟩ := Option.map_eq_some_iff.1 h
  split at h
  · cases h
  · rename_i r hfind
    split at h
    · cases h
    · rename_i hrequester
      split at h
      · cases h
      · rename_i hpull
        split at h
        · cases h
        · rename_i hhead
          split at h
          · cases h
          · rename_i planned hround
            split at h
            · cases h
            · rename_i hvote
              split at h
              · cases h
              · cases h
                rw [not_or, not_not, not_not] at hpull hvote
                exact ⟨hcited, r, hfind, not_not.1 hrequester, hpull.1, hpull.2, not_not.1 hhead, hvote.1, hvote.2, hround, rfl, rfl, rfl,
                  rfl, rfl, rfl⟩

theorem mergeEvidence_of_row (hcited : snapshot.reviewSessionId = some id) (hfind : rows.find? (fun r => r.reviewSessionId == id) = some r)
    (hrequester : r.requesterSessionId = requesterSessionId) (hrepository : lower r.repository = lower snapshot.repository)
    (hnumber : r.prNumber = snapshot.pullRequest) (hhead : r.headSha = snapshot.headSha) (hstate : r.state = .completed)
    (hvote : validVote r = some .upvote) (hround : r.round = some round) :
    mergeEvidence lower rows requesterSessionId snapshot =
        some (.verified id requesterSessionId r.repository r.prNumber r.headSha r.reviewer round r.updatedAt) ∨
      ∃ newer ∈ newerThan id rows, supersedes requesterSessionId snapshot newer = true := by
  cases hnewer : (newerThan id rows).reverse.find? (supersedes requesterSessionId snapshot) with
  | some newer =>
    exact .inr ⟨newer, List.mem_reverse.1 (List.mem_of_find?_eq_some hnewer), List.find?_some hnewer⟩
  | none =>
    refine .inl ?_
    unfold mergeEvidence
    rw [hcited, Option.map_some, hfind]
    dsimp only
    rw [if_neg (not_not.2 hrequester), if_neg (by rw [not_or, not_not, not_not]; exact ⟨hrepository, hnumber⟩), if_neg (not_not.2 hhead),
      hround]
    dsimp only
    rw [if_neg (by rw [not_or, not_not, not_not]; exact ⟨hstate, hvote⟩), hnewer]

theorem find_of_mem (hinv : Inv toDouble rows) (hr : r ∈ rows) : rows.find? (fun x => x.reviewSessionId == r.reviewSessionId) = some r := by
  cases hf : rows.find? (fun x => x.reviewSessionId == r.reviewSessionId) with
  | none => exact absurd (beq_self_eq_true _) (List.find?_eq_none.1 hf r hr)
  | some x =>
    have hid := List.find?_some hf
    rw [beq_iff_eq] at hid
    rw [List.inj_on_of_nodup_map hinv.ids (List.mem_of_find?_eq_some hf) hr hid]

end Evidence

/-- **An upvote is always backed by a validated report.** -/
theorem upvotes_backed (lower : Text → Text) {l : List Unit} (h : Run (step toDouble) [] l rows) :
    (∀ r ∈ rows, validVote r = some .upvote → r.state = .completed ∧ Backed toDouble rows r) ∧
    (∀ r ∈ rows, ∀ r' ∈ rows, r.active = true → r'.active = true → r.requesterSessionId = r'.requesterSessionId → r = r') ∧
    (∀ m rows', Run (step toDouble) rows m rows' → ∀ r ∈ rows, (r.state.terminal = true → r ∈ rows') ∧
      ∀ round, r.round = some round → ∃ r' ∈ rows', Kept r r' ∧ r'.round = some round) ∧
    ∀ requesterSessionId snapshot id requester repository number head reviewer round completedAt,
      mergeEvidence lower rows requesterSessionId snapshot =
        some (.verified id requester repository number head reviewer round completedAt) →
      (∃ r ∈ rows, r.reviewSessionId = id ∧ snapshot.reviewSessionId = some id ∧ r.requesterSessionId = requesterSessionId ∧
        r.headSha = snapshot.headSha ∧ head = snapshot.headSha ∧ validVote r = some .upvote ∧ Backed toDouble rows r) ∧
      ∀ m rows', Run (step toDouble) rows m rows' → mergeEvidence lower rows' requesterSessionId snapshot =
          some (.verified id requester repository number head reviewer round completedAt) ∨
        ∃ newer ∈ newerThan id rows', supersedes requesterSessionId snapshot newer = true := by
  have hinv : Inv toDouble rows := run_inv h inv_nil
  refine ⟨fun r hr hvote => ?_, fun r hr r' hr' ha ha' => one_active hinv.latest hr hr' ha ha', fun m rows' hm r hr => ⟨?_, ?_⟩, ?_⟩
  · have hbacked := hinv.backed r hr hvote
    exact ⟨hbacked.completed, hbacked⟩
  · intro hterminal
    refine run_closed hinv hm hr ?_
    unfold Row.active
    rw [hterminal]
    rfl
  · exact fun round hround => run_round hinv hm hr hround
  · intro requesterSessionId snapshot id requester repository number head reviewer round completedAt hverified
    obtain ⟨hcited, r, hfind, hrequester, hrepository, hnumber, hhead, hstate, hvote, hround, rfl, rfl, rfl, rfl, rfl, rfl⟩ :=
      mergeEvidence_verified hverified
    have hr := List.mem_of_find?_eq_some hfind
    have hid := List.find?_some hfind
    rw [beq_iff_eq] at hid
    refine ⟨⟨r, hr, hid, hcited, hrequester, hhead, hhead, hvote, hinv.backed r hr hvote⟩, fun m rows' hm => ?_⟩
    have hfind' := find_of_mem (run_inv hm hinv) (run_closed hinv hm hr (not_active_of_completed hstate))
    rw [hid] at hfind'
    exact mergeEvidence_of_row hcited hfind' hrequester hrepository hnumber hhead hstate hvote hround

def anyHead : Text := List.replicate 40 97

def anyReview : NewReviewSession := ⟨none, lit "v", lit "s", lit "r", lit "a/b", 5, anyHead, .codex⟩

theorem one_digit : 1 < 10 := by decide

theorem one_nonempty : ([⟨1, one_digit⟩] : List (Fin 10)) ≠ [] := List.cons_ne_nil _ _

theorem one_head : ([⟨1, one_digit⟩] : List (Fin 10)).head? ≠ some 0 := by decide

theorem one_last : ([⟨1, one_digit⟩] : List (Fin 10)).getLast? ≠ some 0 := by decide

def one : Value := .number (.signed false ⟨[⟨1, one_digit⟩], 1, one_nonempty, one_head, one_last⟩)

/-- The report of a runner: a full round over one file, a valid verdict, and an upvoting report as its output. -/
def anyReport : ReviewSessionUpdate where
  sessionId := lit "v"
  state := some .completed
  output := some (.string (lit "\x7b\"schema_version\":2,\"reviewed_head\":\"" ++ anyHead ++
    lit "\",\"vote\":\"UPVOTE\",\"summary\":\"\",\"findings\":[],\"examined_changed_files\":[\"f\"],\"not_examined_changed_files\":[]," ++
    lit "\"context_files_examined\":[],\"commands_run\":[],\"verification_requests\":[]\x7d"))
  outputTruncated := none
  reason := none
  round := some (.object [(lit "epoch", some one), (lit "round", some one), (lit "attempt", some one),
    (lit "mode", some (.string (lit "full"))), (lit "baseSha", some (.string anyHead)), (lit "scopeFiles", some (.array [.string (lit "f")]))])
  verdict := some (.object [(lit "valid", some (.bool true)), (lit "consumed", some (.bool true)),
    (lit "effectiveVote", some (.string (lit "UPVOTE"))), (lit "failureClass", some .null), (lit "validationErrors", some (.array []))])
  admission := none

theorem upvotes_backed_sample :
    (accept id (lit "r") anyReport 1 ((record anyReview 0 []).getD [])).map validVote = [some .upvote] ∧
    ∀ r ∈ accept id (lit "r") anyReport 1 ((record anyReview 0 []).getD []), validVote r = some .upvote →
      r.state = .completed ∧ Backed id (accept id (lit "r") anyReport 1 ((record anyReview 0 []).getD [])) r := by
  refine ⟨by decide +kernel, ?_⟩
  have hrecord : step id [] (.record anyReview 0) = some ((record anyReview 0 []).getD [], []) := rfl
  have hstart : Run (step id) [] [] [] := .nil
  have hrecorded := hstart.snoc trivial hrecord
  have haccepted := hrecorded.snoc (e := .accept (lit "r") anyReport 1) trivial rfl
  exact (upvotes_backed id haccepted).1

end Wollipog.Reviews
