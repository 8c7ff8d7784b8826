import Wollipog.Transcript.Archive
/-!
# OnePass — where the batches of a prune end

Over any run of batches, restarts and hydrated pages the archive stays counted.  Every batch removes a row or reads on, so
eligible batches end; and they end where one pass over the whole log would.
-/
namespace Wollipog.Transcript

variable {toolCallId : Payload → Option String} {a : Archive} {input : PruneInput}

def Archive.Keeps (toolCallId : Payload → Option String) (a : Archive) : Prop :=
  Counted toolCallId a.log a.cache.session a.prunedToolCallIds a.historyPrunedToolCalls

theorem keeps_start {c : Cache} (hascending : Ascending c.session.events) (hpositive : ∀ row ∈ c.session.events, 0 < row.seq)
    (hnamed : ∀ row ∈ c.session.events, row.payload.messageId ≠ some none) (hprune : c.session.prune = {}) :
    (Archive.start c).Keeps toolCallId := by
  have hin : ∀ g ∈ c.session.events, g ∉ c.session.events → False := fun g hg hout => hout hg
  unfold Archive.Keeps Archive.start
  refine ⟨⟨hascending, hpositive, hnamed, List.Sublist.refl _, ?_, ?_, fun _ h _ => h, ?_⟩, ?_, ?_, ?_, ?_, ?_, List.nodup_nil, ?_, rfl⟩
  · exact fun g hg hout => (hin g hg hout).elim
  · rw [hprune]
    exact .inl rfl
  · intro row _ _ hover
    rw [hprune] at hover
    cases hover
  · intro hopen
    rw [hprune] at hopen
    cases hopen
  · intro seq hseq
    rw [hprune] at hseq
    cases hseq
  · rw [hprune]
    exact .inl rfl
  · exact fun g hg hout => (hin g hg hout).elim
  · rw [hprune]
  · intro id
    constructor
    · intro h
      cases h
    · rintro ⟨g, hg, hout, -⟩
      exact (hin g hg hout).elim

theorem removeBatch_ineligible {s : Session} (h : input.eligible ≠ true) : removeArchivedHistoryBatch s input = (s, .closed false) := by
  unfold removeArchivedHistoryBatch
  rw [Bool.eq_false_iff.2 h]
  rfl

theorem keeps_prune (h : a.Keeps toolCallId) (hlimit : 0 < input.maxEvents) : (a.prune toolCallId input).Keeps toolCallId := by
  unfold Archive.Keeps at h ⊢
  unfold Archive.prune
  by_cases heligible : input.eligible = true
  · have hbatch := batch_spec h.thinned h.read heligible hlimit
    have hposition := read_through_position h.thinned h.read
    revert hbatch
    generalize removeArchivedHistoryBatch a.cache.session input = r
    intro hbatch
    have hnames : Names a.log (position a.cache.session) := by
      unfold position openRun
      simp only
      split
      · exact .inl rfl
      · exact h.reached
    cases hbatch with
    | done _ =>
      have hopen := @Counted.reopen a.log a.cache.session toolCallId a.prunedToolCallIds a.historyPrunedToolCalls h
        (openRun a.cache.session (historyPruneFinalResponse a.cache.session)) rfl rfl rfl rfl hnames hposition
      exact hopen.finish true
    | advanced last _ hrow hread =>
      have hrows : Names a.log last := by
        obtain ⟨row, hrow, heq⟩ := hrow
        exact .inr ⟨row, h.thinned.cached.subset hrow, heq⟩
      have hopen := @Counted.reopen a.log a.cache.session toolCallId a.prunedToolCallIds a.historyPrunedToolCalls h
        { openRun a.cache.session (historyPruneFinalResponse a.cache.session) with
          prune := { (openRun a.cache.session (historyPruneFinalResponse a.cache.session)).prune with runSeq := some last } }
        rfl rfl rfl rfl hrows hread
      have hcount : a.historyPrunedToolCalls + (storedToolCalls toolCallId a.events - storedToolCalls toolCallId a.cache.session.events) =
          a.historyPrunedToolCalls := by
        change a.historyPrunedToolCalls + (storedToolCalls toolCallId a.cache.session.events - _) = _
        rw [Nat.sub_self, Nat.add_zero]
      have hids : toolCallIds toolCallId [] ∪ a.prunedToolCallIds = a.prunedToolCallIds := List.nil_union _
      dsimp only
      rw [hids]
      change Counted toolCallId a.log _ a.prunedToolCallIds (a.historyPrunedToolCalls +
        (storedToolCalls toolCallId a.events - storedToolCalls toolCallId a.cache.session.events))
      rw [hcount]
      exact hopen
    | took E final readThrough hfinal hE hdrop hmax _ hle hrow hread => exact h.remove hfinal hE hdrop hmax hle hrow hread
  · rw [removeBatch_ineligible heligible]
    exact h.finish false

theorem keeps_step (h : a.Keeps toolCallId) {op : ArchiveOp} (hmeets : Meets toolCallId a op) : (a.step toolCallId op).Keeps toolCallId := by
  cases op with
  | prune input => exact keeps_prune h hmeets
  | hydrate expected page => exact Counted.hydrate h expected hmeets
  | restart ingestRollback => exact h

/-- **Every run of steps that meet the condition keeps the archive counted.** -/
theorem keeps_run {ops : List ArchiveOp} : ∀ {a : Archive}, a.Keeps toolCallId → MeetsAll toolCallId a ops →
    (a.run toolCallId ops).Keeps toolCallId := by
  induction ops with
  | nil => exact fun h _ => h
  | cons op ops ih => exact fun h hmeets => ih (keeps_step h hmeets.1) hmeets.2

def remaining (s : Session) : Nat := s.events.length + (s.events.filter (fun row => position s < row.seq)).length

theorem position_open {log : List EventRow} {s : Session} (h : Thinned log s.events (s.prune.removedSeq.getD 0))
    (hopen : s.prune.runEvents.isSome = true) (hresponse : s.prune.runResponseSeq = some (finalOf log 0).seq) :
    position s = s.prune.runSeq.getD 0 := by
  unfold position openRun
  simp only
  rw [if_neg]
  rw [Bool.or_eq_true, not_or, hresponse, (final_agrees h).1]
  refine ⟨?_, ?_⟩
  · obtain ⟨n, hn⟩ := Option.isSome_iff_exists.1 hopen
    rw [hn]
    exact Bool.false_ne_true
  · rw [bne_self_eq_false]
    exact Bool.false_ne_true

theorem length_filter_lt {l m : List EventRow} {p q : EventRow → Bool} (hsub : l.Sublist m) (himp : ∀ row, p row = true → q row = true)
    {row : EventRow} (hrow : row ∈ m) (hq : q row = true) (hp : p row ≠ true) : (l.filter p).length < (m.filter q).length := by
  have hfilter : (l.filter p).Sublist (m.filter q) := (hsub.filter p).trans (List.monotone_filter_right m himp)
  refine lt_of_le_of_ne hfilter.length_le (fun heq => hp ?_)
  have hin : row ∈ l.filter p := (hfilter.eq_of_length heq).symm ▸ List.mem_filter.2 ⟨hrow, hq⟩
  exact (List.mem_filter.1 hin).2

/-- **A batch that is not the last** removes a row or reads on, and leaves less to do. -/
theorem batch_progress (h : a.Keeps toolCallId) (heligible : input.eligible = true) (hlimit : 0 < input.maxEvents) {E : List EventRow}
    (hbatch : (removeArchivedHistoryBatch a.cache.session input).2 = .removed E) :
    (E ≠ [] ∨ position a.cache.session < position (a.prune toolCallId input).cache.session) ∧
      remaining (a.prune toolCallId input).cache.session < remaining a.cache.session := by
  have hkeeps := keeps_prune h hlimit
  have hspec := batch_spec h.thinned h.read heligible hlimit
  unfold Archive.Keeps at hkeeps
  unfold Archive.prune at hkeeps ⊢
  revert hspec hbatch hkeeps
  generalize removeArchivedHistoryBatch a.cache.session input = r
  intro hbatch hkeeps hspec
  have hresponse : some (historyPruneFinalResponse a.cache.session).seq = some (finalOf a.log 0).seq :=
    congrArg some (final_agrees h.thinned).1
  cases hspec with
  | done _ => cases hbatch
  | advanced last hafter hrow _ =>
    have hnext := position_open hkeeps.thinned rfl hresponse
    have hat : position { openRun a.cache.session (historyPruneFinalResponse a.cache.session) with
        prune := { (openRun a.cache.session (historyPruneFinalResponse a.cache.session)).prune with runSeq := some last } } = last := hnext
    dsimp only
    refine ⟨.inr (hat.symm ▸ hafter), ?_⟩
    obtain ⟨row, hrow, heq⟩ := hrow
    unfold remaining
    rw [hat]
    refine Nat.add_lt_add_left (length_filter_lt (List.Sublist.refl _) (fun r hr => ?_) hrow (decide_eq_true (heq.symm ▸ hafter)) ?_) _
    · exact decide_eq_true (lt_trans hafter (of_decide_eq_true hr))
    · rw [heq, ne_eq, decide_eq_true_eq]
      exact Nat.lt_irrefl last
  | took E' final readThrough hfinal hE hdrop hmax hafter hle hrow hread =>
    obtain rfl : E' = E := by
      injection hbatch
    have hnext := position_open hkeeps.thinned rfl hresponse
    have hat : position (removeEvents (openRun a.cache.session (historyPruneFinalResponse a.cache.session)) E' final.seq readThrough) =
        readThrough := hnext
    dsimp only
    refine ⟨.inl (List.ne_nil_of_mem hfinal), ?_⟩
    unfold remaining
    rw [hat]
    have hfewer : (a.cache.session.events.filter (fun row => row.seq ∉ E'.map EventRow.seq)).length < a.cache.session.events.length := by
      refine List.length_filter_lt_length_iff_exists.2 ⟨final, hE final hfinal, ?_⟩
      rw [decide_eq_true_eq, not_not]
      exact List.mem_map_of_mem hfinal
    have hread' : ((a.cache.session.events.filter (fun row => row.seq ∉ E'.map EventRow.seq)).filter (fun row => readThrough < row.seq)).length ≤
        (a.cache.session.events.filter (fun row => position a.cache.session < row.seq)).length := by
      refine (List.Sublist.trans (List.filter_sublist.filter _) (List.monotone_filter_right _ (fun r hr => ?_))).length_le
      exact decide_eq_true (lt_of_le_of_lt hafter (of_decide_eq_true hr))
    exact Nat.add_lt_add_of_lt_of_le hfewer hread'

def prunes (toolCallId : Payload → Option String) (a : Archive) (inputs : ℕ → PruneInput) : ℕ → Archive
  | 0 => a
  | n + 1 => (prunes toolCallId a inputs n).prune toolCallId (inputs n)

theorem keeps_prunes (h : a.Keeps toolCallId) {inputs : ℕ → PruneInput} (hlimits : ∀ n, 0 < (inputs n).maxEvents) :
    ∀ n, (prunes toolCallId a inputs n).Keeps toolCallId
  | 0 => h
  | n + 1 => keeps_prune (keeps_prunes h hlimits n) (hlimits n)

/-- **Eligible batches come to an end.** -/
theorem prunes_end (h : a.Keeps toolCallId) {inputs : ℕ → PruneInput}
    (hinputs : ∀ n, (inputs n).eligible = true ∧ 0 < (inputs n).maxEvents) :
    ∃ n, (removeArchivedHistoryBatch (prunes toolCallId a inputs n).cache.session (inputs n)).2 = .closed true := by
  by_contra hnever
  rw [not_exists] at hnever
  have hkeeps := keeps_prunes h (fun n => (hinputs n).2)
  have hless : ∀ n, remaining (prunes toolCallId a inputs (n + 1)).cache.session < remaining (prunes toolCallId a inputs n).cache.session := by
    intro n
    obtain ⟨heligible, hlimit⟩ := hinputs n
    have hspec := batch_spec (hkeeps n).thinned (hkeeps n).read heligible hlimit
    cases hbatch : (removeArchivedHistoryBatch (prunes toolCallId a inputs n).cache.session (inputs n)).2 with
    | removed E => exact (batch_progress (hkeeps n) heligible hlimit hbatch).2
    | closed complete =>
      exfalso
      refine hnever n ?_
      revert hspec hbatch
      generalize removeArchivedHistoryBatch (prunes toolCallId a inputs n).cache.session (inputs n) = r
      intro hspec hbatch
      cases hspec with
      | done _ => rfl
      | advanced _ _ _ _ => cases hbatch
      | took _ _ _ _ _ _ _ _ _ _ _ => cases hbatch
  have hbound : ∀ n, remaining (prunes toolCallId a inputs n).cache.session + n ≤ remaining a.cache.session := by
    intro n
    induction n with
    | zero => exact Nat.le_refl _
    | succ n ih =>
      have := hless n
      omega
  have := hbound (remaining a.cache.session + 1)
  omega

/-- **Batched pruning ends where one pass would**, over runs that bring back no removed message or tool call; every batch
but the last removes a row or reads on. -/
theorem batches_end_as_one_pass (toolCallId : Payload → Option String) (c : Cache) (hascending : Ascending c.session.events)
    (hpositive : ∀ row ∈ c.session.events, 0 < row.seq) (hnamed : ∀ row ∈ c.session.events, row.payload.messageId ≠ some none)
    (hprune : c.session.prune = {}) (ops : List ArchiveOp) (hmeets : MeetsAll toolCallId (Archive.start c) ops) :
    (∀ input, 0 < input.maxEvents →
      (removeArchivedHistoryBatch ((Archive.start c).run toolCallId ops).cache.session input).2 = .closed true →
      (((Archive.start c).run toolCallId ops).prune toolCallId input).events = ((Archive.start c).run toolCallId ops).log.filter
        (keepRule (historyPruneFinalResponse ((Archive.start c).run toolCallId ops).unpruned))) ∧
    (((Archive.start c).run toolCallId ops).prunedToolCallIds.Nodup ∧
      ∀ id, id ∈ ((Archive.start c).run toolCallId ops).prunedToolCallIds ↔
        ∃ g ∈ ((Archive.start c).run toolCallId ops).log, g ∉ ((Archive.start c).run toolCallId ops).events ∧
          g.payload.kind = .toolCall ∧ toolCallId g.payload = some id) ∧
    storedToolCalls toolCallId ((Archive.start c).run toolCallId ops).events +
        ((Archive.start c).run toolCallId ops).historyPrunedToolCalls =
      storedToolCalls toolCallId ((Archive.start c).run toolCallId ops).log ∧
    (∀ input E, input.eligible = true → 0 < input.maxEvents →
      (removeArchivedHistoryBatch ((Archive.start c).run toolCallId ops).cache.session input).2 = .removed E →
      E ≠ [] ∨ position ((Archive.start c).run toolCallId ops).cache.session <
        position (((Archive.start c).run toolCallId ops).prune toolCallId input).cache.session) ∧
    ∀ inputs : ℕ → PruneInput, (∀ n, (inputs n).eligible = true ∧ 0 < (inputs n).maxEvents) →
      ∃ n, (removeArchivedHistoryBatch (prunes toolCallId ((Archive.start c).run toolCallId ops) inputs n).cache.session
        (inputs n)).2 = .closed true := by
  have hkeeps := keeps_run (keeps_start hascending hpositive hnamed hprune) hmeets
  revert hkeeps
  generalize (Archive.start c).run toolCallId ops = a
  intro hkeeps
  refine ⟨?_, ⟨hkeeps.nodup, hkeeps.recorded⟩, hkeeps.counted, ?_, fun inputs hinputs => prunes_end hkeeps hinputs⟩
  · intro input hlimit hclosed
    have heligible : input.eligible = true := by
      by_contra hno
      rw [removeBatch_ineligible hno] at hclosed
      cases hclosed
    have hspec := batch_spec hkeeps.thinned hkeeps.read heligible hlimit
    have hresponse : historyPruneFinalResponse a.unpruned = finalOf a.log 0 := historyPruneFinalResponse_eq hkeeps.thinned.ascending
    rw [hresponse]
    unfold Archive.prune
    revert hspec hclosed
    generalize removeArchivedHistoryBatch a.cache.session input = r
    intro hclosed hspec
    cases hspec with
    | done hall => exact (finish_spec _ true).1.trans (hkeeps.thinned.complete hall)
    | advanced _ _ _ _ => cases hclosed
    | took _ _ _ _ _ _ _ _ _ _ _ => cases hclosed
  · exact fun input E heligible hlimit hbatch => (batch_progress hkeeps heligible hlimit hbatch).1

def exampleInput : PruneInput :=
  { cutoff := 10, maxEvents := 1, maxPayloadBytes := 100, maxSearchLength := 100
    archive := ⟨true, some 5, true, false⟩, searchLength := fun _ => 0 }

def exampleCache (events : List EventRow) : Cache :=
  ⟨{ events := events, messageCount := some events.length, hydratedSeq := events.length, runnerHistoryEpoch := some 1,
     runnerHistoryTailSeq := 3, eventEpoch := 0, recoveredEventEpochs := 0, prune := {} }, none⟩

def messagePart (messageId : String) : Payload := { kind := .agentMessage, text := "part", messageId := some (some messageId) }

def textId (payload : Payload) : Option String := some payload.text

def toolCallStatus : Payload := { kind := .toolCall, text := "call" }

def interleavedRun : Archive :=
  (Archive.start (exampleCache [⟨1, some 1, 0, messagePart "a"⟩, ⟨2, some 2, 0, messagePart "b"⟩])).run textId
    [.prune exampleInput, .hydrate ⟨2, 1, 0⟩ [⟨3, 0, messagePart "a"⟩], .prune exampleInput]

def repeatedCallRun : Archive :=
  (Archive.start (exampleCache [⟨1, some 1, 0, toolCallStatus⟩])).run textId
    [.prune exampleInput, .hydrate ⟨1, 1, 0⟩ [⟨2, 0, toolCallStatus⟩]]

theorem hydrated_part_and_call_miss : ((removeArchivedHistoryBatch interleavedRun.cache.session exampleInput).2 = .closed true ∧
      (interleavedRun.prune textId exampleInput).events ≠
        interleavedRun.log.filter (keepRule (historyPruneFinalResponse interleavedRun.unpruned))) ∧
    storedToolCalls textId repeatedCallRun.events + repeatedCallRun.historyPrunedToolCalls ≠
      storedToolCalls textId repeatedCallRun.log := by
  refine ⟨⟨rfl, ?_⟩, ?_⟩
  · decide +kernel
  · decide +kernel

def mixedCache : Cache := exampleCache [⟨1, some 1, 0, toolCallStatus⟩, ⟨2, some 2, 0, messagePart "a"⟩]

def mixedOps : List ArchiveOp := [.prune exampleInput, .hydrate ⟨2, 1, 0⟩ [⟨3, 0, messagePart "b"⟩], .prune exampleInput]

theorem meets_mixed : MeetsAll textId (Archive.start mixedCache) mixedOps := by
  refine ⟨Nat.one_pos, ?_, Nat.one_pos, trivial⟩
  intro event hevent
  obtain rfl := List.mem_singleton.1 hevent
  refine ⟨by decide, ?_, ?_⟩
  · intro _ _ messageId hid
    obtain rfl : "b" = messageId := Option.some.inj (Option.some.inj hid)
    decide +kernel
  · intro hkind
    cases hkind

theorem batches_end_as_one_pass_mixed : (((Archive.start mixedCache).run textId mixedOps).prune textId exampleInput).events =
      ((Archive.start mixedCache).run textId mixedOps).log.filter
        (keepRule (historyPruneFinalResponse ((Archive.start mixedCache).run textId mixedOps).unpruned)) :=
  (batches_end_as_one_pass textId mixedCache (by decide) (by decide) (by decide) rfl mixedOps meets_mixed).1 exampleInput Nat.one_pos rfl

end Wollipog.Transcript
