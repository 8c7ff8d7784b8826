import Wollipog.Transcript.Mirror
import Wollipog.Transcript.Thinned
/-!
# Archive — batches of a prune against one pass

An archived session is pruned in batches, with events hydrated between them. Each removes only what the rule does not
keep of the whole log, and records the tool calls it removed.
-/
namespace Wollipog.Transcript

def position (s : Session) : Nat := (openRun s (historyPruneFinalResponse s)).prune.runSeq.getD 0

/-- What an open run has read through is kept, as long as the final response is the one it was opened for. -/
def ReadThrough (log : List EventRow) (s : Session) : Prop :=
  s.prune.runEvents.isSome = true → s.prune.runResponseSeq = some (finalOf log 0).seq →
    ∀ row ∈ s.events, row.seq ≤ s.prune.runSeq.getD 0 → keepRule (finalOf log 0) row = true

variable {log : List EventRow} {s : Session} {input : PruneInput}

theorem final_agrees (h : Thinned log s.events (s.prune.removedSeq.getD 0)) :
    (historyPruneFinalResponse s).seq = (finalOf log 0).seq ∧
      ∀ row ∈ s.events, keepRule (historyPruneFinalResponse s) row = true ↔ keepRule (finalOf log 0) row = true := by
  rw [historyPruneFinalResponse_eq h.events_ascending]
  exact h.agrees

theorem read_through_position (h : Thinned log s.events (s.prune.removedSeq.getD 0)) (hread : ReadThrough log s) :
    ∀ row ∈ s.events, row.seq ≤ position s → keepRule (finalOf log 0) row = true := by
  intro row hrow hle
  unfold position openRun at hle
  simp only at hle
  split at hle
  · exact absurd (h.positive row (h.cached.subset hrow)) (Nat.not_lt.2 hle)
  · rename_i hsame
    rw [Bool.or_eq_true, not_or] at hsame
    obtain ⟨hopen, hresponse⟩ := hsame
    refine hread ?_ ?_ row hrow hle
    · cases hrun : s.prune.runEvents with
      | none =>
        rw [hrun] at hopen
        exact absurd rfl hopen
      | some n => rfl
    · rw [bne_iff_ne, ne_eq, not_not] at hresponse
      rw [hresponse, (final_agrees h).1]

def removable (s : Session) : List EventRow :=
  s.events.filter (fun row => decide (position s < row.seq) &&
    (windowEnd (openRun s (historyPruneFinalResponse s)) (position s)).all (row.seq ≤ ·) && !keepRule (historyPruneFinalResponse s) row)

theorem takeBatch_eq_nil {rows : List EventRow} (h : takeBatch input false 0 0 rows = []) : rows = [] := by
  cases rows with
  | nil => rfl
  | cons candidate rest =>
    rw [takeBatch] at h
    simp only [Bool.false_and, Bool.false_eq_true, if_false] at h
    cases h

inductive Batched (log : List EventRow) (s : Session) : Session × Batch → Prop
  | done : (∀ row ∈ s.events, keepRule (finalOf log 0) row = true) →
      Batched log s (openRun s (historyPruneFinalResponse s), .closed true)
  | advanced (last : Nat) : position s < last → (∃ row ∈ s.events, row.seq = last) →
      (∀ row ∈ s.events, row.seq ≤ last → keepRule (finalOf log 0) row = true) →
      Batched log s ({ openRun s (historyPruneFinalResponse s) with
        prune := { (openRun s (historyPruneFinalResponse s)).prune with runSeq := some last } }, .removed [])
  | took (E : List EventRow) (final : EventRow) (readThrough : Nat) : final ∈ E → (∀ e ∈ E, e ∈ s.events) →
      (∀ e ∈ E, keepRule (finalOf log 0) e ≠ true) → (∀ e ∈ E, e.seq ≤ final.seq) → position s ≤ readThrough → final.seq ≤ readThrough →
      (∃ row ∈ s.events, row.seq = readThrough) →
      (∀ row ∈ s.events.filter (fun row => row.seq ∉ E.map EventRow.seq), row.seq ≤ readThrough → keepRule (finalOf log 0) row = true) →
      Batched log s (removeEvents (openRun s (historyPruneFinalResponse s)) E final.seq readThrough, .removed E)

theorem windowEnd_mem {after last : Nat} (h : Ascending s.events) (hw : windowEnd s after = some last) :
    after < last ∧ ∃ row ∈ s.events, row.seq = last := by
  unfold windowEnd at hw
  rw [orderBySeq_of_ascending h] at hw
  obtain ⟨row, hrow, rfl⟩ := Option.map_eq_some_iff.1 hw
  obtain ⟨hin, hafter⟩ := List.mem_filter.1 (List.mem_of_getElem? hrow)
  exact ⟨of_decide_eq_true hafter, row, hin, rfl⟩

theorem batch_eq (h : Thinned log s.events (s.prune.removedSeq.getD 0)) (heligible : input.eligible = true) :
    removeArchivedHistoryBatch s input = removeBatch (openRun s (historyPruneFinalResponse s)) input
      ((removable s).take input.maxEvents) (windowEnd (openRun s (historyPruneFinalResponse s)) (position s)) := by
  have hremovable : pruneCandidates (openRun s (historyPruneFinalResponse s)) (historyPruneFinalResponse s) (position s) input.maxEvents =
      (removable s).take input.maxEvents := by
    unfold pruneCandidates removable
    have hsame : orderBySeq (openRun s (historyPruneFinalResponse s)).events = s.events := orderBySeq_of_ascending h.events_ascending
    rw [hsame]
  unfold removeArchivedHistoryBatch
  rw [heligible, ← hremovable]
  rfl

theorem mem_removable (h : Thinned log s.events (s.prune.removedSeq.getD 0)) :
    ∀ row ∈ removable s, row ∈ s.events ∧ position s < row.seq ∧
      (∀ last, windowEnd (openRun s (historyPruneFinalResponse s)) (position s) = some last → row.seq ≤ last) ∧
      keepRule (finalOf log 0) row ≠ true := by
  intro row hrow
  obtain ⟨hin, hp⟩ := List.mem_filter.1 hrow
  rw [Bool.and_eq_true, Bool.and_eq_true, decide_eq_true_eq, Bool.not_eq_true'] at hp
  obtain ⟨⟨hafter, hwindow⟩, hkeep⟩ := hp
  refine ⟨hin, hafter, ?_, fun hk => ?_⟩
  · intro last hlast
    rw [hlast] at hwindow
    exact of_decide_eq_true hwindow
  · rw [((final_agrees h).2 row hin).2 hk] at hkeep
    cases hkeep

theorem kept_of_not_removable (h : Thinned log s.events (s.prune.removedSeq.getD 0)) : ∀ row ∈ s.events, position s < row.seq →
      (∀ last, windowEnd (openRun s (historyPruneFinalResponse s)) (position s) = some last → row.seq ≤ last) →
      row ∉ removable s → keepRule (finalOf log 0) row = true := by
  intro row hin hafter hwindow hout
  by_contra hk
  refine hout (List.mem_filter.2 ⟨hin, ?_⟩)
  rw [Bool.and_eq_true, Bool.and_eq_true, decide_eq_true_eq, Bool.not_eq_true']
  refine ⟨⟨hafter, ?_⟩, Bool.eq_false_iff.2 (fun hk' => hk (((final_agrees h).2 row hin).1 hk'))⟩
  cases hw : windowEnd (openRun s (historyPruneFinalResponse s)) (position s) with
  | none => rfl
  | some last => exact decide_eq_true (hwindow last hw)

theorem batch_spec (h : Thinned log s.events (s.prune.removedSeq.getD 0)) (hread : ReadThrough log s) (heligible : input.eligible = true)
    (hlimit : 0 < input.maxEvents) : Batched log s (removeArchivedHistoryBatch s input) := by
  have hascending := h.events_ascending
  have hthrough := read_through_position h hread
  have hmem := mem_removable h
  have hother := kept_of_not_removable h
  rw [batch_eq h heligible]
  unfold removeBatch
  simp only
  cases hlast : (takeBatch input false 0 0 ((removable s).take input.maxEvents)).getLast? with
  | none =>
    have hempty : removable s = [] := by
      have hnil := takeBatch_eq_nil (List.getLast?_eq_none_iff.1 hlast)
      exact (List.take_eq_nil_iff.1 hnil).resolve_left (Nat.ne_of_gt hlimit)
    cases hw : windowEnd (openRun s (historyPruneFinalResponse s)) (position s) with
    | none =>
      refine .done (fun row hrow => ?_)
      rcases Nat.lt_or_ge (position s) row.seq with hlt | hge
      · exact hother row hrow hlt (fun last hl => by rw [hw] at hl; cases hl) (hempty ▸ List.not_mem_nil)
      · exact hthrough row hrow hge
    | some last =>
      obtain ⟨hafter, hrow⟩ := @windowEnd_mem (openRun s (historyPruneFinalResponse s)) _ _ hascending hw
      refine .advanced last hafter hrow (fun row hin hle => ?_)
      rcases Nat.lt_or_ge (position s) row.seq with hlt | hge
      · refine hother row hin hlt (fun l hl => ?_) (hempty ▸ List.not_mem_nil)
        rw [← Option.some.inj (hw.symm.trans hl)]
        exact hle
      · exact hthrough row hin hge
  | some final =>
    obtain ⟨E, hE⟩ : ∃ E, takeBatch input false 0 0 ((removable s).take input.maxEvents) = E := ⟨_, rfl⟩
    have hprefix : E <+: removable s := by
      rw [← hE]
      exact (takeBatch_initial input _ false 0 0).trans (List.take_prefix _ _)
    have hfinal : final ∈ E := by
      rw [hE] at hlast
      exact List.mem_of_getLast? hlast
    obtain ⟨rest, hrest⟩ := hprefix
    have hsorted : Ascending (E ++ rest) := by
      rw [hrest]
      exact hascending.sublist List.filter_sublist
    have hin : ∀ e ∈ E, e ∈ removable s := fun e he => hrest ▸ List.mem_append_left _ he
    have hmax : ∀ e ∈ E, e.seq ≤ final.seq := by
      intro e he
      rw [hE] at hlast
      obtain ⟨before, rfl⟩ := List.getLast?_eq_some_iff.1 hlast
      rcases List.mem_append.1 he with he | he
      · exact Nat.le_of_lt ((List.pairwise_append.1 (List.pairwise_append.1 hsorted).1).2.2 e he final List.mem_cons_self)
      · rw [List.mem_singleton.1 he]
    have hclean : ∀ row ∈ s.events.filter (fun row => row.seq ∉ E.map EventRow.seq), row.seq ≤ final.seq →
        keepRule (finalOf log 0) row = true := by
      intro row hrow hle
      obtain ⟨hrow, hout⟩ := List.mem_filter.1 hrow
      rcases Nat.lt_or_ge (position s) row.seq with hlt | hge
      · refine hother row hrow hlt (fun last hl => hle.trans ((hmem final (hin final hfinal)).2.2.1 last hl)) (fun hrem => ?_)
        rw [← hrest] at hrem
        rcases List.mem_append.1 hrem with hrem | hrem
        · exact of_decide_eq_true hout (List.mem_map_of_mem hrem)
        · exact Nat.not_lt.2 hle ((List.pairwise_append.1 hsorted).2.2 final hfinal row hrem)
      · exact hthrough row hrow hge
    have hafter := (hmem final (hin final hfinal)).2.1
    rw [hE]
    refine .took E final _ hfinal (fun e he => (hmem e (hin e he)).1) (fun e he => (hmem e (hin e he)).2.2.2) hmax ?_ ?_ ?_ ?_
    · split
      · cases hw : windowEnd (openRun s (historyPruneFinalResponse s)) (position s) with
        | none => exact Nat.le_of_lt hafter
        | some last => exact (Nat.le_of_lt hafter).trans ((hmem final (hin final hfinal)).2.2.1 last hw)
      · exact Nat.le_of_lt hafter
    · split
      · cases hw : windowEnd (openRun s (historyPruneFinalResponse s)) (position s) with
        | none => exact Nat.le_refl _
        | some last => exact (hmem final (hin final hfinal)).2.2.1 last hw
      · exact Nat.le_refl _
    · split
      · cases hw : windowEnd (openRun s (historyPruneFinalResponse s)) (position s) with
        | none => exact ⟨final, (hmem final (hin final hfinal)).1, rfl⟩
        | some last => exact (@windowEnd_mem (openRun s (historyPruneFinalResponse s)) _ _ hascending hw).2
      · exact ⟨final, (hmem final (hin final hfinal)).1, rfl⟩
    · intro row hrow hle
      split at hle
      · rename_i hall
        cases hw : windowEnd (openRun s (historyPruneFinalResponse s)) (position s) with
        | none =>
          rw [hw] at hle
          exact hclean row hrow hle
        | some last =>
          rw [hw] at hle
          obtain ⟨hrow, hout⟩ := List.mem_filter.1 hrow
          rcases Nat.lt_or_ge (position s) row.seq with hlt | hge
          · refine hother row hrow hlt (fun l hl => ?_) (fun hrem => ?_)
            · rw [← Option.some.inj (hw.symm.trans hl)]
              exact hle
            · -- The batch took every removable row of the window.
              have hwhole : (removable s).take input.maxEvents = removable s := by
                rw [List.length_take] at hall
                exact List.take_of_length_le (by omega)
              rw [hwhole] at hall
              have hlen := congrArg List.length hrest
              rw [List.length_append, hall.1] at hlen
              have hnil : rest = [] := List.length_eq_zero_iff.1 (by omega)
              rw [← hrest, hnil, List.append_nil] at hrem
              exact of_decide_eq_true hout (List.mem_map_of_mem hrem)
          · exact hthrough row hrow hge
      · exact hclean row hrow hle

/-! ## Tool calls -/

/-- The ids of the tool calls among some rows; `toolCallId` is the member of a payload. -/
def toolCallIds (toolCallId : Payload → Option String) (rows : List EventRow) : List String :=
  (rows.filter (fun row => row.payload.kind == .toolCall)).filterMap (fun row => toolCallId row.payload)

/-- The counter of distinct tool calls, which always equals those of the cached rows. -/
def storedToolCalls (toolCallId : Payload → Option String) (rows : List EventRow) : Nat := (toolCallIds toolCallId rows).dedup.length

/-- A cache with what a prune records of tool calls, beside the log as it would be without any prune. -/
structure Archive where
  cache : Cache
  /-- `session_pruned_tool_calls` -/
  prunedToolCallIds : List String
  historyPrunedToolCalls : Nat
  log : List EventRow

inductive ArchiveOp
  | prune (input : PruneInput)
  | hydrate (expected : Cache.Expected) (page : List Cache.HydratedRunnerEvent)
  | restart (ingestRollback : Option Watch)

namespace Archive

def start (c : Cache) : Archive := ⟨c, [], 0, c.session.events⟩

def events (a : Archive) : List EventRow := a.cache.session.events

def prune (toolCallId : Payload → Option String) (a : Archive) (input : PruneInput) : Archive :=
  match removeArchivedHistoryBatch a.cache.session input with
  | (batched, .removed events) => { a with
      cache := { a.cache with session := batched }
      -- `INSERT OR IGNORE`
      prunedToolCallIds := toolCallIds toolCallId events ∪ a.prunedToolCallIds
      historyPrunedToolCalls := a.historyPrunedToolCalls +
        (storedToolCalls toolCallId a.events - storedToolCalls toolCallId batched.events) }
  | (batched, .closed complete) => { a with cache := { a.cache with session := finishArchivedHistoryPrune batched complete } }

def step (toolCallId : Payload → Option String) (a : Archive) : ArchiveOp → Archive
  | .prune input => a.prune toolCallId input
  | .hydrate expected page =>
    let after := (a.cache.appendHydratedPage expected page).1
    { a with cache := after, log := a.log ++ after.session.events.drop a.events.length }
  | .restart ingestRollback => { a with cache := { a.cache with ingestRollback := ingestRollback } }

def run (toolCallId : Payload → Option String) (a : Archive) (ops : List ArchiveOp) : Archive := ops.foldl (step toolCallId) a

def unpruned (a : Archive) : Session := { a.cache.session with events := a.log, prune := {} }

end Archive

/-- A payload that brings back no removed message id, nor the id of a tool call whose rows are all removed. -/
def Unretired (toolCallId : Payload → Option String) (log events : List EventRow) (payload : Payload) : Prop :=
  (payload.kind = .agentMessage → payload.parentToolUseId = none → ∀ messageId, payload.messageId = some (some messageId) →
    ∀ g ∈ log, topLevelMessage g = true → g.payload.messageId = some (some messageId) → g ∈ events) ∧
  (payload.kind = .toolCall → ∀ id, toolCallId payload = some id → id ∈ toolCallIds toolCallId log → id ∈ toolCallIds toolCallId events)

/-- The condition of a step: a prune takes an event, and hydrated events bring nothing back. -/
def Meets (toolCallId : Payload → Option String) (a : Archive) : ArchiveOp → Prop
  | .prune input => 0 < input.maxEvents
  | .hydrate _ page => ∀ event ∈ page, event.payload.messageId ≠ some none ∧ Unretired toolCallId a.log a.events event.payload
  | .restart _ => True

def MeetsAll (toolCallId : Payload → Option String) : Archive → List ArchiveOp → Prop
  | _, [] => True
  | a, op :: ops => Meets toolCallId a op ∧ MeetsAll toolCallId (a.step toolCallId op) ops

def Names (log : List EventRow) (seq : Nat) : Prop := seq = 0 ∨ ∃ row ∈ log, row.seq = seq

/-- What holds between steps of the log, the session and what is recorded of tool calls. -/
structure Counted (toolCallId : Payload → Option String) (log : List EventRow) (s : Session) (ids : List String) (count : Nat) : Prop where
  thinned : Thinned log s.events (s.prune.removedSeq.getD 0)
  read : ReadThrough log s
  opened : ∀ seq, s.prune.runResponseSeq = some seq → Names log seq
  reached : Names log (s.prune.runSeq.getD 0)
  covered : ∀ g ∈ log, g ∉ s.events → g.seq ≤ s.prune.throughSeq.getD 0
  through : s.prune.removedSeq.getD 0 ≤ s.prune.throughSeq.getD 0
  nodup : ids.Nodup
  recorded : ∀ id, id ∈ ids ↔ ∃ g ∈ log, g ∉ s.events ∧ g.payload.kind = .toolCall ∧ toolCallId g.payload = some id
  counted : storedToolCalls toolCallId s.events + count = storedToolCalls toolCallId log

variable {toolCallId : Payload → Option String} {rows : List EventRow}

theorem mem_toolCallIds {id : String} : id ∈ toolCallIds toolCallId rows ↔
    ∃ row ∈ rows, row.payload.kind = .toolCall ∧ toolCallId row.payload = some id := by
  unfold toolCallIds
  rw [List.mem_filterMap]
  constructor
  · rintro ⟨row, hrow, hid⟩
    obtain ⟨hin, hkind⟩ := List.mem_filter.1 hrow
    exact ⟨row, hin, beq_iff_eq.1 hkind, hid⟩
  · rintro ⟨row, hin, hkind, hid⟩
    exact ⟨row, List.mem_filter.2 ⟨hin, beq_iff_eq.2 hkind⟩, hid⟩

theorem storedToolCalls_eq (rows : List EventRow) : storedToolCalls toolCallId rows = (toolCallIds toolCallId rows).toFinset.card :=
  (List.card_toFinset _).symm

theorem storedToolCalls_mono {rows' : List EventRow} (h : ∀ row ∈ rows, row ∈ rows') :
    storedToolCalls toolCallId rows ≤ storedToolCalls toolCallId rows' := by
  rw [storedToolCalls_eq, storedToolCalls_eq]
  refine Finset.card_le_card (fun id hid => ?_)
  obtain ⟨row, hrow, hkind, heq⟩ := mem_toolCallIds.1 (List.mem_toFinset.1 hid)
  exact List.mem_toFinset.2 (mem_toolCallIds.2 ⟨row, h row hrow, hkind, heq⟩)

theorem storedToolCalls_append {rows' : List EventRow} {x : EventRow}
    (h : ∀ id, x.payload.kind = .toolCall → toolCallId x.payload = some id →
      (id ∈ toolCallIds toolCallId rows ↔ id ∈ toolCallIds toolCallId rows')) :
    storedToolCalls toolCallId (rows ++ [x]) + storedToolCalls toolCallId rows' =
      storedToolCalls toolCallId (rows' ++ [x]) + storedToolCalls toolCallId rows := by
  simp only [storedToolCalls_eq]
  by_cases hone : x.payload.kind = .toolCall ∧ ∃ id, toolCallId x.payload = some id
  · obtain ⟨hkind, id, hid⟩ := hone
    have hset : ∀ l : List EventRow, (toolCallIds toolCallId (l ++ [x])).toFinset = insert id (toolCallIds toolCallId l).toFinset := by
      intro l
      ext j
      rw [List.mem_toFinset, Finset.mem_insert, List.mem_toFinset, mem_toolCallIds, mem_toolCallIds]
      constructor
      · rintro ⟨row, hrow, hk, hj⟩
        rcases List.mem_append.1 hrow with hrow | hrow
        · exact .inr ⟨row, hrow, hk, hj⟩
        · rw [List.mem_singleton.1 hrow, hid] at hj
          exact .inl (Option.some.inj hj).symm
      · rintro (rfl | ⟨row, hrow, hk, hj⟩)
        · exact ⟨x, List.mem_append_cons_self, hkind, hid⟩
        · exact ⟨row, List.mem_append_left _ hrow, hk, hj⟩
    rw [hset rows, hset rows']
    have hiff := h id hkind hid
    rw [← List.mem_toFinset, ← List.mem_toFinset] at hiff
    by_cases hin : id ∈ (toolCallIds toolCallId rows).toFinset
    · rw [Finset.insert_eq_of_mem hin, Finset.insert_eq_of_mem (hiff.1 hin), Nat.add_comm]
    · rw [Finset.card_insert_of_notMem hin, Finset.card_insert_of_notMem (fun hin' => hin (hiff.2 hin'))]
      omega
  · have hsame : ∀ l : List EventRow, (toolCallIds toolCallId (l ++ [x])).toFinset = (toolCallIds toolCallId l).toFinset := by
      intro l
      ext j
      rw [List.mem_toFinset, List.mem_toFinset, mem_toolCallIds, mem_toolCallIds]
      constructor
      · rintro ⟨row, hrow, hk, hj⟩
        rcases List.mem_append.1 hrow with hrow | hrow
        · exact ⟨row, hrow, hk, hj⟩
        · rw [List.mem_singleton.1 hrow] at hk hj
          exact absurd ⟨hk, j, hj⟩ hone
      · rintro ⟨row, hrow, hk, hj⟩
        exact ⟨row, List.mem_append_left _ hrow, hk, hj⟩
    rw [hsame rows, hsame rows', Nat.add_comm]

variable {ids : List String} {count : Nat}

theorem Counted.congr (h : Counted toolCallId log s ids count) {t : Session} (hevents : t.events = s.events) (hprune : t.prune = s.prune) :
    Counted toolCallId log t ids count where
  thinned := by
    rw [hevents, hprune]
    exact h.thinned
  read := by
    unfold ReadThrough
    rw [hevents, hprune]
    exact h.read
  opened := hprune ▸ h.opened
  reached := hprune ▸ h.reached
  covered := by
    rw [hevents, hprune]
    exact h.covered
  through := hprune ▸ h.through
  nodup := h.nodup
  recorded := by
    rw [hevents]
    exact h.recorded
  counted := by
    rw [hevents]
    exact h.counted

theorem Names.grow {seq : Nat} (h : Names log seq) (x : EventRow) : Names (log ++ [x]) seq := by
  rcases h with h0 | ⟨row, hrow, heq⟩
  · exact .inl h0
  · exact .inr ⟨row, List.mem_append_left _ hrow, heq⟩

theorem final_names (h : Thinned log s.events (s.prune.removedSeq.getD 0)) : Names log (finalOf log 0).seq := by
  rcases last_or_none h.ascending with hnone | ⟨last, hl⟩
  · rw [finalOf_none hnone]
    exact .inl rfl
  · have hseq := hl.seq h.ascending (h.named last hl.mem) 0
    exact .inr ⟨last, hl.mem, hseq.symm⟩

/-- **Hydrating an event.** -/
theorem Counted.insert (h : Counted toolCallId log s ids count) {runnerSeq : Option Nat} {ts : Nat} {payload : Payload}
    (hnamed : payload.messageId ≠ some none) (hfresh : Unretired toolCallId log s.events payload) :
    Counted toolCallId (log ++ [⟨s.sessionSeqHighWater + 1, runnerSeq, ts, payload⟩]) (s.insertEvent runnerSeq ts payload) ids count := by
  obtain ⟨x, hxdef⟩ : ∃ x : EventRow, (⟨s.sessionSeqHighWater + 1, runnerSeq, ts, payload⟩ : EventRow) = x := ⟨_, rfl⟩
  have hevents : (s.insertEvent runnerSeq ts payload).events = s.events ++ [x] := by
    rw [← hxdef]
    rfl
  have hprune : (s.insertEvent runnerSeq ts payload).prune = s.prune := rfl
  have hseq : x.seq = s.sessionSeqHighWater + 1 := by rw [← hxdef]
  have hpayload : x.payload = payload := by rw [← hxdef]
  have hthrough := through_le_highWater s
  have hx : ∀ row ∈ log, row.seq < x.seq := by
    intro row hrow
    rw [hseq]
    by_cases hin : row ∈ s.events
    · exact Nat.lt_succ_of_le (le_highWater hin)
    · exact Nat.lt_succ_of_le ((h.covered row hrow hin).trans hthrough)
  have hnew : x ∉ log := fun hin => Nat.lt_irrefl _ (hx x hin)
  have hpos : 0 < x.seq := by omega
  have hr : s.prune.removedSeq.getD 0 < x.seq := by
    have := h.through
    omega
  have hout : ∀ g, (g ∈ log ++ [x] ∧ g ∉ s.events ++ [x]) ↔ (g ∈ log ∧ g ∉ s.events) := by
    intro g
    simp only [List.mem_append, List.mem_singleton, not_or]
    constructor
    · rintro ⟨hin | rfl, hno, hne⟩
      · exact ⟨hin, hno⟩
      · exact absurd rfl hne
    · rintro ⟨hin, hno⟩
      exact ⟨.inl hin, hno, fun heq => hnew (heq ▸ hin)⟩
  rw [hxdef]
  refine ⟨?_, ?_, ?_, ?_, ?_, h.through, h.nodup, ?_, ?_⟩
  · rw [hevents, hprune]
    refine h.thinned.insert hx hpos hr (hpayload ▸ hnamed) ?_
    intro htop messageId hid
    unfold topLevelMessage at htop
    rw [hpayload, Bool.and_eq_true, beq_iff_eq, Option.isNone_iff_eq_none] at htop
    exact hfresh.1 htop.1 htop.2 messageId (hpayload ▸ hid)
  · intro hopen hresponse row hrow hle
    rw [hprune] at hopen hresponse hle
    rw [hevents] at hrow
    by_cases htop : topLevelMessage x = true
    · -- A new response is not the one the run was opened for.
      have hascending : Ascending (log ++ [x]) := by
        refine List.pairwise_append.2 ⟨h.thinned.ascending, List.pairwise_singleton _ _, ?_⟩
        intro a ha b hb
        rw [List.mem_singleton.1 hb]
        exact hx a ha
      have hlast := (isLast_append hx htop).seq hascending (hpayload ▸ hnamed) 0
      rcases h.opened _ hresponse with h0 | ⟨old, hold, heq⟩
      · omega
      · have := hx old hold
        omega
    · rw [finalOf_skip h.thinned.ascending hx htop] at hresponse ⊢
      rcases List.mem_append.1 hrow with hrow | hrow
      · exact h.read hopen hresponse row hrow hle
      · rw [List.mem_singleton.1 hrow] at hle
        rcases h.reached with h0 | ⟨old, hold, heq⟩
        · omega
        · have := hx old hold
          omega
  · intro seq hresponse
    exact (h.opened seq hresponse).grow x
  · exact h.reached.grow x
  · intro g hg hgout
    rw [hevents] at hgout
    obtain ⟨hg, hgout⟩ := (hout g).1 ⟨hg, hgout⟩
    exact h.covered g hg hgout
  · intro id
    rw [h.recorded, hevents]
    constructor
    · rintro ⟨g, hg, hgout, hid⟩
      obtain ⟨hg, hgout⟩ := (hout g).2 ⟨hg, hgout⟩
      exact ⟨g, hg, hgout, hid⟩
    · rintro ⟨g, hg, hgout, hid⟩
      obtain ⟨hg, hgout⟩ := (hout g).1 ⟨hg, hgout⟩
      exact ⟨g, hg, hgout, hid⟩
  · rw [hevents]
    have hsame := @storedToolCalls_append toolCallId s.events log x (fun id hkind hid => ?_)
    · have := h.counted
      omega
    · rw [hpayload] at hkind hid
      refine ⟨fun hin => ?_, hfresh.2 hkind id hid⟩
      obtain ⟨row, hrow, hk, heq⟩ := mem_toolCallIds.1 hin
      exact mem_toolCallIds.2 ⟨row, h.thinned.cached.subset hrow, hk, heq⟩

theorem Unretired.grow {payload : Payload} {events : List EventRow} (h : Unretired toolCallId log events payload) (x : EventRow) :
    Unretired toolCallId (log ++ [x]) (events ++ [x]) payload := by
  constructor
  · intro hkind hparent messageId hid g hg htop hgid
    rcases List.mem_append.1 hg with hg | hg
    · exact List.mem_append_left _ (h.1 hkind hparent messageId hid g hg htop hgid)
    · exact List.mem_append_right _ hg
  · intro hkind id hid hin
    obtain ⟨row, hrow, hk, heq⟩ := mem_toolCallIds.1 hin
    rcases List.mem_append.1 hrow with hrow | hrow
    · obtain ⟨row', hrow', hk', heq'⟩ := mem_toolCallIds.1 (h.2 hkind id hid (mem_toolCallIds.2 ⟨row, hrow, hk, heq⟩))
      exact mem_toolCallIds.2 ⟨row', List.mem_append_left _ hrow', hk', heq'⟩
    · exact mem_toolCallIds.2 ⟨row, List.mem_append_right _ hrow, hk, heq⟩

theorem Counted.insertPage {page : List Cache.HydratedRunnerEvent} : ∀ {log : List EventRow} {s : Session},
    Counted toolCallId log s ids count → (∀ event ∈ page, event.payload.messageId ≠ some none ∧ Unretired toolCallId log s.events event.payload) →
    ∃ new, (Cache.insertPage s page).events = s.events ++ new ∧ Counted toolCallId (log ++ new) (Cache.insertPage s page) ids count := by
  induction page with
  | nil =>
    intro log s h _
    refine ⟨[], (List.append_nil _).symm, ?_⟩
    rw [List.append_nil]
    exact h
  | cons event page ih =>
    intro log s h hpage
    obtain ⟨hnamed, hfresh⟩ := hpage event List.mem_cons_self
    have hone := @Counted.insert log s toolCallId ids count h (some event.seq) event.ts event.payload hnamed hfresh
    obtain ⟨new, hevents, hnew⟩ := ih hone (fun e he =>
      ⟨(hpage e (List.mem_cons_of_mem event he)).1, (hpage e (List.mem_cons_of_mem event he)).2.grow _⟩)
    refine ⟨⟨s.sessionSeqHighWater + 1, some event.seq, event.ts, event.payload⟩ :: new, ?_, ?_⟩
    · refine hevents.trans ?_
      exact (List.append_assoc s.events [_] new)
    · rw [List.append_assoc] at hnew
      exact hnew

theorem noteCommittedIngest_session (c : Cache) (runnerSeq : Option Nat) : (c.noteCommittedIngest runnerSeq).session = c.session := by
  unfold Cache.noteCommittedIngest
  split
  · rfl
  · split
    · rfl
    · split
      · rfl
      · split
        · rfl
        · rfl

/-- **Hydrating a page** adds its events to the cache and to the log. -/
theorem Counted.hydrate {c : Cache} (h : Counted toolCallId log c.session ids count) (expected : Cache.Expected)
    {page : List Cache.HydratedRunnerEvent}
    (hpage : ∀ event ∈ page, event.payload.messageId ≠ some none ∧ Unretired toolCallId log c.session.events event.payload) :
    Counted toolCallId (log ++ (c.appendHydratedPage expected page).1.session.events.drop c.session.events.length)
      (c.appendHydratedPage expected page).1.session ids count := by
  have hsame : ∀ c' : Cache, c'.session = c.session →
      Counted toolCallId (log ++ c'.session.events.drop c.session.events.length) c'.session ids count := by
    intro c' heq
    rw [heq, List.drop_length, List.append_nil]
    exact h
  unfold Cache.appendHydratedPage
  split
  · exact hsame c rfl
  · split
    · exact hsame c rfl
    · split
      · exact hsame c rfl
      · have hingest : (c.ingestSession true).events = c.session.events ∧ (c.ingestSession true).prune = c.session.prune := by
          unfold Cache.ingestSession
          split
          · exact ⟨rfl, rfl⟩
          · exact ⟨rfl, rfl⟩
        obtain ⟨new, hevents, hnew⟩ := (h.congr hingest.1 hingest.2).insertPage (by rw [hingest.1]; exact hpage)
        simp only [noteCommittedIngest_session]
        have hdrop : (Cache.insertPage (c.ingestSession true) page).events.drop c.session.events.length = new := by
          rw [hevents, hingest.1, List.drop_left]
        change Counted toolCallId (log ++ (Cache.insertPage (c.ingestSession true) page).events.drop c.session.events.length) _ ids count
        rw [hdrop]
        exact hnew.congr rfl rfl

theorem finish_spec (s : Session) (complete : Bool) : (finishArchivedHistoryPrune s complete).events = s.events ∧
    (finishArchivedHistoryPrune s complete).prune.removedSeq = s.prune.removedSeq ∧
    s.prune.throughSeq.getD 0 ≤ (finishArchivedHistoryPrune s complete).prune.throughSeq.getD 0 ∧
    (finishArchivedHistoryPrune s complete).prune.runEvents = none ∧
    (∀ seq, (finishArchivedHistoryPrune s complete).prune.runResponseSeq = some seq → s.prune.runResponseSeq = some seq) ∧
    ((finishArchivedHistoryPrune s complete).prune.runSeq.getD 0 = 0 ∨
      (finishArchivedHistoryPrune s complete).prune.runSeq = s.prune.runSeq) := by
  unfold finishArchivedHistoryPrune
  split
  · rename_i hnone
    exact ⟨rfl, rfl, Nat.le_refl _, hnone, fun _ hs => hs, .inr rfl⟩
  · rename_i runEvents hrun
    have hclosed : ∀ t : Session, t.events = s.events → t.prune.removedSeq = s.prune.removedSeq →
        s.prune.throughSeq.getD 0 ≤ t.prune.throughSeq.getD 0 → t.prune.runEvents = none → t.prune.runResponseSeq = none →
        t.prune.runSeq = none → t.events = s.events ∧ t.prune.removedSeq = s.prune.removedSeq ∧
          s.prune.throughSeq.getD 0 ≤ t.prune.throughSeq.getD 0 ∧ t.prune.runEvents = none ∧
          (∀ seq, t.prune.runResponseSeq = some seq → s.prune.runResponseSeq = some seq) ∧
          (t.prune.runSeq.getD 0 = 0 ∨ t.prune.runSeq = s.prune.runSeq) := by
      intro t he hr ht hn hq hp
      refine ⟨he, hr, ht, hn, fun seq hseq => ?_, .inl ?_⟩
      · rw [hq] at hseq
        cases hseq
      · rw [hp]
        rfl
    cases complete with
    | true =>
      simp only [if_true]
      split
      · exact hclosed _ rfl rfl (through_le_highWater s) rfl rfl rfl
      · exact hclosed _ rfl rfl (through_le_highWater s) rfl rfl rfl
    | false =>
      simp only [Bool.false_eq_true, if_false]
      split
      · exact hclosed _ rfl rfl (Nat.le_refl _) rfl rfl rfl
      · exact hclosed _ rfl rfl (Nat.le_refl _) rfl rfl rfl

/-- **Closing a run.** -/
theorem Counted.finish (h : Counted toolCallId log s ids count) (complete : Bool) :
    Counted toolCallId log (finishArchivedHistoryPrune s complete) ids count := by
  obtain ⟨hevents, hremoved, hthrough, hclosed, hopened, hseq⟩ := finish_spec s complete
  refine ⟨?_, ?_, ?_, ?_, ?_, ?_, h.nodup, ?_, ?_⟩
  · rw [hevents, hremoved]
    exact h.thinned
  · intro hopen
    rw [hclosed] at hopen
    cases hopen
  · exact fun seq hs => h.opened seq (hopened seq hs)
  · rcases hseq with h0 | hsame
    · exact .inl h0
    · rw [hsame]
      exact h.reached
  · intro g hg hout
    rw [hevents] at hout
    exact (h.covered g hg hout).trans hthrough
  · rw [hremoved]
    exact h.through.trans hthrough
  · intro id
    rw [hevents]
    exact h.recorded id
  · rw [hevents]
    exact h.counted

theorem Counted.reopen (h : Counted toolCallId log s ids count) {t : Session} (hevents : t.events = s.events)
    (hremoved : t.prune.removedSeq = s.prune.removedSeq) (hthrough : t.prune.throughSeq = s.prune.throughSeq)
    (hresponse : t.prune.runResponseSeq = some (historyPruneFinalResponse s).seq) (hnames : Names log (t.prune.runSeq.getD 0))
    (hread : ∀ row ∈ s.events, row.seq ≤ t.prune.runSeq.getD 0 → keepRule (finalOf log 0) row = true) :
    Counted toolCallId log t ids count := by
  refine ⟨?_, ?_, ?_, hnames, ?_, ?_, h.nodup, ?_, ?_⟩
  · rw [hevents, hremoved]
    exact h.thinned
  · intro _ _ row hrow hle
    rw [hevents] at hrow
    exact hread row hrow hle
  · intro seq hseq
    obtain rfl := Option.some.inj (hresponse.symm.trans hseq)
    rw [(final_agrees h.thinned).1]
    exact final_names h.thinned
  · rw [hevents, hthrough]
    exact h.covered
  · rw [hremoved, hthrough]
    exact h.through
  · rw [hevents]
    exact h.recorded
  · rw [hevents]
    exact h.counted

/-- **Removing the rows of a batch** records their tool calls and moves their count. -/
theorem Counted.remove (h : Counted toolCallId log s ids count) {E : List EventRow} {final : EventRow} {readThrough : Nat}
    (hfinal : final ∈ E) (hE : ∀ e ∈ E, e ∈ s.events) (hdrop : ∀ e ∈ E, keepRule (finalOf log 0) e ≠ true)
    (hmax : ∀ e ∈ E, e.seq ≤ final.seq) (hle : final.seq ≤ readThrough) (hnames : ∃ row ∈ s.events, row.seq = readThrough)
    (hread : ∀ row ∈ s.events.filter (fun row => row.seq ∉ E.map EventRow.seq), row.seq ≤ readThrough → keepRule (finalOf log 0) row = true) :
    Counted toolCallId log (removeEvents (openRun s (historyPruneFinalResponse s)) E final.seq readThrough)
      (toolCallIds toolCallId E ∪ ids)
      (count + (storedToolCalls toolCallId s.events -
        storedToolCalls toolCallId (removeEvents (openRun s (historyPruneFinalResponse s)) E final.seq readThrough).events)) := by
  have hevents : (removeEvents (openRun s (historyPruneFinalResponse s)) E final.seq readThrough).events =
      s.events.filter (fun row => row.seq ∉ E.map EventRow.seq) := rfl
  have hin : ∀ row ∈ s.events, row.seq ∈ E.map EventRow.seq → row ∈ E := by
    intro row hrow hseq
    obtain ⟨e, he, heq⟩ := List.mem_map.1 hseq
    exact ascending_inj h.thinned.events_ascending (hE e he) hrow heq ▸ he
  have hgone : ∀ g ∈ log, g ∉ s.events.filter (fun row => row.seq ∉ E.map EventRow.seq) → g ∉ s.events ∨ g ∈ E := by
    intro g _ hout
    by_cases hg : g ∈ s.events
    · refine .inr (hin g hg ?_)
      by_contra hno
      exact hout (List.mem_filter.2 ⟨hg, decide_eq_true hno⟩)
    · exact .inl hg
  refine ⟨?_, ?_, ?_, ?_, ?_, ?_, h.nodup.union _, ?_, ?_⟩
  · exact h.thinned.remove hE hdrop hfinal hmax (fun row hrow hr => hread row hrow (hr.trans hle))
  · intro _ _ row hrow hr
    exact hread row hrow hr
  · intro seq hseq
    cases hseq
    rw [(final_agrees h.thinned).1]
    exact final_names h.thinned
  · obtain ⟨row, hrow, heq⟩ := hnames
    exact .inr ⟨row, h.thinned.cached.subset hrow, heq⟩
  · intro g hg hout
    rcases hgone g hg hout with hout | hg'
    · exact (h.covered g hg hout).trans (Nat.le_max_left _ _)
    · exact (hmax g hg').trans (Nat.le_max_right _ _)
  · exact Nat.max_le.2 ⟨h.through.trans (Nat.le_max_left _ _), Nat.le_max_right _ _⟩
  · intro id
    rw [List.mem_union_iff, mem_toolCallIds, h.recorded, hevents]
    constructor
    · rintro (⟨g, hg, hid⟩ | ⟨g, hg, hout, hid⟩)
      · refine ⟨g, h.thinned.cached.subset (hE g hg), fun hk => ?_, hid⟩
        exact of_decide_eq_true (List.mem_filter.1 hk).2 (List.mem_map_of_mem hg)
      · exact ⟨g, hg, fun hk => hout (List.mem_filter.1 hk).1, hid⟩
    · rintro ⟨g, hg, hout, hid⟩
      rcases hgone g hg hout with hout | hg'
      · exact .inr ⟨g, hg, hout, hid⟩
      · exact .inl ⟨g, hg', hid⟩
  · have hmono : storedToolCalls toolCallId (removeEvents (openRun s (historyPruneFinalResponse s)) E final.seq readThrough).events ≤
        storedToolCalls toolCallId s.events := storedToolCalls_mono (fun row hrow => (List.mem_filter.1 hrow).1)
    have := h.counted
    omega

end Wollipog.Transcript
