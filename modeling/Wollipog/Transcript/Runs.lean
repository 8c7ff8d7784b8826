import Wollipog.Transcript.Mirror
/-!
# Runs — the cache over whole runs

What each transaction does to a cache that mirrors the log, and from it what holds after any interleaving of them.
-/
namespace Wollipog.Transcript

open Sys

variable {s : Session} {c c' : Cache} {gone : List EventRow} {l o : List Seen}

inductive Op
  | appendEvent (payload : Payload) (ts : Nat) (runnerSeq : Option Nat)
  | appendHydratedPage (expected : Cache.Expected) (events : List Cache.HydratedRunnerEvent)
  | reconcileRunnerHistory (historyEpoch : Option Nat) (tailSeq : Nat)
  | clearSessionEvents
  | pruneArchivedHistoryBatch (input : PruneInput)

/-- What the rows show of a transaction: a row that a prune took away, or the end of a generation. -/
inductive Seen
  | pruned (eventEpoch : Nat) (row : EventRow) | generation

def Live (_ : List Seen) (c : Cache) : Op → Prop
  | .appendEvent _ _ (some runnerSeq) => runnerSeq = c.session.hydratedSeq + 1
  | _ => True

def step (c : Cache) : Op → Option (Cache × List Seen)
  | .appendEvent payload ts runnerSeq => some (c.appendEvent payload ts runnerSeq, [])
  | .appendHydratedPage expected events => some ((c.appendHydratedPage expected events).1, [])
  | .reconcileRunnerHistory historyEpoch tailSeq =>
    let reconciled := c.reconcileRunnerHistory historyEpoch tailSeq
    some (reconciled.1, if reconciled.2.reset then [.generation] else [])
  | .clearSessionEvents => some (c.clearSessionEvents, [.generation])
  | .pruneArchivedHistoryBatch input =>
    let after := pruneArchivedHistoryBatch c.session input
    some ({ c with session := after },
      (c.session.events.filter (fun row => row ∉ after.events)).map (Seen.pruned c.session.eventEpoch))

def pruned (l : List Seen) : List EventRow :=
  l.foldl (fun rows seen => match seen with | .pruned _ row => rows ++ [row] | .generation => []) []

theorem pruned_generation (l : List Seen) : pruned (l ++ [.generation]) = [] := by
  unfold pruned
  rw [List.foldl_append]
  rfl

theorem pruned_rows (eventEpoch : Nat) (l : List Seen) : ∀ rows : List EventRow,
    pruned (l ++ rows.map (Seen.pruned eventEpoch)) = pruned l ++ rows
  | [] => by simp
  | row :: rows => by
    have hone : pruned (l ++ [.pruned eventEpoch row]) = pruned l ++ [row] := by
      unfold pruned
      rw [List.foldl_append]
      rfl
    have hrest := pruned_rows eventEpoch (l ++ [.pruned eventEpoch row]) rows
    rw [List.append_assoc, hone, List.append_assoc] at hrest
    exact hrest

theorem resequence_eq (hord : s.events.Pairwise Precedes) : Cache.resequence s.events =
    (s.events.filter Cache.ownAttachment).mapIdx (fun index attachment => { attachment with seq := index + 1 }) := by
  unfold Cache.resequence
  rw [orderBySeq_of_ordered (hord.filter _)]

theorem ownAttachment_runnerSeq {row : EventRow} (h : Cache.ownAttachment row = true) : row.runnerSeq = none := by
  unfold Cache.ownAttachment at h
  simp only [Bool.and_eq_true, Option.isNone_iff_eq_none] at h
  exact h.2

theorem resequence_runnerSeq {rows : List EventRow} : ∀ row ∈ Cache.resequence rows, row.runnerSeq = none := by
  intro row hrow
  obtain ⟨index, hindex, rfl⟩ := List.mem_mapIdx.1 hrow
  have hmem := (List.perm_insertionSort _ _).subset (List.getElem_mem hindex)
  exact ownAttachment_runnerSeq (List.mem_filter.1 hmem).2

theorem resequence_seq {rows : List EventRow} {i : Nat} (hi : i < (Cache.resequence rows).length) :
    ((Cache.resequence rows)[i]).seq = i + 1 := by
  simp [Cache.resequence]

theorem resequence_ordered (rows : List EventRow) : (Cache.resequence rows).Pairwise Precedes := by
  rw [List.pairwise_iff_getElem]
  intro i j hi hj hij
  refine ⟨?_, fun a b ha _ => ?_⟩
  · rw [resequence_seq hi, resequence_seq hj]
    omega
  · rw [resequence_runnerSeq _ (List.getElem_mem hi)] at ha
    cases ha

/-- **A generation that starts** with rows of the control plane alone mirrors the log. -/
theorem mirrors_start (hord : s.events.Pairwise Precedes) (hown : ∀ row ∈ s.events, row.runnerSeq = none)
    (hcursor : s.hydratedSeq = 0) (hcount : s.messageCount.getD 0 = s.events.length) : Mirrors s [] := by
  refine ⟨⟨hord, fun r hr hrh => ?_, fun row hrow r hr => ?_, fun _ _ g hg => absurd hg List.not_mem_nil,
    List.forall_mem_nil _⟩, hcount⟩
  · omega
  · rw [List.append_nil] at hrow
    rw [hown row hrow] at hr
    cases hr

theorem mirrors_reset (s : Session) (historyEpoch : Option Nat) (tailSeq : Nat) :
    Mirrors (Cache.resetHistory s historyEpoch tailSeq) [] :=
  mirrors_start (resequence_ordered _) resequence_runnerSeq rfl rfl

theorem mirrors_step {e : Op} (hm : Mirrors c.session (pruned l)) (hlive : Live l c e) (hst : step c e = some (c', o)) :
    Mirrors c'.session (pruned (l ++ o)) := by
  cases e with
  | appendEvent payload ts runnerSeq =>
    cases hst
    rw [List.append_nil]
    refine hm.append payload ts (fun r hr => ?_)
    rw [hr] at hlive
    exact hlive
  | appendHydratedPage expected events =>
    cases hst
    rw [List.append_nil]
    exact hm.page expected events
  | reconcileRunnerHistory historyEpoch tailSeq =>
    cases hst
    rw [Cache.reconcileRunnerHistory]
    simp only [noteRunnerTail_session]
    unfold Cache.reconciledSession
    split
    · rw [pruned_generation]
      exact mirrors_reset _ _ _
    · rw [List.append_nil]
      exact hm.congr rfl rfl rfl rfl
  | clearSessionEvents =>
    cases hst
    rw [pruned_generation]
    exact mirrors_start List.Pairwise.nil (List.forall_mem_nil _) rfl rfl
  | pruneArchivedHistoryBatch input =>
    cases hst
    obtain ⟨E, hp⟩ := pruned_batch hm.1.ordered input
    rw [pruned_rows, hp.filter_eq hm.1.ordered, filter_mem_of_sublist (nodup_of_ordered hm.1.ordered) hp.removed]
    refine ⟨hp.cursor ▸ hm.1.prune hp, ?_⟩
    rw [hp.count, hp.length hm.1.ordered, hm.2]

structure Fresh (s : Session) : Prop where
  events : s.events = []
  hydratedSeq : s.hydratedSeq = 0
  messageCount : s.messageCount.getD 0 = 0

theorem Fresh.mirrors (hf : Fresh s) : Mirrors s [] := by
  refine mirrors_start ?_ ?_ hf.hydratedSeq ?_
  · rw [hf.events]
    exact List.Pairwise.nil
  · rw [hf.events]
    exact List.forall_mem_nil _
  · rw [hf.events]
    exact hf.messageCount

theorem run_mirrors {start : Cache} (hf : Fresh start.session) (hrun : RunOn Live step start l c) :
    Mirrors c.session (pruned l) := by
  induction hrun with
  | nil => exact hf.mirrors
  | snoc _ hlive hst ih => exact mirrors_step ih hlive hst

theorem ingest_eventEpoch (c : Cache) (fromRunner : Bool) : c.session.eventEpoch ≤ (c.ingestSession fromRunner).eventEpoch := by
  unfold Cache.ingestSession
  split
  · exact Nat.le_succ _
  · exact Nat.le_refl _

theorem insertPage_eventEpoch : ∀ (events : List Cache.HydratedRunnerEvent) (s : Session),
    (Cache.insertPage s events).eventEpoch = s.eventEpoch
  | [], _ => rfl
  | _ :: events, _ => insertPage_eventEpoch events _

theorem raiseHydratedSeq_eventEpoch (s : Session) (runnerSeq : Option Nat) :
    (s.raiseHydratedSeq runnerSeq).eventEpoch = s.eventEpoch := by
  cases runnerSeq with
  | none => rfl
  | some r =>
    unfold Session.raiseHydratedSeq
    simp only
    split <;> rfl

theorem finish_eventEpoch (s : Session) (complete : Bool) : s.eventEpoch ≤ (finishArchivedHistoryPrune s complete).eventEpoch := by
  unfold finishArchivedHistoryPrune
  split
  · exact Nat.le_refl _
  · simp only
    split
    · exact Nat.le_succ _
    · exact Nat.le_refl _

theorem removeArchivedHistoryBatch_eventEpoch (s : Session) (input : PruneInput) :
    (removeArchivedHistoryBatch s input).1.eventEpoch = s.eventEpoch := by
  unfold removeArchivedHistoryBatch
  split
  · rfl
  · unfold removeBatch
    simp only
    split
    · split <;> rfl
    · rfl

theorem batch_eventEpoch (s : Session) (input : PruneInput) : s.eventEpoch ≤ (pruneArchivedHistoryBatch s input).eventEpoch := by
  have hsame := removeArchivedHistoryBatch_eventEpoch s input
  unfold pruneArchivedHistoryBatch
  split
  · rename_i heq
    rw [heq] at hsame
    exact Nat.le_of_eq hsame.symm
  · rename_i batched complete heq
    rw [heq] at hsame
    exact hsame ▸ finish_eventEpoch batched complete

/-- **The event epoch never falls**, and a generation that ends takes it further. -/
theorem eventEpoch_step {e : Op} (hst : step c e = some (c', o)) :
    c.session.eventEpoch ≤ c'.session.eventEpoch ∧ (Seen.generation ∈ o → c.session.eventEpoch < c'.session.eventEpoch) := by
  cases e with
  | appendEvent payload ts runnerSeq =>
    cases hst
    refine ⟨?_, fun h => absurd h List.not_mem_nil⟩
    unfold Cache.appendEvent
    rw [note_session, raiseHydratedSeq_eventEpoch]
    exact ingest_eventEpoch c _
  | appendHydratedPage expected events =>
    cases hst
    refine ⟨?_, fun h => absurd h List.not_mem_nil⟩
    unfold Cache.appendHydratedPage
    split
    · exact Nat.le_refl _
    · split
      · exact Nat.le_refl _
      · split
        · exact Nat.le_refl _
        · simp only [note_session, Session.bumpMessageCount, insertPage_eventEpoch]
          exact ingest_eventEpoch c _
  | reconcileRunnerHistory historyEpoch tailSeq =>
    cases hst
    rw [Cache.reconcileRunnerHistory]
    simp only [noteRunnerTail_session]
    unfold Cache.reconciledSession
    split
    · exact ⟨Nat.le_succ _, fun _ => Nat.lt_succ_self _⟩
    · exact ⟨Nat.le_refl _, fun h => absurd h List.not_mem_nil⟩
  | clearSessionEvents =>
    cases hst
    exact ⟨Nat.le_succ _, fun _ => Nat.lt_succ_self _⟩
  | pruneArchivedHistoryBatch input =>
    cases hst
    refine ⟨batch_eventEpoch _ _, fun h => ?_⟩
    obtain ⟨row, _, heq⟩ := List.mem_map.1 h
    cases heq

theorem mem_pruned_append {g : EventRow} (hg : g ∈ pruned l) : ∀ {o : List Seen}, Seen.generation ∉ o → g ∈ pruned (l ++ o) := by
  intro o
  induction o using List.reverseRecOn with
  | nil => exact fun _ => by rwa [List.append_nil]
  | append_singleton o seen ih =>
    intro hnot
    have hrest := ih (fun h => hnot (List.mem_append_left _ h))
    rw [← List.append_assoc]
    cases seen with
    | generation => exact absurd (List.mem_append_right _ (List.mem_singleton_self _)) hnot
    | pruned eventEpoch row =>
      have hone := pruned_rows eventEpoch (l ++ o) [row]
      rw [List.map_singleton] at hone
      rw [hone]
      exact List.mem_append_left _ hrest

/-- **A pruned row of an earlier generation** was in an earlier event epoch. -/
theorem pruned_epoch {start : Cache} (hrun : RunOn Live step start l c) : ∀ eventEpoch g, Seen.pruned eventEpoch g ∈ l →
    eventEpoch ≤ c.session.eventEpoch ∧ (g ∈ pruned l ∨ eventEpoch < c.session.eventEpoch) := by
  induction hrun with
  | nil => exact fun _ _ h => absurd h List.not_mem_nil
  | @snoc l c e c' o _ _ hst ih =>
    obtain ⟨hle, hlt⟩ := eventEpoch_step hst
    intro eventEpoch g hg
    rcases List.mem_append.1 hg with hold | hnew
    · obtain ⟨hold, hwhere⟩ := ih eventEpoch g hold
      refine ⟨hold.trans hle, ?_⟩
      by_cases hends : Seen.generation ∈ o
      · exact .inr (Nat.lt_of_le_of_lt hold (hlt hends))
      · exact hwhere.imp (fun h => mem_pruned_append h hends) (fun h => Nat.lt_of_lt_of_le h hle)
    · cases e with
      | pruneArchivedHistoryBatch input =>
        cases hst
        obtain ⟨row, hrow, heq⟩ := List.mem_map.1 hnew
        cases heq
        rw [pruned_rows]
        exact ⟨hle, .inl (List.mem_append_right _ hrow)⟩
      | reconcileRunnerHistory historyEpoch tailSeq =>
        cases hst
        split at hnew
        · cases List.mem_singleton.1 hnew
        · exact absurd hnew List.not_mem_nil
      | appendEvent payload ts runnerSeq | appendHydratedPage expected events =>
        cases hst
        exact absurd hnew List.not_mem_nil
      | clearSessionEvents =>
        cases hst
        cases List.mem_singleton.1 hnew

/-- **The transcript cache mirrors the runner's log** after any interleaving: the rows stand in both orders, each seq
through the cursor once, and no retired seq comes back. -/
theorem cache_mirrors {start : Cache} (hf : Fresh start.session) (hrun : RunOn Live step start l c) :
    (∀ a ∈ c.session.events, ∀ b ∈ c.session.events, ∀ i j, a.runnerSeq = some i → b.runnerSeq = some j →
      (a.seq < b.seq ↔ i < j)) ∧
    c.session.events.Pairwise (fun a b => a.seq < b.seq) ∧
    (∀ row ∈ c.session.events, ∀ r, row.runnerSeq = some r → 1 ≤ r ∧ r ≤ c.session.hydratedSeq) ∧
    (∀ r, 1 ≤ r → r ≤ c.session.hydratedSeq → (∀ g ∈ pruned l, g.runnerSeq ≠ some r) →
      ∃! row, row ∈ c.session.events ∧ row.runnerSeq = some r) ∧
    (∀ g ∈ pruned l, (∀ row ∈ c.session.events, row.seq ≠ g.seq) ∧ g.seq < c.session.sessionSeqHighWater + 1 ∧
      ∀ r, g.runnerSeq = some r → ∀ row ∈ c.session.events, row.runnerSeq ≠ some r) ∧
    (∀ eventEpoch g, Seen.pruned eventEpoch g ∈ l → g ∈ pruned l ∨ eventEpoch < c.session.eventEpoch) ∧
    c.session.messageCount.getD 0 = c.session.events.length ∧
    (∀ expected events, c.session.hydratedSeq ≠ expected.afterSeq ∨ c.session.runnerHistoryEpoch ≠ some expected.historyEpoch ∨
      c.session.eventEpoch ≠ expected.eventEpoch → (c.appendHydratedPage expected events).1 = c) ∧
    ∀ historyEpoch tailSeq, (c.reconcileRunnerHistory historyEpoch tailSeq).2.reset = true →
      let after := (c.reconcileRunnerHistory historyEpoch tailSeq).1.session
      after.events = (c.session.events.filter Cache.ownAttachment).mapIdx (fun index row => { row with seq := index + 1 }) ∧
      after.eventEpoch = c.session.eventEpoch + 1 := by
  obtain ⟨hk, hcount⟩ := run_mirrors hf hrun
  refine ⟨fun a ha b hb i j hai hbj => ?_, hk.ordered.imp And.left, fun row hrow => hk.known row (List.mem_append_left _ hrow),
    fun r hr hrh hnot => ?_, fun g hg => ⟨fun row hrow => (hk.apart row hrow g hg).1, ?_, fun r hgr row hrow hr => ?_⟩,
    fun eventEpoch g hg => (pruned_epoch hrun eventEpoch g hg).2, hcount,
    fun expected events hstale => ?_, fun historyEpoch tailSeq hreset => ?_⟩
  · by_cases hab : a = b
    · have hij : i = j := by
        rw [hab, hbj] at hai
        exact (Option.some.inj hai).symm
      rw [hab, hij]
      exact ⟨fun h => absurd h (Nat.lt_irrefl _), fun h => absurd h (Nat.lt_irrefl _)⟩
    · rcases precedes_or hk.ordered ha hb hab with h | h
      · exact iff_of_true h.1 (h.2 i j hai hbj)
      · exact iff_of_false (Nat.lt_asymm h.1) (Nat.lt_asymm (h.2 j i hbj hai))
  · obtain ⟨row, hrow, hrr⟩ := hk.held r hr hrh
    have hin := (List.mem_append.1 hrow).resolve_right (fun hgone => hnot row hgone hrr)
    exact ⟨row, ⟨hin, hrr⟩, fun other hother => runnerSeq_inj hk.ordered hother.1 hin hother.2 hrr⟩
  · exact Nat.lt_succ_of_le ((hk.below g hg).trans (through_le_highWater _))
  · exact (hk.apart row hrow g hg).2 r hr hgr
  · unfold Cache.appendHydratedPage
    have hcurrent : expected.current c.session = false := by
      unfold Cache.Expected.current
      simp only [Bool.and_eq_false_iff, beq_eq_false_iff_ne, ne_eq]
      tauto
    split
    · rfl
    · rw [if_pos (by rw [hcurrent]; rfl)]
  · have hreplaces : Cache.replacesHistory c.session historyEpoch = true := hreset
    unfold Cache.reconcileRunnerHistory
    simp only [noteRunnerTail_session]
    unfold Cache.reconciledSession
    rw [if_pos hreplaces]
    exact ⟨resequence_eq hk.ordered, rfl⟩

def anySession : Cache := ⟨⟨[], none, 0, none, 0, 0, 0, {}⟩, none⟩

/-- A snapshot of one event, its page and an attachment: the event has one row, and the count is of two. -/
def anyOps : List Op :=
  [.reconcileRunnerHistory (some 1) 1, .appendHydratedPage ⟨0, 1, 0⟩ [⟨1, 7, { kind := .toolCall }⟩],
    .appendEvent { kind := .artifactAttached } 8 none]

theorem cache_mirrors_sample : ((replay step anySession anyOps).map (fun r => r.1.session.messageCount)) = some (some 2) ∧
    ∀ r, replay step anySession anyOps = some r → ∃! row, row ∈ r.1.session.events ∧ row.runnerSeq = some 1 := by
  have hstart : RunOn Live step anySession [] anySession := .nil
  have hsnapshot := RunOn.snoc (e := Op.reconcileRunnerHistory (some 1) 1) hstart trivial rfl
  have hpage := RunOn.snoc (e := Op.appendHydratedPage ⟨0, 1, 0⟩ [⟨1, 7, { kind := .toolCall }⟩]) hsnapshot trivial rfl
  have hlast := RunOn.snoc (e := Op.appendEvent { kind := .artifactAttached } 8 none) hpage trivial rfl
  have hmirrors := cache_mirrors ⟨rfl, rfl, rfl⟩ hlast
  refine ⟨by decide, fun r hr => ?_⟩
  obtain rfl := Option.some.inj hr
  exact hmirrors.2.2.2.1 1 (by decide) (by decide) (by decide)

end Wollipog.Transcript
