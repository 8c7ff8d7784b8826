import Wollipog.Transcript.Store
/-!
# Mirror — the cache against the runner's log

In the current generation of the runner's history the cached rows follow the runner's order, every event through the
cursor is cached once unless a prune removed it, and no seq is used twice.
-/
namespace Wollipog.Transcript

open Sys

variable {s s' : Session} {c : Cache} {h h' : Nat} {gone rows E : List EventRow} {row : EventRow}

/-- `a` stands before `b` in both orders. -/
def Precedes (a b : EventRow) : Prop := a.seq < b.seq ∧ ∀ i j, a.runnerSeq = some i → b.runnerSeq = some j → i < j

/-- The rows through the runner seq `h`, where a prune removed the rows `gone`. -/
structure Kept (s : Session) (h : Nat) (gone : List EventRow) : Prop where
  ordered : s.events.Pairwise Precedes
  held : ∀ r, 1 ≤ r → r ≤ h → ∃ row ∈ s.events ++ gone, row.runnerSeq = some r
  known : ∀ row ∈ s.events ++ gone, ∀ r, row.runnerSeq = some r → 1 ≤ r ∧ r ≤ h
  apart : ∀ row ∈ s.events, ∀ g ∈ gone, row.seq ≠ g.seq ∧ ∀ r, row.runnerSeq = some r → g.runnerSeq ≠ some r
  below : ∀ g ∈ gone, g.seq ≤ s.prune.throughSeq.getD 0

theorem Kept.congr (hk : Kept s h gone) (hevents : s'.events = s.events) (hprune : s'.prune = s.prune) : Kept s' h gone where
  ordered := hevents ▸ hk.ordered
  held := hevents ▸ hk.held
  known := hevents ▸ hk.known
  apart := hevents ▸ hk.apart
  below := hprune ▸ hk.below

theorem le_maxSeq : ∀ {rows : List EventRow}, ∀ row ∈ rows, row.seq ≤ maxSeq rows
  | first :: rest, row, hrow => by
    have hcons : maxSeq (first :: rest) = max first.seq (maxSeq rest) := rfl
    rw [hcons]
    rcases List.mem_cons.1 hrow with rfl | hrest
    · exact Nat.le_max_left _ _
    · exact (le_maxSeq row hrest).trans (Nat.le_max_right _ _)

theorem le_highWater (hrow : row ∈ s.events) : row.seq ≤ s.sessionSeqHighWater :=
  (le_maxSeq row hrow).trans (Nat.le_max_left _ _)

theorem through_le_highWater (s : Session) : s.prune.throughSeq.getD 0 ≤ s.sessionSeqHighWater := Nat.le_max_right _ _

theorem orderBySeq_of_ordered (hord : rows.Pairwise Precedes) : orderBySeq rows = rows :=
  (hord.imp (fun hab => Nat.le_of_lt hab.1)).insertionSort_eq

theorem precedes_or (hord : rows.Pairwise Precedes) {a b : EventRow} (ha : a ∈ rows) (hb : b ∈ rows) (hne : a ≠ b) :
    Precedes a b ∨ Precedes b a := by
  have : Std.Symm (fun x y : EventRow => Precedes x y ∨ Precedes y x) := ⟨fun _ _ => Or.symm⟩
  have hboth : rows.Pairwise (fun x y => Precedes x y ∨ Precedes y x) := hord.imp Or.inl
  exact hboth.forall ha hb hne

theorem seq_inj (hord : rows.Pairwise Precedes) {a b : EventRow} (ha : a ∈ rows) (hb : b ∈ rows) (heq : a.seq = b.seq) : a = b := by
  by_contra hne
  rcases precedes_or hord ha hb hne with hab | hba
  · exact Nat.ne_of_lt hab.1 heq
  · exact Nat.ne_of_lt hba.1 heq.symm

theorem runnerSeq_inj (hord : rows.Pairwise Precedes) {a b : EventRow} {r : Nat} (ha : a ∈ rows) (hb : b ∈ rows)
    (har : a.runnerSeq = some r) (hbr : b.runnerSeq = some r) : a = b := by
  by_contra hne
  rcases precedes_or hord ha hb hne with hab | hba
  · exact Nat.lt_irrefl r (hab.2 r r har hbr)
  · exact Nat.lt_irrefl r (hba.2 r r hbr har)

/-- **A new row** takes the next seq: one of the control plane keeps the cursor, one of the runner takes it one further. -/
theorem Kept.insert (hk : Kept s h gone) {runnerSeq : Option Nat} {ts : Nat} {payload : Payload}
    (hnext : runnerSeq = none ∧ h' = h ∨ runnerSeq = some (h + 1) ∧ h' = h + 1) :
    Kept (s.insertEvent runnerSeq ts payload) h' gone := by
  have hle : h ≤ h' := by
    rcases hnext with ⟨_, rfl⟩ | ⟨_, rfl⟩
    · exact Nat.le_refl _
    · exact Nat.le_succ _
  have hnew : ∀ r, runnerSeq = some r → r = h + 1 ∧ r = h' := by
    rintro r hr
    rcases hnext with ⟨hnone, _⟩ | ⟨hsome, rfl⟩
    · rw [hnone] at hr
      cases hr
    · rw [hsome] at hr
      cases hr
      exact ⟨rfl, rfl⟩
  have hmem : ∀ row, row ∈ (s.insertEvent runnerSeq ts payload).events ++ gone ↔
      row ∈ s.events ++ gone ∨ row = ⟨s.sessionSeqHighWater + 1, runnerSeq, ts, payload⟩ := by
    intro row
    simp only [Session.insertEvent, List.mem_append, List.mem_singleton]
    tauto
  refine ⟨?_, ?_, ?_, ?_, hk.below⟩
  · refine List.pairwise_append.2 ⟨hk.ordered, List.pairwise_singleton _ _, ?_⟩
    intro a ha b hb
    obtain rfl := List.mem_singleton.1 hb
    refine ⟨Nat.lt_succ_of_le (le_highWater ha), fun i j hi hj => ?_⟩
    have hknown := (hk.known a (List.mem_append_left _ ha) i hi).2
    have := (hnew j hj).1
    omega
  · intro r hr hrh
    by_cases hold : r ≤ h
    · obtain ⟨row, hrow, hrr⟩ := hk.held r hr hold
      exact ⟨row, (hmem row).2 (.inl hrow), hrr⟩
    · rcases hnext with ⟨_, rfl⟩ | ⟨hsome, rfl⟩
      · exact absurd hrh hold
      · have hsame : r = h + 1 := by omega
        exact ⟨_, (hmem _).2 (.inr rfl), by rw [hsame]; exact hsome⟩
  · intro row hrow r hr
    rcases (hmem row).1 hrow with hold | rfl
    · have := hk.known row hold r hr
      omega
    · have := hnew r hr
      omega
  · intro row hrow g hg
    rcases List.mem_append.1 hrow with hold | hnewrow
    · exact hk.apart row hold g hg
    · obtain rfl := List.mem_singleton.1 hnewrow
      have hbelow := (hk.below g hg).trans (through_le_highWater s)
      refine ⟨fun heq => ?_, fun r hr hgr => ?_⟩
      · have : s.sessionSeqHighWater + 1 = g.seq := heq
        omega
      · have hknown := (hk.known g (List.mem_append_right _ hg) r hgr).2
        have := (hnew r hr).1
        omega

/-! ## Removed rows -/

/-- What a prune batch does: it removes rows, and the seqs through the last of them are retired. -/
structure Pruned (s s' : Session) (E : List EventRow) : Prop where
  removed : E.Sublist s.events
  events : s'.events = s.events.filter (fun row => row.seq ∉ E.map EventRow.seq)
  retired : ∀ g ∈ E, g.seq ≤ s'.prune.throughSeq.getD 0
  monotone : s.prune.throughSeq.getD 0 ≤ s'.prune.throughSeq.getD 0
  count : s'.messageCount.getD 0 = s.messageCount.getD 0 - E.length
  cursor : s'.hydratedSeq = s.hydratedSeq

theorem Pruned.refl (hevents : s'.events = s.events) (hthrough : s.prune.throughSeq.getD 0 ≤ s'.prune.throughSeq.getD 0)
    (hcount : s'.messageCount = s.messageCount) (hcursor : s'.hydratedSeq = s.hydratedSeq) : Pruned s s' [] where
  removed := List.nil_sublist _
  events := by simp [hevents]
  retired := List.forall_mem_nil _
  monotone := hthrough
  count := by simp [hcount]
  cursor := hcursor

theorem Pruned.mem_iff (hp : Pruned s s' E) (hord : s.events.Pairwise Precedes) (hrow : row ∈ s.events) :
    row ∈ E ↔ row ∉ s'.events := by
  rw [hp.events, List.mem_filter]
  constructor
  · rintro hE ⟨_, hnot⟩
    exact (of_decide_eq_true hnot) (List.mem_map_of_mem hE)
  · intro hnot
    by_contra hE
    refine hnot ⟨hrow, decide_eq_true (fun hmem => ?_)⟩
    obtain ⟨e, he, heq⟩ := List.mem_map.1 hmem
    exact hE (seq_inj hord (hp.removed.subset he) hrow heq ▸ he)

theorem Pruned.filter_eq (hp : Pruned s s' E) (hord : s.events.Pairwise Precedes) :
    s.events.filter (fun row => row ∉ s'.events) = s.events.filter (fun row => row ∈ E) := by
  refine List.filter_congr (fun row hrow => ?_)
  rw [decide_eq_decide]
  exact (hp.mem_iff hord hrow).symm

theorem filter_mem_of_sublist {l : List EventRow} (hnd : l.Nodup) (hsub : E.Sublist l) : l.filter (fun row => row ∈ E) = E := by
  have hperm : (l.filter (fun row => row ∈ E)).Perm E := by
    refine (List.perm_ext_iff_of_nodup (hnd.filter _) (hnd.sublist hsub)).2 (fun row => ?_)
    rw [List.mem_filter, decide_eq_true_eq]
    exact ⟨fun h => h.2, fun h => ⟨hsub.subset h, h⟩⟩
  have hfilter := hsub.filter (fun row => decide (row ∈ E))
  rw [List.filter_eq_self.2 (fun row hrow => decide_eq_true hrow)] at hfilter
  exact (hfilter.eq_of_length hperm.length_eq.symm).symm

theorem nodup_of_ordered (hord : rows.Pairwise Precedes) : rows.Nodup :=
  hord.imp (S := fun a b => a ≠ b) (fun hab heq => Nat.ne_of_lt hab.1 (congrArg EventRow.seq heq))

/-- **A prune batch** removes rows and retires their seqs. -/
theorem Kept.prune (hk : Kept s h gone) (hp : Pruned s s' E) : Kept s' h (gone ++ E) where
  ordered := hp.events ▸ hk.ordered.filter _
  held := by
    intro r hr hrh
    obtain ⟨row, hrow, hrr⟩ := hk.held r hr hrh
    refine ⟨row, ?_, hrr⟩
    rcases List.mem_append.1 hrow with hin | hgone
    · by_cases hE : row ∈ E
      · exact List.mem_append_right _ (List.mem_append_right _ hE)
      · have hstays := mt (hp.mem_iff hk.ordered hin).2 hE
        exact List.mem_append_left _ (not_not.1 hstays)
    · exact List.mem_append_right _ (List.mem_append_left _ hgone)
  known := by
    intro row hrow r hr
    refine hk.known row ?_ r hr
    have hsub := hp.removed.subset
    have hfiltered : row ∈ s'.events → row ∈ s.events := by
      rw [hp.events]
      exact fun hin => (List.mem_filter.1 hin).1
    simp only [List.mem_append] at hrow ⊢
    rcases hrow with hin | hgone | hE
    · exact .inl (hfiltered hin)
    · exact .inr hgone
    · exact .inl (hsub hE)
  apart := by
    intro row hrow g hg
    have hold : row ∈ s.events := by
      rw [hp.events] at hrow
      exact (List.mem_filter.1 hrow).1
    rcases List.mem_append.1 hg with hgone | hE
    · exact hk.apart row hold g hgone
    · have hgold := hp.removed.subset hE
      have hne : row ≠ g := by
        rintro rfl
        exact (hp.mem_iff hk.ordered hold).1 hE hrow
      exact ⟨fun heq => hne (seq_inj hk.ordered hold hgold heq), fun r hr hgr => hne (runnerSeq_inj hk.ordered hold hgold hr hgr)⟩
  below := by
    intro g hg
    rcases List.mem_append.1 hg with hgone | hE
    · exact (hk.below g hgone).trans hp.monotone
    · exact hp.retired g hE

theorem Pruned.length (hp : Pruned s s' E) (hord : s.events.Pairwise Precedes) : s'.events.length = s.events.length - E.length := by
  have hsplit := List.length_eq_length_filter_add (l := s.events) (fun row => decide (row ∈ E))
  rw [filter_mem_of_sublist (nodup_of_ordered hord) hp.removed] at hsplit
  have hrest : s.events.filter (fun row => !decide (row ∈ E)) = s'.events := by
    rw [hp.events]
    refine List.filter_congr (fun row hrow => ?_)
    have hiff := hp.mem_iff hord hrow
    rw [hp.events, List.mem_filter, decide_eq_true_eq] at hiff
    by_cases hE : row ∈ E <;> simp_all
  rw [hrest] at hsplit
  omega

theorem Pruned.events_nil (hp : Pruned s s' []) : s'.events = s.events := by
  rw [hp.events]
  simp

theorem Pruned.closed {t : Session} (hp : Pruned s s' []) (ht : Pruned s' t []) : Pruned s t [] where
  removed := List.nil_sublist _
  events := by simp [ht.events_nil, hp.events_nil]
  retired := List.forall_mem_nil _
  monotone := hp.monotone.trans ht.monotone
  count := by
    rw [ht.count, hp.count]
    rfl
  cursor := ht.cursor.trans hp.cursor

theorem takeBatch_initial (input : PruneInput) : ∀ (rows : List EventRow) (started : Bool) (searchLength payloadBytes : Nat),
    takeBatch input started searchLength payloadBytes rows <+: rows
  | [], _, _, _ => List.nil_prefix
  | candidate :: rest, started, searchLength, payloadBytes => by
    rw [takeBatch]
    split
    · exact List.nil_prefix
    · exact List.cons_prefix_cons.2 ⟨rfl, takeBatch_initial input rest _ _ _⟩

theorem le_getLast (hord : rows.Pairwise Precedes) (hlast : rows.getLast? = some row) : ∀ g ∈ rows, g.seq ≤ row.seq := by
  obtain ⟨before, rfl⟩ := List.getLast?_eq_some_iff.1 hlast
  intro g hg
  rcases List.mem_append.1 hg with hin | hself
  · exact Nat.le_of_lt ((List.pairwise_append.1 hord).2.2 g hin row (List.mem_singleton_self _)).1
  · exact Nat.le_of_eq (congrArg EventRow.seq (List.mem_singleton.1 hself))

theorem pruned_removeBatch (hord : s.events.Pairwise Precedes) (input : PruneInput) {candidates : List EventRow}
    (hsub : candidates.Sublist s.events) (window : Option Nat) :
    ∃ E, Pruned s (removeBatch s input candidates window).1 E ∧
      ∀ complete, (removeBatch s input candidates window).2 = .closed complete → E = [] := by
  unfold removeBatch
  simp only
  split
  · split
    · exact ⟨[], Pruned.refl rfl (Nat.le_refl _) rfl rfl, fun _ _ => rfl⟩
    · exact ⟨[], Pruned.refl rfl (Nat.le_refl _) rfl rfl, fun _ _ => rfl⟩
  · rename_i final hfinal
    have hbatch := (takeBatch_initial input candidates false 0 0).sublist.trans hsub
    refine ⟨_, ⟨hbatch, rfl, fun g hg => ?_, Nat.le_max_left _ _, rfl, rfl⟩, fun complete hclosed => by cases hclosed⟩
    exact (le_getLast (hord.sublist hbatch) hfinal g hg).trans (Nat.le_max_right _ _)

theorem pruned_removeArchivedHistoryBatch (hord : s.events.Pairwise Precedes) (input : PruneInput) :
    ∃ E, Pruned s (removeArchivedHistoryBatch s input).1 E ∧
      ∀ complete, (removeArchivedHistoryBatch s input).2 = .closed complete → E = [] := by
  unfold removeArchivedHistoryBatch
  split
  · exact ⟨[], Pruned.refl rfl (Nat.le_refl _) rfl rfl, fun _ _ => rfl⟩
  · have hsub : (pruneCandidates (openRun s (historyPruneFinalResponse s)) (historyPruneFinalResponse s)
        ((openRun s (historyPruneFinalResponse s)).prune.runSeq.getD 0) input.maxEvents).Sublist s.events := by
      have hsame : orderBySeq (openRun s (historyPruneFinalResponse s)).events = s.events := orderBySeq_of_ordered hord
      unfold pruneCandidates
      rw [hsame]
      exact (List.take_sublist _ _).trans List.filter_sublist
    obtain ⟨E, hp, hclosed⟩ := pruned_removeBatch (s := openRun s (historyPruneFinalResponse s)) hord input hsub
      (windowEnd (openRun s (historyPruneFinalResponse s)) ((openRun s (historyPruneFinalResponse s)).prune.runSeq.getD 0))
    exact ⟨E, ⟨hp.removed, hp.events, hp.retired, hp.monotone, hp.count, hp.cursor⟩, hclosed⟩

theorem pruned_finish (s : Session) (complete : Bool) : Pruned s (finishArchivedHistoryPrune s complete) [] := by
  unfold finishArchivedHistoryPrune
  split
  · exact Pruned.refl rfl (Nat.le_refl _) rfl rfl
  · rename_i runEvents _
    have hcovered : s.prune.throughSeq.getD 0 ≤
        (if complete then { s.prune with throughSeq := some s.sessionSeqHighWater } else s.prune).throughSeq.getD 0 := by
      split
      · exact through_le_highWater s
      · exact Nat.le_refl _
    simp only
    split
    · exact Pruned.refl rfl hcovered rfl rfl
    · exact Pruned.refl rfl hcovered rfl rfl

/-- **Every prune batch** removes rows, none of them when it closes the run. -/
theorem pruned_batch (hord : s.events.Pairwise Precedes) (input : PruneInput) :
    ∃ E, Pruned s (pruneArchivedHistoryBatch s input) E := by
  obtain ⟨E, hp, hclosed⟩ := pruned_removeArchivedHistoryBatch hord input
  unfold pruneArchivedHistoryBatch
  split
  · rename_i batched events heq
    rw [heq] at hp
    exact ⟨E, hp⟩
  · rename_i batched complete heq
    rw [heq] at hp hclosed
    obtain rfl := hclosed complete rfl
    exact ⟨[], hp.closed (pruned_finish batched complete)⟩

/-- **The cache mirrors the log**: the rows through the cursor, and their number. -/
def Mirrors (s : Session) (gone : List EventRow) : Prop := Kept s s.hydratedSeq gone ∧ s.messageCount.getD 0 = s.events.length

theorem Mirrors.congr (hm : Mirrors s gone) (hevents : s'.events = s.events) (hprune : s'.prune = s.prune)
    (hcursor : s'.hydratedSeq = s.hydratedSeq) (hcount : s'.messageCount = s.messageCount) : Mirrors s' gone := by
  refine ⟨hcursor ▸ hm.1.congr hevents hprune, ?_⟩
  rw [hevents, hcount]
  exact hm.2

theorem Mirrors.ingest (hm : Mirrors c.session gone) (fromRunner : Bool) : Mirrors (c.ingestSession fromRunner) gone := by
  unfold Cache.ingestSession
  split
  · exact hm.congr rfl rfl rfl rfl
  · exact hm

theorem ingest_hydratedSeq (c : Cache) (fromRunner : Bool) : (c.ingestSession fromRunner).hydratedSeq = c.session.hydratedSeq := by
  unfold Cache.ingestSession
  split <;> rfl

theorem note_session (c : Cache) (runnerSeq : Option Nat) : (c.noteCommittedIngest runnerSeq).session = c.session := by
  unfold Cache.noteCommittedIngest
  split
  · rfl
  · split
    · rfl
    · split
      · rfl
      · split <;> rfl

theorem noteRunnerTail_session (c : Cache) (reset : Bool) : (c.noteRunnerTail reset).session = c.session := by
  unfold Cache.noteRunnerTail
  split <;> rfl

theorem Mirrors.append (hm : Mirrors c.session gone) {runnerSeq : Option Nat} (payload : Payload) (ts : Nat)
    (hnext : ∀ r, runnerSeq = some r → r = c.session.hydratedSeq + 1) :
    Mirrors (c.appendEvent payload ts runnerSeq).session gone := by
  unfold Cache.appendEvent
  rw [note_session]
  obtain ⟨hk, hcount⟩ := hm.ingest runnerSeq.isSome
  have hlength : ∀ s : Session, (s.insertEvent runnerSeq ts payload).events.length = s.events.length + 1 :=
    fun s => List.length_append
  cases runnerSeq with
  | none => exact ⟨(hk.insert (.inl ⟨rfl, rfl⟩)).congr rfl rfl, (congrArg (· + 1) hcount).trans (hlength _).symm⟩
  | some r =>
    have hr : r = (c.ingestSession true).hydratedSeq + 1 := (hnext r rfl).trans (congrArg (· + 1) (ingest_hydratedSeq c true).symm)
    have hraise : ∀ s : Session, s.hydratedSeq + 1 = r → s.raiseHydratedSeq (some r) = { s with hydratedSeq := r } :=
      fun s hs => if_pos (by omega)
    simp only [Option.isSome_some]
    have hcursor : (((c.ingestSession true).insertEvent (some r) ts payload).bumpMessageCount 1).hydratedSeq + 1 = r := hr.symm
    rw [hraise _ hcursor]
    have hnew : Kept ((c.ingestSession true).insertEvent (some r) ts payload) r gone := hk.insert (.inr ⟨congrArg some hr, hr⟩)
    refine ⟨hnew.congr rfl rfl, ?_⟩
    exact (congrArg (· + 1) hcount).trans (hlength _).symm

theorem insertPage_kept : ∀ {events : List Cache.HydratedRunnerEvent} {s : Session} {h : Nat}, Kept s h gone →
    Cache.contiguous h events = true → Kept (Cache.insertPage s events) (h + events.length) gone
  | [], _, _, hk, _ => hk
  | event :: events, s, h, hk, hcontiguous => by
    obtain ⟨hseq, hrest⟩ := Bool.and_eq_true_iff.1 hcontiguous
    have hfirst : Kept (s.insertEvent (some event.seq) event.ts event.payload) (h + 1) gone :=
      hk.insert (.inr ⟨congrArg some (beq_iff_eq.1 hseq), rfl⟩)
    have hlength : h + (event :: events).length = h + 1 + events.length := by
      rw [List.length_cons]
      omega
    rw [hlength]
    exact insertPage_kept hfirst hrest

theorem insertPage_length : ∀ (events : List Cache.HydratedRunnerEvent) (s : Session),
    (Cache.insertPage s events).events.length = s.events.length + events.length
  | [], _ => rfl
  | event :: events, s => by
    have hrest := insertPage_length events (s.insertEvent (some event.seq) event.ts event.payload)
    have hone : (s.insertEvent (some event.seq) event.ts event.payload).events.length = s.events.length + 1 := List.length_append
    rw [List.length_cons]
    exact hrest.trans (by omega)

theorem insertPage_messageCount : ∀ (events : List Cache.HydratedRunnerEvent) (s : Session),
    (Cache.insertPage s events).messageCount = s.messageCount
  | [], _ => rfl
  | _ :: events, _ => insertPage_messageCount events _

theorem contiguous_getLast : ∀ {events : List Cache.HydratedRunnerEvent} {h : Nat} {final : Cache.HydratedRunnerEvent},
    Cache.contiguous h events = true → events.getLast? = some final → final.seq = h + events.length
  | [], _, _, _, hlast => by cases hlast
  | [event], h, final, hcontiguous, hlast => by
    obtain ⟨hseq, _⟩ := Bool.and_eq_true_iff.1 hcontiguous
    cases hlast
    exact beq_iff_eq.1 hseq
  | event :: next :: events, h, final, hcontiguous, hlast => by
    obtain ⟨_, hrest⟩ := Bool.and_eq_true_iff.1 hcontiguous
    have := contiguous_getLast hrest (by rw [← hlast, List.getLast?_cons_cons])
    rw [this, List.length_cons (a := event)]
    omega

theorem Mirrors.page (hm : Mirrors c.session gone) (expected : Cache.Expected) (events : List Cache.HydratedRunnerEvent) :
    Mirrors (c.appendHydratedPage expected events).1.session gone := by
  unfold Cache.appendHydratedPage
  split
  · exact hm
  · rename_i hcontiguous
    split
    · exact hm
    · rename_i hcurrent
      split
      · exact hm
      · rename_i final hfinal
        simp only [Bool.not_eq_true', Bool.not_eq_false] at hcontiguous hcurrent
        obtain ⟨hk, hcount⟩ := hm.ingest true
        have hcursor : c.session.hydratedSeq = expected.afterSeq := by
          unfold Cache.Expected.current at hcurrent
          simp only [Bool.and_eq_true, beq_iff_eq] at hcurrent
          exact hcurrent.1.1
        rw [ingest_hydratedSeq, hcursor] at hk
        rw [note_session]
        refine ⟨?_, ?_⟩
        · have hpage := insertPage_kept hk hcontiguous
          rw [← contiguous_getLast hcontiguous hfinal] at hpage
          exact hpage.congr rfl rfl
        · have hlength := insertPage_length events (c.ingestSession true)
          have hsame := insertPage_messageCount events (c.ingestSession true)
          simp only [Session.bumpMessageCount, Option.getD_some, hsame, hcount, hlength]

end Wollipog.Transcript
