import Wollipog.Transcript.Replays
/-!
# Detected — a reassigned seq is seen in the event epoch

As long as no crash comes while a control-plane event waits for the replay, an event that a dashboard saw in the
current epoch stands where it was or comes back there, or the epoch moves on.
-/
namespace Wollipog.Transcript

open Sys

variable {s t : Session} {c c' : Cache} {w w' : World} {row shown : EventRow} {l o : List (Nat × EventRow)}

/-- No crash comes while a control-plane event waits, nor rolls back a commit that took the epoch further. -/
def Calm (_ : List (Nat × EventRow)) (w : World) : Happens → Prop
  | .crash commits => w.waits = false ∧ (w.rolledBack commits).all (·.eventEpoch == w.epoch) = true
  | _ => True

def Stands (s : Session) (shown : EventRow) : Prop := ∃ row ∈ s.events, row.seq = shown.seq ∧ SameEvent row shown

/-- A rolled-back runner event, whose replay comes back to its seq unless the epoch goes further before it. -/
def Lost (w : World) (shown : EventRow) : Prop :=
  ∃ r, shown.runnerSeq = some r ∧ w.cache.session.hydratedSeq < r ∧ r ≤ w.received ∧
    (shown.seq = w.cache.session.events.length + (r - w.cache.session.hydratedSeq) ∨ w.waits = true)

/-- While runner events are lost the session is watched, through a tail that covers them. -/
def Watched (w : World) : Prop :=
  ∃ r, w.cache.ingestRollback = some r ∧ r.settled = false ∧ (∀ tail, r.runnerTail = some tail → w.received ≤ tail) ∧
    (w.told = true → r.runnerTail.isSome = true ∧ w.received ≤ w.cache.session.runnerHistoryTailSeq)

/-- The invariant of the runs, after the events `l` were published. -/
structure Holds (l : List (Nat × EventRow)) (w : World) : Prop where
  whole : Whole w.cache.session
  past : ∀ s ∈ w.relaxed, Whole s ∧ s.eventEpoch ≤ w.epoch ∧ (s.eventEpoch = w.epoch → Extends s w.cache.session)
  cached : w.cache.session.hydratedSeq ≤ w.received
  logged : w.received ≤ w.log
  watched : w.cache.session.hydratedSeq < w.received → Watched w
  seen : ∀ p ∈ l, p.1 ≤ w.epoch ∧ (p.1 = w.epoch → Stands w.cache.session p.2 ∨ Lost w p.2)

theorem sameEvent_refl (row : EventRow) : SameEvent row row := ⟨rfl, fun _ => rfl⟩

theorem sameEvent_of_runnerSeq {r : Nat} (hrow : row.runnerSeq = some r) (hshown : shown.runnerSeq = some r) :
    SameEvent row shown := by
  refine ⟨hrow.trans hshown.symm, fun hnone => ?_⟩
  rw [hshown] at hnone
  cases hnone

theorem Stands.mono (hs : Stands s shown) (hsub : s.events ⊆ t.events) : Stands t shown := by
  obtain ⟨row, hrow, hboth⟩ := hs
  exact ⟨row, hsub hrow, hboth⟩

theorem seen_published (hl : ∀ p ∈ l, p.1 ≤ w.epoch ∧ (p.1 = w.epoch → Stands w.cache.session p.2 ∨ Lost w p.2)) :
    ∀ p ∈ l ++ w.published, p.1 ≤ w.epoch ∧ (p.1 = w.epoch → Stands w.cache.session p.2 ∨ Lost w p.2) := by
  intro p hp
  rcases List.mem_append.1 hp with hold | hnew
  · exact hl p hold
  · obtain ⟨row, hrow, rfl⟩ := List.mem_map.1 hnew
    exact ⟨Nat.le_refl _, fun _ => .inl ⟨row, hrow, rfl, sameEvent_refl row⟩⟩

theorem Ingested.epoch_le (hi : Ingested w.cache c' n) : w.epoch ≤ c'.session.eventEpoch := by
  rw [hi.epoch]
  split
  · exact Nat.le_succ _
  · exact Nat.le_refl _

/-- **Runner events** come back to their seqs, or take the epoch further. -/
theorem Holds.ingest {final log : Nat} (hh : Holds l w) (hi : Ingested w.cache c' final)
    (htold : w.told = true ∨ w.received ≤ w.cache.session.hydratedSeq) (hlog : w.log ≤ log) (hfinal : final ≤ log)
    (relaxedCommit : Bool) : Holds (l ++ (World.commit { w with log := log } c' relaxedCommit).published)
      (World.commit { w with log := log } c' relaxedCommit) := by
  have hcursor := hi.cursor
  have hlater := hi.later
  have hle : w.epoch ≤ c'.session.eventEpoch := hi.epoch_le
  have hlength := hi.further.length
  have hlost : c'.session.hydratedSeq < w.received → Watched w ∧ w.told = true := by
    intro hlt
    exact ⟨hh.watched (by omega), htold.resolve_right (by omega)⟩
  have hlogged : max w.received c'.session.hydratedSeq ≤ log := Nat.max_le.2 ⟨hh.logged.trans hlog, hcursor ▸ hfinal⟩
  refine ⟨hi.whole, fun s hs => ?_, Nat.le_max_right _ _, hlogged, fun hlt => ?_, seen_published (fun p hp => ?_)⟩
  · cases relaxedCommit with
    | false => exact absurd hs List.not_mem_nil
    | true =>
      rcases List.mem_cons.1 hs with rfl | hold
      · exact ⟨hh.whole, hle, fun _ => hi.further⟩
      · obtain ⟨hwhole, hpast, hext⟩ := hh.past s hold
        refine ⟨hwhole, hpast.trans hle, fun heq => (hext ?_).trans hi.further⟩
        have hnow : s.eventEpoch = c'.session.eventEpoch := heq
        omega
  · have hless : c'.session.hydratedSeq < w.received := by
      have : c'.session.hydratedSeq < max w.received c'.session.hydratedSeq := hlt
      omega
    obtain ⟨⟨r, hr, hsettled, htail, hsome⟩, hyes⟩ := hlost hless
    obtain ⟨hisSome, hstored⟩ := hsome hyes
    obtain ⟨tail, heq⟩ := Option.isSome_iff_exists.1 hisSome
    have hmax : max w.received c'.session.hydratedSeq = w.received := by omega
    have hnot : r.runnerTail.all (· ≤ final) = false := by
      rw [heq]
      have := htail tail heq
      exact decide_eq_false (by omega)
    refine ⟨⟨false, r.runnerTail, false⟩, ?_, rfl, fun tail' ht => ?_, fun _ => ⟨hisSome, ?_⟩⟩
    · have hnoted := congrArg Cache.ingestRollback hi.noted
      unfold Cache.noteCommittedIngest at hnoted
      simp only [hr, hsettled, hnot, Bool.false_eq_true, if_false] at hnoted
      exact hnoted
    · exact (Nat.le_of_eq hmax).trans (htail tail' ht)
    · exact (Nat.le_of_eq hmax).trans (hstored.trans hi.tail)
  · obtain ⟨hpast, hwhere⟩ := hh.seen p hp
    refine ⟨hpast.trans hle, fun heq => ?_⟩
    have hnow : p.1 = c'.session.eventEpoch := heq
    have hsame : p.1 = w.epoch := by omega
    have hcalm : w.waits = false := by
      by_contra hwaits
      have hreassigns : w.cache.ingestReassignsSequence = true := Bool.eq_true_of_not_eq_false hwaits
      have hadvance := hi.epoch
      rw [if_pos hreassigns] at hadvance
      have : c'.session.eventEpoch = w.epoch + 1 := hadvance
      omega
    obtain ⟨rows, hevents, hfollow, hend⟩ := hi.further
    rcases hwhere hsame with hstands | ⟨r, hr, hlt, hreceived, hseq | hwaits⟩
    · refine .inl (hstands.mono ?_)
      have : c'.session.events = w.cache.session.events ++ rows := hevents
      exact fun row hrow => this ▸ List.mem_append_left _ hrow
    · by_cases hback : r ≤ c'.session.hydratedSeq
      · obtain ⟨row, hrow, hrr, hrseq⟩ := hfollow.exists_row hlt (hend ▸ hback)
        have hin : row ∈ c'.session.events := hevents ▸ List.mem_append_right _ hrow
        exact .inl ⟨row, hin, hrseq.trans hseq.symm, sameEvent_of_runnerSeq hrr hr⟩
      · refine .inr ⟨r, hr, Nat.lt_of_not_le hback, hreceived.trans (Nat.le_max_left _ _), .inl ?_⟩
        have : p.2.seq = c'.session.events.length + (r - c'.session.hydratedSeq) := by omega
        exact this
    · rw [hcalm] at hwaits
      cases hwaits

/-- **A control-plane event** takes the next seq, and a lost event makes it wait. -/
theorem Holds.controlPlane (hh : Holds l w) (payload : Payload) (ts : Nat) :
    Holds (l ++ (w.commit (w.cache.appendEvent payload ts none) false).published)
      (w.commit (w.cache.appendEvent payload ts none) false) := by
  have hsession : (w.cache.appendEvent payload ts none).session =
      (w.cache.session.insertEvent none ts payload).bumpMessageCount 1 := by
    unfold Cache.appendEvent
    rw [note_session]
    rfl
  have hcursor : (w.cache.appendEvent payload ts none).session.hydratedSeq = w.cache.session.hydratedSeq := by
    rw [hsession]
    rfl
  have hepoch : (w.cache.appendEvent payload ts none).session.eventEpoch = w.epoch := by
    rw [hsession]
    rfl
  have htail : (w.cache.appendEvent payload ts none).session.runnerHistoryTailSeq = w.cache.session.runnerHistoryTailSeq := by
    rw [hsession]
    rfl
  have hevents : (w.cache.appendEvent payload ts none).session.events = w.cache.session.events ++ [_] :=
    (congrArg Session.events hsession).trans (hh.whole.numbered.insert_events none ts payload)
  have hcached := hh.cached
  have hmax : max w.received (w.cache.appendEvent payload ts none).session.hydratedSeq = w.received := by omega
  have hwatch : w.cache.session.hydratedSeq < w.received → ∃ r, w.cache.ingestRollback = some r ∧ r.settled = false ∧
      (w.cache.appendEvent payload ts none).ingestRollback = some { r with controlPlaneEvents := true } := by
    intro hlt
    obtain ⟨r, hr, hsettled, _⟩ := hh.watched hlt
    refine ⟨r, hr, hsettled, ?_⟩
    unfold Cache.appendEvent Cache.noteCommittedIngest
    simp only [hr, hsettled, Bool.false_eq_true, if_false]
  refine ⟨⟨hh.whole.mirrors.append payload ts (fun r hr => by cases hr), ?_⟩, List.forall_mem_nil _,
    Nat.le_max_right _ _, ?_, fun hlt => ?_, seen_published (fun p hp => ?_)⟩
  · have hnumbered := hh.whole.numbered.insert none ts payload
    refine ⟨?_, ?_⟩
    · have : (w.commit (w.cache.appendEvent payload ts none) false).cache.session.events =
          ((w.cache.session.insertEvent none ts payload).bumpMessageCount 1).events := congrArg Session.events hsession
      rw [this]
      exact hnumbered.seqs
    · exact (congrArg Session.prune hsession).trans hnumbered.unpruned
  · exact (Nat.le_of_eq hmax).trans hh.logged
  · have hless : w.cache.session.hydratedSeq < w.received := by
      have : (w.cache.appendEvent payload ts none).session.hydratedSeq <
          max w.received (w.cache.appendEvent payload ts none).session.hydratedSeq := hlt
      omega
    obtain ⟨r, hr, hsettled, hnow⟩ := hwatch hless
    obtain ⟨r', hr', _, htails, hsome⟩ := hh.watched hless
    obtain rfl := Option.some.inj (hr.symm.trans hr')
    refine ⟨_, hnow, hsettled, fun tail ht => (Nat.le_of_eq hmax).trans (htails tail ht), fun hyes => ?_⟩
    obtain ⟨hisSome, hstored⟩ := hsome hyes
    exact ⟨hisSome, (Nat.le_of_eq hmax).trans (hstored.trans (Nat.le_of_eq htail.symm))⟩
  · obtain ⟨hpast, hwhere⟩ := hh.seen p hp
    refine ⟨hpast.trans (Nat.le_of_eq hepoch.symm), fun heq => ?_⟩
    have hnow : p.1 = (w.cache.appendEvent payload ts none).session.eventEpoch := heq
    rcases hwhere (hnow.trans hepoch) with hstands | ⟨r, hr, hlt, hreceived, _⟩
    · refine .inl (hstands.mono (fun row hrow => ?_))
      have hin : row ∈ (w.cache.appendEvent payload ts none).session.events := hevents ▸ List.mem_append_left _ hrow
      exact hin
    · obtain ⟨r', _, _, hflag⟩ := hwatch (by omega)
      refine .inr ⟨r, hr, ?_, hreceived.trans (Nat.le_max_left _ _), .inr ?_⟩
      · exact Nat.lt_of_le_of_lt (Nat.le_of_eq hcursor) hlt
      · have : (w.cache.appendEvent payload ts none).ingestReassignsSequence = true := by
          unfold Cache.ingestReassignsSequence
          rw [hflag]
          rfl
        exact this

theorem numbered_resequence (rows : List EventRow) :
    (Cache.resequence rows).map EventRow.seq = List.range' 1 (Cache.resequence rows).length := by
  refine List.ext_getElem (by rw [List.length_map, List.length_range']) (fun i hi _ => ?_)
  rw [List.length_map] at hi
  rw [List.getElem_map, resequence_seq hi, List.getElem_range', Nat.one_mul, Nat.add_comm]

/-- **A snapshot** of another generation starts a new epoch; else it watches through its tail. -/
theorem Holds.snapshot (hh : Holds l w) {historyEpoch : Option Nat} {tailSeq : Nat}
    (hs : w.snapshot historyEpoch tailSeq = some w') : Holds (l ++ w'.published) w' := by
  unfold World.snapshot at hs
  simp only at hs
  split at hs
  · rename_i hreset
    have hreplaces : Cache.replacesHistory w.cache.session historyEpoch = true := hreset
    cases hs
    have hsession : (w.cache.reconcileRunnerHistory historyEpoch tailSeq).1.session =
        Cache.resetHistory w.cache.session historyEpoch tailSeq := by
      unfold Cache.reconcileRunnerHistory Cache.reconciledSession
      rw [noteRunnerTail_session, if_pos hreplaces]
    have hcursor : (w.cache.reconcileRunnerHistory historyEpoch tailSeq).1.session.hydratedSeq = 0 := by
      rw [hsession]
      rfl
    have hepoch : (w.cache.reconcileRunnerHistory historyEpoch tailSeq).1.session.eventEpoch = w.epoch + 1 := by
      rw [hsession]
      rfl
    refine ⟨?_, List.forall_mem_nil _, Nat.le_of_eq hcursor, Nat.zero_le _,
      fun hlt => absurd hlt (Nat.not_lt_zero _), seen_published (fun p hp => ?_)⟩
    · have hnumbered : Numbered (Cache.resetHistory w.cache.session historyEpoch tailSeq) := ⟨numbered_resequence _, rfl⟩
      have hwhole : Whole (Cache.resetHistory w.cache.session historyEpoch tailSeq) := ⟨mirrors_reset _ _ _, hnumbered⟩
      exact hsession ▸ hwhole
    · have hpast := (hh.seen p hp).1
      refine ⟨(hpast.trans (Nat.le_succ _)).trans (Nat.le_of_eq hepoch.symm), fun heq => ?_⟩
      have hnow : p.1 = w.epoch + 1 := heq.trans hepoch
      omega
  · rename_i hreset
    have hreplaces : ¬ Cache.replacesHistory w.cache.session historyEpoch = true := hreset
    split at hs
    · rename_i hhonest
      cases hs
      simp only [Bool.or_eq_true, decide_eq_true_eq] at hhonest
      have hsession : (w.cache.reconcileRunnerHistory historyEpoch tailSeq).1.session = { w.cache.session with
          runnerHistoryEpoch := historyEpoch.or w.cache.session.runnerHistoryEpoch
          runnerHistoryTailSeq := max tailSeq (max w.cache.session.runnerHistoryTailSeq w.cache.session.hydratedSeq) } := by
        unfold Cache.reconcileRunnerHistory Cache.reconciledSession
        rw [noteRunnerTail_session, if_neg hreplaces]
      have hwatch : w.cache.session.hydratedSeq < w.received → ∃ r, w.cache.ingestRollback = some r ∧ r.settled = false ∧
          w.received ≤ max tailSeq (max w.cache.session.runnerHistoryTailSeq w.cache.session.hydratedSeq) ∧
          (w.cache.reconcileRunnerHistory historyEpoch tailSeq).1.ingestRollback = some { r with
            runnerTail := some (max tailSeq (max w.cache.session.runnerHistoryTailSeq w.cache.session.hydratedSeq)) } := by
        intro hlt
        obtain ⟨r, hr, hsettled, _, hsome⟩ := hh.watched hlt
        have hcovers : w.received ≤ max tailSeq (max w.cache.session.runnerHistoryTailSeq w.cache.session.hydratedSeq) := by
          rcases hhonest with hyes | htold
          · have := (hsome hyes).2
            omega
          · omega
        have hbehind : ¬ max tailSeq (max w.cache.session.runnerHistoryTailSeq w.cache.session.hydratedSeq) ≤
            w.cache.session.hydratedSeq := by
          omega
        refine ⟨r, hr, hsettled, hcovers, ?_⟩
        unfold Cache.reconcileRunnerHistory Cache.noteRunnerTail Cache.reconciledSession
        simp only [Bool.eq_false_of_not_eq_true hreplaces, Bool.false_or, decide_eq_true_eq, if_neg hbehind, hr,
          Option.map_some, hsettled, Bool.false_eq_true, if_false]
      have hevents : (w.cache.reconcileRunnerHistory historyEpoch tailSeq).1.session.events = w.cache.session.events := by
        rw [hsession]
      have hprune : (w.cache.reconcileRunnerHistory historyEpoch tailSeq).1.session.prune = w.cache.session.prune := by
        rw [hsession]
      have hcursor : (w.cache.reconcileRunnerHistory historyEpoch tailSeq).1.session.hydratedSeq =
          w.cache.session.hydratedSeq := by
        rw [hsession]
      have hepoch : (w.cache.reconcileRunnerHistory historyEpoch tailSeq).1.session.eventEpoch = w.epoch := by
        rw [hsession]
        rfl
      have hcount : (w.cache.reconcileRunnerHistory historyEpoch tailSeq).1.session.messageCount =
          w.cache.session.messageCount := by
        rw [hsession]
      refine ⟨⟨hh.whole.mirrors.congr hevents hprune hcursor hcount, ⟨?_, hprune.trans hh.whole.numbered.unpruned⟩⟩,
        List.forall_mem_nil _, (Nat.le_of_eq hcursor).trans hh.cached, hh.logged, fun hlt => ?_,
        seen_published (fun p hp => ?_)⟩
      · simp only [hevents]
        exact hh.whole.numbered.seqs
      · obtain ⟨r, hr, hsettled, hcovers, hnow⟩ := hwatch (Nat.lt_of_le_of_lt (Nat.le_of_eq hcursor.symm) hlt)
        refine ⟨_, hnow, hsettled, fun tail ht => ?_, fun _ => ⟨rfl, ?_⟩⟩
        · cases ht
          exact hcovers
        · rw [hsession]
          exact hcovers
      · obtain ⟨hpast, hwhere⟩ := hh.seen p hp
        refine ⟨hpast.trans (Nat.le_of_eq hepoch.symm), fun heq => ?_⟩
        have hnow : p.1 = w.epoch := heq.trans hepoch
        rcases hwhere hnow with hstands | ⟨r, hr, hlt, hreceived, hwhich⟩
        · refine .inl (hstands.mono (fun row hrow => ?_))
          simp only [hevents]
          exact hrow
        · obtain ⟨r', hr', _, _, hafter⟩ := hwatch (by omega)
          have hpastCursor := Nat.lt_of_le_of_lt (Nat.le_of_eq hcursor) hlt
          refine .inr ⟨r, hr, hpastCursor, hreceived, hwhich.imp (fun hseq => ?_) (fun hwaits => ?_)⟩
          · simp only [hevents, hcursor]
            exact hseq
          · have hflag : r'.controlPlaneEvents = true := by
              have hbefore : w.cache.ingestReassignsSequence = true := hwaits
              unfold Cache.ingestReassignsSequence at hbefore
              rw [hr'] at hbefore
              exact hbefore
            unfold World.waits Cache.ingestReassignsSequence
            rw [hafter]
            exact hflag
    · cases hs

theorem rolledBack_past (hh : Holds l w) {commits : Nat} (hs : w.rolledBack commits = some s) (hepoch : s.eventEpoch = w.epoch) :
    Whole s ∧ Extends s w.cache.session := by
  cases commits with
  | zero =>
    cases hs
    exact ⟨hh.whole, Extends.refl _⟩
  | succ n =>
    obtain ⟨hwhole, _, hext⟩ := hh.past s (List.mem_of_getElem? hs)
    exact ⟨hwhole, hext hepoch⟩

/-- **A crash** loses the runner events after the ones that it leaves. -/
theorem Holds.crash (hh : Holds l w) {commits : Nat} (hs : w.rolledBack commits = some s) (hcalm : w.waits = false)
    (hepoch : s.eventEpoch = w.epoch) : Holds (l ++ (w.restart s).published) (w.restart s) := by
  obtain ⟨hwhole, hext⟩ := rolledBack_past hh hs hepoch
  have hle := hext.le
  have hlength := hext.length
  obtain ⟨rows, hevents, hfollow, hend⟩ := hext
  refine ⟨hwhole, List.forall_mem_nil _, hle.trans hh.cached, hh.logged,
    fun _ => ⟨Watch.new, rfl, rfl, (fun tail ht => by cases ht), (fun hyes => by cases hyes)⟩, seen_published (fun p hp => ?_)⟩
  obtain ⟨hpast, hwhere⟩ := hh.seen p hp
  refine ⟨hpast.trans (Nat.le_of_eq hepoch.symm), fun heq => ?_⟩
  have hnow : p.1 = w.epoch := heq.trans hepoch
  rcases hwhere hnow with ⟨row, hrow, hseq, hsame⟩ | ⟨r, hr, hlt, hreceived, hseq | hwaits⟩
  · rw [hevents] at hrow
    rcases List.mem_append.1 hrow with hkept | hlost
    · exact .inl ⟨row, hkept, hseq, hsame⟩
    · obtain ⟨r, hr, hlt, hrle, hrseq⟩ := hfollow.of_mem hlost
      have hreceived := (hrle.trans (Nat.le_of_eq hend.symm)).trans hh.cached
      exact .inr ⟨r, hsame.1.symm.trans hr, hlt, hreceived, .inl (hseq.symm.trans hrseq)⟩
  · refine .inr ⟨r, hr, Nat.lt_of_le_of_lt hle hlt, hreceived, .inl ?_⟩
    have : p.2.seq = s.events.length + (r - s.hydratedSeq) := by omega
    exact this
  · rw [hcalm] at hwaits
    cases hwaits

theorem Holds.page (hh : Holds l w) {expected : Cache.Expected} {events : List Cache.HydratedRunnerEvent}
    (hs : w.page expected events = some w') : Holds (l ++ w'.published) w' := by
  have hsame : Holds (l ++ w.published) w := ⟨hh.whole, hh.past, hh.cached, hh.logged, hh.watched, seen_published hh.seen⟩
  unfold World.page at hs
  split at hs
  · rename_i hopen
    obtain ⟨hlog, htold⟩ := Bool.and_eq_true_iff.1 hopen
    split at hs
    · rename_i cache epoch happ
      split at hs
      · cases hs
        exact hsame
      · rename_i hne
        cases hs
        obtain ⟨final, hfinal, hingested, hcontiguous⟩ := ingested_page hh.whole happ (Bool.eq_false_of_not_eq_true hne)
        have hin := List.mem_of_getLast? hfinal
        refine hh.ingest hingested ?_ (Nat.le_refl _) (of_decide_eq_true (List.all_eq_true.1 hlog final hin)) _
        rcases Bool.or_eq_true_iff.1 htold with hyes | hnew
        · exact .inl hyes
        · right
          cases events with
          | nil => cases hin
          | cons event events =>
            have hfirst := beq_iff_eq.1 (Bool.and_eq_true_iff.1 hcontiguous).1
            have := of_decide_eq_true (List.all_eq_true.1 hnew event List.mem_cons_self)
            omega
    · cases hs
      exact hsame
  · cases hs

theorem Holds.live (hh : Holds l w) (payload : Payload) (ts : Nat) :
    Holds (l ++ (w.live payload ts).published) (w.live payload ts) := by
  unfold World.live
  simp only
  split
  · rename_i hnext
    have hingested := ingested_append hh.whole payload ts
    rw [hnext] at hingested
    have hreceived := hh.logged
    exact hh.ingest hingested (.inr (by omega)) (Nat.le_succ _) (Nat.le_refl _) _
  · exact ⟨hh.whole, hh.past, hh.cached, hh.logged.trans (Nat.le_succ _), hh.watched, seen_published hh.seen⟩

theorem holds_step {e : Happens} (hh : Holds l w) (hcalm : Calm l w e) (hst : World.step w e = some (w', o)) :
    Holds (l ++ o) w' := by
  obtain ⟨after, hnext, heq⟩ := Option.map_eq_some_iff.1 hst
  cases heq
  cases e with
  | controlPlane payload ts =>
    cases hnext
    exact hh.controlPlane payload ts
  | live payload ts =>
    cases hnext
    exact hh.live payload ts
  | emit =>
    cases hnext
    exact ⟨hh.whole, hh.past, hh.cached, hh.logged.trans (Nat.le_succ _), hh.watched, seen_published hh.seen⟩
  | page expected events => exact hh.page hnext
  | snapshot historyEpoch tailSeq => exact hh.snapshot hnext
  | flush =>
    cases hnext
    exact ⟨hh.whole, List.forall_mem_nil _, hh.cached, hh.logged, hh.watched, seen_published hh.seen⟩
  | crash commits =>
    obtain ⟨s, hs, heq⟩ := Option.map_eq_some_iff.1 hnext
    cases heq
    have hepoch := hcalm.2
    rw [hs, Option.all_some, beq_iff_eq] at hepoch
    exact hh.crash hs hcalm.1 hepoch

structure Start (w : World) : Prop where
  fresh : Fresh w.cache.session
  unpruned : w.cache.session.prune = {}
  relaxed : w.relaxed = []
  received : w.received = 0

theorem Start.holds (hs : Start w) : Holds [] w := by
  have hcursor := hs.fresh.hydratedSeq
  refine ⟨⟨hs.fresh.mirrors, ⟨?_, hs.unpruned⟩⟩, fun s h => ?_, by omega, ?_, fun hlt => ?_, List.forall_mem_nil _⟩
  · rw [hs.fresh.events]
    rfl
  · rw [hs.relaxed] at h
    cases h
  · rw [hs.received]
    exact Nat.zero_le _
  · rw [hs.received] at hlt
    cases hlt

theorem run_holds {start : World} (hs : Start start) (hrun : RunOn Calm World.step start l w) : Holds l w := by
  induction hrun with
  | nil => exact hs.holds
  | snoc _ hcalm hst ih => exact holds_step ih hcalm hst

/-- No control-plane event before the session settles, no snapshot, and no further epoch rolled back. -/
def Quiet (_ : List (Nat × EventRow)) (w : World) : Happens → Prop
  | .controlPlane _ _ => w.cache.ingestRollback.all Watch.settled = true
  | .snapshot historyEpoch _ => Cache.replacesHistory w.cache.session historyEpoch = false
  | .crash commits => (w.rolledBack commits).all (·.eventEpoch == w.epoch) = true
  | _ => True

theorem settle_reassigns (c : Cache) : c.settleIngestRollback.ingestReassignsSequence = false := by
  unfold Cache.settleIngestRollback Cache.ingestReassignsSequence
  cases c.ingestRollback <;> rfl

theorem note_reassigns (c : Cache) (runnerSeq : Option Nat) (hbefore : c.ingestReassignsSequence = false)
    (hsettled : runnerSeq = none → c.ingestRollback.all Watch.settled = true) :
    (c.noteCommittedIngest runnerSeq).ingestReassignsSequence = false := by
  unfold Cache.noteCommittedIngest
  split
  · exact hbefore
  · rename_i recovery hrecovery
    split
    · exact hbefore
    · rename_i hunsettled
      split
      · rw [hrecovery] at hsettled
        exact absurd (hsettled rfl) hunsettled
      · split
        · exact settle_reassigns c
        · rfl

theorem append_quiet (payload : Payload) (ts : Nat) (runnerSeq : Option Nat) (hbefore : c.ingestReassignsSequence = false)
    (hsettled : runnerSeq = none → c.ingestRollback.all Watch.settled = true) :
    (c.appendEvent payload ts runnerSeq).ingestReassignsSequence = false ∧
      (c.appendEvent payload ts runnerSeq).session.eventEpoch = c.session.eventEpoch := by
  refine ⟨note_reassigns _ runnerSeq hbefore hsettled, ?_⟩
  unfold Cache.appendEvent
  rw [note_session, raiseHydratedSeq_eventEpoch]
  have hingest : c.ingestSession runnerSeq.isSome = c.session := by
    unfold Cache.ingestSession
    rw [hbefore, Bool.and_false]
    rfl
  rw [hingest]
  rfl

theorem page_quiet (expected : Cache.Expected) (events : List Cache.HydratedRunnerEvent)
    (hbefore : c.ingestReassignsSequence = false) :
    (c.appendHydratedPage expected events).1.ingestReassignsSequence = false ∧
      (c.appendHydratedPage expected events).1.session.eventEpoch = c.session.eventEpoch := by
  unfold Cache.appendHydratedPage
  split
  · exact ⟨hbefore, rfl⟩
  · split
    · exact ⟨hbefore, rfl⟩
    · split
      · exact ⟨hbefore, rfl⟩
      · refine ⟨note_reassigns _ _ hbefore (fun h => by cases h), ?_⟩
        rw [note_session]
        refine (insertPage_eventEpoch events _).trans ?_
        rw [ingest_epoch, hbefore]
        rfl

theorem snapshot_quiet {historyEpoch : Option Nat} (tailSeq : Nat) (hsame : Cache.replacesHistory c.session historyEpoch = false)
    (hbefore : c.ingestReassignsSequence = false) :
    (c.reconcileRunnerHistory historyEpoch tailSeq).1.ingestReassignsSequence = false ∧
      (c.reconcileRunnerHistory historyEpoch tailSeq).1.session.eventEpoch = c.session.eventEpoch := by
  unfold Cache.reconcileRunnerHistory
  simp only [noteRunnerTail_session]
  refine ⟨?_, ?_⟩
  · unfold Cache.noteRunnerTail
    split
    · exact settle_reassigns _
    · unfold Cache.ingestReassignsSequence at hbefore ⊢
      simp only
      cases hrecovery : c.ingestRollback with
      | none => rfl
      | some recovery =>
        rw [hrecovery] at hbefore
        rw [Option.map_some, Option.any_some]
        split <;> exact hbefore
  · unfold Cache.reconciledSession
    rw [hsame]
    rfl

theorem quiet_step {e : Happens} (hquiet : Quiet l w e) (hst : World.step w e = some (w', o)) (hbefore : w.waits = false) :
    w'.waits = false ∧ w'.epoch = w.epoch := by
  obtain ⟨after, hnext, heq⟩ := Option.map_eq_some_iff.1 hst
  cases heq
  cases e with
  | controlPlane payload ts =>
    cases hnext
    exact append_quiet payload ts none hbefore (fun _ => hquiet)
  | live payload ts =>
    cases hnext
    unfold World.live
    simp only
    split
    · exact append_quiet payload ts _ hbefore (fun h => by cases h)
    · exact ⟨hbefore, rfl⟩
  | emit =>
    cases hnext
    exact ⟨hbefore, rfl⟩
  | page expected events =>
    have hpage := page_quiet expected events hbefore
    have hnext : w.page expected events = some w' := hnext
    unfold World.page at hnext
    split at hnext
    · split at hnext
      · rename_i cache epoch happ
        rw [happ] at hpage
        split at hnext
        · cases hnext
          exact ⟨hbefore, rfl⟩
        · cases hnext
          exact hpage
      · cases hnext
        exact ⟨hbefore, rfl⟩
    · cases hnext
  | snapshot historyEpoch tailSeq =>
    have hsnapshot := snapshot_quiet tailSeq hquiet hbefore
    have hnext : w.snapshot historyEpoch tailSeq = some w' := hnext
    unfold World.snapshot at hnext
    simp only at hnext
    split at hnext
    · cases hnext
      exact hsnapshot
    · split at hnext
      · cases hnext
        exact hsnapshot
      · cases hnext
  | flush =>
    cases hnext
    exact ⟨hbefore, rfl⟩
  | crash commits =>
    obtain ⟨s, hs, heq⟩ := Option.map_eq_some_iff.1 hnext
    cases heq
    have hepoch : (w.rolledBack commits).all (·.eventEpoch == w.epoch) = true := hquiet
    rw [hs, Option.all_some, beq_iff_eq] at hepoch
    exact ⟨rfl, hepoch⟩

/-- **A quiet run** stays in its epoch. -/
theorem quiet_run {k : List (Nat × EventRow)} (hrun : RunOn Quiet World.step w k w') (hbefore : w.waits = false) :
    w'.waits = false ∧ w'.epoch = w.epoch := by
  induction hrun with
  | nil => exact ⟨hbefore, rfl⟩
  | snoc _ hquiet hst ih =>
    obtain ⟨hwaits, hepoch⟩ := quiet_step hquiet hst ih.1
    exact ⟨hwaits, hepoch.trans ih.2⟩

end Wollipog.Transcript
