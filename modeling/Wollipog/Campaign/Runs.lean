import Wollipog.Campaign.Fenced
/-!
# Runs — recovery over whole runs

What one scan or one pass keeps of every row, and from it what every run keeps.
-/
namespace Wollipog.Campaign

open Sys CAMPAIGN_RECOVERY_LIMITS

inductive Event
  | scan (scan : Scan)
  | dispatch (pass : Pass)

/-- What an observer sees: the wakes, a fresh occurrence of a record, and a record being closed. -/
inductive Seen
  | woke (id : Identity) (attempt : ℕ)
  | fresh (id : Identity)
  | ended (id : Identity)
  deriving DecidableEq

def isOpen (row : Option Row) : Bool := row.any (fun r => !r.record.state.terminal)

def scanSeen (scan : Scan) (table after : Table) : List Seen :=
  (scan.observations.filter (fun o => scan.authorized && Scan.freshOccurrence (table.get (scan.idOf o)) o)).map
      (fun o => .fresh (scan.idOf o)) ++
    (table.keys.filter (fun id => isOpen (table.get id) && !isOpen (after.get id))).map .ended

/-- `before` is the order of the hashes of the ids. -/
def step (before : Identity → Identity → Bool) (table : Table) : Event → Option (Table × List Seen)
  | .scan scan => some ((synchronize scan table).1, scanSeen scan table (synchronize scan table).1)
  | .dispatch pass => some ((dispatchDue before pass table).1, (dispatchDue before pass table).2.map (fun w => .woke w.1 w.2))

def Settles (table : Table) : Event → Prop
  | .scan scan => ∀ o ∈ scan.observations, ∀ r, table.get (scan.idOf o) = some r → ¬Reopens scan r o
  | .dispatch _ => True

variable {before : Identity → Identity → Bool} {scan : Scan} {pass : Pass} {table : Table} {id : Identity} {r : Row}

theorem scan_wf (h : ∀ id r, table.get id = some r → Wf id r) (hr : (synchronize scan table).1.get id = some r) : Wf id r := by
  have hrule : ∀ r, (synchronize scan table).1.get id = some r → Wf id r :=
    synchronize_rule (fun row => ∀ r, row = some r → Wf id r) (fun r hr => h id r hr)
      (fun o _ hid _ _ _ _ r hr => by cases hr; exact wf_next hid) (fun r hr _ _ r' hr' => by cases hr'; exact (h id r hr).drop scan)
  exact hrule r hr

theorem scan_attempts (scan : Scan) (hr : table.get id = some r) :
    ∃ r', (synchronize scan table).1.get id = some r' ∧ r'.record.attempts = r.record.attempts := by
  refine synchronize_rule (fun row => ∃ r', row = some r' ∧ r'.record.attempts = r.record.attempts) ⟨r, hr, rfl⟩ ?_ ?_
  · rintro o _ _ row ⟨r', rfl, hsame⟩ _ _
    exact ⟨_, rfl, hsame⟩
  · intro r' hr' _ _
    rw [hr, Option.some.injEq] at hr'
    subst hr'
    exact ⟨_, rfl, rfl⟩

/-- **A fence stays** unless an authorized scan finds a fresh occurrence. -/
theorem scan_fenced (scan : Scan) (hr : table.get id = some r) (hfenced : r.record.dispatchFenced = true) :
    (∃ r', (synchronize scan table).1.get id = some r' ∧ r'.record.dispatchFenced = true) ∨
      ∃ o ∈ scan.observations, scan.idOf o = id ∧ scan.authorized = true ∧ Scan.freshOccurrence (some r) o = true := by
  cases hauthorized : scan.authorized with
  | false =>
    refine .inl (synchronize_rule (fun row => ∃ r', row = some r' ∧ r'.record.dispatchFenced = true) ⟨r, hr, hfenced⟩ ?_ ?_)
    · exact fun o _ _ row _ _ _ => ⟨_, rfl, Scan.dispatchFenced_unauthorized hauthorized⟩
    · intro r' hr' _ _
      rw [hr, Option.some.injEq] at hr'
      subst hr'
      exact ⟨_, rfl, drop_fenced scan hfenced⟩
  | true =>
    -- the row keeps its occurrence until one that is fresh against the stored row comes
    have hkept : (∃ r', (synchronize scan table).1.get id = some r' ∧ r'.record.dispatchFenced = true ∧
        r'.record.resource.occurrenceId = r.record.resource.occurrenceId ∧
        r'.record.resource.sessionId = r.record.resource.sessionId) ∨
        ∃ o ∈ scan.observations, scan.idOf o = id ∧ Scan.freshOccurrence (some r) o = true := by
      refine synchronize_rule (fun row => (∃ r', row = some r' ∧ r'.record.dispatchFenced = true ∧
        r'.record.resource.occurrenceId = r.record.resource.occurrenceId ∧
        r'.record.resource.sessionId = r.record.resource.sessionId) ∨
        ∃ o ∈ scan.observations, scan.idOf o = id ∧ Scan.freshOccurrence (some r) o = true) (.inl ⟨r, hr, hfenced, rfl, rfl⟩) ?_ ?_
      · rintro o ho hid row (⟨r', rfl, hf, hoccurrence, hsession⟩ | hfresh) _ _
        · cases hfresh : Scan.freshOccurrence (some r) o with
          | true => exact .inr ⟨o, ho, hid, hfresh⟩
          | false =>
            have hsame : Scan.freshOccurrence (some r') o = false := by
              unfold Scan.freshOccurrence at hfresh ⊢
              rw [Option.any_some, hoccurrence, hsession]
              exact hfresh
            refine .inl ⟨_, rfl, Scan.dispatchFenced_of_fenced hf (by rw [hsame, Bool.and_false]), ?_⟩
            unfold Scan.freshOccurrence at hfresh
            rw [Option.any_some, Bool.or_eq_false_iff, bne_eq_false_iff_eq, bne_eq_false_iff_eq] at hfresh
            exact ⟨hfresh.1.symm, hfresh.2.symm⟩
        · exact .inr hfresh
      · intro r' hr' _ _
        rw [hr, Option.some.injEq] at hr'
        subst hr'
        exact .inl ⟨_, rfl, drop_fenced scan hfenced, rfl, rfl⟩
    rcases hkept with ⟨r', hr', hf, -⟩ | ⟨o, ho, hid, hfresh⟩
    · exact .inl ⟨r', hr', hf⟩
    · exact .inr ⟨o, ho, hid, rfl, hfresh⟩

theorem scan_capped (hwf : ∀ id r, table.get id = some r → Wf id r) (hcap : ∀ id r, table.get id = some r → Capped r)
    (hsettles : Settles table (.scan scan)) (hr : (synchronize scan table).1.get id = some r) : Capped r := by
  -- only a stored row is in flight: a scan writes none
  have hrule : ∀ r, (synchronize scan table).1.get id = some r →
      Wf id r ∧ Capped r ∧ (table.get id = some r ∨ r.record.state ≠ .dispatched) := by
    refine synchronize_rule (fun row => ∀ r, row = some r →
      Wf id r ∧ Capped r ∧ (table.get id = some r ∨ r.record.state ≠ .dispatched))
      (fun r hr => ⟨hwf id r hr, hcap id r hr, .inl hr⟩) ?_ ?_
    · intro o ho hid row hrow hchanged _ r hr
      cases hr
      have hsettled : ∀ r, row = some r → Wf id r ∧ Capped r ∧ ¬Reopens scan r o := by
        intro r hr
        obtain ⟨hw, hc, hstored⟩ := hrow r hr
        refine ⟨hw, hc, ?_⟩
        rcases hstored with hstored | hstate
        · rw [← hid] at hstored
          exact hsettles o ho r hstored
        · exact fun hreopens => hstate hreopens.1
      exact ⟨wf_next hid, capped_next hsettled hchanged, .inr Scan.state_ne_dispatched⟩
    · intro r hr _ _ r' hr'
      cases hr'
      refine ⟨(hwf id r hr).drop scan, (hcap id r hr).drop scan, .inr (fun hd => ?_)⟩
      have hterminal := drop_terminal scan r
      rw [hd] at hterminal
      cases hterminal
  exact (hrule r hr).2.1

def Keeps (reason : CampaignRecoveryReason) (record : CampaignRecoveryRecord) : Prop :=
  record.state = .blocked ∧ record.reason.hard = true ∧ (record.reason = reason ∨ escalates reason record.reason = true)

/-- **A hard block stays** until its record is closed; only a higher stop label replaces its reason. -/
theorem scan_hard (scan : Scan) (hwf : Wf id r) (hcap : Capped r) (hr : table.get id = some r) (hhard : r.record.reason.hard = true)
    (hopen : r.record.state.terminal = false) :
    ∃ r', (synchronize scan table).1.get id = some r' ∧ (r'.record.state.terminal = true ∨ Keeps r.record.reason r'.record) := by
  have hblocked : r.record.state = .blocked := by
    rcases hwf.blocked hhard with hb | hb
    · exact hb
    · rw [hb] at hopen
      cases hopen
  refine synchronize_rule (fun row => ∃ r', row = some r' ∧ (r'.record.state.terminal = true ∨ Keeps r.record.reason r'.record))
    ⟨r, hr, .inr ⟨hblocked, hhard, .inl rfl⟩⟩ ?_ ?_
  · intro o _ hid row _ _ hstored
    obtain rfl := hstored r hr hopen
    refine ⟨_, rfl, ?_⟩
    cases hresolved : o.resolved with
    | true =>
      have hstate : (scan.next (some r) o).record.state = .resolved := Scan.state_resolved hresolved
      rw [hstate]
      exact .inl rfl
    | false =>
      have hkeeps : Scan.firstReason scan (some r) o = r.record.reason ∨
          (escalates r.record.reason o.reason = true ∧ Scan.firstReason scan (some r) o = o.reason) := by
        unfold Scan.firstReason
        split
        · rename_i hmax
          simp only [Bool.and_eq_true, decide_eq_true_iff] at hmax
          have hlabel := hcap.label (Nat.le_antisymm hcap.attempts hmax.1.1) hhard hopen
          exact .inl hlabel.symm
        · dsimp only
          split
          · exact .inl rfl
          · rename_i hnot
            rw [hhard, hopen, hresolved, Bool.not_false, Bool.true_and, Bool.true_and, Bool.true_and, Bool.not_eq_true',
              Bool.not_eq_false] at hnot
            unfold Scan.escalatedStop at hnot
            rw [Option.any_some, Bool.and_eq_true] at hnot
            exact .inr ⟨hnot.2, rfl⟩
      have hfirst : (Scan.firstReason scan (some r) o).hard = true := by
        rcases hkeeps with h | ⟨hup, h⟩
        · rw [h]
          exact hhard
        · rw [h]
          exact escalates_hard hup
      have hreason : (scan.next (some r) o).record.reason = Scan.firstReason scan (some r) o := Scan.reason_of_hard hfirst
      rcases Scan.state_hard hfirst with hstate | hstate
      · refine .inr ⟨hstate, by rw [hreason]; exact hfirst, ?_⟩
        rw [hreason]
        rcases hkeeps with h | ⟨hup, h⟩
        · exact .inl h
        · rw [h]
          exact .inr hup
      · exact .inl hstate
  · intro r' _ _ _
    exact ⟨_, rfl, .inl (drop_terminal scan r')⟩

/-! ## Runs -/

structure Inv (table : Table) : Prop where
  wf : ∀ id r, table.get id = some r → Wf id r
  capped : ∀ id r, table.get id = some r → Capped r

theorem Wf.ids (h : ∀ id r, table.get id = some r → Wf id r) : ∀ id r, table.get id = some r → r.record.id = id :=
  fun id r hr => (h id r hr).recordId

theorem inv_empty : Inv OrdMap.empty := ⟨fun _ _ h => (by cases h), fun _ _ h => (by cases h)⟩

variable {after : Table} {seen : List Seen} {e : Event}

theorem step_wf (h : ∀ id r, table.get id = some r → Wf id r)
    (hst : step before table e = some (after, seen)) : ∀ id r, after.get id = some r → Wf id r := by
  intro id r hr
  cases e with
  | scan scan =>
    cases hst
    exact scan_wf h hr
  | dispatch pass =>
    cases hst
    rcases dispatchDue_row before pass (Wf.ids h) id with ⟨hsame, -⟩ | ⟨r', hr', hdue, -, hget⟩
    · rw [hsame] at hr
      exact h id r hr
    · rw [hget] at hr
      cases hr
      exact (h id r' hr').dispatched hdue

theorem step_inv (h : Inv table) (hC : Settles table e) (hst : step before table e = some (after, seen)) : Inv after := by
  refine ⟨step_wf h.wf hst, fun id r hr => ?_⟩
  cases e with
  | scan scan =>
    cases hst
    exact scan_capped h.wf h.capped hC hr
  | dispatch pass =>
    cases hst
    rcases dispatchDue_row before pass (Wf.ids h.wf) id with ⟨hsame, -⟩ | ⟨r', hr', hdue, -, hget⟩
    · rw [hsame] at hr
      exact h.capped id r hr
    · rw [hget] at hr
      cases hr
      exact (h.capped id r' hr').dispatched (h.wf id r' hr') hdue

def wakes (l : List Seen) : List (Identity × ℕ) :=
  l.filterMap (fun x => match x with
    | .woke id attempt => some (id, attempt)
    | _ => none)

theorem wakes_append (l m : List Seen) : wakes (l ++ m) = wakes l ++ wakes m := List.filterMap_append

theorem wakes_scanSeen (scan : Scan) (table after : Table) : wakes (scanSeen scan table after) = [] := by
  unfold wakes scanSeen
  rw [List.filterMap_eq_nil_iff]
  intro x hx
  rcases List.mem_append.1 hx with hx | hx
  · obtain ⟨o, -, rfl⟩ := List.mem_map.1 hx
    rfl
  · obtain ⟨i, -, rfl⟩ := List.mem_map.1 hx
    rfl

theorem wakes_woke (w : List (Identity × ℕ)) : wakes (w.map (fun w => Seen.woke w.1 w.2)) = w := by
  unfold wakes
  rw [List.filterMap_map]
  exact List.filterMap_some

/-- **The next row of a record**: a step leaves its attempts, or makes the next wake of it. -/
theorem step_attempts (h : ∀ id r, table.get id = some r → Wf id r)
    (hst : step before table e = some (after, seen)) (hr : table.get id = some r) :
    ∃ r', after.get id = some r' ∧ r.record.attempts ≤ r'.record.attempts ∧
      ∀ n, (id, n) ∈ wakes seen → r.record.attempts < n ∧ n ≤ r'.record.attempts := by
  cases e with
  | scan scan =>
    cases hst
    obtain ⟨r', hr', hsame⟩ := scan_attempts scan hr
    refine ⟨r', hr', Nat.le_of_eq hsame.symm, fun n hn => ?_⟩
    rw [wakes_scanSeen] at hn
    cases hn
  | dispatch pass =>
    cases hst
    obtain ⟨-, hwakes, -⟩ := dispatchDue_spec before pass (Wf.ids h)
    rw [wakes_woke]
    rcases dispatchDue_row before pass (Wf.ids h) id with ⟨hsame, hnone⟩ | ⟨r', hr', -, -, hget⟩
    · exact ⟨r, by rw [hsame, hr], le_rfl, fun n hn => absurd (List.mem_map_of_mem hn) hnone⟩
    · rw [hr, Option.some.injEq] at hr'
      subst hr'
      refine ⟨_, hget, Nat.le_succ _, fun n hn => ?_⟩
      obtain ⟨r', hr', -, hn', -⟩ := hwakes _ hn
      dsimp only at hr' hn'
      rw [hr, Option.some.injEq] at hr'
      subst hr'
      rw [hn']
      exact ⟨Nat.lt_succ_self _, le_rfl⟩

theorem step_wake (h : ∀ id r, table.get id = some r → Wf id r) (hst : step before table e = some (after, seen)) :
    ((wakes seen).map Prod.fst).Nodup ∧ ∀ w ∈ wakes seen, ∃ r, table.get w.1 = some r ∧ w.2 = r.record.attempts + 1 ∧
      ∃ pass, e = .dispatch pass ∧ pass.due r.record = true := by
  cases e with
  | scan scan =>
    cases hst
    rw [wakes_scanSeen]
    exact ⟨List.nodup_nil, List.forall_mem_nil _⟩
  | dispatch pass =>
    cases hst
    rw [wakes_woke]
    obtain ⟨hnodup, hwakes, -⟩ := dispatchDue_spec before pass (Wf.ids h)
    refine ⟨hnodup, fun w hw => ?_⟩
    obtain ⟨r, hr, hdue, hn, -⟩ := hwakes w hw
    exact ⟨r, hr, hn, pass, rfl, hdue⟩

variable {l m : List Seen} {C : List Seen → Table → Event → Prop}

theorem run_wf {after : Table} (h : RunOn C (step before) table l after)
    (hwf : ∀ id r, table.get id = some r → Wf id r) : ∀ id r, after.get id = some r → Wf id r :=
  h.inv (fun t => ∀ id r, t.get id = some r → Wf id r) (fun _ _ _ _ hst hw => step_wf hw hst) hwf

theorem run_inv {after : Table} (h : RunOn (fun _ => Settles) (step before) table l after) (hinv : Inv table) : Inv after := by
  refine RunOn.hist (fun _ t => Inv t) hinv ?_ h
  intro _ t e u o hi hC hst
  exact step_inv hi hC hst

/-- **No wake is made twice**: the attempts of a record are above its wakes. -/
theorem run_wakes {after : Table} (h : RunOn C (step before) OrdMap.empty l after) : (wakes l).Nodup := by
  have hall : (∀ id r, after.get id = some r → Wf id r) ∧
      (∀ w ∈ wakes l, ∃ r, after.get w.1 = some r ∧ w.2 ≤ r.record.attempts) ∧ (wakes l).Nodup := by
    refine RunOn.hist (fun l t => (∀ id r, t.get id = some r → Wf id r) ∧
      (∀ w ∈ wakes l, ∃ r, t.get w.1 = some r ∧ w.2 ≤ r.record.attempts) ∧ (wakes l).Nodup)
      ⟨inv_empty.wf, List.forall_mem_nil _, List.nodup_nil⟩ ?_ h
    rintro l t e u o ⟨hwf, hmade, hnodup⟩ - hst
    obtain ⟨hnew, hwake⟩ := step_wake hwf hst
    refine ⟨step_wf hwf hst, ?_, ?_⟩
    · intro w hw
      rw [wakes_append] at hw
      rcases List.mem_append.1 hw with hw | hw
      · obtain ⟨r, hr, hle⟩ := hmade w hw
        obtain ⟨r', hr', hmono, -⟩ := step_attempts hwf hst hr
        exact ⟨r', hr', hle.trans hmono⟩
      · obtain ⟨r, hr, -⟩ := hwake w hw
        obtain ⟨r', hr', -, hbound⟩ := step_attempts hwf hst hr
        exact ⟨r', hr', (hbound w.2 hw).2⟩
    · rw [wakes_append, List.nodup_append]
      refine ⟨hnodup, hnew.of_map, ?_⟩
      rintro w hold _ hw rfl
      obtain ⟨r, hr, hle⟩ := hmade w hold
      obtain ⟨r', hr', -, hbound⟩ := step_attempts hwf hst hr
      exact absurd (hbound w.2 hw).1 (Nat.not_lt.2 hle)
  exact hall.2.2

theorem run_attempts {after : Table}
    (hwf : ∀ id r, table.get id = some r → Wf id r) (h : RunOn C (step before) table m after) (hr : table.get id = some r) :
    ∃ r', after.get id = some r' ∧ r.record.attempts ≤ r'.record.attempts := by
  have hall : (∀ id r, after.get id = some r → Wf id r) ∧ ∃ r', after.get id = some r' ∧ r.record.attempts ≤ r'.record.attempts := by
    refine RunOn.hist (fun _ t => (∀ id r, t.get id = some r → Wf id r) ∧
      ∃ r', t.get id = some r' ∧ r.record.attempts ≤ r'.record.attempts) ⟨hwf, r, hr, le_rfl⟩ ?_ h
    rintro l t e u o ⟨hw, r', hr', hle⟩ - hst
    obtain ⟨r'', hr'', hmono, -⟩ := step_attempts hw hst hr'
    exact ⟨step_wf hw hst, r'', hr'', hle.trans hmono⟩
  exact hall.2

theorem step_fenced (hwf : ∀ id r, table.get id = some r → Wf id r)
    (hst : step before table e = some (after, seen)) (hr : table.get id = some r) (hfenced : r.record.dispatchFenced = true) :
    (.fresh id ∈ seen ∨ ∃ r', after.get id = some r' ∧ r'.record.dispatchFenced = true) ∧ ∀ n, .woke id n ∉ seen := by
  have hquiet : ∀ n, (id, n) ∉ wakes seen := by
    intro n hn
    obtain ⟨r', hr', -, pass, -, hdue⟩ := (step_wake hwf hst).2 (id, n) hn
    rw [hr, Option.some.injEq] at hr'
    subst hr'
    rw [(Pass.due_iff.1 hdue).1] at hfenced
    cases hfenced
  refine ⟨?_, fun n hn => hquiet n (List.mem_filterMap.2 ⟨_, hn, rfl⟩)⟩
  cases e with
  | scan scan =>
    cases hst
    rcases scan_fenced scan hr hfenced with hkept | ⟨o, ho, hid, hauthorized, hfresh⟩
    · exact .inr hkept
    · refine .inl (List.mem_append_left _ (List.mem_map.2 ⟨o, List.mem_filter.2 ⟨ho, ?_⟩, by rw [hid]⟩))
      rw [hid, hr, hauthorized, hfresh]
      rfl
  | dispatch pass =>
    cases hst
    rcases dispatchDue_row before pass (Wf.ids hwf) id with ⟨hsame, -⟩ | ⟨r', hr', hdue, -, -⟩
    · exact .inr ⟨r, by rw [hsame, hr], hfenced⟩
    · rw [hr, Option.some.injEq] at hr'
      subst hr'
      rw [(Pass.due_iff.1 hdue).1] at hfenced
      cases hfenced

/-- **No wake of a fenced record** before an authorized scan finds a fresh occurrence of it. -/
theorem run_fenced {after : Table}
    (hwf : ∀ id r, table.get id = some r → Wf id r) (h : RunOn C (step before) table m after) (hr : table.get id = some r)
    (hfenced : r.record.dispatchFenced = true) :
    ∀ pre n post, m = pre ++ .woke id n :: post → .fresh id ∈ pre := by
  have hall : Told (fun pre x => ∀ n, x = .woke id n → .fresh id ∈ pre) [] m ∧ (∀ id r, after.get id = some r → Wf id r) ∧
      (.fresh id ∈ m ∨ ∃ r', after.get id = some r' ∧ r'.record.dispatchFenced = true) := by
    refine RunOn.hist (fun m t => Told (fun pre x => ∀ n, x = .woke id n → .fresh id ∈ pre) [] m ∧
      (∀ id r, t.get id = some r → Wf id r) ∧ (.fresh id ∈ m ∨ ∃ r', t.get id = some r' ∧ r'.record.dispatchFenced = true))
      ⟨told_nil _ _, hwf, .inr ⟨r, hr, hfenced⟩⟩ ?_ h
    rintro l t e u o ⟨htold, hw, hstate⟩ - hst
    rcases hstate with hfresh | ⟨r', hr', hf⟩
    · refine ⟨told_append htold ?_, step_wf hw hst, .inl (List.mem_append_left _ hfresh)⟩
      intro pre x post _ n _
      exact List.mem_append_left _ hfresh
    · obtain ⟨hnext, hquiet⟩ := step_fenced hw hst hr' hf
      refine ⟨told_append htold ?_, step_wf hw hst, ?_⟩
      · rintro pre x post ho n rfl
        exact absurd (ho ▸ List.mem_append_cons_self) (hquiet n)
      · rcases hnext with hfresh | hkept
        · exact .inl (List.mem_append_right _ hfresh)
        · exact .inr hkept
  intro pre n post hm
  exact hall.1 pre _ post hm n rfl

theorem Keeps.trans {a : CampaignRecoveryReason} {b c : CampaignRecoveryRecord} (hab : Keeps a b) (hbc : Keeps b.reason c) :
    Keeps a c := by
  obtain ⟨-, -, hab⟩ := hab
  obtain ⟨hstate, hhard, hbc⟩ := hbc
  refine ⟨hstate, hhard, ?_⟩
  rcases hab with hab | hab
  · rw [hab] at hbc
    exact hbc
  · rcases hbc with hbc | hbc
    · rw [hbc]
      exact .inr hab
    · exact .inr (escalates_trans hab hbc)

theorem step_hard (hinv : Inv table)
    (hst : step before table e = some (after, seen)) (hr : table.get id = some r) (hhard : r.record.reason.hard = true)
    (hstate : r.record.state = .blocked) :
    .ended id ∈ seen ∨ ∃ r', after.get id = some r' ∧ Keeps r.record.reason r'.record := by
  cases e with
  | scan scan =>
    cases hst
    obtain ⟨r', hr', hclosed | hkeeps⟩ := scan_hard scan (hinv.wf id r hr) (hinv.capped id r hr) hr hhard
      (by rw [hstate]; rfl)
    · refine .inl (List.mem_append_right _ (List.mem_map_of_mem (List.mem_filter.2 ⟨OrdMap.mem_keys_iff.2 ⟨r, hr⟩, ?_⟩)))
      rw [hr, hr']
      unfold isOpen
      rw [Option.any_some, Option.any_some, hstate, hclosed]
      rfl
    · exact .inr ⟨r', hr', hkeeps⟩
  | dispatch pass =>
    cases hst
    rcases dispatchDue_row before pass (Wf.ids hinv.wf) id with ⟨hsame, -⟩ | ⟨r', hr', hdue, -, -⟩
    · exact .inr ⟨r, by rw [hsame, hr], hstate, hhard, .inl rfl⟩
    · rw [hr, Option.some.injEq] at hr'
      subst hr'
      obtain ⟨-, -, -, hs, -⟩ := Pass.due_iff.1 hdue
      rw [hstate] at hs
      rcases hs with hs | hs <;> cases hs

/-- **A hard block stays** until its record is closed. -/
theorem run_hard {after : Table} (hinv : Inv table)
    (h : RunOn (fun _ => Settles) (step before) table m after) (hr : table.get id = some r) (hhard : r.record.reason.hard = true)
    (hopen : r.record.state.terminal = false) :
    .ended id ∈ m ∨ ∃ r', after.get id = some r' ∧ Keeps r.record.reason r'.record := by
  have hstate : r.record.state = .blocked := by
    rcases (hinv.wf id r hr).blocked hhard with hb | hb
    · exact hb
    · rw [hb] at hopen
      cases hopen
  have hall : Inv after ∧ (.ended id ∈ m ∨ ∃ r', after.get id = some r' ∧ Keeps r.record.reason r'.record) := by
    refine RunOn.hist (fun m t => Inv t ∧ (.ended id ∈ m ∨ ∃ r', t.get id = some r' ∧ Keeps r.record.reason r'.record))
      ⟨hinv, .inr ⟨r, hr, hstate, hhard, .inl rfl⟩⟩ ?_ h
    rintro l t e u o ⟨hi, hkept⟩ hC hst
    refine ⟨step_inv hi hC hst, ?_⟩
    rcases hkept with hended | ⟨r', hr', hkeeps⟩
    · exact .inl (List.mem_append_left _ hended)
    · rcases step_hard hi hst hr' hkeeps.2.1 hkeeps.1 with hended | ⟨r'', hr'', hnext⟩
      · exact .inl (List.mem_append_right _ hended)
      · exact .inr ⟨r'', hr'', hkeeps.trans hnext⟩
  exact hall.2

/-- **Recovery is single-flight, bounded and fenced** in every run whose scans reopen no wake in flight at its ceiling. -/
theorem recovery_bounded_fenced {l : List Seen} (h : RunOn (fun _ => Settles) (step before) OrdMap.empty l table) :
    (∀ id r, table.get id = some r → r.record.attempts ≤ r.record.maxAttempts) ∧
    (wakes l).Nodup ∧
    (∀ pass id n, (id, n) ∈ (dispatchDue before pass table).2 → ∃ r, table.get id = some r ∧ n = r.record.attempts + 1 ∧
      r.record.dispatchFenced = false ∧ r.record.policyRevision = pass.policyRevision ∧ r.record.effectiveOwner = .orchestrator ∧
      (r.record.state = .ready ∨ r.record.state = .backoff) ∧ r.record.nextAttemptAt.getD 0 ≤ pass.now) ∧
    ∀ m after, RunOn (fun _ => Settles) (step before) table m after → ∀ id r, table.get id = some r →
      (∃ r', after.get id = some r' ∧ r.record.attempts ≤ r'.record.attempts) ∧
      (r.record.state = .cancelled ∨ r.record.dispatchFenced = true →
        ∀ pre n post, m = pre ++ .woke id n :: post → .fresh id ∈ pre) ∧
      (r.record.reason.hard = true → r.record.state.terminal = false →
        .ended id ∈ m ∨ ∃ r', after.get id = some r' ∧ r'.record.state = .blocked ∧
          (r'.record.reason = r.record.reason ∨ escalates r.record.reason r'.record.reason = true)) := by
  have hinv : Inv table := run_inv h inv_empty
  refine ⟨fun id r hr => ?_, run_wakes h, fun pass id n hn => ?_, fun m after hm id r hr => ⟨run_attempts hinv.wf hm hr, ?_, ?_⟩⟩
  · rw [(hinv.wf id r hr).limit]
    exact (hinv.capped id r hr).attempts
  · obtain ⟨r, hr, hdue, hattempt, -⟩ := (dispatchDue_spec before pass (Wf.ids hinv.wf)).2.1 (id, n) hn
    obtain ⟨hfence, hrevision, howner, hstate, htime, -⟩ := Pass.due_iff.1 hdue
    exact ⟨r, hr, hattempt, hfence, hrevision, howner, hstate, htime⟩
  · intro hbarred
    have hfenced : r.record.dispatchFenced = true := hbarred.elim (hinv.wf id r hr).cancelled (fun hf => hf)
    exact run_fenced hinv.wf hm hr hfenced
  · intro hhard hopen
    rcases run_hard hinv hm hr hhard hopen with hended | ⟨r', hr', hstate, -, hlabel⟩
    · exact .inl hended
    · exact .inr ⟨r', hr', hstate, hlabel⟩

def checksObserved (signal : String) (reason : CampaignRecoveryReason) : CampaignRecoveryObservation :=
  ⟨.repairChecks, ⟨.pullRequest, "root", "head", some "a/b", some 5, none⟩, reason, .orchestrator, signal, false, none⟩

def oneObserved (o : CampaignRecoveryObservation) : Scan := ⟨"root", 1, true, [o], 0, fun _ => none⟩

def anyPass : Pass := ⟨"root", 1, 0, fun _ => true⟩

theorem recovery_bounded_fenced_sample :
    (dispatchDue (fun _ _ => true) anyPass (synchronize (oneObserved (checksObserved "1" .failedChecks)) OrdMap.empty).1).2 =
      [((oneObserved (checksObserved "1" .failedChecks)).idOf (checksObserved "1" .failedChecks), 1)] ∧
    ∀ id r, (dispatchDue (fun _ _ => true) anyPass
      (synchronize (oneObserved (checksObserved "1" .failedChecks)) OrdMap.empty).1).1.get id = some r →
        r.record.attempts ≤ r.record.maxAttempts := by
  refine ⟨by decide +kernel, ?_⟩
  have hsettles : Settles OrdMap.empty (Event.scan (oneObserved (checksObserved "1" .failedChecks))) := by
    intro o _ r h
    cases h
  have hstart : RunOn (fun _ => Settles) (step (fun _ _ => true)) OrdMap.empty [] OrdMap.empty := .nil
  have hscan := hstart.snoc hsettles rfl
  have hdispatch : Settles (synchronize (oneObserved (checksObserved "1" .failedChecks)) OrdMap.empty).1 (.dispatch anyPass) := trivial
  have hpass := hscan.snoc hdispatch rfl
  exact (recovery_bounded_fenced hpass).1

/-- Four wakes, each for a changed signal, and a fifth for a changed reason under the signal of the fourth. -/
def pastCeiling : List Event :=
  [.scan (oneObserved (checksObserved "1" .failedChecks)), .dispatch anyPass,
    .scan (oneObserved (checksObserved "2" .failedChecks)), .dispatch anyPass,
    .scan (oneObserved (checksObserved "3" .failedChecks)), .dispatch anyPass,
    .scan (oneObserved (checksObserved "4" .failedChecks)), .dispatch anyPass,
    .scan (oneObserved (checksObserved "4" .reviewerObjection)), .dispatch anyPass]

theorem ceiling_passed : ∃ l table, Run (step (fun _ _ => true)) OrdMap.empty l table ∧
    ∃ id r, table.get id = some r ∧ r.record.maxAttempts < r.record.attempts := by
  have hrun : ((replay (step (fun _ _ => true)) OrdMap.empty pastCeiling).map (fun x => x.1.entries.map (fun e =>
      (e.2.record.maxAttempts, e.2.record.attempts)))) = some [(4, 5)] := by decide +kernel
  obtain ⟨⟨table, l⟩, hreplay, hrows⟩ := Option.map_eq_some_iff.1 hrun
  refine ⟨l, table, replay_run _ _ _ _ hreplay, ?_⟩
  have hmem : (4, 5) ∈ table.entries.map (fun e => (e.2.record.maxAttempts, e.2.record.attempts)) := by
    rw [hrows]
    exact List.mem_cons_self
  obtain ⟨⟨id, r⟩, he, hvalues⟩ := List.mem_map.1 hmem
  rw [Prod.mk.injEq] at hvalues
  refine ⟨id, r, OrdMap.get_of_mem he, ?_⟩
  rw [hvalues.1, hvalues.2]
  decide

end Wollipog.Campaign
