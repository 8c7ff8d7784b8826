import Wollipog.Campaign.Store
import Wollipog.Lib.Run
/-!
# Scan — what a scan and a pass do to one record

A record a scan observes is written from the stored row; one that it does not observe is closed.
-/
namespace Wollipog.Campaign

variable {scan : Scan} {table : Table} {id : Identity} {o : CampaignRecoveryObservation} {row : Option Row} {r : Row}

theorem get_openRows {campaignId : String} : (openRows table campaignId).get id =
    (table.get id).filter (fun r => id.campaignId == campaignId && !r.record.state.terminal) := OrdMap.get_filter _ _ _

theorem openRows_some {campaignId : String} (h : (openRows table campaignId).get id = some r) :
    table.get id = some r ∧ id.campaignId = campaignId ∧ r.record.state.terminal = false := by
  rw [get_openRows, Option.filter_eq_some_iff, Bool.and_eq_true, beq_iff_eq, Bool.not_eq_true'] at h
  exact ⟨h.1, h.2.1, h.2.2⟩

theorem openRows_open {campaignId : String} (hr : table.get id = some r) (hc : id.campaignId = campaignId)
    (hopen : r.record.state.terminal = false) : (openRows table campaignId).get id = some r := by
  rw [get_openRows, hr, Option.filter_eq_some_iff]
  refine ⟨rfl, ?_⟩
  rw [hc, hopen, beq_self_eq_true]
  rfl

theorem get_observe (scan : Scan) (previous : Table) (seen : Table × Bool) (o : CampaignRecoveryObservation) (id : Identity) :
    (observe scan previous seen o).1.get id =
      if scan.idOf o = id ∧ scan.unchanged ((previous.get id).or (seen.1.get id)) o = false then
        some (scan.next ((previous.get id).or (seen.1.get id)) o)
      else seen.1.get id := by
  unfold observe
  dsimp only
  by_cases hid : scan.idOf o = id
  · subst hid
    cases hu : scan.unchanged ((previous.get (scan.idOf o)).or (seen.1.get (scan.idOf o))) o with
    | true => rw [if_pos rfl, if_neg (fun h => Bool.noConfusion h.2)]
    | false => rw [if_neg Bool.false_ne_true, if_pos ⟨rfl, rfl⟩, OrdMap.get_set_self]
  · have hnot : ¬(scan.idOf o = id ∧ scan.unchanged ((previous.get id).or (seen.1.get id)) o = false) := fun h => hid h.1
    rw [if_neg hnot]
    split
    · rfl
    · exact OrdMap.get_set_ne _ _ (Ne.symm hid)

theorem get_closeUnobserved (scan : Scan) (observed : List Identity) (seen : Table × Bool) (entry : Identity × Row) (id : Identity) :
    (closeUnobserved scan observed seen entry).1.get id =
      if entry.1 = id ∧ entry.2.record.state.terminal = false ∧ id ∉ observed then some (scan.drop entry.2) else seen.1.get id := by
  unfold closeUnobserved
  by_cases hid : entry.1 = id
  · subst hid
    cases ht : entry.2.record.state.terminal with
    | true => rw [Bool.true_or, if_pos rfl, if_neg (fun h => Bool.noConfusion h.2.1)]
    | false =>
      by_cases hobs : entry.1 ∈ observed
      · rw [Bool.false_or, if_pos (List.contains_iff_mem.2 hobs), if_neg (fun h => h.2.2 hobs)]
      · rw [Bool.false_or, if_neg (fun h => hobs (List.contains_iff_mem.1 h)), if_pos ⟨rfl, rfl, hobs⟩, OrdMap.get_set_self]
  · have hnot : ¬(entry.1 = id ∧ entry.2.record.state.terminal = false ∧ id ∉ observed) := fun h => hid h.1
    rw [if_neg hnot]
    split
    · rfl
    · exact OrdMap.get_set_ne _ _ (Ne.symm hid)

/-- **The rule of a scan**: what the stored row meets, and every write keeps. -/
theorem synchronize_rule (Q : Option Row → Prop) (h0 : Q (table.get id))
    (hnext : ∀ o ∈ scan.observations, scan.idOf o = id → ∀ row, Q row → scan.unchanged row o = false →
      (∀ r, table.get id = some r → r.record.state.terminal = false → row = some r) → Q (some (scan.next row o)))
    (hdrop : ∀ r, table.get id = some r → r.record.state.terminal = false → id ∉ scan.observations.map scan.idOf →
      Q (some (scan.drop r))) : Q ((synchronize scan table).1.get id) := by
  have hobserved : ∀ (l : List CampaignRecoveryObservation), (∀ o ∈ l, o ∈ scan.observations) → ∀ seen : Table × Bool,
      Q (seen.1.get id) → Q ((l.foldl (observe scan (openRows table scan.campaignId)) seen).1.get id) := by
    intro l
    induction l with
    | nil => exact fun _ _ hseen => hseen
    | cons o l ih =>
      intro hl seen hseen
      refine ih (fun x hx => hl x (List.mem_cons_of_mem o hx)) _ ?_
      rw [get_observe]
      split
      · rename_i hwrite
        obtain ⟨hid, hchanged⟩ := hwrite
        refine hnext o (hl o List.mem_cons_self) hid _ ?_ hchanged ?_
        · -- an open record is compared with its stored row
          cases hp : (openRows table scan.campaignId).get id with
          | none => rwa [Option.none_or]
          | some r =>
            rw [Option.some_or, ← (openRows_some hp).1]
            exact h0
        · intro r hr hopen
          rw [openRows_open hr (by rw [← hid]; rfl) hopen, Option.some_or]
      · exact hseen
  have hclosed : ∀ (l : List (Identity × Row)), (∀ e ∈ l, e ∈ (openRows table scan.campaignId).entries) → ∀ seen : Table × Bool,
      Q (seen.1.get id) → Q ((l.foldl (closeUnobserved scan (scan.observations.map scan.idOf)) seen).1.get id) := by
    intro l
    induction l with
    | nil => exact fun _ _ hseen => hseen
    | cons e l ih =>
      intro hl seen hseen
      refine ih (fun x hx => hl x (List.mem_cons_of_mem e hx)) _ ?_
      rw [get_closeUnobserved]
      split
      · rename_i hwrite
        obtain ⟨rfl, hopen, hnot⟩ := hwrite
        have hget := (openRows_some (OrdMap.get_of_mem (hl e List.mem_cons_self))).1
        exact hdrop e.2 hget hopen hnot
      · exact hseen
  exact hclosed _ (fun _ he => he) _ (hobserved _ (fun _ ho => ho) _ h0)

section Pass

variable {pass : Pass} {before : Identity → Identity → Bool}

theorem Pass.due_iff {record : CampaignRecoveryRecord} : pass.due record = true ↔
    record.dispatchFenced = false ∧ record.policyRevision = pass.policyRevision ∧ record.effectiveOwner = .orchestrator ∧
      (record.state = .ready ∨ record.state = .backoff) ∧ record.nextAttemptAt.getD 0 ≤ pass.now ∧ pass.eligible record = true := by
  unfold Pass.due
  simp only [Bool.and_eq_true, Bool.not_eq_true', beq_iff_eq, Bool.or_eq_true, decide_eq_true_iff, and_assoc]

theorem dispatchRows_spec (pass : Pass) : ∀ (l : List (Identity × Row)) (count : ℕ) (table : Table), (l.map Prod.fst).Nodup →
    (∀ e ∈ l, table.get e.1 = some e.2 ∧ e.2.record.id = e.1) →
    ((dispatchRows pass l count table).2.map Prod.fst).Nodup ∧
    (∀ w ∈ (dispatchRows pass l count table).2, ∃ r, (w.1, r) ∈ l ∧ pass.due r.record = true ∧ w.2 = r.record.attempts + 1 ∧
      (dispatchRows pass l count table).1.get w.1 = some (pass.dispatched r)) ∧
    ∀ id, id ∉ (dispatchRows pass l count table).2.map Prod.fst → (dispatchRows pass l count table).1.get id = table.get id
  | [], _, _, _, _ => ⟨List.nodup_nil, List.forall_mem_nil _, fun _ _ => rfl⟩
  | (key, r) :: rest, count, table, hnodup, hrows => by
    rw [List.map_cons, List.nodup_cons] at hnodup
    obtain ⟨hkey, hrest⟩ := hnodup
    obtain ⟨hget, hid⟩ := hrows (key, r) List.mem_cons_self
    dsimp only at hget hid hkey
    rw [dispatchRows]
    split
    · exact ⟨List.nodup_nil, List.forall_mem_nil _, fun _ _ => rfl⟩
    · split
      · rename_i hdue
        have hother : ∀ e ∈ rest, e.1 ≠ key := fun e he h => hkey (h ▸ List.mem_map_of_mem he)
        obtain ⟨hnodup, hwakes, hsame⟩ := dispatchRows_spec pass rest (count + 1) (table.set key (pass.dispatched r)) hrest (by
          intro e he
          rw [OrdMap.get_set_ne _ _ (hother e he)]
          exact hrows e (List.mem_cons_of_mem _ he))
        dsimp only
        generalize dispatchRows pass rest (count + 1) (table.set key (pass.dispatched r)) = after at hnodup hwakes hsame ⊢
        have hnew : key ∉ after.2.map Prod.fst := by
          intro hmem
          obtain ⟨w, hw, rfl⟩ := List.mem_map.1 hmem
          obtain ⟨r', hr', -⟩ := hwakes w hw
          exact hother _ hr' rfl
        refine ⟨?_, ?_, ?_⟩
        · rw [List.map_cons, hid, List.nodup_cons]
          exact ⟨hnew, hnodup⟩
        · intro w hw
          rcases List.mem_cons.1 hw with rfl | hw
          · refine ⟨r, ?_, hdue, rfl, ?_⟩
            · dsimp only
              rw [hid]
              exact List.mem_cons_self
            · dsimp only
              rw [hid, hsame key hnew, OrdMap.get_set_self]
          · obtain ⟨r', hr', hdue', hn, hget'⟩ := hwakes w hw
            exact ⟨r', List.mem_cons_of_mem _ hr', hdue', hn, hget'⟩
        · intro id hnot
          rw [List.map_cons, hid, List.mem_cons, not_or] at hnot
          rw [hsame id hnot.2, OrdMap.get_set_ne _ _ hnot.1]
      · obtain ⟨hnodup, hwakes, hsame⟩ := dispatchRows_spec pass rest count table hrest
          (fun e he => hrows e (List.mem_cons_of_mem _ he))
        refine ⟨hnodup, ?_, hsame⟩
        intro w hw
        obtain ⟨r', hr', hrest'⟩ := hwakes w hw
        exact ⟨r', List.mem_cons_of_mem _ hr', hrest'⟩

/-- **What a pass does** to a table whose rows hold their own ids. -/
theorem dispatchDue_spec (before : Identity → Identity → Bool) (pass : Pass) (hids : ∀ id r, table.get id = some r → r.record.id = id) :
    ((dispatchDue before pass table).2.map Prod.fst).Nodup ∧
    (∀ w ∈ (dispatchDue before pass table).2, ∃ r, table.get w.1 = some r ∧ pass.due r.record = true ∧
      w.2 = r.record.attempts + 1 ∧ (dispatchDue before pass table).1.get w.1 = some (pass.dispatched r)) ∧
    ∀ id, id ∉ (dispatchDue before pass table).2.map Prod.fst → (dispatchDue before pass table).1.get id = table.get id := by
  have hperm := List.perm_insertionSort (fun a b : Identity × Row => before a.1 b.1 = true) (openRows table pass.campaignId).entries
  have hrows : ∀ e ∈ (openRows table pass.campaignId).entries.insertionSort (fun a b => before a.1 b.1 = true),
      table.get e.1 = some e.2 ∧ e.2.record.id = e.1 := by
    intro e he
    have hget := (openRows_some (OrdMap.get_of_mem (hperm.mem_iff.1 he))).1
    exact ⟨hget, hids _ _ hget⟩
  obtain ⟨hnodup, hwakes, hsame⟩ := dispatchRows_spec pass _ 0 table
    ((hperm.map Prod.fst).nodup_iff.2 (openRows table pass.campaignId).nodup) hrows
  refine ⟨hnodup, ?_, hsame⟩
  intro w hw
  obtain ⟨r, hr, hdue, hn, hget⟩ := hwakes w hw
  exact ⟨r, (hrows _ hr).1, hdue, hn, hget⟩

theorem dispatchDue_row (before : Identity → Identity → Bool) (pass : Pass) (hids : ∀ id r, table.get id = some r → r.record.id = id) (id : Identity) :
    ((dispatchDue before pass table).1.get id = table.get id ∧ id ∉ (dispatchDue before pass table).2.map Prod.fst) ∨
    ∃ r, table.get id = some r ∧ pass.due r.record = true ∧ (id, r.record.attempts + 1) ∈ (dispatchDue before pass table).2 ∧
      (dispatchDue before pass table).1.get id = some (pass.dispatched r) := by
  obtain ⟨-, hwakes, hsame⟩ := dispatchDue_spec before pass hids
  by_cases hid : id ∈ (dispatchDue before pass table).2.map Prod.fst
  · obtain ⟨w, hw, rfl⟩ := List.mem_map.1 hid
    obtain ⟨r, hr, hdue, hn, hget⟩ := hwakes w hw
    refine .inr ⟨r, hr, hdue, ?_, hget⟩
    rw [← hn]
    exact hw
  · exact .inl ⟨hsame id hid, hid⟩

end Pass

end Wollipog.Campaign
