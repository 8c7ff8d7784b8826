import Wollipog.Lib.Run
import Wollipog.Switch.Careful
/-!
# Rows — executions of a server that may stop at any step, and what becomes of an approval's row

The server runs one execution at a time until it awaits or ends. A crash loses every execution and the set in memory,
and keeps the database.
-/
namespace Wollipog
namespace Switch

open Resume

structure Exec where
  args : Args
  note : Note
  code : Code Reply
  waiting : Bool

structure World where
  db : Db
  minted : List String
  executing : List String
  execs : OrdMap Nat Exec
  next : Nat
  busy : Option Nat

def World.init (facts : Facts) : World := ⟨⟨facts, .empty⟩, [], [], .empty, 0, none⟩

inductive Change
  | facts (facts : Facts)
  | propose (occurrenceId sessionId resourceDigest : String) (locationSwitch human : Bool) (snapshot : LocationSwitchSnapshot)
  | assign (occurrenceId : String) (human : Bool)
  | resolve (occurrenceId : String) (approved : Bool) (userId : String) (now : Int) (selectedOptionId : Option String)
  | retire (occurrenceId : String) (superseded : Bool) (resolvedAt : Option Int)
  | settle (occurrenceId : String)
  | discard (occurrenceId : String)

inductive Event
  | call (args : Args)
  | run (fault : Bool)
  | answer (i : Nat) (a : Answer)
  | crash
  | change (c : Change)

inductive Obs
  | read (i : Nat) (db : Db)
  | inspected (i : Nat) (answers : String → LocationInspection)
  | claimed (i : Nat) (args : Args) (action : LocationSwitchAction) (target : LocationSwitchCandidate) (db : Db)
  | attempted (i : Nat) (args : Args) (call : Call)
  | refused (i : Nat) (occurrenceId : String)

def Db.update (db : Db) (occurrenceId : String) (f : Decision → Decision) : Db :=
  { db with decisions := db.decisions.modify occurrenceId f }

def Db.updateWhere (db : Db) (occurrenceId : String) (p : Decision → Bool) (f : Decision → Decision) : Db × Bool :=
  if (db.decisions.get occurrenceId).any p then (db.update occurrenceId f, true) else (db, false)

def claimLocationSwitch (db : Db) (occurrenceId digest : String) (now : Int) (action : LocationSwitchAction)
    (target : LocationSwitchCandidate) : Db × Bool :=
  db.updateWhere occurrenceId (fun d => d.claimable digest)
    (fun d => { d with receipt := some (.starting action target.locationId now) })

def releaseLocationSwitchClaim (db : Db) (occurrenceId : String) : Db × Bool :=
  db.updateWhere occurrenceId Decision.releasable (fun d => { d with receipt := none })

def completeLocationSwitch (db : Db) (occurrenceId digest : String) (result : LocationSwitchResult) : Db × Bool :=
  db.updateWhere occurrenceId (fun d => d.completable digest)
    (fun d => { d with status := .consumed, receipt := some (.result result) })

def Decision.settled (d : Decision) : Decision :=
  match d.status, d.receipt with
  | .approved, some (.starting .switch locationId claimedAt) =>
    { d with status := .consumed, receipt := some (.result ⟨.switch, locationId, d.sessionId, claimedAt⟩) }
  | _, _ => d

def Decision.resolved (d : Decision) (approved : Bool) (userId : String) (now : Int) (selectedOptionId : Option String) : Decision :=
  if d.status = .pending ∧ d.human = true then
    { d with status := if approved then .approved else .denied, selectedOptionId := selectedOptionId, resolvedAt := some now,
             approvedBy := some userId }
  else d

def Decision.retired (d : Decision) (superseded : Bool) (resolvedAt : Option Int) : Decision :=
  if d.status = .pending ∨ d.status = .approved then
    { d with status := if superseded then .superseded else .revoked, resolvedAt := resolvedAt }
  else d

def Decision.assigned (d : Decision) (human : Bool) : Decision := if d.status = .pending then { d with human := human } else d

def change (w : World) : Change → World
  | .facts facts => { w with db := { w.db with facts := facts } }
  | .propose occurrenceId sessionId resourceDigest locationSwitch human snapshot =>
    if occurrenceId ∈ w.minted then w
    else
      let d : Decision := ⟨sessionId, locationSwitch, human, resourceDigest, snapshot, .pending, none, none, none, none⟩
      { w with minted := occurrenceId :: w.minted, db := { w.db with decisions := w.db.decisions.set occurrenceId d } }
  | .assign occurrenceId human => { w with db := w.db.update occurrenceId (fun d => d.assigned human) }
  | .resolve occurrenceId approved userId now selectedOptionId =>
    { w with db := w.db.update occurrenceId (fun d => d.resolved approved userId now selectedOptionId) }
  | .retire occurrenceId superseded resolvedAt =>
    { w with db := w.db.update occurrenceId (fun d => d.retired superseded resolvedAt) }
  | .settle occurrenceId => { w with db := w.db.update occurrenceId Decision.settled }
  | .discard occurrenceId => { w with db := { w.db with decisions := w.db.decisions.erase occurrenceId } }

def Call.stored : Call → Bool
  | .read | .claim _ _ _ _ _ | .release _ | .complete _ _ _ => true
  | _ => false

def flagOf (w : World) (r : Db × Bool) : World × Answer := ({ w with db := r.1 }, .flag r.2)

def perform (w : World) : Call → World × Answer
  | .read => (w, .db w.db)
  | .enter occurrenceId =>
    if occurrenceId ∈ w.executing then (w, .flag false)
    else ({ w with executing := occurrenceId :: w.executing }, .flag true)
  | .leave occurrenceId => ({ w with executing := w.executing.filter (fun o => o ≠ occurrenceId) }, .flag true)
  | .claim occurrenceId digest now action target => flagOf w (claimLocationSwitch w.db occurrenceId digest now action target)
  | .release occurrenceId => flagOf w (releaseLocationSwitchClaim w.db occurrenceId)
  | .complete occurrenceId digest result => flagOf w (completeLocationSwitch w.db occurrenceId digest result)
  | _ => (w, .threw)

def Call.fits : Call → Answer → Bool
  | .inspect _, .inspected _ => true
  | .switchSession _ _, .reply _ _ => true
  | .createSession _ _ _, .created _ => true
  | .createSession _ _ _, .notCreated _ _ => true
  | _, .threw => true
  | _, _ => false

def seen (i : Nat) (args : Args) (db : Db) : Call → Answer → List Obs
  | .read, .db db => [.read i db]
  | .claim _ _ _ action target, .flag true => [.claimed i args action target db]
  | _, _ => []

def heard (i : Nat) (args : Args) : Call → Answer → List Obs
  | .inspect _, .inspected answers => [.inspected i answers]
  | .switchSession _ _, .reply false _ => [.refused i args.occurrenceId]
  | .createSession _ _ _, .notCreated _ _ => [.refused i args.occurrenceId]
  | _, _ => []

def World.after (i : Nat) (o : Call) : Option Nat := if o.awaited then none else some i

def stepRun (w : World) (i : Nat) (e : Exec) (fault : Bool) : World × List Obs :=
  match e.code with
  | .ret _ => ({ w with execs := w.execs.erase i, busy := none }, [])
  | .throw _ => ({ w with execs := w.execs.erase i, busy := none }, [])
  | .call o k =>
    if o.outside then
      ({ w with execs := w.execs.set i { e with note := e.note.sent o, waiting := true }, busy := World.after i o },
        if o.attempts then [.attempted i e.args o] else [])
    else
      let r := if fault && o.stored then (w, .threw) else perform w o
      ({ r.1 with execs := w.execs.set i { e with note := (e.note.sent o).answered o r.2, code := k r.2 } },
        seen i e.args w.db o r.2)

def stepAnswer (w : World) (i : Nat) (e : Exec) (a : Answer) : Option (World × List Obs) :=
  match e.code with
  | .call o k =>
    if o.fits a ∧ w.busy = World.after i o then
      some ({ w with execs := w.execs.set i { e with note := e.note.answered o a, code := k a, waiting := false }, busy := some i },
        heard i e.args o a)
    else none
  | _ => none

def step (auditDigest : Bound → String) (w : World) : Event → Option (World × List Obs)
  | .call args =>
    if w.busy = none then
      some ({ w with execs := w.execs.set w.next ⟨args, .fresh, execute auditDigest args, false⟩, next := w.next + 1,
                     busy := some w.next }, [])
    else none
  | .run fault => (w.busy.bind (fun i => (w.execs.get i).map (fun e => (i, e)))).bind (fun (i, e) =>
      if e.waiting then none else some (stepRun w i e fault))
  | .answer i a => (w.execs.get i).bind (fun e => if e.waiting then stepAnswer w i e a else none)
  | .crash => some ({ w with execs := .empty, executing := [], busy := none }, [])
  | .change c => if w.busy = none then some (change w c, []) else none

end Switch
end Wollipog

/-! ## What becomes of an approval's row

What a row may become (`Decision.Moves`), and what one step does to all of them (`Drift`).
-/
namespace Wollipog
namespace Switch

/-! ## What a row may become -/

def DecisionStatus.final : DecisionStatus → Bool
  | .pending | .approved => false
  | _ => true

structure Decision.Moves (d d' : Decision) : Prop where
  sessionId : d'.sessionId = d.sessionId
  locationSwitch : d'.locationSwitch = d.locationSwitch
  resourceDigest : d'.resourceDigest = d.resourceDigest
  snapshot : d'.snapshot = d.snapshot
  approved : d.status = .approved → (d'.status = .approved ∧ d'.human = d.human ∧ d'.selectedOptionId = d.selectedOptionId ∧
    d'.resolvedAt = d.resolvedAt) ∨ d'.status.final = true
  final : d.status.final = true → d'.status.final = true

theorem Decision.Moves.refl (d : Decision) : d.Moves d := ⟨rfl, rfl, rfl, rfl, fun h => .inl ⟨h, rfl, rfl, rfl⟩, id⟩

theorem Decision.Moves.trans {d e f : Decision} (h : d.Moves e) (h' : e.Moves f) : d.Moves f where
  sessionId := h'.sessionId.trans h.sessionId
  locationSwitch := h'.locationSwitch.trans h.locationSwitch
  resourceDigest := h'.resourceDigest.trans h.resourceDigest
  snapshot := h'.snapshot.trans h.snapshot
  approved := by
    intro hd
    rcases h.approved hd with ⟨he, hhuman, hoption, hresolved⟩ | hfinal
    · rcases h'.approved he with ⟨hf, hhuman', hoption', hresolved'⟩ | hfinal
      · exact .inl ⟨hf, hhuman'.trans hhuman, hoption'.trans hoption, hresolved'.trans hresolved⟩
      · exact .inr hfinal
    · exact .inr (h'.final hfinal)
  final := fun hd => h'.final (h.final hd)

theorem Decision.moves_receipt (d : Decision) (receipt : Option Receipt) : d.Moves { d with receipt := receipt } :=
  ⟨rfl, rfl, rfl, rfl, fun h => .inl ⟨h, rfl, rfl, rfl⟩, id⟩

theorem Decision.moves_final (d : Decision) {d' : Decision} (hsession : d'.sessionId = d.sessionId)
    (hcategory : d'.locationSwitch = d.locationSwitch) (hdigest : d'.resourceDigest = d.resourceDigest)
    (hsnapshot : d'.snapshot = d.snapshot) (hfinal : d'.status.final = true) : d.Moves d' :=
  ⟨hsession, hcategory, hdigest, hsnapshot, fun _ => .inr hfinal, fun _ => hfinal⟩

theorem Decision.moves_settled (d : Decision) : d.Moves d.settled := by
  unfold Decision.settled
  split
  · exact d.moves_final rfl rfl rfl rfl rfl
  · exact .refl d

theorem Decision.moves_resolved (d : Decision) (approved : Bool) (userId : String) (now : Int) (selectedOptionId : Option String) :
    d.Moves (d.resolved approved userId now selectedOptionId) := by
  unfold Decision.resolved
  split
  · rename_i hpending
    refine ⟨rfl, rfl, rfl, rfl, fun h => ?_, fun h => ?_⟩
    · rw [hpending.1] at h
      cases h
    · rw [hpending.1] at h
      cases h
  · exact .refl d

theorem Decision.moves_retired (d : Decision) (superseded : Bool) (resolvedAt : Option Int) :
    d.Moves (d.retired superseded resolvedAt) := by
  unfold Decision.retired
  split
  · refine d.moves_final rfl rfl rfl rfl ?_
    cases superseded <;> rfl
  · exact .refl d

theorem Decision.moves_assigned (d : Decision) (human : Bool) : d.Moves (d.assigned human) := by
  unfold Decision.assigned
  split
  · rename_i hpending
    refine ⟨rfl, rfl, rfl, rfl, fun h => ?_, fun h => ?_⟩
    · rw [hpending] at h
      cases h
    · rw [hpending] at h
      cases h
  · exact .refl d

theorem Decision.receipt_settled (d : Decision) (h : d.receipt ≠ none) : d.settled.receipt ≠ none := by
  unfold Decision.settled
  split
  · exact Option.some_ne_none _
  · exact h

theorem Decision.receipt_resolved (d : Decision) (approved : Bool) (userId : String) (now : Int) (selectedOptionId : Option String) :
    (d.resolved approved userId now selectedOptionId).receipt = d.receipt := by
  unfold Decision.resolved
  split <;> rfl

theorem Decision.receipt_retired (d : Decision) (superseded : Bool) (resolvedAt : Option Int) :
    (d.retired superseded resolvedAt).receipt = d.receipt := by
  unfold Decision.retired
  split <;> rfl

theorem Decision.receipt_assigned (d : Decision) (human : Bool) : (d.assigned human).receipt = d.receipt := by
  unfold Decision.assigned
  split <;> rfl

variable {w u : World}

/-- The rows go on, no occurrence comes back, and receipts stay but for one occurrence at most. -/
structure Drift (except : Option String) (w u : World) : Prop where
  minted : ∀ o ∈ w.minted, o ∈ u.minted
  rows : ∀ o ∈ w.minted, ∀ d', u.db.decisions.get o = some d' → ∃ d, w.db.decisions.get o = some d ∧ d.Moves d' ∧
    (except ≠ some o → d.receipt ≠ none → d'.receipt ≠ none)
  known : (∀ o d, w.db.decisions.get o = some d → o ∈ w.minted) → ∀ o d, u.db.decisions.get o = some d → o ∈ u.minted

theorem Drift.of_rows {except : Option String} (hminted : u.minted = w.minted) (hrows : u.db.decisions = w.db.decisions) :
    Drift except w u where
  minted := by
    intro o ho
    rw [hminted]
    exact ho
  rows := by
    intro o _ d' hd'
    rw [hrows] at hd'
    exact ⟨d', hd', .refl d', fun _ h => h⟩
  known := by
    intro h o d hd
    rw [hrows] at hd
    rw [hminted]
    exact h o d hd

variable {except : Option String} {o : String}

theorem Drift.of_update {f : Decision → Decision} (hminted : u.minted = w.minted)
    (hrows : u.db.decisions = w.db.decisions.modify o f) (hmoves : ∀ d, w.db.decisions.get o = some d → d.Moves (f d))
    (hreceipt : except = some o ∨ ∀ d : Decision, d.receipt ≠ none → (f d).receipt ≠ none) : Drift except w u where
  minted := by
    intro o' ho
    rw [hminted]
    exact ho
  rows := by
    intro o' _ d' hd'
    rw [hrows, OrdMap.get_modify] at hd'
    by_cases ho : o' = o
    · subst ho
      rw [if_pos rfl] at hd'
      obtain ⟨d, hd, rfl⟩ := Option.map_eq_some_iff.1 hd'
      refine ⟨d, hd, hmoves d hd, fun hne hsome => ?_⟩
      rcases hreceipt with hexcept | hkeep
      · exact absurd hexcept hne
      · exact hkeep d hsome
    · rw [if_neg ho] at hd'
      exact ⟨d', hd', .refl d', fun _ h => h⟩
  known := by
    intro h o' d hd
    rw [hrows, OrdMap.get_modify] at hd
    rw [hminted]
    by_cases ho : o' = o
    · rw [if_pos ho] at hd
      obtain ⟨d₀, hd₀, -⟩ := Option.map_eq_some_iff.1 hd
      exact h o' d₀ hd₀
    · rw [if_neg ho] at hd
      exact h o' d hd

theorem change_drift (w : World) (c : Change) : Drift none w (change w c) := by
  cases c with
  | facts facts => exact .of_rows rfl rfl
  | propose o sessionId resourceDigest locationSwitch human snapshot =>
    unfold change
    simp only
    split
    · exact .of_rows rfl rfl
    · rename_i hnew
      refine ⟨fun o' ho => List.mem_cons_of_mem _ ho, fun o' ho d' hd' => ?_, fun h o' d hd => ?_⟩
      · have hne : o' ≠ o := fun heq => hnew (heq ▸ ho)
        simp only at hd'
        rw [OrdMap.get_set_ne _ _ hne] at hd'
        exact ⟨d', hd', .refl d', fun _ h => h⟩
      · by_cases ho : o' = o
        · subst ho
          exact List.mem_cons_self
        · simp only at hd
          rw [OrdMap.get_set_ne _ _ ho] at hd
          exact List.mem_cons_of_mem _ (h o' d hd)
  | assign o human =>
    refine .of_update rfl rfl (fun d _ => d.moves_assigned human) (.inr fun d h => ?_)
    rw [Decision.receipt_assigned]
    exact h
  | resolve o approved userId now selectedOptionId =>
    refine .of_update rfl rfl (fun d _ => d.moves_resolved approved userId now selectedOptionId) (.inr fun d h => ?_)
    rw [Decision.receipt_resolved]
    exact h
  | retire o superseded resolvedAt =>
    refine .of_update rfl rfl (fun d _ => d.moves_retired superseded resolvedAt) (.inr fun d h => ?_)
    rw [Decision.receipt_retired]
    exact h
  | settle o => exact .of_update rfl rfl (fun d _ => d.moves_settled) (.inr fun d h => d.receipt_settled h)
  | discard o =>
    refine ⟨fun _ ho => ho, fun o' _ d' hd' => ?_, fun h o' d hd => ?_⟩
    · simp only [change, OrdMap.get_erase] at hd'
      split at hd'
      · cases hd'
      · exact ⟨d', hd', .refl d', fun _ h => h⟩
    · simp only [change, OrdMap.get_erase] at hd
      split at hd
      · cases hd
      · exact h o' d hd

theorem updateWhere_cases (db : Db) (o : String) (p : Decision → Bool) (f : Decision → Decision) :
    (∃ d, db.decisions.get o = some d ∧ p d = true ∧ db.updateWhere o p f = (db.update o f, true)) ∨
      db.updateWhere o p f = (db, false) := by
  unfold Db.updateWhere
  split
  · rename_i h
    obtain ⟨d, hd, hp⟩ := (Option.any_eq_true _ _).1 h
    exact .inl ⟨d, hd, hp, rfl⟩
  · exact .inr rfl

def Call.releases : Call → Option String
  | .release o => some o
  | _ => none

theorem updateWhere_drift {p : Decision → Bool} {f : Decision → Decision}
    (hmoves : ∀ d : Decision, d.Moves (f d)) (hreceipt : except = some o ∨ ∀ d : Decision, d.receipt ≠ none → (f d).receipt ≠ none) :
    Drift except w (flagOf w (w.db.updateWhere o p f)).1 := by
  rcases updateWhere_cases w.db o p f with ⟨d, -, -, heq⟩ | heq
  · rw [heq]
    have hrows : (flagOf w (w.db.update o f, true)).1.db.decisions = w.db.decisions.modify o f := rfl
    exact .of_update rfl hrows (fun d _ => hmoves d) hreceipt
  · rw [heq]
    exact .of_rows rfl rfl

theorem perform_drift (w : World) (o : Call) : Drift o.releases w (perform w o).1 := by
  cases o with
  | enter occ =>
    unfold perform
    simp only
    split
    · exact .of_rows rfl rfl
    · exact .of_rows rfl rfl
  | claim occ digest now action target =>
    apply updateWhere_drift
    · exact fun d => d.moves_receipt _
    · exact .inr fun _ _ => Option.some_ne_none _
  | release occ =>
    apply updateWhere_drift
    · exact fun d => d.moves_receipt _
    · exact .inl rfl
  | complete occ digest result =>
    apply updateWhere_drift
    · exact fun _ => ⟨rfl, rfl, rfl, rfl, fun _ => .inr rfl, fun _ => rfl⟩
    · exact .inr fun _ _ => Option.some_ne_none _
  | _ => exact .of_rows rfl rfl

/-- An occurrence whose approval can no longer be claimed, unless its claim is given back. -/
def Spent (w : World) (occurrenceId : String) : Prop :=
  occurrenceId ∈ w.minted ∧ ∀ d, w.db.decisions.get occurrenceId = some d → d.receipt ≠ none

theorem Spent.drift (h : Spent w o) (hdrift : Drift except w u) (hne : except ≠ some o) : Spent u o := by
  refine ⟨hdrift.minted o h.1, fun d' hd' => ?_⟩
  obtain ⟨d, hd, -, hreceipt⟩ := hdrift.rows o h.1 d' hd'
  exact hreceipt hne (h.2 d hd)

def Follows (w : World) (occurrenceId : String) (d : Decision) : Prop :=
  occurrenceId ∈ w.minted ∧ ∀ d', w.db.decisions.get occurrenceId = some d' → d.Moves d'

theorem Follows.drift {d : Decision} (h : Follows w o d) (hdrift : Drift except w u) : Follows u o d := by
  refine ⟨hdrift.minted o h.1, fun d'' hd'' => ?_⟩
  obtain ⟨d', hd', hmoves, -⟩ := hdrift.rows o h.1 d'' hd''
  exact (h.2 d' hd').trans hmoves

end Switch
end Wollipog
