import Wollipog.Steering.Attempt
/-!
# Settled — an attempt's two axes over a run

Every operation is one move of the columns that settle an attempt (`Axes`). The one move that does not keep an applied
recovery is a receipt taken after it, or a recovery applied after a delivery: `Careful` runs have neither.
-/
namespace Wollipog.Steering

structure Axes where
  disposition : Disposition
  receipt : Option SteerResult
  action : Option Action
  resolvedAt : Option Int
  compactedAt : Option Int
  deriving DecidableEq

def AttemptRow.axes (row : AttemptRow) : Axes :=
  ⟨row.disposition, row.receipt, row.resolutionAction, row.resolvedAt, row.compactedAt⟩

def Axes.applied (x : Axes) : Option Action := if x.resolvedAt = none then none else x.action

def Disposition.delivered : Disposition → Bool
  | .accepted => true
  | .convertedToQueue => true
  | _ => false

def shownTwice (v : AttemptView) : Bool :=
  v.state.delivered && v.resolution.any (fun r => r.action == .queueAgain && r.applied)

theorem shownTwice_iff (row : AttemptRow) :
    shownTwice row.view = true ↔ row.disposition.delivered = true ∧ row.axes.applied = some .queueAgain := by
  unfold shownTwice AttemptRow.view AttemptRow.axes Axes.applied
  cases row.resolutionAction with
  | none => cases hresolved : row.resolvedAt <;> simp
  | some action => cases hresolved : row.resolvedAt <;> simp

/-- What an operation brings to the row: a receipt it takes, a recovery it records as applied, or neither. -/
inductive Cause
  | receipt (r : SteerResult)
  | recovery (action : Action)
  | other
  deriving DecidableEq

def cause (w : World) : Op → Cause
  | .result runnerId r _ => if takesResult w runnerId r then .receipt r else .other
  | .resolution runnerId r _ => if takesResolution w runnerId r && r.applied then .recovery r.action else .other
  | _ => .other

/-- **What the operations do to the axes.** -/
inductive Moved : Axes → Cause → Axes → Prop
  | same (x : Axes) : Moved x .other x
  | received (x : Axes) (r : SteerResult) (htakes : x.disposition = .pending ∨ (x.compactedAt = none ∧ x.receipt = none ∧
      (x.disposition = .uncertain ∨ (x.disposition = .accepted ∧ r.disposition = .accepted))))
      (hvalid : r.disposition ≠ .pending) :
      Moved x (.receipt r) { x with disposition := r.disposition, receipt := some r }
  | settled (x : Axes) (disposition : Disposition) (hpending : x.disposition = .pending) (hto : disposition ≠ .pending) :
      Moved x .other { x with disposition := disposition }
  | evidenced (x : Axes) (hresolved : x.resolvedAt = none) (haction : x.action = none)
      (hopen : x.disposition = .pending ∨ x.disposition = .uncertain) : Moved x .other { x with disposition := .accepted }
  | staged (x : Axes) (action : Action) (haction : x.action = none) (hresolved : x.resolvedAt = none)
      (huncertain : x.disposition = .uncertain) : Moved x .other { x with action := some action }
  | dismissed (x : Axes) (now : Int) (haction : x.action = none) (hresolved : x.resolvedAt = none)
      (hrejected : x.disposition = .rejected) : Moved x .other { x with action := some .dismiss, resolvedAt := some now }
  | cleared (x : Axes) (hresolved : x.resolvedAt = none) : Moved x .other { x with action := none }
  | clearedEvidenced (x : Axes) (hresolved : x.resolvedAt = none)
      (hopen : x.disposition = .pending ∨ x.disposition = .uncertain) :
      Moved x .other { x with action := none, disposition := .accepted }
  | recovered (x : Axes) (action : Action) (now : Int) (haction : x.action = some action) (hresolved : x.resolvedAt = none) :
      Moved x (.recovery action) { x with resolvedAt := some now }
  | resolved (x : Axes) (now : Int) (huncertain : x.disposition = .uncertain) (hresolved : x.resolvedAt = none) :
      Moved x .other { x with resolvedAt := some now }
  | compacted (x : Axes) (now : Int) (hpending : x.disposition ≠ .pending) (hcompacted : x.compactedAt = none) :
      Moved x .other { x with receipt := none, compactedAt := some now }

/-! ## Every operation is a move -/

variable {op : Op} {x y : Axes} {c : Cause} {w : World} {runnerId : String} {r : SteerResult}

theorem validSteeringResult_disposition (h : validSteeringResult r = true) : r.disposition ≠ .pending := by
  intro hpending
  unfold validSteeringResult at h
  simp [hpending] at h

theorem takesResult_iff (h : takesResult w runnerId r = true) :
    r.disposition ≠ .pending ∧ (w.row.disposition = .pending ∨ (w.row.compactedAt = none ∧ w.row.receipt = none ∧
      (w.row.disposition = .uncertain ∨ (w.row.disposition = .accepted ∧ r.disposition = .accepted)))) := by
  unfold takesResult mayReconcileEvidence at h
  simp only [Bool.and_eq_true, Bool.or_eq_true, beq_iff_eq, Option.isNone_iff_eq_none] at h
  obtain ⟨⟨hvalid, -⟩, htakes⟩ := h
  refine ⟨validSteeringResult_disposition hvalid, ?_⟩
  rcases htakes with hpending | ⟨⟨hcompacted, hreceipt⟩, hopen⟩
  · exact .inl hpending
  · exact .inr ⟨hcompacted, hreceipt, hopen⟩

theorem recordSteeringResult_row (runnerId : String) (r : SteerResult) (now : Int) (w : World) :
    (recordSteeringResult runnerId r now w).2.row.axes =
      if takesResult w runnerId r then { w.row.axes with disposition := r.disposition, receipt := some r } else w.row.axes := by
  unfold recordSteeringResult
  by_cases htakes : takesResult w runnerId r = true
  · have hcorrelated : (validSteeringResult r && correlated w runnerId r) = true := by
      unfold takesResult at htakes
      rw [Bool.and_eq_true] at htakes
      exact htakes.1
    rw [if_pos hcorrelated, if_pos htakes, if_pos htakes]
    rfl
  · rw [if_neg htakes, if_neg htakes]
    split <;> rfl

theorem settlePending_moved (disposition : Disposition) (reason : Reason) (now : Int) (row : AttemptRow)
    (hto : disposition ≠ .pending) : Moved row.axes .other (settlePending disposition reason now row).axes := by
  unfold settlePending
  split
  · rename_i hpending
    exact .settled row.axes disposition hpending hto
  · exact .same _

theorem resolveFromUserMessage_moved (sessionId submissionId turnId : String) (now : Int) (w : World) :
    Moved w.row.axes .other (resolveSteeringAttemptFromUserMessage sessionId submissionId turnId now w).row.axes := by
  unfold resolveSteeringAttemptFromUserMessage
  split
  · rename_i h
    obtain ⟨-, -, -, -, hresolved, haction, hopen⟩ := h
    exact .evidenced w.row.axes hresolved haction hopen
  · exact .same _

theorem queueSnapshot_moved (sessionId : String) (promptIds : List String) (now : Int) (w : World) :
    Moved w.row.axes .other (recordSteeringQueueSnapshot sessionId promptIds now w).row.axes := by
  unfold recordSteeringQueueSnapshot
  split
  · simp only
    split
    · split <;> exact .same _
    · exact .same _
  · exact .same _

theorem stage_moved (sessionId submissionId : String) (action : Action) (requestId : String) (now : Int) (w : World) :
    Moved w.row.axes .other (stageSteeringResolution sessionId submissionId action requestId now w).2.row.axes := by
  unfold stageSteeringResolution
  simp only
  split
  · split
    · exact .same _
    · split
      · split <;> exact .same _
      · rename_i haction
        split
        · rename_i h
          obtain ⟨rfl, hrejected, hresolved⟩ := h
          exact .dismissed w.row.axes now haction hresolved hrejected
        · split
          · exact .same _
          · rename_i h
            rw [not_or, not_or, not_not, not_not] at h
            exact .staged w.row.axes action haction h.2.1 h.1
  · exact .same _

theorem clearRejected_moved (requestId : String) (w : World) :
    Moved w.row.axes .other (clearRejectedSteeringResolution requestId w).2.row.axes := by
  unfold clearRejectedSteeringResolution
  split
  · rename_i h
    obtain ⟨-, hresolved, -⟩ := h
    simp only
    split
    · unfold resolveSteeringAttemptFromUserMessage
      split
      · rename_i hmessage
        exact .clearedEvidenced w.row.axes hresolved hmessage.2.2.2.2.2.2
      · exact .cleared w.row.axes hresolved
    · exact .cleared w.row.axes hresolved
  · exact .same _

theorem takesResolution_iff {r : ResolutionResult} (h : takesResolution w runnerId r = true) :
    w.row.resolutionAction = some r.action ∧ w.row.resolvedAt = none := by
  unfold takesResolution correlatedResolution at h
  simp only [Bool.and_eq_true, beq_iff_eq, Option.isNone_iff_eq_none] at h
  obtain ⟨⟨-, ⟨-, haction⟩, -⟩, hresolved⟩ := h
  exact ⟨haction, hresolved⟩

theorem recordSteeringResolutionResult_row (runnerId : String) (r : ResolutionResult) (now : Int) (w : World) :
    (recordSteeringResolutionResult runnerId r now w).2.row.axes =
      if takesResolution w runnerId r && r.applied then { w.row.axes with resolvedAt := some now } else w.row.axes := by
  unfold recordSteeringResolutionResult
  by_cases htakes : takesResolution w runnerId r = true
  · have hcorrelated : (validSteeringResolutionResult r && correlatedResolution w runnerId r) = true := by
      unfold takesResolution at htakes
      rw [Bool.and_eq_true] at htakes
      exact htakes.1
    rw [if_pos hcorrelated, if_pos htakes]
    by_cases happlied : r.applied = true
    · rw [if_pos happlied, htakes, happlied]
      simp only
      split
      · split <;> rfl
      · rfl
    · rw [Bool.not_eq_true] at happlied
      rw [htakes, happlied]
      rfl
  · rw [if_neg htakes]
    rw [Bool.not_eq_true] at htakes
    rw [htakes]
    split <;> rfl

theorem markUncertain_moved (requestId : String) (now : Int) (w : World) :
    Moved w.row.axes .other (markSteeringAttemptUncertain requestId now w).row.axes := by
  unfold markSteeringAttemptUncertain
  split
  · exact settlePending_moved .uncertain .transportUncertain now w.row (by decide)
  · exact .same _

theorem markNotSent_moved (requestId : String) (now : Int) (w : World) :
    Moved w.row.axes .other (markSteeringAttemptNotSent requestId now w).row.axes := by
  unfold markSteeringAttemptNotSent
  split
  · exact settlePending_moved .rejected .providerRejected now w.row (by decide)
  · exact .same _

theorem retireQueuedAgain_moved (sessionId queuedPromptId : String) (now : Int) (w : World) :
    Moved w.row.axes .other (retireQueuedAgainSteeringReceiptFromUserMessage sessionId queuedPromptId now w).row.axes := by
  unfold retireQueuedAgainSteeringReceiptFromUserMessage
  split <;> exact .same _

theorem resolveUncertain_moved (sessionId submissionId : String) (now : Int) (w : World) :
    Moved w.row.axes .other (resolveUncertainSteeringAttempt sessionId submissionId now w).row.axes := by
  unfold resolveUncertainSteeringAttempt
  split
  · rename_i h
    cases hresolved : w.row.resolvedAt with
    | none => exact .resolved w.row.axes now h.2.2.1 hresolved
    | some earlier =>
      have hsame : w.row.axes = ⟨w.row.disposition, w.row.receipt, w.row.resolutionAction, some earlier, w.row.compactedAt⟩ := by
        unfold AttemptRow.axes
        rw [hresolved]
      rw [hsame]
      exact .same _
  · exact .same _

theorem compact_moved (reached : Bool) (now : Int) (w : World) :
    Moved w.row.axes .other (compactSteeringAttempts reached now w).row.axes := by
  unfold compactSteeringAttempts
  simp only
  split
  · rename_i h
    rw [Bool.and_eq_true, Bool.and_eq_true, Option.isNone_iff_eq_none] at h
    obtain ⟨⟨-, hdue⟩, hcompacted⟩ := h
    have hpending : w.row.disposition ≠ .pending := by
      intro hpending
      unfold compactionDue at hdue
      cases hterminal : w.row.terminalAt with
      | none => simp [hterminal] at hdue
      | some t => simp [hterminal, hpending] at hdue
    exact .compacted w.row.axes now hpending hcompacted
  · exact .same _

/-- **Every operation moves the axes as `Moved` says.** -/
theorem step_moved (w : World) (op : Op) : Moved w.row.axes (cause w op) (step w op).row.axes := by
  cases op with
  | result runnerId r now =>
    unfold step cause
    simp only
    rw [recordSteeringResult_row]
    split
    · rename_i htakes
      obtain ⟨hvalid, hopen⟩ := takesResult_iff htakes
      exact .received w.row.axes r hopen hvalid
    · exact .same _
  | markUncertain requestId now => exact markUncertain_moved requestId now w
  | markNotSent requestId now => exact markNotSent_moved requestId now w
  | settleInterrupted now => exact settlePending_moved .uncertain .transportUncertain now w.row (by decide)
  | userMessage m => exact .same _
  | resolveFromUserMessage sessionId submissionId turnId now => exact resolveFromUserMessage_moved sessionId submissionId turnId now w
  | queueSnapshot sessionId promptIds now => exact queueSnapshot_moved sessionId promptIds now w
  | stage sessionId submissionId action requestId now => exact stage_moved sessionId submissionId action requestId now w
  | clearRejected requestId => exact clearRejected_moved requestId w
  | resolution runnerId r now =>
    unfold step cause
    simp only
    rw [recordSteeringResolutionResult_row]
    split
    · rename_i h
      rw [Bool.and_eq_true] at h
      obtain ⟨haction, hresolved⟩ := takesResolution_iff h.1
      exact .recovered w.row.axes r.action now haction hresolved
    · exact .same _
  | retireQueuedAgain sessionId queuedPromptId now => exact retireQueuedAgain_moved sessionId queuedPromptId now w
  | resolveUncertain sessionId submissionId now => exact resolveUncertain_moved sessionId submissionId now w
  | compact reached now => exact compact_moved reached now w
  | assignRunner runnerId => exact .same _

structure Axes.Sound (x : Axes) : Prop where
  pending : x.disposition = .pending → x.receipt = none ∧ x.action = none ∧ x.resolvedAt = none ∧ x.compactedAt = none
  compacted : x.compactedAt ≠ none → x.receipt = none

theorem Moved.sound (hm : Moved x c y) (hs : x.Sound) : y.Sound := by
  cases hm with
  | same => exact hs
  | received r htakes hvalid =>
    refine ⟨fun h => absurd h hvalid, fun hcompacted => ?_⟩
    rcases htakes with hpending | ⟨hnone, -⟩
    · exact absurd (hs.pending hpending).2.2.2 hcompacted
    · exact absurd hnone hcompacted
  | settled disposition hpending hto => exact ⟨fun h => absurd h hto, hs.compacted⟩
  | evidenced hresolved haction hopen => exact ⟨fun h => (by cases h), hs.compacted⟩
  | staged action haction hresolved huncertain =>
    refine ⟨fun h => ?_, hs.compacted⟩
    rw [huncertain] at h
    cases h
  | dismissed now haction hresolved hrejected =>
    refine ⟨fun h => ?_, hs.compacted⟩
    rw [hrejected] at h
    cases h
  | cleared hresolved =>
    refine ⟨fun h => ?_, hs.compacted⟩
    obtain ⟨hreceipt, -, hresolved, hcompacted⟩ := hs.pending h
    exact ⟨hreceipt, rfl, hresolved, hcompacted⟩
  | clearedEvidenced hresolved hopen => exact ⟨fun h => (by cases h), hs.compacted⟩
  | recovered action now haction hresolved =>
    refine ⟨fun h => ?_, hs.compacted⟩
    have hnone := (hs.pending h).2.1
    rw [haction] at hnone
    cases hnone
  | resolved now huncertain hresolved =>
    refine ⟨fun h => ?_, hs.compacted⟩
    rw [huncertain] at h
    cases h
  | compacted now hpending hcompacted => exact ⟨fun h => absurd h hpending, fun _ => rfl⟩

/-- What every move keeps: the receipt until retention drops it, an acceptance, and the action that was applied. -/
structure Keeps (x y : Axes) : Prop where
  receipt : ∀ r, x.receipt = some r → y.receipt = some r ∨ (y.receipt = none ∧ y.compactedAt ≠ none)
  compacted : x.compactedAt ≠ none → y.compactedAt ≠ none
  accepted : x.disposition = .accepted → y.disposition = .accepted
  applied : ∀ action, x.applied = some action → y.applied = some action

theorem Keeps.refl (x : Axes) : Keeps x x := ⟨fun _ h => .inl h, id, id, fun _ h => h⟩

theorem Keeps.trans {z : Axes} (hz : z.Sound) (hxy : Keeps x y) (hyz : Keeps y z) : Keeps x z where
  receipt r hr := by
    rcases hxy.receipt r hr with hkept | ⟨-, hcompacted⟩
    · exact hyz.receipt r hkept
    · have hlater := hyz.compacted hcompacted
      exact .inr ⟨hz.compacted hlater, hlater⟩
  compacted h := hyz.compacted (hxy.compacted h)
  accepted h := hyz.accepted (hxy.accepted h)
  applied action h := hyz.applied action (hxy.applied action h)

theorem applied_eq_none (h : x.resolvedAt = none) : x.applied = none := by
  unfold Axes.applied
  rw [if_pos h]

theorem Moved.keeps (hm : Moved x c y) (hs : x.Sound) : Keeps x y := by
  cases hm with
  | same => exact Keeps.refl x
  | received r htakes hvalid =>
    rcases htakes with hpending | ⟨hcompacted, hreceipt, hopen⟩
    · obtain ⟨hreceipt, -, -, -⟩ := hs.pending hpending
      refine ⟨fun r' hr => ?_, id, fun h => ?_, fun _ h => h⟩
      · rw [hreceipt] at hr
        cases hr
      · rw [hpending] at h
        cases h
    · refine ⟨fun r' hr => ?_, id, fun h => ?_, fun _ h => h⟩
      · rw [hreceipt] at hr
        cases hr
      · rcases hopen with huncertain | ⟨-, haccepted⟩
        · rw [huncertain] at h
          cases h
        · exact haccepted
  | settled disposition hpending hto =>
    refine ⟨fun _ h => .inl h, id, fun h => ?_, fun _ h => h⟩
    rw [hpending] at h
    cases h
  | evidenced hresolved haction hopen => exact ⟨fun _ h => .inl h, id, fun _ => rfl, fun _ h => h⟩
  | staged action haction hresolved huncertain | dismissed now haction hresolved hrejected | cleared hresolved =>
    refine ⟨fun _ h => .inl h, id, id, fun a h => ?_⟩
    rw [applied_eq_none hresolved] at h
    cases h
  | clearedEvidenced hresolved hopen =>
    refine ⟨fun _ h => .inl h, id, fun _ => rfl, fun a h => ?_⟩
    rw [applied_eq_none hresolved] at h
    cases h
  | recovered action now haction hresolved | resolved now huncertain hresolved =>
    refine ⟨fun _ h => .inl h, id, id, fun a h => ?_⟩
    rw [applied_eq_none hresolved] at h
    cases h
  | compacted now hpending hcompacted =>
    exact ⟨fun r _ => .inr ⟨rfl, by simp⟩, fun _ => by simp, id, fun _ h => h⟩

/-- A run that keeps to one story: no text is shown as recovered and as delivered. -/
structure Agreed (x y : Axes) : Prop where
  disposition : x.applied ≠ none → y.disposition = x.disposition
  once : y.applied = some .queueAgain → y.disposition.delivered = false

/-- No receipt after an applied recovery changes the delivery, nor is Queue Again applied for a delivered text. -/
def Careful (w : World) (op : Op) : Prop :=
  match cause w op with
  | .receipt r => w.row.axes.applied ≠ none → r.disposition = w.row.disposition
  | .recovery action => action = .queueAgain → w.row.disposition.delivered = false
  | .other => True

def Once (x : Axes) : Prop := x.applied = some .queueAgain → x.disposition.delivered = false

theorem Moved.agreed (hm : Moved x c y) (hs : x.Sound) (honce : Once x)
    (hreceipt : ∀ r, c = .receipt r → x.applied ≠ none → r.disposition = x.disposition)
    (hrecovery : c = .recovery .queueAgain → x.disposition.delivered = false) : Agreed x y := by
  cases hm with
  | same => exact ⟨fun _ => rfl, honce⟩
  | received r htakes hvalid =>
    have hsame : x.applied ≠ none → r.disposition = x.disposition := hreceipt r rfl
    refine ⟨hsame, fun h => ?_⟩
    have happlied : x.applied = some .queueAgain := h
    have hdisposition := hsame (by rw [happlied]; simp)
    exact (congrArg Disposition.delivered hdisposition).trans (honce happlied)
  | settled disposition hpending hto =>
    have hnone : x.applied = none := applied_eq_none (hs.pending hpending).2.2.1
    refine ⟨fun h => absurd hnone h, fun h => ?_⟩
    have happlied : x.applied = some .queueAgain := h
    rw [hnone] at happlied
    cases happlied
  | evidenced hresolved haction hopen =>
    refine ⟨fun h => absurd (applied_eq_none hresolved) h, fun h => ?_⟩
    have happlied : x.applied = some .queueAgain := h
    rw [applied_eq_none hresolved] at happlied
    cases happlied
  | staged action haction hresolved huncertain =>
    refine ⟨fun _ => rfl, fun h => ?_⟩
    rw [applied_eq_none (x := { x with action := some action }) hresolved] at h
    cases h
  | dismissed now haction hresolved hrejected =>
    refine ⟨fun _ => rfl, fun h => ?_⟩
    unfold Axes.applied at h
    simp at h
  | cleared hresolved =>
    refine ⟨fun _ => rfl, fun h => ?_⟩
    rw [applied_eq_none (x := { x with action := none }) hresolved] at h
    cases h
  | clearedEvidenced hresolved hopen =>
    refine ⟨fun h => absurd (applied_eq_none hresolved) h, fun h => ?_⟩
    rw [applied_eq_none (x := { x with action := none, disposition := .accepted }) hresolved] at h
    cases h
  | recovered action now haction hresolved =>
    refine ⟨fun _ => rfl, fun h => ?_⟩
    have hqueue : x.action = some .queueAgain := by
      unfold Axes.applied at h
      simpa using h
    rw [haction, Option.some.injEq] at hqueue
    exact hrecovery (congrArg Cause.recovery hqueue)
  | resolved now huncertain hresolved =>
    refine ⟨fun _ => rfl, fun _ => ?_⟩
    exact congrArg Disposition.delivered huncertain
  | compacted now hpending hcompacted => exact ⟨fun _ => rfl, honce⟩

theorem created_sound (input : CreateInput) (snapshot : Option QueueSnapshot) : (createdRow input snapshot).axes.Sound :=
  ⟨fun _ => ⟨rfl, rfl, rfl, rfl⟩, fun h => absurd rfl h⟩

theorem run_sound (hs : w.row.axes.Sound) (ops : List Op) : (run w ops).row.axes.Sound := by
  induction ops generalizing w with
  | nil => exact hs
  | cons op ops ih => exact ih ((step_moved w op).sound hs)

theorem run_keeps (hs : w.row.axes.Sound) (ops : List Op) : Keeps w.row.axes (run w ops).row.axes := by
  induction ops generalizing w with
  | nil => exact Keeps.refl _
  | cons op ops ih =>
    have hmoved := step_moved w op
    have hsound := hmoved.sound hs
    exact (hmoved.keeps hs).trans (run_sound hsound ops) (ih hsound)

/-- **A careful step keeps its story.** -/
theorem Careful.agreed (hc : Careful w op) (hs : w.row.axes.Sound) (honce : Once w.row.axes) :
    Agreed w.row.axes (step w op).row.axes := by
  unfold Careful at hc
  refine (step_moved w op).agreed hs honce ?_ ?_
  · intro r hcause
    rw [hcause] at hc
    exact hc
  · intro hcause
    rw [hcause] at hc
    exact hc rfl

theorem careful_of_agreed (ha : Agreed w.row.axes (step w op).row.axes) : Careful w op := by
  have hmoved := step_moved w op
  unfold Careful
  revert hmoved ha
  generalize cause w op = c
  generalize (step w op).row.axes = y
  intro ha hmoved
  cases hmoved with
  | received r htakes hvalid => exact ha.disposition
  | recovered action now haction hresolved =>
    intro hqueue
    apply ha.once
    unfold Axes.applied
    rw [if_neg (by simp), haction, hqueue]
  | _ => trivial

structure Settles (w w' : World) : Prop where
  /-- a persisted receipt is never replaced: it stays until retention drops it, and none follows -/
  receipt : ∀ r, w.row.receipt = some r → w'.row.receipt = some r ∨ (w'.row.receipt = none ∧ w'.row.compactedAt ≠ none)
  accepted : w.row.disposition = .accepted → w'.row.disposition = .accepted
  /-- an applied recovery action is the one and stays -/
  applied : ∀ action, w.row.axes.applied = some action → w'.row.axes.applied = some action
  disposition : w.row.axes.applied ≠ none → w'.row.disposition = w.row.disposition
  once : shownTwice w'.row.view = false

def attempt (input : CreateInput) (runnerId : String) (snapshot : Option QueueSnapshot) (messages : List UserMessage)
    (ops : List Op) : World :=
  run ⟨createdRow input snapshot, runnerId, snapshot, messages⟩ ops

theorem careful_run {w : World} (hs : w.row.axes.Sound) (honce : Once w.row.axes) : ∀ (ops : List Op),
    (∀ pre op post, ops = pre ++ op :: post → Careful (run w pre) op) →
      Once (run w ops).row.axes ∧ (w.row.axes.applied ≠ none → (run w ops).row.disposition = w.row.disposition)
  | [], _ => ⟨honce, fun _ => rfl⟩
  | op :: ops, hc => by
    have hcareful : Careful w op := hc [] op ops rfl
    obtain ⟨hdisposition, honce'⟩ := hcareful.agreed hs honce
    have hmoved := step_moved w op
    have hlater := careful_run (hmoved.sound hs) honce' ops (fun pre op' post hsplit => by
      have hsplit' : op :: ops = (op :: pre) ++ op' :: post := by rw [hsplit]; rfl
      exact hc (op :: pre) op' post hsplit')
    refine ⟨hlater.1, fun happlied => ?_⟩
    obtain ⟨action, haction⟩ := Option.ne_none_iff_exists'.1 happlied
    have hstill : (step w op).row.axes.applied ≠ none := by
      rw [(hmoved.keeps hs).applied action haction]
      simp
    exact (hlater.2 hstill).trans (hdisposition happlied)

/-- **An attempt is settled once exactly in the runs whose every step is careful.** -/
theorem settled_once_iff (input : CreateInput) (runnerId : String) (snapshot : Option QueueSnapshot)
    (messages : List UserMessage) (ops : List Op) :
    (∀ pre mid post, ops = pre ++ mid ++ post →
        Settles (attempt input runnerId snapshot messages pre) (attempt input runnerId snapshot messages (pre ++ mid))) ↔
      ∀ pre op post, ops = pre ++ op :: post → Careful (attempt input runnerId snapshot messages pre) op := by
  have hcreated := created_sound input snapshot
  unfold attempt
  generalize hw : (⟨createdRow input snapshot, runnerId, snapshot, messages⟩ : World) = w
  have hs : w.row.axes.Sound := by
    rw [← hw]
    exact hcreated
  have honce : Once w.row.axes := by
    rw [← hw]
    intro h
    cases h
  constructor
  · intro hsettles pre op post hsplit
    have hstep := hsettles pre [op] post (by rw [hsplit, List.append_assoc]; rfl)
    rw [run_concat] at hstep
    refine careful_of_agreed ⟨hstep.disposition, fun h => ?_⟩
    have hnot := hstep.once
    rw [Bool.eq_false_iff, ne_eq, shownTwice_iff, not_and'] at hnot
    exact Bool.eq_false_iff.2 (hnot h)
  · intro hc pre mid post hsplit
    have hpre := careful_run hs honce pre (fun a op b hab => hc a op (b ++ mid ++ post) (by rw [hsplit, hab]; simp))
    have hsound := run_sound hs pre
    have hmid := careful_run hsound hpre.1 mid (fun a op b hab => by
      have hcareful := hc (pre ++ a) op (b ++ post) (by rw [hsplit, hab]; simp)
      rw [run_append] at hcareful
      exact hcareful)
    have hkeeps := run_keeps hsound mid
    rw [run_append]
    refine ⟨hkeeps.receipt, hkeeps.accepted, hkeeps.applied, hmid.2, ?_⟩
    rw [Bool.eq_false_iff, ne_eq, shownTwice_iff]
    rintro ⟨hdelivered, happlied⟩
    have hundelivered : (run (run w pre) mid).row.disposition.delivered = false := hmid.1 happlied
    rw [hundelivered] at hdelivered
    cases hdelivered

def sampleInput : CreateInput := ⟨"r1", "s1", "m1", "t1", "d", 1⟩

def sampleReceipt : SteerResult := ⟨"r1", "m1", "s1", "t1", .accepted, .accepted, none, none, none⟩

/-- A timeout, a dismissal that is settled locally as the runner refuses it, and then the runner's receipt. -/
def sampleOps : List Op :=
  [.markUncertain "r1" 2, .stage "s1" "m1" .dismiss "q1" 3,
    .resolution "n1" ⟨"q1", "s1", "m1", .dismiss, false, some "attempt_not_uncertain", none⟩ 4,
    .resolveUncertain "s1" "m1" 5]

theorem late_receipt_rewrites : (attempt sampleInput "n1" none [] sampleOps).row.axes.applied = some .dismiss ∧
      (attempt sampleInput "n1" none [] sampleOps).row.disposition = .uncertain ∧
      (attempt sampleInput "n1" none [] (sampleOps ++ [.result "n1" sampleReceipt 6])).row.disposition = .accepted ∧
      ¬Settles (attempt sampleInput "n1" none [] sampleOps)
        (attempt sampleInput "n1" none [] (sampleOps ++ [.result "n1" sampleReceipt 6])) := by
  have happlied : (attempt sampleInput "n1" none [] sampleOps).row.axes.applied = some .dismiss := by decide
  have hbefore : (attempt sampleInput "n1" none [] sampleOps).row.disposition = .uncertain := by decide
  have hafter : (attempt sampleInput "n1" none [] (sampleOps ++ [.result "n1" sampleReceipt 6])).row.disposition = .accepted := by
    decide
  refine ⟨happlied, hbefore, hafter, fun h => ?_⟩
  have hsame := h.disposition (by rw [happlied]; simp)
  rw [hbefore, hafter] at hsame
  cases hsame

end Wollipog.Steering
