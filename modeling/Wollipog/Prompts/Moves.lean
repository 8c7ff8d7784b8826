import Wollipog.Prompts.Store
/-!
# Moves — what the operations do to one command

`Core` is what decides a command's life; every operation moves it as `Moved` says, by a receipt of the runner or by the
control plane itself (`step_moved`).
-/
namespace Wollipog.Prompts

section

variable {γ : Type} (P : Payloads γ)

structure Core where
  state : State
  revision : Nat
  attempts : Nat
  intact : Bool
  event : Option Nat
  runnerId : String
  sessionId : String
  deriving DecidableEq

def Row.core (row : Row) : Core :=
  ⟨row.state, row.revision, row.attemptCount, payloadIntact P row, row.userEventSeq, row.runnerId, row.sessionId⟩

inductive Cause
  | runner (state : State) (revision : Nat)
  | plane
  deriving DecidableEq

def Core.takes (x : Core) (state : State) (revision : Nat) : Bool :=
  !((!x.state.active && !(x.state == .uncertain && (state == .completed || state == .failed) && decide (x.revision ≤ revision))) ||
      decide (revision < x.revision) || (revision == x.revision && state == x.state)) &&
    !((revision == x.revision && state.active) || (state.active && decide (state.rank < x.state.rank)))

theorem receiptTaken_core (row : Row) (state : State) (revision : Nat) :
    receiptTaken row state revision = (row.core P).takes state revision := rfl

/-- **What an operation does to a command.** -/
inductive Moved : Core → Cause → Core → Prop
  | same (x : Core) : Moved x .plane x
  | scrubbed (x : Core) (intact : Bool) (hended : x.state.active = false) : Moved x .plane { x with intact := intact }
  | sent (x : Core) (hactive : x.state.active = true) (hintact : x.intact = true) :
      Moved x .plane { x with state := if x.state = .pending then .sent else x.state, attempts := x.attempts + 1 }
  | told (x : Core) (state : State) (revision : Nat) (event : Option Nat) (intact : Bool) (htakes : x.takes state revision = true)
      (hrunner : state ≠ .pending ∧ state ≠ .sent) (hintact : state ≠ .completed → intact = x.intact)
      (hevent : x.event.isSome = true → event.isSome = true) :
      Moved x (.runner state revision) { x with state := state, revision := revision, intact := intact, event := event }
  | ended (x : Core) (hactive : x.state.active = true) (intact : Bool) :
      Moved x .plane { x with
        state := if x.state = .pending then .failed else .uncertain, revision := x.revision + 1, intact := intact }
  | malformed (x : Core) (hactive : x.state.active = true) (hintact : x.intact = false) :
      Moved x .plane { x with state := .failed, revision := x.revision + 1 }

variable {s : Store}

variable {op : Op} {r row : Row} {s' : Store} {id target : String} {f : Row → Row} {input : RetryInput} {Q : Row → Row → Prop}

theorem Store.get_commandId (h : s.get id = some row) : row.commandId = id := by
  have hsat := List.find?_some h
  simpa using hsat

theorem Store.get_mem (h : s.get id = some row) : row ∈ s.rows := List.mem_of_find?_eq_some h

theorem get_insert (s : Store) (row new : Row) (h : s.get id = some row) : (s.insert new).get id = some row := by
  unfold Store.insert Store.get at *
  rw [List.find?_append, h, Option.some_or]

theorem Store.get_eq_none (h : s.get id = none) : ∀ r ∈ s.rows, r.commandId ≠ id := by
  intro r hr hid
  have hnot := List.find?_eq_none.1 h r hr
  simp [hid] at hnot

theorem Store.open_some {sessionId : String} (h : s.open sessionId id = some row) : row ∈ s.rows ∧ row.commandId = id := by
  have hsat := List.find?_some h
  simp only [Bool.and_eq_true, beq_iff_eq] at hsat
  exact ⟨List.mem_of_find?_eq_some h, hsat.1.2⟩

def Store.Keyed (s : Store) : Prop := (s.rows.map Row.commandId).Nodup

theorem Store.Keyed.ext (hk : s.Keyed) {r' : Row} (hr : r ∈ s.rows) (hr' : r' ∈ s.rows)
    (hid : r.commandId = r'.commandId) : r = r' := List.inj_on_of_nodup_map hk hr hr' hid

theorem Store.Keyed.get (hk : s.Keyed) (hr : r ∈ s.rows) : s.get r.commandId = some r := by
  cases hget : s.get r.commandId with
  | none => exact absurd rfl (Store.get_eq_none hget r hr)
  | some r' => rw [hk.ext (Store.get_mem hget) hr (Store.get_commandId hget)]

/-- Every row is rewritten in place under its id, as `Q` says. -/
def Rewrites (Q : Row → Row → Prop) (s s' : Store) : Prop :=
  ∃ g : Row → Row, (∀ r ∈ s.rows, (g r).commandId = r.commandId ∧ Q r (g r)) ∧ s'.rows = s.rows.map g

abbrev PlaneMoved : Store → Store → Prop := Rewrites (fun r r' => Moved (r.core P) .plane (r'.core P))

variable {P}

theorem Rewrites.refl (hQ : ∀ r, Q r r) (s : Store) : Rewrites Q s s :=
  ⟨fun r => r, fun r _ => And.intro rfl (hQ r), (List.map_id' s.rows).symm⟩

theorem PlaneMoved.refl (s : Store) : PlaneMoved P s s := Rewrites.refl (fun r => .same (r.core P)) s

theorem Rewrites.mono {Q' : Row → Row → Prop} {s : Store} (h : ∀ r r', Q r r' → Q' r r') (hr : Rewrites Q s s') :
    Rewrites Q' s s' := by
  obtain ⟨g, hg, hrows⟩ := hr
  exact ⟨g, fun r hr => ⟨(hg r hr).1, h _ _ (hg r hr).2⟩, hrows⟩

theorem Rewrites.ids {s : Store} (h : Rewrites Q s s') : s'.rows.map Row.commandId = s.rows.map Row.commandId := by
  obtain ⟨g, hg, hrows⟩ := h
  rw [hrows, List.map_map]
  apply List.map_congr_left
  intro r hr
  exact (hg r hr).1

theorem Rewrites.get {s : Store} (h : Rewrites Q s s')
    (hrow : s.get id = some row) : ∃ row', s'.get id = some row' ∧ Q row row' := by
  obtain ⟨g, hg, hrows⟩ := h
  have hfind : ∀ rows : List Row, (∀ r ∈ rows, (g r).commandId = r.commandId) →
      (rows.map g).find? (fun r => r.commandId == id) = (rows.find? (fun r => r.commandId == id)).map g := by
    intro rows hids
    induction rows with
    | nil => rfl
    | cons r rows ih =>
      rw [List.map_cons, List.find?_cons, List.find?_cons, hids r List.mem_cons_self]
      split
      · rfl
      · exact ih (fun r' hr' => hids r' (List.mem_cons_of_mem r hr'))
  have hget : s'.get id = (s.get id).map g := by
    unfold Store.get
    rw [hrows, hfind s.rows (fun r hr => (hg r hr).1)]
  rw [hget, hrow]
  exact ⟨g row, rfl, (hg row (Store.get_mem hrow)).2⟩

theorem Rewrites.modify (hQ : ∀ r, Q r r)
    (hf : ∀ r ∈ s.rows, r.commandId = target → (f r).commandId = r.commandId ∧ Q r (f r)) : Rewrites Q s (s.modify target f) := by
  refine ⟨fun r => if r.commandId = target then f r else r, fun r hr => ?_, rfl⟩
  dsimp only
  split
  · rename_i htarget
    exact hf r hr htarget
  · exact ⟨rfl, hQ r⟩

theorem PlaneMoved.modify
    (hf : ∀ r ∈ s.rows, r.commandId = target → (f r).commandId = r.commandId ∧ Moved (r.core P) .plane ((f r).core P)) :
    PlaneMoved P s (s.modify target f) := Rewrites.modify (fun r => .same (r.core P)) hf

/-! ## The control plane's operations -/

theorem moved_dismissRow (now : Int) (hended : row.state.active = false) :
    Moved (row.core P) .plane ((dismissRow now row).core P) := Moved.scrubbed (row.core P) _ hended

theorem moved_endRow (error : String) (code : Option String) (now : Int) (hactive : row.state.active = true) :
    Moved (row.core P) .plane ((endRow error code now row).core P) := Moved.ended (row.core P) hactive _

theorem dismiss_moved (hk : s.Keyed) (sessionId commandId : String) (now : Int) :
    PlaneMoved P s (dismissTerminalSessionPromptCommand sessionId commandId now s).2 := by
  unfold dismissTerminalSessionPromptCommand
  cases hopen : s.open sessionId commandId with
  | none => exact PlaneMoved.refl s
  | some row =>
    simp only
    split
    · exact PlaneMoved.refl s
    · rename_i hended
      refine PlaneMoved.modify (fun row' hmem' hid' => ⟨rfl, ?_⟩)
      obtain ⟨hmem, hid⟩ := Store.open_some hopen
      have hrow : row' = row := hk.ext hmem' hmem (hid'.trans hid.symm)
      subst hrow
      apply moved_dismissRow
      cases hstate : row'.state <;> simp_all [State.active]

theorem cancelPending_moved (hk : s.Keyed) (sessionId commandId : String) (now : Int) :
    PlaneMoved P s (cancelPendingSessionPromptCommand sessionId commandId now s).2 := by
  unfold cancelPendingSessionPromptCommand
  cases hopen : s.open sessionId commandId with
  | none => exact PlaneMoved.refl s
  | some row =>
    simp only
    split
    · exact PlaneMoved.refl s
    · rename_i hpending
      rw [not_not] at hpending
      refine PlaneMoved.modify (fun row' hmem' hid' => ⟨rfl, ?_⟩)
      obtain ⟨hmem, hid⟩ := Store.open_some hopen
      have hrow : row' = row := hk.ext hmem' hmem (hid'.trans hid.symm)
      subst hrow
      apply moved_endRow
      rw [hpending]
      rfl

theorem dismissPredecessor_moved {s : Store} (hk : s.Keyed) (h : dismissPredecessor input s = .ok s') : PlaneMoved P s s' := by
  unfold dismissPredecessor at h
  split at h
  · cases h
    exact PlaneMoved.refl _
  · cases h
    exact PlaneMoved.refl _
  · rename_i id _ _
    have hmoved : PlaneMoved P s _ := dismiss_moved hk input.sessionId id input.now
    split at h
    · rename_i s'' hdismissed
      cases h
      rw [hdismissed] at hmoved
      exact hmoved
    · cases h

theorem defer_moved (s : Store) (commandId : String) (nextAttemptAt now : Int) :
    PlaneMoved P s (deferSessionPromptCommand commandId nextAttemptAt now s) := by
  refine PlaneMoved.modify (fun row _ _ => ?_)
  split
  · exact ⟨rfl, .same (row.core P)⟩
  · exact ⟨rfl, .same (row.core P)⟩

theorem stopResume_moved (s : Store) (commandId : String) (now : Int) : PlaneMoved P s (stopResumeDelivery commandId now s) := by
  refine PlaneMoved.modify (fun row _ _ => ?_)
  split
  · rename_i h
    exact ⟨rfl, moved_endRow _ _ now h.1⟩
  · exact ⟨rfl, .same (row.core P)⟩

theorem expire_moved (hk : s.Keyed) (now : Int) : PlaneMoved P s (expireSessionPromptCommands now s) := by
  unfold expireSessionPromptCommands
  refine ⟨_, fun row hrow => ?_, rfl⟩
  split
  · rename_i hin
    refine ⟨rfl, ?_⟩
    unfold expireRow
    apply moved_endRow
    -- the statement reads active rows only, and ids are the key
    rw [List.contains_iff_mem] at hin
    unfold batch at hin
    obtain ⟨row', hrow', hid⟩ := List.mem_map.1 hin
    have hfiltered := List.mem_of_mem_take hrow'
    rw [List.mem_insertionSort, List.mem_filter, Bool.and_eq_true] at hfiltered
    obtain ⟨hmem, hactive, -⟩ := hfiltered
    rw [← hk.ext hmem hrow hid]
    exact hactive
  · exact ⟨rfl, .same (row.core P)⟩

theorem cancelSession_moved (s : Store) (sessionId reason : String) (now : Int) (kept resumes : List String) :
    PlaneMoved P s (cancelSessionPromptCommands sessionId reason now kept resumes s) := by
  refine ⟨_, fun row _ => ?_, rfl⟩
  split
  · rename_i h
    obtain ⟨-, hactive, -⟩ := h
    simp only
    split
    · exact ⟨rfl, Moved.ended (row.core P) hactive _⟩
    · exact ⟨rfl, moved_endRow _ _ now hactive⟩
  · exact ⟨rfl, .same (row.core P)⟩

def Told (s : Store) (r : Receipt) (row : Row) : Prop :=
  row.commandId = r.commandId ∧ heard s r row = true ∧ receiptTaken row r.state r.revision = true

theorem record_rewrites (hk : s.Keyed) (r : Receipt) (now : Int) :
    Rewrites (fun row row' => (Told s r row ∧ row' = takeReceipt r now row) ∨ row' = row) s
      (recordSessionPromptCommandReceipt r now s).2 := by
  unfold recordSessionPromptCommandReceipt
  cases hget : s.get r.commandId with
  | none => exact Rewrites.refl (fun _ => .inr rfl) s
  | some row =>
    simp only
    by_cases hheard : heard s r row = true
    · rw [if_pos hheard]
      by_cases htaken : receiptTaken row r.state r.revision = true
      · rw [if_pos htaken]
        refine Rewrites.modify (fun _ => .inr rfl) (fun row' hmem' hid' => ⟨rfl, .inl ⟨?_, rfl⟩⟩)
        have hrow : row' = row := hk.ext hmem' (Store.get_mem hget) (hid'.trans (Store.get_commandId hget).symm)
        rw [hrow]
        exact ⟨Store.get_commandId hget, hheard, htaken⟩
      · rw [if_neg htaken]
        exact Rewrites.refl (fun _ => .inr rfl) s
    · rw [if_neg hheard]
      exact Rewrites.refl (fun _ => .inr rfl) s

theorem ownReceipt_moved (hk : s.Keyed) (hmem : row ∈ s.rows) {state : State} (error : String) (now : Int)
    (hmoved : Moved (row.core P) .plane ((takeReceipt (ownReceipt row state error) now row).core P)) :
    PlaneMoved P s (recordSessionPromptCommandReceipt (ownReceipt row state error) now s).2 := by
  have hrewrites := record_rewrites hk (ownReceipt row state error) now
  obtain ⟨g, hg, hrows⟩ := hrewrites
  refine ⟨g, fun row' hmem' => ⟨(hg row' hmem').1, ?_⟩, hrows⟩
  rcases (hg row' hmem').2 with ⟨⟨hid, -⟩, htaken⟩ | hsame
  · have hrow : row' = row := hk.ext hmem' hmem hid
    rw [htaken, hrow]
    exact hmoved
  · rw [hsame]
    exact .same (row'.core P)

theorem markSent_moved (hk : s.Keyed) (hmem : row ∈ s.rows) (hintact : payloadIntact P row = true)
    (requestId : Nat) (now nextAttemptAt : Int) :
    PlaneMoved P s (markSessionPromptCommandSent row.commandId requestId now nextAttemptAt s) := by
  unfold markSessionPromptCommandSent
  rw [hk.get hmem]
  simp only
  split
  · rename_i h
    refine PlaneMoved.modify (fun row' hmem' hid' => ⟨rfl, ?_⟩)
    have hrow : row' = row := hk.ext hmem' hmem hid'
    subst hrow
    exact Moved.sent (row'.core P) h.1 hintact
  · exact PlaneMoved.refl s

theorem flush_moved (hk : s.Keyed) (commandId : String) (o : Outlook) (now : Int) :
    PlaneMoved P s (flushRow P commandId o now s) := by
  unfold flushRow
  cases hget : s.get commandId with
  | none => exact PlaneMoved.refl s
  | some row =>
    have hmem := Store.get_mem hget
    simp only
    split
    · rename_i hdue
      obtain ⟨hactive, -⟩ := hdue
      have hended : ∀ error, Moved (row.core P) .plane ((takeReceipt (ownReceipt row (refused row) error) now row).core P) :=
        fun error => Moved.ended (row.core P) hactive _
      split
      · rename_i hbroken
        rw [Bool.not_eq_true'] at hbroken
        apply ownReceipt_moved hk hmem
        exact Moved.malformed (row.core P) hactive hbroken
      · rename_i hintact
        rw [Bool.not_eq_true', Bool.not_eq_false] at hintact
        split
        · exact defer_moved s commandId _ now
        · split
          · exact ownReceipt_moved hk hmem o.reason now (hended _)
          · split
            · exact defer_moved s commandId _ now
            · split
              · exact ownReceipt_moved hk hmem o.reason now (hended _)
              · rw [← Store.get_commandId hget]
                exact markSent_moved hk hmem hintact o.requestId now _
    · exact PlaneMoved.refl s

/-- **What staging a retry does**: nothing, a dismissal beside an active command, or a fresh command. -/
inductive Retried (input : RetryInput) (s : Store) : Except String (Row × Disposition) → Store → Prop
  | refused (e : String) : Retried input s (.error e) s
  | terminal (latest : Row) (hlatest : latestOf input.baseCommandId s = some latest) : Retried input s (.ok (latest, .terminal)) s
  | active (latest : Row) (hlatest : latestOf input.baseCommandId s = some latest) (hactive : latest.state.active = true)
      {s' : Store} (hmoved : PlaneMoved P s s') : Retried input s (.ok (latest, .deliverable)) s'
  | fresh (latest : Option Row) (hlatest : latestOf input.baseCommandId s = latest)
      (hfailed : ∀ row, latest = some row → row.state = .failed ∧ row.userEventSeq = none)
      (hnew : s.get (retryRow input latest).commandId = none) {s' : Store} (hmoved : PlaneMoved P (s.insert (retryRow input latest)) s') :
      Retried input s (.ok (retryRow input latest, .deliverable)) s'

theorem Keyed.insert (hk : s.Keyed) {new : Row} (hnew : s.get new.commandId = none) : (s.insert new).Keyed := by
  unfold Store.Keyed Store.insert
  rw [List.map_append, List.map_singleton, ← List.concat_eq_append]
  refine hk.concat (fun hmem => ?_)
  obtain ⟨r, hr, hid⟩ := List.mem_map.1 hmem
  exact Store.get_eq_none hnew r hr hid

theorem publishRetry_retried (hk : s.Keyed) (input : RetryInput) (latest : Option Row)
    (hlatest : latestOf input.baseCommandId s = latest)
    (hfailed : ∀ row, latest = some row → row.state = .failed ∧ row.userEventSeq = none) :
    Retried (P := P) input s (publishRetry input latest s).1 (publishRetry input latest s).2 := by
  unfold publishRetry
  simp only
  split
  · exact .refused _
  · rename_i hnew
    rw [Option.not_isSome_iff_eq_none] at hnew
    cases hdismiss : dismissPredecessor input (s.insert (retryRow input latest)) with
    | error e => exact .refused e
    | ok s' => exact .fresh latest hlatest hfailed hnew (dismissPredecessor_moved (Keyed.insert hk hnew) hdismiss)

theorem stageRetriable_retried (hk : s.Keyed) (input : RetryInput) :
    Retried (P := P) input s (stageRetriableSessionPromptCommand P input s).1 (stageRetriableSessionPromptCommand P input s).2 := by
  unfold stageRetriableSessionPromptCommand
  cases P.parse input.payloadJson with
  | none => exact .refused _
  | some command =>
    cases hlatest : latestOf input.baseCommandId s with
    | none => exact publishRetry_retried hk input none hlatest (fun row h => by cases h)
    | some latest =>
      simp only
      split
      · exact .refused _
      · split
        · rename_i hactive
          split
          · exact .refused _
          · cases hdismiss : dismissPredecessor input s with
            | error e => exact .refused e
            | ok s' => exact .active latest hlatest hactive (dismissPredecessor_moved hk hdismiss)
        · split
          · exact .terminal latest hlatest
          · rename_i hfailed
            rw [not_or, not_not, not_not] at hfailed
            refine publishRetry_retried hk input (some latest) hlatest (fun row h => ?_)
            cases h
            exact hfailed

def Op.ofPlane : Op → Bool
  | .receipt _ _ => false
  | _ => true

/-- **What a step does**: it rewrites the rows in place, adds a fresh row after them, or prunes. -/
inductive Stepped (s : Store) : Op → Store → Prop
  | plane {op : Op} (hop : op.ofPlane = true) {s' : Store} (hmoved : PlaneMoved P s s') : Stepped s op s'
  | told (r : Receipt) (now : Int) {s' : Store}
      (htold : Rewrites (fun row row' => ((r.state ≠ .pending ∧ r.state ≠ .sent) ∧ Told s r row ∧ row' = takeReceipt r now row) ∨
        row' = row) s s') :
      Stepped s (.receipt r now) s'
  | added {op : Op} (hop : op.ofPlane = true) {s' : Store} (new : StageInput) (hnew : s.get new.commandId = none)
      (hmoved : PlaneMoved P (s.insert (stagedRow new)) s') : Stepped s op s'
  | pruned (now : Int) (limit : Nat) (kept : List String) {s' : Store} (hrows : s'.rows.Sublist s.rows) :
      Stepped s (.prune now limit kept) s'

theorem Retried.stepped {s : Store} {result : Except String (Row × Disposition)}
    (hop : op.ofPlane = true) (h : Retried (P := P) input s result s') : Stepped (P := P) s op s' := by
  cases h with
  | refused e => exact .plane hop (PlaneMoved.refl _)
  | terminal latest hlatest => exact .plane hop (PlaneMoved.refl _)
  | active latest hlatest hactive hmoved => exact .plane hop hmoved
  | fresh latest hlatest hfailed hnew hmoved => exact .added hop _ hnew hmoved

/-- **Every operation steps so.** -/
theorem step_stepped (hk : s.Keyed) (op : Op) : Stepped (P := P) s op (step P s op) := by
  cases op with
  | stage input =>
    unfold step stageSessionPromptCommand
    simp only
    cases P.parse input.payloadJson with
    | none => exact .plane rfl (PlaneMoved.refl s)
    | some command =>
      cases hget : s.get input.commandId with
      | none => exact .added rfl input hget (PlaneMoved.refl _)
      | some existing =>
        simp only
        split <;> exact .plane rfl (PlaneMoved.refl s)
  | stageRetriable input => exact (stageRetriable_retried hk input).stepped rfl
  | retry sessionId commandId now =>
    unfold step retryKnownUndeliveredFailure
    simp only
    cases retryableKnownUndeliveredPrompt P sessionId commandId s with
    | none => exact .plane rfl (PlaneMoved.refl s)
    | some prior => exact (stageRetriable_retried hk _).stepped rfl
  | flush commandId o now => exact .plane rfl (flush_moved hk commandId o now)
  | receipt r now =>
    unfold step receipt
    simp only
    refine .told r now ?_
    split
    · rename_i hrunner
      refine (record_rewrites hk r now).mono (fun row row' h => ?_)
      rcases h with ⟨ht, hrow⟩ | hsame
      · exact .inl ⟨hrunner, ht, hrow⟩
      · exact .inr hsame
    · exact Rewrites.refl (fun _ => .inr rfl) s
  | expire now => exact .plane rfl (expire_moved hk now)
  | cancelSession sessionId reason now kept resumes => exact .plane rfl (cancelSession_moved s sessionId reason now kept resumes)
  | cancelPending sessionId commandId now => exact .plane rfl (cancelPending_moved hk sessionId commandId now)
  | stopResume commandId now => exact .plane rfl (stopResume_moved s commandId now)
  | dismiss sessionId commandId now => exact .plane rfl (dismiss_moved hk sessionId commandId now)
  | prune now limit kept => exact .pruned now limit kept List.filter_sublist

theorem Stepped.keyed {s : Store} (hk : s.Keyed) (h : Stepped (P := P) s op s') : s'.Keyed := by
  unfold Store.Keyed
  cases h with
  | plane hop hmoved =>
    rw [hmoved.ids]
    exact hk
  | told r now htold =>
    rw [htold.ids]
    exact hk
  | added hop new hnew hmoved =>
    rw [hmoved.ids]
    exact Keyed.insert hk hnew
  | pruned now limit kept hrows => exact (hrows.map Row.commandId).nodup hk

theorem run_keyed (hk : s.Keyed) (ops : List Op) : (run P s ops).Keyed := by
  induction ops generalizing s with
  | nil => exact hk
  | cons op ops ih => exact ih ((step_stepped hk op).keyed hk)

theorem empty_keyed : Store.empty.Keyed := List.nodup_nil

theorem moved_takeReceipt {r : Receipt} (now : Int) (hrunner : r.state ≠ .pending ∧ r.state ≠ .sent)
    (ht : Told s r row) : Moved (row.core P) (.runner r.state r.revision) ((takeReceipt r now row).core P) := by
  refine Moved.told (row.core P) r.state r.revision _ _ ht.2.2 hrunner (fun hcompleted => ?_) (fun hevent => ?_)
  · unfold payloadIntact takeReceipt Row.core
    simp only [if_neg hcompleted]
    rfl
  · have hsome : row.userEventSeq.isSome = true := hevent
    unfold takeReceipt
    simp only
    rw [Option.isSome_or, hsome, Bool.or_true]

/-- **What a step does to one command that it leaves there**: the control plane moves it, or its runner's receipt does. -/
theorem step_get (hk : s.Keyed) (op : Op) {row' : Row} (h : s.get id = some row) (h' : (step P s op).get id = some row') :
    row' = row ∨ (op.ofPlane = true ∧ Moved (row.core P) .plane (row'.core P)) ∨
      ∃ r now, op = .receipt r now ∧ Told s r row ∧ row' = takeReceipt r now row ∧
        Moved (row.core P) (.runner r.state r.revision) (row'.core P) := by
  generalize hs' : step P s op = s' at h'
  have hstep := step_stepped (P := P) hk op
  rw [hs'] at hstep
  cases hstep with
  | plane hop hmoved =>
    obtain ⟨row'', hget, hcore⟩ := hmoved.get h
    rw [h', Option.some.injEq] at hget
    subst hget
    exact .inr (.inl ⟨hop, hcore⟩)
  | told r now htold =>
    obtain ⟨row'', hget, hcore⟩ := htold.get h
    rw [h', Option.some.injEq] at hget
    subst hget
    rcases hcore with ⟨hrunner, ht, hrow⟩ | hsame
    · refine .inr (.inr ⟨r, now, rfl, ht, hrow, ?_⟩)
      rw [hrow]
      exact moved_takeReceipt now hrunner ht
    · exact .inl hsame
  | added hop new hnew hmoved =>
    obtain ⟨row'', hget, hcore⟩ := hmoved.get (get_insert s row _ h)
    rw [h', Option.some.injEq] at hget
    subst hget
    exact .inr (.inl ⟨hop, hcore⟩)
  | pruned now limit kept hrows =>
    have hmem : row' ∈ s.rows := hrows.subset (Store.get_mem h')
    exact .inl (hk.ext hmem (Store.get_mem h) ((Store.get_commandId h').trans (Store.get_commandId h).symm))

end

end Wollipog.Prompts
