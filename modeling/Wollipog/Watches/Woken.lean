import Wollipog.Watches.Rows
/-!
# Woken — a parked session is woken once per watch and not forgotten

The runs are the operations of one connection, alone or in a caller's transaction, which a failed operation rolls back
together with the log of the rows.
-/
namespace Wollipog.Watches

open Json (Text)

/-! ## Runs -/

inductive Op
  | register (input : RegisterInput)
  | accept (runnerId : String) (update : PullRequestWatchUpdate) (now : ℤ)
  | markLost (watchId : String) (reason : Text) (now : ℤ)
  | cancelForSession (sessionId : String) (reason : Text) (now : ℤ)
  | bindWakes (sessionId : String) (watchIds : List String) (commandId : String) (now : ℤ)
  | claimHeld (sessionId : String) (watchIds : List String) (now : ℤ)
  | releaseClaim (sessionId : String) (watchIds : List String) (now : ℤ)
  | setCommandState (commandId : String) (state : CommandState) (now : ℤ)
  | holdCommand (sessionId commandId : String) (now : ℤ)

/-- Whether the operation failed, by a throw or a refused claim, with the connection after it. -/
def perform (op : Op) (c : Conn) : Bool × Conn :=
  match op with
  | .register input => ((register input c).1.isNone, (register input c).2)
  | .accept runnerId update now => (false, (accept runnerId update now c).2)
  | .markLost watchId reason now => (false, (markLost watchId (some reason) now c).2)
  | .cancelForSession sessionId reason now =>
    ((cancelForSession sessionId reason now c).1.isNone, (cancelForSession sessionId reason now c).2)
  | .bindWakes sessionId watchIds commandId now =>
    ((bindWakes sessionId watchIds commandId now c).1.isNone, (bindWakes sessionId watchIds commandId now c).2)
  | .claimHeld sessionId watchIds now =>
    (!(claimHeld sessionId watchIds now c).1, (claimHeld sessionId watchIds now c).2)
  | .releaseClaim sessionId watchIds now => (false, releaseClaim sessionId watchIds now c)
  | .setCommandState commandId state now => (false, (setCommandState commandId state now c).2)
  | .holdCommand sessionId commandId now => (false, (holdCommand sessionId commandId now c).2)

def entries (op : Op) (c : Conn) : List Event :=
  match op with
  | .register input => [.parked input.sessionId]
  | .accept runnerId update now => reports runnerId update now c
  | .markLost watchId reason now => if (markLost watchId (some reason) now c).1 then [.foundLost watchId] else []
  | .cancelForSession sessionId _ _ => [.cancelled sessionId]
  | _ => []

theorem perform_works (log : List Event) (op : Op) (c : Conn) :
    Works log (if (perform op c).1 && !c.isTransaction then log else log ++ entries op c) c (perform op c).2 := by
  cases op with
  | register input => exact register_works log input c
  | accept runnerId update now => exact accept_works log runnerId update now c
  | markLost watchId reason now =>
    have h := markLost_works log watchId (some reason) now c
    unfold entries
    simp only [perform, Bool.false_and, Bool.false_eq_true, if_false]
    split
    · rename_i hmarked
      rwa [if_pos hmarked] at h
    · rename_i hmarked
      rw [if_neg hmarked] at h
      rwa [List.append_nil]
  | cancelForSession sessionId reason now => exact cancelForSession_works log sessionId reason now c
  | bindWakes sessionId watchIds commandId now =>
    simp only [entries, List.append_nil, ite_self]
    exact bindWakes_works log sessionId watchIds commandId now c
  | claimHeld sessionId watchIds now =>
    simp only [entries, List.append_nil, ite_self]
    exact claimHeld_works log sessionId watchIds now c
  | releaseClaim sessionId watchIds now =>
    simp only [entries, List.append_nil, ite_self]
    exact releaseClaim_works log sessionId now watchIds c
  | setCommandState commandId state now =>
    simp only [entries, List.append_nil, ite_self]
    exact setCommandState_works log commandId state now c
  | holdCommand sessionId commandId now =>
    simp only [entries, List.append_nil, ite_self]
    exact holdCommand_works log sessionId commandId now c

/-- The connection with the log of the rows, and the log as the open transaction found it. -/
structure World where
  conn : Conn
  log : List Event
  savedLog : List Event
  /-- An operation failed in the open transaction, which can only be rolled back. -/
  mustRollBack : Bool

inductive Step
  | begin | commit | rollback
  | look
  | run (op : Op)

def Op.isBind : Op → Bool
  | .bindWakes _ _ _ _ => true
  | _ => false

def World.step (w : World) : Step → Option World
  | .begin =>
    if w.conn.isTransaction then none
    else some { conn := w.conn.begin, log := w.log, savedLog := w.log, mustRollBack := false }
  | .commit =>
    if w.conn.isTransaction && !w.mustRollBack then some { w with conn := w.conn.commit } else none
  | .rollback =>
    if w.conn.isTransaction then
      some { conn := w.conn.rollback, log := w.savedLog, savedLog := w.savedLog, mustRollBack := false }
    else none
  | .look => if w.mustRollBack then none else some { w with conn := (noneVisible w.conn).2 }
  | .run op =>
    if w.mustRollBack || (op.isBind && !w.conn.isTransaction) then none
    else some {
      conn := (perform op w.conn).2
      log := if (perform op w.conn).1 && !w.conn.isTransaction then w.log else w.log ++ entries op w.conn
      savedLog := w.savedLog
      mustRollBack := (perform op w.conn).1 && w.conn.isTransaction }

def start (ownsWrites : Bool) : World where
  conn := { rows := [], saved := none, anyVisible := none, ownsWrites := ownsWrites }
  log := []
  savedLog := []
  mustRollBack := false

inductive Steps : World → World → Prop
  | refl (w : World) : Steps w w
  | snoc {u v w : World} (step : Step) : Steps u v → v.step step = some w → Steps u w

/-- What holds after any steps of the rows and their log, of the transaction's, and of the cache. -/
structure World.Ok (w : World) : Prop where
  inv : Inv w.conn.rows w.log
  saved : ∀ rows, w.conn.saved = some rows → Inv rows w.savedLog
  since : ∀ rows, w.conn.saved = some rows → DeliveredKept rows w.conn.rows
  cached : ∀ any, w.conn.anyVisible = some any →
    any = w.conn.rows.any Row.visible ∧ ∀ rows, w.conn.saved = some rows → any = rows.any Row.visible

theorem World.Ok.step {w w' : World} {step : Step} (h : w.Ok) (hstep : w.step step = some w') : w'.Ok := by
  cases step with
  | begin =>
    simp only [World.step] at hstep
    split at hstep
    · cases hstep
    · cases hstep
      refine ⟨h.inv, fun rows hrows => ?_, fun rows hrows => ?_, fun any hany => ?_⟩
      · cases hrows
        exact h.inv
      · cases hrows
        exact DeliveredKept.refl _
      · refine ⟨(h.cached any hany).1, fun rows hrows => ?_⟩
        cases hrows
        exact (h.cached any hany).1
  | commit =>
    simp only [World.step] at hstep
    split at hstep
    · cases hstep
      exact ⟨h.inv, fun rows hrows => (by cases hrows), fun rows hrows => (by cases hrows), fun any hany =>
        ⟨(h.cached any hany).1, fun rows hrows => by cases hrows⟩⟩
    · cases hstep
  | rollback =>
    simp only [World.step] at hstep
    split at hstep
    · rename_i hopen
      obtain ⟨rows, hrows⟩ := Option.isSome_iff_exists.1 hopen
      have hback : w.conn.rollback.rows = rows := by
        change w.conn.saved.getD w.conn.rows = rows
        rw [hrows]
        rfl
      cases hstep
      refine ⟨?_, fun rows' hrows' => (by cases hrows'), fun rows' hrows' => (by cases hrows'), fun any hany => ⟨?_, fun rows' hrows' => (by cases hrows')⟩⟩
      · change Inv w.conn.rollback.rows w.savedLog
        rw [hback]
        exact h.saved rows hrows
      · change any = w.conn.rollback.rows.any Row.visible
        rw [hback]
        exact (h.cached any hany).2 rows hrows
    · cases hstep
  | look =>
    simp only [World.step] at hstep
    split at hstep
    · cases hstep
    · cases hstep
      unfold noneVisible
      cases hany : w.conn.anyVisible with
      | some any => exact h
      | none =>
        simp only
        split
        · rename_i hcaches
          rw [Bool.and_eq_true, Bool.not_eq_true'] at hcaches
          refine ⟨h.inv, h.saved, h.since, fun any hcached => ⟨(Option.some.inj hcached).symm, fun rows hrows => ?_⟩⟩
          have hopen : w.conn.isTransaction = true := by
            change w.conn.saved = some rows at hrows
            unfold Conn.isTransaction
            rw [hrows]
            rfl
          rw [hopen] at hcaches
          cases hcaches.2
        · exact h
  | run op =>
    simp only [World.step] at hstep
    split at hstep
    · cases hstep
    · cases hstep
      have hworks := perform_works w.log op w.conn
      have hold : ∀ rows, (perform op w.conn).2.saved = some rows → w.conn.saved = some rows :=
        fun rows hrows => hworks.saved ▸ hrows
      refine ⟨hworks.inv h.inv, fun rows hrows => h.saved rows (hold rows hrows),
        fun rows hrows => (h.since rows (hold rows hrows)).trans (hworks.kept h.inv), fun any hany => ?_⟩
      rcases hworks.cache with hnone | hsame
      · rw [hnone] at hany
        cases hany
      · change (perform op w.conn).2.anyVisible = some any at hany
        change any = (perform op w.conn).2.rows.any Row.visible ∧
          ∀ rows, (perform op w.conn).2.saved = some rows → any = rows.any Row.visible
        rw [hsame] at hany ⊢
        exact h.cached any hany

theorem start_ok (ownsWrites : Bool) : (start ownsWrites).Ok where
  inv := {
    ids := List.nodup_nil
    one := List.forall_mem_nil _
    sound := List.forall_mem_nil _
    ended := List.forall_mem_nil _
    reported := fun _ _ h => absurd h List.not_mem_nil }
  saved rows h := by cases h
  since rows h := by cases h
  cached any h := by cases h

variable {α : Type} {now : ℤ} {r : Row} {c : Conn} {u w : World} {commandId : String}

theorem Steps.ok (h : Steps u w) (hu : u.Ok) : w.Ok := by
  induction h with
  | refl => exact hu
  | snoc step _ hstep ih => exact ih.step hstep

/-! ## All the named wakes or none -/

theorem eachHeld_other {sessionId : String} {f : Row → Row} : ∀ {watchIds : List String} {c : Conn} {r : Row}, r ∈ c.rows →
    (∀ watchId ∈ watchIds, isHeld sessionId watchId r = false) → r ∈ (eachHeld sessionId f watchIds c).2.rows
  | [], _, _, hr, _ => hr
  | watchId :: rest, c, r, hr, hnot => by
    have hstays : r ∈ (c.write (updateRows (isHeld sessionId watchId) f)).rows :=
      List.mem_map.2 ⟨r, hr, if_neg (by rw [hnot watchId List.mem_cons_self]; exact Bool.false_ne_true)⟩
    unfold eachHeld
    simp only
    split
    · exact eachHeld_other hstays (fun other hother => hnot other (List.mem_cons_of_mem _ hother))
    · exact hstays

theorem isHeld_eq {sessionId watchId : String} (h : isHeld sessionId watchId r = true) :
    r.watch_id = watchId ∧ r.session_id = sessionId ∧ r.continuation_state = some .held := by
  rw [isHeld, Bool.and_eq_true, Bool.and_eq_true, beq_iff_eq, beq_iff_eq, beq_iff_eq] at h
  exact ⟨h.1.1, h.1.2, h.2⟩

theorem eachHeld_all {sessionId : String} {f : Row → Row} (hf : ∀ r, (f r).continuation_state ≠ some .held) :
    ∀ {watchIds : List String} {c c' : Conn}, eachHeld sessionId f watchIds c = (some (), c') →
      ∀ watchId ∈ watchIds, ∃ r ∈ c.rows, isHeld sessionId watchId r = true ∧ f r ∈ c'.rows
  | [], _, _, _ => List.forall_mem_nil _
  | watchId :: rest, c, c', h => by
    unfold eachHeld at h
    simp only at h
    split at h
    · rename_i hone
      intro named hnamed
      rcases List.mem_cons.1 hnamed with rfl | hrest
      · obtain ⟨r, hr, hheld⟩ := List.countP_pos_iff.1 (by rw [hone]; exact Nat.one_pos)
        refine ⟨r, hr, hheld, ?_⟩
        have hwritten : f r ∈ (c.write (updateRows (isHeld sessionId named) f)).rows :=
          List.mem_map.2 ⟨r, hr, if_pos hheld⟩
        have hstays := @eachHeld_other sessionId f rest _ (f r) hwritten (fun other _ => by
          rw [← Bool.not_eq_true]
          exact fun hagain => hf r (isHeld_eq hagain).2.2)
        rwa [h] at hstays
      · obtain ⟨r, hr, hheld, hafter⟩ := eachHeld_all hf h named hrest
        obtain ⟨q, hq, hqr⟩ := List.mem_map.1 hr
        split at hqr
        · rw [← hqr] at hheld
          exact absurd (isHeld_eq hheld).2.2 (hf q)
        · rw [← hqr] at hheld hafter
          exact ⟨q, hq, hheld, hafter⟩
    · cases h

/-- The wakes a call names were held and are now in the given state, and no other row changed. -/
def Changed (sessionId : String) (watchIds : List String) (state : PullRequestWatchContinuationState)
    (commandId : Option String) (rows rows' : List Row) : Prop :=
  (∀ watchId ∈ watchIds, ∃ r ∈ rows, isHeld sessionId watchId r = true ∧ ∃ r' ∈ rows', r'.watch_id = watchId ∧
    r'.continuation_state = some state ∧ r'.continuation_command_id = commandId) ∧
  ∀ r ∈ rows, r.watch_id ∉ watchIds → r ∈ rows'

variable {sessionId : String} {watchIds : List String}

theorem eachHeld_changed {state : PullRequestWatchContinuationState}
    {commandId : Option String} (hstate : state ≠ .held) {f : Row → Row} (hf : ∀ r, (f r).watch_id = r.watch_id ∧
      (f r).continuation_state = some state ∧ (f r).continuation_command_id = commandId) {c : Conn}
    (h : (eachHeld sessionId f watchIds c).1.isSome = true) :
    Changed sessionId watchIds state commandId c.rows (eachHeld sessionId f watchIds c).2.rows := by
  have hresult : eachHeld sessionId f watchIds c = (some (), (eachHeld sessionId f watchIds c).2) :=
    Prod.ext (Option.eq_some_of_isSome h) rfl
  constructor
  · intro watchId hnamed
    have hnot : ∀ r, (f r).continuation_state ≠ some .held := fun r heq => hstate (Option.some.inj ((hf r).2.1.symm.trans heq))
    obtain ⟨r, hr, hheld, hafter⟩ := eachHeld_all hnot hresult watchId hnamed
    exact ⟨r, hr, hheld, f r, hafter, (hf r).1.trans (isHeld_eq hheld).1, (hf r).2⟩
  · intro r hr hnot
    refine eachHeld_other hr (fun watchId hnamed => ?_)
    rw [← Bool.not_eq_true]
    exact fun hheld => hnot ((isHeld_eq hheld).1 ▸ hnamed)

/-- **Wakes are bound all together.** -/
theorem bindWakes_all (h : (bindWakes sessionId watchIds commandId now c).1.isSome = true) :
    Changed sessionId watchIds .delivering (some commandId) c.rows (bindWakes sessionId watchIds commandId now c).2.rows := by
  refine @eachHeld_changed sessionId watchIds .delivering (some commandId) (by decide) _ ?_ (c.write id) h
  exact fun _ => ⟨rfl, rfl, rfl⟩

theorem atomic_ok {work : Conn → Option α × Conn} (h : (atomic work c).1.isSome = true) :
    ∃ d, d.rows = c.rows ∧ (work d).1.isSome = true ∧ (atomic work c).2.rows = (work d).2.rows := by
  unfold atomic at h ⊢
  by_cases hopen : c.isTransaction = true
  · rw [if_pos hopen] at h ⊢
    exact ⟨c, rfl, h, rfl⟩
  · rw [if_neg hopen] at h ⊢
    refine ⟨c.begin, rfl, ?_⟩
    cases hresult : work c.begin with
    | mk result d =>
      rw [hresult] at h
      cases result with
      | none => cases h
      | some result => exact ⟨rfl, rfl⟩

theorem atomic_undone {work : Conn → Option α × Conn} (hsaved : ∀ c, (work c).2.saved = c.saved)
    (hopen : c.isTransaction = false) (h : (atomic work c).1 = none) : (atomic work c).2.rows = c.rows := by
  unfold atomic at h ⊢
  rw [if_neg (by rw [hopen]; exact Bool.false_ne_true)] at h ⊢
  have hinner := hsaved c.begin
  cases hresult : work c.begin with
  | mk result d =>
    rw [hresult] at h hinner
    cases result with
    | some result => cases h
    | none =>
      change d.saved.getD d.rows = c.rows
      change d.saved = some c.rows at hinner
      rw [hinner]
      rfl

theorem eachHeld_saved {sessionId : String} {f : Row → Row} : ∀ (watchIds : List String) (c : Conn),
    (eachHeld sessionId f watchIds c).2.saved = c.saved
  | [], _ => rfl
  | watchId :: rest, c => by
    unfold eachHeld
    simp only
    split
    · exact eachHeld_saved rest _
    · rfl

/-- **Held wakes are claimed all together**, or, without a caller's transaction, not at all. -/
theorem claimHeld_all (h : (claimHeld sessionId watchIds now c).1 = true) :
    Changed sessionId watchIds .delivered none c.rows (claimHeld sessionId watchIds now c).2.rows := by
  obtain ⟨d, hrows, hwork, hafter⟩ := atomic_ok h
  change Changed sessionId watchIds .delivered none c.rows (atomic _ c).2.rows
  rw [hafter, ← hrows]
  refine @eachHeld_changed sessionId watchIds .delivered none (by decide) _ ?_ (d.write id) hwork
  exact fun _ => ⟨rfl, rfl, rfl⟩

theorem claimHeld_none (hopen : c.isTransaction = false)
    (h : (claimHeld sessionId watchIds now c).1 = false) : (claimHeld sessionId watchIds now c).2.rows = c.rows := by
  refine atomic_undone (fun c => ?_) hopen (Option.isNone_iff_eq_none.1 (Option.isSome_eq_false_iff.1 h))
  exact eachHeld_saved watchIds (c.write id)

def World.settled (w : World) : List Row := w.conn.saved.getD w.conn.rows

theorem Steps.delivered (h : Steps u w) (hu : u.Ok) (hmem : r ∈ u.settled) (hr : r.DeliveredBy commandId) :
    (∃ q ∈ w.conn.rows, q.watch_id = r.watch_id ∧ q.DeliveredBy commandId) ∧
      ∃ q ∈ w.settled, q.watch_id = r.watch_id ∧ q.DeliveredBy commandId := by
  induction h with
  | refl =>
    refine ⟨?_, r, hmem, rfl, hr⟩
    unfold World.settled at hmem
    cases hsaved : u.conn.saved with
    | none =>
      rw [hsaved] at hmem
      exact ⟨r, hmem, rfl, hr⟩
    | some rows =>
      rw [hsaved] at hmem
      exact hu.since rows hsaved r hmem commandId hr
  | @snoc v w step hsteps hstep ih =>
    obtain ⟨hcurrent, hsettled⟩ := ih
    cases step with
    | begin =>
      simp only [World.step] at hstep
      split at hstep
      · cases hstep
      · cases hstep
        exact ⟨hcurrent, hcurrent⟩
    | commit =>
      simp only [World.step] at hstep
      split at hstep
      · cases hstep
        exact ⟨hcurrent, hcurrent⟩
      · cases hstep
    | rollback =>
      simp only [World.step] at hstep
      split at hstep
      · cases hstep
        exact ⟨hsettled, hsettled⟩
      · cases hstep
    | look =>
      simp only [World.step] at hstep
      split at hstep
      · cases hstep
      · cases hstep
        have hsame : (noneVisible v.conn).2.rows = v.conn.rows ∧ (noneVisible v.conn).2.saved = v.conn.saved := by
          unfold noneVisible
          cases v.conn.anyVisible with
          | some any => exact ⟨rfl, rfl⟩
          | none =>
            simp only
            split <;> exact ⟨rfl, rfl⟩
        unfold World.settled at hsettled ⊢
        simp only [hsame]
        exact ⟨hcurrent, hsettled⟩
    | run op =>
      simp only [World.step] at hstep
      split at hstep
      · cases hstep
      · cases hstep
        have hworks := perform_works v.log op v.conn
        obtain ⟨q, hq, hwatch, hdelivered⟩ := hcurrent
        obtain ⟨p, hp, hwatch', hdelivered'⟩ := hworks.kept (hsteps.ok hu).inv q hq commandId hdelivered
        have hafter : ∃ q ∈ (perform op v.conn).2.rows, q.watch_id = r.watch_id ∧ q.DeliveredBy commandId :=
          ⟨p, hp, hwatch'.trans hwatch, hdelivered'⟩
        refine ⟨hafter, ?_⟩
        unfold World.settled at hsettled ⊢
        simp only [hworks.saved]
        cases hsaved : v.conn.saved with
        | none => exact hafter
        | some rows =>
          rw [hsaved] at hsettled
          exact hsettled

/-- **A parked session is woken at most once per watch and never forgotten**: an ended watch is owed its wake or was, and
one command carries it. -/
theorem parked_session_woken {ownsWrites : Bool} {w : World} (h : Steps (start ownsWrites) w) :
    (∀ a ∈ w.conn.rows, ∀ b ∈ w.conn.rows, a.state = .watching → b.state = .watching → a.session_id = b.session_id → a = b) ∧
      (∀ runnerId update now, (accept runnerId update now w.conn).2.rows ≠ w.conn.rows →
        ∃ row ∈ w.conn.rows, update.watchId = some row.watch_id ∧ row.runner_id = runnerId ∧ row.state = .watching ∧
          ∀ earlier, .reported earlier row.watch_id ∉ w.log) ∧
      (∀ r ∈ w.conn.rows, r.Ended → ∃ state, r.continuation_state = some state ∧ (state = .abandoned →
        ∃ earlier e later, w.log = earlier ++ e :: later ∧ e.Ends r.watch_id ∧
          ∃ void ∈ later, void.Supersedes r.session_id)) ∧
      (∀ a ∈ w.conn.rows, ∀ b ∈ w.conn.rows, ∀ commandId commandId', a.watch_id = b.watch_id →
        isCarried commandId a = true → isCarried commandId' b = true → commandId = commandId') ∧
      (∀ w', Steps w w' → ∀ r ∈ w.settled, ∀ commandId, r.DeliveredBy commandId →
        (∃ q ∈ w'.conn.rows, q.watch_id = r.watch_id ∧ q.DeliveredBy commandId) ∧
          ∃ q ∈ w'.settled, q.watch_id = r.watch_id ∧ q.DeliveredBy commandId) ∧
      (∀ sessionId watchIds commandId now,
        ((bindWakes sessionId watchIds commandId now w.conn).1.isSome = true → Changed sessionId watchIds .delivering
          (some commandId) w.conn.rows (bindWakes sessionId watchIds commandId now w.conn).2.rows) ∧
        (w.conn.isTransaction = true → (bindWakes sessionId watchIds commandId now w.conn).2.rollback.rows = w.settled)) ∧
      (∀ sessionId watchIds now,
        ((claimHeld sessionId watchIds now w.conn).1 = true → Changed sessionId watchIds .delivered none w.conn.rows
          (claimHeld sessionId watchIds now w.conn).2.rows) ∧
        (w.conn.isTransaction = true → (claimHeld sessionId watchIds now w.conn).2.rollback.rows = w.settled) ∧
        (w.conn.isTransaction = false → (claimHeld sessionId watchIds now w.conn).1 = false →
          (claimHeld sessionId watchIds now w.conn).2.rows = w.conn.rows)) ∧
      ((noneVisible w.conn).1 = true → ∀ r ∈ w.conn.rows, r.visible = false) := by
  have hok := h.ok (start_ok ownsWrites)
  have hsame : ∀ a ∈ w.conn.rows, ∀ b ∈ w.conn.rows, a.watch_id = b.watch_id → a = b :=
    fun a ha b hb heq => List.inj_on_of_nodup_map hok.inv.ids ha hb heq
  have hrolled : ∀ c' : Conn, c'.saved = w.conn.saved → w.conn.isTransaction = true → c'.rollback.rows = w.settled := by
    intro c' hsaved hopen
    obtain ⟨rows, hrows⟩ := Option.isSome_iff_exists.1 hopen
    change c'.saved.getD c'.rows = w.conn.saved.getD w.conn.rows
    rw [hsaved, hrows]
    rfl
  refine ⟨hok.inv.one, ?_, ?_, ?_, fun w' hsteps r hr commandId hd => hsteps.delivered hok hr hd, ?_, ?_, ?_⟩
  · intro runnerId update now hchanged
    rcases accept_cases runnerId update now w.conn with hnone | ⟨row, hrow, hwatch, hrunner, hwatching, -⟩
    · rw [hnone] at hchanged
      exact absurd rfl hchanged
    · refine ⟨row, hrow, hwatch, hrunner, hwatching, fun earlier hreported => ?_⟩
      obtain ⟨r, hr, hid, -, hended⟩ := hok.inv.reported earlier row.watch_id hreported
      rw [hsame r hr row hrow hid, Row.Ended, hwatching] at hended
      rcases hended with hended | hended <;> cases hended
  · intro r hr hended
    have hsound := hok.inv.sound r hr
    cases hstate : r.continuation_state with
    | none =>
      unfold Row.Sound at hsound
      rw [hstate] at hsound
      exact absurd hended hsound.1
    | some state =>
      refine ⟨state, rfl, fun habandoned => ?_⟩
      obtain ⟨earlier, e, later, hlog, hends, hvoid⟩ := hok.inv.ended r hr hended
      exact ⟨earlier, e, later, hlog, hends, hvoid (by rw [hstate, habandoned])⟩
  · intro a ha b hb commandId commandId' hid hcarried hcarried'
    rw [hsame a ha b hb hid] at hcarried
    rw [isCarried, Bool.and_eq_true, beq_iff_eq] at hcarried hcarried'
    exact Option.some.inj (hcarried.1.symm.trans hcarried'.1)
  · exact fun sessionId watchIds commandId now =>
      ⟨bindWakes_all, hrolled _ (bindWakes_works w.log sessionId watchIds commandId now w.conn).saved⟩
  · exact fun sessionId watchIds now =>
      ⟨claimHeld_all, hrolled _ (claimHeld_works w.log sessionId watchIds now w.conn).saved, claimHeld_none⟩
  · intro hnone r hr
    have hany : w.conn.rows.any Row.visible = false := by
      unfold noneVisible at hnone
      cases hcached : w.conn.anyVisible with
      | none =>
        rw [hcached] at hnone
        exact (Bool.not_eq_true' _).mp hnone
      | some any =>
        rw [hcached] at hnone
        rw [← (hok.cached any hcached).1]
        exact (Bool.not_eq_true' _).mp hnone
    rw [List.any_eq_false] at hany
    exact Bool.not_eq_true _ ▸ hany r hr

theorem parked_session_woken_reported : ∃ w, Steps (start true) w ∧ w.conn.rows.length = 1 ∧
    ((noneVisible w.conn).1 = true → ∀ r ∈ w.conn.rows, r.visible = false) := by
  have hparked := Steps.snoc (.run (.register ⟨"watch", "session", "runner", "owner/name", 7, "head", 5, 1⟩))
    (Steps.refl (start true)) rfl
  have hreported := Steps.snoc (.run (.accept "runner" ⟨some "watch", .fired, some .merged, none, none⟩ 9)) hparked rfl
  exact ⟨_, hreported, rfl, (parked_session_woken hreported).2.2.2.2.2.2.2⟩

end Wollipog.Watches
