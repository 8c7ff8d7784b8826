import Wollipog.Switch.Execute
/-!
# Careful — what one execution holds when it claims, acts and gives back

The note of an execution is what it read and how far it has come. A claim is made only on what was read since the last
await, and given back only after an explicit refusal.
-/
namespace Wollipog
namespace Switch

open Resume

inductive Phase
  | idle
  | claimed (action : LocationSwitchAction) (target : LocationSwitchCandidate)
  | asked
  | refused
  | over
deriving DecidableEq, Repr

def Phase.holds : Phase → Bool
  | .claimed _ _ | .asked | .refused => true
  | _ => false

/-- What an execution knows: the first database it read, what the inspections said, and the database last read. -/
structure Note where
  before : Option Db
  answers : Option (String → LocationInspection)
  sight : Option Db
  phase : Phase

def Note.fresh : Note := ⟨none, none, none, .idle⟩

def Call.outside : Call → Bool
  | .inspect _ | .switchSession _ _ | .createSession _ _ _ => true
  | _ => false

def Call.attempts : Call → Bool
  | .switchSession _ _ | .createSession _ _ _ => true
  | _ => false

def Call.ActsOn (occurrenceId : String) (action : LocationSwitchAction) (target : LocationSwitchCandidate) : Call → Prop
  | .switchSession runnerId message => action = .switch ∧ runnerId = target.place.runnerId ∧
      message.workspaceId = target.place.workspaceId ∧ message.repository = target.repository ∧
      message.locationName = target.place.name ∧ message.occurrenceId = occurrenceId
  | .createSession occurrence _ request => action = .newSession ∧ occurrence = occurrenceId ∧
      request.runnerId = target.place.runnerId ∧ request.workspaceId = target.place.workspaceId ∧
      request.projectLocationId = target.locationId
  | _ => False

def Note.sent (m : Note) : Call → Note
  | .read | .enter _ | .leave _ => m
  | .switchSession _ _ | .createSession _ _ _ => { m with sight := none, phase := .asked }
  | _ => { m with sight := none }

def Note.answered (m : Note) : Call → Answer → Note
  | .read, .db db => { m with before := m.before.or (some db), sight := some db }
  | .inspect _, .inspected answers => { m with answers := some answers }
  | .claim _ _ _ action target, .flag true => { m with phase := .claimed action target }
  | .switchSession _ _, .reply false _ => { m with phase := .refused }
  | .createSession _ _ _, .notCreated _ _ => { m with phase := .refused }
  | .switchSession _ _, _ => { m with phase := .over }
  | .createSession _ _ _, _ => { m with phase := .over }
  | .release _, _ => { m with phase := .over }
  | _, _ => m

variable (auditDigest : Bound → String) (args : Args)

/-- What an execution checked: on the first database it read, on what the inspections said, and on `db`. -/
structure Checks where
  decision : Decision
  requester : SessionView
  owner : HumanPrincipal
  project : ProjectView
  asked : List (ProjectLocationView × Bool)
  prepared : Prepared
  session : SessionView
  human : HumanPrincipal

structure Checks.Hold (k : Checks) (before : Db) (answers : String → LocationInspection) (db : Db)
    (action : LocationSwitchAction) (target : LocationSwitchCandidate) : Prop where
  read : get args before = .ok k.decision
  digest : k.decision.resourceDigest = args.digest
  choice : chosen args k.decision = .ok (action, target)
  asks : toInspect before.facts k.requester (.human k.owner) k.decision.snapshot.repository = .ok (k.project, k.asked)
  verified : Switch.prepared db.facts auditDigest k.requester k.decision.snapshot.repository k.project
    (inspections k.asked answers) = .ok k.prepared
  unchanged : k.prepared.targetDigest = k.decision.snapshot.targetDigest
  authorized : authorizeExecution db.facts args.principal args.sessionId (db.approver args.occurrenceId) target =
    .ok (k.session, k.human)
  same : sessionBinding k.session = sessionBinding k.requester

def Owes (m : Note) : Call → Prop
  | .claim occurrenceId digest now action target => occurrenceId = args.occurrenceId ∧ digest = args.digest ∧ now = args.now ∧
      m.phase = .idle ∧ ∃ (before : Db) (answers : String → LocationInspection) (db : Db) (k : Checks), m.before = some before ∧
        m.answers = some answers ∧ m.sight = some db ∧ k.Hold auditDigest args before answers db action target
  | .release occurrenceId => occurrenceId = args.occurrenceId ∧ m.phase = .refused
  | .switchSession runnerId message => ∃ action target, m.phase = .claimed action target ∧
      (Call.switchSession runnerId message).ActsOn args.occurrenceId action target
  | .createSession occurrenceId human request => ∃ action target, m.phase = .claimed action target ∧
      (Call.createSession occurrenceId human request).ActsOn args.occurrenceId action target
  | .leave _ => True
  | _ => ∀ action target, m.phase ≠ .claimed action target

def careful : Rules Call Answer Note := ⟨Owes auditDigest args, fun _ _ _ => True, fun m o r => (m.sent o).answered o r⟩

variable {auditDigest : Bound → String} {args : Args} {α : Type} {post : Except String α → Note → Prop} {m : Note}

def Free : Except String α → Note → Prop := fun _ _ => True

theorem wp_flagged {o : Call} {f : Bool → Code α} (hpre : Owes auditDigest args m o)
    (h : ∀ b, wp (careful auditDigest args) Free (f b) ((m.sent o).answered o (.flag b))) :
    wp (careful auditDigest args) Free (flagged o >>= f) m := by
  apply wp_bind
  apply wp_perform_bind hpre
  intro r _
  cases r with
  | flag b => exact h b
  | _ => trivial

theorem wp_readDb {f : Db → Code α} (hphase : ∀ action target, m.phase ≠ .claimed action target)
    (h : ∀ db, wp (careful auditDigest args) Free (f db) { m with before := m.before.or (some db), sight := some db }) :
    wp (careful auditDigest args) Free (readDb >>= f) m := by
  apply wp_bind
  apply wp_perform_bind hphase
  intro r _
  cases r with
  | db db => exact h db
  | _ => trivial

theorem wp_inspect {locationIds : List String} {f : (String → LocationInspection) → Code α}
    (hphase : ∀ action target, m.phase ≠ .claimed action target)
    (h : ∀ answers, wp (careful auditDigest args) Free (f answers) { m with sight := none, answers := some answers }) :
    wp (careful auditDigest args) Free (inspect locationIds >>= f) m := by
  apply wp_bind
  apply wp_perform_bind hphase
  intro r _
  cases r with
  | inspected answers => exact h answers
  | _ => trivial

theorem refuse_careful (error : String) (status : Nat) : wp (careful auditDigest args) Free (refuse error status) m := trivial

variable {before : Db} {answers : String → LocationInspection} {db : Db} {k : Checks} {target : LocationSwitchCandidate}

theorem switchLiveSession_careful (hbefore : m.before = some before) (hanswers : m.answers = some answers)
    (hsight : m.sight = some db) (hphase : m.phase = .idle) (hk : k.Hold auditDigest args before answers db .switch target)
    (d : Db) : wp (careful auditDigest args) Free (switchLiveSession args d k.session k.decision.snapshot target) m := by
  unfold switchLiveSession
  split
  · exact refuse_careful _ _
  · split
    · exact refuse_careful _ _
    · rename_i hrunner
      have hrunner : target.place.runnerId = k.session.runnerId := by
        by_contra hne
        exact hrunner hne
      refine wp_flagged ?_ ?_
      · exact ⟨rfl, rfl, rfl, hphase, before, answers, db, k, hbefore, hanswers, hsight, hk⟩
      intro b
      cases b with
      | false => exact refuse_careful _ _
      | true =>
        refine wp_perform_bind ?_ ?_
        · exact ⟨.switch, target, rfl, rfl, hrunner.symm, rfl, rfl, rfl, rfl⟩
        intro r _
        cases r with
        | reply ok error =>
          cases ok with
          | false =>
            refine wp_flagged ?_ ?_
            · exact ⟨rfl, rfl⟩
            · exact fun _ => refuse_careful _ _
          | true =>
            refine wp_flagged ?_ ?_
            · exact fun _ _ h => by cases h
            intro b
            cases b with
            | true => trivial
            | false =>
              refine wp_readDb ?_ ?_
              · exact fun _ _ h => by cases h
              intro db
              split
              · split
                · trivial
                · trivial
              · trivial
        | _ => exact refuse_careful _ _

theorem startHandoffSession_careful (hbefore : m.before = some before) (hanswers : m.answers = some answers)
    (hsight : m.sight = some db) (hphase : m.phase = .idle)
    (hk : k.Hold auditDigest args before answers db .newSession target) :
    wp (careful auditDigest args) Free (startHandoffSession args k.session k.decision.snapshot target k.human) m := by
  unfold startHandoffSession
  refine wp_flagged ?_ ?_
  · exact ⟨rfl, rfl, rfl, hphase, before, answers, db, k, hbefore, hanswers, hsight, hk⟩
  intro b
  cases b with
  | false => exact refuse_careful _ _
  | true =>
    refine wp_perform_bind ?_ ?_
    · exact ⟨.newSession, target, rfl, rfl, rfl, rfl, rfl, rfl⟩
    intro r _
    cases r with
    | created sessionId =>
      refine wp_flagged ?_ ?_
      · exact fun _ _ h => by cases h
      intro b
      cases b with
      | true => trivial
      | false => trivial
    | notCreated error status =>
      refine wp_flagged ?_ ?_
      · exact ⟨rfl, rfl⟩
      · exact fun _ => refuse_careful _ _
    | _ => trivial

/-- **Between the two guards**: what is awaited forgets the database, and what is claimed was read after it. -/
theorem carryOut_careful {before : Db} {decision : Decision} {action : LocationSwitchAction} {target : LocationSwitchCandidate}
    {session : SessionView} {human : HumanPrincipal} (hbefore : m.before = some before) (hphase : m.phase = .idle)
    (hget : get args before = .ok decision) (hdigest : decision.resourceDigest = args.digest)
    (hchosen : chosen args decision = .ok (action, target)) :
    wp (careful auditDigest args) Free (carryOut auditDigest args before decision action target session human) m := by
  have hfree : ∀ action target, m.phase ≠ .claimed action target := by
    intro action target h
    rw [hphase] at h
    cases h
  unfold carryOut
  split
  · trivial
  · rename_i project asked hasks
    apply wp_inspect hfree
    intro answers
    refine wp_readDb hfree ?_
    intro db
    split
    · trivial
    · rename_i p hprepared
      split
      · exact refuse_careful _ _
      · rename_i hunchanged
        rw [ne_eq, not_not] at hunchanged
        split
        · trivial
        · rename_i session' human' hauthorized
          split
          · exact refuse_careful _ _
          · rename_i hsame
            rw [ne_eq, not_not] at hsame
            have hfirst : m.before.or (some db) = some before := by rw [hbefore]; rfl
            cases action with
            | switch =>
              have hk : Checks.Hold auditDigest args ⟨decision, session, human, project, asked, p, session', human'⟩ before
                  answers db .switch target := ⟨hget, hdigest, hchosen, hasks, hprepared, hunchanged, hauthorized, hsame⟩
              refine switchLiveSession_careful ?_ ?_ ?_ ?_ hk db
              · exact hfirst
              · rfl
              · rfl
              · exact hphase
            | newSession =>
              have hk : Checks.Hold auditDigest args ⟨decision, session, human, project, asked, p, session', human'⟩ before
                  answers db .newSession target := ⟨hget, hdigest, hchosen, hasks, hprepared, hunchanged, hauthorized, hsame⟩
              refine startHandoffSession_careful ?_ ?_ ?_ ?_ hk
              · exact hfirst
              · rfl
              · rfl
              · exact hphase

/-- **`execute` is careful.** -/
theorem execute_careful : wp (careful auditDigest args) Free (execute auditDigest args) Note.fresh := by
  have hfree : ∀ action target, Note.fresh.phase ≠ .claimed action target := fun _ _ h => by cases h
  unfold execute
  refine wp_readDb hfree ?_
  intro db
  split
  · trivial
  · rename_i decision hget
    split
    · exact refuse_careful _ _
    · rename_i hdigest
      rw [ne_eq, not_not] at hdigest
      split
      · trivial
      · split
        · trivial
        · rename_i action target hchosen
          split
          · trivial
          · rename_i session human _
            refine wp_flagged hfree ?_
            intro b
            cases b with
            | false => exact refuse_careful _ _
            | true =>
              apply wp_tryFinally
              refine wp_mono (carryOut_careful ?_ ?_ hget hdigest hchosen) ?_
              · rfl
              · rfl
              · intro r m _
                have hleave : wp (careful auditDigest args) Free
                    (do let _ ← flagged (.leave args.occurrenceId); pure () : Code Unit) m := by
                  refine wp_flagged ?_ ?_
                  · trivial
                  · exact fun _ => trivial
                apply wp_mono hleave
                intro s m _
                cases s with
                | ok _ => trivial
                | error e => trivial

end Switch
end Wollipog
