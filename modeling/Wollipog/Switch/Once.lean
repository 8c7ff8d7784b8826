import Wollipog.Switch.Rows
/-!
# Once — one approval moves or starts at most one session

The invariant of every run of the server, the step lemmas, and what every run tells.
-/
namespace Wollipog
namespace Switch

open Resume Sys

def tally (s : List (Nat × String)) : Obs → List (Nat × String)
  | .attempted i args _ => (i, args.occurrenceId) :: s
  | .refused i o => s.filter (fun p => p ≠ (i, o))
  | _ => s

def unanswered (l : List Obs) : List (Nat × String) := l.foldl tally []

theorem unanswered_append (l o : List Obs) : unanswered (l ++ o) = o.foldl tally (unanswered l) := List.foldl_append

theorem mem_foldl_tally {l : List Obs} {s : List (Nat × String)} {p : Nat × String} (hmem : p ∈ s)
    (hnone : .refused p.1 p.2 ∉ l) : p ∈ l.foldl tally s := by
  induction l generalizing s with
  | nil => exact hmem
  | cons x l ih =>
    rw [List.mem_cons, not_or] at hnone
    apply ih _ hnone.2
    cases x with
    | attempted i args call => exact List.mem_cons_of_mem _ hmem
    | refused i o =>
      have hne : p ≠ (i, o) := by
        rintro rfl
        exact hnone.1 rfl
      exact List.mem_filter.2 ⟨hmem, by simpa using hne⟩
    | _ => exact hmem

theorem mem_unanswered {l₁ l₂ : List Obs} {i : Nat} {args : Args} {call : Call} (hnone : .refused i args.occurrenceId ∉ l₂) :
    (i, args.occurrenceId) ∈ unanswered (l₁ ++ .attempted i args call :: l₂) := by
  rw [unanswered_append, List.foldl_cons]
  exact mem_foldl_tally List.mem_cons_self hnone

variable {auditDigest : Bound → String} {l o : List Obs} {w u : World} {i : Nat} {e e' : Exec}

/-- What an execution has left to do is careful, also what follows an answer it waits for. -/
inductive Minds (auditDigest : Bound → String) (e : Exec) : Prop
  | going (hwait : e.waiting = false) (hwp : wp (careful auditDigest e.args) Free e.code e.note)
  | waiting (o : Call) (k : Answer → Code Reply) (hcode : e.code = .call o k) (hwait : e.waiting = true)
      (hwp : ∀ r, wp (careful auditDigest e.args) Free (k r) (e.note.answered o r))
      (hasked : o.attempts = true → e.note.phase = .asked) (hsight : e.note.sight = none)
      (hout : o.outside = true)

structure Known (auditDigest : Bound → String) (l : List Obs) (w : World) (i : Nat) (e : Exec) : Prop where
  minds : Minds auditDigest e
  sight : ∀ db, e.note.sight = some db → w.busy = some i ∧ db = w.db ∧ ∃ l₀, l = l₀ ++ [.read i db]
  claimed : ∀ action target, e.note.phase = .claimed action target →
    w.busy = some i ∧ ∃ l₀ db, l = l₀ ++ [.claimed i e.args action target db]
  spent : e.note.phase.holds = true → Spent w e.args.occurrenceId
  before : ∀ db, e.note.before = some db → .read i db ∈ l ∧
    ∀ d, db.decisions.get e.args.occurrenceId = some d → Follows w e.args.occurrenceId d
  answers : ∀ answers, e.note.answers = some answers → .inspected i answers ∈ l

/-- An attempt that may have moved something: its approval is spent, and only who asked may free it. -/
def OpenAt (w : World) (p : Nat × String) : Prop :=
  Spent w p.2 ∧ ∀ j e, w.execs.get j = some e → e.args.occurrenceId = p.2 → e.note.phase.holds = true →
    j = p.1 ∧ e.note.phase = .asked

structure Standing (auditDigest : Bound → String) (l : List Obs) (w : World) : Prop where
  rows : ∀ o d, w.db.decisions.get o = some d → o ∈ w.minted
  dated : ∀ i e, w.execs.get i = some e → i < w.next
  knows : ∀ i e, w.execs.get i = some e → Known auditDigest l w i e
  unique : ∀ i j e f, w.execs.get i = some e → w.execs.get j = some f → e.note.phase.holds = true →
    f.note.phase.holds = true → e.args.occurrenceId = f.args.occurrenceId → i = j
  opened : ∀ p ∈ unanswered l, OpenAt w p

theorem standing_init (facts : Facts) : Standing auditDigest [] (World.init facts) where
  rows := by intro o d h; cases h
  dated := by intro i e h; cases h
  knows := by intro i e h; cases h
  unique := by intro i j e f h; cases h
  opened := by intro p h; cases h

theorem Known.other {except : Option String} (h : Known auditDigest l w i e) (hdrift : Drift except w u)
    (hbusy : w.busy ≠ some i) (hexcept : e.note.phase.holds = true → except ≠ some e.args.occurrenceId) :
    Known auditDigest (l ++ o) u i e where
  minds := h.minds
  sight := fun db hdb => absurd (h.sight db hdb).1 hbusy
  claimed := fun action target hphase => absurd (h.claimed action target hphase).1 hbusy
  spent := fun hholds => (h.spent hholds).drift hdrift (hexcept hholds)
  before := by
    intro db hdb
    obtain ⟨hread, hfollows⟩ := h.before db hdb
    exact ⟨List.mem_append_left _ hread, fun d hd => (hfollows d hd).drift hdrift⟩
  answers := fun answers hanswers => List.mem_append_left _ (h.answers answers hanswers)

inductive Turn (w : World) (i : Nat) (args : Args) : Phase → Phase → List Obs → Prop
  | stays (p : Phase) (o : List Obs) (hquiet : ∀ s, o.foldl tally s = s) : Turn w i args p p o
  | claims (p : Phase) (action : LocationSwitchAction) (target : LocationSwitchCandidate) (o : List Obs) (d : Decision)
      (hrow : w.db.decisions.get args.occurrenceId = some d) (hfree : d.receipt = none)
      (hquiet : ∀ s, o.foldl tally s = s) : Turn w i args p (.claimed action target) o
  | asks (action : LocationSwitchAction) (target : LocationSwitchCandidate) (call : Call) :
      Turn w i args (.claimed action target) .asked [.attempted i args call]
  | refuses : Turn w i args .asked .refused [.refused i args.occurrenceId]
  | ends (p p' : Phase) (o : List Obs) (hends : p'.holds = false) (hquiet : ∀ s, o.foldl tally s = s) : Turn w i args p p' o

/-- **One execution goes on**: what it knows is known, and what the others know stays. -/
theorem Standing.advance (hI : Standing auditDigest l w) (he : w.execs.get i = some e) (hexecs : u.execs = w.execs.set i e')
    (hargs : e'.args = e.args) (hnext : u.next = w.next) (hbusy : ∀ j, j ≠ i → w.busy ≠ some j) {except : Option String}
    (hdrift : Drift except w u)
    (hexcept : ∀ occ, except = some occ → occ = e.args.occurrenceId ∧ e.note.phase = .refused ∧ e'.note.phase = .over)
    (hturn : Turn w i e.args e.note.phase e'.note.phase o) (hmine : Known auditDigest (l ++ o) u i e') :
    Standing auditDigest (l ++ o) u := by
  have hget : ∀ j f, u.execs.get j = some f → (j = i ∧ f = e') ∨ (j ≠ i ∧ w.execs.get j = some f) := by
    intro j f hf
    rw [hexecs, OrdMap.get_set] at hf
    split at hf
    · rename_i hj
      cases hf
      exact .inl ⟨hj, rfl⟩
    · rename_i hj
      exact .inr ⟨hj, hf⟩
  have hforeign : ∀ j f, j ≠ i → w.execs.get j = some f → f.note.phase.holds = true →
      e'.note.phase.holds = true → f.args.occurrenceId ≠ e.args.occurrenceId := by
    intro j f hj hf hholds hholds' hocc
    have hspent := (hI.knows j f hf).spent hholds
    rw [hocc] at hspent
    generalize hp : e.note.phase = p at hturn
    generalize hp' : e'.note.phase = p' at hturn
    cases hturn with
    | stays _ _ _ =>
      rw [hp'] at hholds'
      exact hj (hI.unique j i f e hf he hholds (by rw [hp]; exact hholds') hocc)
    | claims _ action target _ d hrow hfree _ => exact hspent.2 d hrow hfree
    | asks action target call => exact hj (hI.unique j i f e hf he hholds (by rw [hp]; rfl) hocc)
    | refuses => exact hj (hI.unique j i f e hf he hholds (by rw [hp]; rfl) hocc)
    | ends _ _ _ hends _ =>
      rw [hp', hends] at hholds'
      cases hholds'
  refine ⟨hdrift.known hI.rows, fun j f hf => ?_, fun j f hf => ?_, fun j k f g hf hg hholds hholds' hocc => ?_,
    fun p hp => ?_⟩
  · rw [hnext]
    rcases hget j f hf with ⟨rfl, -⟩ | ⟨-, hf⟩
    · exact hI.dated j e he
    · exact hI.dated j f hf
  · rcases hget j f hf with ⟨rfl, rfl⟩ | ⟨hj, hf⟩
    · exact hmine
    · refine (hI.knows j f hf).other hdrift (hbusy j hj) (fun hholds hex => ?_)
      obtain ⟨hocc, hphase, -⟩ := hexcept _ hex
      exact hj (hI.unique j i f e hf he hholds (by rw [hphase]; rfl) hocc)
  · rcases hget j f hf with ⟨rfl, rfl⟩ | ⟨hj, hf⟩
    · rcases hget k g hg with ⟨rfl, -⟩ | ⟨hk, hg⟩
      · rfl
      · rw [hargs] at hocc
        exact absurd hocc.symm (hforeign k g hk hg hholds' hholds)
    · rcases hget k g hg with ⟨rfl, rfl⟩ | ⟨hk, hg⟩
      · rw [hargs] at hocc
        exact absurd hocc (hforeign j f hj hf hholds hholds')
      · exact hI.unique j k f g hf hg hholds hholds' hocc
  · have hkeeps : ∀ p, p ∈ unanswered l → (e'.note.phase.holds = true → e.args.occurrenceId = p.2 →
        i = p.1 ∧ e'.note.phase = .asked) → OpenAt u p := by
      intro p hp hself
      obtain ⟨hspent, hholders⟩ := hI.opened p hp
      refine ⟨hspent.drift hdrift (fun hex => ?_), fun j f hf hocc hholds => ?_⟩
      · obtain ⟨hocc, hphase, -⟩ := hexcept _ hex
        have hasked := (hholders i e he hocc.symm (by rw [hphase]; rfl)).2
        rw [hphase] at hasked
        cases hasked
      · rcases hget j f hf with ⟨rfl, rfl⟩ | ⟨-, hf⟩
        · rw [hargs] at hocc
          exact hself hholds hocc
        · exact hholders j f hf hocc hholds
    rw [unanswered_append] at hp
    generalize hphase : e.note.phase = q at hturn
    generalize hphase' : e'.note.phase = q' at hturn
    cases hturn with
    | stays _ _ hquiet =>
      rw [hquiet] at hp
      refine hkeeps p hp (fun hholds hocc => ?_)
      rw [hphase'] at hholds ⊢
      have hold := (hI.opened p hp).2 i e he hocc (by rw [hphase]; exact hholds)
      rw [hphase] at hold
      exact hold
    | claims _ action target _ d hrow hfree hquiet =>
      rw [hquiet] at hp
      refine hkeeps p hp (fun hholds hocc => ?_)
      have hspent := (hI.opened p hp).1
      rw [← hocc] at hspent
      exact absurd hfree (hspent.2 d hrow)
    | asks action target call =>
      rcases List.mem_cons.1 hp with rfl | hp
      · refine ⟨?_, fun j f hf hocc hholds => ?_⟩
        · have hspent := hmine.spent (by rw [hphase']; rfl)
          rw [hargs] at hspent
          exact hspent
        · rcases hget j f hf with ⟨rfl, rfl⟩ | ⟨hj, hf⟩
          · exact ⟨rfl, hphase'⟩
          · exact absurd hocc (hforeign j f hj hf hholds (by rw [hphase']; rfl))
      · refine hkeeps p hp (fun _ hocc => ?_)
        have hold := ((hI.opened p hp).2 i e he hocc (by rw [hphase]; rfl)).2
        rw [hphase] at hold
        cases hold
    | refuses =>
      obtain ⟨hp, hne⟩ := List.mem_filter.1 hp
      refine hkeeps p hp (fun _ hocc => ?_)
      have hold := (hI.opened p hp).2 i e he hocc (by rw [hphase]; rfl)
      have heq : p = (i, e.args.occurrenceId) := by
        rw [hold.1, hocc]
      rw [heq] at hne
      simp at hne
    | ends _ _ _ hends hquiet =>
      rw [hquiet] at hp
      refine hkeeps p hp (fun hholds _ => ?_)
      rw [hphase', hends] at hholds
      cases hholds

/-! ## One step of one execution -/

section Steps

theorem Known.before_keep {except : Option String} (h : Known auditDigest l w i e) (hdrift : Drift except w u) :
    ∀ db, e.note.before = some db → .read i db ∈ l ++ o ∧
      ∀ d, db.decisions.get e.args.occurrenceId = some d → Follows u e.args.occurrenceId d := by
  intro db hdb
  obtain ⟨hread, hfollows⟩ := h.before db hdb
  exact ⟨List.mem_append_left _ hread, fun d hd => (hfollows d hd).drift hdrift⟩

theorem Known.answers_keep (h : Known auditDigest l w i e) :
    ∀ answers, e.note.answers = some answers → .inspected i answers ∈ l ++ o :=
  fun answers hanswers => List.mem_append_left _ (h.answers answers hanswers)

def Finds (auditDigest : Bound → String) (l : List Obs) : Obs → Prop
  | .claimed i args action target db => (∃ l₀, l = l₀ ++ [.read i db]) ∧
      ∃ (row : Decision) (before : Db) (answers : String → LocationInspection) (k : Checks),
        db.decisions.get args.occurrenceId = some row ∧ row.claimable args.digest = true ∧
        chosen args row = .ok (action, target) ∧ k.decision.snapshot = row.snapshot ∧
        .read i before ∈ l ∧ .inspected i answers ∈ l ∧ k.Hold auditDigest args before answers db action target
  | .attempted i args call => (∃ l₀ action target db, l = l₀ ++ [.claimed i args action target db] ∧
        call.ActsOn args.occurrenceId action target) ∧ ∀ j, (j, args.occurrenceId) ∉ unanswered l
  | _ => True

variable {now : Int} {fault : Bool} {digest occ : String} {d : Decision} {action : LocationSwitchAction}
  {target : LocationSwitchCandidate}

theorem chosen_moves {args : Args} {d' : Decision}
    (hmoves : d.Moves d') (hchosen : chosen args d = .ok (action, target)) (happroved : d'.status = .approved) :
    chosen args d' = .ok (action, target) := by
  have hstatus : d.status = .approved := by
    by_contra hne
    unfold chosen at hchosen
    rw [if_pos (.inl hne)] at hchosen
    cases hchosen
  rcases hmoves.approved hstatus with ⟨-, hhuman, hoption, hresolved⟩ | hfinal
  · unfold chosen at hchosen ⊢
    rw [happroved, hhuman, hoption, hresolved, hmoves.snapshot]
    rw [hstatus] at hchosen
    exact hchosen
  · rw [happroved] at hfinal
    cases hfinal

theorem claim_row {db : Db} (h : (claimLocationSwitch db occ digest now action target).2 = true) :
    ∃ d, db.decisions.get occ = some d ∧ d.claimable digest = true := by
  unfold claimLocationSwitch at h
  rcases updateWhere_cases db occ (fun d => d.claimable digest)
    (fun d => { d with receipt := some (.starting action target.locationId now) }) with ⟨d, hd, hp, -⟩ | heq
  · exact ⟨d, hd, hp⟩
  · rw [heq] at h
    cases h

theorem claimable_spec (h : d.claimable digest = true) : d.status = .approved ∧ d.receipt = none := by
  unfold Decision.claimable at h
  simp only [Bool.and_eq_true, beq_iff_eq] at h
  exact ⟨h.1.1.1.2, Option.isNone_iff_eq_none.1 h.2⟩

theorem claim_spent (hrows : ∀ o d, w.db.decisions.get o = some d → o ∈ w.minted)
    (h : (claimLocationSwitch w.db occ digest now action target).2 = true) :
    Spent (flagOf w (claimLocationSwitch w.db occ digest now action target)).1 occ := by
  unfold claimLocationSwitch at h ⊢
  rcases updateWhere_cases w.db occ (fun d => d.claimable digest)
    (fun d => { d with receipt := some (.starting action target.locationId now) }) with ⟨d, hd, -, heq⟩ | heq
  · rw [heq]
    refine ⟨hrows occ d hd, fun d' hd' => ?_⟩
    simp only [flagOf, Db.update, OrdMap.get_modify, if_pos] at hd'
    obtain ⟨d₀, -, rfl⟩ := Option.map_eq_some_iff.1 hd'
    exact Option.some_ne_none _
  · rw [heq] at h
    cases h

variable {c : Call} {k : Answer → Code Reply}

theorem Minds.call (h : Minds auditDigest e) (hwait : e.waiting = false)
    (hcode : e.code = .call c k) : Owes auditDigest e.args e.note c ∧
      ∀ r, wp (careful auditDigest e.args) Free (k r) ((e.note.sent c).answered c r) := by
  cases h with
  | going _ hwp =>
    rw [hcode] at hwp
    exact ⟨hwp.1, fun r => hwp.2 r trivial⟩
  | waiting _ _ _ hwait' _ _ _ _ =>
    rw [hwait] at hwait'
    cases hwait'

/-- **A call is sent**: an inspection forgets the database, an attempt comes right after its claim. -/
theorem Standing.sent (hI : Standing auditDigest l w) (he : w.execs.get i = some e) (hbusy : w.busy = some i)
    (hwait : e.waiting = false) (hcode : e.code = .call c k) (hout : c.outside = true) :
    Standing auditDigest (l ++ if c.attempts then [.attempted i e.args c] else [])
        { w with execs := w.execs.set i { e with note := e.note.sent c, waiting := true }, busy := World.after i c } ∧
      Told (Finds auditDigest) l (if c.attempts then [.attempted i e.args c] else []) := by
  have hK := hI.knows i e he
  obtain ⟨howes, hwp⟩ := hK.minds.call hwait hcode
  have hothers : ∀ j, j ≠ i → w.busy ≠ some j := by
    intro j hj h
    rw [hbusy, Option.some.injEq] at h
    exact hj h.symm
  have hattempt : ∀ action target, e.note.phase = .claimed action target → c.ActsOn e.args.occurrenceId action target →
      e.note.sent c = { e.note with sight := none, phase := .asked } → c.attempts = true →
      Standing auditDigest (l ++ [.attempted i e.args c])
        { w with execs := w.execs.set i { e with note := e.note.sent c, waiting := true }, busy := World.after i c } ∧
      Told (Finds auditDigest) l [.attempted i e.args c] := by
    intro action target hphase hacts hsent hattempts
    have hdrift : Drift none w
        { w with execs := w.execs.set i { e with note := e.note.sent c, waiting := true }, busy := World.after i c } :=
      .of_rows rfl rfl
    constructor
    · refine hI.advance he rfl rfl rfl hothers hdrift (fun _ h => by cases h) ?_ ?_
      · change Turn w i e.args e.note.phase (e.note.sent c).phase _
        rw [hphase, hsent]
        exact .asks action target c
      · refine ⟨.waiting c k hcode rfl hwp (fun _ => by rw [hsent]) (by rw [hsent]) hout, ?_, ?_, ?_, ?_, ?_⟩
        · intro db hdb
          rw [hsent] at hdb
          cases hdb
        · intro action' target' hphase'
          rw [hsent] at hphase'
          cases hphase'
        · intro _
          exact (hK.spent (by rw [hphase]; rfl)).drift hdrift (by simp)
        · intro db hdb
          rw [hsent] at hdb
          exact hK.before_keep hdrift db hdb
        · intro answers hanswers
          rw [hsent] at hanswers
          exact hK.answers_keep answers hanswers
    · apply told_single
      obtain ⟨-, l₀, db, hl⟩ := hK.claimed action target hphase
      refine ⟨⟨l₀, action, target, db, hl, hacts⟩, fun j hj => ?_⟩
      have hopen := ((hI.opened _ hj).2 i e he rfl (by rw [hphase]; rfl)).2
      rw [hphase] at hopen
      cases hopen
  cases c with
  | switchSession runnerId message | createSession occ human request =>
    obtain ⟨action, target, hphase, hacts⟩ := howes
    exact hattempt action target hphase hacts rfl rfl
  | inspect ids =>
    refine ⟨?_, told_nil _ _⟩
    have hdrift : Drift none w { w with
        execs := w.execs.set i { e with note := e.note.sent (.inspect ids), waiting := true }, busy := World.after i (.inspect ids) } :=
      .of_rows rfl rfl
    refine hI.advance he rfl rfl rfl hothers hdrift (fun _ h => by cases h) ?_ ?_
    · exact .stays _ _ (fun _ => rfl)
    · refine ⟨.waiting _ k hcode rfl hwp (fun h => by cases h) rfl rfl, ?_, ?_, ?_, ?_, ?_⟩
      · exact fun db hdb => by cases hdb
      · exact fun action target hphase => absurd hphase (howes action target)
      · exact fun hholds => (hK.spent hholds).drift hdrift (by simp)
      · exact hK.before_keep hdrift
      · exact hK.answers_keep
  | _ => cases hout

def outcome (w : World) (fault : Bool) (c : Call) : World × Answer := if fault && c.stored then (w, .threw) else perform w c

theorem outcome_drift (w : World) (fault : Bool) (c : Call) : Drift c.releases w (outcome w fault c).1 := by
  unfold outcome
  split
  · exact .of_rows rfl rfl
  · exact perform_drift w c

theorem perform_frame (w : World) (c : Call) : (perform w c).1.next = w.next ∧ (perform w c).1.busy = w.busy := by
  cases c with
  | enter occ =>
    unfold perform
    simp only
    split <;> exact ⟨rfl, rfl⟩
  | _ => exact ⟨rfl, rfl⟩

theorem outcome_frame (w : World) (fault : Bool) (c : Call) :
    (outcome w fault c).1.next = w.next ∧ (outcome w fault c).1.busy = w.busy := by
  unfold outcome
  split
  · exact ⟨rfl, rfl⟩
  · exact perform_frame w c

def gone (w : World) (i : Nat) (e : Exec) (fault : Bool) (c : Call) (k : Answer → Code Reply) : World :=
  let r := outcome w fault c
  { r.1 with execs := w.execs.set i { e with note := (e.note.sent c).answered c r.2, code := k r.2 } }

/-- **A call is answered at once**, and what it makes of the note is all that is left to say. -/
theorem Standing.performed (hI : Standing auditDigest l w) (he : w.execs.get i = some e) (hbusy : w.busy = some i)
    (hwait : e.waiting = false) (hcode : e.code = .call c k)
    {r : Answer} (hr : (outcome w fault c).2 = r)
    (hexcept : ∀ occ, c.releases = some occ → occ = e.args.occurrenceId ∧ e.note.phase = .refused ∧
      ((e.note.sent c).answered c r).phase = .over)
    (hturn : Turn w i e.args e.note.phase ((e.note.sent c).answered c r).phase o)
    (hsight : ∀ db, ((e.note.sent c).answered c r).sight = some db → db = (outcome w fault c).1.db ∧
      ∃ l₀, l ++ o = l₀ ++ [.read i db])
    (hclaimed : ∀ action target, ((e.note.sent c).answered c r).phase = .claimed action target →
      ∃ l₀ db, l ++ o = l₀ ++ [.claimed i e.args action target db])
    (hspent : ((e.note.sent c).answered c r).phase.holds = true → Spent (outcome w fault c).1 e.args.occurrenceId)
    (hbefore : ∀ db, ((e.note.sent c).answered c r).before = some db → e.note.before = some db ∨ (db = w.db ∧ .read i db ∈ o))
    (hanswers : ((e.note.sent c).answered c r).answers = e.note.answers) :
    Standing auditDigest (l ++ o) (gone w i e fault c k) := by
  have hK := hI.knows i e he
  obtain ⟨-, hwp⟩ := hK.minds.call hwait hcode
  obtain ⟨hnext, hstill⟩ := outcome_frame w fault c
  have hothers : ∀ j, j ≠ i → w.busy ≠ some j := by
    intro j hj h
    rw [hbusy, Option.some.injEq] at h
    exact hj h.symm
  have hdrift : Drift c.releases w (gone w i e fault c k) := by
    obtain ⟨h₁, h₂, h₃⟩ := outcome_drift w fault c
    exact ⟨h₁, h₂, h₃⟩
  refine hI.advance he rfl rfl hnext hothers hdrift ?_ ?_ ?_
  · rw [hr]
    exact hexcept
  · rw [hr]
    exact hturn
  · rw [hr]
    refine ⟨.going hwait (hwp r), ?_, ?_, hspent, ?_, ?_⟩
    · intro db hdb
      obtain ⟨hnow, hlast⟩ := hsight db hdb
      exact ⟨hstill.trans hbusy, hnow, hlast⟩
    · exact fun action target hphase => ⟨hstill.trans hbusy, hclaimed action target hphase⟩
    · intro db hdb
      rcases hbefore db hdb with hold | ⟨rfl, hread⟩
      · exact hK.before_keep hdrift db hold
      · refine ⟨List.mem_append_right _ hread, fun d hd => ?_⟩
        have hhere : Follows w e.args.occurrenceId d := by
          refine ⟨hI.rows _ d hd, fun d' hd' => ?_⟩
          rw [hd] at hd'
          cases hd'
          exact .refl d
        exact hhere.drift hdrift
    · intro answers hsome
      exact hK.answers_keep answers (hanswers.symm.trans hsome)

theorem phase_free {c : Call} (howes : Owes auditDigest e.args e.note c) (hplain : c.attempts = false)
    (hleave : ∀ occ, c ≠ .leave occ) : ∀ action target, e.note.phase ≠ .claimed action target := by
  intro action target hphase
  cases c with
  | claim occ digest now action target =>
    rw [howes.2.2.2.1] at hphase
    cases hphase
  | release occ =>
    rw [howes.2] at hphase
    cases hphase
  | switchSession r m => cases hplain
  | createSession occ h r => cases hplain
  | leave occ => exact hleave occ rfl
  | _ => exact howes action target hphase

theorem Standing.plain (hI : Standing auditDigest l w) (he : w.execs.get i = some e) (hbusy : w.busy = some i)
    (hwait : e.waiting = false) (hcode : e.code = .call c k)
    (hreleases : c.releases = none) (hdb : (outcome w fault c).1.db = w.db)
    (hsame : (e.note.sent c).answered c (outcome w fault c).2 = e.note) :
    Standing auditDigest (l ++ []) (gone w i e fault c k) := by
  have hK := hI.knows i e he
  have hdrift := outcome_drift w fault c
  rw [hreleases] at hdrift
  refine hI.performed he hbusy hwait hcode rfl ?_ ?_ ?_ ?_ ?_ ?_ ?_
  · intro occ h
    rw [hreleases] at h
    cases h
  · rw [hsame]
    exact .stays _ _ (fun _ => rfl)
  · intro db h
    rw [hsame] at h
    obtain ⟨-, hnow, hlast⟩ := hK.sight db h
    rw [hdb, List.append_nil]
    exact ⟨hnow, hlast⟩
  · intro action target h
    rw [hsame] at h
    rw [List.append_nil]
    exact (hK.claimed action target h).2
  · intro h
    rw [hsame] at h
    exact (hK.spent h).drift hdrift (by simp)
  · intro db h
    rw [hsame] at h
    exact .inl h
  · rw [hsame]

theorem Standing.blind (hI : Standing auditDigest l w) (he : w.execs.get i = some e) (hbusy : w.busy = some i)
    (hwait : e.waiting = false) (hcode : e.code = .call c k)
    (hexcept : ∀ occ, c.releases = some occ → occ = e.args.occurrenceId ∧ e.note.phase = .refused ∧
      ((e.note.sent c).answered c (outcome w fault c).2).phase = .over)
    (hphase : ((e.note.sent c).answered c (outcome w fault c).2).phase = .over ∨
      c.releases = none ∧ ((e.note.sent c).answered c (outcome w fault c).2).phase = e.note.phase ∧
        ∀ action target, e.note.phase ≠ .claimed action target)
    (hsight : ((e.note.sent c).answered c (outcome w fault c).2).sight = none)
    (hbefore : ((e.note.sent c).answered c (outcome w fault c).2).before = e.note.before)
    (hanswers : ((e.note.sent c).answered c (outcome w fault c).2).answers = e.note.answers) :
    Standing auditDigest (l ++ []) (gone w i e fault c k) := by
  have hK := hI.knows i e he
  have hdrift := outcome_drift w fault c
  refine hI.performed he hbusy hwait hcode rfl hexcept ?_ ?_ ?_ ?_ ?_ hanswers
  · rcases hphase with hover | ⟨-, hsame, -⟩
    · rw [hover]
      exact .ends _ _ _ rfl (fun _ => rfl)
    · rw [hsame]
      exact .stays _ _ (fun _ => rfl)
  · intro db h
    rw [hsight] at h
    cases h
  · intro action target h
    rcases hphase with hover | ⟨-, hsame, hfree⟩
    · rw [hover] at h
      cases h
    · rw [hsame] at h
      exact absurd h (hfree action target)
  · intro h
    rcases hphase with hover | ⟨hreleases, hsame, -⟩
    · rw [hover] at h
      cases h
    · rw [hsame] at h
      rw [hreleases] at hdrift
      exact (hK.spent h).drift hdrift (by simp)
  · intro db h
    rw [hbefore] at h
    exact .inl h

/-- **A call is answered at once**, whichever it is. -/
theorem Standing.at_once (hI : Standing auditDigest l w) (he : w.execs.get i = some e) (hbusy : w.busy = some i)
    (hwait : e.waiting = false) (hcode : e.code = .call c k)
    (hout : c.outside = false) :
    Standing auditDigest (l ++ seen i e.args w.db c (outcome w fault c).2) (gone w i e fault c k) ∧
      Told (Finds auditDigest) l (seen i e.args w.db c (outcome w fault c).2) := by
  have hK := hI.knows i e he
  obtain ⟨howes, -⟩ := hK.minds.call hwait hcode
  cases c with
  | inspect ids => cases hout
  | switchSession r m => cases hout
  | createSession occ h r => cases hout
  | read =>
    have hfree := phase_free howes rfl (fun _ h => by cases h)
    cases fault with
    | true => exact ⟨hI.plain he hbusy hwait hcode rfl rfl rfl, told_nil _ _⟩
    | false =>
      refine ⟨?_, told_single trivial⟩
      refine hI.performed he hbusy hwait hcode rfl ?_ ?_ ?_ ?_ ?_ ?_ ?_
      · exact fun occ h => by cases h
      · exact .stays _ _ (fun _ => rfl)
      · intro db h
        cases h
        exact ⟨rfl, l, rfl⟩
      · exact fun action target h => absurd h (hfree action target)
      · exact hK.spent
      · intro db h
        change e.note.before.or (some w.db) = some db at h
        rw [Option.or_eq_some_iff] at h
        rcases h with hold | ⟨-, hnew⟩
        · exact .inl hold
        · cases hnew
          exact .inr ⟨rfl, List.mem_singleton_self _⟩
      · rfl
  | enter occ =>
    have hseen : ∀ r, seen i e.args w.db (.enter occ) r = [] := fun _ => rfl
    have hnote : ∀ r, (e.note.sent (.enter occ)).answered (.enter occ) r = e.note := fun _ => rfl
    rw [hseen]
    have hdb : (outcome w fault (.enter occ)).1.db = w.db := by
      unfold outcome perform
      simp only [Call.stored, Bool.and_false, Bool.false_eq_true, if_false]
      split <;> rfl
    exact ⟨hI.plain he hbusy hwait hcode rfl hdb (hnote _), told_nil _ _⟩
  | leave occ =>
    have hdb : (outcome w fault (.leave occ)).1.db = w.db := by
      unfold outcome perform
      simp only [Call.stored, Bool.and_false, Bool.false_eq_true, if_false]
    exact ⟨hI.plain he hbusy hwait hcode rfl hdb rfl, told_nil _ _⟩
  | release occ =>
    have hseen : ∀ r, seen i e.args w.db (.release occ) r = [] := fun _ => rfl
    rw [hseen]
    refine ⟨hI.blind he hbusy hwait hcode ?_ (.inl rfl) rfl rfl rfl, told_nil _ _⟩
    intro occ' h
    cases h
    exact ⟨howes.1, howes.2, rfl⟩
  | complete occ digest result =>
    have hseen : ∀ r, seen i e.args w.db (.complete occ digest result) r = [] := fun _ => rfl
    rw [hseen]
    have hfree := phase_free howes rfl (fun _ h => by cases h)
    exact ⟨hI.blind he hbusy hwait hcode (fun _ h => by cases h) (.inr ⟨rfl, rfl, hfree⟩) rfl rfl rfl, told_nil _ _⟩
  | claim occ digest now action target =>
    have hfree := phase_free howes rfl (fun _ h => by cases h)
    obtain ⟨rfl, rfl, rfl, hidle, before, answers, db, k', hbefore, hanswers, hsight, hold⟩ := howes
    cases fault with
    | true => exact ⟨hI.blind he hbusy hwait hcode (fun _ h => by cases h) (.inr ⟨rfl, rfl, hfree⟩) rfl rfl rfl, told_nil _ _⟩
    | false =>
      have hflag : (outcome w false (.claim e.args.occurrenceId e.args.digest e.args.now action target)).2 =
          .flag (claimLocationSwitch w.db e.args.occurrenceId e.args.digest e.args.now action target).2 := rfl
      cases hwon : (claimLocationSwitch w.db e.args.occurrenceId e.args.digest e.args.now action target).2 with
      | false =>
        rw [hwon] at hflag
        rw [hflag]
        refine ⟨?_, told_nil _ _⟩
        refine hI.blind he hbusy hwait hcode (fun _ h => by cases h) ?_ ?_ ?_ ?_
        · rw [hflag]
          exact .inr ⟨rfl, rfl, hfree⟩
        · rw [hflag]
          rfl
        · rw [hflag]
          rfl
        · rw [hflag]
          rfl
      | true =>
        rw [hwon] at hflag
        rw [hflag]
        obtain ⟨row, hrow, hclaimable⟩ := claim_row hwon
        obtain ⟨happroved, hnone⟩ := claimable_spec hclaimable
        obtain ⟨-, rfl, hlast⟩ := hK.sight db hsight
        constructor
        · refine hI.performed he hbusy hwait hcode hflag (fun _ h => by cases h) ?_ ?_ ?_ ?_ ?_ rfl
          · exact .claims _ action target _ row hrow hnone (fun _ => rfl)
          · exact fun db h => by cases h
          · intro action' target' h
            cases h
            exact ⟨l, w.db, rfl⟩
          · exact fun _ => claim_spent hI.rows hwon
          · exact fun db h => .inl h
        · apply told_single
          obtain ⟨hread, hfollows⟩ := hK.before before hbefore
          have hget : before.decisions.get e.args.occurrenceId = some k'.decision := by
            have hok := hold.read
            unfold get at hok
            split at hok
            · cases hok
            · split at hok
              · cases hok
              · rename_i d hd
                split at hok
                · cases hok
                  exact hd
                · cases hok
          have hmoves := (hfollows _ hget).2 row hrow
          exact ⟨hlast, row, before, answers, k', hrow, hclaimable, chosen_moves hmoves hold.choice happroved,
            hmoves.snapshot.symm, hread, hK.answers answers hanswers, hold⟩

/-- **An answer arrives**: only an explicit refusal lets the execution give its claim back. -/
theorem Standing.answered (hI : Standing auditDigest l w) (he : w.execs.get i = some e) (hwait : e.waiting = true)
    {a : Answer} (hstep : stepAnswer w i e a = some (u, o)) : Standing auditDigest (l ++ o) u ∧ Told (Finds auditDigest) l o := by
  have hK := hI.knows i e he
  cases hK.minds with
  | going hgoing _ =>
    rw [hwait] at hgoing
    cases hgoing
  | waiting c k hcode _ hwp hasked hblind hout =>
    unfold stepAnswer at hstep
    rw [hcode] at hstep
    simp only at hstep
    split at hstep
    · rename_i hfits
      obtain ⟨hfits, hbusy⟩ := hfits
      rw [Option.some.injEq, Prod.mk.injEq] at hstep
      obtain ⟨rfl, rfl⟩ := hstep
      have hothers : ∀ j, j ≠ i → w.busy ≠ some j := by
        intro j hj h
        rw [hbusy] at h
        unfold World.after at h
        split at h
        · cases h
        · cases h
          exact hj rfl
      have hdrift : Drift none w { w with
          execs := w.execs.set i { e with note := e.note.answered c a, code := k a, waiting := false }, busy := some i } :=
        .of_rows rfl rfl
      have hmain : ∀ {o : List Obs}, Turn w i e.args e.note.phase (e.note.answered c a).phase o →
          (e.note.answered c a).sight = e.note.sight → (e.note.answered c a).before = e.note.before →
          (∀ answers, (e.note.answered c a).answers = some answers → e.note.answers = some answers ∨ .inspected i answers ∈ o) →
          (∀ action target, (e.note.answered c a).phase ≠ .claimed action target) →
          ((e.note.answered c a).phase.holds = true → e.note.phase.holds = true) →
          Standing auditDigest (l ++ o) { w with
            execs := w.execs.set i { e with note := e.note.answered c a, code := k a, waiting := false }, busy := some i } := by
        intro o hturn hsight hbefore hanswers hfree hholds
        refine hI.advance he rfl rfl rfl hothers hdrift (fun _ h => by cases h) hturn ?_
        refine ⟨.going rfl (hwp a), ?_, ?_, ?_, ?_, ?_⟩
        · intro db h
          rw [hsight, hblind] at h
          cases h
        · exact fun action target h => absurd h (hfree action target)
        · exact fun h => (hK.spent (hholds h)).drift hdrift (by simp)
        · intro db h
          rw [hbefore] at h
          exact hK.before_keep hdrift db h
        · intro answers h
          rcases hanswers answers h with hold | hnew
          · exact hK.answers_keep answers hold
          · exact List.mem_append_right _ hnew
      have hattempt : c.attempts = true → heard i e.args c a = [] → (e.note.answered c a).phase = .over →
          (e.note.answered c a).sight = e.note.sight → (e.note.answered c a).before = e.note.before →
          (e.note.answered c a).answers = e.note.answers → Standing auditDigest (l ++ heard i e.args c a) { w with
            execs := w.execs.set i { e with note := e.note.answered c a, code := k a, waiting := false }, busy := some i } := by
        intro _ hheard hover hsight hbefore hanswers
        rw [hheard]
        refine hmain ?_ hsight hbefore ?_ ?_ ?_
        · rw [hover]
          exact .ends _ _ _ rfl (fun _ => rfl)
        · intro answers h
          rw [hanswers] at h
          exact .inl h
        · intro action target h
          rw [hover] at h
          cases h
        · intro h
          rw [hover] at h
          cases h
      have hunclaimed : c.awaited = true → ∀ action target, e.note.phase ≠ .claimed action target := by
        intro hawaited action target hphase
        have hmine := (hK.claimed action target hphase).1
        rw [hbusy] at hmine
        unfold World.after at hmine
        rw [if_pos hawaited] at hmine
        cases hmine
      cases c with
      | inspect ids =>
        cases a with
        | inspected answers =>
          refine ⟨hmain (.stays _ _ (fun _ => rfl)) rfl rfl ?_ (hunclaimed rfl) id, told_single trivial⟩
          intro answers' h
          cases h
          exact .inr (List.mem_singleton_self _)
        | threw => exact ⟨hmain (.stays _ _ (fun _ => rfl)) rfl rfl (fun _ h => .inl h) (hunclaimed rfl) id, told_nil _ _⟩
        | _ => cases hfits
      | switchSession runnerId message =>
        cases a with
        | reply ok error =>
          cases ok with
          | true => exact ⟨hattempt rfl rfl rfl rfl rfl rfl, told_nil _ _⟩
          | false =>
            refine ⟨hmain ?_ rfl rfl (fun _ h => .inl h) (fun _ _ h => by cases h) ?_, told_single trivial⟩
            · rw [hasked rfl]
              exact .refuses
            · intro _
              rw [hasked rfl]
              rfl
        | threw => exact ⟨hattempt rfl rfl rfl rfl rfl rfl, told_nil _ _⟩
        | _ => cases hfits
      | createSession occ human request =>
        cases a with
        | created sessionId => exact ⟨hattempt rfl rfl rfl rfl rfl rfl, told_nil _ _⟩
        | notCreated error status =>
          refine ⟨hmain ?_ rfl rfl (fun _ h => .inl h) (fun _ _ h => by cases h) ?_, told_single trivial⟩
          · rw [hasked rfl]
            exact .refuses
          · intro _
            rw [hasked rfl]
            rfl
        | threw => exact ⟨hattempt rfl rfl rfl rfl rfl rfl, told_nil _ _⟩
        | _ => cases hfits
      | _ => cases hout
    · cases hstep

theorem Standing.begin (hI : Standing auditDigest l w) (hidle : w.busy = none) (args : Args) :
    Standing auditDigest (l ++ []) { w with
      execs := w.execs.set w.next ⟨args, .fresh, execute auditDigest args, false⟩, next := w.next + 1, busy := some w.next } := by
  have hget : ∀ j f, (w.execs.set w.next ⟨args, .fresh, execute auditDigest args, false⟩).get j = some f →
      (j = w.next ∧ f = ⟨args, .fresh, execute auditDigest args, false⟩) ∨ w.execs.get j = some f := by
    intro j f hf
    rw [OrdMap.get_set] at hf
    split at hf
    · rename_i hj
      cases hf
      exact .inl ⟨hj, rfl⟩
    · exact .inr hf
  have hdrift : Drift none w { w with
      execs := w.execs.set w.next ⟨args, .fresh, execute auditDigest args, false⟩, next := w.next + 1, busy := some w.next } :=
    .of_rows rfl rfl
  refine ⟨hI.rows, fun j f hf => ?_, fun j f hf => ?_, fun j k f g hf hg hholds hholds' hocc => ?_, fun p hp => ?_⟩
  · rcases hget j f hf with ⟨rfl, -⟩ | hf
    · exact Nat.lt_succ_self _
    · exact Nat.lt_succ_of_lt (hI.dated j f hf)
  · rcases hget j f hf with ⟨rfl, rfl⟩ | hf
    · refine ⟨.going rfl execute_careful, ?_, ?_, ?_, ?_, ?_⟩
      · exact fun db h => by cases h
      · exact fun action target h => by cases h
      · intro h
        cases h
      · exact fun db h => by cases h
      · exact fun answers h => by cases h
    · exact (hI.knows j f hf).other hdrift (by rw [hidle]; simp) (fun _ h => by cases h)
  · rcases hget j f hf with ⟨rfl, rfl⟩ | hf
    · cases hholds
    · rcases hget k g hg with ⟨rfl, rfl⟩ | hg
      · cases hholds'
      · exact hI.unique j k f g hf hg hholds hholds' hocc
  · rw [List.append_nil] at hp
    obtain ⟨hspent, hholders⟩ := hI.opened p hp
    refine ⟨hspent.drift hdrift (by simp), fun j f hf hocc hholds => ?_⟩
    rcases hget j f hf with ⟨rfl, rfl⟩ | hf
    · cases hholds
    · exact hholders j f hf hocc hholds

theorem Standing.fewer (hI : Standing auditDigest l w) (hexecs : ∀ j f, u.execs.get j = some f → w.execs.get j = some f)
    (hnext : u.next = w.next) (hbusy : ∀ j f, u.execs.get j = some f → w.busy ≠ some j) (hdrift : Drift none w u) :
    Standing auditDigest (l ++ []) u := by
  refine ⟨hdrift.known hI.rows, fun j f hf => ?_, fun j f hf => ?_, fun j k f g hf hg => ?_, fun p hp => ?_⟩
  · rw [hnext]
    exact hI.dated j f (hexecs j f hf)
  · exact (hI.knows j f (hexecs j f hf)).other hdrift (hbusy j f hf) (fun _ h => by cases h)
  · exact hI.unique j k f g (hexecs j f hf) (hexecs k g hg)
  · rw [List.append_nil] at hp
    obtain ⟨hspent, hholders⟩ := hI.opened p hp
    exact ⟨hspent.drift hdrift (by simp), fun j f hf => hholders j f (hexecs j f hf)⟩

theorem Standing.finish (hI : Standing auditDigest l w) (hbusy : w.busy = some i) :
    Standing auditDigest (l ++ []) { w with execs := w.execs.erase i, busy := none } := by
  have hget : ∀ j f, (w.execs.erase i).get j = some f → j ≠ i ∧ w.execs.get j = some f := by
    intro j f hf
    rw [OrdMap.get_erase] at hf
    split at hf
    · cases hf
    · rename_i hj
      exact ⟨hj, hf⟩
  refine hI.fewer (fun j f hf => (hget j f hf).2) rfl (fun j f hf h => ?_) (.of_rows rfl rfl)
  rw [hbusy, Option.some.injEq] at h
  exact (hget j f hf).1 h.symm

/-- **Every step keeps the invariant**, and tells what its claims and attempts found. -/
theorem Standing.step (hI : Standing auditDigest l w) {ev : Event} (h : Switch.step auditDigest w ev = some (u, o)) :
    Standing auditDigest (l ++ o) u ∧ Told (Finds auditDigest) l o := by
  cases ev with
  | call args =>
    simp only [Switch.step] at h
    split at h
    · rename_i hidle
      cases h
      exact ⟨hI.begin hidle args, told_nil _ _⟩
    · cases h
  | run fault =>
    simp only [Switch.step, Option.bind_eq_some_iff] at h
    obtain ⟨⟨i, e⟩, ⟨j, hbusy, hmap⟩, hrun⟩ := h
    obtain ⟨e', he, heq⟩ := Option.map_eq_some_iff.1 hmap
    cases heq
    simp only at hrun
    split at hrun
    · cases hrun
    · rename_i hwait
      rw [Bool.not_eq_true] at hwait
      rw [Option.some.injEq] at hrun
      unfold stepRun at hrun
      split at hrun
      · cases hrun
        exact ⟨hI.finish hbusy, told_nil _ _⟩
      · cases hrun
        exact ⟨hI.finish hbusy, told_nil _ _⟩
      · rename_i c k hcode
        split at hrun
        · rename_i hout
          cases hrun
          exact hI.sent he hbusy hwait hcode hout
        · rename_i hout
          rw [Bool.not_eq_true] at hout
          cases hrun
          exact hI.at_once he hbusy hwait hcode hout
  | answer i a =>
    simp only [Switch.step, Option.bind_eq_some_iff] at h
    obtain ⟨e, he, hanswer⟩ := h
    split at hanswer
    · rename_i hwait
      exact hI.answered he hwait hanswer
    · cases hanswer
  | crash =>
    cases h
    refine ⟨hI.fewer (fun _ _ h => by cases h) rfl (fun _ _ h => by cases h) (.of_rows rfl rfl), told_nil _ _⟩
  | change c =>
    simp only [Switch.step] at h
    split at h
    · rename_i hidle
      cases h
      have hframe : (change w c).execs = w.execs ∧ (change w c).next = w.next := by
        cases c with
        | propose occ sessionId digest category human snapshot =>
          unfold change
          simp only
          split <;> exact ⟨rfl, rfl⟩
        | _ => exact ⟨rfl, rfl⟩
      refine ⟨hI.fewer (fun j f hf => ?_) hframe.2 (fun j f _ h => ?_) (change_drift w c), told_nil _ _⟩
      · rw [hframe.1] at hf
        exact hf
      · rw [hidle] at h
        cases h
    · cases h

end Steps

/-- **One approval moves or starts at most one session.** -/
theorem approval_carried_out_once (auditDigest : Bound → String) (facts : Facts) {l : List Obs} {w : World}
    (h : Run (step auditDigest) (World.init facts) l w) :
    (∀ l₁ l₂ l₃ i j args args' call call', l = l₁ ++ .attempted i args call :: (l₂ ++ .attempted j args' call' :: l₃) →
      args'.occurrenceId = args.occurrenceId → .refused i args.occurrenceId ∈ l₂) ∧
    (∀ l₁ l₂ i args call, l = l₁ ++ .attempted i args call :: l₂ → ∃ l₀ action target db,
      l₁ = l₀ ++ [.claimed i args action target db] ∧ call.ActsOn args.occurrenceId action target) ∧
    (∀ l₁ l₂ i args action target db, l = l₁ ++ .claimed i args action target db :: l₂ →
      (∃ l₀, l₁ = l₀ ++ [.read i db]) ∧
      ∃ (row : Decision) (before : Db) (answers : String → LocationInspection) (k : Checks),
        db.decisions.get args.occurrenceId = some row ∧ row.claimable args.digest = true ∧
        chosen args row = .ok (action, target) ∧ k.decision.snapshot = row.snapshot ∧
        .read i before ∈ l₁ ∧ .inspected i answers ∈ l₁ ∧ k.Hold auditDigest args before answers db action target) := by
  obtain ⟨-, htold⟩ := h.told (Finds auditDigest) (Standing auditDigest) (standing_init facts)
    (fun l t ev u o hI _ hst => hI.step hst)
  refine ⟨fun l₁ l₂ l₃ i j args args' call call' hl hocc => ?_, fun l₁ l₂ i args call hl => ?_,
    fun l₁ l₂ i args action target db hl => ?_⟩
  · by_contra hnone
    have hl' : l = (l₁ ++ .attempted i args call :: l₂) ++ .attempted j args' call' :: l₃ := by
      rw [hl, List.append_assoc, List.cons_append]
    have hfinds := (htold _ _ _ hl').2 i
    rw [List.nil_append, hocc] at hfinds
    exact hfinds (mem_unanswered hnone)
  · exact (htold _ _ _ hl).1
  · exact htold _ _ _ hl

def Obs.shape : Obs → String
  | .read _ _ => "read"
  | .inspected _ _ => "inspected"
  | .claimed _ _ _ _ _ => "claimed"
  | .attempted _ _ _ => "attempted"
  | .refused _ _ => "refused"

def sampleSession : SessionView where
  id := "s"
  runnerId := "r"
  workspaceId := some "here"
  workspaceName := none
  projectId := some "p"
  projectLocationId := some "a"
  agentId := some "agent"
  agentName := none
  model := none
  effort := none
  permissionMode := none
  driver := some "claude-code"
  title := ""
  archived := false
  terminal := false
  role := .normal
  parentSessionId := none

def sampleFacts : Facts where
  getSession := fun id => if id = "s" then some sampleSession else none
  getRunner := fun id => if id = "r" then some ⟨none, none, some 300, [⟨"agent", true⟩]⟩ else none
  getProject := fun _ => some ⟨"p", "P", [⟨"a", "A", "r", "here", "/a", false⟩, ⟨"b", "B", "r", "there", "/b", false⟩]⟩
  getWorkspacePath := fun _ workspaceId => if workspaceId = "there" then some "/b" else some "/a"
  canAccessSession := fun _ _ => true
  canAccessProject := fun _ _ => true
  canAccessRunner := fun _ _ => true
  canAccessWorkspace := fun _ _ _ => true
  sessionScope := fun _ => some "org"
  operatingHumanPrincipal := fun userId organizationId => some ⟨userId, organizationId⟩
  isSessionOwner := fun _ _ => true

def sampleAnswers (locationId : String) : LocationInspection :=
  if locationId = "b" then .ok ⟨"r", "there", "owner/two"⟩ else .ok ⟨"r", "here", "owner/one"⟩

def sampleTarget : LocationSwitchCandidate :=
  candidate sampleFacts sampleSession ⟨"b", "B", "r", "there", "/b", false⟩ "owner/two"

def sampleArgs : Args := ⟨"s", "o", "d", ⟨"actor", "s"⟩, 10⟩

def sampleSnapshot : LocationSwitchSnapshot := ⟨"owner/two", "p", [sampleTarget], "B", 100, none⟩

def sampleDigest (b : Bound) : String := String.join (b.candidates.map (fun c => c.place.name))

def attempt (i : Nat) (ok : Bool) : List Event :=
  .call sampleArgs :: List.replicate 3 (.run false) ++ .answer i (.inspected sampleAnswers) :: List.replicate 3 (.run false) ++
    .answer i (.reply ok none) :: List.replicate 3 (.run false)

def sampleEvents : List Event := .change (.propose "o" "s" "d" true true sampleSnapshot) ::
  .change (.resolve "o" true "person" 5 (some "switch:b")) :: (attempt 0 false ++ attempt 1 true)

theorem approval_carried_out_once_sample : ∃ l w, Run (step sampleDigest) (World.init sampleFacts) l w ∧
    l.map Obs.shape = ["read", "inspected", "read", "claimed", "attempted", "refused", "read", "inspected", "read", "claimed",
      "attempted"] ∧
    ∀ l₁ l₂ l₃ i j args args' call call', l = l₁ ++ .attempted i args call :: (l₂ ++ .attempted j args' call' :: l₃) →
      args'.occurrenceId = args.occurrenceId → .refused i args.occurrenceId ∈ l₂ := by
  have hshape : (replay (step sampleDigest) (World.init sampleFacts) sampleEvents).map (fun r => r.2.map Obs.shape) =
      some ["read", "inspected", "read", "claimed", "attempted", "refused", "read", "inspected", "read", "claimed",
        "attempted"] := by decide +kernel
  obtain ⟨⟨w, l⟩, hreplay, hl⟩ := Option.map_eq_some_iff.1 hshape
  have hrun := replay_run _ _ _ _ hreplay
  exact ⟨l, w, hrun, hl, (approval_carried_out_once sampleDigest sampleFacts hrun).1⟩

end Switch
end Wollipog
