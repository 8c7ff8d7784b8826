import Wollipog.Prompts.Moves
/-!
# Converge — a command's state over its life, and what it ends in

Whatever the order of the operations, a command's state and revision only advance (`Follows`), and the control plane
itself fails only what it never sent.
-/
namespace Wollipog.Prompts

section

variable {γ : Type} {P : Payloads γ}

/-! ## What a move keeps -/

structure Follows (x y : Core) : Prop where
  revision : x.revision ≤ y.revision
  rank : x.state.rank ≤ y.state.rank
  completed : x.state = .completed → y.state = .completed
  failed : x.state = .failed → y.state = .failed
  uncertain : x.state = .uncertain → y.state = .uncertain ∨ y.state = .completed ∨ y.state = .failed
  attempts : x.attempts ≤ y.attempts
  owner : y.runnerId = x.runnerId ∧ y.sessionId = x.sessionId

theorem Follows.refl (x : Core) : Follows x x := ⟨le_rfl, le_rfl, id, id, .inl, le_rfl, rfl, rfl⟩

variable {revision : Nat} {b row : Row} {x y : Core} {c : Cause} {state : State} {a final : Record} {ops : List Op}
  {l : List Record}

theorem Follows.trans {z : Core} (hxy : Follows x y) (hyz : Follows y z) : Follows x z where
  revision := hxy.revision.trans hyz.revision
  rank := hxy.rank.trans hyz.rank
  completed h := hyz.completed (hxy.completed h)
  failed h := hyz.failed (hxy.failed h)
  uncertain h := by
    rcases hxy.uncertain h with h | h | h
    · exact hyz.uncertain h
    · exact .inr (.inl (hyz.completed h))
    · exact .inr (.inr (hyz.failed h))
  attempts := hxy.attempts.trans hyz.attempts
  owner := ⟨hyz.owner.1.trans hxy.owner.1, hyz.owner.2.trans hxy.owner.2⟩

theorem takes_iff (h : x.takes state revision = true) :
    x.revision ≤ revision ∧ ((x.state.active = true ∧ (state.active = true → x.state.rank ≤ state.rank)) ∨
      (x.state = .uncertain ∧ (state = .completed ∨ state = .failed))) := by
  unfold Core.takes at h
  simp only [Bool.and_eq_true, Bool.not_eq_true', Bool.or_eq_false_iff, Bool.and_eq_false_iff, Bool.not_eq_false',
    decide_eq_false_iff_not, not_lt] at h
  obtain ⟨⟨⟨hopen, hrevision⟩, -⟩, -, hrank⟩ := h
  refine ⟨hrevision, ?_⟩
  rcases hopen with hactive | hrefines
  · left
    refine ⟨hactive, fun hstate => ?_⟩
    rcases hrank with hrank | hrank
    · rw [hstate] at hrank
      cases hrank
    · exact hrank
  · right
    simpa [and_assoc, hrevision] using hrefines

theorem takes_of_end (hstate : state = .completed ∨ state = .failed)
    (hopen : (x.state.active = true ∧ x.revision < revision) ∨ (x.state = .uncertain ∧ x.revision ≤ revision)) :
    x.takes state revision = true := by
  have hended : state.active = false := by rcases hstate with rfl | rfl <;> rfl
  unfold Core.takes
  rcases hopen with ⟨hactive, hlt⟩ | ⟨huncertain, hle⟩
  · have hne : (revision == x.revision) = false := by
      rw [beq_eq_false_iff_ne]
      omega
    simp [hactive, hended, hne]
    omega
  · have hne : (state == x.state) = false := by
      rw [huncertain]
      rcases hstate with rfl | rfl <;> rfl
    have hrefines : (state == .completed || state == .failed) = true := by rcases hstate with rfl | rfl <;> rfl
    simp only [huncertain] at hne ⊢
    simp [hended, hne, hrefines, hle]

theorem rank_le_of_active {x y : State} (h : x.active = true) (hy : y.active = false) : x.rank ≤ y.rank := by
  cases x <;> cases y <;> simp_all [State.active, State.rank]

theorem refused_ended (state : State) : (if state = .pending then State.failed else .uncertain).active = false := by
  split <;> rfl

theorem not_active_of {x : State} (h : x.active = true) : x ≠ .completed ∧ x ≠ .failed ∧ x ≠ .uncertain := by
  refine ⟨?_, ?_, ?_⟩ <;> rintro rfl <;> cases h

theorem follows_of_active (hactive : x.state.active = true) (hrevision : x.revision ≤ y.revision)
    (hrank : x.state.rank ≤ y.state.rank) (hattempts : x.attempts ≤ y.attempts)
    (howner : y.runnerId = x.runnerId ∧ y.sessionId = x.sessionId) : Follows x y := by
  obtain ⟨hcompleted, hfailed, huncertain⟩ := not_active_of hactive
  exact ⟨hrevision, hrank, fun h => absurd h hcompleted, fun h => absurd h hfailed, fun h => absurd h huncertain, hattempts, howner⟩

theorem Moved.follows (hm : Moved x c y) : Follows x y := by
  cases hm with
  | same => exact Follows.refl x
  | scrubbed intact hended => exact ⟨le_rfl, le_rfl, id, id, .inl, le_rfl, rfl, rfl⟩
  | sent hactive hintact =>
    refine follows_of_active hactive le_rfl ?_ (Nat.le_succ _) ⟨rfl, rfl⟩
    dsimp only
    split
    · rename_i hpending
      rw [hpending]
      decide
    · exact le_rfl
  | told state revision event intact htakes hrunner hintact hevent =>
    obtain ⟨hrevision, hopen⟩ := takes_iff htakes
    rcases hopen with ⟨hactive, hrank⟩ | ⟨huncertain, hend⟩
    · refine follows_of_active hactive hrevision ?_ le_rfl ⟨rfl, rfl⟩
      by_cases hstate : state.active = true
      · exact hrank hstate
      · rw [Bool.not_eq_true] at hstate
        exact rank_le_of_active hactive hstate
    · refine ⟨hrevision, ?_, fun h => ?_, fun h => ?_, fun _ => .inr hend, le_rfl, rfl, rfl⟩
      · rw [huncertain]
        rcases hend with rfl | rfl <;> exact le_rfl
      · rw [huncertain] at h
        cases h
      · rw [huncertain] at h
        cases h
  | ended hactive intact =>
    exact follows_of_active hactive (Nat.le_succ _) (rank_le_of_active hactive (refused_ended x.state)) le_rfl ⟨rfl, rfl⟩
  | malformed hactive hintact =>
    have hended : State.failed.active = false := rfl
    exact follows_of_active hactive (Nat.le_succ _) (rank_le_of_active hactive hended) le_rfl ⟨rfl, rfl⟩

/-- What holds of a command: a pending one was never sent, and a sent one is intact while it runs. -/
structure Core.Sound (x : Core) : Prop where
  pending : x.state = .pending → x.attempts = 0
  intact : x.state.active = true → 0 < x.attempts → x.intact = true

theorem Moved.sound (hm : Moved x c y) (hs : x.Sound) : y.Sound := by
  cases hm with
  | same => exact hs
  | scrubbed intact hended =>
    refine ⟨hs.pending, fun hactive _ => ?_⟩
    have hactive' : x.state.active = true := hactive
    rw [hended] at hactive'
    cases hactive'
  | sent hactive hintact =>
    refine ⟨fun h => ?_, fun _ _ => hintact⟩
    dsimp only at h
    split at h
    · cases h
    · rename_i hpending
      exact absurd h hpending
  | told state revision event intact htakes hrunner hintact hevent =>
    refine ⟨fun h => absurd h hrunner.1, fun hactive hattempts => ?_⟩
    have hne : state ≠ .completed := (not_active_of hactive).1
    have hbefore : x.state.active = true := by
      rcases (takes_iff htakes).2 with ⟨hactive', -⟩ | ⟨-, hend⟩
      · exact hactive'
      · rcases hend with rfl | rfl <;> cases hactive
    exact (hintact hne).trans (hs.intact hbefore hattempts)
  | ended hactive intact =>
    have hended := refused_ended x.state
    refine ⟨fun h => ?_, fun h => ?_⟩
    · dsimp only at h
      rw [h] at hended
      cases hended
    · exact absurd (h.symm.trans hended) (by decide)
  | malformed hactive hintact =>
    refine ⟨fun h => ?_, fun h => ?_⟩
    · cases h
    · cases h

/-- **How the control plane ends a command**: failed only if it was never sent, uncertain otherwise. -/
structure Ends (x y : Core) : Prop where
  failed : x.state ≠ .failed → y.state = .failed → x.attempts = 0 ∧ y.attempts = 0
  ended : x.state.active = true → y.state.active = false → y.state = .failed ∨ y.state = .uncertain
  uncertain : x.state.active = true → y.state.active = false → 0 < x.attempts → y.state = .uncertain

theorem Moved.ends (hm : Moved x .plane y) (hs : x.Sound) : Ends x y := by
  have hclash : ∀ {z : State}, z.active = true → z.active = false → False := fun h h' => by
    rw [h] at h'
    cases h'
  cases hm with
  | same => exact ⟨fun h h' => absurd h' h, fun h h' => (hclash h h').elim, fun h h' => (hclash h h').elim⟩
  | scrubbed intact hended => exact ⟨fun h h' => absurd h' h, fun h h' => (hclash h h').elim, fun h h' => (hclash h h').elim⟩
  | sent hactive hintact =>
    have hstill : (if x.state = .pending then State.sent else x.state).active = true := by
      split
      · rfl
      · exact hactive
    refine ⟨fun _ h => ?_, fun _ h => (hclash hstill h).elim, fun _ h => (hclash hstill h).elim⟩
    exact absurd h (not_active_of hstill).2.1
  | ended hactive intact =>
    refine ⟨fun _ h => ?_, fun _ _ => ?_, fun _ _ hsent => ?_⟩
    · dsimp only at h
      split at h
      · rename_i hpending
        exact ⟨hs.pending hpending, hs.pending hpending⟩
      · cases h
    · dsimp only
      split
      · exact .inl rfl
      · exact .inr rfl
    · dsimp only
      split
      · rename_i hpending
        have hzero := hs.pending hpending
        omega
      · rfl
  | malformed hactive hintact =>
    have hzero : x.attempts = 0 := by
      by_contra hsent
      have hstill := hs.intact hactive (Nat.pos_of_ne_zero hsent)
      rw [hintact] at hstill
      cases hstill
    refine ⟨fun _ _ => ⟨hzero, hzero⟩, fun _ _ => .inl rfl, fun _ _ hsent => ?_⟩
    omega

structure Record where
  state : State
  revision : Nat
  steeringPending : Bool
  deriving DecidableEq, Repr

def transitionAllowed (a b : State) : Bool :=
  a == b ||
    (a.active && (b == .failed || b == .uncertain ||
      match a with
      | .accepted => b == .queued || b == .started || b == .completed
      | .queued => b == .started || b == .completed
      | .started => b == .completed
      | _ => false))

/-- `transitionLocked`: one revision further, by an allowed transition, a replay's reset or a rejected steer's. -/
def Wrote (a b : Record) : Prop :=
  b.revision = a.revision + 1 ∧ (transitionAllowed a.state b.state = true ∨ (a.state = .queued ∧ b.state = .accepted) ∨
    (a.state = .started ∧ b.state = .queued ∧ a.steeringPending = true ∧ b.steeringPending = false))

inductive Journal : List Record → Record → Prop
  | claimed : Journal [⟨.accepted, 1, false⟩] ⟨.accepted, 1, false⟩
  | wrote {l : List Record} {a b : Record} : Journal l a → Wrote a b → Journal (l ++ [b]) b

def Record.shown (a : Record) : State := if a.state = .started ∧ a.steeringPending = true then .queued else a.state

theorem Wrote.of_ended {b : Record} (h : Wrote a b) (hended : a.state.active = false) : b.state = a.state := by
  rcases h.2 with hallowed | ⟨hqueued, -⟩ | ⟨hstarted, -⟩
  · unfold transitionAllowed at hallowed
    rw [hended, Bool.false_and, Bool.or_false, beq_iff_eq] at hallowed
    exact hallowed.symm
  · rw [hqueued] at hended
    cases hended
  · rw [hstarted] at hended
    cases hended

theorem Journal.mem (h : Journal l a) :
    ∀ b ∈ l, 1 ≤ b.revision ∧ b.revision ≤ a.revision ∧ ((b.state.active = true ∧ b.revision < a.revision) ∨ b.state = a.state) := by
  induction h with
  | claimed =>
    intro b hb
    rw [List.mem_singleton] at hb
    subst hb
    exact ⟨le_rfl, le_rfl, .inr rfl⟩
  | @wrote l a c _ hwrote ih =>
    intro b hb
    have hrevision := hwrote.1
    rcases List.mem_append.1 hb with hb | hb
    · obtain ⟨hone, hle, hstate⟩ := ih b hb
      refine ⟨hone, by omega, ?_⟩
      rcases hstate with ⟨hactive, hlt⟩ | hsame
      · exact .inl ⟨hactive, by omega⟩
      · by_cases hactive : b.state.active = true
        · exact .inl ⟨hactive, by omega⟩
        · rw [Bool.not_eq_true] at hactive
          rw [hsame] at hactive
          exact .inr (hsame.trans (hwrote.of_ended hactive).symm)
    · rw [List.mem_singleton] at hb
      subst hb
      have hone : 1 ≤ b.revision := by omega
      exact ⟨hone, le_rfl, .inr rfl⟩

theorem Record.shown_active (a : Record) : a.shown.active = a.state.active := by
  unfold Record.shown
  split
  · rename_i h
    rw [h.1]
    rfl
  · rfl

theorem Record.shown_of_ended (h : a.state.active = false) : a.shown = a.state := by
  unfold Record.shown
  split
  · rename_i hstarted
    rw [hstarted.1] at h
    cases h
  · rfl

structure Heading (final : Record) (x : Core) : Prop where
  active : x.state.active = true → x.revision < final.revision
  uncertain : x.state = .uncertain → x.revision ≤ final.revision
  completed : x.state = .completed → final.state = .completed
  failed : x.state = .failed → final.state = .failed

theorem Moved.heading (hj : Journal l final) (hend : final.state = .completed ∨ final.state = .failed) (hm : Moved x c y)
    (hc : ∀ state revision, c = .runner state revision → ∃ a ∈ l, state = a.shown ∧ revision = a.revision)
    (hplane : c = .plane → y.state = .failed → x.state = .failed) (hh : Heading final x) : Heading final y := by
  cases hm with
  | same => exact hh
  | scrubbed intact hended => exact ⟨hh.active, hh.uncertain, hh.completed, hh.failed⟩
  | sent hactive hintact =>
    have hstill : (if x.state = .pending then State.sent else x.state).active = true := by
      split
      · rfl
      · exact hactive
    obtain ⟨hcompleted, hfailed, huncertain⟩ := not_active_of hstill
    exact ⟨fun _ => hh.active hactive, fun h => absurd h huncertain, fun h => absurd h hcompleted, fun h => absurd h hfailed⟩
  | told state revision event intact htakes hrunner hintact hevent =>
    obtain ⟨a, ha, rfl, rfl⟩ := hc state revision rfl
    obtain ⟨-, hle, hstate⟩ := hj.mem a ha
    by_cases hactive : a.state.active = true
    · have hlt : a.revision < final.revision := by
        rcases hstate with ⟨-, hlt⟩ | hsame
        · exact hlt
        · rw [hsame] at hactive
          rcases hend with h | h <;> rw [h] at hactive <;> cases hactive
      have hshown : a.shown.active = true := by rw [Record.shown_active]; exact hactive
      obtain ⟨hcompleted, hfailed, huncertain⟩ := not_active_of hshown
      exact ⟨fun _ => hlt, fun h => absurd h huncertain, fun h => absurd h hcompleted, fun h => absurd h hfailed⟩
    · have hsame : a.state = final.state := by
        rcases hstate with ⟨h, -⟩ | hsame
        · exact absurd h hactive
        · exact hsame
      rw [Bool.not_eq_true] at hactive
      have hshown : a.shown = final.state := (Record.shown_of_ended hactive).trans hsame
      refine ⟨fun h => ?_, fun _ => hle, fun h => ?_, fun h => ?_⟩
      · dsimp only at h
        rw [Record.shown_active, hactive] at h
        cases h
      · exact hshown.symm.trans h
      · exact hshown.symm.trans h
  | ended hactive intact =>
    have hlt := hh.active hactive
    have hended := refused_ended x.state
    refine ⟨fun h => ?_, fun _ => hlt, fun h => ?_, fun h => ?_⟩
    · dsimp only at h
      rw [hended] at h
      cases h
    · dsimp only at h
      split at h <;> cases h
    · exact hh.failed (hplane rfl h)
  | malformed hactive hintact =>
    refine ⟨fun h => ?_, fun h => ?_, fun h => ?_, fun h => ?_⟩
    · cases h
    · cases h
    · cases h
    · exact hh.failed (hplane rfl h)

/-- **A heard receipt of the record's end settles the row so.** -/
theorem Heading.settles (hend : final.state = .completed ∨ final.state = .failed) {s : Store} (hk : s.Keyed)
    {row' : Row} (hh : Heading final (row.core P)) {r : Receipt} {now : Int} (hget : s.get r.commandId = some row)
    (hheard : heard s r row = true) (hstate : r.state = final.state) (hrevision : r.revision = final.revision)
    (hget' : (step P s (.receipt r now)).get r.commandId = some row') : row'.state = final.state := by
  have hrunner : r.state ≠ .pending ∧ r.state ≠ .sent := by
    rw [hstate]
    rcases hend with h | h <;> rw [h] <;> decide
  by_cases htaken : receiptTaken row r.state r.revision = true
  · have hstep : step P s (.receipt r now) = s.modify r.commandId (takeReceipt r now) := by
      unfold step receipt recordSessionPromptCommandReceipt
      simp only
      rw [if_pos hrunner, hget]
      simp only
      rw [if_pos hheard, if_pos htaken]
    have hrewrites : Rewrites (fun a b => a.commandId = r.commandId → b = takeReceipt r now a) s (s.modify r.commandId (takeReceipt r now)) := by
      refine ⟨_, fun a _ => ?_, rfl⟩
      dsimp only
      split
      · exact ⟨rfl, fun _ => rfl⟩
      · rename_i hother
        exact ⟨rfl, fun h => absurd h hother⟩
    rw [← hstep] at hrewrites
    obtain ⟨row'', hfound, hrow⟩ := hrewrites.get hget
    rw [hget', Option.some.injEq] at hfound
    subst hfound
    rw [hrow (Store.get_commandId hget)]
    exact hstate
  · -- only a row that is settled already refuses it
    have hsettled : row.state = final.state := by
      rw [receiptTaken_core P, hstate, hrevision] at htaken
      by_contra hne
      apply htaken
      apply takes_of_end hend
      by_cases hactive : row.state.active = true
      · exact .inl ⟨hactive, hh.active hactive⟩
      · right
        have huncertain : row.state = .uncertain := by
          cases hrow : row.state with
          | uncertain => rfl
          | completed => exact absurd (hrow.trans (hh.completed hrow).symm) hne
          | failed => exact absurd (hrow.trans (hh.failed hrow).symm) hne
          | _ =>
            rw [hrow] at hactive
            exact absurd rfl hactive
        exact ⟨huncertain, hh.uncertain huncertain⟩
    rcases step_get (P := P) hk (.receipt r now) hget hget' with hsame | ⟨hop, -⟩ | ⟨r', now', hop, ht, -, -⟩
    · rw [hsame]
      exact hsettled
    · cases hop
    · cases hop
      exact absurd ht.2.2 htaken

/-! ## A command's life -/

theorem run_concat (s : Store) (ops : List Op) (op : Op) : run P s (ops ++ [op]) = step P (run P s ops) op := by
  rw [run_append]
  rfl

def Lives (P : Payloads γ) (id : String) (s : Store) (ops : List Op) : Prop :=
  ∀ pre post, ops = pre ++ post → ((run P s pre).get id).isSome = true

variable {id : String} {s : Store}

theorem Lives.prefix' {more : List Op} (h : Lives P id s (ops ++ more)) : Lives P id s ops :=
  fun pre post hsplit => h pre (post ++ more) (by rw [hsplit, List.append_assoc])

theorem Lives.get (h : Lives P id s ops) : ∃ row, (run P s ops).get id = some row :=
  Option.isSome_iff_exists.1 (h ops [] (List.append_nil ops).symm)

theorem Lives.get_first (h : Lives P id s ops) : ∃ row, s.get id = some row :=
  Option.isSome_iff_exists.1 (h [] ops rfl)

/-- **A rule for lives**: what every move of a live command keeps, its life keeps. -/
theorem Lives.induct (Q : List Op → Row → Prop) (hrow : s.get id = some row) (hfirst : Q [] row)
    (hstep : ∀ pre op a b, Lives P id s pre → (run P s pre).get id = some a → (run P s (pre ++ [op])).get id = some b →
      Q pre a → Q (pre ++ [op]) b)
    (ops : List Op) : Lives P id s ops → ∀ b, (run P s ops).get id = some b → Q ops b := by
  induction ops using List.reverseRecOn with
  | nil =>
    intro _ b hb
    have hsame : s.get id = some b := hb
    rw [hrow, Option.some.injEq] at hsame
    rw [← hsame]
    exact hfirst
  | append_singleton ops op ih =>
    intro hlives b hb
    obtain ⟨a, ha⟩ := hlives.prefix'.get
    exact hstep ops op a b hlives.prefix' ha hb (ih hlives.prefix' a ha)

theorem lives_follows (hk : s.Keyed) (hrow : s.get id = some row)
    (hlives : Lives P id s ops) (hb : (run P s ops).get id = some b) : Follows (row.core P) (b.core P) := by
  refine Lives.induct (fun _ b => Follows (row.core P) (b.core P)) hrow (Follows.refl _) ?_ ops hlives b hb
  intro pre op a b _ ha hb hfollows
  rw [run_concat] at hb
  rcases step_get (run_keyed hk pre) op ha hb with hsame | ⟨-, hmoved⟩ | ⟨r, now, -, -, -, hmoved⟩
  · rw [hsame]
    exact hfollows
  · exact hfollows.trans hmoved.follows
  · exact hfollows.trans hmoved.follows

theorem run_sound (ops : List Op) : ∀ row ∈ (run P .empty ops).rows, (row.core P).Sound := by
  induction ops using List.reverseRecOn with
  | nil =>
    intro row hrow
    cases hrow
  | append_singleton ops op ih =>
    rw [run_concat]
    have hk := run_keyed empty_keyed (P := P) ops
    have hstep := step_stepped (P := P) hk op
    generalize step P (run P .empty ops) op = s' at hstep
    intro row hrow
    cases hstep with
    | plane hop hmoved =>
      obtain ⟨g, hg, hrows⟩ := hmoved
      rw [hrows] at hrow
      obtain ⟨a, ha, rfl⟩ := List.mem_map.1 hrow
      exact (hg a ha).2.sound (ih a ha)
    | told r now htold =>
      obtain ⟨g, hg, hrows⟩ := htold
      rw [hrows] at hrow
      obtain ⟨a, ha, rfl⟩ := List.mem_map.1 hrow
      rcases (hg a ha).2 with ⟨hrunner, ht, hsame⟩ | hsame
      · rw [hsame]
        exact (moved_takeReceipt now hrunner ht).sound (ih a ha)
      · rw [hsame]
        exact ih a ha
    | added hop new hnew hmoved =>
      obtain ⟨g, hg, hrows⟩ := hmoved
      rw [hrows] at hrow
      obtain ⟨a, ha, rfl⟩ := List.mem_map.1 hrow
      refine (hg a ha).2.sound ?_
      rcases List.mem_append.1 ha with ha | ha
      · exact ih a ha
      · rw [List.mem_singleton.1 ha]
        exact ⟨fun _ => rfl, fun _ h => absurd h (lt_irrefl 0)⟩
    | pruned now limit kept hrows => exact ih row (hrows.subset hrow)

def FromJournal (l : List Record) (id : String) (owner : StageInput) (ops : List Op) : Prop :=
  ∀ r now, Op.receipt r now ∈ ops → r.commandId = id → r.runnerId = owner.runnerId → r.sessionId = owner.sessionId →
    ∃ a ∈ l, r.state = a.shown ∧ r.revision = a.revision

def NotFailedByPlane (P : Payloads γ) (id : String) (s : Store) (ops : List Op) : Prop :=
  ∀ pre op post a b, ops = pre ++ op :: post → op.ofPlane = true → (run P s pre).get id = some a →
    (run P s (pre ++ [op])).get id = some b → b.state = .failed → a.state = .failed

theorem lives_heading (hj : Journal l final)
    (hend : final.state = .completed ∨ final.state = .failed) (hk : s.Keyed) {input : StageInput}
    (hrow : s.get id = some (stagedRow input)) (hlives : Lives P id s ops) (hreceipts : FromJournal l id input ops)
    (hplane : NotFailedByPlane P id s ops) (hb : (run P s ops).get id = some b) : Heading final (b.core P) := by
  have hone : 1 ≤ final.revision := by
    cases hj with
    | claimed => exact le_rfl
    | wrote _ hwrote =>
      have := hwrote.1
      omega
  have hstart : Heading final ((stagedRow input).core P) :=
    ⟨fun _ => hone, fun h => (by cases h), fun h => (by cases h), fun h => (by cases h)⟩
  have hrule : ∀ ops, Lives P id s ops → ∀ b, (run P s ops).get id = some b →
      FromJournal l id input ops → NotFailedByPlane P id s ops → Heading final (b.core P) := by
    refine Lives.induct (fun ops b => FromJournal l id input ops → NotFailedByPlane P id s ops → Heading final (b.core P))
      hrow (fun _ _ => hstart) ?_
    intro pre op a b hpre ha hb ih hfrom hnot
    have hfrom' : FromJournal l id input pre := fun r now hmem => hfrom r now (List.mem_append_left _ hmem)
    have hnot' : NotFailedByPlane P id s pre := fun p o q x y hsplit =>
      hnot p o (q ++ [op]) x y (by rw [hsplit, List.append_assoc]; rfl)
    have hheading := ih hfrom' hnot'
    have hb' := hb
    rw [run_concat] at hb'
    rcases step_get (run_keyed hk pre) op ha hb' with hsame | ⟨hop, hmoved⟩ | ⟨r, now, rfl, ht, -, hmoved⟩
    · rw [hsame]
      exact hheading
    · exact hmoved.heading hj hend (fun _ _ h => by cases h) (fun _ hfailed => hnot pre op [] a b rfl hop ha hb hfailed) hheading
    · refine hmoved.heading hj hend (fun state revision h => ?_) (fun h => by cases h) hheading
      cases h
      have howner := (lives_follows hk hrow hpre ha).owner
      obtain ⟨hid, hheard, -⟩ := ht
      unfold heard at hheard
      simp only [Bool.and_eq_true, beq_iff_eq] at hheard
      refine hfrom r now (List.mem_append_right _ (List.mem_singleton_self _)) ?_ ?_ ?_
      · exact hid.symm.trans (Store.get_commandId ha)
      · exact hheard.1.1.symm.trans howner.1
      · exact hheard.1.2.symm.trans howner.2
  exact hrule ops hlives b hb hreceipts hplane

theorem notFailed_of_state (hk : s.Keyed) (hlives : Lives P id s ops)
    (hb : (run P s ops).get id = some b) (hne : b.state ≠ .failed) : NotFailedByPlane P id s ops := by
  intro pre op post x y hsplit _ _ hy hfailed
  have hsplit' : ops = (pre ++ [op]) ++ post := by rw [hsplit, List.append_assoc]; rfl
  have hpost : Lives P id (run P s (pre ++ [op])) post := by
    intro p q hpq
    rw [← run_append]
    exact hlives (pre ++ [op] ++ p) q (by rw [hsplit', hpq]; simp)
  rw [hsplit', run_append] at hb
  exact absurd ((lives_follows (run_keyed hk _) hy hpost hb).failed hfailed) hne

theorem lives_of_inits (h : (ops.inits.all (fun pre => ((run P s pre).get id).isSome)) = true) : Lives P id s ops := by
  intro pre post hsplit
  have hprefix : pre <+: ops := ⟨post, hsplit.symm⟩
  exact List.all_eq_true.1 h pre ((List.mem_inits pre ops).2 hprefix)

/-- **Durable receipts converge**: state and revision only advance, and once the end of the runner's record is heard, a
command not failed is in exactly that state. -/
theorem prompt_receipts_converge (before ops : List Op) (id : String) (hlives : Lives P id (run P .empty before) ops) :
    (∀ pre mid post a b, ops = pre ++ mid ++ post → (run P (run P .empty before) pre).get id = some a →
        (run P (run P .empty before) (pre ++ mid)).get id = some b → Follows (a.core P) (b.core P)) ∧
      (∀ pre op post a b, ops = pre ++ op :: post → op.ofPlane = true → (run P (run P .empty before) pre).get id = some a →
        (run P (run P .empty before) (pre ++ [op])).get id = some b → Ends (a.core P) (b.core P)) ∧
      ∀ input l final, (run P .empty before).get id = some (stagedRow input) → Journal l final →
        final.state = .completed ∨ final.state = .failed → FromJournal l id input ops →
        ∀ pre r now post a b, ops = pre ++ .receipt r now :: post → r.commandId = id → r.state = final.state →
          r.revision = final.revision → (run P (run P .empty before) pre).get id = some a →
          heard (run P (run P .empty before) pre) r a = true → NotFailedByPlane P id (run P .empty before) pre →
          (run P (run P .empty before) ops).get id = some b → b.state = final.state := by
  have hk₀ := run_keyed (P := P) empty_keyed before
  have hsound₀ := run_sound (P := P) before
  generalize run P .empty before = s at hlives hk₀ hsound₀
  refine ⟨?_, ?_, ?_⟩
  · intro pre mid post a b hsplit ha hb
    have hmid : Lives P id (run P s pre) mid := by
      intro p q hpq
      rw [← run_append]
      exact hlives (pre ++ p) (q ++ post) (by rw [hsplit, hpq]; simp)
    rw [run_append] at hb
    exact lives_follows (run_keyed hk₀ pre) ha hmid hb
  · intro pre op post a b hsplit hop ha hb
    have hpre : Lives P id s pre := fun p q hpq => hlives p (q ++ op :: post) (by rw [hsplit, hpq]; simp)
    have hsound : (a.core P).Sound := by
      obtain ⟨first, hfirst⟩ := hpre.get_first
      refine Lives.induct (fun _ b => (b.core P).Sound) hfirst (hsound₀ first (Store.get_mem hfirst)) ?_ pre hpre a ha
      intro p o x y _ hx hy hs
      rw [run_concat] at hy
      rcases step_get (run_keyed hk₀ p) o hx hy with hsame | ⟨-, hmoved⟩ | ⟨r, now, -, -, -, hmoved⟩
      · rw [hsame]
        exact hs
      · exact hmoved.sound hs
      · exact hmoved.sound hs
    rw [run_concat] at hb
    rcases step_get (run_keyed hk₀ pre) op ha hb with hsame | ⟨-, hmoved⟩ | ⟨r, now, rfl, -, -, -⟩
    · rw [hsame]
      exact (Moved.same (a.core P)).ends hsound
    · exact hmoved.ends hsound
    · cases hop
  · intro input l final hrow hj hend hreceipts pre r now post a b hsplit hid hstate hrevision ha hheard hplane hb
    have hpre : Lives P id s pre := fun p q hpq => hlives p (q ++ .receipt r now :: post) (by rw [hsplit, hpq]; simp)
    have hfrom : FromJournal l id input pre := fun r' now' hmem =>
      hreceipts r' now' (by rw [hsplit]; exact List.mem_append_left _ hmem)
    have hheading := lives_heading hj hend hk₀ hrow hpre hfrom hplane ha
    have htold : Lives P id s (pre ++ [.receipt r now]) := fun p q hpq => hlives p (q ++ post) (by
      rw [hsplit, ← List.append_assoc, ← hpq, List.append_assoc]
      rfl)
    obtain ⟨c, hc⟩ := htold.get
    have hsettled : c.state = final.state := by
      rw [run_concat] at hc
      subst hid
      exact hheading.settles hend (run_keyed hk₀ pre) ha hheard hstate hrevision hc
    have hpost : Lives P id (run P s (pre ++ [.receipt r now])) post := by
      intro p q hpq
      rw [← run_append]
      exact hlives (pre ++ [.receipt r now] ++ p) q (by rw [hsplit, hpq]; simp)
    have hb' : (run P (run P s (pre ++ [.receipt r now])) post).get id = some b := by
      rw [← run_append, List.append_assoc]
      rw [hsplit] at hb
      exact hb
    have hfollows := lives_follows (run_keyed hk₀ _) hc hpost hb'
    rcases hend with h | h
    · rw [h] at hsettled ⊢
      exact hfollows.completed hsettled
    · rw [h] at hsettled ⊢
      exact hfollows.failed hsettled

end

def plainPayloads : Payloads String := ⟨some, fun _ => "d", fun _ => none⟩

def sampleStage : StageInput := ⟨"p", "s", "n", "text", "d", 10000000, 0⟩

def sampleSend (n : Nat) : Op := .flush "p" ⟨true, true, false, false, false, true, "", n⟩ (40000 * n)

def sampleReceipt (requestId : Nat) : Receipt := ⟨"p", "n", "s", .completed, 2, some requestId, none, none, none⟩

theorem sampleJournal : Journal [⟨.accepted, 1, false⟩, ⟨.completed, 2, false⟩] ⟨.completed, 2, false⟩ :=
  Journal.claimed.wrote ⟨rfl, .inl rfl⟩

theorem evicted_attempt_unheard :
    ((run plainPayloads .empty (.stage sampleStage :: (List.range 129).map sampleSend ++ [.receipt (sampleReceipt 0) 6000000])).get
      "p").map Row.state = some State.sent := by
  decide +kernel

def sampleOps : List Op := [sampleSend 0, sampleSend 1, .receipt (sampleReceipt 0) 50000, .expire 20000000]

theorem prompt_receipts_converge_twice :
    ((run plainPayloads (run plainPayloads .empty [.stage sampleStage]) sampleOps).get "p").map Row.state = some State.completed := by
  have hk := run_keyed (P := plainPayloads) empty_keyed [.stage sampleStage]
  have hlives : Lives plainPayloads "p" (run plainPayloads .empty [.stage sampleStage]) sampleOps := lives_of_inits (by decide +kernel)
  obtain ⟨b, hb⟩ := hlives.get
  have hpre : Lives plainPayloads "p" (run plainPayloads .empty [.stage sampleStage]) [sampleSend 0, sampleSend 1] :=
    lives_of_inits (by decide +kernel)
  have hsent : ((run plainPayloads (run plainPayloads .empty [.stage sampleStage]) [sampleSend 0, sampleSend 1]).get "p").map
      (fun a => (a.state, heard (run plainPayloads (run plainPayloads .empty [.stage sampleStage]) [sampleSend 0, sampleSend 1])
        (sampleReceipt 0) a)) = some (.sent, true) := by decide +kernel
  obtain ⟨a, ha⟩ := hpre.get
  rw [ha, Option.map_some, Option.some.injEq, Prod.mk.injEq] at hsent
  have hplane := notFailed_of_state hk hpre ha (by rw [hsent.1]; decide)
  have hstaged : (run plainPayloads .empty [.stage sampleStage]).get "p" = some (stagedRow sampleStage) := by decide +kernel
  have hfrom : FromJournal [⟨.accepted, 1, false⟩, ⟨.completed, 2, false⟩] "p" sampleStage sampleOps := by
    intro r now hmem _ _ _
    simp only [sampleOps, sampleSend, List.mem_cons, reduceCtorEq, List.not_mem_nil, or_false, false_or, Op.receipt.injEq] at hmem
    rw [hmem.1]
    exact ⟨⟨.completed, 2, false⟩, by decide, rfl, rfl⟩
  have hconverge := (prompt_receipts_converge [.stage sampleStage] sampleOps "p" hlives).2.2 sampleStage _ _ hstaged sampleJournal
    (.inl rfl) hfrom [sampleSend 0, sampleSend 1] (sampleReceipt 0) 50000 [.expire 20000000] a b rfl rfl rfl rfl ha hsent.2 hplane hb
  rw [hb, Option.map_some, hconverge]

end Wollipog.Prompts
