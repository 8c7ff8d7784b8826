import Wollipog.Republish.Flow
/-!
# Reconnects — the flow over every order of yields, acknowledgements and reconnects

Each registration opens a window over the regenerated inventory, and nothing of the window before it is kept.
-/
namespace Wollipog.Republish

open Json (Text)
open Utf8 (byteLength)
open Reviews (lit)

theorem sessionWork_perm : ∀ (n : ℕ) (ids : List Text), ids.length ≤ n →
    (sessionWork n ids).Perm (ids.map (fun id => lit "runtime:" ++ id) ++ ids.map (fun id => lit "queue:" ++ id))
  | 0, [], _ => .nil
  | n + 1, [], _ => .nil
  | n + 1, id :: ids, h => by
    have hpos : 0 < RUNNER_WINDOW_FRAMES := by decide
    have hrest := sessionWork_perm n ((id :: ids).drop RUNNER_WINDOW_FRAMES) (by
      rw [List.length_drop]
      omega)
    rw [sessionWork]
    swap
    · exact List.cons_ne_nil id ids
    refine ((List.Perm.refl _).append hrest).trans ?_
    conv_rhs => rw [← List.take_append_drop RUNNER_WINDOW_FRAMES (id :: ids)]
    rw [List.map_append, List.map_append, List.append_assoc, List.append_assoc]
    refine (List.Perm.refl _).append ?_
    rw [← List.append_assoc, ← List.append_assoc]
    exact List.perm_append_comm.append (.refl _)

theorem Inventory.work_perm (i : Inventory) :
    i.work.Perm (i.sessions.map (fun id => lit "runtime:" ++ id) ++ i.sessions.map (fun id => lit "queue:" ++ id) ++
      (i.durable.map (fun id => lit "durable:" ++ id) ++ i.invocations.map (fun id => lit "invocation:" ++ id))) :=
  (sessionWork_perm _ _ (Nat.le_refl _)).append (.refl _)

def Reads (ids : List Text) (source : ReconnectSource) : Output → Prop
  | .frame place text => ∃ key, ids[place]? = some key ∧ source.read key = .wire text
  | .passed place => ∃ key, ids[place]? = some key ∧ ∀ text, source.read key ≠ .wire text
  | _ => True

theorem visit_reads {ids : List Text} {source : ReconnectSource} (writes : ℕ → Bool) :
    ∀ (left : ℕ) {t : ProcessingWindow.Turn}, (∀ o ∈ t.out, Reads ids source o) →
      ∀ o ∈ (ProcessingWindow.visit ids source writes left t).out, Reads ids source o
  | 0, _, h => h
  | left + 1, t, h => by
    have hadd : ∀ {out : List Output}, (∀ o ∈ out, Reads ids source o) → ∀ o ∈ t.out ++ out, Reads ids source o :=
      fun hout o ho => (List.mem_append.1 ho).elim (h o) (hout o)
    cases hkey : ids[t.index]? with
    | none =>
      simp only [ProcessingWindow.visit, hkey]
      exact h
    | some key =>
      cases hread : source.read key with
      | failed =>
        have hpassed : Reads ids source (.passed t.index) := ⟨key, hkey, fun text hwire => by rw [hread] at hwire; cases hwire⟩
        simp only [ProcessingWindow.visit, hkey, hread]
        refine visit_reads writes left (hadd fun o ho => ?_)
        rcases List.mem_append.1 ho with hdiagnostic | hlast
        · cases hreported : t.reported with
          | true =>
            rw [hreported] at hdiagnostic
            cases hdiagnostic
          | false =>
            rw [hreported] at hdiagnostic
            rw [List.mem_singleton.1 hdiagnostic]
            trivial
        · rw [List.mem_singleton.1 hlast]
          exact hpassed
      | absent =>
        have hpassed : Reads ids source (.passed t.index) := ⟨key, hkey, fun text hwire => by rw [hread] at hwire; cases hwire⟩
        simp only [ProcessingWindow.visit, hkey, hread]
        refine visit_reads writes left (hadd fun o ho => ?_)
        rw [List.mem_singleton.1 ho]
        exact hpassed
      | wire text =>
        have hframe : Reads ids source (.frame t.index text) := ⟨key, hkey, hread⟩
        simp only [ProcessingWindow.visit, hkey, hread]
        split
        · exact h
        split
        · refine visit_reads writes left (hadd fun o ho => ?_)
          rw [List.mem_singleton.1 ho]
          exact hframe
        · exact h

theorem turn_reads (w : ProcessingWindow) (source : ReconnectSource) (writes : ℕ → Bool) :
    ∀ o ∈ (w.turn source writes).2, Reads w.ids source o := by
  have hvisit := @visit_reads w.ids source writes RUNNER_WINDOW_FRAMES
    ⟨w.index, 0, 0, w.readFailureReported, false, []⟩ (fun o ho => by cases ho)
  have habandon : ∀ (w' : ProcessingWindow) {out : List Output}, (∀ o ∈ out, Reads w.ids source o) →
      ∀ o ∈ (w'.abandon out).2, Reads w.ids source o := by
    intro w' out hout o ho
    rcases List.mem_append.1 ho with hbefore | hlast
    · exact hout o hbefore
    · rcases List.mem_cons.1 hlast with rfl | hfailed
      · trivial
      · rw [List.mem_singleton.1 hfailed]
        trivial
  unfold ProcessingWindow.turn
  dsimp only
  split
  · exact habandon _ hvisit
  split
  · split
    · intro o ho
      rcases List.mem_append.1 ho with hbefore | hlast
      · exact hvisit o hbefore
      · rw [List.mem_singleton.1 hlast]
        trivial
    · exact habandon _ hvisit
  split
  · exact hvisit
  · exact hvisit

variable {f : Flow} {c : Connection} {log : List Output} {w : ProcessingWindow}

theorem Tracks.acknowledge (h : Tracks f w) (id : ℕ) :
    ∃ g, f.run (w.acknowledge id).2 = some g ∧ Tracks g (w.acknowledge id).1 := by
  unfold ProcessingWindow.acknowledge
  cases hwaiting : w.waiting with
  | none => exact ⟨f, rfl, h⟩
  | some waiting =>
    dsimp only
    by_cases hstale : w.closed = true ∨ id ≠ waiting.id
    · rw [if_pos hstale]
      exact ⟨f, rfl, h⟩
    rw [if_neg hstale]
    have hopen : w.closed = false := Bool.eq_false_iff.2 fun hclosed => hstale (.inl hclosed)
    have hid : id = waiting.id := not_not.1 fun hne => hstale (.inr hne)
    have hpending : f.pending = some id := by rw [h.pending hopen, hwaiting, hid]; rfl
    have hrun : f.run [.acknowledged id] = some { f with pending := none, frames := 0, bytes := 0 } := by
      rw [← List.nil_append [Output.acknowledged id]]
      exact (Flow.run_concat rfl _).trans (if_pos hpending)
    by_cases hend : w.index = w.ids.length
    · rw [if_pos hend]
      exact ⟨_, hrun, h.total, h.next, h.inside, fun h => (by cases h), fun h => (by cases h), fun h => (by cases h),
        fun h => (by cases h), fun _ => rfl⟩
    · rw [if_neg hend]
      exact ⟨_, hrun, h.total, h.next, h.inside, fun _ => rfl, h.barrier, fun _ _ => ⟨rfl, rfl⟩, fun _ => ⟨fun _ => rfl, fun _ => rfl⟩,
        fun _ => rfl⟩

def Tracked (f : Flow) (c : Connection) : Prop := ∀ w, c.window = some w → Tracks f w

theorem Tracked.step {f : Flow} {c c' : Connection} {e : Event} {o : List Output} (h : Tracked f c)
    (hst : step c e = some (c', o)) : ∃ g, f.run o = some g ∧ Tracked g c' := by
  cases e with
  | connect =>
    cases hst
    exact ⟨f, rfl, fun w hw => by cases hw⟩
  | registered inventory =>
    rw [Republish.step, Option.ite_none_left_eq_some] at hst
    obtain ⟨-, ⟨⟩⟩ := hst
    refine ⟨⟨inventory.work.length, 0, 0, 0, 1, none⟩, rfl, fun w hw => ?_⟩
    cases hw
    exact ⟨rfl, rfl, Nat.zero_le _, fun _ => rfl, fun _ => rfl, fun _ _ => ⟨rfl, rfl⟩, fun _ => ⟨fun _ => rfl, fun _ => rfl⟩,
      fun _ => rfl⟩
  | yield source writes =>
    obtain ⟨w, hw, hturn⟩ := Option.bind_eq_some_iff.1 hst
    rw [Option.ite_none_right_eq_some] at hturn
    obtain ⟨⟨hscheduled, hopen⟩, ⟨⟩⟩ := hturn
    obtain ⟨g, hrun, htracks, -⟩ := (h w hw).turn hopen hscheduled source writes
    refine ⟨g, hrun, fun w' hw' => ?_⟩
    cases hw'
    exact htracks
  | acknowledge socket id =>
    rw [Republish.step] at hst
    split at hst
    · cases hw : c.window with
      | none =>
        rw [hw] at hst
        cases hst
        exact ⟨f, rfl, h⟩
      | some w =>
        rw [hw] at hst
        cases hst
        obtain ⟨g, hrun, htracks⟩ := (h w hw).acknowledge id
        refine ⟨g, hrun, fun w' hw' => ?_⟩
        cases hw'
        exact htracks
    · cases hst
      exact ⟨f, rfl, h⟩
  | disconnect =>
    cases hst
    exact ⟨f, rfl, fun w hw => by cases hw⟩

/-- **Every run's outputs are accepted.** -/
theorem flow_run (h : Sys.Run step .initial log c) : ∃ f, Flow.initial.run log = some f ∧ Tracked f c := by
  refine h.hist (fun log c => ∃ f, Flow.initial.run log = some f ∧ Tracked f c) ⟨.initial, rfl, fun w hw => by cases hw⟩ ?_
  rintro l t e u o ⟨f, hf, htracked⟩ - hst
  obtain ⟨g, hg, hnext⟩ := htracked.step hst
  exact ⟨g, by rw [Flow.run_append, hf]; exact hg, hnext⟩

/-! ## What a reader sees -/

/-- What a reader sees since the last opening: no more unacknowledged than a window holds. -/
structure Bounded (s : Seen) : Prop where
  places : s.places = List.range s.places.length
  barriers : s.barriers = List.range' 1 s.barriers.length
  acknowledged : s.acknowledged <+: s.barriers
  outstanding : s.barriers.length ≤ s.acknowledged.length + 1
  frames : s.unacknowledged.length ≤ RUNNER_WINDOW_FRAMES
  bytes : (s.unacknowledged.map byteLength).sum ≤ RUNNER_WINDOW_BYTES ∨ s.unacknowledged.length = 1

theorem Counted.bounded {s : Seen} (h : Counted f s) : Bounded s := by
  refine ⟨?_, ?_, ⟨f.pending.toList, h.pending⟩, ?_, ?_, ?_⟩
  · rw [h.places, List.length_range]
  · rw [h.barriers, List.length_range']
  · rw [← h.pending, List.length_append]
    cases f.pending with
    | none => exact Nat.le_succ _
    | some id => exact Nat.le_refl _
  · rw [h.frames]
    exact h.within.frames
  · rw [h.bytes, h.frames]
    exact h.within.bytes

theorem bounded_run (h : Sys.Run step .initial log c) {pre : List Output} (hpre : pre <+: log) : Bounded (seen pre) := by
  obtain ⟨f, hf, -⟩ := flow_run h
  obtain ⟨rest, rfl⟩ := hpre
  rw [Flow.run_append] at hf
  obtain ⟨g, hg, -⟩ := Option.bind_eq_some_iff.1 hf
  exact (counted_run hg).bounded

/-- The window of a run: it has a turn to come or waits for its one barrier. -/
structure Standing (log : List Output) (w : ProcessingWindow) : Prop where
  index : (seen log).places = List.range w.index
  complete : w.complete = true → (seen log).places = List.range w.ids.length
  scheduled : w.closed = false → (w.scheduled = true ↔ w.waiting = none)
  waiting : w.closed = false → (seen log).acknowledged ++ (w.waiting.map Waiting.id).toList = (seen log).barriers

theorem standing_run (h : Sys.Run step .initial log c) (hw : c.window = some w) : Standing log w := by
  obtain ⟨f, hf, htracked⟩ := flow_run h
  have htracks := htracked w hw
  have hcounted := counted_run hf
  have hindex : (seen log).places = List.range w.index := by rw [hcounted.places, htracks.next]
  refine ⟨hindex, fun hcomplete => ?_, htracks.scheduled, fun hopen => ?_⟩
  · rw [hindex, (of_decide_eq_true (Bool.and_eq_true_iff.1 hcomplete).2)]
  · rw [← htracks.pending hopen]
    exact hcounted.pending

/-- An acknowledgement of another socket, or of anything but the barrier that is waited for. -/
def Stale (c : Connection) (socket id : ℕ) : Prop :=
  socket ≠ c.socket ∨ ∀ w, c.window = some w → w.waiting.map Waiting.id ≠ some id

theorem stale_ignored {socket id : ℕ} (h : Stale c socket id) : step c (.acknowledge socket id) = some (c, []) := by
  obtain ⟨number, answered, window⟩ := c
  rw [step]
  rcases Decidable.em (socket = number) with rfl | hother
  · rw [if_pos rfl]
    cases window with
    | none => rfl
    | some w =>
      have hid := (h.resolve_left fun hne => hne rfl) w rfl
      have hkept : w.acknowledge id = (w, []) := by
        unfold ProcessingWindow.acknowledge
        cases hwaiting : w.waiting with
        | none => rfl
        | some waiting =>
          rw [hwaiting] at hid
          exact if_pos (.inr fun hsame => hid (congrArg some hsame.symm))
      simp only [hkept]
  · exact if_neg hother

theorem acknowledgement_resumes {waiting : Waiting} (hw : c.window = some w)
    (hopen : w.closed = false) (hwaiting : w.waiting = some waiting) :
    ∃ w', step c (.acknowledge c.socket waiting.id) = some ({ c with window := some w' }, [.acknowledged waiting.id]) ∧
      w'.waiting = none ∧ (w'.complete = true ∨ w'.scheduled = true) := by
  have hfresh : ¬ (w.closed = true ∨ waiting.id ≠ waiting.id) := by
    rintro (hclosed | hne)
    · rw [hopen] at hclosed
      cases hclosed
    · exact hne rfl
  simp only [step, hw, if_pos, ProcessingWindow.acknowledge, hwaiting]
  rw [if_neg hfresh]
  by_cases hend : w.index = w.ids.length
  · rw [if_pos hend]
    exact ⟨_, rfl, rfl, .inl (Bool.and_eq_true_iff.2 ⟨rfl, decide_eq_true hend⟩)⟩
  · rw [if_neg hend]
    exact ⟨_, rfl, rfl, .inr rfl⟩

/-- **The windows flow**: what was seen since the last opening is `Bounded`, and the acknowledgement that is waited for
resumes the window. -/
theorem window_flow {log : List Output} {c : Connection} (h : Sys.Run step .initial log c) :
    (∀ pre, pre <+: log → Bounded (seen pre)) ∧ (∀ w, c.window = some w → Standing log w) ∧
    (∀ w source writes, c.window = some w → w.scheduled = true → w.closed = false →
      (∀ o ∈ (w.turn source writes).2, Reads w.ids source o) ∧ (w.turn source writes).1.ids = w.ids ∧
        (w.index < (w.turn source writes).1.index ∨ (w.turn source writes).1.closed = true)) ∧
    (∀ w waiting, c.window = some w → w.closed = false → w.waiting = some waiting → ∃ w',
      step c (.acknowledge c.socket waiting.id) = some ({ c with window := some w' }, [.acknowledged waiting.id]) ∧
        w'.waiting = none ∧ (w'.complete = true ∨ w'.scheduled = true)) ∧
    (∀ socket id, Stale c socket id → step c (.acknowledge socket id) = some (c, [])) ∧
    ∀ inventory, c.answered = false → step c (.registered inventory) =
        some (⟨c.socket, true, some (.create inventory.work)⟩, [.opened inventory.work.length]) ∧
      inventory.work.Perm (inventory.sessions.map (fun id => lit "runtime:" ++ id) ++
        inventory.sessions.map (fun id => lit "queue:" ++ id) ++ (inventory.durable.map (fun id => lit "durable:" ++ id) ++
          inventory.invocations.map (fun id => lit "invocation:" ++ id))) := by
  refine ⟨fun pre hpre => bounded_run h hpre, fun w hw => standing_run h hw, fun w source writes hw hscheduled hopen => ?_,
    fun w waiting hw hopen hwaiting => acknowledgement_resumes hw hopen hwaiting,
    fun socket id hstale => stale_ignored hstale, fun inventory hopen => ⟨?_, inventory.work_perm⟩⟩
  · obtain ⟨f, -, htracked⟩ := flow_run h
    obtain ⟨-, -, -, hids, hprogress⟩ := (htracked w hw).turn hopen hscheduled source writes
    exact ⟨turn_reads w source writes, hids, hprogress⟩
  · exact if_neg (Bool.eq_false_iff.1 hopen)

def plainSource : ReconnectSource := ⟨fun id => .wire id, fun _ => .absent, fun _ => .absent, fun _ => .absent⟩

def plainInventory : Inventory := ⟨[lit "a", lit "b"], [], []⟩

/-- A window of two sessions, a stale acknowledgement, the acknowledgement and a duplicate of it. -/
def acknowledgedLog : List Output :=
  [.opened 4, .frame 0 (lit "a"), .frame 1 (lit "b"), .passed 2, .passed 3, .barrier 1, .acknowledged 1]

theorem acknowledgedLog_run : ∃ c, Sys.Run step .initial acknowledgedLog c :=
  Sys.replay_obs step .initial [.connect, .registered plainInventory, .yield plainSource (fun _ => true), .acknowledge 1 7,
    .acknowledge 1 1, .acknowledge 1 1] _ rfl

theorem window_flow_acknowledged : ∃ c, Sys.Run step .initial acknowledgedLog c ∧
    (∀ pre, pre <+: acknowledgedLog → Bounded (seen pre)) ∧ ∀ w, c.window = some w → Standing acknowledgedLog w := by
  obtain ⟨c, hrun⟩ := acknowledgedLog_run
  obtain ⟨hbounded, hstanding, -⟩ := window_flow hrun
  exact ⟨c, hrun, hbounded, hstanding⟩

def reconnectedLog : List Output :=
  [.opened 4, .frame 0 (lit "a"), .diagnostic (lit "runner_republish_write_failed"), .failed, .opened 4, .frame 0 (lit "a"),
    .frame 1 (lit "b"), .passed 2, .passed 3, .barrier 1]

theorem reconnect_starts_over : ¬ ∀ (log : List Output) (c : Connection), Sys.Run step .initial log c →
    ∀ pre items place wire, pre ++ [.opened items, .frame place wire] <+: log → place = (seen pre).places.length := by
  intro h
  obtain ⟨c, hrun⟩ := Sys.replay_obs step .initial [.connect, .registered plainInventory,
    .yield plainSource (fun n => n == 0), .connect, .registered plainInventory, .yield plainSource (fun _ => true)]
    reconnectedLog rfl
  have hplace := h reconnectedLog c hrun (reconnectedLog.take 4) 4 0 (lit "a") (List.take_prefix 6 reconnectedLog)
  exact absurd hplace (by decide)

end Wollipog.Republish
