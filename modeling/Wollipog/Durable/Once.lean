import Wollipog.Durable.Fenced
/-!
# Once — at most one provider submission per durable command

The owners' steps against the register, over whole runs. A prune takes no lock, so a claim that enters late can create
the record of a command again.
-/
namespace Wollipog
namespace Durable

open Sys
open Fencing (Reg Ev Move Discipline)

/-- **No claim creates again the record of a command whose record was removed.** -/
def NotAgain (l : List Obs) (w : World) (e : Event) : Prop :=
  ∀ p fault q now m, e = .claimSection p (.runs fault) → w.procs.get p = some q → q.doing = .claiming now m →
    w.journal.get m.commandId = none → Obs.removed m.commandId ∉ l

/-- What a step from `w` shows after the history `l`. -/
structure Shows (l : List Obs) (w : World) (o : List Obs) (u : World) : Prop where
  own : OwnFiles u.journal
  trace : Trace (Move discipline) (w.reg l) (o.map Obs.ev) (u.reg (l ++ o))

variable {env : Env} {deadline : String → Int} {l : List Obs} {w u : World} {o : List Obs}

theorem Shows.same (own : OwnFiles w.journal) (hj : u.journal = w.journal) (hh : u.handles = w.handles)
    (hn : u.nextHandle = w.nextHandle) (ho : o = [] ∨ ∃ a, o = [a] ∧ a.ev = .quiet) : Shows l w o u := by
  refine ⟨hj ▸ own, ?_⟩
  unfold World.reg
  rw [hj, hh, hn]
  rcases ho with rfl | ⟨a, rfl, ha⟩
  · rw [List.append_nil]
    exact .nil
  · exact .single (quiet_move ha (fun _ _ hx => hx))

theorem startClaim_shows (own : OwnFiles w.journal) (p : Nat) (q : Proc) (m : Message)
    (h : startClaim env w p q m = (u, o)) : Shows l w o u := by
  unfold startClaim at h
  split at h
  · cases h
    exact .same own rfl rfl rfl (.inr ⟨_, rfl, rfl⟩)
  · cases h
    exact .same own rfl rfl rfl (.inl rfl)

theorem finishClaim_shows (own : OwnFiles w.journal) (p : Nat) (q : Proc) (now : Int) (m : Message)
    (fault : ClaimFault) (never : w.journal.get m.commandId = none → Obs.removed m.commandId ∉ l)
    (h : finishClaim env w p q now m fault = (u, o)) : Shows l w o u := by
  have hs := claimLocked_spec env ⟨q.ownerId, (q.active.get m.commandId).isSome, q.maxReceipts⟩
    (w.ownerIsLive q now) now w.clock own m fault
  unfold finishClaim at h
  generalize claimLocked env ⟨q.ownerId, (q.active.get m.commandId).isSome, q.maxReceipts⟩
    (w.ownerIsLive q now) now w.clock w.journal m fault = s at hs h
  cases hs with
  | kept ids answer outdated =>
    cases h
    have ht := removed_trace (H := w.handles) (n := w.nextHandle) ids l w.journal
    simp only [Section.wrote, List.append_nil]
    exact ⟨OwnFiles.removeFiles ids own, quiet_last rfl ht⟩
  | created ids record opens answer outdated absent commandId expiresAt hopens =>
    have others := outdated.not_mem absent
    rw [← commandId] at absent others never
    have ht := created_trace (H := w.handles) (n := w.nextHandle) absent others (never absent) hopens p
    have hown := (OwnFiles.removeFiles ids own).set record
    rcases hopens with rfl | rfl
    · cases h
      exact ⟨hown, quiet_last rfl ht⟩
    · cases h
      exact ⟨hown, quiet_last rfl ht⟩
  | took current next opens answer hread continues live hstate hopens =>
    have hid : next.commandId = m.commandId := continues.commandId.trans (own _ _ hread)
    rw [← hid] at hread
    have ht := Trace.single
      (took_move (l := l) (H := w.handles) (n := w.nextHandle) hread continues live hstate hopens p)
    rcases hopens with rfl | rfl
    · cases h
      exact ⟨own.set next, quiet_last rfl ht⟩
    · cases h
      exact ⟨own.set next, quiet_last rfl ht⟩

theorem reply_quiet (op : Op) (h : Nat) (r : Except String Record) : (op.reply h r).ev = .quiet := by
  unfold Op.reply
  split <;> rfl

variable {h : Nat} {s t : World} {x : Handle} {id : String}

theorem performOp_shows (own : OwnFiles w.journal) (hx : w.handles.get h = some x) (q : Proc)
    (op : Op) (how : How Fault) (hst : performOp w h x q op how = (u, o)) : Shows l w o u := by
  unfold performOp at hst
  cases hreq : op.request x.record with
  | error e =>
    rw [hreq] at hst
    cases hst
    exact .same own rfl rfl rfl (.inr ⟨_, rfl, reply_quiet _ _ _⟩)
  | ok sp =>
    obtain ⟨state, patch⟩ := sp
    rw [hreq] at hst
    simp only at hst
    have hr := transition_spec q.ownerId w.clock w.journal x.record state patch how
    generalize transition q.ownerId w.clock w.journal x.record state patch how = r at hr hst
    cases hr with
    | threw e =>
      simp only at hst
      split at hst
      · cases hst
        exact .same own rfl rfl rfl (.inl rfl)
      · cases hst
        exact .same own rfl rfl rfl (.inr ⟨_, rfl, reply_quiet _ _ _⟩)
    | wrote current next result hread continues hstate hresult =>
      have hid : x.record.commandId = next.commandId := (own _ _ hread).symm.trans continues.commandId.symm
      rw [hid] at hread
      have hm : ∀ hs', hs' = w.handles ∨ hs' = w.handles.set h { x with record := next } →
          Trace (Move discipline) (w.reg l) [(Obs.wrote (.handle h) current next).ev]
            (reg (l ++ [.wrote (.handle h) current next]) (w.journal.set next.commandId (.valid next)) hs'
              w.nextHandle) :=
        fun hs' hhs => .single (wrote_move hx hread hid continues (.inl continues.revision_prior.symm) hhs)
      rcases hresult with rfl | ⟨e, rfl⟩
      · cases hst
        exact ⟨own.set next, quiet_last (reply_quiet _ _ _) (hm _ (.inr rfl))⟩
      · simp only at hst
        split at hst
        · cases hst
          exact ⟨own.set next, hm _ (.inl rfl)⟩
        · cases hst
          exact ⟨own.set next, quiet_last (reply_quiet _ _ _) (hm _ (.inl rfl))⟩

theorem recoverSteering_shows (own : OwnFiles w.journal) (hx : w.handles.get h = some x)
    (q : Proc) (error : String) (how : How Fault) (hst : recoverSteering w h x q error how = (u, o)) :
    Shows l w o u := by
  unfold recoverSteering at hst
  have hr := recoverUnsubmittedSteering_spec q.ownerId w.clock w.journal x.record how
  generalize recoverUnsubmittedSteering q.ownerId w.clock w.journal x.record how = r at hr hst
  cases hr with
  | kept result hnone =>
    simp only at hst
    cases hst
    exact .same own rfl rfl rfl (.inr ⟨_, rfl, rfl⟩)
  | wrote current next result hread continues hstate revision hresult =>
    have hid : x.record.commandId = next.commandId := (own _ _ hread).symm.trans continues.commandId.symm
    rw [hid] at hread
    have may : x.record.revision = current.revision ∨
        (x.record.revision + 1 = current.revision ∧ current.state = .started ∧ next.state ≠ .started) := by
      rcases revision with hr | ⟨hr, hs⟩
      · exact .inl hr.symm
      · exact .inr ⟨hr.symm, hs, by rw [hstate]; decide⟩
    have hm : ∀ hs', hs' = w.handles ∨ hs' = w.handles.set h { x with record := next } →
        Trace (Move discipline) (w.reg l) [(Obs.wrote (.handle h) current next).ev]
          (reg (l ++ [.wrote (.handle h) current next]) (w.journal.set next.commandId (.valid next)) hs'
            w.nextHandle) :=
      fun hs' hhs => .single (wrote_move hx hread hid continues may hhs)
    rcases hresult with rfl | ⟨e, rfl⟩
    · cases hst
      exact ⟨own.set next, quiet_last rfl (hm _ (.inr rfl))⟩
    · cases hst
      exact ⟨own.set next, quiet_last rfl (hm _ (.inl rfl))⟩

theorem pruneFile_shows (own : OwnFiles w.journal) (p : Nat) (q : Proc) (now : Int) (file : String)
    (files : List String) (fails : Bool) (hst : pruneFile w p q now file files fails = (u, o)) : Shows l w o u := by
  unfold pruneFile at hst
  simp only at hst
  split at hst
  · cases hst
    exact ⟨own.erase file, .single (remove_move file)⟩
  · cases hst
    exact .same own rfl rfl rfl (.inl rfl)

/-- **One step of the owners**, against the register. -/
theorem step_shows {e : Event} (own : OwnFiles w.journal) (hC : NotAgain l w e)
    (h : step env deadline w e = some (u, o)) : Shows l w o u := by
  cases e with
  | tick now =>
    simp only [step] at h
    split at h
    · cases h
      exact .same own rfl rfl rfl (.inl rfl)
    · cases h
  | boot p ownerId maxReceipts ownerStaleMs =>
    simp only [step] at h
    split at h
    · cases h
    · cases h
      exact .same own rfl rfl rfl (.inl rfl)
  | heartbeat p =>
    obtain ⟨q, -, heq⟩ := Option.map_eq_some_iff.1 h
    cases heq
    exact .same own rfl rfl rfl (.inl rfl)
  | abandon p =>
    obtain ⟨q, -, heq⟩ := Option.map_eq_some_iff.1 h
    cases heq
    exact .same own rfl rfl rfl (.inl rfl)
  | crash p =>
    simp only [step] at h
    split at h
    · cases h
    · cases h
      refine ⟨own, .single (quiet_move rfl (fun i x hx => ?_))⟩
      rw [OrdMap.get_filter, Option.filter_eq_some_iff] at hx
      exact hx.1
  | claim p m =>
    simp only [step] at h
    split at h
    · cases h
    split at h
    · split at h
      · exact startClaim_shows own p _ m (Option.some.inj h)
      · cases h
    · cases h
  | claimSection p how =>
    simp only [step] at h
    split at h
    · cases h
    rename_i q hq
    split at h
    · rename_i now m fault hdoing
      exact finishClaim_shows own p q now m fault (hC p fault q now m rfl hq hdoing) (Option.some.inj h)
    · cases h
      exact .same own rfl rfl rfl (.inr ⟨_, rfl, rfl⟩)
    · cases h
  | op i op how =>
    simp only [step] at h
    split at h
    · cases h
    rename_i x hx
    split at h
    · cases h
    rename_i q hq
    split at h
    · exact performOp_shows own hx q op how (Option.some.inj h)
    · cases h
  | recover p how =>
    simp only [step] at h
    split at h
    · cases h
    rename_i q hq
    split at h
    · obtain ⟨x, hx, heq⟩ := Option.map_eq_some_iff.1 h
      exact recoverSteering_shows own hx q _ how heq
    · cases h
  | prune p =>
    simp only [step] at h
    split at h
    · cases h
    split at h
    · cases h
      exact .same own rfl rfl rfl (.inl rfl)
    · cases h
  | pruneNext p fails =>
    simp only [step] at h
    split at h
    · cases h
    split at h
    · cases h
      exact .same own rfl rfl rfl (.inl rfl)
    · exact pruneFile_shows own p _ _ _ _ fails (Option.some.inj h)
    · cases h
  | recentUpdates p =>
    obtain ⟨q, -, heq⟩ := Option.map_eq_some_iff.1 h
    cases heq
    exact .same own rfl rfl rfl (.inr ⟨_, rfl, rfl⟩)

/-! ## Whole runs -/

/-- A world without handles, over any journal whose valid records lie under their own ids. -/
structure Start (w : World) : Prop where
  own : OwnFiles w.journal
  handles : w.handles = .empty

def Increases (l : List Obs) : Prop :=
  ∀ by_ prev next, Obs.wrote by_ prev next ∈ l → prev.revision < next.revision

/-- A history in which the handle `h` was opened on a command. -/
def Opened (commandId : String) (h : Nat) (l : List Obs) : Prop :=
  (∃ p r, Obs.created p (some h) r ∈ l ∧ r.commandId = commandId) ∨
    ∃ p prev next, Obs.wrote (.claim p (some h)) prev next ∈ l ∧ next.commandId = commandId

/-- A handle opened on a record before a claim took the record over never writes again. -/
def FencesOff (l : List Obs) : Prop :=
  ∀ l₁ l₂ l₃ p opened prev next h by_ prev' next',
    l = l₁ ++ .wrote (.claim p opened) prev next :: (l₂ ++ .wrote by_ prev' next' :: l₃) →
      Opened next.commandId h l₁ → by_ ≠ .handle h

/-- Between two handles' writes of `started` on one command lies a write that returned it to `queued`. -/
def StartsOnce (l : List Obs) : Prop :=
  ∀ l₁ l₂ l₃ h h' prev next prev' next',
    l = l₁ ++ .wrote (.handle h) prev next :: (l₂ ++ .wrote (.handle h') prev' next' :: l₃) → h' ≠ h →
      next'.commandId = next.commandId → next.state = .started → next'.state = .started →
        ∃ g q r, Obs.wrote (.handle g) q r ∈ l₂ ∧ r.commandId = next.commandId ∧ q.state = .started ∧ r.state = .queued

/-- A terminal record of `w` is gone or in its state in `u`. -/
def KeepsTerminal (w u : World) : Prop :=
  ∀ id r, read w.journal id = some r → isTerminal r.state = true →
    read u.journal id = none ∨ ∃ r', read u.journal id = some r' ∧ r'.state = r.state

theorem Start.inv {w : World} (h : Start w) : Fencing.Inv (w.reg []) := by
  have hnone : ∀ i, (w.reg []).token i = none := by
    intro i
    simp only [World.reg, reg, h.handles, OrdMap.get_empty, Option.map_none]
  refine ⟨fun i x hx => ?_, fun i k n hx => ?_, fun i i' k v _ hx _ => ?_⟩
  · rw [hnone] at hx; cases hx
  · rw [hnone] at hx; cases hx
  · rw [hnone] at hx; cases hx

/-- **The journal refines the register**, along every run in which no claim creates a removed command again. -/
theorem run_refines {l k : List Obs} (own : OwnFiles s.journal)
    (h : RunOn (fun m => NotAgain (l ++ m)) (step env deadline) s k t) :
    OwnFiles t.journal ∧ Trace (Move discipline) (s.reg l) (k.map Obs.ev) (t.reg (l ++ k)) := by
  have sim : ∀ m w e u o, OwnFiles w.journal → NotAgain (l ++ m) w e → step env deadline w e = some (u, o) →
      Trace (Move discipline) (w.reg (l ++ m)) (o.map Obs.ev) (u.reg (l ++ (m ++ o))) := by
    intro m w e u o own hC hst
    rw [← List.append_assoc]
    exact (step_shows own hC hst).trace
  have keep : ∀ m w e u o, OwnFiles w.journal → NotAgain (l ++ m) w e → step env deadline w e = some (u, o) →
      OwnFiles u.journal := fun m w e u o own hC hst => (step_shows own hC hst).own
  have hr := h.refines (fun m w => w.reg (l ++ m)) Obs.ev (fun _ w => OwnFiles w.journal) own keep sim
  rwa [List.append_nil] at hr

theorem increases_of_trace {l : List Obs} (h : Trace (Move discipline) (s.reg []) (l.map Obs.ev) (t.reg l)) : Increases l := by
  intro by_ prev next hmem
  have hev := Fencing.version_increases h _ (List.mem_map_of_mem hmem)
  cases by_ with
  | handle i => exact hev
  | claim p o => exact hev

theorem Opened.grants {l : List Obs} (ho : Opened id h l) : ∃ e ∈ l.map Obs.ev, e.grants id h := by
  rcases ho with ⟨p, r, hm, rfl⟩ | ⟨p, prev, next, hm, rfl⟩
  · exact ⟨_, List.mem_map_of_mem hm, rfl, rfl⟩
  · exact ⟨_, List.mem_map_of_mem hm, rfl, rfl⟩

theorem fencesOff_of_trace {l : List Obs} (hi : Fencing.Inv (s.reg []))
    (h : Trace (Move discipline) (s.reg []) (l.map Obs.ev) (t.reg l)) : FencesOff l := by
  rintro l₁ l₂ l₃ p opened prev next i by_ prev' next' rfl ho rfl
  simp only [List.map_append, List.map_cons] at h
  refine Fencing.taken_never_writes h hi next.commandId i _ _ _ _ _ rfl ⟨⟨_, _, _, rfl⟩, ho.grants⟩ ⟨_, _, _, rfl⟩

theorem leaves_returned {a : Obs} (h : Ev.leaves discipline id a.ev) :
    ∃ g q r, a = .wrote (.handle g) q r ∧ r.commandId = id ∧ q.state = .started ∧ r.state = .queued := by
  obtain ⟨g, old, new, heq, hex, hne, hnt, hallowed⟩ := h
  have key : ∀ q r : Record, Record.version q = old → Record.version r = new → q.state = .started ∧ r.state = .queued := by
    rintro q r rfl rfl
    refine ⟨hex, ?_⟩
    rcases hallowed with ha | ⟨-, hq⟩
    · have hst : q.state = .started := hex
      simp only [Record.version, hst] at ha
      rcases transitionAllowed_started ha with hs | ht
      · exact absurd hs hne
      · exact absurd ht hnt
    · exact hq
  cases a with
  | wrote by_ q r =>
    cases by_ with
    | handle i =>
      simp only [Obs.ev, Ev.write.injEq] at heq
      obtain ⟨rfl, rfl, hq, hr⟩ := heq
      obtain ⟨hs, hqd⟩ := key q r hq hr
      exact ⟨i, q, r, rfl, rfl, hs, hqd⟩
    | claim p o => cases heq
  | created => cases heq
  | removed => cases heq
  | claimed => cases heq
  | replied => cases heq
  | steered => cases heq
  | updates => cases heq
  | crashed => cases heq

theorem startsOnce_of_trace {l : List Obs} (hi : Fencing.Inv (s.reg []))
    (h : Trace (Move discipline) (s.reg []) (l.map Obs.ev) (t.reg l)) : StartsOnce l := by
  rintro l₁ l₂ l₃ i i' prev next prev' next' rfl hne hid hs hs'
  simp only [List.map_append, List.map_cons] at h
  have hwrite : (Obs.wrote (.handle i') prev' next').ev = .write next.commandId i' prev'.version next'.version := by
    rw [← hid]
    rfl
  obtain ⟨y, hy, hleaves⟩ := Fencing.exclusive_once h hi next.commandId i i' hne _ _ _ _ _ rfl
    ⟨prev.version, next.version, rfl, hs⟩ ⟨prev'.version, next'.version, hwrite, hs'⟩
  obtain ⟨a, ha, rfl⟩ := List.mem_map.1 hy
  obtain ⟨g, q, r, rfl, hrid, hq, hr⟩ := leaves_returned hleaves
  exact ⟨g, q, r, ha, hrid, hq, hr⟩

theorem keepsTerminal_of_trace {w u : World} {l k : List Obs}
    (h : Trace (Move discipline) (w.reg l) (k.map Obs.ev) (u.reg (l ++ k))) : KeepsTerminal w u := by
  intro id r hr ht
  have h0 : Fencing.Settled id r.state (w.reg l) := by
    refine .inl ⟨r.version, ?_, rfl⟩
    simp only [World.reg, reg, hr, Option.map_some]
  rcases Fencing.Settled.trace (D := discipline) ht h h0 with ⟨v, hv, hs⟩ | ⟨hn, -⟩
  · simp only [World.reg, reg, Option.map_eq_some_iff] at hv
    obtain ⟨r', hr', rfl⟩ := hv
    exact .inr ⟨r', hr', hs⟩
  · simp only [World.reg, reg, Option.map_eq_none_iff] at hn
    exact .inl hn

/-- **At most one submission per command** in every run without a removed command created again: revisions increase, and two
handles publish `started` only around a requeue. -/
theorem one_submission_while_not_again (env : Env) (deadline : String → Int) {s : World} (hs : Start s) {l : List Obs}
    {t : World} (h : RunOn NotAgain (step env deadline) s l t) :
    Increases l ∧ FencesOff l ∧ StartsOnce l ∧
      ∀ k u, RunOn (fun m => NotAgain (l ++ m)) (step env deadline) t k u → KeepsTerminal t u := by
  obtain ⟨own, htr⟩ := run_refines (l := []) hs.own h
  refine ⟨increases_of_trace htr, fencesOff_of_trace hs.inv htr, startsOnce_of_trace hs.inv htr, fun k u hk => ?_⟩
  exact keepsTerminal_of_trace (run_refines own hk).2

def sampleEnv : Env where
  isDurableSessionCommandMessage _ := true
  sha256 _ := "ce650338849f26a7a095905a2511186d445c9298f0d9967faf38cca5970e26c8"
  hmac _ := "0dacd8c6a4a29986158fa5c1417a7da91b93d9109d36443b73af33ea69d650a5"

def samplePrompt : Message where
  commandId := "c1"
  executionId := "x1"
  payloadDigest := "ce650338849f26a7a095905a2511186d445c9298f0d9967faf38cca5970e26c8"
  expiresAt := 100
  command := ⟨.promptSession, "s1", "\x7b\"sessionId\":\"s1\",\"text\":\"hi\",\"type\":\"prompt_session\"\x7d"⟩

def emptyWorld : World := ⟨0, .empty, .empty, .empty, .empty, 0⟩

def firstRecord : Record := newRecord sampleEnv "a" samplePrompt 50
def firstStarted : Record := { firstRecord with state := .started, revision := 2, steeringPending := some false }

theorem emptyWorld_start : Start emptyWorld := by
  constructor
  · intro id r hr
    cases hr
  · rfl

theorem notAgain_of_no_removed {l : List Obs} (h : Run (step env deadline) s l t)
    (hno : ∀ id, Obs.removed id ∉ l) : RunOn NotAgain (step env deadline) s l t :=
  h.meeting (fun _ _ _ hk _ _ _ _ m _ _ _ _ hid => hno m.commandId (hk.subset hid))

theorem one_submission_while_not_again_sample :
    ∃ l, .wrote (.handle 0) firstRecord firstStarted ∈ l ∧ Increases l ∧ FencesOff l ∧ StartsOnce l := by
  obtain ⟨t, h⟩ := replay_obs (step sampleEnv (fun _ => 100)) emptyWorld
    [.boot 0 "a" 10000 60000, .tick 50, .claim 0 samplePrompt, .claimSection 0 (.runs {}),
      .op 0 (.started none) (.runs .ok)]
    [.created 0 (some 0) firstRecord, .claimed 0 (.ok (.new (receipt firstRecord false))),
      .wrote (.handle 0) firstRecord firstStarted, .replied 0 (.ok (receipt firstStarted false))] (by decide +kernel)
  have hrun := notAgain_of_no_removed h (by simp)
  obtain ⟨hinc, hfences, hstarts, -⟩ :=
    one_submission_while_not_again sampleEnv (fun _ => 100) emptyWorld_start hrun
  exact ⟨_, by simp, hinc, hfences, hstarts⟩

def lateRecord : Record := newRecord sampleEnv "b" samplePrompt 99
def lateStarted : Record :=
  { lateRecord with state := .started, revision := 2, updatedAt := 101, steeringPending := some false }

/-- Two owners; the first prunes while the second stands between its clock reading and the command lock. -/
def lateClaim : List Event :=
  [.boot 0 "a" 10000 60000, .boot 1 "b" 10000 60000, .tick 50, .claim 0 samplePrompt, .claimSection 0 (.runs {}),
    .op 0 (.started none) (.runs .ok), .tick 99, .claim 1 samplePrompt, .tick 101, .prune 0, .pruneNext 0 false,
    .claimSection 1 (.runs {}), .op 1 (.started none) (.runs .ok)]

/-- **The prompt is submitted twice** by owners that all received it before its deadline. -/
theorem submitted_twice : ∃ l t, Run (step sampleEnv (fun _ => 100)) emptyWorld l t ∧ Start emptyWorld ∧ ¬ StartsOnce l := by
  obtain ⟨t, h⟩ := replay_obs (step sampleEnv (fun _ => 100)) emptyWorld lateClaim
    ([.created 0 (some 0) firstRecord, .claimed 0 (.ok (.new (receipt firstRecord false)))] ++
      .wrote (.handle 0) firstRecord firstStarted ::
        ([.replied 0 (.ok (receipt firstStarted false)), .removed "c1", .created 1 (some 1) lateRecord,
          .claimed 1 (.ok (.new (receipt lateRecord false)))] ++
        .wrote (.handle 1) lateRecord lateStarted :: [.replied 1 (.ok (receipt lateStarted false))])) (by decide +kernel)
  refine ⟨_, t, h, emptyWorld_start, fun hs => ?_⟩
  obtain ⟨g, q, r, hmem, -⟩ := hs _ _ _ 0 1 _ _ _ _ rfl (by decide) rfl rfl rfl
  simp at hmem

end Durable
end Wollipog
