import Wollipog.Lib.Transaction
/-!
# Events — one batch of a prune of workflow events

The instances, their runs and the ownerships are given; a batch changes `workflow_events` and `workflow_event_prunes`, which are
held by their instance.  A statement that throws takes the whole batch back.
-/
namespace Wollipog.Retention

inductive InstanceStatus
  | queued | running | waitingGate | succeeded | failed | stopped
  deriving DecidableEq

/-- A row of `multi_agent_runs`. -/
structure Run where
  runnerId : Option String
  workspaceId : Option String
  deriving DecidableEq

/-- A row of `workflow_instances`, with the run that its `run_id` references. -/
structure Instance where
  instanceId : String
  run : Run
  status : InstanceStatus
  completedAt : Option Int
  deriving DecidableEq

structure Catalog where
  instances : List Instance
  workspaceOwnership : List ((String × String) × String)
  runnerOwnership : List (String × String)
  nodup : (instances.map Instance.instanceId).Nodup

/-- A row of `workflow_events`. -/
structure Event where
  seq : Nat
  detail : Option String
  deriving DecidableEq

/-- A row of `workflow_event_prunes`. -/
structure Prune where
  prunedAt : Int
  eventCount : Nat
  retentionDays : Nat
  throughSeq : Nat
  deriving DecidableEq

structure Store where
  events : String → List Event
  prunes : String → Option Prune
  unique : ∀ instanceId, ((events instanceId).map Event.seq).Nodup

structure WorkflowRetentionCursor where
  completedAt : Int
  instanceId : String
  deriving DecidableEq

/-- `(completed_at,instance_id)` -/
def WorkflowRetentionCursor.key (cursor : WorkflowRetentionCursor) : Int ×ₗ String := toLex (cursor.completedAt, cursor.instanceId)

namespace Instance

def terminal (i : Instance) : Bool := i.status == .succeeded || i.status == .failed || i.status == .stopped

/-- The cursor at an instance that has completed. -/
def cursor (i : Instance) : WorkflowRetentionCursor := ⟨i.completedAt.getD 0, i.instanceId⟩

def completedBefore (i : Instance) (cutoff : Int) : Bool := i.terminal && i.completedAt.any (fun at' => decide (at' < cutoff))

/-- `(completed_at,instance_id)>(?,?)` -/
def follows (i : Instance) (cursor : Option WorkflowRetentionCursor) : Bool := cursor.all (fun at' => decide (at'.key < i.cursor.key))

end Instance

/-- `COALESCE(w.organization_id,o.organization_id)` -/
def Catalog.organizationId (c : Catalog) (run : Run) : Option String :=
  ((c.workspaceOwnership.find? (fun w => decide (run.runnerId = some w.1.1 ∧ run.workspaceId = some w.1.2))).map Prod.snd).or
    ((c.runnerOwnership.find? (fun o => decide (run.runnerId = some o.1))).map Prod.snd)

/-- What the batches of a chain share. -/
structure Pass where
  catalog : Catalog
  organizationId : String
  cutoff : Int

namespace Pass

def owned (p : Pass) (i : Instance) : Bool := p.catalog.organizationId i.run == some p.organizationId

/-- The instances that a page starts with, in its order. -/
def beyond (p : Pass) (cursor : Option WorkflowRetentionCursor) : List Instance :=
  (p.catalog.instances.filter (fun i => i.completedBefore p.cutoff && i.follows cursor)).insertionSort
    (fun a b => a.cursor.key ≤ b.cursor.key)

def page (p : Pass) (cursor : Option WorkflowRetentionCursor) : List Instance := (p.beyond cursor).take 50

end Pass

/-- `COALESCE(length(CAST(detail AS BLOB)),0)` -/
def Event.bytes (e : Event) : Nat := (e.detail.map String.utf8ByteSize).getD 0

def through (seq : Nat) (events : List Event) : List Event := events.filter (fun e => decide (e.seq ≤ seq))

def after (seq : Nat) (events : List Event) : List Event := events.filter (fun e => decide (seq < e.seq))

namespace Store

def hasEvents (s : Store) (instanceId : String) : Bool := !(s.events instanceId).isEmpty

/-- `ELIGIBLE` -/
def eligible (s : Store) (p : Pass) : List Instance :=
  p.catalog.instances.filter (fun i => i.completedBefore p.cutoff && p.owned i && s.hasEvents i.instanceId)

structure Counts where
  instances : Nat
  events : Nat
  deriving DecidableEq

def counts (s : Store) (p : Pass) : Counts :=
  ⟨(s.eligible p).length, ((s.eligible p).map (fun i => (s.events i.instanceId).length)).sum⟩

/-- `ORDER BY seq LIMIT ?` -/
def rows (s : Store) (instanceId : String) (maxEvents : Nat) : List Event :=
  ((s.events instanceId).insertionSort (fun a b => a.seq ≤ b.seq)).take maxEvents

/-- `DELETE FROM workflow_events WHERE instance_id=? AND seq<=?` -/
def delete (s : Store) (instanceId : String) (seq : Nat) : Store where
  events := Function.update s.events instanceId (after seq (s.events instanceId))
  prunes := s.prunes
  unique := by
    intro j
    by_cases hj : j = instanceId
    · rw [hj, Function.update_self]
      exact (s.unique instanceId).sublist (List.filter_sublist.map _)
    · rw [Function.update_of_ne hj]
      exact s.unique j

def upsert (s : Store) (instanceId : String) (now : Int) (eventCount retentionDays throughSeq : Nat) : Store :=
  { s with prunes := Function.update s.prunes instanceId (some (match s.prunes instanceId with
      | none => ⟨now, eventCount, retentionDays, throughSeq⟩
      | some old => ⟨now, old.eventCount + eventCount, retentionDays, max old.throughSeq throughSeq⟩)) }

end Store

/-- The events that one batch takes, with their bytes. -/
def select (maxBytes : Nat) : List Event → Nat → List Event → List Event × Nat
  | selected, bytes, [] => (selected, bytes)
  | selected, bytes, row :: rows =>
    if selected.length ≠ 0 ∧ maxBytes < bytes + row.bytes then (selected, bytes)
    else select maxBytes (selected ++ [row]) (bytes + row.bytes) rows

inductive Statement
  | begin | page | rows | delete | insert | remaining | commit
  deriving DecidableEq

/-- The further arguments of a batch, and which statements throw in it. -/
structure Call where
  retentionDays : Nat
  now : Int
  maxEvents : Nat
  maxBytes : Nat
  positive : 0 < maxEvents ∧ 0 < maxBytes
  throws : Statement → Option String := fun _ => none

structure Batch where
  instanceId : Option String
  removed : Nat
  bytes : Nat
  cursor : Option WorkflowRetentionCursor
  finished : Bool
  deriving DecidableEq

def pruneBatch (p : Pass) (call : Call) (cursor : Option WorkflowRetentionCursor) : Tx Store String Batch := Tx.atomic do
  Tx.refuseIf (call.throws .begin)
  Tx.refuseIf (call.throws .page)
  let s ← Tx.read
  let page := p.page cursor
  match page.find? (fun row => p.owned row && s.hasEvents row.instanceId) with
  | none =>
    Tx.refuseIf (call.throws .commit)
    pure ⟨none, 0, 0, (page.getLast?.map Instance.cursor).or cursor, decide (page.length < 50)⟩
  | some candidate =>
    Tx.refuseIf (call.throws .rows)
    let (selected, bytes) := select call.maxBytes [] 0 (s.rows candidate.instanceId call.maxEvents)
    match selected.getLast? with
    | none => Tx.refuse "Cannot read properties of undefined (reading 'seq')"
    | some last =>
      Tx.refuseIf (call.throws .delete)
      Tx.write (fun s => s.delete candidate.instanceId last.seq)
      Tx.refuseIf (call.throws .insert)
      Tx.write (fun s => s.upsert candidate.instanceId call.now selected.length call.retentionDays last.seq)
      Tx.refuseIf (call.throws .remaining)
      let remaining ← Tx.read
      Tx.refuseIf (call.throws .commit)
      pure ⟨some candidate.instanceId, selected.length, bytes,
        if remaining.hasEvents candidate.instanceId then cursor else some candidate.cursor, false⟩

variable {p : Pass} {call : Call} {cursor : Option WorkflowRetentionCursor} {s t u : Store} {b : Batch} {k : String}

theorem not_hasEvents : s.hasEvents k ≠ true ↔ s.events k = [] := by
  unfold Store.hasEvents
  rw [ne_eq, Bool.not_eq_true', Bool.not_eq_false, List.isEmpty_iff]

/-- **The events that are taken** come first of the rows; past the limit it is one row. -/
theorem select_spec {maxBytes : Nat} : ∀ {rows selected : List Event} {bytes : Nat}, bytes ≤ maxBytes ∨ selected.length ≤ 1 →
    ∃ more rest, rows = more ++ rest ∧ (select maxBytes selected bytes rows).1 = selected ++ more ∧
      ((select maxBytes selected bytes rows).2 ≤ maxBytes ∨ (selected ++ more).length ≤ 1) ∧
      (selected = [] → rows ≠ [] → more ≠ [])
  | [], selected, bytes, h => ⟨[], [], rfl, (List.append_nil _).symm, by rwa [List.append_nil], fun _ hne => absurd rfl hne⟩
  | row :: rows, selected, bytes, h => by
    rw [select]
    split
    · rename_i hstop
      refine ⟨[], row :: rows, rfl, (List.append_nil _).symm, by rwa [List.append_nil], fun hnil => ?_⟩
      exact absurd (by rw [hnil]; rfl) hstop.1
    · rename_i hgo
      have hnext : bytes + row.bytes ≤ maxBytes ∨ (selected ++ [row]).length ≤ 1 := by
        rw [List.length_append, List.length_singleton]
        omega
      obtain ⟨more, rest, hrows, hselected, hlimit, -⟩ := select_spec hnext
      rw [List.append_assoc] at hselected hlimit
      exact ⟨row :: more, rest, by rw [hrows]; rfl, hselected, hlimit, fun _ _ => List.cons_ne_nil _ _⟩

/-- The rows of a sorted list up to one of them are those before it. -/
theorem through_append {more rest : List Event} {last : Event} (h : (more ++ rest).Pairwise (fun a b => a.seq < b.seq))
    (hlast : more.getLast? = some last) : through last.seq (more ++ rest) = more := by
  obtain ⟨init, rfl⟩ := List.getLast?_eq_some_iff.1 hlast
  obtain ⟨hmore, -, hrest⟩ := List.pairwise_append.1 h
  obtain ⟨-, -, hinit⟩ := List.pairwise_append.1 hmore
  rw [through, List.filter_append, List.filter_eq_self.2, List.filter_eq_nil_iff.2, List.append_nil]
  · intro e he
    rw [decide_eq_true_eq, Nat.not_le]
    exact hrest last List.mem_append_cons_self e he
  · intro e he
    rw [decide_eq_true_eq]
    rcases List.mem_append.1 he with he | he
    · exact Nat.le_of_lt (hinit e he last List.mem_cons_self)
    · rw [List.mem_singleton.1 he]

/-- What a batch takes of an instance: the events through `last`, more than the byte limit only as one. -/
structure Taken (s : Store) (k : String) (maxBytes : Nat) (taken : List Event × Nat) (last : Event) : Prop where
  getLast : taken.1.getLast? = some last
  mem : last ∈ s.events k
  removed : taken.1.length = (through last.seq (s.events k)).length
  limit : maxBytes < taken.2 → taken.1.length = 1

theorem taken_of_hasEvents (h : s.hasEvents k = true) (call : Call) :
    ∃ last, Taken s k call.maxBytes (select call.maxBytes [] 0 (s.rows k call.maxEvents)) last := by
  have hperm := List.perm_insertionSort (fun a b : Event => a.seq ≤ b.seq) (s.events k)
  have hle := List.pairwise_insertionSort (fun a b : Event => a.seq ≤ b.seq) (s.events k)
  have hrows : s.rows k call.maxEvents ++ ((s.events k).insertionSort (fun a b => a.seq ≤ b.seq)).drop call.maxEvents =
      (s.events k).insertionSort (fun a b => a.seq ≤ b.seq) := List.take_append_drop _ _
  have hne : s.rows k call.maxEvents ≠ [] := by
    unfold Store.rows
    rw [ne_eq, List.take_eq_nil_iff, not_or]
    refine ⟨Nat.ne_of_gt call.positive.1, fun hnil => ?_⟩
    rw [hnil, List.nil_perm] at hperm
    exact not_hasEvents.2 hperm h
  generalize (s.events k).insertionSort (fun a b => a.seq ≤ b.seq) = sorted at hperm hle hrows
  have hsorted : sorted.Pairwise (fun a b => a.seq < b.seq) := by
    have hdistinct : sorted.Pairwise (fun a b => a.seq ≠ b.seq) := List.pairwise_map.1 ((hperm.map Event.seq).nodup_iff.2 (s.unique k))
    exact (hle.and hdistinct).imp (fun hab => lt_of_le_of_ne hab.1 hab.2)
  obtain ⟨more, rest, hsplit, hselected, hlimit, hmore⟩ :=
    @select_spec call.maxBytes (s.rows k call.maxEvents) [] 0 (.inl (Nat.zero_le _))
  have hmore := hmore rfl hne
  have hlast := List.getLast?_eq_getLast_of_ne_nil hmore
  rw [List.nil_append] at hselected hlimit
  rw [hsplit, List.append_assoc] at hrows
  rw [← hrows] at hperm hsorted
  refine ⟨more.getLast hmore, hselected ▸ hlast, hperm.mem_iff.1 (List.mem_append_left _ (List.getLast_mem hmore)), ?_, fun hover => ?_⟩
  · rw [through, ← (hperm.filter _).length_eq, hselected]
    exact congrArg List.length (through_append hsorted hlast).symm
  · have hpos := List.length_pos_iff.2 hmore
    rw [hselected]
    omega

/-- A batch that removes the events of the instance `i` through `last`. -/
structure Removes (p : Pass) (call : Call) (cursor : Option WorkflowRetentionCursor) (s t : Store) (b : Batch) (i : Instance) (last : Event) :
    Prop where
  page : ∃ pre post, p.page cursor = pre ++ i :: post ∧ ∀ j ∈ pre, p.owned j = true → s.events j.instanceId = []
  owned : p.owned i = true
  mem : last ∈ s.events i.instanceId
  instanceId : b.instanceId = some i.instanceId
  removed : b.removed = (through last.seq (s.events i.instanceId)).length
  store : t = (s.delete i.instanceId last.seq).upsert i.instanceId call.now b.removed call.retentionDays last.seq
  cursor : b.cursor = if t.hasEvents i.instanceId then cursor else some i.cursor
  finished : b.finished = false
  limit : call.maxBytes < b.bytes → b.removed = 1

/-- A batch that finds no instance on its page. -/
structure Skips (p : Pass) (cursor : Option WorkflowRetentionCursor) (s t : Store) (b : Batch) : Prop where
  skipped : ∀ j ∈ p.page cursor, p.owned j = true → s.events j.instanceId = []
  store : t = s
  answer : b = ⟨none, 0, 0, ((p.page cursor).getLast?.map Instance.cursor).or cursor, decide ((p.page cursor).length < 50)⟩

/-- **What a batch that answers did.** -/
theorem pruneBatch_cases (h : pruneBatch p call cursor s = (.ok b, t)) :
    Skips p cursor s t b ∨ ∃ i last, Removes p call cursor s t b i last := by
  rw [pruneBatch, Tx.atomic_ok, Tx.bind_refuseIf_ok, Tx.bind_refuseIf_ok, Tx.bind_read_ok] at h
  obtain ⟨-, -, h⟩ := h
  cases hfind : (p.page cursor).find? (fun row => p.owned row && s.hasEvents row.instanceId) with
  | none =>
    simp only [hfind] at h
    obtain ⟨-, h⟩ := Tx.bind_refuseIf_ok.1 h
    obtain ⟨rfl, rfl⟩ := Tx.pure_ok.1 h
    refine .inl ⟨fun j hj howned => ?_, rfl, rfl⟩
    have hno := List.find?_eq_none.1 hfind j hj
    rw [howned, Bool.true_and] at hno
    exact not_hasEvents.1 hno
  | some i =>
    obtain ⟨hi, pre, post, hpage, hpre⟩ := List.find?_eq_some_iff_append.1 hfind
    rw [Bool.and_eq_true] at hi
    obtain ⟨last, htaken⟩ := taken_of_hasEvents hi.2 call
    simp only [hfind, htaken.getLast] at h
    rw [Tx.bind_refuseIf_ok, Tx.bind_refuseIf_ok, Tx.bind_write_ok, Tx.bind_refuseIf_ok, Tx.bind_write_ok, Tx.bind_refuseIf_ok,
      Tx.bind_read_ok, Tx.bind_refuseIf_ok, Tx.pure_ok] at h
    obtain ⟨-, -, -, -, -, rfl, rfl⟩ := h
    refine .inr ⟨i, last, ⟨pre, post, hpage, fun j hj howned => ?_⟩, hi.1, htaken.mem, rfl, htaken.removed, rfl, rfl, rfl, htaken.limit⟩
    have hno := hpre j hj
    rw [howned, Bool.true_and, Bool.not_eq_true', ← Bool.not_eq_true] at hno
    exact not_hasEvents.1 hno

/-- **A batch answers** where no statement throws. -/
theorem pruneBatch_answers (hthrows : call.throws = fun _ => none) : ∃ b t, pruneBatch p call cursor s = (.ok b, t) := by
  simp only [pruneBatch, hthrows, Tx.atomic_ok, Tx.bind_refuseIf_ok, Tx.bind_read_ok, true_and]
  cases hfind : (p.page cursor).find? (fun row => p.owned row && s.hasEvents row.instanceId) with
  | none =>
    simp only [Tx.bind_refuseIf_ok, Tx.pure_ok, true_and]
    exact ⟨_, _, rfl, rfl⟩
  | some i =>
    have hi := List.find?_some hfind
    rw [Bool.and_eq_true] at hi
    obtain ⟨last, htaken⟩ := taken_of_hasEvents hi.2 call
    simp only [htaken.getLast, Tx.bind_refuseIf_ok, Tx.bind_read_ok, Tx.bind_write_ok, Tx.pure_ok, true_and]
    exact ⟨_, _, rfl, rfl⟩

end Wollipog.Retention
