import Wollipog.Claude.Accounting
import Wollipog.Lib.Run
import Wollipog.Lib.Totals
/-!
# Billing — what is accounted, and how a window of live requests closes

Where totals are cumulative, what is accounted of them is what the baseline rose by.
-/
namespace Wollipog.Claude

open ClaudeUsageAccounting

/-- What is done to an accounting; `assign` is the driver's setting of the baseline. -/
inductive Operation
  | beginProcess (newConversation : Bool)
  | confirmProcess (sessionId : String) (version : Option String)
  | adoptBaseline (checkpoint : Option ClaudeUsageCheckpoint)
  | assign (checkpoint : Option ClaudeUsageCheckpoint)
  | request (usage : ClaudeRequestUsage)
  | result (sessionId : String) (result : RawResult) (model : Option String)

def perform (a : ClaudeUsageAccounting) : Operation → ClaudeUsageAccounting × List UsageEvent
  | .beginProcess newConversation => (a.beginProcess newConversation, [])
  | .confirmProcess sessionId version => a.confirmProcess sessionId version
  | .adoptBaseline checkpoint => a.adoptBaseline checkpoint
  | .assign checkpoint => ({ a with checkpoint := checkpoint }, [])
  | .request usage => a.request usage
  | .result sessionId result model => a.result sessionId result model

abbrev Performed := Operation × List UsageEvent

def step (a : ClaudeUsageAccounting) (op : Operation) : Option (ClaudeUsageAccounting × List Performed) :=
  some ((perform a op).1, [(op, (perform a op).2)])

def emitted (l : List Performed) : List UsageEvent := l.flatMap Prod.snd

theorem emitted_append (l k : List Performed) : emitted (l ++ k) = emitted l ++ emitted k := List.flatMap_append

/-! ## Windows -/

structure Windows where
  closed : List (List UsageEvent)
  open_ : List UsageEvent

def Windows.see (w : Windows) (event : UsageEvent) : Windows :=
  match event.liveUsage with
  | some .provisional => { w with open_ := w.open_ ++ [event] }
  | some .settled => ⟨w.closed ++ [w.open_], []⟩
  | _ => w

def windows (live : List UsageEvent) (events : List UsageEvent) : Windows := events.foldl Windows.see ⟨[], live⟩

def isProvisional (event : UsageEvent) : Bool := decide (event.liveUsage = some .provisional)

/-- **Each request stands in one window**, closed or open, in the order they were published. -/
theorem windows_flatten (live events : List UsageEvent) :
    (windows live events).closed.flatten ++ (windows live events).open_ = live ++ events.filter isProvisional := by
  have hgeneral : ∀ (events : List UsageEvent) (w : Windows),
      (events.foldl Windows.see w).closed.flatten ++ (events.foldl Windows.see w).open_ =
        w.closed.flatten ++ w.open_ ++ events.filter isProvisional := by
    intro events
    induction events with
    | nil =>
      intro w
      rw [List.filter_nil, List.append_nil]
      rfl
    | cons event events ih =>
      intro w
      rw [List.foldl_cons, ih]
      have hnot : event.liveUsage ≠ some .provisional → (event :: events).filter isProvisional = events.filter isProvisional :=
        fun hne => List.filter_cons_of_neg (by rwa [isProvisional, decide_eq_true_eq])
      cases hlive : event.liveUsage with
      | none =>
        rw [hnot (by rw [hlive]; rintro ⟨⟩)]
        unfold Windows.see
        rw [hlive]
      | some kind =>
        cases kind with
        | provisional =>
          have hyes : isProvisional event = true := decide_eq_true hlive
          rw [List.filter_cons_of_pos hyes]
          unfold Windows.see
          rw [hlive]
          simp only [List.append_assoc, List.singleton_append]
        | republished =>
          rw [hnot (by rw [hlive]; rintro ⟨⟩)]
          unfold Windows.see
          rw [hlive]
        | settled =>
          rw [hnot (by rw [hlive]; rintro ⟨⟩)]
          unfold Windows.see
          rw [hlive]
          simp only [List.flatten_append, List.flatten_cons, List.flatten_nil, List.append_nil]
  exact hgeneral events ⟨[], live⟩

theorem windows_append (live a b : List UsageEvent) : windows live (a ++ b) = b.foldl Windows.see (windows live a) := List.foldl_append

def Plain (events : List UsageEvent) : Prop := ∀ e ∈ events, e.liveUsage = none ∨ e.liveUsage = some .republished

variable {events : List UsageEvent}

theorem see_plain (h : Plain events) (w : Windows) : events.foldl Windows.see w = w := by
  induction events with
  | nil => rfl
  | cons e events ih =>
    have hsame : w.see e = w := by
      unfold Windows.see
      rcases h e List.mem_cons_self with he | he
      · rw [he]
      · rw [he]
    rw [List.foldl_cons, hsame]
    exact ih (fun x hx => h x (List.mem_cons_of_mem e hx))

/-- **Closing** closes the open window. -/
theorem see_close (h : Plain events) (w : Windows) : (close events).foldl Windows.see w = ⟨w.closed ++ [w.open_], []⟩ := by
  induction events with
  | nil => rfl
  | cons e events ih =>
    cases events with
    | nil => rfl
    | cons e' events =>
      have hsame : w.see e = w := by
        have hone : Plain [e] := by
          intro x hx
          rw [List.mem_singleton] at hx
          rw [hx]
          exact h e List.mem_cons_self
        exact see_plain hone w
      have hclose : close (e :: e' :: events) = e :: close (e' :: events) := rfl
      rw [hclose, List.foldl_cons, hsame]
      exact ih (fun x hx => h x (List.mem_cons_of_mem e hx))

/-- What an operation does to the window `live`: nothing, or a request more, or the window is closed. -/
inductive Handles (op : Operation) (live : List UsageEvent) : List UsageEvent → List UsageEvent → Prop
  | nothing {events : List UsageEvent} (plain : ∀ e ∈ events, e.liveUsage = none) : Handles op live live events
  | published {event : UsageEvent} (provisional : event.liveUsage = some .provisional) : Handles op live (live ++ [event]) [event]
  | settled {sessionId : String} {result : RawResult} {model : Option String} {total : ℚ} {events : List UsageEvent}
      (open_ : live ≠ []) (isResult : op = .result sessionId result model) (hasTotal : cost result.totalCostUsd = some total)
      (plain : ∀ e ∈ events, e.liveUsage = none) : Handles op live [] (close events)
  | republished (open_ : live ≠ []) : Handles op live [] (close (live.map republish))
  | uncertain (open_ : live ≠ []) : Handles op live [] (close (live.map republish ++ [incomplete]))

variable {a : ClaudeUsageAccounting}

theorem live_cases (a : ClaudeUsageAccounting) : a.live = [] ∨ (a.live ≠ [] ∧ a.live.isEmpty = false) := by
  cases a.live with
  | nil => exact .inl rfl
  | cons e events => exact .inr ⟨List.cons_ne_nil _ _, rfl⟩

theorem handles_settle (op : Operation) (a : ClaudeUsageAccounting)
    (hclose : a.live ≠ [] → Handles op a.live [] (close events)) (hplain : a.live = [] → ∀ e ∈ events, e.liveUsage = none) :
    Handles op a.live (a.settle events).1.live (a.settle events).2 := by
  unfold settle
  rcases live_cases a with hnil | ⟨hne, hempty⟩
  · rw [if_pos (by rw [hnil]; rfl)]
    exact .nothing (hplain hnil)
  · rw [if_neg (by rw [hempty]; exact Bool.false_ne_true)]
    exact hclose hne

theorem handles_accountLive (op : Operation) (a : ClaudeUsageAccounting) : Handles op a.live a.accountLive.1.live a.accountLive.2 := by
  apply handles_settle op a .republished
  intro hnil
  rw [hnil]
  exact List.forall_mem_nil _

theorem handles_uncertain (op : Operation) (a : ClaudeUsageAccounting) : Handles op a.live a.uncertain.1.live a.uncertain.2 := by
  apply handles_settle op a .uncertain
  intro hnil
  rw [hnil]
  intro e he
  rw [List.map_nil, List.nil_append, List.mem_singleton] at he
  rw [he]
  rfl

variable {sessionId : String} {result : RawResult} {l : List Performed} {next : ClaudeUsageCheckpoint}
  {before : OrdMap String ModelUsage} {previous : Option ClaudeUsageCheckpoint} {entries : List (String × Option RawModelUsage)}

theorem deltaEvents_plain {next : OrdMap String ModelUsage} : ∀ e ∈ deltaEvents next previous, e.liveUsage = none := by
  intro e he
  obtain ⟨entry, -, hevent⟩ := List.mem_filterMap.1 he
  unfold deltaEvent at hevent
  split at hevent
  · cases hevent
  · cases hevent
    rfl

theorem resultEvents_plain {model : Option String} : ∀ e ∈ a.resultEvents sessionId result model next, e.liveUsage = none := by
  intro e he
  unfold resultEvents at he
  split at he
  · rw [List.mem_singleton.1 he]
    rfl
  · rcases List.mem_append.1 he with he | he
    · exact deltaEvents_plain e he
    · unfold feeEvents at he
      split at he
      · rw [List.mem_singleton.1 he]
        rfl
      · cases he

theorem handles_result (sessionId : String) (result : RawResult) (model : Option String) :
    Handles (.result sessionId result model) a.live (a.result sessionId result model).1.live (a.result sessionId result model).2 := by
  unfold ClaudeUsageAccounting.result
  split
  · refine .nothing (fun e he => ?_)
    rw [List.mem_singleton.1 he]
    rfl
  · split
    · refine .nothing (fun e he => ?_)
      rw [List.mem_singleton.1 he]
      rfl
    · rename_i next hnext
      obtain ⟨total, htotal, -⟩ := Option.map_eq_some_iff.1 hnext
      split
      · exact handles_uncertain _ { a with unproven := false, unprobed := false, checkpoint := some next }
      · split
        · exact .nothing (List.forall_mem_nil _)
        · split
          · exact handles_uncertain _ { a with checkpoint := some next, unprobed := false }
          · exact handles_settle _ { a with checkpoint := some next, unprobed := false } (fun hne => .settled hne rfl htotal resultEvents_plain)
              (fun _ => resultEvents_plain)

/-- **Every operation** does one of these to the window. -/
theorem handles_perform (a : ClaudeUsageAccounting) (op : Operation) : Handles op a.live (perform a op).1.live (perform a op).2 := by
  have hquiet : Handles op a.live a.live [] := .nothing (List.forall_mem_nil _)
  cases op with
  | beginProcess newConversation => exact hquiet
  | assign checkpoint => exact hquiet
  | confirmProcess sessionId version =>
    unfold perform ClaudeUsageAccounting.confirmProcess
    simp only
    split
    · exact hquiet
    · split
      · exact handles_accountLive _ { a with pending := none, restoresUsage := some false, checkpoint := none, unproven := false, unprobed := false }
      · split
        · exact hquiet
        · split
          · exact hquiet
          · split
            · exact hquiet
            · exact hquiet
  | adoptBaseline checkpoint =>
    unfold perform ClaudeUsageAccounting.adoptBaseline
    simp only
    split
    · exact handles_accountLive _ { a with checkpoint := checkpoint, unproven := false, unprobed := false }
    · exact handles_accountLive _ { a with checkpoint := checkpoint }
  | request usage =>
    unfold perform ClaudeUsageAccounting.request
    simp only
    split
    · exact hquiet
    · exact .published rfl
  | result sessionId result model => exact handles_result sessionId result model

theorem Handles.windows {op : Operation} {live live' events : List UsageEvent} (h : Handles op live live' events) (w : Windows)
    (hopen : w.open_ = live) : (events.foldl Windows.see w).open_ = live' := by
  have hrepublished : Plain (live.map republish) := by
    intro e he
    obtain ⟨x, -, rfl⟩ := List.mem_map.1 he
    exact .inr rfl
  cases h with
  | nothing plain => rw [see_plain (fun e he => .inl (plain e he)), hopen]
  | published provisional =>
    rename_i event
    have hsee : w.see event = { w with open_ := w.open_ ++ [event] } := by
      unfold Windows.see
      rw [provisional]
    rw [List.foldl_cons, List.foldl_nil, hsee, hopen]
  | settled open_ isResult hasTotal plain => rw [see_close (fun e he => .inl (plain e he))]
  | republished open_ => rw [see_close hrepublished]
  | uncertain open_ =>
    rw [see_close]
    intro e he
    rcases List.mem_append.1 he with he | he
    · exact hrepublished e he
    · rw [List.mem_singleton.1 he]
      exact .inl rfl

def HandlesWindow (live : List UsageEvent) (l : List Performed) (x : Performed) : Prop :=
  Handles x.1 (windows live (emitted l)).open_ (windows live (emitted (l ++ [x]))).open_ x.2

/-- **In every run** the open window holds the live requests, and each operation handles it. -/
theorem windows_of_run {a b : ClaudeUsageAccounting} (h : Sys.Run step a l b) :
    (windows a.live (emitted l)).open_ = b.live ∧ Sys.Told (HandlesWindow a.live) [] l := by
  refine h.told (HandlesWindow a.live) (fun l b => (windows a.live (emitted l)).open_ = b.live) rfl ?_
  intro l b op b' o hopen _ hst
  cases hst
  have hhandles := handles_perform b op
  have hemitted : emitted (l ++ [(op, (perform b op).2)]) = emitted l ++ (perform b op).2 := by
    rw [emitted_append]
    exact congrArg _ (List.append_nil _)
  have hopen' : (windows a.live (emitted (l ++ [(op, (perform b op).2)]))).open_ = (perform b op).1.live := by
    rw [hemitted, windows_append]
    exact hhandles.windows _ hopen
  refine ⟨hopen', Sys.told_single ?_⟩
  unfold HandlesWindow
  rw [hopen', hopen]
  exact hhandles

/-! ## Amounts -/

def fromTotals (event : UsageEvent) : Bool :=
  decide (event.liveUsage ≠ some .provisional) && decide (event.liveUsage ≠ some .republished)

def billedOf (model : String) (field : TokenField) (event : UsageEvent) : ℚ :=
  if event.model = some model ∧ fromTotals event = true then (event.tokens field).getD 0 else 0

def billed (model : String) (field : TokenField) (events : List UsageEvent) : ℚ := (events.map (billedOf model field)).sum

def label (name : String) (usage : ModelUsage) : String := usage.canonicalModel.getD name

def cumulative (model : String) (field : TokenField) (models : OrdMap String ModelUsage) : ℚ :=
  models.total (fun name usage => if label name usage = model then usage.tokens field else 0)

def baseline (a : ClaudeUsageAccounting) (sessionId : String) : OrdMap String ModelUsage :=
  (a.previous sessionId).elim OrdMap.empty (·.models)

/-- Cumulative maps: the later one lists the models of the earlier one, with no lower counters. -/
def Extends (before next : OrdMap String ModelUsage) : Prop :=
  ∀ name usage, before.get name = some usage → ∃ usage', next.get name = some usage' ∧ label name usage' = label name usage ∧
    ∀ field, usage.tokens field ≤ usage'.tokens field

variable {model : String} {field : TokenField}

theorem billed_append (x y : List UsageEvent) : billed model field (x ++ y) = billed model field x + billed model field y := by
  unfold billed
  rw [List.map_append, List.sum_append]

theorem billed_nil : billed model field [] = 0 := rfl

theorem billed_close (h : ∀ e ∈ events, e.liveUsage = none) :
    billed model field (close events) = billed model field events := by
  induction events with
  | nil => exact add_zero (0 : ℚ)
  | cons e events ih =>
    cases events with
    | nil =>
      have hnone : fromTotals e = true := by
        unfold fromTotals
        rw [h e List.mem_cons_self]
        rfl
      have hsame : billedOf model field { e with liveUsage := some .settled } = billedOf model field e := by
        unfold billedOf
        rw [hnone]
        cases field <;> rfl
      exact congrArg (fun q => q + 0) hsame
    | cons e' events =>
      have hclose : close (e :: e' :: events) = [e] ++ close (e' :: events) := rfl
      have hcons : e :: e' :: events = [e] ++ (e' :: events) := rfl
      rw [hclose, hcons, billed_append, billed_append, ih (fun x hx => h x (List.mem_cons_of_mem e hx))]

theorem modelsOf_nonneg {name : String} {usage : ModelUsage}
    (h : (modelsOf entries).get name = some usage) (field : TokenField) : 0 ≤ usage.tokens field := by
  unfold modelsOf at h
  refine List.foldlRecOn (motive := fun m : OrdMap String ModelUsage => ∀ usage, m.get name = some usage → 0 ≤ usage.tokens field)
    entries _ (fun usage hget => by cases hget) ?_ usage h
  intro m hm entry _ usage hget
  cases hraw : entry.2 with
  | none =>
    rw [hraw] at hget
    exact hm usage hget
  | some raw =>
    rw [hraw] at hget
    simp only at hget
    rw [OrdMap.get_set] at hget
    split at hget
    · cases hget
      cases field with
      | inputTokens => exact count_nonneg _
      | outputTokens => exact count_nonneg _
      | cachedInputTokens => exact count_nonneg _
      | cacheCreationInputTokens => exact count_nonneg _
    · exact hm usage hget

theorem billed_deltaEvent (name : String) (usage : ModelUsage) (before : Option ModelUsage) :
    billed model field (deltaEvent name usage before).toList =
      if label name usage = model then delta usage before (fun u => u.tokens field) else 0 := by
  unfold deltaEvent
  split
  · rename_i hzero
    have hfield : delta usage before (fun u => u.tokens field) = 0 := by
      cases field with
      | inputTokens => exact hzero.1
      | outputTokens => exact hzero.2.1
      | cachedInputTokens => exact hzero.2.2.1
      | cacheCreationInputTokens => exact hzero.2.2.2.1
    rw [Option.toList_none, billed_nil, hfield, ite_self]
  · unfold billed billedOf label
    rw [Option.toList_some, List.map_cons, List.map_nil, List.sum_cons, List.sum_nil, add_zero]
    by_cases hlabel : usage.canonicalModel.getD name = model
    · rw [if_pos hlabel, if_pos ⟨congrArg some hlabel, rfl⟩]
      cases field with
      | inputTokens => rfl
      | outputTokens => rfl
      | cachedInputTokens => rfl
      | cacheCreationInputTokens => rfl
    · rw [if_neg hlabel, if_neg (fun h => hlabel (Option.some.inj h.1))]

theorem billed_filterMap (f : String × ModelUsage → Option UsageEvent) (entries : List (String × ModelUsage)) :
    billed model field (entries.filterMap f) = (entries.map (fun e => billed model field (f e).toList)).sum := by
  induction entries with
  | nil => rfl
  | cons e entries ih =>
    rw [List.map_cons, List.sum_cons, ← ih, ← billed_append]
    cases hf : f e with
    | none =>
      rw [List.filterMap_cons_none hf]
      rfl
    | some event =>
      rw [List.filterMap_cons_some hf]
      rfl

/-- **The differences add up**: of cumulative maps, they are what a model's total rose by. -/
theorem billed_deltaEvents (hbefore : before = previous.elim OrdMap.empty (·.models))
    (hextends : Extends before (modelsOf entries)) :
    billed model field (deltaEvents (modelsOf entries) previous) + cumulative model field before =
      cumulative model field (modelsOf entries) := by
  have hget : ∀ name, previous.bind (fun p => p.models.get name) = before.get name := by
    intro name
    rw [hbefore]
    cases previous with
    | none => rfl
    | some p => rfl
  have hsum : billed model field (deltaEvents (modelsOf entries) previous) =
      (modelsOf entries).total (fun name usage => if label name usage = model then
        delta usage (before.get name) (fun u => u.tokens field) else 0) := by
    unfold deltaEvents OrdMap.total
    rw [billed_filterMap]
    congr 1
    apply List.map_congr_left
    intro e _
    rw [billed_deltaEvent, hget]
  have hold : cumulative model field before = (modelsOf entries).total (fun name _ =>
      (before.get name).elim 0 (fun usage => if label name usage = model then usage.tokens field else 0)) := by
    refine (OrdMap.total_larger (f := fun name usage => if label name usage = model then usage.tokens field else 0) ?_).symm
    intro name usage hname
    obtain ⟨usage', hnext, -⟩ := hextends name usage hname
    exact OrdMap.mem_keys_iff.2 ⟨usage', hnext⟩
  rw [hsum, hold, ← OrdMap.total_add]
  apply OrdMap.total_congr
  intro name usage hname
  have hpos := modelsOf_nonneg hname field
  cases hprior : before.get name with
  | none =>
    rw [Option.elim_none, add_zero]
    unfold delta
    rw [Option.elim_none, sub_zero, max_eq_right hpos]
  | some prior =>
    obtain ⟨usage', hnext, hlabel, hle⟩ := hextends name prior hprior
    rw [hname] at hnext
    cases hnext
    rw [Option.elim_some, ← hlabel]
    split
    · unfold delta
      rw [Option.elim_some, max_eq_right (sub_nonneg.2 (hle field)), sub_add_cancel]
    · exact add_zero 0

theorem cumulative_mono
    (h : Extends before (modelsOf entries)) : cumulative model field before ≤ cumulative model field (modelsOf entries) := by
  have hsum : billed model field (deltaEvents (modelsOf entries) (some ⟨"", 0, before, none⟩)) + cumulative model field before =
      cumulative model field (modelsOf entries) := billed_deltaEvents rfl h
  have hpos : 0 ≤ billed model field (deltaEvents (modelsOf entries) (some ⟨"", 0, before, none⟩)) := by
    unfold deltaEvents
    rw [billed_filterMap]
    apply List.sum_nonneg
    intro q hq
    obtain ⟨e, -, rfl⟩ := List.mem_map.1 hq
    rw [billed_deltaEvent]
    split
    · exact le_max_left _ _
    · exact le_refl 0
  linarith

/-- A stretch of cumulative totals in which only results move a conversation's baseline. -/
def Cumulates (sessionId : String) (a : ClaudeUsageAccounting) : Operation → Prop
  | .beginProcess _ => True
  | .confirmProcess _ version => a.pending = none ∨ (a.restoresUsage = some true ∧ a.scopeOf version = some true)
  | .adoptBaseline _ => False
  | .assign _ => False
  | .request _ => True
  | .result session result _ => session = sessionId ∧
      ∃ next, claudeUsageCheckpoint session result (a.restoresUsage = some true) = some next ∧
        (zeroed result (some next) = true ∨
          (a.unproven = false ∧ (a.previous session).any (fun previous => decide (next.totalCostUsd < previous.totalCostUsd)) = true) ∨
          (next.models.size ≠ 0 ∧ Extends (baseline a session) next.models))

theorem billedOf_republish (e : UsageEvent) : billedOf model field (republish e) = 0 := if_neg (fun h => Bool.false_ne_true h.2)

theorem close_append (events : List UsageEvent) (e : UsageEvent) :
    close (events ++ [e]) = events ++ [{ e with liveUsage := some .settled }] := by
  induction events with
  | nil => rfl
  | cons x events ih =>
    cases events with
    | nil => rfl
    | cons y events => exact congrArg (x :: ·) ih

theorem billed_uncertain (a : ClaudeUsageAccounting) : billed model field a.uncertain.2 = 0 := by
  have hmarker : ∀ live, billedOf model field { incomplete with liveUsage := live } = 0 := by
    intro live
    unfold billedOf
    exact if_neg (fun h => by cases h.1)
  unfold uncertain settle
  split
  · rename_i hnil
    rw [List.isEmpty_iff] at hnil
    rw [hnil]
    unfold billed
    rw [List.map_nil, List.nil_append, List.map_cons, List.map_nil, List.sum_cons, List.sum_nil, add_zero]
    exact hmarker none
  · rw [close_append]
    unfold billed
    rw [List.map_append, List.sum_append, List.map_map]
    have hzero : (a.live.map (billedOf model field ∘ republish)).sum = 0 := by
      apply List.sum_eq_zero
      intro q hq
      obtain ⟨e, -, rfl⟩ := List.mem_map.1 hq
      exact billedOf_republish e
    rw [hzero, zero_add, List.map_cons, List.map_nil, List.sum_cons, List.sum_nil, add_zero]
    exact hmarker (some .settled)

theorem checkpoint_settle (a : ClaudeUsageAccounting) (events : List UsageEvent) : (a.settle events).1.checkpoint = a.checkpoint := by
  unfold settle
  split <;> rfl

theorem billed_settle (a : ClaudeUsageAccounting) (h : ∀ e ∈ events, e.liveUsage = none) :
    billed model field (a.settle events).2 = billed model field events := by
  unfold settle
  split
  · rfl
  · exact billed_close h

theorem billed_feeEvents (q : ℚ) (events : List UsageEvent) : billed model field (feeEvents q events) = 0 := by
  unfold feeEvents
  split
  · unfold billed billedOf
    rw [List.map_cons, List.map_nil, List.sum_cons, List.sum_nil, add_zero]
    cases field <;> exact ite_self 0
  · rfl

theorem baseline_of_checkpoint {a : ClaudeUsageAccounting}
    (h : a.checkpoint = some next) (hsession : next.sessionId = sessionId) : baseline a sessionId = next.models := by
  unfold baseline previous
  rw [h, Option.filter_some, if_pos (decide_eq_true hsession)]
  rfl

theorem baseline_congr {a b : ClaudeUsageAccounting} (h : a.checkpoint = b.checkpoint) (sessionId : String) :
    baseline a sessionId = baseline b sessionId := by
  unfold baseline previous
  rw [h]

/-- **A result** of cumulative totals: what is accounted is at most what the baseline rose by. -/
theorem billed_result (model : String) (field : TokenField) {turnModel : Option String}
    (h : Cumulates sessionId a (.result sessionId result turnModel)) :
    billed model field (a.result sessionId result turnModel).2 + cumulative model field (baseline a sessionId) ≤
        cumulative model field (baseline (a.result sessionId result turnModel).1 sessionId) ∧
      (baseline (a.result sessionId result turnModel).1 sessionId = baseline a sessionId ∨
        baseline (a.result sessionId result turnModel).1 sessionId = modelsOf result.modelUsage.entries) := by
  obtain ⟨-, next, hnext, htaken⟩ := h
  obtain ⟨total, htotal, heq⟩ := Option.map_eq_some_iff.1 hnext
  have hmodels : next.models = modelsOf result.modelUsage.entries := by
    rw [← heq]
  have hsession : next.sessionId = sessionId := by
    rw [← heq]
  have hkept : ∀ {events : List UsageEvent}, billed model field events = 0 →
      billed model field events + cumulative model field (baseline a sessionId) ≤ cumulative model field (baseline a sessionId) ∧
        (baseline a sessionId = baseline a sessionId ∨ baseline a sessionId = modelsOf result.modelUsage.entries) := by
    intro events hzero
    rw [hzero, zero_add]
    exact ⟨le_refl _, .inl rfl⟩
  have hmarker : billed model field [incomplete] = 0 := by
    unfold billed billedOf
    rw [List.map_cons, List.map_nil, List.sum_cons, List.sum_nil, add_zero]
    exact if_neg (fun h => by cases h.1)
  unfold ClaudeUsageAccounting.result
  rw [hnext]
  by_cases hzeroed : zeroed result (some next) = true
  · rw [if_pos hzeroed]
    exact hkept hmarker
  · rw [if_neg hzeroed]
    simp only
    have hextends : (a.unproven = false ∧ (a.previous sessionId).any
        (fun previous => decide (next.totalCostUsd < previous.totalCostUsd)) = true) ∨
          (next.models.size ≠ 0 ∧ Extends (baseline a sessionId) next.models) := htaken.resolve_left hzeroed
    have huncertain : ∀ b : ClaudeUsageAccounting, b.checkpoint = some next → Extends (baseline a sessionId) next.models →
        billed model field b.uncertain.2 + cumulative model field (baseline a sessionId) ≤
            cumulative model field (baseline b.uncertain.1 sessionId) ∧
          (baseline b.uncertain.1 sessionId = baseline a sessionId ∨
            baseline b.uncertain.1 sessionId = modelsOf result.modelUsage.entries) := by
      intro b hb hext
      have hbase : baseline b.uncertain.1 sessionId = next.models :=
        baseline_of_checkpoint ((checkpoint_settle b _).trans hb) hsession
      rw [billed_uncertain, zero_add, hbase, hmodels]
      rw [hmodels] at hext
      exact ⟨cumulative_mono hext, .inr rfl⟩
    split
    · rename_i hunproven
      rcases hextends with ⟨hproven, -⟩ | ⟨-, hext⟩
      · rw [hunproven] at hproven
        cases hproven
      · exact huncertain { a with unproven := false, unprobed := false, checkpoint := some next } rfl hext
    · split
      · exact hkept billed_nil
      · rename_i hunproven hlower
        rcases hextends with ⟨-, hless⟩ | ⟨hsize, hext⟩
        · exact absurd hless hlower
        · split
          · exact huncertain { a with checkpoint := some next, unprobed := false } rfl hext
          · have hbase : baseline ({ a with checkpoint := some next, unprobed := false }.settle
                (a.resultEvents sessionId result turnModel next)).1 sessionId = next.models :=
              baseline_of_checkpoint (checkpoint_settle _ _) hsession
            rw [billed_settle _ resultEvents_plain, hbase]
            unfold resultEvents
            rw [if_neg hsize, billed_append, billed_feeEvents, add_zero, hmodels]
            rw [hmodels] at hext
            exact ⟨le_of_eq (billed_deltaEvents rfl hext), .inr rfl⟩

def Reported (sessionId : String) (l : List Performed) (models : OrdMap String ModelUsage) : Prop :=
  ∃ result model events, (Operation.result sessionId result model, events) ∈ l ∧ models = modelsOf result.modelUsage.entries

/-- **In every run on cumulative totals** what is accounted from them is at most what the baseline rose by. -/
theorem billed_of_run (model : String) (field : TokenField) {a b : ClaudeUsageAccounting}
    (h : Sys.RunOn (fun _ => Cumulates sessionId) step a l b) :
    billed model field (emitted l) + cumulative model field (baseline a sessionId) ≤ cumulative model field (baseline b sessionId) ∧
      (baseline b sessionId = baseline a sessionId ∨ Reported sessionId l (baseline b sessionId)) := by
  refine h.hist (fun l b => billed model field (emitted l) + cumulative model field (baseline a sessionId) ≤
      cumulative model field (baseline b sessionId) ∧ (baseline b sessionId = baseline a sessionId ∨ Reported sessionId l (baseline b sessionId)))
    ⟨?_, .inl rfl⟩ ?_
  · have hnone : emitted [] = [] := rfl
    rw [hnone, billed_nil, zero_add]
  · rintro l b op b' o ⟨hle, hfrom⟩ hC hst
    cases hst
    have hemitted : emitted (l ++ [(op, (perform b op).2)]) = emitted l ++ (perform b op).2 := by
      rw [emitted_append]
      exact congrArg _ (List.append_nil _)
    have hkeep : Reported sessionId l (baseline b sessionId) → Reported sessionId (l ++ [(op, (perform b op).2)]) (baseline b sessionId) := by
      rintro ⟨result, turnModel, events, hmem, heq⟩
      exact ⟨result, turnModel, events, List.mem_append_left _ hmem, heq⟩
    rw [hemitted, billed_append]
    have hstill : (perform b op).1.checkpoint = b.checkpoint → billed model field (perform b op).2 = 0 →
        billed model field (emitted l) + billed model field (perform b op).2 + cumulative model field (baseline a sessionId) ≤
          cumulative model field (baseline (perform b op).1 sessionId) ∧ (baseline (perform b op).1 sessionId = baseline a sessionId ∨
            Reported sessionId (l ++ [(op, (perform b op).2)]) (baseline (perform b op).1 sessionId)) := by
      intro hcheckpoint hzero
      rw [hzero, add_zero, baseline_congr hcheckpoint]
      exact ⟨hle, hfrom.imp_right hkeep⟩
    cases op with
    | beginProcess newConversation => exact hstill rfl rfl
    | adoptBaseline checkpoint => exact hC.elim
    | assign checkpoint => exact hC.elim
    | confirmProcess session version =>
      have hsame : (perform b (.confirmProcess session version)).1.checkpoint = b.checkpoint ∧
          (perform b (.confirmProcess session version)).2 = [] := by
        unfold perform ClaudeUsageAccounting.confirmProcess
        simp only
        rcases hC with hpending | ⟨hknown, hscope⟩
        · rw [hpending]
          exact ⟨rfl, rfl⟩
        · cases hpending : b.pending with
          | none => exact ⟨rfl, rfl⟩
          | some newConversation =>
            simp only
            rw [if_neg (by rw [hscope]; decide), if_pos ⟨hscope, hknown⟩]
            exact ⟨rfl, rfl⟩
      exact hstill hsame.1 (by rw [hsame.2]; rfl)
    | request usage =>
      have hsame : (perform b (.request usage)).1.checkpoint = b.checkpoint ∧ billed model field (perform b (.request usage)).2 = 0 := by
        unfold perform ClaudeUsageAccounting.request
        simp only
        split
        · exact ⟨rfl, rfl⟩
        · refine ⟨rfl, ?_⟩
          unfold billed billedOf
          rw [List.map_cons, List.map_nil, List.sum_cons, List.sum_nil, add_zero]
          exact if_neg (fun h => Bool.false_ne_true h.2)
      exact hstill hsame.1 hsame.2
    | result session result turnModel =>
      obtain ⟨rfl, -⟩ := id hC
      obtain ⟨hbilled, hbase⟩ := billed_result model field hC
      refine ⟨?_, ?_⟩
      · have hperform : perform b (.result session result turnModel) = b.result session result turnModel := rfl
        rw [hperform]
        linarith
      · rcases hbase with hbase | hbase
        · have hsame : baseline (perform b (.result session result turnModel)).1 session = baseline b session := hbase
          rw [hsame]
          exact hfrom.imp_right hkeep
        · exact .inr ⟨result, turnModel, _, List.mem_append_cons_self, hbase⟩

end Wollipog.Claude
