import Mathlib.Data.List.Infix
import Mathlib.Data.List.TakeWhile
import Wollipog.Share.Redaction
/-!
# Projection — the messages of a shared transcript

One pass over the events builds the messages; the texts are redacted once it is over. The deltas of one message are
joined exactly when nothing stands between them.
-/
namespace Wollipog.Share

inductive Hidden
  | agent_thought
  | artifact_attached
  | tool_call
  | agent_response_completed
  | tool_call_update
  | plan
  | command_output
  | file_edit
  | stderr
  | background_continuation_delivered
  | status
  | error
  | policy_transport
  | policy_hook_decision
  | workflow_action_admission_armed
  | review_decision
  | permission_request
  | permission_resolved
  | question_request
  | question_policy_answered
  | question_resolved
  | checkpoint
  | checkpoint_restored
  | worktree_refs_deleted
  | conversation_checkpoint
  | conversation_forked
  | provider_account_switched
  | context_compacted
  | token_usage
deriving DecidableEq

/-- A member that should hold a text: absent or undefined, a text, or something else. -/
inductive TextField
  | absent
  | text (s : String)
  | other
deriving DecidableEq

/-- The payload of a stored event; the text is `none` where it is not a string. -/
inductive SessionEventPayload
  /-- Not an object with a `kind`, or of an unknown kind. -/
  | invalid
  | user_message (text : Option (List Char))
  | agent_message (text : Option (List Char)) (final : Bool) (messageId : TextField) (parented : Bool)
  | turn_interrupted
  | hidden (kind : Hidden)

structure SessionEvent where
  id : Int
  seq : Int
  payload : SessionEventPayload

inductive Role
  | user
  | assistant
deriving DecidableEq

structure OperationalTranscriptMessage where
  role : Role
  text : List Char
deriving DecidableEq

/-- What the pass holds: the messages, and which one takes a delta of which message id. -/
structure Pass where
  raw : List OperationalTranscriptMessage
  mergeableAssistantIndex : Option Nat
  mergeableAssistantMessageId : Option String
deriving DecidableEq

def Pass.start : Pass := ⟨[], none, none⟩

def Pass.closed (s : Pass) : Pass := { s with mergeableAssistantIndex := none, mergeableAssistantMessageId := none }

def Pass.push (s : Pass) (role : Role) (text : List Char) : Pass := { s with raw := s.raw ++ [⟨role, text⟩] }

def TextField.value : TextField → Option String
  | .text s => some s
  | _ => none

/-- An `agent_message` of the top level. -/
def Pass.assistant (s : Pass) (text : List Char) (final : Bool) (messageId : Option String) : Pass :=
  match s.mergeableAssistantIndex with
  | some i =>
    if final && messageId.isSome && decide (s.mergeableAssistantMessageId = messageId) then
      { s with raw := s.raw.modify i (fun prior => { prior with text := text }) }.closed
    else if !final && decide (s.mergeableAssistantMessageId = messageId) then
      { s with raw := s.raw.modify i (fun prior => { prior with text := prior.text ++ text }) }
    else if final then (s.push .assistant text).closed
    else { s.push .assistant text with mergeableAssistantIndex := some s.raw.length, mergeableAssistantMessageId := messageId }
  | none =>
    if final then (s.push .assistant text).closed
    else { s.push .assistant text with mergeableAssistantIndex := some s.raw.length, mergeableAssistantMessageId := messageId }

/-- One event of the pass; `none` rejects the source. -/
def Pass.take (s : Pass) (e : SessionEvent) : Option Pass :=
  match e.payload with
  | .invalid => none
  | .user_message none => none
  | .user_message (some text) => some (s.push .user text).closed
  | .agent_message none _ _ _ => none
  | .agent_message (some text) final messageId parented =>
    if messageId = .other then none
    else if parented then some s.closed
    else some (s.assistant text final messageId.value)
  | .hidden _ => some s.closed
  | .turn_interrupted => some (s.push .assistant "[Turn interrupted]".toList).closed

def Pass.takeAll (s : Pass) : List SessionEvent → Option Pass
  | [] => some s
  | e :: es => (s.take e).bind (fun s' => s'.takeAll es)

/-- `[...events].sort((a, b) => a.seq - b.seq || a.id - b.id)` -/
def ordered (events : List SessionEvent) : List SessionEvent :=
  events.insertionSort (fun a b => a.seq < b.seq ∨ (a.seq = b.seq ∧ a.id ≤ b.id))

def publicMessages (canonicalize : Char → Char) (events : List SessionEvent) (sensitivePathPrefixes : List (List Char)) :
    Option (List OperationalTranscriptMessage) :=
  (Pass.start.takeAll (ordered events)).map (fun s => s.raw.map (fun message =>
    ⟨message.role, redactOperationalTranscriptText canonicalize message.text sensitivePathPrefixes⟩))

def deltaText (id : String) (e : SessionEvent) : Option (List Char) :=
  match e.payload with
  | .agent_message (some text) false (.text m) false => if m = id then some text else none
  | _ => none

def isDelta (id : String) (e : SessionEvent) : Bool := (deltaText id e).isSome

def finalText (id : String) (e : SessionEvent) : Option (List Char) :=
  match e.payload with
  | .agent_message (some text) true (.text m) false => if m = id then some text else none
  | _ => none

def deltas (id : String) (l : List SessionEvent) : List SessionEvent := l.filter (isDelta id)

def joined (id : String) (l : List SessionEvent) : List Char := (l.filterMap (deltaText id)).flatten

def Adjacent (id : String) (l : List SessionEvent) : Prop := deltas id l <:+: l

/-- **The deltas of the message are redacted as one text**, or as the completed text that replaced it. -/
def RedactedAsOne (canonicalize : Char → Char) (sensitivePathPrefixes : List (List Char)) (l : List SessionEvent)
    (messages : List OperationalTranscriptMessage) (id : String) : Prop :=
  ∃ k, (∀ pre e post, l = pre ++ e :: post → isDelta id e = true →
      ∃ s, Pass.start.takeAll (pre ++ [e]) = some s ∧ s.mergeableAssistantIndex = some k) ∧
    ∃ text, (text = joined id l ∨ ∃ e ∈ l, finalText id e = some text) ∧
      messages[k]? = some ⟨.assistant, redactOperationalTranscriptText canonicalize text sensitivePathPrefixes⟩

theorem Pass.takeAll_append (s : Pass) : ∀ a b : List SessionEvent, s.takeAll (a ++ b) = (s.takeAll a).bind (fun s' => s'.takeAll b)
  | [], _ => rfl
  | e :: a, b => by
    rw [List.cons_append, Pass.takeAll, Pass.takeAll]
    cases s.take e with
    | none => rfl
    | some s' => exact Pass.takeAll_append s' a b

theorem Pass.takeAll_single (s : Pass) (e : SessionEvent) : s.takeAll [e] = s.take e := by
  unfold Pass.takeAll
  cases s.take e <;> rfl

inductive Taken (s : Pass) (e : SessionEvent) : Pass → Prop
  /-- The event is not projected. -/
  | hidden (hdelta : ∀ id, deltaText id e = none) : Taken s e s.closed
  | pushed (role : Role) (text : List Char) (hdelta : ∀ id, deltaText id e = none) : Taken s e (s.push role text).closed
  /-- A delta opens a message. -/
  | opened (text : List Char) (messageId : Option String) (hdelta : ∀ id, deltaText id e = if messageId = some id then some text else none)
      (happart : s.mergeableAssistantIndex = none ∨ s.mergeableAssistantMessageId ≠ messageId) :
      Taken s e { s.push .assistant text with mergeableAssistantIndex := some s.raw.length, mergeableAssistantMessageId := messageId }
  /-- A delta is joined to the open message. -/
  | joined (k : Nat) (text : List Char) (hdelta : ∀ id, deltaText id e = if s.mergeableAssistantMessageId = some id then some text else none)
      (hindex : s.mergeableAssistantIndex = some k) :
      Taken s e { s with raw := s.raw.modify k (fun prior => { prior with text := prior.text ++ text }) }
  /-- The open message is completed. -/
  | completed (k : Nat) (text : List Char) (id : String) (hdelta : ∀ id, deltaText id e = none)
      (hindex : s.mergeableAssistantIndex = some k) (hid : s.mergeableAssistantMessageId = some id)
      (hfinal : finalText id e = some text) :
      Taken s e { s with raw := s.raw.modify k (fun prior => { prior with text := text }) }.closed

variable {k : Nat} {s s' t : Pass} {text : List Char} {f : TextField} {a b d l : List SessionEvent}
  {raw : List OperationalTranscriptMessage}

theorem TextField.value_eq_some {id : String} : f.value = some id ↔ f = .text id := by
  cases f with
  | absent => exact ⟨fun h => (by cases h), fun h => (by cases h)⟩
  | text s => exact ⟨fun h => (by cases h; rfl), fun h => (by cases h; rfl)⟩
  | other => exact ⟨fun h => (by cases h), fun h => (by cases h)⟩

variable {e : SessionEvent}

theorem deltaText_delta (he : e.payload = .agent_message (some text) false f false)
    (id : String) : deltaText id e = if f.value = some id then some text else none := by
  unfold deltaText
  rw [he]
  cases f with
  | absent => rfl
  | text m =>
    by_cases h : m = id
    · have heq : TextField.value (.text m) = some id := congrArg some h
      simp only [if_pos h, if_pos heq]
    · have hne : TextField.value (.text m) ≠ some id := fun heq => h (Option.some.inj heq)
      simp only [if_neg h, if_neg hne]
  | other => rfl

theorem taken_of_assistant {final : Bool}
    (he : e.payload = .agent_message (some text) final f false) : Taken s e (s.assistant text final f.value) := by
  have hopened : final = false → (s.mergeableAssistantIndex = none ∨ s.mergeableAssistantMessageId ≠ f.value) →
      Taken s e { s.push .assistant text with mergeableAssistantIndex := some s.raw.length, mergeableAssistantMessageId := f.value } := by
    intro hfinal happart
    rw [hfinal] at he
    exact .opened text f.value (deltaText_delta he) happart
  have hclosed : final = true → ∀ id, deltaText id e = none := by
    intro hfinal id
    unfold deltaText
    rw [he, hfinal]
  unfold Pass.assistant
  cases hindex : s.mergeableAssistantIndex with
  | none =>
    simp only
    cases final with
    | true => exact .pushed _ _ (hclosed rfl)
    | false => exact hopened rfl (.inl hindex)
  | some k =>
    simp only
    cases final with
    | true =>
      by_cases hid : f.value.isSome = true ∧ s.mergeableAssistantMessageId = f.value
      · obtain ⟨id, hvalue⟩ := Option.isSome_iff_exists.1 hid.1
        have hfield := TextField.value_eq_some.1 hvalue
        have hfinal : finalText id e = some text := by
          unfold finalText
          rw [he, hfield]
          exact if_pos rfl
        rw [if_pos (by simpa using hid)]
        exact .completed k text id (hclosed rfl) hindex (hid.2.trans hvalue) hfinal
      · rw [if_neg (by simpa using hid)]
        exact .pushed _ _ (hclosed rfl)
    | false =>
      by_cases hid : s.mergeableAssistantMessageId = f.value
      · have hdelta := deltaText_delta he
        rw [← hid] at hdelta
        simp only [Bool.false_and, Bool.false_eq_true, if_false, Bool.not_false, Bool.true_and, decide_eq_true_eq, if_pos hid]
        have hjoined := Taken.joined k text hdelta hindex
        rw [hindex] at hjoined
        exact hjoined
      · simp only [Bool.false_and, Bool.false_eq_true, if_false, Bool.not_false, Bool.true_and, decide_eq_true_eq, if_neg hid]
        exact hopened rfl (.inr hid)

/-- **What one event can do.** -/
theorem Pass.taken (h : s.take e = some s') : Taken s e s' := by
  unfold Pass.take at h
  split at h
  · cases h
  · cases h
  · rename_i text he
    cases h
    exact .pushed _ _ (fun id => by unfold deltaText; rw [he])
  · cases h
  · rename_i text final f parented he
    by_cases hother : f = .other
    · rw [if_pos hother] at h
      cases h
    · rw [if_neg hother] at h
      cases parented with
      | true =>
        cases h
        refine .hidden (fun id => ?_)
        unfold deltaText
        rw [he]
        cases final <;> cases f <;> rfl
      | false =>
        cases h
        exact taken_of_assistant he
  · rename_i kind he
    cases h
    exact .hidden (fun id => by unfold deltaText; rw [he])
  · rename_i he
    cases h
    exact .pushed _ _ (fun id => by unfold deltaText; rw [he])

/-! ## Joining -/

def Away (id : String) (s : Pass) : Prop := s.mergeableAssistantIndex = none ∨ s.mergeableAssistantMessageId ≠ some id

def Past (k : Nat) (s : Pass) : Prop := k < s.raw.length ∧ s.mergeableAssistantIndex ≠ some k

theorem Pass.length_push (s : Pass) (role : Role) (text : List Char) : (s.push role text).raw.length = s.raw.length + 1 :=
  List.length_append

theorem modify_last {α : Type} (f : α → α) (a : α) : ∀ l : List α, (l ++ [a]).modify l.length f = l ++ [f a]
  | [] => rfl
  | x :: l => by
    rw [List.cons_append, List.length_cons, List.modify_succ_cons, modify_last f a l]
    rfl

theorem Taken.away {id : String} (h : Taken s e s') (he : deltaText id e = none) (hs : Away id s) : Away id s' := by
  cases h with
  | hidden => exact .inl rfl
  | pushed => exact .inl rfl
  | opened text messageId hdelta =>
    right
    intro heq
    rw [hdelta id, if_pos heq] at he
    cases he
  | joined => exact hs
  | completed => exact .inl rfl

theorem Taken.past (h : Taken s e s') (hs : Past k s) : Past k s' ∧ s'.raw[k]? = s.raw[k]? := by
  obtain ⟨hlt, hne⟩ := hs
  cases h with
  | hidden => exact ⟨⟨hlt, fun hk => by cases hk⟩, rfl⟩
  | pushed role text =>
    refine ⟨⟨?_, fun hk => by cases hk⟩, List.getElem?_append_left hlt⟩
    exact hlt.trans_le (by simp [Pass.closed, Pass.push])
  | opened text messageId =>
    refine ⟨⟨hlt.trans_le (by simp [Pass.push]), ?_⟩, List.getElem?_append_left hlt⟩
    intro hk
    exact absurd (Option.some.inj hk) (ne_of_gt hlt)
  | joined j text hdelta hindex =>
    have hjk : j ≠ k := fun heq => hne (heq ▸ hindex)
    exact ⟨⟨by rw [List.length_modify]; exact hlt, hne⟩, List.getElem?_modify_ne _ _ hjk⟩
  | completed j text id hdelta hindex =>
    have hjk : j ≠ k := fun heq => hne (heq ▸ hindex)
    refine ⟨⟨?_, fun hk => by cases hk⟩, List.getElem?_modify_ne _ _ hjk⟩
    simp only [Pass.closed, List.length_modify]
    exact hlt

theorem Pass.takeAll_cons {es : List SessionEvent} (h : s.takeAll (e :: es) = some t) :
    ∃ s', Taken s e s' ∧ s'.takeAll es = some t := by
  unfold Pass.takeAll at h
  obtain ⟨s', hs', ht⟩ := Option.bind_eq_some_iff.1 h
  exact ⟨s', Pass.taken hs', ht⟩

theorem Pass.takeAll_split (h : s.takeAll (a ++ b) = some t) : ∃ s', s.takeAll a = some s' ∧ s'.takeAll b = some t := by
  rw [Pass.takeAll_append] at h
  exact Option.bind_eq_some_iff.1 h

theorem Pass.away_of_takeAll {id : String} : ∀ (a : List SessionEvent) (s t : Pass), s.takeAll a = some t →
    (∀ e ∈ a, deltaText id e = none) → Away id s → Away id t
  | [], s, t, h, _, hs => by
    cases h
    exact hs
  | e :: a, s, t, h, hall, hs => by
    obtain ⟨s', htaken, hrest⟩ := Pass.takeAll_cons h
    exact Pass.away_of_takeAll a s' t hrest (fun x hx => hall x (List.mem_cons_of_mem e hx))
      (htaken.away (hall e List.mem_cons_self) hs)

theorem Pass.past_of_takeAll : ∀ (b : List SessionEvent) (s t : Pass), s.takeAll b = some t → Past k s →
    Past k t ∧ t.raw[k]? = s.raw[k]?
  | [], s, t, h, hs => by
    cases h
    exact ⟨hs, rfl⟩
  | e :: b, s, t, h, hs => by
    obtain ⟨s', htaken, hrest⟩ := Pass.takeAll_cons h
    obtain ⟨hpast, hsame⟩ := htaken.past hs
    obtain ⟨hpast', hsame'⟩ := Pass.past_of_takeAll b s' t hrest hpast
    exact ⟨hpast', hsame'.trans hsame⟩

def opening (id : String) (raw : List OperationalTranscriptMessage) (text : List Char) : Pass :=
  ⟨raw ++ [⟨.assistant, text⟩], some raw.length, some id⟩

theorem Taken.opening {s s' : Pass} {id : String} {text : List Char} (h : Taken s e s')
    (he : deltaText id e = some text) (hs : Away id s) : s' = opening id s.raw text := by
  cases h with
  | hidden hdelta | pushed role text' hdelta =>
    rw [hdelta id] at he
    cases he
  | opened text' messageId hdelta =>
    rw [hdelta id] at he
    split at he
    · rename_i hid
      cases he
      rw [hid]
      rfl
    · cases he
  | joined k text' hdelta hindex =>
    rw [hdelta id] at he
    split at he
    · rename_i hid
      rcases hs with hs | hs
      · rw [hs] at hindex
        cases hindex
      · exact absurd hid hs
    · cases he
  | completed k text' id' hdelta =>
    rw [hdelta id] at he
    cases he

theorem Taken.joining {id : String} {more : List Char} (h : Taken (Share.opening id raw text) e s') (he : deltaText id e = some more) :
    s' = Share.opening id raw (text ++ more) := by
  cases h with
  | hidden hdelta | pushed role text' hdelta =>
    rw [hdelta id] at he
    cases he
  | opened text' messageId hdelta happart =>
    rw [hdelta id] at he
    split at he
    · rename_i hid
      rcases happart with happart | happart
      · cases happart
      · exact absurd hid.symm happart
    · cases he
  | joined k text' hdelta hindex =>
    rw [hdelta id] at he
    split at he
    · cases he
      cases hindex
      unfold Share.opening
      simp only
      rw [modify_last]
    · cases he
  | completed k text' id' hdelta =>
    rw [hdelta id] at he
    cases he

theorem Taken.leaving {id : String} (h : Taken (Share.opening id raw text) e s') (he : deltaText id e = none) :
    Past raw.length s' ∧ ∃ t, (t = text ∨ finalText id e = some t) ∧ s'.raw[raw.length]? = some ⟨.assistant, t⟩ := by
  have hlast : (raw ++ [(⟨.assistant, text⟩ : OperationalTranscriptMessage)])[raw.length]? = some ⟨.assistant, text⟩ := by
    rw [List.getElem?_append_right (Nat.le_refl _), Nat.sub_self]
    rfl
  have hlength : raw.length < (raw ++ [(⟨.assistant, text⟩ : OperationalTranscriptMessage)]).length := by
    rw [List.length_append, List.length_singleton]
    omega
  cases h with
  | hidden => exact ⟨⟨hlength, fun hk => by cases hk⟩, text, .inl rfl, hlast⟩
  | pushed role text' =>
    refine ⟨⟨hlength.trans ?_, fun hk => by cases hk⟩, text, .inl rfl, ?_⟩
    · exact (Nat.lt_succ_self _).trans_eq ((Share.opening id raw text).length_push role text').symm
    · exact (List.getElem?_append_left hlength).trans hlast
  | opened text' messageId =>
    refine ⟨⟨hlength.trans ?_, ?_⟩, text, .inl rfl, ?_⟩
    · exact (Nat.lt_succ_self _).trans_eq ((Share.opening id raw text).length_push .assistant text').symm
    · intro hk
      exact absurd (Option.some.inj hk) (ne_of_gt hlength)
    · exact (List.getElem?_append_left hlength).trans hlast
  | joined k text' hdelta =>
    have hopen : (Share.opening id raw text).mergeableAssistantMessageId = some id := rfl
    rw [hdelta id, if_pos hopen] at he
    cases he
  | completed k text' id' hdelta hindex hid hfinal =>
    cases hindex
    cases hid
    refine ⟨⟨?_, fun hk => by cases hk⟩, text', .inr hfinal, ?_⟩
    · simp only [Pass.closed, List.length_modify]
      exact hlength
    · simp only [Pass.closed]
      rw [List.getElem?_modify_eq]
      unfold Share.opening
      simp only
      rw [hlast]
      rfl

theorem deltaText_eq_none {id : String} (h : ¬isDelta id e = true) : deltaText id e = none :=
  Option.not_isSome_iff_eq_none.1 h

theorem adjacent_iff {id : String} : Adjacent id l ↔
    ∃ a d b, l = a ++ d ++ b ∧ (∀ e ∈ a, ¬isDelta id e = true) ∧ (∀ e ∈ d, isDelta id e = true) ∧ ∀ e ∈ b, ¬isDelta id e = true := by
  constructor
  · rintro ⟨a, b, hl⟩
    have hfilter := congrArg (List.filter (isDelta id)) hl
    rw [List.filter_append, List.filter_append] at hfilter
    have hdeltas : (deltas id l).filter (isDelta id) = deltas id l := by
      unfold deltas
      rw [List.filter_filter]
      congr 1
      funext e
      exact Bool.and_self _
    have hwhole : l.filter (isDelta id) = deltas id l := rfl
    rw [hdeltas, hwhole] at hfilter
    have hlength := congrArg List.length hfilter
    rw [List.length_append, List.length_append] at hlength
    have ha : a.filter (isDelta id) = [] := List.length_eq_zero_iff.1 (by omega)
    have hb : b.filter (isDelta id) = [] := List.length_eq_zero_iff.1 (by omega)
    exact ⟨a, deltas id l, b, hl.symm, List.filter_eq_nil_iff.1 ha, fun e he => (List.mem_filter.1 he).2,
      List.filter_eq_nil_iff.1 hb⟩
  · rintro ⟨a, d, b, rfl, ha, hd, hb⟩
    refine ⟨a, b, ?_⟩
    unfold deltas
    rw [List.filter_append, List.filter_append, List.filter_eq_nil_iff.2 ha, List.filter_eq_nil_iff.2 hb,
      List.filter_eq_self.2 hd, List.nil_append, List.append_nil]

theorem delta_place {id : String} {pre post : List SessionEvent} (hl : a ++ d ++ b = pre ++ e :: post)
    (ha : ∀ x ∈ a, ¬isDelta id x = true) (hb : ∀ x ∈ b, ¬isDelta id x = true) (he : isDelta id e = true) :
    ∃ d₁ d₂, d = d₁ ++ e :: d₂ ∧ pre = a ++ d₁ := by
  rcases List.append_eq_append_iff.1 hl with ⟨c, hpre, hc⟩ | ⟨c, had, hc⟩
  · -- behind the deltas
    exact absurd he (hb e (hc ▸ List.mem_append_cons_self))
  · rcases List.append_eq_append_iff.1 had with ⟨c', rfl, hd⟩ | ⟨c', rfl, hd⟩
    · cases c with
      | nil =>
        rw [List.nil_append] at hc
        exact absurd he (hb e (hc ▸ List.mem_cons_self))
      | cons x c =>
        rw [List.cons_append, List.cons.injEq] at hc
        obtain ⟨rfl, -⟩ := hc
        exact ⟨c', c, hd, rfl⟩
    · -- in front of the deltas
      cases c' with
      | nil =>
        rw [List.nil_append] at hd
        cases d with
        | nil =>
          rw [hd, List.nil_append] at hc
          exact absurd he (hb e (hc ▸ List.mem_cons_self))
        | cons x d =>
          rw [hd, List.cons_append, List.cons.injEq] at hc
          obtain ⟨rfl, -⟩ := hc
          exact ⟨[], d, rfl, (List.append_nil _).symm ▸ (List.append_nil pre).symm⟩
      | cons x c' =>
        rw [hd, List.cons_append, List.cons_append, List.cons.injEq] at hc
        obtain ⟨rfl, -⟩ := hc
        exact absurd he (ha e List.mem_append_cons_self)

theorem joined_deltas (id : String) (l : List SessionEvent) : joined id (deltas id l) = joined id l := by
  unfold joined deltas
  rw [List.filterMap_filter]
  congr 1
  apply List.filterMap_congr
  intro e _
  unfold isDelta
  cases deltaText id e <;> rfl

theorem joined_snoc {id : String} (he : deltaText id e = some text) : joined id (d ++ [e]) = joined id d ++ text := by
  unfold joined
  rw [List.filterMap_append, List.flatten_append, List.filterMap_cons, he]
  simp

/-- **Deltas that follow one another are joined to one message.** -/
theorem takeAll_deltas {id : String} (hs : Pass.start.takeAll a = some s)
    (ha : ∀ e ∈ a, ¬isDelta id e = true) : d ≠ [] → (∀ e ∈ d, isDelta id e = true) →
    ∀ t, s.takeAll d = some t → t = opening id s.raw (joined id d) := by
  have haway : Away id s := Pass.away_of_takeAll a _ s hs (fun e he => deltaText_eq_none (ha e he)) (.inl rfl)
  induction d using List.reverseRecOn with
  | nil => exact fun h => absurd rfl h
  | append_singleton d e ih =>
    intro _ hd t ht
    obtain ⟨text, htext⟩ := Option.isSome_iff_exists.1 (hd e List.mem_append_cons_self)
    obtain ⟨s', hs', htake⟩ := Pass.takeAll_split ht
    rw [Pass.takeAll_single] at htake
    have htaken := Pass.taken htake
    rw [joined_snoc htext]
    cases d with
    | nil =>
      cases hs'
      exact htaken.opening htext haway
    | cons x d =>
      have hjoined := ih (List.cons_ne_nil x d) (fun e he => hd e (List.mem_append_left _ he)) s' hs'
      rw [hjoined] at htaken
      exact htaken.joining htext

theorem takeAll_adjacent {id : String} (hs : Pass.start.takeAll a = some s)
    (ha : ∀ e ∈ a, ¬isDelta id e = true) (hne : d ≠ []) (hd : ∀ e ∈ d, isDelta id e = true)
    (hb : ∀ e, b.head? = some e → ¬isDelta id e = true) (ht : s.takeAll (d ++ b) = some t) :
    ∃ text, (text = joined id d ∨ ∃ e ∈ b, finalText id e = some text) ∧ t.raw[s.raw.length]? = some ⟨.assistant, text⟩ ∧
      (b ≠ [] → Past s.raw.length t) := by
  obtain ⟨u, hu, hrest⟩ := Pass.takeAll_split ht
  have hopen := takeAll_deltas hs ha hne hd u hu
  rw [hopen] at hrest
  cases b with
  | nil =>
    cases hrest
    refine ⟨_, .inl rfl, ?_, fun h => absurd rfl h⟩
    unfold opening
    rw [List.getElem?_append_right (Nat.le_refl _), Nat.sub_self]
    rfl
  | cons e b =>
    obtain ⟨u', htaken, hrest⟩ := Pass.takeAll_cons hrest
    obtain ⟨hpast, text, htext, hraw⟩ := htaken.leaving (deltaText_eq_none (hb e rfl))
    obtain ⟨hpast', hsame⟩ := Pass.past_of_takeAll b u' t hrest hpast
    refine ⟨text, ?_, hsame.trans hraw, fun _ => hpast'⟩
    rcases htext with htext | htext
    · exact .inl htext
    · exact .inr ⟨e, List.mem_cons_self, htext⟩

theorem adjacent_of_joined {id : String} (ht : Pass.start.takeAll l = some t)
    (hk : ∀ pre e post, l = pre ++ e :: post → isDelta id e = true →
      ∃ s, Pass.start.takeAll (pre ++ [e]) = some s ∧ s.mergeableAssistantIndex = some k) : Adjacent id l := by
  cases hfirst : l.find? (isDelta id) with
  | none =>
    refine adjacent_iff.2 ⟨l, [], [], by rw [List.append_nil, List.append_nil], ?_, List.forall_mem_nil _,
      List.forall_mem_nil _⟩
    exact List.find?_eq_none.1 hfirst
  | some e =>
    obtain ⟨he, a, r, rfl, ha⟩ := List.find?_eq_some_iff_append.1 hfirst
    have ha' : ∀ x ∈ a, ¬isDelta id x = true := fun x hx => by simpa using ha x hx
    have hsplit : r = r.takeWhile (isDelta id) ++ r.dropWhile (isDelta id) := (List.takeWhile_append_dropWhile ..).symm
    generalize hd : r.takeWhile (isDelta id) = d at hsplit
    generalize hb : r.dropWhile (isDelta id) = b at hsplit
    have hdall : ∀ x ∈ e :: d, isDelta id x = true := by
      intro x hx
      rcases List.mem_cons.1 hx with rfl | hx
      · exact he
      · rw [← hd] at hx
        exact List.mem_takeWhile_imp hx
    refine adjacent_iff.2 ⟨a, e :: d, b, by rw [hsplit, List.append_assoc]; rfl, ha', hdall, ?_⟩
    obtain ⟨s, hs, -⟩ := Pass.takeAll_split ht
    -- the first delta opens the message that all the others are joined to
    have hindex : k = s.raw.length := by
      obtain ⟨s', hs', hindex⟩ := hk a e r rfl he
      rw [Pass.takeAll_append, hs] at hs'
      have hopen := takeAll_deltas hs ha' (List.cons_ne_nil e []) (fun x hx => List.mem_singleton.1 hx ▸ he) s' hs'
      rw [hopen] at hindex
      exact (Option.some.inj hindex).symm
    intro x hx hdelta
    cases b with
    | nil => exact absurd hx List.not_mem_nil
    | cons y b =>
      have hy : ¬isDelta id y = true := by
        have hhead := List.head?_dropWhile_not (isDelta id) r
        rw [hb] at hhead
        exact Bool.eq_false_iff.1 (by simpa using hhead)
      rcases List.mem_cons.1 hx with rfl | hx
      · exact hy hdelta
      · obtain ⟨b₁, b₂, rfl⟩ := List.append_of_mem hx
        obtain ⟨s', hs', hindex'⟩ := hk (a ++ (e :: d ++ (y :: b₁))) x b₂ (by rw [hsplit]; simp) hdelta
        have hplace : a ++ (e :: d ++ (y :: b₁)) ++ [x] = a ++ (e :: d ++ (y :: (b₁ ++ [x]))) := by simp
        rw [hplace, Pass.takeAll_append, hs] at hs'
        obtain ⟨text, -, -, hpast⟩ := takeAll_adjacent hs ha' (List.cons_ne_nil e d) hdall
          (fun z hz => by cases hz; exact hy) hs'
        exact (hpast (List.cons_ne_nil _ _)).2 (hindex ▸ hindex')

def splitHeader : List SessionEvent :=
  [⟨2, 2, .agent_message (some "er split-secret-value".toList) false (.text "a") false⟩,
    ⟨1, 1, .agent_message (some "Authorization: Bear".toList) false (.text "a") false⟩]

def splitToken : List SessionEvent :=
  [⟨1, 1, .agent_message (some "ghp_aaaaaaaaaa".toList) false (.text "m") false⟩, ⟨2, 2, .hidden .token_usage⟩,
    ⟨3, 3, .agent_message (some "bbbbbbbbbb".toList) false (.text "m") false⟩]

end Wollipog.Share
