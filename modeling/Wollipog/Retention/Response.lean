import Wollipog.Lib.Js
import Mathlib
/-!
# Response — what a history trim keeps of the agent's answers

The first pass observes the whole log, the second keeps what the rule accepts. A trim of the trimmed log finds another
boundary and keeps the same events.
-/
namespace Wollipog.Retention

inductive Kind
  | agentMessage | agentThought | toolCall | toolCallUpdate | commandOutput | fileEdit | stderr | status | error | plan
  | tokenUsage
  | other (kind : String)
  deriving DecidableEq

structure Payload where
  kind : Kind
  text : String := ""
  final : Option Bool := none
  messageId : Option String := none
  parentToolUseId : Option String := none
  runnerMarker : Option String := none
  deriving DecidableEq

structure RetentionEvent where
  seq : Nat
  payload : Payload
  deriving DecidableEq

/-- The check of `scanRetentionSources` on a record, `previous` the seq before it. -/
def validRecord (prunedThrough previous : Nat) (event : RetentionEvent) : Bool :=
  decide (previous < event.seq) &&
    (event.seq == previous + 1 || (decide (previous < prunedThrough) && decide (event.seq ≤ prunedThrough + 1)))

def scanRetentionSources (prunedThrough : Nat) : Nat → List RetentionEvent → Bool
  | _, [] => true
  | previous, event :: rest => validRecord prunedThrough previous event && scanRetentionSources prunedThrough event.seq rest

def REMOVABLE : List Kind :=
  [.agentThought, .toolCall, .toolCallUpdate, .commandOutput, .fileEdit, .stderr, .status, .error, .plan]

structure RetentionResponse where
  messageId : Option String := none
  afterSeq : Nat := 0
  lastSeq : Nat := 0
  boundary : Nat := 0
  deriving DecidableEq

def topLevel (event : RetentionEvent) : Bool :=
  event.payload.kind == .agentMessage && event.payload.parentToolUseId.isNone

def untaggedPart (event : RetentionEvent) : Bool :=
  topLevel event && event.payload.messageId.isNone && event.payload.final != some true

namespace RetentionResponse

def observe (r : RetentionResponse) (event : RetentionEvent) : RetentionResponse :=
  let r := if topLevel event then { r with messageId := event.payload.messageId, afterSeq := r.boundary, lastSeq := event.seq } else r
  if event.payload.kind != .tokenUsage && !untaggedPart event then { r with boundary := event.seq } else r

def keep (r : RetentionResponse) (event : RetentionEvent) : Bool :=
  let p := event.payload
  if p.kind = .stderr ∧ p.runnerMarker.isSome then true
  else if p.kind = .agentMessage then
    p.parentToolUseId.isNone && ((p.final == some true && Js.trim p.text != "") ||
      match r.messageId with
      | some messageId => p.messageId == some messageId
      | none => p.messageId.isNone && decide (r.afterSeq < event.seq) && decide (event.seq ≤ r.lastSeq))
  else !REMOVABLE.contains p.kind

end RetentionResponse

def observed (log : List RetentionEvent) : RetentionResponse := log.foldl RetentionResponse.observe {}

/-- The two passes of a trim. -/
def trimmed (log : List RetentionEvent) : List RetentionEvent := log.filter (observed log).keep

/-- Seqs that increase from one, as the scan requires. -/
def Increasing (log : List RetentionEvent) : Prop := (0 :: log.map RetentionEvent.seq).Pairwise (· < ·)

instance : DecidablePred Increasing := fun _ => inferInstanceAs (Decidable (List.Pairwise _ _))

variable {log l m : List RetentionEvent} {e x : RetentionEvent} {r : RetentionResponse}

theorem Increasing.positive (h : Increasing log) (he : e ∈ log) : 0 < e.seq :=
  (List.pairwise_cons.1 h).1 _ (List.mem_map_of_mem he)

theorem Increasing.sublist (h : Increasing log) (hl : l.Sublist log) : Increasing l := List.Pairwise.sublist ((hl.map _).cons_cons _) h

theorem Increasing.apart (h : Increasing (l ++ m)) (he : e ∈ l) (hx : x ∈ m) : e.seq < x.seq := by
  obtain ⟨-, h⟩ := List.pairwise_cons.1 h
  rw [List.map_append] at h
  exact (List.pairwise_append.1 h).2.2 _ (List.mem_map_of_mem he) _ (List.mem_map_of_mem hx)

theorem Increasing.below (h : Increasing (l ++ [x])) (he : e ∈ l) : e.seq < x.seq := h.apart he List.mem_cons_self

theorem Increasing.inj (h : Increasing log) {a b : RetentionEvent} (ha : a ∈ log) (hb : b ∈ log) (heq : a.seq = b.seq) : a = b :=
  List.inj_on_of_nodup_map ((List.pairwise_cons.1 h).2.imp Nat.ne_of_lt) ha hb heq

theorem scan_pairwise {prunedThrough previous : Nat} (h : scanRetentionSources prunedThrough previous log = true) :
    (previous :: log.map RetentionEvent.seq).Pairwise (· < ·) := by
  induction log generalizing previous with
  | nil => exact List.pairwise_singleton _ _
  | cons e log ih =>
    rw [scanRetentionSources, Bool.and_eq_true, validRecord, Bool.and_eq_true, decide_eq_true_eq] at h
    have hrest := ih h.2
    refine List.pairwise_cons.2 ⟨?_, hrest⟩
    intro seq hseq
    rcases List.mem_cons.1 hseq with rfl | hseq
    · exact h.1.1
    · exact h.1.1.trans ((List.pairwise_cons.1 hrest).1 seq hseq)

/-- What separates an untagged response from what came before it. -/
def divides (event : RetentionEvent) : Prop := event.payload.kind ≠ .tokenUsage ∧ untaggedPart event ≠ true

instance : DecidablePred divides := fun _ => inferInstanceAs (Decidable (_ ∧ _))

structure IsLast (log : List RetentionEvent) (last : RetentionEvent) : Prop where
  mem : last ∈ log
  top : topLevel last = true
  max : ∀ e ∈ log, topLevel e = true → e.seq ≤ last.seq

structure Response (log : List RetentionEvent) (r : RetentionResponse) (last : RetentionEvent) : Prop where
  isLast : IsLast log last
  messageId : r.messageId = last.payload.messageId
  lastSeq : r.lastSeq = last.seq
  afterSeq : ∀ seq, 0 < seq → (r.afterSeq < seq ↔ ∀ x ∈ log, seq ≤ x.seq → x.seq < last.seq → ¬divides x)

structure Observed (log : List RetentionEvent) (r : RetentionResponse) : Prop where
  boundary : ∀ seq, 0 < seq → (r.boundary < seq ↔ ∀ x ∈ log, seq ≤ x.seq → ¬divides x)
  response : (∀ x ∈ log, topLevel x ≠ true) ∨ ∃ last, Response log r last

theorem observe_boundary (r : RetentionResponse) (x : RetentionEvent) :
    (r.observe x).boundary = if divides x then x.seq else r.boundary := by
  unfold RetentionResponse.observe divides
  simp only [Bool.and_eq_true, bne_iff_ne, Bool.not_eq_true', ne_eq, Bool.not_eq_true]
  split <;> split <;> rfl

theorem observe_top (h : topLevel x = true) : (r.observe x).messageId = x.payload.messageId ∧
    (r.observe x).afterSeq = r.boundary ∧ (r.observe x).lastSeq = x.seq := by
  unfold RetentionResponse.observe
  rw [if_pos h]
  split <;> exact ⟨rfl, rfl, rfl⟩

theorem observe_skip (h : topLevel x ≠ true) : (r.observe x).messageId = r.messageId ∧
    (r.observe x).afterSeq = r.afterSeq ∧ (r.observe x).lastSeq = r.lastSeq := by
  unfold RetentionResponse.observe
  rw [if_neg h]
  split <;> exact ⟨rfl, rfl, rfl⟩

theorem forall_append_single {p : RetentionEvent → Prop} : (∀ y ∈ l ++ [x], p y) ↔ (∀ y ∈ l, p y) ∧ p x := by
  rw [List.forall_mem_append, List.forall_mem_singleton]

theorem Observed.observe (h : Observed l r) (hl : Increasing (l ++ [x])) : Observed (l ++ [x]) (r.observe x) where
  boundary := by
    intro seq hseq
    rw [observe_boundary, forall_append_single]
    split
    · rename_i hx
      constructor
      · intro hlt
        refine ⟨fun y hy hle => ?_, fun hle => absurd hle (Nat.not_le_of_lt hlt)⟩
        exact absurd (hle.trans (Nat.le_of_lt (hl.below hy))) (Nat.not_le_of_lt hlt)
      · rintro ⟨-, hno⟩
        by_contra hle
        exact hno (Nat.not_lt.1 hle) hx
    · rename_i hx
      rw [h.boundary seq hseq]
      exact ⟨fun hall => ⟨hall, fun _ => hx⟩, And.left⟩
  response := by
    cases htop : topLevel x with
    | true =>
      obtain ⟨hid, hafter, hseq⟩ := observe_top (r := r) htop
      refine .inr ⟨x, ⟨List.mem_append_cons_self, htop, ?_⟩, hid, hseq, ?_⟩
      · rw [forall_append_single]
        exact ⟨fun y hy _ => Nat.le_of_lt (hl.below hy), fun _ => Nat.le_refl _⟩
      · intro seq hseq
        rw [hafter, h.boundary seq hseq, forall_append_single]
        exact ⟨fun hall => ⟨fun y hy hle _ => hall y hy hle, fun _ hlt => absurd hlt (Nat.lt_irrefl _)⟩,
          fun hall y hy hle => hall.1 y hy hle (hl.below hy)⟩
    | false =>
      have hno : topLevel x ≠ true := by rw [htop]; exact Bool.false_ne_true
      obtain ⟨hid, hafter, hseq⟩ := observe_skip (r := r) hno
      rcases h.response with hnone | ⟨last, hr⟩
      · exact .inl (forall_append_single.2 ⟨hnone, hno⟩)
      · refine .inr ⟨last, ⟨List.mem_append_left _ hr.isLast.mem, hr.isLast.top, ?_⟩, hid.trans hr.messageId, hseq.trans hr.lastSeq, ?_⟩
        · rw [forall_append_single]
          exact ⟨hr.isLast.max, fun h => absurd h hno⟩
        · intro seq hseq
          rw [hafter, hr.afterSeq seq hseq, forall_append_single]
          exact ⟨fun hall => ⟨hall, fun _ hlt => absurd hlt (Nat.not_lt_of_lt (hl.below hr.isLast.mem))⟩, And.left⟩

theorem observed_spec (h : Increasing log) : Observed log (observed log) := by
  induction log using List.reverseRecOn with
  | nil =>
    refine ⟨fun seq hseq => ?_, .inl (fun x hx => by cases hx)⟩
    exact ⟨fun _ x hx => (by cases hx), fun _ => hseq⟩
  | append_singleton l x ih =>
    have hfold : observed (l ++ [x]) = (observed l).observe x := List.foldl_concat ..
    rw [hfold]
    exact (ih (h.sublist (List.sublist_append_left l [x]))).observe h

/-! ## The answer that is kept -/

/-- A final message of the agent that has a text. -/
def finalText (event : RetentionEvent) : Prop := event.payload.final = some true ∧ Js.trim event.payload.text ≠ ""

/-- `event` is of the response that `last` ends: it has its message id, or else only usage records and `part`s stand
between them. -/
def InResponse (part : RetentionEvent → Bool) (log : List RetentionEvent) (last event : RetentionEvent) : Prop :=
  topLevel event = true ∧ event.payload.messageId = last.payload.messageId ∧ (last.payload.messageId = none →
    event.seq ≤ last.seq ∧ ∀ x ∈ log, event.seq ≤ x.seq → x.seq < last.seq → x.payload.kind = .tokenUsage ∨ part x = true)

theorem topLevel_kind (h : topLevel e = true) : e.payload.kind = .agentMessage := by
  unfold topLevel at h
  rw [Bool.and_eq_true, beq_iff_eq] at h
  exact h.1

theorem not_divides : ¬divides x ↔ x.payload.kind = .tokenUsage ∨ untaggedPart x = true := by
  unfold divides
  rw [not_and_or, not_not, not_not]

theorem keep_message (hkind : e.payload.kind = .agentMessage) : r.keep e = true ↔ e.payload.parentToolUseId = none ∧ (finalText e ∨
    (∃ messageId, r.messageId = some messageId ∧ e.payload.messageId = some messageId) ∨
      r.messageId = none ∧ e.payload.messageId = none ∧ r.afterSeq < e.seq ∧ e.seq ≤ r.lastSeq) := by
  unfold RetentionResponse.keep finalText
  have hstderr : ¬(e.payload.kind = .stderr ∧ e.payload.runnerMarker.isSome) := by
    rw [hkind]
    exact fun h => by cases h.1
  simp only [if_neg hstderr, if_pos hkind]
  cases r.messageId with
  | none => simp [and_assoc]
  | some messageId => simp

theorem keep_other (hkind : e.payload.kind ≠ .agentMessage) (r' : RetentionResponse) : r.keep e = r'.keep e := by
  unfold RetentionResponse.keep
  simp only [if_neg hkind]

theorem keep_iff (h : Increasing log) (he : e ∈ log) (hkind : e.payload.kind = .agentMessage) : (observed log).keep e = true ↔
    topLevel e = true ∧ (finalText e ∨ ∃ last, IsLast log last ∧ InResponse untaggedPart log last e) := by
  have htop : topLevel e = true ↔ e.payload.parentToolUseId = none := by
    unfold topLevel
    rw [hkind, beq_self_eq_true, Bool.true_and, Option.isNone_iff_eq_none]
  have hpos := h.positive he
  rw [keep_message hkind, ← htop]
  refine and_congr_right fun htop => or_congr_right ?_
  rcases (observed_spec h).response with hnone | ⟨last, hr⟩
  · exact absurd htop (hnone e he)
  have hunique : ∀ other, IsLast log other → other = last := by
    intro other ho
    refine h.inj ho.mem hr.isLast.mem (Nat.le_antisymm (hr.isLast.max other ho.mem ho.top) (ho.max last hr.isLast.mem hr.isLast.top))
  have hone : (∃ other, IsLast log other ∧ InResponse untaggedPart log other e) ↔ InResponse untaggedPart log last e := by
    constructor
    · rintro ⟨other, ho, hin⟩
      rwa [hunique other ho] at hin
    · exact fun hin => ⟨last, hr.isLast, hin⟩
  rw [hone, InResponse, hr.messageId, hr.lastSeq, hr.afterSeq e.seq hpos]
  simp only [not_divides]
  cases last.payload.messageId with
  | some messageId =>
    constructor
    · rintro (⟨m, hm, hid⟩ | ⟨hm, -⟩)
      · exact ⟨htop, hid.trans hm.symm, fun h => by cases h⟩
      · cases hm
    · rintro ⟨-, hid, -⟩
      exact .inl ⟨messageId, rfl, hid⟩
  | none =>
    constructor
    · rintro (⟨m, hm, -⟩ | ⟨-, hid, hrun, hle⟩)
      · cases hm
      · exact ⟨htop, hid, fun _ => ⟨hle, hrun⟩⟩
    · rintro ⟨-, hid, hrun⟩
      exact .inr ⟨rfl, hid, (hrun rfl).2, (hrun rfl).1⟩

theorem mem_trimmed (h : Increasing log) (he : e ∈ log) (htop : topLevel e = true) :
    e ∈ trimmed log ↔ finalText e ∨ ∃ last, IsLast log last ∧ InResponse untaggedPart log last e := by
  rw [trimmed, List.mem_filter, and_iff_right he, keep_iff h he (topLevel_kind htop), and_iff_right htop]

theorem part_untagged (htop : topLevel x = true) (h : x.payload.kind = .tokenUsage ∨ untaggedPart x = true) :
    x.payload.messageId = none := by
  rcases h with h | h
  · rw [topLevel_kind htop] at h
    cases h
  · unfold untaggedPart at h
    simp only [Bool.and_eq_true, Option.isNone_iff_eq_none] at h
    exact h.1.2

theorem InResponse.tagged {last : RetentionEvent} {id : String} (hid : last.payload.messageId = some id)
    (htop : topLevel e = true) (heid : e.payload.messageId = some id) : InResponse untaggedPart log last e := by
  refine ⟨htop, heid.trans hid.symm, fun hnone => ?_⟩
  rw [hid] at hnone
  cases hnone

theorem InResponse.self {last : RetentionEvent} (hl : IsLast log last) : InResponse untaggedPart log last last :=
  ⟨hl.top, rfl, fun _ => ⟨Nat.le_refl _, fun _ _ hle hlt => absurd hle (Nat.not_le_of_lt hlt)⟩⟩

/-- What an untagged response has of a beginning of the log is of the response that the beginning ends with. -/
theorem InResponse.begins (h : Increasing (l ++ m)) (he : e ∈ l) {last : RetentionEvent} (hl : IsLast (l ++ m) last)
    (hin : InResponse untaggedPart (l ++ m) last e) (hid : last.payload.messageId = none) : e ∈ trimmed l := by
  have hlog : Increasing l := h.sublist (List.sublist_append_left l m)
  obtain ⟨htop, heid, hrun⟩ := hin
  obtain ⟨-, hrun⟩ := hrun hid
  rcases (observed_spec hlog).response with hnone | ⟨last', hr⟩
  · exact absurd htop (hnone e he)
  have hl' := hr.isLast
  have hmem : last' ∈ l ++ m := List.mem_append_left m hl'.mem
  have hle := hl'.max e he htop
  refine (mem_trimmed hlog he htop).2 (.inr ⟨last', hl', htop, ?_, fun _ => ⟨hle, fun x hx hex hlt => ?_⟩⟩)
  · rcases (hl.max last' hmem hl'.top).eq_or_lt with heq | hlt
    · rw [h.inj hmem hl.mem heq]
      exact heid
    · rw [heid, hid, part_untagged hl'.top (hrun last' hmem hle hlt)]
  · exact hrun x (List.mem_append_left m hx) hex (hlt.trans_le (hl.max last' hmem hl'.top))

/-- The messages of the last response's id that a trim of the beginning `l` met are kept by it. -/
def TagKept (l m : List RetentionEvent) : Prop := ∀ last id, IsLast (l ++ m) last → last.payload.messageId = some id →
  ∀ e ∈ l, topLevel e = true → e.payload.messageId = some id → e ∈ trimmed l

theorem trimmed_later (h : Increasing (l ++ m)) (hids : TagKept l m) : trimmed (l ++ m) ⊆ trimmed (trimmed l ++ m) := by
  have hlog : Increasing l := h.sublist (List.sublist_append_left l m)
  have hsub : (trimmed l ++ m).Sublist (l ++ m) := List.filter_sublist.append_right m
  have hkept : ∀ {e : RetentionEvent}, e ∈ l ++ m → (e ∈ l → e ∈ trimmed l) → e ∈ trimmed l ++ m := fun he hel =>
    List.mem_append.2 ((List.mem_append.1 he).imp_left hel)
  intro e he
  obtain ⟨he, hkeep⟩ := List.mem_filter.1 he
  by_cases hkind : e.payload.kind = .agentMessage
  · obtain ⟨htop, hwhy⟩ := (keep_iff h he hkind).1 hkeep
    have hthere : e ∈ trimmed l ++ m := by
      refine hkept he (fun hel => ?_)
      rcases hwhy with hfinal | ⟨last, hl, hin⟩
      · exact (mem_trimmed hlog hel htop).2 (.inl hfinal)
      · cases hid : last.payload.messageId with
        | none => exact InResponse.begins h hel hl hin hid
        | some id => exact hids last id hl hid e hel htop (hin.2.1.trans hid)
    refine (mem_trimmed (h.sublist hsub) hthere htop).2 (hwhy.imp_right ?_)
    rintro ⟨last, hl, -, hid, hrun⟩
    have hlast : last ∈ trimmed l ++ m := by
      refine hkept hl.mem (fun hll => ?_)
      have hl' : IsLast l last := ⟨hll, hl.top, fun x hx => hl.max x (List.mem_append_left m hx)⟩
      exact (mem_trimmed hlog hll hl.top).2 (.inr ⟨last, hl', .self hl'⟩)
    exact ⟨last, ⟨hlast, hl.top, fun x hx => hl.max x (hsub.subset hx)⟩, htop, hid, fun hnone =>
      ⟨(hrun hnone).1, fun x hx => (hrun hnone).2 x (hsub.subset hx)⟩⟩
  · have hrule : ∀ r : RetentionResponse, r.keep e = true := fun r => (keep_other hkind (observed (l ++ m))).trans hkeep
    exact List.mem_filter.2 ⟨hkept he (fun hel => List.mem_filter.2 ⟨hel, hrule _⟩), hrule _⟩

/-- The rule keeps in a trimmed log whatever it kept in the log. -/
theorem keep_trimmed (h : Increasing log) (he : e ∈ log) (hkeep : (observed log).keep e = true) :
    (observed (trimmed log)).keep e = true := by
  have hlater : trimmed (log ++ []) ⊆ trimmed (trimmed log ++ []) := by
    refine trimmed_later (by rwa [List.append_nil]) (fun last id hl hid x hx htop hxid => ?_)
    rw [List.append_nil] at hl
    exact (mem_trimmed h hx htop).2 (.inr ⟨last, hl, .tagged hid htop hxid⟩)
  rw [List.append_nil, List.append_nil] at hlater
  exact (List.mem_filter.1 (hlater (List.mem_filter.2 ⟨he, hkeep⟩))).2

/-- **A trim is idempotent and keeps the last answer**: of the agent's messages, the final ones that have a text and the last
response. -/
theorem trimmed_keeps_last_response (h : Increasing log) : trimmed (trimmed log) = trimmed log ∧
    ∀ e ∈ log, e.payload.kind = .agentMessage → (e ∈ trimmed log ↔
      topLevel e = true ∧ (finalText e ∨ ∃ last, IsLast log last ∧ InResponse untaggedPart log last e)) := by
  constructor
  · refine List.filter_eq_self.2 (fun e he => ?_)
    obtain ⟨he, hkeep⟩ := List.mem_filter.1 he
    exact keep_trimmed h he hkeep
  · intro e he hkind
    rw [← keep_iff h he hkind]
    exact ⟨fun hin => (List.mem_filter.1 hin).2, fun hkeep => List.mem_filter.2 ⟨he, hkeep⟩⟩

def untagged (event : RetentionEvent) : Bool := topLevel event && event.payload.messageId.isNone

def threeMessages : List RetentionEvent :=
  [⟨1, { kind := .agentMessage, text := "Reading" }⟩, ⟨2, { kind := .agentMessage, text := "Read", final := some true }⟩,
    ⟨3, { kind := .agentMessage, text := "Done" }⟩]

theorem threeMessages_keeps : Increasing threeMessages ∧ trimmed (trimmed threeMessages) = trimmed threeMessages ∧
    ∀ e ∈ threeMessages, e.payload.kind = .agentMessage → (e ∈ trimmed threeMessages ↔ topLevel e = true ∧
      (finalText e ∨ ∃ last, IsLast threeMessages last ∧ InResponse untaggedPart threeMessages last e)) :=
  ⟨by decide, trimmed_keeps_last_response (by decide)⟩

/-- A final untagged message separates the ones before it from the last response. -/
theorem reading_removed : ¬∀ log : List RetentionEvent, Increasing log → trimmed (trimmed log) = trimmed log ∧
    ∀ e ∈ log, e.payload.kind = .agentMessage → (e ∈ trimmed log ↔
      topLevel e = true ∧ (finalText e ∨ ∃ last, IsLast log last ∧ InResponse untagged log last e)) := by
  intro hall
  let first : RetentionEvent := ⟨1, { kind := .agentMessage, text := "Reading" }⟩
  let done : RetentionEvent := ⟨3, { kind := .agentMessage, text := "Done" }⟩
  have hlast : IsLast threeMessages done := ⟨by decide, rfl, by decide⟩
  have hrun : InResponse untagged threeMessages done first :=
    ⟨rfl, rfl, fun _ => ⟨by decide, fun x hx _ _ => .inr ((by decide : ∀ x ∈ threeMessages, untagged x = true) x hx)⟩⟩
  have hkept : first ∈ trimmed threeMessages :=
    ((hall threeMessages (by decide)).2 first (by decide) rfl).2 ⟨rfl, .inr ⟨done, hlast, hrun⟩⟩
  exact (by decide +kernel : first ∉ trimmed threeMessages) hkept

/-- Later events, whose seqs go on without a gap. -/
theorem scan_later {prunedThrough previous : Nat} (h : m.map RetentionEvent.seq = List.range' (previous + 1) m.length) :
    scanRetentionSources prunedThrough previous m = true := by
  induction m generalizing previous with
  | nil => rfl
  | cons e m ih =>
    obtain ⟨he, hm⟩ := List.cons.inj h
    rw [scanRetentionSources, validRecord, he, ih hm]
    simp

theorem scan_kept {through previous : Nat} (hl : (previous :: l.map RetentionEvent.seq).Pairwise (· < ·)) (hprevious : previous ≤ through)
    (hthrough : ∀ e ∈ l, e.seq ≤ through) (hm : m.map RetentionEvent.seq = List.range' (through + 1) m.length) :
    scanRetentionSources through previous (l ++ m) = true := by
  induction l generalizing previous with
  | nil =>
    cases m with
    | nil => rfl
    | cons e m =>
      obtain ⟨he, hm⟩ := List.cons.inj hm
      rw [List.nil_append, scanRetentionSources, scan_later (by rw [he]; exact hm), validRecord, he]
      grind
  | cons e l ih =>
    obtain ⟨hlt, hrest⟩ := List.pairwise_cons.1 hl
    have hlt := hlt e.seq List.mem_cons_self
    have hle := hthrough e List.mem_cons_self
    rw [List.cons_append, scanRetentionSources, ih hrest hle (fun x hx => hthrough x (List.mem_cons_of_mem e hx)), validRecord]
    grind

/-- **What a trim leaves is read again**, with the events that come after it. -/
theorem trimmed_scans_again {prunedThrough through : Nat} (hscan : scanRetentionSources prunedThrough 0 l = true)
    (hthrough : ∀ e ∈ l, e.seq ≤ through) (hm : m.map RetentionEvent.seq = List.range' (through + 1) m.length) :
    scanRetentionSources through 0 (trimmed l ++ m) = true :=
  scan_kept ((scan_pairwise hscan).sublist ((List.filter_sublist.map _).cons_cons _)) (Nat.zero_le _)
    (fun e he => hthrough e (List.mem_filter.1 he).1) hm

theorem trimmed_scans_again_sample : scanRetentionSources 3 0 (trimmed threeMessages ++ [⟨4, { kind := .status }⟩]) = true :=
  trimmed_scans_again (by decide : scanRetentionSources 0 0 threeMessages = true) (by decide) rfl

end Wollipog.Retention
