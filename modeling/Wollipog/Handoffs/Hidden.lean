import Wollipog.Handoffs.Conversation
/-!
# Hidden — no private value is handed off

Every body is a part of a redacted text, so what redaction leaves out no body holds.
-/
namespace Wollipog.Handoffs

open Json (Text CodeUnit)
open Reviews (lit)
open Usage (trim)

theorem trim_within (text : Text) : trim text <:+: text := by
  unfold trim
  exact (List.rdropWhile_prefix _ _).isInfix.trans (List.dropWhile_suffix _).isInfix

variable {m : Dialogue} {e : Eligible} {privateValues : List Text}

theorem eligible_body (h : m.eligible privateValues = some e) :
    e.body <:+: redactText m.text privateValues ∧ e.body.length ≤ perMessageLimit := by
  unfold Dialogue.eligible at h
  split at h
  · cases h
  split at h
  · cases h
  cases h
  exact ⟨(List.take_prefix _ _).isInfix.trans (trim_within _), List.length_take_le _ _⟩

/-- **A body holds no private value.** -/
theorem absent_body (h : m.eligible privateValues = some e) {value : Text}
    (hmem : value ∈ privateValues) (hvalue : Hidden value) : ¬value <:+: e.body :=
  fun hin => absent_redactText m.text hmem hvalue (hin.trans (eligible_body h).1)

theorem newest_subset : ∀ (ms : List Eligible) (remaining : ℕ), ∀ m ∈ (newest remaining ms).1, m ∈ ms
  | [], _, m, h => h
  | m' :: ms, remaining, m, h => by
    rw [newest] at h
    split at h
    · exact absurd h List.not_mem_nil
    · rcases List.mem_cons.1 h with rfl | h
      · exact List.mem_cons_self
      · exact List.mem_cons_of_mem _ (newest_subset ms _ m h)

theorem select_subset (eligible : List Eligible) : ∀ m ∈ (select eligible).1, m ∈ eligible := by
  cases eligible with
  | nil => exact fun _ h => h
  | cons first rest =>
    intro m h
    rcases List.mem_cons.1 h with rfl | h
    · exact List.mem_cons_self
    · exact List.mem_cons_of_mem _ (List.mem_reverse.1 (newest_subset _ _ m (List.mem_reverse.1 h)))

def costs (ms : List Eligible) : ℕ := (ms.map (fun m => m.text.length + 2)).sum

theorem newest_costs : ∀ (ms : List Eligible) (remaining : ℕ), costs (newest remaining ms).1 ≤ remaining
  | [], _ => Nat.zero_le _
  | m :: ms, remaining => by
    rw [newest]
    split
    · exact Nat.zero_le _
    · rename_i hfits
      have hrest := newest_costs ms (remaining - (m.text.length + 2))
      simp only [costs, List.map_cons, List.sum_cons] at hrest ⊢
      omega

theorem intercalate_length {α : Type} (r : List α) : ∀ (p : List α) (ps : List (List α)),
    (r.intercalate (p :: ps)).length = p.length + (ps.map (fun q => q.length + r.length)).sum
  | p, [] => by simp
  | p, q :: ps => by
    rw [List.intercalate_cons_cons, List.length_append, List.length_append, intercalate_length r q ps, List.map_cons, List.sum_cons]
    omega

theorem text_length {m : Eligible} (h : m.body.length ≤ perMessageLimit) : m.text.length ≤ contextLimit := by
  have hrole : m.role.label.length ≤ 9 := by cases m.role <;> decide
  have hcolon : (lit ":\n").length = 2 := by decide
  have hmark : (lit "\n[Message truncated]").length = 20 := by decide
  unfold Eligible.text
  unfold perMessageLimit at h
  unfold contextLimit
  rw [List.length_append, List.length_append, List.length_append]
  split
  · omega
  · rw [List.length_nil]
    omega

/-- **The selected dialogue stays within the budget.** -/
theorem dialogueText_length {eligible : List Eligible} (h : ∀ m ∈ eligible, m.body.length ≤ perMessageLimit) :
    (dialogueText (select eligible).1).length ≤ contextLimit := by
  cases eligible with
  | nil => exact Nat.zero_le _
  | cons first rest =>
    have hfirst := text_length (h first List.mem_cons_self)
    have hcosts := newest_costs rest.reverse (contextLimit - first.text.length)
    have hblank : (lit "\n\n").length = 2 := by decide
    have hsum : (((newest (contextLimit - first.text.length) rest.reverse).1.reverse.map Eligible.text).map
        (fun q => q.length + (lit "\n\n").length)).sum = costs (newest (contextLimit - first.text.length) rest.reverse).1 := by
      rw [hblank, List.map_map, List.map_reverse, List.sum_reverse]
      rfl
    simp only [select, dialogueText, List.map_cons]
    rw [intercalate_length, hsum]
    omega

section Handoff

variable {Image : Type} {events : List (Event Image)} {cutoff : ℤ} {d : Destination Image} {privateValues : List Text} {inPlace : Bool}

theorem projectConversation_selected {p : Projection Image} (h : projectConversation events cutoff d privateValues = .ok p) :
    ∃ dialogue : List Dialogue, p.selected = (select (dialogue.filterMap (Dialogue.eligible privateValues))).1 := by
  unfold projectConversation at h
  split at h
  · cases h
  split at h
  · cases h
  rename_i s hread
  split at h
  · cases h
  · cases h
    exact ⟨s.dialogue, rfl⟩

end Handoff

/-- **No private value is handed off**, the dialogue stays within its budget, and the loop over key blocks ends. -/
theorem handoff_hides_private_values {Image : Type} (events : List (Event Image)) (cutoff : ℤ) (d : Destination Image)
    (privateValues : List Text) (inPlace : Bool) {draft : ConversationHandoffDraft Image}
    (h : buildConversationHandoff events cutoff d privateValues inPlace = .ok draft) :
    (∃ p, projectConversation events cutoff d privateValues = .ok p ∧
      draft.text = preface cutoff inPlace p ++ dialogueText p.selected ∧
      (∀ m ∈ p.selected, ∀ value ∈ privateValues, Hidden value → ¬value <:+: m.body) ∧
      (dialogueText p.selected).length ≤ contextLimit) ∧
    ∀ text : Text, (redactKeys (text.length + 1) text).isSome = true := by
  refine ⟨?_, fun text => redactKeys_isSome _ text (Nat.lt_succ_self _)⟩
  cases hp : projectConversation events cutoff d privateValues with
  | error error =>
    rw [buildConversationHandoff, hp] at h
    cases h
  | ok p =>
    rw [buildConversationHandoff, hp] at h
    obtain rfl := Except.ok.inj h
    obtain ⟨dialogue, hselected⟩ := projectConversation_selected hp
    refine ⟨p, rfl, rfl, fun m hm value hmem hvalue => ?_, ?_⟩
    · rw [hselected] at hm
      obtain ⟨source, -, heligible⟩ := List.mem_filterMap.1 (select_subset _ m hm)
      exact absent_body heligible hmem hvalue
    · rw [hselected]
      refine dialogueText_length (fun m hm => ?_)
      obtain ⟨source, -, heligible⟩ := List.mem_filterMap.1 hm
      exact (eligible_body heligible).2

def splitValue : List (Event Unit) := [
  ⟨1, .userMessage (lit "Say it") none false []⟩,
  ⟨2, .agentMessage (lit "It is hun") none (some (lit "m")) none⟩,
  ⟨3, .other⟩,
  ⟨4, .agentMessage (lit "ter2.") none (some (lit "m")) none⟩]

def anyDestination : Destination Unit := ⟨fun _ => false, fun _ => [], fun _ => none, true⟩

theorem handoff_hides_splitValue : ∃ p, projectConversation splitValue 4 anyDestination [lit "hunter2"] = .ok p ∧
    p.selected.map Eligible.body = [lit "Say it", lit "It is [redacted]."] ∧ ∀ m ∈ p.selected, ¬lit "hunter2" <:+: m.body := by
  obtain ⟨⟨p, hp, -, hbodies, -⟩, -⟩ := handoff_hides_private_values splitValue 4 anyDestination [lit "hunter2"] false rfl
  refine ⟨p, hp, ?_, fun m hm => hbodies m hm _ (List.mem_singleton_self _) ⟨by decide, by decide, by decide, by decide⟩⟩
  obtain rfl := Except.ok.inj hp
  decide +kernel

end Wollipog.Handoffs
