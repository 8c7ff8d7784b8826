import Wollipog.Claude.Billing
/-!
# Once — usage is billed once

What holds of every run of the operations, put together; and what the provider's results must be for it.
-/
namespace Wollipog.Claude

open ClaudeUsageAccounting

/-- **Usage is billed once**: what a model's totals account for is at most the largest total less the baseline at the start,
and each published request stands in one window. -/
theorem usage_billed_once : (∀ sessionId a l b, Sys.RunOn (fun _ => Cumulates sessionId) step a l b → ∀ model field, ∃ largest,
      (largest = baseline a sessionId ∨ Reported sessionId l largest) ∧
        billed model field (emitted l) ≤ cumulative model field largest - cumulative model field (baseline a sessionId)) ∧
    ∀ a l b, Sys.Run step a l b →
      (windows a.live (emitted l)).closed.flatten ++ b.live = a.live ++ (emitted l).filter isProvisional ∧
        ∀ pre op events post, l = pre ++ (op, events) :: post →
          Handles op (windows a.live (emitted pre)).open_ (windows a.live (emitted (pre ++ [(op, events)]))).open_ events := by
  constructor
  · intro sessionId a l b h model field
    obtain ⟨hle, hfrom⟩ := billed_of_run model field h
    exact ⟨baseline b sessionId, hfrom, le_sub_iff_add_le.2 hle⟩
  · intro a l b h
    obtain ⟨hopen, htold⟩ := windows_of_run h
    refine ⟨?_, fun pre op events post hsplit => htold pre (op, events) post hsplit⟩
    rw [← hopen]
    exact windows_flatten a.live (emitted l)

def fresh : ClaudeUsageAccounting := construct (some true) none [] false

def oneModel (name : String) (tokens : ℚ) : RawResult :=
  ⟨none, some 1, (OrdMap.empty : OrdMap String (Option RawModelUsage)).set name (some ⟨none, none, some tokens, none, none, none, none, none⟩),
    ⟨none, none, none, none⟩⟩

theorem reported_mem {sessionId : String} {l : List Performed} {ops : List Operation} (hops : l.map Prod.fst = ops)
    {models : OrdMap String ModelUsage} (h : Reported sessionId l models) :
    ∃ result model, Operation.result sessionId result model ∈ ops ∧ models = modelsOf result.modelUsage.entries := by
  obtain ⟨result, model, events, hmem, heq⟩ := h
  refine ⟨result, model, ?_, heq⟩
  rw [← hops]
  exact List.mem_map.2 ⟨_, hmem, rfl⟩

theorem usage_accounted_beyond_totals :
    (∃ l b, Sys.Run step fresh l b ∧ billed "m" .inputTokens (emitted l) = 10 ∧ ∀ models, ¬Reported "s" l models) ∧
    ∃ l b, Sys.Run step fresh l b ∧ billed "m" .inputTokens (emitted l) = 200 ∧
      ∀ models, Reported "s" l models → cumulative "m" .inputTokens models ≤ 100 := by
  constructor
  · obtain ⟨r, hreplay, hbilled, hops⟩ : ∃ r, Sys.replay step fresh [.request ⟨"m", some 10, none, none, none, none, none⟩, .adoptBaseline none] =
        some r ∧ billed "m" .inputTokens (emitted r.2) = 10 ∧
          r.2.map Prod.fst = [.request ⟨"m", some 10, none, none, none, none, none⟩, .adoptBaseline none] := ⟨_, rfl, by decide +kernel, rfl⟩
    refine ⟨r.2, r.1, Sys.replay_run _ _ _ _ hreplay, hbilled, fun models h => ?_⟩
    obtain ⟨result, model, hmem, -⟩ := reported_mem hops h
    rcases List.mem_cons.1 hmem with h | hmem
    · cases h
    · cases List.mem_singleton.1 hmem
  · obtain ⟨r, hreplay, hbilled, hops⟩ : ∃ r, Sys.replay step fresh
        [.result "s" (oneModel "m" 100) none, .result "s" (oneModel "n" 1) none, .result "s" (oneModel "m" 100) none] = some r ∧
          billed "m" .inputTokens (emitted r.2) = 200 ∧ r.2.map Prod.fst =
            [.result "s" (oneModel "m" 100) none, .result "s" (oneModel "n" 1) none, .result "s" (oneModel "m" 100) none] :=
      ⟨_, rfl, by decide +kernel, rfl⟩
    refine ⟨r.2, r.1, Sys.replay_run _ _ _ _ hreplay, hbilled, fun models h => ?_⟩
    obtain ⟨result, model, hmem, rfl⟩ := reported_mem hops h
    simp only [List.mem_cons, List.not_mem_nil, or_false, Operation.result.injEq, true_and] at hmem
    rcases hmem with ⟨rfl, -⟩ | ⟨rfl, -⟩ | ⟨rfl, -⟩
    · decide +kernel
    · decide +kernel
    · decide +kernel

end Wollipog.Claude
