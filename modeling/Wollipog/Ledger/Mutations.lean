import Wollipog.Ledger.Consistent
/-!
# Mutations — each mutation is a sequence of writes

What a mutation checked before a write is still so when it writes, since no write takes an item away.
-/
namespace Wollipog.Ledger

open Authority (CampaignIssueRef campaignRepositoryLocation)

section

variable {t u : Tables} {c i : String} {h : Hooks} {actor : String} {now : Int}

theorem revises_touch (now : Int) : Revises (fun r => { r with updatedAt := now }) where
  id := fun _ => rfl
  campaign := fun _ => rfl
  key := fun _ => rfl
  origin := fun _ => rfl
  created := fun _ => rfl
  located := fun _ hlocated => hlocated

theorem touchItem_write (now : Int) (hitem : (t.item c i).isSome = true) : Write c t (t.touchItem i now) :=
  .reviseItem i false _ hitem (revises_touch now) (fun _ _ => rfl)

theorem closeAttempt_writes {a : AttemptRow} {reason : AttemptEndReason} {note : Option String} (hwf : Wf t) (ha : a ∈ t.attempts)
    (hc : a.campaignSessionId = c) : Writes c t (closeAttempt h a reason now note t) := by
  unfold closeAttempt
  have hend : Write c t (t.endAttempt a.id ⟨now, (a.sessionId.map h.boundary).getD ⟨none, none, none⟩, reason, note⟩) :=
    .endAttempt a _ ha hc
  have hitem := hwf.homes a ha
  rw [hc] at hitem
  exact .tail (.single hend) (touchItem_write now (hend.item_isSome hwf hitem))

theorem writeDependencies_writes (edges : OrdMap String (List String)) : ∀ (changed : List String) {t : Tables}, Wf t →
    (∀ i ∈ changed, (t.item c i).isSome = true) → Writes c t (writeDependencies edges changed t)
  | [], _, _, _ => .refl
  | i :: changed, t, hwf, hitems => by
    have hset : Write c t (t.setDependencies i ((edges.get i).getD [])) := .setDependencies i _ (hitems i List.mem_cons_self)
    refine .head hset ?_
    apply writeDependencies_writes edges changed (hset.wf hwf)
    intro j hj
    exact hset.item_isSome hwf (hitems j (List.mem_cons_of_mem i hj))

theorem touchAll_writes : ∀ (ids : List String) {t : Tables}, Wf t → (∀ i ∈ ids, (t.item c i).isSome = true) →
    Writes c t (touchAll now ids t)
  | [], _, _, _ => .refl
  | i :: ids, t, hwf, hitems => by
    have htouch : Write c t (t.touchItem i now) := touchItem_write now (hitems i List.mem_cons_self)
    refine .head htouch ?_
    apply touchAll_writes ids (htouch.wf hwf)
    intro j hj
    exact htouch.item_isSome hwf (hitems j (List.mem_cons_of_mem i hj))

variable {revision : Nat} {b : Bool} {uuid : Uuid} {item : ItemRow} {uuids : Nat → Uuid} {changed : List String}
  {a : UpdateResult} {input : PlanItemInput} {rs : List Replacement} {planState : Option PlanState} {f : ItemRow → ItemRow}
  {request : Option (Option HandoffRequest)}

theorem bump_ok (hok : bump c now planState t = (.ok revision, u)) : u = t.bump c now planState ∧ revision = u.revision c := by
  unfold bump at hok
  replace hok := Tx.bind_write_ok.1 hok
  replace hok := Tx.bind_read_ok.1 hok
  obtain ⟨rfl, rfl⟩ := Tx.pure_ok.1 hok
  exact ⟨rfl, rfl⟩

theorem bump_pure_ok {g : Nat → α} {a : α} (hok : (bump c now planState >>= fun revision => pure (g revision)) t = (.ok a, u)) :
    u = t.bump c now planState := by
  obtain ⟨revision, t₁, hbump, hok⟩ := Tx.bind_ok.1 hok
  obtain ⟨-, rfl⟩ := Tx.pure_ok.1 hok
  exact (bump_ok hbump).1

theorem bumpIf_ok (hok : bumpIf b c now planState t = (.ok revision, u)) :
    u = (if b then t.bump c now planState else t) ∧ revision = u.revision c := by
  unfold bumpIf at hok
  replace hok := Tx.bind_read_ok.1 hok
  cases b with
  | true => exact bump_ok hok
  | false =>
    obtain ⟨rfl, rfl⟩ := Tx.pure_ok.1 hok
    exact ⟨rfl, rfl⟩

theorem bumpIf_writes (b : Bool) (planState : Option PlanState) : Writes c t (if b then t.bump c now planState else t) := by
  cases b with
  | true => exact .single (.bump now planState)
  | false => exact .refl

/-- **One replacement**: the set is as asked already, or it is set now. -/
theorem replaceOne_ok {acc acc' : OrdMap String (List String) × List String} {r : Replacement}
    (hok : replaceOne t h c acc r = .ok acc') :
    (∀ j ∈ First.firstBy id r.dependsOn, (t.item c j).isSome = true) ∧
      ((sameSet ((acc.1.get r.itemId).getD []) (First.firstBy id r.dependsOn) = true ∧ acc' = acc) ∨
        (sameSet ((acc.1.get r.itemId).getD []) (First.firstBy id r.dependsOn) = false ∧
          acc' = (acc.1.set r.itemId (First.firstBy id r.dependsOn), acc.2 ++ [r.itemId]))) := by
  unfold replaceOne at hok
  simp only at hok
  split at hok
  · cases hok
  · split at hok
    · cases hok
    · split at hok
      · cases hok
      · rename_i hmissing
        refine ⟨fun j hj => ?_, ?_⟩
        · rw [Bool.not_eq_true', Bool.not_eq_false, List.isEmpty_iff] at hmissing
          unfold missingItemIds at hmissing
          have hthere := List.filter_eq_nil_iff.1 hmissing j hj
          rw [Option.isNone_iff_eq_none, ← Option.not_isSome_iff_eq_none, not_not] at hthere
          exact hthere
        · split at hok
          · rename_i hsame
            cases hok
            exact .inl ⟨hsame, rfl⟩
          · rename_i hdiffers
            split at hok
            · cases hok
            · cases hok
              exact .inr ⟨Bool.eq_false_iff.2 hdiffers, rfl⟩

theorem replaceOne_changed {acc acc' : OrdMap String (List String) × List String} {r : Replacement}
    (hok : replaceOne t h c acc r = .ok acc') : acc' = acc ∨ acc' = (acc.1.set r.itemId (First.firstBy id r.dependsOn), acc.2 ++ [r.itemId]) := by
  rcases (replaceOne_ok hok).2 with ⟨-, hsame⟩ | ⟨-, hchanged⟩
  · exact .inl hsame
  · exact .inr hchanged

theorem replaceAll_changed : ∀ (rs : List Replacement) {acc acc' : OrdMap String (List String) × List String},
    replaceAll t h c rs acc = .ok acc' → ∀ i ∈ acc'.2, i ∈ acc.2 ∨ ∃ r ∈ rs, r.itemId = i
  | [], acc, acc', hok, i, hi => by
    cases hok
    exact .inl hi
  | r :: rs, acc, acc', hok, i, hi => by
    unfold replaceAll at hok
    split at hok
    · cases hok
    · rename_i mid hone
      rcases replaceAll_changed rs hok i hi with hmid | ⟨r', hr', hid⟩
      · rcases replaceOne_changed hone with rfl | rfl
        · exact .inl hmid
        · rcases List.mem_append.1 hmid with hold | hnew
          · exact .inl hold
          · rw [List.mem_singleton] at hnew
            exact .inr ⟨r, List.mem_cons_self, hnew.symm⟩
      · exact .inr ⟨r', List.mem_cons_of_mem r hr', hid⟩

theorem replaceDependencies_ok (hok : replaceDependencies h c rs t = (.ok changed, u)) :
    ∃ edges, replaceAll t h c rs (dependencyEdges t c, []) = .ok (edges, changed) ∧ u = writeDependencies edges changed t := by
  unfold replaceDependencies at hok
  replace hok := Tx.bind_read_ok.1 hok
  cases hall : replaceAll t h c rs (dependencyEdges t c, []) with
  | error e =>
    rw [hall] at hok
    cases hok
  | ok found =>
    rw [hall] at hok
    replace hok := (Tx.bind_refuseIf_ok.1 hok).2
    replace hok := Tx.bind_write_ok.1 hok
    obtain ⟨rfl, rfl⟩ := Tx.pure_ok.1 hok
    exact ⟨found.1, rfl, rfl⟩

theorem replaceDependencies_writes (hwf : Wf t)
    (hitems : ∀ r ∈ rs, (t.item c r.itemId).isSome = true) (hok : replaceDependencies h c rs t = (.ok changed, u)) :
    Writes c t u ∧ ∀ i ∈ changed, (t.item c i).isSome = true := by
  obtain ⟨edges, hall, rfl⟩ := replaceDependencies_ok hok
  have hchanged : ∀ i ∈ changed, (t.item c i).isSome = true := by
    intro i hi
    rcases replaceAll_changed rs hall i hi with hnone | ⟨r, hr, rfl⟩
    · exact absurd hnone List.not_mem_nil
    · exact hitems r hr
  exact ⟨writeDependencies_writes edges changed hwf hchanged, hchanged⟩

theorem insertItem_ok {row : ItemRow} {x : Unit} (hok : insertItem row t = (.ok x, u)) :
    u = t.addItem row ∧ ∀ r ∈ t.items, r.id ≠ row.id ∧ ¬(r.campaignSessionId = row.campaignSessionId ∧ r.itemKey = row.itemKey) := by
  unfold insertItem at hok
  replace hok := Tx.bind_read_ok.1 hok
  obtain ⟨hfree, hok⟩ := Tx.bind_refuseIf_ok.1 hok
  obtain rfl := Tx.write_ok.1 hok
  refine ⟨rfl, fun r hr => ?_⟩
  split at hfree
  · cases hfree
  · rename_i hany
    have hnot := List.any_eq_false.1 (Bool.eq_false_iff.2 hany) r hr
    simp only [Bool.or_eq_true, Bool.and_eq_true, beq_iff_eq, not_or] at hnot
    exact hnot

theorem revises_plan (now : Int) (input : PlanItemInput) : Revises (fun row => { revisedPlanItem input row with updatedAt := now }) where
  id := fun _ => rfl
  campaign := fun _ => rfl
  key := fun _ => rfl
  origin := fun _ => rfl
  created := fun _ => rfl
  located := fun _ hlocated => hlocated

/-- **What planning one item does**: it creates the item, leaves it, or revises it. -/
inductive Planned (c actor : String) (now : Int) (uuid : Uuid) (input : PlanItemInput) (t : Tables) : PlanItemResult × Bool → Tables → Prop
  | created : (∀ r ∈ t.items, r.id ≠ newId "cwi_" uuid ∧ ¬(r.campaignSessionId = c ∧ r.itemKey = input.key)) →
      Planned c actor now uuid input t (⟨input.key, newId "cwi_" uuid, true⟩, true)
        (t.addItem (newPlanItem c actor now input (newId "cwi_" uuid)))
  | same (existing : ItemRow) : t.itemByKey c input.key = some existing → (∀ o, input.origin = some o → o = existing.origin) →
      revisedPlanItem input existing = existing → Planned c actor now uuid input t (⟨input.key, existing.id, false⟩, false) t
  | revised (existing : ItemRow) : t.itemByKey c input.key = some existing → (∀ o, input.origin = some o → o = existing.origin) →
      revisedPlanItem input existing ≠ existing → Planned c actor now uuid input t (⟨input.key, existing.id, false⟩, true)
        (t.reviseItem existing.id true (fun row => { revisedPlanItem input row with updatedAt := now }))

theorem planItem_planned {r : PlanItemResult × Bool}
    (hok : planItem h c actor now uuid input t = (.ok r, u)) : Planned c actor now uuid input t r u := by
  unfold planItem at hok
  replace hok := Tx.bind_read_ok.1 hok
  cases hkey : t.itemByKey c input.key with
  | none =>
    rw [hkey] at hok
    replace hok := (Tx.bind_refuseIf_ok.1 hok).2
    obtain ⟨x, t₄, hinsert, hok⟩ := Tx.bind_ok.1 hok
    obtain ⟨rfl, rfl⟩ := Tx.pure_ok.1 hok
    obtain ⟨rfl, hnew⟩ := insertItem_ok hinsert
    exact .created hnew
  | some existing =>
    rw [hkey] at hok
    obtain ⟨hnone, hok⟩ := Tx.bind_refuseIf_ok.1 hok
    have hsame : ∀ o, input.origin = some o → o = existing.origin := by
      intro o ho
      by_contra hne
      simp [ho, hne] at hnone
    replace hok := Tx.bind_read_ok.1 hok
    replace hok := (Tx.bind_refuseIf_ok.1 hok).2
    split at hok
    · rename_i hnext
      obtain ⟨rfl, rfl⟩ := Tx.pure_ok.1 hok
      exact .same existing hkey hsame hnext
    · rename_i hnext
      replace hok := Tx.bind_write_ok.1 hok
      obtain ⟨rfl, rfl⟩ := Tx.pure_ok.1 hok
      exact .revised existing hkey hsame hnext

theorem Planned.writes {r : PlanItemResult × Bool} (hp : Planned c actor now uuid input t r u) (hwf : Wf t) : Writes c t u := by
  cases hp with
  | created hnew =>
    have hnamed : Named (newPlanItem c actor now input (newId "cwi_" uuid)) := ⟨⟨uuid, rfl⟩, fun _ hstage => by cases hstage⟩
    exact .single (.addItem _ rfl hnamed hnew)
  | same existing hkey horigin hnext => exact .refl
  | revised existing hkey horigin hnext =>
    have hitem : (t.item c existing.id).isSome = true := by
      rw [hwf.item_of_key hkey]
      rfl
    exact .single (.reviseItem _ _ _ hitem (revises_plan now input) (fun hfalse => by cases hfalse))

theorem planItems_writes {uuids : Nat → Uuid} : ∀ (inputs : List PlanItemInput) {index : Nat} {r : List PlanItemResult × Bool}
    {t u : Tables}, Wf t → planItems h c actor now uuids index inputs t = (.ok r, u) → Writes c t u
  | [], _, _, _, _, _, hok => by
    obtain ⟨-, rfl⟩ := Tx.pure_ok.1 hok
    exact .refl
  | input :: inputs, index, r, t, u, hwf, hok => by
    unfold planItems at hok
    obtain ⟨first, t₁, hfirst, hok⟩ := Tx.bind_ok.1 hok
    obtain ⟨rest, t₂, hrest, hok⟩ := Tx.bind_ok.1 hok
    obtain ⟨-, rfl⟩ := Tx.pure_ok.1 hok
    have hwrites := (planItem_planned hfirst).writes hwf
    exact hwrites.trans (planItems_writes inputs (hwrites.wf hwf) hrest)

theorem planReplacements_items (hwf : Wf t) : ∀ (inputs : List PlanItemInput) {rs : List Replacement},
    planReplacements c t inputs = .ok rs → ∀ r ∈ rs, (t.item c r.itemId).isSome = true
  | [], rs, hok, r, hr => by
    cases hok
    exact absurd hr List.not_mem_nil
  | input :: inputs, rs, hok, r, hr => by
    unfold planReplacements at hok
    split at hok
    · exact planReplacements_items hwf inputs hok r hr
    · split at hok
      · cases hok
      · split at hok
        · rename_i item rest hkey hrest
          cases hok
          rcases List.mem_cons.1 hr with rfl | hr
          · rw [hwf.item_of_key hkey]
            rfl
          · exact planReplacements_items hwf inputs hrest r hr
        · cases hok
        · cases hok

theorem recordFixedBy_writes {link : FixedByLink} (hok : recordFixedBy c link t = (.ok b, u)) : Writes c t u := by
  unfold recordFixedBy at hok
  replace hok := Tx.bind_read_ok.1 hok
  cases hids : idsOfKeys c t link.workItemKeys with
  | error key =>
    rw [hids] at hok
    cases hok
  | ok ids =>
    rw [hids] at hok
    simp only at hok
    cases hprevious : t.fixedByItems c (Js.lower link.issue.repository) link.issue.number with
    | some previous =>
      rw [hprevious] at hok
      replace hok := (Tx.bind_refuseIf_ok.1 hok).2
      obtain ⟨-, rfl⟩ := Tx.pure_ok.1 hok
      exact .refl
    | none =>
      rw [hprevious] at hok
      replace hok := Tx.bind_write_ok.1 hok
      obtain ⟨-, rfl⟩ := Tx.pure_ok.1 hok
      exact .single (.addFixedBy _ rfl)

theorem recordFixedByAll_writes : ∀ (links : List FixedByLink) {b : Bool} {t u : Tables},
    recordFixedByAll c links t = (.ok b, u) → Writes c t u
  | [], _, _, _, hok => by
    obtain ⟨-, rfl⟩ := Tx.pure_ok.1 hok
    exact .refl
  | link :: links, b, t, u, hok => by
    unfold recordFixedByAll at hok
    obtain ⟨first, t₁, hfirst, hok⟩ := Tx.bind_ok.1 hok
    obtain ⟨rest, t₂, hrest, hok⟩ := Tx.bind_ok.1 hok
    obtain ⟨-, rfl⟩ := Tx.pure_ok.1 hok
    exact (recordFixedBy_writes hfirst).trans (recordFixedByAll_writes links hrest)

/-- **An accepted plan**, in its parts. -/
theorem planWork_ok {request : RecordCampaignPlanRequest} {r : RecordCampaignPlanResponse}
    (hok : planWork h c actor now uuids request t = (.ok r, u)) :
    ∃ items t₁ replacements changed t₂ fixed t₃, planItems h c actor now uuids 0 request.items t = (.ok items, t₁) ∧
      planReplacements c t₁ request.items = .ok replacements ∧
      replaceDependencies h c replacements t₁ = (.ok changed, t₂) ∧
      recordFixedByAll c (request.fixedBy.getD []) (touchAll now changed t₂) = (.ok fixed, t₃) ∧
      u = if items.2 || !changed.isEmpty || fixed || decide (t₃.planState c ≠ planStateOf request)
        then t₃.bump c now (some (planStateOf request)) else t₃ := by
  unfold planWork at hok
  replace hok := Tx.bind_read_ok.1 hok
  replace hok := (Tx.bind_refuseIf_ok.1 hok).2
  obtain ⟨items, t₃, hitems, hok⟩ := Tx.bind_ok.1 hok
  replace hok := Tx.bind_read_ok.1 hok
  cases hreplacements : planReplacements c t₃ request.items with
  | error e =>
    rw [hreplacements] at hok
    cases hok
  | ok replacements =>
    rw [hreplacements] at hok
    obtain ⟨changed, t₆, hchanged, hok⟩ := Tx.bind_ok.1 hok
    replace hok := Tx.bind_write_ok.1 hok
    obtain ⟨fixed, t₈, hfixed, hok⟩ := Tx.bind_ok.1 hok
    replace hok := Tx.bind_read_ok.1 hok
    obtain ⟨revision, t₁₁, hrevision, hok⟩ := Tx.bind_ok.1 hok
    obtain ⟨rfl, rfl⟩ := Tx.pure_ok.1 hok
    exact ⟨items, _, replacements, changed, _, fixed, _, hitems, hreplacements, hchanged, hfixed, (bumpIf_ok hrevision).1⟩

theorem planWork_writes {request : RecordCampaignPlanRequest} {r : RecordCampaignPlanResponse} (hwf : Wf t)
    (hok : planWork h c actor now uuids request t = (.ok r, u)) : Writes c t u := by
  obtain ⟨items, t₁, replacements, changed, t₂, fixed, t₃, hitems, hreplacements, hchanged, hfixed, rfl⟩ := planWork_ok hok
  have h₁ := planItems_writes request.items hwf hitems
  have hwf₁ := h₁.wf hwf
  obtain ⟨h₂, hthere⟩ := replaceDependencies_writes hwf₁ (planReplacements_items hwf₁ request.items hreplacements) hchanged
  have hwf₂ := h₂.wf hwf₁
  have htouch : Writes c t₂ (touchAll now changed t₂) :=
    touchAll_writes changed hwf₂ (fun i hi => h₂.item_isSome hwf₁ (hthere i hi))
  have hall := ((h₁.trans h₂).trans htouch).trans (recordFixedByAll_writes _ hfixed)
  exact hall.trans (bumpIf_writes _ _)

/-! ## An update -/

theorem firstRefusal_none {checks : List (Bool × LedgerError)} (hnone : firstRefusal checks = none) : ∀ x ∈ checks, x.1 = false := by
  intro x hx
  unfold firstRefusal at hnone
  rw [Option.map_eq_none_iff, List.find?_eq_none] at hnone
  exact Bool.eq_false_iff.2 (hnone x hx)

variable {r : UpdateCampaignWorkItemRequest}

theorem mem_updateSets :
    f ∈ updateSets actor now item r ↔ setTitle item r = some f ∨ setIssue item r = some f ∨ setDispatchState item r = some f ∨
      setQueuePosition item r = some f ∨ setNextAction item r = some f ∨ setCommitment actor now item r = some f ∨
      setStage actor now item r = some f ∨ setBlocker actor now item r = some f := by
  unfold updateSets
  rw [List.mem_filterMap]
  simp only [List.mem_cons, List.not_mem_nil, or_false, id_eq]
  constructor
  · rintro ⟨a, ha, rfl⟩
    rcases ha with h | h | h | h | h | h | h | h <;> simp [h.symm]
  · intro hf
    exact ⟨some f, by rcases hf with h | h | h | h | h | h | h | h <;> simp [h], rfl⟩

theorem stage_located (hvalid : updateRefusal r = none) {s : StageRequest}
    (hs : r.stage = some (some s)) : ∀ ref ∈ s.pullRequests.getD [], (campaignRepositoryLocation ref.repository).isSome = true := by
  intro ref href
  cases hrefs : s.pullRequests with
  | none =>
    rw [hrefs] at href
    exact absurd href List.not_mem_nil
  | some refs =>
    rw [hrefs] at href
    have hcheck := firstRefusal_none hvalid
      (s.pullRequests.any (fun refs => !validPullRequests refs),
        fail ("stage.pullRequests must list at most " ++ toString pullRequestsPerStage ++ " refs, each " ++ refShape) 400)
      (by simp [hs, stageChecks])
    simp only [hrefs, Option.any_some, Bool.not_eq_false'] at hcheck
    unfold validPullRequests at hcheck
    rw [Bool.and_eq_true, List.all_eq_true] at hcheck
    have href' := hcheck.2 ref href
    unfold validIssue at href'
    simp only [Bool.and_eq_true] at href'
    exact href'.1.1

/-- What a set keeps, whichever column it is of. -/
theorem updateSets_keeps (hf : f ∈ updateSets actor now item r) (row : ItemRow) :
    ((f row).id = row.id ∧ (f row).campaignSessionId = row.campaignSessionId ∧ (f row).itemKey = row.itemKey ∧
      (f row).origin = row.origin ∧ (f row).createdAt = row.createdAt) ∧
    (setIssue item r = some f ∨ (f row).issue = row.issue) ∧
    (setStage actor now item r = some f ∨ (f row).stage = row.stage) := by
  rcases mem_updateSets.1 hf with hset | hset | hset | hset | hset | hset | hset | hset
  · unfold setTitle at hset
    split at hset
    · cases hset
    · split at hset <;> cases hset
      exact ⟨⟨rfl, rfl, rfl, rfl, rfl⟩, .inr rfl, .inr rfl⟩
  · have hset' := hset
    unfold setIssue at hset'
    split at hset'
    · cases hset'
    · split at hset' <;> cases hset'
      exact ⟨⟨rfl, rfl, rfl, rfl, rfl⟩, .inl hset, .inr rfl⟩
  · unfold setDispatchState at hset
    split at hset
    · cases hset
    · split at hset <;> cases hset
      exact ⟨⟨rfl, rfl, rfl, rfl, rfl⟩, .inr rfl, .inr rfl⟩
  · unfold setQueuePosition at hset
    split at hset
    · cases hset
    · split at hset <;> cases hset
      exact ⟨⟨rfl, rfl, rfl, rfl, rfl⟩, .inr rfl, .inr rfl⟩
  · unfold setNextAction at hset
    split at hset
    · cases hset
    · split at hset <;> cases hset
      exact ⟨⟨rfl, rfl, rfl, rfl, rfl⟩, .inr rfl, .inr rfl⟩
  · unfold setCommitment at hset
    split at hset
    · cases hset
    · split at hset <;> cases hset
      exact ⟨⟨rfl, rfl, rfl, rfl, rfl⟩, .inr rfl, .inr rfl⟩
  · have hset' := hset
    unfold setStage at hset'
    split at hset'
    · cases hset'
    · split at hset' <;> cases hset'
      exact ⟨⟨rfl, rfl, rfl, rfl, rfl⟩, .inr rfl, .inl hset⟩
  · unfold setBlocker at hset
    split at hset
    · cases hset
    · split at hset <;> cases hset
      exact ⟨⟨rfl, rfl, rfl, rfl, rfl⟩, .inr rfl, .inr rfl⟩

/-- **A column that an update sets** keeps what the item is. -/
theorem updateSets_revises (hvalid : updateRefusal r = none) (hf : f ∈ updateSets actor now item r) : Revises f := by
  have hkeeps := updateSets_keeps hf
  refine ⟨fun x => (hkeeps x).1.1, fun x => (hkeeps x).1.2.1, fun x => (hkeeps x).1.2.2.1, fun x => (hkeeps x).1.2.2.2.1,
    fun x => (hkeeps x).1.2.2.2.2, fun x hx => ?_⟩
  rcases (hkeeps x).2.2 with hset | hsame
  · unfold setStage at hset
    split at hset
    · cases hset
    · rename_i stage hstage
      split at hset <;> cases hset
      intro named hnamed
      cases stage with
      | none => cases hnamed
      | some s =>
        cases hnamed
        exact stage_located hvalid hstage
  · unfold Located at hx ⊢
    rw [hsame]
    exact hx

theorem revises_fold : ∀ (sets : List (ItemRow → ItemRow)), (∀ f ∈ sets, Revises f) → Revises (fun row => sets.foldl (fun row set => set row) row)
  | [], _ => ⟨fun _ => rfl, fun _ => rfl, fun _ => rfl, fun _ => rfl, fun _ => rfl, fun _ hlocated => hlocated⟩
  | f :: sets, hsets => by
    have hf := hsets f List.mem_cons_self
    have hrest := revises_fold sets (fun g hg => hsets g (List.mem_cons_of_mem f hg))
    constructor
    · exact fun row => (hrest.id (f row)).trans (hf.id row)
    · exact fun row => (hrest.campaign (f row)).trans (hf.campaign row)
    · exact fun row => (hrest.key (f row)).trans (hf.key row)
    · exact fun row => (hrest.origin (f row)).trans (hf.origin row)
    · exact fun row => (hrest.created (f row)).trans (hf.created row)
    · exact fun row hlocated => hrest.located (f row) (hf.located row hlocated)

def updatedItem (actor : String) (now : Int) (item : ItemRow) (r : UpdateCampaignWorkItemRequest) (row : ItemRow) : ItemRow :=
  { (updateSets actor now item r).foldl (fun row set => set row) row with updatedAt := now }

theorem revises_update (hvalid : updateRefusal r = none) : Revises (updatedItem actor now item r) := by
  have hfold := revises_fold (updateSets actor now item r) (fun f hf => updateSets_revises hvalid hf)
  exact ⟨hfold.id, hfold.campaign, hfold.key, hfold.origin, hfold.created, hfold.located⟩

theorem updatedItem_issue (hissue : (setIssue item r).isSome = false) (row : ItemRow) :
    (updatedItem actor now item r row).issue = row.issue := by
  have hnone : setIssue item r = none := by
    cases hset : setIssue item r with
    | none => rfl
    | some f =>
      rw [hset] at hissue
      cases hissue
  have hone : ∀ f ∈ updateSets actor now item r, ∀ row, (f row).issue = row.issue := by
    intro f hf row
    refine (updateSets_keeps hf row).2.1.resolve_left (fun hset => ?_)
    rw [hnone] at hset
    cases hset
  have hfold : ∀ (sets : List (ItemRow → ItemRow)), (∀ f ∈ sets, ∀ row, (f row).issue = row.issue) → ∀ row : ItemRow,
      (sets.foldl (fun row set => set row) row).issue = row.issue := by
    intro sets
    induction sets with
    | nil => exact fun _ _ => rfl
    | cons f sets ih =>
      intro hsets row
      rw [List.foldl_cons, ih (fun g hg => hsets g (List.mem_cons_of_mem f hg)), hsets f List.mem_cons_self]
  exact hfold _ hone row

/-- **What becomes of an item's handoff.** -/
inductive HandoffUpdate (c actor : String) (now : Int) (i : String) (t : Tables) : Option (Option HandoffRequest) → Bool → Tables → Prop
  | kept : HandoffUpdate c actor now i t none false t
  | cleared : HandoffUpdate c actor now i t (some none) (t.handoffs.get i).isSome (t.clearHandoff i)
  | same (request : HandoffRequest) (current : HandoffRow) : t.handoffs.get i = some current →
      current.responsibleActor = request.responsibleActor → current.reason = Js.trim request.reason →
      current.nextAction = Js.trim request.nextAction → HandoffUpdate c actor now i t (some (some request)) false t
  | set (request : HandoffRequest) (row : HandoffRow) : (∀ current, t.handoffs.get i = some current →
        ¬(current.responsibleActor = request.responsibleActor ∧ current.reason = Js.trim request.reason ∧
          current.nextAction = Js.trim request.nextAction)) →
      row.responsibleActor = request.responsibleActor → row.reason = Js.trim request.reason →
      row.nextAction = Js.trim request.nextAction → HandoffUpdate c actor now i t (some (some request)) true (t.setHandoff i row)

theorem updateHandoff_ok
    (hok : updateHandoff c actor now i request t = (.ok b, u)) : HandoffUpdate c actor now i t request b u := by
  cases request with
  | none =>
    obtain ⟨rfl, rfl⟩ := Tx.pure_ok.1 hok
    exact .kept
  | some request =>
    cases request with
    | none =>
      replace hok := Tx.bind_read_ok.1 hok
      replace hok := Tx.bind_write_ok.1 hok
      obtain ⟨rfl, rfl⟩ := Tx.pure_ok.1 hok
      exact .cleared
    | some request =>
      replace hok := Tx.bind_read_ok.1 hok
      split at hok
      · rename_i hsame
        obtain ⟨rfl, rfl⟩ := Tx.pure_ok.1 hok
        rw [Option.any_eq_true_iff_get] at hsame
        obtain ⟨hsome, hsame⟩ := hsame
        simp only [Bool.and_eq_true, decide_eq_true_eq] at hsame
        exact .same request _ (Option.some_get hsome).symm hsame.1.1 hsame.1.2 hsame.2
      · rename_i hdiffers
        replace hok := Tx.bind_write_ok.1 hok
        obtain ⟨rfl, rfl⟩ := Tx.pure_ok.1 hok
        refine .set request _ ?_ rfl rfl rfl
        intro current hcurrent hall
        apply hdiffers
        rw [hcurrent, Option.any_some]
        simp [hall.1, hall.2.1, hall.2.2]

/-- **What becomes of an item's open attempt.** -/
inductive AttemptUpdate (h : Hooks) (now : Int) (i : String) (r : UpdateCampaignWorkItemRequest) (t : Tables) : Bool → Tables → Prop
  | kept : r.endAttempt = none → (t.openAttemptForItem i = none ∨ ∀ commitment, r.commitment = some commitment → commitment.state = .committed) →
      AttemptUpdate h now i r t false t
  | closed (a : AttemptRow) (reason : AttemptEndReason) (note : Option String) : t.openAttemptForItem i = some a →
      (r.endAttempt.isSome = true ∨ ∃ commitment, r.commitment = some commitment ∧ commitment.state ≠ .committed) →
      AttemptUpdate h now i r t true (closeAttempt h a reason now note t)

theorem updateAttempt_ok (hok : updateAttempt h now i r t = (.ok b, u)) : AttemptUpdate h now i r t b u := by
  unfold updateAttempt at hok
  replace hok := Tx.bind_read_ok.1 hok
  cases hend : r.endAttempt with
  | some request =>
    cases hopen : t.openAttemptForItem i with
    | none =>
      rw [hend, hopen] at hok
      cases hok
    | some a =>
      rw [hend, hopen] at hok
      replace hok := Tx.bind_write_ok.1 hok
      obtain ⟨rfl, rfl⟩ := Tx.pure_ok.1 hok
      exact .closed a _ _ hopen (.inl (by rw [hend]; rfl))
  | none =>
    cases hopen : t.openAttemptForItem i with
    | none =>
      rw [hend, hopen] at hok
      obtain ⟨rfl, rfl⟩ := Tx.pure_ok.1 hok
      exact .kept hend (.inl hopen)
    | some a =>
      rw [hend, hopen] at hok
      cases hcommitment : r.commitment with
      | none =>
        rw [hcommitment] at hok
        obtain ⟨rfl, rfl⟩ := Tx.pure_ok.1 hok
        exact .kept hend (.inr (fun cm hcm => by rw [hcommitment] at hcm; cases hcm))
      | some commitment =>
        rw [hcommitment] at hok
        simp only at hok
        split at hok
        · rename_i hended
          replace hok := Tx.bind_write_ok.1 hok
          obtain ⟨rfl, rfl⟩ := Tx.pure_ok.1 hok
          exact .closed a _ _ hopen (.inr ⟨commitment, hcommitment, hended⟩)
        · rename_i hcommitted
          obtain ⟨rfl, rfl⟩ := Tx.pure_ok.1 hok
          refine .kept hend (.inr (fun cm hcm => ?_))
          rw [hcommitment] at hcm
          cases hcm
          exact not_not.1 hcommitted

theorem updateDependencies_ok {request : Option (List String)} (hok : updateDependencies h c i request t = (.ok b, u)) :
    (request = none ∧ b = false ∧ u = t) ∨ ∃ ids changed, request = some ids ∧ b = !changed.isEmpty ∧
      replaceDependencies h c [⟨i, "dependsOn", ids⟩] t = (.ok changed, u) := by
  cases request with
  | none =>
    obtain ⟨rfl, rfl⟩ := Tx.pure_ok.1 hok
    exact .inl ⟨rfl, rfl, rfl⟩
  | some ids =>
    obtain ⟨changed, t₁, hchanged, hok⟩ := Tx.bind_ok.1 hok
    obtain ⟨rfl, rfl⟩ := Tx.pure_ok.1 hok
    exact .inr ⟨ids, changed, rfl, rfl, hchanged⟩

/-- **An accepted update**, in its parts. -/
theorem updateWork_ok (hok : updateWork h c actor now r t = (.ok a, u)) :
    ∃ item b₁ t₁ b₂ t₂ b₃ t₃, t.item c r.workItemId = some item ∧ HandoffUpdate c actor now item.id t r.handoff b₁ t₁ ∧
      updateDependencies h c item.id r.dependsOn t₁ = (.ok b₂, t₂) ∧ AttemptUpdate h now item.id r t₂ b₃ t₃ ∧
      ((updateSets actor now item r = [] ∧ b₁ = false ∧ b₂ = false ∧ b₃ = false ∧ u = t₃) ∨
        (¬(updateSets actor now item r = [] ∧ b₁ = false ∧ b₂ = false ∧ b₃ = false) ∧
          u = (t₃.reviseItem item.id (setIssue item r).isSome (updatedItem actor now item r)).bump c now none)) := by
  unfold updateWork at hok
  replace hok := Tx.bind_read_ok.1 hok
  cases hitem : t.item c r.workItemId with
  | none =>
    rw [hitem] at hok
    cases hok
  | some item =>
    rw [hitem] at hok
    replace hok := (Tx.bind_refuseIf_ok.1 hok).2
    obtain ⟨b₁, t₃, hhandoff, hok⟩ := Tx.bind_ok.1 hok
    obtain ⟨b₂, t₄, hdependencies, hok⟩ := Tx.bind_ok.1 hok
    obtain ⟨b₃, t₅, hattempt, hok⟩ := Tx.bind_ok.1 hok
    refine ⟨item, b₁, t₃, b₂, t₄, b₃, t₅, rfl, updateHandoff_ok hhandoff, hdependencies, updateAttempt_ok hattempt, ?_⟩
    split at hok
    · rename_i hnothing
      simp only [Bool.and_eq_true, List.isEmpty_iff, Bool.not_eq_true'] at hnothing
      replace hok := Tx.bind_read_ok.1 hok
      obtain ⟨-, rfl⟩ := Tx.pure_ok.1 hok
      exact .inl ⟨hnothing.1.1.1, hnothing.1.1.2, hnothing.1.2, hnothing.2, rfl⟩
    · rename_i hsomething
      simp only [Bool.and_eq_true, List.isEmpty_iff, Bool.not_eq_true'] at hsomething
      replace hok := Tx.bind_write_ok.1 hok
      obtain ⟨revision, t₇, hbump, hok⟩ := Tx.bind_ok.1 hok
      obtain ⟨-, rfl⟩ := Tx.pure_ok.1 hok
      refine .inr ⟨?_, (bump_ok hbump).1⟩
      rintro ⟨h₀, h₁, h₂, h₃⟩
      exact hsomething ⟨⟨⟨h₀, h₁⟩, h₂⟩, h₃⟩

theorem HandoffUpdate.writes (hitem : (t.item c i).isSome = true)
    (hu : HandoffUpdate c actor now i t request b u) : Writes c t u := by
  cases hu with
  | kept => exact .refl
  | cleared => exact .single (.clearHandoff i hitem)
  | same => exact .refl
  | set request row => exact .single (.setHandoff i row hitem)

theorem openAttemptForItem_some {a : AttemptRow} (hopen : t.openAttemptForItem i = some a) :
    a ∈ t.attempts ∧ a.workItemId = i ∧ a.ended = none := by
  unfold Tables.openAttemptForItem at hopen
  have hfound := List.find?_some hopen
  simp only [Bool.and_eq_true, beq_iff_eq, Option.isNone_iff_eq_none] at hfound
  exact ⟨List.mem_of_find?_eq_some hopen, hfound.1, hfound.2⟩

theorem AttemptUpdate.writes (hwf : Wf t) (hitem : (t.item c i).isSome = true)
    (hu : AttemptUpdate h now i r t b u) : Writes c t u := by
  cases hu with
  | kept => exact .refl
  | closed a reason note hopen hwhy =>
    obtain ⟨ha, rfl, -⟩ := openAttemptForItem_some hopen
    exact closeAttempt_writes hwf ha (hwf.attempt_campaign ha hitem)

theorem updateDependencies_writes {request : Option (List String)} (hwf : Wf t) (hitem : (t.item c i).isSome = true)
    (hok : updateDependencies h c i request t = (.ok b, u)) : Writes c t u := by
  rcases updateDependencies_ok hok with ⟨-, -, rfl⟩ | ⟨ids, changed, -, -, hreplace⟩
  · exact .refl
  · refine (replaceDependencies_writes hwf ?_ hreplace).1
    intro r hr
    rw [List.mem_singleton] at hr
    subst hr
    exact hitem

theorem updateWork_writes (hwf : Wf t) (hvalid : updateRefusal r = none)
    (hok : updateWork h c actor now r t = (.ok a, u)) : Writes c t u := by
  obtain ⟨item, b₁, t₁, b₂, t₂, b₃, t₃, hitem, hhandoff, hdependencies, hattempt, hend⟩ := updateWork_ok hok
  obtain ⟨hmem, hid, hcampaign⟩ := item_eq_some hitem
  have hthere : (t.item c item.id).isSome = true := hwf.isSome_iff.2 ⟨item, hmem, rfl, hcampaign⟩
  have h₁ := hhandoff.writes hthere
  have hwf₁ := h₁.wf hwf
  have h₂ := updateDependencies_writes hwf₁ (h₁.item_isSome hwf hthere) hdependencies
  have hwf₂ := h₂.wf hwf₁
  have h₃ := hattempt.writes hwf₂ (Writes.item_isSome (h₁.trans h₂) hwf hthere)
  have hall := (h₁.trans h₂).trans h₃
  rcases hend with ⟨-, -, -, -, rfl⟩ | ⟨-, rfl⟩
  · exact hall
  · have hrevise : Write c t₃ (t₃.reviseItem item.id (setIssue item r).isSome (updatedItem actor now item r)) :=
      .reviseItem _ _ _ (Writes.item_isSome hall hwf hthere) (revises_update hvalid) updatedItem_issue
    exact (hall.tail hrevise).tail (.bump now none)

end

end Wollipog.Ledger
