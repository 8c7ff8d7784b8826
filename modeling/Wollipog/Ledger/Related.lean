import Wollipog.Ledger.Run
import Wollipog.Lib.Reached
/-!
# Related — which sessions an issue's closure may leave out

A session is related to an issue when an item that it reaches ever tracked the issue.
-/
namespace Wollipog.Ledger

section

variable (t : Tables)

def attemptedItems (sessionId : String) : List String :=
  (t.attempts.filter (fun a => a.sessionId == some sessionId)).map AttemptRow.workItemId

def linkedItems (itemId : String) : List String :=
  (t.lineageEdges.filter (fun e => e.originWorkItemId == itemId)).map LineageEdgeRow.resultWorkItemId ++
    (t.lineageEdges.filter (fun e => e.resultWorkItemId == itemId)).map LineageEdgeRow.originWorkItemId

def queriedItems (sessionId : String) : List String :=
  attemptedItems t sessionId ++ t.lineageEdges.map LineageEdgeRow.resultWorkItemId ++ t.lineageEdges.map LineageEdgeRow.originWorkItemId

def reachedItems (sessionId : String) : List String :=
  Reached.reached (linkedItems t) (queriedItems t sessionId).length (attemptedItems t sessionId)

def related (repository : String) (issueNumbers : List Int) (itemId : String) : Bool :=
  t.legacyItems.contains itemId || t.issueHistory.any (fun h => h.workItemId == itemId && h.issueRepository == sqlLower repository &&
    issueNumbers.contains h.issueNumber)

/-- Sessions whose ledger history proves them unrelated to every listed issue of one repository. -/
def sessionsUnrelatedToIssues (campaignId repository : String) (issueNumbers : List Int) : List String :=
  ((t.attempts.filter (fun a => a.campaignSessionId == campaignId && a.ended.isNone)).filterMap AttemptRow.sessionId).filter (fun s =>
    !(reachedItems t s).any (related t repository issueNumbers))

end

def Linked (t : Tables) (x y : String) : Prop := ⟨x, y⟩ ∈ t.lineageEdges ∨ ⟨y, x⟩ ∈ t.lineageEdges

section

variable {t u v : Tables} {c : String}

variable {e : Event} {i sessionId x y : String} {l : List Event}

theorem mem_linkedItems : y ∈ linkedItems t x ↔ Linked t x y := by
  unfold linkedItems Linked
  simp only [List.mem_append, List.mem_map, List.mem_filter, beq_iff_eq]
  constructor
  · rintro (⟨e, ⟨he, rfl⟩, rfl⟩ | ⟨e, ⟨he, rfl⟩, rfl⟩)
    · exact .inl he
    · exact .inr he
  · rintro (he | he)
    · exact .inl ⟨_, ⟨he, rfl⟩, rfl⟩
    · exact .inr ⟨_, ⟨he, rfl⟩, rfl⟩

/-- **The query reaches** the lineage component of the attempted items, links taken in both directions. -/
theorem mem_reachedItems :
    i ∈ reachedItems t sessionId ↔ ∃ a ∈ attemptedItems t sessionId, Relation.ReflTransGen (Linked t) a i := by
  have hseeds : ∀ x ∈ attemptedItems t sessionId, x ∈ queriedItems t sessionId := fun x hx =>
    List.mem_append_left _ (List.mem_append_left _ hx)
  have hnext : ∀ y, ∀ x ∈ linkedItems t y, x ∈ queriedItems t sessionId := by
    intro y x hx
    rcases mem_linkedItems.1 hx with he | he
    · exact List.mem_append_left _ (List.mem_append_right _ (List.mem_map.2 ⟨_, he, rfl⟩))
    · exact List.mem_append_right _ (List.mem_map.2 ⟨_, he, rfl⟩)
  have hlinked : (fun x y => y ∈ linkedItems t x) = Linked t := by
    funext x y
    exact propext mem_linkedItems
  unfold reachedItems
  rw [Reached.mem_reached hseeds hnext, hlinked]

variable {repository : String} {issueNumbers : List Int}

theorem related_iff : related t repository issueNumbers i = true ↔
    i ∈ t.legacyItems ∨ ∃ n ∈ issueNumbers, ⟨i, sqlLower repository, n⟩ ∈ t.issueHistory := by
  unfold related
  simp only [Bool.or_eq_true, List.contains_eq_mem, decide_eq_true_eq, List.any_eq_true, Bool.and_eq_true, beq_iff_eq]
  constructor
  · rintro (h | ⟨h, hmem, ⟨rfl, hrepository⟩, hn⟩)
    · exact .inl h
    · rw [← hrepository]
      exact .inr ⟨_, hn, hmem⟩
  · rintro (h | ⟨n, hn, hmem⟩)
    · exact .inl h
    · exact .inr ⟨_, hmem, ⟨rfl, rfl⟩, hn⟩

/-! ## What is never taken back -/

/-- **Nothing is taken back**: history and links of `t` are in `u`, and attempts keep their sessions. -/
structure Kept (t u : Tables) : Prop where
  legacy : u.legacyItems = t.legacyItems
  history : t.issueHistory ⊆ u.issueHistory
  edges : t.lineageEdges ⊆ u.lineageEdges
  attempts : ∀ a ∈ t.attempts, ∃ b ∈ u.attempts, b.sessionId = a.sessionId ∧ b.workItemId = a.workItemId

theorem Kept.refl (t : Tables) : Kept t t := ⟨rfl, fun _ h => h, fun _ h => h, fun a ha => ⟨a, ha, rfl, rfl⟩⟩

theorem Kept.trans (h : Kept t u) (h' : Kept u v) : Kept t v := by
  refine ⟨h'.legacy.trans h.legacy, fun _ hx => h'.history (h.history hx), fun _ hx => h'.edges (h.edges hx), fun a ha => ?_⟩
  obtain ⟨b, hb, hsession, hitem⟩ := h.attempts a ha
  obtain ⟨d, hd, hsession', hitem'⟩ := h'.attempts b hb
  exact ⟨d, hd, hsession'.trans hsession, hitem'.trans hitem⟩

theorem Kept.of_eq (hlegacy : u.legacyItems = t.legacyItems) (hhistory : u.issueHistory = t.issueHistory)
    (hedges : t.lineageEdges ⊆ u.lineageEdges) (hattempts : u.attempts = t.attempts) : Kept t u := by
  refine ⟨hlegacy, fun _ hx => ?_, hedges, fun a ha => ⟨a, ?_, rfl, rfl⟩⟩
  · rw [hhistory]
    exact hx
  · rw [hattempts]
    exact ha

theorem mem_addRow {α : Type} [DecidableEq α] {row x : α} {rows : List α} : x ∈ addRow row rows ↔ x ∈ rows ∨ x = row := by
  unfold addRow
  split
  · rename_i hthere
    constructor
    · exact .inl
    · rintro (h | rfl)
      · exact h
      · exact hthere
  · rw [List.mem_append, List.mem_singleton]

theorem mem_addRows {α : Type} [DecidableEq α] {x : α} : ∀ (rows : List α) {base : List α},
    x ∈ rows.foldl (fun base row => addRow row base) base ↔ x ∈ base ∨ x ∈ rows
  | [], base => by simp
  | row :: rows, base => by
    rw [List.foldl_cons, mem_addRows rows, mem_addRow, List.mem_cons, or_assoc]

theorem mem_recordEdges {edges : List LineageEdgeRow} {e : LineageEdgeRow} :
    e ∈ (recordEdges edges t).lineageEdges ↔ e ∈ t.lineageEdges ∨ e ∈ edges := mem_addRows edges

theorem recordIssue_history (row : ItemRow) (t : Tables) : t.issueHistory ⊆ (recordIssue row t).issueHistory ∧
    ∀ issue, row.issue = some issue → ⟨row.id, sqlLower issue.repository, issue.number⟩ ∈ (recordIssue row t).issueHistory := by
  unfold recordIssue
  cases row.issue with
  | none => exact ⟨fun _ h => h, fun issue h => by cases h⟩
  | some issue =>
    refine ⟨fun x hx => mem_addRow.2 (.inl hx), fun issue' h => ?_⟩
    cases h
    exact mem_addRow.2 (.inr rfl)

theorem addItem_history (row : ItemRow) (t : Tables) : t.issueHistory ⊆ (t.addItem row).issueHistory ∧
    ∀ issue, row.issue = some issue → ⟨row.id, sqlLower issue.repository, issue.number⟩ ∈ (t.addItem row).issueHistory :=
  recordIssue_history row { t with items := t.items ++ [row] }

theorem reviseItem_history (i : String) (b : Bool) (f : ItemRow → ItemRow) (t : Tables) :
    t.issueHistory ⊆ (t.reviseItem i b f).issueHistory ∧
      ∀ old, t.items.find? (fun r => r.id == i) = some old → b = true → ∀ issue, (f old).issue = some issue →
        ⟨(f old).id, sqlLower issue.repository, issue.number⟩ ∈ (t.reviseItem i b f).issueHistory := by
  unfold Tables.reviseItem
  cases hfind : t.items.find? (fun r => r.id == i) with
  | none => exact ⟨fun _ h => h, fun old h => by cases h⟩
  | some old =>
    have hmoved : ∀ {w : Tables}, (if movesState old (f old) = true then recordTransition (f old) (f old).updatedAt w else w).issueHistory =
        w.issueHistory := by
      intro w
      split
      · rfl
      · rfl
    simp only [hmoved]
    cases b with
    | false => exact ⟨fun _ h => h, fun old' _ h => by cases h⟩
    | true =>
      obtain ⟨hkept, hadded⟩ := recordIssue_history (f old) { t with items := t.items.map (fun r => if r.id = i then f old else r) }
      refine ⟨hkept, fun old' hold _ issue hissue => ?_⟩
      cases hold
      exact hadded issue hissue

theorem setDisposition_edges (id : String) (row : DispositionRow) (t : Tables) : t.lineageEdges ⊆ (t.setDisposition id row).lineageEdges ∧
    ∀ o ∈ t.origins, o.recommendationId = id → ∀ r, row.resultingWorkItemId = some r →
      ⟨o.workItemId, r⟩ ∈ (t.setDisposition id row).lineageEdges := by
  unfold Tables.setDisposition
  cases row.resultingWorkItemId with
  | none => exact ⟨fun _ h => h, fun o _ _ r h => by cases h⟩
  | some result =>
    refine ⟨fun e he => mem_recordEdges.2 (.inl he), fun o ho hid r hr => ?_⟩
    cases hr
    refine mem_recordEdges.2 (.inr (List.mem_map.2 ⟨o, List.mem_filter.2 ⟨ho, ?_⟩, rfl⟩))
    rw [hid]
    exact beq_self_eq_true id

theorem addOrigin_edges (row : OriginRow) (t : Tables) : t.lineageEdges ⊆ (t.addOrigin row).lineageEdges := by
  unfold Tables.addOrigin
  split
  · exact fun _ h => h
  · simp only
    split
    · exact fun _ h => h
    · exact fun e he => mem_recordEdges.2 (.inl he)

theorem addOrigins_edges (id : String) : ∀ (origins : List String) (t : Tables), t.lineageEdges ⊆
    (origins.foldl (fun (t : Tables) itemId => t.addOrigin ⟨id, itemId⟩) t).lineageEdges
  | [], _ => fun _ h => h
  | itemId :: origins, t => fun _ h => addOrigins_edges id origins (t.addOrigin ⟨id, itemId⟩) (addOrigin_edges _ t h)

/-- **No write takes anything back.** -/
theorem Write.kept (hw : Write c t u) : Kept t u := by
  cases hw with
  | addItem row =>
    obtain ⟨history, heq⟩ := addItem_frame row t
    refine ⟨by rw [heq], (addItem_history row t).1, by rw [heq]; exact fun _ h => h, fun a ha => ⟨a, by rw [heq]; exact ha, rfl, rfl⟩⟩
  | reviseItem i b f =>
    refine ⟨reviseItem_legacyItems i b f t, (reviseItem_history i b f t).1, ?_, fun a ha => ⟨a, ?_, rfl, rfl⟩⟩
    · rw [reviseItem_lineageEdges]
      exact fun _ h => h
    · rw [reviseItem_attempts]
      exact ha
  | setDisposition id row =>
    have hedges := (setDisposition_edges id row t).1
    obtain ⟨edges, heq⟩ := setDisposition_frame id row t
    rw [heq] at hedges ⊢
    exact .of_eq rfl rfl hedges rfl
  | addAttempt row =>
    exact ⟨rfl, fun _ h => h, fun _ h => h, fun a ha => ⟨a, List.mem_append_left _ ha, rfl, rfl⟩⟩
  | endAttempt b e =>
    refine ⟨rfl, fun _ h => h, fun _ h => h, fun a ha => ⟨_, List.mem_map.2 ⟨a, ha, rfl⟩, ?_, ?_⟩⟩
    · split <;> rfl
    · split <;> rfl
  | _ => exact .of_eq rfl rfl (fun _ h => h) rfl

theorem Writes.kept (hw : Writes c t u) : Kept t u := by
  induction hw with
  | refl => exact .refl _
  | tail _ hlast ih => exact ih.trans hlast.kept

def Event.deletes : Event → Bool
  | .sessionDeleted _ _ => true
  | _ => false

/-- **No event takes anything back**, unless it deletes a session. -/
theorem step_kept (hwf : Wf t) (hstep : step t e = some (u, l)) (he : e.deletes = false) : Kept t u := by
  cases e with
  | mutated k r =>
    cases hstep
    exact Writes.kept (mutate_writes hwf)
  | recommended row origins now =>
    simp only [step] at hstep
    split at hstep
    · cases hstep
    · cases hstep
      have hedges : t.lineageEdges ⊆ (t.recordFollowUp row origins now).lineageEdges :=
        addOrigins_edges row.id (First.firstBy id origins) { t with followUps := t.followUps ++ [row] }
      obtain ⟨rows, edges, ledgers, heq⟩ := recordFollowUp_frame row origins now t
      rw [heq] at hedges ⊢
      exact .of_eq rfl rfl hedges rfl
  | observed campaignId now | openAttemptsObserved now =>
    cases hstep
    exact .of_eq rfl rfl (fun _ h => h) rfl
  | sessionSet id row =>
    cases hstep
    obtain ⟨statuses, heq⟩ := setSession_frame id row t
    rw [heq]
    exact .of_eq rfl rfl (fun _ h => h) rfl
  | sessionDeleted id now => cases he

theorem run_kept (hs : Stored t) (hrun : Sys.Run step t l u) (hkeep : ∀ e ∈ l, e.deletes = false) : Stored u ∧ Kept t u := by
  induction hrun with
  | nil => exact ⟨hs, .refl t⟩
  | @snoc l w e v o _ _ hstep ih =>
    obtain ⟨hstored, hkept⟩ := ih (fun e he => hkeep e (List.mem_append_left _ he))
    have he : e.deletes = false := by
      apply hkeep
      rw [step_emits hstep]
      exact List.mem_append_right _ (List.mem_singleton_self e)
    exact ⟨step_stored hstep hstored, hkept.trans (step_kept hstored.wf hstep he)⟩

/-! ## What the history holds -/

/-- **The history is complete**: what an item tracks or an adjudication links is in it, unless it predates it. -/
structure Attributed (t : Tables) : Prop where
  tracked : ∀ row ∈ t.items, ∀ issue, row.issue = some issue →
    row.id ∈ t.legacyItems ∨ ⟨row.id, sqlLower issue.repository, issue.number⟩ ∈ t.issueHistory
  joined : ∀ o ∈ t.origins, ∀ d, t.dispositions.get o.recommendationId = some d → ∀ r, d.resultingWorkItemId = some r →
    ⟨o.workItemId, r⟩ ∈ t.lineageEdges ∨ o.workItemId ∈ t.legacyItems ∧ r ∈ t.legacyItems

theorem Attributed.congr (ht : Attributed t) (hkept : Kept t u) (hitems : u.items = t.items) (horigins : u.origins = t.origins)
    (hdispositions : u.dispositions = t.dispositions) : Attributed u := by
  constructor
  · intro row hrow issue hissue
    rw [hitems] at hrow
    rw [hkept.legacy]
    rcases ht.tracked row hrow issue hissue with h | h
    · exact .inl h
    · exact .inr (hkept.history h)
  · intro o ho d hd r hr
    rw [horigins] at ho
    rw [hdispositions] at hd
    rw [hkept.legacy]
    rcases ht.joined o ho d hd r hr with h | h
    · exact .inl (hkept.edges h)
    · exact .inr h

theorem Attributed.setDisposition (ht : Attributed t) (id : String) (row : DispositionRow) : Attributed (t.setDisposition id row) := by
  obtain ⟨hkept, hadded⟩ := setDisposition_edges id row t
  obtain ⟨edges, heq⟩ := setDisposition_frame id row t
  rw [heq] at hkept hadded ⊢
  refine ⟨ht.tracked, fun o ho d hd r hr => ?_⟩
  by_cases hid : o.recommendationId = id
  · rw [hid] at hd
    rw [OrdMap.get_set_self, Option.some.injEq] at hd
    subst hd
    exact .inl (hadded o ho hid r hr)
  · rw [OrdMap.get_set_ne _ _ hid] at hd
    rcases ht.joined o ho d hd r hr with h | h
    · exact .inl (hkept h)
    · exact .inr h

theorem Attributed.addOrigin (ht : Attributed t) (row : OriginRow) : Attributed (t.addOrigin row) := by
  unfold Tables.addOrigin
  split
  · exact ht
  · simp only
    cases hresult : (t.dispositions.get row.recommendationId).bind DispositionRow.resultingWorkItemId with
    | none =>
      refine ⟨ht.tracked, fun o ho d hd r hr => ?_⟩
      rcases List.mem_append.1 ho with ho | ho
      · exact ht.joined o ho d hd r hr
      · rw [List.mem_singleton] at ho
        subst ho
        have hthere : t.dispositions.get o.recommendationId = some d := hd
        rw [hthere, Option.bind_some, hr] at hresult
        cases hresult
    | some result =>
      refine ⟨ht.tracked, fun o ho d hd r hr => ?_⟩
      rcases List.mem_append.1 ho with ho | ho
      · rcases ht.joined o ho d hd r hr with h | h
        · exact .inl (mem_recordEdges.2 (.inl h))
        · exact .inr h
      · rw [List.mem_singleton] at ho
        subst ho
        have hthere : t.dispositions.get o.recommendationId = some d := hd
        rw [hthere, Option.bind_some, hr, Option.some.injEq] at hresult
        subst hresult
        exact .inl (mem_recordEdges.2 (.inr (List.mem_singleton_self _)))

theorem Attributed.addOrigins (id : String) : ∀ (origins : List String) {t : Tables}, Attributed t →
    Attributed (origins.foldl (fun (t : Tables) itemId => t.addOrigin ⟨id, itemId⟩) t)
  | [], _, ht => ht
  | itemId :: origins, _, ht => Attributed.addOrigins id origins (ht.addOrigin ⟨id, itemId⟩)

/-- **Every write keeps the history complete.** -/
theorem Write.attributed (hw : Write c t u) (hwf : Wf t) (ht : Attributed t) : Attributed u := by
  have hkept := hw.kept
  cases hw with
  | addItem row =>
    have hadded := (addItem_history row t).2
    obtain ⟨history, heq⟩ := addItem_frame row t
    rw [heq] at hkept hadded ⊢
    refine ⟨fun r hr issue hissue => ?_, fun o ho d hd r hr => ?_⟩
    · rcases List.mem_append.1 hr with hr | hr
      · rcases ht.tracked r hr issue hissue with h | h
        · exact .inl h
        · exact .inr (hkept.history h)
      · rw [List.mem_singleton] at hr
        subst hr
        exact .inr (hadded issue hissue)
    · exact ht.joined o ho d hd r hr
  | reviseItem i b f hi hf hissue =>
    refine ⟨fun r hr issue hr' => ?_, fun o ho d hd r hr => ?_⟩
    · rw [hwf.reviseItem_items] at hr
      obtain ⟨old, hold, rfl⟩ := List.mem_map.1 hr
      rw [hkept.legacy]
      by_cases hid : old.id = i
      · simp only [if_pos hid] at hr' ⊢
        cases b with
        | false =>
          rw [hissue rfl] at hr'
          rw [hf.id]
          rcases ht.tracked old hold issue hr' with h | h
          · exact .inl h
          · exact .inr (hkept.history h)
        | true =>
          have hfind := hwf.find_id hold
          rw [hid] at hfind
          exact .inr ((reviseItem_history i true f t).2 old hfind rfl issue hr')
      · simp only [if_neg hid] at hr' ⊢
        rcases ht.tracked old hold issue hr' with h | h
        · exact .inl h
        · exact .inr (hkept.history h)
    · rw [reviseItem_origins] at ho
      rw [reviseItem_dispositions] at hd
      rw [reviseItem_lineageEdges, reviseItem_legacyItems]
      exact ht.joined o ho d hd r hr
  | setDisposition id row => exact ht.setDisposition id row
  | _ => exact ht.congr hkept rfl rfl rfl

theorem Writes.attributed (hw : Writes c t u) (hwf : Wf t) (ht : Attributed t) : Attributed u := by
  induction hw with
  | refl => exact ht
  | tail hbefore hlast ih => exact hlast.attributed (Writes.wf hbefore hwf) ih

/-- **Every event keeps the history complete.** -/
theorem step_attributed (hwf : Wf t) (hstep : step t e = some (u, l)) (ht : Attributed t) : Attributed u := by
  cases e with
  | mutated k r =>
    cases hstep
    exact (mutate_writes hwf).attributed hwf ht
  | recommended row origins now =>
    simp only [step] at hstep
    split at hstep
    · cases hstep
    · cases hstep
      have hadded : Attributed { t with followUps := t.followUps ++ [row] } := ⟨ht.tracked, ht.joined⟩
      have horigins := hadded.addOrigins row.id (First.firstBy id origins)
      exact ⟨horigins.tracked, horigins.joined⟩
  | observed campaignId now | openAttemptsObserved now =>
    cases hstep
    exact ⟨ht.tracked, ht.joined⟩
  | sessionSet id row =>
    cases hstep
    obtain ⟨statuses, heq⟩ := setSession_frame id row t
    rw [heq]
    exact ⟨ht.tracked, ht.joined⟩
  | sessionDeleted id now =>
    simp only [step] at hstep
    split at hstep
    · cases hstep
    · cases hstep
      refine ⟨fun row hrow issue hissue => ?_, fun o ho d hd r hr => ?_⟩
      · obtain ⟨old, hold, rfl⟩ := List.mem_map.1 hrow
        exact ht.tracked old hold issue hissue
      · have hget : (t.dispositions.mapVals (fun _ => DispositionRow.unsetSession id)).get o.recommendationId = some d := hd
        rw [OrdMap.get_mapVals] at hget
        obtain ⟨old, hold, rfl⟩ := Option.map_eq_some_iff.1 hget
        exact ht.joined o ho old hold r hr

theorem Earlier.attributed (ht : Earlier t) (now : Int) : Attributed (t.upgraded now) := by
  refine ⟨fun row hrow issue hissue => .inl (List.mem_map.2 ⟨row, hrow, rfl⟩), fun o ho d hd r hr => .inr ⟨?_, ?_⟩⟩
  · obtain ⟨row, hrow, hid⟩ := ht.origins o ho
    exact List.mem_map.2 ⟨row, hrow, hid⟩
  · obtain ⟨row, hrow, hid⟩ := ht.results o.recommendationId d r hd hr
    exact List.mem_map.2 ⟨row, hrow, hid⟩

theorem Reachable.attributed (hr : Reachable t) : Attributed t := by
  obtain ⟨t₀, now, l, h₀, hrun⟩ := hr
  have hboth : Stored t ∧ Attributed t := by
    refine hrun.inv (fun t => Stored t ∧ Attributed t) ?_ ⟨h₀.toStored.upgraded now, h₀.attributed now⟩
    intro s e t o hstep hs
    exact ⟨step_stored hstep hs.1, step_attributed hs.1.wf hstep hs.2⟩
  exact hboth.2

theorem Linked.kept (hkept : Kept t u) (h : Linked t x y) : Linked u x y := by
  rcases h with h | h
  · exact .inl (hkept.edges h)
  · exact .inr (hkept.edges h)

theorem reachedItems_kept (hkept : Kept t u) (h : i ∈ reachedItems t sessionId) : i ∈ reachedItems u sessionId := by
  rw [mem_reachedItems] at h ⊢
  obtain ⟨a, ha, hpath⟩ := h
  refine ⟨a, ?_, Relation.ReflTransGen.mono (fun _ _ h => Linked.kept hkept h) _ _ hpath⟩
  obtain ⟨attempt, hattempt, rfl⟩ := List.mem_map.1 ha
  obtain ⟨hmem, hsession⟩ := List.mem_filter.1 hattempt
  obtain ⟨b, hb, hsession', hitem⟩ := hkept.attempts attempt hmem
  refine List.mem_map.2 ⟨b, List.mem_filter.2 ⟨hb, ?_⟩, hitem⟩
  rw [hsession']
  exact hsession

theorem related_kept (hkept : Kept t u)
    (h : related t repository issueNumbers i = true) : related u repository issueNumbers i = true := by
  rw [related_iff] at h ⊢
  rw [hkept.legacy]
  rcases h with h | ⟨n, hn, h⟩
  · exact .inl h
  · exact .inr ⟨n, hn, hkept.history h⟩

theorem notMem_unrelated (hi : i ∈ reachedItems t sessionId)
    (hrelated : related t repository issueNumbers i = true) (campaignId : String) :
    sessionId ∉ sessionsUnrelatedToIssues t campaignId repository issueNumbers := by
  intro hin
  have hnone := (List.mem_filter.1 hin).2
  rw [Bool.not_eq_true', List.any_eq_false] at hnone
  exact hnone i hi hrelated

/-- **Relatedness is never undone** while no session is deleted: what an item tracks is related, what is linked is joined,
and a session reaches its lineage component. -/
theorem related_forever (hreach : Reachable t) {l : List Event} (hrun : Sys.Run step t l u) (hkeep : ∀ e ∈ l, e.deletes = false) :
    (∀ sessionId repository issueNumbers, (∃ i ∈ reachedItems t sessionId, related t repository issueNumbers i = true) →
        (∃ i ∈ reachedItems u sessionId, related u repository issueNumbers i = true) ∧
          ∀ campaignId, sessionId ∉ sessionsUnrelatedToIssues u campaignId repository issueNumbers) ∧
      (∀ row ∈ t.items, ∀ issue, row.issue = some issue → related u issue.repository [issue.number] row.id = true) ∧
      (∀ o ∈ t.origins, ∀ d, t.dispositions.get o.recommendationId = some d → ∀ r, d.resultingWorkItemId = some r →
        Linked u o.workItemId r ∨ o.workItemId ∈ u.legacyItems ∧ r ∈ u.legacyItems) ∧
      ∀ sessionId i, i ∈ reachedItems t sessionId ↔ ∃ a ∈ attemptedItems t sessionId, Relation.ReflTransGen (Linked t) a i := by
  obtain ⟨-, hkept⟩ := run_kept hreach.stored hrun hkeep
  have hattributed := hreach.attributed
  refine ⟨?_, ?_, ?_, fun sessionId i => mem_reachedItems⟩
  · rintro sessionId repository issueNumbers ⟨i, hi, hrelated⟩
    have hi' := reachedItems_kept hkept hi
    have hrelated' := related_kept hkept hrelated
    exact ⟨⟨i, hi', hrelated'⟩, notMem_unrelated hi' hrelated'⟩
  · intro row hrow issue hissue
    rw [related_iff, hkept.legacy]
    rcases hattributed.tracked row hrow issue hissue with h | h
    · exact .inl h
    · exact .inr ⟨issue.number, List.mem_singleton_self _, hkept.history h⟩
  · intro o ho d hd r hr
    rw [hkept.legacy]
    rcases hattributed.joined o ho d hd r hr with h | h
    · exact .inl (.inl (hkept.edges h))
    · exact .inr h

end

def trackedPlan : RecordCampaignPlanRequest where
  items := [⟨"up", none, some (some ⟨"g/b", 7⟩), none, none, none, none⟩]
  planComplete := true
  fixedBy := none

def untrack : UpdateCampaignWorkItemRequest where
  workItemId := newId "cwi_" uuid0
  title := none
  issue := some none
  dispatchState := none
  queuePosition := none
  dependsOn := none
  commitment := none
  stage := none
  blocker := none
  nextAction := none
  handoff := none
  endAttempt := none

def quietCall (uuid : Uuid) (now : Int) : Call := ⟨quietHooks, "c", "c", now, fun _ => uuid⟩

def planned : Tables := (mutate (quietCall uuid0 1) (.recordPlan trackedPlan) (Tables.empty.setSession "s" ⟨.idle, false, 0⟩)).2

def assigned : Tables := (mutate (quietCall uuid1 2)
  (.assign untrack.workItemId "s" ⟨none, none, none, none, none⟩) planned).2

theorem assigned_reachable : Reachable assigned := by
  have hearlier : Earlier .empty :=
    ⟨⟨wf_empty, List.forall_mem_nil _⟩, List.forall_mem_nil _, fun _ _ _ h => by cases h⟩
  have hset : step .empty (.sessionSet "s" ⟨.idle, false, 0⟩) = some (Tables.empty.setSession "s" ⟨.idle, false, 0⟩, _) := rfl
  have hplan : step (Tables.empty.setSession "s" ⟨.idle, false, 0⟩)
      (.mutated (quietCall uuid0 1) (.recordPlan trackedPlan)) = some (planned, _) := rfl
  have hassign : step planned (.mutated (quietCall uuid1 2)
      (.assign untrack.workItemId "s" ⟨none, none, none, none, none⟩)) = some (assigned, _) := rfl
  exact ⟨.empty, 0, _, hearlier, ((Sys.RunOn.nil.snoc trivial hset).snoc trivial hplan).snoc trivial hassign⟩

def untracked : Tables := (mutate (quietCall uuid2 3) (.updateItem untrack) assigned).2

theorem related_forever_untracked : (untracked.items.map ItemRow.issue = [none]) ∧ "s" ∉ sessionsUnrelatedToIssues untracked "c" "G/B" [7] := by
  have hrun : Sys.Run step assigned [.mutated (quietCall uuid2 3) (.updateItem untrack)] untracked :=
    have hstep : step assigned (.mutated (quietCall uuid2 3) (.updateItem untrack)) = some (untracked, _) := rfl
    Sys.RunOn.nil.snoc trivial hstep
  have hkeep : ∀ e ∈ [Event.mutated (quietCall uuid2 3) (.updateItem untrack)], e.deletes = false := by
    intro e he
    rw [List.mem_singleton] at he
    subst he
    rfl
  have hreached : untrack.workItemId ∈ reachedItems assigned "s" := by decide
  have hrelated : related assigned "G/B" [7] untrack.workItemId = true := by decide
  exact ⟨by decide, ((related_forever assigned_reachable hrun hkeep).1 "s" "G/B" [7] ⟨_, hreached, hrelated⟩).2 "c"⟩

end Wollipog.Ledger
