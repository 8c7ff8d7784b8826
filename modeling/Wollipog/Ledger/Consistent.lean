import Wollipog.Ledger.Writes
/-!
# Consistent — every write keeps the rows consistent

No write takes an item away or moves it to another campaign, and every write keeps `Wf`.
-/
namespace Wollipog.Ledger

section

variable {t u : Tables} {c i : String}

theorem item_congr (hitems : u.items = t.items) (c i : String) : u.item c i = t.item c i := by
  unfold Tables.item
  rw [hitems]

theorem Wf.congr (hwf : Wf t) (hitems : u.items = t.items) (hattempts : u.attempts = t.attempts) : Wf u where
  ids := by rw [hitems]; exact hwf.ids
  keys := by rw [hitems]; exact hwf.keys
  named := by rw [hitems]; exact hwf.named
  attemptIds := by rw [hattempts]; exact hwf.attemptIds
  ordinals := by rw [hattempts]; exact hwf.ordinals
  lastOfItem := by rw [hattempts]; exact hwf.lastOfItem
  lastOfSession := by rw [hattempts]; exact hwf.lastOfSession
  homes := by
    intro a ha
    rw [hattempts] at ha
    rw [item_congr hitems]
    exact hwf.homes a ha

theorem Wf.isSome_iff (hwf : Wf t) : (t.item c i).isSome = true ↔ ∃ row ∈ t.items, row.id = i ∧ row.campaignSessionId = c := by
  constructor
  · intro h
    obtain ⟨row, hrow⟩ := Option.isSome_iff_exists.1 h
    exact ⟨row, item_eq_some hrow⟩
  · rintro ⟨row, hmem, hid, hcampaign⟩
    rw [hwf.item_iff.2 ⟨hmem, hid, hcampaign⟩]
    rfl

variable {b : Bool} {c' j : String} {row : AttemptRow}

theorem Wf.campaign_eq (hwf : Wf t) (h : (t.item c i).isSome = true) (h' : (t.item c' i).isSome = true) : c = c' := by
  obtain ⟨row, hmem, hid, rfl⟩ := hwf.isSome_iff.1 h
  obtain ⟨row', hmem', hid', rfl⟩ := hwf.isSome_iff.1 h'
  rw [hwf.row_ext hmem hmem' (hid.trans hid'.symm)]

theorem Wf.attempt_campaign (hwf : Wf t) {a : AttemptRow} (ha : a ∈ t.attempts) (h : (t.item c a.workItemId).isSome = true) :
    a.campaignSessionId = c := hwf.campaign_eq (hwf.homes a ha) h

theorem addItem_item (row : ItemRow) (t : Tables) (h : (t.item c i).isSome = true) : ((t.addItem row).item c i).isSome = true := by
  unfold Tables.item at h ⊢
  rw [addItem_items, List.find?_append]
  cases hfind : t.items.find? (fun r => r.id == i && r.campaignSessionId == c) with
  | none =>
    rw [hfind] at h
    cases h
  | some found => rfl

variable {f : ItemRow → ItemRow}

theorem Revises.only (hf : Revises f) (j : String) : Revises (fun r => if r.id = j then f r else r) := by
  have hcase : ∀ r : ItemRow, (if r.id = j then f r else r) = f r ∨ (if r.id = j then f r else r) = r := by
    intro r
    by_cases hr : r.id = j
    · exact .inl (if_pos hr)
    · exact .inr (if_neg hr)
  constructor
  · intro r
    rcases hcase r with h | h
    · rw [h, hf.id]
    · rw [h]
  · intro r
    rcases hcase r with h | h
    · rw [h, hf.campaign]
    · rw [h]
  · intro r
    rcases hcase r with h | h
    · rw [h, hf.key]
    · rw [h]
  · intro r
    rcases hcase r with h | h
    · rw [h, hf.origin]
    · rw [h]
  · intro r
    rcases hcase r with h | h
    · rw [h, hf.created]
    · rw [h]
  · intro r hlocated
    rcases hcase r with h | h
    · rw [h]
      exact hf.located r hlocated
    · rw [h]
      exact hlocated

theorem item_map (hf : Revises f) (hitems : u.items = t.items.map f) (c i : String) : u.item c i = (t.item c i).map f := by
  have hsame : ((fun r : ItemRow => r.id == i && r.campaignSessionId == c) ∘ f) = fun r => r.id == i && r.campaignSessionId == c := by
    funext r
    rw [Function.comp_apply, hf.id, hf.campaign]
  unfold Tables.item
  rw [hitems, List.find?_map, hsame]

theorem Wf.reviseItem_item (hwf : Wf t) (hf : Revises f) (c i : String) :
    (t.reviseItem j b f).item c i = (t.item c i).map (fun r => if r.id = j then f r else r) :=
  item_map (hf.only j) (hwf.reviseItem_items b f) c i

/-- **No write takes an item away.** -/
theorem Write.item_isSome (hw : Write c' t u) (hwf : Wf t) (h : (t.item c i).isSome = true) : (u.item c i).isSome = true := by
  cases hw with
  | addItem row => exact addItem_item row t h
  | reviseItem j b f hj hf hissue =>
    rw [hwf.reviseItem_item hf, Option.isSome_map]
    exact h
  | setDisposition id row hf hitem =>
    rw [item_congr (t := t)]
    · exact h
    · unfold Tables.setDisposition
      cases row.resultingWorkItemId with
      | none => rfl
      | some result => rfl
  | _ => exact h

theorem Wf.mapItems (hwf : Wf t) (hf : Revises f) (hitems : u.items = t.items.map f)
    (hattempts : u.attempts = t.attempts) : Wf u := by
  constructor
  · have hsame : ItemRow.id ∘ f = ItemRow.id := by
      funext r
      exact hf.id r
    rw [hitems, List.map_map, hsame]
    exact hwf.ids
  · rw [hitems, List.pairwise_map]
    refine hwf.keys.imp ?_
    intro a b hab
    rw [hf.campaign, hf.campaign, hf.key, hf.key]
    exact hab
  · intro row hrow
    rw [hitems] at hrow
    obtain ⟨r, hr, rfl⟩ := List.mem_map.1 hrow
    have hnamed := hwf.named r hr
    constructor
    · rw [hf.id]
      exact hnamed.id
    · exact hf.located r hnamed.located
  · rw [hattempts]; exact hwf.attemptIds
  · rw [hattempts]; exact hwf.ordinals
  · rw [hattempts]; exact hwf.lastOfItem
  · rw [hattempts]; exact hwf.lastOfSession
  · intro a ha
    rw [hattempts] at ha
    rw [item_map hf hitems, Option.isSome_map]
    exact hwf.homes a ha

theorem Wf.reviseItem (hwf : Wf t) (hf : Revises f) : Wf (t.reviseItem j b f) :=
  hwf.mapItems (hf.only j) (hwf.reviseItem_items b f) (reviseItem_attempts j b f t)

theorem Wf.addItem (hwf : Wf t) {row : ItemRow} (hnamed : Named row)
    (hnew : ∀ r ∈ t.items, r.id ≠ row.id ∧ ¬(r.campaignSessionId = row.campaignSessionId ∧ r.itemKey = row.itemKey)) :
    Wf (t.addItem row) := by
  have hattempts : (t.addItem row).attempts = t.attempts := by
    obtain ⟨history, heq⟩ := addItem_frame row t
    rw [heq]
  constructor
  · rw [addItem_items, List.map_append, List.map_singleton, ← List.concat_eq_append]
    refine hwf.ids.concat (fun hmem => ?_)
    obtain ⟨r, hr, hid⟩ := List.mem_map.1 hmem
    exact (hnew r hr).1 hid
  · rw [addItem_items, List.pairwise_append]
    refine ⟨hwf.keys, List.pairwise_singleton _ _, ?_⟩
    intro a ha b hb
    rw [List.mem_singleton] at hb
    subst hb
    exact (hnew a ha).2
  · intro r hr
    rw [addItem_items, List.mem_append, List.mem_singleton] at hr
    rcases hr with hr | rfl
    · exact hwf.named r hr
    · exact hnamed
  · rw [hattempts]; exact hwf.attemptIds
  · rw [hattempts]; exact hwf.ordinals
  · rw [hattempts]; exact hwf.lastOfItem
  · rw [hattempts]; exact hwf.lastOfSession
  · intro a ha
    rw [hattempts] at ha
    exact addItem_item row t (hwf.homes a ha)

theorem attemptFree_iff : t.attemptFree row = true ↔
    (∀ a ∈ t.attempts, a.id ≠ row.id ∧ ¬(a.workItemId = row.workItemId ∧ a.ordinal = row.ordinal) ∧
      (a.workItemId = row.workItemId ∨ a.sessionId = row.sessionId → a.ended.isSome = true)) ∧
    ∀ s, row.sessionId = some s → (t.sessions.get s).isSome = true := by
  unfold Tables.attemptFree
  rw [Bool.and_eq_true, Bool.not_eq_true', List.any_eq_false]
  constructor
  · rintro ⟨hrows, hsession⟩
    refine ⟨fun a ha => ?_, fun s hs => ?_⟩
    · have h := hrows a ha
      simp only [Bool.or_eq_true, Bool.and_eq_true, beq_iff_eq, not_or, not_and, Option.isNone_iff_eq_none] at h
      obtain ⟨⟨hid, hordinal⟩, hopen⟩ := h
      refine ⟨hid, fun hboth => hordinal hboth.1 hboth.2, fun heither => ?_⟩
      cases hended : a.ended with
      | none =>
        obtain ⟨hitem, hsame⟩ := hopen hended
        rcases heither with h | h
        · exact absurd h hitem
        · exact absurd h hsame
      | some e => rfl
    · rw [hs] at hsession
      exact hsession
  · rintro ⟨hrows, hsession⟩
    refine ⟨fun a ha => ?_, ?_⟩
    · obtain ⟨hid, hordinal, hopen⟩ := hrows a ha
      simp only [Bool.or_eq_true, Bool.and_eq_true, beq_iff_eq, not_or, not_and, Option.isNone_iff_eq_none]
      refine ⟨⟨hid, fun h h' => hordinal ⟨h, h'⟩⟩, fun hended => ?_⟩
      rw [hended] at hopen
      constructor
      · intro h
        cases hopen (.inl h)
      · intro h
        cases hopen (.inr h)
    · cases hs : row.sessionId with
      | none => rfl
      | some s => exact hsession s hs

theorem Wf.addAttempt (hwf : Wf t) {status : AttemptStatusRow} (hfree : t.attemptFree row = true)
    (hordinal : ∀ a ∈ t.attempts, a.workItemId = row.workItemId → a.ordinal < row.ordinal)
    (hitem : (t.item row.campaignSessionId row.workItemId).isSome = true) : Wf (t.addAttempt row status) := by
  obtain ⟨hrows, -⟩ := attemptFree_iff.1 hfree
  have hadd : (t.addAttempt row status).attempts = t.attempts ++ [row] := rfl
  constructor
  · exact hwf.ids
  · exact hwf.keys
  · exact hwf.named
  · rw [hadd, List.map_append, List.map_singleton, ← List.concat_eq_append]
    refine hwf.attemptIds.concat (fun hmem => ?_)
    obtain ⟨a, ha, hid⟩ := List.mem_map.1 hmem
    exact (hrows a ha).1 hid
  · rw [hadd, List.pairwise_append]
    refine ⟨hwf.ordinals, List.pairwise_singleton _ _, ?_⟩
    intro a ha b hb hsame
    rw [List.mem_singleton] at hb
    subst hb
    exact hordinal a ha hsame
  · rw [hadd, List.pairwise_append]
    refine ⟨hwf.lastOfItem, List.pairwise_singleton _ _, ?_⟩
    intro a ha b hb hsame
    rw [List.mem_singleton] at hb
    subst hb
    exact (hrows a ha).2.2 (.inl hsame)
  · rw [hadd, List.pairwise_append]
    refine ⟨hwf.lastOfSession, List.pairwise_singleton _ _, ?_⟩
    intro a ha b hb hsame _
    rw [List.mem_singleton] at hb
    subst hb
    exact (hrows a ha).2.2 (.inr hsame)
  · intro a ha
    rw [hadd, List.mem_append, List.mem_singleton] at ha
    rcases ha with ha | rfl
    · exact hwf.homes a ha
    · exact hitem

structure Ages (f : AttemptRow → AttemptRow) : Prop where
  id : ∀ a, (f a).id = a.id
  item : ∀ a, (f a).workItemId = a.workItemId
  campaign : ∀ a, (f a).campaignSessionId = a.campaignSessionId
  ordinal : ∀ a, (f a).ordinal = a.ordinal
  ended : ∀ a, a.ended.isSome = true → (f a).ended.isSome = true
  session : ∀ a, (f a).sessionId = a.sessionId ∨ (f a).sessionId = none

theorem Wf.ageAttempts (hwf : Wf t) {f : AttemptRow → AttemptRow} (hf : Ages f) (hitems : u.items = t.items)
    (hattempts : u.attempts = t.attempts.map f) : Wf u := by
  constructor
  · rw [hitems]; exact hwf.ids
  · rw [hitems]; exact hwf.keys
  · rw [hitems]; exact hwf.named
  · have hsame : AttemptRow.id ∘ f = AttemptRow.id := by
      funext a
      exact hf.id a
    rw [hattempts, List.map_map, hsame]
    exact hwf.attemptIds
  · rw [hattempts, List.pairwise_map]
    refine hwf.ordinals.imp ?_
    intro a b hab
    rw [hf.item, hf.item, hf.ordinal, hf.ordinal]
    exact hab
  · rw [hattempts, List.pairwise_map]
    refine hwf.lastOfItem.imp ?_
    intro a b hab hsame
    rw [hf.item, hf.item] at hsame
    exact hf.ended a (hab hsame)
  · rw [hattempts, List.pairwise_map]
    refine hwf.lastOfSession.imp ?_
    intro a b hab hsame hsome
    rcases hf.session a with ha | ha
    · rw [ha] at hsame hsome
      rcases hf.session b with hb | hb
      · rw [hb] at hsame
        exact hf.ended a (hab hsame hsome)
      · rw [hsame, hb] at hsome
        cases hsome
    · rw [ha] at hsome
      cases hsome
  · intro a ha
    rw [hattempts] at ha
    obtain ⟨b, hb, rfl⟩ := List.mem_map.1 ha
    rw [item_congr hitems, hf.campaign, hf.item]
    exact hwf.homes b hb

theorem ages_end (id : String) (e : AttemptEnd) : Ages (fun a => if a.id = id ∧ a.ended = none then { a with ended := some e } else a) := by
  constructor
  · intro a
    split <;> rfl
  · intro a
    split <;> rfl
  · intro a
    split <;> rfl
  · intro a
    split <;> rfl
  · intro a ha
    split
    · rfl
    · exact ha
  · intro a
    split
    · exact .inl rfl
    · exact .inl rfl

/-- **Every write keeps the rows consistent.** -/
theorem Write.wf (hw : Write c t u) (hwf : Wf t) : Wf u := by
  cases hw with
  | addItem row hcampaign hnamed hnew => exact hwf.addItem hnamed hnew
  | reviseItem j b f hj hf hissue => exact hwf.reviseItem hf
  | addAttempt row sessionId h now hcampaign hitem hsession hended hfree hordinal =>
    refine hwf.addAttempt hfree hordinal ?_
    rw [hcampaign]
    exact hitem
  | endAttempt a e ha hc => exact hwf.ageAttempts (ages_end a.id e) rfl rfl
  | setDisposition id row hf hitem =>
    apply hwf.congr
    · unfold Tables.setDisposition
      cases row.resultingWorkItemId with
      | none => rfl
      | some result => rfl
    · unfold Tables.setDisposition
      cases row.resultingWorkItemId with
      | none => rfl
      | some result => rfl
  | _ => exact hwf.congr rfl rfl

theorem Writes.wf (hw : Writes c t u) (hwf : Wf t) : Wf u := by
  induction hw with
  | refl => exact hwf
  | tail _ hlast ih => exact hlast.wf ih

theorem Writes.item_isSome (hw : Writes c' t u) (hwf : Wf t) (h : (t.item c i).isSome = true) : (u.item c i).isSome = true := by
  induction hw with
  | refl => exact h
  | tail hbefore hlast ih => exact hlast.item_isSome (Writes.wf hbefore hwf) ih

end

end Wollipog.Ledger
