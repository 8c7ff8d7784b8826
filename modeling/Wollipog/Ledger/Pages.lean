import Wollipog.Ledger.Paging
/-!
# Pages — a chain of pages skips and repeats nothing

Every page of a chain is cut from one list of ids: the order of the first page is bound by the revision, the stamp or the
time of its cursors, and a page that finds another order is refused as stale.
-/
namespace Wollipog.Ledger

open Json (Text Numerals)
open Reviews (lit)
open Scope (sortBy_perm)

variable {N : Numerals} {localeCompare : String → String → Ordering} {digest : String → Text} {campaignId : String}
  {r r₀ : Reading} {f : WorkItemsFilter} {limit : ℕ} {q : CampaignWorkItemsQuery}

def CampaignWorkItemSummary.uncosted (summary : CampaignWorkItemSummary) : CampaignWorkItemSummary := { summary with cost := none }

variable (campaignId f) in
theorem uncosted_matching (r : Reading) : (r.matching campaignId f).map CampaignWorkItemSummary.uncosted =
    ((r.snapshot campaignId).items.map (summaryView (r.snapshot campaignId) (fun _ => none))).filter f.matchesItem := by
  unfold Reading.matching
  rw [List.filter_map, List.filter_map, List.map_map]
  rfl

variable {sort : String} {ids : List String} {rows : List CampaignWorkItemSummary}

theorem orderOf_uncosted (h : sort ≠ "cost") (at_ : ℕ) (a b : CampaignWorkItemSummary) :
    orderOf localeCompare sort at_ a.uncosted b.uncosted = orderOf localeCompare sort at_ a b := by
  unfold orderOf
  rw [if_neg h, if_neg h]
  rfl

theorem orderOf_time (h : sort ≠ "elapsed") (at_ at_' : ℕ) :
    orderOf localeCompare sort at_ = orderOf localeCompare sort at_' := by
  funext a b
  unfold orderOf
  rw [if_neg h, if_neg h]

theorem uncosted_rows (h : f.sort ≠ "cost") (r : Reading) (at_ : Option ℕ) :
    (r.rows localeCompare campaignId f at_).map CampaignWorkItemSummary.uncosted =
      ((r.matching campaignId f).map CampaignWorkItemSummary.uncosted).insertionSort (fun a b =>
        (orderOf localeCompare f.sort (at_.getD r.now) a b).isLE = true) :=
  List.map_insertionSort _ _ CampaignWorkItemSummary.uncosted _ (fun a _ b _ => by rw [orderOf_uncosted h])

/-- **But for the cost, two readings of one ledger list the same ids**, the elapsed time as of one moment. -/
theorem rows_ids (hsame : r.snapshot campaignId = r₀.snapshot campaignId) (hcost : f.sort ≠ "cost") {at_ : Option ℕ}
    (hat : f.sort = "elapsed" → at_.isSome = true) :
    (r.rows localeCompare campaignId f at_).map CampaignWorkItemSummary.id =
      (r₀.rows localeCompare campaignId f at_).map CampaignWorkItemSummary.id := by
  have horder : orderOf localeCompare f.sort (at_.getD r.now) = orderOf localeCompare f.sort (at_.getD r₀.now) := by
    by_cases h : f.sort = "elapsed"
    · obtain ⟨time, rfl⟩ := Option.isSome_iff_exists.1 (hat h)
      rfl
    · exact orderOf_time h _ _
  have hrows : (r.rows localeCompare campaignId f at_).map CampaignWorkItemSummary.uncosted =
      (r₀.rows localeCompare campaignId f at_).map CampaignWorkItemSummary.uncosted := by
    rw [uncosted_rows hcost, uncosted_rows hcost, uncosted_matching, uncosted_matching, hsame, horder]
  have hid : ∀ l : List CampaignWorkItemSummary, l.map CampaignWorkItemSummary.id =
      (l.map CampaignWorkItemSummary.uncosted).map CampaignWorkItemSummary.id := fun l => by
    rw [List.map_map]
    rfl
  rw [hid, hrows, ← hid]

variable (localeCompare campaignId f) in
theorem rows_perm (r : Reading) (at_ : Option ℕ) : (r.rows localeCompare campaignId f at_).Perm (r.matching campaignId f) :=
  List.perm_insertionSort _ _

variable (localeCompare campaignId f) in
theorem rows_sorted [Std.TransCmp localeCompare] (r : Reading) (at_ : Option ℕ) : (r.rows localeCompare campaignId f at_).Pairwise
    (fun a b => (orderOf localeCompare f.sort (at_.getD r.now) a b).isLE = true) := by
  have hcmp := orderOf_trans localeCompare f.sort (at_.getD r.now)
  have htotal : Std.Total (fun a b => (orderOf localeCompare f.sort (at_.getD r.now) a b).isLE = true) := by
    refine ⟨fun a b => ?_⟩
    have hswap : orderOf localeCompare f.sort (at_.getD r.now) b a = (orderOf localeCompare f.sort (at_.getD r.now) a b).swap :=
      hcmp.eq_swap
    cases h : orderOf localeCompare f.sort (at_.getD r.now) a b with
    | lt => exact .inl rfl
    | eq => exact .inl rfl
    | gt =>
      right
      rw [hswap, h]
      rfl
  have htrans : IsTrans CampaignWorkItemSummary (fun a b => (orderOf localeCompare f.sort (at_.getD r.now) a b).isLE = true) :=
    ⟨fun _ _ _ hab hbc => hcmp.isLE_trans hab hbc⟩
  exact List.pairwise_insertionSort _ _

variable (campaignId f) in
theorem matching_ids (r : Reading) : (r.matching campaignId f).map CampaignWorkItemSummary.id =
    ((r.tables.itemsOf campaignId).filter (f.matchesItem ∘ summaryView (r.snapshot campaignId) r.cost)).map ItemRow.id := by
  unfold Reading.matching
  rw [List.filter_map, List.map_map]
  rfl

theorem matching_nodup (r : Reading) : ((r.matching campaignId f).map CampaignWorkItemSummary.id).Nodup := by
  have hitems : ((r.tables.itemsOf campaignId).map ItemRow.id).Nodup :=
    ((sortBy_perm _).map ItemRow.id).nodup_iff.2 ((List.filter_sublist.map ItemRow.id).nodup r.wf.ids)
  rw [matching_ids]
  exact (List.filter_sublist.map ItemRow.id).nodup hitems

variable (localeCompare campaignId f) in
theorem rows_length_le (r : Reading) (at_ : Option ℕ) :
    (r.rows localeCompare campaignId f at_).length ≤ r.tables.items.length := by
  have hmatching := congrArg List.length (matching_ids campaignId f r)
  rw [List.length_map, List.length_map] at hmatching
  rw [(rows_perm localeCompare campaignId f r at_).length_eq, hmatching]
  refine (List.length_filter_le _ _).trans ?_
  rw [Tables.itemsOf, (sortBy_perm _).length_eq]
  exact List.length_filter_le _ _

theorem matching_plain {id : String} (h : id ∈ (r.matching campaignId f).map CampaignWorkItemSummary.id) :
    ',' ∉ id.toList ∧ id.toList ≠ [] := by
  rw [matching_ids] at h
  obtain ⟨row, hrow, rfl⟩ := List.mem_map.1 h
  have hitem : row ∈ r.tables.items :=
    (List.mem_filter.1 ((sortBy_perm _).mem_iff.1 (List.mem_filter.1 hrow).1)).1
  exact (r.wf.named row hitem).id_plain (by decide) (by decide)

theorem orderText_inj {l k : List String} (hl : ∀ x ∈ l, ',' ∉ x.toList ∧ x.toList ≠ []) (hk : ∀ x ∈ k, ',' ∉ x.toList ∧ x.toList ≠ [])
    (h : orderText campaignId l = orderText campaignId k) : l = k := by
  have htext := congrArg String.toList h
  unfold orderText at htext
  simp only [String.toList_append] at htext
  have hjoined := List.append_cancel_left htext
  rw [String.toList_intercalate, String.toList_intercalate] at hjoined
  have hplain : ∀ {l : List String}, (∀ x ∈ l, ',' ∉ x.toList ∧ x.toList ≠ []) → ∀ y ∈ l.map String.toList, ',' ∉ y ∧ y ≠ [] := by
    intro l hl y hy
    obtain ⟨x, hx, rfl⟩ := List.mem_map.1 hy
    exact hl x hx
  exact List.map_injective_iff.2 (fun _ _ h => String.toList_injective h) (SplitJoin.intercalate_inj (hplain hl) (hplain hk) hjoined)

variable (digest campaignId) in
def StampsApart (ids : List String) : Prop := ∀ l k : List String, l.Perm ids → k.Perm ids →
  orderStamp digest campaignId l = orderStamp digest campaignId k → orderText campaignId l = orderText campaignId k

/-! ## One page -/

section

variable (N localeCompare digest campaignId r₀ f)

def startedAt : Option ℕ := if f.sort = "elapsed" then some r₀.now else none

def firstRows : List CampaignWorkItemSummary := r₀.rows localeCompare campaignId f (startedAt r₀ f)

/-- A cursor of the chain that `r₀` starts. -/
def cursorAt (offset : ℕ) : Text :=
  encodeCursor N (r₀.snapshot campaignId).revision f.key offset
    (bindingOf digest campaignId f (startedAt r₀ f) (firstRows localeCompare campaignId r₀ f))

def cut (limit revision offset : ℕ) (rows : List CampaignWorkItemSummary) : CampaignWorkItemsPage where
  revision := revision
  items := (rows.drop offset).take limit
  nextCursor := if offset + ((rows.drop offset).take limit).length < rows.length then
      some (cursorAt N localeCompare digest campaignId r₀ f (offset + ((rows.drop offset).take limit).length))
    else none
  total := rows.length

end

theorem readQuery_limit (h : readQuery q = .ok (limit, f)) : 1 ≤ limit := by
  unfold readQuery at h
  cases hlimit : pageLimit q.limit with
  | error e =>
    rw [hlimit] at h
    cases h
  | ok n =>
    rw [hlimit] at h
    dsimp only at h
    have hpositive : 1 ≤ n := by
      unfold pageLimit at hlimit
      split at hlimit
      · cases hlimit
        decide
      · split at hlimit
        · rename_i hrange
          cases hlimit
          omega
        · cases hlimit
    split at h
    · cases h
    · split at h
      · cases h
      · split at h
        · cases h
        · split at h
          · cases h
          · obtain ⟨rfl, -⟩ := Prod.mk.inj (Except.ok.inj h)
            exact hpositive

theorem page_first (h : readQuery q = .ok (limit, f)) : page N localeCompare digest campaignId { q with cursor := none } r₀ =
      .ok (cut N localeCompare digest campaignId r₀ f limit (r₀.snapshot campaignId).revision 0 (firstRows localeCompare campaignId r₀ f)) := by
  have hquery : readQuery { q with cursor := none } = .ok (limit, f) := h
  unfold page
  rw [hquery]
  rfl

theorem startedAt_safe (at_ : ℕ) (h : startedAt r₀ f = some at_) : at_ ≤ 9007199254740991 := by
  unfold startedAt at h
  split at h
  · cases h
    exact r₀.now_safe
  · cases h

variable (campaignId) in
theorem revision_le (r : Reading) : (r.snapshot campaignId).revision ≤ 9007199254740991 := by
  show ((r.tables.ledgers.get campaignId).map LedgerRow.revision).getD 0 ≤ _
  cases h : r.tables.ledgers.get campaignId with
  | none => exact Nat.zero_le _
  | some row => exact r.revision_safe campaignId row h

theorem bound_ids (hsame : r.snapshot campaignId = r₀.snapshot campaignId)
    (hstamps : StampsApart digest campaignId ((r₀.matching campaignId f).map CampaignWorkItemSummary.id))
    (hstamp : sameStamp (carriedStamp (bindingOf digest campaignId f (startedAt r₀ f) (firstRows localeCompare campaignId r₀ f)).stamp)
      (bindingOf digest campaignId f (startedAt r₀ f) (r.rows localeCompare campaignId f (startedAt r₀ f))).stamp = true) :
    (r.rows localeCompare campaignId f (startedAt r₀ f)).map CampaignWorkItemSummary.id =
      (firstRows localeCompare campaignId r₀ f).map CampaignWorkItemSummary.id := by
  by_cases hcost : f.sort = "cost"
  · have hids : ((r.rows localeCompare campaignId f (startedAt r₀ f)).map CampaignWorkItemSummary.id).Perm
        ((r₀.matching campaignId f).map CampaignWorkItemSummary.id) := by
      have hperm := (rows_perm localeCompare campaignId f r (startedAt r₀ f)).map CampaignWorkItemSummary.id
      have hsets : (r.matching campaignId f).map CampaignWorkItemSummary.id = (r₀.matching campaignId f).map CampaignWorkItemSummary.id := by
        have huncosted := uncosted_matching campaignId f r
        rw [hsame, ← uncosted_matching] at huncosted
        have hmapped := congrArg (List.map CampaignWorkItemSummary.id) huncosted
        rw [List.map_map, List.map_map] at hmapped
        exact hmapped
      rwa [hsets] at hperm
    have hfirst := (rows_perm localeCompare campaignId f r₀ (startedAt r₀ f)).map CampaignWorkItemSummary.id
    have hplain : ∀ {l : List String}, l.Perm ((r₀.matching campaignId f).map CampaignWorkItemSummary.id) →
        ∀ x ∈ l, ',' ∉ x.toList ∧ x.toList ≠ [] := fun hl x hx => matching_plain (hl.mem_iff.1 hx)
    unfold bindingOf at hstamp
    dsimp only at hstamp
    rw [if_pos hcost, if_pos hcost] at hstamp
    rcases sameStamp_carried hstamp with heq | hnone
    · exact orderText_inj (hplain hids) (hplain hfirst) (hstamps _ _ hids hfirst (Option.some.inj heq).symm)
    · cases hnone
  · refine rows_ids hsame hcost fun helapsed => ?_
    rw [startedAt, if_pos helapsed]
    rfl

/-- **A later page is refused as stale, or cut from rows with the ids of the first.** -/
theorem page_next (h : readQuery q = .ok (limit, f)) {offset : ℕ} (hoffset : offset ≤ 9007199254740991)
    (hsame : (r.snapshot campaignId).revision = (r₀.snapshot campaignId).revision → r.snapshot campaignId = r₀.snapshot campaignId)
    (hstamps : StampsApart digest campaignId ((r₀.matching campaignId f).map CampaignWorkItemSummary.id)) :
    page N localeCompare digest campaignId { q with cursor := some (cursorAt N localeCompare digest campaignId r₀ f offset) } r =
        .error (staleCursor (r.snapshot campaignId).revision) ∨
      ∃ rows revision, rows.map CampaignWorkItemSummary.id = (firstRows localeCompare campaignId r₀ f).map CampaignWorkItemSummary.id ∧
        page N localeCompare digest campaignId { q with cursor := some (cursorAt N localeCompare digest campaignId r₀ f offset) } r =
          .ok (cut N localeCompare digest campaignId r₀ f limit revision offset rows) := by
  have hquery : ∀ cursor, readQuery { q with cursor := cursor } = .ok (limit, f) := fun _ => h
  have hparsed := @parseCursor_encode N _ _ f.key
    (bindingOf digest campaignId f (startedAt r₀ f) (firstRows localeCompare campaignId r₀ f))
    (revision_le campaignId r₀) hoffset startedAt_safe
  -- the time that the cursor carries is the one the page is ordered at
  have htime : (if f.sort = "elapsed" then some ((startedAt r₀ f).getD r.now) else none) = startedAt r₀ f := by
    unfold startedAt
    split <;> rfl
  set rows := r.rows localeCompare campaignId f (startedAt r₀ f) with hrows
  set binding₀ := bindingOf digest campaignId f (startedAt r₀ f) (firstRows localeCompare campaignId r₀ f) with hbinding₀
  set binding := bindingOf digest campaignId f (startedAt r₀ f) rows with hbinding
  have hpage : page N localeCompare digest campaignId { q with cursor := some (cursorAt N localeCompare digest campaignId r₀ f offset) } r =
      pageAt N localeCompare digest campaignId limit f
        (some ⟨(r₀.snapshot campaignId).revision, offset, carriedStamp binding₀.stamp, startedAt r₀ f⟩) r (startedAt r₀ f) := by
    unfold page
    rw [hquery]
    dsimp only
    rw [cursorAt, hparsed]
    dsimp only [Option.bind_some]
    have hat : binding₀.at_ = startedAt r₀ f := rfl
    rw [hat, htime]
  rw [hpage]
  unfold pageAt cursorOffset
  dsimp only
  split
  · rename_i e hrefused
    split at hrefused
    · exact .inl (by rw [← Except.error.inj hrefused])
    · cases hrefused
  · rename_i found haccepted
    split at haccepted
    · cases haccepted
    · rename_i hbound
      cases haccepted
      rw [not_or, not_or, not_not, Bool.not_eq_false] at hbound
      have hrevision : (r.snapshot campaignId).revision = (r₀.snapshot campaignId).revision := by exact_mod_cast hbound.1.symm
      have hids := bound_ids (hsame hrevision) hstamps hbound.2.1
      have hbindings : binding = binding₀ := by
        rw [hbinding, hbinding₀, bindingOf, bindingOf, hids]
      refine .inr ⟨rows, (r.snapshot campaignId).revision, hids, ?_⟩
      rw [← hrows, ← hbinding, hbindings, hrevision]
      rfl

variable (limit) in
theorem cut_ids (hids : rows.map CampaignWorkItemSummary.id = ids) (offset : ℕ) :
    ((rows.drop offset).take limit).map CampaignWorkItemSummary.id = (ids.drop offset).take limit := by
  rw [List.map_take, List.map_drop, hids]

/-- What is told of a chain's pages: refused as stale, or the ids that `offset` leaves. -/
def Gives (ids : List String) (offset : ℕ) (run : List CampaignWorkItemsPage × Ending) : Prop :=
  (∃ revision, run.2 = .refused (staleCursor revision)) ∨
    run.2 = .ended ∧ run.1.flatMap (fun p => p.items.map CampaignWorkItemSummary.id) = ids.drop offset ∧ ∀ p ∈ run.1, p.total = ids.length

theorem chain_step {calls : ℕ → Reading} {fuel n offset revision : ℕ} {cursor : Option Text} (hids : rows.map CampaignWorkItemSummary.id = ids) (hlimit : 1 ≤ limit) (hoffset : offset ≤ ids.length)
    (hpage : page N localeCompare digest campaignId { q with cursor := cursor } (calls n) =
      .ok (cut N localeCompare digest campaignId r₀ f limit revision offset rows))
    (hrest : ∀ next, offset < next → next < ids.length → Gives ids next
      (chain N localeCompare digest campaignId q calls fuel (n + 1) (some (cursorAt N localeCompare digest campaignId r₀ f next)))) :
    Gives ids offset (chain N localeCompare digest campaignId q calls (fuel + 1) n cursor) := by
  have hlength : rows.length = ids.length := by
    rw [← hids, List.length_map]
  have htaken : ((rows.drop offset).take limit).length = min limit (ids.length - offset) := by
    rw [List.length_take, List.length_drop, hlength]
  have hitems := cut_ids limit hids offset
  rw [chain, hpage]
  by_cases hmore : offset + ((rows.drop offset).take limit).length < rows.length
  · have hfull : ((rows.drop offset).take limit).length = limit := by omega
    have hnext : (cut N localeCompare digest campaignId r₀ f limit revision offset rows).nextCursor =
        some (cursorAt N localeCompare digest campaignId r₀ f (offset + limit)) := by
      unfold cut
      dsimp only
      rw [if_pos hmore, hfull]
    dsimp only
    rw [hnext]
    rcases hrest (offset + limit) (by omega) (by omega) with hstale | ⟨hended, hflat, htotals⟩
    · exact .inl hstale
    · refine .inr ⟨hended, ?_, fun p hp => ?_⟩
      · rw [List.flatMap_cons, hflat]
        show ((rows.drop offset).take limit).map CampaignWorkItemSummary.id ++ _ = _
        rw [hitems, ← List.drop_drop, List.take_append_drop]
      · rcases List.mem_cons.1 hp with rfl | hp
        · exact hlength
        · exact htotals p hp
  · have hnext : (cut N localeCompare digest campaignId r₀ f limit revision offset rows).nextCursor = none := by
      unfold cut
      dsimp only
      rw [if_neg hmore]
    dsimp only
    rw [hnext]
    refine .inr ⟨rfl, ?_, fun p hp => ?_⟩
    · rw [List.flatMap_singleton]
      show ((rows.drop offset).take limit).map CampaignWorkItemSummary.id = _
      rw [hitems]
      exact List.take_of_length_le (by rw [List.length_drop]; omega)
    · rw [List.mem_singleton.1 hp]
      exact hlength

theorem chain_gives {calls : ℕ → Reading} (h : readQuery q = .ok (limit, f))
    (hsame : ∀ n, ((calls n).snapshot campaignId).revision = (r₀.snapshot campaignId).revision →
      (calls n).snapshot campaignId = r₀.snapshot campaignId)
    (hstamps : StampsApart digest campaignId ((r₀.matching campaignId f).map CampaignWorkItemSummary.id)) {ids : List String}
    (hids : (firstRows localeCompare campaignId r₀ f).map CampaignWorkItemSummary.id = ids) (hbound : ids.length ≤ 9007199254740991) :
    ∀ (fuel n offset : ℕ), offset < ids.length → ids.length - offset ≤ fuel → Gives ids offset
      (chain N localeCompare digest campaignId q calls fuel n (some (cursorAt N localeCompare digest campaignId r₀ f offset)))
  | 0, n, offset, hoffset, hfuel => by omega
  | fuel + 1, n, offset, hoffset, hfuel => by
    have hpage := @page_next N localeCompare digest campaignId (calls n) r₀ f limit q h offset (hoffset.le.trans hbound) (hsame n) hstamps
    rcases hpage with hstale | ⟨rows, revision, hrows, hok⟩
    · left
      rw [chain, hstale]
      exact ⟨_, rfl⟩
    · exact chain_step (hrows.trans hids) (readQuery_limit h) hoffset.le hok fun next hlater hnext =>
        chain_gives h hsame hstamps hids hbound fuel (n + 1) next hnext (by omega)

/-- What is read at the `n`-th millisecond; by the first, both items cost something. -/
def sampleReading (n : ℕ) : Reading where
  tables := unlinkedTables
  hooks := quietHooks
  ownMerged := fun _ => false
  now := min n 9007199254740991
  cost := fun _ => if n = 0 then none else some n
  wf := unlinkedTables_stored.wf
  now_safe := Nat.min_le_right _ _
  revision_safe := fun _ _ h => by cases h
  items_safe := by decide

def byCost : CampaignWorkItemsQuery := ⟨some 1, some "all", none, some "cost", none, none⟩

def compareTexts : String → String → Ordering := measured id

theorem sampleStamps : StampsApart lit "c" [upstream.id, downstream.id] := by
  have horders : ∀ {l : List String}, l.Perm [upstream.id, downstream.id] →
      l = [upstream.id, downstream.id] ∨ l = [downstream.id, upstream.id] := by
    intro l hl
    obtain ⟨x, y, rfl⟩ := List.length_eq_two.1 hl.length_eq
    have hdistinct : x ≠ y := fun h => by
      have hnodup : [x, y].Nodup := hl.nodup_iff.2 (by decide)
      rw [h] at hnodup
      cases hnodup with
      | cons hnot _ => exact hnot y List.mem_cons_self rfl
    have hx := hl.mem_iff.1 (List.mem_cons_self (a := x))
    have hy := hl.mem_iff.1 (List.mem_cons_of_mem x (List.mem_cons_self (a := y)))
    simp only [List.mem_cons, List.not_mem_nil, or_false] at hx hy
    rcases hx with rfl | rfl <;> rcases hy with rfl | rfl
    · exact absurd rfl hdistinct
    · exact .inl rfl
    · exact .inr rfl
    · exact absurd rfl hdistinct
  intro l k hl hk hstamp
  rcases horders hl with rfl | rfl <;> rcases horders hk with rfl | rfl
  · rfl
  · exact absurd hstamp (by decide)
  · exact absurd hstamp (by decide)
  · rfl

end Wollipog.Ledger
