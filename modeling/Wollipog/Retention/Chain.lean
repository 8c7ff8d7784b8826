import Wollipog.Retention.Events
/-!
# Chain — batches that follow the cursor to the end

Every instance at or before the cursor that may be pruned is empty (`Behind`), and each instance has kept the events
after some seq (`Pruned`), which says what its marker holds.
-/
namespace Wollipog.Retention

namespace Store

def eventCount (s : Store) (k : String) : Nat := (s.prunes k).elim 0 Prune.eventCount

def throughSeq (s : Store) (k : String) : Nat := (s.prunes k).elim 0 Prune.throughSeq

end Store

def Batch.removedFrom (b : Batch) (k : String) : Nat := if b.instanceId = some k then b.removed else 0

section
variable (p : Pass)

/-- The instances that the policy covers, with or without events. -/
def covered : List Instance := p.catalog.instances.filter (fun i => i.completedBefore p.cutoff && p.owned i)

def Eligible (k : String) : Prop := ∃ i ∈ covered p, i.instanceId = k

inductive Chain : List Call → Option WorkflowRetentionCursor → Store → List Batch → Store → Prop
  | finish {call cursor s b t} (batch : pruneBatch p call cursor s = (.ok b, t))
      (last : b.finished = true) : Chain [call] cursor s [b] t
  | follow {call calls cursor s b t bs u} (batch : pruneBatch p call cursor s = (.ok b, t))
      (more : b.finished = false) (rest : Chain calls b.cursor t bs u) : Chain (call :: calls) cursor s (b :: bs) u

/-- A chain that is broken off, or that a throw ends. -/
inductive Cut : List Call → Option WorkflowRetentionCursor → Store → Store → Prop
  | stop {cursor s} : Cut [] cursor s s
  | fail {call cursor s error t} (batch : pruneBatch p call cursor s = (.error error, t)) :
      Cut [call] cursor s t
  | follow {call calls cursor s b t u} (batch : pruneBatch p call cursor s = (.ok b, t))
      (more : b.finished = false) (rest : Cut calls b.cursor t u) : Cut (call :: calls) cursor s u

/-- Chains from the start again after every failure, until one is finished. -/
inductive Repeated : List Call → Store → Store → Prop
  | finish {calls s bs t} (chain : Chain p calls none s bs t) : Repeated calls s t
  | again {calls calls' s t u} (cut : Cut p calls none s t) (rest : Repeated calls' t u) :
      Repeated (calls ++ calls') s u

end

variable {p : Pass} {call : Call} {calls calls' : List Call} {cursor : Option WorkflowRetentionCursor} {s t u : Store} {b : Batch}
  {bs : List Batch} {k : String} {pre post : List Instance} {i j : Instance} {last : Event} {stamp : Int → Nat → Prop}

theorem mem_beyond : i ∈ p.beyond cursor ↔
    i ∈ p.catalog.instances ∧ i.completedBefore p.cutoff = true ∧ i.follows cursor = true := by
  rw [Pass.beyond, List.mem_insertionSort, List.mem_filter, Bool.and_eq_true]

theorem beyond_sorted : (p.beyond cursor).Pairwise (fun a b => a.cursor.key ≤ b.cursor.key) :=
  List.pairwise_insertionSort _ _

theorem mem_covered : i ∈ covered p ↔ i ∈ p.catalog.instances ∧ i.completedBefore p.cutoff = true ∧ p.owned i = true := by
  rw [covered, List.mem_filter, Bool.and_eq_true]

theorem inj_instanceId (hi : i ∈ p.catalog.instances) (hj : j ∈ p.catalog.instances) (h : i.instanceId = j.instanceId) : i = j :=
  List.inj_on_of_nodup_map p.catalog.nodup hi hj h

theorem key_instanceId (h : i.cursor.key = j.cursor.key) : i.instanceId = j.instanceId :=
  (Prod.mk.inj (toLex.injective h)).2

theorem follows_trans (hi : i.follows cursor = true) (hij : i.cursor.key < j.cursor.key) : j.follows cursor = true := by
  cases cursor with
  | none => rfl
  | some at' => exact decide_eq_true ((of_decide_eq_true hi).trans hij)

/-- **A cursor that advances** to a row of its page passes that row. -/
theorem beyond_lt (hi : i ∈ p.beyond cursor) : (p.beyond (some i.cursor)).length < (p.beyond cursor).length := by
  obtain ⟨hin, hcompleted, hafter⟩ := mem_beyond.1 hi
  have hfilter : p.catalog.instances.filter (fun j => j.completedBefore p.cutoff && j.follows (some i.cursor)) =
      (p.catalog.instances.filter (fun j => j.completedBefore p.cutoff && j.follows cursor)).filter (fun j => j.follows (some i.cursor)) := by
    rw [List.filter_filter]
    refine List.filter_congr (fun j _ => ?_)
    cases hlt : j.follows (some i.cursor) with
    | false => rw [Bool.and_false, Bool.false_and]
    | true => rw [Bool.and_true, Bool.true_and, follows_trans hafter (of_decide_eq_true hlt), Bool.and_true]
  unfold Pass.beyond
  rw [List.length_insertionSort, List.length_insertionSort, hfilter, List.length_filter_lt_length_iff_exists]
  refine ⟨i, List.mem_filter.2 ⟨hin, ?_⟩, fun hself => lt_irrefl _ (of_decide_eq_true hself)⟩
  rw [hcompleted, hafter]
  rfl

theorem page_append : p.page cursor ++ (p.beyond cursor).drop 50 = p.beyond cursor := List.take_append_drop _ _

/-! ## The events that are left -/

theorem Removes.events_self (h : Removes p call cursor s t b i last) :
    t.events i.instanceId = after last.seq (s.events i.instanceId) := by
  rw [h.store]
  exact Function.update_self ..

theorem Removes.prunes_self (h : Removes p call cursor s t b i last) :
    t.prunes i.instanceId = some ⟨call.now, s.eventCount i.instanceId + b.removed, call.retentionDays,
      max (s.throughSeq i.instanceId) last.seq⟩ := by
  rw [h.store]
  unfold Store.upsert Store.eventCount Store.throughSeq
  simp only [Function.update_self, Store.delete]
  cases s.prunes i.instanceId with
  | none => simp
  | some old => rfl

theorem Removes.of_ne (h : Removes p call cursor s t b i last)
    (hne : k ≠ i.instanceId) : t.events k = s.events k ∧ t.prunes k = s.prunes k := by
  rw [h.store]
  exact ⟨Function.update_of_ne hne .., Function.update_of_ne hne ..⟩

theorem marker_of_prunes {m : Prune} (h : s.prunes k = some m) : s.eventCount k = m.eventCount ∧ s.throughSeq k = m.throughSeq := by
  unfold Store.eventCount Store.throughSeq
  rw [h]
  exact ⟨rfl, rfl⟩

theorem marker_congr (h : t.prunes k = s.prunes k) : t.eventCount k = s.eventCount k ∧ t.throughSeq k = s.throughSeq k := by
  unfold Store.eventCount Store.throughSeq
  rw [h]
  exact ⟨rfl, rfl⟩

theorem Removes.mem_beyond (h : Removes p call cursor s t b i last) : i ∈ p.beyond cursor := by
  obtain ⟨pre, post, hpage, -⟩ := h.page
  have hi : i ∈ p.page cursor := hpage ▸ List.mem_append_cons_self
  exact List.mem_of_mem_take hi

theorem Removes.isCovered (h : Removes p call cursor s t b i last) : i ∈ covered p := by
  obtain ⟨hin, hcompleted, -⟩ := Retention.mem_beyond.1 h.mem_beyond
  exact mem_covered.2 ⟨hin, hcompleted, h.owned⟩

theorem length_split (events : List Event) (seq : Nat) :
    (through seq events).length + (after seq events).length = events.length := by
  have hsplit := @List.length_eq_length_filter_add Event events (fun e => decide (e.seq ≤ seq))
  simp only [← decide_not, Nat.not_le] at hsplit
  exact hsplit.symm

variable (p) in
/-- What batches with the stamps of `stamp` made of an instance of `s`. -/
def Pruned (stamp : Int → Nat → Prop) (s t : Store) (k : String) : Prop :=
  (t.events k = s.events k ∧ t.prunes k = s.prunes k) ∨
    Eligible p k ∧ ∃ last ∈ s.events k, ∃ now retentionDays, stamp now retentionDays ∧
      t.events k = after last.seq (s.events k) ∧
      t.prunes k = some ⟨now, s.eventCount k +
        (through last.seq (s.events k)).length, retentionDays, max (s.throughSeq k) last.seq⟩

def OneStamp (stamp : Int → Nat → Prop) : Prop := ∀ now days now' days', stamp now days → stamp now' days' → now = now' ∧ days = days'

theorem pruned_refl : Pruned p stamp s s k := .inl ⟨rfl, rfl⟩

theorem Pruned.trans (h : Pruned p stamp s t k) (h' : Pruned p stamp t u k) : Pruned p stamp s u k := by
  rcases h' with ⟨hevents, hprunes⟩ | ⟨heligible, last', hlast', now', days', hstamp', hevents', hprunes'⟩
  · unfold Pruned
    rwa [hevents, hprunes]
  rcases h with ⟨hevents, hprunes⟩ | ⟨-, last, hlast, now, days, -, hevents, hprunes⟩
  · refine .inr ⟨heligible, last', hevents ▸ hlast', now', days', hstamp', hevents ▸ hevents', ?_⟩
    rw [hprunes', hevents, (marker_congr hprunes).1, (marker_congr hprunes).2]
  · rw [hevents] at hlast'
    obtain ⟨hin, hlt⟩ := List.mem_filter.1 hlast'
    have hlt := of_decide_eq_true hlt
    refine .inr ⟨heligible, last', hin, now', days', hstamp', ?_, ?_⟩
    · rw [hevents', hevents, after, after, List.filter_filter]
      refine List.filter_congr (fun e _ => ?_)
      rw [← Bool.decide_and, decide_eq_decide]
      exact ⟨And.left, fun h => ⟨h, hlt.trans h⟩⟩
    · have hcount := length_split (through last'.seq (s.events k)) last.seq
      have hlow : through last.seq (through last'.seq (s.events k)) = through last.seq (s.events k) := by
        rw [through, through, List.filter_filter]
        refine List.filter_congr (fun e _ => ?_)
        rw [← Bool.decide_and, decide_eq_decide]
        exact ⟨And.left, fun h => ⟨h, h.trans (Nat.le_of_lt hlt)⟩⟩
      have hswap : through last'.seq (after last.seq (s.events k)) = after last.seq (through last'.seq (s.events k)) := List.filter_comm _ _ _
      obtain ⟨heventCount, hthroughSeq⟩ := marker_of_prunes hprunes
      rw [hprunes', hevents, hswap, heventCount, hthroughSeq, Nat.add_assoc, ← hlow, hcount, Nat.max_assoc,
        Nat.max_eq_right (Nat.le_of_lt hlt)]

/-- **The marker grows by the events removed**, and its seq does not decrease. -/
theorem Pruned.marker (h : Pruned p stamp s t k) : t.eventCount k + (t.events k).length = s.eventCount k + (s.events k).length ∧
      s.throughSeq k ≤ t.throughSeq k := by
  rcases h with ⟨hevents, hprunes⟩ | ⟨-, last, -, now, days, -, hevents, hprunes⟩
  · obtain ⟨heventCount, hthroughSeq⟩ := marker_congr hprunes
    rw [hevents, heventCount, hthroughSeq]
    exact ⟨rfl, Nat.le_refl _⟩
  · obtain ⟨heventCount, hthroughSeq⟩ := marker_of_prunes hprunes
    rw [hevents, ← length_split (s.events k) last.seq, heventCount, hthroughSeq, ← Nat.add_assoc]
    exact ⟨rfl, Nat.le_max_left _ _⟩

theorem Pruned.empty (h : Pruned p stamp s t k) (hs : s.events k = []) : t.events k = [] := by
  rcases h with ⟨hevents, -⟩ | ⟨-, last, hlast, -⟩
  · exact hevents.trans hs
  · rw [hs] at hlast
    cases hlast

/-- **An instance that is emptied** has one marker, up to the stamps. -/
theorem Pruned.unique (h : Pruned p stamp s t k) (h' : Pruned p stamp s u k)
    (ht : t.events k = []) (hu : u.events k = []) : t.throughSeq k = u.throughSeq k ∧
      (OneStamp stamp → t.prunes k = u.prunes k) := by
  rcases h with ⟨hevents, hprunes⟩ | ⟨-, last, hlast, now, days, hstamp, hevents, hprunes⟩
  · rw [hevents] at ht
    rcases h' with ⟨-, hprunes'⟩ | ⟨-, last', hlast', -⟩
    · rw [(marker_congr hprunes).2, (marker_congr hprunes').2, hprunes, hprunes']
      exact ⟨rfl, fun _ => rfl⟩
    · rw [ht] at hlast'
      cases hlast'
  rcases h' with ⟨hevents', -⟩ | ⟨-, last', hlast', now', days', hstamp', hevents', hprunes'⟩
  · rw [← hevents', hu] at hlast
    cases hlast
  have hle {a b : Event} (hb : b ∈ s.events k)
      (hempty : (s.events k).filter (fun e => decide (a.seq < e.seq)) = []) : b.seq ≤ a.seq := by
    have := List.filter_eq_nil_iff.1 hempty b hb
    rwa [decide_eq_true_eq, Nat.not_lt] at this
  have hseq : last.seq = last'.seq := Nat.le_antisymm (hle hlast (hevents'.symm.trans hu)) (hle hlast' (hevents.symm.trans ht))
  rw [(marker_of_prunes hprunes).2, (marker_of_prunes hprunes').2, hprunes, hprunes', hseq]
  refine ⟨rfl, fun hone => ?_⟩
  obtain ⟨rfl, rfl⟩ := hone _ _ _ _ hstamp hstamp'
  rfl

theorem Removes.pruned (h : Removes p call cursor s t b i last) (hstamp : stamp call.now call.retentionDays)
    (k : String) : Pruned p stamp s t k := by
  by_cases hid : k = i.instanceId
  · rw [hid]
    refine .inr ⟨⟨i, h.isCovered, rfl⟩, last, h.mem, call.now, call.retentionDays, hstamp, h.events_self, ?_⟩
    rw [h.prunes_self, h.removed]
  · exact .inl (h.of_ne hid)

theorem pruneBatch_pruned (h : pruneBatch p call cursor s = (.ok b, t)) (hstamp : stamp call.now call.retentionDays)
    (k : String) : Pruned p stamp s t k := by
  rcases pruneBatch_cases h with hskips | ⟨i, last, hremoves⟩
  · rw [hskips.store]
    exact pruned_refl
  · exact hremoves.pruned hstamp k

theorem Removes.removed_pos (h : Removes p call cursor s t b i last) : 0 < b.removed := by
  rw [h.removed]
  exact List.length_pos_of_mem (List.mem_filter.2 ⟨h.mem, decide_eq_true (Nat.le_refl _)⟩)

/-- **A batch removes what it says**, from the instance it names. -/
theorem pruneBatch_removed (h : pruneBatch p call cursor s = (.ok b, t)) (k : String) :
    (t.events k).length + b.removedFrom k = (s.events k).length := by
  unfold Batch.removedFrom
  rcases pruneBatch_cases h with hskips | ⟨i, last, hremoves⟩
  · rw [hskips.store, hskips.answer, if_neg (fun h => by cases h), Nat.add_zero]
  · rw [hremoves.instanceId]
    by_cases hid : k = i.instanceId
    · rw [hid, if_pos rfl, hremoves.events_self, hremoves.removed, Nat.add_comm, length_split]
    · rw [if_neg (fun h => hid (Option.some.inj h).symm), (hremoves.of_ne hid).1, Nat.add_zero]

theorem pruneBatch_limit (h : pruneBatch p call cursor s = (.ok b, t)) (hover : call.maxBytes < b.bytes) : b.removed = 1 := by
  rcases pruneBatch_cases h with hskips | ⟨i, last, hremoves⟩
  · rw [hskips.answer] at hover
    cases hover
  · exact hremoves.limit hover

variable (p) in
def Behind (cursor : Option WorkflowRetentionCursor) (s : Store) : Prop := ∀ i ∈ covered p,
  i.follows cursor ≠ true → s.events i.instanceId = []

theorem behind_none : Behind p none s := fun _ _ hno => absurd rfl hno

/-- **The cursor advances** over rows that are empty. -/
theorem Behind.advance (h : Behind p cursor s) (hbeyond : p.beyond cursor = pre ++ i :: post)
    (hpre : ∀ j ∈ pre, p.owned j = true → s.events j.instanceId = [])
    (hi : p.owned i = true → s.events i.instanceId = []) : Behind p (some i.cursor) s := by
  intro j hj hno
  by_cases hafter : j.follows cursor = true
  · obtain ⟨hin, hcompleted, howned⟩ := mem_covered.1 hj
    have hmem : j ∈ pre ++ i :: post := by
      rw [← hbeyond]
      exact mem_beyond.2 ⟨hin, hcompleted, hafter⟩
    rcases List.mem_append.1 hmem with hmem | hmem
    · exact hpre j hmem howned
    rcases List.mem_cons.1 hmem with rfl | hmem
    · exact hi howned
    · -- A later row of the page has a greater key, or it is the row itself.
      have hrows := (List.pairwise_append.1 (hbeyond ▸ beyond_sorted)).2.1
      have hkey : i.cursor.key = j.cursor.key := by
        refine le_antisymm ((List.pairwise_cons.1 hrows).1 j hmem) (not_lt.1 fun hlt => hno ?_)
        exact decide_eq_true hlt
      have hii : i ∈ p.catalog.instances := (mem_beyond.1 (hbeyond ▸ List.mem_append_cons_self)).1
      obtain rfl := inj_instanceId hii hin (key_instanceId hkey)
      exact hi howned
  · exact h j hj hafter

theorem Skips.behind (h : Skips p cursor s t b) (hs : Behind p cursor s) (hmore : b.finished = false) : Behind p b.cursor t ∧
      (p.beyond b.cursor).length < (p.beyond cursor).length := by
  have hfull : ¬(p.page cursor).length < 50 := by
    rw [h.answer] at hmore
    exact of_decide_eq_false hmore
  have hne : p.page cursor ≠ [] := fun hnil => hfull (by rw [hnil]; decide)
  obtain ⟨init, last, hpage⟩ := (List.eq_nil_or_concat' (p.page cursor)).resolve_left hne
  have hbeyond : p.beyond cursor = init ++ last :: (p.beyond cursor).drop 50 := by
    rw [← List.singleton_append, ← List.append_assoc, ← hpage, page_append]
  have hcursor : b.cursor = some last.cursor := by
    rw [h.answer, hpage, List.getLast?_concat]
    rfl
  have hskipped := hpage ▸ h.skipped
  rw [hcursor, h.store]
  refine ⟨hs.advance hbeyond (fun j hj => hskipped j (List.mem_append_left _ hj)) (hskipped last (by simp)), beyond_lt ?_⟩
  rw [hbeyond]
  exact List.mem_append_cons_self

/-- **A finished batch leaves no event** that the policy covers. -/
theorem Skips.done (h : Skips p cursor s t b) (hs : Behind p cursor s)
    (hlast : b.finished = true) : ∀ i ∈ covered p, t.events i.instanceId = [] := by
  intro i hi
  rw [h.store]
  by_cases hafter : i.follows cursor = true
  · obtain ⟨hin, hcompleted, howned⟩ := mem_covered.1 hi
    have hshort : (p.page cursor).length < 50 := by
      rw [h.answer] at hlast
      exact of_decide_eq_true hlast
    have hwhole : p.page cursor = p.beyond cursor := by
      refine List.take_of_length_le ?_
      rw [Pass.page, List.length_take] at hshort
      omega
    exact h.skipped i (hwhole ▸ mem_beyond.2 ⟨hin, hcompleted, hafter⟩) howned
  · exact hs i hi hafter

theorem Removes.behind (h : Removes p call cursor s t b i last) (hs : Behind p cursor s) :
    Behind p b.cursor t ∧ (p.beyond b.cursor).length ≤ (p.beyond cursor).length := by
  have hpruned (k : String) : Pruned p (fun _ _ => True) s t k := h.pruned trivial k
  have ht : Behind p cursor t := fun j hj hno => (hpruned j.instanceId).empty (hs j hj hno)
  rw [h.cursor]
  split
  · exact ⟨ht, Nat.le_refl _⟩
  · rename_i hnone
    obtain ⟨pre, post, hpage, hskipped⟩ := h.page
    have hbeyond : p.beyond cursor = pre ++ i :: (post ++ (p.beyond cursor).drop 50) := by
      rw [← List.cons_append, ← List.append_assoc, ← hpage, page_append]
    exact ⟨ht.advance hbeyond (fun j hj howned => (hpruned j.instanceId).empty (hskipped j hj howned)) (fun _ => not_hasEvents.1 hnone),
      Nat.le_of_lt (beyond_lt h.mem_beyond)⟩

variable (p) in
def left (s : Store) : Nat := ((covered p).map (fun i => (s.events i.instanceId).length)).sum

/-- **The events that the policy covers** are those that `counts` reports. -/
theorem counts_events : (s.counts p).events = left p s := by
  have hfilter : s.eligible p = (covered p).filter (fun i => s.hasEvents i.instanceId) := by
    rw [covered, List.filter_filter]
    refine List.filter_congr (fun i _ => ?_)
    rw [Bool.and_comm]
  simp only [Store.counts, hfilter, left]
  induction covered p with
  | nil => rfl
  | cons i rows ih =>
    rw [List.filter_cons]
    split
    · rw [List.map_cons, List.sum_cons, List.map_cons, List.sum_cons, ih]
    · rename_i hnone
      rw [List.map_cons, List.sum_cons, not_hasEvents.1 hnone, List.length_nil, Nat.zero_add, ih]

/-- **A batch that removes** takes its events from those that are still to go. -/
theorem Removes.left_eq (h : Removes p call cursor s t b i last) : left p t + b.removed = left p s := by
  obtain ⟨before, after, hsplit⟩ := List.append_of_mem h.isCovered
  have hnodup : ((covered p).map Instance.instanceId).Nodup := p.catalog.nodup.sublist (List.filter_sublist.map _)
  rw [hsplit, List.map_append, List.map_cons, List.nodup_middle, List.nodup_cons, List.mem_append, not_or] at hnodup
  have hsame {rows : List Instance} (hrows : i.instanceId ∉ rows.map Instance.instanceId) :
      rows.map (fun j => (t.events j.instanceId).length) = rows.map (fun j => (s.events j.instanceId).length) := by
    refine List.map_congr_left (fun j hj => ?_)
    have hne : j.instanceId ≠ i.instanceId := fun heq => hrows (heq ▸ List.mem_map_of_mem hj)
    rw [(h.of_ne hne).1]
  have hself := length_split (s.events i.instanceId) last.seq
  unfold left
  rw [hsplit, List.map_append, List.map_append, List.map_cons, List.map_cons, List.sum_append, List.sum_append, List.sum_cons, List.sum_cons,
    hsame hnodup.1.1, hsame hnodup.1.2, h.events_self, h.removed]
  omega

theorem pruneBatch_left (h : pruneBatch p call cursor s = (.ok b, t)) : left p t + b.removed = left p s := by
  rcases pruneBatch_cases h with hskips | ⟨i, last, hremoves⟩
  · rw [hskips.store, hskips.answer, Nat.add_zero]
  · exact hremoves.left_eq

variable (p) in
/-- What decreases with every batch that is not finished. -/
def work (cursor : Option WorkflowRetentionCursor) (s : Store) : Nat := (p.beyond cursor).length + left p s

theorem pruneBatch_follow (h : pruneBatch p call cursor s = (.ok b, t)) (hs : Behind p cursor s)
    (hmore : b.finished = false) : Behind p b.cursor t ∧
      work p b.cursor t < work p cursor s := by
  have hleft := pruneBatch_left h
  unfold work
  rcases pruneBatch_cases h with hskips | ⟨i, last, hremoves⟩
  · obtain ⟨hbehind, hlt⟩ := hskips.behind hs hmore
    exact ⟨hbehind, by omega⟩
  · obtain ⟨hbehind, hle⟩ := hremoves.behind hs
    have hpos := hremoves.removed_pos
    exact ⟨hbehind, by omega⟩

theorem pruneBatch_finish (h : pruneBatch p call cursor s = (.ok b, t)) (hs : Behind p cursor s)
    (hlast : b.finished = true) : ∀ i ∈ covered p, t.events i.instanceId = [] := by
  rcases pruneBatch_cases h with hskips | ⟨i, last, hremoves⟩
  · exact hskips.done hs hlast
  · rw [hremoves.finished] at hlast
    cases hlast

/-- **Every chain ends**: the work that is left decreases. -/
theorem exists_chain {calls : Nat → Call} (hcalls : ∀ n, (calls n).throws = fun _ => none) (hs : Behind p cursor s) :
    ∃ n bs t, Chain p ((List.range n).map calls) cursor s bs t := by
  induction hwork : work p cursor s using Nat.strong_induction_on generalizing calls cursor s with
  | _ n ih =>
    obtain ⟨b, t, hbatch⟩ := @pruneBatch_answers p (calls 0) cursor s (hcalls 0)
    cases hfinished : b.finished with
    | true => exact ⟨1, [b], t, .finish hbatch hfinished⟩
    | false =>
      obtain ⟨hbehind, hlt⟩ := pruneBatch_follow hbatch hs hfinished
      obtain ⟨m, bs, u, hrest⟩ := ih _ (hwork ▸ hlt) (fun n => hcalls (n + 1)) hbehind rfl
      refine ⟨m + 1, b :: bs, u, ?_⟩
      rw [List.range_succ_eq_map, List.map_cons, List.map_map]
      exact .follow hbatch hfinished hrest

/-- What a chain has done at its end. -/
structure Done (p : Pass) (stamp : Int → Nat → Prop) (s t : Store) : Prop where
  empty : ∀ i ∈ covered p, t.events i.instanceId = []
  pruned : ∀ k, Pruned p stamp s t k

theorem Chain.done (h : Chain p calls cursor s bs t) (hs : Behind p cursor s)
    (hstamp : ∀ call ∈ calls, stamp call.now call.retentionDays) : Done p stamp s t ∧
      left p t + (bs.map Batch.removed).sum = left p s := by
  induction h with
  | finish hbatch hlast =>
    refine ⟨⟨pruneBatch_finish hbatch hs hlast, pruneBatch_pruned hbatch (hstamp _ List.mem_cons_self)⟩, ?_⟩
    rw [List.map_singleton, List.sum_singleton]
    exact pruneBatch_left hbatch
  | follow hbatch hmore _ ih =>
    obtain ⟨hdone, hsum⟩ := ih (pruneBatch_follow hbatch hs hmore).1 (fun call hcall => hstamp call (List.mem_cons_of_mem _ hcall))
    have hfirst := pruneBatch_pruned hbatch (hstamp _ List.mem_cons_self)
    refine ⟨⟨hdone.empty, fun k => (hfirst k).trans (hdone.pruned k)⟩, ?_⟩
    have hleft := pruneBatch_left hbatch
    rw [List.map_cons, List.sum_cons]
    omega

theorem Cut.pruned (h : Cut p calls cursor s t) (hstamp : ∀ call ∈ calls, stamp call.now call.retentionDays) (k : String) :
    Pruned p stamp s t k := by
  induction h with
  | stop => exact pruned_refl
  | fail hbatch =>
    rw [Tx.atomic_error hbatch]
    exact pruned_refl
  | follow hbatch _ _ ih =>
    exact (pruneBatch_pruned hbatch (hstamp _ List.mem_cons_self) k).trans
      (ih (fun call hcall => hstamp call (List.mem_cons_of_mem _ hcall)))

theorem Repeated.done (h : Repeated p calls s t)
    (hstamp : ∀ call ∈ calls, stamp call.now call.retentionDays) : Done p stamp s t := by
  induction h with
  | finish hchain => exact (hchain.done behind_none hstamp).1
  | again hcut _ ih =>
    obtain ⟨hfirst, hrest⟩ := List.forall_mem_append.1 hstamp
    have hdone := ih hrest
    exact ⟨hdone.empty, fun k => (hcut.pruned hfirst k).trans (hdone.pruned k)⟩

theorem Done.left_eq (h : Done p stamp s t) : left p t = 0 := by
  unfold left
  refine List.sum_eq_zero (fun n hn => ?_)
  obtain ⟨i, hi, rfl⟩ := List.mem_map.1 hn
  rw [h.empty i hi, List.length_nil]

theorem Done.events (h : Done p stamp s t) (k : String) : (Eligible p k → t.events k = []) ∧
      (¬Eligible p k → t.events k = s.events k ∧ t.prunes k = s.prunes k) := by
  constructor
  · rintro ⟨i, hi, rfl⟩
    exact h.empty i hi
  · intro hno
    rcases h.pruned k with hsame | ⟨heligible, -⟩
    · exact hsame
    · exact absurd heligible hno

/-- **Two chains end alike**, up to the stamps of the markers. -/
theorem Done.alike (h : Done p stamp s t) (h' : Done p stamp s u) :
    (∀ k, t.events k = u.events k ∧ t.eventCount k = u.eventCount k ∧
      t.throughSeq k = u.throughSeq k) ∧
    (OneStamp stamp → t = u) := by
  have hone (k : String) : t.events k = u.events k ∧ t.throughSeq k = u.throughSeq k ∧
      (OneStamp stamp → t.prunes k = u.prunes k) := by
    by_cases he : Eligible p k
    · have ht := (h.events k).1 he
      have hu := (h'.events k).1 he
      exact ⟨ht.trans hu.symm, (h.pruned k).unique (h'.pruned k) ht hu⟩
    · obtain ⟨hevents, hprunes⟩ := (h.events k).2 he
      obtain ⟨hevents', hprunes'⟩ := (h'.events k).2 he
      have hsame := hprunes.trans hprunes'.symm
      exact ⟨hevents.trans hevents'.symm, (marker_congr hsame).2, fun _ => hsame⟩
  constructor
  · intro k
    obtain ⟨hevents, hthroughSeq, -⟩ := hone k
    have hcount := (h.pruned k).marker.1
    have hcount' := (h'.pruned k).marker.1
    rw [hevents] at hcount
    exact ⟨hevents, by omega, hthroughSeq⟩
  · intro hstamp
    have hevents : t.events = u.events := funext fun k => (hone k).1
    have hprunes : t.prunes = u.prunes := funext fun k => (hone k).2.2 hstamp
    cases t
    cases u
    cases hevents
    cases hprunes
    rfl

/-- **A prune removes exactly the eligible events**: every chain without a cursor ends, with what `counts` reported removed and
the rest as it was; a failure costs nothing but its repetition. -/
theorem prune_removes_eligible (p : Pass) (s : Store) :
    (∀ calls : Nat → Call, (∀ n, (calls n).throws = fun _ => none) → ∃ n bs t, Chain p ((List.range n).map calls) none s bs t) ∧
    (∀ calls bs t, Chain p calls none s bs t →
      (∀ k, (Eligible p k → t.events k = []) ∧
        (¬Eligible p k → t.events k = s.events k)) ∧
      (bs.map Batch.removed).sum = (s.counts p).events ∧
      (∀ k, t.eventCount k + (t.events k).length = s.eventCount k + (s.events k).length) ∧
      ∀ calls' u, Repeated p calls' s u →
        (∀ k, t.events k = u.events k ∧ t.eventCount k = u.eventCount k ∧
          t.throughSeq k = u.throughSeq k) ∧
        ∀ now retentionDays, (∀ call ∈ calls ++ calls', call.now = now ∧ call.retentionDays = retentionDays) → t = u) ∧
    (∀ call cursor b t, pruneBatch p call cursor s = (.ok b, t) →
      (call.maxBytes < b.bytes → b.removed = 1) ∧ ∀ k,
        (t.events k).length + b.removedFrom k = (s.events k).length ∧
        t.eventCount k = s.eventCount k + b.removedFrom k ∧ s.throughSeq k ≤ t.throughSeq k) ∧
    ∀ call cursor error t, pruneBatch p call cursor s = (.error error, t) → t = s := by
  refine ⟨fun _ hcalls => exists_chain hcalls behind_none, ?_, ?_, fun _ _ _ _ => Tx.atomic_error⟩
  · intro calls bs t hchain
    obtain ⟨hdone, hsum⟩ : Done p (fun _ _ => True) s t ∧ _ := hchain.done behind_none (fun _ _ => trivial)
    rw [hdone.left_eq, Nat.zero_add, ← counts_events] at hsum
    refine ⟨fun k => ⟨(hdone.events k).1, fun hno => ((hdone.events k).2 hno).1⟩, hsum,
      fun k => (hdone.pruned k).marker.1, ?_⟩
    intro calls' u hrepeated
    refine ⟨(hdone.alike (hrepeated.done (fun _ _ => trivial))).1, fun now retentionDays hsame => ?_⟩
    obtain ⟨hcalls, hcalls'⟩ := List.forall_mem_append.1 hsame
    have hdone' : Done p (fun n d => n = now ∧ d = retentionDays) s t := (hchain.done behind_none hcalls).1
    refine (hdone'.alike (hrepeated.done hcalls')).2 ?_
    rintro _ _ _ _ ⟨rfl, rfl⟩ ⟨rfl, rfl⟩
    exact ⟨rfl, rfl⟩
  · intro call cursor b t hbatch
    refine ⟨pruneBatch_limit hbatch, fun k => ?_⟩
    have hpruned : Pruned p (fun _ _ => True) s t k := pruneBatch_pruned hbatch trivial k
    have hremoved := pruneBatch_removed hbatch k
    obtain ⟨hcount, hthrough⟩ := hpruned.marker
    exact ⟨hremoved, by omega, hthrough⟩

end Wollipog.Retention
