import Wollipog.Transcript.Store
/-!
# Thinned — the keep rule on a log that a prune thins out

The final response is found in the cached rows alone. As long as what the rule keeps of the whole log is cached, it
decides every cached row as it would with the whole log.
-/
namespace Wollipog.Transcript

abbrev Ascending (rows : List EventRow) : Prop := rows.Pairwise (fun a b => a.seq < b.seq)

variable {rows : List EventRow}

theorem orderBySeq_of_ascending (h : Ascending rows) : orderBySeq rows = rows :=
  (h.imp (fun hab => Nat.le_of_lt hab)).insertionSort_eq

theorem ascending_inj (h : Ascending rows) {a b : EventRow} (ha : a ∈ rows) (hb : b ∈ rows) (heq : a.seq = b.seq) : a = b := by
  by_contra hne
  have : Std.Symm (fun x y : EventRow => x.seq ≠ y.seq) := ⟨fun _ _ => Ne.symm⟩
  have hall : rows.Pairwise (fun x y => x.seq ≠ y.seq) := h.imp (fun hab => Nat.ne_of_lt hab)
  exact hall.forall ha hb hne heq

theorem Ascending.nodup (h : Ascending rows) : rows.Nodup := by
  refine h.imp ?_
  rintro a b hab rfl
  exact Nat.lt_irrefl _ hab

variable {row x : EventRow} {p : EventRow → Bool}

theorem find_last (h : Ascending rows) (hf : rows.reverse.find? p = some row) :
    row ∈ rows ∧ p row = true ∧ ∀ r ∈ rows, p r = true → r.seq ≤ row.seq := by
  induction rows using List.reverseRecOn with
  | nil => cases hf
  | append_singleton l x ih =>
    rw [List.reverse_append, List.reverse_singleton, List.singleton_append, List.find?_cons] at hf
    obtain ⟨hl, -, hx⟩ := List.pairwise_append.1 h
    cases hp : p x with
    | true =>
      rw [hp] at hf
      obtain rfl := Option.some.inj hf
      refine ⟨List.mem_append_cons_self, hp, ?_⟩
      intro r hr _
      rcases List.mem_append.1 hr with hr | hr
      · exact Nat.le_of_lt (hx r hr x List.mem_cons_self)
      · rw [List.mem_singleton.1 hr]
    | false =>
      rw [hp] at hf
      obtain ⟨hin, hrow, hmax⟩ := ih hl hf
      refine ⟨List.mem_append_left _ hin, hrow, ?_⟩
      intro r hr hpr
      rcases List.mem_append.1 hr with hr | hr
      · exact hmax r hr hpr
      · rw [List.mem_singleton.1 hr, hp] at hpr
        cases hpr

theorem find_last_none (hf : rows.reverse.find? p = none) : ∀ r ∈ rows, p r ≠ true :=
  fun r hr => List.find?_eq_none.1 hf r (List.mem_reverse.2 hr)

/-! ## The final response -/

def divides (row : EventRow) : Bool := row.payload.kind != .tokenUsage && !untaggedPart row

def boundaryOf (rows : List EventRow) (seq : Nat) : Nat :=
  (rows.reverse.find? (fun row => decide (row.seq < seq) && row.payload.kind != .tokenUsage && !untaggedPart row)).elim 0 EventRow.seq

def finalOf (rows : List EventRow) (removed : Nat) : FinalResponse :=
  match rows.reverse.find? topLevelMessage with
  | none => ⟨none, 0, 0, 0⟩
  | some last =>
    match last.payload.messageId with
    | some (some messageId) => ⟨some messageId, 0, 0, last.seq⟩
    | _ => ⟨none, max (boundaryOf rows last.seq) (if removed < last.seq then removed else 0), last.seq, last.seq⟩

theorem historyPruneFinalResponse_eq {s : Session} (h : Ascending s.events) :
    historyPruneFinalResponse s = finalOf s.events (s.prune.removedSeq.getD 0) := by
  unfold historyPruneFinalResponse
  rw [orderBySeq_of_ascending h]
  rfl

theorem boundaryOf_le (h : Ascending rows) {seq : Nat} (hrow : row ∈ rows) (hlt : row.seq < seq)
    (hdivides : divides row = true) : row.seq ≤ boundaryOf rows seq := by
  have hp : (decide (row.seq < seq) && row.payload.kind != .tokenUsage && !untaggedPart row) = true := by
    rw [decide_eq_true hlt, Bool.true_and]
    exact hdivides
  unfold boundaryOf
  cases hf : rows.reverse.find? (fun row => decide (row.seq < seq) && row.payload.kind != .tokenUsage && !untaggedPart row) with
  | none => exact absurd hp (find_last_none hf row hrow)
  | some last => exact (find_last h hf).2.2 row hrow hp

theorem boundaryOf_mem (h : Ascending rows) (seq : Nat) : boundaryOf rows seq = 0 ∨
    ∃ row ∈ rows, row.seq < seq ∧ divides row = true ∧ row.seq = boundaryOf rows seq := by
  unfold boundaryOf
  cases hf : rows.reverse.find? (fun row => decide (row.seq < seq) && row.payload.kind != .tokenUsage && !untaggedPart row) with
  | none => exact .inl rfl
  | some last =>
    obtain ⟨hin, hp, -⟩ := find_last h hf
    rw [Bool.and_assoc, Bool.and_eq_true, decide_eq_true_eq] at hp
    exact .inr ⟨last, hin, hp.1, hp.2, rfl⟩

theorem boundaryOf_lt (h : Ascending rows) {seq : Nat} (hseq : 0 < seq) : boundaryOf rows seq < seq := by
  rcases boundaryOf_mem h seq with h0 | ⟨row, -, hlt, -, heq⟩
  · rw [h0]
    exact hseq
  · rw [← heq]
    exact hlt

structure IsLast (rows : List EventRow) (last : EventRow) : Prop where
  mem : last ∈ rows
  top : topLevelMessage last = true
  max : ∀ row ∈ rows, topLevelMessage row = true → row.seq ≤ last.seq

theorem last_or_none (h : Ascending rows) : (∀ row ∈ rows, topLevelMessage row ≠ true) ∨ ∃ last, IsLast rows last := by
  cases hf : rows.reverse.find? topLevelMessage with
  | none => exact .inl (find_last_none hf)
  | some last =>
    obtain ⟨hin, htop, hmax⟩ := find_last h hf
    exact .inr ⟨last, hin, htop, hmax⟩

theorem IsLast.find (h : Ascending rows) {last : EventRow} (hl : IsLast rows last) :
    rows.reverse.find? topLevelMessage = some last := by
  cases hf : rows.reverse.find? topLevelMessage with
  | none => exact absurd hl.top (find_last_none hf last hl.mem)
  | some other =>
    obtain ⟨hin, htop, hmax⟩ := find_last h hf
    rw [ascending_inj h hin hl.mem (Nat.le_antisymm (hl.max other hin htop) (hmax last hl.mem hl.top))]

theorem finalOf_none (h : ∀ row ∈ rows, topLevelMessage row ≠ true) (removed : Nat) :
    finalOf rows removed = ⟨none, 0, 0, 0⟩ := by
  have hf : rows.reverse.find? topLevelMessage = none := List.find?_eq_none.2 (fun r hr => h r (List.mem_reverse.1 hr))
  unfold finalOf
  rw [hf]

theorem finalOf_tagged (h : Ascending rows) {last : EventRow} (hl : IsLast rows last) {messageId : String}
    (hid : last.payload.messageId = some (some messageId)) (removed : Nat) :
    finalOf rows removed = ⟨some messageId, 0, 0, last.seq⟩ := by
  unfold finalOf
  simp only [hl.find h, hid]

theorem finalOf_untagged (h : Ascending rows) {last : EventRow} (hl : IsLast rows last)
    (hid : last.payload.messageId = none) (removed : Nat) : finalOf rows removed =
      ⟨none, max (boundaryOf rows last.seq) (if removed < last.seq then removed else 0), last.seq, last.seq⟩ := by
  unfold finalOf
  simp only [hl.find h, hid]

def alwaysKept (row : EventRow) : Prop :=
  row.payload.kind ∈ [.userMessage, .agentResponseCompleted, .tokenUsage, .artifactAttached] ∨
    topLevelMessage row = true ∧ row.payload.final = some true ∧ row.payload.text.toList.any (· ≠ ' ') = true

theorem keepRule_iff {response : FinalResponse} : keepRule response row = true ↔ alwaysKept row ∨ topLevelMessage row = true ∧
      ((∃ messageId, response.messageId = some messageId ∧ row.payload.messageId = some (some messageId)) ∨
        response.afterSeq < row.seq ∧ row.seq ≤ response.lastSeq ∧ row.payload.messageId = none) := by
  unfold keepRule alwaysKept
  simp only [Bool.or_eq_true, Bool.and_eq_true, decide_eq_true_eq, beq_iff_eq, Option.isNone_iff_eq_none, Option.isSome_iff_exists]
  constructor
  · rintro (hkind | ⟨htop, (hfinal | ⟨⟨m, hm⟩, hid⟩) | ⟨⟨hafter, hlast⟩, hnone⟩⟩)
    · exact .inl (.inl hkind)
    · exact .inl (.inr ⟨htop, hfinal.1, hfinal.2⟩)
    · exact .inr ⟨htop, .inl ⟨m, hm, hid.trans (congrArg some hm)⟩⟩
    · exact .inr ⟨htop, .inr ⟨hafter, hlast, hnone⟩⟩
  · rintro ((hkind | ⟨htop, hfinal, htext⟩) | ⟨htop, ⟨m, hm, hid⟩ | ⟨hafter, hlast, hnone⟩⟩)
    · exact .inl hkind
    · exact .inr ⟨htop, .inl (.inl ⟨hfinal, htext⟩)⟩
    · exact .inr ⟨htop, .inl (.inr ⟨⟨m, hm⟩, hid.trans (congrArg some hm.symm)⟩)⟩
    · exact .inr ⟨htop, .inr ⟨⟨hafter, hlast⟩, hnone⟩⟩

theorem part_of_not_divides (h : divides row ≠ true) : alwaysKept row ∨ untaggedPart row = true := by
  unfold divides at h
  rw [ne_eq, Bool.and_eq_true, not_and_or] at h
  rcases h with hkind | hpart
  · refine .inl (.inl ?_)
    rw [bne_iff_ne, not_not] at hkind
    rw [hkind]
    decide
  · rw [Bool.not_eq_true', Bool.not_eq_false] at hpart
    exact .inr hpart

theorem untaggedPart_spec (h : untaggedPart row = true) : topLevelMessage row = true ∧ row.payload.messageId = none := by
  unfold untaggedPart at h
  rw [Bool.and_eq_true, Bool.and_eq_true, Option.isNone_iff_eq_none] at h
  exact h.1

theorem top_kind (h : topLevelMessage row = true) : row.payload.kind = .agentMessage := by
  unfold topLevelMessage at h
  rw [Bool.and_eq_true, beq_iff_eq] at h
  exact h.1

/-- The cached rows `events` of the log: what the rule keeps of it is cached. -/
structure Thinned (log events : List EventRow) (removed : Nat) : Prop where
  ascending : Ascending log
  positive : ∀ row ∈ log, 0 < row.seq
  named : ∀ row ∈ log, row.payload.messageId ≠ some none
  cached : events.Sublist log
  bounded : ∀ g ∈ log, g ∉ events → g.seq ≤ removed
  greatest : removed = 0 ∨ ∃ g ∈ log, g ∉ events ∧ g.seq = removed
  kept : ∀ row ∈ log, keepRule (finalOf log 0) row = true → row ∈ events
  cleaned : ∀ row ∈ events, row.seq < (finalOf log 0).seq → (finalOf log 0).seq < removed → keepRule (finalOf log 0) row = true

variable {log events : List EventRow} {removed : Nat}

theorem Thinned.events_ascending (h : Thinned log events removed) : Ascending events := h.ascending.sublist h.cached

/-- **The final response itself is never removed.** -/
theorem Thinned.last (h : Thinned log events removed) {last : EventRow} (hl : IsLast log last) : IsLast events last := by
  have hkeep : keepRule (finalOf log 0) last = true := by
    rw [keepRule_iff]
    cases hid : last.payload.messageId with
    | none =>
      rw [finalOf_untagged h.ascending hl hid]
      refine .inr ⟨hl.top, .inr ⟨?_, Nat.le_refl _, rfl⟩⟩
      rw [ite_self, Nat.max_zero]
      exact boundaryOf_lt h.ascending (h.positive last hl.mem)
    | some id =>
      cases id with
      | none => exact absurd hid (h.named last hl.mem)
      | some messageId =>
        rw [finalOf_tagged h.ascending hl hid]
        exact .inr ⟨hl.top, .inl ⟨messageId, rfl, rfl⟩⟩
  exact ⟨h.kept last hl.mem hkeep, hl.top, fun row hrow => hl.max row (h.cached.subset hrow)⟩

theorem Thinned.boundary (h : Thinned log events removed) {last : EventRow} (hl : IsLast log last)
    (hid : last.payload.messageId = none) (hrow : row ∈ events) (hle : row.seq ≤ last.seq) :
    (max (boundaryOf events last.seq) (if removed < last.seq then removed else 0) < row.seq → alwaysKept row ∨ boundaryOf log last.seq < row.seq) ∧
      (boundaryOf log last.seq < row.seq → max (boundaryOf events last.seq) (if removed < last.seq then removed else 0) < row.seq) := by
  have hevents := h.events_ascending
  have hlast := h.last hl
  have hresponse := finalOf_untagged h.ascending hl hid 0
  rw [ite_self, Nat.max_zero] at hresponse
  have hrowlog := h.cached.subset hrow
  constructor
  · intro hafter
    rcases Nat.eq_or_lt_of_le hle with heq | hlt
    · rw [heq]
      exact .inr (boundaryOf_lt h.ascending (h.positive last hl.mem))
    · by_contra hno
      rw [not_or, Nat.not_lt] at hno
      obtain ⟨halways, hbelow⟩ := hno
      have hpos := h.positive row hrowlog
      rcases boundaryOf_mem h.ascending last.seq with h0 | ⟨b, hb, hblast, hdivides, hbeq⟩
      · omega
      · by_cases hbin : b ∈ events
        · have hle' := boundaryOf_le hevents hbin hblast hdivides
          omega
        · -- The dividing row was removed, so the greatest removed seq stands for it.
          have hbr := h.bounded b hb hbin
          have hne : row.seq ≠ b.seq := fun heq => hbin (ascending_inj h.ascending hrowlog hb heq ▸ hrow)
          by_cases hr : removed < last.seq
          · rw [if_pos hr] at hafter
            omega
          · have hover : last.seq < removed := by
              rcases h.greatest with h0 | ⟨g, hg, hgout, hgeq⟩
              · omega
              · have hgne : g.seq ≠ last.seq := fun heq => hgout (ascending_inj h.ascending hg hl.mem heq ▸ hlast.mem)
                omega
            have hkeep := h.cleaned row hrow (by rw [hresponse]; exact hlt) (by rw [hresponse]; exact hover)
            rw [keepRule_iff, hresponse] at hkeep
            rcases hkeep with hkeep | ⟨-, ⟨m, hm, -⟩ | ⟨hb', -, -⟩⟩
            · exact halways hkeep
            · cases hm
            · exact Nat.lt_irrefl _ (lt_of_lt_of_le hb' hbelow)
  · intro hafter
    refine Nat.max_lt.2 ⟨?_, ?_⟩
    · rcases boundaryOf_mem hevents last.seq with h0 | ⟨b, hb, hblast, hdivides, hbeq⟩
      · have hpos := h.positive row hrowlog
        omega
      · have hle' := boundaryOf_le h.ascending (h.cached.subset hb) hblast hdivides
        omega
    · split
      · rename_i hr
        by_contra hno
        rw [Nat.not_lt] at hno
        have hpos := h.positive row hrowlog
        rcases h.greatest with h0 | ⟨g, hg, hgout, hgeq⟩
        · omega
        · -- A removed row inside the run would have been kept.
          have hglast : g.seq < last.seq := by omega
          have hnot : divides g ≠ true := fun hdivides => by
            have := boundaryOf_le h.ascending hg hglast hdivides
            omega
          refine hgout (h.kept g hg ?_)
          rw [keepRule_iff, hresponse]
          rcases part_of_not_divides hnot with halways | hpart
          · exact .inl halways
          · obtain ⟨hgtop, hgnone⟩ := untaggedPart_spec hpart
            exact .inr ⟨hgtop, .inr ⟨by simp only; omega, Nat.le_of_lt hglast, hgnone⟩⟩
      · exact h.positive row hrowlog

/-- **The rule on the cached rows decides as it would on the whole log.** -/
theorem Thinned.agrees (h : Thinned log events removed) : (finalOf events removed).seq = (finalOf log 0).seq ∧
    ∀ row ∈ events, keepRule (finalOf events removed) row = true ↔ keepRule (finalOf log 0) row = true := by
  rcases last_or_none h.ascending with hnone | ⟨last, hl⟩
  · rw [finalOf_none hnone, finalOf_none (fun row hrow => hnone row (h.cached.subset hrow))]
    exact ⟨rfl, fun _ _ => Iff.rfl⟩
  · have hlast := h.last hl
    cases hid : last.payload.messageId with
    | some id =>
      cases id with
      | none => exact absurd hid (h.named last hl.mem)
      | some messageId =>
        rw [finalOf_tagged h.ascending hl hid, finalOf_tagged h.events_ascending hlast hid]
        exact ⟨rfl, fun _ _ => Iff.rfl⟩
    | none =>
      rw [finalOf_untagged h.ascending hl hid, finalOf_untagged h.events_ascending hlast hid]
      refine ⟨rfl, fun row hrow => ?_⟩
      rw [keepRule_iff, keepRule_iff]
      simp only [ite_self, Nat.max_zero]
      constructor
      · rintro (halways | ⟨htop, ⟨m, hm, -⟩ | ⟨hafter, hle, hnone⟩⟩)
        · exact .inl halways
        · cases hm
        · rcases (h.boundary hl hid hrow hle).1 hafter with halways | hb
          · exact .inl halways
          · exact .inr ⟨htop, .inr ⟨hb, hle, hnone⟩⟩
      · rintro (halways | ⟨htop, ⟨m, hm, -⟩ | ⟨hb, hle, hnone⟩⟩)
        · exact .inl halways
        · cases hm
        · exact .inr ⟨htop, .inr ⟨(h.boundary hl hid hrow hle).2 hb, hle, hnone⟩⟩

theorem Thinned.complete (h : Thinned log events removed) (hall : ∀ row ∈ events, keepRule (finalOf log 0) row = true) :
    events = log.filter (keepRule (finalOf log 0)) := by
  have hsub : events.Sublist (log.filter (keepRule (finalOf log 0))) := by
    have hfilter := h.cached.filter (keepRule (finalOf log 0))
    rwa [List.filter_eq_self.2 hall] at hfilter
  refine hsub.eq_of_length_le ?_
  refine (List.subperm_of_subset (h.ascending.nodup.filter _) ?_).length_le
  intro row hrow
  obtain ⟨hin, hkeep⟩ := List.mem_filter.1 hrow
  exact h.kept row hin hkeep

/-- **A batch** removes rows that the rule does not keep, with everything cleaned up through `final`. -/
theorem Thinned.remove (h : Thinned log events removed) {E : List EventRow} {final : EventRow} (hE : ∀ e ∈ E, e ∈ events)
    (hdrop : ∀ e ∈ E, keepRule (finalOf log 0) e ≠ true) (hfinal : final ∈ E) (hmax : ∀ e ∈ E, e.seq ≤ final.seq)
    (hclean : ∀ row ∈ events.filter (fun row => row.seq ∉ E.map EventRow.seq), row.seq ≤ final.seq → keepRule (finalOf log 0) row = true) :
    Thinned log (events.filter (fun row => row.seq ∉ E.map EventRow.seq)) (max removed final.seq) where
  ascending := h.ascending
  positive := h.positive
  named := h.named
  cached := List.filter_sublist.trans h.cached
  bounded := by
    intro g hg hout
    by_cases hin : g ∈ events
    · have hseq : g.seq ∈ E.map EventRow.seq := by
        by_contra hno
        exact hout (List.mem_filter.2 ⟨hin, decide_eq_true hno⟩)
      obtain ⟨e, he, heq⟩ := List.mem_map.1 hseq
      rw [← heq]
      exact (hmax e he).trans (Nat.le_max_right _ _)
    · exact (h.bounded g hg hin).trans (Nat.le_max_left _ _)
  greatest := by
    have hout : final ∉ events.filter (fun row => row.seq ∉ E.map EventRow.seq) := by
      intro hin
      exact of_decide_eq_true (List.mem_filter.1 hin).2 (List.mem_map_of_mem hfinal)
    rcases Nat.le_total removed final.seq with hle | hle
    · exact .inr ⟨final, h.cached.subset (hE final hfinal), hout, (Nat.max_eq_right hle).symm⟩
    · rcases h.greatest with h0 | ⟨g, hg, hgout, hgeq⟩
      · have hfin := Nat.le_zero.1 (h0 ▸ hle)
        exact .inl (by rw [h0, hfin]; rfl)
      · exact .inr ⟨g, hg, fun hin => hgout (List.mem_filter.1 hin).1, hgeq.trans (Nat.max_eq_left hle).symm⟩
  kept := by
    intro row hrow hkeep
    have hin := h.kept row hrow hkeep
    refine List.mem_filter.2 ⟨hin, decide_eq_true (fun hseq => ?_)⟩
    obtain ⟨e, he, heq⟩ := List.mem_map.1 hseq
    exact hdrop e he (ascending_inj h.events_ascending (hE e he) hin heq ▸ hkeep)
  cleaned := by
    intro row hrow hlt hover
    by_cases hfin : row.seq ≤ final.seq
    · exact hclean row hrow hfin
    · exact h.cleaned row (List.mem_filter.1 hrow).1 hlt (by omega)

theorem finalOf_skip (hlog : Ascending log) (hx : ∀ row ∈ log, row.seq < x.seq) (htop : topLevelMessage x ≠ true) :
    finalOf (log ++ [x]) 0 = finalOf log 0 := by
  have hfind : (log ++ [x]).reverse.find? topLevelMessage = log.reverse.find? topLevelMessage := by
    rw [List.reverse_append, List.reverse_singleton, List.singleton_append, List.find?_cons, Bool.eq_false_iff.2 htop]
  have hboundary : ∀ last ∈ log, boundaryOf (log ++ [x]) last.seq = boundaryOf log last.seq := by
    intro last hlast
    unfold boundaryOf
    rw [List.reverse_append, List.reverse_singleton, List.singleton_append, List.find?_cons,
      decide_eq_false (Nat.not_lt_of_lt (hx last hlast))]
    rfl
  unfold finalOf
  rw [hfind]
  cases hf : log.reverse.find? topLevelMessage with
  | none => rfl
  | some last =>
    simp only
    rw [hboundary last (find_last hlog hf).1]

theorem isLast_append (hx : ∀ row ∈ log, row.seq < x.seq) (htop : topLevelMessage x = true) : IsLast (log ++ [x]) x := by
  refine ⟨List.mem_append_cons_self, htop, ?_⟩
  intro r hr _
  rcases List.mem_append.1 hr with hr | hr
  · exact Nat.le_of_lt (hx r hr)
  · rw [List.mem_singleton.1 hr]

theorem IsLast.seq {last : EventRow} (hl : IsLast rows last) (h : Ascending rows)
    (hnamed : last.payload.messageId ≠ some none) (removed : Nat) : (finalOf rows removed).seq = last.seq := by
  cases hid : last.payload.messageId with
  | none => rw [finalOf_untagged h hl hid]
  | some id =>
    cases id with
    | none => exact absurd hid hnamed
    | some messageId => rw [finalOf_tagged h hl hid]

/-- **A further row** keeps the log thinned out, unless it brings back the message id of a removed message. -/
theorem Thinned.insert (h : Thinned log events removed) {x : EventRow} (hx : ∀ row ∈ log, row.seq < x.seq) (hpos : 0 < x.seq)
    (hr : removed < x.seq) (hnamed : x.payload.messageId ≠ some none)
    (hfresh : topLevelMessage x = true → ∀ messageId, x.payload.messageId = some (some messageId) →
      ∀ g ∈ log, topLevelMessage g = true → g.payload.messageId = some (some messageId) → g ∈ events) :
    Thinned (log ++ [x]) (events ++ [x]) removed := by
  have hascending : Ascending (log ++ [x]) := by
    refine List.pairwise_append.2 ⟨h.ascending, List.pairwise_singleton _ _, ?_⟩
    intro a ha b hb
    rw [List.mem_singleton.1 hb]
    exact hx a ha
  have hout : ∀ g ∈ log ++ [x], g ∉ events ++ [x] → g ∈ log ∧ g ∉ events := by
    intro g hg hgout
    rw [List.mem_append, not_or] at hgout
    exact ⟨(List.mem_append.1 hg).resolve_right hgout.2, hgout.1⟩
  refine ⟨hascending, ?_, ?_, h.cached.append_right [x], ?_, ?_, ?_, ?_⟩
  · intro row hrow
    rcases List.mem_append.1 hrow with hrow | hrow
    · exact h.positive row hrow
    · rw [List.mem_singleton.1 hrow]
      exact hpos
  · intro row hrow
    rcases List.mem_append.1 hrow with hrow | hrow
    · exact h.named row hrow
    · rw [List.mem_singleton.1 hrow]
      exact hnamed
  · intro g hg hgout
    obtain ⟨hg, hgout⟩ := hout g hg hgout
    exact h.bounded g hg hgout
  · rcases h.greatest with h0 | ⟨g, hg, hgout, hgeq⟩
    · exact .inl h0
    · refine .inr ⟨g, List.mem_append_left _ hg, fun hin => ?_, hgeq⟩
      rcases List.mem_append.1 hin with hin | hin
      · exact hgout hin
      · have := hx g hg
        rw [List.mem_singleton.1 hin] at this
        exact Nat.lt_irrefl _ this
  · intro row hrow hkeep
    rcases List.mem_append.1 hrow with hrow | hrow
    · refine List.mem_append_left _ ?_
      by_cases htop : topLevelMessage x = true
      · have hlast := isLast_append hx htop
        rw [keepRule_iff] at hkeep
        rcases hkeep with halways | ⟨hrowtop, hresponse⟩
        · exact h.kept row hrow (keepRule_iff.2 (.inl halways))
        · cases hid : x.payload.messageId with
          | some id =>
            cases id with
            | none => exact absurd hid hnamed
            | some messageId =>
              rw [finalOf_tagged hascending hlast hid] at hresponse
              rcases hresponse with ⟨m, hm, hrowid⟩ | ⟨-, hle, -⟩
              · cases hm
                exact hfresh htop messageId hid row hrow hrowtop hrowid
              · exact absurd (h.positive row hrow) (Nat.not_lt.2 hle)
          | none =>
            rw [finalOf_untagged hascending hlast hid] at hresponse
            simp only [ite_self, Nat.max_zero] at hresponse
            rcases hresponse with ⟨m, hm, -⟩ | ⟨hafter, -, hnone⟩
            · cases hm
            · -- The run goes through the response that was final before.
              rcases last_or_none h.ascending with hno | ⟨last, hl⟩
              · exact absurd hrowtop (hno row hrow)
              · rcases Nat.eq_or_lt_of_le (hl.max row hrow hrowtop) with heq | hlt
                · rw [ascending_inj h.ascending hrow hl.mem heq]
                  exact (h.last hl).mem
                · have hlastx := hx last hl.mem
                  have hnot : divides last ≠ true := fun hdivides => by
                    have := boundaryOf_le hascending (List.mem_append_left _ hl.mem) hlastx hdivides
                    omega
                  have hlastnone : last.payload.messageId = none := by
                    unfold divides at hnot
                    rw [top_kind hl.top] at hnot
                    have hpart : untaggedPart last = true := by
                      cases hp : untaggedPart last with
                      | true => rfl
                      | false =>
                        rw [hp] at hnot
                        exact absurd rfl hnot
                    exact (untaggedPart_spec hpart).2
                  refine h.kept row hrow (keepRule_iff.2 (.inr ⟨hrowtop, .inr ?_⟩))
                  rw [finalOf_untagged h.ascending hl hlastnone]
                  simp only [ite_self, Nat.max_zero]
                  refine ⟨?_, Nat.le_of_lt hlt, hnone⟩
                  rcases boundaryOf_mem h.ascending last.seq with h0 | ⟨b, hb, hblast, hdivides, hbeq⟩
                  · have := h.positive row hrow
                    omega
                  · have := boundaryOf_le hascending (List.mem_append_left _ hb) (hblast.trans hlastx) hdivides
                    omega
      · rw [finalOf_skip h.ascending hx htop] at hkeep
        exact h.kept row hrow hkeep
    · rw [List.mem_singleton.1 hrow]
      exact List.mem_append_cons_self
  · intro row hrow hlt hover
    by_cases htop : topLevelMessage x = true
    · have hseq := (isLast_append hx htop).seq hascending hnamed 0
      omega
    · rw [finalOf_skip h.ascending hx htop] at hlt hover ⊢
      rcases List.mem_append.1 hrow with hrow | hrow
      · exact h.cleaned row hrow hlt hover
      · rw [List.mem_singleton.1 hrow] at hlt
        omega

end Wollipog.Transcript
