import Wollipog.Prompts.Moves
/-!
# Chain — the retries of one command

The commands of a chain are the base id and its numbered retries, in rowid order with consecutive numbers (`Numbered`); all
but the newest failed without a user event (`Spent`), which nothing changes any more.
-/
namespace Wollipog.Prompts

section

variable {γ : Type} {P : Payloads γ}

theorem digits_takeWhile {ds rest : List Char} (hds : ∀ c ∈ ds, c.isDigit = true) (hrest : rest.head?.all (fun c => !c.isDigit) = true) :
    (ds ++ rest).takeWhile Char.isDigit = ds ∧ (ds ++ rest).dropWhile Char.isDigit = rest := by
  have hstop : rest.takeWhile Char.isDigit = [] ∧ rest.dropWhile Char.isDigit = rest := by
    cases rest with
    | nil => exact ⟨rfl, rfl⟩
    | cons c cs =>
      have hc : c.isDigit = false := by simpa using hrest
      rw [List.takeWhile_cons, List.dropWhile_cons, hc]
      exact ⟨rfl, rfl⟩
  rw [List.takeWhile_append_of_pos hds, List.dropWhile_append_of_pos hds, hstop.1, hstop.2, List.append_nil]
  exact ⟨rfl, rfl⟩

/-- **A retry's id gives its base and number back.** -/
theorem splitRetry_retryId (base : String) (n : Nat) : splitRetry (retryId base n) = some (base, n) := by
  have hlist : (retryId base n).toList.reverse = (Nat.toDigits 10 n).reverse ++ ("-yrter.".toList ++ base.toList.reverse) := by
    unfold retryId
    rw [String.toList_append, String.toList_append, Nat.toString_eq_ofList_toDigits, String.toList_ofList]
    simp
  have hdigits : ∀ c ∈ (Nat.toDigits 10 n).reverse, c.isDigit = true := fun c hc =>
    Nat.isDigit_of_mem_toDigits (by decide) (by decide) (List.mem_reverse.1 hc)
  have hhead : ("-yrter.".toList ++ base.toList.reverse).head?.all (fun c => !c.isDigit) = true := rfl
  obtain ⟨htake, hdrop⟩ := digits_takeWhile hdigits hhead
  have hne : (Nat.toDigits 10 n).reverse ≠ [] := by
    rw [ne_eq, List.reverse_eq_nil_iff]
    exact Nat.toDigits_ne_nil
  unfold splitRetry
  simp only
  rw [hlist, htake, hdrop]
  have htext : ("-yrter.".toList ++ base.toList.reverse).take 7 = "-yrter.".toList := rfl
  have hbase : ("-yrter.".toList ++ base.toList.reverse).drop 7 = base.toList.reverse := rfl
  rw [htext, hbase, if_pos ⟨hne, rfl⟩, List.reverse_reverse, List.reverse_reverse, String.ofList_toList, Nat.ofDigitChars_ten_toDigits]

def retryNumber (id : String) : Nat := ((splitRetry id).map Prod.snd).getD 0

theorem retryNumber_retryId (base : String) (n : Nat) : retryNumber (retryId base n) = n := by
  unfold retryNumber
  rw [splitRetry_retryId]
  rfl

def chainIds (base : String) (length : Nat) : List String :=
  match length with
  | 0 => []
  | n + 1 => base :: (List.range n).map (fun i => retryId base (retryNumber base + i + 1))

theorem chainIds_length (base : String) (n : Nat) : (chainIds base n).length = n := by
  cases n with
  | zero => rfl
  | succ n => simp [chainIds]

variable {i n : Nat} {new : Row} {id : String} {input : RetryInput}

theorem chainIds_get (base : String) (h : i < n) :
    (chainIds base n)[i]? = some (if i = 0 then base else retryId base (retryNumber base + i)) := by
  cases n with
  | zero => omega
  | succ n =>
    unfold chainIds
    cases i with
    | zero => rfl
    | succ i =>
      have hi : i < n := by omega
      simp [hi, Nat.add_assoc]

theorem chainIds_snoc (base : String) (n : Nat) :
    chainIds base (n + 1) = chainIds base n ++ [if n = 0 then base else retryId base (retryNumber base + n)] := by
  cases n with
  | zero => rfl
  | succ n =>
    have hnext : chainIds base (n + 1 + 1) = base :: (List.range (n + 1)).map (fun i => retryId base (retryNumber base + i + 1)) := rfl
    rw [hnext, List.range_succ, List.map_append]
    rfl

theorem retryNumber_chainIds (base : String) (h : (chainIds base n)[i]? = some id) : retryNumber id = retryNumber base + i := by
  have hi : i < n := by
    have hlt := (List.getElem?_eq_some_iff.1 h).1
    rwa [chainIds_length] at hlt
  rw [chainIds_get base hi, Option.some.injEq] at h
  subst h
  split
  · rename_i hzero
    rw [hzero, Nat.add_zero]
  · rw [retryNumber_retryId]

/-! ## The chain of a base id -/

def chainMember (base id : String) : Bool := id == base || ((splitRetry id).map Prod.fst) == some base

theorem chainMember_base (base : String) : chainMember base base = true := by simp [chainMember]

theorem chainMember_retryId (base : String) (n : Nat) : chainMember base (retryId base n) = true := by
  unfold chainMember
  rw [splitRetry_retryId]
  simp

def chain (base : String) (s : Store) : List Row := s.rows.filter (fun r => chainMember base r.commandId)

def Apart (base other : String) : Prop :=
  ∀ id, chainMember other id = true → chainMember base id = false ∧ chainMatch base id = false

/-- The operation stages the base id, retries it, or stages ids apart from its chain, and prunes none of it. -/
def AboutChain (base : String) (s : Store) : Op → Prop
  | .stage input => input.commandId = base ∨ (chainMember base input.commandId = false ∧ chainMatch base input.commandId = false)
  | .stageRetriable input => input.baseCommandId = base ∨ Apart base input.baseCommandId
  | .retry _ commandId _ => baseOf commandId = base ∨ Apart base (baseOf commandId)
  | .prune now limit kept => chain base (pruneSessionPromptCommands now limit kept s) = chain base s
  | _ => True

def Spent (row : Row) : Prop := row.state = .failed ∧ row.userEventSeq = none

structure Chained (base : String) (s : Store) : Prop where
  keyed : s.Keyed
  ids : (chain base s).map Row.commandId = chainIds base (chain base s).length
  spent : ∀ r ∈ (chain base s).dropLast, Spent r
  matched : ∀ r ∈ s.rows, chainMatch base r.commandId = true → chainMember base r.commandId = true

theorem empty_chained (base : String) : Chained base .empty :=
  ⟨empty_keyed, rfl, List.forall_mem_nil _, List.forall_mem_nil _⟩

theorem Moved.spent {x y : Core} {c : Cause} (hm : Moved x c y) (hx : x.state = .failed ∧ x.event = none) :
    y.state = .failed ∧ y.event = none := by
  obtain ⟨hfailed, hevent⟩ := hx
  have hended : x.state.active = false := by rw [hfailed]; rfl
  cases hm with
  | same => exact ⟨hfailed, hevent⟩
  | scrubbed intact _ => exact ⟨hfailed, hevent⟩
  | sent hactive hintact =>
    rw [hended] at hactive
    cases hactive
  | told state revision event intact htakes _ _ _ =>
    unfold Core.takes at htakes
    simp [hfailed, State.active] at htakes
  | ended hactive intact | malformed hactive hintact =>
    rw [hended] at hactive
    cases hactive

theorem filter_map_ids {g : Row → Row} (p : String → Bool) : ∀ rows : List Row, (∀ r ∈ rows, (g r).commandId = r.commandId) →
    (rows.map g).filter (fun r => p r.commandId) = (rows.filter (fun r => p r.commandId)).map g
  | [], _ => rfl
  | r :: rows, h => by
    have hrest := filter_map_ids p rows (fun r' hr' => h r' (List.mem_cons_of_mem r hr'))
    rw [List.map_cons, List.filter_cons, List.filter_cons, h r List.mem_cons_self, hrest]
    split <;> rfl

theorem Chained.rewrites {base : String} {s s' : Store} {Q : Row → Row → Prop} (hc : Chained base s) (h : Rewrites Q s s')
    (hQ : ∀ r r', Q r r' → Spent r → Spent r') : Chained base s' := by
  have hkeyed : s'.Keyed := by
    unfold Store.Keyed
    rw [h.ids]
    exact hc.keyed
  obtain ⟨g, hg, hrows⟩ := h
  have hchain : chain base s' = (chain base s).map g := by
    unfold chain
    rw [hrows]
    exact filter_map_ids (chainMember base) s.rows (fun r hr => (hg r hr).1)
  have hmem : ∀ r ∈ chain base s, r ∈ s.rows := fun r hr => List.mem_of_mem_filter hr
  refine ⟨hkeyed, ?_, ?_, ?_⟩
  · rw [hchain, List.length_map, List.map_map, ← hc.ids]
    apply List.map_congr_left
    intro r hr
    exact (hg r (hmem r hr)).1
  · intro r' hr'
    rw [hchain, ← List.map_dropLast] at hr'
    obtain ⟨r, hr, rfl⟩ := List.mem_map.1 hr'
    exact hQ r (g r) (hg r (hmem r (List.mem_of_mem_dropLast hr))).2 (hc.spent r hr)
  · intro r' hr'
    rw [hrows] at hr'
    obtain ⟨r, hr, rfl⟩ := List.mem_map.1 hr'
    rw [(hg r hr).1]
    exact hc.matched r hr

theorem Chained.plane {base : String} {s s' : Store} (hc : Chained base s) (h : PlaneMoved P s s') : Chained base s' :=
  hc.rewrites h (fun _ _ hmoved hspent => hmoved.spent hspent)

variable {base : String} {s : Store}

theorem chain_insert_other (hnot : chainMember base new.commandId = false) : chain base (s.insert new) = chain base s := by
  unfold chain Store.insert
  rw [List.filter_append]
  simp [hnot]

theorem chain_insert (hin : chainMember base new.commandId = true) : chain base (s.insert new) = chain base s ++ [new] := by
  unfold chain Store.insert
  rw [List.filter_append]
  simp [hin]

theorem Chained.insert_other (hc : Chained base s) (hnew : s.get new.commandId = none)
    (hnot : chainMember base new.commandId = false) (hunread : chainMatch base new.commandId = false) : Chained base (s.insert new) := by
  refine ⟨Keyed.insert hc.keyed hnew, ?_, ?_, ?_⟩
  · rw [chain_insert_other hnot]
    exact hc.ids
  · rw [chain_insert_other hnot]
    exact hc.spent
  · intro r hr hmatch
    rcases List.mem_append.1 hr with hr | hr
    · exact hc.matched r hr hmatch
    · rw [List.mem_singleton.1 hr] at hmatch ⊢
      rw [hunread] at hmatch
      cases hmatch

/-- **A fresh command after spent ones continues the chain.** -/
theorem Chained.insert (hc : Chained base s) {new : Row} (hnew : s.get new.commandId = none)
    (hid : new.commandId = if (chain base s).length = 0 then base else retryId base (retryNumber base + (chain base s).length))
    (hspent : ∀ r ∈ chain base s, Spent r) : Chained base (s.insert new) := by
  have hin : chainMember base new.commandId = true := by
    rw [hid]
    split
    · exact chainMember_base base
    · exact chainMember_retryId base _
  refine ⟨Keyed.insert hc.keyed hnew, ?_, ?_, ?_⟩
  · rw [chain_insert hin, List.length_append, List.length_singleton, chainIds_snoc, List.map_append, hc.ids, ← hid]
    rfl
  · intro r hr
    rw [chain_insert hin, List.dropLast_concat] at hr
    exact hspent r hr
  · intro r hr hmatch
    rcases List.mem_append.1 hr with hr | hr
    · exact hc.matched r hr hmatch
    · rw [List.mem_singleton.1 hr]
      exact hin

theorem mem_chain_of_get {base : String} {s : Store} (hin : id ∈ (chain base s).map Row.commandId) (hnone : s.get id = none) :
    False := by
  obtain ⟨r, hr, hid⟩ := List.mem_map.1 hin
  exact Store.get_eq_none hnone r (List.mem_of_mem_filter hr) hid

theorem Chained.insert_base (hc : Chained base s) (hbase : new.commandId = base)
    (hnew : s.get new.commandId = none) : Chained base (s.insert new) := by
  have hempty : chain base s = [] := by
    by_contra hne
    have hpos : 0 < (chain base s).length := List.length_pos_of_ne_nil hne
    have hfirst := chainIds_get base hpos
    rw [if_pos rfl, ← hc.ids] at hfirst
    rw [hbase] at hnew
    exact mem_chain_of_get (List.mem_of_getElem? hfirst) hnew
  apply hc.insert hnew
  · rw [hempty]
    exact hbase
  · rw [hempty]
    exact List.forall_mem_nil _

theorem latestOf_place (hc : Chained base s) {row : Row} (h : latestOf base s = some row) :
    ∃ i, i < (chain base s).length ∧ (chain base s)[i]? = some row ∧ retryNumber row.commandId = retryNumber base + i := by
  have hmem := List.mem_of_getLast? h
  rw [List.mem_filter] at hmem
  have hin : row ∈ chain base s := List.mem_filter.2 ⟨hmem.1, hc.matched row hmem.1 hmem.2⟩
  obtain ⟨i, hi⟩ := List.mem_iff_getElem?.1 hin
  refine ⟨i, (List.getElem?_eq_some_iff.1 hi).1, hi, ?_⟩
  have hid : (chainIds base (chain base s).length)[i]? = some row.commandId := by
    rw [← hc.ids, List.getElem?_map, hi]
    rfl
  exact retryNumber_chainIds base hid

/-- **A retry continues the chain**: its identity is taken unless the query read the newest command. -/
theorem Chained.insert_retry {s : Store} (hc : Chained input.baseCommandId s) {latest : Option Row}
    (hlatest : latestOf input.baseCommandId s = latest) (hfailed : ∀ row, latest = some row → row.state = .failed ∧ row.userEventSeq = none)
    (hnew : s.get (retryRow input latest).commandId = none) : Chained input.baseCommandId (s.insert (retryRow input latest)) := by
  cases latest with
  | none => exact hc.insert_base rfl hnew
  | some row =>
    obtain ⟨i, hi, hplace, hnumber⟩ := latestOf_place hc hlatest
    have hid : (retryRow input (some row)).commandId = retryId input.baseCommandId (retryNumber input.baseCommandId + (i + 1)) := by
      have hretry : (retryRow input (some row)).commandId =
          if retryNumber row.commandId + 1 = 0 then input.baseCommandId else retryId input.baseCommandId (retryNumber row.commandId + 1) := rfl
      rw [hretry, if_neg (Nat.succ_ne_zero _), hnumber, Nat.add_assoc]
    have hnewest : i + 1 = (chain input.baseCommandId s).length := by
      by_contra hne
      have hnext : i + 1 < (chain input.baseCommandId s).length := by omega
      have hthere := chainIds_get input.baseCommandId hnext
      rw [if_neg (Nat.succ_ne_zero i), ← hc.ids, ← hid] at hthere
      exact mem_chain_of_get (List.mem_of_getElem? hthere) hnew
    apply hc.insert hnew
    · rw [hid, hnewest, if_neg (by omega)]
    · intro r hr
      have hne : chain input.baseCommandId s ≠ [] := List.ne_nil_of_mem hr
      rw [← List.dropLast_append_getLast hne] at hr
      rcases List.mem_append.1 hr with hr | hr
      · exact hc.spent r hr
      · have hlast : (chain input.baseCommandId s).getLast hne = row := by
          have hget := List.getLast?_eq_some_getLast hne
          rw [List.getLast?_eq_getElem?, ← hnewest, Nat.add_sub_cancel, hplace, Option.some.injEq] at hget
          exact hget.symm
        rw [List.mem_singleton.1 hr, hlast]
        exact hfailed row rfl

/-! ## Every step keeps the chain -/

theorem Chained.retried {base : String} {s s' : Store} (hc : Chained base s)
    (habout : input.baseCommandId = base ∨ Apart base input.baseCommandId) {result : Except String (Row × Disposition)}
    (h : Retried (P := P) input s result s') : Chained base s' := by
  cases h with
  | refused e => exact hc
  | terminal latest hlatest => exact hc
  | active latest hlatest hactive hmoved => exact hc.plane hmoved
  | fresh latest hlatest hfailed hnew hmoved =>
    rcases habout with rfl | hapart
    · exact (hc.insert_retry hlatest hfailed hnew).plane hmoved
    · have hmember : chainMember input.baseCommandId (retryRow input latest).commandId = true := by
        unfold retryRow stagedRow
        simp only
        split
        · exact chainMember_base _
        · exact chainMember_retryId _ _
      obtain ⟨hnot, hunread⟩ := hapart _ hmember
      exact (hc.insert_other hnew hnot hunread).plane hmoved

theorem Chained.step (hc : Chained base s) {op : Op} (habout : AboutChain base s op) : Chained base (step P s op) := by
  cases op with
  | stage input =>
    unfold Prompts.step stageSessionPromptCommand
    simp only
    cases P.parse input.payloadJson with
    | none => exact hc
    | some command =>
      cases hget : s.get input.commandId with
      | none =>
        rcases habout with hbase | ⟨hnot, hunread⟩
        · exact hc.insert_base hbase hget
        · exact hc.insert_other hget hnot hunread
      | some existing =>
        simp only
        split <;> exact hc
  | stageRetriable input => exact hc.retried habout (stageRetriable_retried (P := P) hc.keyed input)
  | retry sessionId commandId now =>
    unfold Prompts.step retryKnownUndeliveredFailure
    simp only
    cases retryableKnownUndeliveredPrompt P sessionId commandId s with
    | none => exact hc
    | some prior =>
      have hbase : (explicitRetry sessionId commandId now prior).baseCommandId = base ∨
          Apart base (explicitRetry sessionId commandId now prior).baseCommandId := habout
      exact hc.retried hbase (stageRetriable_retried (P := P) hc.keyed _)
  | prune now limit kept =>
    have hsame : chain base (Prompts.step P s (.prune now limit kept)) = chain base s := habout
    have hrows : (Prompts.step P s (.prune now limit kept)).rows.Sublist s.rows := List.filter_sublist
    refine ⟨(hrows.map Row.commandId).nodup hc.keyed, ?_, ?_, fun r hr => hc.matched r (hrows.subset hr)⟩
    · rw [hsame]
      exact hc.ids
    · rw [hsame]
      exact hc.spent
  | receipt r now =>
    have hstep := step_stepped (P := P) hc.keyed (.receipt r now)
    cases hstep with
    | plane hop hmoved => cases hop
    | told _ _ htold =>
      refine hc.rewrites htold (fun row row' h hspent => ?_)
      rcases h with ⟨hrunner, ht, hrow⟩ | hsame
      · rw [hrow]
        exact (moved_takeReceipt (P := P) now hrunner ht).spent hspent
      · rw [hsame]
        exact hspent
    | added hop _ _ _ => cases hop
  | flush commandId o now => exact hc.plane (flush_moved (P := P) hc.keyed commandId o now)
  | expire now => exact hc.plane (expire_moved (P := P) hc.keyed now)
  | cancelSession sessionId reason now kept resumes => exact hc.plane (cancelSession_moved (P := P) s sessionId reason now kept resumes)
  | cancelPending sessionId commandId now => exact hc.plane (cancelPending_moved (P := P) hc.keyed sessionId commandId now)
  | stopResume commandId now => exact hc.plane (stopResume_moved (P := P) s commandId now)
  | dismiss sessionId commandId now => exact hc.plane (dismiss_moved (P := P) hc.keyed sessionId commandId now)

theorem chain_ids_eq (base : String) (s : Store) :
    (chain base s).map Row.commandId = (s.rows.map Row.commandId).filter (chainMember base) := by
  unfold chain
  rw [List.filter_map]
  rfl

theorem step_ids (hk : s.Keyed) {op : Op} (habout : AboutChain base s op) :
    (chain base s).map Row.commandId <+: (chain base (step P s op)).map Row.commandId := by
  have hstep := step_stepped (P := P) hk op
  generalize hs' : step P s op = s' at hstep
  cases hstep with
  | plane hop hmoved => rw [chain_ids_eq, chain_ids_eq, hmoved.ids]
  | told r now htold => rw [chain_ids_eq, chain_ids_eq, htold.ids]
  | added hop new hnew hmoved =>
    rw [chain_ids_eq, chain_ids_eq, hmoved.ids]
    unfold Store.insert
    rw [List.map_append, List.filter_append]
    exact List.prefix_append _ _
  | pruned now limit kept hrows =>
    have hsame : chain base (step P s (.prune now limit kept)) = chain base s := habout
    rw [← hs', hsame]

def RunAbout (P : Payloads γ) (base : String) (s : Store) (ops : List Op) : Prop :=
  ∀ pre op post, ops = pre ++ op :: post → AboutChain base (run P s pre) op

theorem RunAbout.tail {op : Op} {ops : List Op} (h : RunAbout P base s (op :: ops)) :
    RunAbout P base (step P s op) ops := fun pre o post hsplit => h (op :: pre) o post (by rw [hsplit]; rfl)

theorem run_chained {base : String} : ∀ (ops : List Op) {s : Store}, Chained base s → RunAbout P base s ops →
    Chained base (run P s ops) ∧ (chain base s).map Row.commandId <+: (chain base (run P s ops)).map Row.commandId
  | [], _, hc, _ => ⟨hc, List.prefix_rfl⟩
  | op :: ops, s, hc, habout => by
    have hop : AboutChain base s op := habout [] op ops rfl
    obtain ⟨hchained, hids⟩ := run_chained ops (hc.step (P := P) hop) habout.tail
    exact ⟨hchained, (step_ids (P := P) hc.keyed hop).trans hids⟩

structure AtMostOneLive (base : String) (s : Store) : Prop where
  /-- all but the newest failed without a correlated user event -/
  spent : ∀ r ∈ (chain base s).dropLast, Spent r
  /-- a command that may have reached the provider is the newest -/
  newest : ∀ pre r post, chain base s = pre ++ r :: post →
    r.state.active = true ∨ r.state = .completed ∨ r.state = .uncertain ∨ r.userEventSeq ≠ none → post = []
  unique : ((chain base s).map Row.commandId).Nodup

/-- **A retry chain has at most one live command** in every state of every run; its ids are never reused. -/
theorem retry_chain_single (base : String) (ops : List Op) (habout : RunAbout P base .empty ops) :
    (∀ pre post, ops = pre ++ post → AtMostOneLive base (run P .empty pre) ∧
        (chain base (run P .empty pre)).map Row.commandId <+: (chain base (run P .empty ops)).map Row.commandId) ∧
      ∀ input e, (stageRetriableSessionPromptCommand P input (run P .empty ops)).1 = .error e →
        (stageRetriableSessionPromptCommand P input (run P .empty ops)).2 = run P .empty ops := by
  refine ⟨fun pre post hsplit => ?_, fun input e herror => ?_⟩
  · have hpre : RunAbout P base .empty pre := fun p op q hpq => habout p op (q ++ post) (by rw [hsplit, hpq]; simp)
    have hpost : RunAbout P base (run P .empty pre) post := by
      intro p op q hpq
      rw [← run_append]
      exact habout (pre ++ p) op q (by rw [hsplit, hpq]; simp)
    obtain ⟨hchained, -⟩ := run_chained pre (empty_chained base) hpre
    obtain ⟨-, hids⟩ := run_chained post hchained hpost
    refine ⟨⟨hchained.spent, fun a r b hplace hlive => ?_, ?_⟩, ?_⟩
    · cases b with
      | nil => rfl
      | cons next b =>
        have hearlier : r ∈ (chain base (run P .empty pre)).dropLast := by
          rw [hplace, List.dropLast_append_of_ne_nil (List.cons_ne_nil _ _), List.dropLast_cons_cons]
          exact List.mem_append_cons_self
        obtain ⟨hfailed, hevent⟩ := hchained.spent r hearlier
        rcases hlive with h | h | h | h
        · rw [hfailed] at h
          cases h
        · rw [hfailed] at h
          cases h
        · rw [hfailed] at h
          cases h
        · exact absurd hevent h
    · rw [chain_ids_eq]
      exact hchained.keyed.filter _
    · rw [hsplit, run_append]
      exact hids
  · have hretried := stageRetriable_retried (P := P) (run_keyed (P := P) empty_keyed ops) input
    generalize (stageRetriableSessionPromptCommand P input (run P .empty ops)).2 = s' at hretried
    rw [herror] at hretried
    cases hretried
    rfl

end

def chainPayloads : Payloads String := ⟨some, fun _ => "d", fun _ => some "s"⟩

def chainRetry (now : Int) : Op := .stageRetriable ⟨"q", none, "s", "n", "text", "d", 10000000, now⟩

def chainFailed (id : String) (now : Int) : Op := .receipt ⟨id, "n", "s", .failed, 2, none, none, some "WORKTREE_RECOVERY_REQUIRED", none⟩ now

/-- The answer fails, is staged and fails again, is retried, and is staged while that retry is active. -/
def chainOps : List Op :=
  [chainRetry 0, chainFailed "q" 1, chainRetry 2, chainFailed "q.retry-1" 3, .retry "s" "q.retry-1" 4, chainRetry 5]

theorem retry_chain_single_twice : (chain "q" (run chainPayloads .empty chainOps)).map (fun r => (r.commandId, r.state)) =
        [("q", .failed), ("q.retry-1", .failed), ("q.retry-2", .pending)] ∧
      AtMostOneLive "q" (run chainPayloads .empty chainOps) := by
  refine ⟨by decide +kernel, ?_⟩
  have hall : ∀ s, ∀ op ∈ chainOps, AboutChain "q" s op := by
    intro s op hop
    simp only [chainOps, List.mem_cons, List.not_mem_nil, or_false] at hop
    rcases hop with rfl | rfl | rfl | rfl | rfl | rfl
    · exact .inl rfl
    · trivial
    · exact .inl rfl
    · trivial
    · exact .inl (by decide +kernel)
    · exact .inl rfl
  have habout : RunAbout chainPayloads "q" .empty chainOps := by
    intro pre op post hsplit
    exact hall _ op (by rw [hsplit]; exact List.mem_append_cons_self)
  exact ((retry_chain_single (P := chainPayloads) "q" chainOps habout).1 chainOps [] (List.append_nil _).symm).1

end Wollipog.Prompts
