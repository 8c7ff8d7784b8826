import Wollipog.Closure.Agrees
/-!
# Merged — the ledger's own-merge rule

A merge dependency holds a verified item until the ledger knows the item's own pull requests merged.
-/
namespace Wollipog.Closure

open Authority Scope

variable {db : Db} {root : Root} {snapshot : Snapshot} {item : WorkItem} {stage recorded : List PullRequestRef}

def uniquePullRequests : List PullRequestRef → List PullRequestRef
  | [] => []
  | ref :: refs => ref :: (uniquePullRequests refs).filter (fun other => forgeRefKey other != forgeRefKey ref)

/-- Every pull request an item names: its reported stage's, then its recorded deliveries'. -/
def namedPullRequests (stage recorded : List PullRequestRef) : List PullRequestRef :=
  uniquePullRequests (uniquePullRequests stage ++ recorded)

def WorkItem.observed (db : Db) (item : WorkItem) (stage : List PullRequestRef) : WorkItem :=
  { item with pullRequests := (uniquePullRequests stage).map (fun ref => ⟨ref, db.fact (forgeRefKey ref)⟩) }

def Fact.lastValue : Fact → Option Observation
  | .fresh value => some value
  | .stale value => some value
  | .unavailable last => last

def ledgerRepositories (root : Root) (item : WorkItem) : List String :=
  root.campaignScopeRepositories ++ item.issue.toList.map (fun issue => Js.lower issue.repository)

def ownTargets (item : WorkItem) : List String := item.issue.toList.map (fun issue => issueKey issue.repository issue.number)

/-- The gates that an item's verified attempts passed, of those that count for `targets`. -/
def countedGates (db : Db) (item : WorkItem) (proof targets : List String) : List Gate :=
  let windows := item.verifications.filterMap (deliveryWindow item)
  (db.mergeGates.filter (fun gate => windows.any (fun w => w.sessionId == gate.sessionId))).filter (gateCounts proof targets windows)

def ledgerGates (db : Db) (root : Root) (item : WorkItem) : List Gate :=
  countedGates db item (ledgerRepositories root item) (ownTargets item)

def ledgerCandidates (db : Db) (root : Root) (item : WorkItem) (stage recorded : List PullRequestRef) :
    OrdMap (String × Nat) (PullRequestRef × List String) :=
  (ledgerGates db root item).foldl addGate (OrdMap.empty.setAll forgeRefKey (fun ref => (ref, [])) (namedPullRequests stage recorded))

/-- Whether one candidate merged; `none` where nothing shows that it merged or was closed. -/
def ownMerge (fact : Fact) (heads : List String) : Option Bool :=
  fact.lastValue.bind (fun value =>
    match value.state, value.mergeCommitSha with
    | .closed, _ => some false
    | .merged, some sha => if sha = "" || (!heads.isEmpty && !heads.contains value.headSha) then none else some true
    | _, _ => none)

def ownPullRequestsMerged (db : Db) (root : Root) (item : WorkItem) (stage recorded : List PullRequestRef) : Bool :=
  let proof := ledgerRepositories root item
  let candidates := ledgerCandidates db root item stage recorded
  let refs := candidates.entries.map (fun e => e.2.1)
  if refs.isEmpty || refs.any (fun ref => !proof.isEmpty && !proof.contains (Js.lower ref.repository)) then false
  else
    let merges := candidates.entries.map (fun e => ownMerge (db.fact e.1) e.2.2)
    merges.all Option.isSome && merges.any (· == some true)

/-- The conditions of `itemDelivered` other than the item's primary state. -/
def deliveryProven (db : Db) (root : Root) (item : WorkItem) (snapshot : Snapshot) : Bool :=
  item.currentAttempt.isNone && deliveredVerification item && mergesProven (verdicts db root snapshot item)

/-! ## What is gated -/

def gateKey (gate : Gate) : String × Nat := forgeRefKey ⟨gate.repository, gate.pullRequest⟩

/-- The heads that `gates` approved for a pull request. -/
def headsOf (gates : List Gate) (key : String × Nat) : List String := (gates.filter (fun gate => gateKey gate == key)).map Gate.headSha

variable {key : String × Nat}

variable {fact : Fact} {gate : Gate} {gates : List Gate} {approved : List String}

theorem mem_headsOf {head : String} : head ∈ headsOf gates key ↔ ∃ gate ∈ gates, gateKey gate = key ∧ gate.headSha = head := by
  unfold headsOf
  simp only [List.mem_map, List.mem_filter, beq_iff_eq, and_assoc]

def heads (gated : OrdMap (String × Nat) (PullRequestRef × List String)) (key : String × Nat) : List String :=
  (gated.get key).elim [] Prod.snd

theorem heads_addGate {gated : OrdMap (String × Nat) (PullRequestRef × List String)} :
    heads (addGate gated gate) key = heads gated key ++ headsOf [gate] key := by
  unfold heads addGate headsOf
  simp only
  rw [OrdMap.get_set]
  by_cases hkey : key = forgeRefKey ⟨gate.repository, gate.pullRequest⟩
  · subst hkey
    simp [gateKey]
  · have hne : ¬ gateKey gate = key := fun h => hkey h.symm
    simp [hkey, hne]

theorem headsOf_cons : headsOf (gate :: gates) key = headsOf [gate] key ++ headsOf gates key := by
  unfold headsOf
  rw [← List.singleton_append, List.filter_append, List.map_append]

theorem heads_foldl : ∀ {gates : List Gate} {gated : OrdMap (String × Nat) (PullRequestRef × List String)},
    heads (gates.foldl addGate gated) key = heads gated key ++ headsOf gates key
  | [], gated => (List.append_nil _).symm
  | gate :: gates, gated => by
    have hcons : headsOf (gate :: gates) key = headsOf [gate] key ++ headsOf gates key := headsOf_cons
    rw [List.foldl_cons, heads_foldl, heads_addGate, hcons, List.append_assoc]

theorem mem_keys_foldl : ∀ {gates : List Gate} {gated : OrdMap (String × Nat) (PullRequestRef × List String)},
      key ∈ (gates.foldl addGate gated).keys ↔ key ∈ gated.keys ∨ ∃ gate ∈ gates, gateKey gate = key
  | [], gated => by simp
  | gate :: gates, gated => by
    have hadd : key ∈ (addGate gated gate).keys ↔ key = gateKey gate ∨ key ∈ gated.keys := OrdMap.mem_keys_set
    rw [List.foldl_cons, mem_keys_foldl, hadd, List.exists_mem_cons_iff]
    constructor
    · rintro ((h | h) | h)
      · exact .inr (.inl h.symm)
      · exact .inl h
      · exact .inr (.inr h)
    · rintro (h | h | h)
      · exact .inl (.inr h)
      · exact .inl (.inl h.symm)
      · exact .inr h

def Keyed {α : Type} (ref : α → PullRequestRef) (m : OrdMap (String × Nat) α) : Prop :=
  ∀ key value, m.get key = some value → forgeRefKey (ref value) = key

theorem Keyed.set {α : Type} {ref : α → PullRequestRef} {m : OrdMap (String × Nat) α} (hm : Keyed ref m) {value : α}
    (hkey : forgeRefKey (ref value) = key) : Keyed ref (m.set key value) := by
  intro j w hget
  rw [OrdMap.get_set] at hget
  by_cases hj : j = key
  · rw [if_pos hj] at hget
    cases hget
    rw [hj, hkey]
  · rw [if_neg hj] at hget
    exact hm j w hget

theorem Keyed.foldl_addGate : ∀ {gates : List Gate} {gated : OrdMap (String × Nat) (PullRequestRef × List String)},
    Keyed Prod.fst gated → Keyed Prod.fst (gates.foldl addGate gated)
  | [], _, hgated => hgated
  | gate :: gates, gated, hgated => by
    rw [List.foldl_cons]
    exact Keyed.foldl_addGate (hgated.set rfl)

theorem forall_setAll {ε ν : Type} {key : ε → String × Nat} {val : ε → ν} {P : String × Nat → ν → Prop} :
    ∀ {es : List ε} {m : OrdMap (String × Nat) ν}, (∀ j w, m.get j = some w → P j w) → (∀ e ∈ es, P (key e) (val e)) →
      ∀ j w, (m.setAll key val es).get j = some w → P j w
  | [], _, hm, _ => hm
  | e :: es, m, hm, hes => by
    obtain ⟨he, hrest⟩ := List.forall_mem_cons.1 hes
    have hset : ∀ j w, (m.set (key e) (val e)).get j = some w → P j w := by
      intro j w hget
      rw [OrdMap.get_set] at hget
      by_cases hj : j = key e
      · rw [if_pos hj] at hget
        cases hget
        rw [hj]
        exact he
      · rw [if_neg hj] at hget
        exact hm j w hget
    have hrun : ∀ j w, ((m.set (key e) (val e)).setAll key val es).get j = some w → P j w := forall_setAll hset hrest
    exact hrun

theorem mem_keys_setAll {ε ν : Type} {key : ε → String × Nat} {val : ε → ν} {k : String × Nat} :
    ∀ {es : List ε} {m : OrdMap (String × Nat) ν}, k ∈ (m.setAll key val es).keys ↔ k ∈ m.keys ∨ k ∈ es.map key
  | [], m => by
    have hnone : k ∉ ([] : List ε).map key := List.not_mem_nil
    exact ⟨.inl, fun h => h.resolve_right hnone⟩
  | e :: es, m => by
    have hset : k ∈ ((m.set (key e) (val e)).setAll key val es).keys ↔ k ∈ (m.set (key e) (val e)).keys ∨ k ∈ es.map key :=
      mem_keys_setAll
    rw [OrdMap.mem_keys_set] at hset
    refine hset.trans ?_
    rw [List.map_cons, List.mem_cons]
    tauto

theorem mem_keys_unique {k : String × Nat} : ∀ {refs : List PullRequestRef},
    k ∈ (uniquePullRequests refs).map forgeRefKey ↔ k ∈ refs.map forgeRefKey
  | [] => Iff.rfl
  | ref :: refs => by
    have hrest : k ∈ (uniquePullRequests refs).map forgeRefKey ↔ k ∈ refs.map forgeRefKey := mem_keys_unique
    simp only [uniquePullRequests, List.map_cons, List.mem_cons, List.mem_map, List.mem_filter, bne_iff_ne, ne_eq] at hrest ⊢
    by_cases hk : k = forgeRefKey ref
    · simp [hk]
    · rw [← hrest]
      constructor
      · rintro (h | ⟨other, ⟨hother, _⟩, rfl⟩)
        · exact absurd h hk
        · exact .inr ⟨other, hother, rfl⟩
      · rintro (h | ⟨other, hother, rfl⟩)
        · exact absurd h hk
        · exact .inr ⟨other, ⟨hother, hk⟩, rfl⟩

/-! ## The candidates of the proof -/

def closureTargets (item : WorkItem) (snapshot : Snapshot) : List String := ownTargets item ++ [issueKey snapshot.repository snapshot.issue]

def closureGates (db : Db) (root : Root) (item : WorkItem) (snapshot : Snapshot) : List Gate :=
  countedGates db item (root.proofRepositories snapshot.repository) (closureTargets item snapshot)

def ClosureReads (db : Db) (root : Root) (item : WorkItem) (stage : List PullRequestRef) (snapshot : Snapshot) (key : String × Nat) : Prop :=
  key ∈ stage.map forgeRefKey ∨ ∃ gate ∈ closureGates db root item snapshot, gateKey gate = key

def LedgerReads (db : Db) (root : Root) (item : WorkItem) (stage recorded : List PullRequestRef) (key : String × Nat) : Prop :=
  key ∈ (stage ++ recorded).map forgeRefKey ∨ ∃ gate ∈ ledgerGates db root item, gateKey gate = key

def closureGated (db : Db) (root : Root) (item : WorkItem) (snapshot : Snapshot) : OrdMap (String × Nat) (PullRequestRef × List String) :=
  (closureGates db root item snapshot).foldl addGate OrdMap.empty

def stageCandidates (db : Db) (item : WorkItem) (stage : List PullRequestRef) : OrdMap (String × Nat) DeliveryCandidate :=
  OrdMap.empty.setAll (fun entry => forgeRefKey entry.ref) (fun entry => ⟨entry.ref, entry.fact, []⟩) (item.observed db stage).pullRequests

def allCandidates (db : Db) (root : Root) (item : WorkItem) (stage : List PullRequestRef) (snapshot : Snapshot) :
    OrdMap (String × Nat) DeliveryCandidate :=
  (stageCandidates db item stage).setAll Prod.fst (fun e => ⟨e.2.1, db.fact e.1, []⟩)
    ((closureGated db root item snapshot).entries.filter (fun e => ((stageCandidates db item stage).get e.1).isNone))

theorem deliveryCandidates_eq : deliveryCandidates db root (item.observed db stage) snapshot.issue snapshot.repository =
    ((allCandidates db root item stage snapshot).mapVals (fun key candidate =>
      { candidate with approvedHeads := heads (closureGated db root item snapshot) key })).entries.map Prod.snd := rfl

theorem mem_keys_stage : key ∈ (stageCandidates db item stage).keys ↔ key ∈ stage.map forgeRefKey := by
  have hunique : key ∈ (uniquePullRequests stage).map forgeRefKey ↔ key ∈ stage.map forgeRefKey := mem_keys_unique
  unfold stageCandidates
  rw [mem_keys_setAll, ← hunique]
  have hobserved : (item.observed db stage).pullRequests.map (fun entry => forgeRefKey entry.ref) = (uniquePullRequests stage).map forgeRefKey := by
    unfold WorkItem.observed
    rw [List.map_map]
    rfl
  rw [hobserved]
  have hempty : key ∉ (OrdMap.empty : OrdMap (String × Nat) DeliveryCandidate).keys := List.not_mem_nil
  exact ⟨fun h => h.resolve_left hempty, .inr⟩

theorem mem_keys_closureGated :
    key ∈ (closureGated db root item snapshot).keys ↔ ∃ gate ∈ closureGates db root item snapshot, gateKey gate = key := by
  unfold closureGated
  rw [mem_keys_foldl]
  have hempty : key ∉ (OrdMap.empty : OrdMap (String × Nat) (PullRequestRef × List String)).keys := List.not_mem_nil
  exact ⟨fun h => h.resolve_left hempty, .inr⟩

theorem heads_closureGated :
    heads (closureGated db root item snapshot) key = headsOf (closureGates db root item snapshot) key := by
  unfold closureGated
  rw [heads_foldl]
  rfl

theorem keyed_closureGated : Keyed Prod.fst (closureGated db root item snapshot) :=
  Keyed.foldl_addGate (fun _ _ h => by cases h)

def Read (db : Db) (root : Root) (item : WorkItem) (stage : List PullRequestRef) (snapshot : Snapshot) (key : String × Nat)
    (candidate : DeliveryCandidate) : Prop :=
  forgeRefKey candidate.ref = key ∧ candidate.fact = db.fact key ∧ ClosureReads db root item stage snapshot key

theorem read_stage : ∀ key candidate, (stageCandidates db item stage).get key = some candidate →
    Read db root item stage snapshot key candidate := by
  refine forall_setAll (fun _ _ h => by cases h) (fun entry hentry => ?_)
  obtain ⟨ref, href, rfl⟩ := List.mem_map.1 hentry
  have hkey : forgeRefKey ref ∈ stage.map forgeRefKey := mem_keys_unique.1 (List.mem_map_of_mem href)
  exact ⟨rfl, rfl, .inl hkey⟩

theorem read_all : ∀ key candidate, (allCandidates db root item stage snapshot).get key = some candidate →
    Read db root item stage snapshot key candidate := by
  refine forall_setAll read_stage (fun e he => ?_)
  have hget := OrdMap.get_of_mem (List.mem_filter.1 he).1
  have hkey : e.1 ∈ (closureGated db root item snapshot).keys := OrdMap.mem_keys_iff.2 ⟨_, hget⟩
  exact ⟨keyed_closureGated _ _ hget, rfl, .inr (mem_keys_closureGated.1 hkey)⟩

theorem mem_keys_all :
    key ∈ (allCandidates db root item stage snapshot).keys ↔ ClosureReads db root item stage snapshot key := by
  constructor
  · intro h
    obtain ⟨candidate, hget⟩ := OrdMap.mem_keys_iff.1 h
    exact (read_all key candidate hget).2.2
  · intro h
    unfold allCandidates
    rw [mem_keys_setAll]
    by_cases hstage : key ∈ (stageCandidates db item stage).keys
    · exact .inl hstage
    · rcases h with hnamed | hgated
      · exact absurd (mem_keys_stage.2 hnamed) hstage
      · obtain ⟨value, hget⟩ := OrdMap.mem_keys_iff.1 (mem_keys_closureGated.2 hgated)
        right
        refine List.mem_map.2 ⟨(key, value), List.mem_filter.2 ⟨OrdMap.mem_of_get hget, ?_⟩, rfl⟩
        rw [OrdMap.get_eq_none_iff.2 hstage]
        rfl

theorem exists_candidate (hreads : ClosureReads db root item stage snapshot key) :
    ∃ candidate ∈ deliveryCandidates db root (item.observed db stage) snapshot.issue snapshot.repository,
      candidate.fact = db.fact key ∧ candidate.approvedHeads = headsOf (closureGates db root item snapshot) key := by
  obtain ⟨before, hbefore⟩ := OrdMap.mem_keys_iff.1 (mem_keys_all.2 hreads)
  refine ⟨{ before with approvedHeads := heads (closureGated db root item snapshot) key }, ?_, (read_all key before hbefore).2.1,
    heads_closureGated⟩
  rw [deliveryCandidates_eq]
  refine List.mem_map.2 ⟨(key, _), OrdMap.mem_of_get ?_, rfl⟩
  rw [OrdMap.get_mapVals, hbefore]
  rfl

/-- A value that shows a pull request closed, or merged at a head that was approved where any was. -/
def Settles (value : Observation) (approved : List String) : Prop :=
  value.state = .closed ∨
    value.state = .merged ∧ (∃ sha, value.mergeCommitSha = some sha ∧ sha ≠ "") ∧ (approved = [] ∨ value.headSha ∈ approved)

theorem ownMerge_isSome :
    (ownMerge fact approved).isSome = true ↔ ∃ value, fact.lastValue = some value ∧ Settles value approved := by
  unfold ownMerge Settles
  cases hlast : fact.lastValue with
  | none => simp
  | some value =>
    obtain ⟨state, headSha, mergeCommitSha⟩ := value
    cases state with
    | opened => simp
    | closed => simp
    | merged =>
      cases mergeCommitSha with
      | none => simp
      | some sha =>
        by_cases hsha : sha = ""
        · simp [hsha]
        · cases approved with
          | nil => simp [hsha]
          | cons head approved => simp [hsha, or_iff_not_imp_left]

theorem ownMerge_true : ownMerge fact approved = some true ↔
      (ownMerge fact approved).isSome = true ∧ ∃ value, fact.lastValue = some value ∧ value.state = .merged := by
  unfold ownMerge
  cases hlast : fact.lastValue with
  | none => simp
  | some value =>
    obtain ⟨state, headSha, mergeCommitSha⟩ := value
    cases state with
    | opened => simp
    | closed => simp
    | merged =>
      cases mergeCommitSha with
      | none => simp
      | some sha => simp

theorem verdict_settles {candidate : DeliveryCandidate} (hverdict : verdict root snapshot candidate = .merged ∨ verdict root snapshot candidate = .excluded) :
    ∃ value, candidate.fact.lastValue = some value ∧ Settles value candidate.approvedHeads := by
  unfold verdict at hverdict
  split at hverdict
  · simp at hverdict
  · cases hfact : candidate.fact with
    | stale value => simp [hfact] at hverdict
    | unavailable last => simp [hfact] at hverdict
    | fresh value =>
      refine ⟨value, rfl, ?_⟩
      rw [hfact] at hverdict
      simp only [observedVerdict] at hverdict
      split at hverdict
      · rename_i hstate
        exact .inl hstate
      · rename_i sha hstate hcommit
        split at hverdict
        · simp at hverdict
        · rename_i hsha
          unfold mergeVerdict at hverdict
          split at hverdict
          · simp at hverdict
          · rename_i happroved
            refine .inr ⟨hstate, ⟨sha, hcommit, hsha⟩, ?_⟩
            by_contra hnot
            rw [not_or] at hnot
            refine happroved ?_
            simp [hnot.1, hnot.2]
      · simp at hverdict

/-! ## The rule -/

theorem mem_keys_ledger :
    key ∈ (ledgerCandidates db root item stage recorded).keys ↔ LedgerReads db root item stage recorded key := by
  unfold ledgerCandidates LedgerReads
  rw [mem_keys_foldl, mem_keys_setAll]
  have hnamed : key ∈ (namedPullRequests stage recorded).map forgeRefKey ↔ key ∈ (stage ++ recorded).map forgeRefKey := by
    unfold namedPullRequests
    rw [mem_keys_unique, List.map_append, List.map_append, List.mem_append, List.mem_append, mem_keys_unique]
  have hempty : key ∉ (OrdMap.empty : OrdMap (String × Nat) (PullRequestRef × List String)).keys := List.not_mem_nil
  rw [hnamed]
  tauto

theorem heads_ledger : heads (ledgerCandidates db root item stage recorded) key = headsOf (ledgerGates db root item) key := by
  have hnamed : ∀ j w, (OrdMap.empty.setAll forgeRefKey (fun ref => (ref, ([] : List String))) (namedPullRequests stage recorded)).get j = some w →
      w.2 = [] := forall_setAll (fun _ _ h => by cases h) (fun _ _ => rfl)
  have hnone : heads (OrdMap.empty.setAll forgeRefKey (fun ref => (ref, ([] : List String))) (namedPullRequests stage recorded)) key = [] := by
    unfold heads
    cases hget : (OrdMap.empty.setAll forgeRefKey (fun ref => (ref, ([] : List String))) (namedPullRequests stage recorded)).get key with
    | none => rfl
    | some value => exact hnamed key value hget
  unfold ledgerCandidates
  rw [heads_foldl, hnone, List.nil_append]

theorem keyed_ledger : Keyed Prod.fst (ledgerCandidates db root item stage recorded) :=
  Keyed.foldl_addGate (forall_setAll (fun _ _ h => by cases h) (fun _ _ => rfl))

/-! What is asked of the entries is asked of the pull requests that the ledger reads. -/

theorem ledgerReads_iff : LedgerReads db root item stage recorded key ↔
    ∃ e ∈ (ledgerCandidates db root item stage recorded).entries, e.1 = key := by
  rw [← mem_keys_ledger]
  exact List.mem_map

theorem ownMerge_entry {e : (String × Nat) × PullRequestRef × List String}
    (he : e ∈ (ledgerCandidates db root item stage recorded).entries) :
    ownMerge (db.fact e.1) e.2.2 = ownMerge (db.fact e.1) (headsOf (ledgerGates db root item) e.1) := by
  have hheads : heads (ledgerCandidates db root item stage recorded) e.1 = e.2.2 := by
    unfold heads
    rw [OrdMap.get_of_mem he]
    rfl
  rw [← hheads, heads_ledger]

theorem merges_all : ((ledgerCandidates db root item stage recorded).entries.map (fun e => ownMerge (db.fact e.1) e.2.2)).all Option.isSome =
      true ↔
    ∀ key, LedgerReads db root item stage recorded key → (ownMerge (db.fact key) (headsOf (ledgerGates db root item) key)).isSome = true := by
  rw [List.all_eq_true, List.forall_mem_map]
  constructor
  · intro h key hkey
    obtain ⟨e, he, rfl⟩ := ledgerReads_iff.1 hkey
    rw [← ownMerge_entry he]
    exact h e he
  · intro h e he
    rw [ownMerge_entry he]
    exact h e.1 (ledgerReads_iff.2 ⟨e, he, rfl⟩)

theorem merges_any : ((ledgerCandidates db root item stage recorded).entries.map (fun e => ownMerge (db.fact e.1) e.2.2)).any
      (· == some true) = true ↔
    ∃ key, LedgerReads db root item stage recorded key ∧ ownMerge (db.fact key) (headsOf (ledgerGates db root item) key) = some true := by
  rw [List.any_map, List.any_eq_true]
  constructor
  · rintro ⟨e, he, htrue⟩
    refine ⟨e.1, ledgerReads_iff.2 ⟨e, he, rfl⟩, ?_⟩
    rw [← ownMerge_entry he]
    exact beq_iff_eq.1 htrue
  · rintro ⟨key, hkey, htrue⟩
    obtain ⟨e, he, rfl⟩ := ledgerReads_iff.1 hkey
    exact ⟨e, he, beq_iff_eq.2 ((ownMerge_entry he).trans htrue)⟩

theorem refs_inside : ((ledgerCandidates db root item stage recorded).entries.map (fun e => e.2.1)).any
        (fun ref => !(ledgerRepositories root item).isEmpty && !(ledgerRepositories root item).contains (Js.lower ref.repository)) = false ↔
    ∀ key, LedgerReads db root item stage recorded key → ledgerRepositories root item = [] ∨ key.1 ∈ ledgerRepositories root item := by
  have hrepository : ∀ e ∈ (ledgerCandidates db root item stage recorded).entries, Js.lower e.2.1.repository = e.1.1 :=
    fun e he => congrArg Prod.fst (keyed_ledger e.1 e.2 (OrdMap.get_of_mem he))
  rw [List.any_eq_false, List.forall_mem_map]
  simp only [Bool.and_eq_true, Bool.not_eq_true', List.contains_eq_mem, decide_eq_false_iff_not, not_and, not_not]
  constructor
  · intro h key hkey
    obtain ⟨e, he, rfl⟩ := ledgerReads_iff.1 hkey
    by_cases hnone : ledgerRepositories root item = []
    · exact .inl hnone
    · right
      rw [← hrepository e he]
      exact h e he (Bool.eq_false_of_not_eq_true (fun hempty => hnone (List.isEmpty_iff.1 hempty)))
  · intro h e he hsome
    rw [hrepository e he]
    refine (h e.1 (ledgerReads_iff.2 ⟨e, he, rfl⟩)).resolve_left (fun hnone => ?_)
    rw [hnone] at hsome
    cases hsome

theorem refs_nonempty (hkey : LedgerReads db root item stage recorded key) :
    ((ledgerCandidates db root item stage recorded).entries.map (fun e => e.2.1)).isEmpty = false := by
  rw [Bool.eq_false_iff, ne_eq, List.isEmpty_iff, List.map_eq_nil_iff]
  intro hnil
  obtain ⟨e, he, _⟩ := ledgerReads_iff.1 hkey
  rw [hnil] at he
  cases he

/-- **The rule** in terms of the pull requests that the ledger reads. -/
theorem ownPullRequestsMerged_iff : ownPullRequestsMerged db root item stage recorded = true ↔
    (∀ key, LedgerReads db root item stage recorded key → ledgerRepositories root item = [] ∨ key.1 ∈ ledgerRepositories root item) ∧
      (∀ key, LedgerReads db root item stage recorded key → (ownMerge (db.fact key) (headsOf (ledgerGates db root item) key)).isSome = true) ∧
      ∃ key, LedgerReads db root item stage recorded key ∧ ownMerge (db.fact key) (headsOf (ledgerGates db root item) key) = some true := by
  unfold ownPullRequestsMerged
  simp only
  rw [← refs_inside, ← merges_all]
  constructor
  · intro h
    split at h
    · cases h
    · rename_i hok
      rw [Bool.or_eq_true, not_or, Bool.not_eq_true, Bool.not_eq_true] at hok
      rw [Bool.and_eq_true] at h
      exact ⟨hok.2, h.1, merges_any.1 h.2⟩
  · rintro ⟨hinside, hsome, key, hkey, htrue⟩
    have hok : ¬ (((ledgerCandidates db root item stage recorded).entries.map (fun e => e.2.1)).isEmpty ||
        ((ledgerCandidates db root item stage recorded).entries.map (fun e => e.2.1)).any (fun ref =>
          !(ledgerRepositories root item).isEmpty && !(ledgerRepositories root item).contains (Js.lower ref.repository))) = true := by
      rw [refs_nonempty hkey, hinside]
      decide
    rw [if_neg hok, hsome, merges_any.2 ⟨key, hkey, htrue⟩]
    rfl

structure Attributed (db : Db) (root : Root) (item : WorkItem) (stage recorded : List PullRequestRef) (snapshot : Snapshot) : Prop where
  /-- A pull request the ledger reads lies in the campaign's repositories or that of the item's issue. -/
  inside : ∀ key, LedgerReads db root item stage recorded key → ledgerRepositories root item = [] ∨ key.1 ∈ ledgerRepositories root item
  /-- One that the proof does not read is known to have merged or closed. -/
  settled : ∀ key, LedgerReads db root item stage recorded key → ¬ ClosureReads db root item stage snapshot key →
    ∃ value, (db.fact key).lastValue = some value ∧ Settles value []
  /-- One with an approval for the item's own issue, or for none, merged at such an approval's head. -/
  approved : ∀ gate ∈ ledgerGates db root item, ∀ value, (db.fact (gateKey gate)).lastValue = some value → value.state = .merged →
    value.headSha ∈ headsOf (ledgerGates db root item) (gateKey gate)
  /-- One of them merged. -/
  merged : ∃ key, LedgerReads db root item stage recorded key ∧ ∃ value, (db.fact key).lastValue = some value ∧ value.state = .merged

theorem closureReads_settled (hproven : deliveryProven db root (item.observed db stage) snapshot = true)
    (hreads : ClosureReads db root item stage snapshot key) : ∃ value, (db.fact key).lastValue = some value ∧
      Settles value (headsOf (closureGates db root item snapshot) key) := by
  obtain ⟨candidate, hmem, hfact, happroved⟩ := exists_candidate hreads
  unfold deliveryProven mergesProven verdicts at hproven
  rw [Bool.and_eq_true, Bool.and_eq_true, Bool.and_eq_true, List.all_eq_true] at hproven
  have hverdict := hproven.2.1 (candidate, verdict root snapshot candidate) (List.mem_map.2 ⟨candidate, hmem, rfl⟩)
  rw [Bool.or_eq_true, beq_iff_eq, beq_iff_eq] at hverdict
  obtain ⟨value, hlast, hsettles⟩ := verdict_settles hverdict
  rw [hfact] at hlast
  rw [happroved] at hsettles
  exact ⟨value, hlast, hsettles⟩

theorem Attributed.reads_settled (hattributed : Attributed db root item stage recorded snapshot)
    (hproven : deliveryProven db root (item.observed db stage) snapshot = true)
    (hreads : LedgerReads db root item stage recorded key) :
    (ownMerge (db.fact key) (headsOf (ledgerGates db root item) key)).isSome = true := by
  have hknown : ∃ value approved, (db.fact key).lastValue = some value ∧ Settles value approved := by
    by_cases hclosure : ClosureReads db root item stage snapshot key
    · obtain ⟨value, hlast, hsettles⟩ := closureReads_settled hproven hclosure
      exact ⟨value, _, hlast, hsettles⟩
    · obtain ⟨value, hlast, hsettles⟩ := hattributed.settled key hreads hclosure
      exact ⟨value, _, hlast, hsettles⟩
  obtain ⟨value, approved, hlast, hsettles⟩ := hknown
  refine ownMerge_isSome.2 ⟨value, hlast, ?_⟩
  rcases hsettles with hclosed | ⟨hmerged, hcommit, _⟩
  · exact .inl hclosed
  · refine .inr ⟨hmerged, hcommit, ?_⟩
    by_cases hnone : headsOf (ledgerGates db root item) key = []
    · exact .inl hnone
    · obtain ⟨head, hhead⟩ := List.exists_mem_of_ne_nil _ hnone
      obtain ⟨gate, hgate, rfl, _⟩ := mem_headsOf.1 hhead
      exact .inr (hattributed.approved gate hgate value hlast hmerged)

/-- **The rule agrees with the proof** exactly where the proof's merges are the item's own. -/
theorem own_merges_agree_iff (hproven : deliveryProven db root (item.observed db stage) snapshot = true) :
    ownPullRequestsMerged db root item stage recorded = true ↔ Attributed db root item stage recorded snapshot := by
  rw [ownPullRequestsMerged_iff]
  constructor
  · rintro ⟨hinside, hsome, key, hkey, htrue⟩
    refine ⟨hinside, fun k hk _ => ?_, fun gate hgate value hlast hmerged => ?_, key, hkey, (ownMerge_true.1 htrue).2⟩
    · obtain ⟨value, hlast, hsettles⟩ := ownMerge_isSome.1 (hsome k hk)
      refine ⟨value, hlast, hsettles.imp_right (fun h => ⟨h.1, h.2.1, .inl rfl⟩)⟩
    · obtain ⟨last, hlast', hsettles⟩ := ownMerge_isSome.1 (hsome (gateKey gate) (.inr ⟨gate, hgate, rfl⟩))
      obtain rfl := Option.some.inj (hlast.symm.trans hlast')
      rcases hsettles with hclosed | ⟨_, _, hnone | hhead⟩
      · rw [hclosed] at hmerged
        cases hmerged
      · have hmem : gate.headSha ∈ headsOf (ledgerGates db root item) (gateKey gate) := mem_headsOf.2 ⟨gate, hgate, rfl, rfl⟩
        rw [hnone] at hmem
        cases hmem
      · exact hhead
  · intro hattributed
    have hsome : ∀ key, LedgerReads db root item stage recorded key →
        (ownMerge (db.fact key) (headsOf (ledgerGates db root item) key)).isSome = true :=
      fun _ hkey => hattributed.reads_settled hproven hkey
    obtain ⟨key, hkey, value, hlast, hmerged⟩ := hattributed.merged
    exact ⟨hattributed.inside, hsome, key, hkey, ownMerge_true.2 ⟨hsome key hkey, value, hlast, hmerged⟩⟩

theorem own_merges_agree_sample : ownPullRequestsMerged sampleDb sampleRoot sampleItem [⟨"acme/site", 5⟩] [] = true ∧
    Attributed sampleDb sampleRoot sampleItem [⟨"acme/site", 5⟩] [] sampleClosure := by
  have hproven : deliveryProven sampleDb sampleRoot (sampleItem.observed sampleDb [⟨"acme/site", 5⟩]) sampleClosure = true := by
    decide +kernel
  have hmerged : ownPullRequestsMerged sampleDb sampleRoot sampleItem [⟨"acme/site", 5⟩] [] = true := by decide +kernel
  exact ⟨hmerged, (own_merges_agree_iff hproven).1 hmerged⟩

def fixedByGate : Gate where
  sessionId := "s1"
  createdAt := 15
  repository := "acme/site"
  pullRequest := 5
  headSha := "h"
  intendedClosures := some ["acme/site#9"]

theorem own_merges_disagree : ¬ ∀ (db : Db) (root : Root) (item : WorkItem) (stage recorded : List PullRequestRef) (snapshot : Snapshot),
    deliveryProven db root (item.observed db stage) snapshot = true → ownPullRequestsMerged db root item stage recorded = true := by
  intro h
  have hproven : deliveryProven { sampleDb with mergeGates := [fixedByGate] } sampleRoot
      (sampleItem.observed { sampleDb with mergeGates := [fixedByGate] } []) { sampleClosure with issue := 9 } = true := by
    decide +kernel
  have hnot : ownPullRequestsMerged { sampleDb with mergeGates := [fixedByGate] } sampleRoot sampleItem [] [] = false := by decide +kernel
  have hmerged := h _ _ _ _ [] _ hproven
  rw [hnot] at hmerged
  cases hmerged

end Wollipog.Closure
