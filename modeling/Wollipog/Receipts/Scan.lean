import Wollipog.Receipts.Indexed
/-!
# Scan — what prune removes and what staleRecoveries returns

Under `Indexed`, a prune removes the files of the expired records in the order of the expiry map, and the recovery
returns what a scan of every file would.
-/
namespace Wollipog
namespace Receipts

variable {env : Env}

variable {n : Nat} {s s' : Store} {maxRemovals : Option Nat}

theorem remove_keeps {invocationId : String} {expiresAt : Int} (h : Indexed env s)
    (hid : s.expiresAtByInvocation.get invocationId = some expiresAt) :
    Keeps env s
      (dropIndexedRecord env { s with disk := s.disk.erase (env.recordPath invocationId) } invocationId)
      [env.recordPath invocationId] := by
  refine ⟨⟨h.mirrors.remove hid, ?_⟩, fun p r hr ht hp => ⟨r, ?_, rfl⟩⟩
  · have hle := OrdMap.size_erase_le s.disk (env.recordPath invocationId)
    have hcap := h.cap
    simp only [dropIndexedRecord]
    omega
  · have herase := Filing.at_erase (F := filing env) s.disk (env.recordPath invocationId) p
    rw [List.mem_singleton] at hp
    rw [if_neg hp] at herase
    exact herase.trans hr

/-- The first files of a list, up to what a cap leaves after `n` removals. -/
def upTo (maxRemovals : Option Nat) (n : Nat) (files : List String) : List String :=
  match maxRemovals with
  | none => files
  | some k => files.take (k - n)

def due (env : Env) (now : Int) (entries : List (String × Int)) : List String :=
  (entries.filter (fun e => decide (e.2 < now))).map (fun e => env.recordPath e.1)

/-- What one loop of `prune` did. -/
structure PruneSpec (env : Env) (now : Int) (maxRemovals : Option Nat) (entries : List (String × Int)) (s : Store)
    (removed : List String) (p : Pruned) : Prop where
  prefix_ : p.removed <+: removed ++ upTo maxRemovals removed.length (due env now entries)
  whole : p.threw = false → p.removed = removed ++ upTo maxRemovals removed.length (due env now entries)
  keeps : ∃ more, p.removed = removed ++ more ∧ Keeps env s p.store more ∧
    (∀ file ∈ more, ∃ r, readFile s file = some r ∧ r.expiresAt < now) ∧
    ∀ file, p.store.disk.get file = if file ∈ more then none else s.disk.get file
  maxReceipts : p.store.maxReceipts = s.maxReceipts
  ownerId : p.store.ownerId = s.ownerId

theorem upTo_capped (h : capped maxRemovals n = true) (l : List String) : upTo maxRemovals n l = [] := by
  cases maxRemovals with
  | none => cases h
  | some k =>
    simp only [capped, decide_eq_true_eq] at h
    have hzero : k - n = 0 := by omega
    simp only [upTo, hzero, List.take_zero]

theorem upTo_cons (h : capped maxRemovals n = false) (file : String)
    (l : List String) : upTo maxRemovals n (file :: l) = file :: upTo maxRemovals (n + 1) l := by
  cases maxRemovals with
  | none => rfl
  | some k =>
    simp only [capped, decide_eq_false_iff_not] at h
    obtain ⟨j, hj⟩ : ∃ j, k - n = j + 1 := ⟨k - n - 1, by omega⟩
    have hnext : k - (n + 1) = j := by omega
    simp only [upTo, hj, hnext, List.take_succ_cons]

theorem pruneLoop_spec (now : Int) (maxRemovals : Option Nat) (removeFails : String → Bool) :
    ∀ (entries : List (String × Int)) (s : Store) (removed : List String), Indexed env s →
      (∀ e ∈ entries, s.expiresAtByInvocation.get e.1 = some e.2) → (entries.map Prod.fst).Nodup →
      PruneSpec env now maxRemovals entries s removed (pruneLoop env now maxRemovals removeFails entries s removed)
  | [], s, removed, h, _, _ => by
    have hnothing : upTo maxRemovals removed.length (due env now []) = [] := by
      unfold upTo due
      cases maxRemovals <;> simp
    refine ⟨?_, fun _ => ?_, ⟨[], ?_, .refl h, by simp, by simp [pruneLoop]⟩, rfl, rfl⟩
    · rw [hnothing, List.append_nil]; exact List.prefix_rfl
    · rw [hnothing, List.append_nil]; rfl
    · rw [List.append_nil]; rfl
  | (invocationId, expiresAt) :: rest, s, removed, h, hentries, hnodup => by
    rw [List.map_cons, List.nodup_cons] at hnodup
    obtain ⟨hnot, hnodup'⟩ := hnodup
    have hid : s.expiresAtByInvocation.get invocationId = some expiresAt := hentries _ List.mem_cons_self
    have hrest : ∀ e ∈ rest, s.expiresAtByInvocation.get e.1 = some e.2 :=
      fun e he => hentries e (List.mem_cons_of_mem _ he)
    rw [pruneLoop]
    split
    · rename_i hskip
      obtain ⟨hp, hw, hk, hm, ho⟩ := pruneLoop_spec now maxRemovals removeFails rest s removed h hrest hnodup'
      -- a fresh record is not due, and past the cap nothing is
      have hsame : upTo maxRemovals removed.length (due env now ((invocationId, expiresAt) :: rest)) =
          upTo maxRemovals removed.length (due env now rest) := by
        rcases hskip with hfresh | hcap
        · unfold due
          rw [List.filter_cons_of_neg (by simp; omega)]
        · rw [upTo_capped hcap, upTo_capped hcap]
      exact ⟨by rw [hsame]; exact hp, fun ht => by rw [hsame]; exact hw ht, hk, hm, ho⟩
    · rename_i hgo
      rw [not_or, Bool.not_eq_true] at hgo
      obtain ⟨hexpired, huncapped⟩ := hgo
      have hhead : due env now ((invocationId, expiresAt) :: rest) = env.recordPath invocationId :: due env now rest := by
        unfold due
        rw [List.filter_cons_of_pos (by simp; omega), List.map_cons]
      have hcons := upTo_cons huncapped (env.recordPath invocationId) (due env now rest)
      split
      · refine ⟨⟨_, rfl⟩, fun ht => ?_, ⟨[], ?_, .refl h, by simp, by simp⟩, rfl, rfl⟩
        · cases ht
        · rw [List.append_nil]
      · obtain ⟨old, hold, hkey, hdate⟩ := (h.mirrors.dates invocationId expiresAt).1 hid
        have hfile : readFile s (env.recordPath invocationId) = some old := hold
        have hexists : (s.disk.get (env.recordPath invocationId)).isSome = true := by
          obtain ⟨b, hb, -⟩ := Option.bind_eq_some_iff.1 hfile
          rw [hb]
          rfl
        have hremove := remove_keeps h hid
        have hrest' : ∀ e ∈ rest, (dropIndexedRecord env { s with
            disk := s.disk.erase (env.recordPath invocationId) } invocationId).expiresAtByInvocation.get e.1 = some e.2 := by
          intro e he
          have hne : e.1 ≠ invocationId := by
            intro heq
            refine hnot ?_
            simp only
            rw [← heq]
            exact List.mem_map_of_mem he
          simp only [dropIndexedRecord, OrdMap.get_erase, if_neg hne]
          exact hrest e he
        have hafter : ∀ file, (dropIndexedRecord env { s with
            disk := s.disk.erase (env.recordPath invocationId) } invocationId).disk.get file =
            if file = env.recordPath invocationId then none else s.disk.get file :=
          fun file => OrdMap.get_erase s.disk (env.recordPath invocationId) file
        obtain ⟨hp, hw, ⟨more, hmore, hkeeps, hdue, hread⟩, hm, ho⟩ := pruneLoop_spec now maxRemovals removeFails rest _
          (removed ++ [env.recordPath invocationId]) hremove.indexed hrest' hnodup'
        rw [if_pos hexists]
        have hlist : removed ++ upTo maxRemovals removed.length (due env now ((invocationId, expiresAt) :: rest)) =
            removed ++ [env.recordPath invocationId] ++
              upTo maxRemovals (removed ++ [env.recordPath invocationId]).length (due env now rest) := by
          rw [hhead, hcons, List.length_append, List.length_singleton, List.append_assoc, List.singleton_append]
        refine ⟨by rw [hlist]; exact hp, fun ht => by rw [hlist]; exact hw ht,
          ⟨env.recordPath invocationId :: more, ?_, hremove.trans hkeeps, ?_, ?_⟩, hm, ho⟩
        · rw [hmore, List.append_assoc, List.singleton_append]
        · intro file hf
          rcases List.mem_cons.1 hf with rfl | hlater
          · have hdated : old.expiresAt = expiresAt := hdate
            exact ⟨old, hfile, by omega⟩
          · obtain ⟨r, hr, hlt⟩ := hdue file hlater
            unfold readFile at hr
            rw [hafter] at hr
            split at hr
            · cases hr
            · exact ⟨r, hr, hlt⟩
        · intro file
          rw [hread, hafter]
          by_cases hf : file = env.recordPath invocationId
          · simp [hf]
          · simp [hf]

theorem prune_spec (h : Indexed env s) (now : Int) (maxRemovals : Option Nat) (removeFails : String → Bool) (syncFails : Bool) :
    PruneSpec env now maxRemovals s.expiresAtByInvocation.entries s [] (prune env s now maxRemovals removeFails syncFails).1 :=
  pruneLoop_spec now maxRemovals removeFails _ s [] h (fun _ he => OrdMap.get_of_mem he) s.expiresAtByInvocation.nodup

/-- Unexpired, of version 2, nonterminal, not in the hands of this store, and not another live owner's. -/
def stale (env : Env) (s : Store) (now : Int) (r : Record) : Bool :=
  decide (now < r.expiresAt) && r.version == .v2 && !isTerminal r.state &&
    !(r.ownerId == s.ownerId && (s.activeHandles.get r.invocationId).isSome) &&
    !(r.ownerId != s.ownerId && ownerIsLive env s r.ownerId now)

def recovery (r : Record) : Option Recovery := (messageFromRecord r).map (fun m => ⟨m, r.state⟩)

def fullScan (env : Env) (s : Store) (now : Int) : List Recovery :=
  s.disk.keys.filterMap (fun file => ((readFile s file).filter (stale env s now)).bind recovery)

theorem recoverable_eq (s : Store) (now : Int) (r : Record) :
    recoverable env s now r = ((some r).filter (stale env s now)).bind recovery := by
  have hversion : r.version ≠ .v2 → recovery r = none := by
    intro hv
    unfold recovery messageFromRecord
    rw [if_pos hv]
    rfl
  have hopen : isTerminal r.state = true ↔ (r.state ≠ .accepted ∧ r.state ≠ .queued ∧ r.state ≠ .started) := by
    cases r.state <;> decide
  have hskip : stale env s now r = false → none = ((some r).filter (stale env s now)).bind recovery := by
    intro hst
    rw [Option.filter_some, if_neg (by rw [hst]; simp)]
    rfl
  unfold recoverable
  split
  · rename_i hdone
    refine hskip ?_
    rcases hdone with hexp | hterminal
    · have hlt : ¬ now < r.expiresAt := by omega
      simp [stale, hlt]
    · simp [stale, hopen.2 hterminal]
  rename_i hgo
  rw [not_or, ← hopen] at hgo
  split
  · rename_i hown
    exact hskip (by simp [stale, hown.1, hown.2])
  rename_i hfree
  split
  · rename_i hother
    exact hskip (by simp [stale, hother.1, hother.2])
  rename_i hdead
  by_cases hv : r.version = .v2
  · have hst : stale env s now r = true := by
      have hlt : now < r.expiresAt := by omega
      have hclosed : isTerminal r.state = false := by simpa using hgo.2
      by_cases hown : r.ownerId = s.ownerId
      · have hnone : (s.activeHandles.get r.invocationId).isSome = false := by
          cases ha : (s.activeHandles.get r.invocationId).isSome with
          | false => rfl
          | true => exact absurd ⟨hown, ha⟩ hfree
        simp [stale, hlt, hv, hclosed, hown, hnone]
      · have hnone : ownerIsLive env s r.ownerId now = false := by
          cases ha : ownerIsLive env s r.ownerId now with
          | false => rfl
          | true => exact absurd ⟨hown, ha⟩ hdead
        simp [stale, hlt, hv, hclosed, hown, hnone]
    rw [Option.filter_some, if_pos hst]
    rfl
  · have hst : stale env s now r = false := by simp [stale, hv]
    rw [← hskip hst]
    exact hversion hv

theorem recoverable_world (h : SameWorld s s') (now : Int) (r : Record) :
    recoverable env s' now r = recoverable env s now r := by
  have hlive : ∀ owner, ownerIsLive env s' owner now = ownerIsLive env s owner now := by
    intro owner
    unfold ownerIsLive
    rw [h.leases, h.ownerStaleMs]
  unfold recoverable
  rw [h.ownerId, h.activeHandles, hlive]

theorem SameWorld.readFile {s s' : Store} (h : SameWorld s s') (p : String) : readFile s' p = readFile s p := by
  unfold Receipts.readFile
  rw [h.disk]

theorem SameWorld.trans {s'' : Store} (h : SameWorld s s') (h' : SameWorld s' s'') : SameWorld s s'' :=
  ⟨h'.disk.trans h.disk, h'.ownerId.trans h.ownerId, h'.leases.trans h.leases, h'.ownerStaleMs.trans h.ownerStaleMs,
    h'.activeHandles.trans h.activeHandles, h'.maxReceipts.trans h.maxReceipts⟩

def candidate (env : Env) (s : Store) (now : Int) (invocationId : String) : Option Recovery :=
  (readFile s (env.recordPath invocationId)).bind (recoverable env s now)

theorem recoverLoop_spec (now : Int) : ∀ (ids : List String) (s : Store) (found : List Recovery), Indexed env s →
    (∀ id ∈ ids, ∃ r, readFile s (env.recordPath id) = some r) →
      Indexed env (recoverLoop env now ids s found).1 ∧ SameWorld s (recoverLoop env now ids s found).1 ∧
        (recoverLoop env now ids s found).2 = found ++ ids.filterMap (candidate env s now)
  | [], s, found, h, _ => ⟨h, ⟨rfl, rfl, rfl, rfl, rfl, rfl⟩, by simp [recoverLoop]⟩
  | id :: rest, s, found, h, hids => by
    obtain ⟨r, hr⟩ := hids id List.mem_cons_self
    have hpath : env.recordPath r.invocationId = env.recordPath id := h.mirrors.own _ r hr
    have hindex := index_keeps (r := r) h (by rw [hpath]; exact hr)
    have hworld := indexRecord_world env s r
    have hrest : ∀ id ∈ rest, ∃ x, readFile (indexRecord env s r) (env.recordPath id) = some x := by
      intro j hj
      rw [hworld.readFile]
      exact hids j (List.mem_cons_of_mem _ hj)
    obtain ⟨hi, hw, hfound⟩ := recoverLoop_spec now rest (indexRecord env s r)
      (found ++ (recoverable env (indexRecord env s r) now r).toList) hindex.indexed hrest
    have hcandidate : candidate env (indexRecord env s r) now = candidate env s now := by
      funext j
      unfold candidate
      rw [hworld.readFile]
      rw [show recoverable env (indexRecord env s r) now = recoverable env s now from
        funext (recoverable_world hworld now)]
    have hhead : candidate env s now id = recoverable env (indexRecord env s r) now r := by
      unfold candidate
      rw [hr, recoverable_world hworld]
      rfl
    rw [recoverLoop, hr]
    refine ⟨hi, hworld.trans hw, ?_⟩
    simp only
    rw [hfound, hcandidate, List.append_assoc]
    congr 1
    rw [← hhead]
    cases hc : candidate env s now id with
    | none => rw [List.filterMap_cons_none hc]; rfl
    | some x => rw [List.filterMap_cons_some hc]; rfl

theorem recoverable_some {now : Int} {r : Record} {x : Recovery} (h : recoverable env s now r = some x) :
    isTerminal r.state = false ∧ x.message.invocationId = r.invocationId := by
  rw [recoverable_eq] at h
  obtain ⟨r', hr', hx⟩ := Option.bind_eq_some_iff.1 h
  obtain ⟨heq, hst⟩ := Option.filter_eq_some_iff.1 hr'
  cases heq
  obtain ⟨m, hm, rfl⟩ := Option.map_eq_some_iff.1 hx
  simp only [stale, Bool.and_eq_true, Bool.not_eq_true'] at hst
  exact ⟨hst.1.1.2, (messageFromRecord_some hm).2⟩

/-- **The candidates and the files hold the same stale records.** -/
theorem candidates_perm (h : Indexed env s) (now : Int) :
    (s.nonterminalCandidates.keys.filterMap (candidate env s now)).Perm (fullScan env s now) := by
  have hscan : fullScan env s now = s.disk.keys.filterMap (fun p => (readFile s p).bind (recoverable env s now)) := by
    unfold fullScan
    congr 1
    funext p
    cases readFile s p with
    | none => rfl
    | some r => exact (recoverable_eq s now r).symm
  -- a candidate's file holds the record of that id
  have hheld : ∀ id ∈ s.nonterminalCandidates.keys, ∃ r, readFile s (env.recordPath id) = some r ∧ r.invocationId = id := by
    intro id hid
    obtain ⟨e, he⟩ := h.mirrors.opensDated id hid
    obtain ⟨r, hr, hkey, -⟩ := (h.mirrors.dates id e).1 he
    exact ⟨r, hr, hkey⟩
  have hnamed : s.nonterminalCandidates.keys.filterMap (candidate env s now) =
      s.nonterminalCandidates.keys.filterMap (fun id =>
        (candidate env s now id).filter (fun x => decide (x.message.invocationId = id))) := by
    apply List.filterMap_congr
    intro id hid
    obtain ⟨r, hr, hkey⟩ := hheld id hid
    cases hc : candidate env s now id with
    | none => rfl
    | some x =>
      have hx : recoverable env s now r = some x := by
        unfold candidate at hc
        rw [hr] at hc
        exact hc
      have hid' : x.message.invocationId = id := (recoverable_some hx).2.trans hkey
      rw [Option.filter_some, if_pos (by rw [hid']; exact decide_eq_true rfl)]
  rw [hscan]
  refine (List.perm_ext_iff_of_nodup ?_ ?_).2 (fun x => ?_)
  · rw [hnamed]
    refine s.nonterminalCandidates.nodup.filterMap (fun a b x ha hb => ?_)
    have hxa := (Option.filter_eq_some_iff.1 ha).2
    have hxb := (Option.filter_eq_some_iff.1 hb).2
    rw [decide_eq_true_eq] at hxa hxb
    exact hxa.symm.trans hxb
  · refine s.disk.nodup.filterMap (fun p q x hp hq => ?_)
    obtain ⟨r, hr, hx⟩ := Option.bind_eq_some_iff.1 hp
    obtain ⟨r', hr', hx'⟩ := Option.bind_eq_some_iff.1 hq
    have hsame : r.invocationId = r'.invocationId := (recoverable_some hx).2.symm.trans (recoverable_some hx').2
    have hp' : env.recordPath r.invocationId = p := h.mirrors.own p r hr
    have hq' : env.recordPath r'.invocationId = q := h.mirrors.own q r' hr'
    rw [← hp', ← hq', hsame]
  · rw [List.mem_filterMap, List.mem_filterMap]
    constructor
    · rintro ⟨id, hid, hx⟩
      obtain ⟨r, hr, -⟩ := hheld id hid
      exact ⟨env.recordPath id, Filing.mem_keys_of_at (F := filing env) hr, hx⟩
    · rintro ⟨p, hp, hx⟩
      obtain ⟨r, hr, hrec⟩ := Option.bind_eq_some_iff.1 hx
      have hpath : env.recordPath r.invocationId = p := h.mirrors.own p r hr
      have hopen : (filing env).isOpen r = true := by
        simp only [filing, Bool.not_eq_true']
        exact (recoverable_some hrec).1
      refine ⟨r.invocationId, h.mirrors.opens p r hr hopen, ?_⟩
      unfold candidate
      rw [hpath]
      exact hx

/-- **The periodic recovery reads its index and returns what a full scan would.** -/
theorem staleRecoveries_spec (h : Indexed env s) (now : Int) :
    Keeps env s (staleRecoveries env s now).1 [] ∧ (staleRecoveries env s now).2.Perm (fullScan env s now) := by
  have hids : ∀ id ∈ s.nonterminalCandidates.keys, ∃ r, readFile s (env.recordPath id) = some r := by
    intro id hid
    obtain ⟨e, he⟩ := h.mirrors.opensDated id hid
    obtain ⟨r, hr, -⟩ := (h.mirrors.dates id e).1 he
    exact ⟨r, hr⟩
  obtain ⟨hi, hw, hfound⟩ := recoverLoop_spec now s.nonterminalCandidates.keys s [] h hids
  refine ⟨.ofDisk hi hw.disk, ?_⟩
  unfold staleRecoveries
  simp only
  refine (List.mergeSort_perm _ _).trans ?_
  rw [hfound, List.nil_append]
  exact candidates_perm h now

end Receipts
end Wollipog
