import Wollipog.Receipts.Scan
/-!
# Upkeep — the indexes never drift from the directory

Every call keeps the store indexed (`step_keeps`), so every run does, whatever its writes did and however often the
store is opened anew.
-/
namespace Wollipog
namespace Receipts

open Sys (Run RunOn)

variable {env : Env}

variable {s : Store}

theorem openHandle_keeps (h : Indexed env s) (r : Record) : Keeps env s (openHandle s r).2 [] :=
  .ofDisk (h.same rfl rfl rfl) rfl

theorem heartbeatOwner_keeps (h : Indexed env s) (now : Int) (fault : Fault) :
    Keeps env s (heartbeatOwner env s now fault).1 [] := by
  cases fault with
  | before => exact .refl h
  | after => exact .ofDisk (h.same rfl rfl rfl) rfl
  | ok => exact .ofDisk (h.same rfl rfl rfl) rfl

theorem prune_keeps (h : Indexed env s) (now : Int) (maxRemovals : Option Nat)
    (removeFails : String → Bool) (syncFails : Bool) :
    Keeps env s (prune env s now maxRemovals removeFails syncFails).1.store
      (prune env s now maxRemovals removeFails syncFails).1.removed := by
  obtain ⟨more, hmore, hkeeps, -⟩ := (prune_spec h now maxRemovals removeFails syncFails).keeps
  rw [List.nil_append] at hmore
  rw [hmore]
  exact hkeeps

theorem makeRoom_keeps (h : Indexed env s) (t : Turn) : Keeps env s (makeRoom env s t).1.store (makeRoom env s t).1.removed ∧
      (makeRoom env s t).1.store.ownerId = s.ownerId ∧
      ((makeRoom env s t).2 = .ok true →
        (makeRoom env s t).1.store.disk.size < (makeRoom env s t).1.store.maxReceipts) := by
  have hprune := prune_keeps h t.now none t.removeFails t.syncFails
  have howner := (prune_spec h t.now none t.removeFails t.syncFails).ownerId
  unfold makeRoom
  split
  · rename_i hroom
    refine ⟨.refl h, rfl, fun _ => ?_⟩
    have hsize := h.mirrors.size
    rw [← hsize]
    exact hroom
  · split
    · rename_i p e heq
      rw [heq] at hprune howner
      exact ⟨hprune, howner, fun hok => by cases hok⟩
    · rename_i p n heq
      rw [heq] at hprune howner
      refine ⟨hprune, howner, fun hok => ?_⟩
      simp only [Except.ok.injEq, decide_eq_true_eq] at hok
      have hsize := hprune.indexed.mirrors.size
      rw [← hsize]
      exact hok

variable {file : String} {m : Message} {l : List Obs} {files : List String} {disk : OrdMap String (Option Record)}

theorem makeRoom_absent (h : Indexed env s) (t : Turn) (hn : s.disk.get file = none) :
    (makeRoom env s t).1.store.disk.get file = none := by
  have hpruned : (prune env s t.now none t.removeFails t.syncFails).1.store.disk.get file = none := by
    obtain ⟨more, -, -, -, hdisk⟩ := (prune_spec h t.now none t.removeFails t.syncFails).keeps
    rw [hdisk, hn, ite_self]
  unfold makeRoom
  split
  · exact hn
  · split
    · rename_i p e heq
      rw [heq] at hpruned
      exact hpruned
    · rename_i p n heq
      rw [heq] at hpruned
      exact hpruned

theorem claimNew_keeps (h : Indexed env s) (t : Turn) (hm : Validated m t.now)
    (hn : s.disk.get (env.recordPath m.invocationId) = none) :
    Keeps env s (claimNew env s m t).store (claimNew env s m t).removed := by
  obtain ⟨hroom, howner, hcap⟩ := makeRoom_keeps h t
  have habsent := makeRoom_absent h t hn
  unfold claimNew
  split
  · rename_i p e heq
    rw [heq] at hroom
    exact hroom
  · rename_i p heq
    rw [heq] at hroom
    exact hroom
  · rename_i p heq
    rw [heq] at hroom howner hcap habsent
    have hpublish := publishNew_keeps (r := newRecord s.ownerId t.now m) hroom.indexed (newRecord_valid hm s.ownerId)
      habsent (hcap rfl) t.writeFault
    have hpath : env.recordPath (newRecord s.ownerId t.now m).invocationId = env.recordPath m.invocationId := rfl
    rw [hpath] at hpublish
    simp only
    split
    · rename_i s₁ e hp
      rw [hp] at hpublish
      have hall := hroom.trans hpublish
      rw [List.append_nil] at hall
      exact hall
    · rename_i s₁ hp
      rw [hp] at hpublish
      have hall := (hroom.trans hpublish).trans (openHandle_keeps hpublish.indexed (newRecord s.ownerId t.now m))
      rw [List.append_nil, List.append_nil] at hall
      exact hall

theorem enrich_keeps (h : Indexed env s) {existing : Record} (t : Turn)
    (hm : Validated m t.now) (he : readFile s (env.recordPath m.invocationId) = some existing) :
    Keeps env s (enrich env s existing m t).1 [] := by
  have hpath : env.recordPath existing.invocationId = env.recordPath m.invocationId := h.mirrors.own _ existing he
  have hvalid := enriched_valid (readFile_valid he) hm
  have hold : readFile s (env.recordPath (enriched existing m).invocationId) = some existing := by
    have hsame : (enriched existing m).invocationId = existing.invocationId := rfl
    rw [hsame, hpath]
    exact he
  obtain ⟨hwrite, hindex⟩ := writeAtomic_keeps h hold rfl rfl hvalid (.inl rfl) t.enrichFault
  have hfile : env.recordPath (enriched existing m).invocationId = env.recordPath m.invocationId := hpath
  rw [hfile] at hwrite hindex
  unfold enrich
  split
  · exact .refl h
  · simp only
    split
    · rename_i s₁ e hw
      rw [hw] at hwrite
      exact hwrite
    · rename_i s₁ hw
      rw [hw] at hindex
      exact (hindex rfl).1

theorem claimExisting_keeps (h : Indexed env s) (existing : Record) (m : Message) (t : Turn) :
    Keeps env s (claimExisting env s existing m t).1 [] := by
  unfold claimExisting
  split
  · exact .refl h
  split
  · exact .refl h
  split
  · exact .refl h
  split
  · generalize hpatch : ({ error := some _ } : Patch) = patch
    have hmove := transitionLocked_keeps h existing .uncertain patch true t
    split
    · rename_i s₁ e heq
      rw [heq] at hmove
      exact hmove
    · rename_i s₁ uncertain heq
      rw [heq] at hmove
      exact hmove
  · have hmove := transitionLocked_keeps h existing .accepted {} true t
    split
    · rename_i s₁ e heq
      rw [heq] at hmove
      exact hmove
    · rename_i s₁ reclaimed heq
      rw [heq] at hmove
      exact hmove.trans (openHandle_keeps hmove.indexed reclaimed)

theorem claimLocked_keeps (h : Indexed env s) (t : Turn) (hm : Validated m t.now) :
    Keeps env s (claimLocked env s m t).store (claimLocked env s m t).removed := by
  have hread := read_keeps h m.invocationId
  have hfst := read_fst env s m.invocationId
  have hworld := read_world env s m.invocationId
  unfold claimLocked
  split
  · rename_i s₁ heq
    rw [heq] at hread hworld
    split
    · exact hread
    · rename_i hd
      have habsent : s₁.disk.get (env.recordPath m.invocationId) = none := by simpa using hd
      exact hread.trans (claimNew_keeps hread.indexed t hm habsent)
  · rename_i existing s₁ heq
    rw [heq] at hread hworld hfst
    have hexisting : readFile s₁ (env.recordPath m.invocationId) = some existing := by
      rw [hworld.readFile]
      exact hfst.symm
    split
    · exact hread
    · have henrich := enrich_keeps hread.indexed t hm hexisting
      split
      · rename_i s₂ e he
        rw [he] at henrich
        exact hread.trans henrich
      · rename_i s₂ r he
        rw [he] at henrich
        exact (hread.trans henrich).trans (claimExisting_keeps henrich.indexed r m t)

theorem claim_keeps (h : Indexed env s) (m : Message) (t : Turn) :
    Keeps env s (claim env s m t).store (claim env s m t).removed := by
  unfold claim
  split
  · exact .refl h
  · rename_i hvalid
    have hm := validateMessage_none hvalid
    split
    · exact .refl h
    · have hbeat := heartbeatOwner_keeps h t.beat t.beatFault
      split
      · rename_i s₁ e heq
        rw [heq] at hbeat
        exact hbeat
      · rename_i s₁ heq
        rw [heq] at hbeat
        split
        · exact hbeat
        · exact hbeat
        · exact hbeat.trans (claimLocked_keeps hbeat.indexed t hm)

/-! ## Handles and a new store -/

theorem releaseHandle_keeps (h : Indexed env s) (invocationId : String) (handle : Nat) :
    Keeps env s (releaseHandle s invocationId handle) [] := by
  unfold releaseHandle
  split
  · exact .ofDisk (h.same rfl rfl rfl) rfl
  · exact .refl h

theorem mark_keeps (h : Indexed env s) (handle : Nat) (r : Record) (k : Marker) (t : Turn) :
    Keeps env s (mark env s handle r k t) [] := by
  have hmove := transition_keeps h r k.state k.patch false t
  unfold mark
  split
  · rename_i s₁ e heq
    rw [heq] at hmove
    exact hmove.trans (releaseHandle_keeps hmove.indexed r.invocationId handle)
  · rename_i s₁ next heq
    rw [heq] at hmove
    have hset : Keeps env s₁ { s₁ with handles := s₁.handles.set handle next } [] :=
      .ofDisk (hmove.indexed.same rfl rfl rfl) rfl
    simp only
    split
    · exact (hmove.trans hset).trans (releaseHandle_keeps hset.indexed next.invocationId handle)
    · exact hmove.trans hset

theorem rebuild_catalog (env : Env) (files : List String) : ∀ (s : Store),
    (files.foldl (rebuildFile env) s).catalog = files.foldl ((filing env).scan s.disk) s.catalog ∧
      (files.foldl (rebuildFile env) s).disk = s.disk ∧
      (files.foldl (rebuildFile env) s).maxReceipts = s.maxReceipts := by
  induction files with
  | nil => exact fun s => ⟨rfl, rfl, rfl⟩
  | cons p files ih =>
    intro s
    have hone : (rebuildFile env s p).catalog = (filing env).scan s.disk s.catalog p ∧
        (rebuildFile env s p).disk = s.disk ∧ (rebuildFile env s p).maxReceipts = s.maxReceipts := by
      unfold rebuildFile Filing.scan
      simp only
      have hat : readFile { s with knownRecordFiles := s.knownRecordFiles.set p () } p = (filing env).at_ s.disk p := rfl
      rw [hat]
      cases (filing env).at_ s.disk p with
      | none => exact ⟨rfl, rfl, rfl⟩
      | some r => exact ⟨indexRecord_catalog _ r, rfl, rfl⟩
    obtain ⟨hc, hd, hm⟩ := ih (rebuildFile env s p)
    rw [List.foldl_cons, List.foldl_cons]
    rw [hone.1, hone.2.1] at hc
    exact ⟨hc, hd.trans hone.2.1, hm.trans hone.2.2⟩

structure Journal (env : Env) (disk : OrdMap String (Option Record)) (maxReceipts : Nat) : Prop where
  own : (filing env).Own disk
  cap : disk.size ≤ maxReceipts

theorem listing_mem (h : listing disk files = true) : ∀ p, p ∈ files ↔ p ∈ disk.keys := by
  simp only [listing, Bool.and_eq_true, List.all_eq_true, decide_eq_true_eq] at h
  exact fun p => ⟨h.1 p, h.2 p⟩

theorem rebuild_indexed (h : Journal env s.disk s.maxReceipts)
    (hl : listing s.disk files = true) : Indexed env (rebuildRecordIndex env s files) ∧
      (rebuildRecordIndex env s files).disk = s.disk := by
  obtain ⟨hc, hd, hm⟩ := rebuild_catalog env files { s with
    knownRecordFiles := .empty, expiresAtByInvocation := .empty, nonterminalCandidates := .empty }
  refine ⟨⟨?_, ?_⟩, hd⟩
  · unfold rebuildRecordIndex
    rw [hc, hd]
    exact Filing.mirrors_rebuild h.own (listing_mem hl)
  · unfold rebuildRecordIndex
    rw [hd, hm]
    exact h.cap

theorem Indexed.journal (h : Indexed env s) : Journal env s.disk s.maxReceipts := ⟨h.mirrors.own, h.cap⟩

theorem openStore_indexed {ownerId : String} {maxReceipts : Nat} {ownerStaleMs : Int} {leases : OrdMap String Lease} {now : Int}
    (h : Journal env disk maxReceipts) (hl : listing disk files = true) :
    Indexed env (openStore env ownerId maxReceipts ownerStaleMs disk leases files now) ∧
      (openStore env ownerId maxReceipts ownerStaleMs disk leases files now).disk = disk := by
  generalize hs : ({ ownerId, maxReceipts, ownerStaleMs, disk, leases
                     knownRecordFiles := .empty, expiresAtByInvocation := .empty, nonterminalCandidates := .empty
                     handles := [], activeHandles := .empty } : Store) = s
  have hdisk : s.disk = disk := by rw [← hs]
  have hmax : s.maxReceipts = maxReceipts := by rw [← hs]
  obtain ⟨hi, hd⟩ := rebuild_indexed (s := s) (by rw [hdisk, hmax]; exact h) (by rw [hdisk]; exact hl)
  unfold openStore
  rw [hs]
  exact ⟨hi.same rfl rfl rfl, hd.trans hdisk⟩

/-- **Every call keeps the indexes.** -/
theorem step_keeps {s s' : Store} {e : Event} {o : List Obs} (h : Indexed env s) (hst : step env s e = some (s', o)) :
    ∃ removed, o = removed.map .removed ∧ Keeps env s s' removed := by
  cases e with
  | heartbeat now fault =>
    cases hst
    exact ⟨[], rfl, heartbeatOwner_keeps h now fault⟩
  | claim m t =>
    cases hst
    exact ⟨_, rfl, claim_keeps h m t⟩
  | transition prior state patch take t =>
    cases hst
    exact ⟨[], rfl, transition_keeps h prior state patch take t⟩
  | mark handle k t =>
    obtain ⟨r, -, heq⟩ := Option.map_eq_some_iff.1 hst
    cases heq
    exact ⟨[], rfl, mark_keeps h handle r k t⟩
  | prune now maxRemovals removeFails syncFails =>
    cases hst
    exact ⟨_, rfl, prune_keeps h now maxRemovals removeFails syncFails⟩
  | staleRecoveries now =>
    cases hst
    exact ⟨[], rfl, (staleRecoveries_spec h now).1⟩
  | read invocationId =>
    cases hst
    exact ⟨[], rfl, read_keeps h invocationId⟩
  | recentUpdates files =>
    simp only [step] at hst
    split at hst
    · rename_i hl
      cases hst
      obtain ⟨hi, hd⟩ := rebuild_indexed h.journal hl
      exact ⟨[], rfl, .ofDisk hi hd⟩
    · cases hst
  | reopen ownerId files now =>
    simp only [step] at hst
    split at hst
    · rename_i hl
      cases hst
      obtain ⟨hi, hd⟩ := openStore_indexed h.journal hl
      exact ⟨[], rfl, .ofDisk hi hd⟩
    · cases hst

theorem run_indexed {s s' : Store} (h : Indexed env s) (hrun : Run (step env) s l s') : Indexed env s' :=
  hrun.inv (Indexed env) (fun _ _ _ _ hst hi => by
    obtain ⟨removed, -, hkeeps⟩ := step_keeps hi hst
    exact hkeeps.indexed) h

/-- **A terminal record stays in its state** until its file is removed. -/
theorem run_terminal {s s' : Store} (h : Indexed env s) (hrun : Run (step env) s l s')
    {r : Record} (hr : readFile s file = some r) (ht : isTerminal r.state = true) :
    .removed file ∉ l → ∃ r', readFile s' file = some r' ∧ r'.state = r.state := by
  have hboth : Indexed env s' ∧ (.removed file ∉ l → ∃ r', readFile s' file = some r' ∧ r'.state = r.state) := by
    refine hrun.hist (fun l u => Indexed env u ∧
      (.removed file ∉ l → ∃ r', readFile u file = some r' ∧ r'.state = r.state)) ⟨h, fun _ => ⟨r, hr, rfl⟩⟩ ?_
    intro l u e v o ih _ hst
    obtain ⟨hi, hstay⟩ := ih
    obtain ⟨removed, rfl, hkeeps⟩ := step_keeps hi hst
    refine ⟨hkeeps.indexed, fun hnot => ?_⟩
    rw [List.mem_append, not_or] at hnot
    obtain ⟨r', hr', hsame⟩ := hstay hnot.1
    have hkept : file ∉ removed := fun hmem => hnot.2 (List.mem_map_of_mem hmem)
    obtain ⟨r'', hr'', hsame'⟩ := hkeeps.terminal file r' hr' (by rw [hsame]; exact ht) hkept
    exact ⟨r'', hr'', hsame'.trans hsame⟩
  exact hboth.2

/-- What `prune` does to a store: it removes expired records in the order of the expiry map. -/
structure Prunes (env : Env) (s : Store) (now : Int) (maxRemovals : Option Nat) (p : Pruned) : Prop where
  order : p.removed <+: upTo maxRemovals 0 (due env now s.expiresAtByInvocation.entries)
  whole : p.threw = false → p.removed = upTo maxRemovals 0 (due env now s.expiresAtByInvocation.entries)
  expired : ∀ file ∈ p.removed, ∃ r, readFile s file = some r ∧ r.expiresAt < now
  others : ∀ file, p.store.disk.get file = if file ∈ p.removed then none else s.disk.get file

/-- **The in-memory indexes and what is read from them.** -/
structure Upheld (env : Env) (s : Store) : Prop where
  known : ∀ file, file ∈ s.knownRecordFiles.keys ↔ file ∈ s.disk.keys
  own : ∀ file r, readFile s file = some r → env.recordPath r.invocationId = file
  expiry : ∀ id e, s.expiresAtByInvocation.get id = some e ↔
    ∃ r, readFile s (env.recordPath id) = some r ∧ r.invocationId = id ∧ r.expiresAt = e
  candidates : ∀ file r, readFile s file = some r → isTerminal r.state = false →
    r.invocationId ∈ s.nonterminalCandidates.keys
  cap : s.disk.size ≤ s.maxReceipts
  recoveries : ∀ now, (staleRecoveries env s now).2.Perm (fullScan env s now)
  prunes : ∀ now maxRemovals removeFails syncFails,
    Prunes env s now maxRemovals (prune env s now maxRemovals removeFails syncFails).1
  terminal : ∀ l s', Run (step env) s l s' → ∀ file r, readFile s file = some r → isTerminal r.state = true →
    .removed file ∉ l → ∃ r', readFile s' file = some r' ∧ r'.state = r.state

theorem Indexed.upheld (h : Indexed env s) : Upheld env s := by
  refine ⟨h.mirrors.known, h.mirrors.own, h.mirrors.dates, ?_, h.cap, fun now => (staleRecoveries_spec h now).2, ?_, ?_⟩
  · intro file r hr hopen
    refine h.mirrors.opens file r hr ?_
    simp only [filing, Bool.not_eq_true']
    exact hopen
  · intro now maxRemovals removeFails syncFails
    obtain ⟨hfirst, hwhole, ⟨more, hmore, -, hexpired, hothers⟩, -, -⟩ :=
      prune_spec h now maxRemovals removeFails syncFails
    rw [List.nil_append] at hmore hfirst
    refine ⟨hfirst, fun ht => ?_, ?_, ?_⟩
    · have hall := hwhole ht
      rwa [List.nil_append] at hall
    · rw [hmore]; exact hexpired
    · rw [hmore]; exact hothers
  · intro l s' hrun file r hr ht
    exact run_terminal h hrun hr ht

/-- **The indexes never drift**: whatever the writes of a run did, and however often the store was opened anew. -/
theorem indexes_upheld {ownerId : String} {maxReceipts : Nat} {ownerStaleMs : Int}
    {disk : OrdMap String (Option Record)} {leases : OrdMap String Lease} {files : List String} {now : Int}
    {l : List Obs} {s : Store} (hj : Journal env disk maxReceipts) (hl : listing disk files = true)
    (h : Run (step env) (openStore env ownerId maxReceipts ownerStaleMs disk leases files now) l s) : Upheld env s :=
  (run_indexed (openStore_indexed hj hl).1 h).upheld

def zeros : String := "0000000000000000000000000000000000000000000000000000000000000000"

def sampleEnv : Env := ⟨id, id, fun _ => zeros, fun a b => decide (a ≤ b)⟩

def sampleMessage (invocationId : String) (expiresAt : Int) : Message where
  requestId := "q"
  invocationId := invocationId
  submissionId := "s"
  payloadDigest := zeros
  expiresAt := expiresAt
  sessionId := "t"
  providerCommandId := "p"
  catalogRevision := "c"
  expectedExecutionMode := .passthrough
  argumentText := ""

def sampleTurn (now : Int) (writeFault : Fault) : Turn :=
  ⟨now, now, now, .taken, .ok, .ok, writeFault, fun _ => false, false⟩

def sampleStart : Store := openStore sampleEnv "o" 2 60000 .empty .empty [] 0

/-- The second write throws with its file in place; the store is opened anew over a listing in another order. -/
def sampleEvents : List Event :=
  [.claim (sampleMessage "a" 30) (sampleTurn 10 .ok), .claim (sampleMessage "b" 100) (sampleTurn 20 .after),
    .mark 0 .completed (sampleTurn 25 .after), .reopen "n" ["b", "a"] 26]

theorem sample_journal : Journal sampleEnv .empty 2 := by
  refine ⟨fun _ _ h => ?_, Nat.zero_le 2⟩
  cases h

theorem indexes_upheld_sample : ∃ s, s.knownRecordFiles.keys = ["b", "a"] ∧
    (readFile s "a").map (fun r => r.state) = some .completed ∧ Upheld sampleEnv s := by
  have hshown : (Sys.replay (step sampleEnv) sampleStart sampleEvents).map (fun r =>
      (r.1.knownRecordFiles.keys, (readFile r.1 "a").map (fun r => r.state))) =
        some (["b", "a"], some .completed) := by
    decide +kernel
  obtain ⟨⟨s, l⟩, hreplay, heq⟩ := Option.map_eq_some_iff.1 hshown
  simp only [Prod.mk.injEq] at heq
  exact ⟨s, heq.1, heq.2, indexes_upheld sample_journal rfl (Sys.replay_run _ _ _ _ hreplay)⟩

/-- A handle whose marker could not be written is released; its record is this store's own. -/
def releasedEvents : List Event :=
  [.claim (sampleMessage "a" 100) (sampleTurn 10 .ok), .mark 0 .queued (sampleTurn 11 .before)]

/-- One prune takes the later of two expired records, and a leased record is handed back. -/
theorem prune_and_recovery_differ : (∃ s l, Run (step sampleEnv) sampleStart l s ∧
      (prune sampleEnv s 200 (some 1) (fun _ => false) false).1.removed = ["b"] ∧
      ∃ older newer, readFile s "a" = some older ∧ readFile s "b" = some newer ∧
        older.createdAt < newer.createdAt ∧ older.expiresAt < newer.expiresAt ∧ older.expiresAt < 200) ∧
    ∃ s l, Run (step sampleEnv) sampleStart l s ∧
      ∃ x ∈ (staleRecoveries sampleEnv s 20).2, ∃ r, readFile s x.message.invocationId = some r ∧
        ownerIsLive sampleEnv s r.ownerId 20 = true := by
  refine ⟨?_, ?_⟩
  · have hshown : (Sys.replay (step sampleEnv) sampleStart sampleEvents).map (fun r =>
        ((prune sampleEnv r.1 200 (some 1) (fun _ => false) false).1.removed,
          (readFile r.1 "a").map (fun x => (x.createdAt, x.expiresAt)),
          (readFile r.1 "b").map (fun x => (x.createdAt, x.expiresAt)))) =
          some (["b"], some (10, 30), some (20, 100)) := by
      decide +kernel
    obtain ⟨⟨s, l⟩, hreplay, heq⟩ := Option.map_eq_some_iff.1 hshown
    simp only [Prod.mk.injEq] at heq
    obtain ⟨hremoved, hold, hnew⟩ := heq
    obtain ⟨older, ha, heqa⟩ := Option.map_eq_some_iff.1 hold
    obtain ⟨newer, hb, heqb⟩ := Option.map_eq_some_iff.1 hnew
    simp only [Prod.mk.injEq] at heqa heqb
    refine ⟨s, l, Sys.replay_run _ _ _ _ hreplay, hremoved, older, newer, ha, hb, ?_, ?_, ?_⟩
    · omega
    · omega
    · omega
  · have hshown : (Sys.replay (step sampleEnv) sampleStart releasedEvents).map (fun r =>
        ((staleRecoveries sampleEnv r.1 20).2.map (fun x => x.message.invocationId),
          (readFile r.1 "a").map (fun x => ownerIsLive sampleEnv r.1 x.ownerId 20))) =
          some (["a"], some true) := by
      decide +kernel
    obtain ⟨⟨s, l⟩, hreplay, heq⟩ := Option.map_eq_some_iff.1 hshown
    simp only [Prod.mk.injEq] at heq
    obtain ⟨hrecovered, hlive⟩ := heq
    obtain ⟨r, hr, hlease⟩ := Option.map_eq_some_iff.1 hlive
    have hmem : "a" ∈ (staleRecoveries sampleEnv s 20).2.map (fun x => x.message.invocationId) := by
      rw [hrecovered]
      exact List.mem_singleton.2 rfl
    obtain ⟨x, hx, hid⟩ := List.mem_map.1 hmem
    exact ⟨s, l, Sys.replay_run _ _ _ _ hreplay, x, hx, r, by rw [hid]; exact hr, hlease⟩

end Receipts
end Wollipog
