import Wollipog.Lib.Run
import Wollipog.Receipts.Store
/-!
# Indexed — every call leaves the three indexes in agreement with the directory

`Indexed` is the agreement, with the bound on the number of files; `Keeps` is what a call does.
-/
namespace Wollipog
namespace Receipts

variable {env : Env}

def filing (env : Env) : Filing String String Int Record (Option Record) where
  key r := r.invocationId
  path := env.recordPath
  date r := r.expiresAt
  isOpen r := !isTerminal r.state
  read content := content.filter validRecord

def Store.catalog (s : Store) : Catalog String String Int :=
  ⟨s.knownRecordFiles, s.expiresAtByInvocation, s.nonterminalCandidates⟩

structure Indexed (env : Env) (s : Store) : Prop where
  mirrors : (filing env).Mirrors s.disk s.catalog
  cap : s.disk.size ≤ s.maxReceipts

structure Keeps (env : Env) (s s' : Store) (removed : List String) : Prop where
  indexed : Indexed env s'
  terminal : ∀ p r, readFile s p = some r → isTerminal r.state = true → p ∉ removed →
    ∃ r', readFile s' p = some r' ∧ r'.state = r.state

variable {s : Store}

variable {old r : Record} {invocationId : String}

theorem readFile_valid {p : String} (h : readFile s p = some r) : validRecord r = true := by
  obtain ⟨b, -, hb⟩ := Option.bind_eq_some_iff.1 h
  exact (Option.filter_eq_some_iff.1 hb).2

theorem Keeps.refl (h : Indexed env s) : Keeps env s s [] := ⟨h, fun _ r hr _ _ => ⟨r, hr, rfl⟩⟩

theorem Keeps.trans {s₁ s₂ s₃ : Store} {l m : List String} (h : Keeps env s₁ s₂ l) (h' : Keeps env s₂ s₃ m) :
    Keeps env s₁ s₃ (l ++ m) := by
  refine ⟨h'.indexed, fun p r hr ht hp => ?_⟩
  rw [List.mem_append, not_or] at hp
  obtain ⟨r', hr', hst⟩ := h.terminal p r hr ht hp.1
  obtain ⟨r'', hr'', hst'⟩ := h'.terminal p r' hr' (by rw [hst]; exact ht) hp.2
  exact ⟨r'', hr'', hst'.trans hst⟩

theorem Keeps.ofDisk {s s' : Store} (hi : Indexed env s') (hd : s'.disk = s.disk) : Keeps env s s' [] := by
  refine ⟨hi, fun p r hr _ _ => ⟨r, ?_, rfl⟩⟩
  unfold readFile at hr ⊢
  rw [hd]
  exact hr

theorem Indexed.same {s s' : Store} (h : Indexed env s) (hd : s'.disk = s.disk) (hc : s'.catalog = s.catalog)
    (hm : s'.maxReceipts = s.maxReceipts) : Indexed env s' := by
  refine ⟨?_, ?_⟩
  · rw [hd, hc]; exact h.mirrors
  · rw [hd, hm]; exact h.cap

theorem indexRecord_catalog (s : Store) (r : Record) : (indexRecord env s r).catalog = (filing env).index s.catalog r := by
  unfold indexRecord Filing.index Store.catalog filing
  cases ht : isTerminal r.state <;> simp [ht]

theorem index_keeps (h : Indexed env s) (hr : readFile s (env.recordPath r.invocationId) = some r) :
    Keeps env s (indexRecord env s r) [] := by
  refine .ofDisk ⟨?_, h.cap⟩ rfl
  rw [indexRecord_catalog]
  exact h.mirrors.refresh hr

theorem drop_keeps (h : Indexed env s)
    (hn : s.disk.get (env.recordPath invocationId) = none) : Keeps env s (dropIndexedRecord env s invocationId) [] :=
  .ofDisk ⟨h.mirrors.missing hn, h.cap⟩ rfl

theorem read_valid (env : Env) (hvalid : validRecord r = true) : (filing env).read (some r) = some r := by
  simp [filing, Option.filter, hvalid]

theorem readFile_writeFile (env : Env) (s : Store) (hvalid : validRecord r = true) (p : String) :
    readFile (writeFile s (env.recordPath r.invocationId) r) p =
      if p = env.recordPath r.invocationId then some r else readFile s p := by
  have hset := Filing.at_set (F := filing env) s.disk (env.recordPath r.invocationId) p (some r)
  rw [read_valid env hvalid] at hset
  exact hset

/-- **A write over a record**, whether or not it is indexed after. -/
theorem write_keeps (h : Indexed env s)
    (hold : readFile s (env.recordPath r.invocationId) = some old) (hid : old.invocationId = r.invocationId)
    (hexp : old.expiresAt = r.expiresAt) (hvalid : validRecord r = true)
    (hst : r.state = old.state ∨ isTerminal old.state = false) :
    Keeps env s (writeFile s (env.recordPath r.invocationId) r) [] ∧
      readFile (writeFile s (env.recordPath r.invocationId) r) (env.recordPath r.invocationId) = some r := by
  have hread := read_valid env hvalid
  have hopen : isTerminal r.state = false → isTerminal old.state = false := by
    rcases hst with heq | hfalse
    · intro hr; rw [← heq]; exact hr
    · intro _; exact hfalse
  have hcont : (filing env).Continues s.disk r :=
    ⟨old, hold, hid, hexp, fun hr => by
      simp only [filing, Bool.not_eq_true'] at hr ⊢
      exact hopen hr⟩
  have hmirrors := h.mirrors.rewrite hread hcont
  have hafter := readFile_writeFile env s hvalid
  refine ⟨⟨⟨hmirrors, ?_⟩, fun p x hx ht _ => ?_⟩, ?_⟩
  · have hmem : (s.disk.get (env.recordPath r.invocationId)).isSome := by
      obtain ⟨b, hb, -⟩ := Option.bind_eq_some_iff.1 hold
      rw [hb]
      rfl
    have hsize := OrdMap.size_set s.disk (env.recordPath r.invocationId) (some r)
    rw [if_pos hmem] at hsize
    have hcap := h.cap
    simp only [writeFile, hsize]
    exact hcap
  · rw [hafter]
    by_cases hp : p = env.recordPath r.invocationId
    · rw [if_pos hp]
      rw [hp, hold] at hx
      cases hx
      rcases hst with heq | hfalse
      · exact ⟨r, rfl, heq⟩
      · rw [hfalse] at ht; cases ht
    · rw [if_neg hp]
      exact ⟨x, hx, rfl⟩
  · rw [hafter, if_pos rfl]

theorem writeAtomic_keeps (h : Indexed env s)
    (hold : readFile s (env.recordPath r.invocationId) = some old) (hid : old.invocationId = r.invocationId)
    (hexp : old.expiresAt = r.expiresAt) (hvalid : validRecord r = true)
    (hst : r.state = old.state ∨ isTerminal old.state = false) (fault : Fault) :
    Keeps env s (writeAtomic s (env.recordPath r.invocationId) r fault).1 [] ∧
      ((writeAtomic s (env.recordPath r.invocationId) r fault).2 = .ok () →
        Keeps env s (indexRecord env (writeAtomic s (env.recordPath r.invocationId) r fault).1 r) [] ∧
          readFile (writeAtomic s (env.recordPath r.invocationId) r fault).1 (env.recordPath r.invocationId) = some r) := by
  obtain ⟨hkeeps, hread⟩ := write_keeps h hold hid hexp hvalid hst
  have hindexed := hkeeps.trans (index_keeps hkeeps.indexed hread)
  cases fault with
  | before => exact ⟨.refl h, fun hok => by cases hok⟩
  | after => exact ⟨hkeeps, fun hok => by cases hok⟩
  | ok => exact ⟨hkeeps, fun _ => ⟨hindexed, hread⟩⟩

/-- **A new file**, with the repair that follows whatever the write did. -/
theorem publishNew_keeps (h : Indexed env s) (hvalid : validRecord r = true)
    (hnew : s.disk.get (env.recordPath r.invocationId) = none) (hroom : s.disk.size < s.maxReceipts) (fault : Fault) :
    Keeps env s (publishNew env s (env.recordPath r.invocationId) r fault).1 [] := by
  have hread := read_valid env hvalid
  have hafter := readFile_writeFile env s hvalid
  have hnone : readFile s (env.recordPath r.invocationId) = none := by unfold readFile; rw [hnew]; rfl
  have hsize := OrdMap.size_set s.disk (env.recordPath r.invocationId) (some r)
  rw [hnew, Option.isSome_none, if_neg (by simp)] at hsize
  have hwritten : Keeps env s (indexRecord env (writeFile s (env.recordPath r.invocationId) r) r) [] := by
    refine ⟨⟨?_, ?_⟩, fun p x hx _ _ => ⟨x, ?_, rfl⟩⟩
    · rw [indexRecord_catalog]
      exact h.mirrors.publish hread hnew
    · simp only [indexRecord, writeFile, hsize]
      omega
    · have hp : p ≠ env.recordPath r.invocationId := by
        rintro rfl
        rw [hnone] at hx
        cases hx
      have hother := hafter p
      rw [if_neg hp] at hother
      exact hother.trans hx
  have hself := hafter (env.recordPath r.invocationId)
  rw [if_pos rfl] at hself
  unfold publishNew
  cases fault with
  | before => simp only [writeAtomic, hnone]; exact .refl h
  | after => simp only [writeAtomic, hself]; exact hwritten
  | ok => simp only [writeAtomic, hself]; exact hwritten

theorem read_keeps (h : Indexed env s) (invocationId : String) : Keeps env s (read env s invocationId).2 [] := by
  unfold read
  split
  · rename_i r hr
    have hpath : env.recordPath r.invocationId = env.recordPath invocationId := h.mirrors.own _ r hr
    refine index_keeps h ?_
    rw [hpath]
    exact hr
  · simp only
    split
    · exact .refl h
    · rename_i hd
      exact drop_keeps h (by simpa using hd)

/-- What `read` leaves as it was. -/
structure SameWorld (s s' : Store) : Prop where
  disk : s'.disk = s.disk
  ownerId : s'.ownerId = s.ownerId
  leases : s'.leases = s.leases
  ownerStaleMs : s'.ownerStaleMs = s.ownerStaleMs
  activeHandles : s'.activeHandles = s.activeHandles
  maxReceipts : s'.maxReceipts = s.maxReceipts

theorem indexRecord_world (env : Env) (s : Store) (r : Record) : SameWorld s (indexRecord env s r) := ⟨rfl, rfl, rfl, rfl, rfl, rfl⟩

theorem read_world (env : Env) (s : Store) (invocationId : String) : SameWorld s (read env s invocationId).2 := by
  unfold read
  split
  · exact indexRecord_world env s _
  · simp only
    split <;> exact ⟨rfl, rfl, rfl, rfl, rfl, rfl⟩

theorem read_fst (env : Env) (s : Store) (invocationId : String) :
    (read env s invocationId).1 = readFile s (env.recordPath invocationId) := by
  unfold read
  split
  · rename_i hr; exact hr.symm
  · rename_i hr; exact hr.symm

theorem read_some (h : Indexed env s) (hr : (read env s invocationId).1 = some r) :
    readFile (read env s invocationId).2 (env.recordPath r.invocationId) = some r := by
  rw [read_fst] at hr
  have hown : env.recordPath r.invocationId = env.recordPath invocationId := h.mirrors.own _ r hr
  have hworld := read_world env s invocationId
  unfold readFile at hr ⊢
  rw [hworld.disk, hown]
  exact hr

theorem transitionLocked_keeps (h : Indexed env s) (prior : Record) (state : State) (patch : Patch)
    (take : Bool) (t : Turn) : Keeps env s (transitionLocked env s prior state patch take t).1 [] := by
  have hread := read_keeps h prior.invocationId
  unfold transitionLocked
  split
  · rename_i s₁ heq
    rw [heq] at hread
    exact hread
  · rename_i current s₁ heq
    have hcurrent : readFile s₁ (env.recordPath current.invocationId) = some current := by
      have hfst : (read env s prior.invocationId).1 = some current := by rw [heq]
      have hsome := read_some h hfst
      rw [heq] at hsome
      exact hsome
    rw [heq] at hread
    split
    · exact hread
    · rename_i next hnext
      have hfollows := transitionNext_ok hnext
      have hvalid := hfollows.valid (readFile_valid hcurrent)
      have hold : readFile s₁ (env.recordPath next.invocationId) = some current := by
        rw [hfollows.invocationId]; exact hcurrent
      obtain ⟨hwrite, hindex⟩ := writeAtomic_keeps hread.indexed hold hfollows.invocationId.symm
        hfollows.expiresAt.symm hvalid (.inr hfollows.from_) t.writeFault
      split
      · rename_i s₂ e hw
        rw [hw] at hwrite
        exact hread.trans hwrite
      · rename_i s₂ hw
        rw [hw] at hindex
        exact hread.trans (hindex rfl).1

theorem transition_keeps (h : Indexed env s) (prior : Record) (state : State) (patch : Patch) (take : Bool)
    (t : Turn) : Keeps env s (transition env s prior state patch take t).1 [] := by
  unfold transition
  split
  · exact .refl h
  · exact .refl h
  · exact transitionLocked_keeps h prior state patch take t

end Receipts
end Wollipog
