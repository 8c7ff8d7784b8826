import Wollipog.Ledger.Run
import Wollipog.Lib.Spelled
/-!
# Armed — no mutation holds an armed merge

What holds a merge through a prerequisite is read off the prerequisite's signature entry (`hold_of_entry`), so a mutation
that adds no entry adds no hold.
-/
namespace Wollipog.Ledger

open Authority
open Scope (sortBy)

def repositoryChar (c : Char) : Bool := slugChar c || Regex.anyOf "/:" c

variable {stale : Bool} {c d : Char} {h : Hooks} {r s : String} {a b ref : CampaignPullRequestRef}
  {p q : CampaignMergePrerequisite}

theorem slugChar_repositoryChar (h : slugChar c = true) : repositoryChar c = true := by
  unfold repositoryChar
  rw [h]
  rfl

theorem alphanum_repositoryChar (h : c.isAlphanum = true) : repositoryChar c = true := by
  apply slugChar_repositoryChar
  unfold slugChar
  rw [h]
  rfl

theorem eq_repositoryChar (hd : repositoryChar d = true) (h : (c == d) = true) : repositoryChar c = true := by
  rw [beq_iff_eq] at h
  rw [h]
  exact hd

theorem githubRepository_spelled (h : githubRepository.test r = true) : ∀ c ∈ r.toList, repositoryChar c = true := by
  refine Regex.test_spelled (p := fun c => repositoryChar c = true) ?_ h
  have hslug : ∀ c, slugChar c = true → repositoryChar c = true := fun _ => slugChar_repositoryChar
  have hslash : ∀ c, (c == '/') = true → repositoryChar c = true := fun _ => eq_repositoryChar (by decide)
  exact ⟨⟨⟨hslug, trivial⟩, hslug⟩, ⟨hslash, trivial⟩, ⟨⟨hslug, trivial⟩, hslug⟩, trivial⟩

theorem hostChar_repositoryChar (h : (c.isAlphanum || c == '-') = true) : repositoryChar c = true := by
  rcases Bool.or_eq_true_iff.1 h with h | h
  · exact alphanum_repositoryChar h
  · exact eq_repositoryChar (by decide) h

theorem upTo_spelled {p : Char → Prop} {r : Regex} (h : r.Spelled p) : ∀ n, (Regex.upTo n r).Spelled p
  | 0 => trivial
  | n + 1 => ⟨trivial, h, upTo_spelled h n⟩

theorem hostLabel_spelled : hostLabel.Spelled (fun c => repositoryChar c = true) := by
  have halpha : ∀ c : Char, c.isAlphanum = true → repositoryChar c = true := fun _ => alphanum_repositoryChar
  have hchars : (Regex.cls (fun c => c.isAlphanum || c == '-')).Spelled (fun c => repositoryChar c = true) :=
    fun _ => hostChar_repositoryChar
  exact ⟨halpha, ⟨upTo_spelled hchars 61, halpha⟩, trivial⟩

theorem hostName_spelled (h : hostName s = true) : ∀ c ∈ s.toList, repositoryChar c = true := by
  intro c hc
  unfold hostName at h
  simp only [Bool.and_eq_true, List.all_eq_true] at h
  rcases Js.mem_splitAt (q := (· == '.')) hc with hdot | ⟨part, hpart, hc⟩
  · exact eq_repositoryChar (by decide) hdot
  · apply Regex.test_spelled hostLabel_spelled (h.2 part hpart)
    rw [String.toList_ofList]
    exact hc

theorem hostPort_spelled {host : String} {port : Option Nat} (h : hostPort host = some port) :
    ∀ c ∈ host.toList, repositoryChar c = true := by
  intro c hc
  rcases Js.mem_splitAt (q := (· == ':')) hc with hcolon | ⟨part, hpart, hc⟩
  · exact eq_repositoryChar (by decide) hcolon
  · unfold hostPort at h
    split at h
    · rename_i name hsplit
      rw [hsplit, List.mem_singleton] at hpart
      subst hpart
      split at h
      · rename_i hname
        apply hostName_spelled hname
        rw [String.toList_ofList]
        exact hc
      · cases h
    · rename_i name digits hsplit
      split at h
      · rename_i hall
        simp only [Bool.and_eq_true] at hall
        obtain ⟨⟨⟨hname, -⟩, -⟩, hdigits⟩ := hall
        rw [hsplit, List.mem_cons, List.mem_singleton] at hpart
        rcases hpart with rfl | rfl
        · apply hostName_spelled hname
          rw [String.toList_ofList]
          exact hc
        · apply alphanum_repositoryChar
          unfold Char.isAlphanum
          rw [List.all_eq_true.1 hdigits c hc, Bool.or_true]
      · cases h
    · cases h

theorem gitlabPathSegment_spelled (h : gitlabPathSegment s = true) : ∀ c ∈ s.toList, repositoryChar c = true := by
  unfold gitlabPathSegment at h
  rw [Bool.and_eq_true] at h
  have hslug : ∀ c, slugChar c = true → repositoryChar c = true := fun _ => slugChar_repositoryChar
  have hword : ∀ c, Regex.isWord c = true → repositoryChar c = true := by
    intro c hc
    unfold Regex.isWord at hc
    rcases Bool.or_eq_true_iff.1 hc with hc | hc
    · exact alphanum_repositoryChar hc
    · exact eq_repositoryChar (by decide) hc
  refine Regex.test_spelled (p := fun c => repositoryChar c = true) ?_ h.1
  exact ⟨hword, hslug⟩

/-- **An accepted repository** has no other characters. -/
theorem location_spelled (h : (campaignRepositoryLocation r).isSome = true) : ∀ c ∈ r.toList, repositoryChar c = true := by
  unfold campaignRepositoryLocation at h
  split at h
  · cases h
  · split at h
    · rename_i hgithub
      exact githubRepository_spelled hgithub
    · intro c hc
      rcases Js.mem_splitAt (q := (· == '/')) hc with hslash | ⟨part, hpart, hc⟩
      · exact eq_repositoryChar (by decide) hslash
      · split at h
        · cases h
        · rename_i host path hparts
          have hin : String.ofList part ∈ host :: path := by
            rw [← hparts]
            exact List.mem_map.2 ⟨part, hpart, rfl⟩
          split at h
          · cases h
          · rename_i port hport
            split at h
            · cases h
            · split at h
              · cases h
              · split at h
                · cases h
                · split at h
                  · rename_i hpath
                    rcases List.mem_cons.1 hin with hhost | hsegment
                    · apply hostPort_spelled hport
                      rw [← hhost, String.toList_ofList]
                      exact hc
                    · apply gitlabPathSegment_spelled (List.all_eq_true.1 hpath _ hsegment)
                      rw [String.toList_ofList]
                      exact hc
                  · cases h

/-! ## Keys and entries -/

theorem lower_notMem (h : (campaignRepositoryLocation r).isSome = true) (hd : repositoryChar d = false) :
    d ∉ (Js.lower r).toList := by
  intro hin
  rw [location_spelled (Scope.location_lower h) d hin] at hd
  cases hd

theorem number_spelled {n : Int} (hc : c ∈ (toString n).toList) : c.isDigit = true ∨ c = '-' := by
  have hdigits : ∀ m : Nat, c ∈ Nat.toDigits 10 m → c.isDigit = true := fun m h =>
    Nat.isDigit_of_mem_toDigits (by decide) (by decide) h
  cases n with
  | ofNat m =>
    have htext : toString (Int.ofNat m) = Nat.repr m := rfl
    rw [htext, Nat.repr, String.toList_ofList] at hc
    exact .inl (hdigits m hc)
  | negSucc m =>
    have htext : toString (Int.negSucc m) = "-" ++ Nat.repr (m + 1) := rfl
    rw [htext, String.toList_append, List.mem_append, Nat.repr] at hc
    rcases hc with hc | hc
    · exact .inr (List.mem_singleton.1 hc)
    · rw [String.toList_ofList] at hc
      exact .inl (hdigits (m + 1) hc)

theorem number_notMem (n : Int) (hd : d.isDigit = false) (hminus : d ≠ '-') : d ∉ (toString n).toList := by
  intro hin
  rcases number_spelled hin with h | h
  · rw [hd] at h
    cases h
  · exact hminus h

theorem forgeRefKeyOf_toList (ref : CampaignPullRequestRef) :
    (forgeRefKeyOf ref).toList = (Js.lower ref.repository).toList ++ '#' :: (toString ref.number).toList := by
  unfold forgeRefKeyOf refKey
  rw [String.toList_append, String.toList_append, List.append_assoc]
  rfl

/-- **A key tells the repository**, up to case. -/
theorem lower_of_key (ha : (campaignRepositoryLocation a.repository).isSome = true) (h : forgeRefKeyOf a = forgeRefKeyOf b) :
    Js.lower a.repository = Js.lower b.repository := by
  have hlist := congrArg String.toList h
  rw [forgeRefKeyOf_toList, forgeRefKeyOf_toList,
    List.append_cons_inj_of_notMem (lower_notMem ha (by decide)) (number_notMem a.number (by decide) (by decide))] at hlist
  exact String.toList_inj.1 hlist.1

theorem forgeRefKeyOf_notMem (h : (campaignRepositoryLocation ref.repository).isSome = true) :
    '|' ∉ (forgeRefKeyOf ref).toList := by
  rw [forgeRefKeyOf_toList, List.mem_append, List.mem_cons]
  rintro (hin | hin | hin)
  · exact lower_notMem h (by decide) hin
  · revert hin
    decide
  · exact number_notMem ref.number (by decide) (by decide) hin

/-- What the rules read about a stored item: its id is one the store made, and its pull requests are located. -/
structure Told (p : CampaignMergePrerequisite) : Prop where
  id : ∃ uuid, p.id = newId "cwi_" uuid
  located : ∀ q ∈ p.pullRequests, (campaignRepositoryLocation q.ref.repository).isSome = true

theorem Told.id_notMem (hp : Told p) : '|' ∉ p.id.toList := by
  obtain ⟨uuid, hid⟩ := hp.id
  have hhex := List.all_eq_true.1 uuid.property.2
  intro hin
  unfold newId at hid
  rw [hid, String.toList_append, List.mem_append] at hin
  rcases hin with hin | hin
  · revert hin
    decide
  · have := hhex '|' hin
    revert this
    decide

theorem text_notMem (commitment : CommitmentState) : '|' ∉ commitment.text.toList := by
  cases commitment with
  | committed => decide
  | cancelled => decide
  | scopeRemoved => decide

theorem text_inj {a b : CommitmentState} (h : a.text = b.text) : a = b := by
  revert h
  cases a <;> cases b <;> decide

def keysOf (p : CampaignMergePrerequisite) : List String := p.pullRequests.map (fun q => forgeRefKeyOf q.ref)

/-- **An entry tells everything that can hold**: the item, its commitment and the keys it names. -/
theorem signatureEntry_inj (hp : Told p) (hq : Told q) (h : signatureEntry p = signatureEntry q) :
    p.id = q.id ∧ p.commitment = q.commitment ∧ ∀ key, key ∈ keysOf p ↔ key ∈ keysOf q := by
  have hsplit : ∀ {r : CampaignMergePrerequisite}, Told r → ((signatureEntry r).toList.splitOn '|') =
      (r.id :: r.commitment.text :: sortTexts (keysOf r)).map String.toList := by
    intro r hr
    unfold signatureEntry
    have hbar : ("|" : String).toList = ['|'] := rfl
    rw [String.toList_intercalate, hbar]
    refine List.splitOn_intercalate '|' ?_ (List.cons_ne_nil _ _)
    intro l hl
    obtain ⟨text, htext, rfl⟩ := List.mem_map.1 hl
    rcases List.mem_cons.1 htext with rfl | htext
    · exact hr.id_notMem
    · rcases List.mem_cons.1 htext with rfl | htext
      · exact text_notMem _
      · unfold sortTexts at htext
        rw [Scope.mem_sortBy] at htext
        obtain ⟨pr, hpr, rfl⟩ := List.mem_map.1 htext
        exact forgeRefKeyOf_notMem (hr.located pr hpr)
  have hparts : p.id :: p.commitment.text :: sortTexts (keysOf p) = q.id :: q.commitment.text :: sortTexts (keysOf q) := by
    apply List.map_injective_iff.2 (fun a b => String.toList_inj.1)
    rw [← hsplit hp, ← hsplit hq, h]
  rw [List.cons_eq_cons, List.cons_eq_cons] at hparts
  obtain ⟨hid, htext, hkeys⟩ := hparts
  refine ⟨hid, text_inj htext, fun key => ?_⟩
  have hmem : ∀ {r : CampaignMergePrerequisite}, key ∈ sortTexts (keysOf r) ↔ key ∈ keysOf r := by
    unfold sortTexts
    exact Scope.mem_sortBy
  rw [← hmem, hkeys, hmem]

/-- **When a prerequisite is met.** -/
theorem hold_none_iff : campaignMergeHold p stale = none ↔ p.commitment = .committed ∧ p.pullRequests ≠ [] ∧
      ∀ q ∈ p.pullRequests, q.outside = false ∧ q.fact.freshlyClosed = false ∧ q.fact.met stale = true := by
  unfold campaignMergeHold
  simp only
  split
  · rename_i hcommitment
    constructor
    · intro h
      cases h
    · rintro ⟨hcommitted, -⟩
      exact absurd hcommitted hcommitment
  · rename_i hcommitment
    rw [not_not] at hcommitment
    split
    · rename_i hempty
      constructor
      · intro h
        cases h
      · rintro ⟨-, hne, -⟩
        exact absurd (List.isEmpty_iff.1 hempty) hne
    · rename_i hempty
      have hne : p.pullRequests ≠ [] := fun h => hempty (List.isEmpty_iff.2 h)
      cases houtside : p.pullRequests.find? PrerequisitePullRequest.outside with
      | some q =>
        constructor
        · intro h
          cases h
        · rintro ⟨-, -, hall⟩
          have hq := (hall q (List.mem_of_find?_eq_some houtside)).1
          rw [List.find?_some houtside] at hq
          cases hq
      | none =>
        rw [List.find?_eq_none] at houtside
        simp only
        cases hclosed : p.pullRequests.find? (fun q => q.fact.freshlyClosed) with
        | some q =>
          constructor
          · intro h
            cases h
          · rintro ⟨-, -, hall⟩
            have hq := (hall q (List.mem_of_find?_eq_some hclosed)).2.1
            rw [List.find?_some hclosed] at hq
            cases hq
        | none =>
          rw [List.find?_eq_none] at hclosed
          rw [Option.map_eq_none_iff, List.find?_eq_none]
          constructor
          · intro hmet
            refine ⟨hcommitment, hne, fun q hq => ⟨Bool.eq_false_iff.2 (houtside q hq), Bool.eq_false_iff.2 (hclosed q hq), ?_⟩⟩
            have hq' := hmet q hq
            rw [Bool.not_eq_true', Bool.not_eq_false] at hq'
            exact hq'
          · rintro ⟨-, -, hall⟩ q hq
            rw [(hall q hq).2.2]
            decide

theorem prerequisitePullRequest_congr {c : String} (ha : (campaignRepositoryLocation a.repository).isSome = true)
    (hkey : forgeRefKeyOf a = forgeRefKeyOf b) :
    (prerequisitePullRequest h c a).outside = (prerequisitePullRequest h c b).outside ∧
      (prerequisitePullRequest h c a).fact = (prerequisitePullRequest h c b).fact := by
  unfold prerequisitePullRequest insideCampaign
  rw [lower_of_key ha hkey, hkey]
  split
  · exact ⟨rfl, rfl⟩
  · exact ⟨rfl, rfl⟩

def Read (h : Hooks) (c : String) (p : CampaignMergePrerequisite) : Prop :=
  ∀ q ∈ p.pullRequests, q = prerequisitePullRequest h c q.ref

/-- **A hold is read off the entry**: prerequisites with one entry are met together. -/
theorem hold_of_entry {c : String} (hp : Told p) (hq : Told q)
    (hreadp : Read h c p) (hreadq : Read h c q) (hentry : signatureEntry p = signatureEntry q)
    (hmet : campaignMergeHold p stale = none) : campaignMergeHold q stale = none := by
  obtain ⟨-, hcommitment, hkeys⟩ := signatureEntry_inj hp hq hentry
  obtain ⟨hcommitted, hne, hall⟩ := hold_none_iff.1 hmet
  refine hold_none_iff.2 ⟨hcommitment.symm.trans hcommitted, ?_, fun y hy => ?_⟩
  · intro hempty
    obtain ⟨x, hx⟩ := List.exists_mem_of_ne_nil _ hne
    have hin := (hkeys (forgeRefKeyOf x.ref)).1 (List.mem_map.2 ⟨x, hx, rfl⟩)
    unfold keysOf at hin
    rw [hempty] at hin
    exact absurd hin List.not_mem_nil
  · have hin := (hkeys (forgeRefKeyOf y.ref)).2 (List.mem_map.2 ⟨y, hy, rfl⟩)
    obtain ⟨x, hx, hkey⟩ := List.mem_map.1 hin
    obtain ⟨houtside, hclosed, hfact⟩ := hall x hx
    obtain ⟨hsame, hsame'⟩ := prerequisitePullRequest_congr (h := h) (c := c) (hp.located x hx) hkey
    rw [← hreadp x hx, ← hreadq y hy] at hsame hsame'
    rw [← hsame, ← hsame']
    exact ⟨houtside, hclosed, hfact⟩

section

variable {t u : Tables} {h : Hooks} {c : String}

variable {item : ItemRow} {merge : ArmedMerge} {p : CampaignMergePrerequisite}

theorem mem_prerequisitesForMerge {pullRequest : CampaignPullRequestRef} {workItemId : Option String}
    (hp : p ∈ prerequisitesForMerge t h c pullRequest workItemId) : ∃ id item, t.item c id = some item ∧ p = prerequisiteOf t h c item := by
  obtain ⟨itemId, -, hp⟩ := List.mem_flatMap.1 (First.mem_of_mem_firstBy hp)
  obtain ⟨id, -, hp⟩ := List.mem_filterMap.1 hp
  split at hp
  · unfold prerequisite at hp
    obtain ⟨item, hitem, rfl⟩ := Option.map_eq_some_iff.1 hp
    exact ⟨id, item, hitem, rfl⟩
  · cases hp

theorem namedPullRequests_located (hnamed : Named item) (deliveries : List DeliveryRow) :
    ∀ ref ∈ namedPullRequests item deliveries, (campaignRepositoryLocation ref.repository).isSome = true := by
  intro ref href
  rcases List.mem_append.1 (First.mem_of_mem_firstBy href) with href | href
  · have hstage := First.mem_of_mem_firstBy href
    cases hs : item.stage with
    | none =>
      rw [hs] at hstage
      exact absurd hstage List.not_mem_nil
    | some stage =>
      rw [hs] at hstage
      exact hnamed.located stage hs ref hstage
  · obtain ⟨delivery, -, href⟩ := List.mem_flatMap.1 href
    obtain ⟨pullRequest, -, rfl⟩ := List.mem_map.1 href
    exact pullRequest.located

theorem prerequisiteOf_told (hnamed : Named item) : Told (prerequisiteOf t h c item) := by
  refine ⟨hnamed.id, fun q hq => ?_⟩
  obtain ⟨ref, href, rfl⟩ := List.mem_map.1 hq
  have hsame : (prerequisitePullRequest h c ref).ref = ref := by
    unfold prerequisitePullRequest
    split
    · rfl
    · rfl
  rw [hsame]
  exact namedPullRequests_located hnamed _ ref href

theorem prerequisiteOf_read (item : ItemRow) : Read h c (prerequisiteOf t h c item) := by
  intro q hq
  obtain ⟨ref, -, rfl⟩ := List.mem_map.1 hq
  unfold prerequisitePullRequest
  split
  · rfl
  · rfl

theorem mem_armedPrerequisites (hwf : Wf t) (hp : p ∈ armedPrerequisites t h c merge) : Told p ∧ Read h c p := by
  obtain ⟨id, item, hitem, rfl⟩ := mem_prerequisitesForMerge hp
  exact ⟨prerequisiteOf_told (hwf.named item (item_eq_some hitem).1), prerequisiteOf_read item⟩

/-- **No entry is gained** by a mutation that is not refused. -/
theorem entry_before {merges : OrdMap String ArmedMerge}
    (hnone : armedRefusal u (armedMergeSignatures t h c merges) (armedMergeSignatures u h c merges) = none)
    {occurrenceId : String} (hmerge : (occurrenceId, merge) ∈ merges.entries) {q : CampaignMergePrerequisite}
    (hq : q ∈ armedPrerequisites u h c merge) : ∃ p ∈ armedPrerequisites t h c merge, signatureEntry p = signatureEntry q := by
  have hafter : (occurrenceId, ArmedSignature.mk merge.pullRequest (First.firstBy id ((armedPrerequisites u h c merge).map signatureEntry))) ∈
      (armedMergeSignatures u h c merges).entries := List.mem_map.2 ⟨(occurrenceId, merge), hmerge, rfl⟩
  have hbefore : (armedMergeSignatures t h c merges).get occurrenceId =
      some ⟨merge.pullRequest, First.firstBy id ((armedPrerequisites t h c merge).map signatureEntry)⟩ :=
    OrdMap.get_of_mem (List.mem_map.2 ⟨(occurrenceId, merge), hmerge, rfl⟩)
  unfold armedRefusal at hnone
  have hfind := List.findSome?_eq_none_iff.1 hnone _ hafter
  rw [Option.map_eq_none_iff, List.find?_eq_none] at hfind
  have hentry : signatureEntry q ∈ First.firstBy id ((armedPrerequisites u h c merge).map signatureEntry) := by
    have hin : signatureEntry q ∈ (armedPrerequisites u h c merge).map signatureEntry := List.mem_map.2 ⟨q, hq, rfl⟩
    obtain ⟨y, hy, rfl⟩ : ∃ y ∈ First.firstBy id ((armedPrerequisites u h c merge).map signatureEntry), id y = signatureEntry q :=
      First.exists_firstBy hin
    exact hy
  have hkept := hfind _ hentry
  rw [hbefore] at hkept
  simp only [Option.any_some, Bool.not_eq_true', Bool.not_eq_false, List.contains_eq_mem, decide_eq_true_eq] at hkept
  obtain ⟨p, hp, hsame⟩ := List.mem_map.1 (First.mem_of_mem_firstBy hkept)
  exact ⟨p, hp, hsame⟩

/-- **An armed merge is never held by a mutation**, and a refused mutation leaves every table as it was. -/
theorem armed_unheld (hreach : Reachable t) (k : Call) (r : Request) :
    (∀ a u, mutate k r t = (.ok a, u) → ∀ merge ∈ (k.hooks.armedMerges k.campaignId).entries,
      (∀ p ∈ armedPrerequisites t k.hooks k.campaignId merge.2, campaignMergeHold p true = none) →
        ∀ p ∈ armedPrerequisites u k.hooks k.campaignId merge.2, campaignMergeHold p true = none) ∧
      ∀ e u, mutate k r t = (.error e, u) → u = t := by
  refine ⟨?_, fun e u herror => mutate_error herror⟩
  intro a u hok merge hmerge hmet q hq
  obtain ⟨hwork, hnone⟩ := mutate_ok hok
  have hwf := hreach.wf
  have hwf' : Wf u := (hwork.writes hwf).wf hwf
  obtain ⟨p, hp, hentry⟩ := entry_before hnone hmerge hq
  obtain ⟨htoldp, hreadp⟩ := mem_armedPrerequisites hwf hp
  obtain ⟨htoldq, hreadq⟩ := mem_armedPrerequisites hwf' hq
  exact hold_of_entry htoldp htoldq hreadp hreadq hentry (hmet p hp)

end

/-- A committed item of the campaign `c`. -/
def sampleItem (uuid : Uuid) (key : String) (pullRequests : List CampaignPullRequestRef) : ItemRow where
  id := newId "cwi_" uuid
  campaignSessionId := "c"
  itemKey := key
  title := none
  issue := none
  origin := .original
  generation := 0
  dispatchState := .planned
  queuePosition := none
  commitment := .committed
  commitmentReason := none
  commitmentChangedAt := 0
  commitmentChangedBy := none
  stage := some ⟨.inReview, none, pullRequests, none, 0⟩
  blocker := none
  nextAction := none
  createdBySessionId := none
  createdAt := 0
  updatedAt := 0

def upstream : ItemRow := sampleItem uuid0 "up" [⟨"g/b", 1⟩]

def downstream : ItemRow := sampleItem uuid1 "down" [⟨"g/a", 2⟩]

def sampleTables : Tables :=
  { Tables.empty with
    sessions := OrdMap.empty.set "s" ⟨.idle, false, 0⟩
    items := [upstream, downstream]
    dependencies := [⟨downstream.id, upstream.id⟩]
    attempts := [⟨"catt_", "c", downstream.id, 1, some "s", ⟨none, none, none, none, none⟩, none, 0, ⟨none, none, none⟩, none⟩] }

def sampleMerge : ArmedMerge := ⟨"s", ⟨"g/a", 2⟩⟩

def sampleHooks : Hooks :=
  { quietHooks with
    armedMerges := fun _ => OrdMap.empty.set "o" sampleMerge
    sessionRepository := fun _ s => if s = "s" then some "g/a" else none
    campaignRepositories := fun _ => ["g/a", "g/b"]
    forgePullRequest := fun _ _ => .fresh ⟨.merged, "", none⟩ 0 }

def sampleCall : Call := ⟨sampleHooks, "c", "c", 1, fun _ => uuid2⟩

def retitle : UpdateCampaignWorkItemRequest where
  workItemId := upstream.id
  title := some (some "T")
  issue := none
  dispatchState := none
  queuePosition := none
  dependsOn := none
  commitment := none
  stage := none
  blocker := none
  nextAction := none
  handoff := none
  endAttempt := none

theorem sampleItem_named (uuid : Uuid) (key : String)
    (href : (campaignRepositoryLocation ref.repository).isSome = true) : Named (sampleItem uuid key [ref]) := by
  refine ⟨⟨uuid, rfl⟩, ?_⟩
  intro stage hstage r hr
  cases hstage
  rw [List.mem_singleton] at hr
  subst hr
  exact href

theorem sampleTables_stored : Stored sampleTables := by
  have hnamed : ∀ row ∈ sampleTables.items, Named row := by
    intro row hrow
    rcases List.mem_cons.1 hrow with rfl | hrow
    · exact sampleItem_named _ _ (by decide)
    · rw [List.mem_singleton] at hrow
      subst hrow
      exact sampleItem_named _ _ (by decide)
  refine ⟨⟨by decide, by decide, hnamed, by decide, by decide, by decide, by decide, by decide⟩, ?_⟩
  intro a ha s hs
  rw [show a = _ from List.mem_singleton.1 ha] at hs
  cases hs
  decide

theorem sampleTables_reachable : Reachable (sampleTables.upgraded 0) := by
  refine ⟨sampleTables, 0, [], ⟨sampleTables_stored, ?_, ?_⟩, .nil⟩
  · intro o ho
    exact absurd ho List.not_mem_nil
  · intro id d r hd
    cases hd

theorem armed_unheld_retitled :
    (armedPrerequisites (sampleTables.upgraded 0) sampleHooks "c" sampleMerge).map CampaignMergePrerequisite.id = [upstream.id] ∧
      (mutate sampleCall (.updateItem retitle) (sampleTables.upgraded 0)).1.toOption.isSome = true ∧
      ∀ p ∈ armedPrerequisites (mutate sampleCall (.updateItem retitle) (sampleTables.upgraded 0)).2 sampleHooks "c" sampleMerge,
        campaignMergeHold p true = none := by
  have haccepted : (mutate sampleCall (.updateItem retitle) (sampleTables.upgraded 0)).1.toOption.isSome = true := by decide
  refine ⟨by decide, haccepted, ?_⟩
  cases hrun : mutate sampleCall (.updateItem retitle) (sampleTables.upgraded 0) with
  | mk answer u =>
    cases answer with
    | error e =>
      rw [hrun] at haccepted
      cases haccepted
    | ok a => exact (armed_unheld sampleTables_reachable sampleCall (.updateItem retitle)).1 a u hrun ("o", sampleMerge) (by decide) (by decide)

end Wollipog.Ledger
