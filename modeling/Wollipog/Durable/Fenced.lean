import Wollipog.Durable.Store
import Wollipog.Lib.Fencing
/-!
# Fenced — the journal refines versioned cells under tokens

A record is a cell whose version is its revision, a handle a token at the revision it last read; as long as no claim
creates the record of a command again, the register's theorems are the journal's.
-/
namespace Wollipog
namespace Durable

open Sys
open Fencing (Reg Ev Move Discipline)

/-! ## What a locked section does -/

/-- `transitionLocked` wrote nothing, or continued the record it read. -/
inductive Transitioned (self : String) (j : Journal) (prior : Record) (state : State) (take : Bool) :
    Locked Record → Prop
  | threw (e : String) : Transitioned self j prior state take ⟨j, none, .error e⟩
  | wrote (current next : Record) (result : Except String Record) (hread : read j prior.commandId = some current)
      (continues : Continues self prior current next take) (hstate : next.state = state)
      (hresult : result = .ok next ∨ ∃ e, result = .error e) :
      Transitioned self j prior state take ⟨j.set next.commandId (.valid next), some (current, next), result⟩

theorem transitionLocked_spec (self : String) (now : Int) (j : Journal) (prior : Record) (state : State)
    (patch : Patch) (take : Bool) (fault : Fault) :
    Transitioned self j prior state take (transitionLocked self now j prior state patch take fault) := by
  unfold transitionLocked
  cases hr : read j prior.commandId with
  | none => exact .threw _
  | some current =>
    cases hn : transitionNext self now current prior state patch take with
    | error e => simp only [hn]; exact .threw e
    | ok next =>
      obtain ⟨hc, hs⟩ := transitionNext_ok hn
      simp only [hn]
      cases fault with
      | before => exact .threw _
      | after => exact .wrote current next _ hr hc hs (.inr ⟨_, rfl⟩)
      | ok => exact .wrote current next _ hr hc hs (.inl rfl)

/-- The recovery wrote nothing, or returned the command to the queue. -/
inductive Recovered (self : String) (j : Journal) (prior : Record) : Locked (Option Record) → Prop
  | kept (result : Except String (Option Record)) (none : ∀ r, result ≠ .ok (some r)) :
      Recovered self j prior ⟨j, .none, result⟩
  | wrote (current next : Record) (result : Except String (Option Record))
      (hread : read j prior.commandId = some current) (continues : Continues self current current next false)
      (hstate : next.state = .queued) (revision : current.revision = prior.revision ∨
        (current.revision = prior.revision + 1 ∧ current.state = .started))
      (hresult : result = .ok (some next) ∨ ∃ e, result = .error e) :
      Recovered self j prior ⟨j.set next.commandId (.valid next), some (current, next), result⟩

theorem recoverLocked_spec (self : String) (now : Int) (j : Journal) (prior : Record) (fault : Fault) :
    Recovered self j prior (recoverLocked self now j prior fault) := by
  unfold recoverLocked
  cases hr : read j prior.commandId with
  | none => exact .kept _ (fun r h => by cases h)
  | some current =>
    simp only
    split
    · exact .kept _ (fun r h => by cases h)
    rename_i hsame
    split
    · exact .kept _ (fun r h => by cases h)
    rename_i hpub
    have hid : current.commandId = prior.commandId := by
      simp only [not_or, Classical.not_not] at hsame
      exact hsame.2.2.2.2.2.1
    have hrev : current.revision = prior.revision ∨
        (current.revision = prior.revision + 1 ∧ current.state = .started) := by
      rcases Decidable.em (current.revision = prior.revision) with h | h
      · exact .inl h
      rcases Decidable.em (current.revision = prior.revision + 1 ∧ current.state = .started) with h' | h'
      · exact .inr h'
      refine absurd ?_ hpub
      have hf : (decide (current.revision = prior.revision + 1) && current.state == .started) = false := by
        simpa using h'
      rw [decide_eq_false h, hf]
      rfl
    have hs := transitionLocked_spec self now j current .queued { steeringPending := some false } false fault
    generalize transitionLocked self now j current .queued { steeringPending := some false } false fault = r at hs ⊢
    cases hs with
    | threw e => exact .kept _ (fun r h => by cases h)
    | wrote c next result hread continues hstate hresult =>
      rw [hid, hr, Option.some.injEq] at hread
      subst hread
      refine .wrote current next _ hr continues hstate hrev ?_
      rcases hresult with rfl | ⟨e, rfl⟩
      · exact .inl rfl
      · exact .inr ⟨e, rfl⟩

theorem transition_spec (self : String) (now : Int) (j : Journal) (prior : Record) (state : State) (patch : Patch)
    (how : How Fault) : Transitioned self j prior state false (transition self now j prior state patch how) := by
  cases how with
  | busy => exact .threw _
  | runs fault => exact transitionLocked_spec _ _ _ _ _ _ _ _

theorem recoverUnsubmittedSteering_spec (self : String) (now : Int) (j : Journal) (prior : Record) (how : How Fault) :
    Recovered self j prior (recoverUnsubmittedSteering self now j prior how) := by
  cases how with
  | busy => exact .kept _ (fun r hr => by cases hr)
  | runs fault => exact recoverLocked_spec _ _ _ _ _

def OwnFiles (j : Journal) : Prop := ∀ id r, read j id = some r → r.commandId = id

theorem read_set (j : Journal) (id k : String) (r : Record) :
    read (j.set id (.valid r)) k = if k = id then some r else read j k := by
  unfold read
  rw [OrdMap.get_set]
  by_cases hk : k = id
  · rw [if_pos hk, if_pos hk]
  · rw [if_neg hk, if_neg hk]

theorem read_erase (j : Journal) (id k : String) : read (j.erase id) k = if k = id then none else read j k := by
  unfold read
  rw [OrdMap.get_erase]
  by_cases hk : k = id
  · rw [if_pos hk, if_pos hk]
  · rw [if_neg hk, if_neg hk]

theorem OwnFiles.set {j : Journal} (h : OwnFiles j) (r : Record) : OwnFiles (j.set r.commandId (.valid r)) := by
  intro id x hx
  rw [read_set] at hx
  split at hx
  · rename_i hid
    cases hx
    exact hid.symm
  · exact h id x hx

theorem OwnFiles.erase {j : Journal} (h : OwnFiles j) (id : String) : OwnFiles (j.erase id) := by
  intro k x hx
  rw [read_erase] at hx
  split at hx
  · cases hx
  · exact h k x hx

theorem OwnFiles.removeFiles : ∀ (ids : List String) {j : Journal}, OwnFiles j → OwnFiles (removeFiles j ids)
  | [], _, h => h
  | id :: ids, _, h => OwnFiles.removeFiles ids (h.erase id)

/-- The ids are of files with records that expired before `now`. -/
def Outdated (now : Int) (j : Journal) (ids : List String) : Prop :=
  ∀ id ∈ ids, ∃ r, read j id = some r ∧ r.expiresAt < now

/-- The section of a claim: it wrote nothing, created an absent record, or took over a live one. -/
inductive Sectioned (self : String) (now : Int) (j : Journal) (m : Message) : Section → Prop
  | kept (ids : List String) (answer : Except String Claim) (outdated : Outdated now j ids) :
      Sectioned self now j m ⟨removeFiles j ids, ids, none, none, answer⟩
  | created (ids : List String) (record : Record) (opens : Option Record) (answer : Except String Claim)
      (outdated : Outdated now j ids) (absent : j.get m.commandId = none) (commandId : record.commandId = m.commandId)
      (expiresAt : record.expiresAt = m.expiresAt) (hopens : opens = none ∨ opens = some record) :
      Sectioned self now j m ⟨(removeFiles j ids).set record.commandId (.valid record), ids, some (none, record), opens,
        answer⟩
  | took (current next : Record) (opens : Option Record) (answer : Except String Claim)
      (hread : read j m.commandId = some current) (continues : Continues self current current next true)
      (live : isTerminal current.state = false)
      (hstate : next.state = .uncertain ∨ (next.state = .accepted ∧ current.state ≠ .started))
      (hopens : opens = none ∨ opens = some next) :
      Sectioned self now j m ⟨j.set next.commandId (.valid next), [], some (some current, next), opens, answer⟩

theorem Outdated.nil (now : Int) (j : Journal) : Outdated now j [] := fun _ h => by cases h

variable {a : Obs} {cur next r : Record} {me : String} {ids : List String} {opens : Option Record} {H' : OrdMap Nat Handle}

theorem Outdated.not_mem {now : Int} {j : Journal} (h : Outdated now j ids) {id : String}
    (absent : j.get id = none) : id ∉ ids := by
  intro hid
  obtain ⟨r, hr, -⟩ := h id hid
  unfold read at hr
  rw [absent] at hr
  cases hr

theorem pruned_outdated (j : Journal) (now : Int) (cut : Option Nat) : Outdated now j (pruned j now cut) := by
  have hkeys : Outdated now j (j.filter (fun _ e => expired now e)).keys := by
    intro id hid
    obtain ⟨e, he⟩ := OrdMap.mem_keys_iff.1 hid
    rw [OrdMap.get_filter, Option.filter_eq_some_iff] at he
    obtain ⟨hg, hexp⟩ := he
    cases e with
    | valid r => exact ⟨r, by simp only [read, hg], of_decide_eq_true hexp⟩
    | malformed => cases hexp
  unfold pruned
  cases cut with
  | none => exact hkeys
  | some k => exact fun id h => hkeys id (List.mem_of_mem_take h)

theorem createRecord_spec (self : String) (now : Int) (j : Journal) (m : Message) (ids : List String)
    (outdated : Outdated now j ids) (record : Record) (fault : Fault) (absent : j.get m.commandId = none)
    (commandId : record.commandId = m.commandId) (expiresAt : record.expiresAt = m.expiresAt) :
    Sectioned self now j m (createRecord (removeFiles j ids) ids record fault) := by
  cases fault with
  | before => exact .kept ids _ outdated
  | after => exact .created ids record _ _ outdated absent commandId expiresAt (.inl rfl)
  | ok => exact .created ids record _ _ outdated absent commandId expiresAt (.inr rfl)

theorem takeOver_spec (self : String) (now clock : Int) {j : Journal} (own : OwnFiles j) (m : Message) {existing : Record}
    (hread : read j m.commandId = some existing) (live : isTerminal existing.state = false) (e : String)
    (fault : Fault) : Sectioned self now j m (takeOver self clock j existing e fault) := by
  have hid : existing.commandId = m.commandId := own _ _ hread
  have kept : ∀ err, Sectioned self now j m ⟨j, [], none, none, .error err⟩ :=
    fun err => .kept [] (.error err) (.nil now j)
  unfold takeOver
  split
  · have hs := transitionLocked_spec self clock j existing .uncertain { error := some e } true fault
    generalize transitionLocked self clock j existing .uncertain { error := some e } true fault = r at hs ⊢
    cases hs with
    | threw err => exact kept err
    | wrote c next result hr continues hstate hresult =>
      rw [hid, hread, Option.some.injEq] at hr
      subst hr
      exact .took existing next _ _ hread continues live (.inl hstate) (.inl rfl)
  · rename_i hne
    have hs := transitionLocked_spec self clock j existing .accepted {} true fault
    generalize transitionLocked self clock j existing .accepted {} true fault = r at hs ⊢
    cases hs with
    | threw err => exact kept err
    | wrote c next result hr continues hstate hresult =>
      rw [hid, hread, Option.some.injEq] at hr
      subst hr
      refine .took existing next _ _ hread continues live (.inr ⟨hstate, hne⟩) ?_
      rcases hresult with rfl | ⟨err, rfl⟩
      · exact .inr rfl
      · exact .inl rfl

theorem claimLocked_spec (env : Env) (self : Owner) (ownerIsLive : String → Bool) (now clock : Int) {j : Journal}
    (own : OwnFiles j) (m : Message) (fault : ClaimFault) :
    Sectioned self.ownerId now j m (claimLocked env self ownerIsLive now clock j m fault) := by
  have answered : ∀ c, Sectioned self.ownerId now j m (answer j c) := fun c => .kept [] (.ok c) (.nil now j)
  unfold claimLocked
  cases hread : read j m.commandId with
  | none =>
    simp only
    split
    · exact answered _
    rename_i hfile
    have absent : j.get m.commandId = none := by
      cases hg : j.get m.commandId with
      | none => rfl
      | some e => rw [hg] at hfile; exact absurd rfl hfile
    split
    · exact createRecord_spec self.ownerId now j m [] (.nil now j) _ _ absent rfl rfl
    split
    · exact .kept _ _ (pruned_outdated j now _)
    split
    · exact createRecord_spec self.ownerId now j m _ (pruned_outdated j now _) _ _ absent rfl rfl
    · exact .kept _ _ (pruned_outdated j now _)
  | some existing =>
    simp only
    split
    · exact answered _
    split
    · exact answered _
    rename_i hlive
    have live : isTerminal existing.state = false := by simpa using hlive
    split
    · split
      · exact answered _
      · exact takeOver_spec _ now clock own m hread live _ _
    · split
      · exact answered _
      · exact takeOver_spec _ now clock own m hread live _ _

/-! ## The register -/

def discipline : Discipline State where
  terminal s := isTerminal s = true
  exclusive s := s = .started
  allowed s t := transitionAllowed s t = true ∨ (s = .started ∧ t = .queued)
  disjoint s h := by rintro rfl; cases h
  final s t h := by
    rintro (ha | ⟨rfl, -⟩)
    · exact transitionAllowed_terminal h ha
    · cases h

def Record.version (r : Record) : Nat × State := (r.revision, r.state)

def reg (l : List Obs) (j : Journal) (H : OrdMap Nat Handle) (n : Nat) : Reg String State where
  cell id := (read j id).map Record.version
  token h := (H.get h).map (fun x => (x.record.commandId, x.record.revision))
  next := n
  gone id := Obs.removed id ∈ l

def World.reg (l : List Obs) (w : World) : Reg String State := Durable.reg l w.journal w.handles w.nextHandle

def Obs.ev : Obs → Ev String State
  | .created _ o r => .create r.commandId o r.version
  | .wrote (.claim _ o) prev next => .take next.commandId o prev.version next.version
  | .wrote (.handle h) prev next => .write next.commandId h prev.version next.version
  | .removed id => .remove id
  | _ => .quiet

variable {l : List Obs} {j : Journal} {H : OrdMap Nat Handle} {n : Nat}

theorem gone_append (h : ∀ id, a ≠ .removed id) (j' : Journal) (H' : OrdMap Nat Handle) (n' : Nat) :
    (reg (l ++ [a]) j' H' n').gone = (reg l j H n).gone := by
  funext id
  have hne : Obs.removed id ≠ a := fun heq => h id heq.symm
  simp only [reg, List.mem_append, List.mem_singleton, hne, or_false]

theorem cell_set (r : Record) (H' : OrdMap Nat Handle) (l' : List Obs) (n' : Nat) :
    (reg l' (j.set r.commandId (.valid r)) H' n').cell =
      Function.update (reg l j H n).cell r.commandId (some r.version) := by
  funext id
  simp only [reg, read_set, Function.update_apply]
  split <;> rfl

theorem token_set (h : Nat) (x : Handle) (l' : List Obs) (j' : Journal) (n' : Nat) : (reg l' j' (H.set h x) n').token =
      Function.update (reg l j H n).token h (some (x.record.commandId, x.record.revision)) := by
  funext i
  simp only [reg, OrdMap.get_set, Function.update_apply]
  split <;> rfl

theorem quiet_move (ha : a.ev = .quiet) (hsub : ∀ h x, H'.get h = some x → H.get h = some x) :
    Move discipline (reg l j H n) a.ev (reg (l ++ [a]) j H' n) := by
  rw [ha]
  refine .quiet rfl rfl (gone_append (fun id heq => ?_) _ _ _) (fun h x hx => ?_)
  · rw [heq] at ha
    cases ha
  · simp only [reg, Option.map_eq_some_iff] at hx ⊢
    obtain ⟨y, hy, rfl⟩ := hx
    exact ⟨y, hsub h y hy, rfl⟩

theorem remove_move (id : String) :
    Move discipline (reg l j H n) (Obs.removed id).ev (reg (l ++ [.removed id]) (j.erase id) H n) := by
  refine .remove id ?_ rfl rfl ?_
  · funext k
    simp only [reg, read_erase, Function.update_apply]
    split <;> rfl
  · funext k
    simp only [reg, List.mem_append, List.mem_singleton, Obs.removed.injEq, Function.update_apply]
    split <;> simp [*]

theorem removed_trace : ∀ (ids : List String) (l : List Obs) (j : Journal),
    Trace (Move discipline) (reg l j H n) ((ids.map Obs.removed).map Obs.ev)
      (reg (l ++ ids.map Obs.removed) (removeFiles j ids) H n)
  | [], l, j => by
    rw [List.map_nil, List.append_nil]
    exact .nil
  | id :: ids, l, j => by
    have h1 : Trace (Move discipline) (reg l j H n) [(Obs.removed id).ev] (reg (l ++ [.removed id]) (j.erase id) H n) :=
      .single (remove_move id)
    have h2 := h1.append (removed_trace ids (l ++ [.removed id]) (j.erase id))
    rwa [List.append_assoc] at h2

/-- The handles after a section: those before, and the new one when the write opened it. -/
def opened (H : OrdMap Nat Handle) (n p : Nat) : Option Record → OrdMap Nat Handle × Nat
  | none => (H, n)
  | some r => (H.set n ⟨p, r⟩, n + 1)

theorem granted_opened (h : opens = none ∨ opens = some r) (p : Nat) (a : Obs)
    (j' : Journal) : Fencing.Granted r.commandId r.version.1 (opens.map (fun _ => n)) (reg l j H n)
      (reg (l ++ [a]) j' (opened H n p opens).1 (opened H n p opens).2) := by
  rcases h with rfl | rfl
  · exact .inl ⟨rfl, rfl, rfl⟩
  · exact .inr ⟨rfl, token_set n ⟨p, r⟩ _ _ _, rfl⟩

theorem get_removeFiles_none {id : String} :
    ∀ (ids : List String) {j : Journal}, j.get id = none → (removeFiles j ids).get id = none
  | [], _, h => h
  | k :: ids, j, h => by
    refine get_removeFiles_none ids (j := j.erase k) ?_
    rw [OrdMap.get_erase, h, ite_self]

theorem quiet_last {t : Reg String State} {o : List Obs} (ha : a.ev = .quiet)
    (h : Trace (Move discipline) t (o.map Obs.ev) (reg (l ++ o) j H n)) :
    Trace (Move discipline) t ((o ++ [a]).map Obs.ev) (reg (l ++ (o ++ [a])) j H n) := by
  rw [List.map_append, ← List.append_assoc]
  exact h.append (.single (quiet_move ha (fun _ _ hx => hx)))

theorem created_trace (absent : j.get r.commandId = none)
    (others : r.commandId ∉ ids) (never : Obs.removed r.commandId ∉ l) (hopens : opens = none ∨ opens = some r) (p : Nat) :
    Trace (Move discipline) (reg l j H n)
      ((ids.map Obs.removed ++ [Obs.created p (opens.map (fun _ => n)) r]).map Obs.ev)
      (reg (l ++ (ids.map Obs.removed ++ [Obs.created p (opens.map (fun _ => n)) r]))
        ((removeFiles j ids).set r.commandId (.valid r)) (opened H n p opens).1 (opened H n p opens).2) := by
  rw [List.map_append, ← List.append_assoc]
  refine (removed_trace ids l j).append (.single ?_)
  have hnone : (reg (l ++ ids.map Obs.removed) (removeFiles j ids) H n).cell r.commandId = none := by
    simp only [reg, read, get_removeFiles_none ids absent, Option.map_none]
  have hgone : ¬ (reg (l ++ ids.map Obs.removed) (removeFiles j ids) H n).gone r.commandId := by
    simp only [reg, List.mem_append, List.mem_map, Obs.removed.injEq, exists_eq_right, not_or]
    exact ⟨never, others⟩
  exact .create r.commandId _ _ hnone hgone (cell_set r _ _ _) (granted_opened hopens p _ _)
    (gone_append (fun id h => by cases h) _ _ _)

theorem took_move (hread : read j next.commandId = some cur)
    (continues : Continues me cur cur next true) (live : isTerminal cur.state = false)
    (hstate : next.state = .uncertain ∨ (next.state = .accepted ∧ cur.state ≠ .started))
    (hopens : opens = none ∨ opens = some next) (p : Nat) :
    Move discipline (reg l j H n) (Obs.wrote (.claim p (opens.map (fun _ => n))) cur next).ev
      (reg (l ++ [.wrote (.claim p (opens.map (fun _ => n))) cur next]) (j.set next.commandId (.valid next))
        (opened H n p opens).1 (opened H n p opens).2) := by
  have hcell : (reg l j H n).cell next.commandId = some cur.version := by
    simp only [reg, hread, Option.map_some]
  have hlive : ¬ discipline.terminal cur.version.2 := by
    intro ht
    have : isTerminal cur.state = true := ht
    rw [live] at this
    cases this
  have hsettles : discipline.exclusive cur.version.2 → discipline.terminal next.version.2 := by
    intro hex
    rcases hstate with hs | ⟨-, hne⟩
    · exact congrArg isTerminal hs
    · exact absurd hex hne
  have hfree : ¬ discipline.exclusive next.version.2 := by
    intro hex
    have hstarted : next.state = .started := hex
    rcases hstate with hs | ⟨hs, -⟩
    · rw [hs] at hstarted
      cases hstarted
    · rw [hs] at hstarted
      cases hstarted
  exact .take next.commandId _ _ _ hcell continues.revision hlive hsettles hfree (cell_set next _ _ _)
    (granted_opened hopens p _ _) (gone_append (fun id h => by cases h) _ _ _)

theorem wrote_move {prior : Record} {h : Nat} {x : Handle} (hx : H.get h = some x)
    (hread : read j next.commandId = some cur) (hid : x.record.commandId = next.commandId)
    (continues : Continues me prior cur next false)
    (may : x.record.revision = cur.revision ∨
      (x.record.revision + 1 = cur.revision ∧ cur.state = .started ∧ next.state ≠ .started)) (hhs : H' = H ∨ H' = H.set h { x with record := next }) :
    Move discipline (reg l j H n) (Obs.wrote (.handle h) cur next).ev
      (reg (l ++ [.wrote (.handle h) cur next]) (j.set next.commandId (.valid next)) H' n) := by
  have hcell : (reg l j H n).cell next.commandId = some cur.version := by
    simp only [reg, hread, Option.map_some]
  have hallowed : discipline.allowed cur.version.2 next.version.2 := by
    rcases continues.moves with ha | ⟨ht, -⟩ | ⟨-, hst, hq⟩
    · exact .inl ha
    · cases ht
    · exact .inr ⟨hst, hq⟩
  have hholds : (reg l j H n).token h = some (next.commandId, x.record.revision) := by
    simp only [reg, hx, Option.map_some, hid]
  refine .write next.commandId h x.record.revision _ _ hcell continues.revision hallowed hholds may (cell_set next _ _ _)
    ?_ rfl (gone_append (fun id h => by cases h) _ _ _)
  rcases hhs with rfl | rfl
  · exact .inl rfl
  · exact .inr (token_set h _ _ _ _)

end Durable
end Wollipog
