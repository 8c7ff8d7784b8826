import Wollipog.Admission.Owned
/-!
# Reach — what holds of a box in every run that heeds

One structure, one preservation lemma for a process put in place of another (`Standing.put`), and the steps by it.
-/
namespace Wollipog
namespace Admission

open Resume

variable {sha256 : String → String}

inductive Runs (sha256 : String → String) (dirs : OrdMap Slot Dir) (box : BoxAdmission) (r : Running) : Prop
  | acquiring (request : AdmissionRequest) (code : Code Grant) (hop : r.operation = .acquiring request code)
      (hwp : wp (careful box.token) (Ended (Leased box request sha256)) code r.mine)
      (hacc : Accounted dirs box.token r.call r.mine)
  | releasing (code : Code Unit) (hop : r.operation = .releasing code)
      (hwp : wp (careless box.token) (fun _ _ => True) code r.mine)

def Whole (sha256 : String → String) (highest : Nat) (lease : Lease) : Prop :=
  ∃ box : BoxAdmission, box.limit ≤ highest ∧ Leased box lease.request sha256 lease.slots

structure Standing (sha256 : String → String) (w : World) : Prop where
  unique : ∀ {pid who call slots pid' who' slots'}, Owns w pid who call slots → Owns w pid' who' call slots' →
    pid = pid' ∧ who = who'
  backed : ∀ {pid who call slots}, Owns w pid who call slots → call < w.calls ∧ Backed w.dirs call slots
  dated : ∀ {s dir}, w.dirs.get s = some dir → dir.call < w.calls
  whole : ∀ {pid sessionId lease}, Holds w pid sessionId lease → Whole sha256 w.highest lease
  limited : ∀ {pid p}, w.live.get pid = some p → p.box.limit ≤ w.highest
  runs : ∀ {pid p r}, w.live.get pid = some p → p.running = some r → Runs sha256 w.dirs p.box r

theorem standing_fresh : Standing sha256 World.fresh where
  unique := by rintro _ _ _ _ _ _ _ ⟨p, hp, -⟩; cases hp
  backed := by rintro _ _ _ _ ⟨p, hp, -⟩; cases hp
  dated := by intro s dir h; cases h
  whole := by rintro _ _ _ ⟨p, hp, -⟩; cases hp
  limited := by intro pid p h; cases h
  runs := by intro pid p r h; cases h

variable {w u : World} {pid : Int} {p p' : Process}

/-- **A slot has one owner.** -/
theorem Standing.disjoint (hI : Standing sha256 w) {pid pid' : Int} {who who' : Option String} {call call' : Nat}
    {slots slots' : List Slot} (h : Owns w pid who call slots) (h' : Owns w pid' who' call' slots') {s : Slot}
    (hs : s ∈ slots) (hs' : s ∈ slots') : pid = pid' ∧ who = who' := by
  obtain ⟨dir, hdir, hcall⟩ := (hI.backed h).2.made s hs
  obtain ⟨dir', hdir', hcall'⟩ := (hI.backed h').2.made s hs'
  rw [hdir] at hdir'
  cases hdir'
  have hsame : call = call' := hcall.symm.trans hcall'
  subst hsame
  exact hI.unique h h'

theorem Whole.mono {highest highest' : Nat} {lease : Lease} (h : Whole sha256 highest lease) (hle : highest ≤ highest') :
    Whole sha256 highest' lease := by
  obtain ⟨box, hbox, hleased⟩ := h
  exact ⟨box, Nat.le_trans hbox hle, hleased⟩

section Put

theorem owns_put (hlive : u.live = w.live.set pid p') {q : Int} {who : Option String} {call : Nat} {slots : List Slot}
    (h : Owns u q who call slots) : (q = pid ∧ p'.Owns who call slots) ∨ (q ≠ pid ∧ Owns w q who call slots) := by
  obtain ⟨o, ho, howns⟩ := h
  rw [hlive, OrdMap.get_set] at ho
  split at ho
  · rename_i hq
    cases ho
    exact .inl ⟨hq, howns⟩
  · rename_i hq
    exact .inr ⟨hq, o, ho, howns⟩

/-- **A process put in place**: what it owns is backed and owned by nobody else, and what others own stays. -/
theorem Standing.put (hI : Standing sha256 w) (hlive : u.live = w.live.set pid p') (hcalls : w.calls ≤ u.calls)
    (hhighest : w.highest ≤ u.highest)
    (hsingle : ∀ {who call slots who' slots'}, p'.Owns who call slots → p'.Owns who' call slots' → who = who')
    (halone : ∀ {who call slots q who' slots'}, p'.Owns who call slots → q ≠ pid → ¬ Owns w q who' call slots')
    (hbacked : ∀ {who call slots}, p'.Owns who call slots → call < u.calls ∧ Backed u.dirs call slots)
    (hkeep : ∀ {q who call slots s}, q ≠ pid → Owns w q who call slots → s ∈ slots → u.dirs.get s = w.dirs.get s)
    (hdated : ∀ {s dir}, u.dirs.get s = some dir → dir.call < u.calls)
    (hwhole : ∀ {sessionId lease}, p'.held.get sessionId = some lease → Whole sha256 u.highest lease)
    (hlimited : p'.box.limit ≤ u.highest) (hruns : ∀ {r}, p'.running = some r → Runs sha256 u.dirs p'.box r)
    (hothers : ∀ {q o r}, q ≠ pid → w.live.get q = some o → o.running = some r → Runs sha256 w.dirs o.box r →
      Runs sha256 u.dirs o.box r) : Standing sha256 u where
  unique := by
    intro q who call slots q' who' slots' h h'
    rcases owns_put hlive h with ⟨rfl, hp⟩ | ⟨hq, ho⟩
    · rcases owns_put hlive h' with ⟨rfl, hp'⟩ | ⟨hq', ho'⟩
      · exact ⟨rfl, hsingle hp hp'⟩
      · exact absurd ho' (halone hp hq')
    · rcases owns_put hlive h' with ⟨rfl, hp'⟩ | ⟨hq', ho'⟩
      · exact absurd ho (halone hp' hq)
      · exact hI.unique ho ho'
  backed := by
    intro q who call slots h
    rcases owns_put hlive h with ⟨rfl, hp⟩ | ⟨hq, ho⟩
    · exact hbacked hp
    · obtain ⟨hcall, hnodup, hmade⟩ := hI.backed ho
      refine ⟨Nat.lt_of_lt_of_le hcall hcalls, hnodup, fun s hs => ?_⟩
      rw [hkeep hq ho hs]
      exact hmade s hs
  dated := hdated
  whole := by
    rintro q sessionId lease ⟨o, ho, hheld⟩
    rw [hlive, OrdMap.get_set] at ho
    split at ho
    · cases ho
      exact hwhole hheld
    · exact (hI.whole ⟨o, ho, hheld⟩).mono hhighest
  limited := by
    intro q o ho
    rw [hlive, OrdMap.get_set] at ho
    split at ho
    · cases ho
      exact hlimited
    · exact Nat.le_trans (hI.limited ho) hhighest
  runs := by
    intro q o r ho hr
    rw [hlive, OrdMap.get_set] at ho
    split at ho
    · cases ho
      exact hruns hr
    · rename_i hq
      exact hothers hq ho hr (hI.runs ho hr)

theorem Standing.put_quiet (hI : Standing sha256 w) (hp : w.live.get pid = some p) (hlive : u.live = w.live.set pid p')
    (hdirs : u.dirs = w.dirs) (hcalls : u.calls = w.calls) (hhighest : w.highest ≤ u.highest)
    (hsingle : ∀ {who call slots who' slots'}, p'.Owns who call slots → p'.Owns who' call slots' → who = who')
    (hless : ∀ {who call slots}, p'.Owns who call slots → ∃ who', p.Owns who' call slots)
    (hwhole : ∀ {sessionId lease}, p'.held.get sessionId = some lease → Whole sha256 u.highest lease)
    (hlimited : p'.box.limit ≤ u.highest) (hruns : ∀ {r}, p'.running = some r → Runs sha256 u.dirs p'.box r) :
    Standing sha256 u := by
  apply hI.put hlive (Nat.le_of_eq hcalls.symm) hhighest hsingle
  · intro who call slots q who' slots' h hq h'
    obtain ⟨who₀, h₀⟩ := hless h
    exact hq (hI.unique h' ⟨p, hp, h₀⟩).1
  · intro who call slots h
    obtain ⟨who₀, h₀⟩ := hless h
    rw [hdirs, hcalls]
    exact hI.backed ⟨p, hp, h₀⟩
  · intro q who call slots s _ _ _
    rw [hdirs]
  · intro s dir h
    rw [hdirs] at h
    rw [hcalls]
    exact hI.dated h
  · exact hwhole
  · exact hlimited
  · exact hruns
  · intro q o r _ _ _ h
    rw [hdirs]
    exact h

end Put

section Steps

variable {call : Nat} {e : Event} {r : Running} {obs : List Obs}

theorem Standing.single (hI : Standing sha256 w) (hp : w.live.get pid = some p) {who who' : Option String}
    {slots slots' : List Slot} (h : p.Owns who call slots) (h' : p.Owns who' call slots') : who = who' :=
  (hI.unique ⟨p, hp, h⟩ ⟨p, hp, h'⟩).2

theorem Standing.start (hI : Standing sha256 w) (token : String) (limit : Nat) :
    Standing sha256 { w.put pid ⟨⟨pid, token, limit⟩, .empty, none⟩ with highest := max w.highest limit } := by
  have hnone : ∀ who call slots, ¬ Process.Owns ⟨⟨pid, token, limit⟩, .empty, none⟩ who call slots := by
    intro who call slots h
    cases h with
    | lease h => cases h
    | running h => cases h
  refine hI.put rfl (Nat.le_refl _) (Nat.le_max_left _ _) ?_ ?_ ?_ ?_ ?_ ?_ ?_ ?_ ?_
  · exact fun h => absurd h (hnone _ _ _)
  · exact fun h => absurd h (hnone _ _ _)
  · exact fun h => absurd h (hnone _ _ _)
  · exact fun _ _ _ => rfl
  · exact hI.dated
  · intro sessionId lease h
    cases h
  · exact Nat.le_max_right _ _
  · intro r h
    cases h
  · exact fun _ _ _ h => h

theorem Standing.crash (hI : Standing sha256 w) (pid : Int) : Standing sha256 { w with live := w.live.erase pid } := by
  have hlive : ∀ q o, (w.live.erase pid).get q = some o → w.live.get q = some o := by
    intro q o ho
    rw [OrdMap.get_erase] at ho
    split at ho
    · cases ho
    · exact ho
  have howns : ∀ {q who call slots}, Owns { w with live := w.live.erase pid } q who call slots → Owns w q who call slots := by
    rintro q who call slots ⟨o, ho, h⟩
    exact ⟨o, hlive q o ho, h⟩
  constructor
  · exact fun h h' => hI.unique (howns h) (howns h')
  · exact fun h => hI.backed (howns h)
  · exact hI.dated
  · rintro q sessionId lease ⟨o, ho, h⟩
    exact hI.whole ⟨o, hlive q o ho, h⟩
  · exact fun ho => hI.limited (hlive _ _ ho)
  · exact fun ho hr => hI.runs (hlive _ _ ho) hr

theorem Standing.setLimit (hI : Standing sha256 w) (hp : w.live.get pid = some p) (hidle : p.running = none) (limit : Nat) :
    Standing sha256 { w.put pid { p with box := { p.box with limit := limit } } with highest := max w.highest limit } := by
  have howns : ∀ {who call slots}, Process.Owns { p with box := { p.box with limit := limit } } who call slots →
      p.Owns who call slots := by
    intro who call slots h
    cases h with
    | lease h => exact .lease h
    | running h => exact .running h
  refine hI.put_quiet hp rfl rfl rfl (Nat.le_max_left _ _) ?_ ?_ ?_ ?_ ?_
  · exact fun h h' => hI.single hp (howns h) (howns h')
  · exact fun h => ⟨_, howns h⟩
  · exact fun h => (hI.whole ⟨p, hp, h⟩).mono (Nat.le_max_left _ _)
  · exact Nat.le_max_right _ _
  · intro r h
    change p.running = some r at h
    rw [hidle] at h
    cases h

/-- **An acquisition begins**: with nothing, under a number of its own. -/
theorem Standing.acquire (hI : Standing sha256 w) (hp : w.live.get pid = some p) (request : AdmissionRequest) :
    Standing sha256 { w.put pid { p with running := some ⟨w.calls, Mine.nothing,
      .acquiring request (acquire sha256 p.box request)⟩ } with calls := w.calls + 1 } := by
  have howns : ∀ {who call slots}, Process.Owns { p with running := some ⟨w.calls, Mine.nothing,
      .acquiring request (Admission.acquire sha256 p.box request)⟩ } who call slots →
      (who ≠ none ∧ p.Owns who call slots) ∨ (who = none ∧ call = w.calls ∧ slots = []) := by
    intro who call slots h
    cases h with
    | lease h => exact .inl ⟨by simp, .lease h⟩
    | running h =>
      cases h
      exact .inr ⟨rfl, rfl, rfl⟩
  have hbefore : ∀ {q who slots}, ¬ Owns w q who w.calls slots := fun h => Nat.lt_irrefl _ (hI.backed h).1
  refine hI.put rfl (Nat.le_succ _) (Nat.le_refl _) ?_ ?_ ?_ ?_ ?_ ?_ ?_ ?_ ?_
  · intro who call slots who' slots' h h'
    rcases howns h with ⟨-, ho⟩ | ⟨rfl, rfl, -⟩
    · rcases howns h' with ⟨-, ho'⟩ | ⟨-, rfl, -⟩
      · exact hI.single hp ho ho'
      · exact absurd ⟨p, hp, ho⟩ hbefore
    · rcases howns h' with ⟨-, ho'⟩ | ⟨rfl, -, -⟩
      · exact absurd ⟨p, hp, ho'⟩ hbefore
      · rfl
  · intro who call slots q who' slots' h hq h'
    rcases howns h with ⟨-, ho⟩ | ⟨-, rfl, -⟩
    · exact hq (hI.unique h' ⟨p, hp, ho⟩).1
    · exact hbefore h'
  · intro who call slots h
    rcases howns h with ⟨-, ho⟩ | ⟨-, rfl, rfl⟩
    · obtain ⟨hcall, hbacked⟩ := hI.backed ⟨p, hp, ho⟩
      exact ⟨Nat.lt_succ_of_lt hcall, hbacked⟩
    · exact ⟨Nat.lt_succ_self _, List.nodup_nil, by simp⟩
  · exact fun _ _ _ => rfl
  · exact fun h => Nat.lt_succ_of_lt (hI.dated h)
  · exact fun h => hI.whole ⟨p, hp, h⟩
  · have hlimit := hI.limited hp
    exact hlimit
  · intro r h
    cases h
    refine .acquiring request _ rfl (acquire_spec p.box request sha256) ?_
    refine ⟨by simp [Mine.nothing], fun s dir hdir hcall => ?_⟩
    have hlt : dir.call < w.calls := hI.dated hdir
    rw [hcall] at hlt
    exact absurd hlt (Nat.lt_irrefl _)
  · exact fun _ _ _ h => h

/-- What a process keeps of its own, and what it moves from one holder to another, still has one holder. -/
theorem Standing.moved (hI : Standing sha256 w) (hp : w.live.get pid = some p) {a b : Option String}
    (howns : ∀ {who call slots}, p'.Owns who call slots →
      (who ≠ a ∧ who ≠ b ∧ p.Owns who call slots) ∨ (who = a ∧ p.Owns b call slots)) :
    (∀ {who call slots who' slots'}, p'.Owns who call slots → p'.Owns who' call slots' → who = who') ∧
      ∀ {who call slots}, p'.Owns who call slots → ∃ who', p.Owns who' call slots := by
  refine ⟨fun h h' => ?_, fun h => ?_⟩
  · rcases howns h with ⟨-, hne, ho⟩ | ⟨rfl, ho⟩
    · rcases howns h' with ⟨-, -, ho'⟩ | ⟨-, ho'⟩
      · exact hI.single hp ho ho'
      · exact absurd (hI.single hp ho ho') hne
    · rcases howns h' with ⟨-, hne', ho'⟩ | ⟨rfl, -⟩
      · exact absurd (hI.single hp ho' ho) hne'
      · rfl
  · rcases howns h with ⟨-, -, ho⟩ | ⟨-, ho⟩
    · exact ⟨_, ho⟩
    · exact ⟨_, ho⟩

theorem Standing.release (hI : Standing sha256 w) (hp : w.live.get pid = some p)
    {sessionId : String} {lease : Lease} (hheld : p.held.get sessionId = some lease) :
    Standing sha256 (w.put pid { p with held := p.held.erase sessionId, running := some ⟨lease.call, ⟨lease.slots, none⟩,
      .releasing (releaseSlots p.box lease.slots)⟩ }) := by
  have hkept : ∀ {session l}, (p.held.erase sessionId).get session = some l → session ≠ sessionId ∧ p.held.get session = some l := by
    intro session l h
    rw [OrdMap.get_erase] at h
    split at h
    · cases h
    · rename_i hne
      exact ⟨hne, h⟩
  have howns : ∀ {who call slots}, Process.Owns { p with held := p.held.erase sessionId, running := some ⟨lease.call,
      ⟨lease.slots, none⟩, .releasing (releaseSlots p.box lease.slots)⟩ } who call slots →
      (who ≠ none ∧ who ≠ some sessionId ∧ p.Owns who call slots) ∨ (who = none ∧ p.Owns (some sessionId) call slots) := by
    intro who call slots h
    cases h with
    | lease h =>
      obtain ⟨hne, hget⟩ := hkept h
      exact .inl ⟨by simp, by simpa using hne, .lease hget⟩
    | running h =>
      cases h
      refine .inr ⟨rfl, ?_⟩
      rw [Mine.all_of_fresh_none rfl]
      exact .lease hheld
  obtain ⟨hsingle, hless⟩ := hI.moved hp howns
  refine hI.put_quiet hp rfl rfl rfl (Nat.le_refl _) hsingle hless ?_ ?_ ?_
  · exact fun h => hI.whole ⟨p, hp, (hkept h).2⟩
  · have hlimit := hI.limited hp
    exact hlimit
  · intro r h
    cases h
    have hnodup := (hI.backed ⟨p, hp, .lease hheld⟩).2.nodup
    exact .releasing _ rfl (releaseSlots_owes p.box lease.slots hnodup _ (fun _ hs => hs))

/-- **A primitive keeps everything**, whoever performs it. -/
theorem Standing.perform (hI : Standing sha256 w) (hp : w.live.get pid = some p) (hr : p.running = some r)
    {x : Choice} {o : Call} {k : Answer → Operation} (hpending : r.operation.pending = some (o, k)) (hheed : Heeded w r x o) :
    Standing sha256 { w.put pid { p with running := some ⟨r.call, r.mine.next o (answer w x o), k (answer w x o)⟩ } with
      dirs := effect w.dirs r.call o (answer w x o) } ∧
    ∀ s dir, (effect w.dirs r.call o (answer w x o)).get s = some dir →
      dir.call = r.call ∨ ∃ before, w.dirs.get s = some before ∧ before.call = dir.call := by
  have hself : Owns w pid none r.call r.mine.all := ⟨p, hp, .running hr⟩
  obtain ⟨hcall, hbacked⟩ := hI.backed hself
  have howned : ∀ s ∈ r.mine.all, Owned w s := fun s hs => ⟨pid, none, r.call, _, hself, hs⟩
  have hrun := hI.runs hp hr
  have howes : Owes p.box.token r.mine o := by
    cases hrun with
    | acquiring request code hop hwp hacc =>
      rw [hop] at hpending
      cases code with
      | call o' k' =>
        cases hpending
        exact hwp.1
      | ret g => cases hpending
      | throw e => cases hpending
    | releasing code hop hwp =>
      rw [hop] at hpending
      cases code with
      | call o' k' =>
        cases hpending
        exact hwp.1
      | ret g => cases hpending
      | throw e => cases hpending
  have hmoves : Moves w p.box.token r.call r.mine _ _ := perform_moves howes hheed
  have hnotmine : ∀ {q who call slots s}, q ≠ pid → Owns w q who call slots → s ∈ slots → s ∉ r.mine.all := by
    intro q who call slots s hq ho hs hmine
    exact hq (hI.disjoint ho hself hs hmine).1
  have hkeep : ∀ {q who call slots s}, q ≠ pid ∨ who ≠ none → Owns w q who call slots → s ∈ slots →
      (effect w.dirs r.call o (answer w x o)).get s = w.dirs.get s := by
    intro q who call slots s hother ho hs
    have hnot : s ∉ r.mine.all := by
      intro hmine
      obtain ⟨hq, hwho⟩ := hI.disjoint ho hself hs hmine
      rcases hother with h | h
      · exact h hq
      · exact h hwho
    obtain ⟨dir, hdir, -⟩ := (hI.backed ho).2.made s hs
    exact hmoves.keeps hnot ⟨q, who, call, slots, ho, hs⟩ ⟨dir, hdir⟩
  have howns : ∀ {who call slots}, Process.Owns { p with running := some ⟨r.call, r.mine.next o (answer w x o),
      k (answer w x o)⟩ } who call slots →
      (who ≠ none ∧ p.Owns who call slots) ∨ (who = none ∧ call = r.call ∧ slots = (r.mine.next o (answer w x o)).all) := by
    intro who call slots h
    cases h with
    | lease h => exact .inl ⟨by simp, .lease h⟩
    | running h =>
      cases h
      exact .inr ⟨rfl, rfl, rfl⟩
  have hsame : ∀ {who call slots}, Process.Owns { p with running := some ⟨r.call, r.mine.next o (answer w x o),
      k (answer w x o)⟩ } who call slots → ∃ slots₀, p.Owns who call slots₀ := by
    intro who call slots h
    rcases howns h with ⟨-, ho⟩ | ⟨rfl, rfl, -⟩
    · exact ⟨_, ho⟩
    · exact ⟨_, .running hr⟩
  refine ⟨?_, fun s dir hdir => hmoves.origin hdir⟩
  refine hI.put rfl (Nat.le_refl _) (Nat.le_refl _) ?_ ?_ ?_ ?_ ?_ ?_ ?_ ?_ ?_
  · intro who call slots who' slots' h h'
    obtain ⟨slots₀, h₀⟩ := hsame h
    obtain ⟨slots₁, h₁⟩ := hsame h'
    exact hI.single hp h₀ h₁
  · intro who call slots q who' slots' h hq h'
    obtain ⟨slots₀, h₀⟩ := hsame h
    exact hq (hI.unique h' ⟨p, hp, h₀⟩).1
  · intro who call slots h
    rcases howns h with ⟨hwho, ho⟩ | ⟨rfl, rfl, rfl⟩
    · obtain ⟨hlt, hnodup, hmade⟩ := hI.backed ⟨p, hp, ho⟩
      refine ⟨hlt, hnodup, fun s hs => ?_⟩
      obtain ⟨dir, hdir, hof⟩ := hmade s hs
      refine ⟨dir, ?_, hof⟩
      rw [← hdir]
      exact hkeep (.inr hwho) ⟨p, hp, ho⟩ hs
    · exact ⟨hcall, hmoves.backed hbacked howned⟩
  · exact fun hq ho hs => hkeep (.inl hq) ho hs
  · intro s dir hdir
    rcases hmoves.origin hdir with hof | ⟨before, hbefore, hof⟩
    · rw [hof]
      exact hcall
    · rw [← hof]
      exact hI.dated hbefore
  · exact fun h => hI.whole ⟨p, hp, h⟩
  · have hlimit := hI.limited hp
    exact hlimit
  · intro r' h
    cases h
    cases hrun with
    | acquiring request code hop hwp hacc =>
      have hcareful := answer_careful hop hheed hbacked hacc
      rw [hop] at hpending
      cases code with
      | call o' k' =>
        cases hpending
        exact .acquiring request _ rfl (hwp.2 _ hcareful) (hmoves.accounted hbacked howned hacc)
      | ret g => cases hpending
      | throw e => cases hpending
    | releasing code hop hwp =>
      rw [hop] at hpending
      cases code with
      | call o' k' =>
        cases hpending
        exact .releasing _ rfl (hwp.2 _ trivial)
      | ret g => cases hpending
      | throw e => cases hpending
  · intro q other r' hq ho hr' hruns
    have hother : Owns w q none r'.call r'.mine.all := ⟨other, ho, .running hr'⟩
    cases hruns with
    | releasing code hop hwp => exact .releasing code hop hwp
    | acquiring request code hop hwp hacc =>
      refine .acquiring request code hop hwp ⟨fun s hs => ?_, fun s dir hdir hof => ?_⟩
      · obtain ⟨dir, owner, hdir, howner⟩ := hacc.stamped s hs
        refine ⟨dir, owner, ?_, howner⟩
        rw [← hdir]
        exact hkeep (.inl hq) hother (List.mem_append_left _ hs)
      · rcases hmoves.origin hdir with hmine | ⟨before, hbefore, hsame⟩
        · rw [hof] at hmine
          rw [← hmine] at hself
          exact absurd (hI.unique hother hself).1 hq
        · exact hacc.noted s before hbefore (hsame.trans hof)

theorem Standing.finish (hI : Standing sha256 w) (hp : w.live.get pid = some p) (hr : p.running = some r)
    {o : List Obs} (hfin : r.finish p = some (p', o)) :
    Standing sha256 (w.put pid p') ∧ (∀ {who call slots}, p'.Owns who call slots → ∃ who', p.Owns who' call slots) ∧
      ∀ call, .failed call ∈ o → call = r.call ∧ (∀ s dir, w.dirs.get s = some dir → dir.call ≠ call) ∧
        ∀ who slots, ¬ p'.Owns who call slots := by
  have hself : p.Owns none r.call r.mine.all := .running hr
  have hidle : ∀ {who call slots}, Process.Owns { p with running := none } who call slots → who ≠ none ∧ p.Owns who call slots := by
    intro who call slots h
    cases h with
    | lease h => exact ⟨by simp, .lease h⟩
    | running h => cases h
  have hdone : Standing sha256 (w.put pid { p with running := none }) := by
    refine hI.put_quiet hp rfl rfl rfl (Nat.le_refl _) ?_ ?_ ?_ ?_ ?_
    · exact fun h h' => hI.single hp (hidle h).2 (hidle h').2
    · exact fun h => ⟨_, (hidle h).2⟩
    · exact fun h => hI.whole ⟨p, hp, h⟩
    · have hlimit := hI.limited hp
      exact hlimit
    · intro r' h
      cases h
  have hfailed : ∀ {request code}, r.operation = .acquiring request code → r.mine = Mine.nothing →
      Accounted w.dirs p.box.token r.call r.mine → ∀ call, .failed call ∈ [Obs.failed r.call] →
      call = r.call ∧ (∀ s dir, w.dirs.get s = some dir → dir.call ≠ call) ∧
        ∀ who slots, ¬ Process.Owns { p with running := none } who call slots := by
    intro request code _ hnothing hacc call hcall
    rw [List.mem_singleton, Obs.failed.injEq] at hcall
    subst hcall
    refine ⟨rfl, fun s dir hdir hof => ?_, fun who slots h => ?_⟩
    · have hin := hacc.noted s dir hdir hof
      rw [hnothing] at hin
      cases hin
    · obtain ⟨hwho, ho⟩ := hidle h
      exact hwho (hI.single hp ho hself)
  unfold Running.finish at hfin
  split at hfin
  · rename_i request slots hop
    cases hfin
    cases hI.runs hp hr with
    | releasing code hop' _ => rw [hop] at hop'; cases hop'
    | acquiring request' code hop' hwp hacc =>
      rw [hop] at hop'
      cases hop'
      obtain ⟨hmine, hnodup, hleased⟩ := hwp
      have hall : r.mine.all = slots := by
        rw [hmine, Mine.all_of_fresh_none rfl]
      have howns : ∀ {who call slots'}, Process.Owns { p with
          held := p.held.set request.sessionId ⟨r.call, request, slots⟩, running := none } who call slots' →
          (who ≠ some request.sessionId ∧ who ≠ none ∧ p.Owns who call slots') ∨
            (who = some request.sessionId ∧ p.Owns none call slots') := by
        intro who call slots' h
        cases h with
        | running h => cases h
        | lease h =>
          rw [OrdMap.get_set] at h
          split at h
          · rename_i hsession
            cases h
            subst hsession
            refine .inr ⟨rfl, ?_⟩
            rw [← hall]
            exact hself
          · rename_i hsession
            exact .inl ⟨by simpa using hsession, by simp, .lease h⟩
      obtain ⟨hsingle, hless⟩ := hI.moved hp howns
      refine ⟨hI.put_quiet hp rfl rfl rfl (Nat.le_refl _) hsingle hless ?_ ?_ ?_, hless, by simp⟩
      · intro session lease h
        rw [OrdMap.get_set] at h
        split at h
        · cases h
          exact ⟨p.box, hI.limited hp, hleased⟩
        · exact hI.whole ⟨p, hp, h⟩
      · have hlimit := hI.limited hp
        exact hlimit
      · intro r' h
        cases h
  · rename_i request hop
    cases hfin
    refine ⟨hdone, fun h => ⟨_, (hidle h).2⟩, ?_⟩
    cases hI.runs hp hr with
    | releasing code hop' _ => rw [hop] at hop'; cases hop'
    | acquiring request' code hop' hwp hacc =>
      rw [hop] at hop'
      cases hop'
      exact hfailed hop hwp hacc
  · rename_i request e hop
    cases hfin
    refine ⟨hdone, fun h => ⟨_, (hidle h).2⟩, ?_⟩
    cases hI.runs hp hr with
    | releasing code hop' _ => rw [hop] at hop'; cases hop'
    | acquiring request' code hop' hwp hacc =>
      rw [hop] at hop'
      cases hop'
      exact hfailed hop hwp hacc
  · cases hfin
    exact ⟨hdone, fun h => ⟨_, (hidle h).2⟩, by simp⟩
  · cases hfin
    exact ⟨hdone, fun h => ⟨_, (hidle h).2⟩, by simp⟩
  · cases hfin

inductive Steps (sha256 : String → String) (w : World) : Event → World → List Obs → Prop
  | stays (e : Event) : Steps sha256 w e w []
  | start (pid : Int) (token : String) (limit : Nat) (hfree : w.live.get pid = none) : Steps sha256 w (.start pid token limit)
      { w.put pid ⟨⟨pid, token, limit⟩, .empty, none⟩ with highest := max w.highest limit } []
  | crash (pid : Int) : Steps sha256 w (.crash pid) { w with live := w.live.erase pid } []
  | setLimit (pid limit : Int) (p : Process) (hp : w.live.get pid = some p) (hidle : p.running = none) :
      Steps sha256 w (.setLimit pid limit) { w.put pid { p with box := { p.box with limit := limit.toNat } } with
        highest := max w.highest limit.toNat } []
  | acquire (pid : Int) (request : AdmissionRequest) (p : Process) (hp : w.live.get pid = some p) (hidle : p.running = none) :
      Steps sha256 w (.acquire pid request) { w.put pid { p with running := some ⟨w.calls, Mine.nothing,
        .acquiring request (acquire sha256 p.box request)⟩ } with calls := w.calls + 1 } []
  | release (pid : Int) (sessionId : String) (p : Process) (lease : Lease) (hp : w.live.get pid = some p)
      (hidle : p.running = none) (hheld : p.held.get sessionId = some lease) :
      Steps sha256 w (.release pid sessionId) (w.put pid { p with held := p.held.erase sessionId, running := some ⟨lease.call,
        ⟨lease.slots, none⟩, .releasing (releaseSlots p.box lease.slots)⟩ }) []
  | perform (pid : Int) (x : Choice) (p : Process) (r : Running) (o : Call) (k : Answer → Operation)
      (hp : w.live.get pid = some p) (hr : p.running = some r) (hpending : r.operation.pending = some (o, k)) :
      Steps sha256 w (.perform pid x) { w.put pid { p with running := some ⟨r.call, r.mine.next o (answer w x o),
        k (answer w x o)⟩ } with dirs := effect w.dirs r.call o (answer w x o) } []
  | finish (pid : Int) (p p' : Process) (r : Running) (obs : List Obs) (hp : w.live.get pid = some p)
      (hr : p.running = some r) (hfin : r.finish p = some (p', obs)) : Steps sha256 w (.finish pid) (w.put pid p') obs

theorem stepIdle_steps (hp : w.live.get e.pid = some p) (hidle : p.running = none)
    (h : stepIdle sha256 w p e = some u) : Steps sha256 w e u [] := by
  cases e with
  | setLimit pid limit =>
    simp only [stepIdle] at h
    split at h
    · cases h
      exact .stays _
    · cases h
      exact .setLimit pid limit p hp hidle
  | acquire pid request =>
    simp only [stepIdle] at h
    split at h
    · cases h
      exact .stays _
    · cases h
      exact .acquire pid request p hp hidle
  | release pid sessionId =>
    simp only [stepIdle] at h
    split at h
    · cases h
      exact .stays _
    · rename_i lease hheld
      cases h
      exact .release pid sessionId p lease hp hidle hheld
  | _ => cases h

theorem stepRunning_steps (hp : w.live.get e.pid = some p)
    (hr : p.running = some r) (h : stepRunning w p r e = some (u, obs)) : Steps sha256 w e u obs := by
  cases e with
  | perform pid x =>
    simp only [stepRunning] at h
    split at h
    · cases h
    · rename_i o k hpending
      cases h
      exact .perform pid x p r o k hp hr hpending
  | finish pid =>
    obtain ⟨⟨p', obs'⟩, hfin, heq⟩ := Option.map_eq_some_iff.1 h
    cases heq
    exact .finish pid p p' r _ hp hr hfin
  | _ => cases h

theorem step_live {p : Process} (hlive : w.live.get e.pid = some p) (h : step sha256 w e = some (u, obs)) :
    (∃ pid, e = .crash pid ∧ u = { w with live := w.live.erase pid } ∧ obs = []) ∨
      (match p.running with
        | none => (stepIdle sha256 w p e).map (fun w => (w, []))
        | some r => stepRunning w p r e) = some (u, obs) := by
  unfold step at h
  rw [hlive] at h
  cases e with
  | crash pid =>
    cases h
    exact .inl ⟨pid, rfl, rfl, rfl⟩
  | _ => exact .inr h

theorem step_steps (h : step sha256 w e = some (u, obs)) : Steps sha256 w e u obs := by
  cases hlive : w.live.get e.pid with
  | none =>
    unfold step at h
    rw [hlive] at h
    cases e with
    | start pid token limit =>
      simp only at h
      split at h
      · cases h
      · cases h
        exact .start pid token limit hlive
    | _ => cases h
  | some p =>
    rcases step_live hlive h with ⟨pid, rfl, rfl, rfl⟩ | hmain
    · exact .crash pid
    · cases hr : p.running with
      | none =>
        rw [hr] at hmain
        obtain ⟨u', hstep, heq⟩ := Option.map_eq_some_iff.1 hmain
        cases heq
        exact stepIdle_steps hlive hr hstep
      | some r =>
        rw [hr] at hmain
        exact stepRunning_steps hlive hr hmain

structure Gone (w : World) (call : Nat) : Prop where
  began : call < w.calls
  nothing : ∀ s dir, w.dirs.get s = some dir → dir.call ≠ call
  nobody : ∀ pid who slots, ¬ Owns w pid who call slots

theorem Gone.step (h : Gone w call) (hcalls : w.calls ≤ u.calls) (hdirs : ∀ s dir, u.dirs.get s = some dir →
      (∃ before, w.dirs.get s = some before ∧ before.call = dir.call) ∨ ∃ pid who slots, Owns w pid who dir.call slots)
    (howns : ∀ pid who c slots, Owns u pid who c slots → (∃ q who' slots', Owns w q who' c slots') ∨ w.calls ≤ c) :
    Gone u call := by
  refine ⟨Nat.lt_of_lt_of_le h.began hcalls, fun s dir hdir hof => ?_, fun pid who slots ho => ?_⟩
  · rcases hdirs s dir hdir with ⟨before, hbefore, hsame⟩ | ⟨pid, who, slots, ho⟩
    · exact h.nothing s before hbefore (hsame.trans hof)
    · rw [hof] at ho
      exact h.nobody pid who slots ho
  · rcases howns pid who call slots ho with ⟨q, who', slots', ho'⟩ | hle
    · exact h.nobody q who' slots' ho'
    · exact absurd h.began (Nat.not_lt.2 hle)

theorem Gone.put {pid : Int} {p' : Process} (h : Gone w call) (hlive : u.live = w.live.set pid p')
    (hdirs : u.dirs = w.dirs) (hcalls : w.calls ≤ u.calls)
    (howns : ∀ who c slots, p'.Owns who c slots → (∃ q who' slots', Owns w q who' c slots') ∨ w.calls ≤ c) :
    Gone u call := by
  refine h.step hcalls (fun s dir hdir => .inl ⟨dir, hdirs ▸ hdir, rfl⟩) (fun q who c slots ho => ?_)
  rcases owns_put hlive ho with ⟨-, hmine⟩ | ⟨-, ho⟩
  · exact howns who c slots hmine
  · exact .inl ⟨q, who, slots, ho⟩

/-- **A step that heeds** keeps the invariant, and an acquisition that fails is gone. -/
theorem Steps.standing (hI : Standing sha256 w) (hheeds : Heeds w e) (h : Steps sha256 w e u obs) :
    Standing sha256 u ∧ (∀ call, Gone w call → Gone u call) ∧ ∀ call, .failed call ∈ obs → Gone u call := by
  cases h with
  | stays => exact ⟨hI, fun _ h => h, by simp⟩
  | start pid token limit hfree =>
    refine ⟨hI.start token limit, fun call hgone => ?_, by simp⟩
    refine hgone.put rfl rfl (Nat.le_refl _) (fun who c slots hnone => ?_)
    cases hnone with
    | lease h => cases h
    | running h => cases h
  | crash pid =>
    refine ⟨hI.crash pid, fun call hgone => ?_, by simp⟩
    refine hgone.step (Nat.le_refl _) (fun s dir hdir => .inl ⟨dir, hdir, rfl⟩) (fun q who c slots ho => ?_)
    obtain ⟨o, ho, howns⟩ := ho
    simp only [OrdMap.get_erase] at ho
    split at ho
    · cases ho
    · exact .inl ⟨q, who, slots, o, ho, howns⟩
  | setLimit pid limit p hp hidle =>
    refine ⟨hI.setLimit hp hidle limit.toNat, fun call hgone => ?_, by simp⟩
    refine hgone.put rfl rfl (Nat.le_refl _) (fun who c slots hmine => ?_)
    cases hmine with
    | lease h => exact .inl ⟨pid, _, _, p, hp, .lease h⟩
    | running h => exact .inl ⟨pid, _, _, p, hp, .running h⟩
  | acquire pid request p hp hidle =>
    refine ⟨hI.acquire hp request, fun call hgone => ?_, by simp⟩
    refine hgone.put rfl rfl (Nat.le_succ _) (fun who c slots hmine => ?_)
    cases hmine with
    | lease h => exact .inl ⟨pid, _, _, p, hp, .lease h⟩
    | running h =>
      cases h
      exact .inr (Nat.le_refl _)
  | release pid sessionId p lease hp hidle hheld =>
    refine ⟨hI.release hp hheld, fun call hgone => ?_, by simp⟩
    refine hgone.put rfl rfl (Nat.le_refl _) (fun who c slots hmine => ?_)
    cases hmine with
    | lease h =>
      rw [OrdMap.get_erase] at h
      split at h
      · cases h
      · exact .inl ⟨pid, _, _, p, hp, .lease h⟩
    | running h =>
      cases h
      exact .inl ⟨pid, _, _, p, hp, .lease hheld⟩
  | perform pid x p r o k hp hr hpending =>
    obtain ⟨hI', horigin⟩ := hI.perform hp hr hpending (hheeds p r o k hp hr hpending)
    refine ⟨hI', fun call hgone => ?_, by simp⟩
    refine hgone.step (Nat.le_refl _) (fun s dir hdir => ?_) (fun q who c slots ho => ?_)
    · rcases horigin s dir hdir with hmine | hbefore
      · rw [hmine]
        exact .inr ⟨pid, none, _, p, hp, .running hr⟩
      · exact .inl hbefore
    · rcases owns_put rfl ho with ⟨-, hmine⟩ | ⟨-, ho⟩
      · cases hmine with
        | lease h => exact .inl ⟨pid, _, _, p, hp, .lease h⟩
        | running h =>
          cases h
          have hbefore : p.Owns none r.call r.mine.all := .running hr
          exact .inl ⟨pid, none, _, p, hp, hbefore⟩
      · exact .inl ⟨q, who, slots, ho⟩
  | finish pid p p' r obs hp hr hfin =>
    obtain ⟨hI', hless, hfailed⟩ := hI.finish hp hr hfin
    refine ⟨hI', fun call hgone => ?_, fun call hcall => ?_⟩
    · refine hgone.put rfl rfl (Nat.le_refl _) (fun who c slots hmine => ?_)
      obtain ⟨who', h'⟩ := hless hmine
      exact .inl ⟨pid, who', slots, p, hp, h'⟩
    · obtain ⟨rfl, hnothing, hnobody⟩ := hfailed call hcall
      refine ⟨(hI.backed ⟨p, hp, .running hr⟩).1, hnothing, fun q who slots ho => ?_⟩
      rcases owns_put rfl ho with ⟨-, hmine⟩ | ⟨hq, ho⟩
      · exact hnobody who slots hmine
      · exact hq (hI.unique ho ⟨p, hp, .running hr⟩).1

end Steps

end Admission
end Wollipog
