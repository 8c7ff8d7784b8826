import Wollipog.Lib.OrdMap
/-!
# Catalog — an index kept beside a table of files

A table maps paths to contents, some of which read as an item, with a key that fixes its path, a date, and a mark of
being open. `Mirrors` says that the catalog agrees with the table.
-/

structure Filing (π κ ε α β : Type*) where
  key : α → κ
  path : κ → π
  date : α → ε
  isOpen : α → Bool
  read : β → Option α

structure Catalog (π κ ε : Type*) where
  known : OrdMap π Unit
  dates : OrdMap κ ε
  opens : OrdMap κ Unit

namespace Filing

variable {π κ ε α β : Type*} [DecidableEq π] (F : Filing π κ ε α β)

def at_ (t : OrdMap π β) (p : π) : Option α := (t.get p).bind F.read

def Own (t : OrdMap π β) : Prop := ∀ p a, F.at_ t p = some a → F.path (F.key a) = p

section Files
variable {F} {t : OrdMap π β}

theorem at_set (t : OrdMap π β) (p q : π) (b : β) : F.at_ (t.set p b) q = if q = p then F.read b else F.at_ t q := by
  unfold at_
  rw [OrdMap.get_set]
  split <;> rfl

theorem at_erase (t : OrdMap π β) (p q : π) : F.at_ (t.erase p) q = if q = p then none else F.at_ t q := by
  unfold at_
  rw [OrdMap.get_erase]
  split <;> rfl

theorem mem_keys_of_at {p : π} {a : α} (h : F.at_ t p = some a) : p ∈ t.keys := by
  obtain ⟨b, hb, -⟩ := Option.bind_eq_some_iff.1 h
  exact OrdMap.mem_keys_iff.2 ⟨b, hb⟩

end Files

variable [DecidableEq κ]

def index (c : Catalog π κ ε) (a : α) : Catalog π κ ε where
  known := c.known.set (F.path (F.key a)) ()
  dates := c.dates.set (F.key a) (F.date a)
  opens := if F.isOpen a then c.opens.set (F.key a) () else c.opens.erase (F.key a)

def drop (c : Catalog π κ ε) (k : κ) : Catalog π κ ε where
  known := c.known.erase (F.path k)
  dates := c.dates.erase k
  opens := c.opens.erase k

structure Mirrors (t : OrdMap π β) (c : Catalog π κ ε) : Prop where
  own : F.Own t
  known : ∀ p, p ∈ c.known.keys ↔ p ∈ t.keys
  dates : ∀ k e, c.dates.get k = some e ↔ ∃ a, F.at_ t (F.path k) = some a ∧ F.key a = k ∧ F.date a = e
  opens : ∀ p a, F.at_ t p = some a → F.isOpen a = true → F.key a ∈ c.opens.keys
  opensDated : ∀ k, k ∈ c.opens.keys → ∃ e, c.dates.get k = some e

variable {F} {t : OrdMap π β} {c : Catalog π κ ε}

theorem Mirrors.dated (h : F.Mirrors t c) {p : π} {a : α} (ha : F.at_ t p = some a) :
    c.dates.get (F.key a) = some (F.date a) := by
  have hp := h.own p a ha
  exact (h.dates _ _).2 ⟨a, by rw [hp]; exact ha, rfl, rfl⟩

theorem opensDated_index (h : ∀ k, k ∈ c.opens.keys → ∃ e, c.dates.get k = some e) (a : α) {k : κ}
    (hk : k ∈ (F.index c a).opens.keys) : ∃ e, (F.index c a).dates.get k = some e := by
  have hold : k = F.key a ∨ k ∈ c.opens.keys := by
    simp only [index] at hk
    split at hk
    · exact OrdMap.mem_keys_set.1 hk
    · exact .inr (OrdMap.mem_keys_erase.1 hk).1
  simp only [index, OrdMap.get_set]
  split
  · exact ⟨_, rfl⟩
  · rename_i hne
    exact h k (hold.resolve_left hne)

/-- **A record is indexed anew**: the catalog only learns what it knew. -/
theorem Mirrors.refresh (h : F.Mirrors t c) {a : α} (ha : F.at_ t (F.path (F.key a)) = some a) : F.Mirrors t (F.index c a) := by
  have hdate : c.dates.get (F.key a) = some (F.date a) := h.dated ha
  refine ⟨h.own, fun p => ?_, fun k e => ?_, fun p b hb hopen => ?_, fun k hk => ?_⟩
  · simp only [index, OrdMap.mem_keys_set]
    rw [← h.known]
    have hmem := (h.known _).2 (mem_keys_of_at ha)
    constructor
    · rintro (rfl | hp)
      · exact hmem
      · exact hp
    · exact .inr
  · rw [← h.dates]
    simp only [index, OrdMap.get_set]
    split
    · rename_i hk; rw [hk, hdate]
    · rfl
  · have hkey := h.opens p b hb hopen
    simp only [index]
    split
    · exact OrdMap.mem_keys_set.2 (.inr hkey)
    · rename_i hclosed
      refine OrdMap.mem_keys_erase.2 ⟨hkey, fun heq => ?_⟩
      have hsame : some b = some a := by rw [← hb, ← ha, ← heq, h.own p b hb]
      cases hsame
      exact hclosed hopen
  · exact opensDated_index h.opensDated a hk

/-- **A missing file is dropped**: the catalog had nothing of it. -/
theorem Mirrors.missing (h : F.Mirrors t c) {k : κ} (hk : t.get (F.path k) = none) : F.Mirrors t (F.drop c k) := by
  have hnone : ∀ a, F.at_ t (F.path k) ≠ some a := by
    intro a ha
    exact OrdMap.get_eq_none_iff.1 hk (mem_keys_of_at ha)
  have hdates : c.dates.get k = none := by
    cases hd : c.dates.get k with
    | none => rfl
    | some e =>
      obtain ⟨a, ha, -⟩ := (h.dates k e).1 hd
      exact absurd ha (hnone a)
  refine ⟨h.own, fun p => ?_, fun j e => ?_, fun p b hb hopen => ?_, fun j hj => ?_⟩
  · simp only [drop, OrdMap.mem_keys_erase]
    rw [h.known]
    constructor
    · exact And.left
    · intro hp
      refine ⟨hp, ?_⟩
      rintro rfl
      exact OrdMap.get_eq_none_iff.1 hk hp
  · rw [← h.dates]
    simp only [drop, OrdMap.get_erase]
    split
    · rename_i hjk; rw [hjk, hdates]
    · rfl
  · refine OrdMap.mem_keys_erase.2 ⟨h.opens p b hb hopen, ?_⟩
    rintro rfl
    exact hnone b (by rw [h.own p b hb]; exact hb)
  · obtain ⟨hold, hne⟩ := OrdMap.mem_keys_erase.1 hj
    simp only [drop, OrdMap.get_erase, if_neg hne]
    exact h.opensDated j hold

/-- A file written over, with an item of the same key and date, and open only if the old one was. -/
def Continues (F : Filing π κ ε α β) (t : OrdMap π β) (a : α) : Prop :=
  ∃ b, F.at_ t (F.path (F.key a)) = some b ∧ F.key b = F.key a ∧ F.date b = F.date a ∧
    (F.isOpen a = true → F.isOpen b = true)

/-- **A write that is not indexed**: a continued item needs no repair. -/
theorem Mirrors.rewrite (h : F.Mirrors t c) {a : α} {v : β} (hv : F.read v = some a) (hc : Continues F t a) :
    F.Mirrors (t.set (F.path (F.key a)) v) c := by
  obtain ⟨b, hb, hkey, hdate, hopen⟩ := hc
  have hmem := mem_keys_of_at hb
  refine ⟨fun p x hx => ?_, fun p => ?_, fun k e => ?_, fun p x hx hxo => ?_, h.opensDated⟩
  · rw [at_set] at hx
    split at hx
    · rename_i hp
      rw [hv] at hx
      cases hx
      exact hp.symm
    · exact h.own p x hx
  · rw [h.known, OrdMap.mem_keys_set]
    constructor
    · exact .inr
    · rintro (rfl | hp)
      · exact hmem
      · exact hp
  · rw [h.dates, at_set]
    by_cases hp : F.path k = F.path (F.key a)
    · rw [if_pos hp, hp, hb, hv]
      constructor
      · rintro ⟨x, hx, rfl, rfl⟩
        cases hx
        exact ⟨a, rfl, hkey.symm, hdate.symm⟩
      · rintro ⟨x, hx, rfl, rfl⟩
        cases hx
        exact ⟨b, rfl, hkey, hdate⟩
    · rw [if_neg hp]
  · rw [at_set] at hx
    split at hx
    · rw [hv] at hx
      cases hx
      rw [← hkey]
      exact h.opens _ b hb (hopen hxo)
    · exact h.opens p x hx hxo

/-- **A new file, indexed.** -/
theorem Mirrors.publish (h : F.Mirrors t c) {a : α} {v : β} (hv : F.read v = some a)
    (hnew : t.get (F.path (F.key a)) = none) : F.Mirrors (t.set (F.path (F.key a)) v) (F.index c a) := by
  have hnone : F.at_ t (F.path (F.key a)) = none := by unfold at_; rw [hnew]; rfl
  refine ⟨fun p x hx => ?_, fun p => ?_, fun k e => ?_, fun p x hx hxo => ?_, fun k hk => ?_⟩
  · rw [at_set] at hx
    split at hx
    · rename_i hp
      rw [hv] at hx
      cases hx
      exact hp.symm
    · exact h.own p x hx
  · simp only [index, OrdMap.mem_keys_set, h.known]
  · simp only [index, OrdMap.get_set]
    rw [at_set]
    by_cases hk : k = F.key a
    · subst hk
      rw [if_pos rfl, if_pos rfl, hv]
      constructor
      · intro he
        cases he
        exact ⟨a, rfl, rfl, rfl⟩
      · rintro ⟨x, hx, -, rfl⟩
        cases hx
        rfl
    · rw [if_neg hk]
      by_cases hp : F.path k = F.path (F.key a)
      · rw [if_pos hp, hv, h.dates, hp, hnone]
        constructor
        · rintro ⟨x, hx, -⟩; cases hx
        · rintro ⟨x, hx, rfl, -⟩; cases hx; exact absurd rfl hk
      · rw [if_neg hp, h.dates]
  · rw [at_set] at hx
    simp only [index]
    split at hx
    · rw [hv] at hx
      cases hx
      rw [if_pos hxo]
      exact OrdMap.mem_keys_set.2 (.inl rfl)
    · rename_i hp
      have hmem := h.opens p x hx hxo
      split
      · exact OrdMap.mem_keys_set.2 (.inr hmem)
      · refine OrdMap.mem_keys_erase.2 ⟨hmem, fun heq => hp ?_⟩
        rw [← heq, h.own p x hx]
  · exact opensDated_index h.opensDated a hk

/-- **A removed file, dropped.** -/
theorem Mirrors.remove (h : F.Mirrors t c) {k : κ} {e : ε} (hk : c.dates.get k = some e) :
    F.Mirrors (t.erase (F.path k)) (F.drop c k) := by
  obtain ⟨a, ha, hkey, -⟩ := (h.dates k e).1 hk
  refine ⟨fun p x hx => ?_, fun p => ?_, fun j d => ?_, fun p x hx hxo => ?_, fun j hj => ?_⟩
  · rw [at_erase] at hx
    split at hx
    · cases hx
    · exact h.own p x hx
  · simp only [drop, OrdMap.mem_keys_erase, h.known]
  · simp only [drop, OrdMap.get_erase]
    rw [at_erase]
    by_cases hjk : j = k
    · subst hjk
      rw [if_pos rfl, if_pos rfl]
      constructor
      · intro hd; cases hd
      · rintro ⟨x, hx, -⟩; cases hx
    · rw [if_neg hjk]
      by_cases hp : F.path j = F.path k
      · rw [if_pos hp, h.dates, hp, ha]
        constructor
        · rintro ⟨x, hx, rfl, -⟩; cases hx; exact absurd hkey hjk
        · rintro ⟨x, hx, -⟩; cases hx
      · rw [if_neg hp, h.dates]
  · rw [at_erase] at hx
    split at hx
    · cases hx
    · rename_i hp
      refine OrdMap.mem_keys_erase.2 ⟨h.opens p x hx hxo, fun heq => hp ?_⟩
      rw [← heq, h.own p x hx]
  · obtain ⟨hold, hne⟩ := OrdMap.mem_keys_erase.1 hj
    simp only [drop, OrdMap.get_erase, if_neg hne]
    exact h.opensDated j hold

theorem Mirrors.size (h : F.Mirrors t c) : c.known.size = t.size := OrdMap.size_eq_of_keys h.known

def scan (F : Filing π κ ε α β) (t : OrdMap π β) (c : Catalog π κ ε) (p : π) : Catalog π κ ε :=
  let c' := { c with known := c.known.set p () }
  match F.at_ t p with
  | none => c'
  | some a => F.index c' a

def emptyCatalog : Catalog π κ ε := ⟨.empty, .empty, .empty⟩

def rebuild (F : Filing π κ ε α β) (t : OrdMap π β) (listing : List π) : Catalog π κ ε :=
  listing.foldl (scan F t) emptyCatalog

structure Scanned (F : Filing π κ ε α β) (t : OrdMap π β) (done : List π) (c : Catalog π κ ε) : Prop where
  known : ∀ p, p ∈ c.known.keys ↔ p ∈ done
  dates : ∀ k e, c.dates.get k = some e ↔
    F.path k ∈ done ∧ ∃ a, F.at_ t (F.path k) = some a ∧ F.key a = k ∧ F.date a = e
  opens : ∀ p ∈ done, ∀ a, F.at_ t p = some a → F.isOpen a = true → F.key a ∈ c.opens.keys
  opensDated : ∀ k, k ∈ c.opens.keys → ∃ e, c.dates.get k = some e

theorem Scanned.step (ho : F.Own t) {done : List π} (h : Scanned F t done c) (p : π) :
    Scanned F t (done ++ [p]) (scan F t c p) := by
  unfold scan
  cases hat : F.at_ t p with
  | none =>
    refine ⟨fun q => ?_, fun k e => ?_, fun q hq a ha hopen => ?_, h.opensDated⟩
    · simp only [OrdMap.mem_keys_set, h.known, List.mem_append, List.mem_singleton, or_comm]
    · simp only [h.dates, List.mem_append, List.mem_singleton]
      constructor
      · rintro ⟨hk, hx⟩
        exact ⟨.inl hk, hx⟩
      · rintro ⟨hk | rfl, a, ha, hrest⟩
        · exact ⟨hk, a, ha, hrest⟩
        · rw [hat] at ha; cases ha
    · rcases List.mem_append.1 hq with hold | hnew
      · exact h.opens q hold a ha hopen
      · rw [List.mem_singleton.1 hnew, hat] at ha; cases ha
  | some x =>
    have hp : F.path (F.key x) = p := ho p x hat
    refine ⟨fun q => ?_, fun k e => ?_, fun q hq a ha hopen => ?_, fun k hk => ?_⟩
    · simp only [index, OrdMap.mem_keys_set, h.known, List.mem_append, List.mem_singleton, hp]
      constructor
      · rintro (rfl | rfl | hq)
        · exact .inr rfl
        · exact .inr rfl
        · exact .inl hq
      · rintro (hq | rfl)
        · exact .inr (.inr hq)
        · exact .inl rfl
    · simp only [index, OrdMap.get_set, List.mem_append, List.mem_singleton]
      by_cases hk : k = F.key x
      · subst hk
        rw [if_pos rfl, hp, hat]
        constructor
        · intro he
          cases he
          exact ⟨.inr rfl, x, rfl, rfl, rfl⟩
        · rintro ⟨-, a, ha, -, rfl⟩
          cases ha
          rfl
      · rw [if_neg hk, h.dates]
        constructor
        · rintro ⟨hmem, hx⟩
          exact ⟨.inl hmem, hx⟩
        · rintro ⟨hmem | heq, a, ha, hkey, hdate⟩
          · exact ⟨hmem, a, ha, hkey, hdate⟩
          · rw [heq, hat] at ha
            cases ha
            exact absurd hkey.symm hk
    · simp only [index]
      have hmem : q ∈ done → F.key a ∈ c.opens.keys := fun hq' => h.opens q hq' a ha hopen
      by_cases hqp : q = p
      · subst hqp
        rw [hat] at ha
        cases ha
        rw [if_pos hopen]
        exact OrdMap.mem_keys_set.2 (.inl rfl)
      · have hq' : q ∈ done := by
          rcases List.mem_append.1 hq with hold | hnew
          · exact hold
          · exact absurd (List.mem_singleton.1 hnew) hqp
        split
        · exact OrdMap.mem_keys_set.2 (.inr (hmem hq'))
        · refine OrdMap.mem_keys_erase.2 ⟨hmem hq', fun heq => hqp ?_⟩
          rw [← ho q a ha, heq, hp]
    · exact opensDated_index h.opensDated x hk

theorem Scanned.foldl (ho : F.Own t) : ∀ (listing done : List π) (c : Catalog π κ ε), Scanned F t done c →
    Scanned F t (done ++ listing) (listing.foldl (scan F t) c)
  | [], done, c, h => by rw [List.append_nil]; exact h
  | p :: listing, done, c, h => by
    have ih := Scanned.foldl ho listing (done ++ [p]) _ (h.step ho p)
    rw [List.append_assoc, List.singleton_append] at ih
    exact ih

/-- **A catalog built from a full listing mirrors the table**, in whatever order the files are listed. -/
theorem mirrors_rebuild (ho : F.Own t) {listing : List π} (hl : ∀ p, p ∈ listing ↔ p ∈ t.keys) :
    F.Mirrors t (rebuild F t listing) := by
  have hempty : Scanned F t [] (emptyCatalog : Catalog π κ ε) := by
    refine ⟨?_, ?_, ?_, ?_⟩
    · intro p; exact Iff.rfl
    · intro k e; simp [emptyCatalog]
    · intro p hp; cases hp
    · intro k hk; cases hk
  have hall := Scanned.foldl ho listing [] _ hempty
  rw [List.nil_append] at hall
  refine ⟨ho, fun p => ?_, fun k e => ?_, fun p a ha hopen => ?_, hall.opensDated⟩
  · exact (hall.known p).trans (hl p)
  · refine (hall.dates k e).trans ⟨And.right, ?_⟩
    rintro ⟨a, ha, hrest⟩
    exact ⟨(hl _).2 (mem_keys_of_at ha), a, ha, hrest⟩
  · exact hall.opens p ((hl p).2 (mem_keys_of_at ha)) a ha hopen

end Filing
