import Mathlib.Data.List.Nodup
import Mathlib.Data.List.Basic
/-!
# OrdMap — maps in insertion order

A finite map whose keys keep the place of their first insertion. Setting a present key replaces its value in place;
setting a new one appends.
-/

structure OrdMap (κ ν : Type*) where
  entries : List (κ × ν)
  nodup : (entries.map Prod.fst).Nodup
deriving DecidableEq

namespace OrdMap

variable {κ ν : Type*}

@[ext] theorem ext {m n : OrdMap κ ν} (h : m.entries = n.entries) : m = n := by
  cases m; cases n; cases h; rfl

def empty : OrdMap κ ν := ⟨[], List.nodup_nil⟩

def keys (m : OrdMap κ ν) : List κ := m.entries.map Prod.fst

def size (m : OrdMap κ ν) : Nat := m.entries.length

def filter (p : κ → ν → Bool) (m : OrdMap κ ν) : OrdMap κ ν where
  entries := m.entries.filter (fun e => p e.1 e.2)
  nodup := m.nodup.sublist (List.filter_sublist.map _)

/-- Every value replaced by what `f` makes of it. -/
def mapVals (f : κ → ν → ν) (m : OrdMap κ ν) : OrdMap κ ν where
  entries := m.entries.map (fun e => (e.1, f e.1 e.2))
  nodup := by
    rw [List.map_map]
    exact m.nodup

theorem size_filter_le (m : OrdMap κ ν) (p : κ → ν → Bool) : (m.filter p).size ≤ m.size := List.length_filter_le _ _

theorem size_eq_of_keys {μ : Type*} {m : OrdMap κ ν} {n : OrdMap κ μ} (h : ∀ k, k ∈ m.keys ↔ k ∈ n.keys) : m.size = n.size := by
  have hperm : m.keys.Perm n.keys := (List.perm_ext_iff_of_nodup m.nodup n.nodup).2 h
  have hlen := hperm.length_eq
  unfold keys at hlen
  rwa [List.length_map, List.length_map] at hlen

variable [DecidableEq κ]

def get (m : OrdMap κ ν) (k : κ) : Option ν := (m.entries.find? (fun e => decide (e.1 = k))).map Prod.snd

def replace (k : κ) (v : ν) (l : List (κ × ν)) : List (κ × ν) := l.map (fun e => if e.1 = k then (k, v) else e)

theorem replace_keys (k : κ) (v : ν) (l : List (κ × ν)) : (replace k v l).map Prod.fst = l.map Prod.fst := by
  unfold replace
  rw [List.map_map]
  apply List.map_congr_left
  intro e _
  simp only [Function.comp_apply]
  split
  · rename_i h; exact h.symm
  · rfl

def set (m : OrdMap κ ν) (k : κ) (v : ν) : OrdMap κ ν where
  entries := if k ∈ m.keys then replace k v m.entries else m.entries ++ [(k, v)]
  nodup := by
    split
    · rw [replace_keys]; exact m.nodup
    · rename_i h
      rw [List.map_append, List.nodup_append]
      refine ⟨m.nodup, by simp, fun a ha b hb => ?_⟩
      simp only [List.map_cons, List.map_nil, List.mem_singleton] at hb
      subst hb
      exact fun hab => h (hab ▸ ha)

def erase (m : OrdMap κ ν) (k : κ) : OrdMap κ ν := m.filter (fun j _ => decide (j ≠ k))

theorem mem_of_get {m : OrdMap κ ν} {k : κ} {v : ν} (h : m.get k = some v) : (k, v) ∈ m.entries := by
  obtain ⟨e, he, rfl⟩ := Option.map_eq_some_iff.1 h
  have hk := List.find?_some he
  simp only [decide_eq_true_eq] at hk
  have := List.mem_of_find?_eq_some he
  rwa [← hk]

theorem get_of_mem {m : OrdMap κ ν} {k : κ} {v : ν} (h : (k, v) ∈ m.entries) : m.get k = some v := by
  cases hf : m.entries.find? (fun e => decide (e.1 = k)) with
  | none => exact absurd (by simp) (List.find?_eq_none.1 hf (k, v) h)
  | some e =>
    have hk := List.find?_some hf
    simp only [decide_eq_true_eq] at hk
    have hmem := List.mem_of_find?_eq_some hf
    have : e = (k, v) := List.inj_on_of_nodup_map m.nodup hmem h hk
    rw [get, hf, this]
    rfl

theorem get_eq_some_iff {m : OrdMap κ ν} {k : κ} {v : ν} : m.get k = some v ↔ (k, v) ∈ m.entries :=
  ⟨mem_of_get, get_of_mem⟩

theorem mem_keys_iff {m : OrdMap κ ν} {k : κ} : k ∈ m.keys ↔ ∃ v, m.get k = some v := by
  unfold keys
  rw [List.mem_map]
  constructor
  · rintro ⟨e, he, rfl⟩
    exact ⟨e.2, get_of_mem he⟩
  · rintro ⟨v, hv⟩
    exact ⟨(k, v), mem_of_get hv, rfl⟩

theorem get_eq_none_iff {m : OrdMap κ ν} {k : κ} : m.get k = none ↔ k ∉ m.keys := by
  rw [mem_keys_iff]
  cases h : m.get k with
  | none => simp
  | some v => simp

theorem get_set (m : OrdMap κ ν) (k j : κ) (v : ν) : (m.set k v).get j = if j = k then some v else m.get j := by
  apply Option.ext
  intro x
  rw [get_eq_some_iff]
  unfold set
  simp only
  by_cases hk : k ∈ m.keys
  · rw [if_pos hk]
    unfold replace
    rw [List.mem_map]
    by_cases hj : j = k
    · subst hj
      rw [if_pos rfl]
      obtain ⟨o, ho⟩ := mem_keys_iff.1 hk
      constructor
      · rintro ⟨e, he, heq⟩
        split at heq
        · cases heq; rfl
        · rename_i hne; cases heq; exact absurd rfl hne
      · intro hx
        cases hx
        exact ⟨(j, o), mem_of_get ho, if_pos rfl⟩
    · rw [if_neg hj, get_eq_some_iff]
      constructor
      · rintro ⟨e, he, heq⟩
        split at heq
        · cases heq; exact absurd rfl hj
        · cases heq; exact he
      · intro he
        exact ⟨(j, x), he, if_neg hj⟩
  · rw [if_neg hk, List.mem_append, List.mem_singleton, Prod.mk.injEq]
    by_cases hj : j = k
    · subst hj
      rw [if_pos rfl]
      constructor
      · rintro (he | ⟨-, rfl⟩)
        · exact absurd (mem_keys_iff.2 ⟨x, get_of_mem he⟩) hk
        · rfl
      · intro hx
        cases hx
        exact .inr ⟨rfl, rfl⟩
    · rw [if_neg hj, get_eq_some_iff]
      constructor
      · rintro (he | ⟨rfl, -⟩)
        · exact he
        · exact absurd rfl hj
      · exact .inl

@[simp] theorem get_set_self (m : OrdMap κ ν) (k : κ) (v : ν) : (m.set k v).get k = some v := by
  rw [get_set, if_pos rfl]

theorem get_set_ne (m : OrdMap κ ν) {k j : κ} (v : ν) (h : j ≠ k) : (m.set k v).get j = m.get j := by
  rw [get_set, if_neg h]

theorem get_filter (m : OrdMap κ ν) (p : κ → ν → Bool) (k : κ) : (m.filter p).get k = (m.get k).filter (fun v => p k v) := by
  apply Option.ext
  intro x
  rw [get_eq_some_iff, Option.filter_eq_some_iff, get_eq_some_iff]
  unfold filter
  simp only [List.mem_filter]

theorem get_erase (m : OrdMap κ ν) (k j : κ) : (m.erase k).get j = if j = k then none else m.get j := by
  unfold erase
  rw [get_filter]
  by_cases hj : j = k
  · subst hj
    cases m.get j <;> simp
  · cases m.get j <;> simp [hj]

theorem mem_keys_set {m : OrdMap κ ν} {k j : κ} {v : ν} : j ∈ (m.set k v).keys ↔ j = k ∨ j ∈ m.keys := by
  rw [mem_keys_iff, mem_keys_iff, get_set]
  by_cases hj : j = k
  · simp [hj]
  · simp [hj]

theorem mem_keys_erase {m : OrdMap κ ν} {k j : κ} : j ∈ (m.erase k).keys ↔ j ∈ m.keys ∧ j ≠ k := by
  rw [mem_keys_iff, mem_keys_iff, get_erase]
  by_cases hj : j = k
  · simp [hj]
  · simp [hj]

@[simp] theorem get_empty (k : κ) : (empty : OrdMap κ ν).get k = none := rfl

theorem get_mapVals (f : κ → ν → ν) (m : OrdMap κ ν) (k : κ) : (m.mapVals f).get k = (m.get k).map (f k) := by
  apply Option.ext
  intro x
  rw [get_eq_some_iff, Option.map_eq_some_iff]
  unfold mapVals
  simp only [List.mem_map, Prod.mk.injEq]
  constructor
  · rintro ⟨⟨j, v⟩, he, rfl, rfl⟩
    exact ⟨v, get_of_mem he, rfl⟩
  · rintro ⟨v, hv, rfl⟩
    exact ⟨(k, v), mem_of_get hv, rfl, rfl⟩

def modify (k : κ) (f : ν → ν) (m : OrdMap κ ν) : OrdMap κ ν := m.mapVals (fun j v => if j = k then f v else v)

theorem get_modify (k j : κ) (f : ν → ν) (m : OrdMap κ ν) :
    (m.modify k f).get j = if j = k then (m.get j).map f else m.get j := by
  unfold modify
  rw [get_mapVals]
  by_cases hj : j = k
  · simp only [if_pos hj]
  · simp only [if_neg hj, Option.map_id']

theorem set_eq_self {m : OrdMap κ ν} {k : κ} {v : ν} (h : m.get k = some v) : m.set k v = m := by
  apply ext
  unfold set
  simp only
  rw [if_pos (mem_keys_iff.2 ⟨v, h⟩)]
  unfold replace
  conv_rhs => rw [← List.map_id m.entries]
  apply List.map_congr_left
  intro e he
  by_cases hk : e.1 = k
  · rw [if_pos hk]
    have hval : m.get e.1 = some e.2 := get_of_mem he
    rw [hk, h] at hval
    cases hval
    rw [id_eq, ← hk]
  · rw [if_neg hk]; rfl

theorem erase_eq_self {m : OrdMap κ ν} {k : κ} (h : m.get k = none) : m.erase k = m := by
  apply ext
  unfold erase filter
  simp only
  apply List.filter_eq_self.2
  intro e he
  have hne : e.1 ≠ k := by
    intro hk
    have hval : m.get e.1 = some e.2 := get_of_mem he
    rw [hk, h] at hval
    cases hval
  simp [hne]

theorem entries_set_new {m : OrdMap κ ν} {k : κ} (h : m.get k = none) (v : ν) : (m.set k v).entries = m.entries ++ [(k, v)] := by
  unfold set
  simp only
  rw [if_neg (get_eq_none_iff.1 h)]

theorem erase_set_new {m : OrdMap κ ν} {k : κ} (h : m.get k = none) (v : ν) : (m.set k v).erase k = m := by
  apply ext
  have hrest : (m.erase k).entries = m.entries := by rw [erase_eq_self h]
  unfold erase filter at hrest ⊢
  simp only at hrest ⊢
  rw [entries_set_new h, List.filter_append, hrest]
  have hone : [(k, v)].filter (fun e => decide (e.1 ≠ k)) = [] := by simp
  rw [hone, List.append_nil]

theorem size_set (m : OrdMap κ ν) (k : κ) (v : ν) : (m.set k v).size = if (m.get k).isSome then m.size else m.size + 1 := by
  unfold set size
  simp only
  cases hg : m.get k with
  | none =>
    rw [if_neg (get_eq_none_iff.1 hg)]
    simp
  | some o =>
    rw [if_pos (mem_keys_iff.2 ⟨o, hg⟩)]
    simp [replace]

theorem size_erase_le (m : OrdMap κ ν) (k : κ) : (m.erase k).size ≤ m.size := size_filter_le m _

section SetAll

variable {ε : Type*} (key : ε → κ) (val : ε → ν)

def setAll (m : OrdMap κ ν) (es : List ε) : OrdMap κ ν := es.foldl (fun m e => m.set (key e) (val e)) m

variable {key}

theorem get_setAll_of_not_mem {k : κ} (es : List ε) : ∀ m : OrdMap κ ν, k ∉ es.map key → (m.setAll key val es).get k = m.get k := by
  induction es with
  | nil => exact fun m _ => rfl
  | cons e es ih =>
    intro m hk
    rw [List.map_cons, List.mem_cons, not_or] at hk
    refine (ih _ hk.2).trans ?_
    exact get_set_ne m _ hk.1

/-- **Each of several keys gets its element's value.** -/
theorem get_setAll_of_mem {es : List ε} (hn : (es.map key).Nodup) : ∀ (m : OrdMap κ ν), ∀ e ∈ es,
    (m.setAll key val es).get (key e) = some (val e) := by
  induction es with
  | nil => exact fun m e he => absurd he List.not_mem_nil
  | cons x es ih =>
    intro m e he
    rw [List.map_cons, List.nodup_cons] at hn
    rcases List.mem_cons.1 he with rfl | he
    · exact (get_setAll_of_not_mem val es _ hn.1).trans (get_set_self m _ _)
    · exact ih hn.2 _ e he

theorem size_setAll {es : List ε} (hn : (es.map key).Nodup) : ∀ m : OrdMap κ ν,
    (m.setAll key val es).size = m.size + (es.filter (fun e => (m.get (key e)).isNone)).length := by
  induction es with
  | nil => exact fun m => rfl
  | cons x es ih =>
    intro m
    rw [List.map_cons, List.nodup_cons] at hn
    refine (ih hn.2 _).trans ?_
    have hrest : es.filter (fun e => ((m.set (key x) (val x)).get (key e)).isNone) = es.filter (fun e => (m.get (key e)).isNone) := by
      refine List.filter_congr (fun e he => ?_)
      have hne : key e ≠ key x := fun hk => hn.1 (hk ▸ List.mem_map_of_mem he)
      rw [get_set_ne m _ hne]
    rw [hrest, size_set, List.filter_cons]
    cases hx : m.get (key x) with
    | none =>
      rw [if_neg (by simp), if_pos (by simp), List.length_cons]
      omega
    | some v => rw [if_pos (by simp), if_neg (by simp)]

theorem setAll_eq_self {es : List ε} : ∀ m : OrdMap κ ν, (∀ e ∈ es, m.get (key e) = some (val e)) → m.setAll key val es = m := by
  induction es with
  | nil => exact fun m _ => rfl
  | cons x es ih =>
    intro m h
    have hone := set_eq_self (h x List.mem_cons_self)
    unfold setAll at ih ⊢
    rw [List.foldl_cons, hone]
    exact ih m (fun e he => h e (List.mem_cons_of_mem x he))

end SetAll

end OrdMap
