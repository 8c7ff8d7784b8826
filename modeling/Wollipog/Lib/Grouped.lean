import Mathlib
/-!
# Grouped — elements joined under their keys, with room for a bounded number of keys

`add` joins an element to the entry of its key, or opens one while there is room.
-/
namespace Grouped

variable {ε κ : Type} [DecidableEq κ]

def find (key : ε → κ) (k : κ) (l : List ε) : Option ε := l.find? (fun x => decide (key x = k))

/-- One element: into the entry of its key, or behind the others while there are fewer than `limit`. -/
def add (key : ε → κ) (join : ε → ε → ε) (limit : Nat) (l : List ε) (e : ε) : Option (List ε) :=
  match l.findIdx? (fun x => decide (key x = key e)) with
  | none => if limit ≤ l.length then none else some (l ++ [e])
  | some i => some (l.modify i (fun prior => join prior e))

def addAll (key : ε → κ) (join : ε → ε → ε) (limit : Nat) (es : List ε) : Option (List ε) :=
  es.foldlM (add key join limit) []

def joinInto (join : ε → ε → ε) (o : Option ε) (e : ε) : Option ε := some (o.elim e (fun prior => join prior e))

def joined (key : ε → κ) (join : ε → ε → ε) (k : κ) (es : List ε) : Option ε :=
  (es.filter (fun x => decide (key x = k))).foldl (joinInto join) none

def keyCount (key : ε → κ) (es : List ε) : Nat := (es.map key).toFinset.card

structure Joins (key : ε → κ) (join : ε → ε → ε) : Prop where
  key_join : ∀ x y, key x = key y → key (join x y) = key x
  comm : ∀ x y, key x = key y → join x y = join y x
  assoc : ∀ x y z, key x = key y → key y = key z → join (join x y) z = join x (join y z)

variable {key : ε → κ} {join : ε → ε → ε}

/-! ## One element -/

theorem find_append (k : κ) (l m : List ε) : find key k (l ++ m) = (find key k l).or (find key k m) := List.find?_append

theorem find_isSome_iff (k : κ) (l : List ε) : (find key k l).isSome = true ↔ k ∈ l.map key := by
  unfold find
  rw [List.find?_isSome, List.mem_map]
  constructor
  · rintro ⟨x, hx, hk⟩
    exact ⟨x, hx, of_decide_eq_true hk⟩
  · rintro ⟨x, hx, hk⟩
    exact ⟨x, hx, decide_eq_true hk⟩

theorem find_key {k : κ} {l : List ε} {x : ε} (h : find key k l = some x) : key x = k := by
  unfold find at h
  have hx := List.find?_some h
  exact of_decide_eq_true hx

theorem find_eq_none_of_not_mem {k : κ} {l : List ε} (h : k ∉ l.map key) : find key k l = none := by
  rw [← Option.not_isSome_iff_eq_none, find_isSome_iff]
  exact h

theorem find_eq_some_of_mem {l : List ε} (h : (l.map key).Nodup) {x : ε} (hx : x ∈ l) : find key (key x) l = some x := by
  obtain ⟨y, hy⟩ := Option.isSome_iff_exists.1 ((find_isSome_iff (key x) l).2 (List.mem_map.2 ⟨x, hx, rfl⟩))
  have hmem : y ∈ l := List.mem_of_find?_eq_some hy
  rw [hy, List.inj_on_of_nodup_map h hmem hx (find_key hy)]

theorem find_filter {l : List ε} (h : (l.map key).Nodup) (p : ε → Bool) (k : κ) :
    find key k (l.filter p) = (find key k l).filter p := by
  have hsub : ((l.filter p).map key).Nodup := h.sublist ((List.filter_sublist).map key)
  cases hk : find key k l with
  | none =>
    apply find_eq_none_of_not_mem
    intro hmem
    obtain ⟨x, hx, rfl⟩ := List.mem_map.1 hmem
    rw [find_eq_some_of_mem h (List.mem_filter.1 hx).1] at hk
    cases hk
  | some x =>
    have hkey := find_key hk
    subst hkey
    have hx : x ∈ l := List.mem_of_find?_eq_some hk
    by_cases hp : p x = true
    · rw [find_eq_some_of_mem hsub (List.mem_filter.2 ⟨hx, hp⟩), Option.filter_some, if_pos hp]
    · rw [Option.filter_some, if_neg hp]
      apply find_eq_none_of_not_mem
      intro hmem
      obtain ⟨y, hy, hky⟩ := List.mem_map.1 hmem
      have hyx : y = x := List.inj_on_of_nodup_map h (List.mem_filter.1 hy).1 hx hky
      exact hp (hyx ▸ (List.mem_filter.1 hy).2)

theorem find_map {δ : Type} {key' : δ → κ} {g : ε → δ} (hg : ∀ x, key' (g x) = key x) (k : κ) (l : List ε) :
    find key' k (l.map g) = (find key k l).map g := by
  unfold find
  rw [List.find?_map]
  congr 2
  funext x
  rw [Function.comp, hg x]

theorem modify_spec {f : ε → ε} {k₀ : κ} (hf : ∀ x, key x = k₀ → key (f x) = k₀) : ∀ (l : List ε) (i : Nat),
    l.findIdx? (fun x => decide (key x = k₀)) = some i →
      (l.modify i f).map key = l.map key ∧
        ∀ k, find key k (l.modify i f) = if k = k₀ then (find key k₀ l).map f else find key k l
  | [], i, h => by cases h
  | x :: xs, i, h => by
    rw [List.findIdx?_cons] at h
    by_cases hx : key x = k₀
    · rw [if_pos (decide_eq_true hx)] at h
      cases h
      have hmod : (x :: xs).modify 0 f = f x :: xs := rfl
      refine ⟨by rw [hmod, List.map_cons, List.map_cons, hf x hx, hx], ?_⟩
      intro k
      unfold find
      rw [hmod, List.find?_cons, List.find?_cons, List.find?_cons, hf x hx, hx]
      by_cases hk : k = k₀
      · subst hk
        simp only [decide_true, if_true, Option.map_some]
      · have hk' : decide (k₀ = k) = false := decide_eq_false (Ne.symm hk)
        simp only [hk', if_neg hk]
    · rw [if_neg (by rw [decide_eq_true_eq]; exact hx), Option.map_eq_some_iff] at h
      obtain ⟨j, hj, rfl⟩ := h
      obtain ⟨hkeys, hfind⟩ := modify_spec hf xs j hj
      have hmod : (x :: xs).modify (j + 1) f = x :: xs.modify j f := rfl
      refine ⟨by rw [hmod, List.map_cons, List.map_cons, hkeys], ?_⟩
      intro k
      have hx' : decide (key x = k₀) = false := decide_eq_false hx
      unfold find at hfind ⊢
      rw [hmod, List.find?_cons, List.find?_cons, List.find?_cons, hfind k, hx']
      by_cases hk : k = k₀
      · subst hk
        simp only [hx', if_true]
      · simp only [if_neg hk]

/-- **Adding one element**: refused where its key is new and there is no room. -/
theorem add_spec (limit : Nat) (hj : Joins key join) (l : List ε) (e : ε) :
    (add key join limit l e = none ↔ key e ∉ l.map key ∧ limit ≤ l.length) ∧
      ∀ t, add key join limit l e = some t → ((l.map key).Nodup → (t.map key).Nodup) ∧
        (∀ k, k ∈ t.map key ↔ k ∈ l.map key ∨ k = key e) ∧
        ∀ k, find key k t = if k = key e then joinInto join (find key k l) e else find key k l := by
  unfold add
  split
  · rename_i hnone
    have hnot : key e ∉ l.map key := by
      intro hmem
      obtain ⟨x, hx, hk⟩ := List.mem_map.1 hmem
      exact absurd (decide_eq_true hk) (by rw [List.findIdx?_eq_none_iff.1 hnone x hx]; exact Bool.false_ne_true)
    split
    · rename_i hfull
      exact ⟨⟨fun _ => ⟨hnot, hfull⟩, fun _ => rfl⟩, fun t ht => by cases ht⟩
    · rename_i hroom
      refine ⟨⟨fun h => (by cases h), fun h => absurd h.2 hroom⟩, ?_⟩
      intro t ht
      cases ht
      refine ⟨?_, ?_, ?_⟩
      · intro hnodup
        rw [List.map_append, List.map_cons, List.map_nil, ← List.concat_eq_append]
        exact hnodup.concat hnot
      · intro k
        rw [List.map_append, List.mem_append, List.map_cons, List.map_nil, List.mem_singleton]
      · intro k
        rw [find_append]
        by_cases hk : k = key e
        · subst hk
          rw [if_pos rfl, find_eq_none_of_not_mem hnot]
          unfold find
          rw [List.find?_cons, decide_eq_true rfl]
          rfl
        · rw [if_neg hk]
          have hsingle : find key k [e] = none := find_eq_none_of_not_mem (by
            rw [List.map_cons, List.map_nil, List.mem_singleton]
            exact hk)
          rw [hsingle, Option.or_none]
  · rename_i i hi
    have hmem : key e ∈ l.map key := by
      obtain ⟨hlt, hx, -⟩ := List.findIdx?_eq_some_iff_getElem.1 hi
      exact List.mem_map.2 ⟨_, List.getElem_mem hlt, of_decide_eq_true hx⟩
    refine ⟨⟨fun h => (by cases h), fun h => absurd hmem h.1⟩, ?_⟩
    intro t ht
    cases ht
    obtain ⟨hkeys, hfind⟩ := modify_spec (f := fun prior => join prior e)
      (fun x hx => (hj.key_join x e hx).trans hx) l i hi
    refine ⟨fun hnodup => by rw [hkeys]; exact hnodup, ?_, ?_⟩
    · intro k
      rw [hkeys]
      exact ⟨fun h => .inl h, fun h => h.elim id (fun hk => hk ▸ hmem)⟩
    · intro k
      rw [hfind k]
      by_cases hk : k = key e
      · subst hk
        obtain ⟨prior, hprior⟩ := Option.isSome_iff_exists.1 ((find_isSome_iff (key e) l).2 hmem)
        rw [if_pos rfl, if_pos rfl, hprior]
        rfl
      · rw [if_neg hk, if_neg hk]

theorem addAll_snoc (limit : Nat) (es : List ε) (e : ε) :
    addAll key join limit (es ++ [e]) = (addAll key join limit es).bind (fun l => add key join limit l e) := by
  unfold addAll
  rw [List.foldlM_append]
  cases es.foldlM (add key join limit) [] with
  | none => rfl
  | some l =>
    have hone : List.foldlM (add key join limit) l [e] = add key join limit l e := by
      rw [List.foldlM_cons]
      exact bind_pure _
    exact hone

theorem joined_snoc (k : κ) (es : List ε) (e : ε) : joined key join k (es ++ [e]) =
      if k = key e then joinInto join (joined key join k es) e else joined key join k es := by
  unfold joined
  rw [List.filter_append, List.foldl_append]
  by_cases hk : k = key e
  · have hone : [e].filter (fun x => decide (key x = k)) = [e] := by
      rw [List.filter_cons_of_pos (p := fun x => decide (key x = k)) (decide_eq_true hk.symm), List.filter_nil]
    rw [hone, if_pos hk]
    rfl
  · have hone : [e].filter (fun x => decide (key x = k)) = [] := by
      rw [List.filter_cons_of_neg (by rw [decide_eq_true_eq]; exact Ne.symm hk), List.filter_nil]
    rw [hone, if_neg hk]
    rfl

theorem keyCount_le_of_subset {es es' : List ε} (h : ∀ e ∈ es, e ∈ es') : keyCount key es ≤ keyCount key es' := by
  unfold keyCount
  apply Finset.card_le_card
  intro k hk
  rw [List.mem_toFinset] at hk ⊢
  obtain ⟨e, he, hek⟩ := List.mem_map.1 hk
  exact List.mem_map.2 ⟨e, h e he, hek⟩

theorem keyCount_eq_length {ks : List κ} {es : List ε} (hn : ks.Nodup) (hk : ∀ k, k ∈ ks ↔ k ∈ es.map key) :
    keyCount key es = ks.length := by
  have hset : (es.map key).toFinset = ks.toFinset := by
    ext k
    rw [List.mem_toFinset, List.mem_toFinset, hk]
  unfold keyCount
  rw [hset, List.toFinset_card_of_nodup hn]

theorem keyCount_snoc_new {es : List ε} {e : ε} (h : key e ∉ es.map key) : keyCount key (es ++ [e]) = keyCount key es + 1 := by
  have hset : ((es ++ [e]).map key).toFinset = insert (key e) (es.map key).toFinset := by
    ext k
    rw [List.mem_toFinset, List.map_append, List.mem_append, List.map_cons, List.map_nil, List.mem_singleton,
      Finset.mem_insert, List.mem_toFinset]
    exact or_comm
  unfold keyCount
  rw [hset, Finset.card_insert_of_notMem (by rw [List.mem_toFinset]; exact h)]

/-- **What is left after all elements**: nothing where there were too many keys, else the join for each key. -/
theorem addAll_spec (limit : Nat) (hj : Joins key join) (es : List ε) :
    (addAll key join limit es = none ↔ limit < keyCount key es) ∧
      ∀ t, addAll key join limit es = some t → (t.map key).Nodup ∧ (∀ k, k ∈ t.map key ↔ k ∈ es.map key) ∧
        ∀ k, find key k t = joined key join k es := by
  induction es using List.reverseRecOn with
  | nil =>
    refine ⟨⟨fun h => (by cases h), fun h => absurd h (Nat.not_lt_zero limit)⟩, ?_⟩
    intro t ht
    cases ht
    exact ⟨List.nodup_nil, fun k => Iff.rfl, fun k => rfl⟩
  | append_singleton es e ih =>
    obtain ⟨hnone, hsome⟩ := ih
    rw [addAll_snoc]
    cases hes : addAll key join limit es with
    | none =>
      have hlt := hnone.1 hes
      exact ⟨⟨fun _ => lt_of_lt_of_le hlt (keyCount_le_of_subset (fun x hx => List.mem_append_left [e] hx)), fun _ => rfl⟩, fun t ht => by cases ht⟩
    | some l =>
      obtain ⟨hn, hkeys, hfind⟩ := hsome l hes
      obtain ⟨hrefused, hadded⟩ := add_spec limit hj l e
      have hle : l.length ≤ limit := by
        have hcount := keyCount_eq_length hn hkeys
        rw [List.length_map] at hcount
        by_contra hlt
        rw [← hcount] at hlt
        rw [hnone.2 (Nat.lt_of_not_le hlt)] at hes
        cases hes
      rw [Option.bind_some]
      constructor
      · rw [hrefused]
        constructor
        · rintro ⟨hnew, hfull⟩
          have hcount := keyCount_eq_length hn hkeys
          rw [List.length_map] at hcount
          rw [keyCount_snoc_new (fun h => hnew ((hkeys _).2 h)), hcount]
          omega
        · intro hlt
          by_contra hno
          obtain ⟨t, ht⟩ := Option.ne_none_iff_exists'.1 (fun h => hno (hrefused.1 h))
          obtain ⟨hn', hkeys', -⟩ := hadded t ht
          have hcount : keyCount key (es ++ [e]) = (t.map key).length := keyCount_eq_length (hn' hn) (fun k => by
            rw [hkeys', hkeys, List.map_append, List.mem_append, List.map_cons, List.map_nil, List.mem_singleton])
          rw [List.length_map] at hcount
          have hlength : t.length ≤ max limit l.length := by
            unfold add at ht
            split at ht
            · split at ht
              · cases ht
              · cases ht
                rw [List.length_append, List.length_singleton]
                omega
            · cases ht
              rw [List.length_modify]
              omega
          omega
      · intro t ht
        obtain ⟨hn', hkeys', hfind'⟩ := hadded t ht
        refine ⟨hn' hn, ?_, ?_⟩
        · intro k
          rw [hkeys', hkeys, List.map_append, List.mem_append, List.map_cons, List.map_nil, List.mem_singleton]
        · intro k
          rw [hfind', joined_snoc, hfind]

omit [DecidableEq κ] in
theorem foldl_joinInto_perm (hj : Joins key join) {k : κ} {es es' : List ε} (hp : es.Perm es') :
    (∀ e ∈ es, key e = k) → ∀ o : Option ε, (∀ x, o = some x → key x = k) →
      es.foldl (joinInto join) o = es'.foldl (joinInto join) o := by
  induction hp with
  | nil => exact fun _ _ _ => rfl
  | @cons e l l' _ ih =>
    intro hes o ho
    rw [List.foldl_cons, List.foldl_cons]
    apply ih (fun x hx => hes x (List.mem_cons_of_mem e hx))
    intro x hx
    cases hx
    cases o with
    | none => exact hes e List.mem_cons_self
    | some p =>
      have hp := ho p rfl
      exact (hj.key_join p e (hp.trans (hes e List.mem_cons_self).symm)).trans hp
  | swap e f l =>
    intro hes o ho
    have he : key e = k := hes e (List.mem_cons_of_mem f List.mem_cons_self)
    have hf : key f = k := hes f List.mem_cons_self
    have hef : joinInto join (joinInto join o f) e = joinInto join (joinInto join o e) f := by
      cases o with
      | none => exact congrArg some (hj.comm f e (hf.trans he.symm))
      | some p =>
        have hp := ho p rfl
        apply congrArg some
        calc join (join p f) e = join p (join f e) := hj.assoc p f e (hp.trans hf.symm) (hf.trans he.symm)
          _ = join p (join e f) := by rw [hj.comm f e (hf.trans he.symm)]
          _ = join (join p e) f := (hj.assoc p e f (hp.trans he.symm) (he.trans hf.symm)).symm
    rw [List.foldl_cons, List.foldl_cons, List.foldl_cons, List.foldl_cons, hef]
  | trans h₁ _ ih₁ ih₂ =>
    intro hes o ho
    rw [ih₁ hes o ho]
    exact ih₂ (fun e he => hes e (h₁.mem_iff.2 he)) o ho

/-- **The join of a key does not depend on the order of the elements.** -/
theorem joined_perm (hj : Joins key join) {es es' : List ε} (hp : es.Perm es') (k : κ) :
    joined key join k es = joined key join k es' := by
  have hkeys : ∀ e ∈ es.filter (fun x => decide (key x = k)), key e = k := by
    intro e he
    exact of_decide_eq_true (List.mem_filter.1 he).2
  exact foldl_joinInto_perm hj (hp.filter _) hkeys none (fun x hx => by cases hx)

theorem keyCount_perm {es es' : List ε} (hp : es.Perm es') : keyCount key es = keyCount key es' := by
  unfold keyCount
  rw [List.toFinset_eq_of_perm _ _ (hp.map key)]

def amount (key : ε → κ) (f : ε → Nat) (k : κ) (es : List ε) : Nat :=
  ((es.filter (fun x => decide (key x = k))).map f).sum

theorem amount_append (f : ε → Nat) (k : κ) (es es' : List ε) :
    amount key f k (es ++ es') = amount key f k es + amount key f k es' := by
  unfold amount
  rw [List.filter_append, List.map_append, List.sum_append]

theorem amount_perm (f : ε → Nat) (k : κ) {es es' : List ε} (hp : es.Perm es') :
    amount key f k es = amount key f k es' := ((hp.filter _).map f).sum_eq

theorem amount_le_total (f : ε → Nat) (k : κ) (es : List ε) : amount key f k es ≤ (es.map f).sum :=
  ((List.filter_sublist).map f).sum_le_sum (fun _ _ => Nat.zero_le _)

theorem amount_cons (f : ε → Nat) (k : κ) (e : ε) (es : List ε) :
    amount key f k (e :: es) = (if key e = k then f e else 0) + amount key f k es := by
  unfold amount
  by_cases hk : key e = k
  · rw [List.filter_cons_of_pos (p := fun x => decide (key x = k)) (decide_eq_true hk), List.map_cons, List.sum_cons, if_pos hk]
  · rw [List.filter_cons_of_neg (by rw [decide_eq_true_eq]; exact hk), if_neg hk, Nat.zero_add]

theorem sum_amount_le_total (f : ε → Nat) {ks : List κ} (hn : ks.Nodup) (es : List ε) :
    (ks.map (fun k => amount key f k es)).sum ≤ (es.map f).sum := by
  induction es with
  | nil =>
    have hzero : ∀ k, amount key f k [] = 0 := fun _ => rfl
    simp [hzero]
  | cons e es ih =>
    have hone : (ks.map (fun k => if key e = k then f e else 0)).sum ≤ f e := by
      clear ih
      induction ks with
      | nil => exact Nat.zero_le _
      | cons k ks ihk =>
        obtain ⟨hnot, hn⟩ := List.nodup_cons.1 hn
        rw [List.map_cons, List.sum_cons]
        by_cases hk : key e = k
        · have hrest : (ks.map (fun j => if key e = j then f e else 0)).sum = 0 := by
            refine List.sum_eq_zero (fun x hx => ?_)
            obtain ⟨j, hj, rfl⟩ := List.mem_map.1 hx
            refine if_neg (fun hkj => hnot ?_)
            rw [← hk, hkj]
            exact hj
          rw [if_pos hk, hrest, Nat.add_zero]
        · rw [if_neg hk, Nat.zero_add]
          exact ihk hn
    have hsplit : (ks.map (fun k => amount key f k (e :: es))).sum =
        (ks.map (fun k => if key e = k then f e else 0)).sum + (ks.map (fun k => amount key f k es)).sum := by
      rw [← List.sum_map_add]
      exact congrArg List.sum (List.map_congr_left (fun k _ => amount_cons f k e es))
    rw [hsplit, List.map_cons, List.sum_cons]
    omega

omit [DecidableEq κ] in
theorem foldl_joinInto_amount {f : ε → Nat} {cap : Nat} {k : κ} (hj : Joins key join)
    (hf : ∀ x y, key x = key y → f (join x y) = min (f x + f y) cap) : ∀ (es : List ε) (o : Option ε),
    (∀ e ∈ es, key e = k ∧ f e ≤ cap) → (∀ x, o = some x → key x = k ∧ f x ≤ cap) →
      (es.foldl (joinInto join) o).elim 0 f = min (o.elim 0 f + (es.map f).sum) cap
  | [], o, _, ho => by
    have hle : o.elim 0 f ≤ cap := by
      cases o with
      | none => exact Nat.zero_le cap
      | some x => exact (ho x rfl).2
    rw [List.foldl_nil, List.map_nil, List.sum_nil, Nat.add_zero, min_eq_left hle]
  | e :: es, o, hes, ho => by
    obtain ⟨hek, hecap⟩ := hes e List.mem_cons_self
    have hstep : key ((joinInto join o e).get rfl) = k ∧
        f ((joinInto join o e).get rfl) = min (o.elim 0 f + f e) cap := by
      cases o with
      | none => exact ⟨hek, by rw [Option.elim_none, Nat.zero_add, min_eq_left hecap]; rfl⟩
      | some p =>
        obtain ⟨hpk, -⟩ := ho p rfl
        have hpe : key p = key e := hpk.trans hek.symm
        exact ⟨(hj.key_join p e hpe).trans hpk, hf p e hpe⟩
    have hsome : joinInto join o e = some ((joinInto join o e).get rfl) := rfl
    rw [List.foldl_cons, foldl_joinInto_amount hj hf es _ (fun x hx => hes x (List.mem_cons_of_mem e hx)) (by
      intro x hx
      rw [hsome] at hx
      cases hx
      exact ⟨hstep.1, by rw [hstep.2]; exact min_le_right _ _⟩), hsome, Option.elim_some, hstep.2, List.map_cons,
      List.sum_cons]
    omega

/-- **An entry's amount** is the sum over the elements with its key, up to the cap. -/
theorem joined_amount {f : ε → Nat} {cap : Nat} (hj : Joins key join)
    (hf : ∀ x y, key x = key y → f (join x y) = min (f x + f y) cap) (es : List ε) (hes : ∀ e ∈ es, f e ≤ cap) (k : κ) :
    (joined key join k es).elim 0 f = min (amount key f k es) cap := by
  have h := foldl_joinInto_amount (k := k) hj hf (es.filter (fun x => decide (key x = k))) none
    (fun e he => ⟨of_decide_eq_true (List.mem_filter.1 he).2, hes e (List.mem_filter.1 he).1⟩) (fun x hx => by cases hx)
  rw [Option.elim_none, Nat.zero_add] at h
  exact h

end Grouped
