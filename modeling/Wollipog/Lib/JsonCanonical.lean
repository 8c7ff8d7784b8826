import Wollipog.Lib.JsonRead
/-!
# JsonCanonical — one text for a value, whatever the order of its members

`canonical` writes the members of every object by their keys.  `Same` is what it keeps of a value: everything but the
order of members and the undefined ones.
-/
namespace Json

theorem Value.parts {P : Value → Prop} (hnull : P .null) (hbool : ∀ b, P (.bool b)) (hnumber : ∀ n, P (.number n))
    (hstring : ∀ s, P (.string s)) (harray : ∀ l, (∀ v ∈ l, P v) → P (.array l))
    (hobject : ∀ m, (∀ k v, (k, some v) ∈ m → P v) → P (.object m)) (v : Value) : P v := by
  refine @Value.rec P (fun l => ∀ v ∈ l, P v) (fun m => ∀ k v, (k, some v) ∈ m → P v)
    (fun e => ∀ v, e.2 = some v → P v) (fun o => ∀ v, o = some v → P v) ?_ ?_ ?_ ?_ ?_ ?_ ?_ ?_ ?_ ?_ ?_ ?_ ?_ v
  · exact hnull
  · exact hbool
  · exact hnumber
  · exact hstring
  · exact fun l ih => harray l ih
  · exact fun m ih => hobject m ih
  · exact List.forall_mem_nil _
  · intro v vs hv hvs w hw
    rcases List.mem_cons.1 hw with rfl | hw
    · exact hv
    · exact hvs w hw
  · exact fun k v hv => absurd hv List.not_mem_nil
  · intro e ms he hms k v hv
    rcases List.mem_cons.1 hv with heq | hv
    · exact he v (by rw [← heq])
    · exact hms k v hv
  · exact fun k o ho v hv => ho v hv
  · exact fun v hv => by cases hv
  · intro v hv w hw
    cases hw
    exact hv

/-! ## Members -/

def defined (m : List (Text × Option Value)) : List (Text × Value) := m.filterMap (fun e => e.2.map (fun v => (e.1, v)))

/-- `object[key]`, `none` where it is undefined. -/
def get (m : List (Text × Option Value)) (k : Text) : Option Value := (m.find? (fun e => e.1 == k)).bind Prod.snd

variable {α : Type} {v w : Value} {toDouble : Number → Number} {m : List (Text × Option Value)}
  {a : List (Text × Option Value) → List (Text × Option Value)}

theorem mem_defined {e : Text × Value} : e ∈ defined m ↔ (e.1, some e.2) ∈ m := by
  unfold defined
  rw [List.mem_filterMap]
  constructor
  · rintro ⟨⟨k, o⟩, hmem, heq⟩
    cases o with
    | none => cases heq
    | some v =>
      cases heq
      exact hmem
  · exact fun h => ⟨_, h, rfl⟩

theorem defined_keys (m : List (Text × Option Value)) : List.Sublist ((defined m).map Prod.fst) (m.map Prod.fst) := by
  induction m with
  | nil => exact List.Sublist.refl _
  | cons e ms ih =>
    obtain ⟨k, o⟩ := e
    cases o with
    | none => exact ih.cons k
    | some v => exact ih.cons_cons k

theorem get_eq_some (h : (m.map Prod.fst).Nodup) {k : Text} : get m k = some v ↔ (k, some v) ∈ m := by
  induction m with
  | nil =>
    constructor
    · exact fun hget => by cases hget
    · exact fun hmem => absurd hmem List.not_mem_nil
  | cons e ms ih =>
    obtain ⟨j, o⟩ := e
    rw [List.map_cons, List.nodup_cons] at h
    obtain ⟨hj, hms⟩ := h
    unfold get at ih ⊢
    rw [List.find?_cons, List.mem_cons]
    by_cases hk : j = k
    · subst hk
      have hnot : (j, some v) ∉ ms := fun hmem => hj (List.mem_map.2 ⟨_, hmem, rfl⟩)
      simp only [beq_self_eq_true, Option.bind_some]
      constructor
      · exact fun ho => .inl (by rw [ho])
      · rintro (heq | hmem)
        · cases heq
          rfl
        · exact absurd hmem hnot
    · have hbeq : (j == k) = false := beq_eq_false_iff_ne.2 hk
      simp only [hbeq]
      rw [ih hms]
      constructor
      · exact fun hmem => .inr hmem
      · rintro (heq | hmem)
        · cases heq
          exact absurd rfl hk
        · exact hmem

theorem defined_map_some (f : Value → Value) (l : List (Text × Value)) :
    defined (l.map (fun e => (e.1, some (f e.2)))) = l.map (fun e => (e.1, f e.2)) := by
  unfold defined
  rw [List.filterMap_map, ← List.filterMap_eq_map]
  rfl

theorem encodeElements_eq (a : List (Text × Text) → List (Text × Text)) (l : List Value) :
    encodeElements a l = l.map (encode a) := by
  induction l with
  | nil => rfl
  | cons v vs ih =>
    unfold encodeElements
    rw [ih, List.map_cons]

theorem encodeMembers_eq (a : List (Text × Text) → List (Text × Text)) (m : List (Text × Option Value)) :
    encodeMembers a m = (defined m).map (fun e => (e.1, encode a e.2)) := by
  induction m with
  | nil => rfl
  | cons e ms ih =>
    obtain ⟨k, o⟩ := e
    cases o with
    | none => exact ih
    | some v =>
      unfold encodeMembers
      rw [ih]
      rfl

theorem arrangedElements_eq (a : List (Text × Option Value) → List (Text × Option Value)) (l : List Value) :
    arrangedElements a l = l.map (arranged a) := by
  induction l with
  | nil => rfl
  | cons v vs ih =>
    unfold arrangedElements
    rw [ih, List.map_cons]

theorem arrangedMembers_eq (a : List (Text × Option Value) → List (Text × Option Value)) (m : List (Text × Option Value)) :
    arrangedMembers a m = (defined m).map (fun e => (e.1, some (arranged a e.2))) := by
  induction m with
  | nil => rfl
  | cons e ms ih =>
    obtain ⟨k, o⟩ := e
    cases o with
    | none => exact ih
    | some v =>
      unfold arrangedMembers
      rw [ih]
      rfl

theorem wfElements_iff {l : List Value} : WfElements toDouble l ↔ ∀ v ∈ l, v.Wf toDouble := by
  induction l with
  | nil => exact ⟨fun _ v hv => absurd hv List.not_mem_nil, fun _ => trivial⟩
  | cons v vs ih =>
    unfold WfElements
    rw [ih, List.forall_mem_cons]

theorem wfMembers_iff : WfMembers toDouble m ↔ ∀ e ∈ defined m, e.2.Wf toDouble := by
  induction m with
  | nil => exact ⟨fun _ e he => absurd he List.not_mem_nil, fun _ => trivial⟩
  | cons e ms ih =>
    obtain ⟨k, o⟩ := e
    cases o with
    | none => exact ih
    | some v =>
      have hdef : defined ((k, some v) :: ms) = (k, v) :: defined ms := rfl
      unfold WfMembers
      rw [ih, hdef, List.forall_mem_cons]

theorem byKey_perm (l : List (Text × α)) : List.Perm (byKey l) l := List.perm_insertionSort _ l

theorem byKey_sorted (l : List (Text × α)) : (byKey l).Pairwise (fun a b => a.1 ≤ b.1) := by
  have htotal : Std.Total (fun a b : Text × α => a.1 ≤ b.1) := ⟨fun a b => le_total a.1 b.1⟩
  have htrans : IsTrans (Text × α) (fun a b => a.1 ≤ b.1) := ⟨fun _ _ _ hab hbc => le_trans hab hbc⟩
  exact List.pairwise_insertionSort _ l

theorem byKey_map {β : Type} (f : α → β) (l : List (Text × α)) :
    byKey (l.map (fun e => (e.1, f e.2))) = (byKey l).map (fun e => (e.1, f e.2)) := by
  have h := List.map_insertionSort (fun a b : Text × α => a.1 ≤ b.1) (fun a b : Text × β => a.1 ≤ b.1)
    (fun e => (e.1, f e.2)) l (fun a _ b _ => Iff.rfl)
  exact h.symm

/-- **The order by key is the only one**: two lists of the same members with each key once sort to one list. -/
theorem byKey_eq {l m : List (Text × α)} (hl : (l.map Prod.fst).Nodup) (hm : (m.map Prod.fst).Nodup)
    (h : ∀ e, e ∈ l ↔ e ∈ m) : byKey l = byKey m := by
  have hperm : List.Perm l m := (List.perm_ext_iff_of_nodup hl.of_map hm.of_map).2 h
  have hsort : List.Perm (byKey l) (byKey m) := ((byKey_perm l).trans hperm).trans (byKey_perm m).symm
  refine hsort.eq_of_pairwise ?_ (byKey_sorted l) (byKey_sorted m)
  intro a b ha hb hab hba
  have hkey : a.1 = b.1 := le_antisymm hab hba
  have ha' : a ∈ l := (byKey_perm l).mem_iff.1 ha
  have hb' : b ∈ l := (h b).2 ((byKey_perm m).mem_iff.1 hb)
  exact List.inj_on_of_nodup_map hl ha' hb' hkey

def Moves (a : List (Text × Option Value) → List (Text × Option Value)) : Prop := ∀ l, List.Perm (a l) l

theorem moves_id : Moves id := fun l => List.Perm.refl l

theorem moves_byKey : Moves byKey := fun l => byKey_perm l

theorem keys_arrangedMembers (a : List (Text × Option Value) → List (Text × Option Value)) (m : List (Text × Option Value)) :
    (arrangedMembers a m).map Prod.fst = (defined m).map Prod.fst := by
  rw [arrangedMembers_eq, List.map_map]
  rfl

theorem nodup_arrangedMembers (h : (m.map Prod.fst).Nodup) : ((arrangedMembers a m).map Prod.fst).Nodup := by
  rw [keys_arrangedMembers]
  exact h.sublist (defined_keys m)

theorem mem_arrangedMembers
    {e : Text × Option Value} : e ∈ arrangedMembers a m ↔ ∃ v, (e.1, some v) ∈ m ∧ e.2 = some (arranged a v) := by
  rw [arrangedMembers_eq, List.mem_map]
  constructor
  · rintro ⟨⟨k, v⟩, hmem, rfl⟩
    exact ⟨v, mem_defined.1 hmem, rfl⟩
  · rintro ⟨v, hmem, hv⟩
    exact ⟨(e.1, v), mem_defined.2 hmem, by rw [← hv]⟩

theorem Value.Wf.arranged (ha : Moves a) : ∀ v : Value, v.Wf toDouble → (Json.arranged a v).Wf toDouble := by
  intro v
  induction v using Value.parts with
  | hnull => exact id
  | hbool b => exact id
  | hnumber n => exact id
  | hstring s => exact id
  | harray l ih =>
    intro h
    have hl : ∀ v ∈ l, v.Wf toDouble := wfElements_iff.1 h
    refine wfElements_iff.2 ?_
    rw [arrangedElements_eq, List.forall_mem_map]
    exact fun v hv => ih v hv (hl v hv)
  | hobject m ih =>
    rintro ⟨hnodup, hm⟩
    refine ⟨?_, wfMembers_iff.2 ?_⟩
    · exact ((ha _).map Prod.fst).nodup_iff.2 (nodup_arrangedMembers hnodup)
    · intro e he
      have hmem := (ha _).mem_iff.1 (mem_defined.1 he)
      obtain ⟨v, hv, heq⟩ := mem_arrangedMembers.1 hmem
      rw [Option.some.inj heq]
      exact ih _ v hv (wfMembers_iff.1 hm (_, v) (mem_defined.2 hv))

/-- **Writing by key is writing the value arranged by key.** -/
theorem encode_byKey (v : Value) : encode byKey v = stringify (arranged byKey v) := by
  induction v using Value.parts with
  | hnull => rfl
  | hbool b => cases b <;> rfl
  | hnumber n => rfl
  | hstring s => rfl
  | harray l ih =>
    have hl : encodeElements byKey l = encodeElements id (arrangedElements byKey l) := by
      rw [encodeElements_eq, encodeElements_eq, arrangedElements_eq, List.map_map]
      exact List.map_congr_left ih
    unfold stringify arranged encode
    rw [hl]
  | hobject m ih =>
    have hsorted : byKey (arrangedMembers byKey m) = (byKey (defined m)).map (fun e => (e.1, some (arranged byKey e.2))) := by
      rw [arrangedMembers_eq]
      exact byKey_map (fun v => some (arranged byKey v)) (defined m)
    have hm : byKey (encodeMembers byKey m) = encodeMembers id (byKey (arrangedMembers byKey m)) := by
      rw [hsorted, encodeMembers_eq, encodeMembers_eq, defined_map_some, byKey_map (encode byKey), List.map_map]
      refine List.map_congr_left ?_
      intro e he
      rw [Function.comp, ih e.1 e.2 (mem_defined.1 ((byKey_perm _).mem_iff.1 he))]
      rfl
    unfold stringify arranged encode
    rw [hm]
    rfl

inductive Same : Value → Value → Prop
  | null : Same .null .null
  | bool (b : Bool) : Same (.bool b) (.bool b)
  | number (n : Number) : Same (.number n) (.number n)
  | string (s : Text) : Same (.string s) (.string s)
  | array (l m : List Value) (hlength : l.length = m.length)
      (heach : ∀ (i : Nat) (v w : Value), l[i]? = some v → m[i]? = some w → Same v w) : Same (.array l) (.array m)
  | object (l m : List (Text × Option Value)) (hkeys : ∀ k, (get l k).isSome = (get m k).isSome)
      (heach : ∀ k v w, get l k = some v → get m k = some w → Same v w) : Same (.object l) (.object m)

theorem Same.symm (h : Same v w) : Same w v := by
  induction h with
  | null => exact .null
  | bool b => exact .bool b
  | number n => exact .number n
  | string s => exact .string s
  | array l m hlength _ ih => exact .array m l hlength.symm (fun i v w hv hw => ih i w v hw hv)
  | object l m hkeys _ ih => exact .object m l (fun k => (hkeys k).symm) (fun k v w hv hw => ih k w v hw hv)

theorem Same.trans {u : Value} (huv : Same u v) (hvw : Same v w) : Same u w := by
  induction huv generalizing w with
  | null => exact hvw
  | bool b => exact hvw
  | number n => exact hvw
  | string s => exact hvw
  | array l m hlength heach ih =>
    cases hvw with
    | array _ n hlength' heach' =>
      refine .array l n (hlength.trans hlength') ?_
      intro i v w hv hw
      obtain ⟨x, hx⟩ : ∃ x, m[i]? = some x := by
        have hi : i < l.length := (List.getElem?_eq_some_iff.1 hv).1
        exact ⟨_, List.getElem?_eq_getElem (hlength ▸ hi)⟩
      exact ih i v x hv hx (heach' i x w hx hw)
  | object l m hkeys heach ih =>
    cases hvw with
    | object _ n hkeys' heach' =>
      refine .object l n (fun k => (hkeys k).trans (hkeys' k)) ?_
      intro k v w hv hw
      obtain ⟨x, hx⟩ : ∃ x, get m k = some x := by
        rw [← Option.isSome_iff_exists, ← hkeys k, hv]
        rfl
      exact ih k v x hv hx (heach' k x w hx hw)

theorem same_arranged (ha : Moves a) : ∀ v : Value, v.Wf toDouble → Same v (arranged a v) := by
  intro v
  induction v using Value.parts with
  | hnull => exact fun _ => .null
  | hbool b => exact fun _ => .bool b
  | hnumber n => exact fun _ => .number n
  | hstring s => exact fun _ => .string s
  | harray l ih =>
    intro h
    have hl : ∀ v ∈ l, v.Wf toDouble := wfElements_iff.1 h
    have hmap : arrangedElements a l = l.map (arranged a) := arrangedElements_eq a l
    refine .array _ _ (by rw [hmap, List.length_map]) ?_
    intro i v w hv hw
    have hmem : v ∈ l := List.mem_of_getElem? hv
    rw [hmap, List.getElem?_map, hv] at hw
    cases hw
    exact ih v hmem (hl v hmem)
  | hobject m ih =>
    rintro ⟨hnodup, hm⟩
    have hnodup' : ((a (arrangedMembers a m)).map Prod.fst).Nodup :=
      ((ha _).map Prod.fst).nodup_iff.2 (nodup_arrangedMembers hnodup)
    -- a key of the arranged object holds the arranged value, and no other key is defined in it
    have hget : ∀ k, get (a (arrangedMembers a m)) k = (get m k).map (arranged a) := by
      intro k
      apply Option.ext
      intro x
      rw [get_eq_some hnodup', (ha _).mem_iff, mem_arrangedMembers, Option.map_eq_some_iff]
      constructor
      · rintro ⟨v, hv, heq⟩
        exact ⟨v, (get_eq_some hnodup).2 hv, (Option.some.inj heq).symm⟩
      · rintro ⟨v, hv, heq⟩
        exact ⟨v, (get_eq_some hnodup).1 hv, by rw [heq]⟩
    refine .object _ _ (fun k => by rw [hget, Option.isSome_map]) ?_
    intro k v w hv hw
    have hmem := (get_eq_some hnodup).1 hv
    rw [hget, hv] at hw
    cases hw
    exact ih k v hmem (wfMembers_iff.1 hm (k, v) (mem_defined.2 hmem))

/-- **Arranging by key forgets what `Same` forgets.** -/
theorem arranged_eq_of_same (h : Same v w) (hv : v.Wf toDouble) (hw : w.Wf toDouble) : arranged byKey v = arranged byKey w := by
  induction h with
  | null => rfl
  | bool b => rfl
  | number n => rfl
  | string s => rfl
  | array l m hlength _ ih =>
    have hl : ∀ v ∈ l, v.Wf toDouble := wfElements_iff.1 hv
    have hm : ∀ v ∈ m, v.Wf toDouble := wfElements_iff.1 hw
    have heq : arrangedElements byKey l = arrangedElements byKey m := by
      rw [arrangedElements_eq, arrangedElements_eq]
      apply List.ext_getElem
      · rw [List.length_map, List.length_map, hlength]
      · intro i hi hj
        rw [List.length_map] at hi hj
        rw [List.getElem_map, List.getElem_map]
        exact ih i _ _ (List.getElem?_eq_getElem hi) (List.getElem?_eq_getElem hj) (hl _ (List.getElem_mem hi))
          (hm _ (List.getElem_mem hj))
    unfold arranged
    rw [heq]
  | object l m hkeys _ ih =>
    obtain ⟨hln, hl⟩ : (l.map Prod.fst).Nodup ∧ WfMembers toDouble l := hv
    obtain ⟨hmn, hm⟩ : (m.map Prod.fst).Nodup ∧ WfMembers toDouble m := hw
    have hvalue : ∀ k v w, get l k = some v → get m k = some w → arranged byKey v = arranged byKey w := by
      intro k v w hkv hkw
      exact ih k v w hkv hkw (wfMembers_iff.1 hl (k, v) (mem_defined.2 ((get_eq_some hln).1 hkv)))
        (wfMembers_iff.1 hm (k, w) (mem_defined.2 ((get_eq_some hmn).1 hkw)))
    have heq : byKey (arrangedMembers byKey l) = byKey (arrangedMembers byKey m) := by
      refine byKey_eq (nodup_arrangedMembers hln) (nodup_arrangedMembers hmn) ?_
      intro e
      rw [mem_arrangedMembers, mem_arrangedMembers]
      constructor
      · rintro ⟨v, hmem, he⟩
        have hkv := (get_eq_some hln).2 hmem
        obtain ⟨w, hkw⟩ : ∃ w, get m e.1 = some w := by
          rw [← Option.isSome_iff_exists, ← hkeys, hkv]
          rfl
        exact ⟨w, (get_eq_some hmn).1 hkw, by rw [he, hvalue _ v w hkv hkw]⟩
      · rintro ⟨w, hmem, he⟩
        have hkw := (get_eq_some hmn).2 hmem
        obtain ⟨v, hkv⟩ : ∃ v, get l e.1 = some v := by
          rw [← Option.isSome_iff_exists, hkeys, hkw]
          rfl
        exact ⟨v, (get_eq_some hln).1 hkv, by rw [he, hvalue _ v w hkv hkw]⟩
    unfold arranged
    rw [heq]

theorem arranged_id_arranged (v : Value) : arranged id (arranged byKey v) = arranged byKey v := by
  induction v using Value.parts with
  | hnull => rfl
  | hbool b => rfl
  | hnumber n => rfl
  | hstring s => rfl
  | harray l ih =>
    have heq : arrangedElements id (arrangedElements byKey l) = arrangedElements byKey l := by
      rw [arrangedElements_eq, arrangedElements_eq, List.map_map]
      exact List.map_congr_left ih
    have hunfold : arranged id (arranged byKey (.array l)) = .array (arrangedElements id (arrangedElements byKey l)) := rfl
    rw [hunfold, heq]
    rfl
  | hobject m ih =>
    have hsorted : byKey (arrangedMembers byKey m) = (byKey (defined m)).map (fun e => (e.1, some (arranged byKey e.2))) := by
      rw [arrangedMembers_eq]
      exact byKey_map (fun v => some (arranged byKey v)) (defined m)
    have heq : arrangedMembers id (byKey (arrangedMembers byKey m)) = byKey (arrangedMembers byKey m) := by
      rw [hsorted, arrangedMembers_eq, defined_map_some, List.map_map]
      refine List.map_congr_left ?_
      intro e he
      rw [Function.comp, ih e.1 e.2 (mem_defined.1 ((byKey_perm _).mem_iff.1 he))]
    have hunfold : arranged id (arranged byKey (.object m)) = .object (arrangedMembers id (byKey (arrangedMembers byKey m))) := rfl
    rw [hunfold, heq]
    rfl

def canonical (v : Value) : Text := encode byKey v

section Canonical

variable {toDouble : Number → Number}

/-- **The canonical text reads back** as the value arranged by key. -/
theorem parse_canonical {v : Value} (h : v.Wf toDouble) : parse toDouble (canonical v) = some (arranged byKey v) := by
  unfold canonical
  rw [encode_byKey, parse_stringify toDouble (h.arranged moves_byKey v), arranged_id_arranged]

/-- **The canonical text names the value**, up to the order of members and the undefined ones. -/
theorem canonical_eq_iff {v w : Value} (hv : v.Wf toDouble) (hw : w.Wf toDouble) : canonical v = canonical w ↔ Same v w := by
  constructor
  · intro h
    have hparse := parse_canonical hv
    rw [h, parse_canonical hw] at hparse
    have hsame := same_arranged moves_byKey v hv
    rw [← Option.some.inj hparse] at hsame
    exact hsame.trans (same_arranged moves_byKey w hw).symm
  · intro h
    unfold canonical
    rw [encode_byKey, encode_byKey, arranged_eq_of_same h hv hw]

inductive Trip (toDouble : Number → Number) (v w : Value) : Prop
  | plain (h : parse toDouble (stringify v) = some w)
  | canonical (h : parse toDouble (canonical v) = some w)

theorem Trip.same {v w : Value} (h : Trip toDouble v w) (hv : v.Wf toDouble) : w.Wf toDouble ∧ Same v w := by
  cases h with
  | plain h =>
    rw [parse_stringify toDouble hv] at h
    cases h
    exact ⟨hv.arranged moves_id v, same_arranged moves_id v hv⟩
  | canonical h =>
    rw [parse_canonical hv] at h
    cases h
    exact ⟨hv.arranged moves_byKey v, same_arranged moves_byKey v hv⟩

/-- **Any number of ways through JSON** leave the canonical text as it was. -/
theorem canonical_eq_of_trips {v w : Value} (h : Relation.ReflTransGen (Trip toDouble) v w) (hv : v.Wf toDouble) :
    w.Wf toDouble ∧ canonical w = canonical v := by
  induction h with
  | refl => exact ⟨hv, rfl⟩
  | tail _ hlast ih =>
    obtain ⟨hmid, heq⟩ := ih
    obtain ⟨hwf, hsame⟩ := hlast.same hmid
    exact ⟨hwf, ((canonical_eq_iff hmid hwf).2 hsame).symm.trans heq⟩

end Canonical

end Json
