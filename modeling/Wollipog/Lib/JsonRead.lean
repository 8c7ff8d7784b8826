import Wollipog.Lib.Json
/-!
# JsonRead — a written value reads back

Reading the compact text of a value gives the value without its undefined members.
-/
namespace Json

theorem encode_head (arrange : List (Text × Text) → List (Text × Text)) (v : Value) :
    ∃ c t, encode arrange v = c :: t ∧ isSpace c = false ∧ c ≠ 93 := by
  cases v with
  | null => exact ⟨110, _, rfl, rfl, by decide⟩
  | bool b => cases b <;> exact ⟨_, _, rfl, rfl, by decide⟩
  | number n =>
    cases n with
    | zero => exact ⟨48, _, rfl, rfl, by decide⟩
    | signed negative d =>
      cases negative with
      | true => exact ⟨45, _, rfl, rfl, by decide⟩
      | false =>
        obtain ⟨x, t, ht⟩ := d.text_head
        have hdigit : ∀ y : Fin 10, isSpace (digitUnit y) = false ∧ digitUnit y ≠ 93 := by decide
        exact ⟨digitUnit x, t, ht, (hdigit x).1, (hdigit x).2⟩
  | string s => exact ⟨34, _, rfl, rfl, by decide⟩
  | array l => exact ⟨91, _, rfl, rfl, by decide⟩
  | object m => exact ⟨123, _, rfl, rfl, by decide⟩

theorem skipSpace_cons {c : CodeUnit} (h : isSpace c = false) (t : Text) : skipSpace (c :: t) = c :: t := by
  unfold skipSpace
  rw [List.dropWhile_cons, h]
  rfl

theorem Stops.skipSpace {r : Text} (h : Stops r) : skipSpace r = r := by
  cases r with
  | nil => rfl
  | cons c t =>
    apply skipSpace_cons
    rcases h c t rfl with rfl | rfl | rfl <;> rfl

theorem stops_cons {c : CodeUnit} (h : c = 44 ∨ c = 93 ∨ c = 125) (t : Text) : Stops (c :: t) := by
  intro c' t' heq
  cases heq
  exact h

theorem expect_append (w r : Text) : expect w (w ++ r) = some r := by
  unfold expect
  rw [if_pos (List.isPrefixOf_iff_prefix.2 (List.prefix_append w r)), List.drop_left]

theorem readString_quote (s r : Text) : ∃ t, quote s ++ r = 34 :: t ∧ readString t = some (s, r) := by
  refine ⟨quoteUnits s ++ 34 :: r, ?_, readString_quoteUnits s r⟩
  unfold quote
  rw [List.cons_append, List.cons_append, List.append_assoc]
  rfl

theorem readValue_number (toDouble : Number → Number) (n : Number) {r : Text} (hr : Stops r) (fuel : Nat) :
    readValue toDouble (fuel + 1) (n.text ++ r) = some (.number (toDouble n), r) := by
  obtain ⟨c, t, ht, hspace, -⟩ := encode_head id (.number n)
  have htext : n.text = c :: t := ht
  have hread := readNumber_text n hr
  have hne : c ≠ 110 ∧ c ≠ 116 ∧ c ≠ 102 ∧ c ≠ 34 ∧ c ≠ 91 ∧ c ≠ 123 := by
    cases n with
    | zero =>
      cases htext
      decide
    | signed negative d =>
      cases negative with
      | true =>
        cases htext
        decide
      | false =>
        obtain ⟨x, t', ht'⟩ := d.text_head
        have hd : ∀ y : Fin 10, digitUnit y ≠ 110 ∧ digitUnit y ≠ 116 ∧ digitUnit y ≠ 102 ∧ digitUnit y ≠ 34 ∧
            digitUnit y ≠ 91 ∧ digitUnit y ≠ 123 := by decide
        have hx : digitUnit x = c := by
          have : d.text = c :: t := htext
          rw [ht'] at this
          exact (List.cons.inj this).1
        rw [← hx]
        exact hd x
  obtain ⟨h1, h2, h3, h4, h5, h6⟩ := hne
  rw [htext, List.cons_append] at hread ⊢
  unfold readValue
  simp only [skipSpace_cons hspace, if_neg h1, if_neg h2, if_neg h3, if_neg h4, if_neg h5, if_neg h6, hread, Option.map_some]

def parsedMembers : List (Text × Option Value) → List (Text × Value)
  | [] => []
  | (_, none) :: ms => parsedMembers ms
  | (k, some v) :: ms => (k, arranged id v) :: parsedMembers ms

theorem parsedMembers_keys : ∀ m : List (Text × Option Value), List.Sublist ((parsedMembers m).map Prod.fst) (m.map Prod.fst)
  | [] => List.Sublist.refl _
  | (k, none) :: ms => (parsedMembers_keys ms).cons k
  | (k, some _) :: ms => (parsedMembers_keys ms).cons_cons k

theorem arrangedMembers_parsed : ∀ m : List (Text × Option Value),
    arrangedMembers id m = (parsedMembers m).map (fun e => (e.1, some e.2))
  | [] => rfl
  | (_, none) :: ms => arrangedMembers_parsed ms
  | (k, some v) :: ms => by
    have h := arrangedMembers_parsed ms
    unfold arrangedMembers parsedMembers
    rw [h]
    rfl

theorem foldl_assign : ∀ (l : List (Text × Value)) (m : List (Text × Option Value)),
    (∀ e ∈ l, ∀ x ∈ m, x.1 ≠ e.1) → (l.map Prod.fst).Nodup →
      l.foldl (fun m e => assign m e.1 e.2) m = m ++ l.map (fun e => (e.1, some e.2))
  | [], m, _, _ => by rw [List.map_nil, List.append_nil]; rfl
  | e :: l, m, hm, hn => by
    rw [List.map_cons, List.nodup_cons] at hn
    obtain ⟨he, hn⟩ := hn
    have hassign : assign m e.1 e.2 = m ++ [(e.1, some e.2)] := by
      unfold assign
      rw [if_neg]
      rw [Bool.not_eq_true, List.any_eq_false]
      intro x hx
      rw [beq_iff_eq]
      exact hm e List.mem_cons_self x hx
    have hnew : ∀ e' ∈ l, ∀ x ∈ m ++ [(e.1, some e.2)], x.1 ≠ e'.1 := by
      intro e' he' x hx
      rcases List.mem_append.1 hx with hx | hx
      · exact hm e' (List.mem_cons_of_mem e he') x hx
      · rw [List.mem_singleton] at hx
        subst hx
        intro heq
        exact he (List.mem_map.2 ⟨e', he', heq.symm⟩)
    rw [List.foldl_cons, hassign, foldl_assign l _ hnew hn, List.map_cons, List.append_assoc]
    rfl

theorem assignAll_parsed {m : List (Text × Option Value)} (h : (m.map Prod.fst).Nodup) :
    assignAll (parsedMembers m) = arrangedMembers id m := by
  unfold assignAll
  rw [foldl_assign _ _ (fun _ _ _ hx => absurd hx List.not_mem_nil) (h.sublist (parsedMembers_keys m)),
    arrangedMembers_parsed]
  rfl

theorem commas_cons (t : Text) {ts : List Text} (h : ts ≠ []) : commas (t :: ts) = t ++ 44 :: commas ts := by
  cases ts with
  | nil => exact absurd rfl h
  | cons u us => rfl

theorem encodeMembers_eq_nil {m : List (Text × Option Value)} (h : encodeMembers id m = []) : parsedMembers m = [] := by
  induction m with
  | nil => rfl
  | cons e ms ih =>
    obtain ⟨k, v⟩ := e
    cases v with
    | none => exact ih h
    | some v => cases h

section Reading

variable (toDouble : Number → Number)

theorem object_text (m : List (Text × Option Value)) (r : Text) :
    encode id (.object m) ++ r = 123 :: (commas ((encodeMembers id m).map memberText) ++ 125 :: r) := by
  unfold encode
  rw [List.cons_append, List.cons_append, List.append_assoc]
  rfl

/-- An object closes itself: anything may stand behind it. -/
theorem readValue_object {m : List (Text × Option Value)} (hnodup : (m.map Prod.fst).Nodup) (fuel : Nat) (r : Text)
    (hread : encodeMembers id m ≠ [] → readMembers toDouble fuel (commas ((encodeMembers id m).map memberText) ++ 125 :: r) =
      some (parsedMembers m, r)) : readValue toDouble (fuel + 1) (encode id (.object m) ++ r) = some (arranged id (.object m), r) := by
  have h1 : (123 : CodeUnit) ≠ 110 := by decide
  have h2 : (123 : CodeUnit) ≠ 116 := by decide
  have h3 : (123 : CodeUnit) ≠ 102 := by decide
  have h4 : (123 : CodeUnit) ≠ 34 := by decide
  have h5 : (123 : CodeUnit) ≠ 91 := by decide
  have harr : arranged id (.object m) = .object (arrangedMembers id m) := rfl
  rw [object_text]
  rw [harr]
  unfold readValue
  simp only [skipSpace_cons (show isSpace 123 = false from rfl), if_neg h1, if_neg h2, if_neg h3, if_neg h4, if_neg h5, if_true]
  by_cases hm : encodeMembers id m = []
  · have hskip : skipSpace (commas ((encodeMembers id m).map memberText) ++ 125 :: r) = 125 :: r := by
      rw [hm]
      exact skipSpace_cons rfl r
    rw [hskip, arrangedMembers_parsed, encodeMembers_eq_nil hm]
    simp only [List.head?_cons, if_true, List.drop_one, List.tail_cons]
    rfl
  · obtain ⟨e, es, hes⟩ := List.exists_cons_of_ne_nil hm
    obtain ⟨t', ht'⟩ : ∃ t', commas ((encodeMembers id m).map memberText) ++ 125 :: r = 34 :: t' := by
      rw [hes]
      cases es with
      | nil => exact ⟨_, rfl⟩
      | cons x xs => exact ⟨_, rfl⟩
    have hnot : (skipSpace (commas ((encodeMembers id m).map memberText) ++ 125 :: r)).head? ≠ some 125 := by
      rw [ht', skipSpace_cons rfl, List.head?_cons]
      decide
    rw [if_neg hnot, hread hm]
    simp only [Option.map_some]
    rw [assignAll_parsed hnodup]

mutual

/-- **A value reads back**: enough fuel for the text, and something that stops it behind. -/
theorem readValue_encode : ∀ (v : Value), v.Wf toDouble → ∀ (fuel : Nat) (r : Text), Stops r →
    2 * (encode id v ++ r).length < fuel → readValue toDouble fuel (encode id v ++ r) = some (arranged id v, r)
  | .null, _, fuel + 1, r, _, _ => by
    have h := expect_append [117, 108, 108] r
    unfold encode readValue
    rw [List.cons_append, skipSpace_cons rfl]
    simp only [if_true, h, Option.map_some]
    rfl
  | .bool true, _, fuel + 1, r, _, _ => by
    have h := expect_append [114, 117, 101] r
    have h1 : (116 : CodeUnit) ≠ 110 := by decide
    unfold encode readValue
    rw [List.cons_append, skipSpace_cons rfl]
    simp only [if_neg h1, if_true, h, Option.map_some]
    rfl
  | .bool false, _, fuel + 1, r, _, _ => by
    have h := expect_append [97, 108, 115, 101] r
    have h1 : (102 : CodeUnit) ≠ 110 := by decide
    have h2 : (102 : CodeUnit) ≠ 116 := by decide
    unfold encode readValue
    rw [List.cons_append, skipSpace_cons rfl]
    simp only [if_neg h1, if_neg h2, if_true, h, Option.map_some]
    rfl
  | .number n, hw, fuel + 1, r, hr, _ => by
    have h := readValue_number toDouble n hr fuel
    have hn : toDouble n = n := hw
    rw [hn] at h
    exact h
  | .string s, _, fuel + 1, r, _, _ => by
    obtain ⟨t, ht, hread⟩ := readString_quote s r
    have h1 : (34 : CodeUnit) ≠ 110 := by decide
    have h2 : (34 : CodeUnit) ≠ 116 := by decide
    have h3 : (34 : CodeUnit) ≠ 102 := by decide
    have henc : encode id (.string s) ++ r = 34 :: t := ht
    rw [henc]
    unfold readValue
    simp only [skipSpace_cons (show isSpace 34 = false from rfl), if_neg h1, if_neg h2, if_neg h3, if_true, hread, Option.map_some]
    rfl
  | .array l, hw, fuel + 1, r, hr, hf => by
    have h1 : (91 : CodeUnit) ≠ 110 := by decide
    have h2 : (91 : CodeUnit) ≠ 116 := by decide
    have h3 : (91 : CodeUnit) ≠ 102 := by decide
    have h4 : (91 : CodeUnit) ≠ 34 := by decide
    have henc : encode id (.array l) ++ r = 91 :: (commas (encodeElements id l) ++ 93 :: r) := by
      unfold encode
      rw [List.cons_append, List.cons_append, List.append_assoc]
      rfl
    rw [henc] at hf ⊢
    unfold readValue
    simp only [skipSpace_cons (show isSpace 91 = false from rfl), if_neg h1, if_neg h2, if_neg h3, if_neg h4, if_true]
    cases l with
    | nil =>
      have hskip : skipSpace (commas (encodeElements id []) ++ 93 :: r) = 93 :: r := skipSpace_cons rfl r
      rw [hskip]
      simp only [List.head?_cons, if_true, List.drop_one, List.tail_cons]
      rfl
    | cons v vs =>
      have hread := readElements_encode v vs hw fuel r (by rw [List.length_cons] at hf; omega)
      obtain ⟨c, t, hc, hspace, h93⟩ := encode_head id v
      obtain ⟨t', ht'⟩ : ∃ t', commas (encodeElements id (v :: vs)) ++ 93 :: r = c :: t' := by
        unfold encodeElements
        cases encodeElements id vs with
        | nil => exact ⟨_, by unfold commas; rw [hc]; rfl⟩
        | cons x xs => exact ⟨_, by unfold commas; rw [hc]; rfl⟩
      have hnot : (skipSpace (commas (encodeElements id (v :: vs)) ++ 93 :: r)).head? ≠ some 93 := by
        rw [ht', skipSpace_cons hspace, List.head?_cons]
        exact fun h => h93 (Option.some.inj h)
      rw [if_neg hnot, hread]
      rfl
  | .object m, hw, fuel + 1, r, _, hf =>
    readValue_object toDouble hw.1 fuel r (fun hm => readMembers_encode m hw.2 hm fuel r (by
      have henc : encode id (.object m) ++ r = 123 :: (commas ((encodeMembers id m).map memberText) ++ 125 :: r) := object_text m r
      rw [henc, List.length_cons] at hf
      omega))

theorem readElements_encode : ∀ (v : Value) (vs : List Value), WfElements toDouble (v :: vs) → ∀ (fuel : Nat) (r : Text),
    2 * (commas (encodeElements id (v :: vs)) ++ 93 :: r).length + 1 < fuel →
    readElements toDouble fuel (commas (encodeElements id (v :: vs)) ++ 93 :: r) = some (arrangedElements id (v :: vs), r)
  | v, [], hw, fuel + 1, r, hf => by
    have hv : v.Wf toDouble := hw.1
    have htext : commas (encodeElements id [v]) ++ 93 :: r = encode id v ++ 93 :: r := rfl
    have hstop : Stops (93 :: r) := stops_cons (.inr (.inl rfl)) r
    have h93 : (93 : CodeUnit) ≠ 44 := by decide
    rw [htext] at hf ⊢
    have hread := readValue_encode v hv fuel (93 :: r) hstop (by omega)
    unfold readElements
    simp only [hread, Option.bind_some, hstop.skipSpace, if_neg h93, if_true]
    rfl
  | v, w :: ws, hw, fuel + 1, r, hf => by
    have hv : v.Wf toDouble := hw.1
    have htext : commas (encodeElements id (v :: w :: ws)) ++ 93 :: r =
        encode id v ++ 44 :: (commas (encodeElements id (w :: ws)) ++ 93 :: r) := by
      have hc : encodeElements id (v :: w :: ws) = encode id v :: encodeElements id (w :: ws) := rfl
      have hne : encodeElements id (w :: ws) ≠ [] := by
        unfold encodeElements
        exact List.cons_ne_nil _ _
      rw [hc, commas_cons _ hne, List.append_assoc]
      rfl
    have hstop : Stops (44 :: (commas (encodeElements id (w :: ws)) ++ 93 :: r)) := stops_cons (.inl rfl) _
    rw [htext] at hf ⊢
    have hread := readValue_encode v hv fuel _ hstop (by omega)
    have hrest := readElements_encode w ws hw.2 fuel r (by rw [List.length_append, List.length_cons] at hf; omega)
    unfold readElements
    simp only [hread, Option.bind_some, hstop.skipSpace, if_true, hrest, Option.map_some]
    rfl

theorem readMembers_encode : ∀ (m : List (Text × Option Value)), WfMembers toDouble m → encodeMembers id m ≠ [] →
    ∀ (fuel : Nat) (r : Text), 2 * (commas ((encodeMembers id m).map memberText) ++ 125 :: r).length + 1 < fuel →
    readMembers toDouble fuel (commas ((encodeMembers id m).map memberText) ++ 125 :: r) = some (parsedMembers m, r)
  | [], _, hne, _, _, _ => absurd rfl hne
  | (_, none) :: ms, hw, hne, fuel, r, hf => readMembers_encode ms hw hne fuel r hf
  | (k, some v) :: ms, hw, _, fuel + 1, r, hf => by
    have hv : v.Wf toDouble := hw.1
    have hcons : encodeMembers id ((k, some v) :: ms) = (k, encode id v) :: encodeMembers id ms := rfl
    have h125 : (125 : CodeUnit) ≠ 44 := by decide
    by_cases hms : encodeMembers id ms = []
    · have htext : commas ((encodeMembers id ((k, some v) :: ms)).map memberText) ++ 125 :: r =
          quote k ++ 58 :: (encode id v ++ 125 :: r) := by
        rw [hcons, hms]
        unfold List.map List.map commas memberText
        simp only [List.append_assoc, List.cons_append]
      have hstop : Stops (125 :: r) := stops_cons (.inr (.inr rfl)) r
      obtain ⟨t, ht, hkey⟩ := readString_quote k (58 :: (encode id v ++ 125 :: r))
      have hcolon : expect [58] (skipSpace (58 :: (encode id v ++ 125 :: r))) = some (encode id v ++ 125 :: r) := by
        rw [skipSpace_cons rfl]
        exact expect_append [58] _
      rw [htext] at hf ⊢
      have hread := readValue_encode v hv fuel (125 :: r) hstop (by rw [List.length_append, List.length_cons] at hf; omega)
      rw [ht]
      unfold readMembers
      simp only [skipSpace_cons (show isSpace 34 = false from rfl), if_true, hkey, Option.bind_some, hcolon, hread,
        hstop.skipSpace, if_neg h125]
      unfold parsedMembers
      rw [encodeMembers_eq_nil hms]
    · have htext : commas ((encodeMembers id ((k, some v) :: ms)).map memberText) ++ 125 :: r =
          quote k ++ 58 :: (encode id v ++ 44 :: (commas ((encodeMembers id ms).map memberText) ++ 125 :: r)) := by
        have hmap : (encodeMembers id ms).map memberText ≠ [] := by
          rw [Ne, List.map_eq_nil_iff]
          exact hms
        rw [hcons, List.map_cons, commas_cons _ hmap]
        unfold memberText
        simp only [List.append_assoc, List.cons_append]
      have hstop : Stops (44 :: (commas ((encodeMembers id ms).map memberText) ++ 125 :: r)) := stops_cons (.inl rfl) _
      obtain ⟨t, ht, hkey⟩ := readString_quote k
        (58 :: (encode id v ++ 44 :: (commas ((encodeMembers id ms).map memberText) ++ 125 :: r)))
      have hcolon : expect [58] (skipSpace (58 :: (encode id v ++ 44 ::
            (commas ((encodeMembers id ms).map memberText) ++ 125 :: r)))) =
          some (encode id v ++ 44 :: (commas ((encodeMembers id ms).map memberText) ++ 125 :: r)) := by
        rw [skipSpace_cons rfl]
        exact expect_append [58] _
      rw [htext] at hf ⊢
      have hread := readValue_encode v hv fuel _ hstop (by rw [List.length_append, List.length_cons] at hf; omega)
      have hrest := readMembers_encode ms hw.2 hms fuel r (by
        rw [List.length_append, List.length_cons, List.length_append, List.length_cons] at hf
        omega)
      rw [ht]
      unfold readMembers
      simp only [skipSpace_cons (show isSpace 34 = false from rfl), if_true, hkey, Option.bind_some, hcolon, hread,
        hstop.skipSpace, hrest, Option.map_some]
      rfl

end

/-- **Reading what was written** gives the value without its undefined members. -/
theorem parse_stringify {v : Value} (h : v.Wf toDouble) : parse toDouble (stringify v) = some (arranged id v) := by
  have hstop : Stops [] := fun c t hc => by cases hc
  have hread := readValue_encode toDouble v h (2 * (stringify v).length + 1) [] hstop (by
    rw [List.append_nil]
    exact Nat.lt_succ_self _)
  rw [List.append_nil] at hread
  have hread' : readValue toDouble (2 * (stringify v).length + 1) (stringify v) = some (arranged id v, []) := hread
  unfold parse
  rw [hread']
  rfl

/-- An object and a line break behind it. -/
theorem parse_line {m : List (Text × Option Value)} (h : (Value.object m).Wf toDouble) :
    parse toDouble (stringify (.object m) ++ [10]) = some (arranged id (.object m)) := by
  have hread := readValue_object toDouble h.1 (2 * (stringify (.object m) ++ [10]).length) [10]
    (fun hm => readMembers_encode toDouble m h.2 hm _ _ (by
      have henc : stringify (.object m) ++ [10] = _ := object_text m [10]
      rw [henc, List.length_cons]
      omega))
  have hread' : readValue toDouble (2 * (stringify (.object m) ++ [10]).length + 1) (stringify (.object m) ++ [10]) =
    some (arranged id (.object m), [10]) := hread
  unfold parse
  rw [hread']
  rfl

mutual

theorem encode_arranged : ∀ v : Value, encode id (arranged id v) = encode id v
  | .null => rfl
  | .bool _ => rfl
  | .number _ => rfl
  | .string _ => rfl
  | .array l => by
    unfold arranged encode
    rw [encodeElements_arranged l]
  | .object m => by
    unfold arranged encode
    simp only [id_eq]
    rw [encodeMembers_arranged m]

theorem encodeElements_arranged : ∀ l : List Value, encodeElements id (arrangedElements id l) = encodeElements id l
  | [] => rfl
  | v :: vs => by
    unfold arrangedElements encodeElements
    rw [encode_arranged v, encodeElements_arranged vs]

theorem encodeMembers_arranged : ∀ m : List (Text × Option Value), encodeMembers id (arrangedMembers id m) = encodeMembers id m
  | [] => rfl
  | (_, none) :: ms => by
    simp only [arrangedMembers, encodeMembers]
    exact encodeMembers_arranged ms
  | (k, some v) :: ms => by
    unfold arrangedMembers encodeMembers
    rw [encode_arranged v, encodeMembers_arranged ms]

end

/-- **Values read alike exactly where their texts are one.** -/
theorem parse_stringify_eq_iff {v w : Value} (hv : v.Wf toDouble) (hw : w.Wf toDouble) :
    parse toDouble (stringify v) = parse toDouble (stringify w) ↔ stringify v = stringify w := by
  constructor
  · intro h
    rw [parse_stringify toDouble hv, parse_stringify toDouble hw, Option.some.injEq] at h
    have htext := congrArg stringify h
    unfold stringify at htext ⊢
    rwa [encode_arranged, encode_arranged] at htext
  · exact congrArg (parse toDouble)

end Reading

end Json
