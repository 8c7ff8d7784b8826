import Mathlib
/-!
# JsonText — strings and numbers as they stand in a JSON text

A finite number is the decimal that its shortest text denotes: a sign, digits without zeros at either end, and where
the point stands.
-/
namespace Json

abbrev CodeUnit := Fin 65536
abbrev Text := List CodeUnit

instance instNeZeroUnits : NeZero 65536 := ⟨by decide⟩

/-! ## Strings -/

def hexUnit (n : Nat) : CodeUnit := if n % 16 < 10 then Fin.ofNat 65536 (48 + n % 16) else Fin.ofNat 65536 (87 + n % 16)

def hexValue (c : CodeUnit) : Option Nat :=
  if 48 ≤ c.val ∧ c.val ≤ 57 then some (c.val - 48)
  else if 97 ≤ c.val ∧ c.val ≤ 102 then some (c.val - 87)
  else if 65 ≤ c.val ∧ c.val ≤ 70 then some (c.val - 55)
  else none

/-- `\uXXXX` -/
def unicodeEscape (c : CodeUnit) : Text :=
  [92, 117, hexUnit (c.val / 4096), hexUnit (c.val / 256), hexUnit (c.val / 16), hexUnit c.val]

def isLead (c : CodeUnit) : Bool := decide (0xd800 ≤ c.val) && decide (c.val ≤ 0xdbff)
def isTrail (c : CodeUnit) : Bool := decide (0xdc00 ≤ c.val) && decide (c.val ≤ 0xdfff)

def quoteUnit (c : CodeUnit) : Text :=
  if c = 34 then [92, 34]
  else if c = 92 then [92, 92]
  else if c = 8 then [92, 98]
  else if c = 12 then [92, 102]
  else if c = 10 then [92, 110]
  else if c = 13 then [92, 114]
  else if c = 9 then [92, 116]
  else if c.val < 32 || isLead c || isTrail c then unicodeEscape c
  else [c]

def quoteUnits : Text → Text
  | [] => []
  | [c] => quoteUnit c
  | c :: d :: r => if isLead c && isTrail d then c :: d :: quoteUnits r else quoteUnit c ++ quoteUnits (d :: r)

def quote (s : Text) : Text := 34 :: quoteUnits s ++ [34]

def escapeValue (c : CodeUnit) : Option CodeUnit :=
  if c = 34 then some 34
  else if c = 92 then some 92
  else if c = 47 then some 47
  else if c = 98 then some 8
  else if c = 102 then some 12
  else if c = 110 then some 10
  else if c = 114 then some 13
  else if c = 116 then some 9
  else none

def hex4 (a b c d : CodeUnit) : Option CodeUnit :=
  match hexValue a, hexValue b, hexValue c, hexValue d with
  | some a, some b, some c, some d => some (Fin.ofNat 65536 (4096 * a + 256 * b + 16 * c + d))
  | _, _, _, _ => none

def readString : Text → Option (Text × Text)
  | [] => none
  | c :: r =>
    if c = 34 then some ([], r)
    else if c = 92 then
      match r with
      | [] => none
      | e :: r =>
        if e = 117 then
          match r with
          | x :: y :: z :: w :: r => (hex4 x y z w).bind (fun u => (readString r).map (fun p => (u :: p.1, p.2)))
          | _ => none
        else (escapeValue e).bind (fun u => (readString r).map (fun p => (u :: p.1, p.2)))
    else if c.val < 32 then none
    else (readString r).map (fun p => (c :: p.1, p.2))

theorem hexValue_hexUnit (n : Nat) : hexValue (hexUnit n) = some (n % 16) := by
  have hlt : n % 16 < 16 := Nat.mod_lt _ (by decide)
  unfold hexUnit hexValue
  split
  · rename_i h
    have hval : (Fin.ofNat 65536 (48 + n % 16)).val = 48 + n % 16 := Nat.mod_eq_of_lt (by omega)
    rw [hval, if_pos (by omega)]
    congr 1
    omega
  · rename_i h
    have hval : (Fin.ofNat 65536 (87 + n % 16)).val = 87 + n % 16 := Nat.mod_eq_of_lt (by omega)
    rw [hval, if_neg (by omega), if_pos (by omega)]
    congr 1
    omega

theorem hex4_unicodeEscape (c : CodeUnit) :
    hex4 (hexUnit (c.val / 4096)) (hexUnit (c.val / 256)) (hexUnit (c.val / 16)) (hexUnit c.val) = some c := by
  have hlt : c.val < 65536 := c.isLt
  unfold hex4
  simp only [hexValue_hexUnit, Option.some.injEq]
  apply Fin.ext
  have hsum : 4096 * (c.val / 4096 % 16) + 256 * (c.val / 256 % 16) + 16 * (c.val / 16 % 16) + c.val % 16 = c.val := by omega
  rw [hsum]
  exact Nat.mod_eq_of_lt hlt

theorem readString_close (r : Text) : readString (34 :: r) = some ([], r) := by rw [readString.eq_def]; rfl

theorem readString_escape {e u : CodeUnit} (he : e ≠ 117) (hu : escapeValue e = some u) (r : Text) :
    readString (92 :: e :: r) = (readString r).map (fun p => (u :: p.1, p.2)) := by
  have h92 : (92 : CodeUnit) ≠ 34 := by decide
  rw [readString.eq_def]
  simp only [if_neg h92, if_neg he, hu, if_true, Option.bind_some]

theorem readString_unicode (c : CodeUnit) (r : Text) :
    readString (unicodeEscape c ++ r) = (readString r).map (fun p => (c :: p.1, p.2)) := by
  have h92 : (92 : CodeUnit) ≠ 34 := by decide
  unfold unicodeEscape
  simp only [List.cons_append, List.nil_append]
  rw [readString.eq_def]
  simp only [if_neg h92, if_true, hex4_unicodeEscape, Option.bind_some]

variable {e : Int} {n : Nat} {r : Text} {c : CodeUnit}

theorem readString_plain (h34 : c ≠ 34) (h92 : c ≠ 92) (h32 : ¬ c.val < 32) (r : Text) :
    readString (c :: r) = (readString r).map (fun p => (c :: p.1, p.2)) := by
  rw [readString.eq_def]
  simp only [if_neg h34, if_neg h92, if_neg h32]

theorem readString_quoteUnit (c : CodeUnit) (r : Text) :
    readString (quoteUnit c ++ r) = (readString r).map (fun p => (c :: p.1, p.2)) := by
  unfold quoteUnit
  iterate 7
    split
    · subst c; exact readString_escape (by decide) rfl r
  split
  · exact readString_unicode c r
  · rename_i h34 h92 _ _ _ _ _ hplain
    simp only [Bool.or_eq_true, decide_eq_true_eq, not_or] at hplain
    exact readString_plain h34 h92 hplain.1.1 r

theorem readString_pair {d : CodeUnit} (hc : isLead c = true) (hd : isTrail d = true) (r : Text) :
    readString (c :: d :: r) = (readString r).map (fun p => (c :: d :: p.1, p.2)) := by
  have plain : ∀ x : CodeUnit, 0xd800 ≤ x.val → ∀ r, readString (x :: r) = (readString r).map (fun p => (x :: p.1, p.2)) := by
    intro x hx r
    have h34 : x ≠ 34 := by rintro rfl; revert hx; decide
    have h92 : x ≠ 92 := by rintro rfl; revert hx; decide
    exact readString_plain h34 h92 (by omega) r
  unfold isLead at hc
  unfold isTrail at hd
  simp only [Bool.and_eq_true, decide_eq_true_eq] at hc hd
  rw [plain c hc.1, plain d (by omega)]
  cases readString r with
  | none => rfl
  | some p => rfl

/-- **A quoted string reads back**, whatever follows it. -/
theorem readString_quoteUnits (s r : Text) : readString (quoteUnits s ++ 34 :: r) = some (s, r) := by
  induction s using quoteUnits.induct with
  | case1 => exact readString_close r
  | case2 c =>
    have hq : quoteUnits [c] = quoteUnit c := rfl
    rw [hq, readString_quoteUnit, readString_close]
    rfl
  | case3 c d s hpair ih =>
    rw [quoteUnits, if_pos hpair]
    rw [Bool.and_eq_true] at hpair
    rw [List.cons_append, List.cons_append, readString_pair hpair.1 hpair.2, ih]
    rfl
  | case4 c d s hpair ih =>
    rw [quoteUnits, if_neg hpair, List.append_assoc, readString_quoteUnit, ih]
    rfl

/-! ## Numbers -/

structure Decimal where
  digits : List (Fin 10)
  point : Int
  nonempty : digits ≠ []
  head : digits.head? ≠ some 0
  last : digits.getLast? ≠ some 0
deriving DecidableEq

inductive Number
  | zero
  | signed (negative : Bool) (d : Decimal)
deriving DecidableEq

def digitUnit (d : Fin 10) : CodeUnit := ⟨48 + d.val, by omega⟩

def digitOf (c : CodeUnit) : Option (Fin 10) :=
  if h : 48 ≤ c.val ∧ c.val ≤ 57 then some ⟨c.val - 48, by omega⟩ else none

def natDigits (n : Nat) : List (Fin 10) := ((Nat.digits 10 n).map (fun d => Fin.ofNat 10 d)).reverse

def natValue (l : List (Fin 10)) : Nat := l.foldl (fun a d => 10 * a + d.val) 0

def digitUnits (l : List (Fin 10)) : Text := l.map digitUnit

def exponentText (e : Int) : Text :=
  101 :: (if 0 ≤ e then 43 else 45) :: digitUnits (natDigits e.natAbs)

/-- `Number::toString` of a positive number. -/
def Decimal.text (d : Decimal) : Text :=
  let k : Int := d.digits.length
  let n := d.point
  if k ≤ n ∧ n ≤ 21 then digitUnits d.digits ++ digitUnits (List.replicate (n - k).toNat 0)
  else if 0 < n ∧ n ≤ 21 then digitUnits (d.digits.take n.toNat) ++ 46 :: digitUnits (d.digits.drop n.toNat)
  else if -6 < n ∧ n ≤ 0 then 48 :: 46 :: digitUnits (List.replicate (-n).toNat 0) ++ digitUnits d.digits
  else match d.digits.drop 1 with
    | [] => digitUnits d.digits ++ exponentText (n - 1)
    | rest => digitUnits (d.digits.take 1) ++ 46 :: digitUnits rest ++ exponentText (n - 1)

def Number.text : Number → Text
  | .zero => [48]
  | .signed negative d => if negative then 45 :: d.text else d.text

def takeDigits : Text → List (Fin 10) × Text
  | [] => ([], [])
  | c :: r =>
    match digitOf c with
    | none => ([], c :: r)
    | some d => (d :: (takeDigits r).1, (takeDigits r).2)

def Number.make (negative : Bool) (digits : List (Fin 10)) (point : Int) : Number :=
  let stripped := digits.dropWhile (fun d => d == 0)
  let trimmed := stripped.rdropWhile (fun d => d == 0)
  if h : trimmed = [] then .zero
  else .signed negative
    { digits := trimmed
      point := point - (digits.length - stripped.length : Int)
      nonempty := h
      head := by
        intro h0
        have hpre : trimmed <+: stripped := List.rdropWhile_prefix _ _
        obtain ⟨t, ht⟩ := hpre
        have hhead : stripped.head? = some 0 := by
          rw [← ht, List.head?_append_of_ne_nil _ h]
          exact h0
        have hne : stripped ≠ [] := by
          rintro he
          rw [he] at hhead
          cases hhead
        have hnot := List.head_dropWhile_not (fun d : Fin 10 => d == 0) hne
        rw [List.head?_eq_some_head hne] at hhead
        rw [Option.some.inj hhead] at hnot
        exact absurd hnot (by decide)
      last := by
        intro h0
        have hnot := List.rdropWhile_last_not (fun d : Fin 10 => d == 0) stripped h
        rw [List.getLast?_eq_some_getLast h] at h0
        rw [Option.some.inj h0] at hnot
        exact hnot rfl }

def readExponent (s : Text) : Option (Int × Text) :=
  match s with
  | [] => some (0, [])
  | c :: r =>
    if c = 101 ∨ c = 69 then
      let signed : Int × Text := match r with
        | [] => (1, [])
        | x :: r' => if x = 43 then (1, r') else if x = 45 then (-1, r') else (1, x :: r')
      let d := takeDigits signed.2
      if d.1 = [] then none else some (signed.1 * natValue d.1, d.2)
    else some (0, c :: r)

def readFraction (s : Text) : Option (List (Fin 10) × Text) :=
  match s with
  | [] => some ([], [])
  | c :: r =>
    if c = 46 then
      let d := takeDigits r
      if d.1 = [] then none else some d
    else some ([], c :: r)

/-- `int frac? exp?` -/
def readUnsigned (negative : Bool) (s : Text) : Option (Number × Text) :=
  let i := takeDigits s
  -- no leading zero before another digit
  if i.1 = [] ∨ (i.1.head? = some 0 ∧ 1 < i.1.length) then none
  else (readFraction i.2).bind (fun f => (readExponent f.2).map (fun e =>
    (Number.make negative (i.1 ++ f.1) (i.1.length + e.1), e.2)))

def readNumber (s : Text) : Option (Number × Text) :=
  match s with
  | [] => none
  | c :: r => if c = 45 then readUnsigned true r else readUnsigned false (c :: r)

/-! ### A number reads back -/

def Stops (r : Text) : Prop := ∀ c t, r = c :: t → c = 44 ∨ c = 93 ∨ c = 125

def NoDigit (r : Text) : Prop := ∀ c t, r = c :: t → digitOf c = none

theorem Stops.noDigit (h : Stops r) : NoDigit r := by
  intro c t hr
  rcases h c t hr with rfl | rfl | rfl <;> rfl

theorem noDigit_cons (h : digitOf c = none) (r : Text) : NoDigit (c :: r) := by
  intro c' t hr
  cases hr
  exact h

theorem digitOf_digitUnit (d : Fin 10) : digitOf (digitUnit d) = some d := by
  have hd : d.val < 10 := d.isLt
  unfold digitOf digitUnit
  rw [dif_pos (by simp only; omega)]
  congr 1
  apply Fin.ext
  simp only
  omega

theorem digitUnits_append (l k : List (Fin 10)) : digitUnits (l ++ k) = digitUnits l ++ digitUnits k := List.map_append

theorem takeDigits_digitUnits {r : Text} (hr : NoDigit r) : ∀ l : List (Fin 10), takeDigits (digitUnits l ++ r) = (l, r)
  | [] => by
    cases r with
    | nil => rfl
    | cons c t =>
      have hc := hr c t rfl
      unfold digitUnits
      rw [List.map_nil, List.nil_append, takeDigits, hc]
  | d :: l => by
    have hcons : digitUnits (d :: l) ++ r = digitUnit d :: (digitUnits l ++ r) := rfl
    rw [hcons, takeDigits, digitOf_digitUnit, takeDigits_digitUnits hr l]

theorem natValue_append (l : List (Fin 10)) (d : Fin 10) : natValue (l ++ [d]) = 10 * natValue l + d.val := by
  unfold natValue
  rw [List.foldl_append]
  rfl

theorem natValue_natDigits (n : Nat) : natValue (natDigits n) = n := by
  unfold natDigits
  induction n using Nat.strong_induction_on with
  | _ n ih =>
    rcases Nat.eq_zero_or_pos n with rfl | hpos
    · rfl
    · rw [Nat.digits_def' (by decide) hpos, List.map_cons, List.reverse_cons, natValue_append,
        ih (n / 10) (Nat.div_lt_self hpos (by decide))]
      have hval : (Fin.ofNat 10 (n % 10)).val = n % 10 := Nat.mod_mod n 10
      rw [hval]
      omega

theorem natDigits_ne_nil (h : n ≠ 0) : natDigits n ≠ [] := by
  unfold natDigits
  rw [Ne, List.reverse_eq_nil_iff, List.map_eq_nil_iff]
  exact Nat.digits_ne_nil_iff_ne_zero.2 h

theorem readExponent_stops (hr : Stops r) : readExponent r = some (0, r) := by
  cases r with
  | nil => rfl
  | cons c t =>
    have hc : ¬ (c = 101 ∨ c = 69) := by
      rcases hr c t rfl with rfl | rfl | rfl <;> decide
    unfold readExponent
    simp only
    rw [if_neg hc]

theorem readExponent_text (he : e ≠ 0) (hr : NoDigit r) : readExponent (exponentText e ++ r) = some (e, r) := by
  have hne : natDigits e.natAbs ≠ [] := natDigits_ne_nil (by omega)
  have htake := takeDigits_digitUnits hr (natDigits e.natAbs)
  unfold exponentText readExponent
  simp only [List.cons_append, true_or, if_true]
  by_cases h0 : 0 ≤ e
  · simp only [if_pos h0, if_true, htake, if_neg hne, natValue_natDigits, one_mul]
    congr 2
    omega
  · have h45 : (45 : CodeUnit) ≠ 43 := by decide
    simp only [if_neg h0, if_neg h45, if_true, htake, if_neg hne, natValue_natDigits]
    congr 2
    omega

theorem readFraction_not (hr : ∀ c t, r = c :: t → c ≠ 46) : readFraction r = some ([], r) := by
  cases r with
  | nil => rfl
  | cons c t =>
    unfold readFraction
    simp only
    rw [if_neg (hr c t rfl)]

theorem readFraction_digits {l : List (Fin 10)} (hl : l ≠ []) (hr : NoDigit r) :
    readFraction (46 :: (digitUnits l ++ r)) = some (l, r) := by
  unfold readFraction
  simp only [if_true, takeDigits_digitUnits hr, if_neg hl]

/-- **Zeros at either end are not part of a decimal.** -/
theorem make_padded (negative : Bool) (d : Decimal) (a b : Nat) :
    Number.make negative (List.replicate a 0 ++ (d.digits ++ List.replicate b 0)) (d.point + a) = .signed negative d := by
  have hhead : ∀ l : List (Fin 10), (d.digits ++ l).dropWhile (fun x => x == 0) = d.digits ++ l := by
    intro l
    cases hd : d.digits with
    | nil => exact absurd hd d.nonempty
    | cons x t =>
      have hx : (x == 0) = false := by
        have := d.head
        rw [hd] at this
        simpa using this
      rw [List.cons_append, List.dropWhile_cons, hx]
      rfl
  have hdrop : (List.replicate a 0 ++ (d.digits ++ List.replicate b 0)).dropWhile (fun x : Fin 10 => x == 0) =
      d.digits ++ List.replicate b 0 := by
    induction a with
    | zero => exact hhead _
    | succ a ih =>
      rw [List.replicate_succ, List.cons_append, List.dropWhile_cons]
      exact ih
  have htrim : ∀ b, (d.digits ++ List.replicate b 0).rdropWhile (fun x : Fin 10 => x == 0) = d.digits := by
    intro b
    induction b with
    | zero =>
      rw [List.replicate_zero, List.append_nil, List.rdropWhile_eq_self_iff]
      intro h0 hlast
      have := d.last
      rw [List.getLast?_eq_some_getLast h0] at this
      exact this (congrArg some (eq_of_beq hlast))
    | succ b ih =>
      rw [List.replicate_succ', ← List.append_assoc, List.rdropWhile_concat_pos _ _ _ rfl]
      exact ih
  unfold Number.make
  simp only [hdrop, htrim]
  rw [dif_neg d.nonempty]
  congr 1
  cases d with
  | mk digits point nonempty head last =>
    congr 1
    simp only [List.length_append, List.length_replicate]
    push_cast
    omega

theorem readUnsigned_parts (negative : Bool) {i f : List (Fin 10)} {s s' s'' : Text}
    (hi : takeDigits s = (i, s')) (hne : i ≠ []) (hzero : i.head? = some 0 → i.length ≤ 1)
    (hf : readFraction s' = some (f, s'')) (he : readExponent s'' = some (e, r)) :
    readUnsigned negative s = some (Number.make negative (i ++ f) (i.length + e), r) := by
  have hno : ¬ (i = [] ∨ (i.head? = some 0 ∧ 1 < i.length)) := by
    rintro (h | ⟨h0, hlt⟩)
    · exact hne h
    · have := hzero h0
      omega
  unfold readUnsigned
  simp only [hi, if_neg hno, hf, Option.bind_some, he, Option.map_some]

theorem Decimal.head_take (d : Decimal) (hn : 0 < n) : (d.digits.take n).head? ≠ some 0 := by
  cases hd : d.digits with
  | nil => exact absurd hd d.nonempty
  | cons x t =>
    obtain ⟨m, rfl⟩ : ∃ m, n = m + 1 := ⟨n - 1, by omega⟩
    have := d.head
    rw [hd] at this
    exact this

theorem Stops.not_point (h : Stops r) : ∀ c t, r = c :: t → c ≠ 46 := by
  intro c t hr
  rcases h c t hr with rfl | rfl | rfl <;> decide

/-- **The text of a positive number reads back.** -/
theorem readUnsigned_text (negative : Bool) (d : Decimal) (hr : Stops r) :
    readUnsigned negative (d.text ++ r) = some (.signed negative d, r) := by
  have hlen : 0 < d.digits.length := List.length_pos_iff.2 d.nonempty
  have hhead : d.digits.head? = some 0 → d.digits.length ≤ 1 := fun h => absurd h d.head
  have hpoint : digitOf 46 = none := rfl
  have hexp : digitOf 101 = none := rfl
  have hnopoint : ∀ e : Int, ∀ c t, exponentText e ++ r = c :: t → c ≠ 46 := by
    intro e c t h
    cases h
    decide
  have hnd : ∀ e : Int, NoDigit (exponentText e ++ r) := fun e => noDigit_cons hexp _
  unfold Decimal.text
  simp only
  split
  · -- an integer, with zeros up to its point
    rename_i h
    rw [List.append_assoc, ← List.append_assoc, ← digitUnits_append]
    have hi := takeDigits_digitUnits hr.noDigit (d.digits ++ List.replicate (d.point - d.digits.length).toNat 0)
    have hhead' : (d.digits ++ List.replicate (d.point - d.digits.length).toNat 0).head? = some 0 →
        (d.digits ++ List.replicate (d.point - d.digits.length).toNat 0).length ≤ 1 := by
      rw [List.head?_append_of_ne_nil _ d.nonempty]
      exact fun h => absurd h d.head
    rw [readUnsigned_parts negative hi (by simp [d.nonempty]) hhead' (readFraction_not hr.not_point) (readExponent_stops hr),
      List.append_nil]
    have hmake := make_padded negative d 0 (d.point - d.digits.length).toNat
    rw [List.replicate_zero, List.nil_append] at hmake
    rw [← hmake]
    congr 3
    rw [List.length_append, List.length_replicate]
    omega
  split
  · -- the point among the digits
    rename_i hA hB
    have hpos : 0 < d.point.toNat := by omega
    have hlt : d.point.toNat < d.digits.length := by omega
    have hrest : d.digits.drop d.point.toNat ≠ [] := by
      rw [Ne, List.drop_eq_nil_iff]
      omega
    have htake : d.digits.take d.point.toNat ≠ [] := by
      rw [Ne, List.take_eq_nil_iff]
      rintro (h0 | h0)
      · omega
      · exact d.nonempty h0
    rw [List.append_assoc, List.cons_append]
    have hi := takeDigits_digitUnits (noDigit_cons hpoint (digitUnits (d.digits.drop d.point.toNat) ++ r))
      (d.digits.take d.point.toNat)
    rw [readUnsigned_parts negative hi htake (fun h => absurd h (d.head_take hpos)) (readFraction_digits hrest hr.noDigit)
      (readExponent_stops hr), List.take_append_drop]
    have hmake := make_padded negative d 0 0
    rw [List.replicate_zero, List.nil_append, List.append_nil] at hmake
    rw [← hmake]
    congr 3
    rw [List.length_take]
    omega
  split
  · -- zeros after the point
    rename_i hA hB hC
    have h48 : ([48] : Text) = digitUnits [0] := rfl
    have hsplit : (48 :: 46 :: digitUnits (List.replicate (-d.point).toNat 0) ++ digitUnits d.digits) ++ r =
        digitUnits [0] ++ 46 :: (digitUnits (List.replicate (-d.point).toNat 0 ++ d.digits) ++ r) := by
      rw [← h48, digitUnits_append]
      simp
    have hne : List.replicate (-d.point).toNat 0 ++ d.digits ≠ [] := by simp [d.nonempty]
    rw [hsplit]
    have hi := takeDigits_digitUnits
      (noDigit_cons hpoint (digitUnits (List.replicate (-d.point).toNat 0 ++ d.digits) ++ r)) [0]
    rw [readUnsigned_parts negative hi (by simp) (fun _ => le_rfl) (readFraction_digits hne hr.noDigit)
      (readExponent_stops hr)]
    have hmake := make_padded negative d ((-d.point).toNat + 1) 0
    rw [List.replicate_zero, List.append_nil] at hmake
    rw [← hmake]
    congr 3
    simp only [List.length_singleton]
    omega
  · -- an exponent
    rename_i hA hB hC
    have he : d.point - 1 ≠ 0 := by omega
    split
    · rename_i hdrop
      have hone : d.digits.length = 1 := by
        have := congrArg List.length hdrop
        rw [List.length_drop, List.length_nil] at this
        omega
      rw [List.append_assoc]
      have hi := takeDigits_digitUnits (hnd (d.point - 1)) d.digits
      rw [readUnsigned_parts negative hi d.nonempty hhead (readFraction_not (hnopoint _)) (readExponent_text he hr.noDigit),
        List.append_nil]
      have hmake := make_padded negative d 0 0
      rw [List.replicate_zero, List.nil_append, List.append_nil] at hmake
      rw [← hmake]
      congr 3
      omega
    · rename_i hne
      have htake : d.digits.take 1 ≠ [] := by
        rw [Ne, List.take_eq_nil_iff]
        rintro (h0 | h0)
        · cases h0
        · exact d.nonempty h0
      rw [List.append_assoc, List.append_assoc, List.cons_append]
      have hi := takeDigits_digitUnits (noDigit_cons hpoint (digitUnits (d.digits.drop 1) ++ (exponentText (d.point - 1) ++ r)))
        (d.digits.take 1)
      rw [readUnsigned_parts negative hi htake (fun h => absurd h (d.head_take Nat.one_pos)) (readFraction_digits hne (hnd _))
        (readExponent_text he hr.noDigit), List.take_append_drop]
      have hmake := make_padded negative d 0 0
      rw [List.replicate_zero, List.nil_append, List.append_nil] at hmake
      rw [← hmake]
      congr 3
      rw [List.length_take]
      omega

theorem digitUnit_ne_minus (x : Fin 10) : digitUnit x ≠ 45 := by
  intro h
  have hval := congrArg Fin.val h
  have h45 : (45 : CodeUnit).val = 45 := rfl
  unfold digitUnit at hval
  rw [h45] at hval
  simp only at hval
  omega

theorem Decimal.text_head (d : Decimal) : ∃ x t, d.text = digitUnit x :: t := by
  cases hd : d.digits with
  | nil => exact absurd hd d.nonempty
  | cons x l =>
    unfold Decimal.text
    simp only [hd]
    split
    · exact ⟨x, _, rfl⟩
    split
    · rename_i h
      obtain ⟨m, hm⟩ : ∃ m, d.point.toNat = m + 1 := ⟨d.point.toNat - 1, by omega⟩
      rw [hm]
      exact ⟨x, _, rfl⟩
    split
    · exact ⟨0, _, rfl⟩
    · split
      · exact ⟨x, _, rfl⟩
      · exact ⟨x, _, rfl⟩

/-- **The text of a number reads back**, whatever stops it. -/
theorem readNumber_text (n : Number) (hr : Stops r) : readNumber (n.text ++ r) = some (n, r) := by
  cases n with
  | zero =>
    have hsplit : Number.zero.text ++ r = digitUnits [0] ++ r := rfl
    have h48 : (48 : CodeUnit) ≠ 45 := by decide
    have hi := takeDigits_digitUnits hr.noDigit [0]
    have hparts := readUnsigned_parts false hi (by simp) (fun _ => le_rfl) (readFraction_not hr.not_point) (readExponent_stops hr)
    unfold Number.text readNumber
    simp only [List.cons_append, List.nil_append, if_neg h48]
    exact hparts
  | signed negative d =>
    cases negative with
    | true =>
      unfold Number.text readNumber
      simp only [if_true, List.cons_append]
      exact readUnsigned_text true d hr
    | false =>
      have hread := readUnsigned_text false d hr
      obtain ⟨x, t, ht⟩ := d.text_head
      have htext : (Number.signed false d).text = d.text := rfl
      rw [htext]
      unfold readNumber
      rw [ht] at hread ⊢
      simp only [List.cons_append, if_neg (digitUnit_ne_minus x)]
      exact hread

end Json
