import Wollipog.Lib.JsonCanonical
/-!
# JsonNumber — the rationals that stand in a JSON text

`Numerals` is a program's number type as JSON sees it: the rationals it holds, the decimal each is written as, and the
number a decimal is read as.
-/
namespace Json

structure Numerals where
  Held : ℚ → Prop
  write : ℚ → Number
  /-- The number whose text is nearest to a decimal. -/
  toDouble : Number → Number
  /-- What a number is worth; `none` where it is not finite. -/
  value : Number → Option ℚ
  toDouble_write : ∀ q, Held q → toDouble (write q) = write q
  value_write : ∀ q, Held q → value (write q) = some q
  held_nat : ∀ n : ℕ, n ≤ 9007199254740991 → Held n

def Decimal.value (d : Decimal) : ℚ := natValue d.digits * 10 ^ (d.point - d.digits.length)

def Number.value : Number → ℚ
  | .zero => 0
  | .signed negative d => if negative then -d.value else d.value

theorem natValue_zeros (l : List (Fin 10)) : ∀ k : ℕ, natValue (l ++ List.replicate k 0) = natValue l * 10 ^ k
  | 0 => by rw [List.replicate_zero, List.append_nil, pow_zero, mul_one]
  | k + 1 => by
    rw [List.replicate_succ', ← List.append_assoc, natValue_append, natValue_zeros l k, pow_succ, Fin.val_zero]
    ring

theorem rdropWhile_zeros (l : List (Fin 10)) : ∃ k, l = l.rdropWhile (fun d => d == 0) ++ List.replicate k 0 := by
  induction l using List.reverseRecOn with
  | nil => exact ⟨0, rfl⟩
  | append_singleton l d ih =>
    by_cases hd : d = 0
    · obtain ⟨k, hk⟩ := ih
      subst hd
      refine ⟨k + 1, ?_⟩
      rw [List.rdropWhile_concat_pos _ _ _ rfl, List.replicate_succ', ← List.append_assoc, ← hk]
    · refine ⟨0, ?_⟩
      rw [List.rdropWhile_concat_neg _ _ _ (by simpa using hd), List.replicate_zero, List.append_nil]

theorem natDigits_head (n : ℕ) : (natDigits n).dropWhile (fun d => d == 0) = natDigits n := by
  induction n using Nat.strong_induction_on with
  | _ n ih =>
    rcases Nat.eq_zero_or_pos n with rfl | hpos
    · rfl
    have hsplit : natDigits n = natDigits (n / 10) ++ [Fin.ofNat 10 (n % 10)] := by
      unfold natDigits
      rw [Nat.digits_def' (by decide) hpos, List.map_cons, List.reverse_cons]
    have hrest := ih (n / 10) (Nat.div_lt_self hpos (by decide))
    by_cases hsmall : n / 10 = 0
    · have hdigit : Fin.ofNat 10 (n % 10) ≠ 0 := by
        intro h
        have hval := congrArg Fin.val h
        simp at hval
        omega
      rw [hsplit, hsmall]
      show List.dropWhile _ [Fin.ofNat 10 (n % 10)] = [Fin.ofNat 10 (n % 10)]
      rw [List.dropWhile_cons_of_neg (by simpa using hdigit)]
    · rw [hsplit]
      cases hdigits : natDigits (n / 10) with
      | nil => exact absurd hdigits (natDigits_ne_nil hsmall)
      | cons d l =>
        rw [hdigits] at hrest
        have hd : ¬(d == 0) = true := by
          intro h
          rw [List.dropWhile_cons_of_pos (p := fun d => d == 0) h] at hrest
          have hle := (List.dropWhile_suffix (fun d : Fin 10 => d == 0) (l := l)).length_le
          rw [hrest, List.length_cons] at hle
          omega
        rw [List.cons_append, List.dropWhile_cons_of_neg (p := fun d => d == 0) hd]

def wholeNumber (n : ℕ) : Number := .make false (natDigits n) (natDigits n).length

theorem value_wholeNumber (n : ℕ) : (wholeNumber n).value = n := by
  obtain ⟨k, hk⟩ := rdropWhile_zeros (natDigits n)
  have hvalue := natValue_natDigits n
  have hlength : (natDigits n).length = ((natDigits n).rdropWhile (fun d => d == 0)).length + k := by
    conv_lhs => rw [hk]
    rw [List.length_append, List.length_replicate]
  unfold wholeNumber Number.make
  simp only [natDigits_head]
  split
  · rename_i hnil
    rw [hk, hnil, List.nil_append] at hvalue
    have hzero := natValue_zeros [] k
    rw [List.nil_append, hvalue] at hzero
    rw [hzero]
    simp [Number.value, natValue]
  · rw [Number.value, if_neg Bool.false_ne_true, Decimal.value]
    have hexponent : ((natDigits n).length : ℤ) - ((natDigits n).length - (natDigits n).length : ℤ) -
        (((natDigits n).rdropWhile (fun d => d == 0)).length : ℤ) = (k : ℤ) := by
      rw [hlength]
      push_cast
      ring
    have hproduct := natValue_zeros ((natDigits n).rdropWhile (fun d => d == 0)) k
    rw [← hk, hvalue] at hproduct
    dsimp only
    rw [hexponent, zpow_natCast]
    exact_mod_cast hproduct.symm

def Numerals.whole : Numerals where
  Held q := ∃ n : ℕ, q = n
  write q := wholeNumber q.num.toNat
  toDouble := id
  value n := some n.value
  toDouble_write _ _ := rfl
  value_write := by
    rintro q ⟨n, rfl⟩
    exact congrArg some (value_wholeNumber n)
  held_nat n _ := ⟨n, rfl⟩

theorem get_arranged {m : List (Text × Option Value)} (h : (m.map Prod.fst).Nodup) (k : Text) :
    get (arrangedMembers id m) k = (get m k).map (arranged id) := by
  apply Option.ext
  intro v
  rw [get_eq_some (nodup_arrangedMembers h), mem_arrangedMembers, Option.map_eq_some_iff]
  constructor
  · rintro ⟨w, hw, hv⟩
    exact ⟨w, (get_eq_some h).2 hw, (Option.some.inj hv).symm⟩
  · rintro ⟨w, hw, rfl⟩
    exact ⟨w, (get_eq_some h).1 hw, rfl⟩

theorem get_of_mem : ∀ {m : List (Text × Option Value)}, (m.map Prod.fst).Nodup → ∀ {k : Text} {o : Option Value},
    (k, o) ∈ m → get m k = o
  | [], _, k, o, hmem => by cases hmem
  | (j, o') :: m, h, k, o, hmem => by
    rw [List.map_cons, List.nodup_cons] at h
    unfold get
    rw [List.find?_cons]
    rcases List.mem_cons.1 hmem with heq | hrest
    · cases heq
      rw [beq_self_eq_true]
      rfl
    · have hne : (j == k) = false := by
        rw [beq_eq_false_iff_ne]
        rintro rfl
        exact h.1 (List.mem_map.2 ⟨_, hrest, rfl⟩)
      rw [hne]
      exact get_of_mem h.2 hrest

end Json
