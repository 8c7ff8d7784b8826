import Wollipog.Lib.JsonText
/-!
# CommandLine — the two readings of a Windows command line

A command interpreter toggles its quote state at every quote; the C runtime cuts the line into arguments by blanks
outside quotes.
-/
namespace CommandLine

open Json (CodeUnit Text)

def blank (c : CodeUnit) : Bool := c == 32 || c == 9

def toggle (quoted : Bool) (c : CodeUnit) : Bool := if c = 34 then !quoted else quoted

def quotedAfter (quoted : Bool) (s : Text) : Bool := s.foldl toggle quoted

@[simp] theorem quotedAfter_nil (quoted : Bool) : quotedAfter quoted [] = quoted := rfl

theorem quotedAfter_cons (quoted : Bool) (c : CodeUnit) (s : Text) :
    quotedAfter quoted (c :: s) = quotedAfter (toggle quoted c) s := rfl

theorem quotedAfter_append (quoted : Bool) (s t : Text) :
    quotedAfter quoted (s ++ t) = quotedAfter (quotedAfter quoted s) t := List.foldl_append

variable {quoted : Bool} {after before rest t v : Text} {c : CodeUnit} {ts vs : List Text}

theorem toggle_ne (h : c ≠ 34) (quoted : Bool) : toggle quoted c = quoted := if_neg h

theorem quotedAfter_replicate (quoted : Bool) (n : ℕ) : quotedAfter quoted (List.replicate n 92) = quoted := by
  induction n with
  | zero => rfl
  | succ n ih => rw [List.replicate_succ, quotedAfter_cons, toggle_ne (by decide), ih]

/-- The characters that `active` picks stand inside quotes only. -/
def Inert (active : CodeUnit → Bool) (quoted : Bool) (s : Text) : Prop :=
  ∀ before c after, s = before ++ c :: after → active c = true → quotedAfter quoted before = true

variable {active : CodeUnit → Bool}

theorem Inert.nil (quoted : Bool) : Inert active quoted [] := by
  intro before c after h
  exact absurd h.symm (List.append_ne_nil_of_right_ne_nil _ (List.cons_ne_nil _ _))

theorem Inert.cons {quoted : Bool} {c : CodeUnit} {s : Text} (hc : active c = true → quoted = true)
    (hs : Inert active (toggle quoted c) s) : Inert active quoted (c :: s) := by
  intro before d after h hd
  cases before with
  | nil =>
    cases h
    exact hc hd
  | cons b before =>
    cases h
    exact hs before d after rfl hd

theorem Inert.append {s : Text} (hs : Inert active quoted s)
    (ht : Inert active (quotedAfter quoted s) t) : Inert active quoted (s ++ t) := by
  induction s generalizing quoted with
  | nil => exact ht
  | cons c s ih =>
    refine Inert.cons (hs [] c s rfl) (ih (fun before d after h hd => ?_) ht)
    exact hs (c :: before) d after (by rw [h]; rfl) hd

theorem Inert.replicate (h : active 92 = false) (n : ℕ) : Inert active quoted (List.replicate n 92) := by
  induction n with
  | zero => exact Inert.nil quoted
  | succ n ih =>
    rw [List.replicate_succ]
    refine Inert.cons (fun hc => ?_) ?_
    · rw [h] at hc
      cases hc
    · rwa [toggle_ne (by decide)]

/-! ## Arguments -/

def onto (t : Text) (r : Text × Text) : Text × Text := (t ++ r.1, r.2)

/-- One argument after `slashes` pending backslashes, with the text that follows it. -/
def argument (quoted : Bool) (slashes : ℕ) : Text → Text × Text
  | [] => (List.replicate slashes 92, [])
  | c :: s =>
    if c = 92 then argument quoted (slashes + 1) s
    else if c = 34 then
      if slashes % 2 = 1 then onto (List.replicate (slashes / 2) 92 ++ [34]) (argument quoted 0 s)
      else if quoted then
        match s with
        | [] => (List.replicate (slashes / 2) 92, [])
        | d :: t =>
          if d = 34 then onto (List.replicate (slashes / 2) 92 ++ [34]) (argument true 0 t)
          else onto (List.replicate (slashes / 2) 92) (argument false 0 (d :: t))
      else onto (List.replicate (slashes / 2) 92) (argument true 0 s)
    else if !quoted && blank c then (List.replicate slashes 92, c :: s)
    else onto (List.replicate slashes 92 ++ [c]) (argument quoted 0 s)

def argumentsOf : ℕ → Text → List Text
  | 0, _ => []
  | fuel + 1, s =>
    match s.dropWhile blank with
    | [] => []
    | c :: t => (argument false 0 (c :: t)).1 :: argumentsOf fuel (argument false 0 (c :: t)).2

def arguments (s : Text) : List Text := argumentsOf (s.length + 1) s

def program (quoted : Bool) : Text → Text × Text
  | [] => ([], [])
  | c :: s =>
    if c = 34 then program (!quoted) s
    else if !quoted && blank c then ([], c :: s)
    else onto [c] (program quoted s)

/-- What is left of a text whose first character is a quote, without that quote and the last one. -/
def stripped (s : Text) : Text :=
  match s with
  | [] => []
  | c :: t => if c = 34 then (t.reverse.erase 34).reverse else c :: t

theorem stripped_quoted (s : Text) : stripped (34 :: s ++ [34]) = s := by
  have herase : (s ++ [34]).reverse.erase 34 = s.reverse := by
    rw [List.reverse_append, List.reverse_singleton, List.singleton_append, List.erase_cons_head]
  change ((s ++ [34]).reverse.erase 34).reverse = s
  rw [herase, List.reverse_reverse]

def Ends (rest : Text) : Prop := rest = [] ∨ ∃ t, rest = 32 :: t

theorem argument_backslash (quoted : Bool) (n : ℕ) (s : Text) : argument quoted n (92 :: s) = argument quoted (n + 1) s := by
  rw [argument.eq_def]
  simp only [if_true]

theorem argument_slashes (quoted : Bool) (m : ℕ) (s : Text) :
    ∀ n, argument quoted n (List.replicate m 92 ++ s) = argument quoted (n + m) s := by
  induction m with
  | zero => exact fun n => rfl
  | succ m ih =>
    intro n
    rw [List.replicate_succ, List.cons_append, argument_backslash, ih, Nat.add_right_comm, Nat.add_assoc]

theorem argument_plain (hslash : c ≠ 92) (hquote : c ≠ 34) (hblank : quoted = false → blank c = false) (n : ℕ) (s : Text) :
    argument quoted n (c :: s) = onto (List.replicate n 92 ++ [c]) (argument quoted 0 s) := by
  rw [argument.eq_def]
  simp only [if_neg hslash, if_neg hquote]
  rw [if_neg]
  rw [Bool.and_eq_true, Bool.not_eq_true']
  rintro ⟨hq, hb⟩
  rw [hblank hq] at hb
  cases hb

theorem argument_open (n : ℕ) (s : Text) :
    argument false (2 * n) (34 :: s) = onto (List.replicate n 92) (argument true 0 s) := by
  rw [argument.eq_def]
  simp only [if_neg (show (34 : CodeUnit) ≠ 92 by decide), if_true, Nat.mul_mod_right, Nat.zero_ne_one, if_false,
    Bool.false_eq_true, Nat.mul_div_cancel_left n Nat.two_pos]

theorem argument_doubled (n : ℕ) (s : Text) :
    argument true (2 * n) (34 :: 34 :: s) = onto (List.replicate n 92 ++ [34]) (argument true 0 s) := by
  rw [argument.eq_def]
  simp only [if_neg (show (34 : CodeUnit) ≠ 92 by decide), if_true, Nat.mul_mod_right, Nat.zero_ne_one, if_false,
    Nat.mul_div_cancel_left n Nat.two_pos]

theorem argument_ends (h : Ends rest) (n : ℕ) : argument false n rest = (List.replicate n 92, rest) := by
  rcases h with rfl | ⟨t, rfl⟩
  · rfl
  · rw [argument.eq_def]
    rfl

theorem argument_close (h : Ends rest) (n : ℕ) : argument true (2 * n) (34 :: rest) = (List.replicate n 92, rest) := by
  rw [argument.eq_def]
  simp only [if_neg (show (34 : CodeUnit) ≠ 92 by decide), if_true, Nat.mul_mod_right, Nat.zero_ne_one, if_false,
    Nat.mul_div_cancel_left n Nat.two_pos]
  have hends := argument_ends h 0
  rcases h with rfl | ⟨t, rfl⟩
  · rfl
  · simp only [if_neg (show (32 : CodeUnit) ≠ 34 by decide), hends]
    exact Prod.ext (List.append_nil _) rfl

/-- `t` is the text of the argument `v`: read back before any end of a word, closed, and inert. -/
structure Encodes (active : CodeUnit → Bool) (t v : Text) : Prop where
  reads : ∀ rest, Ends rest → argument false 0 (t ++ rest) = (v, rest)
  begins : ∃ c s, t = c :: s ∧ blank c = false
  closed : quotedAfter false t = false
  inert : Inert active false t

def following (ts : List Text) : Text := ts.flatMap (fun t => 32 :: t)

/-- `join(" ")` -/
def joined (ts : List Text) : Text := List.intercalate [32] ts

theorem joined_cons (t : Text) : ∀ ts : List Text, joined (t :: ts) = t ++ following ts
  | [] => by simp [joined, following]
  | u :: ts => by
    have ih := joined_cons u ts
    unfold joined at ih ⊢
    rw [List.intercalate_cons_cons, ih]
    simp [following]

theorem ends_following (ts : List Text) : Ends (following ts) := by
  cases ts with
  | nil => exact Or.inl rfl
  | cons t ts => exact Or.inr ⟨_, rfl⟩

theorem argumentsOf_word (h : Encodes active t v) (hrest : Ends rest) (fuel : ℕ) :
    argumentsOf (fuel + 1) (t ++ rest) = v :: argumentsOf fuel rest := by
  have hread := h.reads rest hrest
  obtain ⟨c, s, rfl, hc⟩ := h.begins
  rw [argumentsOf, List.cons_append, List.dropWhile_cons_of_neg (by rw [hc]; exact Bool.false_ne_true)]
  rw [List.cons_append] at hread
  simp only [hread]

theorem argumentsOf_following (h : List.Forall₂ (Encodes active) ts vs) :
    ∀ fuel, (following ts).length < fuel → argumentsOf fuel (following ts) = vs := by
  induction h with
  | nil =>
    intro fuel hfuel
    obtain ⟨fuel, rfl⟩ := Nat.exists_eq_succ_of_ne_zero (Nat.ne_of_gt hfuel)
    rfl
  | @cons t v ts vs ht _ ih =>
    intro fuel hfuel
    have hsplit : following (t :: ts) = 32 :: (t ++ following ts) := List.flatMap_cons
    obtain ⟨fuel, rfl⟩ := Nat.exists_eq_succ_of_ne_zero (Nat.ne_of_gt (Nat.zero_lt_of_lt hfuel))
    have hblank : argumentsOf (fuel + 1) (32 :: (t ++ following ts)) = argumentsOf (fuel + 1) (t ++ following ts) := by
      rw [argumentsOf, argumentsOf, List.dropWhile_cons_of_pos rfl]
    rw [hsplit, hblank, argumentsOf_word ht (ends_following ts), ih]
    rw [hsplit, List.length_cons, List.length_append] at hfuel
    omega

/-- **A line is cut into the arguments it was put together from.** -/
theorem arguments_joined (h : List.Forall₂ (Encodes active) ts vs) : arguments (joined ts) = vs := by
  cases h with
  | nil => rfl
  | @cons t v ts vs ht hts =>
    unfold arguments
    rw [joined_cons, argumentsOf_word ht (ends_following ts), argumentsOf_following hts]
    obtain ⟨c, s, rfl, -⟩ := ht.begins
    rw [List.cons_append, List.length_cons, List.length_append]
    omega

theorem program_word (hblank : ∀ c, blank c = true → active c = true) {rest : Text} (hrest : Ends rest) :
    ∀ {t : Text} {quoted : Bool}, Inert active quoted t → quotedAfter quoted t = false →
      (program quoted (t ++ rest)).2 = rest
  | [], quoted, _, hclosed => by
    cases hclosed
    rcases hrest with rfl | ⟨t, rfl⟩
    · rfl
    · rfl
  | c :: t, quoted, hinert, hclosed => by
    have htail : Inert active (toggle quoted c) t :=
      fun before d after h hd => hinert (c :: before) d after (by rw [h]; rfl) hd
    have ih := program_word hblank hrest htail hclosed
    rw [List.cons_append, program]
    by_cases hquote : c = 34
    · subst hquote
      rw [if_pos rfl]
      exact ih
    · rw [toggle_ne hquote] at ih
      rw [if_neg hquote, if_neg]
      · exact ih
      · rw [Bool.and_eq_true, Bool.not_eq_true']
        rintro ⟨hq, hb⟩
        have hin := hinert [] c t rfl (hblank c hb)
        rw [quotedAfter_nil, hq] at hin
        cases hin

theorem arguments_program (hblank : ∀ c, blank c = true → active c = true)
    (ht : Encodes active t v) (hts : List.Forall₂ (Encodes active) ts vs) :
    arguments (program false (joined (t :: ts))).2 = vs := by
  rw [joined_cons, program_word hblank (ends_following ts) ht.inert ht.closed]
  exact argumentsOf_following hts _ (Nat.lt_succ_self _)

theorem following_outside (h : List.Forall₂ (Encodes active) ts vs)
    (heq : following ts = before ++ c :: after) (hc : active c = true) (hout : quotedAfter false before = false) :
    ∃ l t r, ts = l ++ t :: r ∧ before = following l ∧ c = 32 ∧ after = t ++ following r := by
  induction h generalizing before with
  | nil => exact absurd heq.symm (List.append_ne_nil_of_right_ne_nil _ (List.cons_ne_nil _ _))
  | @cons t v ts vs ht _ ih =>
    have hsplit : following (t :: ts) = 32 :: (t ++ following ts) := List.flatMap_cons
    rw [hsplit] at heq
    cases before with
    | nil =>
      cases heq
      exact ⟨[], t, ts, rfl, rfl, rfl, rfl⟩
    | cons b before =>
      obtain ⟨rfl, hrest⟩ := List.cons_eq_cons.1 heq
      have hout' : quotedAfter false before = false := hout
      rcases List.append_eq_append_iff.1 hrest with ⟨k, hk, hk'⟩ | ⟨k, hk, hk'⟩
      · subst hk
        rw [quotedAfter_append, ht.closed] at hout'
        obtain ⟨l, u, r, rfl, hl, hspace, hafter⟩ := ih hk' hout'
        exact ⟨t :: l, u, r, rfl, by rw [hl]; simp [following], hspace, hafter⟩
      · cases k with
        | nil =>
          rw [List.append_nil] at hk
          subst hk
          obtain ⟨l, u, r, rfl, hl, hspace, hafter⟩ := @ih [] hk'.symm rfl
          exact ⟨t :: l, u, r, rfl, by simpa [following] using hl, hspace, hafter⟩
        | cons d k =>
          obtain ⟨rfl, -⟩ := List.cons_eq_cons.1 hk'
          have hin := ht.inert before c k hk hc
          rw [hout'] at hin
          cases hin

/-- **Outside quotes, an active character is a blank that joins two words.** -/
theorem joined_outside (h : List.Forall₂ (Encodes active) ts vs)
    (heq : joined ts = before ++ c :: after) (hc : active c = true) (hout : quotedAfter false before = false) :
    c = 32 ∧ ∃ l r, l ≠ [] ∧ r ≠ [] ∧ ts = l ++ r ∧ before = joined l ∧ after = joined r := by
  cases h with
  | nil => exact absurd heq.symm (List.append_ne_nil_of_right_ne_nil _ (List.cons_ne_nil _ _))
  | @cons t v ts vs ht hts =>
    rw [joined_cons] at heq
    have hlater : ∀ k, following ts = k ++ c :: after → before = t ++ k →
        c = 32 ∧ ∃ l r, l ≠ [] ∧ r ≠ [] ∧ t :: ts = l ++ r ∧ before = joined l ∧ after = joined r := by
      intro k hk hbefore
      rw [hbefore, quotedAfter_append, ht.closed] at hout
      obtain ⟨l, u, r, rfl, rfl, hspace, hafter⟩ := following_outside hts hk hc hout
      exact ⟨hspace, t :: l, u :: r, List.cons_ne_nil _ _, List.cons_ne_nil _ _, rfl, by rw [hbefore, joined_cons],
        by rw [hafter, joined_cons]⟩
    rcases List.append_eq_append_iff.1 heq with ⟨k, hk, hk'⟩ | ⟨k, hk, hk'⟩
    · exact hlater k hk' hk
    · cases k with
      | nil => exact hlater [] hk'.symm (by simpa using hk.symm)
      | cons d k =>
        obtain ⟨rfl, -⟩ := List.cons_eq_cons.1 hk'
        have hin := ht.inert before c k hk hc
        rw [hout] at hin
        cases hin

end CommandLine
