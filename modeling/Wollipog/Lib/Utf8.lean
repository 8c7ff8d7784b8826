import Wollipog.Lib.JsonText
/-!
# Utf8 — a text of code units as UTF-8

A text is read code point by code point; an unpaired half of a surrogate pair counts as U+FFFD.  Bytes are natural
numbers.
-/
namespace Utf8

open Json (CodeUnit Text isLead isTrail)

def point (c : CodeUnit) : ℕ := if isLead c || isTrail c then 0xFFFD else c.val

def pair (c d : CodeUnit) : ℕ := 0x10000 + (c.val - 0xD800) * 0x400 + (d.val - 0xDC00)

def points : Text → List ℕ
  | [] => []
  | [c] => [point c]
  | c :: d :: r => if isLead c && isTrail d then pair c d :: points r else point c :: points (d :: r)

def encodePoint (p : ℕ) : List ℕ :=
  if p < 0x80 then [p]
  else if p < 0x800 then [0xC0 + p / 64, 0x80 + p % 64]
  else if p < 0x10000 then [0xE0 + p / 4096, 0x80 + p / 64 % 64, 0x80 + p % 64]
  else [0xF0 + p / 262144, 0x80 + p / 4096 % 64, 0x80 + p / 64 % 64, 0x80 + p % 64]

/-- `Buffer.from(text, "utf8")` -/
def encode (s : Text) : List ℕ := (points s).flatMap encodePoint

/-- `Buffer.byteLength(text, "utf8")` -/
def byteLength (s : Text) : ℕ := (encode s).length

/-! ## Texts side by side -/

def Apart (a b : Text) : Prop := ∀ x ∈ a.getLast?, ∀ y ∈ b.head?, (isLead x && isTrail y) = false

theorem points_append : ∀ {a b : Text}, Apart a b → points (a ++ b) = points a ++ points b
  | [], _, _ => rfl
  | [c], [], _ => rfl
  | [c], d :: b, h => by
    have hpair : (isLead c && isTrail d) = false := h c rfl d rfl
    have hstep : points (c :: d :: b) = point c :: points (d :: b) := by
      rw [points, if_neg (Bool.eq_false_iff.1 hpair)]
    exact hstep
  | c :: d :: a, b, h => by
    have hrest : Apart a b := fun x hx y hy => h x (by
      cases a with
      | nil => cases hx
      | cons e a => exact hx) y hy
    have htail : Apart (d :: a) b := fun x hx y hy => h x hx y hy
    rw [List.cons_append, List.cons_append, points, points]
    split
    · rw [points_append hrest]
      rfl
    · rw [← List.cons_append, points_append htail]
      rfl

variable {lower p upper : ℕ} {a b : Text} {c d : CodeUnit}

theorem byteLength_append (h : Apart a b) : byteLength (a ++ b) = byteLength a + byteLength b := by
  rw [byteLength, encode, points_append h, List.flatMap_append, List.length_append]
  rfl

def Ascii (s : Text) : Prop := ∀ c ∈ s, c.val < 0x80

theorem isLead_ascii (h : c.val < 0x80) : isLead c = false := by
  unfold isLead
  rw [Bool.and_eq_false_iff]
  exact .inl (decide_eq_false (by omega))

theorem isTrail_ascii (h : c.val < 0x80) : isTrail c = false := by
  unfold isTrail
  rw [Bool.and_eq_false_iff]
  exact .inl (decide_eq_false (by omega))

theorem apart_of_isLead (h : ∀ c ∈ a, isLead c = false) (b : Text) : Apart a b := by
  intro x hx y _
  rw [h x (List.mem_of_getLast? hx)]
  rfl

theorem Ascii.apart_left (h : Ascii a) (b : Text) : Apart a b := by
  intro x hx y _
  rw [isLead_ascii (h x (List.mem_of_getLast? hx))]
  rfl

theorem Ascii.apart_right (h : Ascii b) (a : Text) : Apart a b := by
  intro x _ y hy
  rw [isTrail_ascii (h y (List.mem_of_mem_head? hy)), Bool.and_false]

theorem Ascii.apart_append (h : Ascii b) (hne : b ≠ []) (a r : Text) : Apart a (b ++ r) := by
  intro x hx y hy
  rw [List.head?_append_of_ne_nil _ hne] at hy
  exact h.apart_right a x hx y hy

theorem Ascii.append (ha : Ascii a) (hb : Ascii b) : Ascii (a ++ b) := by
  intro c hc
  exact (List.mem_append.1 hc).elim (ha c) (hb c)

theorem byteLength_unit (c : CodeUnit) (r : Text) (h : isLead c = false) : byteLength (c :: r) = (encodePoint (point c)).length + byteLength r := by
  have hapart : Apart [c] r := fun x hx y _ => by
    obtain rfl : c = x := Option.some.inj hx
    rw [h]
    rfl
  have happend := byteLength_append hapart
  rw [List.singleton_append] at happend
  rw [happend]
  simp [byteLength, encode, points]

theorem byteLength_pair {r : Text} (h : (isLead c && isTrail d) = true) : byteLength (c :: d :: r) = 4 + byteLength r := by
  have hpoints : points (c :: d :: r) = pair c d :: points r := by rw [points, if_pos h]
  have hlong : (encodePoint (pair c d)).length = 4 := by
    have hbig : 0x10000 ≤ pair c d := by
      unfold pair
      omega
    rw [encodePoint, if_neg (by omega), if_neg (by omega), if_neg (by omega)]
    rfl
  rw [byteLength, encode, hpoints, List.flatMap_cons, List.length_append, hlong]
  rfl

theorem length_encodePoint_le (h : p < 0x10000) : (encodePoint p).length ≤ 3 := by
  unfold encodePoint
  split
  · exact Nat.le_of_ble_eq_true rfl
  split
  · exact Nat.le_of_ble_eq_true rfl
  · exact Nat.le_of_ble_eq_true rfl

theorem byteLength_le : ∀ s : Text, byteLength s ≤ 3 * s.length
  | [] => Nat.zero_le _
  | [c] => by
    have hpoint : point c < 0x10000 := by
      have hbound := c.isLt
      unfold point
      split
      · omega
      · exact hbound
    have hblock := length_encodePoint_le hpoint
    simpa [byteLength, encode, points] using hblock
  | c :: d :: r => by
    by_cases hpair : (isLead c && isTrail d) = true
    · have hrest := byteLength_le r
      rw [byteLength_pair hpair, List.length_cons, List.length_cons]
      omega
    · have hrest := byteLength_le (d :: r)
      have hpoint : point c < 0x10000 := by
        have hbound := c.isLt
        unfold point
        split
        · omega
        · exact hbound
      have hblock := length_encodePoint_le hpoint
      have happend : byteLength (c :: d :: r) = (encodePoint (point c)).length + byteLength (d :: r) := by
        have hpoints : points (c :: d :: r) = point c :: points (d :: r) := by rw [points, if_neg hpair]
        rw [byteLength, encode, hpoints, List.flatMap_cons, List.length_append]
        rfl
      rw [happend, List.length_cons]
      omega

theorem Ascii.byteLength : ∀ {s : Text}, Ascii s → byteLength s = s.length
  | [], _ => rfl
  | c :: s, h => by
    have hc := h c List.mem_cons_self
    have hpoint : point c = c.val := by
      rw [point, isLead_ascii hc, isTrail_ascii hc]
      rfl
    rw [byteLength_unit c s (isLead_ascii hc), Ascii.byteLength (fun d hd => h d (List.mem_cons_of_mem _ hd)), hpoint,
      encodePoint, if_pos hc, List.length_singleton, List.length_cons, Nat.add_comm]

def Scalar (p : ℕ) : Prop := p < 0xD800 ∨ 0xDFFF < p ∧ p < 0x110000

theorem isLead_iff : isLead c = true ↔ 0xD800 ≤ c.val ∧ c.val ≤ 0xDBFF := by
  unfold isLead
  rw [Bool.and_eq_true, decide_eq_true_iff, decide_eq_true_iff]

theorem isTrail_iff : isTrail c = true ↔ 0xDC00 ≤ c.val ∧ c.val ≤ 0xDFFF := by
  unfold isTrail
  rw [Bool.and_eq_true, decide_eq_true_iff, decide_eq_true_iff]

theorem scalar_point (c : CodeUnit) : Scalar (point c) := by
  have hbound := c.isLt
  unfold point Scalar
  split
  · omega
  · rename_i h
    rw [Bool.or_eq_true, isLead_iff, isTrail_iff] at h
    omega

theorem scalar_pair (h : (isLead c && isTrail d) = true) : Scalar (pair c d) := by
  rw [Bool.and_eq_true, isLead_iff, isTrail_iff] at h
  unfold Scalar pair
  omega

theorem scalar_points : ∀ s : Text, ∀ p ∈ points s, Scalar p
  | [], p, h => absurd h List.not_mem_nil
  | [c], p, h => by
    rw [List.mem_singleton.1 h]
    exact scalar_point c
  | c :: d :: r, p, h => by
    rw [points] at h
    split at h
    · rename_i hpair
      rcases List.mem_cons.1 h with hp | h
      · rw [hp]
        exact scalar_pair hpair
      · exact scalar_points r p h
    · rcases List.mem_cons.1 h with hp | h
      · rw [hp]
        exact scalar_point c
      · exact scalar_points (d :: r) p h

/-- `(byte & 0xc0) === 0x80` -/
def isContinuation (b : ℕ) : Bool := decide (0x80 ≤ b) && decide (b < 0xC0)

theorem isContinuation_tail (p : ℕ) : ∀ b ∈ (encodePoint p).tail, isContinuation b = true := by
  have hlow : ∀ n, isContinuation (0x80 + n % 64) = true := fun n => by
    unfold isContinuation
    rw [Bool.and_eq_true, decide_eq_true_iff, decide_eq_true_iff]
    omega
  intro b hb
  unfold encodePoint at hb
  split at hb
  · exact absurd hb List.not_mem_nil
  split at hb
  · rw [List.tail_cons, List.mem_singleton] at hb
    rw [hb]
    exact hlow p
  split at hb
  · rw [List.tail_cons, List.mem_cons, List.mem_singleton] at hb
    rcases hb with rfl | rfl
    · exact hlow (p / 64)
    · exact hlow p
  · rw [List.tail_cons, List.mem_cons, List.mem_cons, List.mem_singleton] at hb
    rcases hb with rfl | rfl | rfl
    · exact hlow (p / 4096)
    · exact hlow (p / 64)
    · exact hlow p

theorem isContinuation_head (p : ℕ) : ∃ b r, encodePoint p = b :: r ∧ isContinuation b = false ∧ r.length ≤ 3 := by
  have hhigh : ∀ n, 0xC0 ≤ n → isContinuation n = false := fun n hn => by
    unfold isContinuation
    rw [Bool.and_eq_false_iff]
    exact .inr (decide_eq_false (by omega))
  unfold encodePoint
  split
  · refine ⟨p, [], rfl, ?_, by decide⟩
    unfold isContinuation
    rw [Bool.and_eq_false_iff]
    exact .inl (decide_eq_false (by omega))
  split
  · exact ⟨_, _, rfl, hhigh _ (by omega), by simp⟩
  split
  · exact ⟨_, _, rfl, hhigh _ (by omega), by simp⟩
  · exact ⟨_, _, rfl, hhigh _ (by omega), by simp⟩

/-- **Bytes are cut between code points** where what follows does not begin with a continuation. -/
theorem cut_points : ∀ {ps : List ℕ} {a b : List ℕ}, ps.flatMap encodePoint = a ++ b → (∀ x ∈ b.head?, isContinuation x = false) →
    ∃ qs rs, ps = qs ++ rs ∧ a = qs.flatMap encodePoint ∧ b = rs.flatMap encodePoint
  | [], a, b, h, _ => by
    obtain ⟨rfl, rfl⟩ := List.append_eq_nil_iff.1 h.symm
    exact ⟨[], [], rfl, rfl, rfl⟩
  | p :: ps, a, b, h, hhead => by
    cases a with
    | nil => exact ⟨[], p :: ps, rfl, rfl, h.symm⟩
    | cons x a =>
      rw [List.flatMap_cons] at h
      rcases List.append_eq_append_iff.1 h with ⟨a', ha, hrest⟩ | ⟨c, hp, hb⟩
      · obtain ⟨qs, rs, rfl, rfl, rfl⟩ := cut_points hrest hhead
        exact ⟨p :: qs, rs, rfl, ha, rfl⟩
      · cases c with
        | nil =>
          rw [List.append_nil] at hp
          refine ⟨[p], ps, rfl, ?_, ?_⟩
          · rw [List.flatMap_cons, List.flatMap_nil, List.append_nil, hp]
          · exact hb
        | cons y c =>
          -- what follows begins inside of the block
          have hinside : y ∈ (encodePoint p).tail := by
            rw [hp, List.cons_append, List.tail_cons]
            exact List.mem_append_cons_self
          have hnot := hhead y (by rw [hb]; rfl)
          rw [isContinuation_tail p y hinside] at hnot
          cases hnot

/-- What a decoder waits for: how many bytes, the point so far, and the bounds of the next byte. -/
structure Pending where
  needed : ℕ
  point : ℕ
  lower : ℕ
  upper : ℕ

def idle : Pending := ⟨0, 0, 0x80, 0xBF⟩

def begin_ (b : ℕ) : List ℕ × Pending :=
  if b < 0x80 then ([b], idle)
  else if 0xC2 ≤ b ∧ b ≤ 0xDF then ([], ⟨1, b - 0xC0, 0x80, 0xBF⟩)
  else if 0xE0 ≤ b ∧ b ≤ 0xEF then ([], ⟨2, b - 0xE0, if b = 0xE0 then 0xA0 else 0x80, if b = 0xED then 0x9F else 0xBF⟩)
  else if 0xF0 ≤ b ∧ b ≤ 0xF4 then ([], ⟨3, b - 0xF0, if b = 0xF0 then 0x90 else 0x80, if b = 0xF4 then 0x8F else 0xBF⟩)
  else ([0xFFFD], idle)

def next (s : Pending) (b : ℕ) : List ℕ × Pending :=
  if s.needed = 0 then begin_ b
  else if b < s.lower ∨ s.upper < b then (0xFFFD :: (begin_ b).1, (begin_ b).2)
  else if s.needed = 1 then ([s.point * 64 + (b - 0x80)], idle)
  else ([], ⟨s.needed - 1, s.point * 64 + (b - 0x80), 0x80, 0xBF⟩)

def decodeFrom : Pending → List ℕ → List ℕ
  | s, [] => if s.needed = 0 then [] else [0xFFFD]
  | s, b :: bs => (next s b).1 ++ decodeFrom (next s b).2 bs

theorem decodeFrom_next {s : Pending} {b : ℕ} {out : List ℕ} {t : Pending} (h : next s b = (out, t)) (bs : List ℕ) :
    decodeFrom s (b :: bs) = out ++ decodeFrom t bs := by rw [decodeFrom, h]

theorem decodeFrom_within {n point q b : ℕ} (hlower : lower ≤ b) (hupper : b ≤ upper) (hq : point * 64 + (b - 0x80) = q)
    (r : List ℕ) : decodeFrom ⟨n + 2, point, lower, upper⟩ (b :: r) = decodeFrom ⟨n + 1, q, 0x80, 0xBF⟩ r := by
  have hnext : next ⟨n + 2, point, lower, upper⟩ b = ([], ⟨n + 1, q, 0x80, 0xBF⟩) := by
    rw [next, if_neg (Nat.succ_ne_zero _), if_neg (show ¬(b < lower ∨ upper < b) by omega),
      if_neg (show ¬n + 2 = 1 by omega), hq]
    rfl
  exact decodeFrom_next hnext r

theorem decodeFrom_last {point b : ℕ} (hlower : lower ≤ b) (hupper : b ≤ upper) (hp : point * 64 + (b - 0x80) = p)
    (r : List ℕ) : decodeFrom ⟨1, point, lower, upper⟩ (b :: r) = p :: decodeFrom idle r := by
  have hnext : next ⟨1, point, lower, upper⟩ b = ([p], idle) := by
    rw [next, if_neg Nat.one_ne_zero, if_neg (show ¬(b < lower ∨ upper < b) by omega), if_pos rfl, hp]
  exact decodeFrom_next hnext r

/-- **The block of a scalar is read as the scalar.** -/
theorem decodeFrom_encodePoint (h : Scalar p) (r : List ℕ) : decodeFrom idle (encodePoint p ++ r) = p :: decodeFrom idle r := by
  unfold Scalar at h
  unfold encodePoint
  split
  · rename_i hone
    have hfirst : next idle p = ([p], idle) := by
      show begin_ p = _
      rw [begin_, if_pos hone]
    exact decodeFrom_next hfirst r
  split
  · have hfirst : next idle (0xC0 + p / 64) = ([], ⟨1, p / 64, 0x80, 0xBF⟩) := by
      show begin_ _ = _
      rw [begin_, if_neg (by omega), if_pos (by omega), Nat.add_sub_cancel_left]
    have hlast := decodeFrom_last (show 0x80 ≤ 0x80 + p % 64 by omega) (show 0x80 + p % 64 ≤ 0xBF by omega)
      (show p / 64 * 64 + (0x80 + p % 64 - 0x80) = p by omega) r
    exact (decodeFrom_next hfirst _).trans hlast
  split
  · have hfirst : next idle (0xE0 + p / 4096) = ([], ⟨2, p / 4096, if 0xE0 + p / 4096 = 0xE0 then 0xA0 else 0x80,
        if 0xE0 + p / 4096 = 0xED then 0x9F else 0xBF⟩) := by
      show begin_ _ = _
      rw [begin_, if_neg (by omega), if_neg (by omega), if_pos (by omega), Nat.add_sub_cancel_left]
    have hlower : (if 0xE0 + p / 4096 = 0xE0 then 0xA0 else 0x80) ≤ 0x80 + p / 64 % 64 := by split <;> omega
    have hupper : 0x80 + p / 64 % 64 ≤ if 0xE0 + p / 4096 = 0xED then 0x9F else 0xBF := by split <;> omega
    have hlast := decodeFrom_last (show 0x80 ≤ 0x80 + p % 64 by omega) (show 0x80 + p % 64 ≤ 0xBF by omega)
      (show p / 64 * 64 + (0x80 + p % 64 - 0x80) = p by omega) r
    have hsecond := decodeFrom_within (n := 0) hlower hupper
      (show p / 4096 * 64 + (0x80 + p / 64 % 64 - 0x80) = p / 64 by omega) ((0x80 + p % 64) :: r)
    exact (decodeFrom_next hfirst _).trans (hsecond.trans hlast)
  · have hfirst : next idle (0xF0 + p / 262144) = ([], ⟨3, p / 262144, if 0xF0 + p / 262144 = 0xF0 then 0x90 else 0x80,
        if 0xF0 + p / 262144 = 0xF4 then 0x8F else 0xBF⟩) := by
      show begin_ _ = _
      rw [begin_, if_neg (by omega), if_neg (by omega), if_neg (by omega), if_pos (by omega), Nat.add_sub_cancel_left]
    have hlower : (if 0xF0 + p / 262144 = 0xF0 then 0x90 else 0x80) ≤ 0x80 + p / 4096 % 64 := by split <;> omega
    have hupper : 0x80 + p / 4096 % 64 ≤ if 0xF0 + p / 262144 = 0xF4 then 0x8F else 0xBF := by split <;> omega
    have hlast := decodeFrom_last (show 0x80 ≤ 0x80 + p % 64 by omega) (show 0x80 + p % 64 ≤ 0xBF by omega)
      (show p / 64 * 64 + (0x80 + p % 64 - 0x80) = p by omega) r
    have hthird := decodeFrom_within (n := 0) (show 0x80 ≤ 0x80 + p / 64 % 64 by omega) (show 0x80 + p / 64 % 64 ≤ 0xBF by omega)
      (show p / 4096 * 64 + (0x80 + p / 64 % 64 - 0x80) = p / 64 by omega) ((0x80 + p % 64) :: r)
    have hsecond := decodeFrom_within (n := 1) hlower hupper
      (show p / 262144 * 64 + (0x80 + p / 4096 % 64 - 0x80) = p / 4096 by omega) ((0x80 + p / 64 % 64) :: (0x80 + p % 64) :: r)
    exact (decodeFrom_next hfirst _).trans (hsecond.trans (hthird.trans hlast))

theorem decodeFrom_flatMap : ∀ {ps : List ℕ}, (∀ p ∈ ps, Scalar p) → decodeFrom idle (ps.flatMap encodePoint) = ps
  | [], _ => rfl
  | p :: ps, h => by
    rw [List.flatMap_cons, decodeFrom_encodePoint (h p List.mem_cons_self),
      decodeFrom_flatMap (fun q hq => h q (List.mem_cons_of_mem _ hq))]

def units (p : ℕ) : Text :=
  if p < 0x10000 then [Fin.ofNat 65536 p]
  else [Fin.ofNat 65536 (0xD800 + (p - 0x10000) / 0x400), Fin.ofNat 65536 (0xDC00 + (p - 0x10000) % 0x400)]

/-- `bytes.toString("utf8")` -/
def decode (bytes : List ℕ) : Text := (decodeFrom idle bytes).flatMap units

theorem points_units (h : Scalar p) (r : Text) : points (units p ++ r) = p :: points r := by
  unfold Scalar at h
  unfold units
  split
  · rename_i hsmall
    have hval : (Fin.ofNat 65536 p).val = p := Nat.mod_eq_of_lt hsmall
    have hlead : isLead (Fin.ofNat 65536 p) = false := by
      rw [Bool.eq_false_iff, ne_eq, isLead_iff, hval]
      omega
    have htrail : isTrail (Fin.ofNat 65536 p) = false := by
      rw [Bool.eq_false_iff, ne_eq, isTrail_iff, hval]
      omega
    have hapart : Apart [Fin.ofNat 65536 p] r := fun x hx y _ => by
      obtain rfl : Fin.ofNat 65536 p = x := Option.some.inj hx
      rw [hlead]
      rfl
    have hpoint : point (Fin.ofNat 65536 p) = p := by
      rw [point, hlead, htrail]
      exact hval
    have hsingle : points [Fin.ofNat 65536 p] = [p] := by rw [points, hpoint]
    rw [points_append hapart, hsingle]
    rfl
  · have hfirst : (Fin.ofNat 65536 (0xD800 + (p - 0x10000) / 0x400)).val = 0xD800 + (p - 0x10000) / 0x400 :=
      Nat.mod_eq_of_lt (by omega)
    have hsecond : (Fin.ofNat 65536 (0xDC00 + (p - 0x10000) % 0x400)).val = 0xDC00 + (p - 0x10000) % 0x400 :=
      Nat.mod_eq_of_lt (by omega)
    have hpair : (isLead (Fin.ofNat 65536 (0xD800 + (p - 0x10000) / 0x400)) &&
        isTrail (Fin.ofNat 65536 (0xDC00 + (p - 0x10000) % 0x400))) = true := by
      rw [Bool.and_eq_true, isLead_iff, isTrail_iff, hfirst, hsecond]
      omega
    have hvalue : pair (Fin.ofNat 65536 (0xD800 + (p - 0x10000) / 0x400)) (Fin.ofNat 65536 (0xDC00 + (p - 0x10000) % 0x400)) = p := by
      unfold pair
      omega
    rw [List.cons_append, List.cons_append, List.nil_append, points, if_pos hpair, hvalue]

theorem points_flatMap_units : ∀ {ps : List ℕ}, (∀ p ∈ ps, Scalar p) → ∀ r, points (ps.flatMap units ++ r) = ps ++ points r
  | [], _, _ => rfl
  | p :: ps, h, r => by
    rw [List.flatMap_cons, List.append_assoc, points_units (h p List.mem_cons_self),
      points_flatMap_units (fun q hq => h q (List.mem_cons_of_mem _ hq)) r]
    rfl

/-- **Bytes cut between code points keep their number when they are read.** -/
theorem byteLength_decode {ps : List ℕ} (h : ∀ p ∈ ps, Scalar p) (r : Text) :
    byteLength (decode (ps.flatMap encodePoint) ++ r) = (ps.flatMap encodePoint).length + byteLength r := by
  rw [decode, decodeFrom_flatMap h, byteLength, encode, points_flatMap_units h, List.flatMap_append, List.length_append]
  rfl

def wellFormed : Text → Bool
  | [] => true
  | [c] => !(isLead c || isTrail c)
  | c :: d :: r => if isLead c && isTrail d then wellFormed r else !(isLead c || isTrail c) && wellFormed (d :: r)

theorem units_point (h : (!(isLead c || isTrail c)) = true) : units (point c) = [c] := by
  rw [Bool.not_eq_true'] at h
  have hpoint : point c = c.val := by
    rw [point, h]
    rfl
  rw [hpoint, units, if_pos c.isLt]
  exact congrArg (fun u => [u]) (Fin.ext (Nat.mod_eq_of_lt c.isLt))

theorem units_pair (h : (isLead c && isTrail d) = true) : units (pair c d) = [c, d] := by
  rw [Bool.and_eq_true, isLead_iff, isTrail_iff] at h
  have hfirst : Fin.ofNat 65536 (0xD800 + (pair c d - 0x10000) / 0x400) = c := by
    apply Fin.ext
    show (0xD800 + (pair c d - 0x10000) / 0x400) % 65536 = c.val
    unfold pair
    omega
  have hsecond : Fin.ofNat 65536 (0xDC00 + (pair c d - 0x10000) % 0x400) = d := by
    apply Fin.ext
    show (0xDC00 + (pair c d - 0x10000) % 0x400) % 65536 = d.val
    unfold pair
    omega
  rw [units, if_neg (by unfold pair; omega), hfirst, hsecond]

theorem flatMap_units_points : ∀ {s : Text}, wellFormed s = true → (points s).flatMap units = s
  | [], _ => rfl
  | [c], h => by
    have hunit := units_point h
    rw [points, List.flatMap_cons, hunit]
    rfl
  | c :: d :: r, h => by
    rw [wellFormed] at h
    rw [points]
    split at h
    · rename_i hpair
      rw [if_pos hpair, List.flatMap_cons, units_pair hpair, flatMap_units_points h]
      rfl
    · rename_i hpair
      rw [Bool.and_eq_true] at h
      rw [if_neg hpair, List.flatMap_cons, units_point h.1, flatMap_units_points h.2]
      rfl

/-- **A text is read back from its bytes**, each unpaired half of a pair as U+FFFD. -/
theorem decode_encode (s : Text) : decode (encode s) = (points s).flatMap units := by
  rw [decode, encode, decodeFrom_flatMap (scalar_points s)]

theorem decode_encode_wellFormed {s : Text} (h : wellFormed s = true) : decode (encode s) = s := by
  rw [decode_encode, flatMap_units_points h]

end Utf8
