import Mathlib.Data.List.SplitOn
import Wollipog.Lib.Wildcard
/-!
# Glob — path selectors of a policy

A path selector is normalized as a path is, compiled to a regular expression and tested on the normalized path.  A dot of
the expression does not match a line terminator.
-/
namespace Wollipog.Policy

open Wildcard (Token Denotes)

abbrev Text := List Char

/-- `win32.normalize` and `toLowerCase`, which give no empty text for another one and bring in no NUL. -/
structure WindowsPaths where
  normalize : Text → Text
  toLowerCase : Text → Text
  normalize_ne : ∀ s, normalize s ≠ []
  normalize_nul : ∀ s, '\x00' ∉ s → '\x00' ∉ normalize s
  toLowerCase_ne : ∀ s, s ≠ [] → toLowerCase s ≠ []
  toLowerCase_nul : ∀ s, '\x00' ∉ s → '\x00' ∉ toLowerCase s

/-- One segment of `normalizeString`, onto the segments before it, the last first. -/
def resolveSegment (allowAboveRoot : Bool) (path : List Text) (segment : Text) : List Text :=
  if segment = [] ∨ segment = ['.'] then path
  else if segment = ['.', '.'] then
    match path with
    | [] => if allowAboveRoot then [['.', '.']] else []
    | last :: rest => if last = ['.', '.'] then (if allowAboveRoot then ['.', '.'] :: last :: rest else last :: rest) else rest
  else segment :: path

def normalizeString (allowAboveRoot : Bool) (path : Text) : Text :=
  ['/'].intercalate ((path.splitOn '/').foldl (resolveSegment allowAboveRoot) []).reverse

/-- `posix.normalize` -/
def posixNormalize (path : Text) : Text :=
  if path = [] then ['.']
  else
    let isAbsolute := path.head? == some '/'
    let trailingSeparator := path.getLast? == some '/'
    let normalized := normalizeString (!isAbsolute) path
    if normalized = [] then
      if isAbsolute then ['/'] else if trailingSeparator then ['.', '/'] else ['.']
    else (if isAbsolute then ['/'] else []) ++ normalized ++ (if trailingSeparator then ['/'] else [])

/-- `^[A-Za-z]:[\\/]`, a start of two backslashes, or any backslash -/
def windowsPath (value : Text) : Bool :=
  (match value with
    | letter :: ':' :: separator :: _ => letter.isAlpha && (separator == '\\' || separator == '/')
    | _ => false) || ['\\', '\\'].isPrefixOf value || value.contains '\\'

def normalizedPath (w : WindowsPaths) (value : Text) : Option Text :=
  if value = [] ∨ value.contains '\x00' = true then none
  else if windowsPath value then some (w.toLowerCase ((w.normalize value).map (fun c => if c = '\\' then '/' else c)))
  else some ((posixNormalize value).map (fun c => if c = '\\' then '/' else c))

/-- `pattern.replace(/\*\*/g, placeholder)` -/
def replaceDouble : Text → Text
  | '*' :: '*' :: rest => '\x00' :: replaceDouble rest
  | c :: rest => c :: replaceDouble rest
  | [] => []

def syntaxCharacters : Text := ['.', '+', '?', '^', '$', '{', '}', '(', ')', '|', '[', ']', '\\']

def escape (c : Char) : Text := if syntaxCharacters.contains c then ['\\', c] else [c]

/-- The source of `wildcardRegex` between its anchors. -/
def wildcardSource (pattern star : Text) : Text :=
  (((replaceDouble pattern).flatMap escape).flatMap (fun c => if c = '*' then star else [c])).flatMap
    (fun c => if c = '\x00' then ['.', '*'] else [c])

def isLineTerminator (c : Char) : Bool := c == '\n' || c == '\r' || c == '\u2028' || c == '\u2029'

/-- The expressions of such a source, read as `RegExp` reads them; `none` for any other source. -/
def readRegExp : Text → Option (List (Token Char))
  | [] => some []
  | '\\' :: c :: rest => (readRegExp rest).map (.one c :: ·)
  | '.' :: '*' :: rest => (readRegExp rest).map (.many (fun c => !isLineTerminator c) :: ·)
  | '[' :: '^' :: '/' :: ']' :: '*' :: rest => (readRegExp rest).map (.many (fun c => c != '/') :: ·)
  | c :: rest => if (c = '*' ∨ syntaxCharacters.contains c = true) then none else (readRegExp rest).map (.one c :: ·)

/-- `wildcardRegex(pattern, star).test(value)`; a source that is no expression throws. -/
def wildcardTest (pattern star value : Text) : Option Bool :=
  (readRegExp (wildcardSource pattern star)).map (fun tokens => Wildcard.run tokens value)

/-- `[^/]*` -/
def segmentStar : Text := ['[', '^', '/', ']', '*']

def pathPatternMatches (w : WindowsPaths) (value : Option Text) (pattern : Text) : Option Bool :=
  match value with
  | none => some false
  | some value =>
    match normalizedPath w value, normalizedPath w pattern with
    | some normalizedValue, some normalizedPattern =>
      if normalizedValue = [] ∨ normalizedPattern = [] then some false
      else wildcardTest normalizedPattern segmentStar normalizedValue
    | _, _ => some false

/-! ## Globs -/

/-- **The glob language**: `**` is any text, another `*` any text without `/`, every other character itself. -/
inductive InGlob : Text → Text → Prop
  | nil : InGlob [] []
  | char {c : Char} {p s : Text} (hc : c ≠ '*') (h : InGlob p s) : InGlob (c :: p) (c :: s)
  | star {p u s : Text} (hp : p.head? ≠ some '*') (hu : '/' ∉ u) (h : InGlob p s) : InGlob ('*' :: p) (u ++ s)
  | double {p u s : Text} (h : InGlob p s) : InGlob ('*' :: '*' :: p) (u ++ s)

/-- The tokens of a pattern whose `**` are runs of a class. -/
def globTokens (any : Char → Bool) : Text → List (Token Char)
  | '*' :: '*' :: p => .many any :: globTokens any p
  | '*' :: p => .many (fun c => c != '/') :: globTokens any p
  | c :: p => .one c :: globTokens any p
  | [] => []

/-- A pattern has a `**`. -/
def hasDouble (p : Text) : Prop := ['*', '*'] <:+: p

variable {c : Char} {p v value : Text} {any : Char → Bool} {w : WindowsPaths}

theorem replaceDouble_cons (h : c ≠ '*') (p : Text) : replaceDouble (c :: p) = c :: replaceDouble p := by
  rw [replaceDouble]
  intro rest hc
  exact absurd hc h

theorem replaceDouble_star (h : p.head? ≠ some '*') : replaceDouble ('*' :: p) = '*' :: replaceDouble p := by
  rw [replaceDouble]
  rintro rest - rfl
  exact h rfl

theorem wildcardSource_double (p star : Text) : wildcardSource ('*' :: '*' :: p) star = '.' :: '*' :: wildcardSource p star := rfl

theorem wildcardSource_star (h : p.head? ≠ some '*') : wildcardSource ('*' :: p) segmentStar =
    '[' :: '^' :: '/' :: ']' :: '*' :: wildcardSource p segmentStar := by
  unfold wildcardSource
  rw [replaceDouble_star h]
  rfl

theorem wildcardSource_char (hc : c ≠ '*') (hnul : c ≠ '\x00') (p star : Text) :
    wildcardSource (c :: p) star = escape c ++ wildcardSource p star := by
  have hescape : ((escape c).flatMap (fun c => if c = '*' then star else [c])).flatMap (fun c => if c = '\x00' then ['.', '*'] else [c]) =
      escape c := by
    unfold escape
    split
    · simp [hc, hnul]
    · simp [hc, hnul]
  unfold wildcardSource
  rw [replaceDouble_cons hc, List.flatMap_cons, List.flatMap_append, List.flatMap_append, hescape]

theorem readRegExp_escape (hc : c ≠ '*') (rest : Text) :
    readRegExp (escape c ++ rest) = (readRegExp rest).map (.one c :: ·) := by
  unfold escape
  split
  · rfl
  · rename_i hplain
    have hnot : ∀ d ∈ syntaxCharacters, c ≠ d := by
      rintro d hd rfl
      exact hplain (List.contains_iff_mem.2 hd)
    rw [List.singleton_append, readRegExp]
    · rw [if_neg (by rintro (h | h); exacts [hc h, hplain h])]
    · rintro x xs rfl
      exact absurd rfl (hnot '\\' (by decide))
    · rintro xs rfl
      exact absurd rfl (hnot '.' (by decide))
    · rintro xs rfl
      exact absurd rfl (hnot '[' (by decide))

/-- A pattern is empty, or starts with `**`, with a `*` alone or with another character. -/
@[elab_as_elim]
theorem pattern_cases {P : Text → Prop} (nil : P []) (double : ∀ p, P p → P ('*' :: '*' :: p))
    (star : ∀ p, p.head? ≠ some '*' → P p → P ('*' :: p)) (char : ∀ c p, c ≠ '*' → P p → P (c :: p)) : ∀ p : Text, P p
  | [] => nil
  | c :: p => by
    by_cases hc : c = '*'
    · subst hc
      cases p with
      | nil => exact star [] (by simp) nil
      | cons d q =>
        by_cases hd : d = '*'
        · subst hd
          exact double q (pattern_cases nil double star char q)
        · refine star (d :: q) (fun h => hd (Option.some.inj h)) ?_
          exact char d q hd (pattern_cases nil double star char q)
    · exact char c p hc (pattern_cases nil double star char p)

theorem globTokens_star (any : Char → Bool) (h : p.head? ≠ some '*') :
    globTokens any ('*' :: p) = .many (fun c => c != '/') :: globTokens any p := by
  rw [globTokens]
  rintro q rfl
  exact h rfl

theorem globTokens_char (any : Char → Bool) (h : c ≠ '*') (p : Text) : globTokens any (c :: p) = .one c :: globTokens any p := by
  rw [globTokens]
  · rintro q hc
    exact absurd hc h
  · exact h

/-- **The expression of a pattern** has its tokens. -/
theorem readRegExp_source (p : Text) : '\x00' ∉ p →
    readRegExp (wildcardSource p segmentStar) = some (globTokens (fun c => !isLineTerminator c) p) := by
  induction p using pattern_cases with
  | nil =>
    exact fun _ => rfl
  | double p ih =>
    intro hnul
    simp only [List.mem_cons, not_or] at hnul
    rw [wildcardSource_double, readRegExp, ih hnul.2.2]
    rfl
  | star p hp ih =>
    intro hnul
    simp only [List.mem_cons, not_or] at hnul
    rw [wildcardSource_star hp, readRegExp, ih hnul.2, globTokens_star _ hp]
    rfl
  | char c p hc ih =>
    intro hnul
    simp only [List.mem_cons, not_or] at hnul
    rw [wildcardSource_char hc (Ne.symm hnul.1), readRegExp_escape hc, ih hnul.2, globTokens_char _ hc]
    rfl

/-- A glob is the pattern whose `**` are runs of anything. -/
theorem inGlob_iff (p : Text) : ∀ s, InGlob p s ↔ Denotes (globTokens (fun _ => true) p) s := by
  induction p using pattern_cases with
  | nil =>
    intro s
    constructor
    · intro h
      cases h
      exact .nil
    · intro h
      cases h
      exact .nil
  | double p ih =>
    intro s
    constructor
    · intro h
      cases h with
      | char hc _ => exact absurd rfl hc
      | star hp _ _ => exact absurd rfl hp
      | double h => exact .many (fun _ _ => rfl) ((ih _).1 h)
    · intro h
      cases h with
      | many hu h => exact .double ((ih _).2 h)
  | star p hp ih =>
    intro s
    rw [globTokens_star _ hp]
    constructor
    · intro h
      cases h with
      | char hc _ => exact absurd rfl hc
      | star _ hu h =>
        refine .many (fun c hc => ?_) ((ih _).1 h)
        rw [bne_iff_ne]
        rintro rfl
        exact hu hc
      | double _ => exact absurd rfl hp
    · intro h
      cases h with
      | many hu h =>
        refine .star hp (fun hslash => ?_) ((ih _).2 h)
        exact bne_iff_ne.1 (hu '/' hslash) rfl
  | char c p hc ih =>
    intro s
    rw [globTokens_char _ hc]
    constructor
    · intro h
      cases h with
      | char _ h => exact .one ((ih _).1 h)
      | star _ _ _ => exact absurd rfl hc
      | double _ => exact absurd rfl hc
    · intro h
      cases h with
      | one h => exact .char hc ((ih _).2 h)

theorem denotes_mono (p : Text) : ∀ s, Denotes (globTokens any p) s → Denotes (globTokens (fun _ => true) p) s := by
  induction p using pattern_cases with
  | nil =>
    exact fun s h => h
  | double p ih =>
    intro s h
    cases h with
    | many _ h => exact .many (fun _ _ => rfl) (ih _ h)
  | star p hp ih =>
    intro s h
    rw [globTokens_star _ hp] at h ⊢
    cases h with
    | many hu h => exact .many hu (ih _ h)
  | char c p hc ih =>
    intro s h
    rw [globTokens_char _ hc] at h ⊢
    cases h with
    | one h => exact .one (ih _ h)

/-- A text of the class, or a pattern without `**`, needs no larger class. -/
theorem denotes_free (p : Text) : ∀ s, ((∀ c ∈ s, any c = true) ∨ ¬hasDouble p) →
    Denotes (globTokens (fun _ => true) p) s → Denotes (globTokens any p) s := by
  have htail : ∀ (c : Char) (p : Text), ¬hasDouble (c :: p) → ¬hasDouble p := by
    intro c p hno h
    exact hno (h.trans (List.suffix_cons c p).isInfix)
  induction p using pattern_cases with
  | nil =>
    exact fun s _ h => h
  | double p ih =>
    intro s hfree h
    have hany : ∀ c ∈ s, any c = true := by
      refine hfree.resolve_right (fun hno => hno ?_)
      exact ⟨[], p, rfl⟩
    cases h with
    | many hu h =>
      exact .many (fun c hc => hany c (List.mem_append_left _ hc)) (ih _ (.inl (fun c hc => hany c (List.mem_append_right _ hc))) h)
  | star p hp ih =>
    intro s hfree h
    rw [globTokens_star _ hp] at h ⊢
    cases h with
    | many hu h => exact .many hu (ih _ (hfree.imp (fun hany c hc => hany c (List.mem_append_right _ hc)) (htail _ p)) h)
  | char c p hc ih =>
    intro s hfree h
    rw [globTokens_char _ hc] at h ⊢
    cases h with
    | one h => exact .one (ih _ (hfree.imp (fun hany c hc => hany c (List.mem_cons_of_mem _ hc)) (htail c p)) h)

theorem posixNormalize_ne (path : Text) : posixNormalize path ≠ [] := by
  unfold posixNormalize
  split
  · exact List.cons_ne_nil _ _
  · dsimp only
    split
    · split
      · exact List.cons_ne_nil _ _
      · split <;> exact List.cons_ne_nil _ _
    · rename_i hne
      intro h
      rw [List.append_eq_nil_iff, List.append_eq_nil_iff] at h
      exact hne h.1.2

theorem normalizedPath_ne (h : normalizedPath w value = some v) : v ≠ [] := by
  unfold normalizedPath at h
  split at h
  · cases h
  · split at h
    · cases h
      refine w.toLowerCase_ne _ (fun hnil => ?_)
      exact w.normalize_ne value (List.map_eq_nil_iff.1 hnil)
    · cases h
      intro hnil
      exact posixNormalize_ne value (List.map_eq_nil_iff.1 hnil)

theorem mem_intercalate {sep : Text} {c : Char} : ∀ {l : List Text}, c ∈ sep.intercalate l ↔
    (c ∈ sep ∧ 1 < l.length) ∨ ∃ segment ∈ l, c ∈ segment
  | [] => by simp [List.intercalate]
  | [x] => by simp [List.intercalate]
  | x :: y :: l => by
    rw [List.intercalate_cons_cons, List.mem_append, List.mem_append, mem_intercalate]
    simp only [List.length_cons, List.mem_cons, exists_eq_or_imp]
    constructor
    · rintro ((hc | hc) | (⟨hc, -⟩ | hc))
      · exact .inr (.inl hc)
      · exact .inl ⟨hc, by omega⟩
      · exact .inl ⟨hc, by omega⟩
      · exact .inr (.inr hc)
    · rintro (⟨hc, -⟩ | (hc | hc))
      · exact .inl (.inr hc)
      · exact .inl (.inl hc)
      · exact .inr (.inr hc)

theorem resolveSegments_mem (hdot : c ≠ '.') (allowAboveRoot : Bool) (segments : List Text) (hs : ∀ segment ∈ segments, c ∉ segment) :
    ∀ path : List Text, (∀ segment ∈ path, c ∉ segment) → ∀ segment ∈ segments.foldl (resolveSegment allowAboveRoot) path, c ∉ segment := by
  have hup : c ∉ ['.', '.'] := by simp [hdot]
  induction segments with
  | nil => exact fun path h => h
  | cons x xs ih =>
    intro path h
    refine ih (fun segment hsegment => hs segment (List.mem_cons_of_mem x hsegment)) _ ?_
    intro segment hsegment
    unfold resolveSegment at hsegment
    split at hsegment
    · exact h segment hsegment
    · split at hsegment
      · split at hsegment
        · split at hsegment
          · rw [List.mem_singleton] at hsegment
            rw [hsegment]
            exact hup
          · exact absurd hsegment List.not_mem_nil
        · split at hsegment
          · split at hsegment
            · rcases List.mem_cons.1 hsegment with rfl | hsegment
              · exact hup
              · exact h segment hsegment
            · exact h segment hsegment
          · exact h segment (List.mem_cons_of_mem _ hsegment)
      · rcases List.mem_cons.1 hsegment with rfl | hsegment
        · exact hs _ List.mem_cons_self
        · exact h segment hsegment

theorem posixNormalize_mem (hdot : c ≠ '.') (hslash : c ≠ '/') {path : Text} (h : c ∉ path) : c ∉ posixNormalize path := by
  have hsegments : ∀ segment ∈ path.splitOn '/', c ∉ segment := by
    intro segment hsegment hc
    have hmem : c ∈ ['/'].intercalate (path.splitOn '/') := mem_intercalate.2 (.inr ⟨segment, hsegment, hc⟩)
    rw [List.intercalate_splitOn] at hmem
    exact h hmem
  have hnormalized : ∀ allowAboveRoot, c ∉ normalizeString allowAboveRoot path := by
    intro allowAboveRoot hc
    unfold normalizeString at hc
    rcases mem_intercalate.1 hc with ⟨hc, -⟩ | ⟨segment, hsegment, hc⟩
    · rw [List.mem_singleton] at hc
      exact hslash hc
    · exact resolveSegments_mem hdot allowAboveRoot _ hsegments [] (List.forall_mem_nil _) segment
        (List.mem_reverse.1 hsegment) hc
  unfold posixNormalize
  split
  · simp [hdot]
  · dsimp only
    split
    · split
      · simp [hslash]
      · split <;> simp [hdot, hslash]
    · rw [List.mem_append, List.mem_append]
      rintro ((hc | hc) | hc)
      · split at hc
        · exact hslash (List.mem_singleton.1 hc)
        · exact absurd hc List.not_mem_nil
      · exact hnormalized _ hc
      · split at hc
        · exact hslash (List.mem_singleton.1 hc)
        · exact absurd hc List.not_mem_nil

theorem map_slash_nul {s : Text} (h : '\x00' ∉ s) : '\x00' ∉ s.map (fun c => if c = '\\' then '/' else c) := by
  intro hc
  obtain ⟨d, hd, hval⟩ := List.mem_map.1 hc
  split at hval
  · cases hval
  · rw [hval] at hd
    exact h hd

theorem normalizedPath_nul (h : normalizedPath w value = some v) : '\x00' ∉ v := by
  unfold normalizedPath at h
  split at h
  · cases h
  · rename_i hvalue
    have hnul : '\x00' ∉ value := fun hc => hvalue (.inr (List.contains_iff_mem.2 hc))
    split at h
    · cases h
      exact w.toLowerCase_nul _ (map_slash_nul (w.normalize_nul value hnul))
    · cases h
      exact map_slash_nul (posixNormalize_mem (by decide) (by decide) hnul)

/-- **A path selector tests the glob language of its normalized pattern**, where no dot can meet a line terminator. -/
theorem pathPatternMatches_iff (w : WindowsPaths) (value pattern : Text)
    (hfree : ∀ v p, normalizedPath w value = some v → normalizedPath w pattern = some p →
      (∀ c ∈ v, isLineTerminator c = false) ∨ ¬hasDouble p) :
    pathPatternMatches w (some value) pattern = some true ↔
      ∃ v p, normalizedPath w value = some v ∧ normalizedPath w pattern = some p ∧ InGlob p v := by
  unfold pathPatternMatches
  dsimp only
  cases hv : normalizedPath w value with
  | none =>
    constructor
    · intro h
      cases h
    · rintro ⟨v, p, h, -⟩
      cases h
  | some v =>
    cases hp : normalizedPath w pattern with
    | none =>
      constructor
      · intro h
        cases h
      · rintro ⟨v, p, -, h, -⟩
        cases h
    | some p =>
      dsimp only
      rw [if_neg (by rintro (h | h); exacts [normalizedPath_ne hv h, normalizedPath_ne hp h])]
      unfold wildcardTest
      rw [readRegExp_source p (normalizedPath_nul hp), Option.map_some, Option.some.injEq, Wildcard.run_iff]
      have hclass : (∀ c ∈ v, (!isLineTerminator c) = true) ∨ ¬hasDouble p := by
        refine (hfree v p hv hp).imp (fun hno c hc => ?_) id
        rw [hno c hc]
        rfl
      constructor
      · intro h
        exact ⟨v, p, rfl, rfl, (inGlob_iff p v).2 (denotes_mono p v h)⟩
      · rintro ⟨v', p', rfl', hp', h⟩
        cases rfl'
        cases hp'
        exact denotes_free p v hclass ((inGlob_iff p v).1 h)

end Wollipog.Policy
