import Wollipog.Lib.CommandLine
import Wollipog.Reviews.Contract
/-!
# WindowsCmd — the command line of a Windows batch shim

A token is quoted where the command interpreter would act on one of its characters.
-/
namespace Wollipog.Commands

open Json (CodeUnit Text)
open Reviews (lit)
open CommandLine

structure WindowsCommandHost where
  platform : String
  comspec : Option Text

structure WindowsCommandSpec where
  file : Text
  args : List Text
  argv0 : Option Text
  windowsVerbatimArguments : Option Bool

def needsQuotes (c : CodeUnit) : Bool := (lit " \t\",;&|<>^()!=").contains c

def metacharacter (c : CodeUnit) : Bool := needsQuotes c && c != 34

/-- The first replacement, after `slashes` pending backslashes: a run of backslashes and a quote, both doubled. -/
def doubledBeforeQuotes (slashes : ℕ) : Text → Text
  | [] => List.replicate slashes 92
  | c :: s =>
    if c = 92 then doubledBeforeQuotes (slashes + 1) s
    else if c = 34 then List.replicate (2 * slashes) 92 ++ 34 :: 34 :: doubledBeforeQuotes 0 s
    else List.replicate slashes 92 ++ c :: doubledBeforeQuotes 0 s

def doubledAtEnd (s : Text) : Text := s ++ s.rtakeWhile (fun c => c == 92)

def quoteWindowsCmdToken (value : Text) (force : Bool) : Except String Text :=
  if value.any (fun c => c == 13 || c == 10) then .error "Windows command arguments cannot contain CR/LF"
  else if value.contains 37 then
    .error "Windows command arguments cannot contain %, which cmd.exe would expand"
  else if value = [] then .ok (lit "\"\"")
  else if !force && !value.any needsQuotes then .ok value
  else .ok (34 :: doubledAtEnd (doubledBeforeQuotes 0 value) ++ [34])

def windowsCmdInvocationSpec (file : Text) (args : List Text) (host : WindowsCommandHost) :
    Except String WindowsCommandSpec :=
  if host.platform ≠ "win32" then
    .ok { file := file, args := args, argv0 := none, windowsVerbatimArguments := none }
  else do
    let token ← quoteWindowsCmdToken file false
    let tokens ← args.mapM (fun arg => quoteWindowsCmdToken arg false)
    let commandLine := joined (token :: tokens)
    let comspec := match host.comspec with
      | none => lit "cmd.exe"
      | some [] => lit "cmd.exe"
      | some (c :: s) => c :: s
    let argv0 ← quoteWindowsCmdToken comspec false
    return {
      file := comspec
      args := [lit "/d", lit "/v:off", lit "/s", lit "/c", 34 :: commandLine ++ [34]]
      argv0 := some argv0
      windowsVerbatimArguments := some true }

example : quoteWindowsCmdToken (lit "before\\\"after\\") false = .ok (lit "\"before\\\\\"\"after\\\\\"") := by decide

/-! ## One token -/

def escaped (slashes : ℕ) : Text → Text
  | [] => List.replicate (2 * slashes) 92
  | c :: s =>
    if c = 92 then escaped (slashes + 1) s
    else if c = 34 then List.replicate (2 * slashes) 92 ++ 34 :: 34 :: escaped 0 s
    else List.replicate slashes 92 ++ c :: escaped 0 s

theorem doubledAtEnd_append {c : CodeUnit} (h : c ≠ 92) (s t : Text) :
    doubledAtEnd (s ++ c :: t) = s ++ c :: doubledAtEnd t := by
  have hstop : (s ++ c :: t).rtakeWhile (fun c => c == 92) = t.rtakeWhile (fun c => c == 92) := by
    unfold List.rtakeWhile
    rw [List.reverse_append, List.reverse_cons, List.append_assoc, List.takeWhile_append]
    have hnil : (([c] ++ s.reverse).takeWhile (fun c => c == 92)) = [] :=
      List.takeWhile_cons_of_neg (by simpa using h)
    split
    · rename_i hall
      rw [hnil, List.append_nil, (List.takeWhile_prefix _).eq_of_length hall]
    · rfl
  unfold doubledAtEnd
  rw [hstop, List.append_assoc]
  rfl

theorem doubledAtEnd_replicate (n : ℕ) : doubledAtEnd (List.replicate n 92) = List.replicate (2 * n) 92 := by
  have hall : (List.replicate n (92 : CodeUnit)).rtakeWhile (fun c => c == 92) = List.replicate n 92 :=
    List.rtakeWhile_eq_self_iff.2 (fun c hc => by rw [List.eq_of_mem_replicate hc]; rfl)
  unfold doubledAtEnd
  rw [hall, List.replicate_append_replicate, Nat.two_mul]

theorem doubledAtEnd_doubled : ∀ (s : Text) (n : ℕ), doubledAtEnd (doubledBeforeQuotes n s) = escaped n s
  | [], n => doubledAtEnd_replicate n
  | c :: s, n => by
    unfold doubledBeforeQuotes escaped
    by_cases hslash : c = 92
    · rw [if_pos hslash, if_pos hslash, doubledAtEnd_doubled s]
    · rw [if_neg hslash, if_neg hslash]
      by_cases hquote : c = 34
      · have hsplit := doubledAtEnd_append (show (34 : CodeUnit) ≠ 92 by decide) (List.replicate (2 * n) 92 ++ [34])
          (doubledBeforeQuotes 0 s)
        rw [List.append_assoc, List.append_assoc, doubledAtEnd_doubled s] at hsplit
        rw [if_pos hquote, if_pos hquote]
        exact hsplit
      · rw [if_neg hquote, if_neg hquote, doubledAtEnd_append hslash, doubledAtEnd_doubled s]

/-- **The runtime reads an escaped value and its closing quote as the value.** -/
theorem argument_escaped {rest : Text} (hrest : Ends rest) : ∀ (s : Text) (n : ℕ),
    argument true 0 (escaped n s ++ 34 :: rest) = (List.replicate n 92 ++ s, rest)
  | [], n => by
    unfold escaped
    rw [argument_slashes, Nat.zero_add, argument_close hrest, List.append_nil]
  | c :: s, n => by
    unfold escaped
    by_cases hslash : c = 92
    · rw [if_pos hslash, argument_escaped hrest s, hslash, List.replicate_succ', List.append_assoc]
      rfl
    · rw [if_neg hslash]
      by_cases hquote : c = 34
      · rw [if_pos hquote, List.append_assoc, argument_slashes, Nat.zero_add]
        change argument true (2 * n) (34 :: 34 :: (escaped 0 s ++ 34 :: rest)) = _
        rw [argument_doubled, argument_escaped hrest s, hquote, onto, List.append_assoc]
        rfl
      · rw [if_neg hquote, List.append_assoc, argument_slashes, Nat.zero_add]
        change argument true n (c :: (escaped 0 s ++ 34 :: rest)) = _
        rw [argument_plain hslash hquote (fun h => by cases h), argument_escaped hrest s, onto, List.append_assoc]
        rfl

theorem inert_escaped : ∀ (s : Text) (n : ℕ), Inert metacharacter true (escaped n s) ∧ quotedAfter true (escaped n s) = true
  | [], n => ⟨Inert.replicate (by decide) _, quotedAfter_replicate _ _⟩
  | c :: s, n => by
    unfold escaped
    by_cases hslash : c = 92
    · rw [if_pos hslash]
      exact inert_escaped s (n + 1)
    · have ih := inert_escaped s 0
      rw [if_neg hslash]
      by_cases hquote : c = 34
      · rw [if_pos hquote, quotedAfter_append, quotedAfter_replicate]
        refine ⟨Inert.append (Inert.replicate (by decide) _) ?_, ih.2⟩
        rw [quotedAfter_replicate]
        exact Inert.cons (fun _ => rfl) (Inert.cons (fun h => absurd h (by decide)) ih.1)
      · rw [if_neg hquote, quotedAfter_append, quotedAfter_replicate, quotedAfter_cons, toggle_ne hquote]
        refine ⟨Inert.append (Inert.replicate (by decide) _) ?_, ih.2⟩
        rw [quotedAfter_replicate]
        refine Inert.cons (fun _ => rfl) ?_
        rw [toggle_ne hquote]
        exact ih.1

theorem encodes_escaped (value : Text) : Encodes metacharacter (34 :: escaped 0 value ++ [34]) value where
  reads rest hrest := by
    have hread := argument_escaped hrest value 0
    have hopen := argument_open 0 (escaped 0 value ++ 34 :: rest)
    rw [hread] at hopen
    have hsplit : 34 :: escaped 0 value ++ [34] ++ rest = 34 :: (escaped 0 value ++ 34 :: rest) := by simp
    rw [hsplit]
    exact hopen
  begins := ⟨34, _, rfl, by decide⟩
  closed := by
    rw [List.cons_append, quotedAfter_cons, quotedAfter_append]
    change quotedAfter (quotedAfter true (escaped 0 value)) [34] = false
    rw [(inert_escaped value 0).2]
    rfl
  inert := by
    rw [List.cons_append]
    refine Inert.cons (fun h => absurd h (by decide)) (Inert.append (inert_escaped value 0).1 ?_)
    exact Inert.cons (fun h => absurd h (by decide)) (Inert.nil _)

theorem blank_needsQuotes (c : CodeUnit) (h : blank c = true) : needsQuotes c = true := by
  simp only [blank, Bool.or_eq_true, beq_iff_eq] at h
  rcases h with rfl | rfl <;> decide

theorem argument_bare {rest : Text} : ∀ {s : Text}, (∀ c ∈ s, needsQuotes c = false) → Ends rest → ∀ n,
    argument false n (s ++ rest) = (List.replicate n 92 ++ s, rest)
  | [], _, hrest, n => by
    rw [List.nil_append, argument_ends hrest, List.append_nil]
  | c :: s, h, hrest, n => by
    have htail : ∀ d ∈ s, needsQuotes d = false := fun d hd => h d (List.mem_cons_of_mem c hd)
    have hc := h c List.mem_cons_self
    rw [List.cons_append]
    by_cases hslash : c = 92
    · rw [hslash, argument_backslash, argument_bare htail hrest, List.replicate_succ', List.append_assoc]
      rfl
    · have hquote : c ≠ 34 := fun heq => by
        rw [heq] at hc
        exact absurd hc (by decide)
      have hblank : blank c = false := by
        rw [← Bool.not_eq_true]
        intro hb
        rw [blank_needsQuotes c hb] at hc
        cases hc
      rw [argument_plain hslash hquote (fun _ => hblank), argument_bare htail hrest, onto, List.append_assoc]
      rfl

theorem quotedAfter_bare {s : Text} (h : ∀ c ∈ s, c ≠ 34) (quoted : Bool) : quotedAfter quoted s = quoted := by
  induction s with
  | nil => rfl
  | cons c s ih =>
    rw [quotedAfter_cons, toggle_ne (h c List.mem_cons_self)]
    exact ih (fun d hd => h d (List.mem_cons_of_mem c hd))

theorem encodes_plain {value : Text} (hne : value ≠ []) (h : ∀ c ∈ value, needsQuotes c = false) :
    Encodes metacharacter value value := by
  have hquote : ∀ {c}, c ∈ value → c ≠ 34 := fun hc heq => by
    have hneeds := h _ hc
    rw [heq] at hneeds
    exact absurd hneeds (by decide)
  obtain ⟨c, s, rfl⟩ := List.exists_cons_of_ne_nil hne
  refine ⟨fun rest hrest => argument_bare h hrest 0, ⟨c, s, rfl, ?_⟩, quotedAfter_bare (fun _ => hquote) false, ?_⟩
  · rw [← Bool.not_eq_true]
    intro hb
    have hneeds := h c List.mem_cons_self
    rw [blank_needsQuotes c hb] at hneeds
    cases hneeds
  · intro before d after heq hd
    unfold metacharacter at hd
    rw [h d (by rw [heq]; simp)] at hd
    cases hd

/-- **An accepted value is encoded by its token**, quoted or not. -/
theorem encodes_token {value token : Text} {force : Bool} (h : quoteWindowsCmdToken value force = .ok token) :
    Encodes metacharacter token value := by
  unfold quoteWindowsCmdToken at h
  split at h
  · cases h
  · split at h
    · cases h
    · split at h
      · rename_i hempty
        cases h
        subst hempty
        exact encodes_escaped []
      · rename_i hne
        split at h
        · rename_i hplain
          cases h
          refine encodes_plain hne (fun c hc => ?_)
          simp only [Bool.and_eq_true, Bool.not_eq_true', List.any_eq_false] at hplain
          simpa using hplain.2 c hc
        · cases h
          rw [doubledAtEnd_doubled]
          exact encodes_escaped value

abbrev Tokens (tokens values : List Text) : Prop :=
  List.Forall₂ (fun token value => quoteWindowsCmdToken value false = .ok token) tokens values

theorem Tokens.encodes {tokens values : List Text} (h : Tokens tokens values) :
    List.Forall₂ (Encodes metacharacter) tokens values :=
  List.Forall₂.imp (fun _ _ => encodes_token) h

theorem tokens_of_mapM : ∀ {args tokens : List Text},
    args.mapM (fun arg => quoteWindowsCmdToken arg false) = .ok tokens → Tokens tokens args
  | [], tokens, h => by
    cases h
    exact .nil
  | arg :: args, tokens, h => by
    rw [List.mapM_cons] at h
    cases hfirst : quoteWindowsCmdToken arg false with
    | error e =>
      rw [hfirst] at h
      cases h
    | ok token =>
      cases hrest : args.mapM (fun arg => quoteWindowsCmdToken arg false) with
      | error e =>
        rw [hfirst, hrest] at h
        cases h
      | ok rest =>
        rw [hfirst, hrest] at h
        cases h
        exact .cons hfirst (tokens_of_mapM hrest)

theorem tail_of_spec {file : Text} {args : List Text} {host : WindowsCommandHost} {spec : WindowsCommandSpec}
    (hwin : host.platform = "win32") (h : windowsCmdInvocationSpec file args host = .ok spec) :
    ∃ tokens, Tokens tokens (file :: args) ∧
      spec.args.getLast? = some (34 :: joined tokens ++ [34]) := by
  unfold windowsCmdInvocationSpec at h
  rw [if_neg (not_not.2 hwin)] at h
  cases hfile : quoteWindowsCmdToken file false with
  | error e =>
    rw [hfile] at h
    cases h
  | ok token =>
    cases hargs : args.mapM (fun arg => quoteWindowsCmdToken arg false) with
    | error e =>
      rw [hfile, hargs] at h
      cases h
    | ok tokens =>
      rw [hfile, hargs] at h
      refine ⟨token :: tokens, .cons hfile (tokens_of_mapM hargs), ?_⟩
      simp only [bind, Except.bind, pure, Except.pure] at h
      split at h
      · cases h
      · cases h
        rfl

/-- The tail as `/s` leaves it to be read. -/
def commandLineOf (spec : WindowsCommandSpec) : Text := stripped (spec.args.getLast?.getD [])

/-- **Quoting is injective and inert**: outside quotes the interpreter sees no metacharacter but the blanks, and two
invocations with one tail are one. -/
theorem windows_quoting_inert {file : Text} {args : List Text} {host : WindowsCommandHost} {spec : WindowsCommandSpec}
    (hwin : host.platform = "win32") (h : windowsCmdInvocationSpec file args host = .ok spec) :
    (∃ tokens, Tokens tokens (file :: args) ∧ commandLineOf spec = joined tokens ∧
      ∀ before c after, commandLineOf spec = before ++ c :: after → metacharacter c = true →
        quotedAfter false before = false →
          c = 32 ∧ ∃ l r, l ≠ [] ∧ r ≠ [] ∧ tokens = l ++ r ∧ before = joined l ∧ after = joined r) ∧
      arguments (commandLineOf spec) = file :: args ∧
      arguments (program false (commandLineOf spec)).2 = args ∧
      ∀ file' args' host' spec', host'.platform = "win32" → windowsCmdInvocationSpec file' args' host' = .ok spec' →
        spec'.args = spec.args → file' = file ∧ args' = args := by
  obtain ⟨tokens, htokens, htail⟩ := tail_of_spec hwin h
  have hline : commandLineOf spec = joined tokens := by
    unfold commandLineOf
    rw [htail, Option.getD_some, stripped_quoted]
  refine ⟨⟨tokens, htokens, hline, ?_⟩, ?_, ?_, ?_⟩
  · intro before c after heq hc hout
    exact joined_outside htokens.encodes (hline.symm.trans heq) hc hout
  · rw [hline]
    exact arguments_joined htokens.encodes
  · rw [hline]
    cases htokens with
    | cons htoken hrest =>
      refine arguments_program (fun c hc => ?_) (encodes_token htoken) (Tokens.encodes hrest)
      simp only [blank, Bool.or_eq_true, beq_iff_eq] at hc
      rcases hc with rfl | rfl <;> decide
  · intro file' args' host' spec' hwin' h' hsame
    obtain ⟨tokens', htokens', htail'⟩ := tail_of_spec hwin' h'
    have hline' : joined tokens' = joined tokens := by
      rw [hsame, htail] at htail'
      have hstripped := congrArg stripped (Option.some.inj htail')
      rw [stripped_quoted, stripped_quoted] at hstripped
      exact hstripped.symm
    have hargs := (arguments_joined htokens'.encodes).symm.trans ((congrArg arguments hline').trans (arguments_joined htokens.encodes))
    exact List.cons_eq_cons.1 hargs

theorem windows_quoting_inert_shim : ∃ spec,
    windowsCmdInvocationSpec (lit "C:\\Program Files\\tool.cmd") [lit "say \"a&b\\\"", [], lit "tail\\"]
        ⟨"win32", none⟩ = .ok spec ∧
      arguments (commandLineOf spec) = [lit "C:\\Program Files\\tool.cmd", lit "say \"a&b\\\"", [], lit "tail\\"] :=
  ⟨_, rfl, (@windows_quoting_inert _ _ ⟨"win32", none⟩ _ rfl rfl).2.1⟩

end Wollipog.Commands
