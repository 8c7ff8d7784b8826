import Wollipog.Reviews.Contract
import Wollipog.Scope.Issues
/-!
# Grant — where an owner's message writes a number, and what a verdict on it may grant

A number counts as written only as a whole digit string. What stands before it may qualify it with a repository; what
stands between two may join them as one range.
-/
namespace Wollipog.Scope

open Json (Text CodeUnit)
open Reviews (lit natText)

/-- The character of a unit; no expression names the one a half of a surrogate pair gives. -/
def charOf (c : CodeUnit) : Char := Char.ofNat c.val

def isDigitUnit (c : CodeUnit) : Bool := decide (48 ≤ c.val) && decide (c.val ≤ 57)

def isSpaceUnit (c : CodeUnit) : Bool := Js.isSpace (charOf c)

/-- `[\w.-]` -/
def nameUnit (c : CodeUnit) : Bool := Regex.isWord (charOf c) || c == 45 || c == 46

/-- `[\w.-]` with the flag `i`, where `\w` also holds the two characters that fold to a letter. -/
def nameUnitI (c : CodeUnit) : Bool := nameUnit c || c.val == 0x17f || c.val == 0x212a

def trimText (s : Text) : Text := ((s.dropWhile isSpaceUnit).reverse.dropWhile isSpaceUnit).reverse

/-- `replace(/\s+/gu, " ")` -/
def flatten : Text → Text
  | [] => []
  | c :: cs =>
    if isSpaceUnit c then
      (if (cs.head?).any isSpaceUnit then [] else [32]) ++ flatten cs
    else c :: flatten cs

/-! ## Occurrences -/

/-- Where `n` is written in `text` as a whole digit string: not inside a longer number. -/
def digitOccurrences (text : Text) (n : ℕ) : List ℕ :=
  let digits := natText n
  (List.range text.length).filter (fun at_ => digits.isPrefixOf (text.drop at_) &&
    (at_ == 0 || !(text[at_ - 1]?).any isDigitUnit) && !(text[at_ + digits.length]?).any isDigitUnit)

def writtenAsDigits (text : Text) (n : ℕ) : Bool := decide (0 < (digitOccurrences text n).length)

/-- A literal part of an expression, in lower case, at the end of a text: what stands before it. -/
def beforeI (part : String) (s : Text) : Option Text :=
  let n := part.toList.length
  if s.length < n then none
  else if (s.drop (s.length - n)).map (fun c => Regex.fold (charOf c)) = part.toList then some (s.take (s.length - n)) else none

/-- `(P+\/P+)` at the end of a text, and what stands before it. -/
def pathAtEnd (p : CodeUnit → Bool) (s : Text) : Option (Text × Text) :=
  let name := (s.reverse.takeWhile p).reverse
  let rest := s.take (s.length - name.length)
  if rest.getLast? = some 47 then
    let owner := (rest.dropLast.reverse.takeWhile p).reverse
    if name = [] ∨ owner = [] then none
    else some (rest.dropLast.take (rest.dropLast.length - owner.length), owner ++ 47 :: name)
  else none

/-- `https?:\/\/` at the end of a text. -/
def schemeAtEnd (s : Text) : Bool := (beforeI "https://" s).isSome || (beforeI "http://" s).isSome

/-- `/([\w.-]+\/[\w.-]+)#$/u` -/
def hashQualifier (before : Text) : Option Text :=
  if before.getLast? = some 35 then (pathAtEnd nameUnit before.dropLast).map Prod.snd else none

/-- `/https?:\/\/(?:www\.)?github\.com\/([\w.-]+\/[\w.-]+)\/(?:issues|pull)\/$/iu` -/
def githubQualifier (before : Text) : Option Text :=
  ((beforeI "/issues/" before).or (beforeI "/pull/" before)).bind (fun s =>
    (pathAtEnd nameUnitI s).bind (fun path =>
      (beforeI "github.com/" path.1).bind (fun s =>
        if schemeAtEnd s || ((beforeI "www." s).any schemeAtEnd) then some path.2 else none)))

/-- `([^\s/?#@]+\/[^\s?#]+?)`, the whole of a text. -/
def hostAndPath (s : Text) : Bool :=
  let path := s.dropWhile (fun c => c != 47)
  let host := s.takeWhile (fun c => c != 47)
  !host.isEmpty && host.all (fun c => !isSpaceUnit c && c != 63 && c != 35 && c != 64) &&
    decide (1 < path.length) && path.all (fun c => !isSpaceUnit c && c != 63 && c != 35)

/-- The address of an issue or a merge request of another forge, from the first place it matches. -/
def gitlabQualifier (before : Text) : Option Text :=
  ((beforeI "/\x2d/issues/" before).or (beforeI "/\x2d/merge_requests/" before)).bind (fun s =>
    ((List.range (s.length + 1)).find? (fun at_ => schemeAtEnd (s.take at_) && hostAndPath (s.drop at_))).map (fun at_ => s.drop at_))

section Message

variable (lower : Text → Text) (text : Text)

/-- The repository that qualifies a number written at `at_`, lowercased; none when it stands alone. -/
def qualifyingRepository (at_ : ℕ) : Option Text :=
  let before := (text.take at_).drop (at_ - 300)
  (((hashQualifier before).or (githubQualifier before)).or (gitlabQualifier before)).map lower

/-- The number at `at_` is qualified by a repository outside the boundary. -/
def elsewhere (repositories : List Text) (at_ : ℕ) : Bool :=
  (qualifyingRepository lower text at_).any (fun qualified => !repositories.contains qualified)

def onlyOtherRepositories (n : ℕ) (repositories : List Text) : Bool :=
  let occurrences := digitOccurrences text n
  decide (0 < occurrences.length) && occurrences.all (elsewhere lower text repositories)

end Message

/-- `/^\s*(?:[-–—]|\.\.|to|through|thru)\s*(?:#|issues?\s+#?)?$/iu` -/
def rangeJoin : Regex := Regex.whole (Regex.seqs [.many Js.isSpace,
  .alt (.cls (Regex.anyOf "-–—")) (Regex.lits ["..", "to", "through", "thru"]), .many Js.isSpace,
  Regex.opt (.alt (Regex.lit "#") (Regex.seqs [Regex.lit "issue", Regex.opt (Regex.lit "s"), Regex.atLeast 1 Js.isSpace,
    Regex.opt (Regex.lit "#")]))])

/-- What stands between the number written at `start` and the one at `end_` joins them as one range. -/
def joined (text : Text) (first start end_ : ℕ) : Bool :=
  let from_ := start + (natText first).length
  decide (from_ < end_) && decide (end_ - from_ ≤ 32) &&
    rangeJoin.search none (((text.take end_).drop from_).map (fun c => Regex.fold (charOf c)))

def writtenAsRange (text : Text) (first last : ℕ) : Bool :=
  let ends := digitOccurrences text last
  (digitOccurrences text first).any (fun start => ends.any (joined text first start))

def numberWords : List String := ["one", "two", "three", "four", "five", "six", "seven", "eight", "nine", "ten", "eleven",
  "twelve", "thirteen", "fourteen", "fifteen", "sixteen", "seventeen", "eighteen", "nineteen", "twenty"]

def codePoints : Text → List ℕ
  | [] => []
  | [c] => [c.val]
  | c :: d :: r =>
    if Json.isLead c && Json.isTrail d then (0x10000 + (c.val - 0xd800) * 0x400 + (d.val - 0xdc00)) :: codePoints r
    else c.val :: codePoints (d :: r)

/-- Whether the message states `n` as a count: its digits, or for up to twenty its English word. -/
def writtenAsCount (isLetter : ℕ → Bool) (text : Text) (n : ℕ) : Bool :=
  let part : ℕ → Bool := fun c => isLetter c || c == 45
  writtenAsDigits text n || (n != 0 && (numberWords[n - 1]?).any (fun word =>
    let points := codePoints text
    let length := word.toList.length
    (List.range points.length).any (fun at_ =>
      decide (((points.drop at_).take length).map (fun c => Regex.fold (Char.ofNat c)) = word.toList) &&
        (at_ == 0 || !(points[at_ - 1]?).any part) && !(points[at_ + length]?).any part)))

/-! ## What the scans say -/

/-- **A number not only of other repositories** is written somewhere that no repository outside the boundary qualifies. -/
theorem written_within {lower : Text → Text} {text : Text} {n : ℕ} {repositories : List Text}
    (hwritten : writtenAsDigits text n = true) (hother : onlyOtherRepositories lower text n repositories = false) :
    ∃ at_ ∈ digitOccurrences text n, elsewhere lower text repositories at_ = false := by
  unfold onlyOtherRepositories at hother
  unfold writtenAsDigits at hwritten
  simp only [hwritten, Bool.true_and] at hother
  rw [List.all_eq_false] at hother
  obtain ⟨at_, hat, helse⟩ := hother
  exact ⟨at_, hat, Bool.eq_false_iff.2 helse⟩

example : writtenAsRange (lit "See #10–#14") 10 14 = true := by decide +kernel
example : writtenAsRange (lit "Fix #1 and #100") 1 100 = false := by decide +kernel

end Wollipog.Scope

/-! ## What a verdict on the owner's first message may grant

The floors on a verdict before anything verifies its numbers.  A set is a list without repetitions.
-/
namespace Wollipog.Scope

open Json (Text)

structure GrantBoundary where
  repository : Text
  repositories : Option (List Text)

structure GrantRef where
  repository : Text
  number : ℕ
deriving DecidableEq

structure GrantRange where
  repository : Text
  first : ℕ
  last : ℕ
deriving DecidableEq

structure ScopeGrantFields where
  explicit : List GrantRef
  ranges : List GrantRange
  context : List GrantRef
  selectionRequested : Bool
  selectionRepository : Text
  selectionCount : ℕ
  selectionCriteria : Text
  selectionConstraints : List Text
  narrowsOperations : Bool
  operations : List Text

inductive ScopeGrantDropReason
  | not_in_message | other_repository | range_not_in_message | range_too_wide
deriving DecidableEq

structure DroppedRef where
  repository : Text
  number : ℕ
  reason : ScopeGrantDropReason
deriving DecidableEq

structure GrantSelection where
  repository : Text
  requestedCount : Option ℕ
  unstatedCount : Option ℕ
  criteria : Text
  constraints : List Text

structure ScopeGrantCandidates where
  repository : Text
  explicit : List ℕ
  context : List ℕ
  dropped : List DroppedRef
  selection : Option GrantSelection
  operations : Option (List Text)

def maxMessageIssues : ℕ := 100

/-- `Set.add` -/
def addTo (s : List ℕ) (n : ℕ) : List ℕ := if s.contains n then s else s ++ [n]

/-- `sort((a, b) => a - b)` of numbers, or of what holds one. -/
def sortedBy {α : Type} (key : α → ℕ) (l : List α) : List α := sortBy (fun a b => decide (key a ≤ key b)) l

section Floors

variable (lower : Text → Text)

def boundaryRepositories (boundary : GrantBoundary) : List Text :=
  let launch := lower boundary.repository
  launch :: ((boundary.repositories.getD []).map lower).filter (fun repository => repository != launch)

def resolveGrantRepository (name : Text) (repositories : List Text) : Option Text :=
  let wanted := lower (trimText name)
  if wanted = [] then (if repositories.length = 1 then repositories.head? else none)
  else
    let found := repositories.filter (· == wanted)
    if found.length = 1 then found.head? else none

variable (text : Text) (repositories : List Text) (repository : Text)

def drop (dropped : List DroppedRef) (name : Text) (number : ℕ) (reason : ScopeGrantDropReason) : List DroppedRef :=
  let at_ := (resolveGrantRepository lower name repositories).getD
    (if lower (trimText name) = [] then repository else lower (trimText name))
  if dropped.any (fun d => d.repository == at_ && d.number == number) then dropped else dropped ++ [⟨at_, number, reason⟩]

def admissible (dropped : List DroppedRef) (name : Text) (number : ℕ) : Bool × List DroppedRef :=
  if !writtenAsDigits text number then (false, drop lower repositories repository dropped name number .not_in_message)
  else if resolveGrantRepository lower name repositories != some repository ||
      onlyOtherRepositories lower text number repositories then
    (false, drop lower repositories repository dropped name number .other_repository)
  else (true, dropped)

def contextNumbers (context : List GrantRef) : List ℕ :=
  context.foldl (fun s ref =>
    if writtenAsDigits text ref.number && resolveGrantRepository lower ref.repository repositories == some repository &&
      !onlyOtherRepositories lower text ref.number repositories then addTo s ref.number else s) []

def explicitNumbers (explicit : List GrantRef) : List ℕ × List DroppedRef :=
  explicit.foldl (fun (st : List ℕ × List DroppedRef) ref =>
    let checked := admissible lower text repositories repository st.2 ref.repository ref.number
    (if checked.1 then addTo st.1 ref.number else st.1, checked.2)) ([], [])

def acceptRange (context : List ℕ) (dropped : List DroppedRef) (range : GrantRange) : Bool × List DroppedRef :=
  let first := admissible lower text repositories repository dropped range.repository range.first
  let last := admissible lower text repositories repository first.2 range.repository range.last
  let dropBoth := fun reason =>
    drop lower repositories repository (drop lower repositories repository last.2 range.repository range.first reason)
      range.repository range.last reason
  if !(first.1 && last.1) then (false, last.2)
  else if !writtenAsRange text range.first range.last || context.contains range.first || context.contains range.last then
    (false, dropBoth .range_not_in_message)
  else if range.last ≤ range.first ∨ maxMessageIssues ≤ range.last - range.first then (false, dropBoth .range_too_wide)
  else (true, last.2)

def acceptRanges (context : List ℕ) (dropped : List DroppedRef) (ranges : List GrantRange) : List GrantRange × List DroppedRef :=
  ranges.foldl (fun (st : List GrantRange × List DroppedRef) range =>
    let checked := acceptRange lower text repositories repository context st.2 range
    (if checked.1 then st.1 ++ [range] else st.1, checked.2)) ([], dropped)

/-- `for (let n = first; n <= last && expanded.size <= 100; n++)`, by how many numbers are left. -/
def expandFrom (expanded : List ℕ) (n : ℕ) : ℕ → List ℕ
  | 0 => expanded
  | k + 1 => if expanded.length ≤ maxMessageIssues then expandFrom (addTo expanded n) (n + 1) k else expanded

def expand (explicit : List ℕ) (ranges : List GrantRange) : List ℕ :=
  ranges.foldl (fun s range => expandFrom s range.first (range.last + 1 - range.first)) explicit

end Floors

def scopeGrantCandidates (lower : Text → Text) (isLetter : ℕ → Bool) (text : Text) (fields : ScopeGrantFields)
    (boundary : GrantBoundary) : ScopeGrantCandidates :=
  let repositories := boundaryRepositories lower boundary
  let repository := lower boundary.repository
  let context := contextNumbers lower text repositories repository fields.context
  let named := explicitNumbers lower text repositories repository fields.explicit
  let accepted := acceptRanges lower text repositories repository context named.2 fields.ranges
  let expanded := expand named.1 accepted.1
  let fits := decide (expanded.length ≤ maxMessageIssues)
  let dropped := if fits then accepted.2 else accepted.1.foldl (fun d range =>
    drop lower repositories repository (drop lower repositories repository d range.repository range.first .range_too_wide)
      range.repository range.last .range_too_wide) accepted.2
  let explicit := (if fits then expanded.foldl addTo named.1 else named.1).filter (fun n => !context.contains n)
  { repository
    explicit := (sortedBy id explicit).take maxMessageIssues
    context := (sortedBy id context).take maxMessageIssues
    dropped := sortedBy DroppedRef.number dropped
    selection :=
      (if fields.selectionRequested then resolveGrantRepository lower fields.selectionRepository repositories else none).bind
        (fun selected => if selected = [] then none else some
          { repository := selected
            -- A count the message does not state is not the owner's: it never raises the default.
            requestedCount := if 0 < fields.selectionCount ∧ writtenAsCount isLetter text fields.selectionCount = true then
              some fields.selectionCount else none
            unstatedCount := if 0 < fields.selectionCount ∧ writtenAsCount isLetter text fields.selectionCount = false then
              some fields.selectionCount else none
            criteria := trimText (flatten fields.selectionCriteria)
            constraints := (fields.selectionConstraints.map (fun c => trimText (flatten c))).filter (· != []) })
    operations := if fields.narrowsOperations then some fields.operations else none }

end Wollipog.Scope
