import Mathlib.Data.List.Sort
import Wollipog.Lib.Replace
/-!
# Redaction — what may not stand in a shared transcript

`redactOperationalTranscriptText` is a row of global replacements, each over what the ones before it left.
-/
namespace Wollipog.Share

open Replace
open Replace.Way

def SECRET : List Char := "<redacted-secret>".toList
def PATH : List Char := "<redacted-path>".toList

def units (text : List Char) : Nat := text.foldl (fun n c => n + Js.width c) 0

def boundedMarker (marker body : List Char) : List Char :=
  if units marker ≤ units body then marker else List.replicate (units body) '*'

def isAsciiLetter (c : Char) : Bool := c.isAlpha
def isTokenChar (c : Char) : Bool := c.isAlphanum || c == '_' || c == '-'
def isSlash (c : Char) : Bool := c == '\\' || c == '/'
def isQuote (c : Char) : Bool := c == '"' || c == '\''
def isBreak (c : Char) : Bool := c == '\r' || c == '\n'

def among (s : String) (c : Char) : Bool := s.toList.contains c

def anyOf (p : Char → Bool) : Way := one p
def noneOf (p : Char → Bool) : Way := one (fun c => !p c)

def spaces : Way := star (one Js.isSpace)
def spaces1 : Way := plus (one Js.isSpace)

/-! ## Credentials -/

/-- `/-----BEGIN ([A-Z0-9 ]*PRIVATE KEY)-----/`, from the label on. -/
def keyLabel : Way := seq (star (one (fun c => c.isUpper || c.isDigit || c == ' '))) (lit "PRIVATE KEY")

/-- The text from the place behind the marker; all of it is passed where the marker does not come. -/
def afterMarker (marker : List Char) : List Char → List Char
  | [] => []
  | c :: cs => if marker.isPrefixOf (c :: cs) then (c :: cs).drop marker.length else afterMarker marker cs

theorem afterMarker_suffix (marker : List Char) : ∀ text, afterMarker marker text <:+ text
  | [] => List.suffix_refl _
  | c :: cs => by
    unfold afterMarker
    split
    · exact List.drop_suffix _ _
    · exact (afterMarker_suffix marker cs).trans (List.suffix_cons c cs)

def skipTo (p : Regex.Pos) (rest : List Char) : Regex.Pos := ((between p (none, rest)).getLast?.or p.1, rest)

theorem reach_skipTo {p : Regex.Pos} {rest : List Char} (h : rest <:+ p.2) : Reach p (skipTo p rest) := by
  obtain ⟨w, hw⟩ := h
  refine ⟨w, hw.symm, ?_⟩
  unfold skipTo between
  rw [← hw, List.length_append, Nat.add_sub_cancel, List.take_left]

def keyBlock : Way where
  ends at_ := (keyLabel.ends at_).flatMap (fun l => ((lit "-----").ends l).map (fun o =>
    skipTo o (afterMarker ("-----END ".toList ++ between at_ l ++ "-----".toList) o.2)))
  reach at_ q h := by
    obtain ⟨l, hl, h⟩ := List.mem_flatMap.1 h
    obtain ⟨o, ho, rfl⟩ := List.mem_map.1 h
    exact ((keyLabel.reach _ _ hl).trans ((lit "-----").reach _ _ ho)).trans (reach_skipTo (afterMarker_suffix _ _))

/-- `redactPrivateKeyBlocks` -/
def privateKeyBlocks : Rule where
  lead := empty
  body := seq (lit "-----BEGIN ") keyBlock
  tail := empty
  moves := Moves.seq_left (moves_lit rfl) _
  marker := boundedMarker SECRET

def header (name name' : String) : Rule where
  lead := seqs [edge, oneOf [litI name, litI name'], spaces, lit ":", spaces]
  body := plus (noneOf isBreak)
  tail := empty
  moves := moves_plus (moves_one _)
  marker := boundedMarker SECRET

def authorization : Rule := header "authorization" "proxy-authorization"

def cookie : Rule := header "cookie" "set-cookie"

def urlUserinfo : Rule where
  lead := seqs [edge, litI "http", opt (litI "s"), lit "://"]
  body := seqs [plus (noneOf (fun c => c == '/' || Js.isSpace c || c == ':' || c == '@')), lit ":",
    plus (noneOf (fun c => c == '/' || Js.isSpace c || c == '@'))]
  tail := lit "@"
  moves := (moves_plus (moves_one _)).seq_left _
  marker := boundedMarker SECRET

def bearer : Rule where
  lead := seqs [edge, litI "bearer", spaces1]
  body := plus (anyOf (fun c => c.isAlphanum || among "._~+/=-" c))
  tail := empty
  moves := moves_plus (moves_one _)
  marker := boundedMarker SECRET

/-- `a[_-]?b` -/
def joint (a b : String) : Way := seqs [litI a, opt (anyOf (among "_-")), litI b]

def assignmentKey : Way :=
  oneOf [litI "token", litI "password", litI "passwd", litI "secret", joint "api" "key", joint "access" "key",
    joint "client" "secret", joint "private" "key"]

def quoted (q : Char) : Way := seqs [one (· == q), star (noneOf (fun c => c == q || isBreak c)), one (· == q)]

def assignment : Rule where
  lead := seqs [opt (lit "--"), opt (anyOf isQuote), assignmentKey, opt (anyOf isQuote), spaces, oneOf [lit "=", lit ":"], spaces]
  body := oneOf [quoted '"', quoted '\'', plus (noneOf (fun c => Js.isSpace c || among ",;\x7d]" c || isBreak c))]
  tail := empty
  moves := ((moves_one _).seq_left _).alt (((moves_one _).seq_left _).alt ((moves_plus (moves_one _)).alt moves_fail))
  marker := boundedMarker SECRET

/-- A token that stands by itself, `\b..\b`. -/
def token (opening : Way) (rest : Way) (h : opening.Moves) : Rule where
  lead := empty
  body := seqs [edge, opening, rest, edge]
  tail := empty
  moves := (h.seq_left _).seq_right _
  marker := boundedMarker SECRET

def githubToken : Rule :=
  token (lit "gh") (seqs [anyOf (among "pousr"), lit "_", atLeast 20 (anyOf Regex.isWord)]) (moves_lit rfl)

def openaiKey : Rule := token (lit "sk-") (seqs [opt (lit "proj-"), atLeast 16 (anyOf isTokenChar)]) (moves_lit rfl)

def slackToken : Rule :=
  token (lit "xox") (seqs [anyOf (among "baprs"), lit "-", atLeast 10 (anyOf (fun c => c.isAlphanum || c == '-'))])
    (moves_lit rfl)

def awsKey : Rule := token (lit "AKIA") (times 16 (anyOf (fun c => c.isUpper || c.isDigit))) (moves_lit rfl)

def jwt : Rule :=
  token (lit "eyJ") (seqs [plus (anyOf isTokenChar), lit ".", plus (anyOf isTokenChar), lit ".", plus (anyOf isTokenChar)])
    (moves_lit rfl)

def secretRules : List Rule :=
  [privateKeyBlocks, authorization, cookie, urlUserinfo, bearer, assignment, githubToken, openaiKey, slackToken, awsKey, jwt]

/-! ## Paths -/

def isPathChar (c : Char) : Bool := !(isBreak c || among "\"'<>|" c)
def isSegmentChar (c : Char) : Bool := !(isSlash c || Js.isSpace c || among "\"'<>" c)

/-- `(^|[\s("'=])` -/
def boundary : Way := alt lineStart (one (fun c => Js.isSpace c || among "(\"'=" c))

def pathRule (body : Way) (h : body.Moves) : Rule where
  lead := boundary
  body := body
  tail := empty
  moves := h
  marker := boundedMarker PATH

/-- `(?:[\\/][^\r\n"'<>|]+)*` -/
def pathRest : Way := star (seq (one isSlash) (plus (one isPathChar)))

def windowsHome : Rule :=
  pathRule (seqs [one isAsciiLetter, lit ":", one isSlash, oneOf [litI "users", litI "documents and settings"], one isSlash,
    plus (one isSegmentChar), pathRest]) ((moves_one _).seq_left _)

def doubleSlash : Way := alt (lit "\\\\") (lit "//")

theorem moves_doubleSlash : doubleSlash.Moves := (moves_lit rfl).alt (moves_lit rfl)

def networkShare : Rule :=
  pathRule (seqs [doubleSlash, plus (one isSegmentChar), one isSlash, plus (one isSegmentChar), pathRest])
    (moves_doubleSlash.seq_left _)

def isUnixSegmentChar (c : Char) : Bool := !(c == '/' || Js.isSpace c || among "\"'<>" c)

def unixHome : Rule :=
  pathRule (seq
    (oneOf [seqs [lit "/", oneOf [litI "home", litI "users"], lit "/", plus (one isUnixSegmentChar)],
      litI "/root",
      seqs [litI "/workspace", opt (litI "s")],
      seqs [litI "/mnt/", one isAsciiLetter, litI "/users/", plus (one isUnixSegmentChar)]])
    (star (seq (lit "/") (plus (one (fun c => !(isBreak c || among "\"'<>" c)))))))
    (Moves.seq_left (((moves_lit rfl).seq_left _).alt ((moves_litI rfl).alt
      (((moves_litI rfl).seq_left _).alt (((moves_litI rfl).seq_left _).alt moves_fail)))) _)

def tildePath : Rule :=
  pathRule (seqs [lit "~", one isSlash, plus (one (fun c => !(Js.isSpace c || among "\"'<>" c)))])
    ((moves_lit rfl).seq_left _)

def pathRules : List Rule := [windowsHome, networkShare, unixHome, tildePath]

def trim (text : List Char) : List Char := ((text.dropWhile Js.isSpace).reverse.dropWhile Js.isSpace).reverse

def withoutTrailingSlashes (text : List Char) : List Char := (text.reverse.dropWhile isSlash).reverse

/-- `test` of an expression that begins with `^`. -/
def startsWith (w : Way) (text : List Char) : Bool := !(w.ends (none, text)).isEmpty

def drive : Way := seqs [one isAsciiLetter, lit ":"]
def isAbsolute (trimmed : List Char) : Bool :=
  startsWith (seqs [drive, one isSlash]) trimmed ||
    startsWith (seqs [doubleSlash, plus (noneOf isSlash), one isSlash, plus (noneOf isSlash)]) trimmed ||
    (trimmed.head? == some '/' && trimmed.tail.head? != some '/')

def isCaseInsensitive (trimmed : List Char) : Bool :=
  startsWith drive trimmed || startsWith (seqs [litI "/mnt/", one isAsciiLetter, lit "/"]) trimmed ||
    startsWith doubleSlash trimmed

section

-- the form in which two characters are compared without case
variable (canonicalize : Char → Char)

def rootChar (insensitive : Bool) (d : Char) : Way :=
  one (fun c => if insensitive then canonicalize c == canonicalize d else c == d)

def configuredPathPattern (root : List Char) : Option Rule :=
  if isAbsolute (withoutTrailingSlashes (trim root)) then
    match (Js.splitAt isSlash (withoutTrailingSlashes (trim root))).filter (fun s => !s.isEmpty) with
    | (c :: cs) :: segments =>
      some
        { lead := empty
          body := seq (if startsWith (one isSlash) (withoutTrailingSlashes (trim root)) then one isSlash else empty)
            (seq (rootChar canonicalize (isCaseInsensitive (withoutTrailingSlashes (trim root))) c)
              (seqs (cs.map (rootChar canonicalize (isCaseInsensitive (withoutTrailingSlashes (trim root)))) ++
                segments.map (fun s => seq (one isSlash)
                  (seqs (s.map (rootChar canonicalize (isCaseInsensitive (withoutTrailingSlashes (trim root))))))) ++
                [star (seq (lit "/") (plus (one isPathChar)))])))
          tail := empty
          moves := ((moves_one _).seq_left _).seq_right _
          marker := boundedMarker PATH }
    | _ => none
  else none

def rootRules (sensitivePathPrefixes : List (List Char)) : List Rule :=
  (sensitivePathPrefixes.insertionSort (fun a b => units b ≤ units a)).filterMap (configuredPathPattern canonicalize)

def redactionRules (sensitivePathPrefixes : List (List Char)) : List Rule :=
  secretRules ++ rootRules canonicalize sensitivePathPrefixes ++ pathRules

def redactOperationalTranscriptText (input : List Char) (sensitivePathPrefixes : List (List Char)) : List Char :=
  (redactionRules canonicalize sensitivePathPrefixes).foldl (fun text r => r.replaceAll text) input

end

end Wollipog.Share
