import Wollipog.Lib.Js
/-!
# Regex — the regular expressions the source tests texts with

Expressions over character classes, run by listing every way to match from a position, which knows the character
before it.
-/

inductive Regex
  | empty
  | cls (p : Char → Bool)
  | seq (a b : Regex)
  | alt (a b : Regex)
  /-- Any number of characters of a class. -/
  | many (p : Char → Bool)
  | start
  | stop
  /-- `\b` -/
  | edge

namespace Regex

abbrev Pos := Option Char × List Char

def isWord (c : Char) : Bool := c.isAlphanum || c == '_'

def runs (p : Char → Bool) : Option Char → List Char → List Pos
  | prev, [] => [(prev, [])]
  | prev, c :: cs => (prev, c :: cs) :: if p c then runs p (some c) cs else []

/-- Every position at which a match from `at_` ends. -/
def ends : Regex → Pos → List Pos
  | .empty, at_ => [at_]
  | .cls p, (_, c :: cs) => if p c then [(some c, cs)] else []
  | .cls _, (_, []) => []
  | .seq a b, at_ => (a.ends at_).flatMap b.ends
  | .alt a b, at_ => a.ends at_ ++ b.ends at_
  | .many p, (prev, cs) => runs p prev cs
  | .start, at_ => if at_.1.isNone then [at_] else []
  | .stop, at_ => if at_.2.isEmpty then [at_] else []
  | .edge, at_ => if at_.1.any isWord != at_.2.head?.any isWord then [at_] else []

def search (r : Regex) : Option Char → List Char → Bool
  | prev, [] => !(r.ends (prev, [])).isEmpty
  | prev, c :: cs => !(r.ends (prev, c :: cs)).isEmpty || r.search (some c) cs

/-- `test`: a match somewhere in the text. -/
def test (r : Regex) (s : String) : Bool := r.search none s.toList

def fold (c : Char) : Char :=
  if c = '\u017F' then 's' else if c = '\u212A' then 'k' else c.toLower

/-- `test` with the flag `i`. -/
def testI (r : Regex) (s : String) : Bool := r.search none (s.toList.map fold)

def lit (s : String) : Regex := s.toList.foldr (fun c r => .seq (.cls (· == c)) r) .empty

def seqs (l : List Regex) : Regex := l.foldr .seq .empty

def oneOf (l : List Regex) : Regex := l.foldr .alt (.cls (fun _ => false))

def lits (l : List String) : Regex := oneOf (l.map lit)

def opt (r : Regex) : Regex := .alt r .empty

def times : Nat → Regex → Regex
  | 0, _ => .empty
  | n + 1, r => .seq r (times n r)

def upTo : Nat → Regex → Regex
  | 0, _ => .empty
  | n + 1, r => .alt .empty (.seq r (upTo n r))

/-- At least `n` characters of a class. -/
def atLeast (n : Nat) (p : Char → Bool) : Regex := .seq (times n (.cls p)) (.many p)

def anyOf (s : String) (c : Char) : Bool := s.toList.contains c

def whole (r : Regex) : Regex := seqs [.start, r, .stop]

example : (whole (seqs [lit "a", .many (anyOf "bc"), opt (lit "d")])).test "abcbd" = true := by decide
example : (seqs [.edge, lit "sk-", atLeast 2 Char.isDigit, .edge]).testI "key SK-12." = true := by decide

end Regex
