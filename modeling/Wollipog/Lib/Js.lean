/-!
# Js — the string functions of the source language that its checks use

A text is a `String`; its length is counted in UTF-16 code units, as the language counts it.
-/
namespace Js

def width (c : Char) : Nat := if c.val < 0x10000 then 1 else 2

def utf16Length (s : String) : Nat := s.toList.foldl (fun n c => n + width c) 0

/-- The class of the control-character tests, `\x00-\x1f` and `\x7f`. -/
def isControl (c : Char) : Bool := decide (c.val ≤ 0x1f) || c.val == 0x7f

def hasControl (s : String) : Bool := s.toList.any isControl

/-- A nonempty text of at most `max` code units without control characters. -/
def boundedId (max : Nat) (s : String) : Bool := decide (0 < utf16Length s) && decide (utf16Length s ≤ max) && !hasControl s

/-- The white space of `trim` and `\s`. -/
def isSpace (c : Char) : Bool :=
  (0x09 ≤ c.val && c.val ≤ 0x0d) || c.val == 0x20 || c.val == 0xa0 || c.val == 0x1680 ||
    (0x2000 ≤ c.val && c.val ≤ 0x200a) || c.val == 0x2028 || c.val == 0x2029 || c.val == 0x202f || c.val == 0x205f ||
    c.val == 0x3000 || c.val == 0xfeff

/-- A text that `trim` leaves nonempty, of at most `max` code units and without control characters. -/
def boundedText (max : Nat) (s : String) : Bool :=
  s.toList.any (fun c => !isSpace c) && decide (utf16Length s ≤ max) && !hasControl s

/-- `trim` -/
def trim (s : String) : String := String.ofList ((s.toList.dropWhile isSpace).reverse.dropWhile isSpace).reverse

/-- `toLowerCase`, as far as it yields letters of ASCII. -/
def lower (s : String) : String := String.ofList (s.toList.map (fun c => if c = '\u212A' then 'k' else c.toLower))

/-- `split` at the characters of a class. -/
def splitAt (p : Char → Bool) : List Char → List (List Char)
  | [] => [[]]
  | c :: cs =>
    if p c then [] :: splitAt p cs
    else match splitAt p cs with
      | [] => [[c]]
      | w :: ws => (c :: w) :: ws

/-- The words between white space, as `trim().split(/\s+/)` gives them for a text that has any. -/
def words (s : String) : List String := ((splitAt isSpace s.toList).filter (fun w => !w.isEmpty)).map String.ofList

def maxSafeInteger : Int := 9007199254740991

def isSafeInteger (n : Int) : Bool := decide (-maxSafeInteger ≤ n) && decide (n ≤ maxSafeInteger)

/-- The first characters of a text that together take at most `n` code units. -/
def takeUnits : Nat → List Char → List Char
  | _, [] => []
  | n, c :: cs =>
    if width c ≤ n then c :: takeUnits (n - width c) cs else []

/-- `slice(0, n)`, up to a surrogate pair cut in two. -/
def slice (n : Nat) (s : String) : String := String.ofList (takeUnits n s.toList)

def isLowerHex (c : Char) : Bool := c.isDigit || (decide ('a' ≤ c) && decide (c ≤ 'f'))

/-- `/^[a-f0-9]{64}$/`. -/
def isSha256Hex (s : String) : Bool := decide (s.toList.length = 64) && s.toList.all isLowerHex

def hexDigit (n : Nat) : Char := if n < 10 then Char.ofNat (48 + n) else Char.ofNat (87 + n)

def quoteChar (c : Char) : List Char :=
  if c = '"' then ['\\', '"']
  else if c = '\\' then ['\\', '\\']
  else if c.val = 0x08 then ['\\', 'b']
  else if c.val = 0x0c then ['\\', 'f']
  else if c = '\n' then ['\\', 'n']
  else if c = '\r' then ['\\', 'r']
  else if c = '\t' then ['\\', 't']
  else if c.val < 0x20 then ['\\', 'u', '0', '0', hexDigit (c.toNat / 16), hexDigit (c.toNat % 16)]
  else [c]

def quote (s : String) : String := String.ofList ('"' :: s.toList.flatMap quoteChar ++ ['"'])

def quoteObject (members : List (String × String)) : String :=
  "\x7b" ++ ",".intercalate (members.map (fun m => quote m.1 ++ ":" ++ quote m.2)) ++ "\x7d"

end Js
