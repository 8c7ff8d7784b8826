import Wollipog.Lib.JsonText
/-!
# Json — values, their text, and reading it

`encode` writes a value with the members arranged in some order; `parse` reads any JSON text; `toDouble` is the number
a decimal stands for.
-/
namespace Json

inductive Value
  | null
  | bool (b : Bool)
  | number (n : Number)
  | string (s : Text)
  | array (l : List Value)
  | object (members : List (Text × Option Value))

def commas : List Text → Text
  | [] => []
  | [t] => t
  | t :: u :: ts => t ++ 44 :: commas (u :: ts)

def memberText (m : Text × Text) : Text := quote m.1 ++ 58 :: m.2

mutual

/-- The compact text of a value, `arrange` ordering the members of an object. -/
def encode (arrange : List (Text × Text) → List (Text × Text)) : Value → Text
  | .null => [110, 117, 108, 108]
  | .bool true => [116, 114, 117, 101]
  | .bool false => [102, 97, 108, 115, 101]
  | .number n => n.text
  | .string s => quote s
  | .array l => 91 :: commas (encodeElements arrange l) ++ [93]
  | .object m => 123 :: commas ((arrange (encodeMembers arrange m)).map memberText) ++ [125]

def encodeElements (arrange : List (Text × Text) → List (Text × Text)) : List Value → List Text
  | [] => []
  | v :: vs => encode arrange v :: encodeElements arrange vs

def encodeMembers (arrange : List (Text × Text) → List (Text × Text)) : List (Text × Option Value) → List (Text × Text)
  | [] => []
  | (_, none) :: ms => encodeMembers arrange ms
  | (k, some v) :: ms => (k, encode arrange v) :: encodeMembers arrange ms

end

/-- `JSON.stringify` -/
def stringify : Value → Text := encode id

def byKey {α : Type} (l : List (Text × α)) : List (Text × α) := l.insertionSort (fun a b => a.1 ≤ b.1)

/-! ## Reading -/

def isSpace (c : CodeUnit) : Bool := c == 32 || c == 9 || c == 10 || c == 13

def skipSpace (s : Text) : Text := s.dropWhile isSpace

def expect (word : Text) (s : Text) : Option Text := if word.isPrefixOf s then some (s.drop word.length) else none

def assign (m : List (Text × Option Value)) (k : Text) (v : Value) : List (Text × Option Value) :=
  if m.any (fun e => e.1 == k) then m.map (fun e => if e.1 = k then (k, some v) else e) else m ++ [(k, some v)]

def assignAll (l : List (Text × Value)) : List (Text × Option Value) := l.foldl (fun m e => assign m e.1 e.2) []

mutual

def readValue (toDouble : Number → Number) : Nat → Text → Option (Value × Text)
  | 0, _ => none
  | n + 1, s =>
    match skipSpace s with
    | [] => none
    | c :: r =>
      if c = 110 then (expect [117, 108, 108] r).map (fun t => (.null, t))
      else if c = 116 then (expect [114, 117, 101] r).map (fun t => (.bool true, t))
      else if c = 102 then (expect [97, 108, 115, 101] r).map (fun t => (.bool false, t))
      else if c = 34 then (readString r).map (fun p => (.string p.1, p.2))
      else if c = 91 then
        if (skipSpace r).head? = some 93 then some (.array [], (skipSpace r).drop 1)
        else (readElements toDouble n r).map (fun p => (.array p.1, p.2))
      else if c = 123 then
        if (skipSpace r).head? = some 125 then some (.object [], (skipSpace r).drop 1)
        else (readMembers toDouble n r).map (fun p => (.object (assignAll p.1), p.2))
      else (readNumber (c :: r)).map (fun p => (.number (toDouble p.1), p.2))

def readElements (toDouble : Number → Number) : Nat → Text → Option (List Value × Text)
  | 0, _ => none
  | n + 1, s => (readValue toDouble n s).bind (fun p =>
      match skipSpace p.2 with
      | [] => none
      | c :: r =>
        if c = 44 then (readElements toDouble n r).map (fun q => (p.1 :: q.1, q.2))
        else if c = 93 then some ([p.1], r) else none)

def readMembers (toDouble : Number → Number) : Nat → Text → Option (List (Text × Value) × Text)
  | 0, _ => none
  | n + 1, s =>
    match skipSpace s with
    | [] => none
    | c :: r =>
      if c = 34 then (readString r).bind (fun k =>
        (expect [58] (skipSpace k.2)).bind (fun t => (readValue toDouble n t).bind (fun p =>
          match skipSpace p.2 with
          | [] => none
          | c :: r =>
            if c = 44 then (readMembers toDouble n r).map (fun q => ((k.1, p.1) :: q.1, q.2))
            else if c = 125 then some ([(k.1, p.1)], r) else none)))
      else none

end

/-- `JSON.parse`; the fuel covers any text. -/
def parse (toDouble : Number → Number) (s : Text) : Option Value :=
  (readValue toDouble (2 * s.length + 1) s).bind (fun p => if skipSpace p.2 = [] then some p.1 else none)

mutual

def Value.Wf (toDouble : Number → Number) : Value → Prop
  | .number n => toDouble n = n
  | .array l => WfElements toDouble l
  | .object m => (m.map Prod.fst).Nodup ∧ WfMembers toDouble m
  | _ => True

def WfElements (toDouble : Number → Number) : List Value → Prop
  | [] => True
  | v :: vs => v.Wf toDouble ∧ WfElements toDouble vs

def WfMembers (toDouble : Number → Number) : List (Text × Option Value) → Prop
  | [] => True
  | (_, none) :: ms => WfMembers toDouble ms
  | (_, some v) :: ms => v.Wf toDouble ∧ WfMembers toDouble ms

end

mutual

/-- A value without its undefined members, `arrange` ordering what is left. -/
def arranged (arrange : List (Text × Option Value) → List (Text × Option Value)) : Value → Value
  | .array l => .array (arrangedElements arrange l)
  | .object m => .object (arrange (arrangedMembers arrange m))
  | v => v

def arrangedElements (arrange : List (Text × Option Value) → List (Text × Option Value)) : List Value → List Value
  | [] => []
  | v :: vs => arranged arrange v :: arrangedElements arrange vs

def arrangedMembers (arrange : List (Text × Option Value) → List (Text × Option Value)) :
    List (Text × Option Value) → List (Text × Option Value)
  | [] => []
  | (_, none) :: ms => arrangedMembers arrange ms
  | (k, some v) :: ms => (k, some (arranged arrange v)) :: arrangedMembers arrange ms

end

end Json
