import Wollipog.Lib.Json
/-!
# Contract — what makes a review report valid

The schema of a report, and the rules beyond it: the pinned head, findings in repository files, a vote that fits its blocking
findings, and every changed file of the scope classified once.
-/
namespace Wollipog.Reviews

open Json

def lit (s : String) : Text := s.toList.map (fun c => Fin.ofNat 65536 c.toNat)

def natText (n : ℕ) : Text := if n = 0 then lit "0" else digitUnits (natDigits n)

def member (members : List (Text × Option Value)) (key : Text) : Option Value :=
  (members.find? (fun e => e.1 == key && e.2.isSome)).bind Prod.snd

/-- `JSON.stringify` of a list of texts. -/
def listText (l : List Text) : Text := stringify (.array (l.map .string))

def sorted (l : List Text) : List Text := l.insertionSort (· ≤ ·)

/-! ## Schemas -/

inductive TypeName
  | object | array | string | integer | boolean | null
  deriving DecidableEq

def TypeName.text : TypeName → Text
  | .object => lit "object"
  | .array => lit "array"
  | .string => lit "string"
  | .integer => lit "integer"
  | .boolean => lit "boolean"
  | .null => lit "null"

def isInteger : Number → Bool
  | .zero => true
  | .signed _ d => decide ((d.digits.length : Int) ≤ d.point)

def hasType (value : Value) (name : TypeName) : Bool :=
  match value, name with
  | .object _, .object => true
  | .array _, .array => true
  | .string _, .string => true
  | .number n, .integer => isInteger n
  | .bool _, .boolean => true
  | .null, .null => true
  | _, _ => false

/-- An option of an `enum`. -/
inductive Choice
  | text (s : Text)
  | number (n : Number)
  deriving DecidableEq

def Choice.value : Choice → Value
  | .text s => .string s
  | .number n => .number n

/-- `option === value` -/
def Choice.same (option : Choice) (value : Value) : Bool :=
  match option, value with
  | .text s, .string t => s == t
  | .number n, .number m => n == m
  | _, _ => false

/-- The subset of JSON Schema that the report uses: every object lists its members. -/
inductive Schema
  | scalar (types : List TypeName) (choices : List Choice)
  | array (items : Schema)
  | object (properties : List (Text × Schema)) (required : List Text)

def Schema.types : Schema → List TypeName
  | .scalar types _ => types
  | .array _ => [.array]
  | .object _ _ => [.object]

def orText : List Text → Text
  | [] => []
  | [t] => t
  | t :: ts => t ++ lit " or " ++ orText ts

def typeErrors (value : Value) (schema : Schema) (place : Text) : List Text :=
  if schema.types.any (hasType value) then [] else [place ++ lit " must be " ++ orText (schema.types.map TypeName.text)]

def itemErrors (check : Value → Text → List Text) (place : Text) : ℕ → List Value → List Text
  | _, [] => []
  | index, item :: rest => check item (place ++ lit "[" ++ natText index ++ lit "]") ++ itemErrors check place (index + 1) rest

mutual

def reviewSchemaErrors : Schema → Value → Text → List Text
  | .scalar types choices, value, place =>
    if !types.any (hasType value) then typeErrors value (.scalar types choices) place
    else if !choices.isEmpty && !choices.any (fun option => option.same value) then
      [place ++ lit " must be one of " ++ stringify (.array (choices.map Choice.value))]
    else []
  | .array items, value, place =>
    match value with
    | .array l => itemErrors (reviewSchemaErrors items) place 0 l
    | _ => typeErrors value (.array items) place
  | .object properties required, value, place =>
    match value with
    | .object members =>
      let missing := required.filter (fun key => (member members key).isNone)
      let unexpected := sorted ((members.filter (fun e => e.2.isSome && !properties.any (fun p => p.1 == e.1))).map Prod.fst)
      (if missing.isEmpty then [] else [place ++ lit " is missing " ++ listText missing]) ++
        (if unexpected.isEmpty then [] else [place ++ lit " has unexpected " ++ listText unexpected]) ++
        propertyErrors properties members place
    | _ => typeErrors value (.object properties required) place

def propertyErrors : List (Text × Schema) → List (Text × Option Value) → Text → List Text
  | [], _, _ => []
  | (key, child) :: rest, members, place =>
    (match member members key with
      | some v => reviewSchemaErrors child v (place ++ lit "." ++ key)
      | none => []) ++ propertyErrors rest members place

end

def textSchema : Schema := .scalar [.string] []

def textsSchema : Schema := .array textSchema

theorem two_digit : 2 < 10 := by decide

theorem two_nonempty : ([⟨2, two_digit⟩] : List (Fin 10)) ≠ [] := List.cons_ne_nil _ _

theorem two_head : ([⟨2, two_digit⟩] : List (Fin 10)).head? ≠ some 0 := by decide

theorem two_last : ([⟨2, two_digit⟩] : List (Fin 10)).getLast? ≠ some 0 := by decide

def two : Number := .signed false ⟨[⟨2, two_digit⟩], 1, two_nonempty, two_head, two_last⟩

def REVIEW_OUTPUT_SCHEMA : Schema :=
  let finding : Schema := .object
    [(lit "severity", .scalar [.string] [.text (lit "critical"), .text (lit "high"), .text (lit "medium"), .text (lit "low")]),
      (lit "blocking", .scalar [.boolean] []), (lit "file", textSchema), (lit "line", .scalar [.integer, .null] []),
      (lit "title", textSchema), (lit "scenario", textSchema), (lit "evidence", textSchema), (lit "verify", textSchema)]
    [lit "severity", lit "blocking", lit "file", lit "line", lit "title", lit "scenario", lit "evidence", lit "verify"]
  .object
    [(lit "schema_version", .scalar [.integer] [.number two]), (lit "reviewed_head", textSchema),
      (lit "vote", .scalar [.string] [.text (lit "UPVOTE"), .text (lit "DOWNVOTE")]), (lit "summary", textSchema),
      (lit "findings", .array finding), (lit "examined_changed_files", textsSchema),
      (lit "not_examined_changed_files", .array (.object [(lit "path", textSchema), (lit "reason", textSchema)] [lit "path", lit "reason"])),
      (lit "context_files_examined", textsSchema), (lit "commands_run", textsSchema),
      (lit "verification_requests", .array (.object [(lit "command", textSchema), (lit "claim", textSchema)] [lit "command", lit "claim"]))]
    [lit "schema_version", lit "reviewed_head", lit "vote", lit "summary", lit "findings", lit "examined_changed_files",
      lit "not_examined_changed_files", lit "context_files_examined", lit "commands_run", lit "verification_requests"]

def memberOf (value : Value) (key : String) : Value :=
  match value with
  | .object members => (member members (lit key)).getD .null
  | _ => .null

def Value.text : Value → Text
  | .string s => s
  | _ => []

def Value.items : Value → List Value
  | .array l => l
  | _ => []

/-- White space as `trim` removes it. -/
def isTrimmed (c : CodeUnit) : Bool :=
  (decide (9 ≤ c.val) && decide (c.val ≤ 13)) || (decide (0x2000 ≤ c.val) && decide (c.val ≤ 0x200a)) ||
    [32, 160, 0x1680, 0x2028, 0x2029, 0x202f, 0x205f, 0x3000, 0xfeff].contains c.val

def blank (value : Value) : Bool := (Value.text value).all isTrimmed

/-- Not empty, not absolute, no `./` in front and no `..` part. -/
def canonicalReviewPath (path : Text) : Bool :=
  !path.isEmpty && !(lit "/").isPrefixOf path && !(lit "./").isPrefixOf path && !(path.splitOn 47).any (fun part => part == lit "..")

structure ReviewReportContext where
  headSha : Text
  scopeFiles : List Text
  contextFiles : List Text
  isTracked : Option (Text → Bool)

section Rules

variable (context : ReviewReportContext)

def known (path : Text) : Bool :=
  context.scopeFiles.contains path || context.contextFiles.contains path || context.isTracked.all (fun tracked => tracked path)

def findingErrors (index : ℕ) (finding : Value) : List Text :=
  let place := lit "findings[" ++ natText index ++ lit "]"
  (if [lit "critical", lit "high", lit "medium", lit "low"].contains (Value.text (memberOf finding "severity")) then []
    else [place ++ lit ".severity is not a severity"]) ++
  (match memberOf finding "line" with
    | .number (.signed false d) => if isInteger (.signed false d) then [] else [place ++ lit ".line must be null or at least 1"]
    | .number _ => [place ++ lit ".line must be null or at least 1"]
    | _ => []) ++
  (["file", "title", "scenario", "evidence", "verify"].filter (fun key => blank (memberOf finding key))).map
    (fun key => place ++ lit "." ++ lit key ++ lit " is blank") ++
  (if !blank (memberOf finding "file") && !(canonicalReviewPath (Value.text (memberOf finding "file")) &&
      known context (Value.text (memberOf finding "file"))) then [place ++ lit ".file is not a repository path"] else [])

def isBlocking (finding : Value) : Bool :=
  match memberOf finding "blocking" with
  | .bool b => b
  | _ => false

def indexed (errors : ℕ → Value → List Text) (l : List Value) : List Text := (l.zipIdx.map (fun e => errors e.2 e.1)).flatten

/-- `validateReviewReport`: every reason the report breaks the contract. -/
def validateReviewReport (report : Value) : List Text :=
  if !hasType report .object then [lit "the final report is not a JSON object"]
  else if !(reviewSchemaErrors REVIEW_OUTPUT_SCHEMA report (lit "report")).isEmpty then
    (reviewSchemaErrors REVIEW_OUTPUT_SCHEMA report (lit "report")).take 8
  else
    let findings := Value.items (memberOf report "findings")
    let blocking := (findings.filter isBlocking).length
    let vote := Value.text (memberOf report "vote")
    let examined := (Value.items (memberOf report "examined_changed_files")).map Value.text
    let omitted := (Value.items (memberOf report "not_examined_changed_files")).map (fun item => Value.text (memberOf item "path"))
    let classified := examined ++ omitted
    let missing := sorted (context.scopeFiles.dedup.filter (fun path => !classified.contains path))
    let extra := sorted (classified.dedup.filter (fun path => !context.scopeFiles.contains path))
    let outside := ((Value.items (memberOf report "context_files_examined")).map Value.text).filter
      (fun path => !canonicalReviewPath path || !known context path)
    (if (Choice.number two).same (memberOf report "schema_version") then [] else [lit "unsupported report schema_version"]) ++
    (if Value.text (memberOf report "reviewed_head") = context.headSha then []
      else [lit "reviewed_head does not identify the pinned head"]) ++
    indexed (findingErrors context) findings ++
    (if vote = lit "DOWNVOTE" ∧ blocking = 0 then [lit "a downvote requires at least one blocking finding"] else []) ++
    (if vote = lit "UPVOTE" ∧ 0 < blocking then [lit "an upvote cannot carry blocking findings"] else []) ++
    indexed (fun index item => if blank (memberOf item "reason") then
      [lit "not_examined_changed_files[" ++ natText index ++ lit "].reason is blank"] else [])
      (Value.items (memberOf report "not_examined_changed_files")) ++
    (if classified.Nodup then [] else [lit "changed-file coverage contains duplicates or overlap"]) ++
    (if missing.isEmpty && extra.isEmpty then []
      else [lit "changed-file coverage mismatch; missing=" ++ listText missing ++ lit ", extra=" ++ listText extra]) ++
    (if findings.isEmpty && examined.isEmpty && !context.scopeFiles.isEmpty then
      [lit "a review with no findings must examine at least one changed file"] else []) ++
    (if outside.isEmpty then [] else [lit "context_files_examined has non-repository paths: " ++ listText (outside.take 5)]) ++
    indexed (fun index item => if blank (memberOf item "command") || blank (memberOf item "claim") then
      [lit "verification_requests[" ++ natText index ++ lit "] needs a command and a claim"] else [])
      (Value.items (memberOf report "verification_requests"))

end Rules

end Wollipog.Reviews
