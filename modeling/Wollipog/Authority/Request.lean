import Wollipog.Authority.Boundary
/-!
# Request — a pending approval, what it touches and what its text names

The request an agent raised, the files its operation resolves to, and the deterministic floor over its text. The
letters and digits of Unicode are the parameter `letterOrNumber`.
-/
namespace Wollipog
namespace Authority

inductive ApprovalKind
  | permission | authentication | costBudget | costCheckpoint | costUnpriced | dailyBudget | maxToolCalls | policyHook
  | workflowDecision | question
deriving DecidableEq, Repr

structure FilesystemTarget where
  path : String
  resolvedPath : String
  credentialStore : Bool := false
deriving DecidableEq

structure Containment where
  root : String
  sessionRoot : String
deriving DecidableEq

structure Filesystem where
  cwd : Option String
  targets : List FilesystemTarget
  containment : Option Containment
deriving DecidableEq

inductive OperationKind
  | command (input : String) (cwd : Option String)
  | file (path : String)
  | permissionGrant
deriving DecidableEq

structure Operation where
  kind : OperationKind
  filesystem : Option Filesystem
deriving DecidableEq

structure ApprovalContext where
  providerPermissionExpansion : Bool := false
  operation : Option Operation := none
  toolName : Option String := none
  input : Option String := none
  path : Option String := none
  network : Option String := none
  branch : Option String := none
  escalatedBy : Option String := none
deriving DecidableEq

structure PermissionOption where
  optionId : String
  name : String
  description : Option String := none
  kind : Option String := none
deriving DecidableEq

structure AgentQuestion where
  context : Option String := none
  id : String
  header : Option String := none
  question : String
  /-- Labels and descriptions. -/
  options : List (String × Option String)
  secret : Bool := false
  inputFormat : Option String := none
deriving DecidableEq

inductive ScreenState | ask | discusses | review | pending
deriving DecidableEq, Repr

structure CredentialScreenFact where
  state : ScreenState
  occurrenceId : Option String := none
  verdict : Option String := none
  failureClass : Option String := none
  classifiedByOwner : Bool := false
deriving DecidableEq

structure PendingApproval where
  title : String
  options : List PermissionOption
  kind : Option ApprovalKind := none
  questions : Option (List AgentQuestion) := none
  context : Option ApprovalContext := none
  governancePolicyId : Option String := none
  runnerGuardrail : Bool := false
  credentialScreen : Option CredentialScreenFact := none
  standingAdmissionFailure : Bool := false
deriving DecidableEq

def truthy (s : Option String) : Bool := s.any (fun t => !t.isEmpty)

def PendingApproval.operation (r : PendingApproval) : Option Operation := r.context.bind ApprovalContext.operation

def PendingApproval.toolName (r : PendingApproval) : Option String := r.context.bind ApprovalContext.toolName

/-! ## Paths -/

def isSlash (c : Char) : Bool := c == '/' || c == '\\'

/-- The characters of a path with forward slashes and without the slashes at its end. -/
def normalizeChars (s : String) : List Char :=
  ((s.toList.map (fun c => if c = '\\' then '/' else c)).reverse.dropWhile (· == '/')).reverse

def normalize (s : String) : String := String.ofList (normalizeChars s)

def absolute (s : String) : Bool :=
  match s.toList with
  | '/' :: _ => true
  | c :: ':' :: d :: _ => (Regex.fold c).isLower && isSlash d
  | _ => false

/-- `jump/..` resolves after the symlink before it. -/
def parentSegment (s : String) : Bool := (Js.splitAt isSlash s.toList).contains "..".toList

structure Selectors where
  cwd : Option String
  paths : List String
deriving DecidableEq

def shellMeta (c : Char) : Bool := Regex.anyOf "\n\r$`;&|<>()[]\x7b\x7d'\"\\*?~#!" c

def campaignCodeOperationTargets (toolName : Option String) (operation : Option Operation) : Option Selectors :=
  match operation with
  | none => none
  | some o =>
    let tool := toolName.getD ""
    if ["Read", "Edit", "Write", "MultiEdit", "applyPatch", "fileChange"].contains tool then
      match o.kind with
      | .file path => if Js.utf16Length path ≤ 1024 then some ⟨none, [path]⟩ else none
      | _ => none
    else if ["Bash", "commandExecution"].contains tool then
      match o.kind with
      | .command command cwd =>
        if command.isEmpty || 2000 < Js.utf16Length command || command.toList.any shellMeta then none
        else
          let words := Js.words command
          if 32 < words.length then none
          else
            match words with
            | "cat" :: p :: ps => some ⟨cwd, p :: ps⟩
            | _ => none
      | _ => none
    else none

/-- The resolved path of one target, when the evidence names the selector's path and an absolute one. -/
def resolvedTarget (path : String) (t : FilesystemTarget) : Option String :=
  if t.path = path && absolute t.resolvedPath then some t.resolvedPath else none

def zipResolved : List String → List FilesystemTarget → Option (List String)
  | [], [] => some []
  | p :: ps, t :: ts =>
    match resolvedTarget p t, zipResolved ps ts with
    | some r, some rs => some (r :: rs)
    | _, _ => none
  | _, _ => none

def campaignResolvedOperationTargets (request : PendingApproval) : Option (List String) :=
  match campaignCodeOperationTargets request.toolName request.operation, request.operation.bind Operation.filesystem with
  | some selectors, some evidence =>
    if selectors.paths.isEmpty then none
    else if selectors.paths.any parentSegment || selectors.cwd.any parentSegment then none
    else if selectors.paths.any (fun p => !absolute p) &&
        !(truthy selectors.cwd && truthy evidence.cwd && selectors.cwd.map normalize == evidence.cwd.map normalize) then
      none
    else zipResolved selectors.paths evidence.targets
  | _, _ => none

/-- `/(?:^|\/)\.\.(?:\/|$)/` -/
def hasDotDot (chars : List Char) : Bool := (Js.splitAt (· == '/') chars).contains "..".toList

def inside (root : List Char) (path : String) : Bool :=
  let value := normalizeChars path
  !value.isEmpty && (value == root || (root ++ ['/']).isPrefixOf value) && !hasDotDot value

def campaignContainedOperation (request : PendingApproval) (repositoryRoot : Option String) : Bool :=
  match campaignResolvedOperationTargets request, request.operation.bind Operation.filesystem with
  | some resolved, some evidence =>
    match evidence.containment, repositoryRoot with
    | some containment, some repositoryRoot =>
      !repositoryRoot.isEmpty && normalize containment.sessionRoot == normalize repositoryRoot &&
        resolved.all (inside (normalizeChars containment.root)) &&
        evidence.cwd.all (inside (normalizeChars containment.root))
    | _, _ => false
  | _, _ => false

/-- `/[\x00-\x20$BACKTICK;&|<>()[\]{}~*?]/` -/
def codeMeta (c : Char) : Bool := decide (c.val ≤ 0x20) || Regex.anyOf "$`;&|<>()[]\x7b\x7d~*?" c

/-- `/(?:^|\/)(?:\.env[^/]*|\.ssh|\.aws|\.codex|\.claude|credentials|id_rsa|id_ed25519)(?:\/|$)/i` -/
def codeSecretPath : Regex :=
  .seqs [.alt .start (.lit "/"),
    .alt (.seq (.lit ".env") (.many (fun c => c != '/')))
      (.lits [".ssh", ".aws", ".codex", ".claude", "credentials", "id_rsa", "id_ed25519"]),
    .alt (.lit "/") .stop]

/-- `/\.(?:tsx?|jsx?|mjs|cjs|rs|py|go|java|kt|swift|c|cpp|h|cs|rb|md|html|css)$/i` -/
def codeExtension : Regex :=
  .seqs [.lit ".",
    .lits ["ts", "tsx", "js", "jsx", "mjs", "cjs", "rs", "py", "go", "java", "kt", "swift", "c", "cpp", "h", "cs", "rb",
      "md", "html", "css"], .stop]

def codePath (root : Option (List Char)) (value : String) : Bool :=
  let path := value.toList.map (fun c => if c = '\\' then '/' else c)
  let text := String.ofList path
  root.any (fun r => !r.isEmpty && (r ++ ['/']).isPrefixOf path) && !hasDotDot path && !path.any codeMeta &&
    !codeSecretPath.testI text && codeExtension.testI text

def zipCode (root : Option (List Char)) (lexical : String → String) : List String → List FilesystemTarget → Bool
  | [], [] => true
  | p :: ps, t :: ts =>
    t.path == p && codePath root (lexical p) && codePath root t.resolvedPath && zipCode root lexical ps ts
  | _, _ => false

def repositoryCodeToolIntent (request : PendingApproval) (repositoryRoot : Option String) : Bool :=
  let root := repositoryRoot.map normalizeChars
  match campaignCodeOperationTargets request.toolName request.operation, request.operation.bind Operation.filesystem with
  | some selectors, some evidence =>
    let atRoot := truthy selectors.cwd && root.any (fun r => !r.isEmpty) && selectors.cwd.map normalizeChars == root &&
      evidence.cwd.map normalizeChars == root
    if selectors.paths.isEmpty then atRoot && evidence.targets.isEmpty
    else
      zipCode root
        (fun p => if absolute p then p else if atRoot then selectors.cwd.getD "" ++ "/" ++ p else "")
        selectors.paths evidence.targets
  | _, _ => false

/-! ## Text -/

def isTailChar (c : Char) : Bool := !(isSlash c || Js.isSpace c || c == '"' || c == '\'')

def pathSep : Regex := .cls isSlash

def protectedPath : Regex :=
  .seqs [.alt .start (.cls (fun c => isSlash c || Js.isSpace c || Regex.anyOf "\"'=:" c)),
    .oneOf [.seq (.lit ".env") (.many isTailChar),
      .lits [".ssh", ".aws", ".azure", ".codex", ".claude", ".netrc", ".npmrc", ".pypirc", ".pgpass",
        ".git-credentials", ".docker", ".kube", ".gnupg", ".password-store"],
      .seqs [.lit ".config", pathSep,
        .oneOf [.lits ["gh", "hub", "gcloud", "op", "github-copilot"],
          .seqs [.lit "containers", pathSep, .lit "auth.json"]]],
      .seqs [.lit ".terraform.d", pathSep, .lit "credentials", .many isTailChar],
      .seqs [.lit ".local", pathSep, .lit "share", pathSep, .lit "keyrings"],
      .seqs [.lit "library", pathSep, .lit "keychains"],
      .lits ["credentials", "id_rsa", "id_ed25519", "id_ecdsa", "id_dsa", "auth.json", ".credentials.json",
        ".claude.json"]],
    .alt (.cls (fun c => !isTailChar c)) .stop]

def isTokenChar (c : Char) : Bool := c.isAlphanum || c == '_' || c == '-'

def credentialLiteral : Regex :=
  .alt
    (.seqs [.edge,
      .oneOf [.seq (.lit "sk-") (.atLeast 12 isTokenChar),
        .seqs [.lit "gh", .cls (Regex.anyOf "pousr"), .lit "_", .atLeast 12 Char.isAlphanum],
        .seq (.lit "github_pat_") (.atLeast 20 Regex.isWord),
        .seq (.lit "glpat-") (.atLeast 16 isTokenChar),
        .seqs [.lit "xox", .cls (Regex.anyOf "abposr"), .lit "-",
          .atLeast 10 (fun c => c.isAlphanum || c == '-')],
        .seq (.lit "akia") (.times 16 (.cls Char.isAlphanum))],
      .edge])
    (.seqs [.lit "-----begin ", .many (fun c => c.isAlpha || c == ' '), .lit "private key-----"])

def withoutQuoting (text : String) : String :=
  String.ofList (text.toList.map (fun c => if Regex.anyOf "`'\"\u2018\u2019\u201c\u201d" c then ' ' else c))

def pathLike (word : List Char) : Bool := word.any isSlash || word.head?.any (Regex.anyOf ".~")

section
variable (letterOrNumber : Char → Bool)

def namesCredentialPath (text : String) : Bool :=
  let spaced := text.toList.map (fun c => if letterOrNumber c || Regex.anyOf "._~/\\-" c then c else ' ')
  (Js.splitAt Js.isSpace spaced).any (fun word =>
    let path := (word.reverse.dropWhile (· == '.')).reverse
    pathLike path && protectedPath.testI (String.ofList path))

def textFloor (text : String) : Bool :=
  credentialLiteral.testI text || credentialLiteral.testI (withoutQuoting text) || namesCredentialPath letterOrNumber text

def joinLines (parts : List (Option String)) : String :=
  "\n".intercalate ((parts.filterMap id).filter (fun t => !t.isEmpty))

def credentialScreenQuestionText (questions : List AgentQuestion) : String :=
  "\n\n".intercalate (questions.map (fun q =>
    joinLines ([some q.id, q.header, some q.question, q.context] ++
      q.options.flatMap (fun o => [some o.1, o.2]))))

def credentialScreenToolText (request : PendingApproval) : String :=
  let c := request.context
  joinLines [some request.title, c.bind ApprovalContext.toolName, c.bind ApprovalContext.input,
    c.bind ApprovalContext.path, c.bind ApprovalContext.network]

inductive ProtectedRequestClass
  | secretsAndSignIn | providerAccessExpansion | persistentPermissions | guardrail | escalation | unverifiedForm
deriving DecidableEq, Repr

def touchesCredentialStore (o : Operation) : Bool :=
  (match o.kind with
    | .file path => protectedPath.testI path
    | .command input _ => protectedPath.testI input
    | .permissionGrant => false) ||
  (o.filesystem.map Filesystem.targets).any (fun ts => ts.any (fun t =>
    t.credentialStore || protectedPath.testI t.path || protectedPath.testI t.resolvedPath))

def asksSecret (q : AgentQuestion) : Bool :=
  q.secret || q.inputFormat == some "email" || textFloor letterOrNumber (credentialScreenQuestionText [q])

def protectedRequestClass (request : PendingApproval) (verifiedCodeOperation : Bool) : Option ProtectedRequestClass :=
  let context := request.context
  if request.kind = some .authentication then some .secretsAndSignIn
  else if request.runnerGuardrail then some .guardrail
  else if request.kind = some .question && request.questions.any (fun qs => qs.any (asksSecret letterOrNumber)) then
    some .secretsAndSignIn
  else if request.kind ≠ some .question && !verifiedCodeOperation &&
      textFloor letterOrNumber (credentialScreenToolText request) then some .secretsAndSignIn
  else if request.operation.any touchesCredentialStore then some .secretsAndSignIn
  else if truthy (context.bind ApprovalContext.network) || context.any ApprovalContext.providerPermissionExpansion then
    some .providerAccessExpansion
  else if request.operation.any (fun o => decide (o.kind = .permissionGrant)) then some .persistentPermissions
  else if truthy (context.bind ApprovalContext.escalatedBy) then some .escalation
  else if request.kind = some .question && request.questions.all List.isEmpty then some .unverifiedForm
  else none

/-- The text of a typed form: its question, its options' labels and descriptions, and its material. -/
def credentialFormFloor (question : String) (options : List (String × Option String)) (material : Option String) : Bool :=
  textFloor letterOrNumber
    ("\n".intercalate (question :: options.flatMap (fun o => [o.1, o.2.getD ""]) ++ [material.getD ""]))

end

inductive FullControlRequestClass
  | secretsAndSignIn | persistentPermissions | providerAccessExpansion | externalElicitation | rootQuestions
  | unverifiedToolEffects | gitExecutionWithoutBoundedEffectProof | scriptExecutionWithoutBoundedEffectProof
  | humanRequiredRules | undelegatedPolicyAsks | relativeShellCommandsWithoutVerifiedCwd
deriving DecidableEq, Repr

/-- `FULL_CONTROL_DECLINED_CLASSES` -/
def fullControlDeclinedClasses : List FullControlRequestClass :=
  [.secretsAndSignIn, .persistentPermissions, .providerAccessExpansion]

/-- `/(?:^|\/)git$/` -/
def gitProgram : Regex := .seqs [.alt .start (.lit "/"), .lit "git", .stop]

/-- The program a command runs, past an `env` and its assignments. -/
def commandProgram (input : String) : String :=
  match Js.words input with
  | "env" :: rest => (rest.find? (fun w => !w.toList.contains '=')).getD ""
  | w :: _ => w
  | [] => ""

def toolEffectClass (request : PendingApproval) : FullControlRequestClass :=
  match request.operation.map Operation.kind with
  | some (.command input cwd) =>
    if gitProgram.test (commandProgram input) then .gitExecutionWithoutBoundedEffectProof
    else if cwd.isNone then .relativeShellCommandsWithoutVerifiedCwd
    else .scriptExecutionWithoutBoundedEffectProof
  | _ => .unverifiedToolEffects

inductive ParentControlMode | off | questions | questionsAndApprovals
deriving DecidableEq, Repr

def isHumanOnlyEdge (c : Char) : Bool := !c.isAlphanum

/-- One of the separators `[\s_-]`, any number of them. -/
def gap : Regex := .many (fun c => Js.isSpace c || c == '_' || c == '-')

def humanOnlyParentControlRequest : Regex :=
  .seqs [.alt .start (.cls isHumanOnlyEdge),
    .oneOf [.lit "account", .seqs [.lit "api", gap, .lit "key", .opt (.lit "s")],
      .seq (.lit "auth") (.opt (.lits ["enticate", "entication"])),
      .seq (.lit "authorization") (.opt (.seqs [gap, .lit "header", .opt (.lit "s")])),
      .lit "bearer", .seq (.lit "cookie") (.opt (.lit "s")), .seq (.lit "credential") (.opt (.lit "s")),
      .lits ["device", "identity", "login", "logout", "mfa"], .seq (.lit "oauth") (.opt (.lit "2")),
      .seq (.lit "passphrase") (.opt (.lit "s")), .lit "password", .seq (.lit "secret") (.opt (.lit "s")),
      .seqs [.lit "ssh", gap, .lit "key", .opt (.lit "s")], .seq (.lit "token") (.opt (.lit "s")),
      .seqs [.lit "2", gap, .lit "fa"]],
    .alt (.cls isHumanOnlyEdge) .stop]

def isMailChar (c : Char) : Bool := c.isAlphanum || Regex.anyOf ".!#$%&'*+/=?^_`\x7b|\x7d~-" c

def isHostChar (c : Char) : Bool := c.isAlphanum || c == '.' || c == '-'

def emailIdentityParentControlRequest : Regex :=
  .seqs [.alt .start (.cls (fun c => !isMailChar c)), .atLeast 1 isMailChar, .lit "@", .cls Char.isAlphanum,
    .opt (.seq (.many isHostChar) (.cls Char.isAlphanum)), .alt (.cls (fun c => !isHostChar c)) .stop]

/-- `replace(/([A-Z])([A-Z][a-z])/g, "$1 $2")` -/
def splitAcronyms : List Char → List Char
  | a :: b :: c :: cs =>
    if a.isUpper && b.isUpper && c.isLower then a :: ' ' :: b :: c :: splitAcronyms cs
    else a :: splitAcronyms (b :: c :: cs)
  | cs => cs

/-- `replace(/(P)(Q)/g, "$1 $2")` for two classes. -/
def splitPairs (p q : Char → Bool) : List Char → List Char
  | a :: b :: cs => if p a && q b then a :: ' ' :: b :: splitPairs p q cs else a :: splitPairs p q (b :: cs)
  | cs => cs

/-- A letter of ASCII under the flag `i`. -/
def isLetterI (c : Char) : Bool := (Regex.fold c).isLower

def camelSeparated (s : String) : String :=
  String.ofList (splitPairs Char.isDigit isLetterI (splitPairs isLetterI Char.isDigit
    (splitPairs (fun c => c.isLower || c.isDigit) Char.isUpper (splitAcronyms s.toList))))

def containsHumanOnlyParentControlText (values : List (Option String)) : Bool :=
  values.any (fun v =>
    let text := v.getD ""
    humanOnlyParentControlRequest.testI text || humanOnlyParentControlRequest.testI (camelSeparated text) ||
      emailIdentityParentControlRequest.testI text)

def parentControlRequestEligible (mode : ParentControlMode) (request : PendingApproval) : Bool :=
  let c := request.context
  if mode = .off || request.kind = some .authentication || request.kind = some .policyHook then false
  else if request.kind = some .question then
    !(request.questions.getD []).any (fun q =>
      q.secret || q.inputFormat == some "email" || containsHumanOnlyParentControlText
        ([some q.id, q.header, some q.question, q.context] ++ q.options.flatMap (fun o => [some o.1, o.2])))
  else if mode ≠ .questionsAndApprovals || request.kind.any (fun k => decide (k ≠ .permission)) then false
  else if truthy request.governancePolicyId || truthy (c.bind ApprovalContext.escalatedBy) ||
      containsHumanOnlyParentControlText
        ([some request.title, c.bind ApprovalContext.toolName, c.bind ApprovalContext.input,
          c.bind ApprovalContext.path, c.bind ApprovalContext.network, c.bind ApprovalContext.branch] ++
          request.options.flatMap (fun o => [some o.optionId, some o.name, o.description])) then false
  else request.options.any (fun o => o.kind == some "allow_once" || o.kind == some "reject_once" ||
    (o.kind.isNone && (o.optionId == "allow" || o.optionId == "deny")))

end Authority
end Wollipog
