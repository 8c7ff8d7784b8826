import Wollipog.Lib.JsonNumber
import Wollipog.Payloads.Chunks
/-!
# Store — the history of provider profile publications

A row of counters with a sticky fence, the intents that were issued a ticket, and the events in order. What fails
inside a record's savepoint is taken back and only the fence stays.
-/
namespace Wollipog.Publication

open Json (CodeUnit Text Value Number Numerals byKey)
open Reviews (lit natText)

def PROVIDER_PUBLICATION_LIMITS_intents : ℕ := 4096
def PROVIDER_PUBLICATION_LIMITS_events : ℕ := 32768
def PROVIDER_PUBLICATION_LIMITS_recordBytes : ℕ := 4096

def MAX_COUNTER : ℕ := 2 ^ 64 - 1

/-! ## What is accepted -/

def isDigit (c : CodeUnit) : Bool := decide (48 ≤ c.val) && decide (c.val ≤ 57)

def isLowerHex (c : CodeUnit) : Bool := isDigit c || (decide (97 ≤ c.val) && decide (c.val ≤ 102))

def isAlphanumeric (c : CodeUnit) : Bool :=
  isDigit c || (decide (65 ≤ c.val) && decide (c.val ≤ 90)) || (decide (97 ≤ c.val) && decide (c.val ≤ 122))

def inClasses : List (CodeUnit → Bool) → Text → Bool
  | [], s => s.isEmpty
  | _ :: _, [] => false
  | p :: ps, c :: s => p c && inClasses ps s

def isHyphen (c : CodeUnit) : Bool := c == 45

/-- `UUID` -/
def uuid (value : Text) : Bool :=
  inClasses (List.replicate 8 isLowerHex ++ [isHyphen] ++ List.replicate 4 isLowerHex ++ [isHyphen, (· == 52)] ++
    List.replicate 3 isLowerHex ++ [isHyphen, (fun c => (lit "89ab").contains c)] ++ List.replicate 3 isLowerHex ++
    [isHyphen] ++ List.replicate 12 isLowerHex) value

/-- `ID` -/
def identifier : Text → Bool
  | [] => false
  | c :: s => isAlphanumeric c && decide (s.length ≤ 127) && s.all (fun d => isAlphanumeric d || (lit "._:-").contains d)

def rawIdentity (value : Text) : Bool :=
  decide (0 < value.length) && decide (value.length ≤ 128) && decide (Utf8.byteLength value ≤ 512) &&
    decide (Utf8.decode (Utf8.encode value) = value)

/-- `HASH` -/
def digest (value : Text) : Bool := decide (value.length = 64) && value.all isLowerHex

/-- `COUNTER` -/
def isCounter : Text → Bool
  | [] => false
  | c :: s => if c = 48 then s.isEmpty else isDigit c && decide (s.length ≤ 19) && s.all isDigit

/-- `BigInt` of a text of digits. -/
def bigInt (value : Text) : ℕ := Json.natValue (value.filterMap Json.digitOf)

/-- `toString` of a big integer. -/
def bigText (n : ℕ) : Text := if n = 0 then lit "0" else natText n

def validCounter (value : Text) : Bool := isCounter value && decide (bigInt value ≤ MAX_COUNTER)

structure Sha256 where
  hex : List ℕ → Text
  digest : ∀ bytes, digest (hex bytes) = true

def hash (sha256 : Sha256) (domain : Text) (value : Text) : Text :=
  sha256.hex (Utf8.encode (lit "wollipog:cp-provider-publication:v1:" ++ domain ++ [0]) ++ Utf8.encode value)

inductive Provider
  | claude | codex
deriving DecidableEq

def Provider.text : Provider → Text
  | .claude => lit "claude"
  | .codex => lit "codex"

inductive Kind
  | authorize | bind | complete | revoke | supersede | login | adopt | observe
deriving DecidableEq

def Kind.text : Kind → Text
  | .authorize => lit "authorize"
  | .bind => lit "bind"
  | .complete => lit "complete"
  | .revoke => lit "revoke"
  | .supersede => lit "supersede"
  | .login => lit "login"
  | .adopt => lit "adopt"
  | .observe => lit "observe"

def kinds : List Kind := [.authorize, .bind, .complete, .revoke, .supersede, .login, .adopt, .observe]

inductive PublicationObservation
  | reply | not_sent | uncertain
deriving DecidableEq

def PublicationObservation.text : PublicationObservation → Text
  | .reply => lit "reply"
  | .not_sent => lit "not_sent"
  | .uncertain => lit "uncertain"

def observations : List PublicationObservation := [.reply, .not_sent, .uncertain]

structure PublicationGrant where
  grantId : Text
  profileId : Option Text
  runnerId : Text
  providerAccountId : Text
  provider : Provider

def validProviderPublicationInput (grant : PublicationGrant) (requestId : Option Text) : Bool :=
  identifier grant.grantId && rawIdentity grant.runnerId && rawIdentity grant.providerAccountId &&
    grant.profileId.all uuid && requestId.all identifier

structure PublicationRecord where
  ownerId : Text
  storeEpoch : Text
  revision : Text
  kind : Kind
  grantId : Text
  profileId : Option Text
  provider : Provider
  runnerKey : Text
  accountKey : Text
  requestId : Option Text
  ticket : Option Text
  observation : Option PublicationObservation
deriving DecidableEq

def nullable : Option Text → Option Value
  | none => some .null
  | some text => some (.string text)

def PublicationRecord.fields (N : Numerals) (r : PublicationRecord) : List (Text × Option Value) := [
  (lit "version", some (.number (N.write 1))),
  (lit "ownerId", some (.string r.ownerId)),
  (lit "storeEpoch", some (.string r.storeEpoch)),
  (lit "revision", some (.string r.revision)),
  (lit "kind", some (.string r.kind.text)),
  (lit "grantId", some (.string r.grantId)),
  (lit "profileId", nullable r.profileId),
  (lit "provider", some (.string r.provider.text)),
  (lit "runnerKey", some (.string r.runnerKey)),
  (lit "accountKey", some (.string r.accountKey)),
  (lit "requestId", nullable r.requestId),
  (lit "observation", nullable (r.observation.map PublicationObservation.text))]

def PublicationRecord.members (N : Numerals) (r : PublicationRecord) : List (Text × Option Value) :=
  r.fields N ++ [(lit "ticket", nullable r.ticket)]

/-- The text with the keys sorted; `none` where it is too long. -/
def encode (members : List (Text × Option Value)) : Option Text :=
  let text := Json.stringify (.object (byKey members))
  if PROVIDER_PUBLICATION_LIMITS_recordBytes < Utf8.byteLength text then none else some text

def textAt (m : List (Text × Option Value)) (key : Text) : Option Text :=
  match Json.get m key with
  | some (.string text) => some text
  | _ => none

def nullableAt (m : List (Text × Option Value)) (key : Text) : Option (Option Text) :=
  match Json.get m key with
  | some .null => some none
  | some (.string text) => some (some text)
  | _ => none

def sortedKeys (keys : List Text) : Text := List.intercalate [44] (keys.insertionSort (· ≤ ·))

def recordKeys : List Text := [lit "version", lit "ownerId", lit "storeEpoch", lit "revision", lit "kind", lit "grantId",
  lit "profileId", lit "provider", lit "runnerKey", lit "accountKey", lit "requestId", lit "ticket", lit "observation"]

/-- The record in a stored text; `none` is a throw. -/
def decode (N : Numerals) (ownerId : Text) (text : Text) : Option PublicationRecord :=
  if PROVIDER_PUBLICATION_LIMITS_recordBytes < Utf8.byteLength text then none
  else
    match Json.parse N.toDouble text with
    | some (.object m) => do
      guard (sortedKeys (m.map Prod.fst) = sortedKeys recordKeys)
      let .number version ← Json.get m (lit "version") | none
      guard (N.value version = some 1)
      let owner ← textAt m (lit "ownerId")
      guard (owner = ownerId)
      let storeEpoch ← textAt m (lit "storeEpoch")
      guard (uuid storeEpoch = true)
      let revision ← textAt m (lit "revision")
      guard (validCounter revision = true)
      let kindText ← textAt m (lit "kind")
      let kind ← kinds.find? (fun k => k.text == kindText)
      let grantId ← textAt m (lit "grantId")
      guard (identifier grantId = true)
      let profileId ← nullableAt m (lit "profileId")
      guard (profileId.all uuid = true)
      let providerText ← textAt m (lit "provider")
      let provider ← [Provider.claude, Provider.codex].find? (fun p => p.text == providerText)
      let runnerKey ← textAt m (lit "runnerKey")
      let accountKey ← textAt m (lit "accountKey")
      guard (digest runnerKey = true ∧ digest accountKey = true)
      let requestId ← nullableAt m (lit "requestId")
      guard (requestId.all identifier = true)
      let ticket ← nullableAt m (lit "ticket")
      guard (ticket.all digest = true)
      let observationText ← nullableAt m (lit "observation")
      let observation ← match observationText with
        | none => some none
        | some t => (observations.find? (fun o => o.text == t)).map some
      guard (encode m = some text)
      return { ownerId := owner, storeEpoch := storeEpoch, revision := revision, kind := kind, grantId := grantId,
               profileId := profileId, provider := provider, runnerKey := runnerKey, accountKey := accountKey,
               requestId := requestId, ticket := ticket, observation := observation }
    | _ => none

/-! ## The tables -/

inductive Origin
  | newSourceIncomplete | legacyIncomplete
deriving DecidableEq

structure Source where
  version : ℕ
  owner_id : Text
  store_epoch : Text
  origin : Origin
  history_complete : ℕ
  degraded : ℕ
  revision : Text
  intent_count : ℕ
  event_count : ℕ

structure Db where
  source : Source
  /-- The epoch in the metadata. -/
  marker : Option Text
  intents : List (Text × Text)
  events : List (ℕ × Text)

def install (ownerId epoch : Text) (newDatabase : Bool) : Db where
  source := {
    version := 1
    owner_id := ownerId
    store_epoch := epoch
    origin := if newDatabase then .newSourceIncomplete else .legacyIncomplete
    history_complete := 0
    degraded := 0
    revision := lit "0"
    intent_count := 0
    event_count := 0 }
  marker := some epoch
  intents := []
  events := []

def sourceOf (ownerId : Text) (db : Db) : Option Source :=
  let row := db.source
  if row.version ≠ 1 ∨ row.owner_id ≠ ownerId ∨ uuid row.store_epoch = false ∨ db.marker ≠ some row.store_epoch ∨
      row.history_complete ≠ 0 ∨ (row.degraded ≠ 0 ∧ row.degraded ≠ 1) ∨ validCounter row.revision = false ∨
      PROVIDER_PUBLICATION_LIMITS_intents < row.intent_count ∨ PROVIDER_PUBLICATION_LIMITS_events < row.event_count then none
  else some row

structure Call where
  kind : Kind
  grant : PublicationGrant
  requestId : Option Text
  observation : Option PublicationObservation
  expectedRevision : Option Text

def Call.dispatch (call : Call) : Bool := call.kind == .login || call.kind == .adopt

def Call.intentKey (call : Call) : Option Text :=
  if call.kind = .authorize then some (lit "grant:" ++ call.grant.grantId)
  else if call.dispatch then some (lit "request:" ++ call.requestId.getD (lit "undefined"))
  else none

/-- Where the database fails: at one of the statements inside the savepoint, and at the fence. -/
structure Faults where
  statement : Option ℕ
  fence : Bool

def Faults.at_ (faults : Faults) (n : ℕ) : Option Unit := if faults.statement = some n then none else some ()

def insertIntent (db : Db) (key text : Text) : Option Db :=
  if (db.intents.any (fun e => e.1 == key)) ∨ PROVIDER_PUBLICATION_LIMITS_recordBytes < Utf8.byteLength text then none
  else some { db with intents := db.intents ++ [(key, text)] }

def insertEvent (db : Db) (seq : ℕ) (text : Text) : Option Db :=
  if (db.events.any (fun e => e.1 == seq)) ∨ seq < 1 ∨ 32768 < seq ∨
      PROVIDER_PUBLICATION_LIMITS_recordBytes < Utf8.byteLength text then none
  else some { db with events := db.events ++ [(seq, text)] }

/-- The update of the counters, refused where they are not what was read or where a check fails. -/
def updateSource (db : Db) (source : Source) (revision : Text) (intents : ℕ) : Option Db :=
  if db.source.revision = source.revision ∧ db.source.event_count = source.event_count ∧
      db.source.intent_count = source.intent_count ∧ db.source.degraded = 0 ∧
      db.source.event_count + 1 ≤ 32768 ∧ db.source.intent_count + intents ≤ 4096 then
    some { db with source := { db.source with
      revision := revision
      event_count := db.source.event_count + 1
      intent_count := db.source.intent_count + intents } }
  else none

def Call.record (sha256 : Sha256) (source : Source) (revision : Text) (call : Call) : PublicationRecord where
  ownerId := source.owner_id
  storeEpoch := source.store_epoch
  revision := revision
  kind := call.kind
  grantId := call.grant.grantId
  profileId := call.grant.profileId
  provider := call.grant.provider
  runnerKey := hash sha256 (lit "runner") call.grant.runnerId
  accountKey := hash sha256 (lit "account") call.grant.providerAccountId
  requestId := call.requestId
  ticket := none
  observation := call.observation

/-- The work inside the savepoint; `none` is a throw. -/
def evidence (N : Numerals) (sha256 : Sha256) (source : Source) (call : Call) (faults : Faults) (db : Db) :
    Option (Option Text × Db) :=
  (call.intentKey.elim (some ()) (fun _ => faults.at_ 0)).bind (fun _ =>
    if call.intentKey.any (fun key => db.intents.any (fun e => e.1 == key)) then
      (faults.at_ 4).map (fun _ => (none, db))
    else if PROVIDER_PUBLICATION_LIMITS_events ≤ source.event_count ∨
        (call.intentKey.isSome ∧ PROVIDER_PUBLICATION_LIMITS_intents ≤ source.intent_count) ∨
        bigInt source.revision = MAX_COUNTER then none
    else
      let revision := bigText (bigInt source.revision + 1)
      let fields := call.record sha256 source revision
      (match call.intentKey with
        | none => some none
        | some _ => (encode (fields.fields N)).map (fun text => some (hash sha256 (lit "ticket") text))).bind (fun ticket =>
      (encode (({ fields with ticket := ticket } : PublicationRecord).members N)).bind (fun text =>
      (match call.intentKey with
        | none => some db
        | some key => (faults.at_ 1).bind (fun _ => insertIntent db key text)).bind (fun db =>
      (faults.at_ 2).bind (fun _ =>
      (insertEvent db (source.event_count + 1) text).bind (fun db =>
      (faults.at_ 3).bind (fun _ =>
      (updateSource db source revision (if call.intentKey.isSome then 1 else 0)).bind (fun db =>
      (faults.at_ 4).map (fun _ => (some (ticket.getD revision), db))))))))))

def degrade (db : Db) : Db := { db with source := { db.source with degraded := 1 } }

/-- How a call of `record` ends. -/
inductive Outcome
  | returned (result : Option Text)
  | threw
deriving DecidableEq

def record (N : Numerals) (sha256 : Sha256) (ownerId : Text) (inTransaction : Bool) (call : Call) (faults : Faults)
    (db : Db) : Outcome × Db :=
  if inTransaction = false then (.threw, db)
  else if validProviderPublicationInput call.grant call.requestId = false ∨
      (call.dispatch = true ∧ call.requestId = none) then (.returned none, db)
  else
    match sourceOf ownerId db with
    | none => (.returned none, db)
    | some source =>
      if source.degraded ≠ 0 then (.returned none, db)
      else if call.expectedRevision.any (fun expected => decide (expected ≠ source.revision)) then (.returned none, db)
      else
        match evidence N sha256 source call faults db with
        | some (result, db') => (.returned result, db')
        -- Back to the savepoint; only the fence stays, and where it fails too the error leaves the call.
        | none => if faults.fence then (.threw, db) else (.returned none, degrade db)

end Wollipog.Publication

/-! ## What a stored record says

A record with valid fields is read back from its text as it was written.
-/
namespace Wollipog.Publication

open Json (CodeUnit Text Value Number Numerals byKey)
open Reviews (lit natText)

theorem filterMap_digitUnits (l : List (Fin 10)) : (Json.digitUnits l).filterMap Json.digitOf = l := by
  unfold Json.digitUnits
  rw [List.filterMap_map]
  have hdigit : Json.digitOf ∘ Json.digitUnit = some := funext Json.digitOf_digitUnit
  rw [hdigit, List.filterMap_some]

/-- **A counter is worth what it was written from.** -/
theorem bigInt_bigText (n : ℕ) : bigInt (bigText n) = n := by
  unfold bigInt bigText
  split
  · rename_i hzero
    rw [hzero]
    decide
  · rename_i hzero
    rw [natText, if_neg hzero, filterMap_digitUnits, Json.natValue_natDigits]

theorem isDigit_digitUnit (d : Fin 10) : isDigit (Json.digitUnit d) = true := by
  unfold isDigit Json.digitUnit
  simp only [Bool.and_eq_true, decide_eq_true_eq]
  omega

theorem validCounter_bigText {n : ℕ} (h : n ≤ MAX_COUNTER) : validCounter (bigText n) = true := by
  unfold validCounter
  rw [bigInt_bigText, decide_eq_true h, Bool.and_true]
  by_cases hzero : n = 0
  · rw [hzero]
    decide
  · have htext : bigText n = natText n := if_neg hzero
    have hlength : (natText n).length ≤ 20 :=
      Payloads.length_natText_le (by decide) (lt_of_le_of_lt h (by decide))
    have hhead := Json.natDigits_head n
    cases hdigits : Json.natDigits n with
    | nil => exact absurd hdigits (Json.natDigits_ne_nil hzero)
    | cons d l =>
      have hsplit : natText n = Json.digitUnit d :: Json.digitUnits l := by
        rw [natText, if_neg hzero, hdigits]
        rfl
      have hne : Json.digitUnit d ≠ 48 := by
        intro heq
        have hd : d = 0 := by
          have hval := congrArg Fin.val heq
          unfold Json.digitUnit at hval
          simp only at hval
          exact Fin.ext (by simpa using hval)
        rw [hdigits, hd, List.dropWhile_cons_of_pos (by decide)] at hhead
        have hle := (List.dropWhile_suffix (fun d : Fin 10 => d == 0) (l := l)).length_le
        rw [hhead, List.length_cons] at hle
        omega
      rw [htext, hsplit]
      rw [hsplit, List.length_cons] at hlength
      change (if Json.digitUnit d = 48 then (Json.digitUnits l).isEmpty
        else isDigit (Json.digitUnit d) && decide ((Json.digitUnits l).length ≤ 19) && (Json.digitUnits l).all isDigit) = true
      rw [if_neg hne, isDigit_digitUnit, Bool.true_and, Bool.and_eq_true, decide_eq_true_eq]
      refine ⟨by omega, ?_⟩
      rw [List.all_eq_true]
      intro c hc
      obtain ⟨e, -, rfl⟩ := List.mem_map.1 hc
      exact isDigit_digitUnit e

/-! ## Texts -/

structure PublicationRecord.Valid (ownerId : Text) (r : PublicationRecord) : Prop where
  owner : r.ownerId = ownerId
  epoch : uuid r.storeEpoch = true
  revision : validCounter r.revision = true
  grant : identifier r.grantId = true
  profile : r.profileId.all uuid = true
  runner : digest r.runnerKey = true
  account : digest r.accountKey = true
  request : r.requestId.all identifier = true
  ticket : r.ticket.all digest = true

def Plain (N : Numerals) (o : Option Value) : Prop := ∃ v, o = some v ∧ v.Wf N.toDouble ∧ Json.arranged id v = v

theorem plain_string (N : Numerals) (text : Text) : Plain N (some (.string text)) := ⟨.string text, rfl, trivial, rfl⟩

theorem plain_nullable (N : Numerals) (value : Option Text) : Plain N (nullable value) := by
  cases value with
  | none => exact ⟨.null, rfl, trivial, rfl⟩
  | some text => exact plain_string N text

def Flat (N : Numerals) (m : List (Text × Option Value)) : Prop := ∀ e ∈ m, Plain N e.2

theorem flat_members (N : Numerals) (r : PublicationRecord) : Flat N (r.members N) := by
  have hnumber : N.toDouble (N.write 1) = N.write 1 := N.toDouble_write 1 (by simpa using N.held_nat 1 (by decide))
  unfold Flat PublicationRecord.members PublicationRecord.fields
  simp only [List.cons_append, List.nil_append, List.forall_mem_cons]
  refine ⟨⟨_, rfl, hnumber, rfl⟩, plain_string _ _, plain_string _ _, plain_string _ _, plain_string _ _, plain_string _ _,
    plain_nullable _ _, plain_string _ _, plain_string _ _, plain_string _ _, plain_nullable _ _, plain_nullable _ _,
    plain_nullable _ _, ?_⟩
  exact List.forall_mem_nil _

variable {key : Text} {N : Numerals} {m : List (Text × Option Value)}

theorem Flat.arranged : ∀ {m : List (Text × Option Value)}, Flat N m → Json.arrangedMembers id m = m
  | [], _ => rfl
  | (key, value) :: m, h => by
    obtain ⟨v, hvalue, -, hv⟩ := h (key, value) List.mem_cons_self
    cases hvalue
    unfold Json.arrangedMembers
    rw [hv, Flat.arranged (fun e he => h e (List.mem_cons_of_mem _ he))]

theorem Flat.wf (h : Flat N m) : Json.WfMembers N.toDouble m := by
  rw [Json.wfMembers_iff]
  intro e he
  obtain ⟨v, hvalue, hwf, -⟩ := h _ (Json.mem_defined.1 he)
  cases hvalue
  exact hwf

theorem keys_members (N : Numerals) (r : PublicationRecord) : List.Perm ((r.members N).map Prod.fst) recordKeys := by
  have hkeys : (r.members N).map Prod.fst = [lit "version", lit "ownerId", lit "storeEpoch", lit "revision", lit "kind",
      lit "grantId", lit "profileId", lit "provider", lit "runnerKey", lit "accountKey", lit "requestId",
      lit "observation", lit "ticket"] := rfl
  rw [hkeys]
  decide

theorem nodup_members (N : Numerals) (r : PublicationRecord) : ((r.members N).map Prod.fst).Nodup :=
  (keys_members N r).nodup_iff.2 (by decide)

theorem sortedKeys_perm {l k : List Text} (h : List.Perm l k) : sortedKeys l = sortedKeys k := by
  have hsort : ∀ l : List Text, (l.insertionSort (· ≤ ·)).Pairwise (· ≤ ·) := fun l => List.pairwise_insertionSort _ l
  have hperm : List.Perm (l.insertionSort (· ≤ ·)) (k.insertionSort (· ≤ ·)) :=
    ((List.perm_insertionSort _ l).trans h).trans (List.perm_insertionSort _ k).symm
  unfold sortedKeys
  rw [hperm.eq_of_pairwise (fun a b _ _ hab hba => le_antisymm hab hba) (hsort l) (hsort k)]

theorem find_kind (k : Kind) : kinds.find? (fun other => other.text == k.text) = some k := by cases k <;> decide

theorem find_provider (p : Provider) : [Provider.claude, Provider.codex].find? (fun other => other.text == p.text) = some p := by
  cases p <;> decide

theorem find_observation (o : PublicationObservation) :
    observations.find? (fun other => other.text == o.text) = some o := by cases o <;> decide

theorem textAt_of_get {text : Text} (h : Json.get m key = some (.string text)) : textAt m key = some text := by
  unfold textAt
  rw [h]

theorem nullableAt_of_get {value : Option Text}
    (h : ∀ v, nullable value = some v → Json.get m key = some v) : nullableAt m key = some value := by
  unfold nullableAt
  cases value with
  | none => rw [h .null rfl]
  | some text => rw [h (.string text) rfl]

/-- **A valid record is read back from its text.** -/
theorem decode_encode (N : Numerals) {ownerId text : Text} {r : PublicationRecord} (h : r.Valid ownerId)
    (hencode : encode (r.members N) = some text) : decode N ownerId text = some r := by
  have hperm := Json.byKey_perm (r.members N)
  have hnodup : ((byKey (r.members N)).map Prod.fst).Nodup := (hperm.map Prod.fst).nodup_iff.2 (nodup_members N r)
  have hflat : Flat N (byKey (r.members N)) := fun e he => flat_members N r e (hperm.mem_iff.1 he)
  have hagain : byKey (byKey (r.members N)) = byKey (r.members N) :=
    Json.byKey_eq hnodup (nodup_members N r) (fun e => hperm.mem_iff)
  have hget : ∀ {key : Text} {v : Value}, (key, some v) ∈ r.members N → Json.get (byKey (r.members N)) key = some v :=
    fun hmem => (Json.get_eq_some hnodup).2 (hperm.mem_iff.2 hmem)
  unfold encode at hencode
  simp only at hencode
  split at hencode
  · cases hencode
  · rename_i hshort
    cases hencode
    have hwf : (Value.object (byKey (r.members N))).Wf N.toDouble := ⟨hnodup, hflat.wf⟩
    have hparse := Json.parse_stringify N.toDouble hwf
    have harranged : Json.arranged id (.object (byKey (r.members N))) = .object (byKey (r.members N)) := by
      unfold Json.arranged
      rw [hflat.arranged]
      rfl
    rw [harranged] at hparse
    have hwritten : encode (byKey (r.members N)) = some (Json.stringify (.object (byKey (r.members N)))) := by
      unfold encode
      rw [hagain]
      exact if_neg hshort
    have hkeys : sortedKeys ((byKey (r.members N)).map Prod.fst) = sortedKeys recordKeys :=
      sortedKeys_perm ((hperm.map Prod.fst).trans (keys_members N r))
    have hat : ∀ (i : ℕ) {key : Text} {v : Value}, (r.members N)[i]? = some (key, some v) →
        Json.get (byKey (r.members N)) key = some v := fun i _ _ hi => hget (List.mem_of_getElem? hi)
    have hnullable : ∀ (i : ℕ) {key : Text} {value : Option Text}, (r.members N)[i]? = some (key, nullable value) →
        nullableAt (byKey (r.members N)) key = some value :=
      fun i _ _ hi => nullableAt_of_get (fun v hv => hat i (by rw [hi, hv]))
    have hone : N.value (N.write 1) = some 1 := N.value_write 1 (by simpa using N.held_nat 1 (by decide))
    unfold decode
    rw [if_neg hshort, hparse]
    simp only [hkeys, hat 0 rfl, hone, textAt_of_get (hat 1 rfl), textAt_of_get (hat 2 rfl), textAt_of_get (hat 3 rfl),
      textAt_of_get (hat 4 rfl), textAt_of_get (hat 5 rfl), hnullable 6 rfl, textAt_of_get (hat 7 rfl),
      textAt_of_get (hat 8 rfl), textAt_of_get (hat 9 rfl), hnullable 10 rfl, hnullable 11 rfl, hnullable 12 rfl,
      find_kind, find_provider, h.owner, h.epoch, h.revision, h.grant, h.profile, h.runner, h.account, h.request, h.ticket,
      hwritten, guard, if_true, and_self, Option.bind_eq_bind, Option.pure_def, Option.bind_some]
    rw [← h.owner]
    cases hobservation : r.observation with
    | none =>
      rw [Option.map_none, ← hobservation]
    | some observation =>
      simp only [Option.map_some, find_observation, Option.bind_some]
      rw [← hobservation]

end Wollipog.Publication
