import Wollipog.Payloads.Chunks
/-!
# Staging — payloads externalized at once, and payloads whose chunks are made durable first

Hashing, writing and deleting may fail; whether they do is an argument. A staged payload is committed and released by
its callers.
-/
namespace Wollipog.Payloads

open Json (Text)
open Utf8 (encodePoint encode decode byteLength)
open Reviews (lit natText)

/-! ## Payloads and artifacts -/

inductive Kind
  | tool_call
  | tool_call_update
  | command_output
  | stderr
  | file_edit
  | other (name : Text)
deriving DecidableEq

def Kind.text : Kind → Text
  | .tool_call => lit "tool_call"
  | .tool_call_update => lit "tool_call_update"
  | .command_output => lit "command_output"
  | .stderr => lit "stderr"
  | .file_edit => lit "file_edit"
  | .other name => name

inductive Field
  | text
  | diff
deriving DecidableEq

def Field.name : Field → Text
  | .text => lit "text"
  | .diff => lit "diff"

inductive ArtifactKind
  | test_log
  | patch
deriving DecidableEq

structure EventPayloadReference where
  artifactId : Text
  mimeType : Text
  sizeBytes : ℕ
  sha256 : Text
deriving DecidableEq

inductive References (σ : Type)
  | supplied (value : σ)
  | externalized (references : List EventPayloadReference)

structure SessionEventPayload (σ ρ : Type) where
  kind : Kind
  text : Option Text
  textRefs : Option (References σ)
  diff : Option Text
  diffRefs : Option (References σ)
  rest : ρ

structure EventTextField where
  field : Field
  value : Text
  mimeType : Text
  artifactKind : ArtifactKind

structure WorkflowArtifactView where
  artifactId : Text
  sessionId : Text
  kind : ArtifactKind
  name : Text
  mimeType : Text
  sizeBytes : ℕ
  sha256 : Text
  eventKind : Text
  field : Text
  chunkIndex : ℕ
  chunkCount : ℕ
  createdAt : ℕ
deriving DecidableEq

structure ExternalizedSessionEventPayload (σ ρ : Type) where
  payload : SessionEventPayload σ ρ
  artifactIds : List Text

section

variable {σ ρ : Type}

def eventTextField (payload : SessionEventPayload σ ρ) : Option EventTextField :=
  match payload.kind with
  | .tool_call | .tool_call_update | .command_output | .stderr =>
    some ⟨.text, payload.text.getD [], lit "text/plain", .test_log⟩
  | .file_edit => some ⟨.diff, payload.diff.getD [], lit "text/x-diff", .patch⟩
  | .other _ => none

def SessionEventPayload.refs (payload : SessionEventPayload σ ρ) : Field → Option (References σ)
  | .text => payload.textRefs
  | .diff => payload.diffRefs

def SessionEventPayload.withoutRefs (payload : SessionEventPayload σ ρ) : Field → SessionEventPayload σ ρ
  | .text => { payload with textRefs := none }
  | .diff => { payload with diffRefs := none }

def eventPayloadArtifact (sessionId : Text) (payload : SessionEventPayload σ ρ) (field : EventTextField)
    (index count sizeBytes : ℕ) (sha256 artifactId : Text) (createdAt : ℕ) : WorkflowArtifactView where
  artifactId := artifactId
  sessionId := sessionId
  kind := field.artifactKind
  name := lit "session-event-" ++ payload.kind.text ++ lit "-" ++ field.field.name ++ lit "-" ++ natText (index + 1) ++
    (if field.artifactKind = .patch then lit ".diff" else lit ".txt")
  mimeType := field.mimeType
  sizeBytes := sizeBytes
  sha256 := sha256
  eventKind := payload.kind.text
  field := field.field.name
  chunkIndex := index
  chunkCount := count
  createdAt := createdAt

def externalizedPayload (payload : SessionEventPayload σ ρ) (field : EventTextField) (preview : Text)
    (artifacts : List WorkflowArtifactView) : SessionEventPayload σ ρ :=
  let references := artifacts.map (fun a => (⟨a.artifactId, field.mimeType, a.sizeBytes, a.sha256⟩ : EventPayloadReference))
  match field.field with
  | .text => { payload with text := some preview, textRefs := some (.externalized references) }
  | .diff => { payload with diff := some preview, diffRefs := some (.externalized references) }

end

inductive Call
  | stage (key : Text)
  | release (key : Text)
deriving DecidableEq

structure Db where
  rows : List WorkflowArtifactView
  staging : Text → ℕ
  calls : List Call

def MAX_WORKFLOW_ARTIFACT_BLOB_BYTES : ℕ := 32 * 1024 * 1024

namespace Db

def stageArtifactBlob (db : Db) (key : Text) : Db :=
  { db with staging := Function.update db.staging key (db.staging key + 1), calls := db.calls ++ [.stage key] }

def releaseStagedArtifactBlob (db : Db) (key : Text) : Db :=
  { db with staging := Function.update db.staging key (db.staging key - 1), calls := db.calls ++ [.release key] }

def createWorkflowArtifactBytes (db : Db) (sha256 : List ℕ → Text) (writes : Bool) (artifact : WorkflowArtifactView) (bytes : List ℕ) :
    Except Failure Db :=
  if artifact.sizeBytes > MAX_WORKFLOW_ARTIFACT_BLOB_BYTES ∨ bytes.length ≠ artifact.sizeBytes ∨ sha256 bytes ≠ artifact.sha256 then
    .error .mismatch
  else if writes then .ok { db with rows := db.rows ++ [artifact] } else .error .storage

def createStagedEventPayloadArtifacts (db : Db) (stores : Bool) (artifacts : List WorkflowArtifactView) : Except Failure Db :=
  if artifacts.any (fun a => db.staging a.sha256 == 0 || decide (a.sizeBytes > MAX_WORKFLOW_ARTIFACT_BLOB_BYTES)) then
    .error .notStaged
  else if stores then .ok { db with rows := db.rows ++ artifacts } else .error .storage

/-- `cleanupEventPayloadArtifacts`; a deletion that fails is left to the next start. -/
def cleanup (db : Db) (deletes : Text → Bool) (artifactIds : List Text) : Db :=
  { db with rows := db.rows.filter (fun a => !(artifactIds.contains a.artifactId && deletes a.artifactId)) }

end Db

section

variable {σ ρ : Type} (sha256 : List ℕ → Text) (artifactIdForChunk : ℕ → Text → Text) (validRefs : σ → Text → Bool)
  (sessionId : Text) (payload : SessionEventPayload σ ρ) (createdAt : ℕ)

def chunkArtifact (field : EventTextField) (count : ℕ) (chunk : List ℕ × ℕ) : WorkflowArtifactView :=
  eventPayloadArtifact sessionId payload field chunk.2 count chunk.1.length (sha256 chunk.1)
    (artifactIdForChunk chunk.2 (sha256 chunk.1)) createdAt

/-- The loop over the chunks: the store, the artifacts that were created, and what ended it. -/
def createChunks (writes : ℕ → Bool) (artifact : List ℕ × ℕ → WorkflowArtifactView) :
    List (List ℕ × ℕ) → List WorkflowArtifactView → Db → Db × List WorkflowArtifactView × Option Failure
  | [], created, db => (db, created, none)
  | chunk :: rest, created, db =>
    match db.createWorkflowArtifactBytes sha256 (writes chunk.2) (artifact chunk) chunk.1 with
    | .ok db => createChunks writes artifact rest (created ++ [artifact chunk]) db
    | .error failure => (db, created, some failure)

def inlinePayload (field : EventTextField) : SessionEventPayload σ ρ :=
  match payload.refs field.field with
  | none => payload
  | some (.supplied value) => if validRefs value field.mimeType then payload else payload.withoutRefs field.field
  | some (.externalized _) => payload

def externalizeSessionEventPayload (writes : ℕ → Bool) (deletes : Text → Bool) (db : Db) :
    Db × Except Failure (ExternalizedSessionEventPayload σ ρ) :=
  match eventTextField payload with
  | none => (db, .ok ⟨payload, []⟩)
  | some field =>
    let bytes := encode field.value
    if bytes.length ≤ EVENT_PAYLOAD_PREVIEW_BYTES then (db, .ok ⟨inlinePayload validRefs payload field, []⟩)
    else match splitEventPayloadBytes bytes with
      | .error failure => (db, .error failure)
      | .ok chunks =>
        match createChunks sha256 writes (chunkArtifact sha256 artifactIdForChunk sessionId payload createdAt field chunks.length)
            chunks.zipIdx [] db with
        | (db, created, some failure) => (db.cleanup deletes (created.map (·.artifactId)), .error failure)
        | (db, created, none) =>
          match eventPayloadPreview bytes chunks.length with
          | .error failure => (db, .error failure)
          | .ok preview => (db, .ok ⟨externalizedPayload payload field preview created, created.map (·.artifactId)⟩)

structure StagedSessionEventPayload where
  field : EventTextField
  preview : Text
  sizes : List ℕ
  digests : List Text
  released : Bool

def releaseAll (digests : List Text) (db : Db) : Db := digests.foldl Db.releaseStagedArtifactBlob db

def stageSessionEventPayload (hashes : Bool) (durable : ℕ → Bool) (db : Db) : Db × Except Failure StagedSessionEventPayload :=
  match eventTextField payload with
  | none => (db, .error .noField)
  | some field =>
    let bytes := encode field.value
    if bytes.length ≤ EVENT_PAYLOAD_PREVIEW_BYTES then (db, .error .fitsInline)
    else match splitEventPayloadBytes bytes with
      | .error failure => (db, .error failure)
      | .ok chunks =>
        match eventPayloadPreview bytes chunks.length with
        | .error failure => (db, .error failure)
        | .ok preview =>
          if hashes then
            let digests := chunks.map sha256
            let db := digests.foldl Db.stageArtifactBlob db
            -- every staging has settled before one that failed is looked for
            if (List.range chunks.length).all durable then (db, .ok ⟨field, preview, chunks.map List.length, digests, false⟩)
            else (releaseAll digests db, .error .storage)
          else (db, .error .storage)

def StagedSessionEventPayload.artifacts (staged : StagedSessionEventPayload) : List WorkflowArtifactView :=
  (staged.sizes.zip staged.digests).zipIdx.map (fun e =>
    eventPayloadArtifact sessionId payload staged.field e.2 staged.sizes.length e.1.1 e.1.2 (artifactIdForChunk e.2 e.1.2) createdAt)

def StagedSessionEventPayload.commit (staged : StagedSessionEventPayload) (stores : Bool) (db : Db) :
    Db × Except Failure (ExternalizedSessionEventPayload σ ρ) :=
  if staged.released then (db, .error .released)
  else
    let artifacts := staged.artifacts artifactIdForChunk sessionId payload createdAt
    match db.createStagedEventPayloadArtifacts stores artifacts with
    | .error failure => (db, .error failure)
    | .ok db => (db, .ok ⟨externalizedPayload payload staged.field staged.preview artifacts, artifacts.map (·.artifactId)⟩)

def StagedSessionEventPayload.release (staged : StagedSessionEventPayload) (db : Db) : Db × StagedSessionEventPayload :=
  if staged.released then (db, staged) else (releaseAll staged.digests db, { staged with released := true })

/-- What a caller does; the rows of a commit are deleted where the event was not written. -/
inductive Use
  | commit (stores : Bool)
  | cleanup (deletes : Text → Bool) (artifactIds : List Text)
  | release

def use (s : Db × StagedSessionEventPayload) : Use → Db × StagedSessionEventPayload
  | .commit stores => ((s.2.commit artifactIdForChunk sessionId payload createdAt stores s.1).1, s.2)
  | .cleanup deletes artifactIds => (s.1.cleanup deletes artifactIds, s.2)
  | .release => s.2.release s.1

/-- A frame that is dropped, refused or applied, and an event of a history page that is written or not. -/
inductive Path
  | dropped
  | refused
  | applied (stores : Option Bool) (rollback : Option ((Text → Bool) × List Text))
  | page (stores : Option Bool) (rollback : Option ((Text → Bool) × List Text))

def writing (stores : Option Bool) (rollback : Option ((Text → Bool) × List Text)) : List Use :=
  (stores.map Use.commit).toList ++ (rollback.map (fun r => Use.cleanup r.1 r.2)).toList

/-- An applied frame is released by `onSessionEvent`, and by the queue again. -/
def Path.uses : Path → List Use
  | .dropped => [.release]
  | .refused => [.release]
  | .applied stores rollback => writing stores rollback ++ [.release, .release]
  | .page stores rollback => writing stores rollback ++ [.release]

end

/-! ## Each staging is released once -/

theorem calls_stageAll : ∀ (keys : List Text) (db : Db),
    (keys.foldl Db.stageArtifactBlob db).calls = db.calls ++ keys.map Call.stage
  | [], db => (List.append_nil _).symm
  | key :: keys, db => by
    rw [List.foldl_cons, calls_stageAll keys]
    exact List.append_assoc _ _ _

theorem calls_releaseAll : ∀ (keys : List Text) (db : Db), (releaseAll keys db).calls = db.calls ++ keys.map Call.release
  | [], db => (List.append_nil _).symm
  | key :: keys, db => by
    have hrest := calls_releaseAll keys (db.releaseStagedArtifactBlob key)
    exact hrest.trans (List.append_assoc _ _ _)

theorem staging_stageAll (key : Text) : ∀ (keys : List Text) (db : Db),
    (keys.foldl Db.stageArtifactBlob db).staging key = db.staging key + keys.count key
  | [], db => rfl
  | k :: keys, db => by
    have hstep : (db.stageArtifactBlob k).staging key = db.staging key + if k == key then 1 else 0 := by
      by_cases hk : k = key
      · subst hk
        simp [Db.stageArtifactBlob]
      · simp [Db.stageArtifactBlob, hk, Function.update_of_ne (Ne.symm hk)]
    rw [List.foldl_cons, staging_stageAll key keys, hstep, List.count_cons]
    omega

theorem staging_releaseAll (key : Text) : ∀ (keys : List Text) (db : Db),
    (releaseAll keys db).staging key = db.staging key - keys.count key
  | [], db => rfl
  | k :: keys, db => by
    have hstep : (db.releaseStagedArtifactBlob k).staging key = db.staging key - if k == key then 1 else 0 := by
      by_cases hk : k = key
      · subst hk
        simp [Db.releaseStagedArtifactBlob]
      · simp [Db.releaseStagedArtifactBlob, hk, Function.update_of_ne (Ne.symm hk)]
    have hrest := staging_releaseAll key keys (db.releaseStagedArtifactBlob k)
    rw [hstep] at hrest
    rw [List.count_cons]
    refine hrest.trans ?_
    omega

theorem rows_stageAll : ∀ (keys : List Text) (db : Db), (keys.foldl Db.stageArtifactBlob db).rows = db.rows
  | [], _ => rfl
  | key :: keys, db => rows_stageAll keys (db.stageArtifactBlob key)

theorem rows_releaseAll : ∀ (keys : List Text) (db : Db), (releaseAll keys db).rows = db.rows
  | [], _ => rfl
  | key :: keys, db => rows_releaseAll keys (db.releaseStagedArtifactBlob key)

/-- Every key was staged and released as often, and as many stagings are in flight as before. -/
structure Balanced (before after : Db) : Prop where
  calls : ∃ keys : List Text, after.calls = before.calls ++ keys.map Call.stage ++ keys.map Call.release
  staging : after.staging = before.staging

theorem Balanced.refl (db : Db) : Balanced db db := ⟨⟨[], by simp⟩, rfl⟩

theorem balanced_stageAll_releaseAll (keys : List Text) (db : Db) :
    Balanced db (releaseAll keys (keys.foldl Db.stageArtifactBlob db)) := by
  refine ⟨⟨keys, ?_⟩, funext fun key => ?_⟩
  · rw [calls_releaseAll, calls_stageAll]
  · rw [staging_releaseAll, staging_stageAll, Nat.add_sub_cancel]

/-- A staged payload in use: `before` is the store in which its stagings stand. -/
structure Once (before : Db) (digests : List Text) (s : Db × StagedSessionEventPayload) : Prop where
  keys : s.2.digests = digests
  calls : s.1.calls = before.calls ++ if s.2.released then digests.map Call.release else []
  staging : ∀ key, s.1.staging key = if s.2.released then before.staging key - digests.count key else before.staging key

section

variable {σ ρ : Type} (artifactIdForChunk : ℕ → Text → Text) (sessionId : Text) (payload : SessionEventPayload σ ρ) (createdAt : ℕ)
  {before : Db} {digests : List Text} {s : Db × StagedSessionEventPayload}

theorem commit_frame (staged : StagedSessionEventPayload) (stores : Bool) (db : Db) :
    (staged.commit artifactIdForChunk sessionId payload createdAt stores db).1.calls = db.calls ∧
    (staged.commit artifactIdForChunk sessionId payload createdAt stores db).1.staging = db.staging := by
  unfold StagedSessionEventPayload.commit
  split
  · exact ⟨rfl, rfl⟩
  dsimp only
  cases hstore : db.createStagedEventPayloadArtifacts stores (staged.artifacts artifactIdForChunk sessionId payload createdAt) with
  | error failure => exact ⟨rfl, rfl⟩
  | ok after =>
    unfold Db.createStagedEventPayloadArtifacts at hstore
    split at hstore
    · cases hstore
    split at hstore
    · cases hstore
      exact ⟨rfl, rfl⟩
    · cases hstore

theorem Once.use (h : Once before digests s) (u : Use) :
    Once before digests (use artifactIdForChunk sessionId payload createdAt s u) := by
  obtain ⟨hdigests, hcalls, hstaging⟩ := h
  cases u with
  | commit stores =>
    obtain ⟨hsame, hcounts⟩ := commit_frame artifactIdForChunk sessionId payload createdAt s.2 stores s.1
    exact ⟨hdigests, hsame.trans hcalls, fun key => (congrFun hcounts key).trans (hstaging key)⟩
  | cleanup deletes artifactIds => exact ⟨hdigests, hcalls, hstaging⟩
  | release =>
    by_cases hreleased : s.2.released = true
    · have hsame : Payloads.use artifactIdForChunk sessionId payload createdAt s .release = s := by
        show s.2.release s.1 = s
        rw [StagedSessionEventPayload.release, if_pos hreleased]
      rw [hsame]
      exact ⟨hdigests, hcalls, hstaging⟩
    · have hstep : Payloads.use artifactIdForChunk sessionId payload createdAt s .release =
          (releaseAll s.2.digests s.1, { s.2 with released := true }) := by
        show s.2.release s.1 = _
        rw [StagedSessionEventPayload.release, if_neg hreleased]
      rw [if_neg hreleased, List.append_nil] at hcalls
      rw [hstep]
      refine ⟨hdigests, ?_, fun key => ?_⟩
      · rw [calls_releaseAll, hcalls, hdigests]
        rfl
      · have hkey := hstaging key
        rw [if_neg hreleased] at hkey
        rw [staging_releaseAll, hkey, hdigests]
        rfl

theorem Once.run (h : Once before digests s) (uses : List Use) :
    Once before digests (uses.foldl (Payloads.use artifactIdForChunk sessionId payload createdAt) s) := by
  induction uses generalizing s with
  | nil => exact h
  | cons u uses ih => exact ih (h.use artifactIdForChunk sessionId payload createdAt u)

theorem released_use (u : Use) (h : s.2.released = true) :
    (use artifactIdForChunk sessionId payload createdAt s u).2.released = true := by
  cases u with
  | commit stores => exact h
  | cleanup deletes artifactIds => exact h
  | release =>
    show (s.2.release s.1).2.released = true
    rw [StagedSessionEventPayload.release, if_pos h]
    exact h

theorem released_run {uses : List Use} (h : s.2.released = true ∨ Use.release ∈ uses) :
    (uses.foldl (use artifactIdForChunk sessionId payload createdAt) s).2.released = true := by
  induction uses generalizing s with
  | nil => exact h.elim id (fun hnone => absurd hnone List.not_mem_nil)
  | cons u uses ih =>
    refine ih ?_
    rcases h with h | h
    · exact .inl (released_use artifactIdForChunk sessionId payload createdAt u h)
    rcases List.mem_cons.1 h with rfl | h
    · refine .inl ?_
      show (s.2.release s.1).2.released = true
      unfold StagedSessionEventPayload.release
      split
      · assumption
      · rfl
    · exact .inr h

theorem release_mem_uses : ∀ path : Path, Use.release ∈ path.uses
  | .dropped => List.mem_cons_self
  | .refused => List.mem_cons_self
  | .applied _ _ => List.mem_append_cons_self
  | .page _ _ => List.mem_append_cons_self

end

section

variable {σ ρ : Type} (sha256 : List ℕ → Text) (artifactIdForChunk : ℕ → Text → Text) (validRefs : σ → Text → Bool)
  (sessionId : Text) (payload : SessionEventPayload σ ρ) (createdAt : ℕ)

variable {hashes : Bool} {durable : ℕ → Bool} {db after : Db}

theorem stage_error {failure : Failure}
    (h : stageSessionEventPayload sha256 payload hashes durable db = (after, .error failure)) :
    Balanced db after ∧ after.rows = db.rows := by
  have hsame : ∀ {f : Failure}, (db, Except.error f) = (after, (Except.error failure : Except Failure StagedSessionEventPayload)) →
      Balanced db after ∧ after.rows = db.rows := fun heq => by
    obtain ⟨rfl, -⟩ := Prod.mk.inj heq
    exact ⟨.refl db, rfl⟩
  unfold stageSessionEventPayload at h
  split at h
  · exact hsame h
  dsimp only at h
  split at h
  · exact hsame h
  split at h
  · exact hsame h
  split at h
  · exact hsame h
  split at h
  · split at h
    · cases (Prod.mk.inj h).2
    · obtain ⟨rfl, -⟩ := Prod.mk.inj h
      exact ⟨balanced_stageAll_releaseAll _ db, by rw [rows_releaseAll, rows_stageAll]⟩
  · exact hsame h

theorem stage_ok {staged : StagedSessionEventPayload}
    (h : stageSessionEventPayload sha256 payload hashes durable db = (after, .ok staged)) :
    staged.released = false ∧ after = staged.digests.foldl Db.stageArtifactBlob db := by
  unfold stageSessionEventPayload at h
  split at h
  · cases (Prod.mk.inj h).2
  dsimp only at h
  split at h
  · cases (Prod.mk.inj h).2
  split at h
  · cases (Prod.mk.inj h).2
  split at h
  · cases (Prod.mk.inj h).2
  split at h
  · split at h
    · obtain ⟨rfl, hstaged⟩ := Prod.mk.inj h
      cases hstaged
      exact ⟨rfl, rfl⟩
    · cases (Prod.mk.inj h).2
  · cases (Prod.mk.inj h).2

/-- **Every staging is released once** on every path. -/
theorem balanced_path {staged : StagedSessionEventPayload}
    (h : stageSessionEventPayload sha256 payload hashes durable db = (after, .ok staged)) (path : Path) :
    Balanced db (path.uses.foldl (use artifactIdForChunk sessionId payload createdAt) (after, staged)).1 := by
  obtain ⟨hreleased, hafter⟩ := stage_ok sha256 payload h
  have hstart : Once after staged.digests (after, staged) := by
    refine ⟨rfl, ?_, fun key => ?_⟩
    · rw [hreleased]
      exact (List.append_nil _).symm
    · rw [hreleased]
      rfl
  obtain ⟨-, hcalls, hstaging⟩ := hstart.run artifactIdForChunk sessionId payload createdAt path.uses
  have hend := released_run artifactIdForChunk sessionId payload createdAt (s := (after, staged)) (.inr (release_mem_uses path))
  rw [hend] at hcalls
  refine ⟨⟨staged.digests, ?_⟩, funext fun key => ?_⟩
  · rw [hcalls, hafter, calls_stageAll]
    rfl
  · rw [hstaging key, hend, hafter, staging_stageAll]
    exact Nat.add_sub_cancel _ _

theorem createChunks_all (artifact : List ℕ × ℕ → WorkflowArtifactView) : ∀ (l : List (List ℕ × ℕ)) (created : List WorkflowArtifactView)
    (db : Db), (∀ chunk ∈ l, (artifact chunk).sizeBytes = chunk.1.length ∧ chunk.1.length ≤ MAX_WORKFLOW_ARTIFACT_BLOB_BYTES ∧
      (artifact chunk).sha256 = sha256 chunk.1) →
    createChunks sha256 (fun _ => true) artifact l created db =
      ({ db with rows := db.rows ++ l.map artifact }, created ++ l.map artifact, none)
  | [], created, db, _ => by
    rw [createChunks, List.map_nil, List.append_nil, List.append_nil]
  | chunk :: l, created, db, h => by
    obtain ⟨hsize, hmax, hsha⟩ := h chunk List.mem_cons_self
    have hcreate : db.createWorkflowArtifactBytes sha256 true (artifact chunk) chunk.1 =
        .ok { db with rows := db.rows ++ [artifact chunk] } := by
      rw [Db.createWorkflowArtifactBytes, if_neg (by
        rw [hsize, hsha]
        rintro (hbig | hlength | hother)
        · omega
        · exact hlength rfl
        · exact hother rfl)]
      rfl
    have hrest := createChunks_all artifact l (created ++ [artifact chunk]) { db with rows := db.rows ++ [artifact chunk] }
      (fun c hc => h c (List.mem_cons_of_mem _ hc))
    rw [createChunks, hcreate]
    refine hrest.trans ?_
    simp only [List.map_cons, List.append_assoc, List.singleton_append]

theorem artifacts_staged (field : EventTextField) (preview : Text) (chunks : List (List ℕ)) (released : Bool) :
    StagedSessionEventPayload.artifacts artifactIdForChunk sessionId payload createdAt
      ⟨field, preview, chunks.map List.length, chunks.map sha256, released⟩ =
    chunks.zipIdx.map (chunkArtifact sha256 artifactIdForChunk sessionId payload createdAt field chunks.length) := by
  unfold StagedSessionEventPayload.artifacts
  rw [List.zip_map', List.zipIdx_map, List.map_map, List.length_map]
  rfl

theorem commit_stores (field : EventTextField) (preview : Text) {chunks : List (List ℕ)} {later : Db}
    (hbounded : ∀ chunk ∈ chunks, chunk.length ≤ EVENT_PAYLOAD_CHUNK_BYTES)
    (hcounted : ∀ key ∈ chunks.map sha256, later.staging key ≠ 0) :
    StagedSessionEventPayload.commit artifactIdForChunk sessionId payload createdAt
      ⟨field, preview, chunks.map List.length, chunks.map sha256, false⟩ true later =
    ({ later with rows := later.rows ++
        chunks.zipIdx.map (chunkArtifact sha256 artifactIdForChunk sessionId payload createdAt field chunks.length) },
      .ok ⟨externalizedPayload payload field preview
          (chunks.zipIdx.map (chunkArtifact sha256 artifactIdForChunk sessionId payload createdAt field chunks.length)),
        (chunks.zipIdx.map (chunkArtifact sha256 artifactIdForChunk sessionId payload createdAt field chunks.length)).map
          (·.artifactId)⟩) := by
  have hstores : later.createStagedEventPayloadArtifacts true
      (chunks.zipIdx.map (chunkArtifact sha256 artifactIdForChunk sessionId payload createdAt field chunks.length)) =
      .ok { later with rows := later.rows ++
        chunks.zipIdx.map (chunkArtifact sha256 artifactIdForChunk sessionId payload createdAt field chunks.length) } := by
    have hnone : ¬((chunks.zipIdx.map (chunkArtifact sha256 artifactIdForChunk sessionId payload createdAt field chunks.length)).any
        (fun a => later.staging a.sha256 == 0 || decide (a.sizeBytes > MAX_WORKFLOW_ARTIFACT_BLOB_BYTES))) = true := by
      rw [List.any_eq_true]
      rintro ⟨a, ha, hbad⟩
      obtain ⟨⟨chunk, index⟩, hmem, rfl⟩ := List.mem_map.1 ha
      have hchunk : chunk ∈ chunks := List.fst_mem_of_mem_zipIdx hmem
      have hcount := hcounted (sha256 chunk) (List.mem_map_of_mem hchunk)
      have hsize := hbounded chunk hchunk
      have hlimit : EVENT_PAYLOAD_CHUNK_BYTES ≤ MAX_WORKFLOW_ARTIFACT_BLOB_BYTES := by decide
      rw [Bool.or_eq_true, beq_iff_eq, decide_eq_true_iff] at hbad
      rcases hbad with hzero | hbig
      · exact hcount hzero
      · exact absurd (Nat.le_trans hsize hlimit) (Nat.not_le.2 hbig)
    rw [Db.createStagedEventPayloadArtifacts, if_neg hnone, if_pos rfl]
  unfold StagedSessionEventPayload.commit
  rw [if_neg Bool.false_ne_true, artifacts_staged]
  dsimp only
  rw [hstores]

/-- **The storage of a large payload**: the chunks are the text's bytes cut between code points, the preview is within its
limit, and each staging is released once. -/
theorem event_payload_storage {field : EventTextField} (hfield : eventTextField payload = some field)
    (hlarge : EVENT_PAYLOAD_PREVIEW_BYTES < byteLength field.value) (hmax : byteLength field.value ≤ EVENT_PAYLOAD_MAX_BYTES) :
    ∃ chunks preview,
      splitEventPayloadBytes (encode field.value) = .ok chunks ∧ chunks.flatten = encode field.value ∧
      decode chunks.flatten = (Utf8.points field.value).flatMap Utf8.units ∧
      (Utf8.wellFormed field.value = true → decode chunks.flatten = field.value) ∧
      (∀ chunk ∈ chunks, chunk.length ≤ EVENT_PAYLOAD_CHUNK_BYTES ∧
        ∃ qs, qs <:+: Utf8.points field.value ∧ chunk = qs.flatMap encodePoint) ∧
      eventPayloadPreview (encode field.value) chunks.length = .ok preview ∧ byteLength preview ≤ EVENT_PAYLOAD_PREVIEW_BYTES ∧
      (∀ deletes db later, (∀ key ∈ chunks.map sha256, later.staging key ≠ 0) → ∃ rows result after staged,
        externalizeSessionEventPayload sha256 artifactIdForChunk validRefs sessionId payload createdAt (fun _ => true) deletes db =
          ({ db with rows := db.rows ++ rows }, .ok result) ∧
        result.payload = externalizedPayload payload field preview rows ∧
        stageSessionEventPayload sha256 payload true (fun _ => true) db = (after, .ok staged) ∧
        staged.commit artifactIdForChunk sessionId payload createdAt true later =
          ({ later with rows := later.rows ++ rows }, .ok result)) ∧
      ∀ hashes durable db,
        (∀ after failure, stageSessionEventPayload sha256 payload hashes durable db = (after, .error failure) →
          Balanced db after ∧ after.rows = db.rows) ∧
        ∀ after staged (path : Path), stageSessionEventPayload sha256 payload hashes durable db = (after, .ok staged) →
          Balanced db (path.uses.foldl (use artifactIdForChunk sessionId payload createdAt) (after, staged)).1 := by
  obtain ⟨chunks, hsplit, hchunked⟩ := splitEventPayloadBytes_chunked field.value (by omega) hmax
  obtain ⟨preview, hpreview, hfits⟩ := eventPayloadPreview_bounded hmax hchunked.length_le
  have hflatten : chunks.flatten = encode field.value := hchunked.flatten
  have hlong : ¬(encode field.value).length ≤ EVENT_PAYLOAD_PREVIEW_BYTES := Nat.not_le.2 hlarge
  refine ⟨chunks, preview, hsplit, hflatten, ?_, ?_, fun chunk hchunk => ⟨(hchunked.bounded chunk hchunk).2, hchunked.points chunk hchunk⟩,
    hpreview, hfits, ?_, fun hashes durable db => ⟨fun after failure => stage_error sha256 payload,
      fun after staged path h => balanced_path sha256 artifactIdForChunk sessionId payload createdAt h path⟩⟩
  · rw [hflatten, Utf8.decode_encode]
  · intro hwell
    rw [hflatten, Utf8.decode_encode_wellFormed hwell]
  · intro deletes db later hcounted
    have hbounded : ∀ chunk ∈ chunks, chunk.length ≤ EVENT_PAYLOAD_CHUNK_BYTES := fun chunk hchunk => (hchunked.bounded chunk hchunk).2
    have hcreate := createChunks_all sha256 (chunkArtifact sha256 artifactIdForChunk sessionId payload createdAt field chunks.length)
      chunks.zipIdx [] db
      (fun chunk hchunk => ⟨rfl, Nat.le_trans (hbounded chunk.1 (List.fst_mem_of_mem_zipIdx hchunk)) (by decide), rfl⟩)
    refine ⟨_, _, (chunks.map sha256).foldl Db.stageArtifactBlob db, _, ?_, ?_, ?_,
      commit_stores sha256 artifactIdForChunk sessionId payload createdAt field preview hbounded hcounted⟩
    · unfold externalizeSessionEventPayload
      simp only [hfield, if_neg hlong, hsplit, hcreate, hpreview, List.nil_append]
    · rfl
    · unfold stageSessionEventPayload
      simp only [hfield, if_neg hlong, hsplit, hpreview, if_true]
      rw [if_pos (List.all_eq_true.2 (fun _ _ => rfl))]

end

def longOutput : SessionEventPayload Unit Unit := ⟨.command_output, some (List.replicate 17000 97), none, none, none, ()⟩

theorem event_payload_storage_longOutput : ∃ chunks, splitEventPayloadBytes (encode (List.replicate 17000 97)) = .ok chunks ∧
    chunks.flatten = encode (List.replicate 17000 97) := by
  have hbytes : byteLength (List.replicate 17000 97) = 17000 := by
    have hascii : Utf8.Ascii (List.replicate 17000 97) := fun c hc => by
      rw [List.eq_of_mem_replicate hc]
      decide
    rw [hascii.byteLength, List.length_replicate]
  have hfield : eventTextField longOutput = some ⟨.text, List.replicate 17000 97, lit "text/plain", .test_log⟩ := rfl
  obtain ⟨chunks, -, hsplit, hflatten, -⟩ := event_payload_storage (fun _ => []) (fun _ _ => []) (fun _ _ => true) [] longOutput 0 hfield
    (by show 16 * 1024 < byteLength (List.replicate 17000 97); rw [hbytes]; decide)
    (by show byteLength (List.replicate 17000 97) ≤ 8 * 1024 * 1024 * 4; rw [hbytes]; decide)
  exact ⟨chunks, hsplit, hflatten⟩

theorem points_replicate_lead : ∀ n, Utf8.points (List.replicate n 0xD800) = List.replicate n 0xFFFD
  | 0 => rfl
  | 1 => rfl
  | n + 2 => by
    have hrest := points_replicate_lead (n + 1)
    rw [List.replicate_succ] at hrest ⊢
    rw [List.replicate_succ] at ⊢
    rw [Utf8.points, if_neg (by decide), hrest]
    rfl

theorem event_payload_loses_halves : ¬∀ text : Text, EVENT_PAYLOAD_PREVIEW_BYTES < byteLength text →
    ∃ chunks, splitEventPayloadBytes (encode text) = .ok chunks ∧ decode chunks.flatten = text := by
  intro h
  have hbytes : byteLength (List.replicate 6000 0xD800) = 18000 := by
    rw [byteLength, encode, points_replicate_lead, List.length_flatMap, List.map_replicate, List.sum_replicate]
    rfl
  obtain ⟨chunks, hsplit, hdecode⟩ := h (List.replicate 6000 0xD800) (by rw [hbytes]; decide)
  obtain ⟨chunks', hsplit', hchunked⟩ := splitEventPayloadBytes_chunked (List.replicate 6000 0xD800)
    (by rw [hbytes]; decide) (by rw [hbytes]; decide)
  obtain rfl := Except.ok.inj (hsplit.symm.trans hsplit')
  have hflatten : chunks.flatten = encode (List.replicate 6000 0xD800) := hchunked.flatten
  rw [hflatten, Utf8.decode_encode, points_replicate_lead] at hdecode
  have hfirst := congrArg List.head? hdecode
  rw [List.replicate_succ, List.flatMap_cons, List.replicate_succ] at hfirst
  revert hfirst
  decide

end Wollipog.Payloads
