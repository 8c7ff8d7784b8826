import Wollipog.Lib.JsonUtf8
import Wollipog.Lib.ReplaceUnits
import Wollipog.Reviews.Contract
import Wollipog.Share.Projection
/-!
# Rendering — the JSON and the Markdown of a shared transcript, and their size

A text is its code units, and halves of surrogate pairs may stand in it by themselves.
-/
namespace Wollipog.Share.Rendering

open Json (Text CodeUnit isLead isTrail quote quoteUnit quoteUnits)
open Utf8 (byteLength Apart Ascii ascii_unicodeEscape)
open Reviews (lit)
open Replace (Rule replace)

structure OperationalTranscriptMessage where
  role : Role
  text : Text
deriving DecidableEq

/-- The other members are of literal types: their one value stands in the texts below. -/
structure OperationalTranscriptProjection where
  messages : List OperationalTranscriptMessage
deriving DecidableEq

def roleText : Role → Text
  | .user => lit "user"
  | .assistant => lit "assistant"

def jsonOpening : Text :=
  lit "\x7b\"schemaVersion\":1,\"source\":\"control-plane-cache\",\"completeness\":\"possibly-partial\",\"messages\":["

def jsonClosing : Text := lit "]\x7d"

def messageOpening (role : Role) : Text := lit "\x7b\"role\":\"" ++ roleText role ++ lit "\",\"text\":"

def jsonPart (m : OperationalTranscriptMessage × ℕ) : Text :=
  (if m.2 > 0 then lit "," else []) ++ messageOpening m.1.role ++ quote m.1.text ++ lit "\x7d"

def canonicalOperationalTranscriptJson (projection : OperationalTranscriptProjection) : Text :=
  jsonOpening ++ projection.messages.zipIdx.flatMap jsonPart ++ jsonClosing

def countBackticks (s : ℕ × ℕ) (c : CodeUnit) : ℕ × ℕ :=
  if c = 96 then (if s.2 + 1 > s.1 then s.2 + 1 else s.1, s.2 + 1) else (s.1, 0)

def codeFenceFor (text : Text) : Text := List.replicate (max 3 ((text.foldl countBackticks (0, 0)).1 + 1)) 96

def markdownOpening : Text :=
  lit "# Operationally redacted transcript export\n\n" ++
    lit "> Source: control-plane cache snapshot; possibly partial relative to runner history.\n" ++
    lit "> Message text may still contain secrets, source code, or personal data.\n"

def heading : Role → Text
  | .user => lit "## User"
  | .assistant => lit "## Assistant"

def markdownPart (m : OperationalTranscriptMessage) : Text :=
  lit "\n" ++ heading m.role ++ lit "\n\n" ++ codeFenceFor m.text ++ lit "text\n" ++ m.text ++
    (lit "\n" ++ codeFenceFor m.text ++ lit "\n")

def operationalTranscriptMarkdown (projection : OperationalTranscriptProjection) : Text :=
  markdownOpening ++ projection.messages.flatMap markdownPart

def jsonEscapedUnitBytes (c : CodeUnit) : ℕ :=
  if c = 0x22 ∨ c = 0x5c ∨ c = 0x08 ∨ c = 0x09 ∨ c = 0x0a ∨ c = 0x0c ∨ c = 0x0d then 2
  else if c.val ≤ 0x1f then 6
  else if isLead c then 6
  else if isTrail c then 6
  else if c.val ≤ 0x7f then 1
  else if c.val ≤ 0x7ff then 2
  else 3

def jsonEscapedContentUtf8Bytes : Text → ℕ
  | [] => 0
  | [c] => jsonEscapedUnitBytes c
  | c :: d :: r =>
    if isLead c && isTrail d then 4 + jsonEscapedContentUtf8Bytes r
    else jsonEscapedUnitBytes c + jsonEscapedContentUtf8Bytes (d :: r)

def jsonPartBytes (m : OperationalTranscriptMessage × ℕ) : ℕ :=
  (if m.2 > 0 then 1 else 0) + byteLength (messageOpening m.1.role ++ lit "\"\"" ++ lit "\x7d") +
    jsonEscapedContentUtf8Bytes m.1.text

def markdownPartBytes (m : OperationalTranscriptMessage) : ℕ :=
  byteLength (lit "\n" ++ heading m.role ++ lit "\n\n" ++ codeFenceFor m.text ++ lit "text\n" ++
    (lit "\n" ++ codeFenceFor m.text ++ lit "\n")) + byteLength m.text

def projectedRepresentationUtf8Bytes (projection : OperationalTranscriptProjection) : ℕ :=
  max (projection.messages.zipIdx.foldl (fun bytes m => bytes + jsonPartBytes m) (byteLength (jsonOpening ++ jsonClosing)))
    (projection.messages.foldl (fun bytes m => bytes + markdownPartBytes m) (byteLength markdownOpening))

/-! ## The parts in bytes -/

theorem ascii_of_all {s : Text} (h : s.all (fun c => decide (c.val < 0x80)) = true) : Ascii s :=
  fun c hc => of_decide_eq_true (List.all_eq_true.1 h c hc)

theorem ascii_jsonOpening : Ascii jsonOpening := ascii_of_all (by decide +kernel)

theorem ascii_messageOpening : ∀ role, Ascii (messageOpening role)
  | .user => ascii_of_all rfl
  | .assistant => ascii_of_all rfl

theorem ascii_markdownOpening : Ascii markdownOpening := ascii_of_all (by decide +kernel)

theorem ascii_codeFenceFor (text : Text) : Ascii (codeFenceFor text) := by
  intro c hc
  rw [List.eq_of_mem_replicate hc]
  decide

theorem ascii_heading : ∀ role, Ascii (heading role)
  | .user => ascii_of_all rfl
  | .assistant => ascii_of_all rfl

theorem ascii_fenceOpening (m : OperationalTranscriptMessage) :
    Ascii (lit "\n" ++ heading m.role ++ lit "\n\n" ++ codeFenceFor m.text ++ lit "text\n") := by
  have hnewline : Ascii (lit "\n") := ascii_of_all rfl
  have hblank : Ascii (lit "\n\n") := ascii_of_all rfl
  have hinfo : Ascii (lit "text\n") := ascii_of_all rfl
  exact (((hnewline.append (ascii_heading m.role)).append hblank).append (ascii_codeFenceFor m.text)).append hinfo

theorem ascii_fenceClosing (text : Text) : Ascii (lit "\n" ++ codeFenceFor text ++ lit "\n") :=
  ((ascii_of_all rfl).append (ascii_codeFenceFor text)).append (ascii_of_all rfl)

theorem byteLength_quoteUnit (c : CodeUnit) (r : Text) :
    byteLength (quoteUnit c ++ r) = jsonEscapedUnitBytes c + byteLength r := by
  have hascii : ∀ {a : Text}, Ascii a → byteLength (a ++ r) = a.length + byteLength r := fun h => by
    rw [Utf8.byteLength_append (h.apart_left r), h.byteLength]
  by_cases hshort : c = 0x22 ∨ c = 0x5c ∨ c = 0x08 ∨ c = 0x09 ∨ c = 0x0a ∨ c = 0x0c ∨ c = 0x0d
  · rw [jsonEscapedUnitBytes, if_pos hshort]
    rcases hshort with rfl | rfl | rfl | rfl | rfl | rfl | rfl <;> exact hascii (ascii_of_all (by decide))
  · have hquote : quoteUnit c = if c.val < 32 || isLead c || isTrail c then Json.unicodeEscape c else [c] := by
      simp only [not_or] at hshort
      obtain ⟨h1, h2, h3, h4, h5, h6, h7⟩ := hshort
      rw [quoteUnit, if_neg h1, if_neg h2, if_neg h3, if_neg h6, if_neg h5, if_neg h7, if_neg h4]
    rw [hquote, jsonEscapedUnitBytes, if_neg hshort]
    by_cases hcontrol : c.val < 32
    · rw [if_pos (by simp [hcontrol]), hascii (ascii_unicodeEscape c), if_pos (by omega)]
      rfl
    rw [if_neg (show ¬c.val ≤ 0x1f by omega)]
    by_cases hlead : isLead c = true
    · rw [if_pos (by simp [hlead]), hascii (ascii_unicodeEscape c), if_pos hlead]
      rfl
    rw [if_neg hlead]
    by_cases htrail : isTrail c = true
    · rw [if_pos (by simp [htrail]), hascii (ascii_unicodeEscape c), if_pos htrail]
      rfl
    rw [if_neg htrail, if_neg (by simp [hcontrol, hlead, htrail])]
    have hpoint : Utf8.point c = c.val := by simp [Utf8.point, hlead, htrail]
    have hbound := c.isLt
    rw [List.singleton_append, Utf8.byteLength_unit c r (Bool.eq_false_iff.2 hlead), hpoint, Utf8.encodePoint]
    by_cases hone : c.val < 0x80
    · rw [if_pos hone, if_pos (by omega)]
      rfl
    by_cases htwo : c.val < 0x800
    · rw [if_neg hone, if_pos htwo, if_neg (by omega), if_pos (by omega)]
      rfl
    · rw [if_neg hone, if_neg htwo, if_pos hbound, if_neg (by omega), if_neg (by omega)]
      rfl

/-- **The content of a string in bytes**, as it is quoted. -/
theorem byteLength_quoteUnits : ∀ s : Text, byteLength (quoteUnits s) = jsonEscapedContentUtf8Bytes s
  | [] => rfl
  | [c] => by
    have hunit := byteLength_quoteUnit c []
    rw [List.append_nil] at hunit
    exact hunit
  | c :: d :: r => by
    rw [quoteUnits, jsonEscapedContentUtf8Bytes]
    split
    · rename_i hpair
      rw [Utf8.byteLength_pair hpair, byteLength_quoteUnits r]
    · rw [byteLength_quoteUnit, byteLength_quoteUnits (d :: r)]

theorem byteLength_between {a b : Text} (ha : Ascii a) (hb : Ascii b) (hne : b ≠ []) (s r : Text) :
    byteLength (a ++ s ++ b ++ r) = byteLength (a ++ b) + byteLength s + byteLength r := by
  rw [List.append_assoc, List.append_assoc, Utf8.byteLength_append (ha.apart_left _),
    Utf8.byteLength_append (hb.apart_append hne s r), Utf8.byteLength_append (hb.apart_left r),
    Utf8.byteLength_append (ha.apart_left b)]
  omega

theorem byteLength_jsonPart (m : OperationalTranscriptMessage × ℕ) (r : Text) :
    byteLength (jsonPart m ++ r) = jsonPartBytes m + byteLength r := by
  obtain ⟨⟨role, text⟩, index⟩ := m
  have hquotation : Ascii (lit "\"") := ascii_of_all rfl
  have hclosing : Ascii (lit "\x7d") := ascii_of_all rfl
  have hempty : Ascii (lit "\"\"") := hquotation.append hquotation
  have hopening := ascii_messageOpening role
  have hcomma : Ascii (if index > 0 then lit "," else []) := by
    split
    · exact ascii_of_all rfl
    · exact ascii_of_all rfl
  have hsplit : jsonPart (⟨role, text⟩, index) = ((if index > 0 then lit "," else []) ++ messageOpening role ++ lit "\"") ++
      quoteUnits text ++ (lit "\"" ++ lit "\x7d") := by
    have hquote : quote text = lit "\"" ++ quoteUnits text ++ lit "\"" := rfl
    simp only [jsonPart, hquote, List.append_assoc]
  have hframe : byteLength (((if index > 0 then lit "," else []) ++ messageOpening role ++ lit "\"") ++ (lit "\"" ++ lit "\x7d")) =
      (if index > 0 then 1 else 0) + byteLength (messageOpening role ++ lit "\"\"" ++ lit "\x7d") := by
    rw [(((hcomma.append hopening).append hquotation).append (hquotation.append hclosing)).byteLength,
      ((hopening.append hempty).append hclosing).byteLength]
    have hone : (lit "\"").length = 1 := rfl
    have htwo : (lit "\"\"").length = 2 := rfl
    have hfirst : (if index > 0 then lit "," else []).length = if index > 0 then 1 else 0 := by
      split
      · rfl
      · rfl
    simp only [List.length_append, hone, htwo, hfirst]
    omega
  have hne : lit "\"" ++ lit "\x7d" ≠ [] := List.cons_ne_nil _ _
  rw [hsplit, byteLength_between ((hcomma.append hopening).append hquotation) (hquotation.append hclosing) hne,
    byteLength_quoteUnits, hframe]
  rfl

theorem byteLength_markdownPart (m : OperationalTranscriptMessage) (r : Text) :
    byteLength (markdownPart m ++ r) = markdownPartBytes m + byteLength r := by
  have hne : lit "\n" ++ codeFenceFor m.text ++ lit "\n" ≠ [] := List.cons_ne_nil _ _
  unfold markdownPart markdownPartBytes
  rw [byteLength_between (ascii_fenceOpening m) (ascii_fenceClosing m.text) hne]

theorem byteLength_parts {α : Type} {part : α → Text} {size : α → ℕ}
    (h : ∀ m r, byteLength (part m ++ r) = size m + byteLength r) : ∀ (l : List α) (bytes : ℕ) (r : Text),
      bytes + byteLength (l.flatMap part ++ r) = l.foldl (fun bytes m => bytes + size m) (bytes + byteLength r)
  | [], _, _ => rfl
  | m :: l, bytes, r => by
    have hrest := byteLength_parts h l (bytes + size m) r
    rw [List.flatMap_cons, List.append_assoc, h, List.foldl_cons, ← Nat.add_assoc, hrest, Nat.add_right_comm]

/-- **The size is that of the larger representation.** -/
theorem projectedRepresentationUtf8Bytes_eq (projection : OperationalTranscriptProjection) :
    projectedRepresentationUtf8Bytes projection =
      max (byteLength (canonicalOperationalTranscriptJson projection)) (byteLength (operationalTranscriptMarkdown projection)) := by
  have hjson : byteLength (canonicalOperationalTranscriptJson projection) =
      projection.messages.zipIdx.foldl (fun bytes m => bytes + jsonPartBytes m) (byteLength (jsonOpening ++ jsonClosing)) := by
    rw [canonicalOperationalTranscriptJson, List.append_assoc, Utf8.byteLength_append (ascii_jsonOpening.apart_left _),
      byteLength_parts byteLength_jsonPart, Utf8.byteLength_append (ascii_jsonOpening.apart_left _)]
  have hmarkdown : byteLength (operationalTranscriptMarkdown projection) =
      projection.messages.foldl (fun bytes m => bytes + markdownPartBytes m) (byteLength markdownOpening) := by
    have hparts := byteLength_parts byteLength_markdownPart projection.messages (byteLength markdownOpening) []
    have hnil : byteLength [] = 0 := rfl
    rw [List.append_nil, hnil, Nat.add_zero] at hparts
    rw [operationalTranscriptMarkdown, Utf8.byteLength_append (ascii_markdownOpening.apart_left _), hparts]
  rw [hjson, hmarkdown]
  rfl

/-! ## The JSON is that of the projection -/

def messageValue (m : OperationalTranscriptMessage) : Json.Value :=
  .object [(lit "role", some (.string (roleText m.role))), (lit "text", some (.string m.text))]

theorem version_digit : 1 < 10 := by decide

def version : Json.Number := Json.Number.make false [⟨1, version_digit⟩] 1

def OperationalTranscriptProjection.value (projection : OperationalTranscriptProjection) : Json.Value := .object [
  (lit "schemaVersion", some (.number version)),
  (lit "source", some (.string (lit "control-plane-cache"))),
  (lit "completeness", some (.string (lit "possibly-partial"))),
  (lit "messages", some (.array (projection.messages.map messageValue)))]

theorem stringify_messageValue (m : OperationalTranscriptMessage) :
    Json.stringify (messageValue m) = messageOpening m.role ++ quote m.text ++ lit "\x7d" := by
  obtain ⟨role, text⟩ := m
  cases role with
  | user => rfl
  | assistant => rfl

theorem jsonParts_behind : ∀ (l : List OperationalTranscriptMessage) (n : ℕ),
    (l.zipIdx (n + 1)).flatMap jsonPart = l.flatMap (fun m => 44 :: Json.stringify (messageValue m))
  | [], _ => rfl
  | m :: l, n => by
    rw [List.zipIdx_cons, List.flatMap_cons, List.flatMap_cons, jsonParts_behind l (n + 1), stringify_messageValue]
    rfl

theorem commas_cons : ∀ (t : Text) (l : List Text), Json.commas (t :: l) = t ++ l.flatMap (fun u => 44 :: u)
  | t, [] => by simp [Json.commas]
  | t, u :: l => by
    rw [Json.commas, commas_cons u l, List.flatMap_cons]
    rfl

theorem jsonParts_eq : ∀ l : List OperationalTranscriptMessage,
    l.zipIdx.flatMap jsonPart = Json.commas (l.map (fun m => Json.stringify (messageValue m)))
  | [] => rfl
  | m :: l => by
    rw [List.zipIdx_cons, List.flatMap_cons, jsonParts_behind l 0, List.map_cons, commas_cons, List.flatMap_map,
      stringify_messageValue]
    rfl

theorem encodeElements_messages : ∀ l : List OperationalTranscriptMessage,
    Json.encodeElements id (l.map messageValue) = l.map (fun m => Json.stringify (messageValue m))
  | [] => rfl
  | m :: l => by
    rw [List.map_cons, Json.encodeElements, encodeElements_messages l]
    rfl

theorem canonicalOperationalTranscriptJson_eq (projection : OperationalTranscriptProjection) :
    canonicalOperationalTranscriptJson projection = Json.stringify projection.value := by
  have hopening : jsonOpening = 123 :: Json.memberText (lit "schemaVersion", version.text) ++
      44 :: (Json.memberText (lit "source", quote (lit "control-plane-cache")) ++
        44 :: (Json.memberText (lit "completeness", quote (lit "possibly-partial")) ++
          44 :: (quote (lit "messages") ++ [58, 91]))) := by decide +kernel
  have hvalue : Json.stringify projection.value =
      123 :: (Json.memberText (lit "schemaVersion", version.text) ++
      44 :: (Json.memberText (lit "source", quote (lit "control-plane-cache")) ++
        44 :: (Json.memberText (lit "completeness", quote (lit "possibly-partial")) ++
          44 :: (quote (lit "messages") ++
            58 :: (91 :: Json.commas (Json.encodeElements id (projection.messages.map messageValue)) ++ [93]))))) ++ [125] := rfl
  rw [canonicalOperationalTranscriptJson, hopening, hvalue, jsonParts_eq, encodeElements_messages]
  have hclosing : jsonClosing = [93, 125] := rfl
  rw [hclosing]
  simp only [List.append_assoc, List.cons_append, List.nil_append]

theorem arrangedElements_messages : ∀ l : List OperationalTranscriptMessage,
    Json.arrangedElements id (l.map messageValue) = l.map messageValue
  | [] => rfl
  | m :: l => by
    rw [List.map_cons, Json.arrangedElements, arrangedElements_messages l]
    rfl

theorem arranged_value (projection : OperationalTranscriptProjection) :
    Json.arranged id projection.value = projection.value := by
  have hunfold : Json.arranged id projection.value = .object [
      (lit "schemaVersion", some (.number version)),
      (lit "source", some (.string (lit "control-plane-cache"))),
      (lit "completeness", some (.string (lit "possibly-partial"))),
      (lit "messages", some (.array (Json.arrangedElements id (projection.messages.map messageValue))))] := rfl
  rw [hunfold, arrangedElements_messages]
  rfl

theorem wfElements_messages {toDouble : Json.Number → Json.Number} : ∀ l : List OperationalTranscriptMessage,
    Json.WfElements toDouble (l.map messageValue)
  | [] => trivial
  | _ :: l => ⟨⟨(by decide : [lit "role", lit "text"].Nodup), trivial, trivial, trivial⟩, wfElements_messages l⟩

theorem wf_value {toDouble : Json.Number → Json.Number}
    (hone : toDouble version = version) (projection : OperationalTranscriptProjection) :
    projection.value.Wf toDouble :=
  ⟨(by decide : [lit "schemaVersion", lit "source", lit "completeness", lit "messages"].Nodup),
    hone, trivial, trivial, wfElements_messages projection.messages, trivial⟩

/-! ## The fence -/

theorem suffix_backticks {n : ℕ} {text : Text} {c : CodeUnit} (h : List.replicate (n + 1) 96 <:+ text ++ [c]) :
    c = 96 ∧ List.replicate n 96 <:+ text := by
  rw [List.replicate_succ', List.suffix_concat_iff] at h
  rcases h with hnil | ⟨t, ht, hsuffix⟩
  · exact absurd hnil (List.append_ne_nil_of_right_ne_nil _ (List.cons_ne_nil _ _))
  · obtain ⟨rfl, hc⟩ := List.append_inj' ht rfl
    exact ⟨(List.cons.inj hc).1.symm, hsuffix⟩

/-- What the count says of a text: the longest run at its end, and the longest in it. -/
structure Counts (text : Text) (s : ℕ × ℕ) : Prop where
  at_end : ∀ n, List.replicate n 96 <:+ text → n ≤ s.2
  within : ∀ n, List.replicate n 96 <:+: text → n ≤ s.1

theorem Counts.step {text : Text} {s : ℕ × ℕ} (h : Counts text s) (c : CodeUnit) : Counts (text ++ [c]) (countBackticks s c) := by
  have hend : ∀ n, List.replicate n 96 <:+ text ++ [c] → n ≤ (countBackticks s c).2 := fun n hn => by
    cases n with
    | zero => exact Nat.zero_le _
    | succ n =>
      obtain ⟨rfl, hrest⟩ := suffix_backticks hn
      exact Nat.succ_le_succ (h.at_end n hrest)
  have hmono : s.1 ≤ (countBackticks s c).1 := by
    unfold countBackticks
    split
    · show s.1 ≤ if s.2 + 1 > s.1 then s.2 + 1 else s.1
      split
      · omega
      · exact Nat.le_refl _
    · exact Nat.le_refl _
  have hrun : (countBackticks s c).2 ≤ (countBackticks s c).1 := by
    unfold countBackticks
    split
    · show s.2 + 1 ≤ if s.2 + 1 > s.1 then s.2 + 1 else s.1
      split
      · exact Nat.le_refl _
      · omega
    · exact Nat.zero_le _
  refine ⟨hend, fun n hn => ?_⟩
  rcases List.infix_concat_iff.1 hn with hsuffix | hinfix
  · exact Nat.le_trans (hend n hsuffix) hrun
  · exact Nat.le_trans (h.within n hinfix) hmono

theorem counts (text : Text) : Counts text (text.foldl countBackticks (0, 0)) := by
  induction text using List.reverseRecOn with
  | nil =>
    have hnone : ∀ n, List.replicate n (96 : CodeUnit) <:+: [] → n ≤ 0 := fun n hn => by
      have hlength := hn.length_le
      rw [List.length_replicate] at hlength
      exact hlength
    exact ⟨fun n hn => hnone n hn.isInfix, hnone⟩
  | append_singleton text c ih =>
    rw [List.foldl_append]
    exact ih.step c

/-- A line that closes a fence of backticks: an indent of at most three spaces, a run no shorter, and blanks. -/
def ClosesFence (fence line : Text) : Prop := ∃ indent run blanks, indent ≤ 3 ∧ fence.length ≤ run ∧
  (∀ c ∈ blanks, c = 32 ∨ c = 9) ∧ line = List.replicate indent 32 ++ List.replicate run 96 ++ blanks

/-- **No part of a text closes its fence.** -/
theorem not_closesFence {text line : Text} (h : line <:+: text) : ¬ClosesFence (codeFenceFor text) line := by
  rintro ⟨indent, run, blanks, -, hrun, -, rfl⟩
  have hwithin : List.replicate run 96 <:+: text := by
    have hmiddle : List.replicate run 96 <:+: List.replicate indent 32 ++ List.replicate run 96 ++ blanks :=
      ⟨List.replicate indent 32, blanks, rfl⟩
    exact hmiddle.trans h
  have hle := (counts text).within run hwithin
  rw [codeFenceFor, List.length_replicate] at hrun
  omega

/-! ## Redaction over code units

The rules are those of the redaction over characters; their markers count code units, and a pattern sees each of them. -/

section

/-- `boundedMarker`; the body is its code units. -/
def boundedMarker (marker body : List Char) : List Char :=
  if marker.length ≤ body.length then marker else List.replicate body.length '*'

def bounded (marker : List Char) (r : Rule) : Rule := { r with marker := boundedMarker marker }

-- the form in which two characters are compared without case
variable (canonicalize : Char → Char)

def rootRules (sensitivePathPrefixes : List Text) : List Rule :=
  (sensitivePathPrefixes.insertionSort (fun a b => b.length ≤ a.length)).filterMap
    (fun root => configuredPathPattern canonicalize (root.map Replace.unitChar))

/-- The replacements of `redactOperationalTranscriptText`, in their order. -/
def redactionRules (sensitivePathPrefixes : List Text) : List Rule :=
  secretRules.map (bounded SECRET) ++ (rootRules canonicalize sensitivePathPrefixes).map (bounded PATH) ++ pathRules.map (bounded PATH)

def redactOperationalTranscriptText (input : Text) (sensitivePathPrefixes : List Text) : Text :=
  (redactionRules canonicalize sensitivePathPrefixes).foldl (fun text r => replace r text) input

theorem bounded_bounded (marker : List Char) (r : Rule) : (bounded marker r).Bounded := by
  intro body
  show (boundedMarker marker body).length ≤ body.length
  unfold boundedMarker
  split
  · assumption
  · exact Nat.le_of_eq List.length_replicate

theorem length_redactOperationalTranscriptText_le (input : Text) (sensitivePathPrefixes : List Text) :
    (redactOperationalTranscriptText canonicalize input sensitivePathPrefixes).length ≤ input.length := by
  refine Replace.length_foldl_replace_le (fun r hr => ?_) input
  rcases List.mem_append.1 hr with hr | hr
  · rcases List.mem_append.1 hr with hr | hr
    · obtain ⟨q, -, rfl⟩ := List.mem_map.1 hr
      exact bounded_bounded SECRET q
    · obtain ⟨q, -, rfl⟩ := List.mem_map.1 hr
      exact bounded_bounded PATH q
  · obtain ⟨q, -, rfl⟩ := List.mem_map.1 hr
    exact bounded_bounded PATH q

end

/-- **The size of a share is exact, its JSON gives the projection back, and its Markdown is unbreakable**; a redacted text is no
longer than the text was. -/
theorem share_size_exact (toDouble : Json.Number → Json.Number) (canonicalize : Char → Char)
    (hone : toDouble version = version) (projection : OperationalTranscriptProjection) :
    projectedRepresentationUtf8Bytes projection =
      max (byteLength (canonicalOperationalTranscriptJson projection)) (byteLength (operationalTranscriptMarkdown projection)) ∧
    Json.parse toDouble (canonicalOperationalTranscriptJson projection) = some projection.value ∧
    (∀ m ∈ projection.messages, ∀ line, line <:+: m.text → ¬ClosesFence (codeFenceFor m.text) line) ∧
    ∀ input sensitivePathPrefixes,
      (redactOperationalTranscriptText canonicalize input sensitivePathPrefixes).length ≤ input.length := by
  refine ⟨projectedRepresentationUtf8Bytes_eq projection, ?_, fun m _ line hline => not_closesFence hline,
    length_redactOperationalTranscriptText_le canonicalize⟩
  rw [canonicalOperationalTranscriptJson_eq, Json.parse_stringify toDouble (wf_value hone projection), arranged_value]

/-- Backticks at the start of a line, a quotation mark, and a half of a pair by itself. -/
def brokenText : OperationalTranscriptProjection := ⟨[⟨.user, [96, 96, 96, 10, 34, 0xD83D]⟩, ⟨.assistant, [0xD83D, 0xDE00]⟩]⟩

theorem share_size_brokenText : projectedRepresentationUtf8Bytes brokenText =
    max (byteLength (canonicalOperationalTranscriptJson brokenText)) (byteLength (operationalTranscriptMarkdown brokenText)) :=
  (share_size_exact id id rfl brokenText).1

end Wollipog.Share.Rendering
