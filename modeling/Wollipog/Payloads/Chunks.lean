import Wollipog.Lib.Utf8
import Wollipog.Reviews.Contract
/-!
# Chunks — a large event payload cut into artifacts, and the preview that stays in place

The bytes of a text are cut between code points.
-/
namespace Wollipog.Payloads

open Json (Text CodeUnit isLead)
open Utf8 (Scalar encodePoint encode decode byteLength Apart isContinuation)
open Reviews (lit natText)

def EVENT_PAYLOAD_PREVIEW_BYTES : ℕ := 16 * 1024
def EVENT_PAYLOAD_CHUNK_BYTES : ℕ := 8 * 1024 * 1024
def EVENT_PAYLOAD_MAX_BYTES : ℕ := EVENT_PAYLOAD_CHUNK_BYTES * 4

inductive Failure
  | noField
  | fitsInline
  | range
  | boundary
  | preview
  | notStaged
  | released
  | mismatch
  | storage
deriving DecidableEq

/-! ## Cuts -/

def stepBack (bytes : List ℕ) : ℕ → ℕ
  | 0 => 0
  | n + 1 => if isContinuation (bytes.getD (n + 1) 0) then stepBack bytes n else n + 1

/-- Where the bytes are cut so that at most `maxBytes` stand before the cut. -/
def cut (bytes : List ℕ) (maxBytes : ℕ) : ℕ :=
  let stop := min bytes.length maxBytes
  if stop < bytes.length then stepBack bytes stop else stop

def utf8Prefix (bytes : List ℕ) (maxBytes : ℕ) : Text := decode (bytes.take (cut bytes maxBytes))

def suffixBytes (bytes : List ℕ) (maxBytes : ℕ) : List ℕ := (bytes.drop (bytes.length - maxBytes)).dropWhile isContinuation

def utf8Suffix (bytes : List ℕ) (maxBytes : ℕ) : Text := decode (suffixBytes bytes maxBytes)

def previewMarker (size chunkCount : ℕ) : Text :=
  lit "\n\n… [" ++ natText size ++ lit " UTF-8 bytes externalized in " ++ natText chunkCount ++ lit " artifact chunk" ++
    (if chunkCount = 1 then [] else lit "s") ++ lit "; load full content] …\n\n"

def eventPayloadPreview (bytes : List ℕ) (chunkCount : ℕ) : Except Failure Text :=
  let marker := previewMarker bytes.length chunkCount
  let available := EVENT_PAYLOAD_PREVIEW_BYTES - byteLength marker
  let headBudget := available * 3 / 4
  let tailBudget := available - headBudget
  let preview := utf8Prefix bytes headBudget ++ (marker ++ utf8Suffix bytes tailBudget)
  if byteLength preview > EVENT_PAYLOAD_PREVIEW_BYTES then .error .preview else .ok preview

/-- The chunks of what is left; every one takes a byte, so the fuel is the number of bytes. -/
def splitRest : ℕ → List ℕ → Except Failure (List (List ℕ))
  | _, [] => .ok []
  | 0, _ :: _ => .error .boundary
  | n + 1, b :: bs =>
    let size := cut (b :: bs) EVENT_PAYLOAD_CHUNK_BYTES
    if size = 0 then .error .boundary
    else (splitRest n ((b :: bs).drop size)).map (fun chunks => (b :: bs).take size :: chunks)

def splitEventPayloadBytes (bytes : List ℕ) : Except Failure (List (List ℕ)) :=
  if bytes.length = 0 ∨ bytes.length > EVENT_PAYLOAD_MAX_BYTES then .error .range else splitRest bytes.length bytes

section

variable {bytes : List ℕ}

theorem stepBack_le : ∀ n, stepBack bytes n ≤ n
  | 0 => Nat.le_refl _
  | n + 1 => by
    rw [stepBack]
    split
    · exact Nat.le_succ_of_le (stepBack_le n)
    · exact Nat.le_refl _

theorem stepBack_stops : ∀ n, stepBack bytes n = 0 ∨ isContinuation (bytes.getD (stepBack bytes n) 0) = false
  | 0 => .inl rfl
  | n + 1 => by
    rw [stepBack]
    split
    · exact stepBack_stops n
    · rename_i h
      exact .inr (Bool.eq_false_iff.2 h)

theorem le_stepBack {k : ℕ} (h : isContinuation (bytes.getD k 0) = false) : ∀ n, k ≤ n → k ≤ stepBack bytes n
  | 0, hk => hk
  | n + 1, hk => by
    rw [stepBack]
    split
    · rename_i hcont
      refine le_stepBack h n (Nat.le_of_lt_succ (Nat.lt_of_le_of_ne hk ?_))
      rintro rfl
      rw [h] at hcont
      cases hcont
    · exact hk

theorem cut_eq (bytes : List ℕ) (maxBytes : ℕ) : cut bytes maxBytes =
    if min bytes.length maxBytes < bytes.length then stepBack bytes (min bytes.length maxBytes) else min bytes.length maxBytes := rfl

theorem cut_le (bytes : List ℕ) (maxBytes : ℕ) : cut bytes maxBytes ≤ min bytes.length maxBytes := by
  rw [cut_eq]
  split
  · exact stepBack_le _
  · exact Nat.le_refl _

theorem cut_stops (bytes : List ℕ) (maxBytes : ℕ) :
    cut bytes maxBytes = 0 ∨ ∀ x ∈ (bytes.drop (cut bytes maxBytes)).head?, isContinuation x = false := by
  rw [cut_eq]
  split
  · refine (stepBack_stops _).imp_right (fun h x hx => ?_)
    rw [List.head?_drop] at hx
    rw [List.getD_eq_getElem?_getD, hx] at h
    exact h
  · rename_i h
    refine .inr (fun x hx => ?_)
    rw [List.drop_eq_nil_of_le (Nat.le_of_not_lt h)] at hx
    cases hx

end

/-- **The bytes of a text are cut between code points.** -/
theorem cut_between (ps : List ℕ) (maxBytes : ℕ) : ∃ qs rs, ps = qs ++ rs ∧
    (ps.flatMap encodePoint).take (cut (ps.flatMap encodePoint) maxBytes) = qs.flatMap encodePoint ∧
    (ps.flatMap encodePoint).drop (cut (ps.flatMap encodePoint) maxBytes) = rs.flatMap encodePoint := by
  rcases cut_stops (ps.flatMap encodePoint) maxBytes with hnone | hstops
  · refine ⟨[], ps, rfl, ?_, ?_⟩
    · rw [hnone]
      rfl
    · rw [hnone]
      rfl
  · obtain ⟨qs, rs, hsplit, htake, hdrop⟩ := Utf8.cut_points (List.take_append_drop _ _).symm hstops
    exact ⟨qs, rs, hsplit, htake, hdrop⟩

theorem cut_pos {p : ℕ} (ps : List ℕ) {maxBytes : ℕ} (hmax : 4 ≤ maxBytes) : 0 < cut ((p :: ps).flatMap encodePoint) maxBytes := by
  obtain ⟨b, r, hblock, -, hlong⟩ := Utf8.isContinuation_head p
  have hbytes : (p :: ps).flatMap encodePoint = (b :: r) ++ ps.flatMap encodePoint := by rw [List.flatMap_cons, hblock]
  rw [hbytes, cut_eq]
  split
  · rename_i hstop
    -- the byte behind the first block begins another one
    have hnext : isContinuation (((b :: r) ++ ps.flatMap encodePoint).getD (r.length + 1) 0) = false := by
      rw [List.getD_eq_getElem?_getD, List.getElem?_append_right (by simp)]
      cases ps with
      | nil => simp [isContinuation]
      | cons q ps =>
        obtain ⟨b', r', hblock', hhead, -⟩ := Utf8.isContinuation_head q
        rw [List.flatMap_cons, hblock']
        simpa using hhead
    refine Nat.lt_of_lt_of_le (Nat.succ_pos _) (le_stepBack hnext _ ?_)
    simp only [List.length_append, List.length_cons] at hstop ⊢
    omega
  · simp only [List.length_append, List.length_cons]
    omega

structure Chunked (ps : List ℕ) (chunks : List (List ℕ)) : Prop where
  flatten : chunks.flatten = ps.flatMap encodePoint
  points : ∀ chunk ∈ chunks, ∃ qs, qs <:+: ps ∧ chunk = qs.flatMap encodePoint
  bounded : ∀ chunk ∈ chunks, 0 < chunk.length ∧ chunk.length ≤ EVENT_PAYLOAD_CHUNK_BYTES

theorem splitRest_chunked : ∀ (n : ℕ) (ps : List ℕ), (ps.flatMap encodePoint).length ≤ n →
    ∃ chunks, splitRest n (ps.flatMap encodePoint) = .ok chunks ∧ Chunked ps chunks
  | n, [], _ => by
    refine ⟨[], ?_, ⟨rfl, List.forall_mem_nil _, List.forall_mem_nil _⟩⟩
    cases n with
    | zero => rfl
    | succ n => rfl
  | n, p :: ps, hn => by
    obtain ⟨b, r, hblock, -, -⟩ := Utf8.isContinuation_head p
    have hbytes : (p :: ps).flatMap encodePoint = b :: (r ++ ps.flatMap encodePoint) := by rw [List.flatMap_cons, hblock]; rfl
    cases n with
    | zero =>
      rw [hbytes] at hn
      exact absurd hn (Nat.not_succ_le_zero _)
    | succ n =>
      have hpos := cut_pos (p := p) ps (show 4 ≤ EVENT_PAYLOAD_CHUNK_BYTES by decide)
      have hle := cut_le ((p :: ps).flatMap encodePoint) EVENT_PAYLOAD_CHUNK_BYTES
      obtain ⟨qs, rs, hsplit, htake, hdrop⟩ := cut_between (p :: ps) EVENT_PAYLOAD_CHUNK_BYTES
      obtain ⟨chunks, hrest, hchunked⟩ := splitRest_chunked n rs (by
        rw [← hdrop, List.length_drop]
        omega)
      refine ⟨qs.flatMap encodePoint :: chunks, ?_, ?_⟩
      · rw [hbytes] at hpos htake hdrop ⊢
        rw [splitRest, if_neg (Nat.pos_iff_ne_zero.1 hpos), hdrop, hrest, htake]
        rfl
      · rw [hsplit]
        refine ⟨?_, fun chunk hchunk => ?_, fun chunk hchunk => ?_⟩
        · rw [List.flatten_cons, hchunked.flatten, List.flatMap_append]
        · rcases List.mem_cons.1 hchunk with rfl | hchunk
          · exact ⟨qs, (List.prefix_append qs rs).isInfix, rfl⟩
          · obtain ⟨ts, hts, heq⟩ := hchunked.points chunk hchunk
            exact ⟨ts, hts.trans (List.suffix_append qs rs).isInfix, heq⟩
        · rcases List.mem_cons.1 hchunk with rfl | hchunk
          · rw [← htake, List.length_take]
            omega
          · exact hchunked.bounded chunk hchunk

/-- **The chunks of a text.** -/
theorem splitEventPayloadBytes_chunked (text : Text) (hsome : 0 < byteLength text) (hmax : byteLength text ≤ EVENT_PAYLOAD_MAX_BYTES) :
    ∃ chunks, splitEventPayloadBytes (encode text) = .ok chunks ∧ Chunked (Utf8.points text) chunks := by
  unfold byteLength at hsome hmax
  rw [splitEventPayloadBytes, if_neg (by omega)]
  exact splitRest_chunked _ (Utf8.points text) (Nat.le_refl _)

theorem Chunked.length_le {ps : List ℕ} {chunks : List (List ℕ)} (h : Chunked ps chunks) :
    chunks.length ≤ (ps.flatMap encodePoint).length := by
  have hcount : ∀ l : List (List ℕ), (∀ chunk ∈ l, 0 < chunk.length) → l.length ≤ l.flatten.length := by
    intro l hl
    induction l with
    | nil => exact Nat.le_refl _
    | cons chunk l ih =>
      have hchunk := hl chunk List.mem_cons_self
      have hrest := ih (fun c hc => hl c (List.mem_cons_of_mem _ hc))
      rw [List.flatten_cons, List.length_append, List.length_cons]
      omega
  rw [← h.flatten]
  exact hcount chunks (fun chunk hchunk => (h.bounded chunk hchunk).1)

theorem suffixBytes_between (ps : List ℕ) (maxBytes : ℕ) : ∃ qs rs, ps = qs ++ rs ∧
    suffixBytes (ps.flatMap encodePoint) maxBytes = rs.flatMap encodePoint ∧ (rs.flatMap encodePoint).length ≤ maxBytes := by
  have hsuffix : suffixBytes (ps.flatMap encodePoint) maxBytes <:+ ps.flatMap encodePoint :=
    (List.dropWhile_suffix _).trans (List.drop_suffix _ _)
  obtain ⟨a, ha⟩ := hsuffix
  have hhead : ∀ x ∈ (suffixBytes (ps.flatMap encodePoint) maxBytes).head?, isContinuation x = false := fun x hx => by
    have hnot := List.head?_dropWhile_not isContinuation ((ps.flatMap encodePoint).drop ((ps.flatMap encodePoint).length - maxBytes))
    unfold suffixBytes at hx
    rw [Option.mem_def.1 hx] at hnot
    exact Bool.eq_false_iff.2 (by simpa using hnot)
  obtain ⟨qs, rs, hsplit, -, hrest⟩ := Utf8.cut_points ha.symm hhead
  refine ⟨qs, rs, hsplit, hrest, ?_⟩
  have hlength := (List.dropWhile_suffix (l := (ps.flatMap encodePoint).drop ((ps.flatMap encodePoint).length - maxBytes))
    isContinuation).length_le
  rw [List.length_drop] at hlength
  rw [← hrest]
  unfold suffixBytes
  omega

theorem length_natText_le {n k : ℕ} (hk : 0 < k) (h : n < 10 ^ k) : (natText n).length ≤ k := by
  have hdigits := (Nat.digits_length_le_iff (by decide : 1 < 10) n).2 h
  unfold natText
  split
  · exact hk
  · simpa [Json.digitUnits, Json.natDigits] using hdigits

theorem isLead_natText (n : ℕ) : ∀ c ∈ natText n, isLead c = false := by
  intro c hc
  unfold natText at hc
  split at hc
  · obtain rfl := List.mem_singleton.1 hc
    decide
  · obtain ⟨d, -, rfl⟩ := List.mem_map.1 hc
    refine Utf8.isLead_ascii ?_
    show 48 + d.val < 0x80
    omega

theorem isLead_previewMarker (size chunkCount : ℕ) : ∀ c ∈ previewMarker size chunkCount, isLead c = false := by
  have hall : ∀ {s : Text}, s.all (fun c => !isLead c) = true → ∀ c ∈ s, isLead c = false := fun h c hc => by
    simpa using List.all_eq_true.1 h c hc
  have hplural : ∀ c ∈ (if chunkCount = 1 then [] else lit "s"), isLead c = false := by
    split
    · exact List.forall_mem_nil _
    · exact hall rfl
  intro c hc
  simp only [previewMarker, List.mem_append] at hc
  rcases hc with (((((hc | hc) | hc) | hc) | hc) | hc) | hc
  · exact hall rfl c hc
  · exact isLead_natText size c hc
  · exact hall rfl c hc
  · exact isLead_natText chunkCount c hc
  · exact hall rfl c hc
  · exact hplural c hc
  · exact hall rfl c hc

theorem length_previewMarker_le {size chunkCount : ℕ} (hsize : size < 10 ^ 8) (hcount : chunkCount < 10 ^ 8) :
    (previewMarker size chunkCount).length ≤ 200 := by
  have hplural : (if chunkCount = 1 then [] else lit "s").length ≤ 1 := by
    split
    · exact Nat.zero_le _
    · exact Nat.le_refl _
  have h1 := length_natText_le (by decide) hsize
  have h2 := length_natText_le (by decide) hcount
  have hlengths : (lit "\n\n… [").length + (lit " UTF-8 bytes externalized in ").length + (lit " artifact chunk").length +
      (lit "; load full content] …\n\n").length ≤ 100 := by decide +kernel
  simp only [previewMarker, List.length_append]
  omega

/-- **The preview is within its limit.** -/
theorem eventPayloadPreview_bounded {text : Text} {chunkCount : ℕ} (hmax : byteLength text ≤ EVENT_PAYLOAD_MAX_BYTES)
    (hcount : chunkCount ≤ byteLength text) :
    ∃ preview, eventPayloadPreview (encode text) chunkCount = .ok preview ∧ byteLength preview ≤ EVENT_PAYLOAD_PREVIEW_BYTES := by
  have hbound : EVENT_PAYLOAD_MAX_BYTES < 10 ^ 8 := by decide
  have hshort : (previewMarker (encode text).length chunkCount).length ≤ 200 := length_previewMarker_le
    (Nat.lt_of_le_of_lt hmax hbound) (Nat.lt_of_le_of_lt (Nat.le_trans hcount hmax) hbound)
  have hmarker := Utf8.byteLength_le (previewMarker (encode text).length chunkCount)
  have hpreview : EVENT_PAYLOAD_PREVIEW_BYTES = 16384 := rfl
  generalize hhead : (EVENT_PAYLOAD_PREVIEW_BYTES - byteLength (previewMarker (encode text).length chunkCount)) * 3 / 4 = headBudget
  generalize htail : EVENT_PAYLOAD_PREVIEW_BYTES - byteLength (previewMarker (encode text).length chunkCount) - headBudget = tailBudget
  have hfits : byteLength (utf8Prefix (encode text) headBudget ++
      (previewMarker (encode text).length chunkCount ++ utf8Suffix (encode text) tailBudget)) ≤ EVENT_PAYLOAD_PREVIEW_BYTES := by
    obtain ⟨qs, rs, hsplit, htake, -⟩ := cut_between (Utf8.points text) headBudget
    obtain ⟨qs', rs', hsplit', hsuffix, hlength⟩ := suffixBytes_between (Utf8.points text) tailBudget
    have hscalars := Utf8.scalar_points text
    have hqs : ∀ p ∈ qs, Scalar p := fun p hp => hscalars p (by rw [hsplit]; exact List.mem_append_left _ hp)
    have hrs : ∀ p ∈ rs', Scalar p := fun p hp => hscalars p (by rw [hsplit']; exact List.mem_append_right _ hp)
    have hbegin : utf8Prefix (encode text) headBudget = decode (qs.flatMap encodePoint) := congrArg decode htake
    have hend : utf8Suffix (encode text) tailBudget = decode (rs'.flatMap encodePoint) := congrArg decode hsuffix
    have hqlength : (qs.flatMap encodePoint).length ≤ headBudget := by
      have hle := cut_le ((Utf8.points text).flatMap encodePoint) headBudget
      rw [← htake, List.length_take]
      omega
    have hrlength := Utf8.byteLength_decode hrs []
    have hnil : byteLength [] = 0 := rfl
    rw [List.append_nil, hnil, Nat.add_zero] at hrlength
    rw [hbegin, Utf8.byteLength_decode hqs, Utf8.byteLength_append (Utf8.apart_of_isLead (isLead_previewMarker _ _) _), hend, hrlength]
    omega
  refine ⟨_, ?_, hfits⟩
  subst hhead htail
  rw [eventPayloadPreview, if_neg (Nat.not_lt.2 hfits)]

end Wollipog.Payloads
