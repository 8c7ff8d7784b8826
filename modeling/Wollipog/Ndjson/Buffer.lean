import Wollipog.Lib.Utf8
/-!
# Buffer — newline-delimited text framed as it comes, holding at most `maxLineBytes`

A record that grows past the maximum is dropped through its newline. `Framed` ties the buffer and what was reported to
the text so far, whichever chunks it came in.
-/
namespace Wollipog.Ndjson

open Json (Text CodeUnit isLead isTrail)
open Utf8 (byteLength Apart)

def AGENT_NDJSON_MAX_LINE_BYTES : ℤ := 64 * 1024 * 1024

def MAX_SAFE_INTEGER : ℤ := 9007199254740991

/-- `\n` -/
def newline : CodeUnit := 10

/-- What `onLine` and `onOverflow` are called with. -/
inductive Report
  | line (text : Text)
  | overflow
  deriving DecidableEq

structure BoundedNdjsonBuffer where
  maxLineBytes : ℕ
  buffer : Text
  bufferBytes : ℕ
  discarding : Bool

/-- The constructor, which throws a `RangeError` for anything but a positive safe integer. -/
def create (maxLineBytes : ℤ) : Option BoundedNdjsonBuffer :=
  if maxLineBytes < 1 ∨ MAX_SAFE_INTEGER < maxLineBytes then none else some ⟨maxLineBytes.toNat, [], 0, false⟩

namespace BoundedNdjsonBuffer

def reset (b : BoundedNdjsonBuffer) : BoundedNdjsonBuffer := { b with buffer := [], bufferBytes := 0, discarding := false }

def take (b : BoundedNdjsonBuffer) (segment : Text) : BoundedNdjsonBuffer × List Report :=
  if b.discarding then (b, [])
  else if (byteLength segment : ℤ) > (b.maxLineBytes : ℤ) - b.bufferBytes then
    ({ b with buffer := [], bufferBytes := 0, discarding := true }, [.overflow])
  else ({ b with buffer := b.buffer ++ segment, bufferBytes := b.bufferBytes + byteLength segment }, [])

def ended (b : BoundedNdjsonBuffer) : List Report := if b.discarding then [] else [.line b.buffer]

/-- The loop of `push`, over what is left of the chunk. -/
def push (b : BoundedNdjsonBuffer) (chunk : Text) : BoundedNdjsonBuffer × List Report :=
  if chunk = [] then (b, [])
  else
    let taken := b.take (chunk.takeWhile (· != newline))
    match _hrest : chunk.dropWhile (· != newline) with
    | [] => taken
    | _ :: rest =>
      let pushed := taken.1.reset.push rest
      (pushed.1, taken.2 ++ taken.1.ended ++ pushed.2)
termination_by chunk.length
decreasing_by
  have hle := (List.dropWhile_suffix (· != newline) (l := chunk)).length_le
  rw [_hrest, List.length_cons] at hle
  omega

def pushAll (b : BoundedNdjsonBuffer) : List Text → BoundedNdjsonBuffer × List Report
  | [] => (b, [])
  | chunk :: chunks =>
    let pushed := b.push chunk
    let rest := pushed.1.pushAll chunks
    (rest.1, pushed.2 ++ rest.2)

def takeTrailing (b : BoundedNdjsonBuffer) : Text × BoundedNdjsonBuffer := (if b.discarding then [] else b.buffer, b.reset)

end BoundedNdjsonBuffer

open BoundedNdjsonBuffer

def report (max : ℕ) (record : Text) : Report := if max < byteLength record then .overflow else .line record

def unfinished (max : ℕ) (record : Text) : List Report := if max < byteLength record then [.overflow] else []

def trailing (max : ℕ) (record : Text) : Text := if max < byteLength record then [] else record

def holding (max : ℕ) (record : Text) : BoundedNdjsonBuffer :=
  if max < byteLength record then ⟨max, [], 0, true⟩ else ⟨max, record, byteLength record, false⟩

def Unsplit (chunks : List Text) : Prop := ∀ before after, chunks = before ++ after → Apart before.flatten after.flatten

/-- **What is held and was reported over a text**: its finished records, and its last one. -/
def Framed (max : ℕ) (text : Text) (b : BoundedNdjsonBuffer) (reports : List Report) : Prop :=
  ∃ records last, text.splitOn newline = records ++ [last] ∧ last <:+ text ∧
    reports = records.map (report max) ++ unfinished max last ∧ b = holding max last

section

variable {max : ℕ}

theorem splitOn_append_segment {α : Type*} [BEq α] [LawfulBEq α] {a : α} {segment : List α} (h : a ∉ segment) :
    ∀ {s : List α} {parts : List (List α)} {last : List α}, s.splitOn a = parts ++ [last] →
      (s ++ segment).splitOn a = parts ++ [last ++ segment]
  | [], parts, last, hs => by
    rw [List.splitOn_nil] at hs
    obtain ⟨rfl, hlast⟩ := @List.append_inj' _ [] _ _ _ hs rfl
    obtain rfl : [] = last := (List.cons.inj hlast).1
    exact List.splitOn_eq_singleton h
  | x :: s, parts, last, hs => by
    obtain ⟨init, tail, htail⟩ : ∃ init tail, s.splitOn a = init ++ [tail] :=
      ⟨_, _, (List.dropLast_append_getLast (List.splitOn_ne_nil a s)).symm⟩
    have hrest := splitOn_append_segment h htail
    rw [List.cons_append, List.splitOn_cons_eq_if_modifyHead, hrest]
    rw [List.splitOn_cons_eq_if_modifyHead, htail] at hs
    split
    · rename_i hx
      rw [if_pos hx, ← List.cons_append] at hs
      obtain ⟨rfl, hlast⟩ := List.append_inj' hs rfl
      obtain rfl : tail = last := (List.cons.inj hlast).1
      rfl
    · rename_i hx
      rw [if_neg hx] at hs
      cases init with
      | nil =>
        obtain ⟨rfl, hlast⟩ := @List.append_inj' _ [] _ _ _ hs rfl
        obtain rfl : x :: tail = last := (List.cons.inj hlast).1
        rfl
      | cons part init =>
        obtain ⟨rfl, hlast⟩ := @List.append_inj' _ ((x :: part) :: init) _ _ _ hs rfl
        obtain rfl : tail = last := (List.cons.inj hlast).1
        rfl

theorem apart_suffix {last text segment : Text} (h : last <:+ text) (hapart : Apart text segment) : Apart last segment := by
  obtain ⟨before, rfl⟩ := h
  intro x hx y hy
  refine hapart x ?_ y hy
  rw [List.getLast?_append_of_ne_nil _ (List.ne_nil_of_mem (List.mem_of_getLast? hx))]
  exact hx

theorem framed_nil : Framed max [] ⟨max, [], 0, false⟩ [] :=
  ⟨[], [], rfl, List.suffix_refl _, by simp [unfinished, Utf8.byteLength, Utf8.encode, Utf8.points], by
    simp [holding, Utf8.byteLength, Utf8.encode, Utf8.points]⟩

theorem take_holding {last segment : Text} (hapart : Apart last segment) :
    ((holding max last).take segment).1 = holding max (last ++ segment) ∧
      unfinished max last ++ ((holding max last).take segment).2 = unfinished max (last ++ segment) := by
  have hsum := Utf8.byteLength_append hapart
  by_cases hlong : max < byteLength last
  · have hlonger : max < byteLength (last ++ segment) := by omega
    rw [holding, if_pos hlong, holding, if_pos hlonger, unfinished, if_pos hlong, unfinished, if_pos hlonger]
    exact ⟨rfl, rfl⟩
  rw [holding, if_neg hlong, unfinished, if_neg hlong, List.nil_append, BoundedNdjsonBuffer.take, if_neg Bool.false_ne_true]
  dsimp only
  by_cases hover : max < byteLength (last ++ segment)
  · have hguard : (byteLength segment : ℤ) > (max : ℤ) - byteLength last := by omega
    rw [if_pos hguard, holding, if_pos hover, unfinished, if_pos hover]
    exact ⟨rfl, rfl⟩
  · have hguard : ¬(byteLength segment : ℤ) > (max : ℤ) - byteLength last := by omega
    rw [if_neg hguard, holding, if_neg hover, unfinished, if_neg hover, hsum]
    exact ⟨rfl, rfl⟩

theorem Framed.take {text segment : Text} {b : BoundedNdjsonBuffer} {reports : List Report} (h : Framed max text b reports)
    (hapart : Apart text segment) (hsegment : newline ∉ segment) :
    Framed max (text ++ segment) (b.take segment).1 (reports ++ (b.take segment).2) := by
  obtain ⟨records, last, hsplit, hsuffix, rfl, rfl⟩ := h
  obtain ⟨hheld, hreports⟩ := @take_holding max _ _ (apart_suffix hsuffix hapart)
  obtain ⟨before, rfl⟩ := hsuffix
  refine ⟨records, last ++ segment, splitOn_append_segment hsegment hsplit, ⟨before, (List.append_assoc ..).symm⟩, ?_, hheld⟩
  rw [List.append_assoc, hreports]

theorem unfinished_ended (last : Text) : unfinished max last ++ (holding max last).ended = [report max last] := by
  unfold unfinished holding ended report
  by_cases hlong : max < byteLength last
  · simp [hlong]
  · simp [hlong]

theorem Framed.newline {text : Text} {b : BoundedNdjsonBuffer} {reports : List Report} (h : Framed max text b reports) :
    Framed max (text ++ [newline]) b.reset (reports ++ b.ended) := by
  obtain ⟨records, last, hsplit, -, rfl, rfl⟩ := h
  have hempty : unfinished max [] = [] := by simp [unfinished, Utf8.byteLength, Utf8.encode, Utf8.points]
  refine ⟨records ++ [last], [], ?_, List.nil_suffix, ?_, ?_⟩
  · rw [List.splitOn_append_cons_self, hsplit, List.splitOn_nil]
  · rw [List.append_assoc, unfinished_ended, hempty, List.append_nil, List.map_append, List.map_singleton]
  · have hnone : ¬max < byteLength [] := Nat.not_lt_zero max
    rw [show holding max [] = ⟨max, [], 0, false⟩ from if_neg hnone]
    unfold holding reset
    split
    · rfl
    · rfl

theorem newline_notMem_segment (chunk : Text) : Ndjson.newline ∉ chunk.takeWhile (· != Ndjson.newline) := by
  intro hmem
  have hne := List.mem_takeWhile_imp hmem
  rw [bne_self_eq_false] at hne
  cases hne

/-- **One chunk**: what was framed of a text is framed of the text with the chunk. -/
theorem Framed.push {text : Text} {b : BoundedNdjsonBuffer} {reports : List Report} (h : Framed max text b reports)
    {chunk : Text} (hapart : Apart text chunk) : Framed max (text ++ chunk) (b.push chunk).1 (reports ++ (b.push chunk).2) := by
  have hchunk := List.takeWhile_append_dropWhile (p := (· != Ndjson.newline)) (l := chunk)
  have hsegment := newline_notMem_segment chunk
  by_cases hempty : chunk = []
  · subst hempty
    rw [BoundedNdjsonBuffer.push, if_pos rfl, List.append_nil, List.append_nil]
    exact h
  have hhead : Apart text (chunk.takeWhile (· != Ndjson.newline)) := by
    intro x hx y hy
    refine hapart x hx y ?_
    rw [← hchunk, List.head?_append_of_ne_nil _ (List.ne_nil_of_mem (List.mem_of_mem_head? hy))]
    exact hy
  have htaken := h.take hhead hsegment
  rw [BoundedNdjsonBuffer.push, if_neg hempty]
  split
  · rename_i hrest
    rw [hrest, List.append_nil] at hchunk
    rw [hchunk] at htaken ⊢
    exact htaken
  · rename_i unit rest hrest
    obtain rfl : unit = Ndjson.newline := by
      have hstop := List.head?_dropWhile_not (· != Ndjson.newline) chunk
      rw [hrest] at hstop
      simpa using hstop
    have hlt : rest.length < chunk.length := by
      have hle := (List.dropWhile_suffix (· != Ndjson.newline) (l := chunk)).length_le
      rw [hrest, List.length_cons] at hle
      omega
    have hfresh : Apart (text ++ chunk.takeWhile (· != Ndjson.newline) ++ [Ndjson.newline]) rest := by
      intro x hx y _
      rw [List.getLast?_concat] at hx
      cases hx
      rfl
    have hpushed := (htaken.newline).push hfresh
    rw [hrest] at hchunk
    rw [List.append_assoc, List.append_assoc, List.singleton_append, hchunk] at hpushed
    dsimp only
    rw [← List.append_assoc, ← List.append_assoc]
    exact hpushed
termination_by chunk.length

theorem Framed.pushAll : ∀ {chunks : List Text} {text : Text} {b : BoundedNdjsonBuffer} {reports : List Report},
    Framed max text b reports → Unsplit (text :: chunks) →
      Framed max (text ++ chunks.flatten) (b.pushAll chunks).1 (reports ++ (b.pushAll chunks).2)
  | [], text, b, reports, h, _ => by
    rw [List.flatten_nil, List.append_nil]
    show Framed max text b (reports ++ [])
    rw [List.append_nil]
    exact h
  | chunk :: chunks, text, b, reports, h, hunsplit => by
    have hapart : Apart text chunk := by
      have hwhole := hunsplit [text] (chunk :: chunks) rfl
      rw [List.flatten_singleton, List.flatten_cons] at hwhole
      intro x hx y hy
      refine hwhole x hx y ?_
      rw [List.head?_append_of_ne_nil _ (List.ne_nil_of_mem (List.mem_of_mem_head? hy))]
      exact hy
    have hnext : Unsplit ((text ++ chunk) :: chunks) := by
      intro before after hsplit
      cases before with
      | nil => exact fun x hx => by cases hx
      | cons first before =>
        cases hsplit
        have hwhole := hunsplit (text :: chunk :: before) after rfl
        rw [List.flatten_cons, List.flatten_cons] at hwhole
        rw [List.flatten_cons, List.append_assoc]
        exact hwhole
    have hall := (h.push hapart).pushAll hnext
    rw [List.flatten_cons, ← List.append_assoc]
    show Framed max _ _ (reports ++ ((b.push chunk).2 ++ ((b.push chunk).1.pushAll chunks).2))
    rw [← List.append_assoc]
    exact hall

theorem Unsplit.of_prefix {seen chunks : List Text} (h : Unsplit chunks) (hseen : seen <+: chunks) : Unsplit seen := by
  obtain ⟨rest, rfl⟩ := hseen
  intro before after hsplit
  have hwhole := h before (after ++ rest) (by rw [hsplit, List.append_assoc])
  rw [List.flatten_append] at hwhole
  intro x hx y hy
  refine hwhole x hx y ?_
  rw [List.head?_append_of_ne_nil _ (List.ne_nil_of_mem (List.mem_of_mem_head? hy))]
  exact hy

theorem framed_pushAll {maxLineBytes : ℤ} {b : BoundedNdjsonBuffer} (hb : create maxLineBytes = some b) {chunks : List Text}
    (h : Unsplit chunks) :
    Framed maxLineBytes.toNat chunks.flatten (b.pushAll chunks).1 (b.pushAll chunks).2 := by
  unfold create at hb
  split at hb
  · cases hb
  cases hb
  have hfirst : Unsplit ([] :: chunks) := by
    intro before after hsplit
    cases before with
    | nil => exact fun x hx => by cases hx
    | cons first before =>
      cases hsplit
      exact h before after rfl
  exact (@framed_nil maxLineBytes.toNat).pushAll hfirst

theorem unsplit_of_isLead {chunks : List Text} (h : chunks.flatten.all (fun c => !isLead c) = true) : Unsplit chunks := by
  rintro before after rfl
  refine Utf8.apart_of_isLead (fun c hc => ?_) _
  rw [List.flatten_append, List.all_append, Bool.and_eq_true, List.all_eq_true] at h
  simpa using h.1 c hc

theorem byteLength_holding (last : Text) : byteLength (holding max last).buffer ≤ max := by
  unfold holding
  split
  · exact Nat.zero_le max
  · rename_i hfits
    exact Nat.not_lt.1 hfits

/-- **The framing does not depend on the chunks**: the reports are those of the whole text, and no more than the maximum is
held. -/
theorem framing_chunks {maxLineBytes : ℤ} {b : BoundedNdjsonBuffer} (hb : create maxLineBytes = some b) {chunks : List Text}
    (h : Unsplit chunks) :
    (∃ records last, chunks.flatten.splitOn newline = records ++ [last] ∧
      (b.pushAll chunks).2 = records.map (report maxLineBytes.toNat) ++ unfinished maxLineBytes.toNat last ∧
      (b.pushAll chunks).1.takeTrailing = (trailing maxLineBytes.toNat last, b)) ∧
    ∀ seen, seen <+: chunks → byteLength (b.pushAll seen).1.buffer ≤ maxLineBytes.toNat := by
  refine ⟨?_, fun seen hseen => ?_⟩
  · obtain ⟨records, last, hsplit, -, hreports, hheld⟩ := framed_pushAll hb h
    refine ⟨records, last, hsplit, hreports, ?_⟩
    unfold create at hb
    split at hb
    · cases hb
    obtain rfl := Option.some.inj hb
    rw [hheld]
    unfold holding takeTrailing trailing
    split
    · rfl
    · rfl
  · obtain ⟨-, last, -, -, -, hheld⟩ := framed_pushAll hb (h.of_prefix hseen)
    rw [hheld]
    exact byteLength_holding last

theorem framing_chunks_four :
    ((BoundedNdjsonBuffer.mk 4 [] 0 false).pushAll [[97, 98, 10, 99], [100, 101, 102, 103], [10, 120]]).2 =
      [.line [97, 98], .overflow] := by
  have hcreate : create 4 = some ⟨4, [], 0, false⟩ := if_neg (by decide)
  have hunsplit : Unsplit [[97, 98, 10, 99], [100, 101, 102, 103], [10, 120]] := unsplit_of_isLead (by decide)
  obtain ⟨⟨records, last, hsplit, hreports, -⟩, -⟩ := framing_chunks hcreate hunsplit
  have hparts : [[97, 98, 10, 99], [100, 101, 102, 103], [10, 120]].flatten.splitOn newline =
      [[97, 98], [99, 100, 101, 102, 103]] ++ [[120]] := by decide
  rw [hparts] at hsplit
  obtain ⟨rfl, hlast⟩ := List.append_inj' hsplit rfl
  obtain rfl := (List.cons.inj hlast).1
  exact hreports

end

end Wollipog.Ndjson
