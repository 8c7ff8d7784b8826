import Wollipog.Payloads.Chunks
/-!
# HistoryBound — the size bounds of what a runner writes into session history

An oversized turn diff keeps whole file sections behind a summary. An oversized record has its bulky fields shortened
around a note that counts what is left out.
-/
namespace Wollipog.Payloads

open Json (Text Value)
open Utf8 (Scalar encodePoint encode decode byteLength Apart Ascii units)
open Reviews (lit natText)

def TURN_DIFF_MAX_BYTES : ℕ := 4 * 1024 * 1024
def TURN_DIFF_SUMMARY_RESERVE_BYTES : ℕ := 4 * 1024
def HISTORY_FIELD_MIN_BOUND_BYTES : ℕ := 64 * 1024
def HISTORY_FIELD_FIRST_CAP_BYTES : ℕ := 4 * 1024 * 1024

def FILE_HEADER : Text := lit "diff --git "

def grouped : Text → Text
  | a :: b :: c :: d :: r => a :: b :: c :: (lit "," ++ grouped (d :: r))
  | r => r

/-- `toLocaleString("en-US")` of a whole number. -/
def formatBytes (bytes : ℕ) : Text := (grouped (natText bytes).reverse).reverse

def plural (count : ℕ) (noun : Text) : Text := formatBytes count ++ lit " " ++ noun ++ (if count = 1 then [] else lit "s")

def headerStarts (diff : Text) : List ℕ :=
  (if FILE_HEADER.isPrefixOf diff then [0] else []) ++
    ((List.range diff.length).filter (fun place => (lit "\n" ++ FILE_HEADER).isPrefixOf (diff.drop place))).map
      (fun place => place + 1)

def sectionsFrom (diff : Text) : List ℕ → List Text
  | [] => []
  | [start] => [diff.drop start]
  | start :: next :: rest => (diff.drop start).take (next - start) :: sectionsFrom diff (next :: rest)

def fileSections (diff : Text) : List Text :=
  match headerStarts diff with
  | [] => [diff]
  | start :: rest => (if 0 < start then [diff.take start] else []) ++ sectionsFrom diff (start :: rest)

def diffFileCount (diff : Text) : ℕ := ((fileSections diff).filter FILE_HEADER.isPrefixOf).length

structure OversizedDiff where
  bytes : ℕ
  atLeast : Bool
  files : ℕ
  shownFiles : ℕ
  limitBytes : Option ℕ

def oversizedTurnDiffSummary (details : OversizedDiff) : Text :=
  let limit := details.limitBytes.getD TURN_DIFF_MAX_BYTES
  let size := (if details.atLeast then lit "more than " else []) ++ plural details.bytes (lit "byte")
  lit "This turn's worktree diff is too large to keep in session history: " ++ size ++ lit " across " ++
    plural details.files (lit "file") ++ lit ".\nSession history keeps up to " ++ plural limit (lit "byte") ++
    lit " of each turn's diff; " ++ formatBytes details.shownFiles ++ lit " of " ++ plural details.files (lit "file") ++
    lit " " ++ (if details.shownFiles = 1 then lit "is" else lit "are") ++
    lit " shown here.\nThe worktree itself is unchanged; its Git changes show the complete diff.\n"

/-- The file sections that still fit, after `keptBytes`. -/
def keepSections (available : ℕ) : ℕ → List Text → List Text
  | _, [] => []
  | keptBytes, part :: rest =>
    if FILE_HEADER.isPrefixOf part = false then keepSections available keptBytes rest
    else if available < keptBytes + byteLength part then keepSections available keptBytes rest
    else part :: keepSections available (keptBytes + byteLength part) rest

def boundTurnDiff (diff : Text) (limitBytes : ℕ) : Text :=
  let totalBytes := byteLength diff
  if totalBytes ≤ limitBytes then diff
  else
    let kept := keepSections (limitBytes - TURN_DIFF_SUMMARY_RESERVE_BYTES) 0 (fileSections diff)
    oversizedTurnDiffSummary ⟨totalBytes, false, diffFileCount diff, kept.length, some limitBytes⟩ ++ kept.flatten

/-! ## Records -/

def utf8Head (value : Text) (maxBytes : ℕ) : Text := utf8Prefix (encode value) maxBytes

def utf8Tail (value : Text) (maxBytes : ℕ) : Text := utf8Suffix (encode value) maxBytes

def leftOut (omitted totalBytes : ℕ) : Text :=
  lit "\n… [" ++ plural omitted (lit "byte") ++ lit " of " ++ plural totalBytes (lit "byte") ++
    lit " left out: this record exceeded the session history record limit] …\n"

def shortenText (value : Text) (capBytes : ℕ) : Text :=
  let totalBytes := byteLength value
  if totalBytes ≤ capBytes then value
  else
    let head := utf8Head value (capBytes * 3 / 4)
    let tail := utf8Tail value (capBytes - byteLength head)
    head ++ leftOut (totalBytes - byteLength head - byteLength tail) totalBytes ++ tail

/-- The members of a record; one without a value is `undefined`. -/
abbrev Payload := List (Text × Option Value)

def bulky (member : Text × Option Value) : Bool :=
  match member.2 with
  | some (.string s) => decide (HISTORY_FIELD_MIN_BOUND_BYTES < byteLength s)
  | _ => false

def shortenMember (cap : ℕ) (member : Text × Option Value) : Text × Option Value :=
  match member.2 with
  | some (.string s) =>
    if HISTORY_FIELD_MIN_BOUND_BYTES < byteLength s then (member.1, some (.string (shortenText s cap))) else member
  | _ => member

/-- The caps that are tried; every halving makes the cap smaller, so the fuel is the cap. -/
def capsFrom : ℕ → ℕ → List ℕ
  | 0, _ => []
  | n + 1, cap => if HISTORY_FIELD_MIN_BOUND_BYTES ≤ cap then cap :: capsFrom n (cap / 2) else []

def historyCaps : List ℕ := capsFrom HISTORY_FIELD_FIRST_CAP_BYTES HISTORY_FIELD_FIRST_CAP_BYTES

def boundHistoryPayload (payload : Payload) (budgetBytes : ℕ) (serialize : Payload → Text) : Option Payload :=
  if byteLength (serialize payload) ≤ budgetBytes then some payload
  else if payload.any bulky = false then none
  else
    (historyCaps.map (fun cap => payload.map (shortenMember cap))).find?
      (fun bounded => decide (byteLength (serialize bounded) ≤ budgetBytes))

example : historyCaps = [4194304, 2097152, 1048576, 524288, 262144, 131072, 65536] := by decide +kernel

theorem pairwise_headerStarts (diff : Text) : (headerStarts diff).Pairwise (· < ·) := by
  have hlater : (((List.range diff.length).filter (fun place => (lit "\n" ++ FILE_HEADER).isPrefixOf (diff.drop place))).map
      (fun place => place + 1)).Pairwise (· < ·) :=
    List.pairwise_map.2 ((List.pairwise_lt_range.filter _).imp (fun h => Nat.succ_lt_succ h))
  unfold headerStarts
  refine List.pairwise_append.2 ⟨?_, hlater, fun a ha b hb => ?_⟩
  · split
    · exact List.pairwise_singleton _ _
    · exact .nil
  · obtain ⟨place, -, rfl⟩ := List.mem_map.1 hb
    split at ha
    · rw [List.mem_singleton.1 ha]
      exact Nat.succ_pos place
    · cases ha

def WholeSection (diff : Text) (starts : List ℕ) (part : Text) : Prop :=
  ∃ start ∈ starts, (part = diff.drop start ∧ ∀ place ∈ starts, place ≤ start) ∨
    ∃ next ∈ starts, part = (diff.drop start).take (next - start) ∧ start < next ∧
      ∀ place ∈ starts, place ≤ start ∨ next ≤ place

theorem WholeSection.cons {diff : Text} {starts : List ℕ} {part : Text} {first : ℕ} (h : WholeSection diff starts part)
    (hfirst : ∀ place ∈ starts, first < place) : WholeSection diff (first :: starts) part := by
  obtain ⟨start, hstart, hpart⟩ := h
  have hle : first ≤ start := Nat.le_of_lt (hfirst start hstart)
  refine ⟨start, List.mem_cons_of_mem _ hstart, hpart.imp ?_ ?_⟩
  · rintro ⟨rfl, hlast⟩
    exact ⟨rfl, fun place hplace => (List.mem_cons.1 hplace).elim (fun h => h ▸ hle) (hlast place)⟩
  · rintro ⟨next, hnext, rfl, hlt, hbetween⟩
    exact ⟨next, List.mem_cons_of_mem _ hnext, rfl, hlt,
      fun place hplace => (List.mem_cons.1 hplace).elim (fun h => .inl (h ▸ hle)) (hbetween place)⟩

theorem sectionsFrom_whole {diff : Text} : ∀ {starts : List ℕ}, starts.Pairwise (· < ·) →
    ∀ part ∈ sectionsFrom diff starts, WholeSection diff starts part
  | [], _, _, hpart => absurd hpart List.not_mem_nil
  | [start], _, part, hpart => by
    rw [sectionsFrom, List.mem_singleton] at hpart
    exact ⟨start, List.mem_cons_self, .inl ⟨hpart, fun place hplace => Nat.le_of_eq (List.mem_singleton.1 hplace)⟩⟩
  | start :: next :: rest, h, part, hpart => by
    obtain ⟨hfirst, hrest⟩ := List.pairwise_cons.1 h
    rw [sectionsFrom] at hpart
    rcases List.mem_cons.1 hpart with rfl | hlater
    · refine ⟨start, List.mem_cons_self, .inr ⟨next, List.mem_cons_of_mem _ List.mem_cons_self, rfl,
        hfirst next List.mem_cons_self, fun place hplace => ?_⟩⟩
      rcases List.mem_cons.1 hplace with rfl | hplace
      · exact .inl (Nat.le_refl _)
      · rcases List.mem_cons.1 hplace with rfl | hplace
        · exact .inr (Nat.le_refl _)
        · exact .inr (Nat.le_of_lt ((List.pairwise_cons.1 hrest).1 place hplace))
    · exact (sectionsFrom_whole hrest part hlater).cons hfirst

theorem flatten_sectionsFrom {diff : Text} : ∀ {start : ℕ} {rest : List ℕ}, (start :: rest).Pairwise (· < ·) →
    (sectionsFrom diff (start :: rest)).flatten = diff.drop start
  | start, [], _ => List.append_nil _
  | start, next :: rest, h => by
    obtain ⟨hfirst, hrest⟩ := List.pairwise_cons.1 h
    have hlt := hfirst next List.mem_cons_self
    have hnext : diff.drop next = (diff.drop start).drop (next - start) := by
      rw [List.drop_drop]
      congr 1
      omega
    rw [sectionsFrom, List.flatten_cons, flatten_sectionsFrom hrest, hnext, List.take_append_drop]

/-- **A diff is its sections**, in order. -/
theorem flatten_fileSections (diff : Text) : (fileSections diff).flatten = diff := by
  have hsorted := pairwise_headerStarts diff
  unfold fileSections
  cases hstarts : headerStarts diff with
  | nil => exact List.append_nil _
  | cons start rest =>
    rw [hstarts] at hsorted
    dsimp only
    rw [List.flatten_append, flatten_sectionsFrom hsorted]
    by_cases hpos : 0 < start
    · rw [if_pos hpos, List.flatten_singleton, List.take_append_drop]
    · rw [if_neg hpos, Nat.eq_zero_of_not_pos hpos]
      rfl

/-- **A section that begins with a header is whole.** -/
theorem fileSections_whole {diff part : Text} (h : part ∈ fileSections diff) (hheader : FILE_HEADER.isPrefixOf part = true) :
    WholeSection diff (headerStarts diff) part := by
  have hsorted := pairwise_headerStarts diff
  have hzero : ∀ {n : ℕ}, FILE_HEADER.isPrefixOf (diff.take n) = true → 0 ∈ headerStarts diff := fun htaken => by
    have hprefix : FILE_HEADER.isPrefixOf diff = true :=
      List.isPrefixOf_iff_prefix.2 ((List.isPrefixOf_iff_prefix.1 htaken).trans (List.take_prefix _ _))
    refine List.mem_append_left _ ?_
    rw [if_pos hprefix]
    exact List.mem_cons_self
  unfold fileSections at h
  cases hstarts : headerStarts diff with
  | nil =>
    rw [hstarts] at h
    rw [List.mem_singleton.1 h, ← List.take_length (l := diff)] at hheader
    have hmem := hzero hheader
    rw [hstarts] at hmem
    cases hmem
  | cons start rest =>
    rw [hstarts] at h hsorted
    rcases List.mem_append.1 h with hleading | hlater
    · split at hleading
      · rename_i hpos
        rw [List.mem_singleton.1 hleading] at hheader
        have hmem := hzero hheader
        rw [hstarts] at hmem
        rcases List.mem_cons.1 hmem with rfl | hrest
        · exact absurd hpos (Nat.lt_irrefl 0)
        · exact absurd ((List.pairwise_cons.1 hsorted).1 0 hrest) (Nat.not_lt_zero _)
      · cases hleading
    · exact sectionsFrom_whole hsorted part hlater

/-! ## The size of a bounded diff -/

theorem keepSections_sublist (available : ℕ) : ∀ (keptBytes : ℕ) (parts : List Text),
    (keepSections available keptBytes parts).Sublist parts
  | _, [] => .slnil
  | keptBytes, part :: rest => by
    rw [keepSections]
    split
    · exact (keepSections_sublist available keptBytes rest).cons part
    split
    · exact (keepSections_sublist available keptBytes rest).cons part
    · exact (keepSections_sublist available _ rest).cons_cons part

theorem keepSections_header (available : ℕ) : ∀ (keptBytes : ℕ) (parts : List Text),
    ∀ part ∈ keepSections available keptBytes parts, FILE_HEADER.isPrefixOf part = true
  | _, [], _, hpart => absurd hpart List.not_mem_nil
  | keptBytes, part :: rest, kept, hkept => by
    rw [keepSections] at hkept
    split at hkept
    · exact keepSections_header available keptBytes rest kept hkept
    · rename_i hheader
      split at hkept
      · exact keepSections_header available keptBytes rest kept hkept
      · rcases List.mem_cons.1 hkept with rfl | hrest
        · exact Bool.eq_true_of_not_eq_false hheader
        · exact keepSections_header available _ rest kept hrest

theorem keepSections_bounded (available : ℕ) : ∀ (keptBytes : ℕ) (parts : List Text), keptBytes ≤ available →
    keptBytes + ((keepSections available keptBytes parts).map byteLength).sum ≤ available
  | _, [], h => h
  | keptBytes, part :: rest, h => by
    rw [keepSections]
    split
    · exact keepSections_bounded available keptBytes rest h
    split
    · exact keepSections_bounded available keptBytes rest h
    · rename_i hfits
      have hrest := keepSections_bounded available _ rest (Nat.not_lt.1 hfits)
      rw [List.map_cons, List.sum_cons, ← Nat.add_assoc]
      exact hrest

theorem ascii_fileHeader : Ascii FILE_HEADER := by
  have hall : FILE_HEADER.all (fun c => decide (c.val < 0x80)) = true := by decide +kernel
  intro c hc
  exact of_decide_eq_true (List.all_eq_true.1 hall c hc)

theorem byteLength_flatten : ∀ {parts : List Text} (a : Text), (∀ part ∈ parts, FILE_HEADER.isPrefixOf part = true) →
    byteLength (a ++ parts.flatten) = byteLength a + (parts.map byteLength).sum
  | [], a, _ => by
    rw [List.flatten_nil, List.append_nil]
    rfl
  | part :: parts, a, h => by
    obtain ⟨rest, hrest⟩ := List.isPrefixOf_iff_prefix.1 (h part List.mem_cons_self)
    have happart : Apart a part := by
      rw [← hrest]
      exact ascii_fileHeader.apart_append (List.cons_ne_nil _ _) a rest
    rw [List.flatten_cons, ← List.append_assoc, byteLength_flatten (a ++ part) (fun p hp => h p (List.mem_cons_of_mem _ hp)),
      Utf8.byteLength_append happart, List.map_cons, List.sum_cons, Nat.add_assoc]

theorem length_grouped_le : ∀ r : Text, (grouped r).length ≤ 2 * r.length
  | [] => Nat.zero_le _
  | [_] => by simp [grouped]
  | [_, _] => by simp [grouped]
  | [_, _, _] => by simp [grouped]
  | a :: b :: c :: d :: r => by
    have hrest := length_grouped_le (d :: r)
    have hcomma : (lit ",").length = 1 := rfl
    simp only [grouped, List.length_cons, List.length_append] at hrest ⊢
    omega

theorem length_formatBytes_le {n k : ℕ} (hk : 0 < k) (h : n < 10 ^ k) : (formatBytes n).length ≤ 2 * k := by
  have hdigits := length_natText_le hk h
  have hgrouped := length_grouped_le (natText n).reverse
  rw [List.length_reverse] at hgrouped
  rw [formatBytes, List.length_reverse]
  omega

theorem length_plural_le {n k : ℕ} (noun : Text) (hk : 0 < k) (h : n < 10 ^ k) : (plural n noun).length ≤ 2 * k + 2 + noun.length := by
  have hdigits := length_formatBytes_le hk h
  have hplural : (if n = 1 then [] else lit "s").length ≤ 1 := by
    split
    · exact Nat.zero_le _
    · exact Nat.le_refl _
  have hblank : (lit " ").length = 1 := rfl
  simp only [plural, List.length_append]
  omega

theorem length_oversizedTurnDiffSummary_le {details : OversizedDiff} {limit : ℕ} (hlimit : details.limitBytes = some limit)
    (hbytes : details.bytes < 10 ^ 17) (hfiles : details.files < 10 ^ 17) (hshown : details.shownFiles < 10 ^ 17)
    (hbound : limit < 10 ^ 17) : (oversizedTurnDiffSummary details).length ≤ 700 := by
  have h1 := length_plural_le (lit "byte") (by decide) hbytes
  have h2 := length_plural_le (lit "file") (by decide) hfiles
  have h3 := length_plural_le (lit "byte") (by decide) hbound
  have h4 := length_formatBytes_le (by decide) hshown
  have hmore : (if details.atLeast then lit "more than " else []).length ≤ 10 := by
    split
    · decide +kernel
    · exact Nat.zero_le _
  have hverb : (if details.shownFiles = 1 then lit "is" else lit "are").length ≤ 3 := by
    split
    · decide +kernel
    · decide +kernel
  have hnouns : (lit "byte").length + (lit "file").length = 8 := by decide +kernel
  have htexts : (lit "This turn's worktree diff is too large to keep in session history: ").length + (lit " across ").length +
      (lit ".\nSession history keeps up to ").length + (lit " of each turn's diff; ").length + (lit " of ").length +
      (lit " ").length +
      (lit " shown here.\nThe worktree itself is unchanged; its Git changes show the complete diff.\n").length ≤ 300 := by
    decide +kernel
  simp only [oversizedTurnDiffSummary, hlimit, Option.getD_some, List.length_append]
  omega

theorem length_filter_header_le : ∀ parts : List Text, (parts.filter FILE_HEADER.isPrefixOf).length ≤ parts.flatten.length
  | [] => Nat.le_refl _
  | part :: parts => by
    have hrest := length_filter_header_le parts
    rw [List.filter_cons, List.flatten_cons, List.length_append]
    split
    · rename_i hheader
      have hlength := (List.isPrefixOf_iff_prefix.1 hheader).length_le
      have hsome : FILE_HEADER.length = 11 := rfl
      rw [List.length_cons]
      omega
    · omega

/-- What a bounded diff is: whole sections in their order behind the summary, within the limit. -/
structure BoundedDiff (diff : Text) (limit : ℕ) (out : Text) : Prop where
  bounded : byteLength out ≤ limit
  sections : ∃ kept : List Text, kept.Sublist (fileSections diff) ∧ (∀ part ∈ kept, WholeSection diff (headerStarts diff) part) ∧
    out = oversizedTurnDiffSummary ⟨byteLength diff, false, diffFileCount diff, kept.length, some limit⟩ ++ kept.flatten

/-- **An oversized diff is bounded.**  The length of a string is below `2 ^ 53`. -/
theorem boundTurnDiff_bounded {diff : Text} {limit : ℕ} (hdiff : diff.length < 2 ^ 53)
    (hlimit : TURN_DIFF_SUMMARY_RESERVE_BYTES ≤ limit) (hlarge : limit < byteLength diff) :
    BoundedDiff diff limit (boundTurnDiff diff limit) := by
  have hheaders := keepSections_header (limit - TURN_DIFF_SUMMARY_RESERVE_BYTES) 0 (fileSections diff)
  have hsublist := keepSections_sublist (limit - TURN_DIFF_SUMMARY_RESERVE_BYTES) 0 (fileSections diff)
  have hsize := keepSections_bounded (limit - TURN_DIFF_SUMMARY_RESERVE_BYTES) 0 (fileSections diff) (Nat.zero_le _)
  rw [boundTurnDiff]
  dsimp only
  rw [if_neg (Nat.not_le.2 hlarge)]
  generalize keepSections (limit - TURN_DIFF_SUMMARY_RESERVE_BYTES) 0 (fileSections diff) = kept at hheaders hsublist hsize ⊢
  refine ⟨?_, kept, hsublist, fun part hpart => fileSections_whole (hsublist.subset hpart) (hheaders part hpart), rfl⟩
  have hbytes := Utf8.byteLength_le diff
  have hfiles : diffFileCount diff ≤ diff.length := by
    have hle := length_filter_header_le (fileSections diff)
    rwa [flatten_fileSections] at hle
  have hshown : kept.length ≤ diffFileCount diff := by
    have hle := (hsublist.filter FILE_HEADER.isPrefixOf).length_le
    rwa [List.filter_eq_self.2 hheaders] at hle
  have hsummary := @length_oversizedTurnDiffSummary_le
    ⟨byteLength diff, false, diffFileCount diff, kept.length, some limit⟩ limit rfl (by dsimp only; omega)
    (by dsimp only; omega) (by dsimp only; omega) (by omega)
  have hsummaryBytes := Utf8.byteLength_le
    (oversizedTurnDiffSummary ⟨byteLength diff, false, diffFileCount diff, kept.length, some limit⟩)
  have hreserve : TURN_DIFF_SUMMARY_RESERVE_BYTES = 4096 := rfl
  rw [byteLength_flatten _ hheaders]
  omega

theorem points_units {ps : List ℕ} (h : ∀ p ∈ ps, Scalar p) : Utf8.points (ps.flatMap units) = ps := by
  have hpoints := Utf8.points_flatMap_units h []
  rw [List.append_nil] at hpoints
  rw [hpoints]
  exact List.append_nil ps

theorem byteLength_units {ps : List ℕ} (h : ∀ p ∈ ps, Scalar p) :
    byteLength (ps.flatMap units) = (ps.flatMap encodePoint).length := by
  rw [byteLength, encode, points_units h]

/-- A text shortened around a note of how many bytes are missing. -/
structure Shortened (text : Text) (cap : ℕ) (head missing tail out : Text) : Prop where
  encoded : decode (encode text) = head ++ (missing ++ tail)
  exact : Utf8.wellFormed text = true → text = head ++ (missing ++ tail)
  points : Utf8.points text = Utf8.points head ++ (Utf8.points missing ++ Utf8.points tail)
  bounded : byteLength head + byteLength tail ≤ cap
  noted : out = head ++ leftOut (byteLength missing) (byteLength text) ++ tail

/-- **A shortened text keeps a beginning and an end.** -/
theorem shortenText_shortened {text : Text} {cap : ℕ} (hlarge : cap < byteLength text) :
    ∃ head missing tail, Shortened text cap head missing tail (shortenText text cap) := by
  have hscalars := Utf8.scalar_points text
  have htotal : byteLength text = ((Utf8.points text).flatMap encodePoint).length := rfl
  obtain ⟨qs, rs, hsplit, htake, -⟩ := cut_between (Utf8.points text) (cap * 3 / 4)
  have hqs : ∀ p ∈ qs, Scalar p := fun p hp => hscalars p (by rw [hsplit]; exact List.mem_append_left _ hp)
  have hhead : utf8Head text (cap * 3 / 4) = qs.flatMap units := by
    rw [utf8Head, utf8Prefix, encode, htake, decode, Utf8.decodeFrom_flatMap hqs]
  have hheadBytes : byteLength (qs.flatMap units) ≤ cap * 3 / 4 := by
    have hle := cut_le ((Utf8.points text).flatMap encodePoint) (cap * 3 / 4)
    rw [byteLength_units hqs, ← htake, List.length_take]
    omega
  obtain ⟨qs', rs', hsplit', hsuffix, htailBytes⟩ :=
    suffixBytes_between (Utf8.points text) (cap - byteLength (qs.flatMap units))
  have hrs' : ∀ p ∈ rs', Scalar p := fun p hp => hscalars p (by rw [hsplit']; exact List.mem_append_right _ hp)
  have htail : utf8Tail text (cap - byteLength (qs.flatMap units)) = rs'.flatMap units := by
    rw [utf8Tail, utf8Suffix, encode, hsuffix, decode, Utf8.decodeFrom_flatMap hrs']
  rw [← byteLength_units hrs'] at htailBytes
  -- the two ends take less than the text, so what is kept at the end begins behind the head
  obtain ⟨ms, hms⟩ : ∃ ms, Utf8.points text = qs ++ (ms ++ rs') := by
    rcases List.append_eq_append_iff.1 (hsplit.symm.trans hsplit') with ⟨ms, rfl, hrest⟩ | ⟨ms, rfl, hrest⟩
    · exact ⟨ms, by rw [hsplit', List.append_assoc]⟩
    · rw [byteLength_units hqs, List.flatMap_append, List.length_append] at hheadBytes htailBytes
      rw [byteLength_units hrs'] at htailBytes
      rw [htotal, hsplit', List.flatMap_append, List.length_append] at hlarge
      omega
  have hms' : ∀ p ∈ ms, Scalar p := fun p hp => hscalars p (by
    rw [hms]
    exact List.mem_append_right _ (List.mem_append_left _ hp))
  have hmissing : byteLength text - byteLength (qs.flatMap units) - byteLength (rs'.flatMap units) = byteLength (ms.flatMap units) := by
    rw [htotal, hms, byteLength_units hqs, byteLength_units hrs', byteLength_units hms', List.flatMap_append,
      List.flatMap_append, List.length_append, List.length_append]
    omega
  have hencoded : decode (encode text) = qs.flatMap units ++ (ms.flatMap units ++ rs'.flatMap units) := by
    rw [Utf8.decode_encode, hms, List.flatMap_append, List.flatMap_append]
  refine ⟨qs.flatMap units, ms.flatMap units, rs'.flatMap units, hencoded, fun hwell => ?_, ?_, by omega, ?_⟩
  · rw [← hencoded, Utf8.decode_encode_wellFormed hwell]
  · rw [points_units hqs, points_units hms', points_units hrs', hms]
  · rw [shortenText]
    dsimp only
    rw [if_neg (Nat.not_le.2 hlarge), hhead, htail, hmissing]

/-- What a record is bounded to: within the budget, itself but for bulky fields. -/
structure BoundedPayload (payload : Payload) (budget : ℕ) (serialize : Payload → Text) (bounded : Payload) : Prop where
  fits : byteLength (serialize bounded) ≤ budget
  members : ∃ cap ∈ historyCaps, bounded = payload.map (shortenMember cap)

theorem boundHistoryPayload_bounded {payload bounded : Payload} {budget : ℕ} {serialize : Payload → Text}
    (hlarge : budget < byteLength (serialize payload)) (h : boundHistoryPayload payload budget serialize = some bounded) :
    BoundedPayload payload budget serialize bounded := by
  rw [boundHistoryPayload, if_neg (Nat.not_le.2 hlarge), Option.ite_none_left_eq_some] at h
  obtain ⟨-, hfound⟩ := h
  have hfits := List.find?_some hfound
  rw [decide_eq_true_eq] at hfits
  obtain ⟨cap, hcap, rfl⟩ := List.mem_map.1 (List.mem_of_find?_eq_some hfound)
  exact ⟨hfits, cap, hcap, rfl⟩

/-- **What is written into history is bounded**, and keeps what it claims. -/
theorem history_bounded : (∀ (diff : Text) (limit : ℕ), TURN_DIFF_SUMMARY_RESERVE_BYTES ≤ limit → diff.length < 2 ^ 53 →
      (byteLength diff ≤ limit → boundTurnDiff diff limit = diff) ∧
      (limit < byteLength diff → BoundedDiff diff limit (boundTurnDiff diff limit))) ∧
    (∀ (payload : Payload) (budget : ℕ) (serialize : Payload → Text),
      (byteLength (serialize payload) ≤ budget → boundHistoryPayload payload budget serialize = some payload) ∧
      (budget < byteLength (serialize payload) → ∀ bounded, boundHistoryPayload payload budget serialize = some bounded →
        BoundedPayload payload budget serialize bounded)) ∧
    ∀ (text : Text) (cap : ℕ), (byteLength text ≤ cap → shortenText text cap = text) ∧
      (cap < byteLength text → ∃ head missing tail, Shortened text cap head missing tail (shortenText text cap)) :=
  ⟨fun _ _ hlimit hdiff => ⟨fun hfits => if_pos hfits, fun hlarge => boundTurnDiff_bounded hdiff hlimit hlarge⟩,
    fun _ _ _ => ⟨fun hfits => if_pos hfits, fun hlarge _ hbounded => boundHistoryPayload_bounded hlarge hbounded⟩,
    fun _ _ => ⟨fun hfits => if_pos hfits, fun hlarge => shortenText_shortened hlarge⟩⟩

theorem history_bounded_small : boundTurnDiff (lit "diff") 4096 = lit "diff" ∧
    ∃ head missing tail, Shortened (lit "0123456789") 8 head missing tail (shortenText (lit "0123456789") 8) :=
  ⟨((history_bounded.1 (lit "diff") 4096 (by decide) (by decide +kernel)).1 (by decide +kernel)),
    (history_bounded.2.2 (lit "0123456789") 8).2 (by decide +kernel)⟩

theorem utf8Head_cons {text : Text} {p : ℕ} {ps : List ℕ} (h : Utf8.points text = p :: ps) {maxBytes : ℕ}
    (hmax : 4 ≤ maxBytes) : ∃ rest, utf8Head text maxBytes = units p ++ rest := by
  have hpos := cut_pos (p := p) ps hmax
  obtain ⟨qs, rs, hsplit, htake, -⟩ := cut_between (p :: ps) maxBytes
  have hscalars := Utf8.scalar_points text
  rw [h] at hscalars
  cases qs with
  | nil =>
    obtain ⟨b, r, hblock, -, -⟩ := Utf8.isContinuation_head p
    have hlength := congrArg List.length htake
    rw [List.length_take, List.flatMap_nil, List.length_nil] at hlength
    have hsome : 0 < ((p :: ps).flatMap encodePoint).length := by
      rw [List.flatMap_cons, hblock]
      exact Nat.succ_pos _
    omega
  | cons q qs =>
    obtain ⟨rfl, -⟩ := List.cons.inj hsplit
    have hqs : ∀ x ∈ p :: qs, Scalar x := fun x hx => hscalars x (by rw [hsplit]; exact List.mem_append_left rs hx)
    refine ⟨qs.flatMap units, ?_⟩
    rw [utf8Head, utf8Prefix, encode, h, htake, decode, Utf8.decodeFrom_flatMap hqs, List.flatMap_cons]

def halfPair : Text := [Fin.ofNat 65536 0xD800] ++ List.replicate 70000 (Fin.ofNat 65536 0x61)

theorem ascii_replicate (n : ℕ) : Ascii (List.replicate n (Fin.ofNat 65536 0x61)) := fun c hc => by
  rw [List.eq_of_mem_replicate hc]
  decide

theorem half_pair_replaced : ¬ ∀ (text : Text) (cap : ℕ), HISTORY_FIELD_MIN_BOUND_BYTES ≤ cap → cap < byteLength text →
    ∃ head missing tail, text = head ++ (missing ++ tail) ∧
      shortenText text cap = head ++ leftOut (byteLength missing) (byteLength text) ++ tail := by
  intro h
  have happart : Apart [Fin.ofNat 65536 0xD800] (List.replicate 70000 (Fin.ofNat 65536 0x61)) := (ascii_replicate _).apart_right _
  have hlarge : HISTORY_FIELD_MIN_BOUND_BYTES < byteLength halfPair := by
    have hfirst : byteLength [Fin.ofNat 65536 0xD800] = 3 := by decide
    rw [halfPair, Utf8.byteLength_append happart, (ascii_replicate _).byteLength, List.length_replicate, hfirst]
    decide
  have hpoints : Utf8.points halfPair = 0xFFFD :: Utf8.points (List.replicate 70000 (Fin.ofNat 65536 0x61)) :=
    Utf8.points_append happart
  obtain ⟨rest, hrest⟩ := @utf8Head_cons _ _ _ hpoints (HISTORY_FIELD_MIN_BOUND_BYTES * 3 / 4) (by decide)
  obtain ⟨head, missing, tail, htext, hout⟩ := h halfPair HISTORY_FIELD_MIN_BOUND_BYTES (Nat.le_refl _) hlarge
  have hunits : units 0xFFFD = [Fin.ofNat 65536 0xFFFD] := rfl
  have hnote : ∀ (a b : ℕ) (r : Text), (leftOut a b ++ r).head? = some (Fin.ofNat 65536 0x0A) := fun _ _ _ => rfl
  have hfirst := congrArg List.head? hout
  rw [shortenText] at hfirst
  dsimp only at hfirst
  rw [if_neg (Nat.not_le.2 hlarge), hrest, hunits, List.append_assoc, List.append_assoc, List.singleton_append,
    List.head?_cons] at hfirst
  cases head with
  | nil =>
    rw [List.nil_append, hnote] at hfirst
    exact absurd hfirst (by decide)
  | cons c head =>
    obtain ⟨rfl, -⟩ := List.cons.inj htext
    rw [List.cons_append, List.cons_append, List.head?_cons] at hfirst
    exact absurd hfirst (by decide)

end Wollipog.Payloads
