import Wollipog.Updater.Journal
/-!
# Recorded — what of a run the journal gives back

A record that fits is read back as it was written.  Past the cap the last place is written over, and an event that a
recovery puts there is not redacted.
-/
namespace Wollipog.Updater

open Json (Text Value arranged arrangedMembers arrangedElements stringify)
open Reviews (lit)

theorem readEvent_members (e : JournalEvent) : readEvent (arranged id (.object e.members)) = some e := by
  obtain ⟨phase, at_, detail⟩ := e
  cases phase <;> cases detail <;> rfl

variable {appends events last : List JournalEvent}

theorem readEvents_members (h : events.length ≤ MAX_EVENTS) :
    readEvents (some (arranged id (.array (events.map (fun e => .object e.members))))) = some events := by
  have hall : ∀ l : List JournalEvent, (arrangedElements id (l.map (fun e => .object e.members))).mapM readEvent = some l := by
    intro l
    induction l with
    | nil => rfl
    | cons e l ih =>
      rw [List.map_cons, arrangedElements, List.mapM_cons, readEvent_members, ih]
      rfl
  have hlength : (arrangedElements id (events.map (fun e => .object e.members))).length = events.length := by
    rw [Json.arrangedElements_eq, List.length_map, List.length_map]
  rw [arranged, readEvents, hlength, if_pos h, hall]

theorem readProcess_members (p : Option ProcessIdentity) :
    readProcess (some (arranged id (p.elim .null (fun p => .object p.members)))) = some p := by
  cases p with
  | none => rfl
  | some p =>
    have hread : readProcess (some (.object p.members)) =
      if h : isSafeInteger p.pid = true then some (some ⟨p.pid, p.startTime, p.bootId, h⟩) else none := rfl
    exact hread.trans (dif_pos p.safe)

theorem readRecord_members (r : JournalRecord) (h : r.events.length ≤ MAX_EVENTS) :
    readRecord r.nonce (arrangedMembers id r.members) = .ok r := by
  have hschema : isSchema (Json.get (arrangedMembers id r.members) (lit "schema")) = true := rfl
  have hnonce : readString (Json.get (arrangedMembers id r.members) (lit "nonce")) = some r.nonce.1 := rfl
  have htag : readString (Json.get (arrangedMembers id r.members) (lit "tag")) = some r.tag := rfl
  have hmode : readMode (Json.get (arrangedMembers id r.members) (lit "mode")) = some r.mode := by
    have hread : readMode (some (.string r.mode.text)) = some r.mode := by cases r.mode <;> rfl
    exact hread
  have hprocess : readProcess (Json.get (arrangedMembers id r.members) (lit "process")) = some r.process :=
    readProcess_members r.process
  have hevents : readEvents (Json.get (arrangedMembers id r.members) (lit "events")) = some r.events := readEvents_members h
  unfold readRecord
  rw [hschema, hnonce, htag, hmode, hprocess, hevents, beq_self_eq_true, Bool.and_self, if_pos rfl]

/-- Keys once, and numbers that are read exactly. -/
theorem wf_members (r : JournalRecord) : (Value.object r.members).Wf id := by
  have hevents : Json.WfElements id (r.events.map (fun e => .object e.members)) := by
    rw [Json.wfElements_iff]
    intro v hv
    obtain ⟨e, -, rfl⟩ := List.mem_map.1 hv
    have hkeys : [lit "phase", lit "at", lit "detail"].Nodup := by decide +kernel
    refine ⟨hkeys, ?_⟩
    rw [JournalEvent.members]
    cases e.detail <;> exact ⟨trivial, trivial, by trivial⟩
  have hprocess : (r.process.elim Value.null (fun p => .object p.members)).Wf id := by
    cases r.process with
    | none => trivial
    | some p =>
      have hkeys : [lit "pid", lit "startTime", lit "bootId"].Nodup := by decide +kernel
      exact ⟨hkeys, rfl, trivial, trivial, trivial⟩
  have hkeys : [lit "schema", lit "nonce", lit "tag", lit "mode", lit "process", lit "events"].Nodup := by decide +kernel
  exact ⟨hkeys, rfl, trivial, trivial, trivial, hprocess, hevents, trivial⟩

theorem parseRecord_encode (r : JournalRecord) (h : r.events.length ≤ MAX_EVENTS) : parseRecord (encode r) r.nonce = .ok r := by
  have hbreak : Utf8.Ascii (lit "\n") := fun c hc => by
    obtain rfl : c = 10 := List.mem_singleton.1 hc
    decide
  have hlast : (encode r).getLast? = some 0x0a := by
    unfold encode Utf8.encode
    rw [Utf8.points_append (hbreak.apart_right _), List.flatMap_append]
    exact List.getLast?_concat
  unfold parseRecord
  rw [if_pos hlast, encode, Utf8.decode_encode_wellFormed (Utf8.wellFormed_append (Utf8.wellFormed_stringify _) hbreak.wellFormed)]
  have hparse : Json.parse id (stringify (.object r.members) ++ lit "\n") = some (.object (arrangedMembers id r.members)) :=
    Json.parse_line id (wf_members r)
  rw [hparse]
  exact readRecord_members r h

theorem readJournal_encode (r : JournalRecord) (h : r.events.length ≤ MAX_EVENTS) : readJournal (some r.nonce.1) (some (encode r)) =
    if MAX_RECORD_BYTES < (encode r).length then .error (.unreadable .exceeds) else .ok r := by
  have hopen : readJournal (some r.nonce.1) (some (encode r)) = if MAX_RECORD_BYTES < (encode r).length
      then .error (.unreadable .exceeds) else (parseRecord (encode r) r.nonce).mapError .unreadable := dif_pos r.nonce.2
  rw [hopen, parseRecord_encode r h]
  rfl

/-! ## The events a record keeps -/

/-- The events in order up to the cap, `last` in the last place of a record that has run over. -/
def filled (events last : List JournalEvent) : List JournalEvent :=
  if events.length ≤ MAX_EVENTS then events else events.take (MAX_EVENTS - 1) ++ last

def capped (events : List JournalEvent) : List JournalEvent := filled events events.getLast?.toList

theorem place_filled (events : List JournalEvent) (h : last.length = 1) (full pushed : JournalEvent) :
    place (filled events last) full pushed = filled (events ++ [pushed]) [full] := by
  by_cases hle : events.length ≤ MAX_EVENTS
  · have hfilled : filled events last = events := if_pos hle
    rw [hfilled, place, filled, List.length_append, List.length_singleton]
    by_cases hlt : MAX_EVENTS ≤ events.length
    · have hset : events.set (MAX_EVENTS - 1) full = events.take (MAX_EVENTS - 1) ++ [full] := by
        rw [List.set_eq_take_append_cons_drop, if_pos (by unfold MAX_EVENTS at *; omega),
          List.drop_eq_nil_of_le (by unfold MAX_EVENTS at *; omega)]
      rw [if_pos hlt, if_neg (by omega), hset, List.take_append_of_le_length (by omega)]
    · rw [if_neg hlt, if_pos (by omega)]
  · obtain ⟨x, rfl⟩ := List.length_eq_one_iff.1 h
    have hfilled : filled events [x] = events.take (MAX_EVENTS - 1) ++ [x] := if_neg hle
    have htake : (events.take (MAX_EVENTS - 1)).length = MAX_EVENTS - 1 := by rw [List.length_take]; omega
    have hset : (events.take (MAX_EVENTS - 1) ++ [x]).set (MAX_EVENTS - 1) full = events.take (MAX_EVENTS - 1) ++ [full] := by
      rw [List.set_append_right _ _ (Nat.le_of_eq htake), htake, Nat.sub_self]
      rfl
    rw [hfilled, place, filled, hset, List.length_append, htake, List.length_append, List.length_singleton, List.length_singleton,
      if_pos (by omega), if_neg (by omega), List.take_append_of_le_length (by omega)]

/-- Everything that was written, as the journal writes it. -/
def written (notes : List Note) (appends : List JournalEvent) : List JournalEvent :=
  notes.map Note.event ++ appends.map JournalEvent.redacted

/-- What the record holds: in a full one the last event of a recovery as it came. -/
def held (notes : List Note) (appends : List JournalEvent) : List JournalEvent :=
  filled (written notes appends) (appends.getLast?.or (written notes appends).getLast?).toList

theorem written_concat (notes : List Note) (appends : List JournalEvent) (e : JournalEvent) :
    written notes (appends ++ [e]) = written notes appends ++ [e.redacted] := by
  simp [written]

theorem length_filled (events : List JournalEvent) (h : last.length ≤ 1) : (filled events last).length ≤ MAX_EVENTS := by
  unfold filled MAX_EVENTS
  split
  · assumption
  · rw [List.length_append, List.length_take]
    omega

theorem length_held (notes : List Note) (appends : List JournalEvent) : (held notes appends).length ≤ MAX_EVENTS :=
  length_filled _ (by cases appends.getLast?.or (written notes appends).getLast? <;> simp)

variable {notes : List Note}

theorem place_held (hne : notes ≠ []) (appends : List JournalEvent) (e : JournalEvent) :
    place (held notes appends) e e.redacted = held notes (appends ++ [e]) := by
  have hlast : ((written notes appends).getLast?).isSome = true := by simp [written, hne]
  rw [held, place_filled _ (by cases appends.getLast? <;> simp_all [Option.isSome_iff_exists]), held, written_concat,
    List.getLast?_concat]
  rfl

def attempt (h : JournalHeader) (notes : List Note) : StagingJournal := notes.foldl StagingJournal.note (.open_ h)

/-- The file after an attempt and what recoveries added. -/
def run (h : JournalHeader) (notes : List Note) (appends : List JournalEvent) : Option (List ℕ) :=
  appends.foldl (fun file e => (appendJournalEvent h.nonce.1 e file).2) (attempt h notes).file

theorem attempt_spec (h : JournalHeader) (hne : notes ≠ []) :
    attempt h notes = ⟨⟨h, held notes []⟩, some (encode ⟨h, held notes []⟩)⟩ := by
  induction notes using List.reverseRecOn with
  | nil => exact absurd rfl hne
  | append_singleton notes n ih =>
    have hcons : attempt h (notes ++ [n]) = (attempt h notes).note n := by rw [attempt, List.foldl_concat, attempt]
    have hnote : (attempt h notes).note n = ⟨⟨(attempt h notes).record.toJournalHeader, place (attempt h notes).record.events n.event n.event⟩,
      some (encode ⟨(attempt h notes).record.toJournalHeader, place (attempt h notes).record.events n.event n.event⟩)⟩ := rfl
    have hheld : held (notes ++ [n]) [] = filled (written notes [] ++ [n.event]) [n.event] := by
      have hwritten : written (notes ++ [n]) [] = written notes [] ++ [n.event] := by simp [written]
      rw [held, hwritten, List.getLast?_concat]
      rfl
    rw [hcons, hnote, hheld]
    cases notes with
    | nil => rfl
    | cons m notes =>
      have hlast : ((written (m :: notes) []).getLast?).isSome = true := by simp [written]
      rw [ih (List.cons_ne_nil _ _), held, place_filled _ (by simp_all [Option.isSome_iff_exists])]

def Fits (h : JournalHeader) (events : List JournalEvent) : Prop := (encode ⟨h, events⟩).length ≤ MAX_RECORD_BYTES

theorem readJournal_held (h : JournalHeader) (notes : List Note) (appends : List JournalEvent) :
    (Fits h (held notes appends) → readJournal (some h.nonce.1) (some (encode ⟨h, held notes appends⟩)) = .ok ⟨h, held notes appends⟩) ∧
    (¬ Fits h (held notes appends) → readJournal (some h.nonce.1) (some (encode ⟨h, held notes appends⟩)) = .error (.unreadable .exceeds)) := by
  have hread := readJournal_encode ⟨h, held notes appends⟩ (length_held notes appends)
  exact ⟨fun hfits => hread.trans (if_neg (Nat.not_lt.2 hfits)), fun hfits => hread.trans (if_pos (Nat.lt_of_not_le hfits))⟩

theorem run_file (h : JournalHeader) (hne : notes ≠ []) (appends : List JournalEvent) :
    ((∀ k < appends.length, Fits h (held notes (appends.take k))) ∧ run h notes appends = some (encode ⟨h, held notes appends⟩)) ∨
    ∃ k < appends.length, ¬ Fits h (held notes (appends.take k)) ∧
      run h notes appends = some (encode ⟨h, held notes (appends.take k)⟩) := by
  induction appends using List.reverseRecOn with
  | nil => exact .inl ⟨fun k hk => absurd hk (Nat.not_lt_zero k), by rw [run, List.foldl_nil, attempt_spec h hne]⟩
  | append_singleton appends e ih =>
    have hstep : run h notes (appends ++ [e]) = (appendJournalEvent h.nonce.1 e (run h notes appends)).2 := by
      rw [run, List.foldl_concat, run]
    have hlength : (appends ++ [e]).length = appends.length + 1 := List.length_append
    have htake : ∀ k ≤ appends.length, (appends ++ [e]).take k = appends.take k := fun k hk => List.take_append_of_le_length hk
    rw [hstep]
    rcases ih with ⟨hfits, hfile⟩ | ⟨k, hk, hnot, hfile⟩
    · obtain ⟨hok, herror⟩ := readJournal_held h notes appends
      rw [hfile, appendJournalEvent]
      by_cases hlast : Fits h (held notes appends)
      · refine .inl ⟨fun k hk => ?_, by rw [hok hlast, ← place_held hne]⟩
        rw [htake k (by omega)]
        rcases Nat.lt_or_eq_of_le (show k ≤ appends.length by omega) with hk | rfl
        · exact hfits k hk
        · rwa [List.take_length]
      · exact .inr ⟨appends.length, by omega, by rwa [htake _ (Nat.le_refl _), List.take_length],
          by rw [herror hlast, htake _ (Nat.le_refl _), List.take_length]⟩
    · rw [hfile, appendJournalEvent, (readJournal_held h notes (appends.take k)).2 hnot]
      exact .inr ⟨k, by omega, by rwa [htake k (by omega)], by rw [htake k (by omega)]⟩

theorem run_reads (h : JournalHeader) (hne : notes ≠ []) (appends : List JournalEvent) {r : JournalRecord} :
    readJournal (some h.nonce.1) (run h notes appends) = .ok r ↔
      (∀ k ≤ appends.length, Fits h (held notes (appends.take k))) ∧ r = ⟨h, held notes appends⟩ := by
  rcases run_file h hne appends with ⟨hfits, hfile⟩ | ⟨k, hk, hnot, hfile⟩
  · obtain ⟨hok, herror⟩ := readJournal_held h notes appends
    rw [hfile]
    by_cases hlast : Fits h (held notes appends)
    · rw [hok hlast]
      refine ⟨fun heq => ⟨fun k hk => ?_, (Except.ok.inj heq).symm⟩, fun ⟨_, heq⟩ => by rw [heq]⟩
      rcases Nat.lt_or_eq_of_le hk with hk | rfl
      · exact hfits k hk
      · rwa [List.take_length]
    · rw [herror hlast]
      refine ⟨nofun, fun ⟨hall, _⟩ => absurd (hall _ (Nat.le_refl _)) ?_⟩
      rwa [List.take_length]
  · rw [hfile, (readJournal_held h notes (appends.take k)).2 hnot]
    exact ⟨nofun, fun ⟨hall, _⟩ => absurd (hall k (Nat.le_of_lt hk)) hnot⟩

def lasting (p : JournalPhase) : Bool := terminal p || p == .verified

/-- The events that are written over. -/
def overwritten (events : List JournalEvent) : List JournalEvent := (events.drop (MAX_EVENTS - 1)).dropLast

theorem capped_or_overwritten {e : JournalEvent} (he : e ∈ events) : e ∈ capped events ∨ e ∈ overwritten events := by
  unfold capped filled
  split
  · exact .inl he
  · rename_i hlong
    have hne : events.drop (MAX_EVENTS - 1) ≠ [] := by
      rw [Ne, List.drop_eq_nil_iff]
      omega
    have hlast : events.getLast? = some ((events.drop (MAX_EVENTS - 1)).getLast hne) := by
      rw [List.getLast_drop, ← List.getLast?_eq_some_getLast]
    rw [← List.take_append_drop (MAX_EVENTS - 1) events, ← List.dropLast_append_getLast hne] at he
    rw [hlast]
    rcases List.mem_append.1 he with he | he
    · exact .inl (List.mem_append_left _ he)
    · rcases List.mem_append.1 he with he | he
      · exact .inr he
      · exact .inl (List.mem_append_right _ he)

def AttemptOutcome.rank : AttemptOutcome → ℕ
  | .unknown => 0
  | .preInstallationFailure => 1
  | .installationAwaitingVerification => 2
  | .rolledBack => 3
  | .healthyInstallationCleanupFailed => 4
  | .completedCleanup => 5

theorem outcome_mono {l m : List JournalEvent} (h : ∀ p, p ≠ .recovered → seen l p = true → seen m p = true) :
    (outcomeOf l).rank ≤ (outcomeOf m).rank := by
  have hverified := h .verified (by decide)
  have hcleaned := h .cleaned (by decide)
  have hrolled := h .rolledBack (by decide)
  have hinstalled := h .installed (by decide)
  have hinstalling := h .installing (by decide)
  have hfailed := h .failed (by decide)
  unfold outcomeOf
  grind [AttemptOutcome.rank]

theorem held_recovered (hne : notes ≠ []) : ∀ {appends : List JournalEvent}, (∀ e ∈ appends, e.phase = .recovered) →
    ∀ x ∈ held notes appends, x.phase ≠ .recovered → x ∈ held notes [] := by
  intro appends
  induction appends using List.reverseRecOn with
  | nil => exact fun _ x hx _ => hx
  | append_singleton appends e ih =>
    intro hall x hx hphase
    have he : e.phase = .recovered := hall e (List.mem_append_right _ (List.mem_singleton_self e))
    rw [← place_held hne] at hx
    have hold : x ∈ held notes appends := by
      unfold place at hx
      split at hx
      · rcases List.mem_or_eq_of_mem_set hx with hx | rfl
        · exact hx
        · exact absurd he hphase
      · rcases List.mem_append.1 hx with hx | hx
        · exact hx
        · rw [List.mem_singleton.1 hx] at hphase
          exact absurd he hphase
    exact ih (fun e he => hall e (List.mem_append_left _ he)) x hold hphase

theorem outcome_run (h : JournalHeader) (hne : notes ≠ []) (hall : ∀ e ∈ appends, e.phase = .recovered) :
    (describeJournal (readJournal (some h.nonce.1) (run h notes appends))).outcome.rank ≤
      (describeJournal (.ok (attempt h notes).record)).outcome.rank := by
  rw [attempt_spec h hne]
  cases hread : readJournal (some h.nonce.1) (run h notes appends) with
  | error e => exact Nat.zero_le _
  | ok r =>
    obtain ⟨-, rfl⟩ := (run_reads h hne appends).1 hread
    refine outcome_mono fun p hp hseen => ?_
    obtain ⟨x, hx, hphase⟩ := List.any_eq_true.1 hseen
    rw [beq_iff_eq] at hphase
    exact List.any_eq_true.2 ⟨x, held_recovered hne hall x hx (by rwa [hphase]), by rw [hphase, beq_self_eq_true]⟩

/-- What is read after a run: the events up to the cap, redacted; no lasting phase is gone, no outcome improved. -/
structure ReadsBack (h : JournalHeader) (notes : List Note) (appends : List JournalEvent) : Prop where
  recorded : readJournal (some h.nonce.1) (run h notes appends) = .ok ⟨h, capped (written notes appends)⟩
  redacted : ∀ e ∈ written notes appends, ∀ d ∈ e.detail, (∃ t, d = redactDetail t) ∧ d.length ≤ MAX_DETAIL
  kept : ∀ e ∈ written notes appends, lasting e.phase = true →
    ∃ r, readJournal (some h.nonce.1) (run h notes appends) = .ok r ∧ seen r.events e.phase = true
  outcome : (∀ e ∈ appends, e.phase = .recovered) →
    (describeJournal (readJournal (some h.nonce.1) (run h notes appends))).outcome.rank ≤
      (describeJournal (.ok (attempt h notes).record)).outcome.rank

/-- Every record left to a reader fits, and no lasting phase stands only among the events written over. -/
structure Keeps (h : JournalHeader) (notes : List Note) (appends : List JournalEvent) : Prop where
  fits : ∀ k ≤ appends.length, Fits h (held notes (appends.take k))
  last : MAX_EVENTS < (written notes appends).length → ∀ e ∈ appends.getLast?, e.redacted = e
  lasting : ∀ e ∈ overwritten (written notes appends), lasting e.phase = true → seen (capped (written notes appends)) e.phase = true

theorem held_eq_capped : held notes appends = capped (written notes appends) ↔
    (MAX_EVENTS < (written notes appends).length → ∀ e ∈ appends.getLast?, e.redacted = e) := by
  induction appends using List.reverseRecOn with
  | nil => exact ⟨fun _ _ e he => absurd he (Option.not_mem_none e), fun _ => rfl⟩
  | append_singleton appends e =>
    unfold held capped filled
    rw [written_concat, List.getLast?_concat, List.getLast?_concat]
    split
    · exact ⟨fun _ hlong => by omega, fun _ => rfl⟩
    · rename_i hlong
      refine ⟨fun heq _ x hx => ?_, fun hlast => by rw [hlast (by omega) e rfl]; rfl⟩
      cases hx
      exact (List.singleton_inj.1 (List.append_cancel_left heq)).symm

theorem written_redacted (notes : List Note) (appends : List JournalEvent) :
    ∀ e ∈ written notes appends, ∀ d ∈ e.detail, (∃ t, d = redactDetail t) ∧ d.length ≤ MAX_DETAIL := by
  intro e he d hd
  suffices h : ∃ t, d = redactDetail t by
    obtain ⟨t, rfl⟩ := h
    exact ⟨⟨t, rfl⟩, length_redactDetail t⟩
  rcases List.mem_append.1 he with he | he
  · obtain ⟨n, -, rfl⟩ := List.mem_map.1 he
    obtain ⟨t, -, rfl⟩ := Option.map_eq_some_iff.1 hd
    exact ⟨t, rfl⟩
  · obtain ⟨e, -, rfl⟩ := List.mem_map.1 he
    obtain ⟨t, -, rfl⟩ := Option.map_eq_some_iff.1 hd
    have hnone : redactDetail [] = [] := by decide +kernel
    cases t with
    | nil => exact ⟨[], by simp [hnone]⟩
    | cons c t => exact ⟨c :: t, by simp⟩

/-- **The journal reads back exactly when its record fits, and nothing that lasts is written over.** -/
theorem journal_reads_back_iff (h : JournalHeader) (first : Note) (rest : List Note) (appends : List JournalEvent) :
    ReadsBack h (first :: rest) appends ↔ Keeps h (first :: rest) appends := by
  have hne : first :: rest ≠ [] := List.cons_ne_nil first rest
  constructor
  · intro hback
    obtain ⟨hfits, heq⟩ := (run_reads h hne appends).1 hback.recorded
    refine ⟨hfits, held_eq_capped.1 (congrArg JournalRecord.events heq).symm, fun e he hlasting => ?_⟩
    obtain ⟨r, hread, hseen⟩ := hback.kept e (List.mem_of_mem_drop (List.mem_of_mem_dropLast he)) hlasting
    obtain rfl := Except.ok.inj (hback.recorded.symm.trans hread)
    exact hseen
  · intro hkeeps
    have hread : readJournal (some h.nonce.1) (run h (first :: rest) appends) = .ok ⟨h, capped (written (first :: rest) appends)⟩ :=
      (run_reads h hne appends).2 ⟨hkeeps.fits, by rw [held_eq_capped.2 hkeeps.last]⟩
    refine ⟨hread, written_redacted _ _, fun e he hlasting => ⟨_, hread, ?_⟩, outcome_run h hne⟩
    rcases capped_or_overwritten he with hcapped | hover
    · exact List.any_eq_true.2 ⟨e, hcapped, beq_self_eq_true e.phase⟩
    · exact hkeeps.lasting e hover hlasting

def fullNotes : List Note := List.replicate 31 ⟨.reserved, [], none⟩ ++ [⟨.verified, [], none⟩]

def recovery : JournalEvent := ⟨.recovered, [], some (lit "token=abc")⟩

/-- A recovery of a full record: its event comes in as it is, in the place of the phase that tells of success. -/
theorem full_record_overwritten : ∃ h, ¬ ReadsBack h fullNotes [recovery] := by
  refine ⟨⟨⟨lit "00000000-0000-0000-0000-000000000000", by decide +kernel⟩, [], .user, none⟩, fun hback => ?_⟩
  obtain ⟨-, heq⟩ := (run_reads _ (by simp [fullNotes]) _).1 hback.recorded
  have hlong : MAX_EVENTS < (written fullNotes [recovery]).length := by decide
  have hsame : recovery.redacted = recovery := held_eq_capped.1 (congrArg JournalRecord.events heq).symm hlong _ rfl
  exact absurd hsame (by decide +kernel)

end Wollipog.Updater
