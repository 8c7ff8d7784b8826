import Wollipog.Publication.Store
/-!
# Once — a publication ticket is issued once, and evidence is only added

The runs are the transactions on an installed store, with the database failing anywhere inside a savepoint.
-/
namespace Wollipog.Publication

open Json (CodeUnit Text Numerals)
open Reviews (lit)

variable {N : Numerals} {sha256 : Sha256} {ownerId : Text}

def Call.stored (sha256 : Sha256) (source : Source) (call : Call) (ticket : Option Text) : PublicationRecord :=
  { call.record sha256 source (bigText (bigInt source.revision + 1)) with ticket := ticket }

variable (N sha256 ownerId) in
structure Recorded (call : Call) (db : Db) (result text : Text) (db' : Db) : Prop where
  input : validProviderPublicationInput call.grant call.requestId = true
  sound : sourceOf ownerId db = some db.source
  whole : db.source.degraded = 0
  fresh : ∀ key, call.intentKey = some key → ∀ e ∈ db.intents, e.1 ≠ key
  room : db.source.event_count < PROVIDER_PUBLICATION_LIMITS_events
  intents : call.intentKey.isSome = true → db.source.intent_count < PROVIDER_PUBLICATION_LIMITS_intents
  encoded : ∃ ticket, ticket.isSome = call.intentKey.isSome ∧ ticket.all digest = true ∧
    encode ((call.stored sha256 db.source ticket).members N) = some text ∧
    result = ticket.getD (bigText (bigInt db.source.revision + 1))
  after : db' = { db with
    source := { db.source with
      revision := bigText (bigInt db.source.revision + 1)
      event_count := db.source.event_count + 1
      intent_count := db.source.intent_count + call.intentKey.toList.length }
    intents := db.intents ++ call.intentKey.toList.map (fun key => (key, text))
    events := db.events ++ [(db.source.event_count + 1, text)] }

variable {db db' : Db} {answer text : Text} {w : World} {source : Source}

theorem insertIntent_cases {key : Text} (h : insertIntent db key text = some db') :
    db' = { db with intents := db.intents ++ [(key, text)] } := by
  unfold insertIntent at h
  split at h
  · cases h
  · exact (Option.some.inj h).symm

theorem insertEvent_cases {seq : ℕ} (h : insertEvent db seq text = some db') :
    db' = { db with events := db.events ++ [(seq, text)] } := by
  unfold insertEvent at h
  split at h
  · cases h
  · exact (Option.some.inj h).symm

theorem updateSource_cases {revision : Text} {intents : ℕ} (h : updateSource db source revision intents = some db') :
    db' = { db with source := { db.source with
      revision := revision
      event_count := db.source.event_count + 1
      intent_count := db.source.intent_count + intents } } := by
  unfold updateSource at h
  split at h
  · exact (Option.some.inj h).symm
  · cases h

theorem sourceOf_eq (h : sourceOf ownerId db = some source) : source = db.source := by
  unfold sourceOf at h
  simp only at h
  split at h
  · cases h
  · exact (Option.some.inj h).symm

/-- **The work inside the savepoint** finds the intent issued already, or records the call. -/
theorem evidence_cases {call : Call} {faults : Faults} {result : Option Text}
    (hinput : validProviderPublicationInput call.grant call.requestId = true)
    (hsound : sourceOf ownerId db = some db.source) (hwhole : db.source.degraded = 0)
    (h : evidence N sha256 db.source call faults db = some (result, db')) :
    (result = none ∧ db' = db) ∨ ∃ answer text, result = some answer ∧ Recorded N sha256 ownerId call db answer text db' := by
  unfold evidence at h
  obtain ⟨-, -, h⟩ := Option.bind_eq_some_iff.1 h
  split at h
  · obtain ⟨-, -, h⟩ := Option.map_eq_some_iff.1 h
    cases h
    exact Or.inl ⟨rfl, rfl⟩
  · rename_i hfresh
    split at h
    · cases h
    · rename_i hroom
      rw [not_or, not_or, Nat.not_le, not_and, Nat.not_le] at hroom
      simp only at h
      obtain ⟨ticket, hticket, h⟩ := Option.bind_eq_some_iff.1 h
      obtain ⟨text, htext, h⟩ := Option.bind_eq_some_iff.1 h
      obtain ⟨first, hfirst, h⟩ := Option.bind_eq_some_iff.1 h
      obtain ⟨-, -, h⟩ := Option.bind_eq_some_iff.1 h
      obtain ⟨second, hsecond, h⟩ := Option.bind_eq_some_iff.1 h
      obtain ⟨-, -, h⟩ := Option.bind_eq_some_iff.1 h
      obtain ⟨third, hthird, h⟩ := Option.bind_eq_some_iff.1 h
      obtain ⟨-, -, h⟩ := Option.map_eq_some_iff.1 h
      cases h
      have hsecond' := insertEvent_cases hsecond
      have hthird' := updateSource_cases hthird
      refine Or.inr ⟨_, text, rfl, ?_⟩
      cases hkey : call.intentKey with
      | none =>
        rw [hkey] at hticket hfirst
        cases hticket
        cases hfirst
        refine ⟨hinput, hsound, hwhole, fun key hk => ?_, hroom.1, fun hk => ?_, ⟨none, ?_, rfl, htext, rfl⟩, ?_⟩
        · rw [hkey] at hk
          cases hk
        · rw [hkey] at hk
          cases hk
        · rw [hkey]
        · rw [hthird', hsecond', hkey]
          simp
      | some key =>
        rw [hkey] at hticket hfirst hfresh
        obtain ⟨signed, -, rfl⟩ := Option.map_eq_some_iff.1 hticket
        obtain ⟨-, -, hinsert⟩ := Option.bind_eq_some_iff.1 hfirst
        have hfirst' := insertIntent_cases hinsert
        refine ⟨hinput, hsound, hwhole, fun other hk e he heq => hfresh ?_, hroom.1, fun hk => hroom.2.1 hk,
          ⟨some _, ?_, ?_, htext, rfl⟩, ?_⟩
        · rw [hkey] at hk
          cases hk
          rw [Option.any_some, List.any_eq_true]
          exact ⟨e, he, by rw [heq]; exact beq_self_eq_true _⟩
        · rw [hkey]
          rfl
        · exact sha256.digest _
        · rw [hthird', hsecond', hfirst', hkey]
          simp

/-- **What a call does**: it is recorded, or the evidence stays as it was and at most the fence is set. -/
theorem record_cases (inTransaction : Bool) (call : Call) (faults : Faults) (db : Db) :
    ((∀ answer, (record N sha256 ownerId inTransaction call faults db).1 ≠ .returned (some answer)) ∧
        ((record N sha256 ownerId inTransaction call faults db).2 = db ∨
          (record N sha256 ownerId inTransaction call faults db).2 = degrade db)) ∨
      ∃ answer text, (record N sha256 ownerId inTransaction call faults db).1 = .returned (some answer) ∧
        Recorded N sha256 ownerId call db answer text (record N sha256 ownerId inTransaction call faults db).2 := by
  have hrefused : ∀ answer : Text, Outcome.returned none ≠ .returned (some answer) := fun answer heq => by cases heq
  have hthrew : ∀ answer : Text, Outcome.threw ≠ .returned (some answer) := fun answer heq => by cases heq
  unfold record
  split
  · exact Or.inl ⟨hthrew, Or.inl rfl⟩
  · split
    · exact Or.inl ⟨hrefused, Or.inl rfl⟩
    · rename_i hinput
      rw [not_or, Bool.not_eq_false] at hinput
      cases hsource : sourceOf ownerId db with
      | none => exact Or.inl ⟨hrefused, Or.inl rfl⟩
      | some source =>
        have hrow := sourceOf_eq hsource
        subst hrow
        simp only
        split
        · exact Or.inl ⟨hrefused, Or.inl rfl⟩
        · rename_i hwhole
          rw [not_not] at hwhole
          split
          · exact Or.inl ⟨hrefused, Or.inl rfl⟩
          · cases hevidence : evidence N sha256 db.source call faults db with
            | none =>
              simp only
              split
              · exact Or.inl ⟨hthrew, Or.inl rfl⟩
              · exact Or.inl ⟨hrefused, Or.inr rfl⟩
            | some p =>
              obtain ⟨result, db'⟩ := p
              rcases evidence_cases hinput.1 hsource hwhole hevidence with ⟨rfl, rfl⟩ | ⟨answer, text, rfl, hrecorded⟩
              · exact Or.inl ⟨hrefused, Or.inl rfl⟩
              · exact Or.inr ⟨answer, text, rfl, hrecorded⟩

abbrev Answered := Call × Outcome

structure World where
  db : Db
  history : List Answered

inductive Txn
  /-- Not begun: another transaction is open, or commits are not durable. -/
  | refused
  /-- A call outside any transaction. -/
  | bare (call : Call) (faults : Faults)
  /-- Calls in one transaction, which commits or rolls back. -/
  | ran (calls : List (Call × Faults)) (commits : Bool)

variable (N sha256 ownerId) in
def World.call (inTransaction : Bool) (w : World) (c : Call × Faults) : World where
  db := (record N sha256 ownerId inTransaction c.1 c.2 w.db).2
  history := w.history ++ [(c.1, (record N sha256 ownerId inTransaction c.1 c.2 w.db).1)]

variable (N sha256 ownerId) in
def World.step (w : World) : Txn → World
  | .refused => w
  | .bare call faults => w.call N sha256 ownerId false (call, faults)
  | .ran calls commits => if commits then calls.foldl (World.call N sha256 ownerId true) w else w

variable (N sha256 ownerId) in
def World.run (w : World) (txns : List Txn) : World := txns.foldl (World.step N sha256 ownerId) w

def installed (ownerId epoch : Text) (newDatabase : Bool) : World := ⟨install ownerId epoch newDatabase, []⟩

/-- **What holds of every call holds of every run.** -/
theorem World.run_rel (R : World → World → Prop) (hrefl : ∀ w, R w w) (htrans : ∀ a b c, R a b → R b c → R a c)
    (hcall : ∀ inTransaction w c, R w (w.call N sha256 ownerId inTransaction c)) (w : World) (txns : List Txn) :
    R w (w.run N sha256 ownerId txns) := by
  have hcalls : ∀ (calls : List (Call × Faults)) (w : World), R w (calls.foldl (World.call N sha256 ownerId true) w) := by
    intro calls
    induction calls with
    | nil => exact hrefl
    | cons c calls ih => exact fun w => htrans _ _ _ (hcall true w c) (ih _)
  have hstep : ∀ (w : World) (txn : Txn), R w (w.step N sha256 ownerId txn) := by
    intro w txn
    cases txn with
    | refused => exact hrefl w
    | bare call faults => exact hcall false w (call, faults)
    | ran calls commits =>
      unfold World.step
      cases commits with
      | false => exact hrefl w
      | true => exact hcalls calls w
  unfold World.run
  induction txns generalizing w with
  | nil => exact hrefl w
  | cons txn txns ih => exact htrans _ _ _ (hstep w txn) (ih _)

/-! ## What every run keeps -/

def recorded (e : Answered) : Bool :=
  match e.2 with
  | .returned (some _) => true
  | _ => false

def ticketed (e : Answered) : Option Text := if recorded e then e.1.intentKey else none

variable (N sha256 ownerId) in
def Tells (text : Text) (e : Answered) : Prop :=
  ∃ source ticket, encode ((e.1.stored sha256 source ticket).members N) = some text ∧
    decode N ownerId text = some (e.1.stored sha256 source ticket) ∧
    e.2 = .returned (some (ticket.getD (bigText (bigInt source.revision + 1))))

variable (N sha256 ownerId) in
structure Inv (w : World) : Prop where
  revision : w.db.source.revision = bigText w.db.events.length
  events : w.db.source.event_count = w.db.events.length
  intents : w.db.source.intent_count = w.db.intents.length
  seqs : w.db.events.map Prod.fst = List.range' 1 w.db.events.length
  degraded : w.db.source.degraded ≤ 1
  keys : w.db.intents.map Prod.fst = w.history.filterMap ticketed
  once : (w.db.intents.map Prod.fst).Nodup
  texts : List.Forall₂ (Tells N sha256 ownerId) (w.db.events.map Prod.snd) (w.history.filter recorded)
  intentTexts : ∀ e ∈ w.db.intents, e.2 ∈ w.db.events.map Prod.snd

theorem sourceOf_sound (h : sourceOf ownerId db = some db.source) :
    db.source.owner_id = ownerId ∧ uuid db.source.store_epoch = true := by
  unfold sourceOf at h
  simp only at h
  split at h
  · cases h
  · rename_i hsound
    simp only [not_or, not_not, Bool.not_eq_false] at hsound
    exact ⟨hsound.2.1, hsound.2.2.1⟩

theorem Recorded.valid {call : Call} (h : Recorded N sha256 ownerId call db answer text db')
    (hrevision : bigInt db.source.revision + 1 ≤ MAX_COUNTER) {ticket : Option Text} (hticket : ticket.all digest = true) :
    (call.stored sha256 db.source ticket).Valid ownerId := by
  obtain ⟨howner, hepoch⟩ := sourceOf_sound h.sound
  have hinput := h.input
  unfold validProviderPublicationInput at hinput
  simp only [Bool.and_eq_true] at hinput
  obtain ⟨⟨⟨⟨hgrant, -⟩, -⟩, hprofile⟩, hrequest⟩ := hinput
  exact ⟨howner, hepoch, validCounter_bigText hrevision, hgrant, hprofile, sha256.digest _, sha256.digest _, hrequest, hticket⟩

theorem Recorded.inv {call : Call} (hinv : Inv N sha256 ownerId w) (h : Recorded N sha256 ownerId call w.db answer text db') :
    Inv N sha256 ownerId ⟨db', w.history ++ [(call, .returned (some answer))]⟩ := by
  have hworth : bigInt w.db.source.revision = w.db.events.length := by rw [hinv.revision, bigInt_bigText]
  have hroom : w.db.events.length < 32768 := hinv.events ▸ h.room
  have hrevision : bigInt w.db.source.revision + 1 ≤ MAX_COUNTER := by
    rw [hworth]
    unfold MAX_COUNTER
    omega
  obtain ⟨ticket, hsome, hdigest, hencode, hanswer⟩ := h.encoded
  have htells : Tells N sha256 ownerId text (call, .returned (some answer)) :=
    ⟨w.db.source, ticket, hencode, decode_encode N (h.valid hrevision hdigest) hencode, by rw [hanswer]⟩
  have hafter := h.after
  subst hafter
  refine ⟨?_, ?_, ?_, ?_, hinv.degraded, ?_, ?_, ?_, ?_⟩
  · simp only [List.length_append, List.length_singleton]
    rw [hworth]
  · simp only [List.length_append, List.length_singleton]
    rw [hinv.events]
  · simp only [List.length_append, List.length_map]
    rw [hinv.intents]
  · simp only [List.map_append, List.map_singleton, List.length_append, List.length_singleton]
    rw [hinv.seqs, List.range'_concat, hinv.events, Nat.one_mul, Nat.add_comm]
  · simp only [List.map_append, List.filterMap_append, List.map_map]
    rw [hinv.keys]
    have hself : (Prod.fst ∘ fun key : Text => (key, text)) = id := rfl
    rw [hself, List.map_id]
    cases hkey : call.intentKey <;> simp [ticketed, recorded, hkey]
  · simp only [List.map_append, List.map_map]
    have hself : (Prod.fst ∘ fun key : Text => (key, text)) = id := rfl
    rw [hself, List.map_id, List.nodup_append]
    refine ⟨hinv.once, by cases call.intentKey <;> simp, fun a ha b hb hab => ?_⟩
    obtain ⟨e, he, rfl⟩ := List.mem_map.1 ha
    exact h.fresh b (Option.mem_toList.1 hb) e he hab
  · simp only [List.map_append, List.map_singleton, List.filter_append]
    exact List.rel_append hinv.texts (.cons htells .nil)
  · intro e he
    simp only [List.map_append, List.mem_append, List.map_singleton, List.mem_singleton]
    rcases List.mem_append.1 he with he | he
    · exact Or.inl (hinv.intentTexts e he)
    · obtain ⟨key, -, rfl⟩ := List.mem_map.1 he
      exact Or.inr rfl

theorem Inv.call (hinv : Inv N sha256 ownerId w) (inTransaction : Bool) (c : Call × Faults) :
    Inv N sha256 ownerId (w.call N sha256 ownerId inTransaction c) := by
  unfold World.call
  rcases record_cases inTransaction c.1 c.2 w.db with ⟨hnull, hdb⟩ | ⟨answer, text, hanswer, hrecorded⟩
  · have hnot : recorded (c.1, (record N sha256 ownerId inTransaction c.1 c.2 w.db).1) = false := by
      unfold recorded
      split
      · rename_i answer hanswer
        exact absurd hanswer (hnull answer)
      · rfl
    have hkeys : (w.history ++ [(c.1, (record N sha256 ownerId inTransaction c.1 c.2 w.db).1)]).filterMap ticketed =
        w.history.filterMap ticketed := by
      rw [List.filterMap_append]
      simp [ticketed, hnot]
    have htexts : (w.history ++ [(c.1, (record N sha256 ownerId inTransaction c.1 c.2 w.db).1)]).filter recorded =
        w.history.filter recorded := by
      rw [List.filter_append]
      simp [hnot]
    rcases hdb with hdb | hdb
    · rw [hdb]
      exact ⟨hinv.revision, hinv.events, hinv.intents, hinv.seqs, hinv.degraded, hinv.keys.trans hkeys.symm, hinv.once,
        htexts ▸ hinv.texts, hinv.intentTexts⟩
    · rw [hdb]
      exact ⟨hinv.revision, hinv.events, hinv.intents, hinv.seqs, le_refl 1, hinv.keys.trans hkeys.symm, hinv.once,
        htexts ▸ hinv.texts, hinv.intentTexts⟩
  · rw [hanswer]
    exact hrecorded.inv hinv

structure Onward (w w' : World) : Prop where
  events : w.db.events <+: w'.db.events
  intents : w.db.intents <+: w'.db.intents
  fence : w.db.source.degraded = 1 →
    w'.db.source.degraded = 1 ∧ w'.db.events = w.db.events ∧ w'.db.intents = w.db.intents

theorem Onward.call (inTransaction : Bool) (w : World) (c : Call × Faults) :
    Onward w (w.call N sha256 ownerId inTransaction c) := by
  unfold World.call
  rcases record_cases inTransaction c.1 c.2 w.db with ⟨-, hdb | hdb⟩ | ⟨answer, text, -, hrecorded⟩
  · rw [hdb]
    exact ⟨List.prefix_refl _, List.prefix_refl _, fun h => ⟨h, rfl, rfl⟩⟩
  · rw [hdb]
    exact ⟨List.prefix_refl _, List.prefix_refl _, fun _ => ⟨rfl, rfl, rfl⟩⟩
  · refine ⟨?_, ?_, fun h => ?_⟩
    · rw [hrecorded.after]
      exact List.prefix_append _ _
    · rw [hrecorded.after]
      exact List.prefix_append _ _
    · rw [hrecorded.whole] at h
      cases h

theorem Onward.run (w : World) (txns : List Txn) : Onward w (w.run N sha256 ownerId txns) := by
  refine World.run_rel Onward (fun w => ⟨List.prefix_refl _, List.prefix_refl _, fun h => ⟨h, rfl, rfl⟩⟩)
    (fun a b c hab hbc => ⟨hab.events.trans hbc.events, hab.intents.trans hbc.intents, fun h => ?_⟩) Onward.call w txns
  obtain ⟨hfence, hevents, hintents⟩ := hab.fence h
  obtain ⟨hfence', hevents', hintents'⟩ := hbc.fence hfence
  exact ⟨hfence', hevents'.trans hevents, hintents'.trans hintents⟩

theorem installed_inv (epoch : Text) (newDatabase : Bool) : Inv N sha256 ownerId (installed ownerId epoch newDatabase) where
  revision := rfl
  events := rfl
  intents := rfl
  seqs := rfl
  degraded := Nat.zero_le 1
  keys := rfl
  once := List.nodup_nil
  texts := .nil
  intentTexts _ h := absurd h List.not_mem_nil

theorem Inv.run (hinv : Inv N sha256 ownerId w) (txns : List Txn) : Inv N sha256 ownerId (w.run N sha256 ownerId txns) :=
  World.run_rel (fun w w' => Inv N sha256 ownerId w → Inv N sha256 ownerId w') (fun _ => id)
    (fun _ _ _ hab hbc h => hbc (hab h)) (fun inTransaction _ c h => h.call inTransaction c) w txns hinv

theorem told_of_mem {texts : List Text} {l : List Answered} (h : List.Forall₂ (Tells N sha256 ownerId) texts l)
    (hmem : text ∈ texts) : ∃ e ∈ l, Tells N sha256 ownerId text e := by
  induction h with
  | nil => cases hmem
  | cons htells _ ih =>
    rcases List.mem_cons.1 hmem with rfl | hmem
    · exact ⟨_, List.mem_cons_self, htells⟩
    · obtain ⟨e, he, htold⟩ := ih hmem
      exact ⟨e, List.mem_cons_of_mem _ he, htold⟩

theorem length_ticketed (l : List Answered) (key : Text) :
    (l.filter (fun e => ticketed e == some key)).length = (l.filterMap ticketed).count key := by
  induction l with
  | nil => rfl
  | cons e l ih =>
    rw [List.filter_cons, List.filterMap_cons]
    cases hkey : ticketed e with
    | none => simpa using ih
    | some k =>
      by_cases hk : k = key
      · subst hk
        simp [ih]
      · simp [hk, ih]

variable (N sha256 ownerId) in
/-- **A publication ticket is issued once, and evidence is only added**, over every run of transactions on an installed
store. -/
theorem publication_once (epoch : Text) (newDatabase : Bool) (txns more : List Txn) :
    let w := (installed ownerId epoch newDatabase).run N sha256 ownerId txns
    let later := w.run N sha256 ownerId more
    (∀ key, (w.history.filter (fun e => ticketed e == some key)).length ≤ 1) ∧
      (w.db.source.event_count = w.db.events.length ∧ w.db.source.intent_count = w.db.intents.length ∧
        w.db.events.map Prod.fst = List.range' 1 w.db.source.event_count ∧
        w.db.source.revision = bigText (w.history.filter recorded).length ∧
        (w.history.filter recorded).length = w.db.events.length) ∧
      (w.db.source.degraded ≤ 1 ∧ (w.db.source.degraded = 1 →
        later.db.source.degraded = 1 ∧ later.db.events = w.db.events ∧ later.db.intents = w.db.intents)) ∧
      (w.db.events <+: later.db.events ∧ w.db.intents <+: later.db.intents) ∧
      (∀ inTransaction call faults db, (∀ answer,
          (record N sha256 ownerId inTransaction call faults db).1 ≠ .returned (some answer)) →
        (record N sha256 ownerId inTransaction call faults db).2.events = db.events ∧
          (record N sha256 ownerId inTransaction call faults db).2.intents = db.intents) ∧
      ∀ text, text ∈ w.db.events.map Prod.snd ∨ text ∈ w.db.intents.map Prod.snd →
        ∃ e ∈ w.history, Tells N sha256 ownerId text e := by
  intro w later
  have hinv : Inv N sha256 ownerId w := (installed_inv epoch newDatabase).run txns
  have honward : Onward w later := Onward.run w more
  have hlength := hinv.texts.length_eq
  rw [List.length_map] at hlength
  refine ⟨fun key => ?_, ⟨hinv.events, hinv.intents, ?_, ?_, hlength.symm⟩, ⟨hinv.degraded, honward.fence⟩,
    ⟨honward.events, honward.intents⟩, ?_, ?_⟩
  · rw [length_ticketed, ← hinv.keys]
    exact List.nodup_iff_count_le_one.1 hinv.once key
  · rw [hinv.events]
    exact hinv.seqs
  · rw [← hlength]
    exact hinv.revision
  · intro inTransaction call faults db hnull
    rcases record_cases inTransaction call faults db with ⟨-, hdb | hdb⟩ | ⟨answer, text, hanswer, -⟩
    · rw [hdb]
      exact ⟨rfl, rfl⟩
    · rw [hdb]
      exact ⟨rfl, rfl⟩
    · exact absurd hanswer (hnull answer)
  · intro text htext
    have hevent : text ∈ w.db.events.map Prod.snd := by
      rcases htext with h | h
      · exact h
      · obtain ⟨e, he, rfl⟩ := List.mem_map.1 h
        exact hinv.intentTexts e he
    obtain ⟨e, he, htells⟩ := told_of_mem hinv.texts hevent
    exact ⟨e, (List.mem_filter.1 he).1, htells⟩

end Wollipog.Publication
