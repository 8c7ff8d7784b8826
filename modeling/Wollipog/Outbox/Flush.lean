import Wollipog.Lib.Run
/-!
# Flush — what the runner's outbox sends, keeps and loses

Messages wait while the socket is down: some replace the last of their key, and past the cap the oldest go. A flush
puts back what a failed send leaves, while further messages may arrive from within it.
-/
namespace Wollipog.Outbox

/-- What the buffer reads of a message. -/
class CoalescableMessage (T : Type) where
  type : T → String
  sessionId : T → Option String

def maxOutbox : Nat := 1000

section Buffer

variable {T : Type} [CoalescableMessage T]

open CoalescableMessage

def coalesced (msg : T) : Bool :=
  type msg == "session_status" || type msg == "session_queue" || type msg == "runner_capacity_status"

def sameKey (msg m : T) : Bool := type m == type msg && sessionId m == sessionId msg

/-- The buffer without the entry that `msg` replaces. -/
def replaced (buffer : List T) (msg : T) : List T := if coalesced msg then buffer.eraseP (sameKey msg) else buffer

/-- The buffer with `msg` at its end, before the cap. -/
def grown (buffer : List T) (msg : T) : List T := replaced buffer msg ++ [msg]

def enqueue (max : Nat) (buffer : List T) (msg : T) : List T := (grown buffer msg).drop ((grown buffer msg).length - max)

def restoreFront (max : Nat) (buffer messages : List T) : List T :=
  if messages.isEmpty then buffer else (messages ++ buffer).take max

end Buffer

structure Message where
  type : String
  sessionId : Option String
  body : String
  deriving DecidableEq

structure Numbered where
  number : Nat
  message : Message
  deriving DecidableEq

instance : CoalescableMessage Numbered where
  type := fun m => m.message.type
  sessionId := fun m => m.message.sessionId

inductive Flight
  | none
  | project (left : List Numbered)
  | send (left : List Numbered)
  deriving DecidableEq

def Flight.left : Flight → List Numbered
  | .none => []
  | .project left => left
  | .send left => left

structure World where
  max : Nat := maxOutbox
  next : Nat := 0
  buffer : List Numbered := []
  flight : Flight := .none
  deriving DecidableEq

inductive Projection
  | message | null | throws
  deriving DecidableEq

inductive Op
  | enqueue (message : Message)
  | flush
  | project (result : Projection)
  | send (throws : Bool)
  deriving DecidableEq

inductive Seen
  | enqueued (m : Numbered)
  | sent (number : Nat)
  | projectedToNull (number : Nat)
  | projectionFailed (number : Nat)
  /-- Cut off by the cap, with what the buffer kept then. -/
  | dropped (number : Nat) (kept : List Nat)
  deriving DecidableEq

def numbers (l : List Numbered) : List Nat := l.map Numbered.number

def cut (gone kept : List Numbered) : List Seen := gone.map (fun m => .dropped m.number (numbers kept))

def onward (left : List Numbered) : Flight := if left.isEmpty then .none else .project left

def step (w : World) : Op → Option (World × List Seen)
  | .enqueue message =>
    let msg : Numbered := ⟨w.next, message⟩
    let kept := enqueue w.max w.buffer msg
    some ({ w with next := w.next + 1, buffer := kept },
      .enqueued msg :: cut ((grown w.buffer msg).take ((grown w.buffer msg).length - w.max)) kept)
  | .flush => if w.flight = .none then some ({ w with buffer := [], flight := onward w.buffer }, []) else none
  | .project result =>
    match w.flight with
    | .project (m :: left) =>
      match result with
      | .message => some ({ w with flight := .send (m :: left) }, [])
      | .null => some ({ w with flight := onward left }, [.projectedToNull m.number])
      | .throws => some ({ w with flight := onward left }, [.projectionFailed m.number])
    | _ => none
  | .send throws =>
    match w.flight with
    | .send (m :: left) =>
      if throws then
        let kept := restoreFront w.max w.buffer (m :: left)
        some ({ w with buffer := kept, flight := .none }, cut ((m :: left ++ w.buffer).drop w.max) kept)
      else some ({ w with flight := onward left }, [.sent m.number])
    | _ => none

/-! ## What holds over a run -/

def sent (l : List Seen) : List Nat := l.filterMap (fun | .sent number => some number | _ => none)

theorem sent_append (l k : List Seen) : sent (l ++ k) = sent l ++ sent k := List.filterMap_append

theorem sent_cut (gone kept : List Numbered) : sent (cut gone kept) = [] := by
  unfold sent cut
  rw [List.filterMap_map]
  exact List.filterMap_eq_nil_iff.2 (fun _ _ => rfl)

theorem not_enqueued_cut (gone kept : List Numbered) (m : Numbered) : .enqueued m ∉ cut gone kept := by
  intro hm
  obtain ⟨_, _, heq⟩ := List.mem_map.1 hm
  cases heq

def line (l : List Seen) (w : World) : List Nat := sent l ++ numbers (w.flight.left ++ w.buffer)

structure Ordered (l : List Seen) (w : World) : Prop where
  rising : (line l w).Pairwise (· < ·)
  below : ∀ n ∈ line l w, n < w.next
  known : ∀ m ∈ w.flight.left ++ w.buffer, .enqueued m ∈ l
  fresh : ∀ m, .enqueued m ∈ l → m.number < w.next
  unique : ∀ m m', .enqueued m ∈ l → .enqueued m' ∈ l → m.number = m'.number → m = m'

/-- Why a message is not in line: no projection, a newer one of its key, or the cap. -/
def Given (l : List Seen) (max : Nat) (m : Numbered) : Prop :=
  .projectedToNull m.number ∈ l ∨ .projectionFailed m.number ∈ l ∨
    (∃ newer, .enqueued newer ∈ l ∧ m.number < newer.number ∧ coalesced newer = true ∧ sameKey newer m = true) ∨
    ∃ kept, .dropped m.number kept ∈ l ∧ kept.length = max ∧ ∀ k ∈ kept, m.number < k

def Accounted (l : List Seen) (w : World) : Prop :=
  ∀ m, .enqueued m ∈ l → m.number ∈ line l w ∨ Given l w.max m

/-- At a failed send, what is unsent and what was buffered meanwhile fit the cap together. -/
def Fits (w : World) (op : Op) : Prop :=
  op = .send true → w.flight.left.length + w.buffer.length ≤ w.max

variable {l : List Seen} {w w' : World} {op : Op} {o : List Seen}

theorem Given.mono {max : Nat} {m : Numbered} (h : Given l max m) (k : List Seen) : Given (l ++ k) max m := by
  rcases h with h | h | ⟨newer, hnewer, hrest⟩ | ⟨kept, hkept, hrest⟩
  · exact .inl (List.mem_append_left k h)
  · exact .inr (.inl (List.mem_append_left k h))
  · exact .inr (.inr (.inl ⟨newer, List.mem_append_left k hnewer, hrest⟩))
  · exact .inr (.inr (.inr ⟨kept, List.mem_append_left k hkept, hrest⟩))

theorem onward_left (left : List Numbered) : (onward left).left = left := by
  cases left <;> rfl

theorem replaced_sublist (buffer : List Numbered) (msg : Numbered) : (replaced buffer msg).Sublist buffer := by
  unfold replaced
  split
  · exact List.eraseP_sublist
  · exact List.Sublist.refl _

theorem mem_replaced {buffer : List Numbered} {msg m : Numbered} (hm : m ∈ buffer) :
    m ∈ replaced buffer msg ∨ (coalesced msg = true ∧ sameKey msg m = true) := by
  unfold replaced
  by_cases hcoalesced : coalesced msg = true
  · rw [if_pos hcoalesced]
    by_cases hkey : sameKey msg m = true
    · exact .inr ⟨hcoalesced, hkey⟩
    · exact .inl ((List.mem_eraseP_of_neg hkey).2 hm)
  · rw [if_neg hcoalesced]
    exact .inl hm

theorem Ordered.sublist (ho : Ordered l w) (hline : (line (l ++ o) w').Sublist (line l w)) (hnext : w'.next = w.next)
    (hknown : ∀ m ∈ w'.flight.left ++ w'.buffer, m ∈ w.flight.left ++ w.buffer) (hnone : ∀ m, .enqueued m ∉ o) :
    Ordered (l ++ o) w' where
  rising := ho.rising.sublist hline
  below := fun n hn => hnext ▸ ho.below n (hline.subset hn)
  known := fun m hm => List.mem_append_left o (ho.known m (hknown m hm))
  fresh := fun m hm => hnext ▸ ho.fresh m ((List.mem_append.1 hm).resolve_right (hnone m))
  unique := fun m m' hm hm' =>
    ho.unique m m' ((List.mem_append.1 hm).resolve_right (hnone m)) ((List.mem_append.1 hm').resolve_right (hnone m'))

theorem Ordered.enqueue (ho : Ordered l w) (message : Message) :
    Ordered (l ++ .enqueued ⟨w.next, message⟩ :: cut ((grown w.buffer ⟨w.next, message⟩).take ((grown w.buffer ⟨w.next, message⟩).length - w.max))
        (Outbox.enqueue w.max w.buffer ⟨w.next, message⟩))
      { w with next := w.next + 1, buffer := Outbox.enqueue w.max w.buffer ⟨w.next, message⟩ } := by
  set msg : Numbered := ⟨w.next, message⟩
  set gone := cut ((grown w.buffer msg).take ((grown w.buffer msg).length - w.max)) (Outbox.enqueue w.max w.buffer msg)
  have hsent : sent (l ++ .enqueued msg :: gone) = sent l := by
    have hcons : sent (.enqueued msg :: gone) = sent gone := rfl
    rw [sent_append, hcons, sent_cut, List.append_nil]
  have hkept : (Outbox.enqueue w.max w.buffer msg).Sublist (w.buffer ++ [msg]) :=
    (List.drop_sublist _ _).trans ((replaced_sublist w.buffer msg).append_right [msg])
  have hline : (line (l ++ .enqueued msg :: gone) { w with next := w.next + 1, buffer := Outbox.enqueue w.max w.buffer msg }).Sublist
      (line l w ++ [w.next]) := by
    unfold line
    rw [hsent, List.append_assoc]
    refine List.Sublist.append_left ?_ (sent l)
    have hnumbers : numbers (w.flight.left ++ w.buffer) ++ [w.next] = numbers (w.flight.left ++ (w.buffer ++ [msg])) := by
      unfold numbers
      rw [← List.append_assoc w.flight.left]
      have happend : (w.flight.left ++ w.buffer).map Numbered.number ++ [msg].map Numbered.number =
          (w.flight.left ++ w.buffer ++ [msg]).map Numbered.number := List.map_append.symm
      exact happend
    rw [hnumbers]
    exact (hkept.append_left w.flight.left).map Numbered.number
  have hnew : ∀ m, Seen.enqueued m ∈ l ++ .enqueued msg :: gone → .enqueued m ∈ l ∨ m = msg := by
    intro m hm
    rcases List.mem_append.1 hm with hold | hnew
    · exact .inl hold
    · rcases List.mem_cons.1 hnew with heq | hcut
      · exact .inr (Seen.enqueued.inj heq)
      · exact absurd hcut (not_enqueued_cut _ _ m)
  refine ⟨List.Pairwise.sublist hline ?_, fun n hn => ?_, fun m hm => ?_, fun m hm => ?_, fun m m' hm hm' hsame => ?_⟩
  · rw [List.pairwise_append]
    refine ⟨ho.rising, List.pairwise_singleton _ _, fun n hn k hk => ?_⟩
    rw [List.mem_singleton.1 hk]
    exact ho.below n hn
  · rcases List.mem_append.1 (hline.subset hn) with hold | hnew
    · exact Nat.lt_succ_of_lt (ho.below n hold)
    · rw [List.mem_singleton.1 hnew]
      exact Nat.lt_succ_self _
  · rcases List.mem_append.1 hm with hleft | hbuffer
    · exact List.mem_append_left _ (ho.known m (List.mem_append_left _ hleft))
    · rcases List.mem_append.1 (hkept.subset hbuffer) with hold | hnew
      · exact List.mem_append_left _ (ho.known m (List.mem_append_right _ hold))
      · rw [List.mem_singleton.1 hnew]
        exact List.mem_append_cons_self
  · rcases hnew m hm with hold | rfl
    · exact Nat.lt_succ_of_lt (ho.fresh m hold)
    · exact Nat.lt_succ_self _
  · rcases hnew m hm with hold | rfl
    · rcases hnew m' hm' with hold' | rfl
      · exact ho.unique m m' hold hold' hsame
      · exact absurd hsame (Nat.ne_of_lt (ho.fresh m hold))
    · rcases hnew m' hm' with hold' | rfl
      · exact absurd hsame.symm (Nat.ne_of_lt (ho.fresh m' hold'))
      · rfl

theorem ordered_step (ho : Ordered l w) (hstep : step w op = some (w', o)) : Ordered (l ++ o) w' := by
  cases op with
  | enqueue message =>
    cases hstep
    exact ho.enqueue message
  | flush =>
    simp only [step] at hstep
    split at hstep
    · rename_i hnone
      cases hstep
      have hleft : (onward w.buffer).left ++ [] = w.flight.left ++ w.buffer := by
        rw [onward_left, hnone, List.append_nil]
        rfl
      refine ho.sublist ?_ rfl (fun m hm => hleft ▸ hm) (fun _ => List.not_mem_nil)
      unfold line
      rw [List.append_nil]
      simp only [hleft]
      exact List.Sublist.refl _
    · cases hstep
  | project result =>
    simp only [step] at hstep
    split at hstep
    · rename_i m left hflight
      have hbefore : w.flight.left = m :: left := by rw [hflight]; rfl
      have hshorter : ((onward left).left ++ w.buffer).Sublist (w.flight.left ++ w.buffer) := by
        rw [onward_left, hbefore]
        exact List.sublist_cons_self _ _
      cases result with
      | message =>
        cases hstep
        refine ho.sublist ?_ rfl (fun k hk => hbefore ▸ hk) (fun _ => List.not_mem_nil)
        unfold line
        rw [List.append_nil, hbefore]
        exact List.Sublist.refl _
      | null | throws =>
        cases hstep
        refine ho.sublist ?_ rfl hshorter.subset (fun k hk => by cases List.mem_singleton.1 hk)
        unfold line
        rw [sent_append]
        exact List.Sublist.append (List.append_nil _ ▸ List.Sublist.refl _) (hshorter.map _)
    · cases hstep
  | send throws =>
    simp only [step] at hstep
    split at hstep
    · rename_i m left hflight
      have hbefore : w.flight.left = m :: left := by rw [hflight]; rfl
      cases throws with
      | true =>
        cases hstep
        have hrestored : (restoreFront w.max w.buffer (m :: left)).Sublist (w.flight.left ++ w.buffer) := by
          rw [hbefore]
          exact List.take_sublist _ _
        refine ho.sublist ?_ rfl hrestored.subset (not_enqueued_cut _ _)
        unfold line
        rw [sent_append, sent_cut, List.append_nil]
        exact List.Sublist.append_left (hrestored.map _) _
      | false =>
        cases hstep
        refine ho.sublist ?_ rfl (fun k hk => ?_) (fun k hk => by cases List.mem_singleton.1 hk)
        · unfold line
          rw [sent_append, hbefore, List.append_assoc]
          simp only [onward_left]
          exact List.Sublist.refl _
        · simp only [onward_left] at hk
          rw [hbefore]
          exact List.mem_cons_of_mem _ hk
    · cases hstep

theorem Accounted.step (ha : Accounted l w) (ho : Ordered l w) (hmax : w'.max = w.max)
    (hnew : ∀ m, .enqueued m ∈ o → m.number ∈ line (l ++ o) w' ∨ Given (l ++ o) w'.max m)
    (hitems : ∀ m ∈ w.flight.left ++ w.buffer, m.number ∈ line (l ++ o) w' ∨ Given (l ++ o) w'.max m) : Accounted (l ++ o) w' := by
  intro m hm
  rcases List.mem_append.1 hm with hold | hfresh
  · rcases ha m hold with hline | hgiven
    · rcases List.mem_append.1 hline with hsent | hnumber
      · left
        refine List.mem_append_left _ ?_
        rw [sent_append]
        exact List.mem_append_left _ hsent
      · obtain ⟨m', hm', hsame⟩ := List.mem_map.1 hnumber
        obtain rfl := ho.unique m' m (ho.known m' hm') hold hsame
        exact hitems m' hm'
    · rw [hmax]
      exact .inr (hgiven.mono o)
  · exact hnew m hfresh

theorem mem_line {m : Numbered} (hm : m ∈ w'.flight.left ++ w'.buffer) : m.number ∈ line l w' :=
  List.mem_append_right _ (List.mem_map_of_mem hm)

/-- **The cap** keeps a message of the grown buffer, or cuts it off as one of the oldest. -/
theorem kept_or_oldest (ho : Ordered l w) (message : Message) {m : Numbered} (hm : m ∈ grown w.buffer ⟨w.next, message⟩) :
    m ∈ enqueue w.max w.buffer ⟨w.next, message⟩ ∨
      (m ∈ (grown w.buffer ⟨w.next, message⟩).take ((grown w.buffer ⟨w.next, message⟩).length - w.max) ∧
        (enqueue w.max w.buffer ⟨w.next, message⟩).length = w.max ∧
        ∀ k ∈ enqueue w.max w.buffer ⟨w.next, message⟩, m.number < k.number) := by
  set g := grown w.buffer ⟨w.next, message⟩ with hg
  have hsplit : g.take (g.length - w.max) ++ g.drop (g.length - w.max) = g := List.take_append_drop _ _
  have hsub : g.Sublist (w.buffer ++ [⟨w.next, message⟩]) := (replaced_sublist w.buffer _).append_right _
  have hrising : g.Pairwise (fun a b => a.number < b.number) := by
    refine List.Pairwise.sublist hsub ?_
    rw [List.pairwise_append]
    have hline : (numbers w.buffer).Pairwise (· < ·) := by
      refine ho.rising.sublist ?_
      unfold line numbers
      rw [List.map_append]
      exact (List.sublist_append_right _ _).trans (List.sublist_append_right _ _)
    refine ⟨List.pairwise_map.1 hline, List.pairwise_singleton _ _, fun a ha b hb => ?_⟩
    rw [List.mem_singleton.1 hb]
    exact ho.fresh a (ho.known a (List.mem_append_right _ ha))
  rw [← hsplit] at hm hrising
  rcases List.mem_append.1 hm with hgone | hkept
  · refine .inr ⟨hgone, ?_, fun k hk => (List.pairwise_append.1 hrising).2.2 m hgone k hk⟩
    have hlonger : g.length - w.max ≠ 0 := by
      intro hzero
      rw [hzero, List.take_zero] at hgone
      cases hgone
    unfold enqueue
    rw [← hg, List.length_drop]
    omega
  · exact .inl hkept

theorem accounted_enqueue (ho : Ordered l w) (ha : Accounted l w) (message : Message) (hstep : Outbox.step w (.enqueue message) = some (w', o)) :
    Accounted (l ++ o) w' := by
  cases hstep
  have hgrown : ∀ m ∈ grown w.buffer ⟨w.next, message⟩,
      m.number ∈ line (l ++ .enqueued ⟨w.next, message⟩ :: cut ((grown w.buffer ⟨w.next, message⟩).take
          ((grown w.buffer ⟨w.next, message⟩).length - w.max)) (enqueue w.max w.buffer ⟨w.next, message⟩))
        { w with next := w.next + 1, buffer := enqueue w.max w.buffer ⟨w.next, message⟩ } ∨
      Given (l ++ .enqueued ⟨w.next, message⟩ :: cut ((grown w.buffer ⟨w.next, message⟩).take
          ((grown w.buffer ⟨w.next, message⟩).length - w.max)) (enqueue w.max w.buffer ⟨w.next, message⟩)) w.max m := by
    intro m hm
    rcases kept_or_oldest ho message hm with hkept | ⟨hgone, hlength, holdest⟩
    · exact .inl (mem_line (List.mem_append_right _ hkept))
    · refine .inr (.inr (.inr (.inr ⟨numbers (enqueue w.max w.buffer ⟨w.next, message⟩), ?_, ?_, fun k hk => ?_⟩)))
      · exact List.mem_append_right _ (List.mem_cons_of_mem _ (List.mem_map_of_mem hgone))
      · unfold numbers
        rw [List.length_map, hlength]
      · obtain ⟨kept, hkept, rfl⟩ := List.mem_map.1 hk
        exact holdest kept hkept
  refine ha.step ho rfl (fun m hm => ?_) (fun m hm => ?_)
  · rcases List.mem_cons.1 hm with heq | hcut
    · obtain rfl := Seen.enqueued.inj heq
      exact hgrown _ (List.mem_append_right _ (List.mem_singleton_self _))
    · exact absurd hcut (not_enqueued_cut _ _ m)
  · rcases List.mem_append.1 hm with hleft | hbuffer
    · exact .inl (mem_line (List.mem_append_left _ hleft))
    · have hreplaces : m ∈ replaced w.buffer ⟨w.next, message⟩ ∨
          (coalesced (⟨w.next, message⟩ : Numbered) = true ∧ sameKey (⟨w.next, message⟩ : Numbered) m = true) := mem_replaced hbuffer
      rcases hreplaces with hreplaced | ⟨hcoalesced, hkey⟩
      · exact hgrown m (List.mem_append_left _ hreplaced)
      · refine .inr (.inr (.inr (.inl ⟨⟨w.next, message⟩, ?_, ?_, hcoalesced, hkey⟩)))
        · exact List.mem_append_cons_self
        · exact ho.fresh m (ho.known m hm)

theorem accounted_step (ho : Ordered l w) (ha : Accounted l w) (hfits : Fits w op) (hstep : Outbox.step w op = some (w', o)) :
    Accounted (l ++ o) w' := by
  cases op with
  | enqueue message => exact accounted_enqueue ho ha message hstep
  | flush =>
    simp only [Outbox.step] at hstep
    split at hstep
    · rename_i hnone
      cases hstep
      refine ha.step ho rfl (fun _ h => absurd h List.not_mem_nil) (fun m hm => .inl (mem_line ?_))
      simp only [onward_left, List.append_nil]
      rw [hnone] at hm
      exact hm
    · cases hstep
  | project result =>
    simp only [Outbox.step] at hstep
    split at hstep
    · rename_i m left hflight
      have hbefore : w.flight.left = m :: left := by rw [hflight]; rfl
      cases result with
      | message =>
        cases hstep
        refine ha.step ho rfl (fun _ h => absurd h List.not_mem_nil) (fun k hk => .inl (mem_line ?_))
        rw [hbefore] at hk
        exact hk
      | null =>
        cases hstep
        refine ha.step ho rfl (fun k hk => by cases List.mem_singleton.1 hk) (fun k hk => ?_)
        rw [hbefore] at hk
        rcases List.mem_cons.1 hk with rfl | hrest
        · exact .inr (.inl (List.mem_append_right _ (List.mem_singleton_self _)))
        · exact .inl (mem_line (by simp only [onward_left]; exact hrest))
      | throws =>
        cases hstep
        refine ha.step ho rfl (fun k hk => by cases List.mem_singleton.1 hk) (fun k hk => ?_)
        rw [hbefore] at hk
        rcases List.mem_cons.1 hk with rfl | hrest
        · exact .inr (.inr (.inl (List.mem_append_right _ (List.mem_singleton_self _))))
        · exact .inl (mem_line (by simp only [onward_left]; exact hrest))
    · cases hstep
  | send throws =>
    simp only [Outbox.step] at hstep
    split at hstep
    · rename_i m left hflight
      have hbefore : w.flight.left = m :: left := by rw [hflight]; rfl
      cases throws with
      | true =>
        cases hstep
        -- All that is put back fits, so the cap cuts nothing off.
        have hwhole : restoreFront w.max w.buffer (m :: left) = m :: left ++ w.buffer := by
          have hroom := hfits rfl
          rw [hbefore] at hroom
          refine List.take_of_length_le ?_
          rw [List.length_append]
          exact hroom
        refine ha.step ho rfl (fun k hk => absurd hk (not_enqueued_cut _ _ k)) (fun k hk => .inl (mem_line ?_))
        simp only [hwhole]
        rw [hbefore] at hk
        exact hk
      | false =>
        cases hstep
        refine ha.step ho rfl (fun k hk => by cases List.mem_singleton.1 hk) (fun k hk => ?_)
        rw [hbefore] at hk
        rcases List.mem_cons.1 hk with rfl | hrest
        · left
          refine List.mem_append_left _ ?_
          rw [sent_append]
          exact List.mem_append_right _ (List.mem_singleton_self _)
        · exact .inl (mem_line (by simp only [onward_left]; exact hrest))
    · cases hstep

/-- **The outbox loses what its policy allows**, in every run whose failed sends put back no more than the cap admits. -/
theorem outbox_accounts_while_fitting {max : Nat} (hrun : Sys.RunOn (fun _ w op => Fits w op) step { max := max } l w) :
    (line l w).Pairwise (· < ·) ∧ Accounted l w := by
  have hboth : Ordered l w ∧ Accounted l w := by
    refine hrun.hist (fun l w => Ordered l w ∧ Accounted l w) ⟨?_, fun _ h => absurd h List.not_mem_nil⟩ ?_
    · exact ⟨List.Pairwise.nil, fun _ h => absurd h List.not_mem_nil, fun _ h => absurd h List.not_mem_nil,
        fun _ h => absurd h List.not_mem_nil, fun _ _ h => absurd h List.not_mem_nil⟩
    · exact fun l w op w' o hboth hfits hstep => ⟨ordered_step hboth.1 hstep, accounted_step hboth.1 hboth.2 hfits hstep⟩
  exact ⟨hboth.1.rising, hboth.2⟩

def anEvent (body : String) : Message := ⟨"permission_request", some "s", body⟩

def roomy : List Op := [.enqueue (anEvent "a"), .flush, .enqueue (anEvent "b"), .project .message, .send true]

theorem outbox_accounts_sample : ∃ l w, Sys.RunOn (fun _ w op => Fits w op) step { max := 2 } l w ∧ numbers w.buffer = [0, 1] ∧
    (line l w).Pairwise (· < ·) ∧ Accounted l w := by
  have h0 : Sys.RunOn (fun _ w op => Fits w op) step { max := 2 } [] { max := 2 } := .nil
  have h1 := h0.snoc (e := .enqueue (anEvent "a")) (fun h => by cases h) rfl
  have h2 := h1.snoc (e := .flush) (fun h => by cases h) rfl
  have h3 := h2.snoc (e := .enqueue (anEvent "b")) (fun h => by cases h) rfl
  have h4 := h3.snoc (e := .project .message) (fun h => by cases h) rfl
  have h5 := h4.snoc (e := .send true) (fun _ => by decide) rfl
  exact ⟨_, _, h5, by decide, outbox_accounts_while_fitting h5⟩

theorem outbox_drops_the_newest : ¬ ∀ (max : Nat) (l : List Seen) (w : World), Sys.Run step { max := max } l w → Accounted l w := by
  intro h
  have hreplay : Sys.replay step { max := 1 } roomy = some
      ({ max := 1, next := 2, buffer := [⟨0, anEvent "a"⟩] },
        [.enqueued ⟨0, anEvent "a"⟩, .enqueued ⟨1, anEvent "b"⟩, .dropped 1 [0]]) := by decide
  have haccounted := h _ _ _ (Sys.replay_run _ _ _ _ hreplay) ⟨1, anEvent "b"⟩ (by decide)
  rcases haccounted with hline | hnull | hfailed | ⟨newer, hnewer, hlater, _⟩ | ⟨kept, hkept, _, holdest⟩
  · exact absurd hline (by decide)
  · exact absurd hnull (by decide)
  · exact absurd hfailed (by decide)
  · have hnumber : newer.number ≤ 1 := by
      simp only [List.mem_cons, Seen.enqueued.injEq, List.not_mem_nil, or_false, reduceCtorEq] at hnewer
      rcases hnewer with rfl | rfl <;> decide
    exact absurd hlater (Nat.not_lt.2 hnumber)
  · have hzero : kept = [0] := by
      simp only [List.mem_cons, Seen.dropped.injEq, true_and, List.not_mem_nil, or_false, reduceCtorEq, false_or] at hkept
      exact hkept
    rw [hzero] at holdest
    exact absurd (holdest 0 (List.mem_singleton_self 0)) (by decide)

end Wollipog.Outbox
