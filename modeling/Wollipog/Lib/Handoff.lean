import Wollipog.Lib.Run
/-!
# Handoff — a line of items, prepared ahead and handed over in order

Where the line is `staged`, each item is prepared before it is handed over, and none behind a `wide` item that is not
settled.
-/
namespace Handoff

open Sys (Trace)

variable {α β : Type*}

structure Line (α β : Type*) where
  waiting : List (α × Option β)
  ahead : Nat
  busy : List (α × Option β)
  closed : Bool
  held : List (α × β)

def Line.empty : Line α β := ⟨[], 0, [], false, []⟩

inductive Act (α β : Type*)
  | accept (a : α)
  | prepare (a : α) (v : Option β)
  | hand (run : List (α × Option β))
  | settle (run : List (α × Option β))
  | close
  | discard (a : α) (v : β)
  | other

def value (b : α × Option β) : Option (α × β) := b.2.map (fun v => (b.1, v))

def values (l : List (α × Option β)) : List (α × β) := l.filterMap value

inductive Move (wide : α → Bool) (staged : Bool) : Line α β → Act α β → Line α β → Prop
  | accept {s : Line α β} {a : α} (ho : s.closed = false) :
      Move wide staged s (.accept a) { s with waiting := s.waiting ++ [(a, none)] }
  | prepare {s : Line α β} {a : α} {v : Option β} {pre post : List (α × Option β)} (hs : staged = true)
      (ho : s.closed = false) (hw : s.waiting = pre ++ (a, none) :: post) (hl : pre.length = s.ahead)
      (hb : ∀ b ∈ s.busy ++ pre, wide b.1 = false) :
      Move wide staged s (.prepare a v) { s with waiting := pre ++ (a, v) :: post, ahead := s.ahead + 1 }
  | hand {s : Line α β} {run rest : List (α × Option β)} (ho : s.closed = false) (hb : s.busy = [])
      (hw : s.waiting = run ++ rest) (hl : staged = true → run.length ≤ s.ahead) :
      Move wide staged s (.hand run) { s with waiting := rest, ahead := s.ahead - run.length, busy := run }
  | settle {s : Line α β} : Move wide staged s (.settle s.busy) { s with busy := [] }
  | close {s : Line α β} (ho : s.closed = false) :
      Move wide staged s .close
        { s with waiting := [], ahead := 0, closed := true, held := values (s.waiting.take s.ahead) }
  | discard {s : Line α β} {a : α} {v : β} {rest : List (α × β)} (hh : s.held = (a, v) :: rest) :
      Move wide staged s (.discard a v) { s with held := rest }
  | other {s : Line α β} : Move wide staged s .other s

/-! ## What a history shows -/

def Act.accepts : Act α β → List α
  | .accept a => [a]
  | _ => []

def Act.prepares : Act α β → List (α × Option β)
  | .prepare a v => [(a, v)]
  | _ => []

def Act.hands : Act α β → List (α × Option β)
  | .hand run => run
  | _ => []

def Act.settles : Act α β → List (α × Option β)
  | .settle run => run
  | _ => []

def Act.discards : Act α β → List (α × β)
  | .discard a v => [(a, v)]
  | _ => []

def accepted (k : List (Act α β)) : List α := k.flatMap Act.accepts
def prepared (k : List (Act α β)) : List (α × Option β) := k.flatMap Act.prepares
def handed (k : List (Act α β)) : List (α × Option β) := k.flatMap Act.hands
def settled (k : List (Act α β)) : List (α × Option β) := k.flatMap Act.settles
def discarded (k : List (Act α β)) : List (α × β) := k.flatMap Act.discards

section Snoc
variable (k : List (Act α β)) (x : Act α β)

@[simp] theorem accepted_snoc : accepted (k ++ [x]) = accepted k ++ x.accepts := by simp [accepted]
@[simp] theorem prepared_snoc : prepared (k ++ [x]) = prepared k ++ x.prepares := by simp [prepared]
@[simp] theorem handed_snoc : handed (k ++ [x]) = handed k ++ x.hands := by simp [handed]
@[simp] theorem settled_snoc : settled (k ++ [x]) = settled k ++ x.settles := by simp [settled]
@[simp] theorem discarded_snoc : discarded (k ++ [x]) = discarded k ++ x.discards := by simp [discarded]

end Snoc

@[simp] theorem values_append (l m : List (α × Option β)) : values (l ++ m) = values l ++ values m := by
  simp [values]

theorem values_eq_nil {l : List (α × Option β)} (h : ∀ b ∈ l, b.2 = none) : values l = [] := by
  unfold values
  rw [List.filterMap_eq_nil_iff]
  intro b hb
  simp [value, h b hb]

/-- Whenever an item is prepared, the items before it are the settled ones and then some that are not wide. -/
def Barrier (wide : α → Bool) (k : List (Act α β)) : Prop :=
  ∀ k₁ a v k₂, k = k₁ ++ .prepare a v :: k₂ →
    ∃ unsettled post, accepted k₁ = (settled k₁ ++ unsettled).map Prod.fst ++ a :: post ∧
      ∀ b ∈ unsettled, wide b.1 = false

theorem Barrier.snoc {wide : α → Bool} {k : List (Act α β)} {x : Act α β} (h : Barrier wide k)
    (hx : ∀ a v, x = .prepare a v → ∃ unsettled post,
      accepted k = (settled k ++ unsettled).map Prod.fst ++ a :: post ∧ ∀ b ∈ unsettled, wide b.1 = false) :
    Barrier wide (k ++ [x]) := by
  intro k₁ a v k₂ hk
  rcases List.eq_nil_or_concat k₂ with rfl | ⟨m, y, rfl⟩
  · obtain ⟨rfl, hxa⟩ := List.append_inj' hk rfl
    cases hxa
    exact hx a v rfl
  · have hk' : k ++ [x] = (k₁ ++ .prepare a v :: m) ++ [y] := by rw [hk]; simp
    obtain ⟨hkm, -⟩ := List.append_inj' hk' rfl
    exact h k₁ a v m hkm

/-- **What every trace keeps**, for the line it reached. -/
structure Kept (wide : α → Bool) (staged : Bool) (k : List (Act α β)) (s : Line α β) : Prop where
  line : s.closed = false → accepted k = (handed k ++ s.waiting).map Prod.fst
  fifo : (handed k).map Prod.fst <+: accepted k
  order : (prepared k).map Prod.fst <+: accepted k
  ready : staged = true → s.closed = false → prepared k = handed k ++ s.waiting.take s.ahead
  unstaged : staged = false → s.ahead = 0
  bound : s.ahead ≤ s.waiting.length
  fresh : ∀ b ∈ s.waiting.drop s.ahead, b.2 = none
  kept : s.closed = false → discarded k = [] ∧ s.held = []
  dropped : s.closed = true → s.waiting = []
  values : values (prepared k) = values (handed k) ++ discarded k ++ s.held ++ values (s.waiting.take s.ahead)
  busy : handed k = settled k ++ s.busy
  barrier : Barrier wide k

variable {wide : α → Bool} {staged : Bool}

theorem Kept.empty : Kept wide staged ([] : List (Act α β)) Line.empty := by
  refine ⟨?_, ?_, ?_, ?_, ?_, ?_, ?_, ?_, ?_, ?_, ?_, ?_⟩
  all_goals simp [Line.empty, accepted, handed, prepared, discarded, settled, Handoff.values, Barrier]

theorem Kept.accept {k : List (Act α β)} {s : Line α β} {a : α} (h : Kept wide staged k s) (ho : s.closed = false) :
    Kept wide staged (k ++ [.accept a]) { s with waiting := s.waiting ++ [(a, none)] } := by
  have hb := h.bound
  have htake : (s.waiting ++ [(a, none)]).take s.ahead = s.waiting.take s.ahead := List.take_append_of_le_length hb
  have hdrop : (s.waiting ++ [(a, none)]).drop s.ahead = s.waiting.drop s.ahead ++ [(a, none)] :=
    List.drop_append_of_le_length hb
  constructor
  case line => simp [Act.accepts, Act.hands, h.line ho]
  case fifo => simpa [Act.accepts, Act.hands] using h.fifo.trans (List.prefix_append _ _)
  case order => simpa [Act.accepts, Act.prepares] using h.order.trans (List.prefix_append _ _)
  case ready => simpa [Act.prepares, Act.hands, htake] using h.ready
  case unstaged => exact h.unstaged
  case bound => simp only [List.length_append]; omega
  case fresh =>
    intro b hmem
    simp only [hdrop, List.mem_append, List.mem_singleton] at hmem
    rcases hmem with hold | rfl
    · exact h.fresh b hold
    · rfl
  case kept => simpa [Act.discards] using h.kept
  case dropped => intro hc; simp only [ho] at hc; cases hc
  case values => simpa [Act.prepares, Act.hands, Act.discards, htake] using h.values
  case busy => simpa [Act.hands, Act.settles] using h.busy
  case barrier => exact h.barrier.snoc (fun _ _ heq => by cases heq)

theorem Kept.prepare {k : List (Act α β)} {s : Line α β} {a : α} {v : Option β} {pre post : List (α × Option β)}
    (h : Kept wide staged k s) (hs : staged = true) (ho : s.closed = false)
    (hw : s.waiting = pre ++ (a, none) :: post) (hl : pre.length = s.ahead)
    (hb : ∀ b ∈ s.busy ++ pre, wide b.1 = false) :
    Kept wide staged (k ++ [.prepare a v]) { s with waiting := pre ++ (a, v) :: post, ahead := s.ahead + 1 } := by
  have htake : s.waiting.take s.ahead = pre := by rw [hw, ← hl]; simp
  have htake' : (pre ++ (a, v) :: post).take (s.ahead + 1) = pre ++ [(a, v)] := by rw [← hl]; simp [List.take_append]
  have hdrop' : (pre ++ (a, v) :: post).drop (s.ahead + 1) = post := by rw [← hl]; simp [List.drop_append]
  have hready : prepared k = handed k ++ pre := by rw [h.ready hs ho, htake]
  have hline := h.line ho
  constructor
  case line => intro _; simpa [Act.accepts, Act.hands, hw] using hline
  case fifo => simpa [Act.accepts, Act.hands] using h.fifo
  case order =>
    simp only [prepared_snoc, accepted_snoc, Act.prepares, Act.accepts, hready, hline, hw]
    exact ⟨post.map Prod.fst, by simp⟩
  case ready => intro _ _; simp [Act.prepares, Act.hands, htake', hready]
  case unstaged => intro hf; rw [hs] at hf; cases hf
  case bound => simp only [List.length_append, List.length_cons]; omega
  case fresh =>
    intro b hmem
    simp only [hdrop'] at hmem
    have hdrop : s.waiting.drop s.ahead = (a, none) :: post := by rw [hw, ← hl]; simp
    exact h.fresh b (by rw [hdrop]; exact List.mem_cons_of_mem _ hmem)
  case kept => simpa [Act.discards] using h.kept
  case dropped => intro hc; simp only [ho] at hc; cases hc
  case values =>
    have hv := h.values
    rw [htake] at hv
    simp only [prepared_snoc, handed_snoc, discarded_snoc, Act.prepares, Act.hands, Act.discards, values_append, htake',
      hv, List.append_nil, List.append_assoc]
  case busy => simpa [Act.hands, Act.settles] using h.busy
  case barrier =>
    refine h.barrier.snoc (fun a' v' heq => ⟨s.busy ++ pre, post.map Prod.fst, ?_, hb⟩)
    cases heq
    rw [hline, hw, h.busy]
    simp

theorem Kept.hand {k : List (Act α β)} {s : Line α β} {run rest : List (α × Option β)} (h : Kept wide staged k s)
    (ho : s.closed = false) (hb : s.busy = []) (hw : s.waiting = run ++ rest)
    (hl : staged = true → run.length ≤ s.ahead) :
    Kept wide staged (k ++ [.hand run])
      { s with waiting := rest, ahead := s.ahead - run.length, busy := run } := by
  have hline := h.line ho
  have hbound := h.bound
  rw [hw, List.length_append] at hbound
  have hvalues : Handoff.values (s.waiting.take s.ahead) =
      Handoff.values run ++ Handoff.values (rest.take (s.ahead - run.length)) := by
    cases hst : staged with
    | true =>
      have hle := hl hst
      rw [hw, List.take_append, List.take_of_length_le hle, values_append]
    | false =>
      have h0 := h.unstaged hst
      have hrun : Handoff.values run = [] := by
        refine values_eq_nil (fun b hmem => h.fresh b ?_)
        rw [h0, hw, List.drop_zero]
        exact List.mem_append_left _ hmem
      simp [h0, hrun]
  constructor
  case line => intro _; simpa [Act.accepts, Act.hands, hw] using hline
  case fifo =>
    simp only [handed_snoc, accepted_snoc, Act.hands, Act.accepts, hline, hw]
    exact ⟨rest.map Prod.fst, by simp⟩
  case order => simpa [Act.accepts, Act.prepares] using h.order
  case ready =>
    intro hst _
    have hle := hl hst
    have hr := h.ready hst ho
    rw [hw, List.take_append, List.take_of_length_le hle] at hr
    simpa [Act.prepares, Act.hands] using hr
  case unstaged => intro hst; have := h.unstaged hst; simp only; omega
  case bound => simp only; omega
  case fresh =>
    intro b hmem
    refine h.fresh b ?_
    rw [hw, List.drop_append]
    exact List.mem_append_right _ hmem
  case kept => simpa [Act.discards] using h.kept
  case dropped => intro hc; simp only [ho] at hc; cases hc
  case values =>
    obtain ⟨hd, hh⟩ := h.kept ho
    have hv := h.values
    simp only [hd, hh, hvalues] at hv
    simp [Act.prepares, Act.hands, Act.discards, hd, hh, hv]
  case busy =>
    have hbusy := h.busy
    rw [hb, List.append_nil] at hbusy
    simp [Act.hands, Act.settles, hbusy]
  case barrier => exact h.barrier.snoc (fun _ _ heq => by cases heq)

theorem Kept.close {k : List (Act α β)} {s : Line α β} (h : Kept wide staged k s) (ho : s.closed = false) :
    Kept wide staged (k ++ [.close])
      { s with waiting := [], ahead := 0, closed := true, held := Handoff.values (s.waiting.take s.ahead) } := by
  obtain ⟨hd, hh⟩ := h.kept ho
  constructor
  case line => intro hc; cases hc
  case fifo => simpa [Act.accepts, Act.hands] using h.fifo
  case order => simpa [Act.accepts, Act.prepares] using h.order
  case ready => intro _ hc; cases hc
  case unstaged => intro _; rfl
  case bound => exact Nat.le_refl 0
  case fresh => intro b hmem; simp at hmem
  case kept => intro hc; cases hc
  case dropped => intro _; rfl
  case values =>
    have hv := h.values
    simp only [hd, hh] at hv
    simpa [Act.prepares, Act.hands, Act.discards, hd, Handoff.values] using hv
  case busy => simpa [Act.hands, Act.settles] using h.busy
  case barrier => exact h.barrier.snoc (fun _ _ heq => by cases heq)

theorem Kept.discard {k : List (Act α β)} {s : Line α β} {a : α} {v : β} {rest : List (α × β)}
    (h : Kept wide staged k s) (hh : s.held = (a, v) :: rest) :
    Kept wide staged (k ++ [.discard a v]) { s with held := rest } := by
  -- an open line holds nothing, so this one is closed
  have hc : s.closed = true := by
    cases hcl : s.closed with
    | true => rfl
    | false => rw [(h.kept hcl).2] at hh; cases hh
  constructor
  case line => intro ho; simp only [hc] at ho; cases ho
  case fifo => simpa [Act.accepts, Act.hands] using h.fifo
  case order => simpa [Act.accepts, Act.prepares] using h.order
  case ready => intro _ ho; simp only [hc] at ho; cases ho
  case unstaged => exact h.unstaged
  case bound => exact h.bound
  case fresh => exact h.fresh
  case kept => intro ho; simp only [hc] at ho; cases ho
  case dropped => exact h.dropped
  case values =>
    have hv := h.values
    rw [hh] at hv
    simpa [Act.prepares, Act.hands, Act.discards] using hv
  case busy => simpa [Act.hands, Act.settles] using h.busy
  case barrier => exact h.barrier.snoc (fun _ _ heq => by cases heq)

/-- An act that accepts, prepares, hands over and discards nothing. -/
theorem Kept.silent {k : List (Act α β)} {s : Line α β} {x : Act α β} {busy : List (α × Option β)} (h : Kept wide staged k s)
    (ha : x.accepts = []) (hp : x.prepares = []) (hh : x.hands = []) (hd : x.discards = []) (hb : s.busy = x.settles ++ busy) :
    Kept wide staged (k ++ [x]) { s with busy := busy } := by
  constructor
  case line => simpa [ha, hh] using h.line
  case fifo => simpa [ha, hh] using h.fifo
  case order => simpa [ha, hp] using h.order
  case ready => simpa [hp, hh] using h.ready
  case unstaged => exact h.unstaged
  case bound => exact h.bound
  case fresh => exact h.fresh
  case kept => simpa [hd] using h.kept
  case dropped => exact h.dropped
  case values => simpa [hp, hh, hd] using h.values
  case busy => simpa [hh, hb] using h.busy
  case barrier =>
    refine h.barrier.snoc (fun a v hx => ?_)
    subst hx
    cases hp

theorem Kept.settle {k : List (Act α β)} {s : Line α β} (h : Kept wide staged k s) :
    Kept wide staged (k ++ [.settle s.busy]) { s with busy := [] } :=
  h.silent rfl rfl rfl rfl (List.append_nil s.busy).symm

theorem Kept.other {k : List (Act α β)} {s : Line α β} (h : Kept wide staged k s) : Kept wide staged (k ++ [.other]) s :=
  h.silent rfl rfl rfl rfl rfl

theorem Kept.move {k : List (Act α β)} {s t : Line α β} {x : Act α β} (h : Kept wide staged k s)
    (hm : Move wide staged s x t) : Kept wide staged (k ++ [x]) t := by
  cases hm with
  | accept ho => exact h.accept ho
  | prepare hs ho hw hl hb => exact h.prepare hs ho hw hl hb
  | hand ho hb hw hl => exact h.hand ho hb hw hl
  | settle => exact h.settle
  | close ho => exact h.close ho
  | discard hh => exact h.discard hh
  | other => exact h.other

/-- **What a line keeps over any trace.** -/
theorem trace_kept {k : List (Act α β)} {s : Line α β} (h : Trace (Move wide staged) Line.empty k s) : Kept wide staged k s :=
  h.hist (Kept wide staged) Kept.empty (fun _ _ _ _ hk hm => hk.move hm)

end Handoff
