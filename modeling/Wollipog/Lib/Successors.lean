import Mathlib.Logic.Relation
import Mathlib.Data.List.Nodup
import Mathlib.Data.List.Basic
/-!
# Successors — finite graphs, each node with the list of its successors

An ordered list has the successors of every node behind it, so it has no cycle, and a rule that gives each node its
value from the values of its successors has exactly one solution on it.
-/
namespace Successors

variable {α σ : Type*} {edges : α → List α}

/-- `b` is a successor of `a`. -/
def Edge (edges : α → List α) (a b : α) : Prop := b ∈ edges a

def Acyclic (R : α → α → Prop) : Prop := ∀ a, ¬ Relation.TransGen R a a

theorem Acyclic.mono {R S : α → α → Prop} (h : Acyclic S) (hle : ∀ a b, R a b → S a b) : Acyclic R :=
  fun a hcycle => h a (Relation.TransGen.mono hle _ _ hcycle)

theorem path_within {R S : α → α → Prop} {P : α → Prop} (hnext : ∀ x y, P x → R x y → S x y ∧ P y) {a x : α} (ha : P a)
    (h : Relation.TransGen R a x) : Relation.TransGen S a x ∧ P x := by
  induction h with
  | single hedge =>
    obtain ⟨hedge', hy⟩ := hnext _ _ ha hedge
    exact ⟨.single hedge', hy⟩
  | tail _ hedge ih =>
    obtain ⟨hedge', hy⟩ := hnext _ _ ih.2 hedge
    exact ⟨ih.1.tail hedge', hy⟩

inductive Ordered (edges : α → List α) : List α → Prop
  | nil : Ordered edges []
  | cons {a : α} {l : List α} : (∀ b ∈ edges a, b ∈ l) → a ∉ l → Ordered edges l → Ordered edges (a :: l)

theorem Ordered.nodup {l : List α} (h : Ordered edges l) : l.Nodup := by
  induction h with
  | nil => exact List.nodup_nil
  | cons _ hnew _ ih => exact List.nodup_cons.2 ⟨hnew, ih⟩

theorem Ordered.closed {l : List α} (h : Ordered edges l) : ∀ a ∈ l, ∀ b ∈ edges a, b ∈ l := by
  induction h with
  | nil => exact List.forall_mem_nil _
  | @cons a l hout _ _ ih =>
    intro x hx b hb
    rcases List.mem_cons.1 hx with rfl | hx
    · exact List.mem_cons_of_mem _ (hout b hb)
    · exact List.mem_cons_of_mem _ (ih x hx b hb)

theorem Ordered.reaches {l : List α} (h : Ordered edges l) {a b : α} (ha : a ∈ l)
    (hab : Relation.ReflTransGen (Edge edges) a b) : b ∈ l := by
  induction hab with
  | refl => exact ha
  | tail _ hedge ih => exact h.closed _ ih _ hedge

/-- **An ordered list has no cycle.** -/
theorem Ordered.not_cycle {l : List α} (h : Ordered edges l) : ∀ a ∈ l, ¬ Relation.TransGen (Edge edges) a a := by
  induction h with
  | nil => exact List.forall_mem_nil _
  | @cons a l hout hnew hl ih =>
    intro x hx hcycle
    rcases List.mem_cons.1 hx with rfl | hx
    · obtain ⟨b, hedge, hback⟩ := Relation.TransGen.head'_iff.1 hcycle
      exact hnew (hl.reaches (hout b hedge) hback)
    · exact ih x hx hcycle

/-- `f` gives each of the nodes the value of the rule over its successors. -/
def Solves (edges : α → List α) (rule : α → List σ → σ) (nodes : List α) (f : α → σ) : Prop :=
  ∀ a ∈ nodes, f a = rule a ((edges a).map f)

variable [DecidableEq α] {rule : α → List σ → σ}

def solve (edges : α → List α) (rule : α → List σ → σ) (default : σ) : List α → α → σ
  | [] => fun _ => default
  | a :: l => fun x => if x = a then rule a ((edges a).map (solve edges rule default l)) else solve edges rule default l x

theorem Ordered.solves {l : List α} (h : Ordered edges l) (default : σ) : Solves edges rule l (solve edges rule default l) := by
  induction h with
  | nil => exact List.forall_mem_nil _
  | @cons a l hout hnew hl ih =>
    have hkept : ∀ x ∈ l, solve edges rule default (a :: l) x = solve edges rule default l x := fun x hx => by
      refine if_neg ?_
      rintro rfl
      exact hnew hx
    intro x hx
    rcases List.mem_cons.1 hx with rfl | hx
    · have hmap : (edges x).map (solve edges rule default (x :: l)) = (edges x).map (solve edges rule default l) :=
        List.map_congr_left fun b hb => hkept b (hout b hb)
      rw [hmap]
      exact if_pos rfl
    · have hmap : (edges x).map (solve edges rule default (a :: l)) = (edges x).map (solve edges rule default l) :=
        List.map_congr_left fun b hb => hkept b (hl.closed x hx b hb)
      rw [hkept x hx, hmap]
      exact ih x hx

omit [DecidableEq α] in
/-- **A solution is the only one.** -/
theorem Ordered.unique {l : List α} (h : Ordered edges l) {f g : α → σ} (hf : Solves edges rule l f)
    (hg : Solves edges rule l g) : ∀ a ∈ l, f a = g a := by
  induction h with
  | nil => exact List.forall_mem_nil _
  | @cons a l hout hnew hl ih =>
    have htail := ih (fun x hx => hf x (List.mem_cons_of_mem a hx)) (fun x hx => hg x (List.mem_cons_of_mem a hx))
    intro x hx
    rcases List.mem_cons.1 hx with rfl | hx
    · have hmap : (edges x).map f = (edges x).map g := List.map_congr_left fun b hb => htail b (hout b hb)
      rw [hf x List.mem_cons_self, hg x List.mem_cons_self, hmap]
    · exact htail x hx

end Successors
