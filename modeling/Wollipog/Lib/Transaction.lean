import Mathlib
/-!
# Transaction — writes that a refusal takes back

A computation answers or refuses, and what it wrote is there either way until the transaction ends: `atomic` takes
back the writes of one that refused.
-/

def Tx (σ ε α : Type) : Type := σ → Except ε α × σ

namespace Tx

variable {σ ε α β : Type}

protected def pure (a : α) : Tx σ ε α := fun s => (.ok a, s)

protected def bind (m : Tx σ ε α) (f : α → Tx σ ε β) : Tx σ ε β := fun s =>
  match m s with
  | (.ok a, t) => f a t
  | (.error e, t) => (.error e, t)

instance : Monad (Tx σ ε) where
  pure := Tx.pure
  bind := Tx.bind

def read : Tx σ ε σ := fun s => (.ok s, s)

def write (f : σ → σ) : Tx σ ε Unit := fun s => (.ok (), f s)

def refuse (e : ε) : Tx σ ε α := fun s => (.error e, s)

def refuseIf : Option ε → Tx σ ε Unit
  | none => Tx.pure ()
  | some e => refuse e

def atomic (m : Tx σ ε α) : Tx σ ε α := fun s =>
  match m s with
  | (.ok a, t) => (.ok a, t)
  | (.error e, _) => (.error e, s)

variable {m : Tx σ ε α} {f : α → Tx σ ε β} {s t u : σ} {a : α} {b : β} {e : ε}

/-- **An answer of a sequence** is an answer of both parts. -/
theorem bind_ok : (m >>= f) s = (.ok b, u) ↔ ∃ a t, m s = (.ok a, t) ∧ f a t = (.ok b, u) := by
  have hbind : (m >>= f) s = Tx.bind m f s := rfl
  rw [hbind]
  unfold Tx.bind
  constructor
  · intro h
    split at h
    · rename_i a t hm
      exact ⟨a, t, hm, h⟩
    · cases h
  · rintro ⟨a, t, hm, hf⟩
    rw [hm]
    exact hf

theorem bind_error : (m >>= f) s = (.error e, u) ↔ m s = (.error e, u) ∨ ∃ a t, m s = (.ok a, t) ∧ f a t = (.error e, u) := by
  have hbind : (m >>= f) s = Tx.bind m f s := rfl
  rw [hbind]
  unfold Tx.bind
  constructor
  · intro h
    split at h
    · rename_i a t hm
      exact .inr ⟨a, t, hm, h⟩
    · rename_i e' t hm
      cases h
      exact .inl hm
  · rintro (hm | ⟨a, t, hm, hf⟩)
    · rw [hm]
    · rw [hm]
      exact hf

theorem pure_ok {a' : α} : (pure a : Tx σ ε α) s = (.ok a', u) ↔ a = a' ∧ s = u := by
  constructor
  · intro h
    cases h
    exact ⟨rfl, rfl⟩
  · rintro ⟨rfl, rfl⟩
    rfl

theorem read_ok : (read : Tx σ ε σ) s = (.ok t, u) ↔ s = t ∧ s = u := by
  constructor
  · intro h
    cases h
    exact ⟨rfl, rfl⟩
  · rintro ⟨rfl, rfl⟩
    rfl

theorem write_ok {g : σ → σ} {x : Unit} : (write g : Tx σ ε Unit) s = (.ok x, u) ↔ g s = u := by
  constructor
  · intro h
    cases h
    rfl
  · rintro rfl
    rfl

theorem bind_read_ok {f : σ → Tx σ ε β} : (read >>= f) s = (.ok b, u) ↔ f s s = (.ok b, u) := by
  rw [bind_ok]
  exact ⟨fun ⟨_, _, hread, h⟩ => by obtain ⟨rfl, rfl⟩ := read_ok.1 hread; exact h, fun h => ⟨s, s, rfl, h⟩⟩

theorem bind_write_ok {g : σ → σ} {f : Unit → Tx σ ε β} : (write g >>= f) s = (.ok b, u) ↔ f () (g s) = (.ok b, u) := by
  rw [bind_ok]
  exact ⟨fun ⟨_, _, hwrite, h⟩ => by obtain rfl := write_ok.1 hwrite; exact h, fun h => ⟨(), g s, rfl, h⟩⟩

theorem refuseIf_ok {r : Option ε} {x : Unit} : (refuseIf r : Tx σ ε Unit) s = (.ok x, u) ↔ r = none ∧ s = u := by
  cases r with
  | none =>
    constructor
    · intro h
      cases h
      exact ⟨rfl, rfl⟩
    · rintro ⟨-, rfl⟩
      rfl
  | some e =>
    constructor
    · intro h
      cases h
    · rintro ⟨h, -⟩
      cases h

theorem bind_refuseIf_ok {r : Option ε} {f : Unit → Tx σ ε β} : (refuseIf r >>= f) s = (.ok b, u) ↔ r = none ∧ f () s = (.ok b, u) := by
  rw [bind_ok]
  constructor
  · rintro ⟨_, _, hrefuse, h⟩
    obtain ⟨hnone, rfl⟩ := refuseIf_ok.1 hrefuse
    exact ⟨hnone, h⟩
  · rintro ⟨hnone, h⟩
    exact ⟨(), s, refuseIf_ok.2 ⟨hnone, rfl⟩, h⟩

theorem refuseIf_error {r : Option ε} (h : (refuseIf r : Tx σ ε Unit) s = (.error e, u)) : u = s := by
  cases r with
  | none => cases h
  | some e =>
    cases h
    rfl

theorem atomic_ok : atomic m s = (.ok a, t) ↔ m s = (.ok a, t) := by
  unfold atomic
  constructor
  · intro h
    split at h
    · rename_i hm
      cases h
      exact hm
    · cases h
  · intro h
    rw [h]

/-- **A refusal takes back every write.** -/
theorem atomic_error (h : atomic m s = (.error e, t)) : t = s := by
  unfold atomic at h
  split at h
  · cases h
  · cases h
    rfl

end Tx
