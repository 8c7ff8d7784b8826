/-!
# Resume — programs that call operations one at a time, and their preconditions

A program ends with a value or an error, or calls an operation and goes on with its answer, of which no more is known
than `Rules.answers` says. `wp` is the weakest precondition over notes.
-/
namespace Resume

inductive Program (ο ρ ε α : Type) : Type
  | ret (a : α)
  | throw (e : ε)
  | call (o : ο) (k : ρ → Program ο ρ ε α)

variable {ο ρ ε α β μ : Type}

namespace Program

def bind : Program ο ρ ε α → (α → Program ο ρ ε β) → Program ο ρ ε β
  | ret a, f => f a
  | throw e, _ => throw e
  | call o k, f => call o (fun r => (k r).bind f)

instance : Monad (Program ο ρ ε) where
  pure := ret
  bind := bind

def attempt : Program ο ρ ε α → Program ο ρ ε (Except ε α)
  | ret a => ret (.ok a)
  | throw e => ret (.error e)
  | call o k => call o (fun r => (k r).attempt)

def done : Except ε α → Program ο ρ ε α
  | .ok a => ret a
  | .error e => throw e

/-- `try` with `catch`. -/
def tryCatch (p : Program ο ρ ε α) (h : ε → Program ο ρ ε α) : Program ο ρ ε α := do
  match ← p.attempt with
  | .ok a => ret a
  | .error e => h e

/-- `try` with `finally`. -/
def tryFinally (p : Program ο ρ ε α) (last : Program ο ρ ε Unit) : Program ο ρ ε α := do
  let r ← p.attempt
  last
  done r

def perform (o : ο) : Program ο ρ ε ρ := call o ret

end Program

structure Rules (ο ρ μ : Type) where
  pre : μ → ο → Prop
  answers : μ → ο → ρ → Prop
  next : μ → ο → ρ → μ

variable (R : Rules ο ρ μ)

def wp (post : Except ε α → μ → Prop) : Program ο ρ ε α → μ → Prop
  | .ret a, m => post (.ok a) m
  | .throw e, m => post (.error e) m
  | .call o k, m => R.pre m o ∧ ∀ r, R.answers m o r → wp post (k r) (R.next m o r)

variable {R} {post post' : Except ε α → μ → Prop} {p : Program ο ρ ε α} {m : μ}

theorem wp_mono (h : wp R post p m) (himp : ∀ r m, post r m → post' r m) : wp R post' p m := by
  induction p generalizing m with
  | ret a => exact himp _ _ h
  | throw e => exact himp _ _ h
  | call o k ih => exact ⟨h.1, fun r hr => ih r (h.2 r hr)⟩

/-- **Sequence.** -/
theorem wp_bind {f : α → Program ο ρ ε β} {post : Except ε β → μ → Prop} (h : wp R (fun r m => match r with
    | .ok a => wp R post (f a) m
    | .error e => post (.error e) m) p m) : wp R post (p >>= f) m := by
  have hbind : ∀ (p : Program ο ρ ε α) m, wp R (fun r m => match r with
      | .ok a => wp R post (f a) m
      | .error e => post (.error e) m) p m → wp R post (p.bind f) m := by
    intro p
    induction p with
    | ret a => exact fun m h => h
    | throw e => exact fun m h => h
    | call o k ih => exact fun m h => ⟨h.1, fun r hr => ih r _ (h.2 r hr)⟩
  exact hbind p m h

theorem wp_attempt {post : Except ε (Except ε α) → μ → Prop} (h : wp R (fun r m => post (.ok r) m) p m) :
    wp R post p.attempt m := by
  induction p generalizing m with
  | ret a => exact h
  | throw e => exact h
  | call o k ih => exact ⟨h.1, fun r hr => ih r (h.2 r hr)⟩

theorem wp_perform {o : ο} {post : Except ε ρ → μ → Prop} (hpre : R.pre m o) (h : ∀ r, R.answers m o r → post (.ok r) (R.next m o r)) :
    wp R post (Program.perform o) m := ⟨hpre, h⟩

/-- **An operation and what follows it.** -/
theorem wp_perform_bind {o : ο} {f : ρ → Program ο ρ ε β} {post : Except ε β → μ → Prop} (hpre : R.pre m o)
    (h : ∀ r, R.answers m o r → wp R post (f r) (R.next m o r)) : wp R post (Program.perform o >>= f) m :=
  wp_bind (wp_perform hpre h)

theorem wp_tryCatch {h : ε → Program ο ρ ε α} (hp : wp R (fun r m => match r with
    | .ok a => post (.ok a) m
    | .error e => wp R post (h e) m) p m) : wp R post (p.tryCatch h) m := by
  apply wp_bind
  apply wp_attempt
  apply wp_mono hp
  intro r m hr
  cases r with
  | ok a => exact hr
  | error e => exact hr

theorem wp_tryFinally {last : Program ο ρ ε Unit} (hp : wp R (fun r m => wp R (fun s m => match s with
    | .ok _ => post r m
    | .error e => post (.error e) m) last m) p m) : wp R post (p.tryFinally last) m := by
  apply wp_bind
  apply wp_attempt
  apply wp_mono hp
  intro r m hr
  apply wp_bind
  apply wp_mono hr
  intro s m hs
  cases s with
  | ok a =>
    cases r with
    | ok b => exact hs
    | error e => exact hs
  | error e => exact hs

end Resume
