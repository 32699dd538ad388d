import Mathlib

/-!
# Procedures

A procedure reads and writes a state and ends with a value or an error; an error leaves the state as it is by then.
`Proc.wp p Q E s` says of a run of `p` from `s` that a value and the state with it meet `Q`, an error and the state with it
meet `E`. The rules `wp_pure`, `wp_fail`, `wp_bind`, `wp_attempt` follow the composition of procedures, and `wp.mono`
weakens what is said of the end.
-/

/-- A procedure with the state `σ`. -/
def Proc (σ ε α : Type) : Type := σ → Except ε α × σ

namespace Proc

variable {σ ε ε' α β : Type}

protected def pure (a : α) : Proc σ ε α := fun s => (.ok a, s)

protected def bind (p : Proc σ ε α) (f : α → Proc σ ε β) : Proc σ ε β := fun s =>
  match p s with
  | (.ok a, s) => f a s
  | (.error e, s) => (.error e, s)

instance : Monad (Proc σ ε) where
  pure := Proc.pure
  bind := Proc.bind

def fail (e : ε) : Proc σ ε α := fun s => (.error e, s)

/-- The state. -/
def get : Proc σ ε σ := fun s => (.ok s, s)

def modify (f : σ → σ) : Proc σ ε Unit := fun s => (.ok (), f s)

/-- A result that does not touch the state. -/
def lift (r : Except ε α) : Proc σ ε α := fun s => (r, s)

/-- The procedure with its error as a value. -/
def attempt (p : Proc σ ε α) : Proc σ ε' (Except ε α) := fun s => (.ok (p s).1, (p s).2)

/-- The procedure with another error. -/
def mapError (f : ε → ε') (p : Proc σ ε α) : Proc σ ε' α := fun s => ((p s).1.mapError f, (p s).2)

/-- What holds at the end of a run: `Q` of a value, `E` of an error. -/
def wp (p : Proc σ ε α) (Q : α → σ → Prop) (E : ε → σ → Prop) (s : σ) : Prop :=
  match p s with
  | (.ok a, s) => Q a s
  | (.error e, s) => E e s

variable {p : Proc σ ε α} {f : α → Proc σ ε β} {Q Q' : α → σ → Prop} {E E' : ε → σ → Prop} {s : σ}

theorem wp.mono (h : p.wp Q E s) (hQ : ∀ a s, Q a s → Q' a s) (hE : ∀ e s, E e s → E' e s) : p.wp Q' E' s := by
  unfold wp at *
  split
  · next heq => rw [heq] at h; exact hQ _ _ h
  · next heq => rw [heq] at h; exact hE _ _ h

@[simp] theorem wp_pure {a : α} : (pure a : Proc σ ε α).wp Q E s ↔ Q a s := Iff.rfl

@[simp] theorem wp_fail {e : ε} : (fail e : Proc σ ε α).wp Q E s ↔ E e s := Iff.rfl

@[simp] theorem wp_get {Q : σ → σ → Prop} : (get : Proc σ ε σ).wp Q E s ↔ Q s s := Iff.rfl

@[simp] theorem wp_modify {g : σ → σ} {Q : Unit → σ → Prop} : (modify g : Proc σ ε Unit).wp Q E s ↔ Q () (g s) := Iff.rfl

theorem wp_lift {r : Except ε α} : (lift r : Proc σ ε α).wp Q E s ↔
    (∀ a, r = .ok a → Q a s) ∧ ∀ e, r = .error e → E e s := by
  cases r <;> simp [wp, lift]

/-- Composition: the rest is judged where the first part ends with a value. -/
theorem wp_bind {Q : β → σ → Prop} : (p >>= f).wp Q E s ↔ p.wp (fun a => (f a).wp Q E) E s := by
  show (Proc.bind p f).wp Q E s ↔ _
  unfold wp Proc.bind
  cases hp : p s with
  | mk r s' => cases r <;> simp

theorem wp_attempt {E : ε' → σ → Prop} {Q : Except ε α → σ → Prop} :
    (attempt p : Proc σ ε' (Except ε α)).wp Q E s ↔ p.wp (fun a => Q (.ok a)) (fun e => Q (.error e)) s := by
  unfold wp attempt
  cases hp : p s with
  | mk r s' => cases r <;> simp

theorem wp_mapError {g : ε → ε'} {E : ε' → σ → Prop} : (mapError g p).wp Q E s ↔ p.wp Q (fun e => E (g e)) s := by
  unfold wp mapError
  cases hp : p s with
  | mk r s' => cases r <;> simp [Except.mapError]

end Proc
