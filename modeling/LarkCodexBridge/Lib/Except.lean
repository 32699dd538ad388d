import Mathlib

/-!
# Computations that may fail

What it means for computations in sequence, over a list or in a fold, to succeed or to fail.
-/

namespace Fallible

variable {ε α β : Type} {x : Except ε α} {f : α → Except ε β}

variable {b : β}

theorem bind_eq_ok : (x >>= f) = .ok b ↔ ∃ a, x = .ok a ∧ f a = .ok b := by
  cases x with
  | error e => simp [bind, Except.bind]
  | ok a => simp [bind, Except.bind]

theorem bind_eq_error {e : ε} : (x >>= f) = .error e ↔ x = .error e ∨ ∃ a, x = .ok a ∧ f a = .error e := by
  cases x with
  | error e => simp [bind, Except.bind]
  | ok a => simp [bind, Except.bind]

/-- Checks in sequence pass when each of them does. -/
theorem seq_eq_ok {x : Except ε Unit} {y : Except ε β} : (x >>= fun _ => y) = .ok b ↔ x = .ok () ∧ y = .ok b := by
  cases x with
  | error e => simp [bind, Except.bind]
  | ok a => simp [bind, Except.bind]

theorem map_eq_ok {g : α → β} : x.map g = .ok b ↔ ∃ a, x = .ok a ∧ g a = b := by
  cases x with
  | error e => simp [Except.map]
  | ok a => simp [Except.map]

theorem forM_eq_ok {g : α → Except ε Unit} : ∀ {l : List α}, l.forM g = .ok () ↔ ∀ a ∈ l, g a = .ok ()
  | [] => iff_of_true rfl (by simp)
  | a :: l => by
    show (g a >>= fun _ => l.forM g) = .ok () ↔ _
    rw [seq_eq_ok, forM_eq_ok, List.forall_mem_cons]

/-- A computation over a list succeeds when it does for each member. -/
theorem mapM_ok : ∀ {l : List α}, (∀ a ∈ l, ∃ b, f a = .ok b) → ∃ bs, l.mapM f = .ok bs
  | [], _ => ⟨[], rfl⟩
  | a :: l, h => by
    obtain ⟨⟨b, hb⟩, hl⟩ := List.forall_mem_cons.1 h
    obtain ⟨bs, hbs⟩ := mapM_ok hl
    exact ⟨b :: bs, by rw [List.mapM_cons, hb, hbs]; rfl⟩

theorem mapM_eq_ok : ∀ {l : List α} {bs : List β}, l.mapM f = .ok bs → List.Forall₂ (fun a b => f a = .ok b) l bs
  | [], bs, h => by
    cases h
    exact .nil
  | a :: l, bs, h => by
    rw [List.mapM_cons] at h
    obtain ⟨b, hb, h⟩ := bind_eq_ok.1 h
    obtain ⟨bs', hbs, h⟩ := bind_eq_ok.1 h
    cases h
    exact .cons hb (mapM_eq_ok hbs)

theorem mem_mapM {l : List α} {bs : List β} (h : l.mapM f = .ok bs) (hb : b ∈ bs) : ∃ a ∈ l, f a = .ok b := by
  replace h := mapM_eq_ok h
  induction h with
  | nil => cases hb
  | cons hhead htail ih =>
    rcases List.mem_cons.1 hb with rfl | hb
    · exact ⟨_, List.mem_cons_self, hhead⟩
    · obtain ⟨a, ha, hab⟩ := ih hb
      exact ⟨a, List.mem_cons_of_mem _ ha, hab⟩

/-- What every step of a fold keeps holds of its result. -/
theorem foldlM_invariant {γ : Type} {I : γ → Prop} {g : γ → α → Except ε γ} : ∀ {l : List α} {c c' : γ},
    (∀ a ∈ l, ∀ c c', g c a = .ok c' → I c → I c') → l.foldlM g c = .ok c' → I c → I c'
  | [], c, c', _, h, hI => by cases h; exact hI
  | a :: l, c, c', hstep, h, hI => by
    rw [List.foldlM_cons] at h
    obtain ⟨c₁, h₁, h₂⟩ := bind_eq_ok.1 h
    exact foldlM_invariant (fun b hb => hstep b (List.mem_cons_of_mem _ hb)) h₂
      (hstep a List.mem_cons_self c c₁ h₁ hI)

theorem foldlM_error {γ : Type} {E : ε → Prop} {g : γ → α → Except ε γ} (hstep : ∀ c a e, g c a = .error e → E e) :
    ∀ {l : List α} {c : γ} {e : ε}, l.foldlM g c = .error e → E e
  | [], _, _, h => by cases h
  | a :: l, c, e, h => by
    rw [List.foldlM_cons] at h
    rcases bind_eq_error.1 h with h | ⟨c₁, -, h⟩
    · exact hstep c a e h
    · exact foldlM_error hstep h

end Fallible
