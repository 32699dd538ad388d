import Mathlib

/-!
# Programs that ask an environment

A program over requests `Q` with replies `R` is a tree: it returns, or it asks a request and goes on with the reply. The
history of a run is what was asked and replied, in order. `Program.Meets G post` says of a program that every request it asks
is allowed by `G` after the history before it, and that `post` holds of the history and the value where it returns; the rules
`meets_bind` and `meets_bindExcept` follow its composition, and `Meets.next` the run of it.
-/

namespace AskReply

variable {Q : Type} {R : Q → Type} {α β ε : Type}

/-- A program over the requests `Q`. -/
inductive Program (R : Q → Type) (α : Type) where
  | pure (a : α)
  | ask (q : Q) (next : R q → Program R α)

/-- Requests and their replies, in order. -/
abbrev History (R : Q → Type) := List ((q : Q) × R q)

namespace Program

protected def bind : Program R α → (α → Program R β) → Program R β
  | .pure a, f => f a
  | .ask q next, f => .ask q fun r => (next r).bind f

instance : Monad (Program R) where
  pure := .pure
  bind := Program.bind

/-- The program that asks one request. -/
def request (q : Q) : Program R (R q) := .ask q .pure

/-- Every request is allowed after what came before it, and every result is as it should be. -/
def Meets (G : History R → Q → Prop) (post : History R → α → Prop) : History R → Program R α → Prop
  | h, .pure a => post h a
  | h, .ask q next => G h q ∧ ∀ r, Meets G post (h ++ [⟨q, r⟩]) (next r)

variable {G : History R → Q → Prop} {post : History R → α → Prop} {h : History R} {q : Q}

@[simp] theorem meets_pure {a : α} : Meets G post h (Pure.pure a : Program R α) ↔ post h a := Iff.rfl

@[simp] theorem meets_ask {next : R q → Program R α} :
    Meets G post h (.ask q next) ↔ G h q ∧ ∀ r, Meets G post (h ++ [⟨q, r⟩]) (next r) := Iff.rfl

@[simp] theorem meets_request {post : History R → R q → Prop} :
    Meets G post h (request q) ↔ G h q ∧ ∀ r, post (h ++ [⟨q, r⟩]) r := Iff.rfl

/-- Composition: the rest is judged where the first part returns. -/
theorem meets_bind {post : History R → β → Prop} {f : α → Program R β} : ∀ {h : History R} {p : Program R α},
    Meets G post h (p >>= f) ↔ Meets G (fun h a => Meets G post h (f a)) h p
  | _, .pure _ => Iff.rfl
  | _, .ask _ _ => and_congr_right fun _ => forall_congr' fun _ => meets_bind

/-- Composition of programs that may fail: an error goes through. -/
theorem meets_bindExcept {post : History R → Except ε β → Prop} {p : ExceptT ε (Program R) α}
    {f : α → ExceptT ε (Program R) β} :
    Meets G post h (p >>= f : ExceptT ε (Program R) β) ↔
      Meets G (fun h r => match r with | .ok a => Meets G post h (f a) | .error e => post h (.error e)) h p := by
  refine meets_bind.trans ?_
  have hcont : (fun (h : History R) (r : Except ε α) => Meets G post h (ExceptT.bindCont f r)) =
      fun h r => match r with | .ok a => Meets G post h (f a) | .error e => post h (.error e) := by
    funext h r
    cases r <;> rfl
  rw [hcont]

theorem meets_map {post : History R → β → Prop} {f : α → β} {p : Program R α} :
    Meets G post h (f <$> p) ↔ Meets G (fun h a => post h (f a)) h p := meets_bind

theorem Meets.mono {post' : History R → α → Prop} (hpost : ∀ h a, post h a → post' h a) : ∀ {h : History R} {p : Program R α},
    Meets G post h p → Meets G post' h p
  | _, .pure _, hp => hpost _ _ hp
  | _, .ask _ _, hp => ⟨hp.1, fun r => (hp.2 r).mono hpost⟩

/-- What is asked is allowed, and what follows the reply is judged again. -/
theorem Meets.next {next : R q → Program R α} (hp : Meets G post h (.ask q next)) (r : R q) :
    G h q ∧ Meets G post (h ++ [⟨q, r⟩]) (next r) := ⟨hp.1, hp.2 r⟩

end Program

/-! ## Longer histories -/

/-- The request was asked, with this reply. -/
def Replied (h : History R) (q : Q) (r : R q) : Prop := (⟨q, r⟩ : (q : Q) × R q) ∈ h

theorem replied_last {h : History R} {q : Q} {r : R q} : Replied (h ++ [⟨q, r⟩]) q r :=
  List.mem_append_right _ List.mem_cons_self

/-- Some requests of the kind `P` more. -/
def Extends (P : Q → Prop) (h h' : History R) : Prop := ∃ more, h' = h ++ more ∧ ∀ p ∈ more, P p.1

namespace Extends

variable {P : Q → Prop} {h h' h'' : History R} {q : Q}

theorem refl (h : History R) : Extends P h h := ⟨[], (List.append_nil h).symm, by simp⟩

section

variable (hp : Extends P h h')
include hp

theorem snoc (hq : P q) (r : R q) : Extends P h (h' ++ [⟨q, r⟩]) := by
  obtain ⟨more, rfl, hmore⟩ := hp
  refine ⟨more ++ [⟨q, r⟩], List.append_assoc _ _ _, fun p hmem => ?_⟩
  rcases List.mem_append.1 hmem with hmem | hmem
  · exact hmore p hmem
  · rw [List.mem_singleton.1 hmem]
    exact hq

theorem replied {r : R q} (hr : Replied h q r) : Replied h' q r := by
  obtain ⟨more, rfl, -⟩ := hp
  exact List.mem_append_left _ hr

/-- A reply to a request of another kind was there before. -/
theorem of_replied {r : R q} (hr : Replied h' q r) (hq : ¬P q) : Replied h q r := by
  obtain ⟨more, rfl, hmore⟩ := hp
  rcases List.mem_append.1 hr with hr | hr
  · exact hr
  · exact absurd (hmore _ hr) hq

theorem trans (hp' : Extends P h' h'') : Extends P h h'' := by
  obtain ⟨more, rfl, hmore⟩ := hp
  obtain ⟨more', rfl, hmore'⟩ := hp'
  refine ⟨more ++ more', List.append_assoc _ _ _, fun p hmem => ?_⟩
  rcases List.mem_append.1 hmem with hmem | hmem
  · exact hmore p hmem
  · exact hmore' p hmem

theorem mono {P' : Q → Prop} (himp : ∀ q, P q → P' q) : Extends P' h h' := by
  obtain ⟨more, heq, hmore⟩ := hp
  exact ⟨more, heq, fun p hmem => himp _ (hmore p hmem)⟩

/-- What holds of all requests before and of the kind `P` holds of all requests after. -/
theorem all {D : Q → Prop} (hall : ∀ p ∈ h, D p.1) (himp : ∀ q, P q → D q) : ∀ p ∈ h', D p.1 := by
  obtain ⟨more, rfl, hmore⟩ := hp
  intro p hmem
  rcases List.mem_append.1 hmem with hmem | hmem
  · exact hall p hmem
  · exact himp _ (hmore p hmem)

end

end Extends

end AskReply
