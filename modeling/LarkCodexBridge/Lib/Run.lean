import Mathlib

/-!
# Runs of a total step function

A system is a function `step : σ → ε → σ`: an event that is not enabled leaves the state as it is, so every list of
events is a run. `exec` is the state a run ends in, `Along C` says that every step of the run meets the condition
`C` in the state it starts from, and `exec_invariant` carries an invariant along such a run.
-/

namespace StepSystem

variable {σ ε : Type*} (step : σ → ε → σ)

/-- The state after the events `es` from `s`. -/
def exec (s : σ) (es : List ε) : σ := es.foldl step s

@[simp] theorem exec_nil (s : σ) : exec step s [] = s := rfl

@[simp] theorem exec_cons (s : σ) (e : ε) (es : List ε) : exec step s (e :: es) = exec step (step s e) es := rfl

theorem exec_append (s : σ) (es fs : List ε) : exec step s (es ++ fs) = exec step (exec step s es) fs :=
  List.foldl_append

/-- Every step of the run `es` from `s` meets `C` in the state it starts from. -/
def Along (C : σ → ε → Prop) : σ → List ε → Prop
  | _, [] => True
  | s, e :: es => C s e ∧ Along C (step s e) es

instance decidableAlong (C : σ → ε → Prop) [∀ s e, Decidable (C s e)] :
    ∀ s es, Decidable (Along step C s es)
  | _, [] => isTrue trivial
  | s, e :: es =>
    have := decidableAlong C (step s e) es
    inferInstanceAs (Decidable (C s e ∧ Along step C (step s e) es))

variable {step}

theorem along_append {C : σ → ε → Prop} : ∀ {s : σ} {es fs : List ε},
    Along step C s (es ++ fs) ↔ Along step C s es ∧ Along step C (exec step s es) fs
  | _, [], _ => by simp [Along]
  | s, e :: es, fs => by simp [Along, along_append (s := step s e), and_assoc]

theorem Along.mono {C D : σ → ε → Prop} (h : ∀ s e, C s e → D s e) : ∀ {s : σ} {es : List ε},
    Along step C s es → Along step D s es
  | _, [], _ => trivial
  | _, _ :: _, ⟨hc, hes⟩ => ⟨h _ _ hc, Along.mono h hes⟩

/-- **The invariant rule.** What one step under `C` keeps, every run under `C` keeps. -/
theorem exec_invariant {C : σ → ε → Prop} {I : σ → Prop} (hstep : ∀ s e, I s → C s e → I (step s e)) :
    ∀ {s : σ} {es : List ε}, I s → Along step C s es → I (exec step s es)
  | _, [], hI, _ => hI
  | s, e :: _, hI, ⟨hc, hes⟩ => exec_invariant (s := step s e) hstep (hstep s e hI hc) hes

/-- The invariant rule for steps that need no condition. -/
theorem exec_invariant' {I : σ → Prop} (hstep : ∀ s e, I s → I (step s e)) :
    ∀ {s : σ} {es : List ε}, I s → I (exec step s es)
  | _, [], hI => hI
  | s, e :: _, hI => exec_invariant' (s := step s e) hstep (hstep s e hI)

/-- A property of single steps that follows from the invariant holds at every step of a run under `C`. -/
theorem along_of_invariant {C D : σ → ε → Prop} {I : σ → Prop} (hstep : ∀ s e, I s → C s e → I (step s e))
    (hD : ∀ s e, I s → C s e → D s e) : ∀ {s : σ} {es : List ε}, I s → Along step C s es → Along step D s es
  | _, [], _, _ => trivial
  | s, e :: _, hI, ⟨hc, hes⟩ => ⟨hD s e hI hc, along_of_invariant hstep hD (hstep s e hI hc) hes⟩

/-- The same for steps that need no condition. -/
theorem along_of_invariant' {D : σ → ε → Prop} {I : σ → Prop} (hstep : ∀ s e, I s → I (step s e))
    (hD : ∀ s e, I s → D s e) : ∀ {s : σ} {es : List ε}, I s → Along step D s es
  | _, [], _ => trivial
  | s, e :: _, hI => ⟨hD s e hI, along_of_invariant' hstep hD (hstep s e hI)⟩

end StepSystem
