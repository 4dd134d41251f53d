import Mathlib.Tactic

/-!
# Runs of a labelled transition system

A run is a finite list of labels with the state they lead to. Its labels are kept in order of
time, so a fact about the history of a system is a fact about the label list of a run. Invariants
are proved for one step at a time, over the history and the state together.
-/

namespace Runs

variable {σ τ α : Type}

inductive Run (step : σ → α → σ → Prop) (s : σ) : List α → σ → Prop
  | nil : Run step s [] s
  | snoc {l : List α} {t u : σ} {a : α} (h : Run step s l t) (ha : step t a u) :
      Run step s (l ++ [a]) u

variable {step : σ → α → σ → Prop} {s t u : σ} {l m : List α}

/-- What holds at the start and is kept by every step holds of the history and the state. -/
theorem Run.history {I : List α → σ → Prop} (h : Run step s l t) (hstart : I [] s)
    (hstep : ∀ l t a u, I l t → step t a u → I (l ++ [a]) u) : I l t := by
  induction h with
  | nil => exact hstart
  | snoc _ ha ih => exact hstep _ _ _ _ ih ha

theorem Run.invariant {I : σ → Prop} (h : Run step s l t) (hstart : I s)
    (hstep : ∀ t a u, I t → step t a u → I u) : I t :=
  h.history (I := fun _ t => I t) hstart (fun _ => hstep)

theorem Run.single {a : α} (h : step s a t) : Run step s [a] t := Run.nil.snoc h

theorem Run.trans (h : Run step s l t) (h' : Run step t m u) : Run step s (l ++ m) u := by
  induction h' with
  | nil => rwa [List.append_nil]
  | snoc _ ha ih =>
      rw [← List.append_assoc]
      exact ih.snoc ha

theorem Run.mono {step' : σ → α → σ → Prop} (h : Run step s l t)
    (hle : ∀ t a u, step t a u → step' t a u) : Run step' s l t := by
  induction h with
  | nil => exact .nil
  | snoc _ ha ih => exact ih.snoc (hle _ _ _ ha)

theorem Run.mem (h : Run step s l t) : Run (fun s a t => a ∈ l ∧ step s a t) s l t := by
  induction h with
  | nil => exact .nil
  | snoc _ ha ih =>
      refine (ih.mono (fun _ _ _ hb => ?_)).snoc ⟨List.mem_concat_self, ha⟩
      exact ⟨List.mem_append_left _ hb.1, hb.2⟩

theorem Run.strengthen {I : σ → Prop} (h : Run step s l t) (hstart : I s)
    (hstep : ∀ t a u, I t → step t a u → I u) :
    Run (fun s a t => I s ∧ step s a t) s l t := by
  induction h with
  | nil => exact .nil
  | snoc h ha ih => exact ih.snoc ⟨h.invariant hstart hstep, ha⟩

/-- Two systems whose steps agree where an invariant holds have the same runs. -/
theorem Run.iff_of_invariant {step' : σ → α → σ → Prop} {I : σ → Prop} (hstart : I s)
    (hstep : ∀ t a u, I t → step t a u → I u)
    (hiff : ∀ t a u, I t → (step t a u ↔ step' t a u)) : Run step s l t ↔ Run step' s l t := by
  constructor
  · intro h
    have hkept := h.strengthen hstart hstep
    exact hkept.mono (fun t a u ha => (hiff t a u ha.1).mp ha.2)
  · intro h
    have hkept := h.strengthen hstart (fun t a u ht ha => hstep t a u ht ((hiff t a u ht).mpr ha))
    exact hkept.mono (fun t a u ha => (hiff t a u ha.1).mpr ha.2)

/-- A run is followed by a run of any system that can follow each of its steps. -/
theorem Run.simulate {β : Type} {step' : τ → β → τ → Prop} {R : σ → τ → Prop} (g : α → β)
    (h : Run step s l t) {s' : τ} (hstart : R s s')
    (hsim : ∀ t a u t', R t t' → step t a u → ∃ u', step' t' (g a) u' ∧ R u u') :
    ∃ t', Run step' s' (l.map g) t' ∧ R t t' := by
  induction h with
  | nil => exact ⟨s', .nil, hstart⟩
  | snoc _ ha ih =>
      obtain ⟨t', hrun, hR⟩ := ih
      obtain ⟨u', hstep, hR'⟩ := hsim _ _ _ _ hR ha
      refine ⟨u', ?_, hR'⟩
      rw [List.map_append, List.map_singleton]
      exact hrun.snoc hstep

/-- The steps of a partial function. -/
def Fires (next : σ → α → Option σ) (s : σ) (a : α) (t : σ) : Prop := next s a = some t

def execute (next : σ → α → Option σ) (s : σ) : List α → Option σ
  | [] => some s
  | a :: l => (next s a).bind (fun t => execute next t l)

theorem execute_append (next : σ → α → Option σ) (s : σ) (l m : List α) :
    execute next s (l ++ m) = (execute next s l).bind (fun t => execute next t m) := by
  induction l generalizing s with
  | nil => rfl
  | cons a l ih =>
      rw [List.cons_append, execute, execute, Option.bind_assoc]
      simp only [ih]

theorem run_of_execute {next : σ → α → Option σ} (h : execute next s l = some t) :
    Run (Fires next) s l t := by
  induction l generalizing s with
  | nil =>
      cases h
      exact .nil
  | cons a l ih =>
      obtain ⟨v, hv, hl⟩ := Option.bind_eq_some_iff.mp h
      exact (Run.single hv).trans (ih hl)

/-- A run in which every step starts where `P` holds of the state and the label. -/
theorem run_of_execute_guarded {next : σ → α → Option σ} {P : σ → α → Prop}
    [∀ s a, Decidable (P s a)]
    (h : execute (fun s a => if P s a then next s a else none) s l = some t) :
    Run (fun s a t => P s a ∧ Fires next s a t) s l t := by
  apply (run_of_execute h).mono
  intro s a t ha
  change (if P s a then next s a else none) = some t at ha
  split_ifs at ha with hP
  exact ⟨hP, ha⟩

end Runs
