import Mathlib.Data.List.Induction

/-!
# Runs of a step function

A run is a fold of a step function over a list of actions. Three rules: what every step keeps holds
after every run; what holds at the end of a run and not at its start was brought about by one step
and held ever since (`since`); and what a step never brings about held at every state before it does
(`back`).
-/

namespace RustyBacnet.Runs

variable {σ α : Type*} {step : σ → α → σ} (Inv : σ → Prop)

theorem invariant (hstep : ∀ s a, Inv s → Inv (step s a)) (actions : List α) :
    ∀ {s : σ}, Inv s → Inv (actions.foldl step s) := by
  induction actions with
  | nil => exact fun h => h
  | cons a actions ih => exact fun h => ih (hstep _ a h)

/-- A property that was brought about by an action held at every state from then on. -/
theorem since (Holds : σ → Prop) (Makes : σ → α → Prop) (hinv : ∀ s a, Inv s → Inv (step s a))
    (hstep : ∀ s a, Inv s → Holds (step s a) → Holds s ∨ Makes s a) {s : σ} (hs : Inv s)
    (hstart : ¬ Holds s) (actions : List α) (h : Holds (actions.foldl step s)) :
    ∃ before a after, actions = before ++ a :: after ∧ Makes (before.foldl step s) a ∧
      ∀ middle rest, after = middle ++ rest →
        Holds ((before ++ a :: middle).foldl step s) := by
  induction actions using List.reverseRecOn with
  | nil => exact absurd h hstart
  | append_singleton actions last ih =>
    have hlast := h
    rw [List.foldl_append, List.foldl_cons, List.foldl_nil] at h
    rcases hstep _ last (invariant Inv hinv actions hs) h with hbefore | hmakes
    · obtain ⟨before, a, after, rfl, hmakes, hheld⟩ := ih hbefore
      refine ⟨before, a, after ++ [last], by simp, hmakes, ?_⟩
      intro middle rest hsplit
      rcases List.eq_nil_or_concat rest with rfl | ⟨rest, x, rfl⟩
      · rw [List.append_nil] at hsplit
        rw [← hsplit]
        simpa using hlast
      · rw [List.concat_eq_append, ← List.append_assoc] at hsplit
        obtain ⟨hsplit, -⟩ := List.append_inj' hsplit rfl
        exact hheld middle rest hsplit
    · refine ⟨actions, last, [], rfl, hmakes, ?_⟩
      intro middle rest hsplit
      obtain ⟨rfl, rfl⟩ := List.append_eq_nil_iff.mp hsplit.symm
      exact hlast

theorem back (Holds : σ → Prop) (hinv : ∀ s a, Inv s → Inv (step s a))
    (hstep : ∀ s a, Inv s → Holds (step s a) → Holds s) {s : σ} (hs : Inv s) {middle rest : List α}
    (h : Holds ((middle ++ rest).foldl step s)) : Holds (middle.foldl step s) := by
  induction rest using List.reverseRecOn with
  | nil => rwa [List.append_nil] at h
  | append_singleton rest last ih =>
    rw [← List.append_assoc, List.foldl_append, List.foldl_cons, List.foldl_nil] at h
    exact ih (hstep _ last (invariant Inv hinv _ hs) h)

end RustyBacnet.Runs
