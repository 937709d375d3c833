import XpxChain.Library.Runs

/-! Infinite runs of a deterministic system in which some inputs never stop to come. -/

namespace XpxChain.Library.FairRuns

open Runs

variable {σ ι : Type}

structure Execution (next : σ → ι → σ) where
  states : ℕ → σ
  inputs : ℕ → ι
  step : ∀ t, states (t + 1) = next (states t) (inputs t)

namespace Execution

variable {next : σ → ι → σ} (e : Execution next)

def ofInputs (next : σ → ι → σ) (s : σ) (inputs : ℕ → ι) : Execution next where
  states := Nat.rec s fun t s => next s (inputs t)
  inputs := inputs
  step _ := rfl

def InfinitelyOften (own : ι → Prop) : Prop := ∀ t, ∃ t' ≥ t, own (e.inputs t')

variable {e} {own : ι → Prop} {Inv goal : σ → Prop} {measure : σ → ℕ}

lemma invariant (Inv : σ → Prop) {t : ℕ} (hs : ∀ s i, Inv s → Inv (next s i)) (h : Inv (e.states t)) {t' : ℕ}
    (ht : t ≤ t') : Inv (e.states t') := by
  induction t', ht using Nat.le_induction with
  | base => exact h
  | succ t' _ ih =>
    rw [e.step]
    exact hs _ _ ih

lemma states_eq_run (t : ℕ) : ∃ inputs, e.states t = run next (e.states 0) inputs := by
  induction t with
  | zero => exact ⟨[], rfl⟩
  | succ t ih =>
    obtain ⟨inputs, h⟩ := ih
    exact ⟨inputs ++ [e.inputs t], by rw [run_snoc, e.step, h]⟩

lemma goal_or_measure_le {t : ℕ} (hinv : ∀ t' ≥ t, Inv (e.states t'))
    (hoth : ∀ s i, Inv s → ¬goal s → goal (next s i) ∨ measure (next s i) ≤ measure s) {t' : ℕ} (ht : t ≤ t') :
    (∃ u ≥ t, goal (e.states u)) ∨ measure (e.states t') ≤ measure (e.states t) := by
  induction t', ht using Nat.le_induction with
  | base => exact Or.inr le_rfl
  | succ t' ht ih =>
    rcases ih with hg | hle
    · exact Or.inl hg
    · by_cases hg : goal (e.states t')
      · exact Or.inl ⟨t', ht, hg⟩
      · rcases hoth _ (e.inputs t') (hinv t' ht) hg with hn | hn
        · exact Or.inl ⟨t' + 1, by omega, by rwa [e.step]⟩
        · right
          rw [e.step]
          exact hn.trans hle

theorem eventually_of_decreasing (Inv goal : σ → Prop) (measure : σ → ℕ) (hf : e.InfinitelyOften own) {t : ℕ}
    (hinv : ∀ t' ≥ t, Inv (e.states t'))
    (hown : ∀ s i, Inv s → ¬goal s → own i → goal (next s i) ∨ measure (next s i) < measure s)
    (hoth : ∀ s i, Inv s → ¬goal s → goal (next s i) ∨ measure (next s i) ≤ measure s) :
    ∃ t' ≥ t, goal (e.states t') := by
  induction hm : measure (e.states t) using Nat.strong_induction_on generalizing t with
  | _ m ih =>
    obtain ⟨u, hu, ho⟩ := hf t
    rcases goal_or_measure_le hinv hoth hu with hg | hle
    · exact hg
    by_cases hg : goal (e.states u)
    · exact ⟨u, hu, hg⟩
    rcases hown _ _ (hinv u hu) hg ho with hn | hlt
    · exact ⟨u + 1, by omega, by rwa [e.step]⟩
    · rw [← e.step] at hlt
      have hs : measure (e.states (u + 1)) < m := by omega
      obtain ⟨t', ht', hg'⟩ := ih _ hs (fun t' ht' => hinv t' (by omega)) rfl
      exact ⟨t', by omega, hg'⟩

end Execution

end XpxChain.Library.FairRuns
