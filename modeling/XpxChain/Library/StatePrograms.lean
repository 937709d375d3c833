import Mathlib

/-! Programs that change a state and may fail, with their weakest preconditions for total correctness. -/

namespace XpxChain.Library.StatePrograms

variable {σ α β : Type}

abbrev Program (σ α : Type) := StateT σ Option α

def wp (x : Program σ α) (Q : α → σ → Prop) (s : σ) : Prop := ∃ a s', x.run s = some (a, s') ∧ Q a s'

variable {x : Program σ α} {f : α → Program σ β} {Q R : α → σ → Prop} {s : σ}

@[simp] lemma wp_pure (a : α) : wp (pure a) Q s ↔ Q a s := by
  simp [wp, StateT.run_pure]

@[simp] lemma wp_bind {Q : β → σ → Prop} : wp (x >>= f) Q s ↔ wp x (fun a s' => wp (f a) Q s') s := by
  simp only [wp, StateT.run_bind, Option.bind_eq_bind, Option.bind_eq_some_iff, Prod.exists]
  constructor
  · rintro ⟨b, s₂, ⟨a, s₁, hx, hf⟩, hQ⟩
    exact ⟨a, s₁, hx, b, s₂, hf, hQ⟩
  · rintro ⟨a, s₁, hx, b, s₂, hf, hQ⟩
    exact ⟨b, s₂, ⟨a, s₁, hx, hf⟩, hQ⟩

@[simp] lemma wp_map {f : α → β} {Q : β → σ → Prop} : wp (f <$> x) Q s ↔ wp x (fun a s' => Q (f a) s') s := by
  rw [map_eq_pure_bind, wp_bind]
  simp only [wp_pure]

lemma wp_ite {p : Prop} [Decidable p] {x y : Program σ α} :
    wp (if p then x else y) Q s ↔ if p then wp x Q s else wp y Q s := by
  split <;> rfl

lemma wp.mono (h : wp x Q s) (hQ : ∀ a s', Q a s' → R a s') : wp x R s := by
  obtain ⟨a, s', hx, ha⟩ := h
  exact ⟨a, s', hx, hQ a s' ha⟩

lemma wp.run'_eq {a : α} (h : wp x (fun b _ => b = a) s) : x.run' s = some a := by
  obtain ⟨b, s', hx, rfl⟩ := h
  rw [StateT.run'_eq, hx]
  rfl

end XpxChain.Library.StatePrograms
