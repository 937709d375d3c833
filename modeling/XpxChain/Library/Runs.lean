import Mathlib

/-! Finite runs of a deterministic system, and properties of every step of a run. -/

namespace XpxChain.Library.Runs

open List

variable {σ ι : Type} (next : σ → ι → σ)

def run (s : σ) (inputs : List ι) : σ := inputs.foldl next s

@[simp] lemma run_nil (s : σ) : run next s [] = s := rfl

@[simp] lemma run_cons (s : σ) (i : ι) (inputs : List ι) : run next s (i :: inputs) = run next (next s i) inputs := rfl

lemma run_append (s : σ) (xs ys : List ι) : run next s (xs ++ ys) = run next (run next s xs) ys :=
  foldl_append

lemma run_snoc (s : σ) (xs : List ι) (i : ι) : run next s (xs ++ [i]) = next (run next s xs) i := by
  rw [run_append, run_cons, run_nil]

/-- Every step of the run satisfies `P`, which sees the inputs before it and the state it starts in. -/
def Always (s : σ) (P : List ι → σ → ι → Prop) (inputs : List ι) : Prop :=
  ∀ past i rest, inputs = past ++ i :: rest → P past (run next s past) i

variable {next} {s : σ} {C P Q : List ι → σ → ι → Prop} {inputs : List ι}

lemma always_nil : Always next s P [] := by
  intro past i rest h
  simp at h

lemma always_cons {i : ι} :
    Always next s P (i :: inputs) ↔ P [] s i ∧ Always next (next s i) (fun past => P (i :: past)) inputs := by
  constructor
  · intro h
    refine ⟨h [] i inputs rfl, ?_⟩
    rintro past j rest rfl
    exact h (i :: past) j rest rfl
  · rintro ⟨hi, h⟩ past j rest he
    rcases past with - | ⟨k, past⟩
    · obtain ⟨rfl, rfl⟩ := cons.inj he
      exact hi
    · obtain ⟨rfl, rfl⟩ := cons.inj he
      exact h past j rest rfl

instance decidableAlways (next : σ → ι → σ) : (inputs : List ι) → (s : σ) →
    (P : List ι → σ → ι → Prop) → [∀ past t i, Decidable (P past t i)] → Decidable (Always next s P inputs)
  | [], _, _, _ => isTrue always_nil
  | i :: inputs, s, P, _ =>
    have := decidableAlways next inputs (next s i) (fun past => P (i :: past))
    decidable_of_iff _ always_cons.symm

lemma always_append_left {xs ys : List ι} (h : Always next s P (xs ++ ys)) : Always next s P xs := by
  intro past i rest he
  exact h past i (rest ++ ys) (by simp [he])

lemma always_snoc {xs : List ι} {i : ι} :
    Always next s P (xs ++ [i]) ↔ Always next s P xs ∧ P xs (run next s xs) i := by
  constructor
  · intro h
    exact ⟨always_append_left h, h xs i [] rfl⟩
  · rintro ⟨h, hi⟩ past j rest he
    rcases eq_nil_or_concat rest with rfl | ⟨rest, k, rfl⟩
    · obtain ⟨rfl, hj⟩ := append_inj' he rfl
      obtain rfl := singleton_inj.mp hj
      exact hi
    · rw [concat_eq_append, ← cons_append, ← append_assoc] at he
      obtain ⟨rfl, -⟩ := append_inj' he rfl
      exact h past j rest rfl

lemma Always.mono (h : Always next s P inputs) (hpq : ∀ past t i, P past t i → Q past t i) : Always next s Q inputs :=
  fun past i rest he => hpq _ _ _ (h past i rest he)

section

variable (Inv : List ι → σ → Prop) (h₀ : Inv [] s)
  (hkeep : ∀ past t i, Inv past t → C past t i → Inv (past ++ [i]) (next t i))
include Inv h₀ hkeep

theorem invariant_run (h : Always next s C inputs) : Inv inputs (run next s inputs) := by
  induction inputs using reverseRecOn with
  | nil => exact h₀
  | append_singleton xs i ih =>
    obtain ⟨hxs, hi⟩ := always_snoc.mp h
    rw [run_snoc]
    exact hkeep xs _ i (ih hxs) hi

theorem always_of_invariant
    (hs : ∀ past t i, Inv past t → C past t i → P past t i) (h : Always next s C inputs) : Always next s P inputs := by
  intro past i rest he
  have hp : Always next s C past := by
    rw [he] at h
    exact always_append_left h
  exact hs past _ i (invariant_run Inv h₀ hkeep hp) (h past i rest he)

end

section

variable {ω : Type} (next) (observer : σ → ι → ω → ω) (o : ω)

/-- What an observer of the run has noted at its end; it sees each input and the state before it. -/
def observe (s : σ) (o : ω) (inputs : List ι) : ω :=
  (run (fun t i => (next t.1 i, observer t.1 i t.2)) (s, o) inputs).2

lemma run_observed (inputs : List ι) :
    (run (fun t i => (next t.1 i, observer t.1 i t.2)) (s, o) inputs).1 = run next s inputs := by
  induction inputs using reverseRecOn with
  | nil => rfl
  | append_singleton xs i ih => rw [run_snoc, run_snoc, ← ih]

lemma observe_snoc (xs : List ι) (i : ι) :
    observe next observer s o (xs ++ [i]) = observer (run next s xs) i (observe next observer s o xs) := by
  rw [observe, run_snoc, run_observed, observe]

end

end XpxChain.Library.Runs

