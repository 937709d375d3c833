import Mathlib

/-! Paths of a relation with their lengths. A bound on the lengths rules out cycles and makes recursion along the
relation end. -/

namespace XpxChain.Library.BoundedPaths

variable {α : Type*} {r r' : α → α → Prop} {n k : ℕ} {u v w : α}

inductive Path (r : α → α → Prop) : ℕ → α → α → Prop
  | refl (u : α) : Path r 0 u u
  | head {n : ℕ} {u v w : α} : r u v → Path r n v w → Path r (n + 1) u w

lemma Path.trans (h : Path r n u v) (h' : Path r k v w) : Path r (n + k) u w := by
  induction h with
  | refl u => rwa [Nat.zero_add]
  | head hr _ ih =>
    rw [Nat.add_right_comm]
    exact Path.head hr (ih h')

lemma Path.single (h : r u v) : Path r 1 u v := .head h (.refl v)

lemma Path.mono (hle : ∀ u v, r u v → r' u v) (h : Path r n u v) : Path r' n u v := by
  induction h with
  | refl u => exact .refl u
  | head hr _ ih => exact .head (hle _ _ hr) ih

lemma Path.flip (h : Path r n u v) : Path (fun a b => r b a) n v u := by
  induction h with
  | refl u => exact .refl u
  | head hr _ ih => exact ih.trans (.single hr)

def Bounded (r : α → α → Prop) (d : ℕ) : Prop := ∀ n u v, Path r n u v → n ≤ d

def Acyclic (r : α → α → Prop) : Prop := ∀ n u, ¬Path r (n + 1) u u

lemma Bounded.acyclic {d : ℕ} (h : Bounded r d) : Acyclic r := by
  intro n u hp
  have hr : ∀ k, Path r (k * (n + 1)) u u := by
    intro k
    induction k with
    | zero =>
      rw [Nat.zero_mul]
      exact .refl u
    | succ k ih =>
      rw [Nat.succ_mul]
      exact ih.trans hp
  have hle := h _ _ _ (hr (d + 1))
  have : d + 1 ≤ (d + 1) * (n + 1) := Nat.le_mul_of_pos_right _ (Nat.succ_pos n)
  omega

lemma Bounded.mono {d : ℕ} (h : Bounded r d) (hle : ∀ u v, r' u v → r u v) : Bounded r' d :=
  fun n u v hp => h n u v (hp.mono hle)

lemma Acyclic.length_le_card [DecidableEq α] {s : Finset α} (h : Acyclic r) (hs : ∀ u v, r u v → u ∈ s)
    (hp : Path r n u v) : n ≤ s.card := by
  suffices hl : ∃ l : List α, l.length = n ∧ l.Nodup ∧ (∀ x ∈ l, x ∈ s) ∧ ∀ x ∈ l, ∃ i, Path r i u x by
    obtain ⟨l, rfl, hnd, hmem, -⟩ := hl
    rw [← List.toFinset_card_of_nodup hnd]
    apply Finset.card_le_card
    intro x hx
    exact hmem x (List.mem_toFinset.mp hx)
  induction hp with
  | refl u => exact ⟨[], rfl, List.nodup_nil, by simp, by simp⟩
  | @head n u v w hr _ ih =>
    obtain ⟨l, hlen, hnd, hmem, hre⟩ := ih
    refine ⟨u :: l, by rw [List.length_cons, hlen], List.nodup_cons.mpr ⟨?_, hnd⟩, ?_, ?_⟩
    · intro hu
      obtain ⟨i, hi⟩ := hre u hu
      exact h i u (.head hr hi)
    · exact List.forall_mem_cons.mpr ⟨hs u v hr, hmem⟩
    · refine List.forall_mem_cons.mpr ⟨⟨0, .refl u⟩, fun x hx => ?_⟩
      obtain ⟨i, hi⟩ := hre x hx
      exact ⟨i + 1, .head hr hi⟩

section

variable {center : α} {added : α → Prop}

lemma Path.of_star (hs : ∀ u v, r' u v → r u v ∨ u = center ∧ added v) (hl : ∀ c, added c → ∀ n, ¬Path r n c center)
    (h : Path r' n u v) : Path r n u v ∨ ∃ i j c, added c ∧ Path r i u center ∧ Path r j c v ∧ n = i + 1 + j := by
  induction h with
  | refl u => exact Or.inl (.refl u)
  | @head n u v w hr _ ih =>
    rcases hs _ _ hr, ih with ⟨hold | ⟨rfl, ha⟩, hp | ⟨i, j, c, hc, hi, hj, rfl⟩⟩
    · exact Or.inl (.head hold hp)
    · exact Or.inr ⟨i + 1, j, c, hc, .head hold hi, hj, by omega⟩
    · exact Or.inr ⟨0, n, v, ha, .refl u, hp, by omega⟩
    · exact absurd hi (hl v ha i)

theorem Bounded.star {d : ℕ} (h : Bounded r d) (center : α) (added : α → Prop)
    (hs : ∀ u v, r' u v → r u v ∨ u = center ∧ added v) (hl : ∀ c, added c → ∀ n, ¬Path r n c center)
    (hlen : ∀ c, added c → ∀ i j u v, Path r i u center → Path r j c v → i + 1 + j ≤ d) : Bounded r' d := by
  intro n u v hp
  rcases hp.of_star hs hl with hold | ⟨i, j, c, hc, hi, hj, rfl⟩
  · exact h n u v hold
  · exact hlen c hc i j u v hi hj

end

theorem fuel_induction {P : ℕ → α → Prop} (hs : ∀ fuel x, (∀ y, r x y → P fuel y) → P (fuel + 1) x) {fuel : ℕ} {x : α}
    (hf : ∀ n v, Path r n x v → n < fuel) : P fuel x := by
  induction fuel generalizing x with
  | zero => exact absurd (hf 0 x (.refl x)) (Nat.lt_irrefl 0)
  | succ fuel ih =>
    refine hs fuel x fun y hy => ih fun n v hp => ?_
    have := hf (n + 1) v (.head hy hp)
    omega

end XpxChain.Library.BoundedPaths
