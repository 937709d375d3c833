import Mathlib

/-! Intersection of large subsets of a finite set. -/

namespace XpxChain.Library.Quorums

open Finset

variable {α : Type} [DecidableEq α] {V C A B : Finset α}

theorem exists_mem_inter_mem (hA : A ⊆ V) (hB : B ⊆ V)
    (h : V.card + (V \ C).card < A.card + B.card) : ∃ a ∈ A, a ∈ B ∧ a ∈ C := by
  by_contra hn
  push Not at hn
  have hsub : A ∩ B ⊆ V \ C := by
    intro a ha
    obtain ⟨haA, haB⟩ := mem_inter.mp ha
    exact mem_sdiff.mpr ⟨hA haA, hn a haA haB⟩
  have hu : (A ∪ B).card ≤ V.card := card_le_card (union_subset hA hB)
  have hi := card_le_card hsub
  have hc := card_union_add_card_inter A B
  omega

theorem card_union_of_inter_subset_singleton {x : α} (h : A ∩ B ⊆ {x}) : A.card + B.card ≤ (A ∪ B).card + 1 := by
  have hi : (A ∩ B).card ≤ 1 := (card_le_card h).trans_eq (card_singleton x)
  have hc := card_union_add_card_inter A B
  omega

end XpxChain.Library.Quorums
