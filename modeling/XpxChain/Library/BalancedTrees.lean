import Mathlib

/-! Height-balanced binary trees and their in-order lists. -/

namespace XpxChain.Library.BalancedTrees

open BinaryTree List

variable {α : Type}

def inorder : BinaryTree α → List α
  | .nil => []
  | .node v l r => inorder l ++ v :: inorder r

@[simp] lemma inorder_nil : inorder (.nil : BinaryTree α) = [] := rfl

@[simp] lemma inorder_node (v : α) (l r : BinaryTree α) : inorder (.node v l r) = inorder l ++ v :: inorder r := rfl

@[simp] lemma length_inorder (t : BinaryTree α) : (inorder t).length = t.numNodes := by
  induction t with
  | nil => rfl
  | node v l r hl hr =>
    simp only [inorder_node, length_append, length_cons, hl, hr, numNodes]
    omega

variable {v : α} {l r t : BinaryTree α}

lemma nodup_inorder_node : (inorder (.node v l r)).Nodup ↔
    (inorder l).Nodup ∧ (inorder r).Nodup ∧ v ∉ inorder l ∧ v ∉ inorder r ∧ (inorder l).Disjoint (inorder r) := by
  rw [inorder_node, nodup_middle, nodup_cons, nodup_append', mem_append]
  tauto

lemma pairwise_inorder_node {R : α → α → Prop} : (inorder (.node v l r)).Pairwise R ↔
    (inorder l).Pairwise R ∧ (inorder r).Pairwise R ∧ (∀ a ∈ inorder l, R a v) ∧ (∀ b ∈ inorder r, R v b) ∧
      ∀ a ∈ inorder l, ∀ b ∈ inorder r, R a b := by
  simp only [inorder_node, pairwise_append, pairwise_cons, forall_mem_cons, forall_and]
  tauto

def Balanced : BinaryTree α → Prop
  | .nil => True
  | .node _ l r => Balanced l ∧ Balanced r ∧ l.height ≤ r.height + 1 ∧ r.height ≤ l.height + 1

@[simp] lemma balanced_nil : Balanced (.nil : BinaryTree α) := trivial

@[simp] lemma balanced_node : Balanced (.node v l r) ↔
    Balanced l ∧ Balanced r ∧ l.height ≤ r.height + 1 ∧ r.height ≤ l.height + 1 := Iff.rfl

theorem two_pow_half_height_le (h : Balanced t) : 2 ^ (t.height / 2) ≤ t.numNodes + 1 := by
  induction t with
  | nil => simp
  | node v l r hl hr =>
    obtain ⟨hbl, hbr, hlr, hrl⟩ := h
    simp only [height, numNodes]
    rcases Nat.eq_zero_or_pos (max l.height r.height) with h0 | hpos
    · simp [h0]
    · have hh : (max l.height r.height + 1) / 2 = (max l.height r.height - 1) / 2 + 1 := by omega
      have hle : 2 ^ ((max l.height r.height - 1) / 2) ≤ 2 ^ (l.height / 2) :=
        Nat.pow_le_pow_right Nat.two_pos (Nat.div_le_div_right (by omega))
      have hri : 2 ^ ((max l.height r.height - 1) / 2) ≤ 2 ^ (r.height / 2) :=
        Nat.pow_le_pow_right Nat.two_pos (Nat.div_le_div_right (by omega))
      have := hl hbl
      have := hr hbr
      rw [hh]
      omega

theorem height_lt_of_numNodes_lt (h : Balanced t) {k : ℕ} (hk : t.numNodes + 1 < 2 ^ (k + 1)) :
    t.height < 2 * (k + 1) := by
  have hpow := (two_pow_half_height_le h).trans_lt hk
  have hh := (Nat.pow_lt_pow_iff_right (by decide)).mp hpow
  omega

structure Rotated (t t' : BinaryTree α) : Prop where
  balanced : Balanced t'
  inorder_eq : inorder t' = inorder t
  height_le : t'.height ≤ t.height
  le_height : t.height ≤ t'.height + 1
  height_eq : Balanced t → t'.height = t.height

section

variable {v x y : α} {a b c d t : BinaryTree α}

lemma Rotated.refl (h : Balanced t) : Rotated t t := ⟨h, rfl, le_rfl, Nat.le_succ _, fun _ => rfl⟩

lemma Rotated.of_unbalanced {l r t' : BinaryTree α} (hb : Balanced t') (heq : inorder t' = inorder (.node v l r))
    (hh : t'.height ≤ (node v l r).height ∧ (node v l r).height ≤ t'.height + 1)
    (hne : r.height + 2 ≤ l.height ∨ l.height + 2 ≤ r.height) : Rotated (.node v l r) t' :=
  ⟨hb, heq, hh.1, hh.2, fun ht => absurd ht.2.2 (by omega)⟩

theorem rotated_single_right (hl : Balanced (.node x a b)) (hc : Balanced c) (hab : b.height ≤ a.height)
    (hh : (node x a b).height = c.height + 2) : Rotated (.node v (.node x a b) c) (.node x a (.node v b c)) := by
  obtain ⟨ha, hb, hlr, hrl⟩ := hl
  refine .of_unbalanced ⟨ha, ⟨hb, hc, ?_⟩, ?_⟩ (by simp) ?_ (.inl hh.ge)
  all_goals
    simp only [height] at hh ⊢
    omega

theorem rotated_single_left (ha : Balanced a) (hr : Balanced (.node x b c)) (hbc : b.height ≤ c.height)
    (hh : (node x b c).height = a.height + 2) : Rotated (.node v a (.node x b c)) (.node x (.node v a b) c) := by
  obtain ⟨hb, hc, hlr, hrl⟩ := hr
  refine .of_unbalanced ⟨⟨ha, hb, ?_⟩, hc, ?_⟩ (by simp) ?_ (.inr hh.ge)
  all_goals
    simp only [height] at hh ⊢
    omega

theorem rotated_double_right (hl : Balanced (.node x a (.node y b c))) (hd : Balanced d)
    (hab : a.height < (node y b c).height) (hh : (node x a (node y b c)).height = d.height + 2) :
    Rotated (.node v (.node x a (.node y b c)) d) (.node y (.node x a b) (.node v c d)) := by
  obtain ⟨ha, ⟨hb, hc, hbc, hcb⟩, hlr, hrl⟩ := hl
  refine .of_unbalanced ⟨⟨ha, hb, ?_⟩, ⟨hc, hd, ?_⟩, ?_⟩ (by simp) ?_ (.inl hh.ge)
  all_goals
    simp only [height] at hab hh hlr hrl ⊢
    omega

theorem rotated_double_left (ha : Balanced a) (hr : Balanced (.node x (.node y b c) d))
    (hdm : d.height < (node y b c).height) (hh : (node x (node y b c) d).height = a.height + 2) :
    Rotated (.node v a (.node x (.node y b c) d)) (.node y (.node v a b) (.node x c d)) := by
  obtain ⟨⟨hb, hc, hbc, hcb⟩, hd, hlr, hrl⟩ := hr
  refine .of_unbalanced ⟨⟨ha, hb, ?_⟩, ⟨hc, hd, ?_⟩, ?_⟩ (by simp) ?_ (.inr hh.ge)
  all_goals
    simp only [height] at hdm hh hlr hrl ⊢
    omega

variable {w : α} {l l' r r' t' : BinaryTree α}

section

variable (hrot : Rotated (.node w l' r') t') (h : Balanced (.node v l r)) (hl' : Balanced l') (hr' : Balanced r')
include hrot h hl' hr'

lemma Rotated.grown
    (hll : l.height ≤ l'.height) (hll' : l'.height ≤ l.height + 1) (hrr : r.height ≤ r'.height)
    (hrr' : r'.height ≤ r.height + 1) (hone : l'.height = l.height ∨ r'.height = r.height) :
    (node v l r).height ≤ t'.height ∧ t'.height ≤ (node v l r).height + 1 := by
  obtain ⟨-, -, hlr, hrl⟩ := h
  obtain ⟨-, -, h₁, h₂, h₃⟩ := hrot
  simp only [balanced_node, hl', hr', height, true_and] at h₁ h₂ h₃ ⊢
  rcases hone with hone | hone <;> omega

lemma Rotated.shrunk
    (hll : l'.height ≤ l.height) (hll' : l.height ≤ l'.height + 1) (hrr : r'.height ≤ r.height)
    (hrr' : r.height ≤ r'.height + 1) (hone : l'.height = l.height ∨ r'.height = r.height) :
    t'.height ≤ (node v l r).height ∧ (node v l r).height ≤ t'.height + 1 := by
  obtain ⟨-, -, hlr, hrl⟩ := h
  obtain ⟨-, -, h₁, h₂, h₃⟩ := hrot
  simp only [balanced_node, hl', hr', height, true_and] at h₁ h₂ h₃ ⊢
  rcases hone with hone | hone <;> omega

end

end

section

variable {R : α → α → Prop} [DecidableRel R] {a v : α} {left right : List α}

lemma orderedInsert_append_of_le (h : R a v) :
    (left ++ v :: right).orderedInsert R a = left.orderedInsert R a ++ v :: right := by
  induction left with
  | nil => simp [h]
  | cons b left ih =>
    simp only [cons_append, orderedInsert_cons, ih]
    split <;> rfl

lemma orderedInsert_append_of_not_le (h : ¬ R a v) (hle : ∀ b ∈ left, ¬ R a b) :
    (left ++ v :: right).orderedInsert R a = left ++ v :: right.orderedInsert R a := by
  induction left with
  | nil => simp [h]
  | cons b left ih =>
    have hb := hle b (by simp)
    simp only [cons_append, orderedInsert_cons, if_neg hb, ih fun c hc => hle c (by simp [hc])]

theorem pairwise_orderedInsert {β : Type} [LinearOrder β] {f : α → β} {l : List α} (h : l.Pairwise (f · < f ·))
    (hnew : ∀ b ∈ l, f b ≠ f a) : (l.orderedInsert (f · ≤ f ·) a).Pairwise (f · < f ·) := by
  induction l with
  | nil => simp
  | cons b l ih =>
    obtain ⟨hb, hl⟩ := pairwise_cons.mp h
    rw [orderedInsert_cons]
    split
    · next hle =>
      have hab : f a < f b := lt_of_le_of_ne hle (hnew b (by simp)).symm
      exact pairwise_cons.mpr ⟨forall_mem_cons.mpr ⟨hab, fun c hc => hab.trans (hb c hc)⟩, h⟩
    · next hle =>
      refine pairwise_cons.mpr ⟨fun c hc => ?_, ih hl fun c hc => hnew c (by simp [hc])⟩
      rcases (mem_orderedInsert _).mp hc with rfl | hc
      · exact not_le.mp hle
      · exact hb c hc

end

end XpxChain.Library.BalancedTrees

