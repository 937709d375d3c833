import XpxChain.Library.BalancedTrees
import XpxChain.Storage.AVLTree

/-! Stored nodes as binary trees: statistics and rotations. -/

namespace XpxChain.Storage

open Library.StatePrograms Library.BalancedTrees BinaryTree Function

def pointer : BinaryTree Key → Key
  | .nil => 0
  | .node v _ _ => v

@[simp] lemma pointer_nil : pointer .nil = 0 := rfl

@[simp] lemma pointer_node (v : Key) (l r : BinaryTree Key) : pointer (.node v l r) = v := rfl

def nodeOver (l r : BinaryTree Key) : AVLTreeNode :=
  ⟨pointer l, pointer r, max l.height r.height + 1, l.numNodes + r.numNodes + 1⟩

@[simp] lemma nodeOver_left (l r : BinaryTree Key) : (nodeOver l r).left = pointer l := rfl

@[simp] lemma nodeOver_right (l r : BinaryTree Key) : (nodeOver l r).right = pointer r := rfl

def Stored (nodes : Nodes) : BinaryTree Key → Prop
  | .nil => True
  | .node v l r => v ≠ 0 ∧ nodes v = some (nodeOver l r) ∧ Stored nodes l ∧ Stored nodes r

@[simp] lemma stored_nil {nodes : Nodes} : Stored nodes .nil := trivial

variable {nodes nodes' : Nodes} {t l r a b c d : BinaryTree Key} {v x y p : Key}

section

variable (h : Stored nodes t)
include h

lemma Stored.congr (hs : ∀ p ∈ inorder t, nodes' p = nodes p) : Stored nodes' t := by
  induction t with
  | nil => trivial
  | node v l r hl hr =>
    obtain ⟨hv, hn, hsl, hsr⟩ := h
    refine ⟨hv, ?_, hl hsl fun p hp => hs p ?_, hr hsr fun p hp => hs p ?_⟩
    · rw [hs v (by simp), hn]
    · simp [hp]
    · simp [hp]

lemma Stored.update (hp : p ∉ inorder t) {node : Option AVLTreeNode} : Stored (Function.update nodes p node) t :=
  h.congr fun _ hq => update_of_ne (ne_of_mem_of_not_mem hq hp) ..

lemma Stored.ne_zero (hp : p ∈ inorder t) : p ≠ 0 := by
  induction t with
  | nil => simp at hp
  | node v l r hl hr =>
    obtain ⟨hv, -, hsl, hsr⟩ := h
    rw [inorder_node, List.mem_append, List.mem_cons] at hp
    obtain hp | rfl | hp := hp
    · exact hl hsl hp
    · exact hv
    · exact hr hsr hp

lemma Stored.isSome (hp : p ∈ inorder t) : (nodes p).isSome := by
  induction t with
  | nil => simp at hp
  | node v l r hl hr =>
    obtain ⟨-, hn, hsl, hsr⟩ := h
    rw [inorder_node, List.mem_append, List.mem_cons] at hp
    obtain hp | rfl | hp := hp
    · exact hl hsl hp
    · simp [hn]
    · exact hr hsr hp

lemma Stored.pointer_eq_zero : pointer t = 0 ↔ t = .nil := by
  cases t with
  | nil => simp
  | node v l r => simp [h.1]

end

lemma Stored.left_eq_zero (h : Stored nodes l) : (nodeOver l r).left = 0 ↔ l = .nil := h.pointer_eq_zero

lemma Stored.right_eq_zero (h : Stored nodes r) : (nodeOver l r).right = 0 ↔ r = .nil := h.pointer_eq_zero

structure Fits (t : BinaryTree Key) : Prop where
  height_lt : t.height < 2 ^ 16
  numNodes_lt : t.numNodes < 2 ^ 32

lemma fits_node (hl : Balanced l) (hr : Balanced r) (hsz : (node v l r).numNodes < 2 ^ 31) : Fits (.node v l r) := by
  simp only [numNodes] at hsz
  have := height_lt_of_numNodes_lt hl (k := 30) (by omega)
  have := height_lt_of_numNodes_lt hr (k := 30) (by omega)
  constructor <;> simp only [height, numNodes] <;> omega

lemma fits_of_balanced (h : Balanced t) (hsz : t.numNodes < 2 ^ 31) : Fits t := by
  cases t with
  | nil => exact ⟨by simp, by simp⟩
  | node v l r => exact fits_node h.1 h.2.1 hsz

lemma fits_of_rotated (h : Rotated t (.node v l r)) (hsz : t.numNodes < 2 ^ 31) :
    Fits (.node v l r) ∧ Fits l ∧ Fits r := by
  rw [← length_inorder, ← h.inorder_eq, length_inorder] at hsz
  refine ⟨fits_of_balanced h.balanced hsz, fits_of_balanced h.balanced.1 ?_, fits_of_balanced h.balanced.2.1 ?_⟩ <;>
    simp only [numNodes] at hsz <;> omega

namespace AVLTreeAdapter

variable {α : Type} {Q : α → Nodes → Prop}

lemma wp_nodeExtractor {node : AVLTreeNode} (h : nodes p = some node) {Q : AVLTreeNode → Nodes → Prop} :
    wp (nodeExtractor p) Q nodes ↔ Q node nodes := by
  simp [wp, nodeExtractor, StateT.run, h]

lemma wp_nodeSaver {node : AVLTreeNode} (h : (nodes p).isSome) {Q : Unit → Nodes → Prop} :
    wp (nodeSaver p node) Q nodes ↔ Q () (Function.update nodes p (some node)) := by
  simp [wp, nodeSaver, StateT.run, h, Unique.exists_iff]

lemma wp_getHeight (h : Stored nodes t) {Q : ℕ → Nodes → Prop} :
    wp (getHeight (pointer t)) Q nodes ↔ Q t.height nodes := by
  cases t with
  | nil => simp [getHeight]
  | node v l r => simp [getHeight, h.1, wp_nodeExtractor h.2.1, nodeOver]

lemma wp_getSize (h : Stored nodes t) {Q : ℕ → Nodes → Prop} :
    wp (getSize (pointer t)) Q nodes ↔ Q t.numNodes nodes := by
  cases t with
  | nil => simp [getSize]
  | node v l r => simp [getSize, h.1, wp_nodeExtractor h.2.1, nodeOver]

lemma wp_getStatistics (h : Stored nodes t) {Q : ℕ × ℕ → Nodes → Prop} :
    wp (getStatistics (pointer t)) Q nodes ↔ Q (t.height, t.numNodes) nodes := by
  cases t with
  | nil => simp [getStatistics]
  | node v l r => simp [getStatistics, h.1, wp_nodeExtractor h.2.1, nodeOver]

lemma wp_updateStatistics {node : AVLTreeNode} (hv : v ≠ 0) (hn : nodes v = some node) (hl : Stored nodes l)
    (hr : Stored nodes r) (hle : node.left = pointer l) (hri : node.right = pointer r) (hf : Fits (.node v l r))
    {Q : Unit → Nodes → Prop} :
    wp (updateStatistics v) Q nodes ↔ Q () (Function.update nodes v (some (nodeOver l r))) := by
  have hht := Nat.mod_eq_of_lt hf.height_lt
  have hsz := Nat.mod_eq_of_lt hf.numNodes_lt
  simp only [height, numNodes] at hht hsz
  simp only [updateStatistics, if_neg hv, wp_bind, wp_nodeExtractor hn, hle, hri, wp_getStatistics hl,
    wp_getStatistics hr, hht, hsz]
  rw [wp_nodeSaver (by rw [hn]; rfl), nodeOver]

lemma wp_updateStatistics_of_stored (h : Stored nodes t) (hf : Fits t) {Q : Unit → Nodes → Prop} :
    wp (updateStatistics (pointer t)) Q nodes ↔ Q () nodes := by
  cases t with
  | nil => simp [updateStatistics]
  | node v l r =>
    rw [pointer_node, wp_updateStatistics h.1 h.2.1 h.2.2.1 h.2.2.2 rfl rfl hf, update_eq_self_iff.mpr h.2.1.symm]

lemma wp_relink {node : AVLTreeNode} (hv : v ≠ 0) (hs : (nodes v).isSome) (hl : Stored nodes l) (hr : Stored nodes r)
    (hle : node.left = pointer l) (hri : node.right = pointer r) (hnd : (inorder (.node v l r)).Nodup)
    (hf : Fits (.node v l r)) {Q : Unit → Nodes → Prop} :
    wp (nodeSaver v node) (fun _ nodes => wp (updateStatistics v) Q nodes) nodes ↔
      Q () (Function.update nodes v (some (nodeOver l r))) := by
  obtain ⟨-, -, hvl, hvr, -⟩ := nodup_inorder_node.mp hnd
  rw [wp_nodeSaver hs, wp_updateStatistics hv (update_self ..) (hl.update hvl) (hr.update hvr) hle hri hf, update_idem]

lemma stored_relink (hv : v ≠ 0) (hl : Stored nodes l) (hr : Stored nodes r) (hnd : (inorder (.node v l r)).Nodup) :
    Stored (Function.update nodes v (some (nodeOver l r))) (.node v l r) := by
  obtain ⟨-, -, hvl, hvr, -⟩ := nodup_inorder_node.mp hnd
  exact ⟨hv, update_self .., hl.update hvl, hr.update hvr⟩

structure Rebuilt (nodes : Nodes) (changed : List Key) (nodes' : Nodes) (nodePointer : Key)
    (t : BinaryTree Key) : Prop where
  pointer_eq : nodePointer = pointer t
  stored : Stored nodes' t
  unchanged : ∀ p ∉ changed, nodes' p = nodes p

def RotatedFrom (nodes : Nodes) (t : BinaryTree Key) (nodePointer : Key) (nodes' : Nodes) : Prop :=
  ∃ t', Rebuilt nodes (inorder t) nodes' nodePointer t' ∧ Rotated t t'

section

variable {t : BinaryTree Key} (hnd : (inorder t).Nodup) (hsz : t.numNodes < 2 ^ 31)
include hnd hsz

lemma wp_llRotation (ht : t = .node v (.node x a b) c) (h : Stored nodes t)
    (hrot : Rotated t (.node x a (.node v b c))) : wp (llRotation v) (RotatedFrom nodes t) nodes := by
  obtain ⟨hu, -, hl⟩ := fits_of_rotated hrot hsz
  rw [← hrot.inorder_eq] at hnd
  obtain ⟨-, hnd', -, hxl, hd⟩ := nodup_inorder_node.mp hnd
  have hva : v ∉ inorder a := fun hmem => hd hmem (by simp)
  have hxv : x ≠ v := by rintro rfl; simp at hxl
  subst ht
  obtain ⟨hv, hn, ⟨hx, hpar, ha, hb⟩, hc⟩ := h
  have hs := stored_relink hv hb hc hnd'
  simp only [llRotation, wp_bind, wp_nodeExtractor hn, nodeOver_left, pointer_node, wp_nodeExtractor hpar, wp_pure]
  rw [wp_relink hv (by simp [hn]) hb hc rfl rfl hnd' hl]
  rw [wp_relink hx (by simp [hxv, hpar]) (ha.update hva) hs rfl rfl hnd hu]
  refine ⟨_, ⟨rfl, stored_relink hx (ha.update hva) hs hnd, fun p hp => ?_⟩, hrot⟩
  rw [update_of_ne, update_of_ne] <;> rintro rfl <;> simp at hp

lemma wp_rrRotation (ht : t = .node v a (.node x b c)) (h : Stored nodes t)
    (hrot : Rotated t (.node x (.node v a b) c)) : wp (rrRotation v) (RotatedFrom nodes t) nodes := by
  obtain ⟨hu, hl, -⟩ := fits_of_rotated hrot hsz
  rw [← hrot.inorder_eq] at hnd
  obtain ⟨hnd', -, hxl, -, hd⟩ := nodup_inorder_node.mp hnd
  have hvc : v ∉ inorder c := hd (by simp)
  have hxv : x ≠ v := by rintro rfl; simp at hxl
  subst ht
  obtain ⟨hv, hn, ha, ⟨hx, hpar, hb, hc⟩⟩ := h
  have hs := stored_relink hv ha hb hnd'
  simp only [rrRotation, wp_bind, wp_nodeExtractor hn, nodeOver_right, pointer_node, wp_nodeExtractor hpar, wp_pure]
  rw [wp_relink hv (by simp [hn]) ha hb rfl rfl hnd' hl]
  rw [wp_relink hx (by simp [hxv, hpar]) hs (hc.update hvc) rfl rfl hnd hu]
  refine ⟨_, ⟨rfl, stored_relink hx hs (hc.update hvc) hnd, fun p hp => ?_⟩, hrot⟩
  rw [update_of_ne, update_of_ne] <;> rintro rfl <;> simp at hp

lemma wp_lrRotation (ht : t = .node v (.node x a (.node y b c)) d) (h : Stored nodes t)
    (hrot : Rotated t (.node y (.node x a b) (.node v c d))) : wp (lrRotation v) (RotatedFrom nodes t) nodes := by
  obtain ⟨hu, hle, hr⟩ := fits_of_rotated hrot hsz
  rw [← hrot.inorder_eq] at hnd
  obtain ⟨hn, hno, hyl, hyr, hdi⟩ := nodup_inorder_node.mp hnd
  have hvl : v ∉ inorder (.node x a b) := fun hmem => hdi hmem (by simp)
  obtain ⟨hxc, hxv, hxd⟩ : x ∉ inorder c ∧ x ≠ v ∧ x ∉ inorder d := by simpa using hdi (by simp)
  have hyx : y ≠ x := by rintro rfl; simp at hyl
  have hyv : y ≠ v := by rintro rfl; simp at hyr
  subst ht
  obtain ⟨hv, hne, ⟨hx, hxn, ha, ⟨hy, hpar, hb, hc⟩⟩, hd⟩ := h
  have hl := stored_relink hx ha hb hn
  replace hc : Stored (update nodes x (some (nodeOver a b))) c := hc.update hxc
  have hoth := stored_relink hv hc (hd.update hxd) hno
  simp only [lrRotation, wp_bind, wp_nodeExtractor hne, nodeOver_left, pointer_node, wp_nodeExtractor hxn,
    nodeOver_right, wp_nodeExtractor hpar, wp_pure]
  rw [wp_relink hx (by simp [hxn]) ha hb rfl rfl hn hle]
  rw [wp_relink hv (by simp [hxv.symm, hne]) hc (hd.update hxd) rfl rfl hno hr]
  rw [wp_relink hy (by simp [hyv, hyx, hpar]) (hl.update hvl) hoth rfl rfl hnd hu]
  refine ⟨_, ⟨rfl, stored_relink hy (hl.update hvl) hoth hnd, fun p hp => ?_⟩, hrot⟩
  rw [update_of_ne, update_of_ne, update_of_ne] <;> rintro rfl <;> simp at hp

lemma wp_rlRotation (ht : t = .node v a (.node x (.node y b c) d)) (h : Stored nodes t)
    (hrot : Rotated t (.node y (.node v a b) (.node x c d))) : wp (rlRotation v) (RotatedFrom nodes t) nodes := by
  obtain ⟨hu, hle, hr⟩ := fits_of_rotated hrot hsz
  rw [← hrot.inorder_eq] at hnd
  obtain ⟨hn, hno, hyl, hyr, hdi⟩ := nodup_inorder_node.mp hnd
  have hvr : v ∉ inorder (.node x c d) := hdi (by simp)
  obtain ⟨hxa, hxv, hxb⟩ : x ∉ inorder a ∧ x ≠ v ∧ x ∉ inorder b := by simpa using hdi.symm (by simp)
  have hyv : y ≠ v := by rintro rfl; simp at hyl
  have hyx : y ≠ x := by rintro rfl; simp at hyr
  subst ht
  obtain ⟨hv, hne, ha, ⟨hx, hxn, ⟨hy, hpar, hb, hc⟩, hd⟩⟩ := h
  have hl := stored_relink hx hc hd hno
  replace ha : Stored (update nodes x (some (nodeOver c d))) a := ha.update hxa
  have hoth := stored_relink hv ha (hb.update hxb) hn
  simp only [rlRotation, wp_bind, wp_nodeExtractor hne, nodeOver_right, pointer_node, wp_nodeExtractor hxn,
    nodeOver_left, wp_nodeExtractor hpar, wp_pure]
  rw [wp_relink hx (by simp [hxn]) hc hd rfl rfl hno hr]
  rw [wp_relink hv (by simp [hxv.symm, hne]) ha (hb.update hxb) rfl rfl hn hle]
  rw [wp_relink hy (by simp [hyv, hyx, hpar]) hoth (hl.update hvr) rfl rfl hnd hu]
  refine ⟨_, ⟨rfl, stored_relink hy hoth (hl.update hvr) hnd, fun p hp => ?_⟩, hrot⟩
  rw [update_of_ne, update_of_ne, update_of_ne] <;> rintro rfl <;> simp at hp

end

def rotationOf (l r : BinaryTree Key) : Rotation :=
  if ((l.height : ℤ) - r.height).natAbs ≤ 1 then .none
  else if l.height > r.height then (if l.left.height ≥ l.right.height then .ll else .lr)
  else (if r.right.height ≥ r.left.height then .rr else .rl)

lemma wp_getRotationType (h : Stored nodes (.node v l r)) {Q : Rotation → Nodes → Prop} :
    wp (getRotationType v) Q nodes ↔ Q (rotationOf l r) nodes := by
  obtain ⟨hv, hn, hl, hr⟩ := h
  simp only [getRotationType, if_neg hv, wp_bind, wp_nodeExtractor hn, nodeOver, wp_getHeight hl,
    wp_getHeight hr, rotationOf]
  split
  · simp
  split
  · next hgt =>
    cases l with
    | nil => simp at hgt
    | node x a b => simp [wp_nodeExtractor hl.2.1, nodeOver, wp_getHeight hl.2.2.1, wp_getHeight hl.2.2.2]
  · next hd hle =>
    cases r with
    | nil => simp at hd hle; omega
    | node x a b => simp [wp_nodeExtractor hr.2.1, nodeOver, wp_getHeight hr.2.2.1, wp_getHeight hr.2.2.2]

lemma wp_maybeRotate_of_balanced (h : Stored nodes t) (hb : Balanced t) {Q : Key → Nodes → Prop} :
    wp (maybeRotate (pointer t)) Q nodes ↔ Q (pointer t) nodes := by
  cases t with
  | nil => simp [maybeRotate]
  | node v l r =>
    have hn : rotationOf l r = .none := if_pos (by have := hb.2.2; omega)
    simp [maybeRotate, h.1, wp_getRotationType h, hn, rotate]

section

variable (h : Stored nodes (.node v l r))
include h

lemma wp_maybeRotate_iff {Q : Key → Nodes → Prop} :
    wp (maybeRotate v) Q nodes ↔ wp (rotate v (rotationOf l r)) Q nodes := by
  rw [maybeRotate, if_neg h.1, wp_bind, wp_getRotationType h]

lemma wp_maybeRotate_left (hnd : (inorder (.node v l r)).Nodup) (hl : Balanced l)
    (hr : Balanced r) (hh : l.height = r.height + 2) (hsz : (node v l r).numNodes < 2 ^ 31) :
    wp (maybeRotate v) (RotatedFrom nodes (.node v l r)) nodes := by
  have hd : ¬ ((l.height : ℤ) - r.height).natAbs ≤ 1 := by omega
  obtain _ | ⟨x, a, b⟩ := l
  · simp at hh
  by_cases hab : b.height ≤ a.height
  · have hrot := rotated_single_right (v := v) hl hr hab hh
    have hll : rotationOf (.node x a b) r = .ll := by
      rw [rotationOf, if_neg hd, if_pos (by omega)]
      exact if_pos hab
    rw [wp_maybeRotate_iff h, hll]
    exact wp_llRotation hnd hsz rfl h hrot
  · obtain _ | ⟨y, b, c⟩ := b
    · simp at hab
    have hrot := rotated_double_right (v := v) hl hr (not_le.mp hab) hh
    have hlr : rotationOf (.node x a (.node y b c)) r = .lr := by
      rw [rotationOf, if_neg hd, if_pos (by omega)]
      exact if_neg hab
    rw [wp_maybeRotate_iff h, hlr]
    exact wp_lrRotation hnd hsz rfl h hrot

lemma wp_maybeRotate_right (hnd : (inorder (.node v l r)).Nodup) (hl : Balanced l)
    (hr : Balanced r) (hh : r.height = l.height + 2) (hsz : (node v l r).numNodes < 2 ^ 31) :
    wp (maybeRotate v) (RotatedFrom nodes (.node v l r)) nodes := by
  have hd : ¬ ((l.height : ℤ) - r.height).natAbs ≤ 1 := by omega
  obtain _ | ⟨x, b, c⟩ := r
  · simp at hh
  by_cases hbc : b.height ≤ c.height
  · have hrot := rotated_single_left (v := v) hl hr hbc hh
    have hrr : rotationOf l (.node x b c) = .rr := by
      rw [rotationOf, if_neg hd, if_neg (by omega)]
      exact if_pos hbc
    rw [wp_maybeRotate_iff h, hrr]
    exact wp_rrRotation hnd hsz rfl h hrot
  · obtain _ | ⟨y, b, d⟩ := b
    · simp at hbc
    have hrot := rotated_double_left (v := v) hl hr (not_le.mp hbc) hh
    have hrl : rotationOf l (.node x (.node y b d) c) = .rl := by
      rw [rotationOf, if_neg hd, if_neg (by omega)]
      exact if_neg hbc
    rw [wp_maybeRotate_iff h, hrl]
    exact wp_rlRotation hnd hsz rfl h hrot

theorem wp_maybeRotate (hnd : (inorder (.node v l r)).Nodup) (hl : Balanced l)
    (hr : Balanced r) (hlr : l.height ≤ r.height + 2) (hrl : r.height ≤ l.height + 2)
    (hsz : (node v l r).numNodes < 2 ^ 31) : wp (maybeRotate v) (RotatedFrom nodes (.node v l r)) nodes := by
  rcases hlr.lt_or_eq with hlr | hlr
  · rcases hrl.lt_or_eq with hrl | hrl
    · have hb : Balanced (.node v l r) := ⟨hl, hr, Nat.le_of_lt_succ hlr, Nat.le_of_lt_succ hrl⟩
      exact (wp_maybeRotate_of_balanced h hb).mpr ⟨_, ⟨rfl, h, fun _ _ => rfl⟩, .refl hb⟩
    · exact wp_maybeRotate_right h hnd hl hr hrl hsz
  · exact wp_maybeRotate_left h hnd hl hr hlr hsz

end

end AVLTreeAdapter

end XpxChain.Storage

