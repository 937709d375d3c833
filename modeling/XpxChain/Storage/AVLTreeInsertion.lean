import XpxChain.Storage.AVLTreeRotations

/-! Insertion in stored trees, and the replacement of a removed node. -/

namespace XpxChain.Storage

open Library.StatePrograms Library.BalancedTrees BinaryTree List Function

namespace AVLTreeAdapter

variable {nodes nodes₁ nodes' : Nodes} {t l r : BinaryTree Key} {v p : Key} {fuel : ℕ}

lemma Rebuilt.trans {changed₁ changed₂ changed : List Key} (h₁ : ∀ q ∉ changed₁, nodes₁ q = nodes q)
    (h₂ : Rebuilt nodes₁ changed₂ nodes' p t) (hsub₁ : changed₁ ⊆ changed) (hsub₂ : changed₂ ⊆ changed) :
    Rebuilt nodes changed nodes' p t :=
  { h₂ with
    unchanged := fun q hq => (h₂.unchanged q fun hmem => hq (hsub₂ hmem)).trans (h₁ q fun hmem => hq (hsub₁ hmem)) }

lemma wp_rebalance {node : AVLTreeNode} (hv : v ≠ 0) (hs : (nodes v).isSome) (hl : Stored nodes l) (hr : Stored nodes r)
    (hle : node.left = pointer l) (hri : node.right = pointer r) (hnd : (inorder (.node v l r)).Nodup)
    (hbl : Balanced l) (hbr : Balanced r) (hlr : l.height ≤ r.height + 2) (hrl : r.height ≤ l.height + 2)
    (hsz : (BinaryTree.node v l r).numNodes < 2 ^ 31) {Q : Key → Nodes → Prop}
    (hQ : ∀ p nodes', RotatedFrom nodes (.node v l r) p nodes' → Q p nodes') :
    wp (nodeSaver v node) (fun _ nodes₁ => wp (updateStatistics v) (fun _ nodes₁ => wp (maybeRotate v) Q nodes₁) nodes₁)
      nodes := by
  rw [wp_relink hv hs hl hr hle hri hnd (fits_node hbl hbr hsz)]
  refine (wp_maybeRotate (stored_relink hv hl hr hnd) hnd hbl hbr hlr hrl hsz).mono ?_
  rintro p nodes' ⟨t, hre, hro⟩
  have hoff : ∀ q ∉ [v], update nodes v (some (nodeOver l r)) q = nodes q := fun q hq =>
    update_of_ne (by simpa using hq) ..
  exact hQ p nodes' ⟨t, hre.trans hoff (by simp) (List.Subset.refl _), hro⟩

section

variable {TKey : Type} [LinearOrder TKey] {keyExtractor : Key → TKey}

structure Inserted (keyExtractor : Key → TKey) (p : Key) (t t' : BinaryTree Key) : Prop where
  balanced : Balanced t'
  inorder_eq : inorder t' = (inorder t).orderedInsert (keyExtractor · ≤ keyExtractor ·) p
  le_height : t.height ≤ t'.height
  height_le : t'.height ≤ t.height + 1

lemma wp_insert_rebalance {node : AVLTreeNode} {l' r' : BinaryTree Key} (hv : v ≠ 0) (hs : (nodes₁ v).isSome)
    (hl : Stored nodes₁ l') (hr : Stored nodes₁ r') (hlf : node.left = pointer l') (hri : node.right = pointer r')
    (hsa : ∀ q ∉ p :: inorder (.node v l r), nodes₁ q = nodes q) (hnd : (p :: inorder (.node v l r)).Nodup)
    (hord : inorder (.node v l' r') = (inorder (.node v l r)).orderedInsert (keyExtractor · ≤ keyExtractor ·) p)
    (hbl : Balanced l') (hbr : Balanced r') (hlr : l'.height ≤ r'.height + 2) (hrl : r'.height ≤ l'.height + 2)
    (hg : ∀ t, Rotated (.node v l' r') t →
      (BinaryTree.node v l r).height ≤ t.height ∧ t.height ≤ (BinaryTree.node v l r).height + 1)
    (hsz : (BinaryTree.node v l r).numNodes + 1 < 2 ^ 31) :
    wp (nodeSaver v node) (fun _ nodes₁ => wp (updateStatistics v) (fun _ nodes₁ => wp (maybeRotate v)
      (fun nodePointer nodes' => ∃ t', Rebuilt nodes (p :: inorder (.node v l r)) nodes' nodePointer t' ∧
        Inserted keyExtractor p (.node v l r) t') nodes₁) nodes₁) nodes₁ := by
  have hp := hord ▸ perm_orderedInsert (keyExtractor · ≤ keyExtractor ·) p (inorder (.node v l r))
  have hlen : (BinaryTree.node v l' r').numNodes = (BinaryTree.node v l r).numNodes + 1 := by
    rw [← length_inorder, ← length_inorder, hp.length_eq, length_cons]
  refine wp_rebalance hv hs hl hr hlf hri (hp.nodup_iff.mpr hnd) hbl hbr hlr hrl (hlen ▸ hsz) ?_
  rintro nodePointer nodes' ⟨t', hre, hro⟩
  obtain ⟨hge, hle⟩ := hg t' hro
  exact ⟨t', .trans hsa hre (List.Subset.refl _) hp.subset, hro.balanced, hro.inorder_eq.trans hord, hge, hle⟩

theorem wp_insert (hf : t.height < fuel) (hst : Stored nodes t) (hb : Balanced t)
    (hsort : (inorder t).Pairwise (keyExtractor · < keyExtractor ·)) (hp : p ≠ 0) (hno : nodes p = some {})
    (hnew : ∀ q ∈ inorder t, keyExtractor q ≠ keyExtractor p) (hsz : t.numNodes + 1 < 2 ^ 31) :
    wp (insert keyExtractor fuel (pointer t) p) (fun nodePointer nodes' =>
      ∃ t', Rebuilt nodes (p :: inorder t) nodes' nodePointer t' ∧ Inserted keyExtractor p t t') nodes := by
  induction t generalizing fuel with
  | nil =>
    obtain _ | fuel := fuel
    · simp at hf
    simp only [insert, pointer_nil, if_true, wp_pure]
    exact ⟨.node p .nil .nil, ⟨rfl, ⟨hp, hno, trivial, trivial⟩, fun _ _ => rfl⟩, by simp, by simp, by simp, by simp⟩
  | node v l r ihl ihr =>
    obtain _ | fuel := fuel
    · simp at hf
    have hnd : (p :: inorder (.node v l r)).Nodup :=
      nodup_cons.mpr ⟨fun hmem => hnew p hmem rfl, hsort.imp fun h => ne_of_apply_ne _ h.ne⟩
    obtain ⟨hpt, hn⟩ := nodup_cons.mp hnd
    obtain ⟨-, -, hvl, hvr, hlr⟩ := nodup_inorder_node.mp hn
    obtain ⟨hpl, hpv, hpr⟩ : p ∉ inorder l ∧ p ≠ v ∧ p ∉ inorder r := by simpa using hpt
    obtain ⟨hv, hvn, hsl, hsr⟩ := hst
    obtain ⟨hs, hso, hlv, -, -⟩ := pairwise_inorder_node.mp hsort
    obtain ⟨hbl, hbr, hht⟩ := id hb
    have hsz' : l.numNodes + r.numNodes + 1 + 1 < 2 ^ 31 := hsz
    simp only [height] at hf
    rw [pointer_node]
    simp only [insert, if_neg hv, if_neg hpv.symm, wp_bind, wp_nodeExtractor hvn, wp_ite, wp_pure]
    by_cases hlt : keyExtractor p < keyExtractor v
    · rw [if_pos hlt]
      refine (ihl (by omega) hsl hbl hs (fun q hq => hnew q (by simp [hq])) (by omega)).mono ?_
      rintro _ nodes₁ ⟨l', ⟨rfl, hsl', hsa⟩, hins⟩
      have hvs : nodes₁ v = nodes v := hsa v (by simp [hpv.symm, hvl])
      refine wp_insert_rebalance hv (by simp [hvs, hvn]) hsl'
        (hsr.congr fun q hq => hsa q ?_) rfl rfl (fun q hq => hsa q ?_) hnd ?_ hins.balanced hbr ?_ ?_
        (fun t' ht' => ht'.grown hb hins.balanced hbr hins.le_height hins.height_le le_rfl (Nat.le_succ _) (.inr rfl))
          hsz
      · exact not_mem_cons_of_ne_of_not_mem (fun heq => hpr (heq ▸ hq)) fun hmem => hlr hmem hq
      · simp only [inorder_node, mem_cons, mem_append, not_or] at hq ⊢
        exact ⟨hq.1, hq.2.1⟩
      · rw [inorder_node, hins.inorder_eq]
        exact (orderedInsert_append_of_le (R := (keyExtractor · ≤ keyExtractor ·)) hlt.le).symm
      · have := hins.height_le
        omega
      · have := hins.le_height
        omega
    · rw [if_neg hlt]
      refine (ihr (by omega) hsr hbr hso (fun q hq => hnew q (by simp [hq])) (by omega)).mono ?_
      rintro _ nodes₁ ⟨r', ⟨rfl, hsr', hsa⟩, hins⟩
      have hvs : nodes₁ v = nodes v := hsa v (by simp [hpv.symm, hvr])
      have hgt : keyExtractor v < keyExtractor p := lt_of_le_of_ne (not_lt.mp hlt) (hnew v (by simp))
      refine wp_insert_rebalance hv (by simp [hvs, hvn]) (hsl.congr fun q hq => hsa q ?_) hsr'
        rfl rfl (fun q hq => hsa q ?_) hnd ?_ hbl hins.balanced ?_ ?_
        (fun t' ht' => ht'.grown hb hbl hins.balanced le_rfl (Nat.le_succ _) hins.le_height hins.height_le (.inl rfl))
          hsz
      · exact not_mem_cons_of_ne_of_not_mem (fun heq => hpl (heq ▸ hq)) fun hmem => hlr hq hmem
      · simp only [inorder_node, mem_cons, mem_append, not_or] at hq ⊢
        exact ⟨hq.1, hq.2.2.2⟩
      · rw [inorder_node, hins.inorder_eq]
        exact (orderedInsert_append_of_not_le (R := (keyExtractor · ≤ keyExtractor ·)) (not_le.mpr hgt)
          fun q hq => not_le.mpr ((hlv q hq).trans hgt)).symm
      · have := hins.le_height
        omega
      · have := hins.height_le
        omega

end

structure SoundTree (nodes : Nodes) (t : BinaryTree Key) : Prop where
  stored : Stored nodes t
  balanced : Balanced t
  nodup : (inorder t).Nodup
  numNodes_lt : t.numNodes < 2 ^ 31

lemma SoundTree.left (h : SoundTree nodes (.node v l r)) : SoundTree nodes l := by
  have hsz : l.numNodes + r.numNodes + 1 < 2 ^ 31 := h.numNodes_lt
  exact ⟨h.stored.2.2.1, h.balanced.1, (nodup_inorder_node.mp h.nodup).1, by omega⟩

lemma SoundTree.right (h : SoundTree nodes (.node v l r)) : SoundTree nodes r := by
  have hsz : l.numNodes + r.numNodes + 1 < 2 ^ 31 := h.numNodes_lt
  exact ⟨h.stored.2.2.2, h.balanced.2.1, (nodup_inorder_node.mp h.nodup).2.1, by omega⟩

lemma SoundTree.fits (h : SoundTree nodes t) : Fits t := fits_of_balanced h.balanced h.numNodes_lt

lemma SoundTree.congr (h : SoundTree nodes t) (hs : ∀ p ∈ inorder t, nodes' p = nodes p) : SoundTree nodes' t :=
  { h with stored := h.stored.congr hs }

lemma numNodes_le_of_sublist {t' : BinaryTree Key}
    (h : (inorder t').Sublist (inorder t)) : t'.numNodes ≤ t.numNodes := by
  simpa using h.length_le

structure Shrunk (t t' : BinaryTree Key) : Prop where
  balanced : Balanced t'
  height_le : t'.height ≤ t.height
  le_height : t.height ≤ t'.height + 1

theorem wp_findReplacer (hf : t.height < fuel) (h : SoundTree nodes t) (hne : t ≠ .nil) :
    wp (findReplacer fuel (pointer t)) (fun out nodes' => ∃ t', Rebuilt nodes (inorder t') nodes' out.1 t' ∧
      Shrunk t t' ∧ inorder t = inorder t' ++ [out.2]) nodes := by
  induction t generalizing fuel with
  | nil => exact absurd rfl hne
  | node v l r _ ihr =>
    obtain _ | fuel := fuel
    · simp at hf
    obtain ⟨hv, hvn, hsl, hsr⟩ := h.stored
    obtain ⟨hbl, hbr, hht⟩ := h.balanced
    simp only [height] at hf
    rw [pointer_node]
    simp only [findReplacer, wp_bind, wp_nodeExtractor hvn, wp_ite, wp_pure]
    by_cases hnil : r = .nil
    · subst hnil
      rw [if_pos (hsr.right_eq_zero.mpr rfl), nodeOver_left, wp_updateStatistics_of_stored hsl h.left.fits,
        wp_maybeRotate_of_balanced hsl hbl]
      exact ⟨l, ⟨rfl, hsl, fun _ _ => rfl⟩, ⟨hbl, by simp, by simp⟩, by simp⟩
    · rw [if_neg (hsr.right_eq_zero.not.mpr hnil)]
      refine (ihr (by omega) h.right hnil).mono ?_
      rintro ⟨_, replacer⟩ nodes₁ ⟨r', ⟨rfl, hsr', hsa⟩, hs, hord⟩
      have hsub : (inorder (.node v l r')).Sublist (inorder (.node v l r)) := by simp [hord]
      obtain ⟨-, -, -, hvr', hlr'⟩ := nodup_inorder_node.mp (hsub.nodup h.nodup)
      have hvs : nodes₁ v = nodes v := hsa v hvr'
      refine wp_rebalance hv (by simp [hvs, hvn]) (hsl.congr fun q hq => hsa q fun hq' => hlr' hq hq') hsr' rfl rfl
        (hsub.nodup h.nodup) hbl hs.balanced ?_ ?_ ((numNodes_le_of_sublist hsub).trans_lt h.numNodes_lt) ?_
      · have := hs.le_height
        omega
      · have := hs.height_le
        omega
      rintro _ nodes' ⟨t', hr, hrot⟩
      obtain ⟨hle, hge⟩ := hrot.shrunk h.balanced hbl hs.balanced le_rfl (Nat.le_succ _) hs.height_le
        hs.le_height (.inl rfl)
      refine ⟨t', .trans hsa hr ?_ ?_, ⟨hrot.balanced, hle, hge⟩, ?_⟩
      · simp [hrot.inorder_eq]
      · simp [hrot.inorder_eq]
      · simp [hrot.inorder_eq, hord]

end AVLTreeAdapter

end XpxChain.Storage
