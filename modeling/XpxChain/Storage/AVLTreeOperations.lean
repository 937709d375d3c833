import XpxChain.Storage.AVLTreeInsertion

/-! Removal and extraction in stored trees. -/

namespace XpxChain.Storage

open Library.StatePrograms Library.BalancedTrees BinaryTree List Function

namespace AVLTreeAdapter

variable {nodes nodes₁ nodes' : Nodes} {t l r : BinaryTree Key} {v p : Key} {fuel : ℕ}

structure Reduced (nodes : Nodes) (t : BinaryTree Key) (nodes' : Nodes) (nodePointer : Key) (t' : BinaryTree Key) : Prop
    extends Rebuilt nodes (inorder t) nodes' nodePointer t', Shrunk t t' where
  sublist : (inorder t').Sublist (inorder t)
  reset : ∀ q ∈ inorder t, q ∉ inorder t' → nodes' q = some {}

variable {Q : Key → Nodes → Prop}

lemma wp_settle_right (h : SoundTree nodes (.node v .nil r))
    (hQ : ∀ p nodes' t', Reduced nodes (.node v .nil r) nodes' p t' → inorder t' = inorder r → Q p nodes') :
    wp (updateStatistics (pointer r)) (fun _ nodes₁ => wp (maybeRotate (pointer r)) Q nodes₁)
      (Function.update nodes v (some {})) := by
  have hvr : v ∉ inorder r := (nodup_inorder_node.mp h.nodup).2.2.2.1
  have hr : SoundTree (update nodes v (some {})) r := h.right.congr fun q hq =>
    update_of_ne (ne_of_mem_of_not_mem hq hvr) ..
  rw [wp_updateStatistics_of_stored hr.stored hr.fits, wp_maybeRotate_of_balanced hr.stored hr.balanced]
  refine hQ _ _ r ⟨⟨rfl, hr.stored, fun q hq => ?_⟩, ⟨hr.balanced, by simp, by simp⟩, by simp, fun q hq hqr => ?_⟩ rfl
  · exact update_of_ne (by rintro rfl; simp at hq) ..
  · obtain rfl : q = v := by simpa [hqr] using hq
    exact update_self ..

section

variable (h : SoundTree nodes (.node v l r))
include h

variable {l' r' : BinaryTree Key} {node : AVLTreeNode} {nodePointer : Key}

lemma wp_settle_replacer {replacer : Key} (hsl' : Stored nodes₁ l')
    (hs : Shrunk l l') (hord : inorder l = inorder l' ++ [replacer]) (hsa : ∀ q ∉ inorder l', nodes₁ q = nodes q)
    (hl : node.left = pointer l') (hr : node.right = pointer r)
    (hQ : ∀ p nodes' t', Reduced nodes (.node v l r) nodes' p t' → inorder t' = inorder l ++ inorder r → Q p nodes') :
    wp (updateStatistics replacer) (fun _ nodes₁ => wp (maybeRotate replacer) Q nodes₁)
      (Function.update (Function.update nodes₁ replacer (some node)) v (some {})) := by
  obtain ⟨-, -, hsl, hsr⟩ := h.stored
  obtain ⟨-, hbr, hht⟩ := h.balanced
  obtain ⟨-, -, hvl, hvr, -⟩ := nodup_inorder_node.mp h.nodup
  have hord' : inorder (.node replacer l' r) = inorder l ++ inorder r := by simp [hord]
  have hsu : (inorder (.node replacer l' r)).Sublist (inorder (.node v l r)) := by
    rw [hord']
    exact List.Sublist.append_left (sublist_cons_self ..) _
  have hnd' := hsu.nodup h.nodup
  obtain ⟨-, -, hxl', hxr, hlr'⟩ := nodup_inorder_node.mp hnd'
  have hrpr : replacer ∈ inorder l := by simp [hord]
  have hsub : inorder l' ⊆ inorder l := by simp [hord]
  have hxv : replacer ≠ v := fun heq => hvl (heq ▸ hrpr)
  have hvl' : v ∉ inorder l' := fun hmem => hvl (hsub hmem)
  have hsz' := (numNodes_le_of_sublist hsu).trans_lt h.numNodes_lt
  generalize hn₂ : update (update nodes₁ replacer (some node)) v (some {}) = nodes₂
  have hx : nodes₂ replacer = some node := by
    rw [← hn₂, update_of_ne hxv, update_self]
  have hv : nodes₂ v = some {} := by rw [← hn₂, update_self]
  have hoff : ∀ q ≠ replacer, q ≠ v → nodes₂ q = nodes₁ q := fun q hqx hqv => by
    rw [← hn₂, update_of_ne hqv, update_of_ne hqx]
  have hsl₂ : Stored nodes₂ l' := hsl'.congr fun q hq =>
    hoff q (ne_of_mem_of_not_mem hq hxl') (ne_of_mem_of_not_mem hq hvl')
  have hsr₂ : Stored nodes₂ r := hsr.congr fun q hq =>
    (hoff q (ne_of_mem_of_not_mem hq hxr) (ne_of_mem_of_not_mem hq hvr)).trans (hsa q fun hmem => hlr' hmem hq)
  rw [wp_updateStatistics (hsl.ne_zero hrpr) hx hsl₂ hsr₂ hl hr (fits_node hs.balanced hbr hsz')]
  have hle := hs.height_le
  have hge := hs.le_height
  refine (wp_maybeRotate (stored_relink (hsl.ne_zero hrpr) hsl₂ hsr₂ hnd') hnd' hs.balanced hbr
    (by omega) (by omega) hsz').mono ?_
  rintro _ nodes' ⟨t', ⟨rfl, hst', hu⟩, hrot⟩
  obtain ⟨hle', hge'⟩ := hrot.shrunk h.balanced hs.balanced hbr hle hge le_rfl (Nat.le_succ _) (.inr rfl)
  have hn' : ∀ q ∉ inorder l ++ inorder r, nodes' q = nodes₂ q := fun q hq => by
    rw [hu q (hord' ▸ hq), update_of_ne]
    rintro rfl
    simp [hrpr] at hq
  refine hQ _ _ t' ⟨⟨rfl, hst', fun q hq => ?_⟩, ⟨hrot.balanced, hle', hge'⟩, hrot.inorder_eq ▸ hsu, fun q hq hqt => ?_⟩
    (hrot.inorder_eq.trans hord')
  · simp only [inorder_node, mem_append, mem_cons, not_or] at hq
    rw [hn' q (by simp [hq]), hoff q (fun heq => hq.1 (heq ▸ hrpr)) hq.2.1, hsa q fun hmem => hq.1 (hsub hmem)]
  · rw [hrot.inorder_eq, hord'] at hqt
    simp only [mem_append, not_or] at hqt
    obtain rfl : q = v := by simpa [hqt] using hq
    rw [hn' q (by simp [hqt]), hv]

theorem wp_takeOut (hf : l.height < fuel)
    (hQ : ∀ p nodes' t', Reduced nodes (.node v l r) nodes' p t' → inorder t' = inorder l ++ inorder r → Q p nodes') :
    wp (takeOut fuel v (nodeOver l r)) (fun resultPointer nodes₁ => wp (updateStatistics resultPointer)
      (fun _ nodes₁ => wp (maybeRotate resultPointer) Q nodes₁) nodes₁) nodes := by
  obtain ⟨-, hv, hsl, hsr⟩ := h.stored
  obtain ⟨hn, -, hvl, hvr, -⟩ := nodup_inorder_node.mp h.nodup
  simp only [takeOut, wp_bind, wp_pure, wp_ite, hsl.left_eq_zero, hsr.right_eq_zero]
  by_cases hnil : l = .nil
  · subst hnil
    have hr := wp_settle_right h hQ
    by_cases hrn : r = .nil
    · subst hrn
      simpa [wp_nodeSaver, hv] using hr
    · simpa [hrn, wp_nodeSaver, hv] using hr
  · rw [if_neg fun h => hnil h.1, if_neg hnil]
    refine (wp_findReplacer hf h.left hnil).mono ?_
    rintro ⟨_, replacer⟩ nodes₁ ⟨l', ⟨rfl, hsl', hsa⟩, hs, hord⟩
    have hrpr : replacer ∈ inorder l := by simp [hord]
    have hxl' : replacer ∉ inorder l' := fun hmem =>
      (nodup_append'.mp (hord ▸ hn)).2.2 hmem (by simp)
    have hvl' : v ∉ inorder l' := fun hmem => hvl (by simp [hord, hmem])
    have hxv : v ≠ replacer := fun heq => hvl (heq ▸ hrpr)
    obtain ⟨node, hx⟩ := Option.isSome_iff_exists.mp (hsl.isSome hrpr)
    rw [← hsa replacer hxl'] at hx
    rw [wp_nodeExtractor hx, wp_nodeSaver (by simp [hx]), wp_nodeSaver (by rw [update_of_ne hxv, hsa v hvl', hv]; rfl)]
    exact wp_settle_replacer h hsl' hs hord hsa rfl rfl hQ

/-- A node is saved with new children, updated twice as in the source, and rotated. -/
abbrev Rebalances (v : Key) (node : AVLTreeNode) (Q : Key → Nodes → Prop) : Nodes → Prop :=
  wp (nodeSaver v node) fun _ => wp (updateStatistics v) fun _ => wp (updateStatistics v) fun _ => wp (maybeRotate v) Q

lemma wp_reduce_rebalance (hso : (nodes₁ v).isSome) (hl' : Stored nodes₁ l') (hr' : Stored nodes₁ r')
    (hlf : node.left = pointer l') (hri : node.right = pointer r')
    (hsa : ∀ q ∉ inorder (.node v l r), nodes₁ q = nodes q)
    (hre : ∀ q ∈ inorder (.node v l r), q ∉ inorder (.node v l' r') → nodes₁ q = some {})
    (hsu : (inorder l').Sublist (inorder l)) (hsb : (inorder r').Sublist (inorder r)) (hshl : Shrunk l l')
    (hshr : Shrunk r r') (hone : l'.height = l.height ∨ r'.height = r.height)
    (hQ : ∀ p nodes' t', Reduced nodes (.node v l r) nodes' p t' → inorder t' = inorder (.node v l' r') →
      (l'.height = l.height → r'.height = r.height → t'.height = (BinaryTree.node v l r).height) → Q p nodes') :
    Rebalances v node Q nodes₁ := by
  have hsub : (inorder (.node v l' r')).Sublist (inorder (.node v l r)) := hsu.append (hsb.cons_cons v)
  have hnd' := hsub.nodup h.nodup
  have hsz' := (numNodes_le_of_sublist hsub).trans_lt h.numNodes_lt
  have hf := fits_node hshl.balanced hshr.balanced hsz'
  have hs := stored_relink h.stored.1 hl' hr' hnd'
  rw [Rebalances, wp_relink h.stored.1 hso hl' hr' hlf hri hnd' hf]
  obtain ⟨hll, hll'⟩ := And.intro hshl.height_le hshl.le_height
  obtain ⟨hrr, hrr'⟩ := And.intro hshr.height_le hshr.le_height
  have hht := h.balanced.2.2
  refine (wp_updateStatistics_of_stored hs hf).mpr ((wp_maybeRotate hs hnd' hshl.balanced hshr.balanced
    ?_ ?_ hsz').mono ?_)
  · rcases hone with hone | hone <;> omega
  · rcases hone with hone | hone <;> omega
  rintro _ nodes' ⟨t', ⟨rfl, hst', hu⟩, hrot⟩
  obtain ⟨hle', hge'⟩ := hrot.shrunk h.balanced hshl.balanced hshr.balanced hll hll' hrr hrr' hone
  have hn' : ∀ q ∉ inorder (.node v l' r'), nodes' q = nodes₁ q := fun q hq => by
    rw [hu q hq, update_of_ne]
    rintro rfl
    simp at hq
  refine hQ _ _ t' ⟨⟨rfl, hst', fun q hq => ?_⟩, ⟨hrot.balanced, hle', hge'⟩, hrot.inorder_eq ▸ hsub,
    fun q hq hqt => ?_⟩
    hrot.inorder_eq fun heql heqr => ?_
  · rw [hn' q fun hmem => hq (hsub.subset hmem), hsa q hq]
  · rw [hrot.inorder_eq] at hqt
    rw [hn' q hqt, hre q hq hqt]
  · rw [hrot.height_eq ⟨hshl.balanced, hshr.balanced, by omega, by omega⟩]
    simp only [height, heql, heqr]

omit h in
lemma Reduced.refl (h : Stored nodes t) (hb : Balanced t) : Reduced nodes t nodes (pointer t) t :=
  ⟨⟨rfl, h, fun _ _ => rfl⟩, ⟨hb, le_rfl, Nat.le_succ _⟩, .refl _, fun _ hq hq' => absurd hq hq'⟩

lemma wp_reduce_left (hl : Reduced nodes l nodes₁ nodePointer l')
    (hQ : ∀ p nodes' t', Reduced nodes (.node v l r) nodes' p t' → inorder t' = inorder (.node v l' r) → Q p nodes') :
    Rebalances v { nodeOver l r with left := nodePointer } Q nodes₁ := by
  obtain ⟨-, hv, -, hsr⟩ := h.stored
  obtain ⟨-, -, hvl, -, hlr⟩ := nodup_inorder_node.mp h.nodup
  have hvs : nodes₁ v = nodes v := hl.unchanged v hvl
  refine wp_reduce_rebalance h (by simp [hvs, hv]) hl.stored
    (hsr.congr fun q hq => hl.unchanged q fun hmem => hlr hmem hq) hl.pointer_eq rfl ?_ ?_ hl.sublist
      (.refl _) hl.toShrunk
    ⟨h.balanced.2.1, le_rfl, Nat.le_succ _⟩ (.inr rfl) fun p nodes' t' hred hord _ => hQ p nodes' t' hred hord
  · intro q hq
    exact hl.unchanged q fun hmem => hq (by simp [hmem])
  · intro q hq hq'
    simp only [inorder_node, mem_append, mem_cons, not_or] at hq hq'
    exact hl.reset q (hq.resolve_right (by simp [hq'])) hq'.1

lemma wp_reduce_right (hr : Reduced nodes r nodes₁ nodePointer r')
    (hQ : ∀ p nodes' t', Reduced nodes (.node v l r) nodes' p t' → inorder t' = inorder (.node v l r') →
      (r'.height = r.height → t'.height = (BinaryTree.node v l r).height) → Q p nodes') :
    Rebalances v { nodeOver l r with right := nodePointer } Q nodes₁ := by
  obtain ⟨-, hv, hsl, -⟩ := h.stored
  obtain ⟨-, -, -, hvr, hlr⟩ := nodup_inorder_node.mp h.nodup
  have hvs : nodes₁ v = nodes v := hr.unchanged v hvr
  refine wp_reduce_rebalance h (by simp [hvs, hv])
    (hsl.congr fun q hq => hr.unchanged q fun hmem => hlr hq hmem) hr.stored rfl hr.pointer_eq ?_ ?_
      (.refl _) hr.sublist
    ⟨h.balanced.1, le_rfl, Nat.le_succ _⟩ hr.toShrunk (.inl rfl) fun p nodes' t' hred hord hht =>
      hQ p nodes' t' hred hord (hht rfl)
  · intro q hq
    exact hr.unchanged q fun hmem => hq (by simp [hmem])
  · intro q hq hq'
    simp only [inorder_node, mem_append, mem_cons, not_or] at hq hq'
    exact hr.reset q ((hq.resolve_left hq'.1).resolve_left hq'.2.1) hq'.2.2

lemma wp_reduce_walk {left right : Key} (hl : Reduced nodes l nodes₁ left l')
    (hr : Reduced (Function.update nodes₁ v (some (nodeOver l' r))) r nodes' right r') (hord : inorder r' = inorder r)
    (hht : r'.height = r.height)
    (hQ : ∀ p nodes' t', Reduced nodes (.node v l r) nodes' p t' → inorder t' = inorder (.node v l' r) → Q p nodes') :
    Rebalances v { nodeOver l r with left, right } Q nodes' := by
  obtain ⟨-, -, hvl, hvr, hlr⟩ := nodup_inorder_node.mp h.nodup
  have hvl' : v ∉ inorder l' := fun hmem => hvl (hl.sublist.subset hmem)
  have hoff : ∀ q ≠ v, q ∉ inorder r → nodes' q = nodes₁ q := fun q hqv hqr => by
    rw [hr.unchanged q hqr, update_of_ne hqv]
  have hsl' : Stored nodes' l' := hl.stored.congr fun q hq =>
    hoff q (ne_of_mem_of_not_mem hq hvl') (hlr (hl.sublist.subset hq))
  refine wp_reduce_rebalance h (by rw [hr.unchanged v hvr, update_self]; rfl) hsl' hr.stored
    hl.pointer_eq hr.pointer_eq ?_ ?_ hl.sublist hr.sublist hl.toShrunk hr.toShrunk (.inr hht)
    fun p nodes' t' hred heq _ => hQ p nodes' t' hred (by rw [heq, inorder_node, inorder_node, hord])
  · intro q hq
    simp only [inorder_node, mem_append, mem_cons, not_or] at hq
    rw [hoff q hq.2.1 hq.2.2, hl.unchanged q hq.1]
  · intro q hq hq'
    simp only [inorder_node, hord, mem_append, mem_cons, not_or] at hq hq'
    rw [hoff q hq'.2.1 hq'.2.2, hl.reset q (hq.resolve_right (by simp [hq'])) hq'.1]

end

section

variable {TKey : Type} [LinearOrder TKey] {keyExtractor : Key → TKey} {removedKey : TKey}

theorem wp_remove (hf : t.height < fuel) (hs : Stored nodes t) (hb : Balanced t)
    (hsort : (inorder t).Pairwise (keyExtractor · < keyExtractor ·)) (hsz : t.numNodes < 2 ^ 31) :
    wp (remove keyExtractor fuel (pointer t) removedKey) (fun nodePointer nodes' =>
      ∃ t', Reduced nodes t nodes' nodePointer t' ∧
        inorder t' = (inorder t).filter (keyExtractor · ≠ removedKey)) nodes := by
  induction t generalizing fuel with
  | nil =>
    obtain _ | fuel := fuel
    · simp at hf
    simp only [remove, pointer_nil, if_true, wp_pure]
    exact ⟨.nil, .refl hs hb, rfl⟩
  | node v l r ihl ihr =>
    obtain _ | fuel := fuel
    · simp at hf
    have hnd : (inorder (.node v l r)).Nodup := hsort.imp fun h => ne_of_apply_ne _ h.ne
    have h : SoundTree nodes (.node v l r) := ⟨hs, hb, hnd, hsz⟩
    obtain ⟨hv, hvn, hsl, hsr⟩ := hs
    obtain ⟨hso, hst, hlv, hvlt, -⟩ := pairwise_inorder_node.mp hsort
    simp only [height] at hf
    rw [pointer_node]
    simp only [remove, if_neg hv, wp_bind, wp_nodeExtractor hvn, wp_ite, wp_pure]
    have hk : keyExtractor v ≤ removedKey → (inorder l).filter (keyExtractor · ≠ removedKey) = inorder l := fun hle =>
      filter_eq_self.mpr fun q hq => decide_eq_true ((hlv q hq).trans_le hle).ne
    have hke : removedKey ≤ keyExtractor v → (inorder r).filter (keyExtractor · ≠ removedKey) = inorder r := fun hle =>
      filter_eq_self.mpr fun q hq => decide_eq_true (hle.trans_lt (hvlt q hq)).ne'
    rw [inorder_node, filter_append, filter_cons]
    rcases lt_trichotomy removedKey (keyExtractor v) with hlt | heq | hgt
    · rw [if_neg hlt.ne', if_pos hlt, hke hlt.le, if_pos (decide_eq_true hlt.ne')]
      refine (ihl (by omega) hsl hb.1 hso h.left.numNodes_lt).mono ?_
      rintro _ nodes₁ ⟨l', hred, hord⟩
      rw [← hord]
      exact wp_reduce_left h hred fun p nodes' t' h hord => ⟨t', h, hord⟩
    · rw [if_pos heq.symm, hk heq.ge, hke heq.le, if_neg (by simp [heq])]
      exact wp_takeOut h (by omega) fun p nodes' t' h hord => ⟨t', h, hord⟩
    · rw [if_neg hgt.ne, if_neg hgt.asymm, hk hgt.le, if_pos (decide_eq_true hgt.ne)]
      refine (ihr (by omega) hsr hb.2.1 hst h.right.numNodes_lt).mono ?_
      rintro _ nodes₁ ⟨r', hred, hord⟩
      rw [← hord]
      exact wp_reduce_right h hred fun p nodes' t' h hord _ => ⟨t', h, hord⟩

end

variable {index n : ℕ}

lemma rightIndex_of_lt (h : n < index) : uint32Sub (uint32Sub index n) 1 = index - n - 1 := by
  have hsub : uint32Sub index n = index - n := if_pos h.le
  rw [hsub, uint32Sub, if_pos (by omega)]

lemma rightIndex_of_gt {m : ℕ} (h : index < n) (hnm : n + m + 1 < 2 ^ 31) :
    m ≤ uint32Sub (uint32Sub index n) 1 ∧ uint32Sub (uint32Sub index n) 1 < 2 ^ 32 := by
  have hw : uint32Sub index n = index + 2 ^ 32 - n := if_neg (by omega)
  rw [uint32Sub, if_pos (by omega)]
  omega

theorem wp_extractOrderStatistics {extractedPointer : Key} (hf : t.height < fuel) (h : SoundTree nodes t)
    (hidx : index < 2 ^ 32) : wp (extractOrderStatistics fuel (pointer t) index extractedPointer) (fun out nodes' =>
      ∃ t', Reduced nodes t nodes' out.1 t' ∧ inorder t' = (inorder t).eraseIdx index ∧
        out.2 = (inorder t)[index]?.getD extractedPointer ∧ (t.numNodes ≤ index → t'.height = t.height)) nodes := by
  induction t generalizing fuel nodes index extractedPointer with
  | nil =>
    obtain _ | fuel := fuel
    · simp at hf
    simp only [extractOrderStatistics, pointer_nil, if_true, wp_pure]
    exact ⟨.nil, .refl h.stored h.balanced, rfl, rfl, fun _ => rfl⟩
  | node v l r ihl ihr =>
    obtain _ | fuel := fuel
    · simp at hf
    obtain ⟨hv, hvn, hsl, -⟩ := h.stored
    obtain ⟨-, -, hvl, hvr, hlr⟩ := nodup_inorder_node.mp h.nodup
    simp only [height] at hf
    rw [pointer_node]
    simp only [extractOrderStatistics, if_neg hv, wp_bind, wp_nodeExtractor hvn, nodeOver_left, wp_getSize hsl,
      wp_ite, wp_pure]
    rcases lt_trichotomy index l.numNodes with hlt | heq | hgt
    · have hlt' : index < (inorder l).length := by simpa using hlt
      obtain ⟨hw, hw'⟩ := rightIndex_of_gt hlt h.numNodes_lt
      rw [if_pos hlt]
      refine (ihl (by omega) h.left hidx).mono ?_
      rintro ⟨left, extracted⟩ nodes₁ ⟨l', hl', hord, he, -⟩
      have hr₁ : SoundTree nodes₁ r := h.right.congr fun q hq => hl'.unchanged q fun hmem => hlr hmem hq
      have hsub : (inorder (.node v l' r)).Sublist (inorder (.node v l r)) := hl'.sublist.append_right _
      rw [wp_relink hv (by simp [hl'.unchanged v hvl, hvn]) hl'.stored hr₁.stored hl'.pointer_eq rfl
        (hsub.nodup h.nodup) (fits_node hl'.balanced hr₁.balanced
        ((numNodes_le_of_sublist hsub).trans_lt h.numNodes_lt)), if_neg hlt.ne, nodeOver_right]
      refine (ihr (by omega) (hr₁.congr fun q hq => update_of_ne (ne_of_mem_of_not_mem hq hvr) ..) hw').mono ?_
      rintro ⟨right, extracted'⟩ nodes₂ ⟨r', hr', hord', he', hht⟩
      rw [eraseIdx_of_length_le (by simpa using hw)] at hord'
      rw [getElem?_eq_none (by simpa using hw), Option.getD_none] at he'
      refine wp_reduce_walk h hl' hr' hord' (hht hw)
        fun p nodes' t' hred heq => ⟨t', hred, ?_, ?_, fun hle => ?_⟩
      · rw [heq, inorder_node, inorder_node, hord, eraseIdx_append_of_lt_length hlt']
      · rw [he', he, inorder_node, getElem?_append_left hlt']
      · simp only [numNodes] at hle
        omega
    · rw [if_neg heq.not_lt, if_pos heq]
      refine wp_takeOut h (by omega) fun p nodes' t' hred hord =>
        ⟨t', hred, ?_, ?_, fun hle => ?_⟩
      · rw [hord, inorder_node, eraseIdx_append_of_length_le (by simp [heq])]
        simp [heq]
      · simp [heq]
      · simp only [numNodes] at hle
        omega
    · have hgt' : (inorder l).length ≤ index := by simpa using hgt.le
      obtain ⟨k, hk⟩ : ∃ k, index - l.numNodes = k + 1 := ⟨index - l.numNodes - 1, by omega⟩
      rw [if_neg hgt.asymm, if_neg hgt.ne', rightIndex_of_lt hgt, hk, Nat.add_sub_cancel]
      refine (ihr (by omega) h.right (by omega)).mono ?_
      rintro ⟨right, extracted⟩ nodes₁ ⟨r', hr', hord, he, hht⟩
      refine wp_reduce_right h hr' fun p nodes' t' hred heq hs =>
        ⟨t', hred, ?_, ?_, fun hle => hs (hht ?_)⟩
      · rw [heq, inorder_node, inorder_node, hord, eraseIdx_append_of_length_le hgt', length_inorder, hk,
          eraseIdx_cons_succ]
      · rw [he, inorder_node, getElem?_append_right hgt', length_inorder, hk, getElem?_cons_succ]
      · simp only [numNodes] at hle
        omega

end AVLTreeAdapter

end XpxChain.Storage
