import XpxChain.Patricia.Insertion

/-! What removing a path does to the trie. -/

namespace XpxChain.Patricia

open Library CompressedTries Trie List Function

variable {H : Type} {hasher : Hasher H} {source : H → Option (TreeNode H)} {t : Trie Nibble H} {node : TreeNode H}
  {path keyPath : TreeNodePath} {children : Nibble → Trie Nibble H} {value : H} {n : ℕ}

section

structure Unsets (t t' : Trie Nibble H) (path : TreeNodePath) (n : ℕ) : Prop where
  canonical : t'.Canonical n
  get_eq : ∀ word, word.length = n → t'.get word = if word = path then none else t.get word

lemma get_update_unsets {t' : Trie Nibble H} {x : Nibble} {rest word : TreeNodePath} (hd : path.length < n)
    (hu : Unsets (children x) t' rest (n - path.length - 1)) (hw : word.length = n) :
    (branch path (Function.update children x t')).get word =
      if word = path ++ x :: rest then none else (branch path children).get word := by
  rw [get_update (hd.trans_eq hw.symm)]
  by_cases hpre : path ++ [x] <+: word
  · obtain ⟨rest', rfl⟩ := prefix_concat_iff.mp hpre
    have hr' : rest'.length = n - path.length - 1 := by
      rw [length_append, length_cons] at hw
      omega
    rw [drop_append_cons, hu.get_eq rest' hr']
    simp
  · rw [if_neg hpre, if_neg]
    intro heq
    exact hpre (prefix_concat_iff.mpr ⟨rest, heq⟩)

lemma highestLinkIndex_singleton :
    ∀ index : Nibble, ((List.finRange 16).filter (· ∈ ({index} : Finset Nibble))).getLastD 0 = index := by
  decide

lemma unsetBranchLink_spec (hfree : hasher.CollisionFree) (hs : ValidSource hasher source)
    (h : Denotes hasher source (.branch path children) node) (hcan : (branch path children).Canonical n) (x : Nibble) :
    ∃ t', Denotes hasher source t' (unsetBranchLink hasher source node x) ∧ t' ≠ .empty ∧ t'.Canonical n ∧
      ∀ word, word.length = n → t'.get word = (branch path (Function.update children x .empty)).get word := by
  have hc := h.clearLink x
  obtain ⟨hd, hchs, y, z, hyz, hy, hz⟩ := hcan
  have hchs' : ∀ w, (update children x .empty w).Canonical (n - path.length - 1) := by
    intro w
    rw [update_apply]
    split_ifs
    · trivial
    · exact hchs w
  have hl : ∃ w, w ∈ (node.clearLink hasher x).linkSet := by
    by_cases hyx : y = x
    · refine ⟨z, hc.mem_linkSet.mpr ?_⟩
      rwa [update_of_ne (hyx ▸ hyz.symm)]
    · exact ⟨y, hc.mem_linkSet.mpr (by rwa [update_of_ne hyx])⟩
  rw [unsetBranchLink]
  split_ifs with hone
  · obtain ⟨w, hw, w', hw', hne⟩ := Finset.one_lt_card_iff_nontrivial.mp
      (lt_of_le_of_ne (Finset.card_pos.mpr hl) (Ne.symm hone))
    refine ⟨_, hc, by simp, ⟨hd, hchs', w, w', hne, hc.mem_linkSet.mp hw, hc.mem_linkSet.mp hw'⟩,
      fun word _ => rfl⟩
  · obtain ⟨w, hw⟩ := Finset.card_eq_one.mp (not_not.mp hone)
    have hla : (node.clearLink hasher x).highestLinkIndex = w := by
      rw [TreeNode.highestLinkIndex, hw]
      exact highestLinkIndex_singleton w
    have hpa : (node.clearLink hasher x).path = path := by
      obtain ⟨links, linkedNodes, linkSet, hn, -⟩ := hc
      rw [hn]
      rfl
    have hmem : update children x .empty w ≠ .empty := by
      rw [← hc.mem_linkSet, hw]
      exact Finset.mem_singleton_self w
    obtain ⟨hch, -⟩ | ⟨-, next, hnx, hden⟩ := hc.getLinkedNode hfree hs w
    · exact absurd hch hmem
    · simp only [hla, hnx, hpa]
      refine ⟨(update children x .empty w).prepend (path ++ [w]), ?_, by simpa using hmem, ?_, fun word hwo => ?_⟩
      · have hp := hden.prepend (path ++ [w])
        rwa [append_assoc] at hp
      · have hd' : n - path.length - 1 + (path ++ [w]).length = n := by
          rw [length_append, length_singleton]
          omega
        rw [← hd']
        exact canonical_prepend (hchs' w)
      · rw [get_single (hd.trans_eq hwo.symm)]
        intro other hoth
        by_contra hne
        rw [← ne_eq, ← hc.mem_linkSet, hw, Finset.mem_singleton] at hne
        exact hoth hne

lemma unset_branch (h : Denotes hasher source (.branch path children) node) (shared rest : TreeNodePath) (x : Nibble)
    (hidx : findFirstDifferenceIndex path (shared ++ x :: rest) = shared.length) (canMerge : Bool) :
    unset hasher source node (shared ++ x :: rest) canMerge = do
      let nextNode ← getLinkedNode hasher source node x
      let (updatedNextNode, canMerge) ← unset hasher source nextNode rest canMerge
      return (if canMerge then unsetBranchLink hasher source node x else node.setLink updatedNextNode x, false) := by
  obtain ⟨links, linkedNodes, linkSet, rfl, -⟩ := h
  rw [unset]
  simp only [hidx]
  rw [if_neg (by simp)]
  split
  · next hd =>
    rw [hidx, drop_left] at hd
    cases hd
  · next nibble rest₀ hd =>
    rw [hidx, drop_left] at hd
    obtain ⟨rfl, rfl⟩ := hd
    rfl

section

variable (hfree : hasher.CollisionFree) (hs : ValidSource hasher source) (h : Denotes hasher source t node)
  (hcan : t.Canonical n)
include hfree hs h hcan

theorem unset_eq_none (hkey : n ≤ keyPath.length) (hno : keyPath.length = n → t.get keyPath = none)
    (canMerge : Bool) : unset hasher source node keyPath canMerge = none := by
  induction hlen : keyPath.length using Nat.strong_induction_on generalizing keyPath t node n with
  | _ length ih =>
  cases t with
  | empty =>
    obtain rfl : node = _ := h
    rw [unset]
  | leaf path value =>
    obtain rfl : node = _ := h
    have hp : path.length = n := hcan
    rw [unset, if_neg]
    rw [findFirstDifferenceIndex_eq_length (hp.trans_le hkey)]
    rintro rfl
    have hget := hno hp
    rw [get_leaf, if_pos rfl] at hget
    cases hget
  | branch path children =>
    obtain ⟨hd, hchs, -⟩ := hcan
    have hst : ∀ shared x rest, keyPath = shared ++ x :: rest → findFirstDifferenceIndex path keyPath = shared.length →
        shared.length ≤ path.length → (rest.length = n - path.length - 1 → (children x).get rest = none) →
          unset hasher source node keyPath canMerge = none := by
      rintro shared x rest rfl hidx hsh hget
      rw [length_append, length_cons] at hlen hkey
      rw [unset_branch h shared rest x hidx]
      obtain ⟨-, hn⟩ | ⟨-, next, hn, hden⟩ := h.getLinkedNode hfree hs x
      · rw [hn]
        rfl
      · rw [hn, Option.bind_eq_bind, Option.bind_some,
          ih rest.length (by omega) hden (hchs x) (by omega) hget rfl]
        rfl
    obtain ⟨x, rest, rfl, hidx⟩ | ⟨shared, y, x, rest, rest', hxy, rfl, rfl, hidx⟩ :=
      through_or_parting (hd.trans_le hkey)
    · apply hst path x rest rfl hidx (Nat.le_refl _)
      intro hr
      have hget := hno (by rw [length_append, length_cons]; omega)
      rwa [get_branch_append] at hget
    · apply hst shared x rest' rfl hidx (by simp)
      intro hr
      simp only [length_append, length_cons] at hd hkey hr
      omega

theorem unset_spec (hkey : keyPath.length = n) (hso : t.get keyPath = some value) :
    ∃ t' node' canMerge, unset hasher source node keyPath true = some (node', canMerge) ∧
      Denotes hasher source t' node' ∧
      Unsets t t' keyPath n ∧ (canMerge ↔ t' = .empty) := by
  induction t generalizing keyPath node n with
  | empty => cases hso
  | leaf path leafValue =>
    obtain rfl : node = _ := h
    rw [get_leaf] at hso
    split_ifs at hso with heq
    subst heq
    refine ⟨.empty, .empty, true, ?_, rfl, ⟨trivial, fun word _ => ?_⟩, by simp⟩
    · rw [unset, if_pos ((findFirstDifferenceIndex_eq_length (Nat.le_refl _)).mpr rfl)]
    · rw [get_leaf]
      split_ifs <;> rfl
  | branch path children ih =>
    obtain ⟨x, rest, rfl, hget⟩ := exists_of_get_branch hso
    have hd := hcan.1
    have hr : rest.length = n - path.length - 1 := by
      rw [length_append, length_cons] at hkey
      omega
    have hidx : findFirstDifferenceIndex path (path ++ x :: rest) = path.length := by
      obtain ⟨_, _, -, hidx⟩ | ⟨shared, y, z, r, r', hyz, hp, hk, -⟩ :=
        through_or_parting (hd.trans_eq hkey.symm)
      · exact hidx
      · have hpre : path <+: path ++ x :: rest := prefix_append _ _
        rw [hk, hp] at hpre
        exact absurd hpre (not_isPrefix_of_parting hyz)
    obtain ⟨hch, -⟩ | ⟨-, next, hn, hden⟩ := h.getLinkedNode hfree hs x
    · rw [hch] at hget
      cases hget
    · obtain ⟨t', node', canMerge, hun, hden', hu, hm⟩ := ih x hden (hcan.2.1 x) hr hget
      rw [unset_branch h path rest x hidx, hn, Option.bind_eq_bind, Option.bind_some, hun, Option.bind_eq_bind,
        Option.bind_some]
      cases canMerge with
      | true =>
        obtain rfl := hm.mp rfl
        obtain ⟨merged, hme, hemp, hcan', hg⟩ := unsetBranchLink_spec hfree hs h hcan x
        refine ⟨merged, _, false, rfl, hme, ⟨hcan', fun word hw => ?_⟩, by simpa using hemp⟩
        rw [hg word hw, get_update_unsets hd hu hw]
      | false =>
        have hemp : t' ≠ .empty := fun heq => Bool.false_ne_true (hm.mpr heq)
        exact ⟨_, _, false, rfl, h.setLink x hden' hemp, ⟨canonical_update hcan hu.canonical hemp,
          fun word hw => get_update_unsets hd hu hw⟩, by simp⟩

end

end

end XpxChain.Patricia
