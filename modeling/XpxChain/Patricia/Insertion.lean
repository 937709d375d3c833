import XpxChain.Patricia.Denotation

/-! What setting and looking up a path does to the trie. -/

namespace XpxChain.Patricia

open Library CompressedTries Trie List Function

variable {H : Type} {hasher : Hasher H} {source : H → Option (TreeNode H)} {t : Trie Nibble H} {node : TreeNode H}
  {path keyPath : TreeNodePath} {children : Nibble → Trie Nibble H} {value : H} {n : ℕ}

section

lemma exists_parting {path path' : TreeNodePath} (hlen : path.length = path'.length) (hne : path ≠ path') :
    ∃ shared x y rest rest', x ≠ y ∧ path = shared ++ x :: rest ∧ path' = shared ++ y :: rest' ∧
      findFirstDifferenceIndex path path' = shared.length := by
  obtain ⟨shared, lhs, rhs, rfl, rfl, hidx, hd⟩ := findFirstDifferenceIndex_spec path path'
  simp only [length_append, Nat.add_left_cancel_iff] at hlen
  cases lhs with
  | nil =>
    obtain rfl := length_eq_zero_iff.mp hlen.symm
    exact absurd rfl hne
  | cons x rest =>
    cases rhs with
    | nil => cases hlen
    | cons y rest' => exact ⟨shared, x, y, rest, rest', hd x y rest rest' rfl rfl, rfl, rfl, hidx⟩

lemma through_or_parting {path keyPath : TreeNodePath} (hlen : path.length < keyPath.length) :
    (∃ x rest, keyPath = path ++ x :: rest ∧ findFirstDifferenceIndex path keyPath = path.length) ∨
      ∃ shared x y rest rest', x ≠ y ∧ path = shared ++ x :: rest ∧ keyPath = shared ++ y :: rest' ∧
        findFirstDifferenceIndex path keyPath = shared.length := by
  obtain ⟨shared, lhs, rhs, rfl, rfl, hidx, hd⟩ := findFirstDifferenceIndex_spec path keyPath
  cases rhs with
  | nil => simp at hlen
  | cons y rest' =>
    cases lhs with
    | nil =>
      left
      exact ⟨y, rest', by simp, by simpa using hidx⟩
    | cons x rest =>
      right
      exact ⟨shared, x, y, rest, rest', hd x y rest rest' rfl rfl, rfl, rfl, hidx⟩

structure Sets (t t' : Trie Nibble H) (path : TreeNodePath) (value : H) (n : ℕ) : Prop where
  canonical : t'.Canonical n
  ne_empty : t' ≠ .empty
  get_eq : ∀ word, word.length = n → t'.get word = if word = path then some value else t.get word

lemma sets_fork (shared rest : TreeNodePath) {x y : Nibble} (hxy : x ≠ y) (hemp : t ≠ .empty)
    (hsub : t.Canonical rest.length) (hn : (shared ++ x :: rest).length = n) :
    Sets (t.prepend (shared ++ [y])) (fork shared y t x (.leaf rest value)) (shared ++ x :: rest) value n := by
  have hcan : (fork shared y t x (.leaf rest value)).Canonical (shared.length + rest.length + 1) :=
    canonical_fork hxy.symm hsub rfl hemp (by simp)
  have hlen : shared.length + rest.length + 1 = n := by
    rw [← hn, length_append, length_cons]
    omega
  rw [hlen] at hcan
  refine ⟨hcan, by simp [fork], fun word hw => get_fork_leaf hxy ?_⟩
  omega

lemma sets_update {t' : Trie Nibble H} {x : Nibble} {rest : TreeNodePath} (hcan : (branch path children).Canonical n)
    (hse : Sets (children x) t' rest value (n - path.length - 1)) (hr : rest.length = n - path.length - 1) :
    Sets (branch path children) (.branch path (Function.update children x t')) (path ++ x :: rest) value n := by
  refine ⟨canonical_update hcan hse.canonical hse.ne_empty, by simp, fun word hw => ?_⟩
  have hd := hcan.1
  rw [get_update (hd.trans_eq hw.symm)]
  split_ifs with hpre heq heq
  · subst heq
    rw [drop_append_cons, hse.get_eq rest hr, if_pos rfl]
  · obtain ⟨rest', rfl⟩ := prefix_concat_iff.mp hpre
    have hr' : rest'.length = n - path.length - 1 := by
      rw [length_append, length_cons] at hw
      omega
    rw [drop_append_cons, hse.get_eq rest' hr', if_neg, get_branch_append]
    rintro rfl
    exact heq rfl
  · exact absurd (prefix_concat_iff.mpr ⟨rest, heq⟩) hpre
  · rfl

lemma branchLeafNode_spec (leafPath : TreeNodePath) (leafValue : H) (hl : leafPath.length = n) (hpa : path.length = n)
    (hne : leafPath ≠ path) : ∃ t', Denotes hasher source t' (branchLeafNode hasher leafPath leafValue path value) ∧
      Sets (.leaf leafPath leafValue) t' path value n := by
  obtain ⟨shared, y, x, rest, rest', hxy, rfl, rfl, hidx⟩ := exists_parting (hl.trans hpa.symm) hne
  refine ⟨fork shared y (.leaf rest leafValue) x (.leaf rest' value), ?_, ?_⟩
  · simp only [branchLeafNode, hidx, drop_left, take_left]
    exact (denotes_newBranch.setLink y (t := .leaf rest leafValue) rfl (by simp)).setLink x rfl (by simp)
  · have hp : (leaf rest leafValue).prepend (shared ++ [y]) = leaf (shared ++ y :: rest) leafValue := by
      simp [prepend]
    rw [← hp]
    apply sets_fork shared rest' hxy.symm (by simp) _ hpa
    change rest.length = rest'.length
    rw [length_append, length_cons] at hl hpa
    omega

lemma insertNewPairIntoBranch_spec (shared rest rest' : TreeNodePath) {x y : Nibble} (hxy : x ≠ y)
    (h : Denotes hasher source (.branch (shared ++ y :: rest) children) node)
    (hcan : (branch (shared ++ y :: rest) children).Canonical n) (hpa : (shared ++ x :: rest').length = n) :
    ∃ t', Denotes hasher source t' (insertNewPairIntoBranch hasher node shared.length (shared ++ x :: rest') value) ∧
      Sets (branch (shared ++ y :: rest) children) t' (shared ++ x :: rest') value n := by
  have hn : node.path = shared ++ y :: rest := by
    obtain ⟨links, linkedNodes, linkSet, rfl, -⟩ := h
    rfl
  refine ⟨fork shared y (branch rest children) x (.leaf rest' value), ?_, ?_⟩
  · simp only [insertNewPairIntoBranch, hn, drop_left, take_left]
    rw [fork_comm hxy.symm]
    exact (denotes_newBranch.setLink x (t := .leaf rest' value) rfl (by simp)).setLink y (h.setPath rest) (by simp)
  · have hp : (branch rest children).prepend (shared ++ [y]) = branch (shared ++ y :: rest) children := by
      simp [prepend]
    obtain ⟨hd, hchs, htwo⟩ := hcan
    rw [← hp]
    apply sets_fork shared rest' hxy (by simp) _ hpa
    simp only [length_append, length_cons] at hd hpa hchs
    refine ⟨by omega, fun z => ?_, htwo⟩
    have hz : rest'.length - rest.length - 1 = n - (shared.length + (rest.length + 1)) - 1 := by omega
    rw [hz]
    exact hchs z

theorem set_spec (value : H) (hfree : hasher.CollisionFree) (hs : ValidSource hasher source)
    (h : Denotes hasher source t node) (hcan : t.Canonical n) (hp : path.length = n) :
    ∃ t', Denotes hasher source t' (set hasher source node path value) ∧ Sets t t' path value n := by
  -- the recursion of the source is on the rest of the path
  induction hlen : path.length using Nat.strong_induction_on generalizing path t node n with
  | _ length ih =>
  cases t with
  | empty =>
    obtain rfl : node = _ := h
    rw [set]
    exact ⟨.leaf path value, rfl, hp, by simp, fun word _ => by rw [get_leaf, get_empty]⟩
  | leaf leafPath leafValue =>
    obtain rfl : node = _ := h
    rw [set]
    split_ifs with heq
    · subst heq
      refine ⟨.leaf leafPath value, rfl, hp, by simp, fun word _ => ?_⟩
      rw [get_leaf, get_leaf]
      split_ifs <;> rfl
    · exact branchLeafNode_spec leafPath leafValue hcan hp heq
  | branch branchPath children =>
    obtain ⟨x, rest, rfl, hidx⟩ | ⟨shared, y, x, rest, rest', hxy, rfl, rfl, hidx⟩ :=
      through_or_parting (hcan.1.trans_eq hp.symm)
    · have hr : rest.length = n - branchPath.length - 1 := by
        rw [length_append, length_cons] at hp
        omega
      have hsh : rest.length < length := by
        rw [← hlen, length_append, length_cons]
        omega
      obtain ⟨next, hn, hden⟩ : ∃ next, (getLinkedNode hasher source node x).getD .empty = next ∧
          Denotes hasher source (children x) next := by
        obtain ⟨hch, hno⟩ | ⟨-, next, hn, hden⟩ := h.getLinkedNode hfree hs x
        · exact ⟨.empty, by rw [hno]; rfl, by rw [hch]; rfl⟩
        · exact ⟨next, by rw [hn]; rfl, hden⟩
      obtain ⟨t', ht', hse⟩ := ih rest.length hsh hden (hcan.2.1 x) hr rfl
      refine ⟨.branch branchPath (update children x t'), ?_, sets_update hcan hse hr⟩
      have hset := h.setLink x ht' hse.ne_empty
      obtain ⟨links, linkedNodes, linkSet, rfl, -⟩ := h
      rw [set]
      simp only [hidx, if_true]
      split
      · next nibble rest₀ hd =>
        rw [hidx, drop_left] at hd
        obtain ⟨rfl, rfl⟩ := hd
        rw [hn]
        exact hset
      · next hd =>
        rw [hidx, drop_left] at hd
        cases hd
    · obtain ⟨t', ht', hse⟩ := insertNewPairIntoBranch_spec shared rest rest' hxy.symm h hcan hp
      refine ⟨t', ?_, hse⟩
      obtain ⟨links, linkedNodes, linkSet, rfl, -⟩ := h
      rw [set]
      simp only [hidx]
      rw [if_neg (by simp)]
      exact ht'

end

section

lemma findFirstDifferenceIndex_eq_length (hlen : path.length ≤ keyPath.length) :
    findFirstDifferenceIndex path keyPath = keyPath.length ↔ keyPath = path := by
  obtain ⟨shared, lhs, rhs, rfl, rfl, hidx, hd⟩ := findFirstDifferenceIndex_spec path keyPath
  rw [hidx]
  simp only [length_append] at hlen ⊢
  constructor
  · intro h
    have hrhs : rhs.length = 0 := by omega
    have hlhs : lhs.length = 0 := by omega
    rw [length_eq_zero_iff.mp hrhs, length_eq_zero_iff.mp hlhs]
  · intro h
    obtain rfl := append_cancel_left h
    cases rhs with
    | nil => rfl
    | cons x rest => exact absurd rfl (hd x x rest rest rfl rfl)

lemma not_isPrefix_of_parting {shared rest rest' : TreeNodePath} {x y : Nibble} (hxy : x ≠ y) :
    ¬shared ++ x :: rest <+: shared ++ y :: rest' := by
  rw [prefix_append_right_inj, cons_prefix_cons]
  exact fun h => hxy h.1

theorem lookup_spec (hfree : hasher.CollisionFree) (hs : ValidSource hasher source) (h : Denotes hasher source t node)
    (hcan : t.Canonical n) (hkey : n ≤ keyPath.length) :
    (lookup hasher source node keyPath).1 = if keyPath.length = n then t.get keyPath else none := by
  induction hlen : keyPath.length using Nat.strong_induction_on generalizing keyPath t node n with
  | _ length ih =>
  cases t with
  | empty =>
    obtain rfl : node = _ := h
    rw [lookup]
    simp
  | leaf path value =>
    obtain rfl : node = _ := h
    have hp : path.length = n := hcan
    rw [lookup]
    simp only [findFirstDifferenceIndex_eq_length (hp.trans_le hkey), get_leaf, ← hlen]
    by_cases hn : keyPath.length = n
    · rw [if_pos hn]
    · rw [if_neg hn, if_neg]
      rintro rfl
      exact hn hp
  | branch path children =>
    obtain ⟨hd, hchs, -⟩ := hcan
    have hst : ∀ shared x rest, keyPath = shared ++ x :: rest → findFirstDifferenceIndex path keyPath = shared.length →
        shared.length ≤ path.length → (lookup hasher source node keyPath).1 =
          if rest.length = n - path.length - 1 then (children x).get rest else none := by
      rintro shared x rest rfl hidx hsa
      have hsh : rest.length < length := by
        rw [← hlen, length_append, length_cons]
        omega
      have hl : n - path.length - 1 ≤ rest.length := by
        rw [length_append, length_cons] at hkey
        omega
      have hne := h.getLinkedNode hfree hs x
      obtain ⟨links, linkedNodes, linkSet, rfl, -⟩ := h
      rw [lookup]
      split
      · next hdr =>
        rw [hidx, drop_left] at hdr
        cases hdr
      · next nibble rest₀ hdr =>
        rw [hidx, drop_left] at hdr
        obtain ⟨rfl, rfl⟩ := hdr
        obtain ⟨hch, hno⟩ | ⟨-, next, hso, hden⟩ := hne
        · rw [hno, hch]
          simp
        · rw [hso]
          exact ih rest.length hsh hden (hchs x) hl rfl
    obtain ⟨x, rest, rfl, hidx⟩ | ⟨shared, y, x, rest, rest', hxy, rfl, rfl, hidx⟩ :=
      through_or_parting (hd.trans_le hkey)
    · rw [hst path x rest rfl hidx (Nat.le_refl _), get_branch_append]
      rw [length_append, length_cons] at hlen
      have hiff : rest.length = n - path.length - 1 ↔ length = n := by omega
      simp only [hiff]
    · rw [hst shared x rest' rfl hidx (by simp), get_branch_eq_none (not_isPrefix_of_parting hxy), if_neg]
      · simp
      · simp only [length_append, length_cons] at hd hkey ⊢
        omega

end

end XpxChain.Patricia
