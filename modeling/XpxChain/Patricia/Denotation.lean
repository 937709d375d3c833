import XpxChain.Patricia.PatriciaTree

/-! The compressed trie that a node denotes, and what the operations on nodes do to it. -/

namespace XpxChain.Patricia

open Library CompressedTries Trie TreeNode Function

section

lemma findFirstDifferenceIndex_spec (lhs rhs : TreeNodePath) :
    ∃ shared lhs' rhs', lhs = shared ++ lhs' ∧ rhs = shared ++ rhs' ∧ findFirstDifferenceIndex lhs rhs = shared.length ∧
      ∀ x y l r, lhs' = x :: l → rhs' = y :: r → x ≠ y := by
  induction lhs generalizing rhs with
  | nil => exact ⟨[], [], rhs, rfl, rfl, by simp [findFirstDifferenceIndex], by simp⟩
  | cons x lhs ih =>
    cases rhs with
    | nil => exact ⟨[], x :: lhs, [], rfl, rfl, by simp [findFirstDifferenceIndex], by simp⟩
    | cons y rhs =>
      by_cases hxy : x = y
      · subst hxy
        obtain ⟨shared, lhs', rhs', rfl, rfl, hidx, hne⟩ := ih rhs
        exact ⟨x :: shared, lhs', rhs', rfl, rfl, by simp [findFirstDifferenceIndex, hidx], hne⟩
      · refine ⟨[], x :: lhs, y :: rhs, rfl, rfl, by simp [findFirstDifferenceIndex, hxy], ?_⟩
        intro a b l r hl hr
        cases hl
        cases hr
        exact hxy

lemma encodePairs_injective {path path' : TreeNodePath} (he : path.length % 2 = 0) (he' : path'.length % 2 = 0)
    (h : encodePairs path = encodePairs path') : path = path' := by
  induction path using encodePairs.induct generalizing path' with
  | case1 x y path ih =>
    rcases path' with _ | ⟨x', _ | ⟨y', path'⟩⟩
    · simp [encodePairs] at h
    · simp at he'
    · simp only [encodePairs, List.cons.injEq] at h
      obtain ⟨hb, hr⟩ := h
      have hp : path = path' := by
        apply ih _ _ hr
        · simpa [Nat.add_assoc] using he
        · simpa [Nat.add_assoc] using he'
      have hx : x = x' := Fin.ext (by omega)
      have hy : y = y' := Fin.ext (by omega)
      rw [hx, hy, hp]
  | case2 path hp =>
    rcases path with _ | ⟨x, _ | ⟨y, rest⟩⟩
    · rcases path' with _ | ⟨x', _ | ⟨y', path'⟩⟩
      · rfl
      · simp at he'
      · simp [encodePairs] at h
    · simp at he
    · exact absurd rfl (hp x y rest)

lemma encodeKey_cases (path : TreeNodePath) (isLeaf : Bool) :
    (path.length % 2 = 0 ∧ encodeKey path isLeaf = (if isLeaf then 0x20 else 0) :: encodePairs path) ∨
      ∃ x rest, path = x :: rest ∧ rest.length % 2 = 0 ∧
        encodeKey path isLeaf = ((if isLeaf then 0x30 else 0x10) + x.val) :: encodePairs rest := by
  cases path with
  | nil => exact .inl ⟨rfl, rfl⟩
  | cons x rest =>
    by_cases hodd : (x :: rest).length % 2 = 1
    · refine .inr ⟨x, rest, rfl, ?_, ?_⟩
      · rw [List.length_cons] at hodd
        omega
      · rw [encodeKey, if_pos hodd]
        have hf : ∀ x : Nibble, (0x20 ||| 0x10 ||| x.val = 0x30 + x.val) ∧ (0 ||| 0x10 ||| x.val = 0x10 + x.val) := by
          decide
        cases isLeaf with
        | true => rw [if_pos rfl, if_pos rfl, (hf x).1]
        | false => rw [if_neg Bool.false_ne_true, if_neg Bool.false_ne_true, (hf x).2]
    · refine .inl ⟨by omega, ?_⟩
      rw [encodeKey, if_neg hodd]

theorem encodeKey_injective {path path' : TreeNodePath} {isLeaf isLeaf' : Bool}
    (h : encodeKey path isLeaf = encodeKey path' isLeaf') : path = path' ∧ isLeaf = isLeaf' := by
  obtain ⟨he, hkey⟩ | ⟨x, rest, rfl, he, hkey⟩ := encodeKey_cases path isLeaf <;>
    obtain ⟨he', hkey'⟩ | ⟨x', rest', rfl, he', hkey'⟩ := encodeKey_cases path' isLeaf' <;>
    rw [hkey, hkey', List.cons.injEq] at h <;> obtain ⟨hb, hp⟩ := h
  · refine ⟨encodePairs_injective he he' hp, ?_⟩
    cases isLeaf <;> cases isLeaf' <;> simp at hb ⊢
  · cases isLeaf <;> cases isLeaf' <;> simp at hb <;> omega
  · cases isLeaf <;> cases isLeaf' <;> simp at hb <;> omega
  · obtain rfl := encodePairs_injective he he' hp
    have hx : x = x' ∧ isLeaf = isLeaf' := by
      cases isLeaf <;> cases isLeaf' <;> simp only [if_true, Bool.false_eq_true, if_false] at hb <;>
        first | exact ⟨Fin.ext (by omega), rfl⟩ | omega
    rw [hx.1]
    exact ⟨rfl, hx.2⟩

end

variable {H : Type} (hasher : Hasher H)

def trieHash : Trie Nibble H → H
  | .empty => hasher.zero
  | .leaf path value => hasher.sha3 (encodeKey path true) [value]
  | .branch path children => hasher.sha3 (encodeKey path false) (List.ofFn fun index => trieHash (children index))

def Stored : TreeNode H → Prop
  | .empty => False
  | .leaf _ _ => True
  | .branch _ links linkedNodes linkSet =>
    (∀ index, linkedNodes index = .empty) ∧ ∀ index, index ∈ linkSet ↔ links index ≠ hasher.zero

structure ValidSource (source : H → Option (TreeNode H)) : Prop where
  hash_eq : ∀ hash node, source hash = some node → node.hash hasher = hash
  stored : ∀ hash node, source hash = some node → Stored hasher node

def Denotes (source : H → Option (TreeNode H)) : Trie Nibble H → TreeNode H → Prop
  | .empty, node => node = .empty
  | .leaf path value, node => node = .leaf path value
  | .branch path children, node =>
    ∃ links linkedNodes linkSet, node = .branch path links linkedNodes linkSet ∧ ∀ index,
      index ∉ linkSet ∧ children index = .empty ∧ linkedNodes index = .empty ∧ links index = hasher.zero ∨
      index ∈ linkSet ∧ children index ≠ .empty ∧
        ∃ next, getLinkedNode hasher source node index = some next ∧ Denotes source (children index) next

variable {hasher} {source source' : H → Option (TreeNode H)} {t t' : Trie Nibble H} {node next : TreeNode H}
  {path rest : TreeNodePath} {children : Nibble → Trie Nibble H} {index nibble : Nibble} {value : H} {n : ℕ}

section

lemma TreeNode.isEmpty_iff : node.isEmpty ↔ node = .empty := by
  cases node <;> simp [isEmpty]

lemma hash_ne_zero (hf : hasher.CollisionFree) (h : node ≠ .empty) : node.hash hasher ≠ hasher.zero := by
  cases node with
  | empty => exact absurd rfl h
  | leaf path value => exact hf.ne_zero _ _
  | branch path links linkedNodes linkSet =>
    exact hf.ne_zero _ _

lemma ValidSource.zero (hf : hasher.CollisionFree) (hs : ValidSource hasher source) : source hasher.zero = none := by
  by_contra h
  obtain ⟨node, hn⟩ := Option.ne_none_iff_exists'.mp h
  refine hash_ne_zero hf ?_ (hs.hash_eq _ _ hn)
  rintro rfl
  exact hs.stored _ _ hn

lemma Denotes.ne_empty (h : Denotes hasher source t node) (hemp : t ≠ .empty) : node ≠ .empty := by
  cases t with
  | empty => exact absurd rfl hemp
  | leaf path value =>
    obtain rfl : node = _ := h
    simp
  | branch path children =>
    obtain ⟨links, linkedNodes, linkSet, rfl, -⟩ := h
    simp

lemma link_eq_of_getLinkedNode (hs : ValidSource hasher source)
    (h : getLinkedNode hasher source node index = some next) : node.link hasher index = next.hash hasher := by
  rw [getLinkedNode, Option.orElse_eq_some] at h
  obtain h | ⟨-, h⟩ := h
  · cases node with
    | empty => cases h
    | leaf path value => cases h
    | branch path links linkedNodes linkSet =>
      simp only [linkedNode, link] at h ⊢
      split_ifs at h ⊢ with hemp
      cases h
      rfl
  · exact (hs.hash_eq _ _ h).symm

theorem Denotes.hash_eq (hs : ValidSource hasher source) (h : Denotes hasher source t node) :
    node.hash hasher = trieHash hasher t := by
  induction t generalizing node with
  | empty =>
    obtain rfl : node = _ := h
    rfl
  | leaf path value =>
    obtain rfl : node = _ := h
    rfl
  | branch path children ih =>
    obtain ⟨links, linkedNodes, linkSet, rfl, hl⟩ := h
    rw [TreeNode.hash]
    congr 2
    funext index
    obtain ⟨-, hch, hn, hli⟩ | ⟨-, -, next, hne, hden⟩ := hl index
    · rw [hn, hch, hli]
      rfl
    · rw [← ih index hden]
      exact link_eq_of_getLinkedNode hs hne

lemma Denotes.mono (h : Denotes hasher source t node)
    (hsub : ∀ hash node, source hash = some node → source' hash = some node) : Denotes hasher source' t node := by
  induction t generalizing node with
  | empty => exact h
  | leaf path value => exact h
  | branch path children ih =>
    obtain ⟨links, linkedNodes, linkSet, rfl, hl⟩ := h
    refine ⟨links, linkedNodes, linkSet, rfl, fun index => ?_⟩
    obtain hu | ⟨hset, hch, next, hn, hden⟩ := hl index
    · exact .inl hu
    · refine .inr ⟨hset, hch, next, ?_, ih index hden⟩
      rw [getLinkedNode, Option.orElse_eq_some] at hn ⊢
      exact hn.imp_right fun ⟨hm, hs⟩ => ⟨hm, hsub _ _ hs⟩

lemma Denotes.getLinkedNode (hf : hasher.CollisionFree) (hs : ValidSource hasher source)
    (h : Denotes hasher source (.branch path children) node) (index : Nibble) :
    children index = .empty ∧ getLinkedNode hasher source node index = none ∨ children index ≠ .empty ∧
        ∃ next, Patricia.getLinkedNode hasher source node index = some next ∧
          Denotes hasher source (children index) next := by
  obtain ⟨links, linkedNodes, linkSet, rfl, hl⟩ := h
  obtain ⟨-, hch, hn, hli⟩ | ⟨-, hch, hne⟩ := hl index
  · refine .inl ⟨hch, ?_⟩
    simp [Patricia.getLinkedNode, linkedNode, link, hn, hli, hs.zero hf, isEmpty]
  · exact .inr ⟨hch, hne⟩

lemma denotes_newBranch : Denotes hasher source (.branch path fun _ => .empty) (TreeNode.newBranch hasher path) :=
  ⟨_, _, _, rfl, fun _ => .inl ⟨by simp, rfl, rfl, rfl⟩⟩

section

variable (h : Denotes hasher source (.branch path children) node)
include h

lemma Denotes.setLink (index : Nibble) (hn : Denotes hasher source t next) (hemp : t ≠ .empty) :
    Denotes hasher source (.branch path (Function.update children index t)) (node.setLink next index) := by
  obtain ⟨links, linkedNodes, linkSet, rfl, hl⟩ := h
  refine ⟨links, update linkedNodes index next, insert index linkSet, rfl, fun other => ?_⟩
  by_cases hoth : other = index
  · subst hoth
    have hne := isEmpty_iff.not.mpr (hn.ne_empty hemp)
    refine .inr ⟨Finset.mem_insert_self _ _, by rwa [update_self], next, ?_, by rwa [update_self]⟩
    simp [Patricia.getLinkedNode, setLink, linkedNode, hne]
  · obtain ⟨hset, hu⟩ | ⟨hset, hch, other', hoth', hden⟩ := hl other
    · left
      simpa [hoth, hset] using hu
    · right
      refine ⟨Finset.mem_insert_of_mem hset, by rwa [update_of_ne hoth], other', ?_, by rwa [update_of_ne hoth]⟩
      simpa [Patricia.getLinkedNode, setLink, linkedNode, link, hoth] using hoth'

lemma Denotes.clearLink (index : Nibble) :
    Denotes hasher source (.branch path (Function.update children index .empty)) (node.clearLink hasher index) := by
  obtain ⟨links, linkedNodes, linkSet, rfl, hl⟩ := h
  refine ⟨_, _, _, rfl, fun other => ?_⟩
  by_cases hoth : other = index
  · subst hoth
    left
    simp
  · obtain ⟨hset, hu⟩ | ⟨hset, hch, next, hn, hden⟩ := hl other
    · left
      simpa [hoth, hset] using hu
    · right
      refine ⟨Finset.mem_erase.mpr ⟨hoth, hset⟩, by rwa [update_of_ne hoth], next, ?_, by rwa [update_of_ne hoth]⟩
      simpa [Patricia.getLinkedNode, clearLink, linkedNode, link, hoth] using hn

lemma Denotes.setPath (path' : TreeNodePath) : Denotes hasher source (.branch path' children) (node.setPath path') := by
  obtain ⟨links, linkedNodes, linkSet, rfl, hl⟩ := h
  exact ⟨links, linkedNodes, linkSet, rfl, hl⟩

end

lemma Denotes.prepend (h : Denotes hasher source t node) (start : TreeNodePath) :
    Denotes hasher source (t.prepend start) (node.setPath (start ++ node.path)) := by
  cases t with
  | empty =>
    obtain rfl : node = _ := h
    rfl
  | leaf path value =>
    obtain rfl : node = _ := h
    rfl
  | branch path children =>
    have hp : node.path = path := by
      obtain ⟨links, linkedNodes, linkSet, rfl, -⟩ := h
      rfl
    rw [hp]
    exact h.setPath _

lemma Denotes.mem_linkSet (h : Denotes hasher source (.branch path children) node) :
    index ∈ node.linkSet ↔ children index ≠ .empty := by
  obtain ⟨links, linkedNodes, linkSet, rfl, hl⟩ := h
  obtain ⟨hset, hch, -⟩ | ⟨hset, hch, -⟩ := hl index
  · simp [TreeNode.linkSet, hset, hch]
  · simp [TreeNode.linkSet, hset, hch]

end

end XpxChain.Patricia

