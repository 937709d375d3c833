import XpxChain.Types

/-! The builder of Merkle trees: its root, the nodes that it emits and the number of nodes that it reserves. -/

namespace XpxChain.Crypto

open List

section

variable (sha3 : Hash256 → Hash256 → Hash256)

/-- The hashes of one round, which the source writes to the vector behind the pairs that it still reads. -/
def nextHashes : List Hash256 → List Hash256
  | [] => []
  | [hash] => [sha3 hash hash]
  | left :: right :: hashes => sha3 left right :: nextHashes hashes

lemma length_nextHashes (hashes : List Hash256) : (nextHashes sha3 hashes).length = (hashes.length + 1) / 2 := by
  induction hashes using nextHashes.induct with
  | case1 => rfl
  | case2 hash => simp [nextHashes]
  | case3 left right hashes ih =>
    rw [nextHashes, length_cons, ih, length_cons, length_cons]
    omega

def padding (hashes : List Hash256) : List Hash256 := if hashes.length % 2 = 1 then [hashes.getLastD 0] else []

/-- The root and the nodes that the rounds pass to the consumer. -/
def finalLoop (hashes : List Hash256) : Hash256 × List Hash256 :=
  if 1 < hashes.length then
    let next := finalLoop (nextHashes sha3 hashes)
    (next.1, padding hashes ++ nextHashes sha3 hashes ++ next.2)
  else (hashes.headD 0, [])
termination_by hashes.length
decreasing_by
  rw [length_nextHashes]
  omega

def final (hashes : List Hash256) : Hash256 × List Hash256 :=
  if hashes = [] then (0, [0])
  else ((finalLoop sha3 hashes).1, hashes ++ (finalLoop sha3 hashes).2)

def treeSizeLoop (i : ℕ) : ℕ := if 1 < i then i + treeSizeLoop ((i + 1) / 2) else 0

def treeSize (leafCount : ℕ) : ℕ :=
  let adjustedLeafCount := if leafCount = 1 then 1 else if leafCount % 2 = 0 then leafCount else leafCount + 1
  let size := treeSizeLoop adjustedLeafCount
  if 2 ≤ size then size + 1 else 1

/-- The nodes of a tree, layer by layer: a layer is padded with its last node, and each node of the layer above is the
hash of two neighbours. -/
inductive MerkleTree : List Hash256 → Hash256 → List Hash256 → Prop
  | root (hash : Hash256) : MerkleTree [hash] hash [hash]
  | layer {lower upper tree : List Hash256} {root : Hash256} (hlen : 1 < lower.length)
      (hupper : 2 * upper.length = (lower ++ padding lower).length)
      (hnode : ∀ i < upper.length, ∃ left right, (lower ++ padding lower)[2 * i]? = some left ∧
        (lower ++ padding lower)[2 * i + 1]? = some right ∧ upper[i]? = some (sha3 left right))
      (htree : MerkleTree upper root tree) : MerkleTree lower root (lower ++ padding lower ++ tree)

end

variable {sha3 : Hash256 → Hash256 → Hash256} {hashes leaves tree : List Hash256} {root : Hash256}

lemma length_padding : (padding hashes).length = hashes.length % 2 := by
  rw [padding]
  split_ifs with h
  · exact h.symm
  · exact (Nat.mod_two_ne_one.mp h).symm

lemma getElem?_nextHashes {i : ℕ} (hi : i < (nextHashes sha3 hashes).length) :
    ∃ left right, (hashes ++ padding hashes)[2 * i]? = some left ∧ (hashes ++ padding hashes)[2 * i + 1]? = some right ∧
      (nextHashes sha3 hashes)[i]? = some (sha3 left right) := by
  induction hashes using nextHashes.induct generalizing i with
  | case1 => contradiction
  | case2 hash =>
    obtain rfl := Nat.lt_one_iff.mp hi
    exact ⟨hash, hash, rfl, rfl, rfl⟩
  | case3 left right hashes ih =>
    cases i with
    | zero => exact ⟨left, right, rfl, rfl, rfl⟩
    | succ i =>
      obtain ⟨l, r, hl, hr, hn⟩ := ih (Nat.lt_of_succ_lt_succ hi)
      have hp : left :: right :: hashes ++ padding (left :: right :: hashes) =
          left :: right :: (hashes ++ padding hashes) := by
        cases hashes with
        | nil => simp [padding]
        | cons first hashes =>
          have hpa : (hashes.length + 3) % 2 = (hashes.length + 1) % 2 := Nat.add_mod_right _ 2
          simp [padding, hpa]
      rw [hp]
      exact ⟨l, r, hl, hr, hn⟩

lemma merkleTree_finalLoop (h : hashes ≠ []) :
    MerkleTree sha3 hashes (finalLoop sha3 hashes).1 (hashes ++ (finalLoop sha3 hashes).2) := by
  induction hashes using finalLoop.induct sha3 with
  | case1 hashes hlen ih =>
    have hn := length_nextHashes sha3 hashes
    rw [finalLoop, if_pos hlen]
    simp only [append_assoc]
    rw [← append_assoc]
    refine .layer hlen ?_ (fun i hi => getElem?_nextHashes hi) (ih (ne_nil_of_length_pos (by omega)))
    rw [length_append, length_padding]
    omega
  | case2 hashes hlen =>
    obtain ⟨hash, rfl⟩ := length_eq_one_iff.mp (Nat.le_antisymm (Nat.not_lt.mp hlen) (length_pos_iff.mpr h))
    rw [finalLoop, if_neg hlen]
    exact .root hash

namespace MerkleTree

lemma getLast?_eq (h : MerkleTree sha3 leaves root tree) : tree.getLast? = some root := by
  induction h with
  | root hash => rfl
  | layer hlen hu hn ht ih => rw [getLast?_append, ih, Option.some_or]

/-- A layer above the leaves needs no padding when its size is a power of two. -/
lemma treeSizeLoop_le (h : MerkleTree sha3 leaves root tree) :
    treeSizeLoop leaves.length + 1 ≤ tree.length ∧
      (tree.length = treeSizeLoop leaves.length + 1 ↔ ∃ k, leaves.length = 2 ^ k) := by
  induction h with
  | root hash => exact ⟨by simp [treeSizeLoop], fun _ => ⟨0, rfl⟩, fun _ => by simp [treeSizeLoop]⟩
  | @layer lower upper tree root hlen hu hn ht ih =>
    rw [length_append, length_padding] at hu
    rw [treeSizeLoop, if_pos hlen,
      show (lower.length + 1) / 2 = upper.length by omega, length_append, length_append, length_padding]
    refine ⟨by omega, fun heq => ?_, ?_⟩
    · obtain ⟨k, hk⟩ := ih.2.mp (by omega)
      exact ⟨k + 1, by omega⟩
    · rintro ⟨k, hk⟩
      cases k with
      | zero => omega
      | succ k =>
        have := ih.2.mpr ⟨k, by omega⟩
        omega

lemma length_eq_treeSize (h : MerkleTree sha3 leaves root tree) :
    tree.length = treeSize leaves.length ↔ ∃ k, (leaves.length + 1) / 2 = 2 ^ k := by
  cases h with
  | root hash => exact ⟨fun _ => ⟨0, by simp⟩, fun _ => by simp [treeSize, treeSizeLoop]⟩
  | @layer _ upper tree _ hlen hu hn ht =>
    rw [length_append, length_padding] at hu
    have ha : (if leaves.length % 2 = 0 then leaves.length else leaves.length + 1) = 2 * upper.length := by
      split_ifs <;> omega
    rw [show (leaves.length + 1) / 2 = upper.length by omega, ← ht.treeSizeLoop_le.2, treeSize, if_neg hlen.ne']
    simp only [ha]
    rw [treeSizeLoop, if_pos (by omega : 1 < 2 * upper.length), if_pos (by omega),
      show (2 * upper.length + 1) / 2 = upper.length by omega, length_append, length_append, length_padding]
    omega

end MerkleTree

/-- The last node is the root and every layer is made of the hashes of the layer below. As many nodes as `TreeSize` says
are emitted when no layer between the leaves and the root is padded. -/
theorem merkle_tree_of_leaves (sha3 : Hash256 → Hash256 → Hash256) (leaves : List Hash256) :
    ((final sha3 leaves).2.length = treeSize leaves.length ↔ leaves.length ≤ 1 ∨ ∃ k, (leaves.length + 1) / 2 = 2 ^ k) ∧
      (final sha3 leaves).2.getLast? = some (final sha3 leaves).1 ∧
      (leaves ≠ [] → MerkleTree sha3 leaves (final sha3 leaves).1 (final sha3 leaves).2) := by
  by_cases h : leaves = []
  · simp [h, final, treeSize, treeSizeLoop]
  · rw [final, if_neg h]
    have htree := @merkleTree_finalLoop sha3 leaves h
    refine ⟨htree.length_eq_treeSize.trans ?_, htree.getLast?_eq, fun _ => htree⟩
    refine ⟨.inr, fun hor => hor.elim (fun hle => ⟨0, ?_⟩) id⟩
    have := length_pos_iff.mpr h
    omega

/-- The three nodes over five leaves are padded, which `TreeSize` does not count. -/
theorem merkle_tree_of_five_leaves : (final (fun _ _ => 0) [1, 2, 3, 4, 5]).2.length = 13 ∧ treeSize 5 = 12 := by
  constructor
  · simp [final, finalLoop, nextHashes, padding]
  · simp [treeSize, treeSizeLoop]

lemma nextHashes_padded : nextHashes sha3 (hashes ++ padding hashes) = nextHashes sha3 hashes := by
  induction hashes using nextHashes.induct with
  | case1 => rfl
  | case2 hash => simp [padding, nextHashes]
  | case3 left right hashes ih =>
    cases hashes with
    | nil => simp [padding, nextHashes]
    | cons first hashes =>
      have hp : (hashes.length + 3) % 2 = (hashes.length + 1) % 2 := Nat.add_mod_right _ 2
      simpa [padding, nextHashes, hp] using ih

lemma root_final (h : 1 < hashes.length) : (final sha3 hashes).1 = (finalLoop sha3 (nextHashes sha3 hashes)).1 := by
  rw [final, if_neg (ne_nil_of_length_pos (Nat.zero_lt_of_lt h)), finalLoop, if_pos h]

/-- The last of an odd number of leaves may be repeated. -/
theorem root_ignores_repeated_leaf (ho : leaves.length % 2 = 1) (hl : 1 < leaves.length) :
    (final sha3 (leaves ++ [leaves.getLastD 0])).1 = (final sha3 leaves).1 := by
  have hp : [leaves.getLastD 0] = padding leaves := (if_pos ho).symm
  rw [root_final hl, root_final (by rw [length_append]; omega), hp, nextHashes_padded]

theorem root_ignores_repeated_leaf_three : (final (· + ·) [1, 2, 3, 3]).1 = (final (· + ·) [1, 2, 3]).1 :=
  @root_ignores_repeated_leaf _ [1, 2, 3] rfl (by decide)

end XpxChain.Crypto
