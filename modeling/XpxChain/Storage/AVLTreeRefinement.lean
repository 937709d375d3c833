import XpxChain.Storage.AVLTreeOperations

/-! The stored tree refines a sorted set. -/

namespace XpxChain.Storage

open Library.StatePrograms Library.BalancedTrees BinaryTree AVLTreeAdapter List

variable {TKey : Type} [LinearOrder TKey] {keyExtractor : Key → TKey} {nodes : Nodes} {t : BinaryTree Key} {fuel : ℕ}

namespace AVLTreeAdapter

section

variable (hfuel : t.height < fuel) (hstored : Stored nodes t)
include hfuel hstored

theorem wp_orderStatistics {index : ℕ} (hsz : t.numNodes < 2 ^ 31) (hidx : index < 2 ^ 32) {Q : Key → Nodes → Prop} :
    wp (orderStatistics fuel (pointer t) index) Q nodes ↔ Q ((inorder t)[index]?.getD 0) nodes := by
  induction t generalizing fuel index with
  | nil =>
    obtain _ | fuel := fuel
    · simp at hfuel
    simp [orderStatistics]
  | node v l r ihl ihr =>
    obtain _ | fuel := fuel
    · simp at hfuel
    obtain ⟨hv, hvn, hsl, hsr⟩ := hstored
    simp only [height, numNodes] at hfuel hsz
    rw [pointer_node]
    simp only [orderStatistics, if_neg hv, wp_bind, wp_nodeExtractor hvn, nodeOver_left, nodeOver_right, wp_getSize hsl,
      wp_ite, wp_pure, inorder_node]
    rcases lt_trichotomy index l.numNodes with hlt | heq | hgt
    · rw [if_pos hlt, ihl (by omega) hsl (by omega) hidx, getElem?_append_left (by simpa using hlt)]
    · simp [heq]
    · obtain ⟨k, hk⟩ : ∃ k, index - l.numNodes = k + 1 := ⟨index - l.numNodes - 1, by omega⟩
      rw [if_neg hgt.asymm, if_neg hgt.ne', rightIndex_of_lt hgt, hk, Nat.add_sub_cancel,
        ihr (by omega) hsr (by omega) (by omega), getElem?_append_right (by simpa using hgt.le), length_inorder, hk,
        getElem?_cons_succ]

theorem wp_numberOfLess {key : TKey} (hst : (inorder t).Pairwise (keyExtractor · < keyExtractor ·))
    (hsz : t.numNodes < 2 ^ 31) {Q : ℕ → Nodes → Prop} : wp (numberOfLess keyExtractor fuel (pointer t) key) Q nodes ↔
      Q ((inorder t).countP (keyExtractor · < key)) nodes := by
  induction t generalizing fuel Q with
  | nil =>
    obtain _ | fuel := fuel
    · simp at hfuel
    simp [numberOfLess]
  | node v l r ihl ihr =>
    obtain _ | fuel := fuel
    · simp at hfuel
    obtain ⟨hv, hvn, hsl, hsr⟩ := hstored
    obtain ⟨hs, hso, hlv, hvlt, -⟩ := pairwise_inorder_node.mp hst
    simp only [height, numNodes] at hfuel hsz
    rw [pointer_node]
    simp only [numberOfLess, if_neg hv, wp_bind, wp_nodeExtractor hvn, nodeOver_left, nodeOver_right, wp_ite, wp_pure,
      inorder_node, countP_append, countP_cons, decide_eq_true_eq]
    by_cases hlt : keyExtractor v < key
    · have hall : (inorder l).countP (keyExtractor · < key) = l.numNodes := by
        rw [← length_inorder, countP_eq_length]
        exact fun q hq => decide_eq_true ((hlv q hq).trans hlt)
      have hle : (inorder r).countP (keyExtractor · < key) ≤ r.numNodes := by
        rw [← length_inorder]
        exact countP_le_length
      rw [if_pos hlt, ihr (by omega) hsr hso (by omega), wp_getSize hsl, if_pos hlt, hall,
        Nat.mod_eq_of_lt (by omega), show ∀ n, n + l.numNodes + 1 = l.numNodes + (n + 1) by omega]
    · have hn : (inorder r).countP (keyExtractor · < key) = 0 := by
        rw [countP_eq_zero]
        exact fun q hq => by simpa using (not_lt.mp hlt).trans (hvlt q hq).le
      rw [if_neg hlt, ihl (by omega) hsl hs (by omega), if_neg hlt, hn, Nat.add_zero]

theorem wp_lowerBound {key : TKey} (hst : (inorder t).Pairwise (keyExtractor · < keyExtractor ·))
    {Q : Key → Nodes → Prop} :
    wp (lowerBound keyExtractor fuel (pointer t) key) Q nodes ↔
      Q (((inorder t).find? (key ≤ keyExtractor ·)).getD 0) nodes := by
  induction t generalizing fuel Q with
  | nil =>
    obtain _ | fuel := fuel
    · simp at hfuel
    simp [lowerBound]
  | node v l r ihl ihr =>
    obtain _ | fuel := fuel
    · simp at hfuel
    obtain ⟨hv, hvn, hsl, hsr⟩ := hstored
    obtain ⟨hs, hso, hlv, hvlt, -⟩ := pairwise_inorder_node.mp hst
    simp only [height] at hfuel
    rw [pointer_node]
    simp only [lowerBound, if_neg hv, wp_bind, wp_nodeExtractor hvn, nodeOver_left, nodeOver_right, wp_ite, wp_pure,
      inorder_node, find?_append]
    by_cases hlt : keyExtractor v < key
    · have hn : (inorder l).find? (key ≤ keyExtractor ·) = none := by
        rw [find?_eq_none]
        exact fun q hq => by simpa using (hlv q hq).trans hlt
      rw [if_pos hlt, ihr (by omega) hsr hso, hn, Option.none_or, find?_cons_of_neg (by simpa using hlt)]
    · rw [if_neg hlt, ihl (by omega) hsl hs]
      cases hf : (inorder l).find? (key ≤ keyExtractor ·) with
      | none => simp [find?_cons_of_pos, not_lt.mp hlt]
      | some q => simp [hsl.ne_zero (mem_of_find?_eq_some hf)]

end

end AVLTreeAdapter

structure SearchTree (keyExtractor : Key → TKey) (tree : StoredTree) (t : BinaryTree Key) : Prop where
  root_eq : tree.root = pointer t
  stored : Stored tree.nodes t
  balanced : Balanced t
  sorted : (inorder t).Pairwise (keyExtractor · < keyExtractor ·)
  numNodes_lt : t.numNodes < 2 ^ 31

namespace SearchTree

variable {tree : StoredTree}

section

variable (h : SearchTree keyExtractor tree t)
include h

lemma height_lt (hfuel : 64 ≤ fuel) : t.height < fuel :=
  (height_lt_of_numNodes_lt h.balanced (k := 31) (by have := h.numNodes_lt; omega)).trans_le hfuel

lemma nodup : (inorder t).Nodup := h.sorted.imp fun h => ne_of_apply_ne _ h.ne

lemma rekey {keyExtractor' : Key → TKey}
    (hs : ∀ p ∈ inorder t, keyExtractor' p = keyExtractor p) : SearchTree keyExtractor' tree t where
  __ := h
  sorted := h.sorted.imp_of_mem fun ha hb hlt => by rwa [hs _ ha, hs _ hb]

lemma reduced {nodePointer : Key} {nodes' : Nodes} {t' : BinaryTree Key}
    (hred : AVLTreeAdapter.Reduced tree.nodes t nodes' nodePointer t') :
    SearchTree keyExtractor ⟨nodePointer, nodes'⟩ t' :=
  ⟨hred.pointer_eq, hred.stored, hred.balanced, h.sorted.sublist hred.sublist,
    (numNodes_le_of_sublist hred.sublist).trans_lt h.numNodes_lt⟩

theorem insert (hfuel : 64 ≤ fuel) {p : Key} (hp : p ≠ 0) (hn : tree.nodes p = some {})
    (hnew : ∀ q ∈ inorder t, keyExtractor q ≠ keyExtractor p) (hsz : t.numNodes + 1 < 2 ^ 31) :
    ∃ tree' t', tree.insert fuel keyExtractor p = some tree' ∧ SearchTree keyExtractor tree' t' ∧
      inorder t' = (inorder t).orderedInsert (keyExtractor · ≤ keyExtractor ·) p ∧
      ∀ q ≠ p, q ∉ inorder t → tree'.nodes q = tree.nodes q := by
  obtain ⟨nodePointer, nodes', hrun, t', hr, hi⟩ :=
    wp_insert (h.height_lt hfuel) h.stored h.balanced h.sorted hp hn hnew hsz
  rw [← h.root_eq] at hrun
  refine ⟨⟨nodePointer, nodes'⟩, t', ?_, ⟨hr.pointer_eq, hr.stored, hi.balanced, ?_, ?_⟩,
    hi.inorder_eq, fun q hqp hqt => hr.unchanged q (by simp [hqp, hqt])⟩
  · simp [StoredTree.insert, hrun]
  · rw [hi.inorder_eq]
    exact pairwise_orderedInsert h.sorted hnew
  · rwa [← length_inorder, hi.inorder_eq, orderedInsert_length, length_inorder]

theorem remove (hfuel : 64 ≤ fuel) (key : TKey) :
    ∃ tree' t', tree.remove fuel keyExtractor key = some tree' ∧ SearchTree keyExtractor tree' t' ∧
      inorder t' = (inorder t).filter (keyExtractor · ≠ key) ∧
      (∀ q ∈ inorder t, q ∉ inorder t' → tree'.nodes q = some {}) ∧ ∀ q ∉ inorder t, tree'.nodes q = tree.nodes q := by
  obtain ⟨nodePointer, nodes', hrun, t', hred, hord⟩ :
      wp (AVLTreeAdapter.remove keyExtractor fuel (pointer t) key) _ _ :=
    AVLTreeAdapter.wp_remove (h.height_lt hfuel) h.stored h.balanced h.sorted h.numNodes_lt
  rw [← h.root_eq] at hrun
  exact ⟨⟨nodePointer, nodes'⟩, t', by simp [StoredTree.remove, hrun], h.reduced hred, hord, hred.reset, hred.unchanged⟩

theorem extractOrderStatistics (hfuel : 64 ≤ fuel) {index : ℕ} (hidx : index < 2 ^ 32) :
    ∃ tree' t', tree.extractOrderStatistics fuel index = some ((inorder t)[index]?.getD 0, tree') ∧
      SearchTree keyExtractor tree' t' ∧ inorder t' = (inorder t).eraseIdx index ∧
      (∀ q ∈ inorder t, q ∉ inorder t' → tree'.nodes q = some {}) ∧ ∀ q ∉ inorder t, tree'.nodes q = tree.nodes q := by
  obtain ⟨⟨nodePointer, _⟩, nodes', hrun, t', hred, hord, rfl, -⟩ :
      wp (AVLTreeAdapter.extractOrderStatistics fuel (pointer t) index 0) _ _ :=
    AVLTreeAdapter.wp_extractOrderStatistics (h.height_lt hfuel) ⟨h.stored, h.balanced, h.nodup, h.numNodes_lt⟩ hidx
  rw [← h.root_eq] at hrun
  exact ⟨⟨nodePointer, nodes'⟩, t', by simp [StoredTree.extractOrderStatistics, hrun], h.reduced hred, hord, hred.reset,
    hred.unchanged⟩

end

end SearchTree

inductive Operation (TKey : Type)
  | insert (pValue : Key)
  | remove (key : TKey)
  | extractOrderStatistics (index : ℕ)

namespace Operation

def apply (fuel : ℕ) (keyExtractor : Key → TKey) (tree : StoredTree) : Operation TKey → Option (Option Key × StoredTree)
  | .insert pValue => (tree.insert fuel keyExtractor pValue).map fun tree => (none, tree)
  | .remove key => (tree.remove fuel keyExtractor key).map fun tree => (none, tree)
  | .extractOrderStatistics index =>
    (tree.extractOrderStatistics fuel index).map fun out => (some out.1, out.2)

def reference (keyExtractor : Key → TKey) (contents : List Key) : Operation TKey → Option Key × List Key
  | .insert pValue => (none, contents.orderedInsert (keyExtractor · ≤ keyExtractor ·) pValue)
  | .remove key => (none, contents.filter (keyExtractor · ≠ key))
  | .extractOrderStatistics index => (some (contents[index]?.getD 0), contents.eraseIdx index)

/-- An inserted node is a default node with a key of its own; an index is a `uint32_t`. -/
def Allowed (keyExtractor : Key → TKey) (tree : StoredTree) (contents : List Key) : Operation TKey → Prop
  | .insert pValue => pValue ≠ 0 ∧ tree.nodes pValue = some {} ∧
    (∀ p ∈ contents, keyExtractor p ≠ keyExtractor pValue) ∧ contents.length + 1 < 2 ^ 31
  | .remove _ => True
  | .extractOrderStatistics index => index < 2 ^ 32

end Operation

/-- The trees that calls of the adapter build from the empty one, with the contents of the reference set. The keys may
change between calls for the nodes that are not in the tree. -/
inductive Reaches (fuel : ℕ) : (Key → TKey) → StoredTree → List Key → Prop
  | empty {keyExtractor : Key → TKey} {nodes : Nodes} : Reaches fuel keyExtractor ⟨0, nodes⟩ []
  | call {keyExtractor keyExtractor' : Key → TKey} {tree tree' : StoredTree} {contents : List Key} {op : Operation TKey}
      {out : Option Key} : Reaches fuel keyExtractor tree contents →
        (∀ p ∈ contents, keyExtractor' p = keyExtractor p) →
      op.Allowed keyExtractor' tree contents → op.apply fuel keyExtractor' tree = some (out, tree') →
      Reaches fuel keyExtractor' tree' (op.reference keyExtractor' contents).2

structure Refines (fuel : ℕ) (keyExtractor : Key → TKey) (tree : StoredTree) (contents : List Key) : Prop where
  searchTree : ∃ t, SearchTree keyExtractor tree t ∧ inorder t = contents
  size : tree.size = some contents.length
  orderStatistics : ∀ index < 2 ^ 32, tree.orderStatistics fuel index = some (contents[index]?.getD 0)
  numberOfLess : ∀ key, tree.numberOfLess fuel keyExtractor key = some (contents.countP (keyExtractor · < key))
  lowerBound : ∀ key, tree.lowerBound fuel keyExtractor key = some ((contents.find? (key ≤ keyExtractor ·)).getD 0)
  call : ∀ (keyExtractor' : Key → TKey) (op : Operation TKey), (∀ p ∈ contents, keyExtractor' p = keyExtractor p) →
    op.Allowed keyExtractor' tree contents →
    ∃ tree', op.apply fuel keyExtractor' tree = some ((op.reference keyExtractor' contents).1, tree') ∧
      ∀ p ∈ contents, p ∉ (op.reference keyExtractor' contents).2 → tree'.nodes p = some {}

variable {tree tree' : StoredTree} {contents : List Key} {op : Operation TKey}

open Operation

lemma SearchTree.call (h : SearchTree keyExtractor tree t) (hfuel : 64 ≤ fuel)
    (ha : op.Allowed keyExtractor tree (inorder t)) :
    ∃ tree' t', op.apply fuel keyExtractor tree = some ((op.reference keyExtractor (inorder t)).1, tree') ∧
      SearchTree keyExtractor tree' t' ∧ inorder t' = (op.reference keyExtractor (inorder t)).2 ∧
      ∀ p ∈ inorder t, p ∉ inorder t' → tree'.nodes p = some {} := by
  cases op with
  | insert pValue =>
    obtain ⟨hp, hn, hnew, hsz⟩ := ha
    obtain ⟨tree', t', hrun, ht', hord, -⟩ := h.insert hfuel hp hn hnew (by simpa using hsz)
    refine ⟨tree', t', by simp [apply, reference, hrun], ht', hord, fun p hp hp' => ?_⟩
    rw [hord, mem_orderedInsert] at hp'
    exact absurd (.inr hp) hp'
  | remove key =>
    obtain ⟨tree', t', hrun, ht', hord, hr, -⟩ := h.remove hfuel key
    exact ⟨tree', t', by simp [apply, reference, hrun], ht', hord, hr⟩
  | extractOrderStatistics index =>
    obtain ⟨tree', t', hrun, ht', hord, hr, -⟩ := h.extractOrderStatistics hfuel ha
    exact ⟨tree', t', by simp [apply, reference, hrun], ht', hord, hr⟩

lemma Reaches.searchTree (h : Reaches fuel keyExtractor tree contents) (hfuel : 64 ≤ fuel) :
    ∃ t, SearchTree keyExtractor tree t ∧ inorder t = contents := by
  induction h with
  | empty => exact ⟨.nil, ⟨rfl, trivial, trivial, .nil, by simp⟩, rfl⟩
  | call _ hs ha hrun ih =>
    obtain ⟨t, ht, rfl⟩ := ih
    obtain ⟨tree', t', hrun', ht', hord, -⟩ := (ht.rekey hs).call hfuel ha
    obtain ⟨-, rfl⟩ := Prod.ext_iff.mp (Option.some.inj (hrun.symm.trans hrun'))
    exact ⟨t', ht', hord⟩

/-- After every sequence of calls the adapter behaves as a sorted set. -/
theorem refines_sortedSet (hfuel : 64 ≤ fuel) (h : Reaches fuel keyExtractor tree contents) :
    Refines fuel keyExtractor tree contents := by
  obtain ⟨t, htree, rfl⟩ := h.searchTree hfuel
  have hheight := htree.height_lt hfuel
  refine ⟨⟨t, htree, rfl⟩, ?_, fun index hindex => ?_, fun key => ?_, fun key =>
    ?_, fun keyExtractor' op hsame hallowed => ?_⟩
  · rw [StoredTree.size, htree.root_eq]
    exact ((wp_getSize htree.stored).mpr (length_inorder t).symm).run'_eq
  · rw [StoredTree.orderStatistics, htree.root_eq]
    exact ((wp_orderStatistics hheight htree.stored htree.numNodes_lt hindex).mpr rfl).run'_eq
  · rw [StoredTree.numberOfLess, htree.root_eq]
    exact ((wp_numberOfLess hheight htree.stored htree.sorted htree.numNodes_lt).mpr rfl).run'_eq
  · rw [StoredTree.lowerBound, htree.root_eq]
    exact ((wp_lowerBound hheight htree.stored htree.sorted).mpr rfl).run'_eq
  · obtain ⟨tree', t', hrun, -, hinorder, hreset⟩ := (htree.rekey hsame).call hfuel hallowed
    exact ⟨tree', hrun, hinorder ▸ hreset⟩

/-- Two nodes are inserted and the smaller one is extracted. -/
theorem refines_sortedSet_extraction : ∃ tree : StoredTree,
    Reaches 64 (id : Key → Key) tree [5] ∧ Refines 64 (id : Key → Key) tree [5] := by
  have h₀ : Reaches 64 (id : Key → Key) ⟨0, fun _ => some {}⟩ [] := .empty
  have hfirst : (Operation.insert 5).Allowed (id : Key → Key) ⟨0, fun _ => some {}⟩ [] :=
    ⟨by decide, rfl, by simp, by decide⟩
  have h₁ := h₀.call (fun _ _ => rfl) hfirst rfl
  have hsecond : (Operation.insert 3).Allowed (id : Key → Key) ⟨5, fun _ => some {}⟩ [5] :=
    ⟨by decide, rfl, by simp, by decide⟩
  have h₂ := h₁.call (fun _ _ => rfl) hsecond rfl
  have hindex : ∀ tree, (Operation.extractOrderStatistics 0).Allowed (id : Key → Key) tree [3, 5] :=
    fun _ => Nat.two_pow_pos 32
  have h₃ := h₂.call (fun _ _ => rfl) (hindex _) rfl
  exact ⟨_, h₃, refines_sortedSet le_rfl h₃⟩

end XpxChain.Storage

