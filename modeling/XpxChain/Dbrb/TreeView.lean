import XpxChain.Dbrb.Tree
import XpxChain.Library.Exceptions

/-! The broadcaster leads the view that `CreateDbrbTreeView` returns. -/

namespace XpxChain.Dbrb

open Library OrderedContainers Exceptions List Option

namespace DbrbTree

def Placed (n : ℕ) (tree : Nodes) : Prop :=
  ∀ i node, tree[i]? = some node → (i < n → node.index = i) ∧ ∀ c, some c ∈ node.children → 0 < c ∧ c < n

variable {n : ℕ} {tree : Nodes}
  {f : DbrbTreeNode → DbrbTreeNode} {k childCount fuel : ℕ} {b b' : Builder} {view view' : DbrbTreeView}
    {rest processes : List ProcessId}

lemma Placed.modify (h : Placed n tree) (hf : ∀ node, (f node).index = node.index ∧
      ∀ c, some c ∈ (f node).children → some c ∈ node.children ∨ 0 < c ∧ c < n) : Placed n (tree.modify k f) := by
  intro i node hi
  rw [getElem?_modify] at hi
  obtain ⟨old, hold, rfl⟩ := map_eq_some_iff.mp hi
  obtain ⟨hidx, hchs⟩ := h i old hold
  split_ifs
  · refine ⟨fun hlt => (hf old).1.trans (hidx hlt), ?_⟩
    intro c hc
    rcases (hf old).2 c hc with hc | hc
    · exact hchs c hc
    · exact hc
  · exact ⟨hidx, hchs⟩

lemma Placed.set {node : DbrbTreeNode} (h : Placed n tree) (hi : node.index = n)
    (hc : node.children = []) : Placed (n + 1) (tree.set n node) := by
  intro i other ho
  rw [getElem?_set] at ho
  split_ifs at ho with hin hlt
  · cases ho
    subst hin
    exact ⟨fun _ => hi, by simp [hc]⟩
  · obtain ⟨hidx, hchs⟩ := h i other ho
    refine ⟨fun hlt => hidx (by omega), ?_⟩
    intro c hmem
    obtain ⟨hpos, hlt⟩ := hchs c hmem
    exact ⟨hpos, by omega⟩

lemma Placed.updateAncestors (hf : ∀ node, (f node).index = node.index ∧ (f node).children = node.children) (fuel : ℕ)
    (i : Option ℕ) (h : Placed n tree) : Placed n (updateAncestors f fuel tree i) := by
  induction fuel generalizing tree i with
  | zero => exact h
  | succ fuel ih =>
    cases i with
    | none => exact h
    | some i =>
      apply ih
      apply h.modify
      intro node
      exact ⟨(hf node).1, fun c hc => Or.inl ((hf node).2 ▸ hc)⟩

@[simp] lemma length_updateAncestors (fuel : ℕ) (i : Option ℕ) :
    (updateAncestors f fuel tree i).length = tree.length := by
  induction fuel generalizing tree i with
  | zero => rfl
  | succ fuel ih =>
    cases i with
    | none => rfl
    | some i => rw [DbrbTree.updateAncestors, ih, length_modify]

lemma attachNode_placed (hn : 0 < n) (h : Placed n b.tree) : Placed (n + 1) (attachNode b n) := by
  apply Placed.updateAncestors
  · intro node
    exact ⟨rfl, rfl⟩
  · apply (h.set rfl rfl).modify
    intro node
    refine ⟨rfl, fun c hc => ?_⟩
    rcases mem_append.mp hc with hc | hc
    · exact Or.inl hc
    · obtain rfl := some.inj (mem_singleton.mp hc)
      exact Or.inr ⟨hn, Nat.lt_succ_self c⟩

lemma nextPosition_tree (h : nextPosition childCount b = some b') : b'.tree = b.tree := by
  simp only [nextPosition] at h
  split_ifs at h
  · rw [← some.inj h]
  · obtain ⟨parent, -, rfl⟩ := map_eq_some_iff.mp h
    rfl
  · rw [← some.inj h]

lemma addNodes_placed (hn : 0 < n) (h : Placed n b.tree)
    (hb : (List.range' n k).foldlM (addNode childCount) b = some b') :
    Placed (n + k) b'.tree ∧ b'.tree.length = b.tree.length := by
  induction k generalizing n b with
  | zero =>
    obtain rfl : b = b' := by simpa using hb
    exact ⟨h, rfl⟩
  | succ k ih =>
    obtain ⟨c, hc, hb⟩ := bind_eq_some_iff.mp hb
    have ht := nextPosition_tree hc
    have hpl : Placed (n + 1) c.tree := ht ▸ attachNode_placed hn h
    obtain ⟨hp, hl⟩ := ih (Nat.succ_pos n) hpl hb
    refine ⟨by rwa [← Nat.add_assoc, Nat.add_right_comm], ?_⟩
    rw [hl, ht, attachNode, length_updateAncestors, length_modify, length_set]

lemma buildDbrbTree_placed {nodeCount shardSize : ℕ}
    (h : buildDbrbTree nodeCount shardSize = some tree) : Placed nodeCount tree := by
  unfold buildDbrbTree at h
  split_ifs at h with hn
  · cases h
    intro i node hi
    simp at hi
  · obtain ⟨b, hb, ht⟩ := bind_eq_some_iff.mp h
    cases ht
    have hr : (range nodeCount).drop 1 = range' 1 (nodeCount - 1) := by
      rw [range_eq_range', drop_range']
    rw [hr] at hb
    have hs : Placed 1 ((replicate nodeCount {}).set 0 { nodeCount := 1 } : Nodes) := by
      intro i node hi
      rw [getElem?_set] at hi
      split_ifs at hi with h0
      · cases hi
        exact ⟨fun _ => h0, by simp⟩
      · rw [getElem?_replicate] at hi
        split_ifs at hi
        cases hi
        exact ⟨fun hlt => by omega, by simp⟩
    have hp := (addNodes_placed Nat.one_pos hs hb).1
    rwa [Nat.add_sub_cancel' (Nat.one_le_iff_ne_zero.mpr hn)] at hp

lemma removeSubtrees_placed {r r' : Remover} (h : Placed n r.tree) (hq : ∀ i, some i ∈ r.queue → 0 < i ∧ i < n)
    (hs : ∀ i ∈ r.removedSubtrees, 0 < i ∧ i < n) (hr : removeSubtrees fuel r = .ok r') :
    Placed n r'.tree ∧ ∀ i ∈ r'.removedSubtrees, 0 < i ∧ i < n := by
  induction fuel generalizing r with
  | zero => simp [removeSubtrees] at hr
  | succ fuel ih =>
    unfold removeSubtrees at hr
    split at hr
    next =>
      cases hr
      exact ⟨h, hs⟩
    next =>
      split at hr
      next => contradiction
      next => contradiction
      next i queue hqu =>
        have hi := hq i (by simp [hqu])
        have hqu' : ∀ j, some j ∈ queue → 0 < j ∧ j < n := fun j hj => hq j (by simp [hqu, hj])
        split at hr
        next subTree parentIndex parent hsub _ _ =>
          split at hr
          next =>
            refine ih ?_ hqu' ?_ hr
            · apply Placed.updateAncestors
              · intro node
                exact ⟨rfl, rfl⟩
              · apply h.modify
                intro node
                refine ⟨rfl, fun c hc => Or.inl ?_⟩
                exact (mem_or_eq_of_mem_set hc).resolve_right (some_ne_none c)
            · intro j hj
              rcases mem_append.mp hj with hj | hj
              · exact hs j hj
              · obtain rfl := mem_singleton.mp hj
                exact hi
          next =>
            refine ih ?_ ?_ ?_ hr
            · apply h.modify
              intro node
              exact ⟨rfl, fun c hc => Or.inl hc⟩
            · intro j hj
              rcases mem_append.mp hj with hj | hj
              · exact hqu' j hj
              · exact (h i subTree hsub).2 j hj
            · exact hs
        next => contradiction

lemma addProcesses_view {queue : List ℕ} (h : Placed n tree) (hq : ∀ i ∈ queue, 0 < i ∧ i < n)
    (ha : addProcesses tree fuel queue view processes = some (view', rest)) :
    view'.length = view.length ∧ view'[0]? = view[0]? := by
  induction fuel generalizing queue view processes with
  | zero =>
    cases queue with
    | nil =>
      obtain ⟨rfl, -⟩ := Prod.mk.inj (some.inj ha)
      exact ⟨rfl, rfl⟩
    | cons i queue => contradiction
  | succ fuel ih =>
    cases queue with
    | nil =>
      obtain ⟨rfl, -⟩ := Prod.mk.inj (some.inj ha)
      exact ⟨rfl, rfl⟩
    | cons i queue =>
      obtain ⟨node, hn, ha⟩ := bind_eq_some_iff.mp ha
      cases processes with
      | nil => contradiction
      | cons process processes =>
        obtain ⟨hpos, hlt⟩ := hq i mem_cons_self
        obtain ⟨hidx, hchs⟩ := h i node hn
        have hqu : ∀ j ∈ queue ++ node.children.filterMap id, 0 < j ∧ j < n := by
          intro j hj
          rcases mem_append.mp hj with hj | hj
          · exact hq j (mem_cons_of_mem i hj)
          · exact hchs j (by simpa using hj)
        obtain ⟨hlen, hh⟩ := ih hqu ha
        rw [hlen, hh, length_set, getElem?_set_ne (by rw [hidx hlt]; omega)]
        exact ⟨rfl, rfl⟩

lemma addProcessesToView_view {root : ℕ} {addRoot : Bool} (h : Placed n tree) (hr : addRoot → 0 < root ∧ root < n)
    (ha : addProcessesToView tree root addRoot view processes = some (view', rest)) :
    view'.length = view.length ∧ view'[0]? = view[0]? := by
  obtain ⟨node, hn, ha⟩ := bind_eq_some_iff.mp ha
  refine addProcesses_view h ?_ ha
  intro i hi
  split at hi
  next hadd =>
    obtain rfl := mem_singleton.mp hi
    exact hr hadd
  next => exact (h root node hn).2 i (by simpa using hi)

lemma addRemoved_view {roots : List ℕ}
    (h : Placed n tree) (hr : ∀ i ∈ roots, 0 < i ∧ i < n) (ha : addRemoved tree roots view processes = some view') :
    view'.length = view.length ∧ view'[0]? = view[0]? := by
  induction roots generalizing view processes with
  | nil =>
    cases ha
    exact ⟨rfl, rfl⟩
  | cons root roots ih =>
    obtain ⟨⟨next, rest⟩, hn, ha⟩ := bind_eq_some_iff.mp ha
    obtain ⟨hlen, hh⟩ := addProcessesToView_view h (fun _ => hr root mem_cons_self) hn
    obtain ⟨hlen', hh'⟩ := ih (fun i hi => hr i (mem_cons_of_mem root hi)) ha
    exact ⟨hlen'.trans hlen, hh'.trans hh⟩

end DbrbTree

open DbrbTree

theorem createDbrbTreeView_view {reachableNodes unreachableNodes : ViewData} {broadcaster : ProcessId} {shardSize : ℕ}
    {view : DbrbTreeView} (h : createDbrbTreeView reachableNodes unreachableNodes broadcaster shardSize = .ok view) :
    view = [] ∨ view.length = reachableNodes.card + unreachableNodes.card + 1 ∧ view[0]? = some broadcaster := by
  simp only [createDbrbTreeView] at h
  split_ifs at h
  · exact Or.inl (Except.ok.inj h).symm
  · cases h
    exact Or.inr ⟨by simp [length_ascending], rfl⟩
  · right
    split at h
    next tree ht =>
      obtain ⟨r, hre, hv⟩ := bind_eq_ok.mp h
      set start := tree.modify 0 fun root =>
        { root with maxNodesToRemove := maxInvalidProcesses root.nodeCount }
      have hp : Placed (reachableNodes.card + unreachableNodes.card + 1) start := by
        apply (buildDbrbTree_placed ht).modify
        intro node
        exact ⟨rfl, fun c hc => Or.inl hc⟩
      have hq : ∀ i, some i ∈ (start[0]?.map (·.children)).getD [] →
          0 < i ∧ i < reachableNodes.card + unreachableNodes.card + 1 := by
        intro i hi
        cases hro : start[0]? with
        | none => simp [hro] at hi
        | some root => exact (hp 0 root hro).2 i (by simpa [hro] using hi)
      obtain ⟨hr, hrem⟩ := removeSubtrees_placed hp hq (by simp) hre
      split at hv
      next filled _ hf =>
        split at hv
        next final hfi =>
          cases hv
          obtain ⟨hlen, hh⟩ := addProcessesToView_view hr (by simp) hf
          obtain ⟨hlen', hh'⟩ := addRemoved_view hr hrem hfi
          exact ⟨by rw [hlen', hlen]; simp, by rw [hh', hh]; rfl⟩
        next => contradiction
      next => contradiction
    next => contradiction

end XpxChain.Dbrb
