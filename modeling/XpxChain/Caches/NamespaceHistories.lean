import XpxChain.Caches.NamespaceCache
import XpxChain.Library.SortedTables

/-! Histories of root namespaces whose roots expire in the order in which they were registered. -/

namespace XpxChain.Caches

open Std DeltaSet Accounts Library OrderedContainers Exceptions List

namespace RootNamespaceHistory

variable {rootOf : NamespaceId → NamespaceId} {history : RootNamespaceHistory} {back : RootNamespace}
  {rest : List RootNamespace}

def activeIds (history : RootNamespaceHistory) : Finset NamespaceId :=
  history.roots.head?.elim ∅ fun back => insert history.id (keySet back.children)

def deepCount (history : RootNamespaceHistory) : ℕ := (history.roots.map fun root => 1 + root.children.size).sum

structure Sound (rootOf : NamespaceId → NamespaceId) (history : RootNamespaceHistory) : Prop where
  nonempty : history.roots ≠ []
  short : history.roots.length < 2 ^ 32
  root : rootOf history.id = history.id
  child_root : ∀ root ∈ history.roots, ∀ c ∈ root.children, rootOf c = history.id ∧ c ≠ history.id
  child_path : ∀ root ∈ history.roots, ∀ (c : NamespaceId) (child : NamespaceChild),
    root.children[c]? = some child → child.1.head? = some history.id
  shared : history.roots.IsChain fun newer older => newer.owner = older.owner → newer.children = older.children
  ordered : history.roots.Pairwise fun newer older => older.lifetime.gracePeriodEnd ≤ newer.lifetime.gracePeriodEnd

lemma activeIds_of_roots (h : history.roots = back :: rest) :
    history.activeIds = insert history.id (keySet back.children) := by
  rw [activeIds, h]
  rfl

lemma deepCount_of_roots (h : history.roots = back :: rest) :
    history.deepCount = 1 + back.children.size + (rest.map fun root => 1 + root.children.size).sum := by
  rw [deepCount, h, map_cons, sum_cons]

namespace Sound

variable (h : history.Sound rootOf)
include h

lemma exists_back : ∃ back rest, history.roots = back :: rest := exists_cons_of_ne_nil h.nonempty

lemma rootOf_of_active {c : NamespaceId} (hc : c ∈ history.activeIds) : rootOf c = history.id := by
  obtain ⟨back, rest, hroots⟩ := h.exists_back
  rw [activeIds_of_roots hroots, Finset.mem_insert, mem_keySet] at hc
  rcases hc with rfl | hc
  · exact h.root
  · exact (h.child_root back (hroots ▸ mem_cons_self) c hc).1

lemma not_mem_children {root : RootNamespace} (hr : root ∈ history.roots) : history.id ∉ root.children := fun hid =>
  (h.child_root root hr _ hid).2 rfl

lemma size_lt {root : RootNamespace} (hr : root ∈ history.roots) : root.children.size < 2 ^ 64 := by
  have hu : keySet root.children ≠ Finset.univ := fun hu =>
    h.not_mem_children hr (mem_keySet.mp (hu ▸ Finset.mem_univ _))
  calc root.children.size = (keySet root.children).card := (card_keySet _).symm
    _ < (Finset.univ : Finset NamespaceId).card := Finset.card_lt_card (Finset.ssubset_univ_iff.mpr hu)
    _ = 2 ^ 64 := (Finset.card_univ).trans (Fintype.card_fin _)

lemma card_activeIds (hroots : history.roots = back :: rest) : history.activeIds.card = 1 + back.children.size := by
  rw [activeIds_of_roots hroots, Finset.card_insert_of_notMem, card_keySet, Nat.add_comm]
  rw [mem_keySet]
  exact h.not_mem_children (hroots ▸ mem_cons_self)

lemma children_eq_of_active (hroots : history.roots = back :: rest) :
    ∀ root ∈ history.roots.takeWhile (·.owner = back.owner), root.children = back.children := by
  suffices hs : ∀ (l : List RootNamespace) (root' : RootNamespace), root'.owner = back.owner →
      root'.children = back.children →
      (root' :: l).IsChain (fun newer older => newer.owner = older.owner → newer.children = older.children) →
      ∀ root ∈ l.takeWhile (·.owner = back.owner), root.children = back.children by
    have hsh := h.shared
    rw [hroots] at hsh
    rw [hroots, takeWhile_cons_of_pos (by simp)]
    intro root hr
    rcases mem_cons.mp hr with rfl | hr
    · rfl
    · exact hs rest back rfl rfl hsh root hr
  intro l
  induction l with
  | nil => simp
  | cons next l ih =>
    intro root' how hchs hc root hr
    obtain ⟨hn, hc⟩ := isChain_cons_cons.mp hc
    by_cases ho : next.owner = back.owner
    · have hsa : next.children = back.children := (hn (how.trans ho.symm)).symm.trans hchs
      rw [takeWhile_cons_of_pos (by simpa using ho)] at hr
      rcases mem_cons.mp hr with rfl | hr
      · exact hsa
      · exact ih next ho hsa hc root hr
    · rw [takeWhile_cons_of_neg (by simpa using ho)] at hr
      cases hr

end Sound

section

variable {change : NamespaceChildren → NamespaceChildren}

lemma modifyChildren_id (history : RootNamespaceHistory) (change : NamespaceChildren → NamespaceChildren) :
    (history.modifyChildren change).id = history.id := by
  unfold modifyChildren
  split <;> rfl

lemma modifyChildren_roots (hroots : history.roots = back :: rest) : (history.modifyChildren change).roots =
      (history.roots.takeWhile (·.owner = back.owner)).map
        (fun root => { root with children := change root.children }) ++
        history.roots.dropWhile (·.owner = back.owner) := by
  simp only [modifyChildren, hroots]

lemma modifyChildren_back (change : NamespaceChildren → NamespaceChildren) (hroots : history.roots = back :: rest) :
    ∃ rest', (history.modifyChildren change).roots = { back with children := change back.children } :: rest' := by
  rw [modifyChildren_roots hroots, hroots, takeWhile_cons_of_pos (by simp)]
  exact ⟨_, rfl⟩

lemma map_modifyChildren {γ : Type} (history : RootNamespaceHistory) (change : NamespaceChildren → NamespaceChildren)
    (f : RootNamespace → γ) (hf : ∀ root : RootNamespace, f { root with children := change root.children } = f root) :
    (history.modifyChildren change).roots.map f = history.roots.map f := by
  rcases hroots : history.roots with _ | ⟨back, rest⟩
  · simp [modifyChildren, hroots]
  · rw [modifyChildren_roots hroots, map_append, map_map, ← hroots]
    conv_rhs => rw [← takeWhile_append_dropWhile (p := (·.owner = back.owner)) (l := history.roots)]
    rw [map_append]
    congr 1
    exact map_congr_left fun root _ => hf root

lemma activeOwnerHistoryDepth_of_roots (hroots : history.roots = back :: rest) :
    history.activeOwnerHistoryDepth = ((history.roots.map (·.owner)).takeWhile (· = back.owner)).length := by
  rw [takeWhile_map, length_map]
  simp only [activeOwnerHistoryDepth, hroots]
  rfl

lemma activeOwnerHistoryDepth_modifyChildren (hroots : history.roots = back :: rest) :
    (history.modifyChildren change).activeOwnerHistoryDepth = history.activeOwnerHistoryDepth := by
  obtain ⟨rest', hr⟩ := modifyChildren_back change hroots
  rw [activeOwnerHistoryDepth_of_roots hr, activeOwnerHistoryDepth_of_roots hroots,
    map_modifyChildren history change (·.owner) fun _ => rfl]

variable (h : history.Sound rootOf) (hroots : history.roots = back :: rest)
include h hroots

lemma deepCount_modifyChildren (change : NamespaceChildren → NamespaceChildren) :
    (history.modifyChildren change).deepCount + history.activeOwnerHistoryDepth * back.children.size =
    history.deepCount + history.activeOwnerHistoryDepth * (change back.children).size := by
  have hsum : ∀ n, (∀ root ∈ history.roots.takeWhile (·.owner = back.owner), n root = n back) →
      ((history.roots.takeWhile (·.owner = back.owner)).map n).sum = history.activeOwnerHistoryDepth * n back := by
    intro n hn
    rw [map_congr_left hn, map_const', sum_replicate, smul_eq_mul]
    simp only [activeOwnerHistoryDepth, hroots]
  have hs := h.children_eq_of_active hroots
  have hold := hsum (fun root => 1 + root.children.size) fun root hr => by simp only [hs root hr]
  have hnew := hsum (fun root => 1 + (change root.children).size) fun root hr => by simp only [hs root hr]
  have hd : history.deepCount =
      ((history.roots.takeWhile (·.owner = back.owner)).map fun root => 1 + root.children.size).sum +
      ((history.roots.dropWhile (·.owner = back.owner)).map fun root => 1 + root.children.size).sum := by
    rw [← sum_append, ← map_append, takeWhile_append_dropWhile, deepCount]
  rw [hd, hold, deepCount, modifyChildren_roots hroots, map_append, sum_append, map_map]
  have hc : (fun root : RootNamespace => 1 + root.children.size) ∘
      (fun root : RootNamespace => { root with children := change root.children }) =
    fun root : RootNamespace => 1 + (change root.children).size := rfl
  rw [hc, hnew]
  ring

lemma mem_modifyChildren {root : RootNamespace} (hr : root ∈ (history.modifyChildren change).roots) :
    root.children = change back.children ∨ root ∈ history.roots := by
  rw [modifyChildren_roots hroots, mem_append, mem_map] at hr
  rcases hr with ⟨root, hr, rfl⟩ | hr
  · exact .inl (congrArg change (h.children_eq_of_active hroots root hr))
  · exact .inr ((dropWhile_sublist _).mem hr)

lemma sound_modifyChildren
    (hchg : ∀ (c : NamespaceId) (child : NamespaceChild), (change back.children)[c]? = some child →
      rootOf c = history.id ∧ c ≠ history.id ∧ child.1.head? = some history.id) :
    (history.modifyChildren change).Sound rootOf := by
  obtain ⟨rest', hre⟩ := modifyChildren_back change hroots
  refine ⟨by simp [hre], ?_, ?_, ?_, ?_, ?_, ?_⟩
  · have hlen := congrArg length (map_modifyChildren history change (fun _ => ()) fun _ => rfl)
    rw [length_map, length_map] at hlen
    rw [hlen]
    exact h.short
  · rw [modifyChildren_id]
    exact h.root
  · rw [modifyChildren_id]
    intro root hr c hc
    rcases mem_modifyChildren h hroots hr with hs | hold
    · obtain ⟨child, hch⟩ := mem_keySet_iff.mp (mem_keySet.mpr (hs ▸ hc))
      exact ⟨(hchg c child hch).1, (hchg c child hch).2.1⟩
    · exact h.child_root root hold c hc
  · rw [modifyChildren_id]
    intro root hr c child hch
    rcases mem_modifyChildren h hroots hr with hs | hold
    · exact (hchg c child (hs ▸ hch)).2.2
    · exact h.child_path root hold c child hch
  · rw [modifyChildren_roots hroots, isChain_append]
    refine ⟨?_, ?_, ?_⟩
    · rw [isChain_map]
      have hact := List.IsChain.prefix h.shared ( takeWhile_prefix (·.owner = back.owner))
      exact hact.imp fun newer older hs ho => congrArg change (hs ho)
    · exact h.shared.suffix (dropWhile_suffix _)
    · intro newer hn older hol ho
      obtain ⟨root, hr, rfl⟩ := mem_map.mp (mem_of_mem_getLast? hn)
      have hb : root.owner = back.owner := by simpa using mem_takeWhile_imp hr
      have hoth := head?_dropWhile_not (fun root : RootNamespace => decide (root.owner = back.owner)) history.roots
      rw [Option.mem_def.mp hol] at hoth
      exact absurd (ho.symm.trans hb) (by simpa using hoth)
  · have hor : (history.roots.map (·.lifetime.gracePeriodEnd)).Pairwise fun newer older => older ≤ newer :=
      pairwise_map.mpr h.ordered
    rw [← map_modifyChildren history change (·.lifetime.gracePeriodEnd) fun _ => rfl] at hor
    exact pairwise_map.mp hor

omit h hroots in
lemma Sound.of_infix (h : history.Sound rootOf) {roots : List RootNamespace} (hw : roots <:+: history.roots)
    (hn : roots ≠ []) : Sound rootOf { history with roots } where
  nonempty := hn
  short := hw.length_le.trans_lt h.short
  root := h.root
  child_root root hr := h.child_root root (hw.subset hr)
  child_path root hr := h.child_path root (hw.subset hr)
  shared := h.shared.infix hw
  ordered := h.ordered.sublist hw.sublist

lemma Sound.push {root : RootNamespace} (hlen : history.roots.length + 1 < 2 ^ 32)
    (hend : back.lifetime.gracePeriodEnd ≤ root.lifetime.gracePeriodEnd)
    (hr : root.owner = back.owner ∧ root.children = back.children ∨ root.owner ≠ back.owner ∧ root.children = ∅) :
    Sound rootOf { history with roots := root :: history.roots } := by
  have hb : back ∈ history.roots := hroots ▸ mem_cons_self
  have hch : ∀ (c : NamespaceId) (child : NamespaceChild), root.children[c]? = some child →
      back.children[c]? = some child := by
    rcases hr with ⟨-, hsa⟩ | ⟨-, hn⟩
    · simp [hsa]
    · simp [hn]
  refine ⟨cons_ne_nil _ _, hlen, h.root, ?_, ?_, ?_, ?_⟩
  · intro root' hr'
    rcases mem_cons.mp hr' with rfl | hold
    · intro c hc
      obtain ⟨child, hso⟩ := mem_keySet_iff.mp (mem_keySet.mpr hc)
      exact h.child_root back hb c (mem_keySet.mp (mem_keySet_iff.mpr ⟨child, hch c child hso⟩))
    · exact h.child_root root' hold
  · intro root' hr' c child hso
    rcases mem_cons.mp hr' with rfl | hold
    · exact h.child_path back hb c child (hch c child hso)
    · exact h.child_path root' hold c child hso
  · have hs := h.shared
    rw [hroots] at hs ⊢
    refine isChain_cons_cons.mpr ⟨fun how => ?_, hs⟩
    rcases hr with ⟨-, hsa⟩ | ⟨hoth, -⟩
    · exact hsa
    · exact absurd how hoth
  · have hor := h.ordered
    rw [hroots] at hor ⊢
    refine pairwise_cons.mpr ⟨fun older ho => ?_, hor⟩
    rcases mem_cons.mp ho with rfl | ho
    · exact hend
    · exact ((pairwise_cons.mp hor).1 older ho).trans hend

lemma Sound.setRootAlias (newAlias : NamespaceAlias) :
    Sound rootOf { history with roots := { back with rootAlias := newAlias } :: rest } := by
  obtain ⟨hn, hsh, hr, hc, hch, hs, ho⟩ := h
  rw [hroots] at hsh hc hch hs ho
  refine ⟨cons_ne_nil _ _, hsh, hr, ?_, ?_, ?_, ?_⟩
  · exact forall_mem_cons.mpr (forall_mem_cons.mp hc)
  · exact forall_mem_cons.mpr (forall_mem_cons.mp hch)
  · rw [isChain_cons] at hs ⊢
    exact hs
  · rw [pairwise_cons] at ho ⊢
    exact ho

end

section

variable {height : Height}

lemma prune_roots :
    (history.prune height).1.roots = history.roots.filter fun root => height < root.lifetime.gracePeriodEnd := by
  simp only [prune]
  induction history.roots with
  | nil => rfl
  | cons root roots ih =>
    by_cases hr : root.lifetime.gracePeriodEnd ≤ height
    · simp [pruneRoot, hr, ih, Nat.not_lt.mpr hr]
    · simp [pruneRoot, hr, ih, Nat.not_le.mp hr]

lemma mem_pruneRoots {roots : List RootNamespace} {c : NamespaceId}
    (ho : roots.Pairwise fun newer older => older.lifetime.gracePeriodEnd ≤ newer.lifetime.gracePeriodEnd) :
    c ∈ (roots.foldr (pruneRoot height) ([], ∅)).2 ↔
      (∃ root ∈ roots, c ∈ root.children) ∧ ∀ root ∈ roots, height < root.lifetime.gracePeriodEnd →
        c ∉ root.children := by
  induction roots with
  | nil => simp
  | cons root roots ih =>
    obtain ⟨hr, hroots⟩ := pairwise_cons.mp ho
    rw [foldr_cons, pruneRoot]
    split_ifs with hend
    · rw [Finset.mem_union, mem_keySet]
      grind
    · rw [Finset.mem_sdiff, mem_keySet]
      grind

variable (h : history.Sound rootOf) (hroots : history.roots = back :: rest)
include h hroots

lemma prune_of_expired (hend : back.lifetime.gracePeriodEnd ≤ height) : (history.prune height).1.roots = [] ∧
      ∀ c, c ∈ (history.prune height).2 ↔ c = history.id ∨ ∃ root ∈ history.roots, c ∈ root.children := by
  have hold : ∀ root ∈ history.roots, ¬ height < root.lifetime.gracePeriodEnd := by
    have ho := h.ordered
    rw [hroots] at ho ⊢
    intro root hr
    rcases mem_cons.mp hr with rfl | hr
    · exact Nat.not_lt.mpr hend
    · exact Nat.not_lt.mpr (((pairwise_cons.mp ho).1 root hr).trans hend)
  have hn : (history.prune height).1.roots = [] := by
    rw [prune_roots]
    simpa using hold
  refine ⟨hn, fun c => ?_⟩
  have hc : (history.prune height).2 = insert history.id (history.roots.foldr (pruneRoot height) ([], ∅)).2 := if_pos hn
  rw [hc, Finset.mem_insert, mem_pruneRoots h.ordered]
  exact or_congr_right (and_iff_left fun root hr hlt => absurd hlt (hold root hr))

lemma prune_of_active (hend : height < back.lifetime.gracePeriodEnd) :
    (∃ rest', (history.prune height).1.roots = back :: rest') ∧ (history.prune height).1.roots <+: history.roots ∧
      ∀ c ∈ (history.prune height).2, c ∉ history.activeIds ∧ rootOf c = history.id := by
  have hk : ∃ rest', (history.prune height).1.roots = back :: rest' := by
    rw [prune_roots, hroots, filter_cons_of_pos (by simpa using hend)]
    exact ⟨_, rfl⟩
  refine ⟨hk, ?_, ?_⟩
  · have ht :=
      SortedTables.takeWhile_eq_filter_of_pairwise (p := fun root => decide (height < root.lifetime.gracePeriodEnd))
      (h.ordered.imp fun hle hlt => decide_eq_true ((of_decide_eq_true hlt).trans_le hle))
    rw [prune_roots, ← ht]
    exact takeWhile_prefix _
  · intro c hc
    obtain ⟨rest', hk⟩ := hk
    have hs : (history.prune height).1.roots ≠ [] := by
      rw [hk]
      exact cons_ne_nil _ _
    have hco : (history.prune height).2 = (history.roots.foldr (pruneRoot height) ([], ∅)).2 := if_neg hs
    rw [hco, mem_pruneRoots h.ordered] at hc
    obtain ⟨⟨root, hro, hc⟩, hnot⟩ := hc
    obtain ⟨hr, hne⟩ := h.child_root root hro c hc
    rw [activeIds_of_roots hroots, Finset.mem_insert, mem_keySet, not_or]
    exact ⟨⟨hne, hnot back (hroots ▸ mem_cons_self) hend⟩, hr⟩

end

end RootNamespaceHistory

end XpxChain.Caches
