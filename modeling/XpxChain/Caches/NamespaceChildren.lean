import XpxChain.Caches.NamespaceInvariant

/-! Children and aliases: they change the roots of the active owner and nothing else. -/

namespace XpxChain.Caches

open Std DeltaSet Accounts Library OrderedContainers Exceptions NamespaceCacheDelta Option Finset
open RootNamespaceHistory (activeIds deepCount activeIds_of_roots deepCount_of_roots activeOwnerHistoryDepth_of_roots
  activeOwnerHistoryDepth_modifyChildren deepCount_modifyChildren sound_modifyChildren modifyChildren_back
    modifyChildren_id)

variable {rootOf : NamespaceId → NamespaceId} {cache cache' : NamespaceCacheDelta}
  {map map' : PlainMap NamespaceId RootNamespaceHistory} {id : NamespaceId} {history history' : RootNamespaceHistory}
  {back : RootNamespace} {rest : List RootNamespace}

section

variable {path : NamespacePath} {parentId rootId : NamespaceId}
  {change : NamespaceChildren → NamespaceChildren}

lemma changeHistory_eq_ok {change : RootNamespaceHistory → Except NamespaceError RootNamespaceHistory}
    (h : cache.changeHistory rootId change = .ok (cache', history')) :
    ∃ history, cache.historyById.findConst rootId = some history ∧ change history = .ok history' ∧
      cache' = { cache with historyById := (cache.historyById.find rootId fun _ => history').1 } := by
  unfold changeHistory at h
  cases hf : cache.historyById.findConst rootId with
  | none => simp [hf] at h
  | some history =>
    simp only [hf] at h
    obtain ⟨new, hnew, h⟩ := bind_eq_ok.mp h
    cases h
    exact ⟨history, rfl, hnew, rfl⟩

lemma add_eq_ok (hroots : history.roots = back :: rest) (h : history.add path id parentId = .ok history') :
    id ∉ back.children ∧ history' = history.modifyChildren (·.insert id (path, .none)) := by
  simp only [RootNamespaceHistory.add, hroots] at h
  split_ifs at h with hmem hpar
  · cases h
  · cases h
  · refine ⟨hmem, ?_⟩
    split at h
    · cases h
    · split_ifs at h
      · cases h
      · cases h
        rfl
  · cases h
    exact ⟨hmem, rfl⟩

lemma remove_eq_ok (hroots : history.roots = back :: rest) (h : history.remove id = .ok history') :
    id ∈ back.children ∧ history' = history.modifyChildren (·.erase id) := by
  simp only [RootNamespaceHistory.remove, hroots] at h
  split at h
  · cases h
  · rename_i path childAlias hch
    split_ifs at h
    cases h
    exact ⟨mem_keySet.mp (mem_keySet_iff.mpr ⟨_, hch⟩), rfl⟩

lemma Represents.modifyChildren (h : Represents rootOf cache map) (hhist : map.content[rootId]? = some history)
    (hroots : history.roots = back :: rest)
    (hchg : ∀ (c : NamespaceId) (child : NamespaceChild), (change back.children)[c]? = some child →
      rootOf c = rootId ∧ c ≠ rootId ∧ child.1.head? = some rootId)
    (hh : cache'.historyById = (cache.historyById.find rootId fun _ => history.modifyChildren change).1)
    (hp : Holds (fun id (path : NamespacePath) => path.head? = some (rootOf id)) cache'.namespaceById)
    (hsa : ∀ c, rootOf c ≠ rootId → (cache'.namespaceById.contains c ↔ cache.namespaceById.contains c))
    (hnew : ∀ c, rootOf c = rootId → (cache'.namespaceById.contains c ↔ c = rootId ∨ c ∈ change back.children))
    (ha : cache'.activeSize < 2 ^ 64)
    (hact : cache'.activeSize + back.children.size ≡ cache.activeSize + (change back.children).size [MOD 2 ^ 64])
    (hd : cache'.deepSize < 2 ^ 64) (hde : cache'.deepSize + history.activeOwnerHistoryDepth * back.children.size ≡
      cache.deepSize + history.activeOwnerHistoryDepth * (change back.children).size [MOD 2 ^ 64]) :
    ∃ map', Represents rootOf cache' map' := by
  obtain ⟨rfl, hs⟩ := h.sound rootId history hhist
  obtain ⟨rest', hroots'⟩ := modifyChildren_back change hroots
  have hs' := sound_modifyChildren hs hroots hchg
  have hid := modifyChildren_id history change
  have hcnt := deepCount_modifyChildren hs hroots change
  refine h.modify hhist (fun _ => history.modifyChildren change) hh ⟨?_, hp, hsa, ?_, ha, ?_, hd, ?_⟩
  · rintro _ ⟨rfl⟩
    exact ⟨hid, hs'⟩
  · intro c hc
    rw [hnew c hc]
    simp [activeIds_of_roots hroots', hid]
  · simp only [elim_some, hs.card_activeIds hroots, hs'.card_activeIds hroots', Nat.ModEq] at hact ⊢
    omega
  · simp only [elim_some]
    apply Nat.ModEq.add_right_cancel' (history.activeOwnerHistoryDepth * back.children.size)
    have hl : cache'.deepSize + history.deepCount + history.activeOwnerHistoryDepth * back.children.size =
      cache'.deepSize + history.activeOwnerHistoryDepth * back.children.size + history.deepCount := by ring
    have hr : cache.deepSize + (history.modifyChildren change).deepCount + history.activeOwnerHistoryDepth *
        back.children.size =
      cache.deepSize + history.activeOwnerHistoryDepth * (change back.children).size + history.deepCount := by
      rw [Nat.add_assoc, hcnt]
      ring
    rw [hl, hr]
    exact hde.add_right _

lemma RootNamespaceHistory.Sound.child (h : history.Sound rootOf) (hroots : history.roots = back :: rest)
    (c : NamespaceId) (child : NamespaceChild) (hch : back.children[c]? = some child) :
    rootOf c = history.id ∧ c ≠ history.id ∧ child.1.head? = some history.id := by
  have hb : back ∈ history.roots := hroots ▸ List.mem_cons_self
  have hc : c ∈ back.children := mem_keySet.mp (mem_keySet_iff.mpr ⟨child, hch⟩)
  obtain ⟨hr, hne⟩ := h.child_root back hb c hc
  exact ⟨hr, hne, h.child_path back hb c child hch⟩

lemma Represents.insertChild (h : Represents rootOf cache map) (hpa : path.head? = some rootId)
    (hr : rootOf id = rootId) (hne : id ≠ rootId) (hok : cache.insertChild rootId path parentId id = .ok cache') :
    ∃ map', Represents rootOf cache' map' := by
  obtain ⟨⟨_, history'⟩, hch, hok⟩ := bind_eq_ok.mp hok
  obtain ⟨history, hhist, hadd, rfl⟩ := changeHistory_eq_ok hch
  rw [h.findConst] at hhist
  obtain ⟨rfl, hs⟩ := h.sound rootId history hhist
  obtain ⟨back, rest, hroots⟩ := hs.exists_back
  obtain ⟨hnew, rfl⟩ := add_eq_ok hroots hadd
  obtain ⟨hp, hcon⟩ := h.paths.insert id path (by rw [hpa, hr])
  have hsz : (back.children.insert id (path, NamespaceAlias.none)).size = back.children.size + 1 := by
    rw [ExtTreeMap.size_insert, if_neg (mt ExtTreeMap.contains_iff_mem.mp hnew)]
  cases hok
  refine h.modifyChildren hhist hroots ?_ rfl hp ?_ ?_ addAmount_lt ?_ addAmount_lt ?_
  · exact forall_insert (fun c child _ => hs.child hroots c child) ⟨hr, hne, hpa⟩
  · intro c hc
    exact (hcon c).trans (or_iff_right fun heq => hc (heq ▸ hr))
  · intro c hc
    refine (hcon c).trans ?_
    rw [h.contains_iff_active hhist hc, activeIds_of_roots hroots]
    simp only [mem_insert, mem_keySet, ExtTreeMap.mem_insert, Std.compare_eq_iff_eq]
    grind
  · simp only [hsz, Nat.ModEq, addAmount]
    omega
  · rw [activeOwnerHistoryDepth_modifyChildren hroots, hsz, Nat.mul_succ]
    refine (addAmount_modEq.add_right _).trans ?_
    rw [Nat.add_assoc, Nat.add_comm history.activeOwnerHistoryDepth]

lemma Represents.removeChild (h : Represents rootOf cache map) (hok : cache.removeChild rootId id = .ok cache') :
    ∃ map', Represents rootOf cache' map' := by
  obtain ⟨⟨_, history'⟩, hch, hok⟩ := bind_eq_ok.mp hok
  obtain ⟨history, hhist, hr, rfl⟩ := changeHistory_eq_ok hch
  rw [h.findConst] at hhist
  obtain ⟨rfl, hs⟩ := h.sound rootId history hhist
  obtain ⟨back, rest, hroots⟩ := hs.exists_back
  obtain ⟨hold, rfl⟩ := remove_eq_ok hroots hr
  obtain ⟨hp, hcon⟩ := h.paths.remove id
  obtain ⟨hro, hne⟩ := hs.child_root back (hroots ▸ List.mem_cons_self) id hold
  have hsz : (back.children.erase id).size + 1 = back.children.size := by
    have hpos : back.children.size ≠ 0 := by
      rw [← card_keySet, card_ne_zero]
      exact ⟨id, mem_keySet.mpr hold⟩
    rw [ExtTreeMap.size_erase, if_pos (ExtTreeMap.contains_iff_mem.mpr hold)]
    omega
  have hd : history.activeOwnerHistoryDepth ≤ 2 ^ 64 := by
    rw [activeOwnerHistoryDepth_of_roots hroots]
    have hle := (List.takeWhile_sublist (· = back.owner) (l := history.roots.map (·.owner))).length_le
    rw [List.length_map] at hle
    exact hle.trans (hs.short.le.trans (by decide))
  cases hok
  refine h.modifyChildren hhist hroots ?_ rfl hp ?_ ?_ (sizeSub_lt h.activeSize_lt) ?_ (sizeSub_lt h.deepSize_lt) ?_
  · exact forall_erase fun c child _ => hs.child hroots c child
  · intro c hc
    exact (hcon c).trans (and_iff_right fun heq => hc (heq ▸ hro))
  · intro c hc
    refine (hcon c).trans ?_
    rw [h.contains_iff_active hhist hc, activeIds_of_roots hroots]
    simp only [mem_insert, mem_keySet, ExtTreeMap.mem_erase, ne_eq, Std.compare_eq_iff_eq]
    grind
  · have hsub := sizeSub_add_modEq (a := cache.activeSize) (b := 1) (by decide)
    simp only [Nat.ModEq] at hsub ⊢
    omega
  · rw [activeOwnerHistoryDepth_modifyChildren hroots, ← hsz, Nat.mul_succ]
    have hsub := sizeSub_add_modEq (a := cache.deepSize) hd
    rw [Nat.add_comm (_ * _) history.activeOwnerHistoryDepth, ← Nat.add_assoc]
    exact hsub.add_right _

lemma findNamespace_eq_ok (h : cache.findNamespace id = .ok (cache', path)) :
    cache' = { cache with namespaceById := (cache.namespaceById.find id fun path => path).1 } := by
  unfold findNamespace at h
  split at h
  · cases h
  · rename_i namespaceById found hf
    cases h
    rw [hf]

lemma Represents.findNamespace (h : Represents rootOf cache map) (hok : cache.findNamespace id = .ok (cache', path)) :
    Represents rootOf cache' map := by
  obtain rfl := findNamespace_eq_ok hok
  refine { h with paths := h.paths.find id, contains_iff := fun c => ?_ }
  rw [← h.contains_iff, (sameContent_find cache.namespaceById id).contains]

lemma Represents.setAlias (h : Represents rootOf cache map) {newAlias : NamespaceAlias}
    (hok : cache.setAlias id newAlias = .ok cache') : ∃ map', Represents rootOf cache' map' := by
  obtain ⟨⟨found, path⟩, hfound, hok⟩ := bind_eq_ok.mp hok
  replace h := h.findNamespace hfound
  obtain ⟨⟨_, history'⟩, hca, hok⟩ := bind_eq_ok.mp hok
  obtain ⟨history, hhist, hset, rfl⟩ := changeHistory_eq_ok hca
  cases hok
  rw [h.findConst] at hhist
  obtain ⟨hid, hs⟩ := h.sound _ history hhist
  obtain ⟨back, rest, hroots⟩ := hs.exists_back
  simp only [RootNamespaceHistory.setAlias, hroots] at hset
  split_ifs at hset with hr
  · cases hset
    have hact : activeIds { history with roots := { back with rootAlias := newAlias } :: rest } =
        history.activeIds := by
      rw [activeIds_of_roots hroots]
      rfl
    have hd : deepCount { history with roots := { back with rootAlias := newAlias } :: rest } = history.deepCount := by
      rw [deepCount_of_roots hroots]
      rfl
    refine h.modify hhist (fun _ => { history with roots := { back with rootAlias := newAlias } :: rest }) rfl
      ⟨?_, h.paths, fun _ _ => Iff.rfl, ?_, h.activeSize_lt, ?_, h.deepSize_lt, ?_⟩
    · rintro _ ⟨rfl⟩
      exact ⟨hid, hs.setRootAlias hroots newAlias⟩
    · intro c hc
      simp [h.contains_iff_active hhist hc, hact]
    · simp only [elim_some, hact]
      rfl
    · simp only [elim_some, hd]
      rfl
  · cases hch : back.children[id]? with
    | none => simp [hch] at hset
    | some child =>
      simp only [hch] at hset
      cases hset
      have hmem : id ∈ back.children := mem_keySet.mp (mem_keySet_iff.mpr ⟨child, hch⟩)
      have hsz : (back.children.insert id (child.1, newAlias)).size = back.children.size := by
        rw [ExtTreeMap.size_insert, if_pos (ExtTreeMap.contains_iff_mem.mpr hmem)]
      refine h.modifyChildren hhist hroots ?_ rfl h.paths (fun _ _ => Iff.rfl) ?_ h.activeSize_lt ?_ h.deepSize_lt ?_
      · rw [← hid]
        exact forall_insert (fun c child _ => hs.child hroots c child) (hs.child hroots id child hch)
      · intro c hc
        rw [h.contains_iff_active hhist hc, activeIds_of_roots hroots]
        simp only [mem_insert, mem_keySet, ExtTreeMap.mem_insert, Std.compare_eq_iff_eq]
        grind
      · rw [hsz]
      · rw [hsz]

end

end XpxChain.Caches
