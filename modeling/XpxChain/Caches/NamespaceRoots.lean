import XpxChain.Caches.NamespaceInvariant

/-! Registrations of roots: new ones, renewals, those of another owner, and their removal. -/

namespace XpxChain.Caches

open Std DeltaSet Accounts Library OrderedContainers Exceptions NamespaceCacheDelta Option Finset RootNamespaceHistory

variable {rootOf : NamespaceId → NamespaceId} {cache cache' : NamespaceCacheDelta}
  {map map' : PlainMap NamespaceId RootNamespaceHistory} {id : NamespaceId} {history history' : RootNamespaceHistory}
  {back : RootNamespace} {rest : List RootNamespace}

section

variable (children : NamespaceChildren)

lemma mem_map_fst_toList {c : NamespaceId} : c ∈ children.toList.map (·.1) ↔ c ∈ children := by
  rw [ExtTreeMap.map_fst_toList_eq_keys, ExtTreeMap.mem_keys]

lemma holds_removeAll (h : Holds (fun id (path : NamespacePath) => path.head? = some (rootOf id)) cache.namespaceById) :
    Holds (fun id (path : NamespacePath) => path.head? = some (rootOf id)) (cache.removeAll children) ∧
      ∀ c, (cache.removeAll children).contains c ↔ c ∉ children ∧ cache.namespaceById.contains c := by
  obtain ⟨hh, hcon⟩ := h.removeEach (·.1) children.toList
  refine ⟨hh, fun c => (hcon c).trans ?_⟩
  rw [mem_map_fst_toList]

lemma holds_addAll (cache : NamespaceCacheDelta)
    (h : Holds (fun id (path : NamespacePath) => path.head? = some (rootOf id)) cache.namespaceById)
    (hchs : ∀ (c : NamespaceId) (child : NamespaceChild), children[c]? = some child → child.1.head? = some (rootOf c)) :
    Holds (fun id (path : NamespacePath) => path.head? = some (rootOf id)) (cache.addAll children) ∧
      ∀ c, (cache.addAll children).contains c ↔ c ∈ children ∨ cache.namespaceById.contains c := by
  obtain ⟨hh, hcon⟩ := h.insertEach (·.1) (·.2.1) children.toList
    fun child hch => hchs child.1 child.2 (ExtTreeMap.mem_toList_iff_getElem?_eq_some.mp hch)
  refine ⟨hh, fun c => (hcon c).trans ?_⟩
  rw [mem_map_fst_toList]

variable {owner : Key} {lifetime : NamespaceLifetime} {setAliasOnRenew : Bool}

lemma Represents.insertNewRoot (h : Represents rootOf cache map) (hr : rootOf id = id) (hn : map.content[id]? = none)
    (hok : cache.insertRoot id owner lifetime setAliasOnRenew = .ok cache') :
    ∃ map', Represents rootOf cache' map' := by
  simp only [insertRoot, h.findConst, hn] at hok
  set new : RootNamespaceHistory := pushBack { id } owner lifetime setAliasOnRenew with hnew
  have hroots : new.roots = [{ owner, lifetime }] := rfl
  have hact : new.activeIds = {id} := by
    rw [activeIds_of_roots hroots]
    simp [hnew, pushBack]
  have hd : new.deepCount = 1 := by simp [deepCount, hroots]
  have hs : new.Sound rootOf := by
    refine ⟨by simp [hroots], by simp [hroots], hr, ?_, ?_, ?_, ?_⟩ <;> simp [hroots]
  obtain ⟨hp, hcon⟩ := h.paths.insert id [id] (by rw [hr]; rfl)
  have hold : ∀ c, rootOf c = id → cache.namespaceById.contains c ≠ true := by
    intro c hc hcon
    obtain ⟨history, hhist, -⟩ := (h.contains_iff c).mp hcon
    rw [hc, hn] at hhist
    cases hhist
  cases hok
  have hne : Refines (cache.historyById.insert id new).1 { map with content := map.content.insert id new } :=
    h.refines.next (.insert id new)
  refine ⟨_, h.replace id hne ?_ ?_⟩
  · intro j hj
    rw [getElem?_insert_eq, if_neg hj]
  · rw [ExtTreeMap.getElem?_insert, if_pos (by simp), hn]
    refine ⟨?_, hp, ?_, ?_, addAmount_lt, ?_, addAmount_lt, ?_⟩
    · rintro _ ⟨rfl⟩
      exact ⟨rfl, hs⟩
    · intro c hc
      rw [hcon]
      exact or_iff_right fun heq => hc (heq ▸ hr)
    · intro c hc
      rw [hcon]
      simp [hact, hold c hc]
    · simpa [hact] using addAmount_modEq
    · simpa [hd] using addAmount_modEq

lemma pushBack_of_owner (hroots : history.roots = back :: rest) (ho : back.owner = owner) :
    history.pushBack owner lifetime setAliasOnRenew = { history with
      roots :=
        { back with lifetime, rootAlias := if setAliasOnRenew then back.rootAlias else .none } :: history.roots } := by
  simp only [pushBack, hroots, if_pos ho]

lemma pushBack_of_other (hroots : history.roots = back :: rest) (ho : back.owner ≠ owner) :
    history.pushBack owner lifetime setAliasOnRenew =
      { history with roots := { owner, lifetime } :: history.roots } := by
  simp only [pushBack, hroots, if_neg ho]

section

variable (h : Represents rootOf cache map) (hhist : map.content[id]? = some history)
  (hroots : history.roots = back :: rest)
include h hhist hroots

section

variable (hlen : history.roots.length + 1 < 2 ^ 32) (hend : back.lifetime.gracePeriodEnd ≤ lifetime.gracePeriodEnd)
include hlen hend

lemma Represents.renewRoot (ho : back.owner = owner)
    (hok : cache.insertRoot id owner lifetime setAliasOnRenew = .ok cache') :
    ∃ map', Represents rootOf cache' map' := by
  obtain ⟨rfl, hs⟩ := h.sound id history hhist
  simp only [insertRoot, h.findConst, hhist, hroots, ho, ne_eq, not_true_eq_false, if_false] at hok
  cases hok
  refine h.modify hhist (fun history => history.pushBack owner lifetime setAliasOnRenew) rfl ?_
  simp only [pushBack_of_owner hroots ho]
  set root : RootNamespace := { back with lifetime, rootAlias := if setAliasOnRenew then back.rootAlias else .none }
  have hnew : RootNamespaceHistory.Sound rootOf { history with roots := root :: history.roots } :=
    hs.push hroots hlen hend (.inl ⟨rfl, rfl⟩)
  have hact : activeIds { history with roots := root :: history.roots } = history.activeIds := by
    rw [activeIds_of_roots hroots]
    rfl
  have hd : deepCount { history with roots := root :: history.roots } = 1 + back.children.size + history.deepCount := by
    simp [deepCount, root]
  refine ⟨?_, h.paths, fun _ _ => Iff.rfl, ?_, h.activeSize_lt, ?_, addAmount_lt, ?_⟩
  · rintro _ ⟨rfl⟩
    exact ⟨rfl, hnew⟩
  · intro c hc
    simp [h.contains_iff_active hhist hc, hact]
  · simp only [elim_some, hact]
    rfl
  · simp only [elim_some, hd, Nat.ModEq, addAmount]
    omega

lemma Represents.takeOverRoot (ho : back.owner ≠ owner)
    (hok : cache.insertRoot id owner lifetime setAliasOnRenew = .ok cache') :
    ∃ map', Represents rootOf cache' map' := by
  obtain ⟨rfl, hs⟩ := h.sound id history hhist
  simp only [insertRoot, h.findConst, hhist, hroots, ne_eq, ho, not_false_eq_true, if_true] at hok
  cases hok
  refine h.modify hhist (fun history => history.pushBack owner lifetime setAliasOnRenew) rfl ?_
  simp only [pushBack_of_other hroots ho]
  have hb : back ∈ history.roots := hroots ▸ List.mem_cons_self
  have hnew : RootNamespaceHistory.Sound rootOf { history with roots := { owner, lifetime } :: history.roots } :=
    hs.push hroots hlen hend (.inr ⟨ho.symm, rfl⟩)
  have hact : activeIds { history with roots := { owner, lifetime } :: history.roots } = {history.id} := by
    simp [activeIds]
  have hd : deepCount { history with roots := { owner, lifetime } :: history.roots } = 1 + history.deepCount := by
    simp [deepCount]
  have hca := hs.card_activeIds hroots
  obtain ⟨hp, hcon⟩ := holds_removeAll back.children h.paths
  refine ⟨?_, hp, ?_, ?_, sizeSub_lt h.activeSize_lt, ?_, addAmount_lt, ?_⟩
  · rintro _ ⟨rfl⟩
    exact ⟨rfl, hnew⟩
  · intro c hc
    refine (hcon c).trans (and_iff_right fun hch => hc ?_)
    exact (hs.child_root back hb c hch).1
  · intro c hc
    refine (hcon c).trans ?_
    rw [h.contains_iff_active hhist hc, activeIds_of_roots hroots]
    simp only [some.injEq, exists_eq_left', hact, mem_insert, mem_singleton, mem_keySet]
    have hnot : history.id ∉ back.children := hs.not_mem_children hb
    grind
  · have hsub := sizeSub_add_modEq (a := cache.activeSize) (hs.size_lt hb).le
    simp only [elim_some, hact, hca, card_singleton, Nat.ModEq] at hsub ⊢
    omega
  · simp only [elim_some, hd, Nat.ModEq, addAmount]
    omega

end

end

lemma Represents.removeOnlyRoot (h : Represents rootOf cache map) (hhist : map.content[id]? = some history)
    (hroots : history.roots = [back]) (hok : cache.removeRoot id = .ok cache') :
    ∃ map', Represents rootOf cache' map' := by
  obtain ⟨rfl, hs⟩ := h.sound id history hhist
  simp only [removeRoot, h.findConst, hhist, hroots] at hok
  split_ifs at hok with hemp
  cases hok
  obtain ⟨hp, hcon⟩ := h.paths.remove history.id
  have hca := hs.card_activeIds hroots
  have hd := deepCount_of_roots hroots
  have hsz : back.children.size = 0 := by simpa using hemp
  have hn : keySet back.children = ∅ := card_eq_zero.mp ((card_keySet _).trans hsz)
  refine h.discard hhist (fun history => { history with roots := [] }) rfl ⟨?_, hp, ?_, ?_, ?_, ?_, ?_, ?_⟩
  · rintro _ ⟨⟩
  · intro c hc
    exact (hcon c).trans (and_iff_right fun heq => hc (heq ▸ hs.root))
  · intro c hc
    refine (hcon c).trans ?_
    rw [h.contains_iff_active hhist hc, activeIds_of_roots hroots]
    simp [hn]
  · exact sizeSub_lt h.activeSize_lt
  · have hsub := sizeSub_add_modEq (a := cache.activeSize) (b := 1) (by decide)
    simpa [hca, hsz] using hsub
  · exact sizeSub_lt h.deepSize_lt
  · have hsub := sizeSub_add_modEq (a := cache.deepSize) (b := 1) (by decide)
    simpa [hd, hsz] using hsub

lemma Represents.removeLatestRoot (h : Represents rootOf cache map) (hhist : map.content[id]? = some history)
    {removedRoot currentRoot : RootNamespace} (hroots : history.roots = removedRoot :: currentRoot :: rest)
    (hok : cache.removeRoot id = .ok cache') : ∃ map', Represents rootOf cache' map' := by
  obtain ⟨rfl, hs⟩ := h.sound id history hhist
  simp only [removeRoot, h.findConst, hhist, hroots] at hok
  cases hok
  have hnew : RootNamespaceHistory.Sound rootOf { history with roots := currentRoot :: rest } := by
    refine hs.of_infix ?_ (List.cons_ne_nil _ _)
    rw [hroots]
    exact (List.suffix_cons _ _).isInfix
  have hrem : removedRoot ∈ history.roots := by simp [hroots]
  have hcu : currentRoot ∈ history.roots := by simp [hroots]
  have hca := hs.card_activeIds hroots
  have hca' := hnew.card_activeIds rfl
  have hde : history.deepCount =
      1 + removedRoot.children.size + deepCount { history with roots := currentRoot :: rest } :=
    deepCount_of_roots hroots
  have hd := sizeSub_add_modEq (a := cache.deepSize) (b := 1 + removedRoot.children.size)
    (by have := hs.size_lt hrem; omega)
  have hs' : ∀ history', some { history with roots := currentRoot :: rest } = some history' →
      history'.id = history.id ∧ history'.Sound rootOf := by
    rintro _ ⟨rfl⟩
    exact ⟨rfl, hnew⟩
  by_cases ho : removedRoot.owner = currentRoot.owner
  · have hsh : removedRoot.children = currentRoot.children := by
      have hsh := hs.shared
      rw [hroots] at hsh
      exact (List.isChain_cons_cons.mp hsh).1 ho
    have hact : activeIds { history with roots := currentRoot :: rest } = history.activeIds := by
      rw [activeIds_of_roots hroots, hsh]
      rfl
    simp only [ho, ne_eq, not_true_eq_false, if_false]
    refine h.modify hhist (fun history => { history with roots := currentRoot :: rest }) rfl
      ⟨hs', h.paths, fun _ _ => Iff.rfl, ?_, h.activeSize_lt, ?_, sizeSub_lt h.deepSize_lt, ?_⟩
    · intro c hc
      simp [h.contains_iff_active hhist hc, hact]
    · simp only [elim_some, hact]
      rfl
    · simp only [elim_some, hde, Nat.ModEq] at hd ⊢
      omega
  · obtain ⟨hp, hcon⟩ := holds_removeAll removedRoot.children h.paths
    have hchs : ∀ (c : NamespaceId) (child : NamespaceChild), currentRoot.children[c]? = some child →
        child.1.head? = some (rootOf c) := by
      intro c child hch
      have hc : c ∈ currentRoot.children := mem_keySet.mp (mem_keySet_iff.mpr ⟨child, hch⟩)
      rw [(hs.child_root currentRoot hcu c hc).1]
      exact hs.child_path currentRoot hcu c child hch
    obtain ⟨hp', hcon'⟩ := holds_addAll currentRoot.children
      { cache with namespaceById := cache.removeAll removedRoot.children } hp hchs
    simp only [ne_eq, ho, not_false_eq_true, if_true]
    refine h.modify hhist (fun history => { history with roots := currentRoot :: rest }) rfl
      ⟨hs', hp', ?_, ?_, addAmount_lt, ?_, sizeSub_lt h.deepSize_lt, ?_⟩
    · intro c hc
      refine (hcon' c).trans ((or_congr Iff.rfl (hcon c)).trans ?_)
      have hr := fun hch => (hs.child_root removedRoot hrem c hch).1
      have hcr := fun hch => (hs.child_root currentRoot hcu c hch).1
      tauto
    · intro c hc
      refine (hcon' c).trans ((or_congr Iff.rfl (hcon c)).trans ?_)
      rw [h.contains_iff_active hhist hc, activeIds_of_roots hroots]
      have hnot : history.id ∉ removedRoot.children := hs.not_mem_children hrem
      simp only [some.injEq, exists_eq_left', activeIds, List.head?_cons, elim_some, mem_insert, mem_keySet]
      grind
    · have hsub := sizeSub_add_modEq (a := cache.activeSize) (hs.size_lt hrem).le
      simp only [elim_some, hca, hca', Nat.ModEq, addAmount] at hsub ⊢
      omega
    · simp only [elim_some, hde, Nat.ModEq] at hd ⊢
      omega

end

end XpxChain.Caches
