import XpxChain.Caches.NamespaceFormat

/-! Loading a history returns what was saved. -/

namespace XpxChain.Caches

open Std Accounts Library OrderedContainers BinaryFormats RootNamespaceHistory Reads List

section

/-- The constructor accepts no other start and end; what is lost is a grace period. -/
def NamespaceLifetime.EndsWithoutGrace (lifetime : NamespaceLifetime) : Prop :=
  lifetime.start < lifetime.endHeight ∧ lifetime.endHeight < 2 ^ 64 ∧ lifetime.gracePeriodEnd = lifetime.endHeight

def IsChildPath (rootId : NamespaceId) (children : NamespaceChildren) (c : NamespaceId) (path : NamespacePath) : Prop :=
  path = [rootId, c] ∨ ∃ x, path = [rootId, x, c] ∧ x ≠ 0 ∧
    (x = rootId ∨ ∃ parent, children[x]? = some parent ∧ parent.1 = [rootId, x])

structure StorableChildren (rootId : NamespaceId) (children : NamespaceChildren) : Prop where
  few : children.size < 2 ^ 32
  ids : ∀ c ∈ children, c ≠ 0 ∧ c ≠ rootId
  paths : ∀ (c : NamespaceId) (child : NamespaceChild), children[c]? = some child →
    IsChildPath rootId children c child.1

structure RootNamespaceHistory.Storable (history : RootNamespaceHistory) : Prop where
  lifetimes : ∀ root ∈ history.roots, root.lifetime.EndsWithoutGrace
  children : ∀ root ∈ history.roots, StorableChildren history.id root.children

variable {rootId : NamespaceId} {root : RootNamespace} {older : List RootNamespace}
  {children : NamespaceChildren}

lemma NamespaceLifetime.EndsWithoutGrace.create_eq {lifetime : NamespaceLifetime} (h : lifetime.EndsWithoutGrace) :
    NamespaceLifetime.create lifetime.start lifetime.endHeight 0 = some lifetime := by
  obtain ⟨hs, hend, hg⟩ := h
  have hsa : (if lifetime.endHeight = 2 ^ 64 - 1 then lifetime.endHeight else (lifetime.endHeight + 0) % 2 ^ 64) =
      lifetime.endHeight := by
    rw [Nat.add_zero, Nat.mod_eq_of_lt hend, ite_self]
  rw [create, hsa, if_neg (Nat.not_le.mpr hs), if_neg (Nat.lt_irrefl _)]
  cases lifetime
  cases hg
  rfl

lemma reads_namespaceId (id : NamespaceId) : Reads loadNamespaceId (saveNamespaceId id) id := by
  refine (readNumber (id.isLt.trans_eq (by norm_num))).bind_done ?_
  rw [Fin.ofNat_val_eq_self]
  exact .pure id

lemma reads_alias (namespaceAlias : NamespaceAlias) : Reads loadAlias (saveAlias namespaceAlias) namespaceAlias := by
  cases namespaceAlias with
  | none => exact (Reads.readNumber (by decide)).bind_done (.pure _)
  | mosaic mosaicId =>
    refine (Reads.readNumber (by decide)).bind ((Reads.readNumber (mosaicId.isLt.trans_eq (by norm_num))).bind_done ?_)
    rw [Fin.ofNat_val_eq_self]
    exact .pure _
  | address address =>
    refine (Reads.readNumber (by decide)).bind ((Reads.readNumber (address.isLt.trans_eq (by norm_num))).bind_done ?_)
    rw [Fin.ofNat_val_eq_self]
    exact .pure _

lemma reads_path {parts : List NamespaceId} (hlen : parts.length ≤ 2) (hp : 0 ∉ parts) :
    Reads (loadPath rootId) (savePath (rootId :: parts)) (rootId :: parts) := by
  have hf : (parts ++ replicate (2 - parts.length) 0).foldlM
      (fun t (part : NamespaceId) => some (if part = 0 then t else t ++ [part])) [] = some parts := by
    have hne : ∀ part ∈ parts, part ≠ 0 := fun part hpa heq => hp (heq ▸ hpa)
    match parts, hlen, hne with
    | [], _, _ => rfl
    | [a], _, hne => simp [hne a]
    | [a, b], _, hne => simp [hne a, hne b]
  have hcnt : (parts ++ replicate (2 - parts.length) (0 : NamespaceId)).length = NamespacePath.maxDepth - 1 := by
    simp [NamespacePath.maxDepth]
    omega
  have hs : savePath (rootId :: parts) = (parts ++ replicate (2 - parts.length) 0).flatMap saveNamespaceId := by
    simp [savePath, NamespacePath.maxDepth, show 3 - (parts.length + 1) = 2 - parts.length by omega]
  rw [hs]
  refine bind_done (hcnt ▸ repeatRead ?_ hf) (.pure _)
  intro part _ t t' ht
  cases ht
  exact (reads_namespaceId part).bind_done (.pure _)

lemma StorableChildren.reads_path (h : StorableChildren rootId children) {c : NamespaceId} {child : NamespaceChild}
    (hch : children[c]? = some child) : child.1.id = c ∧ Reads (loadPath rootId) (savePath child.1) child.1 := by
  have hc : c ≠ 0 := (h.ids c (mem_keySet.mp (mem_keySet_iff.mpr ⟨_, hch⟩))).1
  rcases h.paths c child hch with hp | ⟨x, hp, hx, -⟩
  · rw [hp]
    exact ⟨rfl, Caches.reads_path (by simp) (by simp [hc.symm])⟩
  · rw [hp]
    exact ⟨rfl, Caches.reads_path (by simp) (by simp [hc.symm, hx.symm])⟩

lemma StorableChildren.mem_sortedChildPaths (h : StorableChildren rootId root.children) {path : NamespacePath} :
    path ∈ root.sortedChildPaths ↔ ∃ childAlias, root.children[path.id]? = some (path, childAlias) := by
  simp only [RootNamespace.sortedChildPaths, mem_ascending, mem_toFinset, mem_map, Prod.exists,
    ExtTreeMap.mem_toList_iff_getElem?_eq_some]
  constructor
  · rintro ⟨c, path, childAlias, hch, rfl⟩
    obtain rfl := (h.reads_path hch).1
    exact ⟨childAlias, hch⟩
  · rintro ⟨childAlias, hch⟩
    exact ⟨path.id, path, childAlias, hch, rfl⟩

lemma RootNamespace.length_sortedChildPaths_le (root : RootNamespace) :
    root.sortedChildPaths.length ≤ root.children.size := by
  rw [sortedChildPaths, length_ascending, ← ExtTreeMap.length_toList]
  exact (toFinset_card_le _).trans_eq (length_map _)

def RootNamespace.childAt (root : RootNamespace) (path : NamespacePath) : NamespaceChild :=
  (root.children[path.id]?).getD (path, .none)

lemma StorableChildren.childAt_eq (h : StorableChildren rootId root.children) {path : NamespacePath}
    (hp : path ∈ root.sortedChildPaths) :
    root.children[path.id]? = some (root.childAt path) ∧ (root.childAt path).1 = path := by
  obtain ⟨childAlias, hch⟩ := h.mem_sortedChildPaths.mp hp
  rw [RootNamespace.childAt, hch]
  exact ⟨rfl, rfl⟩

def saveChildData (child : NamespaceChild) : Bytes := savePath child.1 ++ saveAlias child.2

section

variable (h : StorableChildren rootId root.children)
include h

lemma StorableChildren.saveChild_eq {path : NamespacePath}
    (hp : path ∈ root.sortedChildPaths) : saveChild rootId root path = some (saveChildData (root.childAt path)) := by
  obtain ⟨hch, hs⟩ := h.childAt_eq hp
  have hid := (h.ids path.id (mem_keySet.mp (mem_keySet_iff.mpr ⟨_, hch⟩))).2
  rw [saveChild, RootNamespace.alias, if_neg hid.symm, hch, saveChildData, hs]
  rfl

lemma StorableChildren.saveChildren_eq :
    saveChildren rootId root = some (littleEndian 8 (root.sortedChildPaths.map root.childAt).length ++
      (root.sortedChildPaths.map root.childAt).flatMap saveChildData) := by
  have hall : ∀ paths ⊆ root.sortedChildPaths,
      paths.mapM (saveChild rootId root) = some ((paths.map root.childAt).map saveChildData) := by
    intro paths hp
    induction paths with
    | nil => rfl
    | cons path paths ih =>
      rw [mapM_cons, h.saveChild_eq (hp mem_cons_self), ih fun _ hmem => hp (mem_cons_of_mem _ hmem)]
      rfl
  rw [saveChildren, hall _ (List.Subset.refl _), length_map]
  rfl

lemma StorableChildren.reads_children :
    Reads (loadChildren rootId (root.sortedChildPaths.map root.childAt).length)
      ((root.sortedChildPaths.map root.childAt).flatMap saveChildData) (root.sortedChildPaths.map root.childAt) := by
  have hfew : (root.sortedChildPaths.map root.childAt).length < 2 ^ 32 := by
    rw [length_map]
    exact root.length_sortedChildPaths_le.trans_lt h.few
  rw [loadChildren, loadEach, if_pos hfew]
  apply repeatRead_append
  intro child hch t
  obtain ⟨path, hp, rfl⟩ := mem_map.mp hch
  exact (h.reads_path (h.childAt_eq hp).1).2.bind ((reads_alias _).bind_done (.pure _))

end

def historyWith (rootId : NamespaceId) (root : RootNamespace) (older : List RootNamespace)
    (children : NamespaceChildren) : RootNamespaceHistory :=
  { id := rootId, roots := { root with children } :: older }

/-- The children are those of the root with the paths that have been read. -/
def AddedUpTo (root : RootNamespace) (done : List NamespacePath) (children : NamespaceChildren) : Prop :=
  ∀ (c : NamespaceId) (child : NamespaceChild),
    children[c]? = some child ↔ root.children[c]? = some child ∧ child.1 ∈ done

section

variable {path : NamespacePath} {paths done : List NamespacePath} {children : NamespaceChildren}
  (h : StorableChildren rootId root.children) (hdo : root.sortedChildPaths = done ++ path :: paths)
  (hchs : AddedUpTo root done children)
include hdo

lemma pairwise_sortedChildPaths : done.Pairwise (compare · · = .lt) ∧ (path :: paths).Pairwise (compare · · = .lt) ∧
    ∀ a ∈ done, ∀ b ∈ path :: paths, compare a b = .lt := by
  have hsr := pairwise_ascending (root.children.toList.map fun child => child.2.1).toFinset
  rwa [← RootNamespace.sortedChildPaths, hdo, pairwise_append] at hsr

include h hchs

lemma StorableChildren.not_mem_of_addedUpTo : path.id ∉ children := by
  intro hmem
  obtain ⟨hch, hsa⟩ := h.childAt_eq (show path ∈ root.sortedChildPaths by simp [hdo])
  obtain ⟨child, hso⟩ := mem_keySet_iff.mp (mem_keySet.mpr hmem)
  obtain ⟨hso, hbef⟩ := (hchs _ child).mp hso
  rw [hch] at hso
  cases hso
  rw [hsa] at hbef
  have hlt := (pairwise_sortedChildPaths hdo).2.2 path hbef path mem_cons_self
  simp at hlt

lemma StorableChildren.parent_of_addedUpTo : path.parentId = rootId ∨
    ∃ parent, children[path.parentId]? = some parent ∧ parent.1.length = path.length - 1 := by
  obtain ⟨hch, hsa⟩ := h.childAt_eq (show path ∈ root.sortedChildPaths by simp [hdo])
  rcases h.paths _ _ hch with hd | ⟨x, hb, -, rfl | ⟨parent, hso, hpar⟩⟩
  · rw [hsa] at hd
    exact .inl (by rw [hd]; rfl)
  · rw [hsa] at hb
    exact .inl (by rw [hb]; rfl)
  · obtain ⟨c, hb⟩ : ∃ c, path = [rootId, x, c] := ⟨_, hsa.symm.trans hb⟩
    have hmem : parent.1 ∈ root.sortedChildPaths :=
      h.mem_sortedChildPaths.mpr ⟨parent.2, by rw [(h.reads_path hso).1]; exact hso⟩
    have hbef : parent.1 ∈ done := by
      rw [hdo, mem_append] at hmem
      refine hmem.resolve_right fun ha => ?_
      rcases mem_cons.mp ha with heq | ha
      · simp [hpar, hb] at heq
      · have hlt := (pairwise_cons.mp (pairwise_sortedChildPaths hdo).2.1).1 _ ha
        rw [hpar, hb] at hlt
        simp at hlt
    refine .inr ⟨parent, ?_, ?_⟩
    · rw [show path.parentId = x by rw [hb]; rfl, hchs]
      exact ⟨hso, hbef⟩
    · rw [hpar, hb]
      rfl

end

section

variable (howner : ∀ last ∈ older.head?, last.owner ≠ root.owner)
include howner

lemma modifyChildren_historyWith (change : NamespaceChildren → NamespaceChildren) :
    (historyWith rootId root older children).modifyChildren change =
      historyWith rootId root older (change children) := by
  cases older with
  | nil => simp [modifyChildren, historyWith]
  | cons last older => simp [modifyChildren, historyWith, howner last rfl]

lemma addChild_historyWith {child : NamespaceChild} (hnew : child.1.id ∉ children) (hid : child.1.id ≠ rootId)
    (hpar : child.1.parentId = rootId ∨ ∃ parent, children[child.1.parentId]? = some parent ∧
      parent.1.length = child.1.length - 1) :
    (historyWith rootId root older children).addChild child =
      some (historyWith rootId root older (children.insert child.1.id child)) := by
  have hadd : (historyWith rootId root older children).add child.1 child.1.id child.1.parentId =
      .ok (historyWith rootId root older (children.insert child.1.id (child.1, .none))) := by
    rw [← modifyChildren_historyWith howner (·.insert child.1.id (child.1, .none))]
    simp only [add, historyWith, if_neg hnew]
    rcases hpar with hr | ⟨parent, hs, hlen⟩
    · simp [hr]
      rfl
    · simp [hs, hlen]
      rfl
  have hset : (historyWith rootId root older (children.insert child.1.id (child.1, .none))).setAlias
      child.1.id child.2 =
      .ok (historyWith rootId root older (children.insert child.1.id child)) := by
    have ht : (children.insert child.1.id (child.1, NamespaceAlias.none)).insert child.1.id child =
        children.insert child.1.id child := by
      ext c
      simp only [ExtTreeMap.getElem?_insert]
      split_ifs <;> rfl
    rw [← ht, ← modifyChildren_historyWith howner (·.insert child.1.id child)]
    simp [setAlias, historyWith, hid.symm]
  rw [addChild, hadd]
  exact congrArg Except.toOption hset

lemma StorableChildren.foldlM_addChild (h : StorableChildren rootId root.children) :
    (root.sortedChildPaths.map root.childAt).foldlM RootNamespaceHistory.addChild (historyWith rootId root older ∅) =
      some { id := rootId, roots := root :: older } := by
  -- The induction is on the paths that are left; the children so far are those with the paths before.
  suffices hs : ∀ (paths done : List NamespacePath) (children : NamespaceChildren),
      root.sortedChildPaths = done ++ paths → AddedUpTo root done children →
        (paths.map root.childAt).foldlM addChild (historyWith rootId root older children) =
          some { id := rootId, roots := root :: older } from
    hs _ [] ∅ rfl (by simp [AddedUpTo])
  intro paths
  induction paths with
  | nil =>
    intro done children hdo hchs
    have hall : children = root.children := by
      ext c child
      rw [hchs]
      refine and_iff_left_of_imp fun hch => ?_
      have hid := (h.reads_path hch).1
      rw [← append_nil done, ← hdo, h.mem_sortedChildPaths, hid]
      exact ⟨child.2, hch⟩
    rw [hall]
    rfl
  | cons path paths ih =>
    intro done children hdo hchs
    obtain ⟨hch, hsa⟩ := h.childAt_eq (show path ∈ root.sortedChildPaths by simp [hdo])
    have hnew := h.not_mem_of_addedUpTo hdo hchs
    have hpar := h.parent_of_addedUpTo hdo hchs
    rw [map_cons, foldlM_cons, addChild_historyWith howner (by rwa [hsa])
      (by rw [hsa]; exact (h.ids _ (mem_keySet.mp (mem_keySet_iff.mpr ⟨_, hch⟩))).2) (by rwa [hsa])]
    refine ih (done ++ [path]) _ (by simp [hdo]) fun c child => ?_
    rw [ExtTreeMap.getElem?_insert, hsa]
    split_ifs with hc
    · obtain rfl := Std.compare_eq_iff_eq.mp hc
      rw [hch]
      constructor
      · rintro ⟨rfl⟩
        exact ⟨rfl, by simp [hsa]⟩
      · exact And.left
    · rw [hchs, mem_append, mem_singleton]
      refine and_congr_right fun hso => (or_iff_left ?_).symm
      rintro rfl
      exact hc (Std.compare_eq_iff_eq.mpr (h.reads_path hso).1)

end

lemma reads_rootNamespace (hl : root.lifetime.EndsWithoutGrace) (h : StorableChildren rootId root.children)
    (hs : ∀ last ∈ older.head?, root.owner = last.owner → root.children = last.children) :
    ∃ bytes, saveRootNamespace rootId root (older.head?.map (·.owner)) = some bytes ∧
      Reads (loadRootNamespace { id := rootId, roots := older }) bytes { id := rootId, roots := root :: older } := by
  -- What is read in front of the children does not depend on them.
  have hf : ∀ (before : NamespaceChildren) {childBytes : Bytes},
      (∃ firstAlias, pushBack { id := rootId, roots := older } root.owner root.lifetime false =
        historyWith rootId { root with rootAlias := firstAlias } older before) →
      Reads (do
        let numChildren ← readNumber 8
        let children ← loadChildren rootId numChildren
        liftM (children.foldlM addChild (historyWith rootId root older before))) childBytes
          { id := rootId, roots := root :: older } →
      Reads (loadRootNamespace { id := rootId, roots := older }) (littleEndian 32 root.owner.val ++
        (littleEndian 8 root.lifetime.start ++
          (littleEndian 8 root.lifetime.endHeight ++ (saveAlias root.rootAlias ++ childBytes))))
        { id := rootId, roots := root :: older } := by
    rintro before childBytes ⟨firstAlias, hp⟩ hchs
    have hend : root.lifetime.endHeight < 256 ^ 8 := hl.2.1.trans_eq (by norm_num)
    have hset : (historyWith rootId { root with rootAlias := firstAlias } older before).setAlias rootId root.rootAlias =
        .ok (historyWith rootId root older before) := by
      simp [setAlias, historyWith]
    refine (readNumber (root.owner.isLt.trans_eq (by norm_num))).bind ?_
    refine (readNumber (hl.1.trans hend)).bind ((readNumber hend).bind ?_)
    refine lift_bind hl.create_eq ?_
    rw [Fin.ofNat_val_eq_self, hp]
    exact (reads_alias _).bind (.lift_bind (congrArg Except.toOption hset) hchs)
  rw [saveRootNamespace]
  by_cases hsa : older.head?.map (·.owner) = some root.owner
  · rw [if_pos hsa]
    refine ⟨_, rfl, hf root.children ⟨.none, ?_⟩ ?_⟩
    · obtain ⟨last, hla, howner⟩ := Option.map_eq_some_iff.mp hsa
      obtain ⟨older, rfl⟩ : ∃ rest, older = last :: rest := head?_eq_some_iff.mp hla
      rw [pushBack_of_owner rfl howner, hs last rfl howner.symm, ← howner]
      rfl
    · refine bind_done (.readNumber (by decide)) ?_
      exact .pure _
  · rw [if_neg hsa, h.saveChildren_eq]
    have hoth : ∀ last ∈ older.head?, last.owner ≠ root.owner := fun last hla howner =>
      hsa (by rw [Option.mem_def.mp hla, Option.map_some, howner])
    refine ⟨_, rfl, hf ∅ ⟨.none, ?_⟩ ?_⟩
    · cases older with
      | nil => rfl
      | cons last older => exact pushBack_of_other rfl (hoth last rfl)
    · have hfew : (root.sortedChildPaths.map root.childAt).length < 256 ^ 8 := by
        rw [length_map]
        exact (root.length_sortedChildPaths_le.trans_lt h.few).trans (by norm_num)
      exact (readNumber hfew).bind (h.reads_children.bind_done (.lift (h.foldlM_addChild hoth)))

theorem RootNamespaceHistory.Storable.reads_load {history : RootNamespaceHistory} (h : history.Storable)
    (hsh : history.roots.length < 2 ^ 32)
    (hs : history.roots.IsChain fun newer older => newer.owner = older.owner → newer.children = older.children) :
    ∃ bytes, history.save = some bytes ∧ Reads RootNamespaceHistory.load bytes history := by
  obtain ⟨id, roots⟩ := history
  have hro : ∃ bytes, saveRoots id roots = some bytes ∧
      Reads (repeatRead loadRootNamespace roots.length { id }) bytes { id, roots } := by
    obtain ⟨hl, hchs⟩ := h
    clear hsh
    induction roots with
    | nil => exact ⟨[], rfl, .pure _⟩
    | cons root older ih =>
      rw [forall_mem_cons] at hl hchs
      rw [isChain_cons] at hs
      obtain ⟨bytes, hsv, hre⟩ := ih hs.2 hl.2 hchs.2
      obtain ⟨rootBytes, hsa, hr⟩ := reads_rootNamespace hl.1 hchs.1 hs.1
      refine ⟨bytes ++ rootBytes, ?_, Reads.repeatRead_succ hre hr⟩
      rw [saveRoots, hsv, show saveRootNamespace id root _ = _ from hsa]
      rfl
  obtain ⟨bytes, hsv, hre⟩ := hro
  have hlo : Reads (loadEach loadRootNamespace roots.length { id }) bytes { id, roots } := by
    rwa [loadEach, if_pos hsh]
  refine ⟨_, by rw [save, hsv]; rfl, ?_⟩
  refine (Reads.readNumber (by decide)).bind ((Reads.readNumber (hsh.trans (by norm_num))).bind ?_)
  exact (reads_namespaceId id).bind hlo

end

end XpxChain.Caches
