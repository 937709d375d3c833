import XpxChain.Caches.TreeUpdates

/-! The merkle root of a cache, which is updated with the elements that were marked since the last update. -/

namespace XpxChain.Caches

open Std DeltaSet Library Patricia BaseSetDelta ExtTreeMap

section

variable {κ α H : Type} [Ord κ] [TransOrd κ] [LawfulEqOrd κ] [DecidableEq H] {encoder : Encoder κ α H}
  {hasher : Hasher H} {n : ℕ} {delta : PatriciaTreeDelta κ α H} {original content : ExtTreeMap κ α}

structure Agrees (encoder : Encoder κ α H) (known : κ → Prop) (map : TreeNodePath → Option H)
    (content : ExtTreeMap κ α) : Prop where
  value : ∀ key, known key → map (encoder.encodeKey key) = content[key]?.map encoder.encodeValue
  other : ∀ path, (∀ key, encoder.encodeKey key ≠ path) → map path = none

def Marked (set : BaseSetDelta κ α) : Prop :=
  ∀ key ∈ set.keyGenerationIdMap, key ∈ set.added ∨ key ∈ set.copied ∨ key ∈ set.removed

structure Tracks (encoder : Encoder κ α H) (hasher : Hasher H) (n : ℕ) (delta : PatriciaTreeDelta κ α H)
    (content : ExtTreeMap κ α) : Prop where
  encodes : delta.set.toDeltaElements.Encodes delta.set.originalElements content
  marked : Marked delta.set
  generation : delta.nextGenerationId = delta.set.generationId
  backup : delta.set.backup = []
  tree : ∃ contents, Holds hasher n delta.tree contents ∧
    Agrees encoder (fun key => delta.set.keyGenerationIdMap[key]? ≠ some delta.set.generationId) contents.delta content

def Touches (set set' : BaseSetDelta κ α) (key : κ) : Prop :=
  set' = set ∨ set'.generationId = set.generationId ∧
    set'.keyGenerationIdMap = set.keyGenerationIdMap.insert key set.generationId

omit [LawfulEqOrd κ] in
lemma touches_insert (set : BaseSetDelta κ α) (key : κ) (element : α) : Touches set (set.insert key element).1 key := by
  right
  by_cases hrem : key ∈ set.removed
  · by_cases ha : key ∈ set.added <;> simp [BaseSetDelta.insert, BaseSetDelta.markKey, hrem, ha]
  · by_cases ho : key ∈ set.originalElements <;> simp [BaseSetDelta.insert, BaseSetDelta.markKey, hrem, ho]

omit [LawfulEqOrd κ] in
lemma touches_remove (set : BaseSetDelta κ α) (key : κ) : Touches set (set.remove key).1 key := by
  unfold remove markKey
  by_cases hrem : key ∈ set.removed
  · exact .inl (by rw [if_pos hrem])
  · rw [if_neg hrem]
    cases set.copied[key]? with
    | some element => exact .inr ⟨rfl, rfl⟩
    | none =>
      cases set.added[key]? with
      | some element => exact .inr ⟨rfl, rfl⟩
      | none =>
        cases set.originalElements[key]? with
        | some element => exact .inr ⟨rfl, rfl⟩
        | none => exact .inl rfl

omit [LawfulEqOrd κ] in
lemma touches_find (set : BaseSetDelta κ α) (key : κ) (change : α → α) : Touches set (set.find key change).1 key := by
  unfold find markKey
  by_cases hrem : key ∈ set.removed
  · exact .inl (by rw [if_pos hrem])
  · rw [if_neg hrem]
    cases set.copied[key]? with
    | some element => exact .inr ⟨rfl, rfl⟩
    | none =>
      cases set.originalElements[key]? with
      | some element => exact .inr ⟨rfl, rfl⟩
      | none =>
        cases set.added[key]? with
        | some element => exact .inr ⟨rfl, rfl⟩
        | none => exact .inl rfl

variable {set : BaseSetDelta κ α} {content' : ExtTreeMap κ α} {key : κ}

omit [LawfulEqOrd κ] in
lemma marked_insert (h : Marked set) (key : κ) (element : α) : Marked (set.insert key element).1 := by
  unfold Marked at *
  simp only [BaseSetDelta.insert, BaseSetDelta.markKey]
  split_ifs <;> grind

omit [LawfulEqOrd κ] in
lemma marked_remove (h : Marked set) (key : κ) : Marked (set.remove key).1 := by
  unfold Marked at *
  unfold remove markKey
  split_ifs
  · exact h
  · split
    · grind
    · split
      · grind
      · split <;> grind

omit [LawfulEqOrd κ] in
lemma marked_find (h : Marked set) (key : κ) (change : α → α) : Marked (set.find key change).1 := by
  unfold Marked at *
  unfold find markKey
  split_ifs
  · exact h
  · split
    · grind
    · split
      · grind
      · split <;> grind

lemma encodes_unique {original content : ExtTreeMap κ α} {e : DeltaElements κ α} (h : e.Encodes original content)
    (h' : e.Encodes original content') : content = content' := by
  apply ext_getElem?
  intro key
  rw [← h.value_eq, h'.value_eq]

lemma Tracks.touch (h : Tracks encoder hasher n delta content)
    (hf : set = { delta.set with toDeltaElements := set.toDeltaElements })
    (he : set.toDeltaElements.Encodes delta.set.originalElements content') (hm : Marked set)
    (ht : Touches delta.set set key) (hs : ∀ other ≠ key, content'[other]? = content[other]?) :
    Tracks encoder hasher n { delta with set := set } content' := by
  obtain rfl | ⟨hg, hmap⟩ := ht
  · rw [encodes_unique he h.encodes]
    exact h
  · obtain ⟨contents, hh, ha⟩ := h.tree
    have ho : set.originalElements = delta.set.originalElements := by rw [hf]
    have hb : set.backup = [] := by rw [hf, h.backup]
    refine ⟨by rwa [ho], hm, h.generation.trans hg.symm, hb, contents, hh,
      fun other hoth => ?_, ha.other⟩
    rw [hmap, hg] at hoth
    by_cases hkey : other = key
    · subst hkey
      simp at hoth
    · rw [hs other hkey]
      apply ha.value
      grind

omit [LawfulEqOrd κ] in
lemma Tracks.needsApplication (h : Tracks encoder hasher n delta content)
    (hkey : delta.set.keyGenerationIdMap[key]? = some delta.set.generationId) :
    needsApplication delta.set delta.nextGenerationId key := by
  simp [Caches.needsApplication, keyGenerationId, hkey, h.generation]

section

variable (hfree : hasher.CollisionFree) (hencoder : encoder.Valid n) (h : Tracks encoder hasher n delta content)
  (order : IterationOrder κ α) (height : ℕ)
include hfree hencoder h

lemma Tracks.applyDeltasToTree :
    ∃ contents, Holds hasher n
        (applyDeltasToTree encoder alwaysActive hasher order delta.set delta.nextGenerationId height delta.tree)
          contents ∧ Agrees encoder (fun _ => True) contents.delta content := by
  obtain ⟨contents, hh, ha⟩ := h.tree
  have hmod := handles_modification encoder height
  have hrmv := handles_removal encoder
  refine ⟨_, holds_run hfree (keyLength_modifications hencoder hrmv) (holds_run hfree
    (keyLength_modifications hencoder hmod) (holds_run hfree (keyLength_modifications hencoder hmod) hh)),
    fun key _ => ?_, fun path hp => ?_⟩
  · rw [run_modifications hencoder hrmv, run_modifications hencoder hmod, run_modifications hencoder hmod]
    have hv := h.encodes.value_eq key
    rw [DeltaElements.value] at hv
    by_cases hn : Caches.needsApplication delta.set delta.nextGenerationId key
    · simp only [if_pos hn]
      -- the sets overlap, and the last of the three loops that has the key decides
      cases hrem : delta.set.removed[key]? with
      | some element =>
        rw [if_pos (by grind)] at hv
        rw [← hv]
        rfl
      | none =>
        rw [if_neg (by grind)] at hv
        rw [← hv]
        cases hc : delta.set.copied[key]? with
        | some element => rfl
        | none =>
          cases had : delta.set.added[key]? with
          | some element =>
            have hnew : delta.set.originalElements[key]? = none := by
              have := h.encodes.added_new key (by grind)
              grind
            rw [hnew]
            rfl
          | none =>
            rw [hc, had] at hv
            rw [ha.value key, ← hv]
            intro hm
            have := h.marked key (by grind)
            grind
    · simp only [if_neg hn]
      exact ha.value key fun hm => hn (h.needsApplication hm)
  · rw [run_modifications_of_not_key hrmv hp, run_modifications_of_not_key hmod hp,
      run_modifications_of_not_key hmod hp, ha.other path hp]

lemma Tracks.updateMerkleRoot :
    ∃ contents, Holds hasher n (delta.updateMerkleRoot encoder alwaysActive hasher order height).tree contents ∧
      Agrees encoder (fun _ => True) contents.delta content := by
  obtain ⟨contents, hh, ha⟩ := h.applyDeltasToTree hfree hencoder order height
  exact ⟨contents, (hh.setCheckpoint hfree).1, ha⟩

end

def nextContent (content : ExtTreeMap κ α) : StateOperation κ α → ExtTreeMap κ α
  | .insert key element => content.insert key element
  | .remove key => content.erase key
  | .find key change => content.modify key change
  | .updateMerkleRoot _ _ => content

section

variable (hfree : hasher.CollisionFree) (hencoder : encoder.Valid n) (h : Tracks encoder hasher n delta content)
include hfree hencoder h

theorem Tracks.next (op : StateOperation κ α) :
    Tracks encoder hasher n (delta.next encoder alwaysActive hasher op) (nextContent content op) := by
  cases op with
  | insert key element =>
    refine h.touch (insert_frame _ _ _) (h.encodes.insert key element) (marked_insert h.marked _ _)
      (touches_insert _ key _) fun other hoth => ?_
    grind [nextContent]
  | remove key =>
    refine h.touch (remove_frame _ _) (h.encodes.remove key) (marked_remove h.marked _) (touches_remove _ key)
      fun other hoth => ?_
    grind [nextContent]
  | find key change =>
    refine h.touch (find_frame _ _ _) (h.encodes.find key change) (marked_find h.marked _ _) (touches_find _ key _)
      fun other hoth => ?_
    rw [nextContent]
    grind
  | updateMerkleRoot order height =>
    obtain ⟨contents, hh, ha⟩ := h.updateMerkleRoot hfree hencoder order height
    exact ⟨h.encodes, h.marked, rfl, h.backup, contents, hh, fun key _ => ha.value key trivial, ha.other⟩

theorem tracks_run (ops : List (StateOperation κ α)) :
    Tracks encoder hasher n (Runs.run (PatriciaTreeDelta.next encoder alwaysActive hasher) delta ops)
      (Runs.run nextContent content ops) := by
  induction ops generalizing delta content with
  | nil => exact h
  | cons op ops ih => exact ih (h.next hfree hencoder op)

end

omit [Ord κ] [TransOrd κ] [LawfulEqOrd κ] [DecidableEq H] in
lemma keyLength_sets (hencoder : encoder.Valid n) (elements : List (κ × α)) :
    ∀ op ∈ elements.map fun pair => TreeOperation.set (encoder.encodeKey pair.1) (encoder.encodeValue pair.2),
      op.KeyLength n := by
  intro op hop
  obtain ⟨pair, -, rfl⟩ := List.mem_map.mp hop
  exact hencoder.length_eq pair.1

omit [DecidableEq H] [LawfulEqOrd κ] in
lemma agrees_build (hencoder : encoder.Valid n) (elements : List (κ × α)) (content : ExtTreeMap κ α)
    (hmem : ∀ pair, pair ∈ elements ↔ content[pair.1]? = some pair.2) :
    Agrees encoder (fun _ => True) (Runs.run Contents.next {}
      (elements.map fun pair => .set (encoder.encodeKey pair.1) (encoder.encodeValue pair.2))).delta content := by
  have hwr : ∀ op ∈ elements.map fun pair => TreeOperation.set (encoder.encodeKey pair.1) (encoder.encodeValue pair.2),
      IsWrite op := by
    intro op hop
    obtain ⟨pair, -, rfl⟩ := List.mem_map.mp hop
    trivial
  constructor
  · intro key _
    apply run_of_writes hwr
    · intro op hop value hw
      obtain ⟨pair, hp, rfl⟩ := List.mem_map.mp hop
      obtain ⟨hkey, rfl⟩ := hw
      obtain rfl := hencoder.injective hkey
      rw [(hmem pair).mp hp]
      rfl
    · cases he : content[key]? with
      | none => exact .inl rfl
      | some element =>
        right
        exact ⟨_, List.mem_map.mpr ⟨(key, element), (hmem (key, element)).mpr he, rfl⟩, rfl, rfl⟩
  · intro path hpa
    apply run_of_writes hwr
    · intro op hop value hw
      obtain ⟨pair, -, rfl⟩ := List.mem_map.mp hop
      exact absurd hw.1 (hpa pair.1)
    · exact .inl rfl

omit [DecidableEq H] [LawfulEqOrd κ] in
lemma agrees_unique {map map' : TreeNodePath → Option H} (h : Agrees encoder (fun _ => True) map content)
    (h' : Agrees encoder (fun _ => True) map' content) : map = map' := by
  funext path
  by_cases hkey : ∃ key, encoder.encodeKey key = path
  · obtain ⟨key, rfl⟩ := hkey
    rw [h.value key trivial, h'.value key trivial]
  · have hp : ∀ key, encoder.encodeKey key ≠ path := fun key heq => hkey ⟨key, heq⟩
    rw [h.other path hp, h'.other path hp]

lemma tracks_rebaseTree (hfree : hasher.CollisionFree) (hencoder : encoder.Valid n) {dataSource : DataSource H}
    (hval : dataSource.Valid hasher) (original : ExtTreeMap κ α) :
    Tracks encoder hasher n (rebaseTree encoder hasher dataSource original) original := by
  have hb := holds_run hfree (keyLength_sets hencoder original.toList) (holds_start hval)
  have ha := agrees_build hencoder original.toList original fun pair => mem_toList_iff_getElem?_eq_some
  refine ⟨encodes_empty original, fun key hkey => ?_, rfl, rfl, _, holds_run hfree ?_ hb, fun key _ =>
    ha.value key trivial, ha.other⟩
  · grind [rebaseTree, rebase]
  · simp [TreeOperation.KeyLength]

lemma Tracks.elements_perm [DecidableEq κ] (h : Tracks encoder hasher n delta content) :
    delta.set.elements.Perm content.toList := by
  have hr : Refines delta.set ⟨delta.set.originalElements, content, []⟩ :=
    ⟨rfl, h.encodes, by rw [h.backup]; exact .nil⟩
  exact hr.elements_perm

/-- The merkle root is the one of a tree that is built from scratch, in whatever orders the maps are iterated. -/
theorem merkle_root_eq_full [DecidableEq κ] (hasher : Hasher H) (hfree : hasher.CollisionFree) (encoder : Encoder κ α H)
    (n : ℕ) (hencoder : encoder.Valid n) (dataSource dataSource' : DataSource H) (hvalid : dataSource.Valid hasher)
    (hvalid' : dataSource'.Valid hasher) (original : ExtTreeMap κ α) (ops : List (StateOperation κ α))
    (order : IterationOrder κ α) (height : ℕ) :
    let delta := Runs.run (PatriciaTreeDelta.next encoder alwaysActive hasher)
      (rebaseTree encoder hasher dataSource original) (ops ++ [.updateMerkleRoot order height])
    ∀ elements, elements.Perm delta.set.elements →
      delta.tree.deltaRoot hasher = (buildTree encoder hasher dataSource' elements).deltaRoot hasher := by
  intro delta elements helements
  have htracks := tracks_run hfree hencoder (tracks_rebaseTree hfree hencoder hvalid original) ops
  obtain ⟨contents, hholds, hagrees⟩ := htracks.updateMerkleRoot hfree hencoder order height
  have hdelta : delta = (Runs.run (PatriciaTreeDelta.next encoder alwaysActive hasher)
      (rebaseTree encoder hasher dataSource original) ops).next encoder alwaysActive hasher
        (.updateMerkleRoot order height) := by
    simp only [delta, Runs.run, List.foldl_append, List.foldl_cons, List.foldl_nil]
  have hperm := (htracks.next hfree hencoder (.updateMerkleRoot order height)).elements_perm
  rw [← hdelta] at hperm
  have hbuilt := agrees_build hencoder elements _ fun pair =>
    (helements.trans hperm).mem_iff.trans mem_toList_iff_getElem?_eq_some
  have hroot := hholds.deltaRoot_eq
  change (PatriciaTreeDelta.next encoder alwaysActive hasher _ (.updateMerkleRoot order height)).tree.deltaRoot hasher =
    _ at hroot
  rw [← hdelta] at hroot
  rw [hroot, agrees_unique hagrees hbuilt]
  exact (holds_run hfree (keyLength_sets hencoder _) (holds_start hvalid')).deltaRoot_eq.symm

end

section

def nibbleEncoder : Encoder Nibble ℕ ℕ := ⟨fun key => [key], id⟩

def ascendingOrder : IterationOrder Nibble ℕ := ⟨ExtTreeMap.toList, fun _ => .refl _⟩

def descendingOrder : IterationOrder Nibble ℕ := ⟨fun elements => elements.toList.reverse, fun _ => List.reverse_perm _⟩

/-- An element that is added, removed and added again in three generations. -/
theorem merkle_root_eq_full_readded :
    let delta := Runs.run (PatriciaTreeDelta.next nibbleEncoder alwaysActive numbering)
      (rebaseTree nibbleEncoder numbering {} (ofList [((1 : Nibble), 10)]))
      ([.insert 2 20, .insert 3 30, .updateMerkleRoot descendingOrder 1, .remove 2, .updateMerkleRoot ascendingOrder 1,
        .insert 2 21, .find 1 (· + 1)] ++ [.updateMerkleRoot descendingOrder 2])
    delta.tree.deltaRoot numbering = (buildTree nibbleEncoder numbering {} delta.set.elements).deltaRoot numbering := by
  have hvalid : ({} : DataSource ℕ).Valid numbering := fun node hnode => absurd hnode List.not_mem_nil
  have hencoder : nibbleEncoder.Valid 1 := ⟨fun key key' h => List.singleton_injective h, fun key => rfl⟩
  exact merkle_root_eq_full numbering numbering_collisionFree nibbleEncoder 1 hencoder {}
    {} hvalid hvalid _ _ descendingOrder 2 _
    (.refl _)

end

end XpxChain.Caches
