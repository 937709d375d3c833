import XpxChain.Patricia.Denotation

/-! What is found in a data source after the nodes of a tree were saved. -/

namespace XpxChain.Patricia

open Library CompressedTries Trie TreeNode

variable {H : Type} [DecidableEq H] {hasher : Hasher H} {dataSource memory memory' memory'' backing : DataSource H}
  {node node' : TreeNode H} {t : Trie Nibble H} {hash : H}

/-- All nodes of the data source are nodes as they are saved. -/
def DataSource.Valid (hasher : Hasher H) (dataSource : DataSource H) : Prop :=
  ∀ node ∈ dataSource.nodes, Stored hasher node

lemma hash_of_get (h : dataSource.get hasher hash = some node) : node.hash hasher = hash := by
  have hf := List.find?_some h
  simpa using hf

lemma mem_of_get (h : dataSource.get hasher hash = some node) : node ∈ dataSource.nodes := List.mem_of_find?_eq_some h

lemma DataSource.Valid.source (h : dataSource.Valid hasher) : ValidSource hasher (dataSource.get hasher) :=
  ⟨fun _ _ => hash_of_get, fun _ _ hn => h _ (mem_of_get hn)⟩

lemma readThrough_eq_some : readThrough hasher memory backing hash = some node ↔
    memory.get hasher hash = some node ∨ memory.get hasher hash = none ∧ backing.get hasher hash = some node := by
  rw [readThrough, Option.orElse_eq_some]

lemma validSource_readThrough (hmemory : memory.Valid hasher) (hbacking : backing.Valid hasher) :
    ValidSource hasher (readThrough hasher memory backing) := by
  constructor
  · intro hash node h
    obtain h | ⟨-, h⟩ := readThrough_eq_some.mp h
    · exact hash_of_get h
    · exact hash_of_get h
  · intro hash node h
    obtain h | ⟨-, h⟩ := readThrough_eq_some.mp h
    · exact hmemory _ (mem_of_get h)
    · exact hbacking _ (mem_of_get h)

omit [DecidableEq H] in
lemma stored_eq_of_hash (hfree : hasher.CollisionFree) (h : Stored hasher node) (h' : Stored hasher node')
    (hh : node.hash hasher = node'.hash hasher) : node = node' := by
  cases node with
  | empty => exact h.elim
  | leaf path value =>
    cases node' with
    | empty => exact h'.elim
    | leaf path' value' =>
      obtain ⟨hkey, hv⟩ := hfree.injective _ _ _ _ hh
      rw [(encodeKey_injective hkey).1, List.singleton_injective hv]
    | branch path' links' linkedNodes' linkSet' =>
      cases (encodeKey_injective (hfree.injective _ _ _ _ hh).1).2
  | branch path links linkedNodes linkSet =>
    cases node' with
    | empty => exact h'.elim
    | leaf path' value' =>
      cases (encodeKey_injective (hfree.injective _ _ _ _ hh).1).2
    | branch path' links' linkedNodes' linkSet' =>
      obtain ⟨hn, hset⟩ := h
      obtain ⟨hn', hset'⟩ := h'
      obtain rfl : linkedNodes = fun _ => .empty := funext hn
      obtain rfl : linkedNodes' = fun _ => .empty := funext hn'
      obtain ⟨hkey, hl⟩ := hfree.injective _ _ _ _ hh
      have hl' : links = links' := List.ofFn_injective hl
      subst hl'
      have hli : linkSet = linkSet' := by
        ext index
        rw [hset, hset']
      rw [(encodeKey_injective hkey).1, hli]

lemma get_eq_of_mem (hfree : hasher.CollisionFree) (h : dataSource.Valid hasher) (hn : Stored hasher node)
    (hs : (dataSource.get hasher (node.hash hasher)).isSome) :
    dataSource.get hasher (node.hash hasher) = some node := by
  obtain ⟨node', hn'⟩ := Option.isSome_iff_exists.mp hs
  rw [hn', stored_eq_of_hash hfree (h _ (mem_of_get hn')) hn (hash_of_get hn')]

lemma get_set : (dataSource.set hasher node).get hasher hash =
    (dataSource.get hasher hash <|> if node.hash hasher = hash then some node else none) := by
  by_cases hs : (dataSource.get hasher (node.hash hasher)).isSome
  · rw [DataSource.set]
    split_ifs with hh
    · subst hh
      obtain ⟨node', hn'⟩ := Option.isSome_iff_exists.mp hs
      rw [hn']
      rfl
    · simp
  · rw [DataSource.set, if_neg hs, DataSource.get, DataSource.get]
    split <;> simp_all

lemma DataSource.Valid.set (h : dataSource.Valid hasher) (hn : Stored hasher node) :
    (dataSource.set hasher node).Valid hasher := by
  rw [DataSource.set]
  split_ifs
  · exact h
  · intro other hoth
    obtain hoth | hoth := List.mem_append.mp hoth
    · exact h other hoth
    · rw [List.mem_singleton.mp hoth]
      exact hn

structure Grows (hasher : Hasher H) (backing memory memory' : DataSource H) : Prop where
  valid : memory'.Valid hasher
  find : ∀ hash node, readThrough hasher memory backing hash = some node →
    readThrough hasher memory' backing hash = some node

lemma Grows.refl (h : memory.Valid hasher) : Grows hasher backing memory memory := ⟨h, fun _ _ hn => hn⟩

lemma Grows.trans (h : Grows hasher backing memory memory') (h' : Grows hasher backing memory' memory'') :
    Grows hasher backing memory memory'' :=
  ⟨h'.valid, fun hash node hn => h'.find hash node (h.find hash node hn)⟩

lemma grows_set (hfree : hasher.CollisionFree) (hbacking : backing.Valid hasher) (hmemory : memory.Valid hasher)
    (hn : Stored hasher node) : Grows hasher backing memory (memory.set hasher node) := by
  refine ⟨hmemory.set hn, fun hash found hf => ?_⟩
  rw [readThrough_eq_some] at hf ⊢
  rw [get_set]
  obtain hf | ⟨hno, hf⟩ := hf
  · left
    rw [hf]
    rfl
  · rw [hno]
    by_cases hh : node.hash hasher = hash
    · left
      rw [if_pos hh, stored_eq_of_hash hfree hn (hbacking _ (mem_of_get hf)) (hh.trans (hash_of_get hf).symm)]
      rfl
    · right
      rw [if_neg hh]
      exact ⟨rfl, hf⟩

lemma get_set_self (hfree : hasher.CollisionFree) (hmemory : memory.Valid hasher) (hn : Stored hasher node) :
    (memory.set hasher node).get hasher (node.hash hasher) = some node := by
  rw [get_set, if_pos rfl]
  by_cases hs : (memory.get hasher (node.hash hasher)).isSome
  · rw [get_eq_of_mem hfree hmemory hn hs]
    rfl
  · rw [Option.not_isSome_iff_eq_none.mp hs]
    rfl

def Saved (hasher : Hasher H) (source : H → Option (TreeNode H)) (t : Trie Nibble H) : Prop :=
  ∃ node, source (trieHash hasher t) = some node ∧ Denotes hasher source t node

omit [DecidableEq H] in
lemma Saved.mono {source source' : H → Option (TreeNode H)} (h : Saved hasher source t)
    (hsub : ∀ hash node, source hash = some node → source' hash = some node) : Saved hasher source' t := by
  obtain ⟨node, hn, hden⟩ := h
  exact ⟨node, hsub _ _ hn, hden.mono hsub⟩

section

variable (hfree : hasher.CollisionFree) (hbacking : backing.Valid hasher) (hmemory : memory.Valid hasher)
include hfree hbacking hmemory

lemma saved_set (hn : Stored hasher node) (h : Denotes hasher (readThrough hasher memory backing) t node) :
    Saved hasher (readThrough hasher (memory.set hasher node) backing) t := by
  refine ⟨node, ?_, h.mono (grows_set hfree hbacking hmemory hn).find⟩
  rw [← h.hash_eq (validSource_readThrough hmemory hbacking)]
  exact readThrough_eq_some.mpr (.inl (get_set_self hfree hmemory hn))

lemma denotes_compactLinks {path : TreeNodePath} {children : Nibble → Trie Nibble H} {links : Nibble → H}
    {linkedNodes : Nibble → TreeNode H} {linkSet : Finset Nibble} (hg : Grows hasher backing memory memory')
    (h : Denotes hasher (readThrough hasher memory backing) (.branch path children)
      (.branch path links linkedNodes linkSet))
    (hsa : ∀ index, linkedNodes index ≠ .empty → Saved hasher (readThrough hasher memory' backing) (children index)) :
    Stored hasher ((TreeNode.branch path links linkedNodes linkSet).compactLinks hasher) ∧
      Denotes hasher (readThrough hasher memory' backing) (.branch path children)
        ((TreeNode.branch path links linkedNodes linkSet).compactLinks hasher) := by
  have hs := validSource_readThrough hmemory hbacking
  obtain ⟨_, _, _, heq, hl⟩ := h
  cases heq
  have hli : ∀ index, (branch path links linkedNodes linkSet).link hasher index = trieHash hasher (children index) := by
    intro index
    obtain ⟨-, hch, hno, hz⟩ | ⟨-, -, next, hn, hden⟩ := hl index
    · simp [link, hno, hz, hch, isEmpty, trieHash]
    · rw [link_eq_of_getLinkedNode hs hn, hden.hash_eq hs]
  constructor
  · refine ⟨fun _ => rfl, fun index => ?_⟩
    change index ∈ linkSet ↔ (branch path links linkedNodes linkSet).link hasher index ≠ hasher.zero
    obtain ⟨hset, hch, -⟩ | ⟨hset, hch, next, hn, hden⟩ := hl index
    · rw [hli, hch]
      simp [hset, trieHash]
    · rw [hli, ← hden.hash_eq hs]
      simp [hset, hash_ne_zero hfree (hden.ne_empty hch)]
  · refine ⟨_, _, _, rfl, fun index => ?_⟩
    obtain ⟨hset, hch, hno, hz⟩ | ⟨hset, hch, next, hn, hden⟩ := hl index
    · refine .inl ⟨hset, hch, rfl, ?_⟩
      change (branch path links linkedNodes linkSet).link hasher index = hasher.zero
      rw [hli, hch]
      rfl
    · refine .inr ⟨hset, hch, ?_⟩
      have hc : getLinkedNode hasher (readThrough hasher memory' backing)
          ((branch path links linkedNodes linkSet).compactLinks hasher) index =
            readThrough hasher memory' backing (trieHash hasher (children index)) := by
        rw [← hli index]
        rfl
      rw [hc]
      by_cases hemp : linkedNodes index = .empty
      · -- the linked node was not in memory, so that it was found in the data source before
        refine ⟨next, hg.find _ _ ?_, hden.mono hg.find⟩
        rw [← hli index]
        simpa [getLinkedNode, linkedNode, hemp, isEmpty] using hn
      · exact hsa index hemp

theorem saveAll_spec (h : Denotes hasher (readThrough hasher memory backing) t node) :
    Grows hasher backing memory (saveAll hasher node memory) ∧
      (t ≠ .empty → Saved hasher (readThrough hasher (saveAll hasher node memory) backing) t) := by
  induction t generalizing node memory with
  | empty =>
    obtain rfl : node = _ := h
    exact ⟨Grows.refl hmemory, fun hemp => absurd rfl hemp⟩
  | leaf path value =>
    obtain rfl : node = _ := h
    exact ⟨grows_set hfree hbacking hmemory trivial, fun _ => saved_set hfree hbacking hmemory trivial rfl⟩
  | branch path children ih =>
    have hb := h
    obtain ⟨links, linkedNodes, linkSet, rfl, hl⟩ := h
    have hn : ∀ index, linkedNodes index ≠ .empty → children index ≠ .empty ∧
        Denotes hasher (readThrough hasher memory backing) (children index) (linkedNodes index) := by
      intro index hne
      obtain ⟨-, -, hno, -⟩ | ⟨-, hch, next, hnx, hden⟩ := hl index
      · exact absurd hno hne
      · have hnx' : linkedNodes index = next := by
          simpa [getLinkedNode, linkedNode, isEmpty_iff.not.mpr hne] using hnx
        rw [hnx']
        exact ⟨hch, hden⟩
    -- the loop over the links: what was saved stays saved
    have hlo : ∀ (indices : List Nibble) (memory' : DataSource H), Grows hasher backing memory memory' →
        Grows hasher backing memory'
          (indices.foldl (fun source index => saveAll hasher (linkedNodes index) source) memory') ∧
          ∀ index ∈ indices, linkedNodes index ≠ .empty → Saved hasher (readThrough hasher
              (indices.foldl (fun source index => saveAll hasher (linkedNodes index) source) memory') backing)
                (children index) := by
      intro indices
      induction indices with
      | nil => exact fun memory' hg => ⟨Grows.refl hg.valid, fun _ hmem => absurd hmem List.not_mem_nil⟩
      | cons first indices ihl =>
        intro memory' hg
        have hf : Grows hasher backing memory' (saveAll hasher (linkedNodes first) memory') ∧
            (linkedNodes first ≠ .empty →
              Saved hasher (readThrough hasher (saveAll hasher (linkedNodes first) memory') backing)
                (children first)) := by
          by_cases hne : linkedNodes first = .empty
          · rw [hne]
            exact ⟨Grows.refl hg.valid, fun h => absurd rfl h⟩
          · obtain ⟨hch, hden⟩ := hn first hne
            obtain ⟨hg', hs⟩ := ih first hg.valid (hden.mono hg.find)
            exact ⟨hg', fun _ => hs hch⟩
        obtain ⟨hr, hs⟩ := ihl _ (hg.trans hf.1)
        refine ⟨hf.1.trans hr, fun index hidx hne => ?_⟩
        obtain rfl | hidx := List.mem_cons.mp hidx
        · exact (hf.2 hne).mono hr.find
        · exact hs index hidx hne
    obtain ⟨hg, hs⟩ := hlo (List.finRange 16) memory (Grows.refl hmemory)
    obtain ⟨hst, hden⟩ := denotes_compactLinks hfree hbacking hmemory hg hb fun index =>
      hs index (List.mem_finRange index)
    exact ⟨hg.trans (grows_set hfree hbacking hg.valid hst), fun _ =>
      saved_set hfree hbacking hg.valid hst hden⟩

end

end XpxChain.Patricia

