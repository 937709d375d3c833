import XpxChain.Library.Runs
import XpxChain.Patricia.DataSources
import XpxChain.Patricia.Operations

/-! Runs of a base tree and its delta: the root hash is a function of the map of the keys to their values. -/

namespace XpxChain.Patricia

open Library CompressedTries Trie List

inductive TreeOperation (H : Type)
  | set (path : TreeNodePath) (value : H)
  | unset (path : TreeNodePath)
  | setCheckpoint
  | commit
  | rebase
  | reload

variable {H : Type}

def TreeOperation.KeyLength (n : ℕ) : TreeOperation H → Prop
  | set path _ | unset path => path.length = n
  | _ => True

structure Contents (H : Type) where
  base : TreeNodePath → Option H := fun _ => none
  delta : TreeNodePath → Option H := fun _ => none

def Contents.next (contents : Contents H) : TreeOperation H → Contents H
  | .set path value => { contents with delta := Function.update contents.delta path (some value) }
  | .unset path => { contents with delta := Function.update contents.delta path none }
  | .setCheckpoint => contents
  | .commit => { contents with base := contents.delta }
  | .rebase | .reload => { contents with delta := contents.base }

variable [DecidableEq H] (hasher : Hasher H)

def BasePatriciaTree.next (tree : BasePatriciaTree H) : TreeOperation H → BasePatriciaTree H
  | .set path value => tree.set hasher path value
  | .unset path => (tree.unset hasher path).1
  | .setCheckpoint => tree.setCheckpoint hasher
  | .commit => (tree.commit hasher).getD tree
  | .rebase => tree.rebase hasher
  | .reload => tree.reload hasher

omit [DecidableEq H] in
structure Represents (t : Trie Nibble H) (map : TreeNodePath → Option H) (n : ℕ) : Prop where
  canonical : t.Canonical n
  get_eq : ∀ word, word.length = n → t.get word = map word

open Classical in
noncomputable def canonicalRoot (n : ℕ) (map : TreeNodePath → Option H) : H :=
  if h : ∃ t, Represents t map n then trieHash hasher h.choose else hasher.zero

variable {hasher} {t : Trie Nibble H} {map : TreeNodePath → Option H} {n : ℕ} {tree : BasePatriciaTree H}
  {contents : Contents H} {path : TreeNodePath} {value : H}

omit [DecidableEq H] in
lemma Represents.canonicalRoot (h : Represents t map n) : canonicalRoot hasher n map = trieHash hasher t := by
  have he : ∃ t, Represents t map n := ⟨t, h⟩
  have hc := he.choose_spec
  rw [Patricia.canonicalRoot, dif_pos he, canonical_unique hc.canonical h.canonical]
  intro word hw
  rw [hc.get_eq word hw, h.get_eq word hw]

omit [DecidableEq H] in
lemma represents_empty : Represents (.empty : Trie Nibble H) (fun _ => none) n := ⟨trivial, fun _ _ => rfl⟩

structure Holds (hasher : Hasher H) (n : ℕ) (tree : BasePatriciaTree H) (contents : Contents H) : Prop where
  dataSource : tree.dataSource.Valid hasher
  memory : tree.memory.Valid hasher
  base : ∃ t, Represents t contents.base n ∧ Denotes hasher (tree.dataSource.get hasher) t tree.rootNode ∧
    (t ≠ .empty → Saved hasher (tree.dataSource.get hasher) t)
  delta : ∃ t, Represents t contents.delta n ∧ Denotes hasher (tree.source hasher) t tree.deltaRootNode

lemma Holds.source (h : Holds hasher n tree contents) : ValidSource hasher (tree.source hasher) :=
  validSource_readThrough h.memory h.dataSource

section

section

variable (hfree : hasher.CollisionFree) (h : Holds hasher n tree contents)
include hfree h

lemma Holds.set (hpath : path.length = n) :
    Holds hasher n (tree.set hasher path value) (contents.next (.set path value)) := by
  obtain ⟨t, ht, hden⟩ := h.delta
  obtain ⟨t', hden', hs⟩ := set_spec value hfree h.source hden ht.canonical hpath
  refine ⟨h.dataSource, h.memory, h.base, t', ⟨hs.canonical, fun word hw => ?_⟩, hden'⟩
  rw [hs.get_eq word hw, ht.get_eq word hw]
  exact (Function.update_apply contents.delta path (some value) word).symm

lemma Holds.unset (hpath : path.length = n) : Holds hasher n (tree.unset hasher path).1 (contents.next (.unset path)) ∧
      (tree.unset hasher path).2 = (contents.delta path).isSome := by
  obtain ⟨t, ht, hden⟩ := h.delta
  cases hget : t.get path with
  | none =>
    have hn := unset_eq_none hfree h.source hden ht.canonical hpath.ge (fun _ => hget) true
    have hd : contents.delta path = none := by rw [← ht.get_eq path hpath, hget]
    have hs : contents.next (.unset path) = contents := by
      rw [Contents.next, ← hd, Function.update_eq_self]
    rw [hs, hd, BasePatriciaTree.unset, hn]
    exact ⟨h, rfl⟩
  | some value =>
    obtain ⟨t', node', canMerge, hun, hden', hu, -⟩ := unset_spec hfree h.source hden ht.canonical hpath hget
    have hd : contents.delta path = some value := by rw [← ht.get_eq path hpath, hget]
    rw [hd, BasePatriciaTree.unset, hun]
    refine ⟨⟨h.dataSource, h.memory, h.base, t', ⟨hu.canonical, fun word hw => ?_⟩, hden'⟩, rfl⟩
    rw [hu.get_eq word hw, ht.get_eq word hw]
    exact (Function.update_apply contents.delta path none word).symm

lemma Holds.setCheckpoint : Holds hasher n (tree.setCheckpoint hasher) contents ∧ ∃ t, Represents t contents.delta n ∧
      Denotes hasher ((tree.setCheckpoint hasher).source hasher) t tree.deltaRootNode ∧
        (t ≠ .empty → Saved hasher ((tree.setCheckpoint hasher).source hasher) t) := by
  obtain ⟨t, ht, hden⟩ := h.delta
  obtain ⟨hg, hs⟩ := saveAll_spec hfree h.dataSource h.memory hden
  have hden' := hden.mono hg.find
  exact ⟨⟨h.dataSource, hg.valid, h.base, t, ht, hden'⟩, t, ht, hden', hs⟩

end

lemma foldl_set (hfree : hasher.CollisionFree) {dataSource : DataSource H} {nodes : List (TreeNode H)}
    (hval : dataSource.Valid hasher) (hn : ∀ node ∈ nodes, Stored hasher node) :
    (nodes.foldl (fun source node => source.set hasher node) dataSource).Valid hasher ∧
      (∀ hash node, dataSource.get hasher hash = some node →
        (nodes.foldl (fun source node => source.set hasher node) dataSource).get hasher hash = some node) ∧
      ∀ node ∈ nodes, (nodes.foldl (fun source node => source.set hasher node) dataSource).get hasher
        (node.hash hasher) =
        some node := by
  induction nodes generalizing dataSource with
  | nil => exact ⟨hval, fun _ _ hno => hno, fun _ hno => absurd hno not_mem_nil⟩
  | cons first nodes ih =>
    have hf := hn first mem_cons_self
    obtain ⟨hval', hk, hfo⟩ := ih (hval.set hf) fun node hno => hn node (mem_cons_of_mem _ hno)
    refine ⟨hval', fun hash node hno => hk hash node ?_, fun node hno => ?_⟩
    · rw [get_set, hno]
      rfl
    · obtain rfl | hno := mem_cons.mp hno
      · exact hk _ _ (get_set_self hfree hval hf)
      · exact hfo node hno

lemma Holds.copyPendingChanges (hfree : hasher.CollisionFree) (h : Holds hasher n tree contents) :
    Holds hasher n (tree.copyPendingChanges hasher) contents ∧
      ∀ hash node, tree.source hasher hash = some node →
        (tree.copyPendingChanges hasher).dataSource.get hasher hash = some node := by
  obtain ⟨hval, hk, hf⟩ := foldl_set hfree h.dataSource h.memory
  obtain ⟨t, ht, hden, hs⟩ := h.base
  obtain ⟨t', ht', hden'⟩ := h.delta
  refine ⟨⟨hval, h.memory, ⟨t, ht, hden.mono hk, fun hemp => (hs hemp).mono hk⟩, t', ht', ?_⟩, ?_⟩
  · apply hden'.mono
    intro hash node hn
    obtain hn | ⟨hno, hn⟩ := readThrough_eq_some.mp hn
    · exact readThrough_eq_some.mpr (.inl hn)
    · exact readThrough_eq_some.mpr (.inr ⟨hno, hk _ _ hn⟩)
  · intro hash node hn
    obtain hn | ⟨-, hn⟩ := readThrough_eq_some.mp hn
    · have hc := hf node (mem_of_get hn)
      rwa [hash_of_get hn] at hc
    · exact hk _ _ hn

omit [DecidableEq H] in
lemma denotes_load (hfree : hasher.CollisionFree) {source : H → Option (TreeNode H)} (hs : ValidSource hasher source)
    (hsa : t ≠ .empty → Saved hasher source t) :
    Denotes hasher source t ((source (trieHash hasher t)).getD .empty) := by
  by_cases hemp : t = .empty
  · subst hemp
    change Denotes hasher source .empty ((source hasher.zero).getD .empty)
    rw [hs.zero hfree]
    rfl
  · obtain ⟨node, hn, hden⟩ := hsa hemp
    rw [hn]
    exact hden

section

variable (hfree : hasher.CollisionFree) (h : Holds hasher n tree contents)
include hfree h

lemma Holds.commit : ∃ tree', tree.commit hasher = some tree' ∧ Holds hasher n tree' (contents.next .commit) := by
  obtain ⟨hch, t, ht, hden, hs⟩ := h.setCheckpoint hfree
  obtain ⟨hc, hf⟩ := hch.copyPendingChanges hfree
  have hr : ((tree.setCheckpoint hasher).copyPendingChanges hasher).deltaRoot hasher = trieHash hasher t :=
    hden.hash_eq hch.source
  by_cases hemp : t = .empty
  · subst hemp
    have hz : ((tree.setCheckpoint hasher).copyPendingChanges hasher).deltaRoot hasher = hasher.zero := hr
    refine ⟨{ (tree.setCheckpoint hasher).copyPendingChanges hasher with rootNode := .empty, deltaRootNode := .empty },
      ?_, hc.dataSource, hc.memory, ⟨.empty, ht, rfl, fun hne => absurd rfl hne⟩, .empty, ht, rfl⟩
    simp only [BasePatriciaTree.commit, BasePatriciaTree.copyRoot, if_pos hz]
    exact if_pos hz
  · obtain ⟨node, hno, hden'⟩ := hs hemp
    have hn : ((tree.setCheckpoint hasher).copyPendingChanges hasher).deltaRoot hasher ≠ hasher.zero :=
      hash_ne_zero hfree (hden.ne_empty hemp)
    have hk : ∀ hash node, (tree.setCheckpoint hasher).source hasher hash = some node →
        ((tree.setCheckpoint hasher).copyPendingChanges hasher).source hasher hash = some node := by
      intro hash node hno
      obtain hm | ⟨hnn, -⟩ := readThrough_eq_some.mp hno
      · exact readThrough_eq_some.mpr (.inl hm)
      · exact readThrough_eq_some.mpr (.inr ⟨hnn, hf _ _ hno⟩)
    have hl : ((tree.setCheckpoint hasher).copyPendingChanges hasher).source hasher
        (((tree.setCheckpoint hasher).copyPendingChanges hasher).deltaRoot hasher) = some node := by
      rw [hr]
      exact hk _ _ hno
    refine ⟨{ (tree.setCheckpoint hasher).copyPendingChanges hasher with rootNode := node, deltaRootNode := node }, ?_,
      hc.dataSource, hc.memory, ⟨t, ht, hden'.mono hf, fun _ => ⟨node, hf _ _ hno,
        hden'.mono hf⟩⟩, t, ht, hden'.mono hk⟩
    simp only [BasePatriciaTree.commit, BasePatriciaTree.copyRoot, if_neg hn, hl]
    refine (if_neg hn).trans ?_
    change (((tree.setCheckpoint hasher).copyPendingChanges hasher).source hasher
      (((tree.setCheckpoint hasher).copyPendingChanges hasher).deltaRoot hasher) >>= _) = _
    rw [hl]
    rfl

lemma Holds.rebase : Holds hasher n (tree.rebase hasher) (contents.next .rebase) := by
  obtain ⟨t, ht, hden, hs⟩ := h.base
  have hl := denotes_load hfree h.dataSource.source hs
  rw [← hden.hash_eq h.dataSource.source] at hl
  refine ⟨h.dataSource, fun node hn => absurd hn not_mem_nil, ⟨t, ht, hden, hs⟩, t, ht, ?_⟩
  exact hl.mono fun _ _ hn => readThrough_eq_some.mpr (.inr ⟨rfl, hn⟩)

lemma Holds.reload : Holds hasher n (tree.reload hasher) (contents.next .reload) := by
  obtain ⟨t, ht, hden, hs⟩ := h.base
  have hlo := denotes_load hfree h.dataSource.source hs
  rw [← hden.hash_eq h.dataSource.source] at hlo
  have hl : Holds hasher n
      { tree with rootNode := (tree.dataSource.get hasher (tree.root hasher)).getD .empty } contents :=
    { h with base := ⟨t, ht, hlo, hs⟩ }
  exact hl.rebase hfree

theorem Holds.next {op : TreeOperation H} (hop : op.KeyLength n) :
    Holds hasher n (tree.next hasher op) (contents.next op) := by
  cases op with
  | set path value => exact h.set hfree hop
  | unset path => exact (h.unset hfree hop).1
  | setCheckpoint => exact (h.setCheckpoint hfree).1
  | commit =>
    obtain ⟨tree', hcom, hh⟩ := h.commit hfree
    rw [BasePatriciaTree.next, hcom]
    exact hh
  | rebase => exact h.rebase hfree
  | reload => exact h.reload hfree

end

theorem holds_run (hfree : hasher.CollisionFree) {ops : List (TreeOperation H)} (hops : ∀ op ∈ ops, op.KeyLength n)
    (h : Holds hasher n tree contents) :
    Holds hasher n (Runs.run (BasePatriciaTree.next hasher) tree ops) (Runs.run Contents.next contents ops) := by
  induction ops generalizing tree contents with
  | nil => exact h
  | cons op ops ih =>
    apply ih
    · intro other hoth
      exact hops other (mem_cons_of_mem _ hoth)
    · exact h.next hfree (hops op mem_cons_self)

lemma holds_start {dataSource : DataSource H} (hval : dataSource.Valid hasher) :
    Holds hasher n { dataSource := dataSource } {} :=
  ⟨hval, fun _ hn => absurd hn not_mem_nil, ⟨.empty, represents_empty, rfl, fun hemp => absurd rfl hemp⟩,
    .empty, represents_empty, rfl⟩

end

lemma Holds.root_eq (h : Holds hasher n tree contents) : tree.root hasher = canonicalRoot hasher n contents.base := by
  obtain ⟨t, ht, hden, -⟩ := h.base
  rw [ht.canonicalRoot]
  exact hden.hash_eq h.dataSource.source

lemma Holds.deltaRoot_eq (h : Holds hasher n tree contents) :
    tree.deltaRoot hasher = canonicalRoot hasher n contents.delta := by
  obtain ⟨t, ht, hden⟩ := h.delta
  rw [ht.canonicalRoot]
  exact hden.hash_eq h.source

section

variable (hfree : hasher.CollisionFree) (h : Holds hasher n tree contents) (hpath : path.length = n)
include hfree h hpath

lemma Holds.lookup_eq : (lookup hasher (tree.dataSource.get hasher) tree.rootNode path).1 = contents.base path := by
  obtain ⟨t, ht, hden, -⟩ := h.base
  rw [lookup_spec hfree h.dataSource.source hden ht.canonical hpath.ge, if_pos hpath, ht.get_eq path hpath]

lemma Holds.lookup_delta_eq : (lookup hasher (tree.source hasher) tree.deltaRootNode path).1 = contents.delta path := by
  obtain ⟨t, ht, hden⟩ := h.delta
  rw [lookup_spec hfree h.source hden ht.canonical hpath.ge, if_pos hpath, ht.get_eq path hpath]

end

/-- After every run over every data source, the lookups find the last values and both root hashes are those of the maps.
-/
theorem patricia_tree_canonical (hasher : Hasher H) (hfree : hasher.CollisionFree) (n : ℕ) :
    canonicalRoot hasher n (fun _ => none) = hasher.zero ∧
      ∀ (dataSource : DataSource H) (ops : List (TreeOperation H)), dataSource.Valid hasher →
        (∀ op ∈ ops, op.KeyLength n) →
        let tree := Runs.run (BasePatriciaTree.next hasher) { dataSource := dataSource } ops
        let contents := Runs.run Contents.next {} ops
        tree.root hasher = canonicalRoot hasher n contents.base ∧
          tree.deltaRoot hasher = canonicalRoot hasher n contents.delta ∧
          (tree.commit hasher).isSome ∧ ∀ key, key.length = n →
            (lookup hasher (tree.dataSource.get hasher) tree.rootNode key).1 = contents.base key ∧
              (lookup hasher (tree.source hasher) tree.deltaRootNode key).1 = contents.delta key ∧
              (tree.unset hasher key).2 = (contents.delta key).isSome := by
  refine ⟨represents_empty.canonicalRoot, fun dataSource ops hvalid hops => ?_⟩
  have h := holds_run hfree hops (holds_start hvalid)
  obtain ⟨tree', hcommit, -⟩ := h.commit hfree
  refine ⟨h.root_eq, h.deltaRoot_eq, by rw [hcommit]; rfl, fun key hkey => ?_⟩
  exact ⟨h.lookup_eq hfree hkey, h.lookup_delta_eq hfree hkey, (h.unset hfree hkey).2⟩

def numbering : Hasher ℕ where
  zero := 0
  sha3 key hashes := Encodable.encode (key, hashes) + 1

lemma numbering_collisionFree : numbering.CollisionFree where
  injective _ _ _ _ h := Prod.mk.inj (Encodable.encode_injective (Nat.succ.inj h))
  ne_zero _ _ := Nat.succ_ne_zero _

/-- A tree in which a key was removed after a commit and a reload has the root of the tree with the other key alone. -/
theorem patricia_tree_canonical_removal : (Runs.run (BasePatriciaTree.next numbering) { dataSource := {} }
        [.set [1, 2] 7, .set [1, 3] 8, .commit, .reload, .unset [1, 2]]).deltaRoot numbering =
      (Runs.run (BasePatriciaTree.next numbering) { dataSource := {} } [.set [1, 3] 8]).deltaRoot numbering := by
  have hvalid : ({} : DataSource ℕ).Valid numbering := fun node hnode => absurd hnode not_mem_nil
  obtain ⟨-, h⟩ := patricia_tree_canonical numbering numbering_collisionFree 2
  rw [(h {} [.set [1, 2] 7, .set [1, 3] 8, .commit, .reload,
    .unset [1, 2]] hvalid (by simp [TreeOperation.KeyLength])).2.1,
    (h {} [.set [1, 3] 8] hvalid (by simp [TreeOperation.KeyLength])).2.1]
  congr 1
  funext key
  simp only [Runs.run, foldl_cons, foldl_nil, Contents.next, Function.update_apply]
  split_ifs <;> simp_all

end XpxChain.Patricia

