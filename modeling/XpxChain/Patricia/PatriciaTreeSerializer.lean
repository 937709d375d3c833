import XpxChain.Types
import XpxChain.Library.BinaryFormats
import XpxChain.Patricia.Denotation

/-! The paths of nodes as the bytes that hold them, and the storage of nodes. -/

namespace XpxChain.Patricia

open Library BinaryFormats List

instance neZeroNibble : NeZero 16 := inferInstance

/-- The nibble at an index of bytes, the high one before the low one. Behind the end there is nothing to read; the model
has zeros there. -/
def nibbleIn (path : Bytes) (index : ℕ) : Nibble :=
  let byte := path.getD (index / 2) 0
  if index % 2 = 0 then .ofNat 16 (byte.val / 16) else .ofNat 16 byte.val

/-- A path that starts at the first or at the second nibble of its bytes. -/
structure BytePath where
  size : ℕ := 0
  adjustment : ℕ := 0
  path : Bytes := []

namespace BytePath

def ofKey (key : Bytes) : BytePath := ⟨2 * key.length, 0, key⟩

def calculateByteSize (offset size : ℕ) : ℕ := size / 2 + if offset % 2 = 0 ∧ size % 2 = 0 then 0 else 1

def ofBytes (path : Bytes) (offset size : ℕ) : BytePath where
  size := size
  adjustment := offset % 2
  path := if size = 0 then replicate (calculateByteSize offset size) 0
    else (path.drop (offset / 2)).take (calculateByteSize offset size)

def nibbleAt (path : BytePath) (index : ℕ) : Nibble := nibbleIn path.path (index + path.adjustment)

def nibbles (path : BytePath) : TreeNodePath := (range path.size).map path.nibbleAt

def subpath (path : BytePath) (offset size : ℕ) : BytePath := ofBytes path.path (offset + path.adjustment) size

/-- Two nibbles a byte; a last byte with one nibble is filled with 0. -/
def packNibbles : List Nibble → Bytes
  | x :: y :: nibbles => .ofNat 256 (16 * x.val + y.val) :: packNibbles nibbles
  | [x] => [.ofNat 256 (16 * x.val)]
  | [] => []

def join (lhs rhs : BytePath) : BytePath := ofBytes (packNibbles (lhs.nibbles ++ rhs.nibbles)) 0 (lhs.size + rhs.size)

def joinAround (lhs : BytePath) (nibble : Nibble) (rhs : BytePath) : BytePath :=
  ofBytes (packNibbles (lhs.nibbles ++ nibble :: rhs.nibbles)) 0 (lhs.size + 1 + rhs.size)

variable {path : BytePath} {bytes : Bytes} {l : List Nibble} {offset size i : ℕ}

@[simp] lemma length_nibbles : path.nibbles.length = path.size := by rw [nibbles, length_map, length_range]

lemma nibbleAt_ofBytes (hi : i < size) : (ofBytes bytes offset size).nibbleAt i = nibbleIn bytes (offset + i) := by
  have hb : (i + offset % 2) / 2 < calculateByteSize offset size := by
    rw [calculateByteSize]
    split_ifs <;> omega
  have hget : ((bytes.drop (offset / 2)).take (calculateByteSize offset size)).getD ((i + offset % 2) / 2) 0 =
      bytes.getD ((offset + i) / 2) 0 := by
    rw [getD_eq_getElem?_getD, getD_eq_getElem?_getD, getElem?_take_of_lt hb, getElem?_drop]
    congr 2
    omega
  have hp : (i + offset % 2) % 2 = (offset + i) % 2 := by omega
  simp only [nibbleAt, nibbleIn, ofBytes, if_neg (Nat.ne_zero_of_lt hi), hget, hp]

lemma nibbles_ofBytes : (ofBytes bytes offset size).nibbles = (range size).map fun i => nibbleIn bytes (offset + i) :=
  map_congr_left fun _ hi => nibbleAt_ofBytes (mem_range.mp hi)

lemma nibbles_subpath (h : offset + size ≤ path.size) :
    (path.subpath offset size).nibbles = (path.nibbles.drop offset).take size := by
  rw [subpath, nibbles_ofBytes]
  apply ext_getElem
  · simp
    omega
  · intro i hi _
    simp [nibbles, nibbleAt, Nat.add_right_comm]

lemma length_packNibbles : (packNibbles l).length = (l.length + 1) / 2 := by
  induction l using packNibbles.induct with
  | case1 x y l ih =>
    rw [packNibbles, length_cons, ih, length_cons, length_cons]
    omega
  | case2 x => simp [packNibbles]
  | case3 => rfl

lemma nibbleIn_packNibbles : nibbleIn (packNibbles l) i = l.getD i 0 := by
  have hbyte : ∀ x y : Nibble, Fin.ofNat 16 ((Fin.ofNat 256 (16 * x.val + y.val)).val / 16) = x ∧
      Fin.ofNat 16 (Fin.ofNat 256 (16 * x.val + y.val)).val = y := by
    decide
  induction l using packNibbles.induct generalizing i with
  | case1 x y l ih =>
    rcases i with _ | _ | i
    · exact (hbyte x y).1
    · exact (hbyte x y).2
    · have hd : (i + 1 + 1) / 2 = i / 2 + 1 := Nat.add_div_right i two_pos
      have hm : (i + 1 + 1) % 2 = i % 2 := Nat.add_mod_right i 2
      simpa [nibbleIn, packNibbles, hd, hm] using @ih i
  | case2 x =>
    rcases i with _ | _ | i
    · exact (hbyte x 0).1
    · exact (hbyte x 0).2
    · simp [nibbleIn, packNibbles]
  | case3 => simp [nibbleIn, packNibbles]

lemma nibbles_packed : (ofBytes (packNibbles l) 0 l.length).nibbles = l := by
  rw [nibbles_ofBytes]
  simp only [zero_add, nibbleIn_packNibbles]
  apply ext_getElem <;> simp +contextual

lemma nibbles_join {lhs rhs : BytePath} : (join lhs rhs).nibbles = lhs.nibbles ++ rhs.nibbles := by
  have h := nibbles_packed (l := lhs.nibbles ++ rhs.nibbles)
  rwa [length_append, length_nibbles, length_nibbles] at h

lemma nibbles_joinAround {lhs rhs : BytePath} {nibble : Nibble} :
    (joinAround lhs nibble rhs).nibbles = lhs.nibbles ++ nibble :: rhs.nibbles := by
  have h := nibbles_packed (l := lhs.nibbles ++ nibble :: rhs.nibbles)
  rwa [length_append, length_cons, length_nibbles, length_nibbles, ← Nat.add_assoc, Nat.add_right_comm] at h

def serialize (path : BytePath) : Bytes := littleEndian 1 path.size ++ packNibbles path.nibbles

def deserialize : Reader BytePath := do
  let numNibbles ← readNumber 1
  let alignedPath ← takeBytes ((numNibbles + 1) / 2)
  if alignedPath = [] then return {}
  else
    let path := ofKey alignedPath
    if numNibbles % 2 = 1 ∧ path.nibbleAt (path.size - 1) ≠ 0 then failure
    else return path.subpath 0 numNibbles

lemma reads_deserialize (h : path.size ≤ 255) :
    ∃ path', path'.nibbles = path.nibbles ∧ Reads deserialize path.serialize path' := by
  have hlen : (packNibbles path.nibbles).length = (path.size + 1) / 2 := by rw [length_packNibbles, length_nibbles]
  by_cases hempty : packNibbles path.nibbles = []
  · refine ⟨{}, ?_, (Reads.readNumber (by omega)).bind ((Reads.takeBytes hlen).bind_done ?_)⟩
    · rw [hempty, length_nil] at hlen
      rw [nibbles, nibbles, show path.size = 0 by omega]
      rfl
    · rw [if_pos hempty]
      exact .pure _
  · refine ⟨ofBytes (packNibbles path.nibbles) 0 path.size, ?_,
      (Reads.readNumber (by omega)).bind ((Reads.takeBytes hlen).bind_done ?_)⟩
    · have hp := nibbles_packed (l := path.nibbles)
      rwa [length_nibbles] at hp
    · set aligned := ofKey (packNibbles path.nibbles) with haligned
      have hfiller : ¬(path.size % 2 = 1 ∧ aligned.nibbleAt (aligned.size - 1) ≠ 0) := by
        rintro ⟨hodd, hne⟩
        apply hne
        rw [nibbleAt, haligned, ofKey, nibbleIn_packNibbles]
        refine getD_eq_default _ _ ?_
        simp only [hlen, length_nibbles]
        omega
      rw [if_neg hempty]
      dsimp only
      rw [if_neg hfiller]
      exact .pure _

end BytePath

/-- A branch node by what its accessors return: a link is the hash of the linked node when that one is held in memory.
-/
structure BranchTreeNode where
  path : BytePath
  link : Nibble → Hash256
  linkSet : Finset Nibble
  link_eq_zero : ∀ index ∉ linkSet, link index = 0

namespace BranchTreeNode

def ofPath (path : BytePath) : BranchTreeNode := ⟨path, fun _ => 0, ∅, fun _ _ => rfl⟩

def setLink (node : BranchTreeNode) (link : Hash256) (index : Nibble) : BranchTreeNode where
  path := node.path
  link := Function.update node.link index link
  linkSet := insert index node.linkSet
  link_eq_zero other h := by
    rw [Finset.mem_insert, not_or] at h
    rw [Function.update_of_ne h.1, node.link_eq_zero other h.2]

def linksMask (node : BranchTreeNode) : ℕ :=
  (finRange 16).foldl (fun mask index => mask ||| (if index ∈ node.linkSet then 1 else 0) <<< index.val) 0

def serialize (node : BranchTreeNode) : Bytes :=
  node.path.serialize ++ (littleEndian 2 node.linksMask ++
    (finRange 16).flatMap fun index => if index ∈ node.linkSet then littleEndian 32 (node.link index) else [])

end BranchTreeNode

def readHash : Reader Hash256 := do
  let value ← readNumber 32
  return Fin.ofNat _ value

def readLink (links : ℕ) (node : BranchTreeNode) (index : Nibble) : Reader BranchTreeNode :=
  if links.testBit index then do
    let link ← readHash
    return node.setLink link index
  else return node

inductive StoredNode
  | leaf (path : BytePath) (value : Hash256)
  | branch (node : BranchTreeNode)

namespace StoredNode

def path : StoredNode → BytePath
  | leaf path _ => path
  | branch node => node.path

/-- The node of the tree with the nibbles of its path. -/
def toTreeNode : StoredNode → TreeNode Hash256
  | leaf path value => .leaf path.nibbles value
  | branch node => .branch node.path.nibbles node.link (fun _ => .empty) node.linkSet

def serializeValue : StoredNode → Bytes
  | leaf path value => littleEndian 1 0xFF ++ (path.serialize ++ littleEndian 32 value)
  | branch node => littleEndian 1 0x00 ++ node.serialize

def deserializeLeaf : Reader StoredNode := do
  let path ← BytePath.deserialize
  let value ← readHash
  return leaf path value

def deserializeBranch : Reader StoredNode := do
  let path ← BytePath.deserialize
  let links ← readNumber 2
  let node ← (finRange 16).foldlM (readLink links) (BranchTreeNode.ofPath path)
  return branch node

def deserialize : Reader StoredNode := do
  let nodeMarker ← readNumber 1
  if nodeMarker = 0xFF then deserializeLeaf
  else if nodeMarker = 0x00 then deserializeBranch
  else failure

def deserializeValue (buffer : Bytes) : Option StoredNode := (deserialize.run buffer).map (·.1)

end StoredNode

open StoredNode

variable {node : BranchTreeNode} {value : Hash256}

lemma testBit_linksMask {j : ℕ} : node.linksMask.testBit j ↔ ∃ index ∈ node.linkSet, index.val = j := by
  have hfold : ∀ (l : List Nibble) (mask : ℕ),
      (l.foldl (fun mask index => mask ||| (if index ∈ node.linkSet then 1 else 0) <<< index.val) mask).testBit j ↔
        mask.testBit j ∨ ∃ index ∈ l, index ∈ node.linkSet ∧ index.val = j := by
    intro l
    induction l with
    | nil => simp
    | cons index l ih =>
      intro mask
      rw [foldl_cons, ih, Nat.testBit_or, Bool.or_eq_true, or_assoc]
      refine or_congr_right ?_
      simp only [mem_cons, exists_eq_or_imp]
      refine or_congr_left ?_
      split_ifs with h
      · simp [h, Nat.one_shiftLeft, Nat.testBit_two_pow]
      · simp [h]
  simp [BranchTreeNode.linksMask, hfold]

lemma linksMask_lt : node.linksMask < 256 ^ 2 := by
  refine Nat.lt_pow_two_of_testBit (n := 16) _ fun j hj => ?_
  rw [← Bool.not_eq_true, testBit_linksMask]
  rintro ⟨index, -, rfl⟩
  omega

lemma reads_readHash : Reads readHash (littleEndian 32 value) value := by
  refine (Reads.readNumber (value.isLt.trans_le (by norm_num))).bind_done ?_
  rw [Fin.ofNat_val_eq_self]
  exact .pure value

lemma reads_links (l : List Nibble) (start : BranchTreeNode) : ∃ node', node'.path = start.path ∧
    (∀ index, index ∈ node'.linkSet ↔ index ∈ start.linkSet ∨ index ∈ l ∧ index ∈ node.linkSet) ∧
    (∀ index, node'.link index = if index ∈ l ∧ index ∈ node.linkSet then node.link index else start.link index) ∧
    Reads (l.foldlM (readLink node.linksMask) start)
      (l.flatMap fun index => if index ∈ node.linkSet then littleEndian 32 (node.link index) else []) node' := by
  induction l generalizing start with
  | nil => exact ⟨start, rfl, by simp, by simp, .pure start⟩
  | cons first l ih =>
    have hbit : node.linksMask.testBit first ↔ first ∈ node.linkSet := by
      rw [testBit_linksMask]
      exact ⟨fun ⟨index, h, he⟩ => Fin.ext he ▸ h, fun h => ⟨first, h, rfl⟩⟩
    rw [foldlM_cons, flatMap_cons]
    by_cases h : first ∈ node.linkSet
    · obtain ⟨node', hpath, hset, hlink, hr⟩ := ih (start.setLink (node.link first) first)
      refine ⟨node', hpath, fun index => ?_, fun index => ?_, ?_⟩
      · rw [hset, BranchTreeNode.setLink, Finset.mem_insert, mem_cons]
        grind
      · rw [hlink, BranchTreeNode.setLink]
        grind
      · rw [if_pos h]
        refine .bind ?_ hr
        rw [readLink, if_pos (hbit.mpr h)]
        exact reads_readHash.bind_done (.pure _)
    · obtain ⟨node', hpath, hset, hlink, hr⟩ := ih start
      refine ⟨node', hpath, fun index => ?_, fun index => ?_, ?_⟩
      · rw [hset, mem_cons]
        grind
      · rw [hlink]
        grind
      · rw [if_neg h, readLink, if_neg (mt hbit.mp h)]
        exact (Reads.pure start).bind hr

lemma exists_reads_branch (h : node.path.size ≤ 255) : ∃ stored, stored.toTreeNode = (branch node).toTreeNode ∧
    Reads deserializeBranch node.serialize stored := by
  obtain ⟨path', hn, hr⟩ := BytePath.reads_deserialize h
  obtain ⟨node', hpath, hset, hlink, hlinks⟩ := reads_links (finRange 16) (.ofPath path')
  refine ⟨branch node', ?_, hr.bind ((Reads.readNumber linksMask_lt).bind (hlinks.bind_done (.pure _)))⟩
  have hsets : node'.linkSet = node.linkSet := by
    ext index
    simp [hset, BranchTreeNode.ofPath]
  have hls : node'.link = node.link := by
    funext index
    rw [hlink]
    split_ifs with hmem
    · rfl
    · exact (node.link_eq_zero index (by simpa using hmem)).symm
  rw [toTreeNode, toTreeNode, hpath, hsets, hls, ← hn]
  rfl

lemma exists_reads {stored : StoredNode} (h : stored.path.size ≤ 255) :
    ∃ stored', stored'.toTreeNode = stored.toTreeNode ∧ Reads deserialize stored.serializeValue stored' := by
  cases stored with
  | leaf path value =>
    obtain ⟨path', hn, hr⟩ := BytePath.reads_deserialize h
    refine ⟨leaf path' value, ?_, (Reads.readNumber (by decide)).bind (hr.bind (reads_readHash.bind_done (.pure _)))⟩
    rw [toTreeNode, toTreeNode, hn]
    rfl
  | branch node =>
    obtain ⟨stored', hn, hr⟩ := exists_reads_branch h
    exact ⟨stored', hn, (Reads.readNumber (by decide)).bind hr⟩

/-- A stored node is read back with its path, its value or links and its hash, and the path can be told from the hashed
bytes. -/
theorem stored_node_round_trip (hasher : Hasher Hash256) (node : StoredNode) (h : node.path.size ≤ 255) :
    (∃ node', deserializeValue node.serializeValue = some node' ∧ node'.toTreeNode = node.toTreeNode ∧
      node'.toTreeNode.hash hasher = node.toTreeNode.hash hasher) ∧
    ∀ (path path' : BytePath) (isLeaf : Bool), path.nibbles ≠ path'.nibbles →
      encodeKey path.nibbles isLeaf ≠ encodeKey path'.nibbles isLeaf := by
  refine ⟨?_, fun path path' isLeaf hne heq => hne (encodeKey_injective heq).1⟩
  obtain ⟨node', hn, hr⟩ := exists_reads h
  have hall := hr []
  rw [append_nil] at hall
  exact ⟨node', by rw [deserializeValue, hall]; rfl, hn, by rw [hn]⟩

theorem stored_node_round_trip_odd :
    ∃ node', deserializeValue (leaf ((BytePath.ofKey [0x12, 0x34]).subpath 1 2) 5).serializeValue = some node' ∧
      node'.toTreeNode = .leaf [2, 3] 5 := by
  obtain ⟨⟨node', hr, hn, -⟩, -⟩ := stored_node_round_trip ⟨0, fun _ _ => 0⟩
    (leaf ((BytePath.ofKey [0x12, 0x34]).subpath 1 2) 5) (by decide)
  exact ⟨node', hr, hn.trans rfl⟩

theorem path_operations_on_nibbles (lhs rhs : BytePath) (nibble : Nibble) :
    (∀ offset size, offset + size ≤ lhs.size →
      (lhs.subpath offset size).nibbles = (lhs.nibbles.drop offset).take size) ∧
      (lhs.join rhs).nibbles = lhs.nibbles ++ rhs.nibbles ∧
        (lhs.joinAround nibble rhs).nibbles = lhs.nibbles ++ nibble :: rhs.nibbles :=
  ⟨fun _ _ => BytePath.nibbles_subpath, BytePath.nibbles_join, BytePath.nibbles_joinAround⟩

end XpxChain.Patricia
