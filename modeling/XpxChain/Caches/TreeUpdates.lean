import XpxChain.DeltaSet.Elements
import XpxChain.Patricia.Canonicity

/-! The marked elements of a cache as writes to its tree. -/

namespace XpxChain.Caches

open Std DeltaSet Library Patricia BaseSetDelta ExtTreeMap

structure Encoder (κ α H : Type) where
  encodeKey : κ → TreeNodePath
  encodeValue : α → H

structure Encoder.Valid {κ α H : Type} (encoder : Encoder κ α H) (n : ℕ) : Prop where
  injective : Function.Injective encoder.encodeKey
  length_eq : ∀ key, (encoder.encodeKey key).length = n

structure PatriciaTreeDelta (κ α H : Type) [Ord κ] [TransOrd κ] where
  set : BaseSetDelta κ α
  tree : BasePatriciaTree H
  nextGenerationId : ℕ

/-- The order in which an unordered map is iterated. -/
structure IterationOrder (κ α : Type) [Ord κ] [TransOrd κ] where
  iterate : ExtTreeMap κ α → List (κ × α)
  perm : ∀ elements, (iterate elements).Perm elements.toList

inductive StateOperation (κ α : Type) [Ord κ] [TransOrd κ]
  | insert (key : κ) (element : α)
  | remove (key : κ)
  | find (key : κ) (change : α → α)
  | updateMerkleRoot (order : IterationOrder κ α) (height : ℕ)

section

variable {κ α H : Type} [Ord κ] [TransOrd κ] (encoder : Encoder κ α H) (isActive : α → ℕ → Bool)

/-- `detail::IsActiveAdapter` for the types that have no `isActive`. -/
def alwaysActive (_ : α) (_ : ℕ) : Bool := true

def needsApplication (set : BaseSetDelta κ α) (minGenerationId : ℕ) (key : κ) : Bool :=
  minGenerationId ≤ set.keyGenerationId key ∧ set.keyGenerationId key ≤ set.generationId

def handleModification (height : ℕ) (pair : κ × α) : TreeOperation H :=
  if isActive pair.2 height then .set (encoder.encodeKey pair.1) (encoder.encodeValue pair.2)
  else .unset (encoder.encodeKey pair.1)

def modifications (order : IterationOrder κ α) (set : BaseSetDelta κ α) (minGenerationId : ℕ)
    (handle : κ × α → TreeOperation H) (elements : ExtTreeMap κ α) : List (TreeOperation H) :=
  ((order.iterate elements).filter fun pair => needsApplication set minGenerationId pair.1).map handle

variable [DecidableEq H] (hasher : Hasher H)

/-- `ApplyDeltasToTree`. -/
def applyDeltasToTree (order : IterationOrder κ α) (set : BaseSetDelta κ α) (minGenerationId height : ℕ)
    (tree : BasePatriciaTree H) : BasePatriciaTree H :=
  let tree := Runs.run (BasePatriciaTree.next hasher) tree
    (modifications order set minGenerationId (handleModification encoder isActive height) set.added)
  let tree := Runs.run (BasePatriciaTree.next hasher) tree
    (modifications order set minGenerationId (handleModification encoder isActive height) set.copied)
  Runs.run (BasePatriciaTree.next hasher) tree
    (modifications order set minGenerationId (fun pair => .unset (encoder.encodeKey pair.1)) set.removed)

namespace PatriciaTreeDelta

def setApplyCheckpoint (delta : PatriciaTreeDelta κ α H) : PatriciaTreeDelta κ α H :=
  let set := delta.set.incrementGenerationId
  { set := set, tree := delta.tree.setCheckpoint hasher, nextGenerationId := set.generationId }

def updateMerkleRoot (order : IterationOrder κ α) (height : ℕ)
    (delta : PatriciaTreeDelta κ α H) : PatriciaTreeDelta κ α H :=
  setApplyCheckpoint hasher
    { delta with
      tree := applyDeltasToTree encoder isActive hasher order delta.set delta.nextGenerationId height delta.tree }

def next (delta : PatriciaTreeDelta κ α H) : StateOperation κ α → PatriciaTreeDelta κ α H
  | .insert key element => { delta with set := (delta.set.insert key element).1 }
  | .remove key => { delta with set := (delta.set.remove key).1 }
  | .find key change => { delta with set := (delta.set.find key change).1 }
  | .updateMerkleRoot order height => delta.updateMerkleRoot encoder isActive hasher order height

end PatriciaTreeDelta

def buildTree (dataSource : DataSource H) (elements : List (κ × α)) : BasePatriciaTree H :=
  Runs.run (BasePatriciaTree.next hasher) { dataSource := dataSource }
    (elements.map fun pair => .set (encoder.encodeKey pair.1) (encoder.encodeValue pair.2))

def rebaseTree (dataSource : DataSource H) (original : ExtTreeMap κ α) : PatriciaTreeDelta κ α H where
  set := rebase original
  tree := Runs.run (BasePatriciaTree.next hasher) (buildTree encoder hasher dataSource original.toList)
    [.commit, .rebase]
  nextGenerationId := (rebase original).generationId

end

section

variable {H : Type} {contents : Contents H} {path : TreeNodePath} {value : Option H}

def Writes (path : TreeNodePath) (value : Option H) : TreeOperation H → Prop
  | .set path' value' => path' = path ∧ value = some value'
  | .unset path' => path' = path ∧ value = none
  | _ => False

def IsWrite : TreeOperation H → Prop
  | .set _ _ | .unset _ => True
  | _ => False

variable {op : TreeOperation H}

lemma next_of_writes (h : Writes path value op) : (contents.next op).delta path = value := by
  cases op with
  | set path' value' =>
    obtain ⟨rfl, rfl⟩ := h
    exact Function.update_self _ _ _
  | unset path' =>
    obtain ⟨rfl, rfl⟩ := h
    exact Function.update_self _ _ _
  | setCheckpoint => exact h.elim
  | commit => exact h.elim
  | rebase => exact h.elim
  | reload => exact h.elim

lemma next_of_not_writes (hop : IsWrite op) (h : ∀ value, ¬Writes path value op) :
    (contents.next op).delta path = contents.delta path := by
  cases op with
  | set path' value' => exact Function.update_of_ne (fun heq => h (some value') ⟨heq.symm, rfl⟩) _ _
  | unset path' => exact Function.update_of_ne (fun heq => h none ⟨heq.symm, rfl⟩) _ _
  | setCheckpoint => exact hop.elim
  | commit => exact hop.elim
  | rebase => exact hop.elim
  | reload => exact hop.elim

lemma run_of_writes {ops : List (TreeOperation H)} (hops : ∀ op ∈ ops, IsWrite op)
    (hu : ∀ op ∈ ops, ∀ value', Writes path value' op → value' = value)
    (h : contents.delta path = value ∨ ∃ op ∈ ops, Writes path value op) :
    (Runs.run Contents.next contents ops).delta path = value := by
  induction ops generalizing contents with
  | nil =>
    obtain h | ⟨op, hop, -⟩ := h
    · exact h
    · cases hop
  | cons first ops ih =>
    refine ih (fun op hop => hops op (List.mem_cons_of_mem _ hop)) (fun op hop => hu op (List.mem_cons_of_mem _ hop)) ?_
    by_cases hw : ∃ value', Writes path value' first
    · obtain ⟨value', hv⟩ := hw
      obtain rfl := hu first List.mem_cons_self value' hv
      exact .inl (next_of_writes hv)
    · obtain h | ⟨op, hop, hwr⟩ := h
      · left
        rw [next_of_not_writes (hops first List.mem_cons_self) (fun value' hv => hw ⟨value', hv⟩), h]
      · obtain rfl | hop := List.mem_cons.mp hop
        · exact absurd ⟨value, hwr⟩ hw
        · exact .inr ⟨op, hop, hwr⟩

end

section

variable {κ α H : Type} [Ord κ] [TransOrd κ] [LawfulEqOrd κ] {encoder : Encoder κ α H} {n : ℕ} {set : BaseSetDelta κ α}
  {minGenerationId height : ℕ} {contents : Contents H} {key : κ} {elements : ExtTreeMap κ α}
  {handle : κ × α → TreeOperation H} {given : α → Option H} {order : IterationOrder κ α}

structure Handles (encoder : Encoder κ α H) (handle : κ × α → TreeOperation H) (given : α → Option H) : Prop where
  isWrite : ∀ pair, IsWrite (handle pair)
  writes_iff : ∀ pair path value, Writes path value (handle pair) ↔ encoder.encodeKey pair.1 = path ∧
    value = given pair.2

omit [TransOrd κ] [LawfulEqOrd κ] [Ord κ] in
lemma handles_modification (encoder : Encoder κ α H) (height : ℕ) :
    Handles encoder (handleModification encoder alwaysActive height)
    fun element => some (encoder.encodeValue element) where
  isWrite pair := by simp [handleModification, alwaysActive, IsWrite]
  writes_iff pair path value := by simp [handleModification, alwaysActive, Writes]

omit [TransOrd κ] [LawfulEqOrd κ] [Ord κ] in
lemma handles_removal (encoder : Encoder κ α H) :
    Handles encoder (fun pair => .unset (encoder.encodeKey pair.1)) fun _ => none where
  isWrite _ := trivial
  writes_iff _ _ _ := Iff.rfl

lemma run_modifications (hencoder : encoder.Valid n) (hh : Handles encoder handle given) (key : κ) :
    (Runs.run Contents.next contents (modifications order set minGenerationId handle elements)).delta
      (encoder.encodeKey key) =
      if needsApplication set minGenerationId key then
        match elements[key]? with
        | some element => given element
        | none => contents.delta (encoder.encodeKey key)
      else contents.delta (encoder.encodeKey key) := by
  apply run_of_writes
  · intro op hop
    obtain ⟨pair, -, rfl⟩ := List.mem_map.mp hop
    exact hh.isWrite pair
  · intro op hop value' hw
    obtain ⟨pair, hp, rfl⟩ := List.mem_map.mp hop
    obtain ⟨hmem, hn⟩ := List.mem_filter.mp hp
    obtain ⟨hkey, rfl⟩ := (hh.writes_iff _ _ _).mp hw
    obtain rfl := hencoder.injective hkey
    have he := mem_toList_iff_getElem?_eq_some.mp ((order.perm elements).mem_iff.mp hmem)
    rw [if_pos hn, he]
  · by_cases hn : needsApplication set minGenerationId key
    · cases he : elements[key]? with
      | none =>
        left
        rw [if_pos hn]
      | some element =>
        right
        rw [if_pos hn]
        refine ⟨handle (key, element), List.mem_map.mpr ⟨(key, element), ?_, rfl⟩, ?_⟩
        · exact List.mem_filter.mpr ⟨(order.perm elements).mem_iff.mpr (mem_toList_iff_getElem?_eq_some.mpr he), hn⟩
        · exact (hh.writes_iff _ _ _).mpr ⟨rfl, rfl⟩
    · left
      rw [if_neg hn]

omit [LawfulEqOrd κ] in
lemma run_modifications_of_not_key (hh : Handles encoder handle given) {path : TreeNodePath}
    (hp : ∀ key, encoder.encodeKey key ≠ path) :
    (Runs.run Contents.next contents (modifications order set minGenerationId handle elements)).delta path =
      contents.delta path := by
  apply run_of_writes
  · intro op hop
    obtain ⟨pair, -, rfl⟩ := List.mem_map.mp hop
    exact hh.isWrite pair
  · intro op hop value' hw
    obtain ⟨pair, -, rfl⟩ := List.mem_map.mp hop
    exact absurd ((hh.writes_iff _ _ _).mp hw).1 (hp pair.1)
  · exact .inl rfl

omit [LawfulEqOrd κ] in
lemma keyLength_modifications (hencoder : encoder.Valid n) (hh : Handles encoder handle given) :
    ∀ op ∈ modifications order set minGenerationId handle elements, op.KeyLength n := by
  intro op hop
  obtain ⟨pair, -, rfl⟩ := List.mem_map.mp hop
  have hw := hh.writes_iff pair (encoder.encodeKey pair.1) (given pair.2)
  have hlen := hencoder.length_eq pair.1
  have hm := hw.mpr ⟨rfl, rfl⟩
  cases hop' : handle pair with
  | set path value =>
    rw [hop'] at hm
    rw [TreeOperation.KeyLength, hm.1, hlen]
  | unset path =>
    rw [hop'] at hm
    rw [TreeOperation.KeyLength, hm.1, hlen]
  | setCheckpoint => trivial
  | commit => trivial
  | rebase => trivial
  | reload => trivial

end

end XpxChain.Caches
