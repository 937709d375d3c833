import XpxChain.DeltaSet.BaseSetDelta
import XpxChain.Library.FoldedMaps
import XpxChain.Library.Runs

/-! A delta of mutable elements behaves as a plain map. -/

namespace XpxChain.DeltaSet

open Std Library OrderedContainers FoldedMaps BaseSetDelta DeltaElements Finset

variable {κ α : Type} [Ord κ] [TransOrd κ]

inductive Operation (κ α : Type)
  | insert (key : κ) (element : α)
  | remove (key : κ)
  | find (key : κ) (change : α → α)
  | backupChanges (replace : Bool)
  | restoreChanges
  | incrementGenerationId

def BaseSetDelta.next (delta : BaseSetDelta κ α) : Operation κ α → BaseSetDelta κ α
  | .insert key element => (delta.insert key element).1
  | .remove key => (delta.remove key).1
  | .find key change => (delta.find key change).1
  | .backupChanges replace => delta.backupChanges replace
  | .restoreChanges => delta.restoreChanges
  | .incrementGenerationId => delta.incrementGenerationId

structure PlainMap (κ α : Type) [Ord κ] [TransOrd κ] where
  base : ExtTreeMap κ α
  content : ExtTreeMap κ α := base
  backup : List (ExtTreeMap κ α) := []

def PlainMap.next (map : PlainMap κ α) : Operation κ α → PlainMap κ α
  | .insert key element => { map with content := map.content.insert key element }
  | .remove key => { map with content := map.content.erase key }
  | .find key change => { map with content := map.content.modify key change }
  | .backupChanges replace => { map with backup := map.content :: if replace then [] else map.backup }
  | .restoreChanges =>
    match map.backup with
    | [] => { map with content := map.base }
    | content :: backup => { map with content, backup }
  | .incrementGenerationId => map

structure DeltaElements.Consistent (original : ExtTreeMap κ α) (e : DeltaElements κ α) : Prop where
  added_new : ∀ k ∈ e.added, k ∉ original
  copied_original : ∀ k ∈ e.copied, k ∈ original
  copied_live : ∀ k ∈ e.copied, k ∉ e.removed
  removed_known : ∀ k ∈ e.removed, k ∈ original ∨ k ∈ e.added

def DeltaElements.value (original : ExtTreeMap κ α) (e : DeltaElements κ α) (k : κ) : Option α :=
  if k ∈ e.removed then none else e.copied[k]?.or (original[k]?.or e.added[k]?)

structure DeltaElements.Encodes (original : ExtTreeMap κ α) (e : DeltaElements κ α) (content : ExtTreeMap κ α) : Prop
    extends e.Consistent original where
  value_eq : ∀ k, e.value original k = content[k]?

structure Refines (delta : BaseSetDelta κ α) (map : PlainMap κ α) : Prop where
  base_eq : map.base = delta.originalElements
  encodes : delta.toDeltaElements.Encodes delta.originalElements map.content
  backup : List.Forall₂ (DeltaElements.Encodes delta.originalElements) delta.backup map.backup

lemma findConst_eq (delta : BaseSetDelta κ α) (k : κ) :
    delta.findConst k = delta.toDeltaElements.value delta.originalElements k := by
  unfold findConst value
  cases delta.copied[k]? <;> cases delta.originalElements[k]? <;> simp

lemma find_snd (delta : BaseSetDelta κ α) (k : κ) (change : α → α) : (delta.find k change).2 = delta.findConst k := by
  unfold find findConst
  split_ifs
  · rfl
  · cases delta.copied[k]? <;> cases delta.originalElements[k]? <;> cases delta.added[k]? <;> rfl

lemma encodes_empty (original : ExtTreeMap κ α) : DeltaElements.Encodes original {} original := by
  refine ⟨⟨?_, ?_, ?_, ?_⟩, ?_⟩ <;> simp [value]

section

variable (delta : BaseSetDelta κ α) (key : κ)

lemma insert_frame (element : α) :
    (delta.insert key element).1 = { delta with toDeltaElements := (delta.insert key element).1.toDeltaElements } := by
  by_cases hr : key ∈ delta.removed
  · by_cases ha : key ∈ delta.added <;> simp [BaseSetDelta.insert, BaseSetDelta.markKey, hr, ha]
  · by_cases ho : key ∈ delta.originalElements <;> simp [BaseSetDelta.insert, BaseSetDelta.markKey, hr, ho]

lemma remove_frame : (delta.remove key).1 = { delta with toDeltaElements := (delta.remove key).1.toDeltaElements } := by
  unfold remove markKey
  split_ifs
  · rfl
  · cases delta.copied[key]? <;> cases delta.added[key]? <;> cases delta.originalElements[key]? <;> rfl

lemma find_frame (change : α → α) :
    (delta.find key change).1 = { delta with toDeltaElements := (delta.find key change).1.toDeltaElements } := by
  unfold find markKey
  split_ifs
  · rfl
  · cases delta.copied[key]? <;> cases delta.originalElements[key]? <;> cases delta.added[key]? <;> rfl

end

lemma refines_rebase (original : ExtTreeMap κ α) : Refines (rebase original) { base := original } :=
  ⟨rfl, encodes_empty original, .nil⟩

variable [LawfulEqOrd κ] {delta : BaseSetDelta κ α} {map : PlainMap κ α} {original content : ExtTreeMap κ α}
  {e : DeltaElements κ α}

section

variable (h : delta.toDeltaElements.Encodes delta.originalElements content) (key : κ)

include h

lemma DeltaElements.Encodes.insert (element : α) :
    (delta.insert key element).1.toDeltaElements.Encodes delta.originalElements (content.insert key element) := by
  obtain ⟨⟨h1, h2, h3, h4⟩, hv⟩ := h
  simp only [value] at hv
  simp only [BaseSetDelta.insert, BaseSetDelta.markKey]
  -- The key was removed and added, was removed only, is an original one, or is new.
  by_cases hr : key ∈ delta.removed
  · by_cases ha : key ∈ delta.added
    · simp only [hr, ha, if_true]
      refine ⟨⟨?_, ?_, ?_, ?_⟩, ?_⟩ <;> simp only [value] <;> grind
    · simp only [hr, ha, if_true, if_false]
      refine ⟨⟨?_, ?_, ?_, ?_⟩, ?_⟩ <;> simp only [value] <;> grind
  · by_cases ho : key ∈ delta.originalElements
    · simp only [hr, ho, if_true, if_false]
      refine ⟨⟨?_, ?_, ?_, ?_⟩, ?_⟩ <;> simp only [value] <;> grind
    · simp only [hr, ho, if_false]
      refine ⟨⟨?_, ?_, ?_, ?_⟩, ?_⟩ <;> simp only [value] <;> grind

lemma DeltaElements.Encodes.remove :
    (delta.remove key).1.toDeltaElements.Encodes delta.originalElements (content.erase key) := by
  obtain ⟨⟨h1, h2, h3, h4⟩, hv⟩ := h
  simp only [value] at hv
  simp only [BaseSetDelta.remove, BaseSetDelta.markKey]
  by_cases hr : key ∈ delta.removed
  · simp only [hr, if_true]
    refine ⟨⟨h1, h2, h3, h4⟩, ?_⟩
    simp only [value]
    grind
  simp only [hr, if_false]
  cases hc : delta.copied[key]? with
  | some element => refine ⟨⟨?_, ?_, ?_, ?_⟩, ?_⟩ <;> simp only [value] <;> grind
  | none =>
    cases ha : delta.added[key]? with
    | some element => refine ⟨⟨?_, ?_, ?_, ?_⟩, ?_⟩ <;> simp only [value] <;> grind
    | none =>
      cases ho : delta.originalElements[key]? with
      | some element => refine ⟨⟨?_, ?_, ?_, ?_⟩, ?_⟩ <;> simp only [value] <;> grind
      | none =>
        refine ⟨⟨h1, h2, h3, h4⟩, ?_⟩
        simp only [value]
        grind

open ExtTreeMap

lemma DeltaElements.Encodes.find (change : α → α) :
    (delta.find key change).1.toDeltaElements.Encodes delta.originalElements (content.modify key change) := by
  obtain ⟨⟨h1, h2, h3, h4⟩, hv⟩ := h
  simp only [value] at hv
  simp only [BaseSetDelta.find, BaseSetDelta.markKey]
  by_cases hr : key ∈ delta.removed
  · simp only [hr, if_true]
    refine ⟨⟨h1, h2, h3, h4⟩, ?_⟩
    simp only [value, getElem?_modify]
    grind
  simp only [hr, if_false]
  cases hc : delta.copied[key]? with
  | some element => refine ⟨⟨?_, ?_, ?_, ?_⟩, ?_⟩ <;> simp only [value, getElem?_modify] <;> grind
  | none =>
    cases ho : delta.originalElements[key]? with
    | some element => refine ⟨⟨?_, ?_, ?_, ?_⟩, ?_⟩ <;> simp only [value, getElem?_modify] <;> grind
    | none =>
      cases ha : delta.added[key]? with
      | some element => refine ⟨⟨?_, ?_, ?_, ?_⟩, ?_⟩ <;> simp only [value, getElem?_modify] <;> grind
      | none =>
        refine ⟨⟨h1, h2, h3, h4⟩, ?_⟩
        simp only [value, getElem?_modify]
        grind

end

theorem Refines.next (h : Refines delta map) (op : Operation κ α) : Refines (delta.next op) (map.next op) := by
  obtain ⟨hba, he, hb⟩ := h
  cases op with
  | insert key element =>
    rw [BaseSetDelta.next, insert_frame]
    exact ⟨hba, he.insert key element, hb⟩
  | remove key =>
    rw [BaseSetDelta.next, remove_frame]
    exact ⟨hba, he.remove key, hb⟩
  | find key change =>
    rw [BaseSetDelta.next, find_frame]
    exact ⟨hba, he.find key change, hb⟩
  | backupChanges replace =>
    refine ⟨hba, he, .cons he ?_⟩
    cases replace with
    | true => exact .nil
    | false => exact hb
  | restoreChanges =>
    simp only [BaseSetDelta.next, BaseSetDelta.restoreChanges, PlainMap.next]
    -- Both have a backup, or neither has.
    cases hd : delta.backup with
    | nil =>
      rw [hd, List.forall₂_nil_left_iff] at hb
      rw [hb]
      refine ⟨hba, ?_, .nil⟩
      rw [hba]
      exact encodes_empty _
    | cons elements backup =>
      rw [hd] at hb
      obtain ⟨content, contents, hc, hcs, hm⟩ := List.forall₂_cons_left_iff.mp hb
      rw [hm]
      exact ⟨hba, hc, hcs⟩
  | incrementGenerationId => exact ⟨hba, he, hb⟩

theorem refines_run (original : ExtTreeMap κ α) (ops : List (Operation κ α)) :
    Refines (Runs.run BaseSetDelta.next (rebase original) ops) (Runs.run PlainMap.next { base := original } ops) := by
  suffices h : ∀ (delta : BaseSetDelta κ α) (map : PlainMap κ α), Refines delta map →
      Refines (Runs.run next delta ops) (Runs.run PlainMap.next map ops) from
    h _ _ (refines_rebase original)
  induction ops with
  | nil => exact fun _ _ h => h
  | cons op ops ih => exact fun _ _ h => ih _ _ (h.next op)

section

omit [LawfulEqOrd κ] in
lemma Refines.contains_iff (h : Refines delta map) (k : κ) : delta.contains k ↔ k ∈ map.content := by
  obtain ⟨h1, h2, h3, h4⟩ := h.encodes.toConsistent
  have hv := h.encodes.value_eq k
  simp only [contains, decide_eq_true_eq]
  simp only [value] at hv
  grind

omit [LawfulEqOrd κ] in
lemma Refines.insert_snd (h : Refines delta map) {k : κ} (element : α) (hnew : k ∉ map.content) :
    (delta.insert k element).2 = .inserted ∨ (delta.insert k element).2 = .unremoved := by
  rw [← h.contains_iff] at hnew
  simp only [BaseSetDelta.contains, decide_eq_true_eq, not_and_or, not_or, not_not] at hnew
  by_cases hrem : k ∈ delta.removed
  · by_cases ha : k ∈ delta.added <;> simp [BaseSetDelta.insert, BaseSetDelta.markKey, hrem, ha]
  · obtain ⟨ha, ho⟩ := hnew.resolve_left hrem
    simp [BaseSetDelta.insert, BaseSetDelta.markKey, hrem, ha, ho]

omit [LawfulEqOrd κ] in
lemma Refines.remove_snd (h : Refines delta map) {k : κ} (hmem : k ∈ map.content) :
    (delta.remove k).2 ≠ .none ∧ (delta.remove k).2 ≠ .redundant := by
  rw [← h.contains_iff] at hmem
  simp only [contains, decide_eq_true_eq] at hmem
  obtain ⟨hrem, hk⟩ := hmem
  rw [remove]
  cases hc : delta.copied[k]? <;> cases ha : delta.added[k]? <;> cases ho : delta.originalElements[k]? <;>
    simp_all

variable [DecidableEq κ]

lemma Refines.keySet_eq (h : Refines delta map) :
    keySet map.content ∪ keySet delta.removed = keySet delta.originalElements ∪ keySet delta.added := by
  ext k
  have hc := h.contains_iff k
  simp only [contains, decide_eq_true_eq] at hc
  have hr := h.encodes.removed_known k
  simp only [mem_union, mem_keySet]
  tauto

lemma Refines.size_eq (h : Refines delta map) : delta.size = map.content.size := by
  have hl : Disjoint (keySet map.content) (keySet delta.removed) := by
    rw [disjoint_left]
    intro k hk hr
    rw [mem_keySet, ← h.contains_iff] at hk
    simp only [contains, decide_eq_true_eq] at hk
    exact hk.1 (mem_keySet.mp hr)
  have hri : Disjoint (keySet delta.originalElements) (keySet delta.added) := by
    rw [disjoint_right]
    intro k ha ho
    exact h.encodes.added_new k (mem_keySet.mp ha) (mem_keySet.mp ho)
  have hc := congrArg card h.keySet_eq
  rw [card_union_of_disjoint hl, card_union_of_disjoint hri] at hc
  simp only [card_keySet] at hc
  rw [size, ← hc, Nat.add_sub_cancel]

end

section

lemma foldlM_updateCopied (l : List (κ × α)) (m : ExtTreeMap κ α) (h : ∀ p ∈ l, p.1 ∈ m) :
    l.foldlM updateCopied m = .ok (l.foldl (fun m p => m.insert p.1 p.2) m) := by
  induction l generalizing m with
  | nil => rfl
  | cons p l ih =>
    have hp : (m.erase p.1).insert p.1 p.2 = m.insert p.1 p.2 := by
      apply ExtTreeMap.ext_getElem?
      intro k
      simp only [ExtTreeMap.getElem?_insert, ExtTreeMap.getElem?_erase]
      split_ifs <;> rfl
    rw [List.foldlM_cons, updateCopied, if_pos (h p List.mem_cons_self), hp]
    apply ih
    intro q hq
    rw [ExtTreeMap.mem_insert]
    exact .inr (h q (List.mem_cons_of_mem _ hq))

variable [DecidableEq κ]

lemma updateSet_eq (h : e.Encodes original content) : updateSet original e = .ok content := by
  set added := e.added.toList.foldl (fun m p => m.insertIfNew p.1 p.2) original with ha
  have hget : ∀ k, added[k]? = original[k]?.or e.added[k]? := getElem?_insertNewEntries e.added original
  have hc : e.copied.toList.foldlM updateCopied added =
      .ok (e.copied.toList.foldl (fun m p => m.insert p.1 p.2) added) := by
    apply foldlM_updateCopied
    intro p hp
    have hk : p.1 ∈ e.copied := by
      rw [ExtTreeMap.mem_iff_isSome_getElem?, ExtTreeMap.mem_toList_iff_getElem?_eq_some.mp hp]
      rfl
    have ho := h.copied_original _ hk
    rw [ExtTreeMap.mem_iff_isSome_getElem?] at ho ⊢
    cases hv : original[p.1]? <;> simp_all
  simp only [updateSet, ← ha, hc]
  apply congrArg Except.ok
  apply ExtTreeMap.ext_getElem?
  intro k
  rw [getElem?_eraseEntries, getElem?_insertEntries, hget, ← h.value_eq]
  rfl

lemma Refines.commit_eq (h : Refines delta map) : delta.commit = .ok (rebase map.content) := by
  rw [commit, updateSet_eq h.encodes]
  rfl

end

end XpxChain.DeltaSet
