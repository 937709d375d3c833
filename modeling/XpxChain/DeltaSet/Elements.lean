import XpxChain.DeltaSet.Refinement

/-! The iterator over a delta goes through the elements of the map, and the operations of a delta are those of the map.
-/

namespace XpxChain.DeltaSet

open Std Library OrderedContainers BaseSetDelta DeltaElements Iterator Finset

variable {κ α : Type} [Ord κ] [TransOrd κ] [LawfulEqOrd κ] {delta : BaseSetDelta κ α} {map : PlainMap κ α}

section

omit [LawfulEqOrd κ]

def Iterator.rest (delta : BaseSetDelta κ α) (iter : Iterator κ α) : List (κ × α) :=
  (iter.original.filter (fun pair => pair.1 ∉ delta.removed)).map
    (fun pair => (pair.1, delta.copied[pair.1]?.getD pair.2)) ++
    iter.added.filter (fun pair => pair.1 ∉ delta.removed)

def Iterator.Valid (delta : BaseSetDelta κ α) (iter : Iterator κ α) : Prop :=
  match iter.original with
  | pair :: _ => pair.1 ∉ delta.removed
  | [] => ∀ pair ∈ iter.added.head?, pair.1 ∉ delta.removed

lemma filter_dropWhile {β : Type} (p : β → Bool) (l : List β) : (l.dropWhile p).filter (!p ·) = l.filter (!p ·) := by
  induction l with
  | nil => rfl
  | cons a l ih => by_cases h : p a <;> simp [h, ih]

lemma Iterator.rest_moveToValidElement (iter : Iterator κ α) :
    (iter.moveToValidElement delta).rest delta = iter.rest delta := by
  have ho := filter_dropWhile (fun pair => decide (pair.1 ∈ delta.removed)) iter.original
  have ha := filter_dropWhile (fun pair => decide (pair.1 ∈ delta.removed)) iter.added
  simp only [← decide_not] at ho ha
  unfold moveToValidElement rest
  split
  next h =>
    rw [h] at ho
    simp only [← ho, ha, List.filter_nil]
  next h => simp only [ho]

lemma Iterator.valid_moveToValidElement (iter : Iterator κ α) : (iter.moveToValidElement delta).Valid delta := by
  unfold moveToValidElement
  have hh : ∀ (l : List (κ × α)), ∀ pair ∈ (l.dropWhile fun pair => decide (pair.1 ∈ delta.removed)).head?,
      pair.1 ∉ delta.removed := by
    intro l pair hp
    have := List.head?_dropWhile_not (fun pair : κ × α => decide (pair.1 ∈ delta.removed)) l
    rw [hp] at this
    simpa using this
  split
  next h => exact hh iter.added
  next h =>
    cases hd : iter.original.dropWhile fun pair => decide (pair.1 ∈ delta.removed) with
    | nil => exact absurd hd h
    | cons pair l =>
      apply hh iter.original
      rw [hd]
      rfl

lemma Iterator.rest_eq {iter : Iterator κ α} (h : iter.Valid delta) :
    iter.rest delta = (iter.current delta).toList ++ (iter.advance delta).rest delta := by
  rw [advance, rest_moveToValidElement]
  unfold Valid at h
  unfold current rest
  cases ho : iter.original with
  | cons pair l =>
    rw [ho] at h
    simp [h]
  | nil =>
    rw [ho] at h
    cases ha : iter.added with
    | nil => simp
    | cons pair l =>
      have hp : pair.1 ∉ delta.removed := h pair (by simp [ha])
      simp [hp]

lemma Iterator.position_advance (iter : Iterator κ α) : (iter.advance delta).position = iter.position + 1 := by
  unfold advance moveToValidElement
  split <;> rfl

lemma elementsFrom_eq (fuel : ℕ) (iter : Iterator κ α) (hval : iter.Valid delta)
    (hsz : iter.position + (iter.rest delta).length = delta.size) (hf : (iter.rest delta).length ≤ fuel) :
    delta.elementsFrom fuel iter = iter.rest delta := by
  induction fuel generalizing iter with
  | zero => exact (List.eq_nil_of_length_eq_zero (Nat.le_zero.mp hf)).symm
  | succ fuel ih =>
    unfold elementsFrom
    have hr := rest_eq hval
    split_ifs with hend
    · exact (List.eq_nil_of_length_eq_zero (by omega)).symm
    -- The loop is not at its end, so the iterator is at an element.
    have hcu : ∃ pair, iter.current delta = some pair := by
      cases hc : iter.current delta with
      | some pair => exact ⟨pair, rfl⟩
      | none =>
        have hnil : iter.rest delta = [] := by
          unfold current at hc
          cases ho : iter.original with
          | cons pair l => simp [ho] at hc
          | nil => simp_all [rest]
        exact absurd (by rw [hnil] at hsz; simpa using hsz) hend
    obtain ⟨pair, hp⟩ := hcu
    have hlen : (iter.rest delta).length = ((iter.advance delta).rest delta).length + 1 := by
      rw [hr, hp, List.length_append]
      exact Nat.add_comm _ _
    have hpo : (iter.advance delta).position = iter.position + 1 := position_advance iter
    have ht : delta.elementsFrom fuel (iter.advance delta) = (iter.advance delta).rest delta := by
      apply ih
      · exact valid_moveToValidElement _
      · omega
      · omega
    rw [hr, ht]

end

lemma mem_rest_begin (h : Refines delta map) (pair : κ × α) :
    pair ∈ (Iterator.begin delta).rest delta ↔ pair ∈ map.content.toList := by
  obtain ⟨k, v⟩ := pair
  have hv := h.encodes.value_eq k
  have ho := h.encodes.copied_original k
  have ha := h.encodes.added_new k
  rw [begin, rest_moveToValidElement, ExtTreeMap.mem_toList_iff_getElem?_eq_some, ← hv]
  simp only [rest, value, List.mem_append, List.mem_map, List.mem_filter, decide_eq_true_eq,
    Prod.exists, Prod.mk.injEq, ExtTreeMap.mem_toList_iff_getElem?_eq_some]
  constructor
  · rintro (⟨k', v', ⟨hor, hr⟩, rfl, rfl⟩ | ⟨had, hr⟩)
    · rw [if_neg hr, hor]
      cases delta.copied[k']? <;> rfl
    · grind
  · grind

lemma nodup_rest_begin (h : Refines delta map) : ((Iterator.begin delta).rest delta).Nodup := by
  have hke : ((begin delta).rest delta).map Prod.fst =
      delta.originalElements.keys.filter (fun k => k ∉ delta.removed) ++
        delta.added.keys.filter (fun k => k ∉ delta.removed) := by
    rw [begin, rest_moveToValidElement]
    simp [rest, ← ExtTreeMap.map_fst_toList_eq_keys, List.filter_map, Function.comp_def]
  apply List.Nodup.of_map Prod.fst
  rw [hke]
  apply List.Nodup.append
  · exact ExtTreeMap.nodup_keys.filter _
  · exact ExtTreeMap.nodup_keys.filter _
  · intro k hk hk'
    rw [List.mem_filter, ExtTreeMap.mem_keys] at hk hk'
    exact h.encodes.added_new k hk'.1 hk.1

variable [DecidableEq κ]

lemma Refines.elements_perm (h : Refines delta map) : delta.elements.Perm map.content.toList := by
  have hnd := nodup_rest_begin h
  have hp : ((begin delta).rest delta).Perm map.content.toList := by
    rw [List.perm_ext_iff_of_nodup hnd]
    · exact mem_rest_begin h
    · apply List.Nodup.of_map Prod.fst
      rw [ExtTreeMap.map_fst_toList_eq_keys]
      exact ExtTreeMap.nodup_keys
  have hlen : ((begin delta).rest delta).length = delta.size := by
    rw [hp.length_eq, ExtTreeMap.length_toList, h.size_eq]
  have hpo : (begin delta).position = 0 := by
    unfold begin moveToValidElement
    split <;> rfl
  have he : delta.elements = (begin delta).rest delta := by
    apply elementsFrom_eq
    · exact valid_moveToValidElement _
    · omega
    · exact hlen.le
  rw [he]
  exact hp

/-- After every sequence of operations a delta is the map on which the same operations were done. -/
theorem delta_refines_map (original : ExtTreeMap κ α) (ops : List (Operation κ α)) :
    let delta := Runs.run next (rebase original) ops
    let map := Runs.run PlainMap.next { base := original } ops
    (∀ k, delta.contains k = map.content.contains k) ∧ (∀ k, delta.findConst k = map.content[k]?) ∧
      (∀ k change, (delta.find k change).2 = map.content[k]?) ∧ delta.size = map.content.size ∧
      delta.elements.Perm map.content.toList ∧ delta.commit = .ok (rebase map.content) := by
  intro delta map
  have h : Refines delta map := refines_run original ops
  have hfind : ∀ k, delta.findConst k = map.content[k]? := fun k => by rw [findConst_eq, h.encodes.value_eq]
  refine ⟨fun k => ?_, hfind, fun k change => ?_, h.size_eq, h.elements_perm, h.commit_eq⟩
  · rw [Bool.eq_iff_iff, h.contains_iff, ExtTreeMap.contains_iff_mem]
  · rw [find_snd, hfind]

/-- A change that is restored, of a set in which one element was replaced by another. -/
theorem delta_refines_map_restored : (Runs.run BaseSetDelta.next (rebase (ExtTreeMap.ofList [(1, 10)]))
        [.remove 1, .insert 2 20, .backupChanges true, .find 2 (· + 1), .restoreChanges]).commit =
      .ok (rebase (ExtTreeMap.ofList [(2, 20)])) := by
  exact (delta_refines_map (ExtTreeMap.ofList [(1, 10)]) _).2.2.2.2.2

end XpxChain.DeltaSet
