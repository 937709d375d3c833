import XpxChain.DeltaSet.Refinement

/-! The elements of a delta satisfy a predicate, and change only where they are modified. -/

namespace XpxChain.DeltaSet

open Std Library OrderedContainers FoldedMaps BaseSetDelta DeltaElements Finset

variable {κ α : Type} [Ord κ] [TransOrd κ]

variable [LawfulEqOrd κ] {delta : BaseSetDelta κ α} {map : PlainMap κ α} {original content : ExtTreeMap κ α}
  {e : DeltaElements κ α}

/-- Every element of the delta is as `P` says. -/
def Holds (P : κ → α → Prop) (delta : BaseSetDelta κ α) : Prop :=
  ∃ map, Refines delta map ∧ ∀ (k : κ) (v : α), map.content[k]? = some v → P k v

namespace Holds

variable {β : Type} {P : κ → α → Prop}

omit [LawfulEqOrd κ] in
lemma rebase_empty : Holds P (rebase ∅ : BaseSetDelta κ α) := ⟨_, refines_rebase ∅, by simp⟩

omit [LawfulEqOrd κ] in
lemma of_findConst (h : Holds P delta) {k : κ} {v : α} (hf : delta.findConst k = some v) : P k v := by
  obtain ⟨map, hr, hp⟩ := h
  rw [findConst_eq, hr.encodes.value_eq] at hf
  exact hp k v hf

variable [DecidableEq κ]

lemma insert (h : Holds P delta) (key : κ) (element : α) (he : P key element) : Holds P (delta.insert key element).1 ∧
    ∀ k, (delta.insert key element).1.contains k ↔ k = key ∨ delta.contains k := by
  obtain ⟨map, hr, hp⟩ := h
  have hn := hr.next (.insert key element)
  refine ⟨⟨_, hn, fun k v hk => ?_⟩, fun k => ?_⟩
  · rw [PlainMap.next, getElem?_insert_eq] at hk
    split_ifs at hk with heq
    · rw [heq, ← Option.some.inj hk]
      exact he
    · exact hp k v hk
  · rw [hr.contains_iff]
    refine (hn.contains_iff k).trans ?_
    rw [PlainMap.next, ExtTreeMap.mem_insert, Std.compare_eq_iff_eq, eq_comm]

lemma remove (h : Holds P delta) (key : κ) : Holds P (delta.remove key).1 ∧
    ∀ k, (delta.remove key).1.contains k ↔ k ≠ key ∧ delta.contains k := by
  obtain ⟨map, hr, hp⟩ := h
  have hn := hr.next (.remove key)
  refine ⟨⟨_, hn, fun k v hk => ?_⟩, fun k => ?_⟩
  · rw [PlainMap.next, getElem?_erase_eq] at hk
    split_ifs at hk
    exact hp k v hk
  · rw [hr.contains_iff]
    refine (hn.contains_iff k).trans ?_
    rw [PlainMap.next, ExtTreeMap.mem_erase, ne_eq, Std.compare_eq_iff_eq, eq_comm]

lemma removeEach (keyOf : β → κ) (l : List β) (h : Holds P delta) :
    Holds P (l.foldl (fun delta x => (delta.remove (keyOf x)).1) delta) ∧
      ∀ k, (l.foldl (fun delta x => (delta.remove (keyOf x)).1) delta).contains k ↔
        k ∉ l.map keyOf ∧ delta.contains k := by
  induction l generalizing delta with
  | nil => exact ⟨h, by simp⟩
  | cons x l ih =>
    obtain ⟨hx, hcx⟩ := h.remove (keyOf x)
    obtain ⟨hl, hcl⟩ := ih hx
    refine ⟨hl, fun k => ?_⟩
    rw [List.foldl_cons, hcl, hcx, List.map_cons, List.mem_cons]
    tauto

lemma insertEach (keyOf : β → κ) (elementOf : β → α) (l : List β) (h : Holds P delta)
    (hl : ∀ x ∈ l, P (keyOf x) (elementOf x)) :
    Holds P (l.foldl (fun delta x => (delta.insert (keyOf x) (elementOf x)).1) delta) ∧
      ∀ k, (l.foldl (fun delta x => (delta.insert (keyOf x) (elementOf x)).1) delta).contains k ↔
        k ∈ l.map keyOf ∨ delta.contains k := by
  induction l generalizing delta with
  | nil => exact ⟨h, by simp⟩
  | cons x l ih =>
    obtain ⟨hx, hcx⟩ := h.insert (keyOf x) (elementOf x) (hl x List.mem_cons_self)
    obtain ⟨hr, hcl⟩ := ih hx fun y hy => hl y (List.mem_cons_of_mem _ hy)
    refine ⟨hr, fun k => ?_⟩
    rw [List.foldl_cons, hcl, hcx, List.map_cons, List.mem_cons]
    tauto

lemma size_eq (h : Holds P delta) {keys : Finset κ} (hke : ∀ k, delta.contains k ↔ k ∈ keys) :
    delta.size = keys.card := by
  obtain ⟨map, hr, -⟩ := h
  have hk : keys = keySet map.content := by
    ext k
    rw [← hke, hr.contains_iff, mem_keySet]
  rw [hr.size_eq, hk, card_keySet]

end Holds

/-- A lookup that changes nothing copies an original element, and the set is as it was. -/
structure SameContent (delta delta' : BaseSetDelta κ α) : Prop where
  findConst : ∀ k, delta'.findConst k = delta.findConst k
  contains : ∀ k, delta'.contains k = delta.contains k

omit [LawfulEqOrd κ] in
lemma SameContent.refl (delta : BaseSetDelta κ α) : SameContent delta delta := ⟨fun _ => rfl, fun _ => rfl⟩

omit [LawfulEqOrd κ] in
lemma SameContent.trans {delta' delta'' : BaseSetDelta κ α} (h : SameContent delta delta')
    (h' : SameContent delta' delta'') : SameContent delta delta'' :=
  ⟨fun k => (h'.findConst k).trans (h.findConst k), fun k => (h'.contains k).trans (h.contains k)⟩

lemma sameContent_find (delta : BaseSetDelta κ α) (key : κ) :
    SameContent delta (delta.find key fun element => element).1 := by
  unfold BaseSetDelta.find BaseSetDelta.markKey
  split_ifs
  · exact .refl delta
  · cases hc : delta.copied[key]? <;> cases ho : delta.originalElements[key]? <;> cases ha : delta.added[key]? <;>
      refine ⟨fun k => ?_, fun k => ?_⟩ <;> simp only [findConst_eq, value, BaseSetDelta.contains] <;> grind

lemma Holds.modify {P : κ → α → Prop} (h : Holds P delta) (key : κ) (change : α → α)
    (hc : ∀ v, delta.findConst key = some v → P key (change v)) : Holds P (delta.find key change).1 := by
  obtain ⟨map, hr, hp⟩ := h
  refine ⟨_, hr.next (.find key change), fun k v hk => ?_⟩
  rw [PlainMap.next, ExtTreeMap.getElem?_modify] at hk
  split_ifs at hk with heq
  · obtain ⟨old, hold, rfl⟩ := Option.map_eq_some_iff.mp hk
    obtain rfl := Std.compare_eq_iff_eq.mp heq
    refine hc old ?_
    rw [findConst_eq, hr.encodes.value_eq, hold]
  · exact hp k v hk

lemma Holds.find {P : κ → α → Prop} (h : Holds P delta) (key : κ) : Holds P (delta.find key fun element => element).1 :=
  h.modify key _ fun _ hf => h.of_findConst hf

end XpxChain.DeltaSet
