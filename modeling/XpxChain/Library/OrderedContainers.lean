import Mathlib

/-! Ordered maps and sets as finite sets of keys, with iteration in ascending order. -/

namespace XpxChain.Library.OrderedContainers

open Std ExtTreeMap

section

variable {κ α : Type} [Ord κ] [TransOrd κ] {m : ExtTreeMap κ α} {j k : κ} {v : α}

lemma mem_of_getElem? (h : m[k]? = some v) : k ∈ m := by
  rw [mem_iff_isSome_getElem?, h]
  rfl

lemma not_mem_iff : k ∉ m ↔ m[k]? = none := by
  rw [mem_iff_isSome_getElem?, Option.not_isSome_iff_eq_none]

variable [LawfulEqOrd κ]

lemma mem_insert_of_mem (h : k ∈ m) : j ∈ m.insert k v ↔ j ∈ m := by
  rw [mem_insert, Std.compare_eq_iff_eq]
  exact or_iff_right_of_imp fun heq => heq ▸ h

variable [DecidableEq κ]

lemma getElem?_insert_eq : (m.insert k v)[j]? = if j = k then some v else m[j]? := by
  simp only [getElem?_insert, Std.compare_eq_iff_eq, eq_comm (a := k)]

lemma getElem?_erase_eq : (m.erase k)[j]? = if j = k then none else m[j]? := by
  simp only [getElem?_erase, Std.compare_eq_iff_eq, eq_comm (a := k)]

variable {P : κ → α → Prop} (hm : ∀ j w, j ≠ k → m[j]? = some w → P j w)
include hm

lemma forall_insert (hk : P k v) : ∀ j w, (m.insert k v)[j]? = some w → P j w := by
  intro j w h
  rw [getElem?_insert_eq] at h
  split_ifs at h with heq
  · exact heq ▸ Option.some.inj h ▸ hk
  · exact hm j w heq h

lemma forall_erase : ∀ j w, (m.erase k)[j]? = some w → P j w := by
  intro j w h
  rw [getElem?_erase_eq] at h
  split_ifs at h with heq
  exact hm j w heq h

end

section

variable {κ α : Type} [Ord κ] [TransOrd κ] [LawfulEqOrd κ] [DecidableEq κ]

def keySet (m : ExtTreeMap κ α) : Finset κ := m.keys.toFinset

variable {m : ExtTreeMap κ α} {k : κ} {v : α}

@[simp] lemma mem_keySet : k ∈ keySet m ↔ k ∈ m := by
  simp [keySet]

lemma mem_keySet_iff : k ∈ keySet m ↔ ∃ v, m[k]? = some v := by
  rw [mem_keySet, mem_iff_isSome_getElem?, Option.isSome_iff_exists]

lemma card_keySet (m : ExtTreeMap κ α) : (keySet m).card = m.size := by
  have hd : m.keys.Nodup := by
    simpa only [List.Nodup, ne_eq, Std.compare_eq_iff_eq] using m.distinct_keys
  rw [keySet, List.toFinset_card_of_nodup hd, length_keys]

@[simp] lemma keySet_empty : keySet (∅ : ExtTreeMap κ α) = ∅ := by
  ext j
  simp

@[simp] lemma keySet_insert : keySet (m.insert k v) = insert k (keySet m) := by
  ext j
  simp [@eq_comm _ k]

@[simp] lemma keySet_insertIfNew : keySet (m.insertIfNew k v) = insert k (keySet m) := by
  ext j
  simp [@eq_comm _ k]

lemma keySet_foldl_insertIfNew {l : List κ} {f : κ → α} :
    keySet (l.foldl (fun m k => m.insertIfNew k (f k)) m) = keySet m ∪ l.toFinset := by
  induction l generalizing m with
  | nil => simp
  | cons k l ih =>
    rw [List.foldl_cons, ih, keySet_insertIfNew, List.toFinset_cons, Finset.insert_union, Finset.union_insert]

def insertSome (f : κ → Option α) (m : ExtTreeMap κ α) (k : κ) : ExtTreeMap κ α :=
  match f k with
  | some v => m.insert k v
  | none => m

lemma getElem?_insertSome (f : κ → Option α) (m : ExtTreeMap κ α) (k j : κ) :
    (insertSome f m k)[j]? = if k = j then (f k).or m[j]? else m[j]? := by
  cases hf : f k <;> simp [insertSome, hf, getElem?_insert]

lemma getElem?_foldl_insertSome (f : κ → Option α) (l : List κ) (m : ExtTreeMap κ α) (j : κ) :
    (l.foldl (insertSome f) m)[j]? = if j ∈ l then (f j).or m[j]? else m[j]? := by
  induction l generalizing m with
  | nil => simp
  | cons k l ih =>
    rw [List.foldl_cons, ih, getElem?_insertSome]
    by_cases hk : k = j
    · subst hk
      cases f k <;> simp
    · simp [hk, Ne.symm hk]

end

section

variable {κ α : Type} [Ord κ] [TransOrd κ] [LawfulEqOrd κ] [DecidableEq κ] {f : κ → α → ℕ} {m n : ExtTreeMap κ α}
  {k : κ}

def sumEntries (f : κ → α → ℕ) (m : ExtTreeMap κ α) : ℕ := ∑ k ∈ keySet m, m[k]?.elim 0 (f k)

@[simp] lemma sumEntries_empty : sumEntries f (∅ : ExtTreeMap κ α) = 0 := by simp [sumEntries]

lemma sum_elim_of_subset {t : Finset κ} (h : keySet m ⊆ t) : ∑ k ∈ t, m[k]?.elim 0 (f k) = sumEntries f m := by
  refine (Finset.sum_subset h fun j _ hj => ?_).symm
  rw [mem_keySet, not_mem_iff] at hj
  rw [hj, Option.elim_none]

lemma sumEntries_add_of_agree (h : ∀ j ≠ k, n[j]? = m[j]?) :
    sumEntries f n + m[k]?.elim 0 (f k) = sumEntries f m + n[k]?.elim 0 (f k) := by
  set t := insert k (keySet m ∪ keySet n)
  have hk : k ∈ t := Finset.mem_insert_self _ _
  have hm : keySet m ⊆ t := Finset.subset_union_left.trans (Finset.subset_insert k _)
  have hn : keySet n ⊆ t := Finset.subset_union_right.trans (Finset.subset_insert k _)
  have hr : ∑ j ∈ t.erase k, n[j]?.elim 0 (f j) = ∑ j ∈ t.erase k, m[j]?.elim 0 (f j) :=
    Finset.sum_congr rfl fun j hj => by rw [h j (Finset.ne_of_mem_erase hj)]
  rw [← sum_elim_of_subset hm, ← sum_elim_of_subset hn, ← Finset.add_sum_erase _ _ hk, ← Finset.add_sum_erase t _ hk,
    hr]
  omega

lemma sumEntries_insert {v : α} : sumEntries f (m.insert k v) + m[k]?.elim 0 (f k) = sumEntries f m + f k v := by
  have h : ∀ j ≠ k, (m.insert k v)[j]? = m[j]? := fun j hj => by rw [getElem?_insert_eq, if_neg hj]
  simpa using sumEntries_add_of_agree h

lemma sumEntries_erase : sumEntries f (m.erase k) + m[k]?.elim 0 (f k) = sumEntries f m := by
  have h : ∀ j ≠ k, (m.erase k)[j]? = m[j]? := fun j hj => by rw [getElem?_erase_eq, if_neg hj]
  simpa using sumEntries_add_of_agree h

lemma sumEntries_eq_sum_toList (f : κ → α → ℕ) (m : ExtTreeMap κ α) :
    sumEntries f m = (m.toList.map fun pair => f pair.1 pair.2).sum := by
  have hd : m.keys.Nodup := by
    simpa only [List.Nodup, ne_eq, Std.compare_eq_iff_eq] using m.distinct_keys
  rw [sumEntries, keySet, List.sum_toFinset _ hd, ← map_fst_toList_eq_keys, List.map_map]
  congr 1
  apply List.map_congr_left
  intro pair hp
  simp [mem_toList_iff_getElem?_eq_some.mp hp]

end

section

variable {α : Type} [Ord α] [TransOrd α] [LawfulEqOrd α]

def insertInto (a : α) (t : ExtTreeSet α) : ExtTreeSet α := t.insert a

instance : LeftCommutative (insertInto (α := α)) where
  left_comm a b t := by
    apply ExtTreeSet.ext_mem
    intro c
    simp only [insertInto, ExtTreeSet.mem_insert, Std.compare_eq_iff_eq]
    tauto

def ascending (s : Finset α) : List α := (s.val.foldr insertInto ∅).toList

lemma mem_foldr_insertInto (s : Multiset α) (a : α) : a ∈ s.foldr insertInto ∅ ↔ a ∈ s := by
  induction s using Multiset.induction with
  | empty => simp
  | cons b s ih => simp [insertInto, ih, @eq_comm _ b]

@[simp] lemma mem_ascending {s : Finset α} {a : α} : a ∈ ascending s ↔ a ∈ s := by
  rw [ascending, ExtTreeSet.mem_toList, mem_foldr_insertInto, Finset.mem_val]

lemma nodup_ascending (s : Finset α) : (ascending s).Nodup := by
  simpa only [ascending, List.Nodup, ne_eq, Std.compare_eq_iff_eq] using (s.val.foldr insertInto ∅).distinct_toList

lemma pairwise_ascending (s : Finset α) : (ascending s).Pairwise fun a b => compare a b = .lt :=
  (s.val.foldr insertInto ∅).ordered_toList

lemma length_ascending (s : Finset α) : (ascending s).length = s.card := by
  classical
  rw [← List.toFinset_card_of_nodup (nodup_ascending s)]
  congr 1
  ext a
  simp

end

end XpxChain.Library.OrderedContainers
