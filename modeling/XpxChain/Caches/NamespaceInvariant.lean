import XpxChain.Caches.NamespaceHistories
import XpxChain.DeltaSet.Elements

/-! What ties the flat map and the counters of the namespace cache to its histories, and what a change of one history
has to keep. -/

namespace XpxChain.Caches

open Std DeltaSet Accounts Library OrderedContainers Exceptions NamespaceCacheDelta Option Finset
open RootNamespaceHistory (activeIds deepCount)

section

variable {a b : ℕ}

lemma addAmount_modEq : addAmount a b ≡ a + b [MOD 2 ^ 64] := Nat.mod_modEq _ _

lemma addAmount_lt : addAmount a b < 2 ^ 64 := Nat.mod_lt _ (by decide)

lemma sizeSub_lt (ha : a < 2 ^ 64) : sizeSub a b < 2 ^ 64 := by
  unfold sizeSub
  split_ifs <;> omega

lemma sizeSub_add_modEq (hb : b ≤ 2 ^ 64) : sizeSub a b + b ≡ a [MOD 2 ^ 64] := by
  unfold sizeSub
  split_ifs with h
  · rw [Nat.sub_add_cancel h]
  · rw [Nat.sub_add_cancel (hb.trans (Nat.le_add_left _ _))]
    exact Nat.add_modEq_right

lemma sizeSub_sizeSub_modEq {size old new : ℕ} (hold : old < 2 ^ 64) (hnew : new < 2 ^ 64) (ha : old ≡ a [MOD 2 ^ 64])
    (hb : new ≡ b [MOD 2 ^ 64]) : sizeSub size (sizeSub old new) + a ≡ size + b [MOD 2 ^ 64] := by
  have hd := sizeSub_add_modEq (a := old) hnew.le
  have hsz := sizeSub_add_modEq (a := size) (sizeSub_lt (b := new) hold).le
  simp only [Nat.ModEq] at ha hb hd hsz ⊢
  omega

end

variable {rootOf : NamespaceId → NamespaceId} {cache cache' : NamespaceCacheDelta}
  {map map' : PlainMap NamespaceId RootNamespaceHistory} {id : NamespaceId} {history history' : RootNamespaceHistory}
  {back : RootNamespace} {rest : List RootNamespace}

structure Represents (rootOf : NamespaceId → NamespaceId) (cache : NamespaceCacheDelta)
    (map : PlainMap NamespaceId RootNamespaceHistory) : Prop where
  refines : Refines cache.historyById map
  sound : ∀ (id : NamespaceId) (history : RootNamespaceHistory), map.content[id]? = some history →
    history.id = id ∧ history.Sound rootOf
  paths : Holds (fun id (path : NamespacePath) => path.head? = some (rootOf id)) cache.namespaceById
  contains_iff : ∀ c, cache.namespaceById.contains c ↔
    ∃ history, map.content[rootOf c]? = some history ∧ c ∈ history.activeIds
  activeSize_lt : cache.activeSize < 2 ^ 64
  activeSize_modEq : cache.activeSize ≡ sumEntries (fun _ history => history.activeIds.card) map.content [MOD 2 ^ 64]
  deepSize_lt : cache.deepSize < 2 ^ 64
  deepSize_modEq : cache.deepSize ≡ sumEntries (fun _ history => history.deepCount) map.content [MOD 2 ^ 64]

structure Replaces (rootOf : NamespaceId → NamespaceId) (cache cache' : NamespaceCacheDelta)
    (id : NamespaceId) (old new : Option RootNamespaceHistory) : Prop where
  sound : ∀ history, new = some history → history.id = id ∧ history.Sound rootOf
  paths : Holds (fun id (path : NamespacePath) => path.head? = some (rootOf id)) cache'.namespaceById
  contains_same : ∀ c, rootOf c ≠ id → (cache'.namespaceById.contains c ↔ cache.namespaceById.contains c)
  contains_new : ∀ c, rootOf c = id →
    (cache'.namespaceById.contains c ↔ ∃ history, new = some history ∧ c ∈ history.activeIds)
  activeSize_lt : cache'.activeSize < 2 ^ 64
  activeSize_modEq : cache'.activeSize + old.elim 0 (·.activeIds.card) ≡ cache.activeSize +
    new.elim 0 (·.activeIds.card) [MOD 2 ^ 64]
  deepSize_lt : cache'.deepSize < 2 ^ 64
  deepSize_modEq : cache'.deepSize + old.elim 0 (·.deepCount) ≡ cache.deepSize + new.elim 0 (·.deepCount) [MOD 2 ^ 64]

lemma modEq_of_replace {size size' sum sum' old new n : ℕ} (h : size ≡ sum [MOD n])
    (hsz : size' + old ≡ size + new [MOD n]) (hsum : sum' + old = sum + new) : size' ≡ sum' [MOD n] := by
  apply Nat.ModEq.add_right_cancel' old
  rw [hsum]
  exact hsz.trans (h.add_right new)

lemma Represents.replace (h : Represents rootOf cache map) (id : NamespaceId) (hr : Refines cache'.historyById map')
    (hoth : ∀ j ≠ id, map'.content[j]? = map.content[j]?)
    (hre : Replaces rootOf cache cache' id map.content[id]? map'.content[id]?) : Represents rootOf cache' map' := by
  refine ⟨hr, ?_, hre.paths, ?_, hre.activeSize_lt, ?_, hre.deepSize_lt, ?_⟩
  · intro j history hj
    by_cases hjid : j = id
    · subst hjid
      exact hre.sound history hj
    · exact h.sound j history (hoth j hjid ▸ hj)
  · intro c
    by_cases hc : rootOf c = id
    · rw [hre.contains_new c hc, hc]
    · rw [hre.contains_same c hc, h.contains_iff, hoth _ hc]
  · exact modEq_of_replace h.activeSize_modEq hre.activeSize_modEq (sumEntries_add_of_agree hoth)
  · exact modEq_of_replace h.deepSize_modEq hre.deepSize_modEq (sumEntries_add_of_agree hoth)

section

variable (h : Represents rootOf cache map)
include h

lemma Represents.findConst (id : NamespaceId) : cache.historyById.findConst id = map.content[id]? := by
  rw [findConst_eq, h.refines.encodes.value_eq]

lemma Represents.contains_iff_active (hhist : map.content[id]? = some history) {c : NamespaceId} (hc : rootOf c = id) :
    cache.namespaceById.contains c ↔ c ∈ history.activeIds := by
  rw [h.contains_iff, hc, hhist]
  simp

open ExtTreeMap

section

variable (hhist : map.content[id]? = some history) (change : RootNamespaceHistory → RootNamespaceHistory)
include hhist change

lemma Represents.modify (hh : cache'.historyById = (cache.historyById.find id change).1)
    (hr : Replaces rootOf cache cache' id (some history) (some (change history))) :
    ∃ map', Represents rootOf cache' map' := by
  have hn : Refines (cache.historyById.find id change).1 { map with content := map.content.modify id change } :=
    h.refines.next (.find id change)
  refine ⟨_, h.replace id (hh ▸ hn) ?_ ?_⟩
  · intro j hj
    rw [getElem?_modify, if_neg (by simpa using hj.symm)]
  · rw [getElem?_modify, if_pos (by simp), hhist]
    exact hr

lemma Represents.discard (hh : cache'.historyById = ((cache.historyById.find id change).1.remove id).1)
    (hr : Replaces rootOf cache cache' id (some history) none) : ∃ map', Represents rootOf cache' map' := by
  have hn : Refines ((cache.historyById.find id change).1.remove id).1
      { map with content := (map.content.modify id change).erase id } :=
    (h.refines.next (.find id change)).next (.remove id)
  refine ⟨_, h.replace id (hh ▸ hn) ?_ ?_⟩
  · intro j hj
    rw [getElem?_erase_eq, if_neg hj, getElem?_modify, if_neg (by simpa using hj.symm)]
  · rw [getElem?_erase, if_pos (by simp), hhist]
    exact hr

end

end

end XpxChain.Caches
