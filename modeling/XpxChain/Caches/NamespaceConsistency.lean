import XpxChain.Caches.NamespaceChildren
import XpxChain.Caches.NamespaceRoots

/-! The flat map and the counters of the namespace cache agree with its histories. -/

namespace XpxChain.Caches

open Std DeltaSet Accounts Library OrderedContainers Exceptions NamespaceCacheDelta Option Finset
open RootNamespaceHistory (activeIds deepCount activeIds_of_roots prune_of_expired prune_of_active)

variable {rootOf : NamespaceId → NamespaceId} {cache cache' : NamespaceCacheDelta}
  {map map' : PlainMap NamespaceId RootNamespaceHistory} {id : NamespaceId} {history history' : RootNamespaceHistory}
  {back : RootNamespace} {rest : List RootNamespace}

section

lemma Represents.removeRoot (h : Represents rootOf cache map) (hok : cache.removeRoot id = .ok cache') :
    ∃ map', Represents rootOf cache' map' := by
  have hok' := hok
  unfold NamespaceCacheDelta.removeRoot at hok'
  rw [h.findConst] at hok'
  cases hhist : map.content[id]? with
  | none => simp [hhist] at hok'
  | some history =>
    obtain ⟨-, hs⟩ := h.sound id history hhist
    obtain ⟨back, rest, hroots⟩ := hs.exists_back
    cases rest with
    | nil => exact h.removeOnlyRoot hhist hroots hok
    | cons currentRoot rest => exact h.removeLatestRoot hhist hroots hok

lemma Represents.remove (h : Represents rootOf cache map) (hok : cache.remove id = .ok cache') :
    ∃ map', Represents rootOf cache' map' := by
  obtain ⟨⟨found, path⟩, hfound, hok⟩ := bind_eq_ok.mp hok
  replace h := h.findNamespace hfound
  by_cases hr : path.headD id = id
  · simp only [if_pos hr] at hok
    exact h.removeRoot hok
  · simp only [if_neg hr] at hok
    exact h.removeChild hok

lemma Represents.insertRoot {owner : Key} {lifetime : NamespaceLifetime} {setAliasOnRenew : Bool}
    (h : Represents rootOf cache map)
    (hor : (NamespaceCall.change (.insertRoot id owner lifetime setAliasOnRenew)).Orderly rootOf cache)
    (hok : cache.insertRoot id owner lifetime setAliasOnRenew = .ok cache') :
    ∃ map', Represents rootOf cache' map' := by
  obtain ⟨hr, hend⟩ := hor
  rw [h.findConst] at hend
  cases hhist : map.content[id]? with
  | none => exact h.insertNewRoot hr hhist hok
  | some history =>
    obtain ⟨back, rest, hroots⟩ := (h.sound id history hhist).2.exists_back
    obtain ⟨hlen, hend⟩ := hend history hhist
    have hb := hend back (by rw [hroots]; rfl)
    by_cases ho : back.owner = owner
    · exact h.renewRoot hhist hroots hlen hb ho hok
    · exact h.takeOverRoot hhist hroots hlen hb ho hok

lemma getNamespaceSizes_modEq (rootOf : NamespaceId → NamespaceId) (h : history.roots = [] ∨ history.Sound rootOf) :
    history.getNamespaceSizes.active ≡ history.activeIds.card [MOD 2 ^ 64] ∧
      history.getNamespaceSizes.deep ≡ history.deepCount [MOD 2 ^ 64] := by
  constructor
  · refine addAmount_modEq.trans ?_
    rcases h with hn | hs
    · simp [activeIds, RootNamespaceHistory.numActiveRootChildren, hn, Nat.ModEq.refl]
    · obtain ⟨back, rest, hroots⟩ := hs.exists_back
      rw [hs.card_activeIds hroots]
      simp [RootNamespaceHistory.numActiveRootChildren, hroots, Nat.ModEq.refl]
  · refine addAmount_modEq.trans ?_
    have hd : history.deepCount = history.roots.length + (history.roots.map (·.children.size)).sum := by
      rw [deepCount]
      simp
    rw [hd]
    exact (Nat.mod_modEq _ _).add_left _

lemma Represents.pruneHistory (h : Represents rootOf cache map) (hhist : map.content[id]? = some history)
    (height : Height) :
    ∃ map', Represents rootOf (cache.pruneHistory height history) map' := by
  obtain ⟨rfl, hs⟩ := h.sound id history hhist
  obtain ⟨back, rest, hroots⟩ := hs.exists_back
  obtain ⟨hact, hd⟩ := getNamespaceSizes_modEq rootOf (.inr hs)
  obtain ⟨hpa, hcon⟩ := h.paths.removeEach (fun c => c) (ascending (history.prune height).2)
  simp only [List.map_id', mem_ascending] at hcon
  by_cases hend : back.lifetime.gracePeriodEnd ≤ height
  · obtain ⟨hn, hco⟩ := prune_of_expired hs hroots hend
    obtain ⟨hact', hd'⟩ := getNamespaceSizes_modEq rootOf (.inl hn)
    have hemp : (history.prune height).1.activeIds.card = 0 ∧ (history.prune height).1.deepCount = 0 := by
      simp [activeIds, deepCount, hn]
    rw [hemp.1] at hact'
    rw [hemp.2] at hd'
    refine h.discard hhist (fun _ => (history.prune height).1) (if_pos hn) ⟨?_, hpa, ?_, ?_, sizeSub_lt h.activeSize_lt,
      sizeSub_sizeSub_modEq addAmount_lt addAmount_lt hact hact', sizeSub_lt h.deepSize_lt,
      sizeSub_sizeSub_modEq addAmount_lt addAmount_lt hd hd'⟩
    · rintro _ ⟨⟩
    · intro c hc
      refine (hcon c).trans (and_iff_right ?_)
      rw [hco]
      rintro (rfl | ⟨root, hr, hch⟩)
      · exact hc hs.root
      · exact hc (hs.child_root root hr c hch).1
    · intro c hc
      refine (hcon c).trans ?_
      rw [h.contains_iff_active hhist hc, activeIds_of_roots hroots, mem_insert, mem_keySet]
      grind
  · obtain ⟨⟨rest', hroots'⟩, hk, hco⟩ := prune_of_active hs hroots (Nat.not_le.mp hend)
    have hso : (history.prune height).1.roots ≠ [] := hroots' ▸ List.cons_ne_nil _ _
    have hs' : (history.prune height).1.Sound rootOf := hs.of_infix hk.isInfix hso
    obtain ⟨hact', hd'⟩ := getNamespaceSizes_modEq rootOf (.inr hs')
    have hsa : (history.prune height).1.activeIds = history.activeIds := by
      rw [activeIds_of_roots hroots', activeIds_of_roots hroots]
      rfl
    refine h.modify hhist (fun _ => (history.prune height).1) (if_neg hso) ⟨?_, hpa, ?_, ?_, sizeSub_lt h.activeSize_lt,
      sizeSub_sizeSub_modEq addAmount_lt addAmount_lt hact hact', sizeSub_lt h.deepSize_lt,
      sizeSub_sizeSub_modEq addAmount_lt addAmount_lt hd hd'⟩
    · rintro _ ⟨rfl⟩
      exact ⟨rfl, hs'⟩
    · intro c hc
      exact (hcon c).trans (and_iff_right fun hp => hc (hco c hp).2)
    · intro c hc
      refine (hcon c).trans ?_
      rw [h.contains_iff_active hhist hc]
      simp only [some.injEq, exists_eq_left', hsa]
      exact and_iff_right_of_imp fun hmem hp => (hco c hp).1 hmem

lemma Represents.prune (h : Represents rootOf cache map) (height : Height) :
    ∃ map', Represents rootOf (cache.prune height).1 map' := by
  suffices hs : ∀ (ids : List NamespaceId) (collected : NamespaceCacheDelta × Finset NamespaceId),
      (∃ map, Represents rootOf collected.1 map) →
        ∃ map', Represents rootOf (ids.foldl (pruneIdentifier height) collected).1 map' from
    hs _ (cache, ∅) ⟨map, h⟩
  intro ids
  induction ids with
  | nil => exact fun _ h => h
  | cons id ids ih =>
    rintro collected ⟨map, h⟩
    apply ih
    unfold pruneIdentifier
    rw [h.findConst]
    cases hhist : map.content[id]? with
    | none => exact ⟨map, h⟩
    | some history => exact h.pruneHistory hhist height

theorem Represents.call (h : Represents rootOf cache map) {call : NamespaceCall} (ho : call.Orderly rootOf cache)
    (hok : cache.call call = .ok cache') : ∃ map', Represents rootOf cache' map' := by
  match call with
  | .change (.insertRoot id owner lifetime setAliasOnRenew) => exact h.insertRoot ho hok
  | .change (.insertChild rootId path parentId id) => exact h.insertChild ho.1 ho.2.1 ho.2.2 hok
  | .change (.setAlias id newAlias) => exact h.setAlias hok
  | .change (.remove id) => exact h.remove hok
  | .prune height =>
    cases hok
    exact h.prune height

lemma represents_empty : Represents rootOf .empty { base := ∅ } := by
  refine ⟨refines_rebase ∅, ?_, .rebase_empty, ?_, ?_, ?_, ?_, ?_⟩ <;>
    simp [empty, rebase, BaseSetDelta.contains, Nat.ModEq.refl]

theorem represents_run {calls : List NamespaceCall} (ho : OrderlyCalls rootOf cache calls)
    (h : Represents rootOf cache map) (hok : calls.foldlM NamespaceCacheDelta.call cache = .ok cache') :
    ∃ map', Represents rootOf cache' map' := by
  induction calls generalizing cache map with
  | nil =>
    cases hok
    exact ⟨map, h⟩
  | cons call calls ih =>
    obtain ⟨next, hn, hok⟩ := bind_eq_ok.mp hok
    obtain ⟨map', h'⟩ := h.call ho.1 hn
    exact ih (ho.2 next hn) h' hok

end

section

variable (h : Represents rootOf cache map)
include h

lemma Represents.size_modEq : cache.activeSize ≡ cache.namespaceById.size [MOD 2 ^ 64] := by
  set ids : Finset NamespaceId := (keySet map.content).biUnion fun id => map.content[id]?.elim ∅ (·.activeIds) with hids
  have hmem : ∀ c, cache.namespaceById.contains c ↔ c ∈ ids := by
    intro c
    rw [h.contains_iff, mem_biUnion]
    constructor
    · rintro ⟨history, hhist, hc⟩
      exact ⟨rootOf c, mem_keySet_iff.mpr ⟨history, hhist⟩, by rwa [hhist]⟩
    · rintro ⟨id, hid, hc⟩
      obtain ⟨history, hhist⟩ := mem_keySet_iff.mp hid
      rw [hhist] at hc
      obtain ⟨rfl, hs⟩ := h.sound id history hhist
      exact ⟨history, by rwa [hs.rootOf_of_active hc], hc⟩
  have hca : ids.card = sumEntries (fun _ history => history.activeIds.card) map.content := by
    rw [card_biUnion]
    · refine sum_congr rfl fun id _ => ?_
      cases map.content[id]? <;> rfl
    · intro i hi j hj hij
      obtain ⟨history, hhist⟩ := mem_keySet_iff.mp hi
      obtain ⟨history', hhist'⟩ := mem_keySet_iff.mp hj
      obtain ⟨rfl, hs⟩ := h.sound i history hhist
      obtain ⟨rfl, hs'⟩ := h.sound j history' hhist'
      simp only [Function.onFun, hhist, hhist', elim_some]
      rw [disjoint_left]
      intro c hc hc'
      exact hij ((hs.rootOf_of_active hc).symm.trans (hs'.rootOf_of_active hc'))
  rw [h.paths.size_eq hmem, hca]
  exact h.activeSize_modEq

lemma Represents.contains_iff_latest (c : NamespaceId) : cache.namespaceById.contains c ↔
    ∃ id history, cache.historyById.findConst id = some history ∧
      ∃ back ∈ history.roots.head?, c = id ∨ c ∈ back.children := by
  rw [h.contains_iff]
  constructor
  · rintro ⟨history, hhist, hc⟩
    obtain ⟨hid, hs⟩ := h.sound _ history hhist
    obtain ⟨back, rest, hroots⟩ := hs.exists_back
    rw [activeIds_of_roots hroots, mem_insert, mem_keySet, hid] at hc
    exact ⟨rootOf c, history, by rw [h.findConst, hhist], back, by rw [hroots]; rfl, hc⟩
  · rintro ⟨id, history, hhist, back, hb, hc⟩
    rw [h.findConst] at hhist
    obtain ⟨rfl, hs⟩ := h.sound id history hhist
    obtain ⟨back', rest, hroots⟩ := hs.exists_back
    obtain rfl : back' = back := by simpa [hroots] using hb
    have hact : c ∈ history.activeIds := by
      rwa [activeIds_of_roots hroots, mem_insert, mem_keySet]
    exact ⟨history, by rwa [hs.rootOf_of_active hact], hact⟩

lemma Represents.deepSize_eq :
    cache.deepSize = (cache.historyById.elements.map fun pair => pair.2.deepCount).sum % 2 ^ 64 := by
  have hp := h.refines.elements_perm.map fun pair => pair.2.deepCount
  have hmod := h.deepSize_modEq
  rw [sumEntries_eq_sum_toList, ← hp.sum_eq] at hmod
  rw [← hmod, Nat.mod_eq_of_lt h.deepSize_lt]

end

/-- After any orderly calls the flat map and the counters are those of the histories. -/
theorem namespace_cache_is_consistent (rootOf : NamespaceId → NamespaceId) {calls : List NamespaceCall}
    (horderly : OrderlyCalls rootOf .empty calls) (hok : calls.foldlM NamespaceCacheDelta.call .empty = .ok cache) :
    (∀ c, cache.namespaceById.contains c = true ↔ ∃ id history, cache.historyById.findConst id = some history ∧
      ∃ back ∈ history.roots.head?, c = id ∨ c ∈ back.children) ∧
    cache.activeSize = cache.namespaceById.size % 2 ^ 64 ∧
    cache.deepSize = (cache.historyById.elements.map fun pair =>
      (pair.2.roots.map fun root => 1 + root.children.size).sum).sum % 2 ^ 64 := by
  obtain ⟨map, h⟩ := represents_run horderly represents_empty hok
  refine ⟨h.contains_iff_latest, ?_, h.deepSize_eq⟩
  rw [← h.size_modEq, Nat.mod_eq_of_lt h.activeSize_lt]

/-! A root with a child is renewed twice, taken over by another owner and pruned when its first owner's registrations
have expired. -/

def sampleRootOf (id : NamespaceId) : NamespaceId := if id = 2 ∨ id = 3 then 1 else id

def sampleCalls : List NamespaceCall :=
  [.change (.insertRoot 1 7 ⟨1, 10, 20⟩ true), .change (.insertChild 1 [1, 2] 1 2),
    .change (.insertRoot 1 7 ⟨5, 30, 40⟩ true),
    .change (.insertChild 1 [1, 2, 3] 2 3), .prune 20, .change (.remove 3),
      .change (.insertRoot 1 8 ⟨41, 60, 70⟩ true), .prune 40]

theorem namespace_cache_is_consistent_sample : ∃ cache, sampleCalls.foldlM NamespaceCacheDelta.call .empty = .ok cache ∧
    cache.activeSize = cache.namespaceById.size % 2 ^ 64 := by
  obtain ⟨cache, h⟩ : ∃ cache, sampleCalls.foldlM call .empty = .ok cache :=
    exists_ok_iff.mpr (by decide +kernel)
  exact ⟨cache, h, (namespace_cache_is_consistent sampleRootOf (by decide +kernel) h).2.1⟩

/-- The grace period is shortened between a registration and its renewal, so that the renewal expires first. -/
def shortenedCalls : List NamespaceCall :=
  [.change (.insertRoot 1 7 ⟨1, 10, 110⟩ true), .change (.insertChild 1 [1, 2] 1 2),
    .change (.insertRoot 1 7 ⟨5, 20, 20⟩ true), .prune 20]

theorem namespace_cache_loses_child : ∃ cache, shortenedCalls.foldlM NamespaceCacheDelta.call .empty = .ok cache ∧
    cache.namespaceById.contains 2 = false ∧
    ((cache.historyById.findConst 1).bind (·.roots.head?)).any (fun back => 2 ∈ back.children) = true ∧
    cache.activeSize = 2 ∧ cache.namespaceById.size = 1 := by
  have h : ((shortenedCalls.foldlM call .empty).toOption.any fun cache =>
      !cache.namespaceById.contains 2 &&
        ((cache.historyById.findConst 1).bind (·.roots.head?)).any (fun back => 2 ∈ back.children) &&
        cache.activeSize = 2 && cache.namespaceById.size = 1) = true := by
    decide +kernel
  cases hcache : shortenedCalls.foldlM call .empty with
  | error e => simp [hcache, Except.toOption] at h
  | ok cache =>
    refine ⟨cache, rfl, ?_⟩
    simpa [hcache, Except.toOption, and_assoc] using h

end XpxChain.Caches
