import XpxChain.Library.OrderedContainers
import XpxChain.Multisig.Invariants

/-! The two checks of the cosigners of an aggregate: whether they suffice for each of its transactions, and whether each
of them is eligible for one. -/

namespace XpxChain.Multisig

open Std Library Exceptions BoundedPaths OrderedContainers ExtTreeSet

/-- The modifications are those of a transaction that modifies a multisig account. The additional cosigners come from
the plugin of the transaction. -/
structure EmbeddedTransaction where
  signer : Key
  modifications : Option (List CosignatoryModification)
  additionalRequiredCosigners : KeySet

structure Aggregate where
  signer : Key
  transactions : List EmbeddedTransaction
  cosignatures : Finset Key

def getOperationType (transaction : EmbeddedTransaction) : OperationType :=
  match transaction.modifications with
  | none => .normal
  | some modifications =>
    let hasAdds := modifications.any (·.modificationType = .add)
    let hasDeletes := modifications.any (·.modificationType = .del)
    if hasDeletes then if hasAdds then .max else .removal else .normal

section

variable (cache : MultisigCache) (fuel : ℕ)

def allSatisfied (cosigners : Finset Key) (operationType : OperationType) : List Key → Except MultisigError Bool
  | [] => .ok true
  | publicKey :: publicKeys => do
    if ← isSatisfied cache cosigners operationType fuel publicKey then allSatisfied cosigners operationType publicKeys
    else return false

def hasSufficientCosigners (cosigners : Finset Key) (transaction : EmbeddedTransaction) : Except MultisigError Bool :=
  allSatisfied cache fuel cosigners (getOperationType transaction)
    (transaction.additionalRequiredCosigners.insert transaction.signer).toList

def findEligibleOfTransaction (eligible : Finset Key) (transaction : EmbeddedTransaction) :
    Except MultisigError (Finset Key) := do
  let eligible ← findEligibleCosigners cache fuel transaction.signer eligible
  transaction.additionalRequiredCosigners.toList.foldlM
    (fun eligible requiredCosigner => findEligibleCosigners cache fuel requiredCosigner eligible) eligible

def ineligibleCosigners (strictSigner : Bool) (aggregate : Aggregate) : Except MultisigError (Finset Key) := do
  let eligible ← aggregate.transactions.foldlM (findEligibleOfTransaction cache fuel) ∅
  let cosigners := if strictSigner then insert aggregate.signer aggregate.cosignatures else aggregate.cosignatures
  return cosigners \ eligible

end

def Aggregate.cosigners (aggregate : Aggregate) : Finset Key := insert aggregate.signer aggregate.cosignatures

def Leaf (cache : MultisigCache) (key leaf : Key) : Prop :=
  (∃ n, Path (Cosigns cache) n key leaf) ∧ cosignatoriesOf cache leaf = ∅

section

variable {cache : MultisigCache} {fuel : ℕ} {key leaf : Key} {cosigners cosigners' : Finset Key}
  {operationType : OperationType}

lemma leaf_self (h : cosignatoriesOf cache key = ∅) : Leaf cache key key := ⟨⟨0, .refl key⟩, h⟩

lemma Leaf.head {next : Key} (hc : Cosigns cache key next) (h : Leaf cache next leaf) : Leaf cache key leaf := by
  obtain ⟨⟨n, hp⟩, hemp⟩ := h
  exact ⟨⟨n + 1, .head hc hp⟩, hemp⟩

lemma Leaf.cases (h : Leaf cache key leaf) :
    (leaf = key ∧ cosignatoriesOf cache key = ∅) ∨ ∃ next, Cosigns cache key next ∧ Leaf cache next leaf := by
  obtain ⟨⟨n, hp⟩, hemp⟩ := h
  cases hp with
  | refl => exact Or.inl ⟨rfl, hemp⟩
  | head hc hp => exact Or.inr ⟨_, hc, ⟨_, hp⟩, hemp⟩

lemma not_cosigns_of_none (h : cache[key]? = none) (next : Key) : ¬Cosigns cache key next := by
  rintro ⟨entry, hent, -⟩
  rw [h] at hent
  cases hent

lemma not_cosigns_of_isEmpty {entry : MultisigEntry} (hent : cache[key]? = some entry)
    (hemp : entry.cosignatories.isEmpty) (next : Key) : ¬Cosigns cache key next := by
  rintro ⟨entry', hent', hmem⟩
  rw [hent] at hent'
  cases hent'
  rw [ExtTreeSet.isEmpty_iff] at hemp
  exact ExtTreeSet.ne_empty_of_mem hmem hemp

lemma isSatisfied_mono (hfuel : ∀ n v, Path (Cosigns cache) n key v → n < fuel)
    (hl : ∀ leaf, Leaf cache key leaf → leaf ∈ cosigners → leaf ∈ cosigners') :
    ∃ satisfied satisfied', isSatisfied cache cosigners operationType fuel key = .ok satisfied ∧
      isSatisfied cache cosigners' operationType fuel key = .ok satisfied' ∧ (satisfied → satisfied') := by
  refine fuel_induction (P := fun fuel key => (∀ leaf, Leaf cache key leaf → leaf ∈ cosigners → leaf ∈ cosigners') →
    ∃ satisfied satisfied', isSatisfied cache cosigners operationType fuel key = .ok satisfied ∧
      isSatisfied cache cosigners' operationType fuel key = .ok satisfied' ∧ (satisfied → satisfied')) ?_ hfuel hl
  intro fuel key ih hl
  rw [isSatisfied, isSatisfied]
  cases hent : cache[key]? with
  | none =>
    refine ⟨_, _, rfl, rfl, ?_⟩
    simp only [decide_eq_true_eq]
    exact hl key (leaf_self (by simp [cosignatoriesOf, hent]))
  | some entry =>
    dsimp only
    by_cases hemp : entry.cosignatories.isEmpty
    · rw [if_pos hemp, if_pos hemp]
      refine ⟨_, _, rfl, rfl, ?_⟩
      simp only [decide_eq_true_eq]
      exact hl key (leaf_self (by simpa [cosignatoriesOf, hent] using hemp))
    · rw [if_neg hemp, if_neg hemp]
      -- The approvers are counted side by side.
      have hcnt : ∀ (keys : List Key), (∀ next ∈ keys, next ∈ entry.cosignatories) → ∀ m n : ℕ, m ≤ n → ∃ m' n' : ℕ,
          keys.foldlM (fun numApprovers next => do
              let satisfied ← isSatisfied cache cosigners operationType fuel next
              return numApprovers + if satisfied then 1 else 0) m = Except.ok m' ∧
            keys.foldlM (fun numApprovers next => do
              let satisfied ← isSatisfied cache cosigners' operationType fuel next
              return numApprovers + if satisfied then 1 else 0) n = Except.ok n' ∧ m' ≤ n' := by
        intro keys
        induction keys with
        | nil => exact fun _ m n hle => ⟨m, n, rfl, rfl, hle⟩
        | cons next keys ihKeys =>
          intro hk m n hle
          obtain ⟨hne, hk⟩ := List.forall_mem_cons.mp hk
          have hc : Cosigns cache key next := ⟨entry, hent, hne⟩
          obtain ⟨satisfied, satisfied', hs, hs', himp⟩ := ih next hc fun leaf hla => hl leaf (hla.head hc)
          have hst : (m + if satisfied = true then 1 else 0) ≤ n + if satisfied' = true then 1 else 0 := by
            split_ifs with ht ht' ht'
            · omega
            · exact absurd (himp ht) ht'
            · omega
            · omega
          obtain ⟨m', n', hm', hn', hle'⟩ := ihKeys hk _ _ hst
          refine ⟨m', n', ?_, ?_, hle'⟩
          · rw [List.foldlM_cons, hs]
            exact hm'
          · rw [List.foldlM_cons, hs']
            exact hn'
      obtain ⟨m, n, hm, hn, hle⟩ := hcnt entry.cosignatories.toList (fun next hne => mem_toList.mp hne) 0 0 le_rfl
      refine ⟨_, _, bind_eq_ok.mpr ⟨m, hm, rfl⟩, bind_eq_ok.mpr ⟨n, hn, rfl⟩, ?_⟩
      simp only [decide_eq_true_eq]
      exact fun hr => hr.trans hle

lemma foldlM_collect {α : Type} {collect : Finset Key → α → Except MultisigError (Finset Key)} (covers : α → Key → Prop)
    {l : List α} (h : ∀ a ∈ l, ∀ s, ∃ t, collect s a = .ok t ∧ s ⊆ t ∧ ∀ k, covers a k → k ∈ t) (s : Finset Key) :
    ∃ t, l.foldlM collect s = .ok t ∧ s ⊆ t ∧ ∀ a ∈ l, ∀ k, covers a k → k ∈ t := by
  induction l generalizing s with
  | nil => exact ⟨s, rfl, subset_rfl, by simp⟩
  | cons a l ih =>
    obtain ⟨ha, hl⟩ := List.forall_mem_cons.mp h
    obtain ⟨next, hn, hs, hc⟩ := ha s
    obtain ⟨t, ht, hs', hc'⟩ := ih hl next
    refine ⟨t, ?_, hs.trans hs', ?_⟩
    · exact bind_eq_ok.mpr ⟨next, hn, ht⟩
    · exact List.forall_mem_cons.mpr ⟨fun k hk => hs' (hc k hk), hc'⟩

lemma findEligibleCosigners_leaves (hfuel : ∀ n v, Path (Cosigns cache) n key v → n < fuel) (eligible : Finset Key) :
    ∃ found, findEligibleCosigners cache fuel key eligible = .ok found ∧ eligible ⊆ found ∧
      ∀ leaf, Leaf cache key leaf → leaf ∈ found := by
  refine fuel_induction (P := fun fuel key => ∀ eligible, ∃ found,
    findEligibleCosigners cache fuel key eligible = .ok found ∧
    eligible ⊆ found ∧ ∀ leaf, Leaf cache key leaf → leaf ∈ found) ?_ hfuel eligible
  intro fuel key ih eligible
  rw [findEligibleCosigners]
  have hse : (∀ next, ¬Cosigns cache key next) → ∀ leaf, Leaf cache key leaf → leaf ∈ insert key eligible := by
    intro hn leaf hl
    rcases hl.cases with ⟨rfl, -⟩ | ⟨next, hc, -⟩
    · exact Finset.mem_insert_self leaf eligible
    · exact absurd hc (hn next)
  cases hent : cache[key]? with
  | none => exact ⟨_, rfl, Finset.subset_insert _ _, hse (not_cosigns_of_none hent)⟩
  | some entry =>
    dsimp only
    by_cases hemp : entry.cosignatories.isEmpty
    · rw [if_pos hemp]
      exact ⟨_, rfl, Finset.subset_insert _ _, hse (not_cosigns_of_isEmpty hent hemp)⟩
    · rw [if_neg hemp]
      obtain ⟨found, hf, hs, hco⟩ := foldlM_collect (Leaf cache)
        (fun next (hne : next ∈ entry.cosignatories.toList) => ih next ⟨entry, hent, mem_toList.mp hne⟩) eligible
      refine ⟨found, hf, hs, ?_⟩
      intro leaf hl
      rcases hl.cases with ⟨rfl, hn⟩ | ⟨next, ⟨entry', hent', hne⟩, hr⟩
      · rw [cosignatoriesOf, hent] at hn
        exact absurd (isEmpty_iff.mpr hn) hemp
      · rw [hent] at hent'
        cases hent'
        exact hco next (mem_toList.mpr hne) leaf hr

end

section

variable {cache : MultisigCache} {fuel : ℕ} {cosigners cosigners' : Finset Key} {transaction : EmbeddedTransaction}
  {aggregate : Aggregate}

def EmbeddedTransaction.Requires (transaction : EmbeddedTransaction) (key : Key) : Prop :=
  key ∈ transaction.additionalRequiredCosigners.insert transaction.signer

lemma path_lt_fuel (hacyclic : Acyclic (Cosigns cache)) (hfuel : cache.size < fuel) (key : Key) :
    ∀ n v, Path (Cosigns cache) n key v → n < fuel := by
  intro n v hp
  have hs : ∀ u v, Cosigns cache u v → u ∈ keySet cache := by
    rintro u v ⟨entry, hent, -⟩
    exact mem_keySet_iff.mpr ⟨entry, hent⟩
  refine (hacyclic.length_le_card hs hp).trans_lt ?_
  rwa [card_keySet]

lemma allSatisfied_mono {operationType : OperationType} {keys : List Key}
    (hfuel : ∀ key ∈ keys, ∀ n v, Path (Cosigns cache) n key v → n < fuel)
    (hla : ∀ key ∈ keys, ∀ leaf, Leaf cache key leaf → leaf ∈ cosigners → leaf ∈ cosigners')
    (h : allSatisfied cache fuel cosigners operationType keys = .ok true) :
    allSatisfied cache fuel cosigners' operationType keys = .ok true := by
  induction keys with
  | nil => rfl
  | cons key keys ih =>
    obtain ⟨hfu, hf⟩ := List.forall_mem_cons.mp hfuel
    obtain ⟨hle, hl⟩ := List.forall_mem_cons.mp hla
    obtain ⟨satisfied, satisfied', hs, hs', himp⟩ := @isSatisfied_mono _ _ _ _ _ operationType hfu hle
    rw [allSatisfied, hs] at h
    rw [allSatisfied, hs']
    cases satisfied with
    | false => cases h
    | true =>
      rw [himp rfl]
      exact ih hf hl h

section

variable (hacyclic : Acyclic (Cosigns cache)) (hfuel : cache.size < fuel)
include hacyclic hfuel

lemma hasSufficientCosigners_mono
    (hl : ∀ key, transaction.Requires key → ∀ leaf, Leaf cache key leaf → leaf ∈ cosigners → leaf ∈ cosigners')
    (h : hasSufficientCosigners cache fuel cosigners transaction = .ok true) :
    hasSufficientCosigners cache fuel cosigners' transaction = .ok true := by
  apply allSatisfied_mono _ _ h
  · exact fun key _ => path_lt_fuel hacyclic hfuel key
  · exact fun key hkey => hl key (mem_toList.mp hkey)

lemma findEligibleOfTransaction_leaves (eligible : Finset Key) :
    ∃ found, findEligibleOfTransaction cache fuel eligible transaction = .ok found ∧ eligible ⊆ found ∧
      ∀ leaf, (∃ key, transaction.Requires key ∧ Leaf cache key leaf) → leaf ∈ found := by
  have hkey := fun key => @findEligibleCosigners_leaves cache fuel key (path_lt_fuel hacyclic hfuel key)
  obtain ⟨found, hf, hs, hsi⟩ := hkey transaction.signer eligible
  obtain ⟨found', hf', hs', hre⟩ := foldlM_collect (Leaf cache)
    (fun key (_ : key ∈ transaction.additionalRequiredCosigners.toList) => hkey key) found
  refine ⟨found', bind_eq_ok.mpr ⟨found, hf, hf'⟩, hs.trans hs', ?_⟩
  rintro leaf ⟨key, hr, hl⟩
  rw [EmbeddedTransaction.Requires, ExtTreeSet.mem_insert, Std.compare_eq_iff_eq] at hr
  rcases hr with rfl | ha
  · exact hs' (hsi leaf hl)
  · exact hre key (ExtTreeSet.mem_toList.mpr ha) leaf hl

lemma ineligibleCosigners_eq_ok (strictSigner : Bool) (aggregate : Aggregate) :
    ∃ ineligible, ineligibleCosigners cache fuel strictSigner aggregate = .ok ineligible ∧
      ∀ transaction ∈ aggregate.transactions, ∀ key, transaction.Requires key →
        ∀ leaf, Leaf cache key leaf → leaf ∉ ineligible := by
  obtain ⟨eligible, he, -, hc⟩ := foldlM_collect
    (fun (transaction : EmbeddedTransaction) leaf => ∃ key, transaction.Requires key ∧ Leaf cache key leaf)
    (fun transaction (_ : transaction ∈ aggregate.transactions) => findEligibleOfTransaction_leaves hacyclic hfuel) ∅
  refine ⟨_, bind_eq_ok.mpr ⟨eligible, he, rfl⟩, ?_⟩
  intro transaction htx key hr leaf hl hmem
  exact (Finset.mem_sdiff.mp hmem).2 (hc transaction htx leaf ⟨key, hr, hl⟩)

end

/-- The cosigners that are not marked eligible can go, and others can come. -/
theorem ineligible_cosigners_never_matter (hacyclic : Acyclic (Cosigns cache)) (hfuel : cache.size < fuel)
    (hsufficient : ∀ transaction ∈ aggregate.transactions,
      hasSufficientCosigners cache fuel aggregate.cosigners transaction = .ok true) :
    (∀ strictSigner, ∃ ineligible, ineligibleCosigners cache fuel strictSigner aggregate = .ok ineligible ∧
      ∀ transaction ∈ aggregate.transactions,
        hasSufficientCosigners cache fuel (aggregate.cosigners \ ineligible) transaction = .ok true) ∧
    ∀ more, aggregate.cosigners ⊆ more → ∀ transaction ∈ aggregate.transactions,
      hasSufficientCosigners cache fuel more transaction = .ok true := by
  constructor
  · intro strictSigner
    obtain ⟨ineligible, hineligible, hleaves⟩ := ineligibleCosigners_eq_ok hacyclic hfuel strictSigner aggregate
    refine ⟨ineligible, hineligible, fun transaction htransaction => ?_⟩
    apply hasSufficientCosigners_mono hacyclic hfuel _ (hsufficient transaction htransaction)
    intro key hrequires leaf hleaf hmem
    exact Finset.mem_sdiff.mpr ⟨hmem, hleaves transaction htransaction key hrequires leaf hleaf⟩
  · intro more hsubset transaction htransaction
    apply hasSufficientCosigners_mono hacyclic hfuel _ (hsufficient transaction htransaction)
    exact fun _ _ leaf _ hmem => hsubset hmem

def sampleAggregate : Aggregate := ⟨9, [⟨4, none, ∅⟩], {2, 8}⟩

theorem ineligible_cosigners_never_matter_sample :
    ∃ cache, sampleTransactions.foldlM (execute sampleConfiguration 4) ∅ = .ok cache ∧
      ∃ ineligible, ineligibleCosigners cache 10 true sampleAggregate = .ok ineligible ∧
        ∀ transaction ∈ sampleAggregate.transactions,
          hasSufficientCosigners cache 10 (sampleAggregate.cosigners \ ineligible) transaction = .ok true := by
  have hchecked : (sampleTransactions.foldlM (execute sampleConfiguration 4) ∅ >>= fun cache => do
      let sufficient ← hasSufficientCosigners cache 10 sampleAggregate.cosigners ⟨4, none, ∅⟩
      return (cache.size, sufficient)) = .ok (4, true) := by
    decide +kernel
  obtain ⟨cache, hcache, hchecked⟩ := bind_eq_ok.mp hchecked
  obtain ⟨sufficient, hsufficient, hsame⟩ := bind_eq_ok.mp hchecked
  obtain ⟨hsize, rfl⟩ := Prod.mk.inj (Except.ok.inj hsame)
  refine ⟨cache, hcache, (ineligible_cosigners_never_matter (wellFormed_run (by decide) hcache).bounded.acyclic ?_ ?_).1
    true⟩
  · rw [hsize]
    decide
  · intro transaction htransaction
    rw [List.mem_singleton.mp htransaction]
    exact hsufficient

end

end XpxChain.Multisig

