import XpxChain.Multisig.Modification

/-! What the validators accept, given that the cosigner graph is acyclic and bounded. -/

namespace XpxChain.Multisig

open Std Library Exceptions BoundedPaths ExtTreeSet Finset

variable {config : MultisigConfiguration} {cache cache' : MultisigCache} {fuel : ℕ} {key signer u v : Key}
  {transaction : ModifyMultisigAccount} {modifications : List CosignatoryModification}
  {links : MultisigEntry → KeySet} {α : Type} {f : α → Except MultisigError Unit} {l : List α}

lemma links_modify {change : MultisigEntry → MultisigEntry} (hchg : ∀ entry, links (change entry) = links entry) :
    Links links (modify key change cache) u v ↔ Links links cache u v := by
  rw [Links, Links, getElem?_modify]
  split_ifs with hu
  · cases hold : cache[u]? with
    | none => simp
    | some entry => simp [hchg]
  · rfl

lemma links_getMultisigEntry (hemp : links {} = ∅) :
    Links links (getMultisigEntry key cache) u v ↔ Links links cache u v := by
  rw [Links, Links, getElem?_getMultisigEntry]
  split_ifs with hu
  · cases hold : cache[u]? with
    | none => simp [hemp]
    | some entry => simp
  · rfl

lemma links_removeIfEmpty (hemp : ∀ entry : MultisigEntry, entry.IsEmpty → links entry = ∅) :
    Links links (removeIfEmpty key cache) u v ↔ Links links cache u v := by
  refine exists_congr fun entry => ?_
  rw [getElem?_removeIfEmpty]
  constructor
  · exact fun h => ⟨h.1.1, h.2⟩
  · exact fun h => ⟨⟨h.1, fun _ hi => ne_empty_of_mem h.2 (hemp entry hi)⟩, h.2⟩

structure CosignerGraph (config : MultisigConfiguration) (cache : MultisigCache) : Prop where
  symmetric : ∀ u v, Cosigns cache u v ↔ CosignsFor cache v u
  linked : ∀ (u : Key) (entry : MultisigEntry), cache[u]? = some entry → ¬entry.IsEmpty
  bounded : Bounded (Cosigns cache) config.maxMultisigDepth
  size_le : ∀ (u : Key) (entry : MultisigEntry), cache[u]? = some entry →
    entry.cosignatories.size ≤ config.maxCosignersPerAccount

def InRange (cache : MultisigCache) (u : Key) : Prop :=
  ∀ entry : MultisigEntry, cache[u]? = some entry → entry.cosignatories ≠ ∅ →
    (1 ≤ entry.minApproval ∧ entry.minApproval ≤ entry.cosignatories.size) ∧
      1 ≤ entry.minRemoval ∧ entry.minRemoval ≤ entry.cosignatories.size

structure WellFormed (config : MultisigConfiguration) (cache : MultisigCache) :
    Prop extends CosignerGraph config cache where
  inRange : ∀ u, InRange cache u

lemma wellFormed_empty : WellFormed config ∅ where
  symmetric u v := by simp [Cosigns, CosignsFor, Links]
  linked u entry h := by simp at h
  bounded := by
    rintro n u v (_ | ⟨⟨entry, hent, -⟩, -⟩)
    · exact Nat.zero_le _
    · simp at hent
  size_le u entry h := by simp at h
  inRange u entry h := by simp at h

lemma CosignerGraph.path_cosignsFor (h : CosignerGraph config cache) {n : ℕ}
    (hp : Path (Cosigns cache) n u v) : Path (CosignsFor cache) n v u :=
  hp.flip.mono fun a b hab => (h.symmetric b a).mp hab

lemma CosignerGraph.bounded_cosignsFor (h : CosignerGraph config cache) :
    Bounded (CosignsFor cache) config.maxMultisigDepth :=
  fun n u v hp => h.bounded n v u (hp.flip.mono fun a b hab => (h.symmetric a b).mpr hab)

def OnlyRejects {α : Type} (x : Except MultisigError α) : Prop := ∀ e, x = .error e → e.IsRejection

lemma OnlyRejects.ok {a : α} : OnlyRejects (.ok a) := FailsOnly.ok

lemma OnlyRejects.bind {β : Type} {x : Except MultisigError α} {f : α → Except MultisigError β} (h : OnlyRejects x)
    (hf : ∀ a, x = .ok a → OnlyRejects (f a)) : OnlyRejects (x >>= f) := FailsOnly.bind h hf

open OnlyRejects

lemma OnlyRejects.forM (h : ∀ a ∈ l, OnlyRejects (f a)) : OnlyRejects (l.forM f) := FailsOnly.forM h

section

variable (hgraph : CosignerGraph config cache) (hfuel : config.maxMultisigDepth < fuel) {cosignatory : Key}
include hgraph hfuel

lemma onlyRejects_validateNewCosigner : OnlyRejects (validateNewCosigner config cache fuel signer cosignatory) := by
  refine bind ?_ fun _ _ => ?_
  · rw [validateMaxCosignedAccounts]
    split
    · exact ok
    · split_ifs
      · rintro _ ⟨⟩
        trivial
      · exact ok
  · obtain ⟨top, htop, -⟩ := findAll_found
      (fun n v hp => (hgraph.bounded_cosignsFor n signer v hp).trans_lt hfuel) ((∅ : KeySet).insert signer)
    obtain ⟨bottom, hb, -⟩ := findAll_found
      (fun n v hp => (hgraph.bounded n cosignatory v hp).trans_lt hfuel) ((∅ : KeySet).insert cosignatory)
    rw [validateLoopAndLevel, findAncestors, htop, findDescendants, hb]
    change OnlyRejects (if _ then _ else if _ then _ else _)
    split_ifs
    · rintro _ ⟨⟩
      trivial
    · rintro _ ⟨⟩
      trivial
    · exact ok

lemma validateNewCosigner_eq_ok (h : validateNewCosigner config cache fuel signer cosignatory = .ok ()) :
    (∀ n, ¬Path (Cosigns cache) n cosignatory signer) ∧
      ∀ i j u v, Path (Cosigns cache) i u signer → Path (Cosigns cache) j cosignatory v →
        i + 1 + j ≤ config.maxMultisigDepth := by
  obtain ⟨_, -, hl⟩ := bind_eq_ok.mp h
  obtain ⟨top, htop, hf⟩ := findAll_found
    (fun n v hp => (hgraph.bounded_cosignsFor n signer v hp).trans_lt hfuel) ((∅ : KeySet).insert signer)
  obtain ⟨bottom, hb, hf'⟩ := findAll_found
    (fun n v hp => (hgraph.bounded n cosignatory v hp).trans_lt hfuel) ((∅ : KeySet).insert cosignatory)
  rw [validateLoopAndLevel, findAncestors, htop, findDescendants, hb] at hl
  change (if _ then _ else if _ then _ else _) = _ at hl
  split_ifs at hl with hd hany
  constructor
  · intro n hp
    apply hany
    rw [List.any_eq_true]
    refine ⟨signer, mem_toList.mpr (hf.start_mem _ mem_insert_self), ?_⟩
    rw [contains_iff_mem]
    cases n with
    | zero =>
      cases hp
      exact hf'.start_mem _ mem_insert_self
    | succ n => exact hf'.mem n signer hp
  · intro i j u v hi hj
    have ht := hf.levels i u (hgraph.path_cosignsFor hi)
    have hbo := hf'.levels j v hj
    omega

end

section

lemma collectModifications_eq_ok {added removed added' removed' : Finset Key} (hd : Disjoint added removed)
    (h : collectModifications added removed modifications = .ok (added', removed')) :
    (∀ m ∈ modifications, m.modificationType = .add ∨ m.modificationType = .del) ∧ Disjoint added' removed' ∧
      added' ∪ removed' = added ∪ removed ∪
        (modifications.map CosignatoryModification.cosignatoryPublicKey).toFinset := by
  induction modifications generalizing added removed with
  | nil =>
    cases h
    exact ⟨fun m hm => absurd hm List.not_mem_nil, hd, by simp⟩
  | cons m rest ih =>
    obtain ⟨type, key⟩ := m
    cases type with
    | unknown value => cases h
    | add =>
      rw [collectModifications] at h
      split_ifs at h with hmem
      obtain ⟨ht, hd', hu⟩ := ih (disjoint_insert_left.mpr ⟨hmem, hd⟩) h
      refine ⟨List.forall_mem_cons.mpr ⟨Or.inl rfl, ht⟩, hd', ?_⟩
      rw [hu, List.map_cons, List.toFinset_cons, insert_union, insert_union, union_insert]
    | del =>
      rw [collectModifications] at h
      split_ifs at h with hmem
      obtain ⟨ht, hd', hu⟩ := ih (disjoint_insert_right.mpr ⟨hmem, hd⟩) h
      refine ⟨List.forall_mem_cons.mpr ⟨Or.inr rfl, ht⟩, hd', ?_⟩
      rw [hu, List.map_cons, List.toFinset_cons, union_insert, insert_union, union_insert]

lemma validateCosigners_eq_ok (h : validateCosigners transaction = .ok ()) :
    (∀ m ∈ transaction.modifications, m.modificationType = .add ∨ m.modificationType = .del) ∧
      (transaction.modifications.map CosignatoryModification.cosignatoryPublicKey).Nodup := by
  obtain ⟨⟨added, removed⟩, hco, hc⟩ := bind_eq_ok.mp h
  obtain ⟨ht, hd, hu⟩ := collectModifications_eq_ok (disjoint_empty_left ∅) hco
  refine ⟨ht, ?_⟩
  change (if _ then _ else if _ then _ else _) = _ at hc
  split_ifs at hc with hm hcnt
  have hca := congrArg card hu
  rw [card_union_of_disjoint hd, union_empty, empty_union] at hca
  have hlen : (transaction.modifications.map CosignatoryModification.cosignatoryPublicKey).toFinset.card =
      (transaction.modifications.map CosignatoryModification.cosignatoryPublicKey).length := by
    rw [List.length_map, ← hca, not_not.mp hcnt]
  exact Multiset.coe_nodup.mp (Multiset.toFinset_card_eq_card_iff_nodup.mp hlen)

lemma onlyRejects_collectModifications {added removed : Finset Key} :
    OnlyRejects (collectModifications added removed modifications) := by
  induction modifications generalizing added removed with
  | nil => exact ok
  | cons m rest ih =>
    obtain ⟨type, key⟩ := m
    cases type with
    | unknown value =>
      rintro _ ⟨⟩
      trivial
    | add =>
      rw [collectModifications]
      split_ifs
      · rintro _ ⟨⟩
        trivial
      · exact ih
    | del =>
      rw [collectModifications]
      split_ifs
      · rintro _ ⟨⟩
        trivial
      · exact ih

lemma onlyRejects_validateCosigners : OnlyRejects (validateCosigners transaction) := by
  refine onlyRejects_collectModifications.bind fun sets _ => ?_
  change OnlyRejects (if _ then _ else if _ then _ else _)
  split_ifs
  · rintro _ ⟨⟩
    trivial
  · rintro _ ⟨⟩
    trivial
  · exact ok

lemma onlyRejects_validateInvalidCosigners : OnlyRejects (validateInvalidCosigners cache transaction) := by
  rw [validateInvalidCosigners]
  split
  · split_ifs
    · rintro _ ⟨⟩
      trivial
    · exact ok
  · refine forM fun m _ => ?_
    split_ifs
    · rintro _ ⟨⟩
      trivial
    · rintro _ ⟨⟩
      trivial
    · exact ok

lemma cosigns_of_validateInvalidCosigners (ht : ∀ m ∈ transaction.modifications,
      m.modificationType = .add ∨ m.modificationType = .del)
    (h : validateInvalidCosigners cache transaction = .ok ()) : ∀ m ∈ transaction.modifications,
      Cosigns cache transaction.signer m.cosignatoryPublicKey ↔ isAdd m = false := by
  intro m hm
  rw [validateInvalidCosigners] at h
  split at h
  · rename_i hn
    split_ifs at h with hdel
    have hadd : isAdd m := by
      rcases ht m hm with hty | hty
      · simp [isAdd, hty]
      · exact absurd ⟨m, hm, hty⟩ hdel
    rw [hadd]
    constructor
    · rintro ⟨entry, hent, -⟩
      rw [hn] at hent
      cases hent
    · nofun
  · rename_i entry hent
    have hc := forM_eq_ok.mp h m hm
    rw [cosigns_of_entry hent]
    split_ifs at hc with hdel hadd
    cases hi : isAdd m with
    | true => simpa [hi] using hadd
    | false => simpa [hi] using hdel

lemma countCosignatories_eq (modifications : List CosignatoryModification) {n : ℕ} (hn : n < 2 ^ 64) :
    ((countCosignatories n modifications : ℕ) : ℤ) =
    (n + (modifications.map fun m => if isAdd m then (1 : ℤ) else -1).sum) % 2 ^ 64 := by
  induction modifications generalizing n with
  | nil =>
    simp [countCosignatories]
    omega
  | cons m rest ih =>
    rw [countCosignatories, List.foldl_cons, List.map_cons, List.sum_cons]
    cases hadd : isAdd m with
    | true =>
      rw [if_pos rfl, if_pos rfl]
      refine (ih (by omega)).trans ?_
      push_cast
      omega
    | false =>
      rw [if_neg Bool.false_ne_true, if_neg Bool.false_ne_true]
      have hsub : sizeSub n 1 < 2 ^ 64 := by
        rw [sizeSub]
        split_ifs <;> omega
      refine (ih hsub).trans ?_
      rw [sizeSub]
      split_ifs with hle
      · push_cast [hle]
        omega
      · obtain rfl : n = 0 := by omega
        norm_num
        omega

end

end XpxChain.Multisig
