import XpxChain.Multisig.ValidatorResults

/-! The cosigner graph stays acyclic and bounded, its links stay symmetric and the settings of its accounts stay in
range. -/

namespace XpxChain.Multisig

open Std Library Exceptions BoundedPaths ExtTreeSet Finset

variable {config : MultisigConfiguration} {cache cache' : MultisigCache} {fuel : ℕ} {key signer u v : Key}
  {transaction : ModifyMultisigAccount} {modifications : List CosignatoryModification}
  {links : MultisigEntry → KeySet} {α : Type} {f : α → Except MultisigError Unit} {l : List α}

open OnlyRejects

section

variable (h : WellFormed config cache) (hfuel : config.maxMultisigDepth < fuel)
include h

lemma WellFormed.applicable
    (hnew : ∀ m ∈ transaction.modifications, isAdd m →
      ∀ n, ¬Path (Cosigns cache) n m.cosignatoryPublicKey transaction.signer)
    (hval : validateCosigners transaction = .ok ()) (hi : validateInvalidCosigners cache transaction = .ok ()) :
    Applicable transaction.signer (getMultisigEntry transaction.signer cache) transaction.modifications := by
  obtain ⟨ht, hnd⟩ := validateCosigners_eq_ok hval
  have hc := cosigns_of_validateInvalidCosigners ht hi
  refine ⟨hnd, ?_, ?_⟩
  · intro m hm heq
    cases hadd : isAdd m with
    | true =>
      refine hnew m hm hadd 0 ?_
      rw [heq]
      exact .refl _
    | false =>
      have hl := (hc m hm).mpr hadd
      rw [heq] at hl
      exact h.bounded.acyclic 0 _ (Path.single hl)
  · intro m hm
    rw [Cosigns, links_getMultisigEntry rfl]
    exact hc m hm

lemma WellFormed.consistent_getMultisigEntry : Consistent signer (getMultisigEntry signer cache) where
  symmetric u v := by
    rw [Cosigns, CosignsFor, links_getMultisigEntry rfl, links_getMultisigEntry rfl]
    exact h.symmetric u v
  linked u hu entry hent := by
    rw [getElem?_getMultisigEntry, if_neg (Ne.symm hu)] at hent
    exact h.linked u entry hent
  signer_entry := ⟨_, by rw [getElem?_getMultisigEntry, if_pos rfl]⟩

omit h in
lemma cosigns_removeIfEmpty : Cosigns (removeIfEmpty key cache) u v ↔ Cosigns cache u v :=
  links_removeIfEmpty fun _ hemp => hemp.1

omit h in
lemma cosignsFor_removeIfEmpty : CosignsFor (removeIfEmpty key cache) u v ↔ CosignsFor cache u v :=
  links_removeIfEmpty fun _ hemp => hemp.2

section

variable
  (hmodd : Modified transaction.signer transaction.modifications (getMultisigEntry transaction.signer cache) cache')
include hmodd

lemma WellFormed.size_modified (hmax : validateMaxCosigners config cache transaction = .ok ()) {entry' : MultisigEntry}
    (hent' : cache'[transaction.signer]? = some entry') :
    entry'.cosignatories.size ≤ config.maxCosignersPerAccount := by
  rw [validateMaxCosigners] at hmax
  split_ifs at hmax with hcnt
  set entry : MultisigEntry := (cache[transaction.signer]?).getD {}
  have hent : (getMultisigEntry transaction.signer cache)[transaction.signer]? = some entry := by
    rw [getElem?_getMultisigEntry, if_pos rfl]
  have hsz : cosignatoriesOf cache transaction.signer = entry.cosignatories := by
    rw [cosignatoriesOf]
    cases hold : cache[transaction.signer]? with
    | none => simp [entry, hold]
    | some e => simp [entry, hold]
  have hle : entry.cosignatories.size ≤ config.maxCosignersPerAccount := by
    cases hold : cache[transaction.signer]? with
    | none => simp [entry, hold]
    | some e =>
      have := h.size_le _ _ hold
      simpa [entry, hold] using this
  have hlt := config.maxCosignersPerAccount_lt
  obtain ⟨entry'', hent'', -, -, hsz'⟩ := hmodd.signer entry hent
  rw [hent'] at hent''
  cases hent''
  have hc := countCosignatories_eq transaction.modifications (n := entry.cosignatories.size) (by omega)
  rw [← hsz', ← hsz] at hc
  have hb : (transaction.modifications.map fun m => if isAdd m then (1 : ℤ) else -1).sum ≤
      transaction.modifications.length := by
    have hsum := List.sum_le_card_nsmul (transaction.modifications.map fun m => if isAdd m then (1 : ℤ) else -1) 1 (by
      intro x hx
      obtain ⟨m, -, rfl⟩ := List.mem_map.mp hx
      split_ifs <;> omega)
    simpa using hsum
  have hco := transaction.modificationsCount_lt
  omega

lemma WellFormed.graph_modified (hmax : validateMaxCosigners config cache transaction = .ok ())
    (hl : ∀ m ∈ transaction.modifications, isAdd m →
      (∀ n, ¬Path (Cosigns cache) n m.cosignatoryPublicKey transaction.signer) ∧
      ∀ i j u v, Path (Cosigns cache) i u transaction.signer → Path (Cosigns cache) j m.cosignatoryPublicKey v →
      i + 1 + j ≤ config.maxMultisigDepth) : CosignerGraph config (removeIfEmpty transaction.signer cache') := by
  constructor
  · intro u v
    rw [cosigns_removeIfEmpty, cosignsFor_removeIfEmpty]
    exact hmodd.consistent.symmetric u v
  · intro u entry hent
    obtain ⟨hent, hemp⟩ := getElem?_removeIfEmpty.mp hent
    by_cases hu : u = transaction.signer
    · exact hemp hu.symm
    · exact hmodd.consistent.linked u hu entry hent
  · refine h.bounded.star transaction.signer
      (fun c => ∃ m ∈ transaction.modifications, isAdd m ∧ m.cosignatoryPublicKey = c) ?_ ?_ ?_
    · intro u v huv
      rcases hmodd.cosigns u v (cosigns_removeIfEmpty.mp huv) with hold | ⟨rfl, ha⟩
      · exact Or.inl ((links_getMultisigEntry rfl).mp hold)
      · exact Or.inr ⟨rfl, ha⟩
    · rintro c ⟨m, hm, hadd, rfl⟩
      exact (hl m hm hadd).1
    · rintro c ⟨m, hm, hadd, rfl⟩
      exact (hl m hm hadd).2
  · intro u entry hent
    obtain ⟨hent, -⟩ := getElem?_removeIfEmpty.mp hent
    by_cases hu : u = transaction.signer
    · subst hu
      exact h.size_modified hmodd hmax hent
    · by_cases hcos : entry.cosignatories = ∅
      · rw [hcos]
        exact Nat.zero_le _
      · obtain ⟨entry₀, hent₀, heq⟩ := hmodd.settings u hu entry hent hcos
        rw [getElem?_getMultisigEntry, if_neg (Ne.symm hu)] at hent₀
        rw [← heq]
        exact h.size_le u entry₀ hent₀

lemma WellFormed.inRange_modified (hu : u ≠ transaction.signer) :
    InRange (removeIfEmpty transaction.signer cache') u := by
  intro entry hent hcos
  obtain ⟨hent, -⟩ := getElem?_removeIfEmpty.mp hent
  obtain ⟨entry₀, hent₀, heq⟩ := hmodd.settings u hu entry hent hcos
  rw [getElem?_getMultisigEntry, if_neg (Ne.symm hu)] at hent₀
  have := h.inRange u entry₀ hent₀
  rw [heq] at this
  exact this hcos

end

include hfuel

lemma WellFormed.executeCosigners : OnlyRejects (executeCosigners config fuel transaction cache) ∧
    ∀ cache', executeCosigners config fuel transaction cache = .ok cache' →
      CosignerGraph config cache' ∧ ∀ u ≠ transaction.signer, InRange cache' u := by
  have hnew : OnlyRejects ((transaction.modifications.filter isAdd).forM fun modification =>
      validateNewCosigner config cache fuel transaction.signer modification.cosignatoryPublicKey) :=
    forM fun _ _ => onlyRejects_validateNewCosigner h.toCosignerGraph hfuel
  have hmo : ((transaction.modifications.filter isAdd).forM fun modification =>
        validateNewCosigner config cache fuel transaction.signer modification.cosignatoryPublicKey) = .ok () →
      validateCosigners transaction = .ok () → validateMaxCosigners config cache transaction = .ok () →
      validateInvalidCosigners cache transaction = .ok () →
      ∃ cache', modifyCosigners transaction cache = .ok cache' ∧
        CosignerGraph config cache' ∧ ∀ u ≠ transaction.signer, InRange cache' u := by
    intro hf hval hmax hi
    have hl : ∀ m ∈ transaction.modifications, isAdd m → _ := fun m hm hadd =>
      validateNewCosigner_eq_ok h.toCosignerGraph hfuel (forM_eq_ok.mp hf m (List.mem_filter.mpr ⟨hm, hadd⟩))
    obtain ⟨modified, hfo, hmodd⟩ := foldlM_applyModification_ok h.consistent_getMultisigEntry
      (h.applicable (fun m hm hadd => (hl m hm hadd).1) hval hi)
    refine ⟨removeIfEmpty transaction.signer modified, ?_, h.graph_modified hmodd hmax hl, fun u hu =>
      h.inRange_modified hmodd hu⟩
    exact bind_eq_ok.mpr ⟨modified, hfo, rfl⟩
  constructor
  · refine hnew.bind fun _ hf => onlyRejects_validateCosigners.bind fun _ hval => bind ?_ fun _ hmax =>
      onlyRejects_validateInvalidCosigners.bind fun _ hi => ?_
    · rw [validateMaxCosigners]
      split_ifs
      · rintro _ ⟨⟩
        trivial
      · exact ok
    · obtain ⟨cache', hok, -⟩ := hmo hf hval hmax hi
      rw [hok]
      exact ok
  · intro cache' hok
    obtain ⟨_, hf, hok⟩ := bind_eq_ok.mp hok
    obtain ⟨_, hval, hok⟩ := bind_eq_ok.mp hok
    obtain ⟨_, hmax, hok⟩ := bind_eq_ok.mp hok
    obtain ⟨_, hi, hok⟩ := bind_eq_ok.mp hok
    obtain ⟨cache'', hok', hres⟩ := hmo hf hval hmax hi
    rw [hok] at hok'
    cases hok'
    exact hres

end

section

lemma addDelta_of_bounds {value : ℕ} {delta : ℤ} {size : ℕ} (hn : 0 ≤ value + delta) (hle : value + delta ≤ size)
    (hsz : size < 2 ^ 8) : (addDelta value delta : ℤ) = value + delta := by
  rw [addDelta, Int.toNat_of_nonneg (Int.emod_nonneg _ (by norm_num)), Int.emod_eq_of_lt hn (by omega)]

lemma cosigns_modifySettings : Cosigns (modifySettings transaction cache) u v ↔ Cosigns cache u v :=
  links_modify (by intro entry; rfl)

lemma cosignsFor_modifySettings : CosignsFor (modifySettings transaction cache) u v ↔ CosignsFor cache u v :=
  links_modify (by intro entry; rfl)

lemma wellFormed_modifySettings (hgraph : CosignerGraph config cache) (ho : ∀ u ≠ transaction.signer, InRange cache u)
    (h : validateSettings cache transaction = .ok ()) : WellFormed config (modifySettings transaction cache) where
  symmetric u v := by
    rw [cosigns_modifySettings, cosignsFor_modifySettings]
    exact hgraph.symmetric u v
  linked u entry hent := by
    rw [modifySettings, getElem?_modify] at hent
    split_ifs at hent with hu
    · obtain ⟨entry₀, hent₀, rfl⟩ := Option.map_eq_some_iff.mp hent
      exact hgraph.linked u entry₀ hent₀
    · exact hgraph.linked u entry hent
  bounded := hgraph.bounded.mono fun u v huv => cosigns_modifySettings.mp huv
  size_le u entry hent := by
    rw [modifySettings, getElem?_modify] at hent
    split_ifs at hent with hu
    · obtain ⟨entry₀, hent₀, rfl⟩ := Option.map_eq_some_iff.mp hent
      exact hgraph.size_le u entry₀ hent₀
    · exact hgraph.size_le u entry hent
  inRange u entry hent hcos := by
    rw [modifySettings, getElem?_modify] at hent
    split_ifs at hent with hu
    · obtain ⟨entry₀, hent₀, rfl⟩ := Option.map_eq_some_iff.mp hent
      have hsz := hgraph.size_le u entry₀ hent₀
      have hlt := config.maxCosignersPerAccount_lt
      subst hu
      rw [validateSettings, hent₀] at h
      change (if _ then _ else if _ then _ else _) = _ at h
      split_ifs at h with hr hl
      have hn : entry₀.cosignatories.isEmpty = false := isEmpty_eq_false_iff.mpr hcos
      simp only [hn, true_and, not_or, Int.not_lt] at hr hl
      have ha := addDelta_of_bounds hr.2.1 hl.2 (by omega)
      have hrmv := addDelta_of_bounds hr.1 hl.1 (by omega)
      dsimp only
      refine ⟨⟨?_, ?_⟩, ?_, ?_⟩ <;> omega
    · exact ho u (Ne.symm hu) entry hent hcos

end

lemma onlyRejects_validateSettings : OnlyRejects (validateSettings cache transaction) := by
  rw [validateSettings]
  split
  · split_ifs
    · rintro _ ⟨⟩
      trivial
    · exact ok
  · split_ifs
    · rintro _ ⟨⟩
      trivial
    · rintro _ ⟨⟩
      trivial
    · exact ok

lemma WellFormed.execute (h : WellFormed config cache) (hfuel : config.maxMultisigDepth < fuel) :
    OnlyRejects (execute config fuel cache transaction) ∧
      ∀ cache', execute config fuel cache transaction = .ok cache' → WellFormed config cache' := by
  obtain ⟨hr, hc⟩ : OnlyRejects (Multisig.executeCosigners config fuel transaction cache) ∧ _ :=
    h.executeCosigners hfuel
  constructor
  · refine bind ?_ fun _ _ => onlyRejects_validateSettings.bind fun _ _ => ok
    rw [executeModifications]
    split_ifs
    · exact ok
    · exact hr
  · intro cache' hok
    obtain ⟨next, hn, hok⟩ := bind_eq_ok.mp hok
    obtain ⟨_, hset, hok⟩ := bind_eq_ok.mp hok
    cases hok
    rw [executeModifications] at hn
    split_ifs at hn with hno
    · cases hn
      exact wellFormed_modifySettings h.toCosignerGraph (fun u _ => h.inRange u) hset
    · obtain ⟨hgraph, ho⟩ := hc next hn
      exact wellFormed_modifySettings hgraph ho hset

lemma wellFormed_run (hfuel : config.maxMultisigDepth < fuel) {transactions : List ModifyMultisigAccount}
    (h : transactions.foldlM (execute config fuel) ∅ = .ok cache) : WellFormed config cache := by
  refine foldlM_invariant (fun _ cache => WellFormed config cache) h wellFormed_empty ?_
  intro past transaction rest cache cache' _ hc hok
  exact (hc.execute hfuel).2 cache' hok

/-- After any accepted transactions the cosigner graph is sound, and the checks that follow it come to an end. -/
theorem multisig_graph_is_sound (hfuel : config.maxMultisigDepth < fuel) {transactions : List ModifyMultisigAccount}
    (h : transactions.foldlM (execute config fuel) ∅ = .ok cache) :
    Acyclic (Cosigns cache) ∧ Bounded (Cosigns cache) config.maxMultisigDepth ∧
      (∀ u v, Cosigns cache u v ↔ CosignsFor cache v u) ∧
      (∀ (u : Key) entry, cache[u]? = some entry → entry.cosignatories ≠ ∅ ∨ entry.multisigAccounts ≠ ∅) ∧
      (∀ (u : Key) entry, cache[u]? = some entry → entry.cosignatories ≠ ∅ →
        (1 ≤ entry.minApproval ∧ entry.minApproval ≤ entry.cosignatories.size) ∧
          1 ≤ entry.minRemoval ∧ entry.minRemoval ≤ entry.cosignatories.size) ∧
      (∀ cosigners operationType key, ∃ satisfied, isSatisfied cache cosigners operationType fuel key = .ok satisfied) ∧
      (∀ key eligible, ∃ found, findEligibleCosigners cache fuel key eligible = .ok found) ∧
      ∀ transaction, OnlyRejects (execute config fuel cache transaction) := by
  have hwell := wellFormed_run hfuel h
  have hshort : ∀ key n v, Path (Cosigns cache) n key v → n < fuel := fun key n v hpath =>
    (hwell.bounded n key v hpath).trans_lt hfuel
  refine ⟨hwell.bounded.acyclic, hwell.bounded, hwell.symmetric, ?_, hwell.inRange, ?_, ?_, ?_⟩
  · intro u entry hentry
    by_contra hempty
    rw [not_or, not_not, not_not] at hempty
    exact hwell.linked u entry hentry hempty
  · exact fun cosigners operationType key => isSatisfied_terminates (hshort key)
  · exact fun key eligible => findEligibleCosigners_terminates (hshort key) eligible
  · exact fun transaction => (hwell.execute hfuel).1

/-! Account 1 gets the cosignatories 2 and 3 and then cosigns for account 4; then 3 is replaced by 5. -/

def sampleConfiguration : MultisigConfiguration := ⟨3, 10, by decide, 5⟩

def sampleTransactions : List ModifyMultisigAccount :=
  [⟨1, 1, 2, [⟨.add, 2⟩, ⟨.add, 3⟩], by decide, false⟩, ⟨4, 1, 1, [⟨.add, 1⟩], by decide, false⟩,
    ⟨1, 0, -1, [⟨.del, 3⟩, ⟨.add, 5⟩], by decide, false⟩]

theorem multisig_graph_is_sound_sample :
    ∃ cache, sampleTransactions.foldlM (execute sampleConfiguration 4) ∅ = .ok cache ∧
    Acyclic (Cosigns cache) ∧ Bounded (Cosigns cache) 3 := by
  obtain ⟨cache, h⟩ : ∃ cache, sampleTransactions.foldlM (execute sampleConfiguration 4) ∅ = .ok cache :=
    exists_ok_iff.mpr (by decide +kernel)
  obtain ⟨hacyclic, hbounded, -⟩ := multisig_graph_is_sound (by decide) h
  exact ⟨cache, h, hacyclic, hbounded⟩

/-- Account 2, which cosigns for 1 and so for 4, cannot get 4 as a cosignatory. -/
example : (do
    let cache ← sampleTransactions.foldlM (execute ⟨5, 10, by decide, 5⟩ 6) ∅
    execute ⟨5, 10, by decide, 5⟩ 6 cache ⟨2, 1, 1, [⟨.add, 4⟩], by decide, false⟩ |>.isOk |> pure) = .ok false := by
  decide +kernel

end XpxChain.Multisig
