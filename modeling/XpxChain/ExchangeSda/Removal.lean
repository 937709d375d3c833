import XpxChain.ExchangeSda.Placement

/-! Offers that are removed by their owner. -/

namespace XpxChain.ExchangeSda

open Std Accounts Library Exceptions OrderedContainers SdaOfferGroupVector State ExtTreeMap List

variable [Sha3] {context : Context} {s s₁ s' : State} {k : Key} {pair : MosaicsPair} {o : SdaOfferBalance}
  {entry : SdaExchangeEntry} {pairs : List MosaicsPair}

section

lemma eraseIfEmpty_spec (h : Book s) (hent : s.exchange[k]? = some entry) {s' : State}
    (hs' : (if entry.empty then { s with exchange := s.exchange.erase k } else s) = s') :
    Book s' ∧ (∀ m, s'.total m = s.total m) ∧ s'.accounts = s.accounts := by
  by_cases hemp : entry.empty
  · rw [if_pos hemp] at hs'
    have ho : entry.sdaOfferBalances = ∅ := isEmpty_iff.mp (of_decide_eq_true hemp).1
    have he : ∀ k', (s.exchange.erase k)[k']? = if k' = k then none else s.exchange[k']? :=
      fun _ => getElem?_erase_eq
    subst hs'
    refine ⟨h.congr (fun k' pair' => ?_) (fun _ => rfl) ?_ ?_ ?_ rfl, fun m => ?_, rfl⟩
    · change ((s.exchange.erase k)[k']?.bind fun entry => entry.sdaOfferBalances[pair']?) = _
      rw [he, live]
      split_ifs with hk
      · rw [hk, hent]
        simp [ho]
      · rfl
    · rintro k' pair' o₁ ⟨entry', hent', hb⟩
      rw [he] at hent'
      split_ifs at hent'
      exact ⟨entry', hent', hb⟩
    · intro k' entry' hent'
      rw [he] at hent'
      split_ifs at hent'
      exact h.owner_eq k' entry' hent'
    · intro k' hk'
      rw [mem_erase] at hk'
      exact h.account k' hk'.2
    · have hsum := sumEntries_erase (f := fun _ (entry : SdaExchangeEntry) => entry.held m) (m := s.exchange) (k := k)
      have hh : entry.held m = 0 := by
        rw [SdaExchangeEntry.held, ho]
        exact sumEntries_empty
      rw [hent] at hsum
      simp only [Option.elim_some, hh] at hsum
      change s.funds m + sumEntries _ (s.exchange.erase k) = s.funds m + s.held m
      rw [held, ← hsum]
      rfl
  · rw [if_neg hemp] at hs'
    subst hs'
    exact ⟨h, fun _ => rfl, rfl⟩

end

section

omit [Sha3] in
lemma validateRemovals_success {seen : List MosaicsPair} (h : validateRemovals context entry seen pairs = .success) :
    pairs.Nodup ∧ ∀ pair ∈ pairs, pair ∉ seen ∧ ∃ o, entry.sdaOfferBalances[pair]? = some o := by
  induction pairs generalizing seen with
  | nil => exact ⟨nodup_nil, fun _ hmem => absurd hmem not_mem_nil⟩
  | cons pair pairs ih =>
    rw [validateRemovals] at h
    by_cases hs : pair ∈ seen
    · rw [if_pos hs] at h
      cases h
    rw [if_neg hs] at h
    cases ho : entry.sdaOfferBalances[pair]? with
    | none =>
      simp only [ho] at h
      cases h
    | some o =>
      simp only [ho] at h
      split_ifs at h
      obtain ⟨hnd, hr⟩ := ih h
      refine ⟨nodup_cons.mpr ⟨fun hmem => (hr pair hmem).1 mem_cons_self, hnd⟩, fun other hoth => ?_⟩
      obtain rfl | hoth := mem_cons.mp hoth
      · exact ⟨hs, o, ho⟩
      · exact ⟨fun hmem => (hr other hoth).1 (mem_cons_of_mem _ hmem), (hr other hoth).2⟩

lemma removeValidator_success (h : removeValidator context s k pairs = .success) :
    k ∈ s.exchange ∧ pairs.Nodup ∧ ∀ pair ∈ pairs, ∃ o, s.live k pair = some o := by
  rw [removeValidator] at h
  split_ifs at h
  cases hent : s.exchange[k]? with
  | none =>
    simp only [hent] at h
    cases h
  | some entry =>
    simp only [hent] at h
    obtain ⟨hnd, hl⟩ := validateRemovals_success h
    refine ⟨mem_of_getElem? hent, hnd, fun pair hp => ?_⟩
    obtain ⟨-, o, ho⟩ := hl pair hp
    exact ⟨o, live_eq_some.mpr ⟨entry, hent, ho⟩⟩

lemma removeOffer_spec (hht : context.height ≠ 0) (h : Book s) (hlt : ∀ m, s.total m < 2 ^ 64)
    (ho : s.live k pair = some o) :
    ∃ s', removeOffer context k s pair = .ok s' ∧ Book s' ∧ Kept s s' ∧ ∀ p ≠ pair, s'.live k p = s.live k p := by
  have hv := h.valid _ _ _ ho
  obtain ⟨entry, hget, hent, hof, -⟩ := exists_entry ho
  have hha : calculateGroupHash pair o.initialMosaicGive o.initialMosaicGet = .ok (Sha3.hash (o.groupOf pair)) :=
    calculateGroupHash_eq pair hv.give_pos hv.give_lt hv.get_lt
  have hfit : s.funds pair.mosaicIdGive + o.currentMosaicGive < 2 ^ 64 := by
    obtain ⟨_, -, -, -, hh, -, -⟩ := closeOffer_spec context h ho
    have hm := hh pair.mosaicIdGive
    have ht := hlt pair.mosaicIdGive
    rw [if_pos rfl] at hm
    rw [total] at ht
    omega
  obtain ⟨a, hcr, hmem, hfu⟩ := creditAccount_spec hht (h.account k (mem_of_getElem? hent)) hfit
  obtain ⟨s', hc, h', hl, hh, ha, he⟩ := closeOffer_spec context (h.of_accounts hmem) ho
  refine ⟨s', ?_, h', ⟨fun m => ?_, fun k' => ?_, he⟩, fun p hp => ?_⟩
  · refine bind_eq_ok.mpr ⟨entry, hget, bind_eq_ok.mpr ⟨o, hof, bind_eq_ok.mpr ⟨_, hha, ?_⟩⟩⟩
    refine Eq.trans (if_neg (h.groups_ne_none ho)) ?_
    exact bind_eq_ok.mpr ⟨_, hcr, hc⟩
  · have hm := hh m
    have hf := hfu m
    change _ = s.held m at hm
    simp only [eq_comm (a := m)] at hf
    rw [total, total]
    have hs : s'.funds m = funds { s with accounts := a } m := by rw [funds, funds, ha]
    omega
  · rw [ha]
    exact hmem k'
  · rw [hl, if_neg (fun heq => hp heq.2)]
    rfl

theorem removeObserver_spec (hht : context.height ≠ 0) (h : Book s) (hlt : ∀ m, s.total m < 2 ^ 64)
    (hacc : removeValidator context s k pairs = .success) :
    ∃ s', removeObserver context k pairs s = .ok s' ∧ Book s' ∧ (∀ m, s'.total m = s.total m) ∧
      ∀ k', k' ∈ s'.accounts ↔ k' ∈ s.accounts := by
  obtain ⟨hk, hnd, hl⟩ := removeValidator_success hacc
  let I (rest : List MosaicsPair) (s₁ : State) : Prop := Book s₁ ∧ Kept s s₁ ∧ rest.Nodup ∧
    ∀ pair ∈ rest, ∃ o, s₁.live k pair = some o
  have hst : I pairs s := ⟨h, Kept.refl s, hnd, hl⟩
  obtain ⟨s₁, hf, h₁, hkept₁, -⟩ := foldlM_total I (by
    rintro pair rest s₁ ⟨h₁, hkept₁, hnd₁, hl₁⟩
    rw [nodup_cons] at hnd₁
    obtain ⟨o, ho⟩ := hl₁ pair mem_cons_self
    obtain ⟨s₂, hr, h₂, hkept₂, hl₂⟩ := removeOffer_spec hht h₁ (fun m => by rw [hkept₁.total]; exact hlt m) ho
    refine ⟨s₂, hr, h₂, hkept₁.trans hkept₂, hnd₁.2, fun p hp => ?_⟩
    obtain ⟨o₁, ho₁⟩ := hl₁ p (mem_cons_of_mem _ hp)
    refine ⟨o₁, ?_⟩
    rw [hl₂ p, ho₁]
    rintro rfl
    exact hnd₁.1 hp) hst
  obtain ⟨entry, hget⟩ := exists_getEntry ((hkept₁.exchange k).mpr hk)
  obtain ⟨heightGrouping, he⟩ := updateExpiry_eq s₁ entry
  have h₂ : Book (s₁.updateExpiry entry) := by
    rw [he]
    exact h₁.of_heightGrouping
  have hent₂ : (s₁.updateExpiry entry).exchange[k]? = some entry := by
    rw [he]
    exact getEntry_eq_ok.mp hget
  generalize hs' : (if entry.empty then
    { s₁.updateExpiry entry with exchange := (s₁.updateExpiry entry).exchange.erase k }
    else s₁.updateExpiry entry) = s'
  obtain ⟨h', ht', ha'⟩ := eraseIfEmpty_spec h₂ hent₂ hs'
  refine ⟨s', bind_eq_ok.mpr ⟨s₁, hf, bind_eq_ok.mpr ⟨entry, hget, ?_⟩⟩, h', fun m => ?_, fun k' => ?_⟩
  · rw [← hs']
    rfl
  · rw [ht', he]
    exact hkept₁.total m
  · rw [ha', he]
    exact hkept₁.accounts k'

end

end XpxChain.ExchangeSda
