import XpxChain.ExchangeSda.Matching

/-! Placing offers: they are added to the book and exchanged, and the deposits are debited. -/

namespace XpxChain.ExchangeSda

open Std Accounts Library Exceptions OrderedContainers SdaOfferGroupVector ExtTreeMap State List

variable [Sha3] {context : Context} {s s' : State} {signer k : Key} {pair : MosaicsPair} {o : SdaOfferBalance}
  {offer : SdaOfferWithDuration} {offers : List SdaOfferWithDuration}

section

omit [Sha3] in
lemma validateOffers_success {seen : List MosaicsPair} (h : validateOffers context signer seen offers = .success) :
    (offers.map (·.mosaics)).Nodup ∧ ∀ offer ∈ offers, offer.mosaics ∉ seen ∧
      offer.mosaics.mosaicIdGive ≠ offer.mosaics.mosaicIdGet ∧ 0 < offer.amountGive ∧ 0 < offer.amountGet := by
  induction offers generalizing seen with
  | nil => exact ⟨nodup_nil, fun _ hmem => absurd hmem not_mem_nil⟩
  | cons offer offers ih =>
    rw [validateOffers] at h
    split_ifs at h with hne hs _ _ hg hget
    obtain ⟨hnd, hr⟩ := ih h
    refine ⟨?_, ?_⟩
    · rw [map_cons, nodup_cons]
      refine ⟨fun hmem => ?_, hnd⟩
      obtain ⟨other, hoth, heq⟩ := mem_map.mp hmem
      exact (hr other hoth).1 (by rw [heq]; exact mem_cons_self)
    · intro other hoth
      obtain rfl | hoth := mem_cons.mp hoth
      · exact ⟨hs, hne, Nat.pos_of_ne_zero hg, Nat.pos_of_ne_zero hget⟩
      · obtain ⟨hnot, hr⟩ := hr other hoth
        exact ⟨fun hmem => hnot (mem_cons_of_mem _ hmem), hr⟩

lemma placeValidator_success (h : placeValidator context s signer offers = .success) :
    validateOffers context signer [] offers = .success ∧ ∀ offer ∈ offers, s.live signer offer.mosaics = none := by
  rw [placeValidator] at h
  split_ifs at h
  split at h
  · rename_i hval
    refine ⟨hval, fun offer ho => ?_⟩
    rw [live]
    cases hent : s.exchange[signer]? with
    | none => rfl
    | some entry =>
      simp only [hent] at h
      split_ifs at h with hany
      rw [any_eq_true] at hany
      push Not at hany
      have hnot := hany offer ho
      rw [ne_eq, decide_eq_true_eq, not_mem_iff] at hnot
      exact hnot
  · rename_i hf
    exact absurd h hf

end

section

def deposits (offers : List SdaOfferWithDuration) (m : MosaicId) : ℕ :=
  (offers.map fun offer => if offer.mosaics.mosaicIdGive = m then offer.amountGive else 0).sum

omit [Sha3] in
lemma deposits_cons (m : MosaicId) : deposits (offer :: offers) m =
    (if offer.mosaics.mosaicIdGive = m then offer.amountGive else 0) + deposits offers m := rfl

structure Placeable (s : State) (signer : Key) (offer : SdaOfferWithDuration) : Prop where
  mosaics_ne : offer.mosaics.mosaicIdGive ≠ offer.mosaics.mosaicIdGet
  give_pos : 0 < offer.amountGive
  get_pos : 0 < offer.amountGet
  give_lt : offer.amountGive < 2 ^ 31
  get_lt : offer.amountGet < 2 ^ 31
  live : s.live signer offer.mosaics = none
  fresh : ∀ o, ¬s.Buffered signer offer.mosaics o

lemma saveOffer_spec (context : Context) (h : Book s) (hk : signer ∈ s.exchange) (hp : Placeable s signer offer) :
    ∃ s', saveOffer context signer s offer = .ok s' ∧ Book s' ∧
      (∀ p ≠ offer.mosaics, s'.live signer p = s.live signer p) ∧
        (∀ p o, s'.Buffered signer p o → s.Buffered signer p o) ∧
      (∀ m, s'.total m = s.total m + if offer.mosaics.mosaicIdGive = m then offer.amountGive else 0) ∧
      s'.accounts = s.accounts ∧ signer ∈ s'.exchange := by
  obtain ⟨entry, hget⟩ := exists_getEntry hk
  have hent := getEntry_eq_ok.mp hget
  have how := h.owner_eq _ _ hent
  have hno : entry.sdaOfferBalances[offer.mosaics]? = none := by
    have hl := hp.live
    rw [live, hent] at hl
    exact hl
  have hnot : offer.mosaics ∉ entry.sdaOfferBalances := not_mem_iff.mpr hno
  generalize hd : getOfferDeadline offer.duration context.height = deadline
  generalize hadd : entry.addOffer offer deadline = new
  have hnew := hadd
  rw [SdaExchangeEntry.addOffer, if_neg hnot] at hnew
  generalize ho : (⟨offer.amountGive, offer.amountGet, offer.amountGive, offer.amountGet, deadline⟩ : SdaOfferBalance) =
    o at hnew
  have hn : new.owner = signer := by rw [← hnew, ← how]
  have hof : ∀ pair', new.sdaOfferBalances[pair']? =
      if pair' = offer.mosaics then some o else entry.sdaOfferBalances[pair']? := by
    intro pair'
    rw [← hnew, getElem?_insert_eq]
  have hval : ValidOffer offer.mosaics o := by
    subst ho
    exact { hp with fair := Nat.mul_comm _ _ }
  have hh : calculateGroupHash offer.mosaics offer.amountGive offer.amountGet =
      .ok (Sha3.hash (o.groupOf offer.mosaics)) := by
    rw [calculateGroupHash_eq offer.mosaics hp.give_pos hp.give_lt hp.get_lt, ← ho]
    rfl
  generalize hs' : (s.setEntry new).setGroup (Sha3.hash (o.groupOf offer.mosaics))
    (some ((s.group (o.groupOf offer.mosaics)).addSdaOfferToGroup offer signer deadline)) = s'
  have he : Effect s s' signer offer.mosaics (some o) (o.groupOf offer.mosaics)
      (· ++ [⟨signer, offer.amountGive, deadline⟩]) := by
    rw [← hs']
    refine effect_setEntry h hent hn (fun g' => ?_) hof fun pair' height o₁ hmem => .inl ?_
    · refine (group_setGroup h.hash_injective (s.setEntry new) (o.groupOf offer.mosaics) g' _).trans ?_
      split_ifs with hg
      · rw [hg]
        rfl
      · rfl
    · rw [← hnew] at hmem
      exact hmem
  refine ⟨s', ?_, h.add hp.live hp.fresh hval rfl ?_ ?_ he, ?_, ?_, ?_, ?_, ?_⟩
  · refine bind_eq_ok.mpr ⟨entry, hget, bind_eq_ok.mpr ⟨_, hh, ?_⟩⟩
    rw [hd, hadd, ← hs']
    rfl
  · rw [← ho]
  · rw [← ho]
  · intro p hne
    rw [he.live_eq, if_neg (fun heq => hne heq.2)]
  · intro p o₁ hbuf
    obtain hbuf | ⟨-, -, hso, -⟩ := he.buffered _ _ _ hbuf
    · exact hbuf
    · cases hso
  · intro m
    have hent' : s.exchange[new.owner]? = some entry := by rw [hn, hent]
    have hhe := held_setEntry hent' m
    have hchg := held_of_offers hof m
    rw [hno] at hchg
    simp only [Option.elim_some, Option.elim_none] at hchg
    have hgi : o.currentMosaicGive = offer.amountGive := by rw [← ho]
    rw [hgi] at hchg
    rw [total, total, ← hs']
    change s.funds m + (s.setEntry new).held m = _
    omega
  · rw [← hs']
    rfl
  · rw [← hs']
    change signer ∈ s.exchange.insert new.owner new
    rw [mem_insert]
    exact .inr hk

lemma saveOffers_spec (context : Context) (h : Book s) (hk : signer ∈ s.exchange) (hnd : (offers.map (·.mosaics)).Nodup)
    (hp : ∀ offer ∈ offers, Placeable s signer offer) :
    ∃ s', offers.foldlM (saveOffer context signer) s = .ok s' ∧ Book s' ∧
      (∀ m, s'.total m = s.total m + deposits offers m) ∧ s'.accounts = s.accounts ∧ signer ∈ s'.exchange := by
  let I (rest : List SdaOfferWithDuration) (s₁ : State) : Prop := Book s₁ ∧ signer ∈ s₁.exchange ∧
    (rest.map (·.mosaics)).Nodup ∧ (∀ offer ∈ rest, Placeable s₁ signer offer) ∧
    (∀ m, s₁.total m + deposits rest m = s.total m + deposits offers m) ∧ s₁.accounts = s.accounts
  obtain ⟨s', hf, h', hk', -, -, ht, ha⟩ := foldlM_total I (by
    rintro offer rest s₁ ⟨h₁, hk₁, hnd₁, hp₁, ht₁, ha₁⟩
    rw [map_cons, nodup_cons] at hnd₁
    obtain ⟨s₂, hs, h₂, hl, hbuf, ht, ha, hk₂⟩ :=
      saveOffer_spec context h₁ hk₁ (hp₁ offer mem_cons_self)
    refine ⟨s₂, hs, h₂, hk₂, hnd₁.2, fun other hoth => ?_, fun m => ?_, ha.trans ha₁⟩
    · have hold := hp₁ other (mem_cons_of_mem _ hoth)
      have hne : other.mosaics ≠ offer.mosaics := fun heq => hnd₁.1 (mem_map.mpr ⟨other, hoth, heq⟩)
      exact { hold with live := by rw [hl _ hne, hold.live], fresh := fun o₁ hb => hold.fresh o₁ (hbuf _ _ hb) }
    · rw [← ht₁ m, ht m, deposits_cons]
      omega) ⟨h, hk, hnd, hp, fun _ => rfl, rfl⟩
  exact ⟨s', hf, h', ht, ha, hk'⟩

end

section

lemma openEntry_spec (h : Book s) (hsi : signer ∈ s.accounts) {s₀ : State}
    (hs₀ : (if signer ∈ s.exchange then s else s.setEntry ⟨signer, ∅, ∅⟩) = s₀) :
    Book s₀ ∧ signer ∈ s₀.exchange ∧ (∀ k p, s₀.live k p = s.live k p) ∧
      (∀ k p o, s₀.Buffered k p o → s.Buffered k p o) ∧ (∀ m, s₀.total m = s.total m) ∧ s₀.accounts = s.accounts := by
  by_cases hk : signer ∈ s.exchange
  · rw [if_pos hk] at hs₀
    subst hs₀
    exact ⟨h, hk, fun _ _ => rfl, fun _ _ _ hb => hb, fun _ => rfl, rfl⟩
  · rw [if_neg hk] at hs₀
    subst hs₀
    have hn : s.exchange[signer]? = none := not_mem_iff.mp hk
    have hl : ∀ k p, (s.setEntry ⟨signer, ∅, ∅⟩).live k p = s.live k p := by
      intro k p
      rw [live, live, getElem?_setEntry]
      split_ifs with heq
      · rw [heq, hn]
        simp
      · rfl
    have hbuf : ∀ k p o, (s.setEntry ⟨signer, ∅, ∅⟩).Buffered k p o → s.Buffered k p o := by
      rintro k p o ⟨entry, hent, height, ho⟩
      rw [getElem?_setEntry] at hent
      split_ifs at hent with heq
      · cases hent
        simp at ho
      · exact ⟨entry, hent, height, ho⟩
    refine ⟨h.congr hl (fun _ => rfl) hbuf ?_ ?_ rfl, ?_, hl, hbuf, fun m => ?_, rfl⟩
    · intro k entry hent
      rw [getElem?_setEntry] at hent
      split_ifs at hent with heq
      · cases hent
        exact heq.symm
      · exact h.owner_eq k entry hent
    · intro k hk'
      rw [setEntry, mem_insert, Std.compare_eq_iff_eq] at hk'
      obtain rfl | hk' := hk'
      · exact hsi
      · exact h.account k hk'
    · rw [setEntry, mem_insert, Std.compare_eq_iff_eq]
      exact .inl rfl
    · have hi :=
        sumEntries_insert (f := fun _ (entry : SdaExchangeEntry) => entry.held m) (m := s.exchange) (k := signer)
        (v := ⟨signer, ∅, ∅⟩)
      rw [hn] at hi
      have hemp : SdaExchangeEntry.held ⟨signer, ∅, ∅⟩ m = 0 := sumEntries_empty
      rw [total, total]
      change s.funds m + sumEntries _ (s.exchange.insert signer ⟨signer, ∅, ∅⟩) = _
      rw [held]
      simp only [Option.elim_none] at hi
      omega

omit [Sha3] in
lemma nodup_fst_toList {κ α : Type} [Ord κ] [TransOrd κ] [LawfulEqOrd κ]
    (t : ExtTreeMap κ α) : (t.toList.map (·.1)).Nodup := by
  rw [List.Nodup, pairwise_map]
  simpa only [ne_eq, Std.compare_eq_iff_eq] using t.distinct_keys_toList

lemma exchangeOffers_spec (hht : context.height ≠ 0) (h : Book s) (hlt : ∀ m, s.total m < 2 ^ 64)
    {entry : SdaExchangeEntry} (hent : s.exchange[signer]? = some entry) :
    ∃ s', entry.sdaOfferBalances.toList.foldlM (exchangeOffer context signer) s = .ok s' ∧ Book s' ∧ Kept s s' := by
  let I (rest : List (MosaicsPair × SdaOfferBalance)) (s₁ : State) : Prop := Book s₁ ∧ Kept s s₁ ∧
    (rest.map (·.1)).Nodup ∧ ∀ x ∈ rest, s₁.live signer x.1 = some x.2
  have hs : I entry.sdaOfferBalances.toList s := by
    refine ⟨h, Kept.refl s, nodup_fst_toList _, fun x hx => live_eq_some.mpr ⟨entry, hent, ?_⟩⟩
    exact mem_toList_iff_getElem?_eq_some.mp hx
  obtain ⟨s', hf, h', hk, -⟩ := foldlM_total I (by
    rintro ⟨p, o⟩ rest s₁ ⟨h₁, hk₁, hnd₁, hlive₁⟩
    rw [map_cons, nodup_cons] at hnd₁
    obtain ⟨s₂, he, h₂, hk₂, hlive₂⟩ := exchangeOffer_spec hht h₁
      (fun m => by rw [hk₁.total]; exact hlt m) (hlive₁ (p, o) mem_cons_self)
    refine ⟨s₂, he, h₂, hk₁.trans hk₂, hnd₁.2, fun x hx => ?_⟩
    rw [hlive₂ x.1 (fun heq => hnd₁.1 (mem_map.mpr ⟨x, hx, heq⟩))]
    exact hlive₁ x (mem_cons_of_mem _ hx)) hs
  exact ⟨s', hf, h', hk⟩

theorem placeObserver_spec (hht : context.height ≠ 0) (h : Book s) (hsi : signer ∈ s.accounts)
    (hnd : (offers.map (·.mosaics)).Nodup) (hp : ∀ offer ∈ offers, Placeable s signer offer)
    (hlt : ∀ m, s.total m + deposits offers m < 2 ^ 64) :
    ∃ s', placeObserver context signer offers s = .ok s' ∧ Book s' ∧
      (∀ m, s'.total m = s.total m + deposits offers m) ∧ ∀ k, k ∈ s'.accounts ↔ k ∈ s.accounts := by
  generalize hs₀ : (if signer ∈ s.exchange then s else s.setEntry ⟨signer, ∅, ∅⟩) = s₀
  obtain ⟨h₀, hk₀, hlive₀, hbuf₀, ht₀, haccs₀⟩ := openEntry_spec h hsi hs₀
  have hp₀ : ∀ offer ∈ offers, Placeable s₀ signer offer := fun offer ho =>
    let hold := hp offer ho
    { hold with live := by rw [hlive₀, hold.live], fresh := fun o hb => hold.fresh o (hbuf₀ _ _ _ hb) }
  obtain ⟨s₁, hsa, h₁, ht₁, haccs₁, hk₁⟩ := saveOffers_spec context h₀ hk₀ hnd hp₀
  obtain ⟨entry, hget₁⟩ := exists_getEntry hk₁
  have ht : ∀ m, s₁.total m = s.total m + deposits offers m := fun m => by rw [ht₁, ht₀]
  obtain ⟨s₂, hex, h₂, hkept₂⟩ :=
    exchangeOffers_spec hht h₁ (fun m => by rw [ht]; exact hlt m) (getEntry_eq_ok.mp hget₁)
  obtain ⟨last, hget₂⟩ := exists_getEntry ((hkept₂.exchange signer).mpr hk₁)
  obtain ⟨heightGrouping, he⟩ := updateExpiry_eq s₂ last
  refine ⟨s₂.updateExpiry last, ?_, ?_, fun m => ?_, fun k => ?_⟩
  · rw [placeObserver, hs₀]
    exact bind_eq_ok.mpr ⟨s₁, hsa,
      bind_eq_ok.mpr ⟨entry, hget₁, bind_eq_ok.mpr ⟨s₂, hex, bind_eq_ok.mpr ⟨last, hget₂, rfl⟩⟩⟩⟩
  · rw [he]
    exact h₂.of_heightGrouping
  · rw [he, ← ht]
    exact hkept₂.total m
  · rw [he, ← haccs₀, ← haccs₁]
    exact hkept₂.accounts k

end

section

omit [Sha3] in
lemma getD_lockAmount_foldl {locks : ExtTreeMap MosaicId ℕ} (hlt : ∀ m, locks.getD m 0 + deposits offers m < 2 ^ 64)
    (m : MosaicId) :
    (offers.foldl (fun locks offer => locks.insert offer.mosaics.mosaicIdGive
      (addAmount (locks.getD offer.mosaics.mosaicIdGive 0) offer.amountGive)) locks).getD m 0 =
        locks.getD m 0 + deposits offers m := by
  induction offers generalizing locks with
  | nil => rfl
  | cons offer offers ih =>
    have hf := hlt offer.mosaics.mosaicIdGive
    rw [deposits_cons, if_pos rfl] at hf
    have hi : ∀ m, (locks.insert offer.mosaics.mosaicIdGive
        (addAmount (locks.getD offer.mosaics.mosaicIdGive 0) offer.amountGive)).getD m 0 =
        locks.getD m 0 + if offer.mosaics.mosaicIdGive = m then offer.amountGive else 0 := by
      intro m
      rw [getD_insert, addAmount_of_lt (by omega)]
      simp only [Std.compare_eq_iff_eq]
      split_ifs with hm
      · rw [hm]
      · rfl
    rw [foldl_cons, ih, hi, deposits_cons]
    · omega
    · intro m
      have hm := hlt m
      rw [deposits_cons] at hm
      rw [hi]
      omega

omit [Sha3] in
lemma getD_lockAmount (hlt : ∀ m, deposits offers m < 2 ^ 64) (m : MosaicId) :
    (lockAmount offers).getD m 0 = deposits offers m := by
  rw [lockAmount, getD_lockAmount_foldl]
  · simp
  · simpa using hlt

lemma lockDeposit_spec {lock : MosaicId × ℕ} (h : lockDeposit context signer s lock = .ok s') :
    ∃ accounts, s' = { s with accounts := accounts } ∧ (∀ k, k ∈ accounts ↔ k ∈ s.accounts) ∧
      ∀ m, s'.total m + (if lock.1 = m then lock.2 else 0) = s.total m := by
  rw [lockDeposit] at h
  split_ifs at h with hz
  · cases h
    exact ⟨s.accounts, rfl, fun _ => Iff.rfl, fun m => by rw [hz, ite_self]; rfl⟩
  · obtain ⟨accounts, ha, heq⟩ := bind_eq_ok.mp h
    cases heq
    have hd := (AccountStateCache.debit_eq_ok.mp (mapError_eq_ok.mp ha)).2
    obtain ⟨balances, balances', hb, hc, rfl⟩ := AccountStateCache.modify_eq_ok.mp hd
    refine ⟨_, rfl, fun k => mem_insert_of_mem (mem_of_getElem? hb), fun m => ?_⟩
    · have hi :=
        sumEntries_insert (f := fun _ (balances : AccountBalances) => balances m) (m := s.accounts) (k := signer)
        (v := balances')
      have hm := AccountBalances.internalDebit_add hc m
      rw [hb] at hi
      simp only [Option.elim_some] at hi
      simp only [total, funds, held, eq_comm]
      omega

lemma settle_place_spec (h : Book s) (hlt : ∀ m, deposits offers m < 2 ^ 64)
    (hse : (lockAmount offers).toList.foldlM (lockDeposit context signer) s = .ok s') :
    Book s' ∧ ∀ m, s'.total m + deposits offers m = s.total m := by
  let I (past : List (MosaicId × ℕ)) (s₁ : State) : Prop := Book s₁ ∧
    ∀ m, s₁.total m + (if m ∈ past.map (·.1) then (lockAmount offers).getD m 0 else 0) = s.total m
  have hst : I [] s := ⟨h, fun m => by simp⟩
  obtain ⟨h', ht⟩ := foldlM_invariant I hse hst (by
    rintro past ⟨m', amount⟩ rest s₁ s₂ hs ⟨h₁, ht₁⟩ hl
    obtain ⟨accounts, rfl, hmem, ht₂⟩ := lockDeposit_spec hl
    refine ⟨h₁.of_accounts hmem, fun m => ?_⟩
    have hnd := nodup_fst_toList (lockAmount offers)
    rw [hs, map_append, nodup_append] at hnd
    have hnot : m' ∉ past.map (·.1) := fun hmem => hnd.2.2 m' hmem m' mem_cons_self rfl
    have hamt : (lockAmount offers).getD m' 0 = amount := by
      have hin : (m', amount) ∈ (lockAmount offers).toList := by
        rw [hs]
        exact mem_append_right _ mem_cons_self
      rw [getD_eq_getD_getElem?, mem_toList_iff_getElem?_eq_some.mp hin]
      rfl
    have h₁m := ht₁ m
    have h₂m := ht₂ m
    simp only [map_append, map_singleton, mem_append, mem_singleton]
    by_cases hm : m = m'
    · subst hm
      rw [if_neg hnot] at h₁m
      rw [if_pos rfl] at h₂m
      rw [if_pos (.inr rfl)]
      omega
    · rw [if_neg (Ne.symm hm)] at h₂m
      simp only [hm, or_false]
      omega)
  refine ⟨h', fun m => ?_⟩
  rw [← ht m, ← getD_lockAmount hlt]
  split_ifs with hmem
  · rfl
  · rw [getD_eq_getD_getElem?]
    have hn : (lockAmount offers)[m]? = none := by
      rw [Option.eq_none_iff_forall_ne_some]
      intro amount hamt
      exact hmem (mem_map.mpr ⟨(m, amount), mem_toList_iff_getElem?_eq_some.mpr hamt, rfl⟩)
    rw [hn]
    rfl

end

end XpxChain.ExchangeSda
