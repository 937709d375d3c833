import XpxChain.LiquidityProvider.SoundMarket

/-! Purchases, sales and manual rate changes keep a market solvent. -/

namespace XpxChain.LiquidityProvider

open Std Accounts Library Exceptions OrderedContainers LiquidityProviderEntry AccountStateCache ExtTreeMap

namespace Market

variable {config : Configuration} {market market' : Market} {mosaicId id : MosaicId}
  {entry entry' : LiquidityProviderEntry} {outs ins : Flows}

variable {flows : Flows} {m : MosaicId}

section

variable {debtor creditor : Key} {amount currencyAmount : ℕ}

def NoParty (market : Market) (debtor creditor : Key) : Prop :=
  ∀ id e, market.Provides id e → e.providerKey ≠ debtor ∧ e.providerKey ≠ creditor

section

variable (h : market.Sound config) (hout : market.NoParty debtor creditor)
include h hout

lemma Sound.purchase_step (hp : Purchase config market debtor creditor mosaicId amount entry currencyAmount market') :
    Step config market market' mosaicId (entry.mint amount currencyAmount)
      [(debtor, config.currencyMosaicId, currencyAmount)]
      [(entry.providerKey, config.currencyMosaicId, currencyAmount), (creditor, mosaicId, amount)] := by
  obtain ⟨market₁, market₂, market₃, h₁, h₂, h₃, rfl⟩ := hp.payment
  have hid := h.mosaicId_ne _ _ hp.provider
  obtain ⟨hde, hprov₁⟩ := debit_moved h₁
  have hcur := hde.supply config.currencyMosaicId
  have hmos := hde.supply mosaicId
  simp only [flowTotal_cons, flowTotal_nil, if_true, hid, if_false, add_zero] at hcur hmos
  have hle := market₁.balance_le_supply entry.providerKey config.currencyMosaicId
  have hsup := h.supply_lt
  obtain ⟨hcr, hprov₂⟩ := credit_moved h₂ (by omega)
  have hmos' := hcr.supply mosaicId
  simp only [flowTotal_cons, flowTotal_nil, hid, if_false, add_zero] at hmos'
  have hle' := market₂.balance_le_supply creditor mosaicId
  have hm := hp.minted_lt
  have heq := (h.solvent _ _ hp.provider).supply_eq
  obtain ⟨hcr', hprov₃⟩ := credit_moved h₃ (by omega)
  refine ⟨(hde.trans hcr).trans hcr', ?_, ?_, ?_, ?_⟩
  · simp only [hprov₃, hprov₂, hprov₁]
  · simp [flowTotal, Ne.symm hid]
  · simp
  · intro id e he hne
    obtain ⟨hd, hc⟩ := hout id e he
    simp [hd.symm, h.key_ne hp.provider he hne, hc.symm]

theorem Sound.purchase (hp : Purchase config market debtor creditor mosaicId amount entry currencyAmount market') :
    market'.Sound config := by
  have hs := h.solvent _ _ hp.provider
  have hid := h.mosaicId_ne _ _ hp.provider
  obtain ⟨hdeb, hcr⟩ := hout _ _ hp.provider
  have hm := hp.minted_lt
  have hpos := hs.currency_pos
  have hpos' := hs.mosaics_pos
  have heq := hs.supply_eq
  have hadd : (entry.mint amount currencyAmount).additionallyMinted = entry.additionallyMinted + amount :=
    addAmount_of_lt (by omega)
  apply h.step (h.purchase_step hout hp) hp.provider ⟨rfl, rfl, rfl⟩ _ (h.rates_pos_of_eq hp.provider rfl rfl)
  refine ⟨rfl, ?_, ?_, ?_, ?_⟩ <;> simp [flowAt, flowTotal, hid, hid.symm, hdeb, hcr, hadd] <;> omega

lemma Sound.sale_step (hs : Sale config market debtor creditor mosaicId amount entry currencyAmount market') :
    Step config market market' mosaicId (entry.burn amount currencyAmount)
      [(entry.providerKey, config.currencyMosaicId, currencyAmount), (debtor, mosaicId, amount)]
      [(creditor, config.currencyMosaicId, currencyAmount)] := by
  obtain ⟨market₁, market₂, market₃, h₁, h₂, h₃, rfl⟩ := hs.payment
  have hid := h.mosaicId_ne _ _ hs.provider
  obtain ⟨hdeb, hcr⟩ := hout _ _ hs.provider
  have hle := market.balance_add_le_supply hcr config.currencyMosaicId
  have hsup := h.supply_lt
  have hcur := hs.currency_le
  obtain ⟨hce, hprov₁⟩ := credit_moved h₁ (by omega)
  obtain ⟨hde, hprov₂⟩ := debit_moved h₂
  obtain ⟨hde', hprov₃⟩ := debit_moved h₃
  refine ⟨(hce.trans hde).trans hde', ?_, ?_, ?_, ?_⟩
  · simp only [hprov₃, hprov₂, hprov₁]
  · simp [flowTotal, Ne.symm hid]
  · simp
  · intro id e he hne
    obtain ⟨hd, hc⟩ := hout id e he
    simp [h.key_ne hs.provider he hne, hd.symm, hc.symm]

theorem Sound.sale (hs : Sale config market debtor creditor mosaicId amount entry currencyAmount market') :
    market'.Sound config := by
  have hso := h.solvent _ _ hs.provider
  have hid := h.mosaicId_ne _ _ hs.provider
  obtain ⟨hdeb, hcr⟩ := hout _ _ hs.provider
  have hpos := hso.currency_pos
  have hpos' := hso.mosaics_pos
  have heq := hso.supply_eq
  have hle := market.balance_add_le_supply hdeb mosaicId
  have hamt := hs.amount_le
  have hm := hso.minted_lt
  have hp := debitAmount_le (h.beta_le _ _ hs.provider) hs.price
  rw [minted, addAmount_of_lt hm] at hp
  have hl : currencyAmount < market.accounts.balance entry.providerKey config.currencyMosaicId := by
    by_contra hge
    have := Nat.mul_le_mul_right (market.accounts.balance entry.providerKey mosaicId + entry.additionallyMinted)
      (Nat.not_lt.mp hge)
    have hlt : amount * market.accounts.balance entry.providerKey config.currencyMosaicId <
        market.accounts.balance entry.providerKey config.currencyMosaicId *
          (market.accounts.balance entry.providerKey mosaicId + entry.additionallyMinted) := by
      rw [Nat.mul_comm]
      exact Nat.mul_lt_mul_of_pos_left (by omega) hpos
    omega
  have hsub : (entry.burn amount currencyAmount).additionallyMinted = entry.additionallyMinted - amount :=
    sizeSub_of_le (by omega)
  apply h.step (h.sale_step hout hs) hs.provider ⟨rfl, rfl, rfl⟩ _ (h.rates_pos_of_eq hs.provider rfl rfl)
  refine ⟨rfl, ?_, ?_, ?_, ?_⟩ <;> simp [flowAt, flowTotal, hid, hid.symm, hdeb, hcr, hsub] <;> omega

end

end

section

variable {height : Height} {tx : RateChange}

structure ValidRateChange (config : Configuration) (market : Market) (tx : RateChange)
    (entry : LiquidityProviderEntry) : Prop where
  provider : market.Provides tx.providerMosaicId entry
  currency : tx.currencyBalanceIncrease = false →
    tx.currencyBalanceChange.val < market.accounts.balance entry.providerKey config.currencyMosaicId
  mosaics : tx.mosaicBalanceIncrease = false →
    tx.mosaicBalanceChange.val < market.accounts.balance entry.providerKey tx.providerMosaicId

lemma exists_validRateChange (h : market.validateRateChange config tx = .ok ()) :
    ∃ entry, ValidRateChange config market tx entry := by
  unfold validateRateChange at h
  cases hent : market.providers[tx.providerMosaicId]? with
  | none =>
    rw [hent] at h
    cases h
  | some entry =>
    simp only [hent] at h
    split_ifs at h
    · cases h
    obtain ⟨lpAccount, hlp, h⟩ := bind_eq_ok.mp h
    obtain ⟨ownerAccount, -, h⟩ := bind_eq_ok.mp h
    have hbal := balance_of_getElem? (findAccount_eq_ok.mp hlp)
    by_cases ho : tx.currencyBalanceIncrease ∧ ownerAccount config.currencyMosaicId < tx.currencyBalanceChange
    · rw [if_pos ho] at h
      cases h
    rw [if_neg ho] at h
    by_cases hcur : ¬ tx.currencyBalanceIncrease ∧ lpAccount config.currencyMosaicId ≤ tx.currencyBalanceChange
    · rw [if_pos hcur] at h
      cases h
    rw [if_neg hcur] at h
    by_cases hmos : ¬ tx.mosaicBalanceIncrease ∧ lpAccount tx.providerMosaicId ≤ tx.mosaicBalanceChange
    · rw [if_pos hmos] at h
      cases h
    refine ⟨entry, hent, fun hd => ?_, fun hd => ?_⟩
    · rw [hbal]
      exact Nat.not_le.mp fun hle => hcur ⟨by simp [hd], hle⟩
    · rw [hbal]
      exact Nat.not_le.mp fun hle => hmos ⟨by simp [hd], hle⟩

variable {increase : Bool} {amount : ℕ} {market₁ : Market}

def changeFlow (config : Configuration) (entry : LiquidityProviderEntry) (increase : Bool)
    (amount : ℕ) : Flows × Flows :=
  if increase then ([(entry.owner, config.currencyMosaicId, amount)],
    [(entry.providerKey, config.currencyMosaicId, amount)])
  else ([(entry.providerKey, config.currencyMosaicId, amount)],
    [(entry.slashingAccount, config.currencyMosaicId, amount)])

lemma transfer_moved {payer payee : Key} {market₂ : Market} (hsup : market.supply mosaicId < 2 ^ 64)
    (h₁ : market.debit payer mosaicId amount = .ok market₁) (h₂ : market₁.credit payee mosaicId amount = .ok market₂) :
    market.Moved market₂ [(payer, mosaicId, amount)] [(payee, mosaicId, amount)] ∧
      market₂.providers = market.providers := by
  obtain ⟨hd, hprov₁⟩ := debit_moved h₁
  have hl := hd.supply mosaicId
  simp only [flowTotal_cons, flowTotal_nil, if_true, add_zero] at hl
  have hle := market₁.balance_le_supply payee mosaicId
  obtain ⟨hc, hprov₂⟩ := credit_moved h₂ (by omega)
  exact ⟨hd.trans hc, hprov₂.trans hprov₁⟩

lemma changeCurrencyBalance_moved (hsup : market.supply config.currencyMosaicId < 2 ^ 64)
    (h : market.changeCurrencyBalance config entry increase amount = .ok market₁) :
    market.Moved market₁ (changeFlow config entry increase amount).1 (changeFlow config entry increase amount).2 ∧
      market₁.providers = market.providers := by
  cases increase with
  | true =>
    obtain ⟨_, h₁, h₂⟩ := bind_eq_ok.mp h
    exact transfer_moved hsup h₁ h₂
  | false =>
    obtain ⟨_, h₁, h₂⟩ := bind_eq_ok.mp h
    exact transfer_moved hsup h₁ h₂

lemma insert_provides (h : market.Provides mosaicId entry) :
    market.providers = market.providers.insert mosaicId entry := by
  apply ext_getElem?
  intro id
  rw [getElem?_insert]
  split_ifs with hid
  · rw [← Std.compare_eq_iff_eq.mp hid, h]
  · rfl

section

variable (h : market.Sound config)
include h

theorem Sound.changeCurrencyBalance (hent : market.Provides mosaicId entry)
    (hl : increase = false → amount < market.accounts.balance entry.providerKey config.currencyMosaicId)
    (hchg : market.changeCurrencyBalance config entry increase amount = .ok market₁) : market₁.Sound config := by
  obtain ⟨hmoved, hp⟩ := changeCurrencyBalance_moved h.supply_lt hchg
  have hid := h.mosaicId_ne _ _ hent
  have hso := h.solvent _ _ hent
  have hpos := hso.currency_pos
  have hpos' := hso.mosaics_pos
  have heq := hso.supply_eq
  have hm := hso.minted_lt
  obtain ⟨ho, hs⟩ := h.outsiders _ _ _ _ hent hent
  have hst : Step config market market₁ mosaicId entry (changeFlow config entry increase amount).1
      (changeFlow config entry increase amount).2 := by
    refine ⟨hmoved, hp.trans (insert_provides hent), ?_, ?_, ?_⟩
    · cases increase <;> simp [changeFlow, flowTotal]
    · cases increase <;> simp [changeFlow]
    · intro id e he hne
      obtain ⟨ho, hs⟩ := h.outsiders _ _ _ _ hent he
      cases increase <;> simp [changeFlow, h.key_ne hent he hne, ho, hs]
  apply h.step hst hent ⟨rfl, rfl, rfl⟩ _ (h.rates_pos _ _ hent)
  cases increase with
  | false =>
    have := hl rfl
    refine ⟨rfl, ?_, ?_, ?_, ?_⟩ <;> simp [changeFlow, flowAt, flowTotal, hid, hs.symm] <;> omega
  | true => refine ⟨rfl, ?_, ?_, ?_, ?_⟩ <;> simp [changeFlow, flowAt, flowTotal, hid, ho.symm] <;> omega

lemma balance_changeCurrencyBalance (hid : mosaicId ≠ config.currencyMosaicId)
    (hchg : market.changeCurrencyBalance config entry increase amount = .ok market₁) (k : Key) :
    market₁.accounts.balance k mosaicId = market.accounts.balance k mosaicId := by
  have hmoved := (changeCurrencyBalance_moved h.supply_lt hchg).1 k mosaicId
  rw [flowAt_eq_zero, flowAt_eq_zero] at hmoved
  · exact hmoved
  · cases increase <;> simp [changeFlow, hid.symm]
  · cases increase <;> simp [changeFlow, hid.symm]

theorem Sound.changeMosaicBalance {market₂ : Market} (hent : market.Provides mosaicId entry)
    (hl : increase = false → amount < market.accounts.balance entry.providerKey mosaicId)
    (hlt : increase → market.accounts.balance entry.providerKey mosaicId + entry.additionallyMinted + amount < 2 ^ 64)
    (hchg : market.changeMosaicBalance entry mosaicId increase amount = .ok market₂) :
    Sound config { market₂ with
      providers :=
        market₂.providers.insert mosaicId (entry.restart height (market₂.currentRate config entry mosaicId)) } := by
  have hid := h.mosaicId_ne _ _ hent
  have hs := h.solvent _ _ hent
  have hpos := hs.currency_pos
  have hpos' := hs.mosaics_pos
  have heq := hs.supply_eq
  have hm := hs.minted_lt
  set entry' := entry.restart height (market₂.currentRate config entry mosaicId)
  -- The mosaics of the provider and the supply change by the same amount.
  have hfl : ∃ outs ins : Flows, market.Moved market₂ outs ins ∧ market₂.providers = market.providers ∧
      (∀ f ∈ outs ++ ins, f.1 = entry.providerKey ∧ f.2.1 = mosaicId) ∧
      Funded config market mosaicId entry entry' outs ins := by
    cases increase with
    | true =>
      have := hlt rfl
      obtain ⟨hmoved, hp⟩ := credit_moved hchg (by omega)
      refine ⟨_, _, hmoved, hp, by simp, rfl, ?_, ?_, ?_, ?_⟩ <;>
        simp [flowAt, flowTotal, hid.symm, entry', restart] <;> omega
    | false =>
      have := hl rfl
      obtain ⟨hmoved, hp⟩ := debit_moved hchg
      refine ⟨_, _, hmoved, hp, by simp, rfl, ?_, ?_, ?_, ?_⟩ <;>
        simp [flowAt, flowTotal, hid.symm, entry', restart] <;> omega
  obtain ⟨outs, ins, hmoved, hp, hown, hfu⟩ := hfl
  have hne : ∀ f ∈ outs ++ ins, f.2.1 ≠ config.currencyMosaicId := fun f hf => (hown f hf).2 ▸ hid
  have hst : Step config market { market₂ with providers := market₂.providers.insert mosaicId entry' } mosaicId
      entry' outs ins := by
    refine ⟨hmoved, by simp only [hp], ?_, fun f hf => .inr (hown f hf).2, ?_⟩
    · rw [flowTotal_eq_zero fun f hf => hne f (List.mem_append_left _ hf),
        flowTotal_eq_zero fun f hf => hne f (List.mem_append_right _ hf)]
    · intro id e he hid' f hf
      rw [(hown f hf).1]
      exact h.key_ne hent he hid'
  apply h.step hst hent ⟨rfl, rfl, rfl⟩ hfu
  intro o ho
  obtain rfl := List.mem_singleton.mp ho
  have ha := hs.of_moved hmoved hfu
  have hpos₂ : 0 < market₂.accounts.balance entry.providerKey mosaicId := ha.mosaics_pos
  have hlt₂ : market₂.accounts.balance entry.providerKey mosaicId + entry.additionallyMinted < 2 ^ 64 := ha.minted_lt
  change 0 < addAmount (market₂.accounts.balance entry.providerKey mosaicId) entry.additionallyMinted
  rw [addAmount_of_lt hlt₂]
  omega

theorem Sound.changeRate
    (hr : tx.mosaicBalanceIncrease → ∀ entry, market.Provides tx.providerMosaicId entry →
      market.accounts.balance entry.providerKey tx.providerMosaicId + entry.additionallyMinted +
      tx.mosaicBalanceChange < 2 ^ 64)
    (hchg : market.changeRate config height tx = .ok market') : market'.Sound config := by
  obtain ⟨_, hval, hchg⟩ := bind_eq_ok.mp hchg
  obtain ⟨entry, hf, hchg⟩ := bind_eq_ok.mp hchg
  obtain ⟨_, hval⟩ := exists_validRateChange hval
  obtain rfl := Option.some.inj ((findProvider_eq_ok.mp hf).symm.trans hval.provider)
  obtain ⟨_, -, hchg⟩ := bind_eq_ok.mp hchg
  obtain ⟨market₁, h₁, hchg⟩ := bind_eq_ok.mp hchg
  obtain ⟨market₂, h₂, hchg⟩ := bind_eq_ok.mp hchg
  cases hchg
  have hs := balance_changeCurrencyBalance h (h.mosaicId_ne _ _ hval.provider) h₁
  have hp : market₁.Provides tx.providerMosaicId entry := by
    rw [Provides, (changeCurrencyBalance_moved h.supply_lt h₁).2]
    exact hval.provider
  apply (h.changeCurrencyBalance hval.provider hval.currency h₁).changeMosaicBalance hp _ _ h₂
  · rw [hs]
    exact hval.mosaics
  · rw [hs]
    exact fun hi => hr hi _ hval.provider

end

end

end Market

end XpxChain.LiquidityProvider
