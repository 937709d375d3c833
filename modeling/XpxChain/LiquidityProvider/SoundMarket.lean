import XpxChain.LiquidityProvider.Slashing

/-! Solvent markets, and the steps that keep a market solvent. -/

namespace XpxChain.LiquidityProvider

open Std Accounts Library Exceptions OrderedContainers LiquidityProviderEntry AccountStateCache ExtTreeMap

namespace Market

structure Solvent (config : Configuration) (market : Market) (mosaicId : MosaicId)
    (entry : LiquidityProviderEntry) : Prop where
  currency_pos : 0 < market.accounts.balance entry.providerKey config.currencyMosaicId
  mosaics_pos : 0 < market.accounts.balance entry.providerKey mosaicId
  minted_lt : market.accounts.balance entry.providerKey mosaicId + entry.additionallyMinted < 2 ^ 64
  minted_eq : entry.additionallyMinted = ∑ k ∈ Finset.univ.erase entry.providerKey, market.accounts.balance k mosaicId

def KeepsCurrency (config : Configuration) (market : Market) (mosaicId : MosaicId)
    (entry : LiquidityProviderEntry) : Prop :=
  ∀ best ∈ LiquidityProviderEntry.bestObservation entry.pushTurnover,
    best.rate.mosaicAmount ^ 2 * (market.currentRate config entry mosaicId).currencyAmount ≤
      best.rate.currencyAmount ^ 2 * (market.currentRate config entry mosaicId).mosaicAmount ^ 2

/-- Providers are no parties of operations other than by their own role, fees do not exceed the whole, a mosaic is held
by nobody before its provider is created, a manual increase keeps the total within 64 bits, and slashing that is due
leaves a unit: the lower end of its search is not zero. -/
def Prudent (config : Configuration) (market : Market) (height : Height) : Operation → Prop
  | .creation tx => tx.providerKey ∉ market.accounts ∧ tx.beta ≤ percentUnit config.percentsDigitsAfterDot ∧
      tx.slashingAccount ≠ tx.providerKey ∧ (∀ p ∈ market.accounts.toList, p.2 tx.providerMosaicId = 0) ∧
      ∀ p ∈ market.providers.toList, p.2.providerKey ≠ tx.owner ∧ p.2.providerKey ≠ tx.slashingAccount ∧
        p.2.owner ≠ tx.providerKey ∧ p.2.slashingAccount ≠ tx.providerKey
  | .credit debtor creditor _ _ | .debit debtor creditor _ _ =>
    ∀ p ∈ market.providers.toList, p.2.providerKey ≠ debtor ∧ p.2.providerKey ≠ creditor
  | .rateChange tx => tx.mosaicBalanceIncrease → ∀ p ∈ market.providers.toList, p.1 = tx.providerMosaicId →
      market.accounts.balance p.2.providerKey p.1 + p.2.additionallyMinted + tx.mosaicBalanceChange < 2 ^ 64
  | .block keys _ =>
    ∀ p ∈ market.providers.toList, p.1 ∈ keys → p.2.isDue height → KeepsCurrency config market p.1 p.2

abbrev Provides (market : Market) (id : MosaicId) (entry : LiquidityProviderEntry) : Prop :=
  market.providers[id]? = some entry

deriving instance Decidable for KeepsCurrency

instance (config : Configuration) (market : Market) (height : Height) (op : Operation) :
    Decidable (market.Prudent config height op) :=
  match op with
  | .creation _ | .credit .. | .debit .. | .rateChange _ | .block .. => by dsimp only [Prudent]; infer_instance

structure Sound (config : Configuration) (market : Market) : Prop where
  supply_lt : market.supply config.currencyMosaicId < 2 ^ 64
  mosaicId_ne : ∀ id entry, market.Provides id entry → id ≠ config.currencyMosaicId
  solvent : ∀ id entry, market.Provides id entry → market.Solvent config id entry
  beta_le : ∀ id entry, market.Provides id entry → entry.beta ≤ percentUnit config.percentsDigitsAfterDot
  key_inj : ∀ id entry id' entry', market.Provides id entry → market.Provides id' entry' →
    entry.providerKey = entry'.providerKey → id = id'
  outsiders : ∀ id entry id' entry', market.Provides id entry → market.Provides id' entry' →
    entry.owner ≠ entry'.providerKey ∧ entry.slashingAccount ≠ entry'.providerKey
  rates_pos : ∀ id entry, market.Provides id entry →
    ∀ o ∈ entry.turnoverHistory ++ [entry.recentTurnover], 0 < o.rate.mosaicAmount

variable {config : Configuration} {market market' : Market} {mosaicId id : MosaicId}
  {entry entry' : LiquidityProviderEntry} {outs ins : Flows}

lemma sum_others (market : Market) (key : Key) (m : MosaicId) :
    market.accounts.balance key m + ∑ k ∈ Finset.univ.erase key, market.accounts.balance k m = market.supply m := by
  rw [supply_eq]
  exact Finset.add_sum_erase _ (fun k => market.accounts.balance k m) (Finset.mem_univ key)

lemma Solvent.supply_eq (h : market.Solvent config mosaicId entry) :
    market.supply mosaicId = market.accounts.balance entry.providerKey mosaicId + entry.additionallyMinted := by
  rw [h.minted_eq, sum_others]

lemma solvent_of_supply (hc : 0 < market.accounts.balance entry.providerKey config.currencyMosaicId)
    (hm : 0 < market.accounts.balance entry.providerKey mosaicId) (hlt : market.supply mosaicId < 2 ^ 64)
    (hs : market.supply mosaicId = market.accounts.balance entry.providerKey mosaicId + entry.additionallyMinted) :
    market.Solvent config mosaicId entry := by
  refine ⟨hc, hm, hs ▸ hlt, ?_⟩
  have := sum_others market entry.providerKey mosaicId
  omega

variable {flows : Flows} {m : MosaicId}

lemma flowAt_eq_zero {k : Key} (h : ∀ f ∈ flows, f.1 ≠ k ∨ f.2.1 ≠ m) : flowAt flows k m = 0 := by
  induction flows with
  | nil => rfl
  | cons f flows ih =>
    have hf := h f List.mem_cons_self
    have hr := ih fun g hg => h g (List.mem_cons_of_mem _ hg)
    simp only [flowAt_cons] at hr ⊢
    rw [if_neg (by rintro ⟨rfl, rfl⟩; simp at hf), hr]

lemma flowTotal_eq_zero (h : ∀ f ∈ flows, f.2.1 ≠ m) : flowTotal flows m = 0 := by
  induction flows with
  | nil => rfl
  | cons f flows ih =>
    have hr := ih fun g hg => h g (List.mem_cons_of_mem _ hg)
    simp only [flowTotal_cons] at hr ⊢
    rw [if_neg (h f List.mem_cons_self).symm, hr]

structure Funded (config : Configuration) (market : Market) (mosaicId : MosaicId)
    (entry entry' : LiquidityProviderEntry) (outs ins : Flows) : Prop where
  key_eq : entry'.providerKey = entry.providerKey
  currency_lt : flowAt outs entry.providerKey config.currencyMosaicId <
    market.accounts.balance entry.providerKey config.currencyMosaicId +
      flowAt ins entry.providerKey config.currencyMosaicId
  mosaics_lt : flowAt outs entry.providerKey mosaicId <
    market.accounts.balance entry.providerKey mosaicId + flowAt ins entry.providerKey mosaicId
  room : market.supply mosaicId + flowTotal ins mosaicId < 2 ^ 64 + flowTotal outs mosaicId
  minted_eq : entry'.additionallyMinted + flowTotal outs mosaicId + flowAt ins entry.providerKey mosaicId =
    entry.additionallyMinted + flowTotal ins mosaicId + flowAt outs entry.providerKey mosaicId

section

variable (h : market.Solvent config mosaicId entry) (hmoved : market.Moved market' outs ins)
include h hmoved

lemma Solvent.of_moved (hf : Funded config market mosaicId entry entry' outs ins) :
    market'.Solvent config mosaicId entry' := by
  have hcur := hmoved entry.providerKey config.currencyMosaicId
  have hmos := hmoved entry.providerKey mosaicId
  have hsup := hmoved.supply mosaicId
  have heq := h.supply_eq
  obtain ⟨hkey, hcur', hmos', hr, hm⟩ := hf
  apply solvent_of_supply <;> (try rw [hkey]) <;> omega

lemma Solvent.frame (hk : ∀ f ∈ outs ++ ins, f.1 ≠ entry.providerKey) (hids : ∀ f ∈ outs ++ ins, f.2.1 ≠ mosaicId) :
    market'.Solvent config mosaicId entry := by
  have ho : ∀ m, flowAt outs entry.providerKey m = 0 := fun m =>
    flowAt_eq_zero fun f hf => .inl (hk f (List.mem_append_left _ hf))
  have hins : ∀ m, flowAt ins entry.providerKey m = 0 := fun m =>
    flowAt_eq_zero fun f hf => .inl (hk f (List.mem_append_right _ hf))
  have ho' := flowTotal_eq_zero fun f hf => hids f (List.mem_append_left _ hf)
  have hins' := flowTotal_eq_zero fun f hf => hids f (List.mem_append_right _ hf)
  refine h.of_moved hmoved ⟨rfl, ?_, ?_, ?_, ?_⟩
  · simpa [ho, hins] using h.currency_pos
  · simpa [ho, hins] using h.mosaics_pos
  · rw [ho', hins', h.supply_eq]
    exact h.minted_lt
  · rw [ho, hins, ho', hins']

end

structure Step (config : Configuration) (market market' : Market) (mosaicId : MosaicId)
    (entry' : LiquidityProviderEntry) (outs ins : Flows) : Prop where
  moved : market.Moved market' outs ins
  providers : market'.providers = market.providers.insert mosaicId entry'
  supply_eq : flowTotal outs config.currencyMosaicId = flowTotal ins config.currencyMosaicId
  ids : ∀ f ∈ outs ++ ins, f.2.1 = config.currencyMosaicId ∨ f.2.1 = mosaicId
  keys : ∀ id e, market.Provides id e → id ≠ mosaicId → ∀ f ∈ outs ++ ins, f.1 ≠ e.providerKey

lemma Sound.key_ne (h : market.Sound config) (hent : market.Provides mosaicId entry) (hent' : market.Provides id entry')
    (hne : id ≠ mosaicId) : entry.providerKey ≠ entry'.providerKey :=
  fun hk => hne (h.key_inj _ _ _ _ hent hent' hk).symm

lemma getElem?_insert_cases {providers : LiquidityProviderCache} {e : LiquidityProviderEntry}
    (h : (providers.insert mosaicId entry')[id]? = some e) :
    id = mosaicId ∧ e = entry' ∨ id ≠ mosaicId ∧ providers[id]? = some e := by
  by_cases hid : id = mosaicId
  · subst hid
    rw [getElem?_insert_self] at h
    exact .inl ⟨rfl, (Option.some.inj h).symm⟩
  · rw [getElem?_insert_eq, if_neg hid] at h
    exact .inr ⟨hid, h⟩

theorem Sound.step (h : market.Sound config) (hst : Step config market market' mosaicId entry' outs ins)
    (hent : market.Provides mosaicId entry) (hsa : entry'.owner = entry.owner ∧
      entry'.slashingAccount = entry.slashingAccount ∧ entry'.beta = entry.beta)
    (hfu : Funded config market mosaicId entry entry' outs ins)
    (hr : ∀ o ∈ entry'.turnoverHistory ++ [entry'.recentTurnover], 0 < o.rate.mosaicAmount) : market'.Sound config := by
  obtain ⟨how, hsl, hbe⟩ := hsa
  -- The entry of every provider has the accounts and the fee it had before.
  have hbef : ∀ {id e}, market'.Provides id e → ∃ e₀, market.Provides id e₀ ∧
      e.providerKey = e₀.providerKey ∧ e.owner = e₀.owner ∧ e.slashingAccount = e₀.slashingAccount ∧
        e.beta = e₀.beta := by
    intro id e he
    rw [Provides, hst.providers] at he
    obtain ⟨rfl, rfl⟩ | ⟨-, he⟩ := getElem?_insert_cases he
    · exact ⟨entry, hent, hfu.key_eq, how, hsl, hbe⟩
    · exact ⟨e, he, rfl, rfl, rfl, rfl⟩
  refine ⟨?_, ?_, ?_, ?_, ?_, ?_, ?_⟩
  · have := hst.moved.supply config.currencyMosaicId
    have := hst.supply_eq
    have := h.supply_lt
    omega
  · intro id e he
    obtain ⟨e₀, he₀, -⟩ := hbef he
    exact h.mosaicId_ne id e₀ he₀
  · intro id e he
    rw [Provides, hst.providers] at he
    obtain ⟨rfl, rfl⟩ | ⟨hid, he⟩ := getElem?_insert_cases he
    · exact (h.solvent _ _ hent).of_moved hst.moved hfu
    · apply (h.solvent id e he).frame hst.moved (hst.keys id e he hid)
      intro f hf hfid
      obtain hf | hf := hst.ids f hf
      · exact h.mosaicId_ne id e he (hfid.symm.trans hf)
      · exact hid (hfid.symm.trans hf)
  · intro id e he
    obtain ⟨e₀, he₀, -, -, -, hb⟩ := hbef he
    rw [hb]
    exact h.beta_le id e₀ he₀
  · intro id e id' e' he he' hk
    obtain ⟨e₀, he₀, hk₀, -⟩ := hbef he
    obtain ⟨e₀', he₀', hk₀', -⟩ := hbef he'
    exact h.key_inj id e₀ id' e₀' he₀ he₀' (by rw [← hk₀, hk, hk₀'])
  · intro id e id' e' he he'
    obtain ⟨e₀, he₀, -, ho, hs, -⟩ := hbef he
    obtain ⟨e₀', he₀', hk', -⟩ := hbef he'
    rw [ho, hs, hk']
    exact h.outsiders id e₀ id' e₀' he₀ he₀'
  · intro id e he
    rw [Provides, hst.providers] at he
    obtain ⟨rfl, rfl⟩ | ⟨hid, he⟩ := getElem?_insert_cases he
    · exact hr
    · exact h.rates_pos id e he

lemma Sound.rates_pos_of_eq (h : market.Sound config) (hent : market.Provides mosaicId entry)
    (hh : entry'.turnoverHistory = entry.turnoverHistory)
    (hra : entry'.recentTurnover.rate = entry.recentTurnover.rate) :
    ∀ o ∈ entry'.turnoverHistory ++ [entry'.recentTurnover], 0 < o.rate.mosaicAmount := by
  have hr := h.rates_pos _ _ hent
  intro o ho
  obtain ho | ho := List.mem_append.mp ho
  · exact hr o (List.mem_append_left _ (hh ▸ ho))
  · rw [List.mem_singleton.mp ho, hra]
    exact hr _ (List.mem_append_right _ (List.mem_singleton_self _))

end Market

end XpxChain.LiquidityProvider
