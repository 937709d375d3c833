import XpxChain.LiquidityProvider.Operations

/-! What the operations on liquidity providers move between accounts. -/

namespace XpxChain.LiquidityProvider

open Std Accounts Library Exceptions OrderedContainers AccountStateCache Finset

abbrev Flows := List (Key × MosaicId × ℕ)

def flowAt (flows : Flows) (k : Key) (m : MosaicId) : ℕ :=
  (flows.map fun f => if k = f.1 ∧ m = f.2.1 then f.2.2 else 0).sum

def flowTotal (flows : Flows) (m : MosaicId) : ℕ := (flows.map fun f => if m = f.2.1 then f.2.2 else 0).sum

section

variable (f : Key × MosaicId × ℕ) (a b : Flows) (k : Key) (m : MosaicId)

lemma flowAt_nil : flowAt [] k m = 0 := rfl

lemma flowAt_cons : flowAt (f :: a) k m = (if k = f.1 ∧ m = f.2.1 then f.2.2 else 0) + flowAt a k m := List.sum_cons

lemma flowAt_append : flowAt (a ++ b) k m = flowAt a k m + flowAt b k m := by
  simp [flowAt]

lemma flowTotal_nil : flowTotal [] m = 0 := rfl

lemma flowTotal_cons : flowTotal (f :: a) m = (if m = f.2.1 then f.2.2 else 0) + flowTotal a m := List.sum_cons

lemma sum_ite_eq_and {ι : Type} [Fintype ι] [DecidableEq ι] (x : ι) (c : Prop) [Decidable c] (a : ℕ) :
    ∑ k, (if k = x ∧ c then a else 0) = if c then a else 0 := by
  by_cases hc : c <;> simp [hc]

lemma sum_flowAt : ∑ k, flowAt a k m = flowTotal a m := by
  induction a with
  | nil => exact sum_const_zero
  | cons f a ih => simp only [flowAt_cons, flowTotal_cons, sum_add_distrib, ih, sum_ite_eq_and]

end

namespace Market

def supply (market : Market) (m : MosaicId) : ℕ := sumEntries (fun _ balances => balances m) market.accounts

lemma supply_eq (market : Market) (m : MosaicId) : market.supply m = ∑ k, market.accounts.balance k m :=
  (sum_elim_of_subset (subset_univ _)).symm

def Moved (market market' : Market) (outs ins : Flows) : Prop :=
  ∀ k m, market'.accounts.balance k m + flowAt outs k m = market.accounts.balance k m + flowAt ins k m

variable {market market₁ market₂ : Market} {key : Key} {mosaicId : MosaicId} {amount : ℕ} {outs ins outs' ins' : Flows}

lemma Moved.trans (h₁ : market.Moved market₁ outs ins) (h₂ : market₁.Moved market₂ outs' ins') :
    market.Moved market₂ (outs ++ outs') (ins ++ ins') := by
  intro k m
  rw [flowAt_append, flowAt_append]
  have := h₁ k m
  have := h₂ k m
  omega

lemma Moved.supply (h : market.Moved market₁ outs ins) (m : MosaicId) :
    market₁.supply m + flowTotal outs m = market.supply m + flowTotal ins m := by
  rw [supply_eq, supply_eq, ← sum_flowAt, ← sum_flowAt, ← sum_add_distrib, ← sum_add_distrib]
  exact sum_congr rfl fun k _ => h k m

lemma balance_le_supply (market : Market) (k : Key) (m : MosaicId) : market.accounts.balance k m ≤ market.supply m := by
  rw [supply_eq]
  exact single_le_sum (f := fun k => market.accounts.balance k m) (fun _ _ => Nat.zero_le _) (mem_univ k)

variable {k : Key} {accounts : AccountStateCache} {providers : LiquidityProviderCache}

lemma balance_add_le_supply (market : Market) {k' : Key} (hne : k ≠ k') (m : MosaicId) :
    market.accounts.balance k m + market.accounts.balance k' m ≤ market.supply m := by
  rw [supply_eq, ← sum_pair (f := fun k => market.accounts.balance k m) hne]
  exact sum_le_univ_sum_of_nonneg fun _ => Nat.zero_le _

lemma moved_internalCredit (h : market.accounts.internalCredit key mosaicId amount = .ok accounts)
    (hlt : market.accounts.balance key mosaicId + amount < 2 ^ 64) :
    market.Moved ⟨accounts, providers⟩ [] [(key, mosaicId, amount)] := by
  intro k m
  rw [balance_internalCredit h hlt k m]
  simp [flowAt]

lemma moved_internalDebit (h : market.accounts.internalDebit key mosaicId amount = .ok accounts) :
    market.Moved ⟨accounts, providers⟩ [(key, mosaicId, amount)] [] := by
  intro k m
  have := balance_internalDebit h k m
  simpa [flowAt] using this

lemma credit_moved (h : market.credit key mosaicId amount = .ok market₁)
    (hlt : market.accounts.balance key mosaicId + amount < 2 ^ 64) :
    market.Moved market₁ [] [(key, mosaicId, amount)] ∧ market₁.providers = market.providers := by
  obtain ⟨accounts, ha, hm⟩ := bind_eq_ok.mp h
  cases hm
  exact ⟨moved_internalCredit (mapError_eq_ok.mp ha) hlt, rfl⟩

lemma credit_providers (h : market.credit key mosaicId amount = .ok market₁) :
    market₁.providers = market.providers := by
  obtain ⟨accounts, -, hm⟩ := bind_eq_ok.mp h
  cases hm
  rfl

lemma balance_credit_of_ne (h : market.credit key mosaicId amount = .ok market₁) {m : MosaicId}
    (hne : k ≠ key ∨ m ≠ mosaicId) : market₁.accounts.balance k m = market.accounts.balance k m := by
  obtain ⟨accounts, ha, hm⟩ := bind_eq_ok.mp h
  cases hm
  exact balance_internalCredit_of_ne (mapError_eq_ok.mp ha) hne

lemma debit_moved (h : market.debit key mosaicId amount = .ok market₁) :
    market.Moved market₁ [(key, mosaicId, amount)] [] ∧ market₁.providers = market.providers := by
  obtain ⟨accounts, ha, hm⟩ := bind_eq_ok.mp h
  cases hm
  exact ⟨moved_internalDebit (mapError_eq_ok.mp ha), rfl⟩

lemma balance_debit_of_ne (h : market.debit key mosaicId amount = .ok market₁) {m : MosaicId} (hne : k ≠ key) :
    market₁.accounts.balance k m = market.accounts.balance k m := by
  have := (debit_moved h).1 k m
  simpa [flowAt, hne] using this

section

variable {config : Configuration} {market' : Market} {debtor creditor : Key} {tradedAmount : Amount}

lemma findProvider_eq_ok {entry : LiquidityProviderEntry} :
    market.findProvider mosaicId = .ok entry ↔ market.providers[mosaicId]? = some entry := by
  unfold findProvider
  cases market.providers[mosaicId]? <;> simp

lemma findAccount_eq_ok {balances : AccountBalances} :
    market.findAccount key = .ok balances ↔ market.accounts[key]? = some balances := by
  unfold findAccount
  cases market.accounts[key]? <;> simp

structure Purchase (config : Configuration) (market : Market) (debtor creditor : Key) (mosaicId : MosaicId) (amount : ℕ)
    (entry : LiquidityProviderEntry) (currencyAmount : ℕ) (market' : Market) : Prop where
  provider : market.providers[mosaicId]? = some entry
  minted_lt : market.accounts.balance entry.providerKey mosaicId + entry.additionallyMinted + amount < 2 ^ 64
  price : computeCreditCurrencyAmount entry (market.accounts.balance entry.providerKey config.currencyMosaicId)
    (market.accounts.balance entry.providerKey mosaicId) amount config.percentsDigitsAfterDot =
      .ok (some currencyAmount)
  payment : ∃ market₁ market₂ market₃, market.debit debtor config.currencyMosaicId currencyAmount = .ok market₁ ∧
    market₁.credit entry.providerKey config.currencyMosaicId currencyAmount = .ok market₂ ∧
    market₂.credit creditor mosaicId amount = .ok market₃ ∧
    market' = { market₃ with providers := market₃.providers.insert mosaicId (entry.mint amount currencyAmount) }

theorem exists_purchase (h : market.creditOperation config debtor creditor mosaicId tradedAmount = .ok market') :
    ∃ entry currencyAmount, Purchase config market debtor creditor mosaicId tradedAmount entry currencyAmount
      market' := by
  obtain ⟨_, hval, h⟩ := bind_eq_ok.mp h
  unfold validateCreditMosaics at hval
  obtain ⟨entry, hent, h⟩ := bind_eq_ok.mp h
  rw [findProvider_eq_ok] at hent
  obtain ⟨lpAccount, hlp, h⟩ := bind_eq_ok.mp h
  obtain ⟨price, hp, h⟩ := bind_eq_ok.mp h
  simp only [hent] at hval
  obtain ⟨_, hlp', hval⟩ := bind_eq_ok.mp hval
  obtain rfl := Except.ok.inj (hlp.symm.trans hlp')
  have hl := balance_of_getElem? (findAccount_eq_ok.mp hlp)
  cases price with
  | none => cases h
  | some currencyAmount =>
    obtain ⟨debtorAccount, hdeb, h⟩ := bind_eq_ok.mp h
    rw [findAccount_eq_ok] at hdeb
    have hm : isValidAmount (lpAccount mosaicId + entry.additionallyMinted + tradedAmount) := by
      by_contra hc
      rw [if_pos hc] at hval
      cases hval
    rw [if_neg (not_not_intro hm)] at hval
    obtain ⟨_, hp', hval⟩ := bind_eq_ok.mp hval
    obtain rfl := Except.ok.inj (hp.symm.trans hp')
    simp only [hdeb] at hval
    split_ifs at h with hlt
    · simp [hlt] at hval
    obtain ⟨market₁, h₁, h⟩ := bind_eq_ok.mp h
    obtain ⟨market₂, h₂, h⟩ := bind_eq_ok.mp h
    obtain ⟨market₃, h₃, h⟩ := bind_eq_ok.mp h
    refine ⟨entry, currencyAmount, hent, ?_, ?_, market₁, market₂, market₃, h₁, h₂, h₃, (Except.ok.inj h).symm⟩
    · rw [hl]
      simpa [isValidAmount] using hm
    · rw [hl, hl]
      exact hp

lemma Purchase.frame {entry : LiquidityProviderEntry} {currencyAmount : ℕ} {m : MosaicId}
    (h : Purchase config market debtor creditor mosaicId amount entry currencyAmount market')
    (hd : k ≠ debtor) (hp : k ≠ entry.providerKey) (hc : k ≠ creditor) :
    market'.accounts.balance k m = market.accounts.balance k m ∧
      ∀ id ≠ mosaicId, market'.providers[id]? = market.providers[id]? := by
  obtain ⟨market₁, market₂, market₃, h₁, h₂, h₃, rfl⟩ := h.payment
  refine ⟨?_, fun id hid => ?_⟩
  · exact (balance_credit_of_ne h₃ (.inl hc)).trans
      ((balance_credit_of_ne h₂ (.inl hp)).trans (balance_debit_of_ne h₁ hd))
  · simp [ExtTreeMap.getElem?_insert, hid.symm, credit_providers h₃, credit_providers h₂, (debit_moved h₁).2]

structure Sale (config : Configuration) (market : Market) (debtor creditor : Key) (mosaicId : MosaicId) (amount : ℕ)
    (entry : LiquidityProviderEntry) (currencyAmount : ℕ) (market' : Market) : Prop where
  provider : market.providers[mosaicId]? = some entry
  price : computeDebitCurrencyAmount entry (market.accounts.balance entry.providerKey config.currencyMosaicId)
    (market.accounts.balance entry.providerKey mosaicId) amount config.percentsDigitsAfterDot = .ok currencyAmount
  currency_le : currencyAmount ≤ market.accounts.balance entry.providerKey config.currencyMosaicId
  amount_le : amount ≤ market.accounts.balance debtor mosaicId
  payment : ∃ market₁ market₂ market₃, market.credit creditor config.currencyMosaicId currencyAmount = .ok market₁ ∧
    market₁.debit entry.providerKey config.currencyMosaicId currencyAmount = .ok market₂ ∧
    market₂.debit debtor mosaicId amount = .ok market₃ ∧
    market' = { market₃ with providers := market₃.providers.insert mosaicId (entry.burn amount currencyAmount) }

lemma Sale.frame {entry : LiquidityProviderEntry} {currencyAmount : ℕ} {m : MosaicId}
    (h : Sale config market debtor creditor mosaicId amount entry currencyAmount market')
    (hd : k ≠ debtor) (hp : k ≠ entry.providerKey) (hc : k ≠ creditor) :
    market'.accounts.balance k m = market.accounts.balance k m ∧
      ∀ id ≠ mosaicId, market'.providers[id]? = market.providers[id]? := by
  obtain ⟨market₁, market₂, market₃, h₁, h₂, h₃, rfl⟩ := h.payment
  refine ⟨?_, fun id hid => ?_⟩
  · exact (balance_debit_of_ne h₃ hd).trans ((balance_debit_of_ne h₂ hp).trans (balance_credit_of_ne h₁ (.inl hc)))
  · simp [ExtTreeMap.getElem?_insert, hid.symm, (debit_moved h₃).2, (debit_moved h₂).2, credit_providers h₁]

theorem exists_sale (h : market.debitOperation config debtor creditor mosaicId tradedAmount = .ok market') :
    market' = market ∨
      ∃ entry currencyAmount, Sale config market debtor creditor mosaicId tradedAmount entry currencyAmount
        market' := by
  obtain ⟨_, -, h⟩ := bind_eq_ok.mp h
  obtain ⟨entry, hent, h⟩ := bind_eq_ok.mp h
  obtain ⟨lpAccount, hlp, h⟩ := bind_eq_ok.mp h
  have hl := balance_of_getElem? (findAccount_eq_ok.mp hlp)
  obtain ⟨currencyAmount, hp, h⟩ := bind_eq_ok.mp h
  split_ifs at h with hcur
  · exact .inl (Except.ok.inj h).symm
  obtain ⟨debtorAccount, hdeb, h⟩ := bind_eq_ok.mp h
  split_ifs at h with hm
  · exact .inl (Except.ok.inj h).symm
  obtain ⟨market₁, h₁, h⟩ := bind_eq_ok.mp h
  obtain ⟨market₂, h₂, h⟩ := bind_eq_ok.mp h
  obtain ⟨market₃, h₃, h⟩ := bind_eq_ok.mp h
  refine .inr ⟨entry, currencyAmount, findProvider_eq_ok.mp hent, ?_, ?_, ?_, market₁, market₂, market₃, h₁, h₂, h₃,
    (Except.ok.inj h).symm⟩
  · rw [hl, hl]
    exact hp
  · rw [hl]
    exact Nat.not_lt.mp hcur
  · rw [balance_of_getElem? (findAccount_eq_ok.mp hdeb)]
    exact Nat.not_lt.mp hm

end

section

variable {config : Configuration} {height : Height} {market' : Market} {tx : Creation}

lemma balance_addAccount (market : Market) (key k : Key) (m : MosaicId) :
    (market.addAccount key).accounts.balance k m = market.accounts.balance k m := by
  unfold addAccount balance
  simp only [ExtTreeMap.getElem?_insertIfNew]
  split_ifs with h
  · obtain ⟨hk, hnew⟩ := h
    rw [Std.compare_eq_iff_eq] at hk
    rw [← hk, ExtTreeMap.getElem?_eq_none hnew]
    rfl
  · rfl

lemma balance_of_not_mem {k : Key} (h : k ∉ market.accounts) (m : MosaicId) : market.accounts.balance k m = 0 := by
  rw [balance, ExtTreeMap.getElem?_eq_none h, Option.elim_none]

structure ValidCreation (config : Configuration) (market : Market) (tx : Creation) : Prop where
  mosaicId_ne : tx.providerMosaicId ≠ config.currencyMosaicId
  new : tx.providerMosaicId ∉ market.providers
  slashingPeriod_ne : tx.slashingPeriod ≠ 0
  windowSize_pos : 1 ≤ tx.windowSize.val
  deposit_ne : tx.currencyDeposit ≠ 0
  minting_ne : tx.initialMosaicsMinting ≠ 0

lemma validCreation (h : market.validateCreation config tx = .ok ()) : ValidCreation config market tx := by
  unfold validateCreation at h
  split_ifs at h with _ hid hnew _ hp hw hd hm
  exact ⟨hid, hnew, hp, by omega, hd, hm⟩

theorem create_moved (h : market.create config height tx = .ok market') (hf : tx.providerKey ∉ market.accounts) :
    ValidCreation config market tx ∧ tx.owner ≠ tx.providerKey ∧
      market.Moved market' [(tx.owner, config.currencyMosaicId, tx.currencyDeposit)]
        [(tx.providerKey, config.currencyMosaicId, tx.currencyDeposit),
          (tx.providerKey, tx.providerMosaicId, tx.initialMosaicsMinting)] ∧
      market'.providers = market.providers.insert tx.providerMosaicId (createdEntry height tx) := by
  obtain ⟨_, hval, h⟩ := bind_eq_ok.mp h
  have hval := validCreation hval
  split_ifs at h with hbal
  · cases h
  obtain ⟨accounts₁, h₁, h⟩ := bind_eq_ok.mp h
  obtain ⟨accounts₂, h₂, h⟩ := bind_eq_ok.mp h
  obtain ⟨accounts₃, h₃, h⟩ := bind_eq_ok.mp h
  cases h
  have hz : ∀ m, market.accounts.balance tx.providerKey m = 0 := balance_of_not_mem hf
  have hs : market.Moved ((market.addAccount tx.providerKey).addAccount tx.slashingAccount) [] [] := by
    intro k m
    rw [balance_addAccount, balance_addAccount]
  have hd : market.Moved ⟨accounts₁, market.providers⟩ _ _ :=
    hs.trans (moved_internalDebit (debit_eq_ok.mp (mapError_eq_ok.mp h₁)).2)
  have ho : tx.owner ≠ tx.providerKey := by
    intro heq
    rw [balance_addAccount, balance_addAccount, heq, hz] at hbal
    exact hbal (Nat.pos_of_ne_zero fun h0 => hval.deposit_ne (Fin.ext h0))
  have hz₁ : ∀ m, accounts₁.balance tx.providerKey m = 0 := by
    intro m
    have := hd tx.providerKey m
    simpa [flowAt, ho.symm, hz] using this
  have hc : Moved ⟨accounts₁, market.providers⟩ ⟨accounts₂, market.providers⟩ _ _ :=
    moved_internalCredit (credit_eq_ok.mp (mapError_eq_ok.mp h₂)).2 (by simp [hz₁])
  have hz₂ : accounts₂.balance tx.providerKey tx.providerMosaicId = 0 := by
    have := hc tx.providerKey tx.providerMosaicId
    simpa [flowAt, hval.mosaicId_ne, hz₁] using this
  have hm : Moved ⟨accounts₂, market.providers⟩
      ⟨accounts₃, market.providers.insert tx.providerMosaicId (createdEntry height tx)⟩ _ _ :=
    moved_internalCredit (credit_eq_ok.mp (mapError_eq_ok.mp h₃)).2 (by simp [hz₂])
  exact ⟨{ hval with }, ho, (hd.trans hc).trans hm, rfl⟩

end

end Market

end XpxChain.LiquidityProvider
