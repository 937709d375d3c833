import XpxChain.LiquidityProvider.Flows

/-! Trading with a liquidity provider does not lower its rate, as long as its fee factor does not wrap. -/

namespace XpxChain.LiquidityProvider

open Std Accounts Library Exceptions

section

variable {entry : LiquidityProviderEntry} {currency mosaics amount price digits : ℕ}

lemma percentUnit_pos (h : digits ≤ 19) : 0 < percentUnit digits := by
  interval_cases digits <;> decide

lemma percentUnit_add_lt (h : digits ≤ 19) {fee : ℕ} (hfee : fee < 2 ^ 32) : percentUnit digits + fee < 2 ^ 64 := by
  have hu : percentUnit digits < 2 ^ 64 - 2 ^ 32 := by
    interval_cases digits <;> decide
  omega

lemma ceilDivision_eq_ok {numerator denominator : ℕ} (h : ceilDivision numerator denominator = .ok price) :
    numerator ≤ price * denominator := by
  unfold ceilDivision at h
  split_ifs at h with h0 hd
  · rw [h0]
    exact Nat.zero_le _
  · cases h
    have := Nat.lt_mul_div_succ (numerator - 1) (Nat.pos_of_ne_zero hd)
    rw [Nat.mul_comm]
    omega

lemma floorDivision_eq_ok {numerator denominator : ℕ} (h : floorDivision numerator denominator = .ok price) :
    0 < denominator ∧ price = numerator / denominator := by
  unfold floorDivision at h
  split_ifs at h with hd
  exact ⟨Nat.pos_of_ne_zero hd, (Except.ok.inj h).symm⟩

theorem le_creditAmount (hd : digits ≤ 19) (ha : entry.alpha < 2 ^ 32)
    (h : computeCreditCurrencyAmount entry currency mosaics amount digits = .ok (some price)) :
    amount * currency ≤ price * entry.minted mosaics := by
  obtain ⟨rounded, hr, h⟩ := bind_eq_ok.mp h
  have h := Except.ok.inj h
  split_ifs at h with hv
  obtain rfl := Option.some.inj h
  have hle := ceilDivision_eq_ok hr
  rw [addAmount_of_lt (percentUnit_add_lt hd ha)] at hle
  apply Nat.le_of_mul_le_mul_left _ (percentUnit_pos hd)
  calc percentUnit digits * (amount * currency)
      ≤ amount * currency * (percentUnit digits + entry.alpha) := by rw [Nat.mul_comm]; gcongr; omega
    _ ≤ rounded * (percentUnit digits * entry.minted mosaics) := hle
    _ = percentUnit digits * (rounded * entry.minted mosaics) := by ring

theorem debitAmount_le (hb : entry.beta ≤ percentUnit digits)
    (h : computeDebitCurrencyAmount entry currency mosaics amount digits = .ok price) :
    price * entry.minted mosaics ≤ amount * currency := by
  obtain ⟨rounded, hr, h⟩ := bind_eq_ok.mp h
  cases h
  obtain ⟨hpos, rfl⟩ := floorDivision_eq_ok hr
  rw [sizeSub_of_le hb] at *
  set q := amount * currency * (percentUnit digits - entry.beta) / (percentUnit digits * entry.minted mosaics) with hq
  have hu : 0 < percentUnit digits := Nat.pos_of_mul_pos_right hpos
  apply Nat.le_of_mul_le_mul_left _ hu
  calc percentUnit digits * (q % 2 ^ 64 * entry.minted mosaics)
      ≤ percentUnit digits * (q * entry.minted mosaics) := by gcongr; exact Nat.mod_le _ _
    _ = q * (percentUnit digits * entry.minted mosaics) := by ring
    _ ≤ amount * currency * (percentUnit digits - entry.beta) := Nat.div_mul_le_self _ _
    _ ≤ percentUnit digits * (amount * currency) := by rw [Nat.mul_comm]; gcongr; omega

end

namespace Market

def providerRate (config : Configuration) (market : Market) (mosaicId : MosaicId) : ExchangeRate :=
  match market.providers[mosaicId]? with
  | some entry => market.currentRate config entry mosaicId
  | none => {}

/-- The provider is no party of the trade, and another provider that is traded with has another key. -/
def Apart (mosaicId : MosaicId) (market : Market) (entry : LiquidityProviderEntry) (debtor creditor : Key)
    (m : MosaicId) : Prop :=
  debtor ≠ entry.providerKey ∧ creditor ≠ entry.providerKey ∧
    (m ≠ mosaicId → ∀ other ∈ market.providers[m]?, other.providerKey ≠ entry.providerKey)
deriving Decidable

/-- Trades with any provider. In those with this one, the currency of buyer and provider has a 64-bit sum and nobody
sells more than was bought. -/
def FairTrade (config : Configuration) (mosaicId : MosaicId) (market : Market) (op : Operation) : Prop :=
  match market.providers[mosaicId]?, op with
  | some entry, .credit debtor creditor m _ =>
    Apart mosaicId market entry debtor creditor m ∧
      (m = mosaicId → market.accounts.balance entry.providerKey config.currencyMosaicId +
        market.accounts.balance debtor config.currencyMosaicId < 2 ^ 64)
  | some entry, .debit debtor creditor m amount =>
    Apart mosaicId market entry debtor creditor m ∧ (m = mosaicId → amount ≤ entry.additionallyMinted)
  | _, _ => False

instance (config : Configuration) (mosaicId : MosaicId) (market : Market) (op : Operation) :
    Decidable (FairTrade config mosaicId market op) := by
  unfold FairTrade
  split <;> infer_instance

structure Trading (config : Configuration) (mosaicId : MosaicId) (deposit initial : ℕ) (market : Market)
    (entry : LiquidityProviderEntry) : Prop where
  mosaicId_ne : mosaicId ≠ config.currencyMosaicId
  initial_pos : 0 < initial
  provider : market.providers[mosaicId]? = some entry
  alpha_lt : entry.alpha < 2 ^ 32
  beta_le : entry.beta ≤ percentUnit config.percentsDigitsAfterDot
  mosaics : market.accounts.balance entry.providerKey mosaicId = initial
  minted_lt : initial + entry.additionallyMinted < 2 ^ 64
  rate : deposit * (initial + entry.additionallyMinted) ≤
    market.accounts.balance entry.providerKey config.currencyMosaicId * initial

variable {config : Configuration} {mosaicId : MosaicId} {market market' : Market} {entry : LiquidityProviderEntry}
  {deposit initial : ℕ}

lemma Trading.providerRate_eq (h : Trading config mosaicId deposit initial market entry) :
    market.providerRate config mosaicId = ⟨market.accounts.balance entry.providerKey config.currencyMosaicId,
      initial + entry.additionallyMinted⟩ := by
  rw [providerRate, h.provider]
  simp only [currentRate, LiquidityProviderEntry.minted, h.mosaics]
  rw [addAmount_of_lt h.minted_lt]

lemma rate_trans {d i c m c' m' : ℕ} (h₁ : d * m ≤ c * i) (h₂ : c * m' ≤ c' * m) (hm : 0 < m) : d * m' ≤ c' * i := by
  apply Nat.le_of_mul_le_mul_left _ hm
  calc m * (d * m') = d * m * m' := by ring
    _ ≤ c * i * m' := by gcongr
    _ = i * (c * m') := by ring
    _ ≤ i * (c' * m) := by gcongr
    _ = m * (c' * i) := by ring

section

variable {debtor creditor : Key} {amount currencyAmount : ℕ}

lemma Trading.moved {entry' : LiquidityProviderEntry} (h : Trading config mosaicId deposit initial market entry)
    (hp : market'.providers[mosaicId]? = some entry') (hkey : entry'.providerKey = entry.providerKey)
    (ha : entry'.alpha = entry.alpha) (hb : entry'.beta = entry.beta)
    (hmos : market'.accounts.balance entry.providerKey mosaicId = market.accounts.balance entry.providerKey mosaicId)
    (hm : initial + entry'.additionallyMinted < 2 ^ 64)
    (hr : market.accounts.balance entry.providerKey config.currencyMosaicId * (initial + entry'.additionallyMinted) ≤
      market'.accounts.balance entry.providerKey config.currencyMosaicId * (initial + entry.additionallyMinted)) :
    Trading config mosaicId deposit initial market' entry' ∧
      (market'.providerRate config mosaicId).isLess (market.providerRate config mosaicId) = false := by
  have hpos := h.initial_pos
  have h' : Trading config mosaicId deposit initial market' entry' :=
    ⟨h.mosaicId_ne, hpos, hp, ha ▸ h.alpha_lt, hb ▸ h.beta_le, by rw [hkey, hmos, h.mosaics], hm,
      hkey ▸ rate_trans h.rate hr (by omega)⟩
  refine ⟨h', ?_⟩
  rw [h'.providerRate_eq, h.providerRate_eq, hkey]
  simpa only [ExchangeRate.isLess, decide_eq_false_iff_not, Nat.not_lt] using hr

lemma Trading.frame (h : Trading config mosaicId deposit initial market entry)
    (hb : ∀ m, market'.accounts.balance entry.providerKey m = market.accounts.balance entry.providerKey m)
    (hp : market'.providers[mosaicId]? = market.providers[mosaicId]?) :
    Trading config mosaicId deposit initial market' entry ∧
      (market'.providerRate config mosaicId).isLess (market.providerRate config mosaicId) = false :=
  h.moved (hp.trans h.provider) rfl rfl rfl (hb mosaicId) h.minted_lt (by rw [hb])

lemma Trading.purchase (hd : config.percentsDigitsAfterDot ≤ 19)
    (h : Trading config mosaicId deposit initial market entry)
    (hp : Purchase config market debtor creditor mosaicId amount entry currencyAmount market')
    (hdeb : debtor ≠ entry.providerKey) (hcr : creditor ≠ entry.providerKey)
    (hlt : market.accounts.balance entry.providerKey config.currencyMosaicId +
      market.accounts.balance debtor config.currencyMosaicId < 2 ^ 64) :
    Trading config mosaicId deposit initial market' (entry.mint amount currencyAmount) ∧
      (market'.providerRate config mosaicId).isLess (market.providerRate config mosaicId) = false := by
  obtain ⟨market₁, market₂, market₃, h₁, h₂, h₃, rfl⟩ := hp.payment
  have hcur := (debit_moved h₁).1 entry.providerKey config.currencyMosaicId
  have hpa := (debit_moved h₁).1 debtor config.currencyMosaicId
  have hmos := (debit_moved h₁).1 entry.providerKey mosaicId
  simp only [flowAt_cons, flowAt_nil, hdeb.symm, h.mosaicId_ne, and_true, and_false, if_true, if_false, add_zero]
    at hcur hpa hmos
  have hc := (credit_moved h₂ (by omega)).1
  have hcur' := hc entry.providerKey config.currencyMosaicId
  have hmos' := hc entry.providerKey mosaicId
  simp only [flowAt_cons, flowAt_nil, h.mosaicId_ne, and_true, and_false, if_true, if_false, add_zero] at hcur' hmos'
  have hs : ∀ m, market₃.accounts.balance entry.providerKey m = market₂.accounts.balance entry.providerKey m :=
    fun m => balance_credit_of_ne h₃ (.inl hcr.symm)
  have hpr := le_creditAmount hd h.alpha_lt hp.price
  have hm := hp.minted_lt
  rw [h.mosaics] at hpr hm
  rw [LiquidityProviderEntry.minted, addAmount_of_lt h.minted_lt] at hpr
  have hadd : (entry.mint amount currencyAmount).additionallyMinted = entry.additionallyMinted + amount :=
    addAmount_of_lt (by omega)
  refine h.moved (by simp) rfl rfl rfl ((hs mosaicId).trans (hmos'.trans hmos)) ?_ ?_
  · omega
  · rw [hadd, hs, hcur', hcur]
    nlinarith only [hpr]

lemma Trading.sale (h : Trading config mosaicId deposit initial market entry)
    (hs : Sale config market debtor creditor mosaicId amount entry currencyAmount market')
    (hdeb : debtor ≠ entry.providerKey) (hcr : creditor ≠ entry.providerKey)
    (hamt : amount ≤ entry.additionallyMinted) :
    Trading config mosaicId deposit initial market' (entry.burn amount currencyAmount) ∧
      (market'.providerRate config mosaicId).isLess (market.providerRate config mosaicId) = false := by
  obtain ⟨market₁, market₂, market₃, h₁, h₂, h₃, rfl⟩ := hs.payment
  have hsa : ∀ m, market₁.accounts.balance entry.providerKey m = market.accounts.balance entry.providerKey m :=
    fun m => balance_credit_of_ne h₁ (.inl hcr.symm)
  have hcur := (debit_moved h₂).1 entry.providerKey config.currencyMosaicId
  have hmos := (debit_moved h₂).1 entry.providerKey mosaicId
  have hcur' := (debit_moved h₃).1 entry.providerKey config.currencyMosaicId
  have hmos' := (debit_moved h₃).1 entry.providerKey mosaicId
  simp only [flowAt_cons, flowAt_nil, hdeb.symm, h.mosaicId_ne, and_true, and_false, false_and, if_true, if_false,
    add_zero, hsa] at hcur hmos hcur' hmos'
  have hp := debitAmount_le h.beta_le hs.price
  rw [h.mosaics, LiquidityProviderEntry.minted, addAmount_of_lt h.minted_lt] at hp
  have hsub : (entry.burn amount currencyAmount).additionallyMinted = entry.additionallyMinted - amount :=
    sizeSub_of_le hamt
  obtain ⟨rest, hr⟩ := Nat.exists_eq_add_of_le hamt
  refine h.moved (by simp) rfl rfl rfl (hmos'.trans hmos) ?_ ?_
  · have := h.minted_lt
    omega
  · rw [hsub, hcur', ← hcur]
    rw [← hcur, hr] at hp
    rw [hr, Nat.add_sub_cancel_left]
    nlinarith only [hp]

end

variable {randomMoves : Height → MosaicId → ℕ → Bool} {height : Height} {tx : Creation}

section

variable (h : market.create config height tx = .ok market') (hfresh : tx.providerKey ∉ market.accounts)
include h hfresh

lemma balance_created :
    market'.accounts.balance tx.providerKey config.currencyMosaicId = tx.currencyDeposit ∧
      market'.accounts.balance tx.providerKey tx.providerMosaicId = tx.initialMosaicsMinting := by
  obtain ⟨hval, ho, hm, -⟩ := create_moved h hfresh
  have hcur := hm tx.providerKey config.currencyMosaicId
  have hmos := hm tx.providerKey tx.providerMosaicId
  simp only [flowAt_cons, flowAt_nil, ho.symm, hval.mosaicId_ne, hval.mosaicId_ne.symm, and_true, and_false, if_true,
    if_false, add_zero, zero_add, balance_of_not_mem hfresh] at hcur hmos
  exact ⟨hcur, hmos⟩

theorem trading_create (hb : tx.beta ≤ percentUnit config.percentsDigitsAfterDot) :
    Trading config tx.providerMosaicId tx.currencyDeposit tx.initialMosaicsMinting market'
      (createdEntry height tx) := by
  obtain ⟨hval, -, -, hp⟩ := create_moved h hfresh
  obtain ⟨hcur, hmos⟩ := balance_created h hfresh
  refine ⟨hval.mosaicId_ne, ?_, ?_, tx.alpha.isLt, hb, hmos, ?_, ?_⟩
  · exact Nat.pos_of_ne_zero fun h0 => hval.minting_ne (Fin.ext h0)
  · rw [hp, ExtTreeMap.getElem?_insert_self]
  · exact tx.initialMosaicsMinting.isLt
  · exact (congrArg (· * _) hcur).ge

end

theorem Trading.next (hd : config.percentsDigitsAfterDot ≤ 19)
    (h : Trading config mosaicId deposit initial market entry) {op : Height × Operation}
    (hf : FairTrade config mosaicId market op.2) :
    (∃ entry', Trading config mosaicId deposit initial (next config randomMoves market op) entry') ∧
      ((next config randomMoves market op).providerRate config mosaicId).isLess (market.providerRate config mosaicId) =
        false := by
  have hse : (market.providerRate config mosaicId).isLess (market.providerRate config mosaicId) = false := by
    simp [ExchangeRate.isLess]
  obtain ⟨height, op⟩ := op
  unfold LiquidityProvider.next
  cases ha : apply config randomMoves market (height, op) with
  | error e => exact ⟨⟨entry, h⟩, hse⟩
  | ok market' =>
    simp only [FairTrade, h.provider] at hf
    cases op with
    | credit debtor creditor m amount =>
      obtain ⟨⟨hdeb, hcr, hother⟩, hlt⟩ := hf
      obtain ⟨entry', currencyAmount, hp⟩ := exists_purchase ha
      by_cases hm : m = mosaicId
      · subst hm
        obtain rfl := Option.some.inj (hp.provider.symm.trans h.provider)
        exact (h.purchase hd hp hdeb hcr (hlt rfl)).imp_left fun ht => ⟨_, ht⟩
      · have hframe := fun id => hp.frame (m := id) hdeb.symm (hother hm entry' hp.provider).symm hcr.symm
        exact (h.frame (fun id => (hframe id).1) ((hframe m).2 mosaicId (Ne.symm hm))).imp_left fun ht => ⟨_, ht⟩
    | debit debtor creditor m amount =>
      obtain ⟨⟨hdeb, hcr, hother⟩, hamt⟩ := hf
      obtain rfl | ⟨entry', currencyAmount, hs⟩ := exists_sale ha
      · exact ⟨⟨entry, h⟩, hse⟩
      by_cases hm : m = mosaicId
      · subst hm
        obtain rfl := Option.some.inj (hs.provider.symm.trans h.provider)
        exact (h.sale hs hdeb hcr (hamt rfl)).imp_left fun ht => ⟨_, ht⟩
      · have hframe := fun id => hs.frame (m := id) hdeb.symm (hother hm entry' hs.provider).symm hcr.symm
        exact (h.frame (fun id => (hframe id).1) ((hframe m).2 mosaicId (Ne.symm hm))).imp_left fun ht => ⟨_, ht⟩
    | creation tx => exact hf.elim
    | rateChange tx => exact hf.elim
    | block keys distinct => exact hf.elim

lemma Trading.deposit_le (h : Trading config mosaicId deposit initial market entry) :
    deposit ≤ (market.providerRate config mosaicId).currencyAmount := by
  rw [h.providerRate_eq]
  apply Nat.le_of_mul_le_mul_right _ h.initial_pos
  exact (Nat.mul_le_mul_left deposit (Nat.le_add_right _ _)).trans h.rate

end Market

/-- In every run of fair trades no trade lowers the rate of a provider. -/
theorem rate_never_lowered (config : Configuration) (randomMoves : Height → MosaicId → ℕ → Bool)
    (hdigits : config.percentsDigitsAfterDot ≤ 19) (market₀ market : Market) (height : Height) (tx : Creation)
    (hcreate : market₀.create config height tx = .ok market) (hfresh : tx.providerKey ∉ market₀.accounts)
    (hbeta : tx.beta ≤ percentUnit config.percentsDigitsAfterDot) (ops : List (Height × Operation))
    (hfair : Runs.Always (next config randomMoves) market
      (fun _ s op => s.FairTrade config tx.providerMosaicId op.2) ops) :
    Runs.Always (next config randomMoves) market (fun _ s op =>
        ((next config randomMoves s op).providerRate config tx.providerMosaicId).isLess
          (s.providerRate config tx.providerMosaicId) = false) ops ∧
      tx.currencyDeposit ≤
        ((Runs.run (next config randomMoves) market ops).providerRate config tx.providerMosaicId).currencyAmount := by
  let Kept : List (Height × Operation) → Market → Prop := fun _ s =>
    ∃ entry, s.Trading config tx.providerMosaicId tx.currencyDeposit tx.initialMosaicsMinting entry
  have hstart : Kept [] market := ⟨_, Market.trading_create hcreate hfresh hbeta⟩
  have hkeep : ∀ past s op, Kept past s → s.FairTrade config tx.providerMosaicId op.2 →
      Kept (past ++ [op]) (next config randomMoves s op) := by
    rintro past s op ⟨entry, h⟩ hop
    exact (h.next hdigits hop).1
  constructor
  · refine Runs.always_of_invariant Kept hstart hkeep ?_ hfair
    rintro past s op ⟨entry, h⟩ hop
    exact (h.next hdigits hop).2
  · obtain ⟨entry, h⟩ := Runs.invariant_run Kept hstart hkeep hfair
    exact h.deposit_le

section

def exampleConfiguration : Configuration where
  currencyMosaicId := 1
  percentsDigitsAfterDot := 0
  managerPublicKeys := {1}
  maxWindowSize := 10

def exampleCreation (beta : Fin (2 ^ 32)) : Creation where
  providerKey := 10
  owner := 1
  providerMosaicId := 7
  currencyDeposit := 2 ^ 62
  initialMosaicsMinting := 2 ^ 62
  slashingPeriod := 5
  windowSize := 3
  slashingAccount := 3
  alpha := 0
  beta

def exampleMarket : Market where
  accounts := (∅ : AccountStateCache).insert 1 (Function.update 0 1 (2 ^ 62 + 10)) |>.insert 2 (Function.update 0 1 25)
  providers := ∅

def exampleTrades : List (Height × Operation) := [(2, .credit 2 2 7 25), (3, .debit 2 2 7 25)]

/-- A fee of 101 percent wraps, and a trader takes nearly all of the currency. -/
theorem rate_lowered_by_wrapped_fee :
    let market := next exampleConfiguration (fun _ _ _ => false) exampleMarket (1, .creation (exampleCreation 101))
    let bought := next exampleConfiguration (fun _ _ _ => false) market (2, .credit 2 2 7 25)
    let sold := next exampleConfiguration (fun _ _ _ => false) bought (3, .debit 2 2 7 25)
    (apply exampleConfiguration (fun _ _ _ => false) exampleMarket (1, .creation (exampleCreation 101))).isOk ∧
      (apply exampleConfiguration (fun _ _ _ => false) market (2, .credit 2 2 7 25)).isOk ∧
      (apply exampleConfiguration (fun _ _ _ => false) bought (3, .debit 2 2 7 25)).isOk ∧
      (sold.providerRate exampleConfiguration 7).isLess (bought.providerRate exampleConfiguration 7) ∧
      sold.accounts.balance 10 1 = 26 ∧ sold.accounts.balance 2 1 = 2 ^ 62 - 1 := by
  decide +kernel

lemma apply_eq_ok_next (config : Configuration) (randomMoves : Height → MosaicId → ℕ → Bool) (market : Market)
    (op : Height × Operation) (h : (apply config randomMoves market op).isOk) :
    apply config randomMoves market op = .ok (next config randomMoves market op) := by
  unfold next
  cases ha : apply config randomMoves market op with
  | ok market' => rfl
  | error e =>
    rw [ha] at h
    cases h

/-- A second provider, with which the trader exchanges in between. -/
def otherCreation : Creation :=
  { exampleCreation 5 with
    providerKey := 11, providerMosaicId := 8, currencyDeposit := 10, initialMosaicsMinting := 10 }

def mixedTrades : List (Height × Operation) := [(2, .credit 2 2 7 20), (3, .credit 2 2 8 5), (4, .debit 2 2 7 20)]

theorem rate_never_lowered_example :
    let market₀ := next exampleConfiguration (fun _ _ _ => false) exampleMarket (1, .creation otherCreation)
    let market := next exampleConfiguration (fun _ _ _ => false) market₀ (1, .creation (exampleCreation 5))
    market₀.create exampleConfiguration 1 (exampleCreation 5) = .ok market ∧
      Runs.Always (next exampleConfiguration fun _ _ _ => false) market (fun _ s op =>
        ((next exampleConfiguration (fun _ _ _ => false) s op).providerRate exampleConfiguration 7).isLess
          (s.providerRate exampleConfiguration 7) = false) mixedTrades := by
  intro market₀ market
  have hcreate : market₀.create exampleConfiguration 1 (exampleCreation 5) = .ok market :=
    apply_eq_ok_next exampleConfiguration _ market₀ (1, .creation (exampleCreation 5)) (by decide +kernel)
  refine ⟨hcreate, (rate_never_lowered exampleConfiguration (fun _ _ _ => false) (by decide) market₀ market 1
    (exampleCreation 5) hcreate (by decide +kernel) (by decide +kernel) mixedTrades ?_).1⟩
  decide +kernel

end

end XpxChain.LiquidityProvider

