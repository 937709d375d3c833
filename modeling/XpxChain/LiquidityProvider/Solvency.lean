import XpxChain.LiquidityProvider.SoundTrades

/-! Liquidity providers stay solvent in every run of prudent operations. -/

namespace XpxChain.LiquidityProvider

open Std Accounts Library Exceptions OrderedContainers LiquidityProviderEntry AccountStateCache ExtTreeMap

namespace Market

variable {config : Configuration} {market market' : Market} {mosaicId id : MosaicId}
  {entry entry' : LiquidityProviderEntry} {outs ins : Flows}

variable {flows : Flows} {m : MosaicId}

section

variable {randomMoves : Height → MosaicId → ℕ → Bool} {height : Height} {best : HistoryObservation}

lemma bestObservation_mem {history : List HistoryObservation}
    (h : LiquidityProviderEntry.bestObservation history = some best) : best ∈ history := by
  cases history with
  | nil => cases h
  | cons o history =>
    cases h
    suffices hf : ∀ (l : List HistoryObservation) (b : HistoryObservation),
        l.foldl (fun best o => if best.turnover < o.turnover then o else best) b ∈ b :: l from hf history o
    intro l
    induction l with
    | nil => exact fun b => List.mem_singleton_self b
    | cons a l ih =>
      intro b
      rw [List.foldl_cons]
      split_ifs
      · exact List.mem_cons_of_mem _ (ih a)
      · obtain hb | hl := List.mem_cons.mp (ih b)
        · rw [hb]
          exact List.mem_cons_self
        · exact List.mem_cons_of_mem _ (List.mem_cons_of_mem _ hl)

lemma mem_pushTurnover {o : HistoryObservation} (h : o ∈ entry.pushTurnover) :
    o ∈ entry.turnoverHistory ++ [entry.recentTurnover] := by
  simp only [pushTurnover] at h
  split_ifs at h
  · exact List.mem_of_mem_tail h
  · exact h

lemma slashAccount_moved (h : market.Sound config) (hent : market.Provides mosaicId entry)
    (hk : best.rate.mosaicAmount ^ 2 * (market.currentRate config entry mosaicId).currencyAmount ≤
      best.rate.currencyAmount ^ 2 * (market.currentRate config entry mosaicId).mosaicAmount ^ 2)
    (hs : market.slashAccount config randomMoves height entry mosaicId best.rate
      (market.currentRate config entry mosaicId) = .ok market') :
    ∃ amount, amount < market.accounts.balance entry.providerKey config.currencyMosaicId ∧
      market.Moved market' [(entry.providerKey, config.currencyMosaicId, amount)]
        [(entry.slashingAccount, config.currencyMosaicId, amount)] ∧ market'.providers = market.providers := by
  have hpos := (h.solvent _ _ hent).currency_pos
  unfold slashAccount at hs
  split_ifs at hs with hls
  · obtain ⟨left, hlf, hs⟩ := bind_eq_ok.mp hs
    obtain ⟨accounts₁, h₁, hs⟩ := bind_eq_ok.mp hs
    obtain ⟨accounts₂, h₂, hs⟩ := bind_eq_ok.mp hs
    cases hs
    have hsup := h.supply_lt
    have hle := market.balance_add_le_supply (h.outsiders _ _ _ _ hent hent).2 config.currencyMosaicId
    obtain ⟨hl, hu⟩ := slashedCurrency_bounds hpos (show _ < _ by simp only [currentRate]; omega) hls hk hlf
    simp only [currentRate] at hu
    rw [show (market.currentRate config entry mosaicId).currencyAmount =
      market.accounts.balance entry.providerKey config.currencyMosaicId from rfl, sizeSub_of_le hu] at h₁ h₂
    refine ⟨market.accounts.balance entry.providerKey config.currencyMosaicId - left, by omega, ?_, rfl⟩
    have hc : market.Moved ⟨accounts₁, market.providers⟩ _ _ :=
      moved_internalCredit (credit_eq_ok.mp (mapError_eq_ok.mp h₁)).2 (by omega)
    exact hc.trans (moved_internalDebit (debit_eq_ok.mp (mapError_eq_ok.mp h₂)).2)
  · cases hs
    refine ⟨0, hpos, ?_, rfl⟩
    intro k m
    simp [flowAt]

theorem Sound.slashProvider (h : market.Sound config)
    (hke : ∀ entry, market.Provides mosaicId entry → entry.isDue height → KeepsCurrency config market mosaicId entry)
    (hsl : market.slashProvider config randomMoves height mosaicId = .ok market') :
    market'.Sound config ∧ ∀ id e, id ≠ mosaicId → (market'.Provides id e ↔ market.Provides id e) ∧
      (market.Provides id e → ∀ m, market'.accounts.balance e.providerKey m =
        market.accounts.balance e.providerKey m) := by
  obtain ⟨entry, hf, hsl⟩ := bind_eq_ok.mp hsl
  have hent : market.Provides mosaicId entry := findProvider_eq_ok.mp hf
  by_cases hp : entry.slashingPeriod = 0
  · rw [if_pos hp] at hsl
    cases hsl
  rw [if_neg hp] at hsl
  by_cases hdue : ¬ entry.isDue height
  · rw [if_pos hdue] at hsl
    cases hsl
    exact ⟨h, fun _ _ _ => ⟨Iff.rfl, fun _ _ => rfl⟩⟩
  rw [if_neg hdue] at hsl
  cases hb : bestObservation entry.pushTurnover with
  | none =>
    simp only [hb] at hsl
    cases hsl
  | some best =>
    simp only [hb] at hsl
    obtain ⟨_, -, hsl⟩ := bind_eq_ok.mp hsl
    obtain ⟨market₁, h₁, hsl⟩ := bind_eq_ok.mp hsl
    cases hsl
    obtain ⟨amount, hl, hmoved, hpr⟩ := slashAccount_moved h hent (hke entry hent (not_not.mp hdue) best hb) h₁
    have hso := h.solvent _ _ hent
    have hid := h.mosaicId_ne _ _ hent
    have hsa := (h.outsiders _ _ _ _ hent hent).2
    have hky : ∀ id e, market.Provides id e → id ≠ mosaicId →
        entry.providerKey ≠ e.providerKey ∧ entry.slashingAccount ≠ e.providerKey := fun id e he hne =>
      ⟨h.key_ne hent he hne, (h.outsiders _ _ _ _ hent he).2⟩
    set rate : ExchangeRate := { market.currentRate config entry mosaicId with
      currencyAmount := market₁.accounts.balance entry.providerKey config.currencyMosaicId } with hr
    have hst : Step config market { market₁ with providers := market₁.providers.insert mosaicId (entry.observe rate) }
        mosaicId (entry.observe rate) [(entry.providerKey, config.currencyMosaicId, amount)]
        [(entry.slashingAccount, config.currencyMosaicId, amount)] := by
      refine ⟨hmoved, by simp only [hpr], by simp [flowTotal], by simp, ?_⟩
      intro id e he hne
      simp [hky id e he hne]
    have heq := hso.supply_eq
    have hm := hso.minted_lt
    have hpos := hso.mosaics_pos
    constructor
    · apply h.step hst hent ⟨rfl, rfl, rfl⟩
      · refine ⟨rfl, ?_, ?_, ?_, ?_⟩ <;>
          simp [flowAt, flowTotal, hid, hsa.symm, observe] <;> omega
      · intro o ho
        obtain ho | ho := List.mem_append.mp ho
        · exact h.rates_pos _ _ hent o (mem_pushTurnover ho)
        · obtain rfl := List.mem_singleton.mp ho
          change 0 < entry.minted (market.accounts.balance entry.providerKey mosaicId)
          rw [minted, addAmount_of_lt hm]
          omega
    · intro id e hne
      constructor
      · rw [Provides, hst.providers, getElem?_insert_eq, if_neg hne]
      · intro he m
        obtain ⟨hk, hs⟩ := hky id e he hne
        have := hmoved e.providerKey m
        rw [flowAt_eq_zero (by simp [hk]), flowAt_eq_zero (by simp [hs])] at this
        exact this

theorem Sound.slash (keys : List MosaicId) (hd : keys.Nodup) (h : market.Sound config)
    (hk : ∀ id ∈ keys, ∀ entry, market.Provides id entry → entry.isDue height → KeepsCurrency config market id entry)
    (hs : market.slash config randomMoves height keys = .ok market') : market'.Sound config := by
  induction keys generalizing market with
  | nil =>
    cases hs
    exact h
  | cons id keys ih =>
    obtain ⟨hid, hd⟩ := List.nodup_cons.mp hd
    obtain ⟨market₁, h₁, hs⟩ := bind_eq_ok.mp hs
    obtain ⟨hso, ho⟩ := h.slashProvider (hk id List.mem_cons_self) h₁
    apply ih hd hso _ hs
    intro id' hid' entry hent hdue best hbe
    obtain ⟨hiff, hb⟩ := ho id' entry (fun heq => hid (heq ▸ hid'))
    have hbef := hiff.mp hent
    have := hk id' (List.mem_cons_of_mem _ hid') entry hbef hdue best hbe
    simp only [currentRate] at this ⊢
    rw [hb hbef, hb hbef]
    exact this

end

section

variable {height : Height} {tx : Creation}

lemma supply_eq_zero (h : ∀ p ∈ market.accounts.toList, p.2 mosaicId = 0) : market.supply mosaicId = 0 := by
  rw [supply_eq]
  apply Finset.sum_eq_zero
  intro k _
  cases hk : market.accounts[k]? with
  | none => rw [balance, hk, Option.elim_none]
  | some balances =>
    rw [balance_of_getElem? hk]
    exact h (k, balances) (mem_toList_iff_getElem?_eq_some.mpr hk)

theorem Sound.create (h : market.Sound config) (hp : market.Prudent config height (.creation tx))
    (hcr : market.create config height tx = .ok market') : market'.Sound config := by
  obtain ⟨hf, hb, hs, hn, hot⟩ := hp
  have hot : ∀ {id e}, market.Provides id e → e.providerKey ≠ tx.owner ∧ e.providerKey ≠ tx.slashingAccount ∧
      e.owner ≠ tx.providerKey ∧ e.slashingAccount ≠ tx.providerKey := fun {id e} he =>
    hot (id, e) (mem_toList_iff_getElem?_eq_some.mpr he)
  obtain ⟨hval, how, hmoved, hpr⟩ := create_moved hcr hf
  obtain ⟨hcur, hmos⟩ := balance_created hcr hf
  have hsup := hmoved.supply tx.providerMosaicId
  have hsup' := hmoved.supply config.currencyMosaicId
  simp only [flowTotal_cons, flowTotal_nil, hval.mosaicId_ne,
    hval.mosaicId_ne.symm, if_true, if_false, add_zero, zero_add, supply_eq_zero hn] at hsup hsup'
  -- The other providers have accounts, so the new key is none of theirs.
  have hkey : ∀ {id e}, market.Provides id e → e.providerKey ≠ tx.providerKey := by
    intro id e he hk
    have := (h.solvent _ _ he).currency_pos
    rw [hk, balance_of_not_mem hf] at this
    exact Nat.lt_irrefl 0 this
  have hnew : ∀ {id e}, market.Provides id e → id ≠ tx.providerMosaicId := by
    rintro id e he rfl
    apply hval.new
    exact mem_of_getElem? he
  have hc : ∀ {id e}, market'.Provides id e → id = tx.providerMosaicId ∧ e = createdEntry height tx ∨
      market.Provides id e := by
    intro id e he
    rw [Provides, hpr] at he
    obtain he | ⟨-, he⟩ := getElem?_insert_cases he
    · exact .inl he
    · exact .inr he
  refine ⟨?_, ?_, ?_, ?_, ?_, ?_, ?_⟩
  · have := h.supply_lt
    omega
  · intro id e he
    obtain ⟨rfl, rfl⟩ | he := hc he
    · exact hval.mosaicId_ne
    · exact h.mosaicId_ne id e he
  · intro id e he
    obtain ⟨rfl, rfl⟩ | he := hc he
    · apply solvent_of_supply
      · change 0 < market'.accounts.balance tx.providerKey config.currencyMosaicId
        rw [hcur]
        exact Nat.pos_of_ne_zero fun h0 => hval.deposit_ne (Fin.ext h0)
      · change 0 < market'.accounts.balance tx.providerKey tx.providerMosaicId
        rw [hmos]
        exact Nat.pos_of_ne_zero fun h0 => hval.minting_ne (Fin.ext h0)
      · rw [hsup]
        exact tx.initialMosaicsMinting.isLt
      · rw [hsup]
        exact hmos.symm
    · apply (h.solvent id e he).frame hmoved
      · simp [(hot he).1.symm, (hkey he).symm]
      · simp [(h.mosaicId_ne id e he).symm, (hnew he).symm]
  · intro id e he
    obtain ⟨rfl, rfl⟩ | he := hc he
    · exact hb
    · exact h.beta_le id e he
  · intro id e id' e' he he' hk
    obtain ⟨rfl, rfl⟩ | he := hc he <;> obtain ⟨rfl, rfl⟩ | he' := hc he'
    · rfl
    · exact absurd hk.symm (hkey he')
    · exact absurd hk (hkey he)
    · exact h.key_inj id e id' e' he he' hk
  · intro id e id' e' he he'
    obtain ⟨rfl, rfl⟩ | he := hc he <;> obtain ⟨rfl, rfl⟩ | he' := hc he'
    · exact ⟨how, hs⟩
    · exact ⟨(hot he').1.symm, (hot he').2.1.symm⟩
    · exact (hot he).2.2
    · exact h.outsiders id e id' e' he he'
  · intro id e he o ho
    obtain ⟨rfl, rfl⟩ | he := hc he
    · obtain rfl := List.mem_singleton.mp ho
      exact Nat.pos_of_ne_zero fun h0 => hval.minting_ne (Fin.ext h0)
    · exact h.rates_pos id e he o ho

end

theorem Sound.next {randomMoves : Height → MosaicId → ℕ → Bool} (h : market.Sound config) (op : Height × Operation)
    (hpr : market.Prudent config op.1 op.2) : (next config randomMoves market op).Sound config := by
  obtain ⟨height, op⟩ := op
  unfold LiquidityProvider.next
  have hl : ∀ {id e}, market.Provides id e → (id, e) ∈ market.providers.toList :=
    fun he => mem_toList_iff_getElem?_eq_some.mpr he
  cases ha : apply config randomMoves market (height, op) with
  | error e => exact h
  | ok market' =>
    cases op with
    | creation tx => exact h.create hpr ha
    | credit debtor creditor m amount =>
      obtain ⟨entry, currencyAmount, hp⟩ := exists_purchase ha
      exact h.purchase (fun id e he => hpr (id, e) (hl he)) hp
    | debit debtor creditor m amount =>
      obtain rfl | ⟨entry, currencyAmount, hs⟩ := exists_sale ha
      · exact h
      · exact h.sale (fun id e he => hpr (id, e) (hl he)) hs
    | rateChange tx =>
      exact h.changeRate (fun hi e he => hpr hi (tx.providerMosaicId, e) (hl he) rfl) ha
    | block keys distinct =>
      exact h.slash keys distinct (fun id hid e he => hpr (id, e) (hl he) hid) ha

end Market

/-- In every run of prudent operations every provider is solvent in every state. -/
theorem providers_stay_solvent (config : Configuration) (randomMoves : Height → MosaicId → ℕ → Bool)
    (hunit : 0 < percentUnit config.percentsDigitsAfterDot) (accounts : AccountStateCache)
    (hsupply : sumEntries (fun _ balances => balances config.currencyMosaicId) accounts < 2 ^ 64)
    (ops : List (Height × Operation))
    (hprudent : Runs.Always (next config randomMoves) ⟨accounts, ∅⟩ (fun _ s op => s.Prudent config op.1 op.2) ops) :
    let market := Runs.run (next config randomMoves) ⟨accounts, ∅⟩ ops
    ∀ id entry, market.providers[id]? = some entry → market.Solvent config id entry ∧
      0 < percentUnit config.percentsDigitsAfterDot * entry.minted (market.accounts.balance entry.providerKey id) ∧
      (∀ best ∈ bestObservation entry.pushTurnover, 0 < best.rate.mosaicAmount *
        best.rate.mosaicAmount * market.accounts.balance entry.providerKey config.currencyMosaicId) ∧
      ∀ debtor ≠ entry.providerKey, ∀ amount ≤ market.accounts.balance debtor id,
        amount ≤ entry.additionallyMinted := by
  intro market id entry hentry
  have hsound : market.Sound config := by
    refine Runs.invariant_run (fun _ s => s.Sound config) ?_ (fun _ s op h hop => h.next op hop) hprudent
    refine ⟨hsupply, ?_, ?_, ?_, ?_, ?_, ?_⟩ <;> simp [Market.Provides]
  have hsolvent := hsound.solvent id entry hentry
  refine ⟨hsolvent, ?_, ?_, ?_⟩
  · have hpos := hsolvent.mosaics_pos
    rw [minted, addAmount_of_lt hsolvent.minted_lt]
    exact Nat.mul_pos hunit (by omega)
  · intro best hbest
    have hbest := hsound.rates_pos id entry hentry best (Market.mem_pushTurnover (Market.bestObservation_mem hbest))
    exact Nat.mul_pos (Nat.mul_pos hbest hbest) hsolvent.currency_pos
  · intro debtor hdebtor amount hamount
    have hle := market.balance_add_le_supply hdebtor id
    have heq := hsolvent.supply_eq
    omega

/-- A manual increase of the mosaics is not checked: it wraps the balance of the provider to zero. -/
theorem manual_increase_empties_provider :
    let created := next exampleConfiguration (fun _ _ _ => false) exampleMarket (1, .creation (exampleCreation 5))
    let change : RateChange := ⟨1, 7, true, 0, true, 2 ^ 64 - 2 ^ 62⟩
    (apply exampleConfiguration (fun _ _ _ => false) exampleMarket (1, .creation (exampleCreation 5))).isOk ∧
      (apply exampleConfiguration (fun _ _ _ => false) created (2, .rateChange change)).isOk ∧
      (next exampleConfiguration (fun _ _ _ => false) created (2, .rateChange change)).accounts.balance 10 7 = 0 := by
  decide +kernel

/-- Slashing may take all of the currency: the lower end of its search is `1 * 1 * 2 * 2 / (1 * 1 * 102)`. -/
example :
    let creation := { exampleCreation 5 with currencyDeposit := 1, initialMosaicsMinting := 1, alpha := 10000 }
    let accounts := (∅ : AccountStateCache).insert 1 (Function.update 0 1 1) |>.insert 2 (Function.update 0 1 200)
    let market := Runs.run (next exampleConfiguration fun _ _ _ => true) ⟨accounts, ∅⟩
      [(1, .creation creation), (2, .credit 2 2 7 1), (6, .block [7] (by decide))]
    market.accounts.balance 10 1 = 0 ∧ market.accounts.balance 3 1 = 102 := by
  decide +kernel

def exampleOperations : List (Height × Operation) :=
  (1, .creation (exampleCreation 5)) :: exampleTrades ++
    [(4, .rateChange ⟨1, 7, false, 100, true, 100⟩), (9, .block [7] (by decide))]

theorem providers_stay_solvent_example :
    let market := Runs.run (next exampleConfiguration fun _ _ _ => false) exampleMarket exampleOperations
    ∃ entry, market.providers[(7 : MosaicId)]? = some entry ∧ market.Solvent exampleConfiguration 7 entry := by
  intro market
  have hmem : (market.providers[(7 : MosaicId)]?).isSome = true := by decide +kernel
  obtain ⟨entry, hentry⟩ := Option.isSome_iff_exists.mp hmem
  exact ⟨entry, hentry, (providers_stay_solvent exampleConfiguration (fun _ _ _ => false) (by decide)
    exampleMarket.accounts (by decide +kernel) exampleOperations (by decide +kernel) 7 entry hentry).1⟩

end XpxChain.LiquidityProvider
