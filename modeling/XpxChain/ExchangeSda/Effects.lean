import XpxChain.ExchangeSda.Book

/-! What the writes of the observers do to the order book and to the total of a mosaic. -/

namespace XpxChain.ExchangeSda

open Std Accounts Library Exceptions OrderedContainers SdaOfferGroupVector State Option

variable [Sha3]

def SdaExchangeEntry.held (entry : SdaExchangeEntry) (m : MosaicId) : ℕ :=
  sumEntries (fun pair o => if pair.mosaicIdGive = m then o.currentMosaicGive else 0) entry.sdaOfferBalances

namespace State

variable (s : State) (m : MosaicId)

def funds : ℕ := sumEntries (fun _ balances => balances m) s.accounts

def held : ℕ := sumEntries (fun _ entry => entry.held m) s.exchange

def total : ℕ := s.funds m + s.held m

end State

structure Kept (s s' : State) : Prop where
  total : ∀ m, s'.total m = s.total m
  accounts : ∀ k, k ∈ s'.accounts ↔ k ∈ s.accounts
  exchange : ∀ k, k ∈ s'.exchange ↔ k ∈ s.exchange

lemma Kept.refl (s : State) : Kept s s := ⟨fun _ => rfl, fun _ => Iff.rfl, fun _ => Iff.rfl⟩

lemma Kept.trans {s s' s'' : State} (h : Kept s s') (h' : Kept s' s'') : Kept s s'' :=
  ⟨fun m => (h'.total m).trans (h.total m), fun k => (h'.accounts k).trans (h.accounts k),
    fun k => (h'.exchange k).trans (h.exchange k)⟩

variable {context : Context} {s s' : State} {k k' : Key} {pair pair' : MosaicsPair} {o o' : SdaOfferBalance}
  {entry : SdaExchangeEntry} {g : GroupKey} {m : MosaicId} {amount : ℕ}

lemma live_eq_some :
    s.live k pair = some o ↔ ∃ entry, s.exchange[k]? = some entry ∧ entry.sdaOfferBalances[pair]? = some o := by
  rw [live, bind_eq_some_iff]

lemma getEntry_eq_ok : s.getEntry k = .ok entry ↔ s.exchange[k]? = some entry := by
  unfold getEntry
  cases s.exchange[k]? <;> simp

omit [Sha3] in
lemma getOffer_eq_ok : entry.getOffer pair = .ok o ↔ entry.sdaOfferBalances[pair]? = some o := by
  unfold SdaExchangeEntry.getOffer
  cases entry.sdaOfferBalances[pair]? <;> simp

lemma getElem?_setEntry : (s.setEntry entry).exchange[k]? = if k = entry.owner then some entry else s.exchange[k]? :=
  getElem?_insert_eq

variable {change : SdaOfferGroupVector → SdaOfferGroupVector} {old new : SdaExchangeEntry} {v : Option SdaOfferBalance}

lemma group_modifyGroup (hinj : Function.Injective Sha3.hash) (hchg : change [] = []) (g' : GroupKey) :
    (s.modifyGroup (Sha3.hash g) change).group g' = if g' = g then change (s.group g') else s.group g' := by
  rw [modifyGroup, group_setGroup hinj]
  by_cases hg : g' = g
  · rw [if_pos hg, if_pos hg, hg, group]
    cases s.groups (Sha3.hash g) <;> simp [hchg]
  · rw [if_neg hg, if_neg hg]

lemma held_setEntry (h : s.exchange[entry.owner]? = some old) (m : MosaicId) :
    (s.setEntry entry).held m + old.held m = s.held m + entry.held m := by
  have hi :=
    sumEntries_insert (f := fun _ (entry : SdaExchangeEntry) => entry.held m) (m := s.exchange) (k := entry.owner)
    (v := entry)
  rw [h] at hi
  exact hi

lemma effect_setEntry {groups : GroupHash → Option SdaOfferGroupVector} (h : Book s)
    (hent : s.exchange[k]? = some entry) (ho : new.owner = k)
    (hg : ∀ g', (groups (Sha3.hash g')).getD [] = if g' = g then change (s.group g') else s.group g')
    (hof : ∀ pair', new.sdaOfferBalances[pair']? = if pair' = pair then v else entry.sdaOfferBalances[pair']?)
    (hexp : ∀ pair' height o, (new.expiredSdaOfferBalances.getD height ∅)[pair']? = some o →
      (entry.expiredSdaOfferBalances.getD height ∅)[pair']? = some o ∨ pair' = pair ∧ v = none ∧ ValidOffer pair' o) :
    Effect s { s.setEntry new with groups := groups } k pair v g change where
  live_eq k' pair' := by
    change ((s.setEntry new).exchange[k']?.bind fun entry => entry.sdaOfferBalances[pair']?) = _
    rw [getElem?_setEntry, ho]
    by_cases hk : k' = k
    · subst hk
      rw [if_pos rfl, bind_some, hof, live, hent]
      simp
    · rw [if_neg hk, if_neg (fun heq => hk heq.1), live]
  buffered k' pair' o := by
    rintro ⟨entry', hent', height, hmem⟩
    rw [getElem?_setEntry, ho] at hent'
    by_cases hk : k' = k
    · subst hk
      rw [if_pos rfl, some.injEq] at hent'
      subst hent'
      obtain hmem | hp := hexp pair' height o hmem
      · exact .inl ⟨entry, hent, height, hmem⟩
      · exact .inr ⟨rfl, hp⟩
    · rw [if_neg hk] at hent'
      exact .inl ⟨entry', hent', height, hmem⟩
  group_eq := hg
  owner_eq k' entry' hent' := by
    rw [getElem?_setEntry] at hent'
    split_ifs at hent' with hk
    · cases hent'
      exact hk.symm
    · exact h.owner_eq k' entry' hent'
  account k' hk' := by
    change k' ∈ s.exchange.insert new.owner new at hk'
    rw [ExtTreeMap.mem_insert, Std.compare_eq_iff_eq, ho] at hk'
    obtain rfl | hk' := hk'
    · exact h.account _ (mem_of_getElem? hent)
    · exact h.account k' hk'
  exchanged := rfl

omit [Sha3] in
lemma held_of_offers
    (ho : ∀ pair', new.sdaOfferBalances[pair']? = if pair' = pair then v else old.sdaOfferBalances[pair']?)
    (m : MosaicId) :
    new.held m + old.sdaOfferBalances[pair]?.elim 0
      (fun o => if pair.mosaicIdGive = m then o.currentMosaicGive else 0) =
      old.held m + v.elim 0 fun o => if pair.mosaicIdGive = m then o.currentMosaicGive else 0 := by
  have ha := sumEntries_add_of_agree (f := fun (pair : MosaicsPair) (o : SdaOfferBalance) =>
    if pair.mosaicIdGive = m then o.currentMosaicGive else 0) (m := old.sdaOfferBalances)
    fun other hoth => by rw [ho, if_neg hoth]
  rw [ho pair, if_pos rfl] at ha
  exact ha

lemma exists_entry (ho : s.live k pair = some o) :
    ∃ entry, s.getEntry k = .ok entry ∧ s.exchange[k]? = some entry ∧ entry.getOffer pair = .ok o ∧
      entry.sdaOfferBalances[pair]? = some o := by
  obtain ⟨entry, hent, hof⟩ := live_eq_some.mp ho
  exact ⟨entry, getEntry_eq_ok.mpr hent, hent, getOffer_eq_ok.mpr hof, hof⟩

section

lemma changeOffer_spec (o' : SdaOfferBalance) (amount : ℕ) (h : Book s) (ho : s.live k pair = some o)
    (hent : s.exchange[k]? = some entry) (hval : ValidOffer pair o') (hg : o'.groupOf pair = o.groupOf pair)
    (hd : o'.deadline = o.deadline) (hu : s.Whole → amount = o'.currentMosaicGive) :
    Book (changeOffer entry pair o' (Sha3.hash (o.groupOf pair)) amount s) ∧
      (∀ k' pair', (changeOffer entry pair o' (Sha3.hash (o.groupOf pair)) amount s).live k' pair' =
        if k' = k ∧ pair' = pair then some o' else s.live k' pair') ∧
      (∀ m, (changeOffer entry pair o' (Sha3.hash (o.groupOf pair)) amount s).held m +
        (if pair.mosaicIdGive = m then o.currentMosaicGive else 0) =
          s.held m + if pair.mosaicIdGive = m then o'.currentMosaicGive else 0) ∧
            ∀ k' entry', k' ≠ k → s.exchange[k']? = some entry' →
        (changeOffer entry pair o' (Sha3.hash (o.groupOf pair)) amount s).exchange[k']? = some entry' := by
  have how := h.owner_eq k entry hent
  have hof : ∀ pair', (entry.setOffer pair o').sdaOfferBalances[pair']? =
      if pair' = pair then some o' else entry.sdaOfferBalances[pair']? := fun _ => getElem?_insert_eq
  have he : Effect s ((s.setEntry (entry.setOffer pair o')).modifyGroup (Sha3.hash (o.groupOf pair)) fun group =>
      group.updateSdaOfferGroup k amount) k pair (some o') (o.groupOf pair) fun group =>
        group.updateSdaOfferGroup k amount :=
    effect_setEntry h hent how (group_modifyGroup h.hash_injective rfl) hof fun pair' height o₁ hmem => .inl hmem
  unfold changeOffer
  rw [how]
  refine ⟨h.change ho hval hg hd hu he, he.live_eq, fun m => ?_, fun k' entry' hk' hent' => ?_⟩
  swap
  · change (s.setEntry (entry.setOffer pair o')).exchange[k']? = _
    rw [getElem?_setEntry, if_neg]
    · exact hent'
    · rintro rfl
      exact hk' how
  have hent' : s.exchange[(entry.setOffer pair o').owner]? = some entry := by
    rw [← hent, ← how]
    rfl
  have hh := held_setEntry hent' m
  have hold : entry.sdaOfferBalances[pair]? = some o := by
    rw [live, hent] at ho
    exact ho
  have hchg := held_of_offers hof m
  rw [hold] at hchg
  simp only [elim_some] at hchg
  change (s.setEntry (entry.setOffer pair o')).held m + _ = _
  omega

end

section

/-- The offer goes from the live ones to those that expired at the height. -/
structure Expired (height : Height) (entry : SdaExchangeEntry) (pair : MosaicsPair) (o : SdaOfferBalance)
    (new : SdaExchangeEntry) : Prop where
  owner_eq : new.owner = entry.owner
  offers : ∀ pair', new.sdaOfferBalances[pair']? = if pair' = pair then none else entry.sdaOfferBalances[pair']?
  expired : ∀ pair', (new.expiredSdaOfferBalances.getD height ∅)[pair']? =
    if pair' = pair then some o else (entry.expiredSdaOfferBalances.getD height ∅)[pair']?
  others : ∀ height', height' ≠ height →
    new.expiredSdaOfferBalances.getD height' ∅ = entry.expiredSdaOfferBalances.getD height' ∅

variable {new : SdaExchangeEntry} {height : Height}

omit [Sha3] in
lemma exists_expired (ho : entry.sdaOfferBalances[pair]? = some o)
    (hf : (entry.expiredSdaOfferBalances.getD height ∅)[pair]? = none) :
    ∃ new, entry.expireOffer pair height = .ok new ∧ Expired height entry pair o new := by
  simp only [SdaExchangeEntry.expireOffer, getOffer_eq_ok.mpr ho, if_neg (not_mem_iff.mpr hf)]
  refine ⟨_, rfl, rfl, fun _ => getElem?_erase_eq, fun pair' => ?_, fun height' hne => ?_⟩
  · rw [ExtTreeMap.getD_insert_self, getElem?_insert_eq]
  · rw [ExtTreeMap.getD_insert, if_neg (by simpa using hne.symm)]

omit [Sha3] in
lemma Expired.buffered (e : Expired height entry pair o new) {height' : Height} {o₁ : SdaOfferBalance}
    (h : (new.expiredSdaOfferBalances.getD height' ∅)[pair']? = some o₁) :
    (entry.expiredSdaOfferBalances.getD height' ∅)[pair']? = some o₁ ∨ pair' = pair ∧ o₁ = o := by
  by_cases hht : height' = height
  · subst hht
    rw [e.expired] at h
    split_ifs at h with hp
    · exact .inr ⟨hp, (some.inj h).symm⟩
    · exact .inl h
  · rw [e.others _ hht] at h
    exact .inl h

lemma Expired.held (e : Expired height entry pair o new) (hent : s.exchange[entry.owner]? = some entry)
    (ho : entry.sdaOfferBalances[pair]? = some o) (m : MosaicId) :
    (s.setEntry new).held m + (if pair.mosaicIdGive = m then o.currentMosaicGive else 0) = s.held m := by
  rw [← e.owner_eq] at hent
  have hset := held_setEntry hent m
  have hchg := held_of_offers e.offers m
  rw [ho] at hchg
  simp only [elim_some, elim_none] at hchg
  omega

lemma Book.fresh (h : Book s) (ho : s.live k pair = some o) (hent : s.exchange[k]? = some entry) (height : Height) :
    (entry.expiredSdaOfferBalances.getD height ∅)[pair]? = none := by
  rw [eq_none_iff_forall_ne_some]
  intro o₁ ho₁
  exact h.disjoint k pair o o₁ ho ⟨entry, hent, height, ho₁⟩

lemma closeOffer_spec (context : Context) (h : Book s) (ho : s.live k pair = some o) :
    ∃ s', closeOffer context k pair (Sha3.hash (o.groupOf pair)) s = .ok s' ∧ Book s' ∧
      (∀ k' pair', s'.live k' pair' = if k' = k ∧ pair' = pair then none else s.live k' pair') ∧
      (∀ m, s'.held m + (if pair.mosaicIdGive = m then o.currentMosaicGive else 0) = s.held m) ∧
      s'.accounts = s.accounts ∧ ∀ k', k' ∈ s'.exchange ↔ k' ∈ s.exchange := by
  obtain ⟨entry, hget, hent, -, hof⟩ := exists_entry ho
  have how := h.owner_eq k entry hent
  obtain ⟨new, hex, e⟩ := exists_expired hof (h.fresh ho hent context.height)
  subst how
  have hb : ∀ pair' height o₁, (new.expiredSdaOfferBalances.getD height ∅)[pair']? = some o₁ →
      (entry.expiredSdaOfferBalances.getD height ∅)[pair']? = some o₁ ∨
        pair' = pair ∧ (none : Option SdaOfferBalance) = none ∧ ValidOffer pair' o₁ := by
    intro pair' height o₁ hmem
    obtain hmem | ⟨rfl, rfl⟩ := e.buffered hmem
    · exact .inl hmem
    · exact .inr ⟨rfl, rfl, h.valid _ _ _ ho⟩
  have he : Effect s ((s.setEntry new).modifyGroup (Sha3.hash (o.groupOf pair)) (removeSdaOfferFromGroup entry.owner))
      entry.owner pair none
      (o.groupOf pair) (removeSdaOfferFromGroup entry.owner) :=
    effect_setEntry h hent e.owner_eq (group_modifyGroup h.hash_injective rfl) e.offers hb
  refine ⟨(s.setEntry new).modifyGroup (Sha3.hash (o.groupOf pair)) (removeSdaOfferFromGroup entry.owner), ?_,
    h.expire ho he, he.live_eq, e.held hent hof, rfl, fun k' => mem_insert_of_mem (e.owner_eq ▸ mem_of_getElem? hent)⟩
  simp only [closeOffer, hget]
  change (entry.expireOffer pair context.height >>= _) = _
  rw [hex]
  rfl

end

section

lemma le_funds {balances : AccountBalances} (h : s.accounts[k]? = some balances)
    (m : MosaicId) : balances m ≤ s.funds m := by
  have he := sumEntries_erase (f := fun _ (balances : AccountBalances) => balances m) (m := s.accounts) (k := k)
  rw [h] at he
  simp only [elim_some] at he
  rw [funds]
  omega

lemma creditAccount_spec (hht : context.height ≠ 0) (hk : k ∈ s.accounts) (hlt : s.funds m + amount < 2 ^ 64) :
    ∃ accounts, s.creditAccount context k m amount = .ok { s with accounts := accounts } ∧
      (∀ k', k' ∈ accounts ↔ k' ∈ s.accounts) ∧
      ∀ m', State.funds { s with accounts := accounts } m' = s.funds m' + if m' = m then amount else 0 := by
  by_cases hz : amount = 0
  · refine ⟨s.accounts, ?_, fun _ => Iff.rfl, fun m' => ?_⟩
    · rw [creditAccount, if_pos hz]
    · rw [hz, ite_self]
      rfl
  · rw [ExtTreeMap.mem_iff_isSome_getElem?] at hk
    obtain ⟨balances, hb⟩ := isSome_iff_exists.mp hk
    have hfit : balances m + amount < 2 ^ 64 := by
      have hle := le_funds hb m
      omega
    refine ⟨s.accounts.insert k (balances.internalCredit m amount), ?_, fun k' => ?_, fun m' => ?_⟩
    · have hc : s.accounts.credit k m amount context.height =
          .ok (s.accounts.insert k (balances.internalCredit m amount)) :=
        AccountStateCache.credit_eq_ok.mpr ⟨hht, AccountStateCache.modify_eq_ok.mpr ⟨balances, _, hb, rfl, rfl⟩⟩
      rw [creditAccount, if_neg hz, hc]
      rfl
    · exact mem_insert_of_mem (mem_of_getElem? hb)
    · have hi := sumEntries_insert (f := fun _ (balances : AccountBalances) => balances m') (m := s.accounts) (k := k)
        (v := balances.internalCredit m amount)
      rw [hb, AccountBalances.internalCredit_of_lt hfit] at hi
      simp only [elim_some] at hi
      simp only [funds]
      omega

lemma Book.of_accounts {accounts : AccountStateCache} (h : Book s) (hmem : ∀ k, k ∈ accounts ↔ k ∈ s.accounts) :
    Book { s with accounts := accounts } :=
  { h with account := fun k hk => (hmem k).mpr (h.account k hk) }

lemma Book.of_exchanged (h : Book s) (hr : Reciprocal o o') (ho : o.Fair) (ho' : o'.Fair) :
    Book { s with exchanged := s.exchanged ++ [(o, o')] } := by
  refine { h with
    give_eq := fun hu => h.give_eq fun offers hof => hu offers (List.mem_append_left _ hof)
    exchanged := fun offers hof => ?_ }
  obtain hof | hof := List.mem_append.mp hof
  · exact h.exchanged offers hof
  · rw [List.mem_singleton.mp hof]
    exact ⟨hr, ho, ho'⟩

lemma Book.of_heightGrouping {heightGrouping : ExtTreeMap Height (Finset Key)} (h : Book s) :
    Book { s with heightGrouping := heightGrouping } :=
  { h with }

end

end XpxChain.ExchangeSda
