import XpxChain.ExchangeSda.Effects

/-! The exchange of the signer's offers with the offers at the reciprocal prices. -/

namespace XpxChain.ExchangeSda

open Std Accounts Library Exceptions OrderedContainers SdaOfferGroupVector State

variable {pair : MosaicsPair} {o o' : SdaOfferBalance}

def rest (o o' : SdaOfferBalance) : SdaOfferBalance := { o with
  currentMosaicGive := o.currentMosaicGive - min o.currentMosaicGive o'.currentMosaicGet
  currentMosaicGet := o.currentMosaicGet - min o.currentMosaicGet o'.currentMosaicGive }

def existingRest (o o' : SdaOfferBalance) : SdaOfferBalance := { o' with
  currentMosaicGive := o'.currentMosaicGive - min o.currentMosaicGet o'.currentMosaicGive
  currentMosaicGet := o'.currentMosaicGet - min o.currentMosaicGive o'.currentMosaicGet }

lemma rest_fair {pair' : MosaicsPair} (h : ValidOffer pair o) (h' : ValidOffer pair' o') (hr : Reciprocal o o') :
    (rest o o').Fair ∧ (existingRest o o').Fair :=
  exchange_fair h.get_pos h'.give_pos h.fair h'.fair hr

lemma ValidOffer.of_fair {o₁ : SdaOfferBalance} (h : ValidOffer pair o)
    (hg : o₁.initialMosaicGive = o.initialMosaicGive) (hget : o₁.initialMosaicGet = o.initialMosaicGet)
    (hf : o₁.Fair) : ValidOffer pair o₁ :=
  ⟨h.mosaics_ne, by rw [hg]; exact h.give_pos, by rw [hget]; exact h.get_pos, by rw [hg]; exact h.give_lt,
    by rw [hget]; exact h.get_lt, hf⟩

lemma give_eq_get (h : ValidOffer pair o) (hu : o.initialMosaicGive = o.initialMosaicGet ∨ o.usedUp) :
    o.currentMosaicGive = o.currentMosaicGet := by
  have hf := h.fair
  obtain hu | hu := hu
  · rw [SdaOfferBalance.Fair, hu] at hf
    exact Nat.eq_of_mul_eq_mul_right h.get_pos hf
  · obtain ⟨hg, hget⟩ := of_decide_eq_true hu
    rw [hg, hget]

lemma reciprocal_of_group (hv : ValidOffer pair o) {pair' : MosaicsPair} (hv' : ValidOffer pair' o')
    (hg : o'.groupOf pair' = groupOf pair' o.initialMosaicGet o.initialMosaicGive) : Reciprocal o o' := by
  have hc := ((groupOf_eq_iff hv'.give_pos hv.get_pos).mp hg).2
  rw [Reciprocal, Nat.mul_comm, hc, Nat.mul_comm]

variable [Sha3] {context : Context} {s s' : State} {signer k : Key} {info : SdaOfferBasicInfo}

lemma updateExpiry_eq (s : State) (entry : SdaExchangeEntry) :
    ∃ heightGrouping, s.updateExpiry entry = { s with heightGrouping := heightGrouping } := by
  unfold updateExpiry addExpiryHeight
  split_ifs <;> exact ⟨_, rfl⟩

lemma closeIfUsedUp_spec (context : Context) (h : Book s) (ho : s.live k pair = some o) :
    ∃ s', closeIfUsedUp context k pair (Sha3.hash (o.groupOf pair)) o s = .ok s' ∧
      Book s' ∧ (∀ k' pair', ¬(k' = k ∧ pair' = pair) → s'.live k' pair' = s.live k' pair') ∧
      (o.usedUp = false → s'.live k pair = some o) ∧ Kept s s' := by
  rw [closeIfUsedUp]
  by_cases hu : o.usedUp
  · obtain ⟨s', hc, hb, hl, hh, ha, hmem⟩ := closeOffer_spec context h ho
    have hz := of_decide_eq_true hu
    rw [if_pos hu]
    refine ⟨s', hc, hb, fun k' pair' hne => by rw [hl, if_neg hne], fun hnot => ?_, fun m => ?_,
      fun _ => by rw [ha], hmem⟩
    · rw [hu] at hnot
      cases hnot
    · have hm := hh m
      rw [hz.1, ite_self] at hm
      rw [total, total, funds, funds, ha]
      omega
  · rw [if_neg hu]
    exact ⟨s, rfl, h, fun _ _ _ => rfl, fun _ => ho, Kept.refl s⟩

def written (pair : MosaicsPair) (entry existing : SdaExchangeEntry) (o o' : SdaOfferBalance) (s : State) : State :=
  changeOffer entry pair (rest o o') (Sha3.hash (o.groupOf pair)) (rest o o').currentMosaicGive
    (changeOffer existing pair.swap (existingRest o o') (Sha3.hash (o'.groupOf pair.swap))
      (existingRest o o').currentMosaicGet
      { s with exchanged := s.exchanged ++ [(existingRest o o', rest o o')] })

lemma exists_getEntry (h : k ∈ s.exchange) : ∃ entry, s.getEntry k = .ok entry := by
  rw [ExtTreeMap.mem_iff_isSome_getElem?] at h
  obtain ⟨entry, hent⟩ := Option.isSome_iff_exists.mp h
  exact ⟨entry, getEntry_eq_ok.mpr hent⟩

lemma mem_changeOffer {entry : SdaExchangeEntry} {g : GroupHash} {amount : ℕ} (hk : entry.owner ∈ s.exchange) :
    k ∈ (changeOffer entry pair o g amount s).exchange ↔ k ∈ s.exchange :=
  mem_insert_of_mem hk

lemma written_spec {existingOwner : Key} {entry existing : SdaExchangeEntry} (h : Book s) (hk : existingOwner ≠ signer)
    (ho : s.live signer pair = some o) (ho' : s.live existingOwner pair.swap = some o') (hr : Reciprocal o o')
    (hent : s.exchange[signer]? = some entry) (he : s.exchange[existingOwner]? = some existing) :
    Book (written pair entry existing o o' s) ∧
      (∀ k p, (written pair entry existing o o' s).live k p = if k = signer ∧ p = pair then some (rest o o')
        else if k = existingOwner ∧ p = pair.swap then some (existingRest o o') else s.live k p) ∧
      (∀ m, (written pair entry existing o o' s).held m +
        (if pair.mosaicIdGive = m then min o.currentMosaicGive o'.currentMosaicGet else 0) +
        (if pair.mosaicIdGet = m then min o.currentMosaicGet o'.currentMosaicGive else 0) = s.held m) ∧
      ∀ k, k ∈ (written pair entry existing o o' s).exchange ↔ k ∈ s.exchange := by
  have hv := h.valid _ _ _ ho
  have hv' := h.valid _ _ _ ho'
  obtain ⟨hf, hf'⟩ := rest_fair hv hv' hr
  have hvr : ValidOffer pair (rest o o') := hv.of_fair rfl rfl hf
  have hvr' : ValidOffer pair.swap (existingRest o o') := hv'.of_fair rfl rfl hf'
  have h₀ : Book { s with exchanged := s.exchanged ++ [(existingRest o o', rest o o')] } := by
    apply h.of_exchanged _ hf' hf
    change o'.initialMosaicGive * o.initialMosaicGive = o'.initialMosaicGet * o.initialMosaicGet
    rw [Nat.mul_comm, hr, Nat.mul_comm]
  obtain ⟨h₁, hlive₁, hheld₁, hkept₁⟩ :=
    changeOffer_spec (existingRest o o') (existingRest o o').currentMosaicGet h₀ ho'
    he hvr' rfl rfl fun hu => (give_eq_get hvr' (hu _ (List.mem_append_right _ (List.mem_singleton_self _)))).symm
  have ho₁ : live (changeOffer existing pair.swap (existingRest o o') (Sha3.hash (o'.groupOf pair.swap))
      (existingRest o o').currentMosaicGet { s with exchanged := s.exchanged ++ [(existingRest o o', rest o o')] })
        signer pair =
        some o := by
    rw [hlive₁, if_neg (fun heq => hk heq.1.symm)]
    exact ho
  obtain ⟨h₂, hlive₂, hheld₂, -⟩ := changeOffer_spec (rest o o') (rest o o').currentMosaicGive h₁ ho₁
    (hkept₁ signer entry hk.symm hent) hvr rfl rfl fun _ => rfl
  refine ⟨h₂, fun k p => ?_, fun m => ?_, fun k => ?_⟩
  · rw [written, hlive₂, hlive₁]
    rfl
  · have hm₁ := hheld₁ m
    have hm₂ := hheld₂ m
    change _ + (if pair.mosaicIdGet = m then o'.currentMosaicGive else 0) = s.held m +
      (if pair.mosaicIdGet = m then o'.currentMosaicGive - min o.currentMosaicGet o'.currentMosaicGive else 0) at hm₁
    change _ + (if pair.mosaicIdGive = m then o.currentMosaicGive else 0) = _ +
      (if pair.mosaicIdGive = m then o.currentMosaicGive - min o.currentMosaicGive o'.currentMosaicGet else 0) at hm₂
    rw [written]
    split_ifs at hm₁ hm₂ ⊢ <;> omega
  · rw [written, mem_changeOffer, mem_changeOffer]
    · rw [h.owner_eq _ _ he]
      exact mem_of_getElem? he
    · rw [mem_changeOffer]
      · rw [h.owner_eq _ _ hent]
        exact mem_of_getElem? hent
      · rw [h.owner_eq _ _ he]
        exact mem_of_getElem? he

/-- Both parties are paid out of what the offers hold; the credits fit since the total does. -/
lemma written_credited {existingOwner : Key} {entry existing : SdaExchangeEntry} (hht : context.height ≠ 0) (h : Book s)
    (hk : existingOwner ≠ signer) (ho : s.live signer pair = some o) (ho' : s.live existingOwner pair.swap = some o')
    (hr : Reciprocal o o') (hent : s.exchange[signer]? = some entry) (he : s.exchange[existingOwner]? = some existing)
    (hlt : ∀ m, s.total m < 2 ^ 64) :
    ∃ s₂ s₃, (written pair entry existing o o' s).creditAccount context existingOwner pair.mosaicIdGive
        (min o.currentMosaicGive o'.currentMosaicGet) = .ok s₂ ∧
      s₂.creditAccount context signer pair.mosaicIdGet (min o.currentMosaicGet o'.currentMosaicGive) = .ok s₃ ∧
      Book s₃ ∧ Kept s s₃ ∧ ∀ k p, s₃.live k p = if k = signer ∧ p = pair then some (rest o o')
        else if k = existingOwner ∧ p = pair.swap then some (existingRest o o') else s.live k p := by
  obtain ⟨h₁, hlive₁, hheld₁, hmem₁⟩ := written_spec h hk ho ho' hr hent he
  have hfunds₁ : ∀ m, (written pair entry existing o o' s).funds m = s.funds m := fun _ => rfl
  have haccs₁ : (written pair entry existing o o' s).accounts = s.accounts := rfl
  generalize written pair entry existing o o' s = s₁ at h₁ hlive₁ hheld₁ hmem₁ hfunds₁ haccs₁
  have hfit : s₁.funds pair.mosaicIdGive + min o.currentMosaicGive o'.currentMosaicGet < 2 ^ 64 := by
    have hm := hheld₁ pair.mosaicIdGive
    have ht := hlt pair.mosaicIdGive
    rw [if_pos rfl] at hm
    rw [total] at ht
    rw [hfunds₁]
    omega
  obtain ⟨a₂, hcred₂, hmem₂, hfunds₂⟩ := creditAccount_spec hht
    (by rw [haccs₁]; exact h.account _ (mem_of_getElem? he)) hfit
  have hfit' : funds { s₁ with accounts := a₂ } pair.mosaicIdGet + min o.currentMosaicGet o'.currentMosaicGive <
      2 ^ 64 := by
    have hm := hheld₁ pair.mosaicIdGet
    have ht := hlt pair.mosaicIdGet
    rw [if_pos rfl] at hm
    rw [total] at ht
    rw [hfunds₂, hfunds₁, if_neg (h.valid _ _ _ ho).mosaics_ne.symm]
    omega
  obtain ⟨a₃, hcred₃, hmem₃, hfunds₃⟩ := creditAccount_spec hht
    ((hmem₂ signer).mpr (by rw [haccs₁]; exact h.account _ (mem_of_getElem? hent))) hfit'
  refine ⟨_, _, hcred₂, hcred₃, (h₁.of_accounts hmem₂).of_accounts hmem₃, ⟨fun m => ?_, fun k => ?_, hmem₁⟩, hlive₁⟩
  · have hm := hheld₁ m
    have hf := hfunds₃ m
    rw [hfunds₂, hfunds₁] at hf
    rw [total, total]
    change funds { s₁ with accounts := a₃ } m + s₁.held m = _
    simp only [eq_comm (a := m)] at hf
    split_ifs at hf hm <;> omega
  · rw [← haccs₁]
    exact (hmem₃ k).trans (hmem₂ k)

theorem exchangeWith_spec (hht : context.height ≠ 0) (h : Book s) (hk : info.owner ≠ signer)
    (ho : s.live signer pair = some o) (ho' : s.live info.owner pair.swap = some o') (hr : Reciprocal o o')
    (hlt : ∀ m, s.total m < 2 ^ 64) :
    ∃ s' usedUp, exchangeWith context signer pair (Sha3.hash (o.groupOf pair)) (Sha3.hash (o'.groupOf pair.swap)) s
      info = .ok (s', usedUp) ∧
      Book s' ∧ Kept s s' ∧ (∀ k p, ¬(k = signer ∧ p = pair) → ¬(k = info.owner ∧ p = pair.swap) →
        s'.live k p = s.live k p) ∧
      (usedUp = false → s'.live signer pair = some (rest o o')) := by
  obtain ⟨entry, hget, hent, hof, -⟩ := exists_entry ho
  obtain ⟨existing, hget', he, hof', -⟩ := exists_entry ho'
  obtain ⟨s₂, s₃, hcred₂, hcred₃, h₃, hke₃, hlive₃⟩ := written_credited hht h hk ho ho' hr hent he hlt
  -- the offers that are used up are closed
  have hlive₃' : s₃.live info.owner pair.swap = some (existingRest o o') := by
    rw [hlive₃, if_neg (fun heq => hk heq.1), if_pos ⟨rfl, rfl⟩]
  obtain ⟨s₄, hclose₄, h₄, hlive₄, -, hke₄⟩ := closeIfUsedUp_spec context h₃ hlive₃'
  have hlive₄' : s₄.live signer pair = some (rest o o') := by
    rw [hlive₄ _ _ (fun heq => hk heq.1.symm), hlive₃, if_pos ⟨rfl, rfl⟩]
  obtain ⟨s₅, hclose₅, h₅, hlive₅, hopen₅, hke₅⟩ := closeIfUsedUp_spec context h₄ hlive₄'
  have hke : Kept s s₅ := (hke₃.trans hke₄).trans hke₅
  obtain ⟨last, hl⟩ := exists_getEntry ((hke.exchange info.owner).mpr (mem_of_getElem? he))
  obtain ⟨heightGrouping, hex⟩ := updateExpiry_eq s₅ last
  refine ⟨s₅.updateExpiry last, (rest o o').usedUp, ?_, ?_, ?_, ?_, ?_⟩
  · rw [exchangeWith, if_neg hk]
    exact bind_eq_ok.mpr ⟨existing, hget',
      bind_eq_ok.mpr ⟨entry, hget, bind_eq_ok.mpr ⟨o, hof, bind_eq_ok.mpr ⟨o', hof',
      bind_eq_ok.mpr ⟨s₂, hcred₂, bind_eq_ok.mpr ⟨s₃, hcred₃, bind_eq_ok.mpr ⟨s₄, hclose₄, bind_eq_ok.mpr ⟨s₅, hclose₅,
        bind_eq_ok.mpr ⟨last, hl, rfl⟩⟩⟩⟩⟩⟩⟩⟩⟩
  · rw [hex]
    exact h₅.of_heightGrouping
  · rw [hex]
    exact { hke with }
  · intro k p hsi hoth
    rw [hex]
    change s₅.live k p = _
    rw [hlive₅ _ _ hsi, hlive₄ _ _ hoth, hlive₃, if_neg hsi, if_neg hoth]
  · intro hu
    rw [hex]
    exact hopen₅ hu

theorem exchangeWithAll_spec (hht : context.height ≠ 0) (infos : List SdaOfferBasicInfo) (h : Book s)
    (hlt : ∀ m, s.total m < 2 ^ 64) (ho : s.live signer pair = some o) (hnd : (infos.map (·.owner)).Nodup)
    (hi : ∀ info ∈ infos, info.owner ≠ signer →
      ∃ o', s.live info.owner pair.swap = some o' ∧
      o'.groupOf pair.swap = groupOf pair.swap o.initialMosaicGet o.initialMosaicGive) :
    ∃ s', exchangeWithAll context signer pair (Sha3.hash (o.groupOf pair))
      (Sha3.hash (groupOf pair.swap o.initialMosaicGet o.initialMosaicGive)) infos s =
        .ok s' ∧ Book s' ∧ Kept s s' ∧ ∀ p ≠ pair, s'.live signer p = s.live signer p := by
  induction infos generalizing s o with
  | nil => exact ⟨s, rfl, h, Kept.refl s, fun _ _ => rfl⟩
  | cons info infos ih =>
    rw [List.map_cons, List.nodup_cons] at hnd
    by_cases hk : info.owner = signer
    · obtain ⟨s', hall, hre⟩ := ih h hlt ho hnd.2 fun other hoth => hi other (List.mem_cons_of_mem _ hoth)
      refine ⟨s', ?_, hre⟩
      rw [exchangeWithAll, exchangeWith, if_pos hk]
      exact hall
    · obtain ⟨o', ho', hg⟩ := hi info List.mem_cons_self hk
      have hr := reciprocal_of_group (h.valid _ _ _ ho) (h.valid _ _ _ ho') hg
      obtain ⟨s₁, usedUp, hw, h₁, hke₁, hoth₁, hl₁⟩ := exchangeWith_spec hht h hk ho ho' hr hlt
      rw [hg] at hw
      have hsigner₁ : ∀ p ≠ pair, s₁.live signer p = s.live signer p :=
        fun p hp => hoth₁ signer p (fun heq => hp heq.2) (fun heq => hk heq.1.symm)
      cases hu : usedUp with
      | true =>
        subst hu
        exact ⟨s₁, bind_eq_ok.mpr ⟨_, hw, rfl⟩, h₁, hke₁, hsigner₁⟩
      | false =>
        subst hu
        -- the offers of the other owners are as they were
        have hi₁ : ∀ other ∈ infos, other.owner ≠ signer → ∃ o', s₁.live other.owner pair.swap = some o' ∧
            o'.groupOf pair.swap = groupOf pair.swap (rest o o').initialMosaicGet (rest o o').initialMosaicGive := by
          intro other hmem hne
          obtain ⟨o₂, ho₂, hg₂⟩ := hi other (List.mem_cons_of_mem _ hmem) hne
          refine ⟨o₂, ?_, hg₂⟩
          rw [hoth₁ _ _ (fun heq => hne heq.1), ho₂]
          rintro ⟨heq, -⟩
          exact hnd.1 (List.mem_map.mpr ⟨other, hmem, heq⟩)
        obtain ⟨s', hall, h', hke', hl'⟩ := ih h₁ (fun m => by rw [hke₁.total]; exact hlt m) (hl₁ rfl) hnd.2 hi₁
        exact ⟨s', bind_eq_ok.mpr ⟨_, hw, hall⟩, h', hke₁.trans hke', fun p hp => (hl' p hp).trans (hsigner₁ p hp)⟩

lemma Book.of_perm (h : Book s) {g : GroupKey} {group : SdaOfferGroupVector} (hp : group.Perm (s.group g)) :
    Book (s.setGroup (Sha3.hash g) (some group)) := by
  have hgr : ∀ g', ((s.setGroup (Sha3.hash g) (some group)).group g').Perm (s.group g') := by
    intro g'
    rw [group_setGroup h.hash_injective]
    split_ifs with hg
    · rw [hg]
      exact hp
    · exact List.Perm.refl _
  refine ⟨h.hash_injective, h.owner_eq, h.account, h.valid, h.buffered, h.disjoint, fun g' => ?_, fun g' k => ?_,
    fun g' info hi => ?_, fun hu g' info hi => ?_, h.exchanged⟩
  · exact ((hgr g').map _).nodup_iff.mpr (h.nodup g')
  · exact ((hgr g').map _).mem_iff.trans (h.mem_iff g' k)
  · exact h.deadline_eq g' info ((hgr g').mem_iff.mp hi)
  · exact h.give_eq hu g' info ((hgr g').mem_iff.mp hi)

lemma Book.groups_ne_none (h : Book s) (ho : s.live k pair = some o) :
    s.groups (Sha3.hash (o.groupOf pair)) ≠ none := by
  intro hn
  have hmem := (h.mem_iff (o.groupOf pair) k).mpr ⟨o, ho, rfl⟩
  rw [group, hn] at hmem
  cases hmem

omit [Sha3] in
lemma arrange_perm (context : Context) (amount : ℕ) (group : SdaOfferGroupVector) :
    (context.arrange amount group).Perm group := by
  rw [Context.arrange]
  cases context.offerSortPolicy with
  | default => exact List.Perm.refl _
  | smallToBig | smallToBigSortedByEarliestExpiry | bigToSmall | bigToSmallSortedByEarliestExpiry | exactOrClosest =>
    exact context.sort_perm _ _

theorem exchangeOffer_spec (hht : context.height ≠ 0)
    (h : Book s) (hlt : ∀ m, s.total m < 2 ^ 64) (ho : s.live signer pair = some o) :
    ∃ s', exchangeOffer context signer s (pair, o) = .ok s' ∧ Book s' ∧ Kept s s' ∧
      ∀ p ≠ pair, s'.live signer p = s.live signer p := by
  have hv := h.valid _ _ _ ho
  have hh : calculateGroupHash pair o.initialMosaicGive o.initialMosaicGet = .ok (Sha3.hash (o.groupOf pair)) :=
    calculateGroupHash_eq pair hv.give_pos hv.give_lt hv.get_lt
  have hh' := calculateGroupHash_eq pair.swap hv.get_pos hv.get_lt hv.give_lt
  generalize hgr' : groupOf pair.swap o.initialMosaicGet o.initialMosaicGive = existing at hh'
  have hs : exchangeOffer context signer s (pair, o) =
      (s.groups (Sha3.hash existing)).elim (.ok s) fun offers =>
        exchangeWithAll context signer pair (Sha3.hash (o.groupOf pair)) (Sha3.hash existing)
          (context.arrange o.currentMosaicGet offers)
          (s.setGroup (Sha3.hash existing) (context.arrange o.currentMosaicGet offers)) := by
    simp only [exchangeOffer, hh]
    refine Eq.trans (if_neg (h.groups_ne_none ho)) ?_
    simp only [hh']
    cases hgr : s.groups (Sha3.hash existing) <;> simp [bind, Except.bind, hgr]
  rw [hs]
  cases he : s.groups (Sha3.hash existing) with
  | none => exact ⟨s, rfl, h, Kept.refl s, fun _ _ => rfl⟩
  | some offers =>
    have hg : s.group existing = offers := by
      rw [group, he]
      rfl
    have hp := arrange_perm context o.currentMosaicGet offers
    rw [← hg] at hp
    rw [← hg]
    have hnd := (hp.map (·.owner)).nodup_iff.mpr (h.nodup _)
    subst hgr'
    obtain ⟨s', hall, h', hk, hl⟩ := exchangeWithAll_spec hht _ (h.of_perm hp) hlt ho hnd fun info hi _ =>
      (h.mem_iff _ info.owner).mp (List.mem_map.mpr ⟨info, hp.mem_iff.mp hi, rfl⟩)
    exact ⟨s', hall, h', { hk with }, hl⟩

end XpxChain.ExchangeSda
