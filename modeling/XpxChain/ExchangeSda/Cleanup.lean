import XpxChain.ExchangeSda.Removal

/-! The cleanup of a block: the offers that end are expired, and the buffers of the height are dropped. -/

namespace XpxChain.ExchangeSda

open Std Accounts Library Exceptions OrderedContainers SdaOfferGroupVector State ExtTreeMap List

variable [Sha3] {context : Context} {s s₁ s' : State} {k : Key} {pair : MosaicsPair} {o : SdaOfferBalance}
  {entry : SdaExchangeEntry} {pairs : List MosaicsPair}

section

structure Expiring (height : Height) (s s₁ : State) (k : Key) : Prop where
  kept : Kept s s₁
  groups : s₁.groups = s.groups
  exchanged : s₁.exchanged = s.exchanged
  owner_eq : ∀ entry : SdaExchangeEntry, s₁.exchange[k]? = some entry → entry.owner = k
  other : ∀ k', k' ≠ k → s₁.exchange[k']? = s.exchange[k']?
  live : ∀ pair o, s₁.live k pair = some o → s.live k pair = some o
  lost : ∀ (entry : SdaExchangeEntry) pair o, s₁.exchange[k]? = some entry → s.live k pair = some o →
    s₁.live k pair = none → (entry.expiredSdaOfferBalances.getD height ∅)[pair]? = some o
  buffered : ∀ pair o, s₁.Buffered k pair o → s.Buffered k pair o ∨ s.live k pair = some o ∧ s₁.live k pair = none

section

variable {new : SdaExchangeEntry} {height : Height} {a : AccountStateCache}
  (hent : s₁.exchange[entry.owner]? = some entry) (x : Expired height entry pair o new)
include hent x

lemma live_of_expired (p : MosaicsPair) : live { s₁.setEntry new with accounts := a } entry.owner p =
    if p = pair then none else s₁.live entry.owner p := by
  change ((s₁.setEntry new).exchange[entry.owner]?.bind fun entry => entry.sdaOfferBalances[p]?) = _
  rw [getElem?_setEntry, x.owner_eq, if_pos rfl, Option.bind_some, x.offers, live, hent]
  rfl

lemma Expiring.expired (e : Expiring height s s₁ entry.owner) (ho : s₁.live entry.owner pair = some o)
    (hkept : Kept s { s₁.setEntry new with accounts := a }) :
    Expiring height s { s₁.setEntry new with accounts := a } entry.owner := by
  have hget : ∀ k', (s₁.setEntry new).exchange[k']? = if k' = entry.owner then some new else s₁.exchange[k']? := by
    intro k'
    rw [getElem?_setEntry, x.owner_eq]
  have hlive := @live_of_expired _ s₁ pair o entry new height a hent x
  refine ⟨hkept, e.groups, e.exchanged, fun entry' h' => ?_, fun k' hk' => ?_, fun p o₁ ho₁ => ?_,
    fun entry' p o₁ h' hold hn => ?_, ?_⟩
  · rw [hget, if_pos rfl] at h'
    cases h'
    exact x.owner_eq
  · rw [hget, if_neg hk', e.other k' hk']
  · rw [hlive] at ho₁
    split_ifs at ho₁
    exact e.live p o₁ ho₁
  · rw [hget, if_pos rfl, Option.some.injEq] at h'
    subst h'
    rw [x.expired]
    split_ifs with hp
    · subst hp
      rw [← hold, ← ho]
      exact (e.live _ _ ho).symm ▸ ho
    · rw [hlive, if_neg hp] at hn
      exact e.lost entry p o₁ hent hold hn
  · rintro p o₁ ⟨entry', h', height', hb⟩
    rw [hget, if_pos rfl, Option.some.injEq] at h'
    subst h'
    obtain hb | ⟨rfl, rfl⟩ := x.buffered hb
    · obtain hbuf | ⟨hold, hn⟩ := e.buffered p o₁ ⟨entry, hent, height', hb⟩
      · exact .inl hbuf
      · refine .inr ⟨hold, ?_⟩
        rw [hlive, hn, ite_self]
    · refine .inr ⟨e.live _ _ ho, ?_⟩
      rw [hlive, if_pos rfl]

end

lemma expireIfDue_spec (hht : context.height ≠ 0) (h : Book s) (hlt : ∀ m, s.total m < 2 ^ 64)
    (e : Expiring context.height s s₁ k) (ho : s₁.live k pair = some o) :
    ∃ s₂, expireIfDue context k s₁ (pair, o) = .ok s₂ ∧ Expiring context.height s s₂ k ∧
      ∀ p ≠ pair, s₂.live k p = s₁.live k p := by
  by_cases hdue : o.deadline = context.height
  swap
  · exact ⟨s₁, if_neg hdue, e, fun _ _ => rfl⟩
  obtain ⟨entry, hget, hent, -, hof⟩ := exists_entry ho
  have how := e.owner_eq entry hent
  have hfr : (entry.expiredSdaOfferBalances.getD context.height ∅)[pair]? = none := by
    rw [Option.eq_none_iff_forall_ne_some]
    intro o₁ ho₁
    obtain hbuf | ⟨-, hn⟩ := e.buffered pair o₁ ⟨entry, hent, _, ho₁⟩
    · exact h.disjoint k pair o o₁ (e.live pair o ho) hbuf
    · rw [hn] at ho
      cases ho
  obtain ⟨new, he, x⟩ := exists_expired hof hfr
  subst how
  have hh := x.held hent hof
  have hfit : (s₁.setEntry new).funds pair.mosaicIdGive + o.currentMosaicGive < 2 ^ 64 := by
    have hm := hh pair.mosaicIdGive
    have ht := hlt pair.mosaicIdGive
    rw [← e.kept.total, total] at ht
    rw [if_pos rfl] at hm
    change s₁.funds pair.mosaicIdGive + _ < _
    omega
  have hk : entry.owner ∈ (s₁.setEntry new).accounts :=
    (e.kept.accounts _).mpr (h.account _ ((e.kept.exchange _).mp (mem_of_getElem? hent)))
  obtain ⟨a, hc, hmem, hfu⟩ := creditAccount_spec hht hk hfit
  have hkept : Kept s { s₁.setEntry new with accounts := a } := by
    refine ⟨fun m => ?_, fun k' => (hmem k').trans (e.kept.accounts k'), fun k' => ?_⟩
    · have hm := hh m
      have hf := hfu m
      simp only [eq_comm (a := m)] at hf
      rw [← e.kept.total, total, total, hf]
      change s₁.funds m + _ + (s₁.setEntry new).held m = _
      omega
    · rw [← e.kept.exchange]
      exact mem_insert_of_mem (x.owner_eq ▸ mem_of_getElem? hent)
  refine ⟨{ s₁.setEntry new with accounts := a }, ?_, e.expired hent x ho hkept, fun p hp => ?_⟩
  · rw [expireIfDue, if_pos hdue]
    exact bind_eq_ok.mpr ⟨entry, hget, bind_eq_ok.mpr ⟨new, he, hc⟩⟩
  · rw [live_of_expired hent x, if_neg hp]

lemma expireOffers_spec (hht : context.height ≠ 0) (h : Book s) (hlt : ∀ m, s.total m < 2 ^ 64)
    (hent : s.exchange[k]? = some entry) :
    ∃ s₁, entry.sdaOfferBalances.toList.foldlM (expireIfDue context k) s = .ok s₁ ∧ Expiring context.height s s₁ k := by
  let I (rest : List (MosaicsPair × SdaOfferBalance)) (s₁ : State) : Prop := Expiring context.height s s₁ k ∧
    (rest.map (·.1)).Nodup ∧ ∀ x ∈ rest, s₁.live k x.1 = some x.2
  have hs : I entry.sdaOfferBalances.toList s := by
    refine ⟨⟨Kept.refl s, rfl, rfl, h.owner_eq k, fun _ _ => rfl, fun _ _ ho => ho, fun _ _ _ _ ho hn =>
      ?_, fun _ _ hb => .inl hb⟩,
      nodup_fst_toList _, fun x hx => live_eq_some.mpr ⟨entry, hent, mem_toList_iff_getElem?_eq_some.mp hx⟩⟩
    rw [ho] at hn
    cases hn
  obtain ⟨s₁, hf, he, -⟩ := foldlM_total I (by
    rintro ⟨p, o⟩ rest s₁ ⟨he₁, hnd₁, hlive₁⟩
    rw [map_cons, nodup_cons] at hnd₁
    obtain ⟨s₂, hex, he₂, hlive₂⟩ := expireIfDue_spec hht h hlt he₁ (hlive₁ (p, o) mem_cons_self)
    refine ⟨s₂, hex, he₂, hnd₁.2, fun x hx => ?_⟩
    rw [hlive₂ x.1 (fun heq => hnd₁.1 (mem_map.mpr ⟨x, hx, heq⟩))]
    exact hlive₁ x (mem_cons_of_mem _ hx)) hs
  exact ⟨s₁, hf, he⟩

end

section

lemma removeExpired_spec (hinj : Function.Injective Sha3.hash) (hv : ValidOffer pair o)
    (hnd : ∀ g, ((s.group g).map (·.owner)).Nodup) :
    ∃ groups, removeExpired k s (pair, o) = .ok { s with groups := groups } ∧
      ∀ g, State.group { s with groups := groups } g = if g = o.groupOf pair then
        (s.group g).filter (fun info => info.owner ≠ k) else s.group g := by
  have hh : calculateGroupHash pair o.initialMosaicGive o.initialMosaicGet = .ok (Sha3.hash (o.groupOf pair)) :=
    calculateGroupHash_eq pair hv.give_pos hv.give_lt hv.get_lt
  cases hgr : s.groups (Sha3.hash (o.groupOf pair)) with
  | none =>
    refine ⟨s.groups, bind_eq_ok.mpr ⟨_, hh, ?_⟩, fun g => ?_⟩
    · simp only [hgr]
    · split_ifs with hg
      · rw [hg, State.group, hgr]
        rfl
      · rfl
  | some group =>
    have heq : s.group (o.groupOf pair) = group := by rw [State.group, hgr]; rfl
    have hf : removeSdaOfferFromGroup k group = group.filter fun info => info.owner ≠ k := by
      apply remove_eq_filter
      rw [← heq]
      exact hnd _
    refine ⟨Function.update s.groups (Sha3.hash (o.groupOf pair))
      (if removeSdaOfferFromGroup k group = [] then none else some (removeSdaOfferFromGroup k group)),
      bind_eq_ok.mpr ⟨_, hh, ?_⟩, fun g => ?_⟩
    · simp only [hgr]
      rfl
    · refine (group_setGroup hinj s (o.groupOf pair) g _).trans ?_
      split_ifs with hg hnil
      · rw [hg, heq, ← hf, hnil]
        rfl
      · rw [hg, heq, ← hf]
        rfl
      · rfl

lemma removeAllExpired_spec (hinj : Function.Injective Sha3.hash) (l : List (MosaicsPair × SdaOfferBalance))
    (hl : ∀ x ∈ l, ValidOffer x.1 x.2) (hnd : ∀ g, ((s.group g).map (·.owner)).Nodup) :
    ∃ groups, l.foldlM (removeExpired k) s = .ok { s with groups := groups } ∧
      (∀ g, (State.group { s with groups := groups } g).Sublist (s.group g)) ∧
      ∀ g, ∀ info ∈ s.group g,
        (info ∈ State.group { s with groups := groups } g ↔ (info.owner = k → ∀ x ∈ l, x.2.groupOf x.1 ≠ g)) := by
  induction l generalizing s with
  | nil =>
    exact ⟨s.groups, rfl, fun _ => List.Sublist.refl _, fun g info hi => iff_of_true hi fun _ _ hx => by cases hx⟩
  | cons x l ih =>
    obtain ⟨groups₁, hr, hgroups₁⟩ := removeExpired_spec hinj (hl x mem_cons_self) hnd
    have hsub₁ : ∀ g, (State.group { s with groups := groups₁ } g).Sublist (s.group g) := by
      intro g
      rw [hgroups₁]
      split_ifs
      · exact filter_sublist
      · exact List.Sublist.refl _
    obtain ⟨groups, hf, hsub, hmem⟩ := ih (s := { s with groups := groups₁ }) (fun y hy => hl y (mem_cons_of_mem _ hy))
      fun g => ((hsub₁ g).map _).nodup (hnd g)
    refine ⟨groups, ?_, fun g => (hsub g).trans (hsub₁ g), fun g info hi => ?_⟩
    · rw [foldlM_cons]
      exact bind_eq_ok.mpr ⟨_, hr, hf⟩
    · rw [forall_mem_cons]
      by_cases hke : info ∈ State.group { s with groups := groups₁ } g
      · rw [hmem g info hke]
        refine forall_congr' fun hk => ⟨fun hall => ⟨?_, hall⟩, And.right⟩
        rintro hg
        rw [hgroups₁, if_pos hg.symm, mem_filter] at hke
        exact of_decide_eq_true hke.2 hk
      · refine iff_of_false (fun hin => hke ((hsub g).subset hin)) fun hall => hke ?_
        rw [hgroups₁]
        split_ifs with hg
        · rw [mem_filter]
          refine ⟨hi, decide_eq_true fun hk => ?_⟩
          exact (hall hk).1 hg.symm
        · exact hi

def State.dropBuffer (s : State) (groups : GroupHash → Option SdaOfferGroupVector) (entry : SdaExchangeEntry)
    (height : Height) : State :=
  State.setEntry { s with groups := groups }
    { entry with expiredSdaOfferBalances := entry.expiredSdaOfferBalances.erase height }

section

variable {height : Height} {groups : GroupHash → Option SdaOfferGroupVector}

lemma Expiring.getElem?_dropBuffer (e : Expiring height s s₁ k) (hent : s₁.exchange[k]? = some entry) (k' : Key) :
    (s₁.dropBuffer groups entry height).exchange[k']? = if k' = k then
      some { entry with expiredSdaOfferBalances := entry.expiredSdaOfferBalances.erase height }
        else s.exchange[k']? := by
  have how := e.owner_eq entry hent
  rw [dropBuffer, getElem?_setEntry, ← how]
  split_ifs with hk
  · rfl
  · rw [← e.other k' (fun heq => hk (by rw [heq, how]))]

lemma Expiring.live_dropBuffer (e : Expiring height s s₁ k) (hent : s₁.exchange[k]? = some entry) (k' : Key)
    (pair : MosaicsPair) :
    (s₁.dropBuffer groups entry height).live k' pair = if k' = k then s₁.live k pair else s.live k' pair := by
  rw [State.live, e.getElem?_dropBuffer hent]
  split_ifs
  · rw [State.live, hent]
    rfl
  · rfl

lemma Expiring.buffered_dropBuffer (h : Book s) (e : Expiring height s s₁ k) (hent : s₁.exchange[k]? = some entry)
    {k' : Key} (hb : (s₁.dropBuffer groups entry height).Buffered k' pair o) :
    s.Buffered k' pair o ∨ k' = k ∧ (s₁.dropBuffer groups entry height).live k' pair = none ∧ ValidOffer pair o := by
  obtain ⟨entry', h', height', hb⟩ := hb
  rw [e.getElem?_dropBuffer hent] at h'
  split_ifs at h' with hk
  · subst hk
    cases h'
    have hold : (entry.expiredSdaOfferBalances.getD height' ∅)[pair]? = some o := by
      rw [getD_erase] at hb
      split_ifs at hb
      · simp at hb
      · exact hb
    obtain hbuf | ⟨hol, hn⟩ := e.buffered pair o ⟨entry, hent, height', hold⟩
    · exact .inl hbuf
    · exact .inr ⟨rfl, by rw [e.live_dropBuffer hent, if_pos rfl, hn], h.valid _ _ _ hol⟩
  · exact .inl ⟨entry', h', height', hb⟩

/-- A listed offer of the owner stays live if and only if no expired offer of the height is of its group. -/
lemma Expiring.live_iff (h : Book s) (e : Expiring height s s₁ k) (hent : s₁.exchange[k]? = some entry) {g : GroupKey}
    (hmem : k ∈ (s.group g).map (·.owner)) :
    (∀ x ∈ (entry.expiredSdaOfferBalances.getD height ∅).toList, x.2.groupOf x.1 ≠ g) ↔
      ∃ o, s₁.live k g.mosaics = some o := by
  constructor
  · intro hall
    obtain ⟨o₁, ho₁, hg⟩ := (h.mem_iff g k).mp hmem
    cases hlo : s₁.live k g.mosaics with
    | none =>
      have hb := e.lost entry g.mosaics o₁ hent ho₁ hlo
      exact absurd hg (hall (g.mosaics, o₁) (mem_toList_iff_getElem?_eq_some.mpr hb))
    | some o₂ => exact ⟨o₂, rfl⟩
  · rintro ⟨o₁, ho₁⟩ x hx hg
    have hp : x.1 = g.mosaics := congrArg GroupKey.mosaics hg
    have hb := mem_toList_iff_getElem?_eq_some.mp hx
    rw [hp] at hb
    obtain hbuf | ⟨-, hn⟩ := e.buffered g.mosaics x.2 ⟨entry, hent, height, hb⟩
    · exact h.disjoint k g.mosaics o₁ x.2 (e.live _ _ ho₁) hbuf
    · rw [hn] at ho₁
      cases ho₁

lemma Expiring.account_dropBuffer (h : Book s) (e : Expiring height s s₁ k) (hent : s₁.exchange[k]? = some entry)
    {k' : Key} (hk' : k' ∈ (s₁.dropBuffer groups entry height).exchange) : k' ∈ s₁.accounts := by
  refine (e.kept.accounts k').mpr (h.account k' ?_)
  rw [mem_iff_isSome_getElem?, e.getElem?_dropBuffer hent] at hk'
  split_ifs at hk' with hk
  · rw [hk]
    exact (e.kept.exchange k).mp (mem_of_getElem? hent)
  · rw [mem_iff_isSome_getElem?]
    exact hk'

lemma pruned_of_expiring (h : Book s) (e : Expiring height s s₁ k) (hent : s₁.exchange[k]? = some entry)
    (hsub : ∀ g, (State.group { s₁ with groups := groups } g).Sublist (s₁.group g))
    (hmem : ∀ g, ∀ info ∈ s₁.group g, (info ∈ State.group { s₁ with groups := groups } g ↔
      (info.owner = k → ∀ x ∈ (entry.expiredSdaOfferBalances.getD height ∅).toList, x.2.groupOf x.1 ≠ g))) :
    Pruned s (s₁.dropBuffer groups entry height) k := by
  have hgr₁ : ∀ g, s₁.group g = s.group g := fun g => by rw [group, group, e.groups]
  refine ⟨fun k' pair o₁ ho₁ => ?_, fun k' pair o₁ ho₁ hk => ?_, fun g => ?_, fun g info hi => ?_,
    fun k' pair o₁ => e.buffered_dropBuffer h hent, fun k' entry' h' => ?_, fun k' =>
      e.account_dropBuffer h hent, e.exchanged⟩
  · rw [e.live_dropBuffer hent] at ho₁
    split_ifs at ho₁ with hk
    · rw [hk]
      exact e.live pair o₁ ho₁
    · exact ho₁
  · rw [e.live_dropBuffer hent, if_neg hk, ho₁]
  · rw [← hgr₁]
    exact hsub g
  · refine (hmem g info (by rw [hgr₁]; exact hi)).trans (forall_congr' fun hk => ?_)
    rw [e.live_dropBuffer hent, if_pos rfl]
    exact e.live_iff h hent (mem_map.mpr ⟨info, hi, hk⟩)
  · rw [e.getElem?_dropBuffer hent] at h'
    split_ifs at h' with hk
    · cases h'
      rw [hk]
      exact e.owner_eq entry hent
    · exact h.owner_eq k' entry' h'

end

lemma cleanupOwner_spec (hht : context.height ≠ 0) (h : Book s) (hlt : ∀ m, s.total m < 2 ^ 64) (k : Key) :
    ∃ s', cleanupOwner context s k = .ok s' ∧ Book s' ∧ (∀ m, s'.total m = s.total m) ∧
      ∀ k', k' ∈ s'.accounts ↔ k' ∈ s.accounts := by
  rw [cleanupOwner]
  cases hold : s.exchange[k]? with
  | none => exact ⟨s, rfl, h, fun _ => rfl, fun _ => Iff.rfl⟩
  | some old =>
    obtain ⟨s₁, hex, e⟩ := expireOffers_spec hht h hlt hold
    obtain ⟨entry, hget⟩ := exists_getEntry ((e.kept.exchange k).mpr (mem_of_getElem? hold))
    have hent := getEntry_eq_ok.mp hget
    have hval : ∀ x ∈ (entry.expiredSdaOfferBalances.getD context.height ∅).toList, ValidOffer x.1 x.2 := by
      intro x hx
      obtain hbuf | ⟨hl, -⟩ := e.buffered x.1 x.2 ⟨entry, hent, _, mem_toList_iff_getElem?_eq_some.mp hx⟩
      · exact h.buffered _ _ _ hbuf
      · exact h.valid _ _ _ hl
    have hnd₁ : ∀ g, ((s₁.group g).map (·.owner)).Nodup := by
      intro g
      rw [group, e.groups]
      exact h.nodup g
    obtain ⟨groups, hfo, hsub, hmem⟩ := removeAllExpired_spec h.hash_injective _ hval hnd₁
    have h₂ := h.prune (pruned_of_expiring h e hent hsub hmem)
    generalize hnew : ({ entry with expiredSdaOfferBalances := entry.expiredSdaOfferBalances.erase context.height } :
      SdaExchangeEntry) = new
    have hn : new.owner = k := by rw [← hnew]; exact e.owner_eq entry hent
    rw [dropBuffer, hnew] at h₂
    generalize hs₂ : setEntry { s₁ with groups := groups } new = s₂ at h₂
    have htotal₂ : ∀ m, s₂.total m = s.total m := by
      intro m
      have hent' : s₁.exchange[new.owner]? = some entry := by rw [hn, hent]
      have hset := held_setEntry (s := { s₁ with groups := groups }) hent' m
      have hsa : new.held m = entry.held m := by rw [← hnew]; rfl
      rw [hs₂] at hset
      have hf : s₂.funds m = s₁.funds m := by rw [← hs₂]; rfl
      change _ = s₁.held m + _ at hset
      rw [← e.kept.total, total, total]
      omega
    obtain ⟨heightGrouping, hr⟩ : ∃ heightGrouping, s₂.removeExpiryHeight k context.height =
        { s₂ with heightGrouping := heightGrouping } := by
      rw [removeExpiryHeight, if_neg hht]
      exact ⟨_, rfl⟩
    have h₃ : Book (s₂.removeExpiryHeight k context.height) := by
      rw [hr]
      exact h₂.of_heightGrouping
    have hent₃ : (s₂.removeExpiryHeight k context.height).exchange[k]? = some new := by
      rw [hr]
      rw [← hs₂, getElem?_setEntry, if_pos hn.symm]
    generalize hs₄ : (if new.empty then { s₂.removeExpiryHeight k context.height with
      exchange := (s₂.removeExpiryHeight k context.height).exchange.erase k }
        else s₂.removeExpiryHeight k context.height) = s₄
    obtain ⟨h₄, htotal₄, haccs₄⟩ := eraseIfEmpty_spec h₃ hent₃ hs₄
    obtain ⟨heightGrouping', he⟩ := updateExpiry_eq s₄ new
    refine ⟨s₄.updateExpiry new, ?_, ?_, fun m => ?_, fun k' => ?_⟩
    · refine bind_eq_ok.mpr ⟨s₁, hex, bind_eq_ok.mpr ⟨entry, hget, bind_eq_ok.mpr ⟨_, hfo, ?_⟩⟩⟩
      rw [← hs₄, ← hs₂, ← hnew]
      rfl
    · rw [he]
      exact h₄.of_heightGrouping
    · rw [he, ← htotal₂]
      change s₄.total m = _
      rw [htotal₄, hr]
      rfl
    · rw [he, ← e.kept.accounts]
      rw [haccs₄, hr, ← hs₂]
      rfl

theorem cleanupObserver_spec (hht : context.height ≠ 0) (h : Book s) (hlt : ∀ m, s.total m < 2 ^ 64) :
    ∃ s', cleanupObserver context s = .ok s' ∧ Book s' ∧ (∀ m, s'.total m = s.total m) ∧
      ∀ k', k' ∈ s'.accounts ↔ k' ∈ s.accounts := by
  let I (_ : List Key) (s₁ : State) : Prop :=
    Book s₁ ∧ (∀ m, s₁.total m = s.total m) ∧ ∀ k', k' ∈ s₁.accounts ↔ k' ∈ s.accounts
  have hs : I (ascending (s.expiringOfferOwners context.height)) s := ⟨h, fun _ => rfl, fun _ => Iff.rfl⟩
  exact foldlM_total I (by
    rintro owner rest s₁ ⟨h₁, htotal₁, haccs₁⟩
    obtain ⟨s₂, hc, h₂, htotal₂, haccs₂⟩ := cleanupOwner_spec hht h₁ (fun m => by rw [htotal₁]; exact hlt m) owner
    exact ⟨s₂, hc, h₂, fun m => (htotal₂ m).trans (htotal₁ m), fun k' => (haccs₂ k').trans (haccs₁ k')⟩) hs

end

end XpxChain.ExchangeSda
