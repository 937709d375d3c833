import XpxChain.ExchangeSda.Prices

/-! The order book: the groups list the live offers, and no pair of an owner is both live and expired. -/

namespace XpxChain.ExchangeSda

open Std Accounts SdaOfferGroupVector Library OrderedContainers List

variable [Sha3]

lemma calculateGroupHash_eq (pair : MosaicsPair) {give get : ℕ} (hpos : 0 < give) (hg : give < 2 ^ 31)
    (hget : get < 2 ^ 31) :
    calculateGroupHash pair give get = .ok (Sha3.hash (groupOf pair give get)) := by
  have hgcd : 0 < give.gcd get := Nat.gcd_pos_of_pos_left _ hpos
  rw [calculateGroupHash, reducedFraction, toInt_of_lt hg, toInt_of_lt hget, denominator_natCast, if_neg (by omega)]
  rfl

namespace State

variable (s : State)

def live (k : Key) (pair : MosaicsPair) : Option SdaOfferBalance :=
  s.exchange[k]?.bind fun entry => entry.sdaOfferBalances[pair]?

def Buffered (k : Key) (pair : MosaicsPair) (o : SdaOfferBalance) : Prop :=
  ∃ entry, s.exchange[k]? = some entry ∧ ∃ height, (entry.expiredSdaOfferBalances.getD height ∅)[pair]? = some o

def group (g : GroupKey) : SdaOfferGroupVector := (s.groups (Sha3.hash g)).getD []

/-- No offer that was there before an exchange is left partly filled, unless its price is one. -/
def Whole : Prop :=
  ∀ offers ∈ s.exchanged, offers.1.initialMosaicGive = offers.1.initialMosaicGet ∨ offers.1.usedUp

end State

def SdaOfferBalance.groupOf (pair : MosaicsPair) (o : SdaOfferBalance) : GroupKey :=
  ExchangeSda.groupOf pair o.initialMosaicGive o.initialMosaicGet

lemma group_setGroup (hinj : Function.Injective Sha3.hash) (s : State) (g g' : GroupKey)
    (group : Option SdaOfferGroupVector) :
    (s.setGroup (Sha3.hash g) group).group g' = if g' = g then group.getD [] else s.group g' := by
  change (Function.update s.groups (Sha3.hash g) group (Sha3.hash g')).getD [] = _
  by_cases hg : g' = g
  · rw [hg, Function.update_self, if_pos rfl]
  · rw [Function.update_of_ne (hinj.ne hg), if_neg hg, State.group]

def SdaOfferBalance.Fair (o : SdaOfferBalance) : Prop :=
  o.currentMosaicGive * o.initialMosaicGet = o.currentMosaicGet * o.initialMosaicGive

def Reciprocal (o o' : SdaOfferBalance) : Prop :=
  o.initialMosaicGive * o'.initialMosaicGive = o.initialMosaicGet * o'.initialMosaicGet

structure ValidOffer (pair : MosaicsPair) (o : SdaOfferBalance) : Prop where
  mosaics_ne : pair.mosaicIdGive ≠ pair.mosaicIdGet
  give_pos : 0 < o.initialMosaicGive
  get_pos : 0 < o.initialMosaicGet
  give_lt : o.initialMosaicGive < 2 ^ 31
  get_lt : o.initialMosaicGet < 2 ^ 31
  fair : o.Fair

structure Book (s : State) : Prop where
  hash_injective : Function.Injective Sha3.hash
  owner_eq : ∀ (k : Key) (entry : SdaExchangeEntry), s.exchange[k]? = some entry → entry.owner = k
  account : ∀ k ∈ s.exchange, k ∈ s.accounts
  valid : ∀ k pair o, s.live k pair = some o → ValidOffer pair o
  buffered : ∀ k pair o, s.Buffered k pair o → ValidOffer pair o
  disjoint : ∀ k pair o o', s.live k pair = some o → ¬s.Buffered k pair o'
  nodup : ∀ g, ((s.group g).map (·.owner)).Nodup
  mem_iff : ∀ g k, k ∈ (s.group g).map (·.owner) ↔ ∃ o, s.live k g.mosaics = some o ∧ o.groupOf g.mosaics = g
  deadline_eq : ∀ g, ∀ info ∈ s.group g, ∀ o, s.live info.owner g.mosaics = some o → info.deadline = o.deadline
  give_eq : s.Whole → ∀ g, ∀ info ∈ s.group g, ∀ o, s.live info.owner g.mosaics = some o →
    info.mosaicGive = o.currentMosaicGive
  exchanged : ∀ offers ∈ s.exchanged, Reciprocal offers.1 offers.2 ∧ offers.1.Fair ∧ offers.2.Fair

structure Effect (s s' : State) (k : Key) (pair : MosaicsPair) (v : Option SdaOfferBalance) (g : GroupKey)
    (change : SdaOfferGroupVector → SdaOfferGroupVector) : Prop where
  live_eq : ∀ k' pair', s'.live k' pair' = if k' = k ∧ pair' = pair then v else s.live k' pair'
  buffered : ∀ k' pair' o, s'.Buffered k' pair' o → s.Buffered k' pair' o ∨ k' = k ∧ pair' = pair ∧ v = none ∧
    ValidOffer pair' o
  group_eq : ∀ g', s'.group g' = if g' = g then change (s.group g') else s.group g'
  owner_eq : ∀ (k : Key) (entry : SdaExchangeEntry), s'.exchange[k]? = some entry → entry.owner = k
  account : ∀ k ∈ s'.exchange, k ∈ s'.accounts
  exchanged : s'.exchanged = s.exchanged

structure Pruned (s s' : State) (k : Key) : Prop where
  live : ∀ k' pair o, s'.live k' pair = some o → s.live k' pair = some o
  other : ∀ k' pair o, s.live k' pair = some o → k' ≠ k → s'.live k' pair = some o
  sublist : ∀ g, (s'.group g).Sublist (s.group g)
  mem_iff : ∀ g, ∀ info ∈ s.group g, (info ∈ s'.group g ↔ (info.owner = k → ∃ o, s'.live k g.mosaics = some o))
  buffered : ∀ k' pair o, s'.Buffered k' pair o → s.Buffered k' pair o ∨ k' = k ∧ s'.live k' pair = none ∧
    ValidOffer pair o
  owner_eq : ∀ (k : Key) (entry : SdaExchangeEntry), s'.exchange[k]? = some entry → entry.owner = k
  account : ∀ k ∈ s'.exchange, k ∈ s'.accounts
  exchanged : s'.exchanged = s.exchanged

section

variable {s s' : State} {k : Key} {pair : MosaicsPair} {o o' : SdaOfferBalance} {amount : ℕ}

section

variable {g : GroupKey} {change : SdaOfferGroupVector → SdaOfferGroupVector} {k' : Key} {pair' : MosaicsPair}
  {o₁ : SdaOfferBalance}

lemma Effect.live_cases (e : Effect s s' k pair (some o) g change) (ho₁ : s'.live k' pair' = some o₁) :
    k' = k ∧ pair' = pair ∧ o₁ = o ∨ s.live k' pair' = some o₁ := by
  rw [e.live_eq] at ho₁
  split_ifs at ho₁ with heq
  · exact .inl ⟨heq.1, heq.2, (Option.some.inj ho₁).symm⟩
  · exact .inr ho₁

lemma Effect.buffered_of_some (e : Effect s s' k pair (some o) g change) (hbuf : s'.Buffered k' pair' o₁) :
    s.Buffered k' pair' o₁ := by
  obtain hbuf | ⟨-, -, hn, -⟩ := e.buffered k' pair' o₁ hbuf
  · exact hbuf
  · cases hn

lemma Book.valid_of_effect (h : Book s) (hval : ValidOffer pair o) (e : Effect s s' k pair (some o) g change)
    (ho₁ : s'.live k' pair' = some o₁) : ValidOffer pair' o₁ := by
  obtain ⟨-, rfl, rfl⟩ | ho₁ := e.live_cases ho₁
  · exact hval
  · exact h.valid k' pair' o₁ ho₁

/-- An owner is in the group of the offer and in no other one of the pair. -/
lemma Book.groupOf_eq (h : Book s) (ho : s.live k pair = some o) {info : SdaOfferBasicInfo} (hi : info ∈ s.group g)
    (hk : info.owner = k) (hp : g.mosaics = pair) : g = o.groupOf pair := by
  obtain ⟨o₁, ho₁, hg⟩ := (h.mem_iff g info.owner).mp (mem_map.mpr ⟨info, hi, rfl⟩)
  rw [hk, hp, ho, Option.some.injEq] at ho₁
  rw [← hg, ← ho₁, hp]

end

theorem Book.change (h : Book s) (ho : s.live k pair = some o) (hval : ValidOffer pair o')
    (hgr : o'.groupOf pair = o.groupOf pair) (hd : o'.deadline = o.deadline)
    (hun : s.Whole → amount = o'.currentMosaicGive)
    (e : Effect s s' k pair (some o') (o.groupOf pair) fun group => group.updateSdaOfferGroup k amount) : Book s' where
  hash_injective := h.hash_injective
  owner_eq := e.owner_eq
  account := e.account
  exchanged := e.exchanged ▸ h.exchanged
  valid _ _ _ ho₁ := h.valid_of_effect hval e ho₁
  buffered k' pair' o₁ hbuf := h.buffered k' pair' o₁ (e.buffered_of_some hbuf)
  disjoint k' pair' o₁ o₂ ho₁ hbuf := by
    replace hbuf := e.buffered_of_some hbuf
    obtain ⟨rfl, rfl, -⟩ | ho₁ := e.live_cases ho₁
    · exact h.disjoint _ _ o o₂ ho hbuf
    · exact h.disjoint k' pair' o₁ o₂ ho₁ hbuf
  nodup g := by
    rw [e.group_eq]
    split_ifs
    · rw [map_owner_update]
      exact h.nodup g
    · exact h.nodup g
  mem_iff g k' := by
    have hmap : (s'.group g).map (·.owner) = (s.group g).map (·.owner) := by
      rw [e.group_eq]
      split_ifs
      · exact map_owner_update
      · rfl
    rw [hmap, h.mem_iff, e.live_eq]
    split_ifs with heq
    · obtain ⟨rfl, rfl⟩ := heq
      simp [ho, hgr]
    · rfl
  deadline_eq g info hi o₁ ho₁ := by
    obtain ⟨old, hold, how, hde⟩ : ∃ old ∈ s.group g, info.owner = old.owner ∧ info.deadline = old.deadline := by
      rw [e.group_eq] at hi
      split_ifs at hi
      · obtain ⟨old, hold, how, hde, -⟩ := mem_update hi
        exact ⟨old, hold, how, hde⟩
      · exact ⟨info, hi, rfl, rfl⟩
    rw [hde]
    obtain ⟨hk, hp, rfl⟩ | ho₁ := e.live_cases ho₁
    · rw [hd]
      exact h.deadline_eq g old hold o (by rw [← how, hk, hp, ho])
    · exact h.deadline_eq g old hold o₁ (by rw [← how, ho₁])
  give_eq hu g info hi o₁ ho₁ := by
    rw [State.Whole, e.exchanged] at hu
    rw [e.live_eq] at ho₁
    rw [e.group_eq] at hi
    by_cases hg : g = o.groupOf pair
    · rw [if_pos hg] at hi
      obtain ⟨old, hold, how, -, hm, hoth⟩ := mem_update hi
      have hmos : g.mosaics = pair := by rw [hg]; rfl
      split_ifs at ho₁ with heq
      · cases ho₁
        rw [hm heq.1, hun hu]
      · have hk : info.owner ≠ k := fun hk => heq ⟨hk, hmos⟩
        rw [hoth hk] at ho₁ ⊢
        exact h.give_eq hu g old hold o₁ ho₁
    · rw [if_neg hg] at hi
      split_ifs at ho₁ with heq
      · exact absurd (h.groupOf_eq ho hi heq.1 heq.2) hg
      · exact h.give_eq hu g info hi o₁ ho₁

theorem Book.prune (h : Book s) (e : Pruned s s' k) : Book s' where
  hash_injective := h.hash_injective
  owner_eq := e.owner_eq
  account := e.account
  exchanged := e.exchanged ▸ h.exchanged
  valid k' pair' o₁ ho₁ := h.valid k' pair' o₁ (e.live k' pair' o₁ ho₁)
  buffered k' pair' o₁ hbuf := by
    obtain hbuf | ⟨-, -, hval⟩ := e.buffered k' pair' o₁ hbuf
    · exact h.buffered k' pair' o₁ hbuf
    · exact hval
  disjoint k' pair' o₁ o₂ ho₁ hbuf := by
    obtain hbuf | ⟨-, hn, -⟩ := e.buffered k' pair' o₂ hbuf
    · exact h.disjoint k' pair' o₁ o₂ (e.live k' pair' o₁ ho₁) hbuf
    · rw [hn] at ho₁
      cases ho₁
  nodup g := ((e.sublist g).map _).nodup (h.nodup g)
  mem_iff g k' := by
    constructor
    · intro hmem
      obtain ⟨info, hi, rfl⟩ := mem_map.mp hmem
      have hold := (e.sublist g).subset hi
      obtain ⟨o₁, ho₁, hg⟩ := (h.mem_iff g info.owner).mp (mem_map.mpr ⟨info, hold, rfl⟩)
      refine ⟨o₁, ?_, hg⟩
      by_cases hk : info.owner = k
      · obtain ⟨o₂, ho₂⟩ := (e.mem_iff g info hold).mp hi hk
        rw [← hk] at ho₂
        rw [ho₂, ← ho₁, e.live _ _ _ ho₂]
      · exact e.other _ _ _ ho₁ hk
    · rintro ⟨o₁, ho₁, hg⟩
      obtain ⟨info, hi, rfl⟩ := mem_map.mp ((h.mem_iff g k').mpr ⟨o₁, e.live _ _ _ ho₁, hg⟩)
      refine mem_map.mpr ⟨info, (e.mem_iff g info hi).mpr fun hk => ⟨o₁, ?_⟩, rfl⟩
      rw [← hk, ho₁]
  deadline_eq g info hi o₁ ho₁ := h.deadline_eq g info ((e.sublist g).subset hi) o₁ (e.live _ _ _ ho₁)
  give_eq hu g info hi o₁ ho₁ := by
    rw [State.Whole, e.exchanged] at hu
    exact h.give_eq hu g info ((e.sublist g).subset hi) o₁ (e.live _ _ _ ho₁)

lemma Book.congr (h : Book s) (hl : ∀ k pair, s'.live k pair = s.live k pair) (hg : ∀ g, s'.group g = s.group g)
    (hbuf : ∀ k pair o, s'.Buffered k pair o → s.Buffered k pair o)
    (how : ∀ (k : Key) (entry : SdaExchangeEntry), s'.exchange[k]? = some entry → entry.owner = k)
    (ha : ∀ k ∈ s'.exchange, k ∈ s'.accounts) (he : s'.exchanged = s.exchanged) : Book s' := by
  apply h.prune (k := 0)
  refine ⟨fun k' pair' o₁ ho₁ => ?_, fun k' pair' o₁ ho₁ _ => ?_, fun g => ?_, fun g info hi => ?_,
    fun k' pair' o₁ hb => .inl (hbuf k' pair' o₁ hb), how, ha, he⟩
  · rw [← hl, ho₁]
  · rw [hl, ho₁]
  · rw [hg]
  · rw [hg]
    refine iff_of_true hi fun hk => ?_
    obtain ⟨o₁, ho₁, -⟩ := (h.mem_iff g info.owner).mp (mem_map.mpr ⟨info, hi, rfl⟩)
    exact ⟨o₁, by rw [hl, ← hk, ho₁]⟩

theorem Book.expire (h : Book s) (ho : s.live k pair = some o)
    (e : Effect s s' k pair none (o.groupOf pair) (removeSdaOfferFromGroup k)) : Book s' := by
  have hgr : ∀ g, s'.group g = if g = o.groupOf pair then
      (s.group g).filter (fun info => info.owner ≠ k) else s.group g := by
    intro g
    rw [e.group_eq]
    split_ifs
    · exact remove_eq_filter (h.nodup g)
    · rfl
  apply h.prune (k := k)
  refine ⟨?_, ?_, ?_, ?_, ?_, e.owner_eq, e.account, e.exchanged⟩
  · intro k' pair' o₁ ho₁
    rw [e.live_eq] at ho₁
    split_ifs at ho₁
    exact ho₁
  · intro k' pair' o₁ ho₁ hk
    rw [e.live_eq, if_neg (fun heq => hk heq.1), ho₁]
  · intro g
    rw [hgr]
    split_ifs
    · exact filter_sublist
    · exact List.Sublist.refl _
  · intro g info hi
    rw [hgr, e.live_eq]
    by_cases hg : g = o.groupOf pair
    · have hmos : g.mosaics = pair := by rw [hg]; rfl
      rw [if_pos hg, if_pos ⟨rfl, hmos⟩]
      simp [hi]
    · rw [if_neg hg]
      refine iff_of_true hi fun hk => ?_
      obtain ⟨o₁, ho₁, -⟩ := (h.mem_iff g info.owner).mp (mem_map.mpr ⟨info, hi, rfl⟩)
      rw [if_neg fun heq => hg (h.groupOf_eq ho hi hk heq.2)]
      exact ⟨o₁, hk ▸ ho₁⟩
  · intro k' pair' o₁ hbuf
    obtain hbuf | ⟨hk, hp, -, hval⟩ := e.buffered k' pair' o₁ hbuf
    · exact .inl hbuf
    · refine .inr ⟨hk, ?_, hval⟩
      rw [e.live_eq, if_pos ⟨hk, hp⟩]

theorem Book.add (h : Book s) (ho : s.live k pair = none) (hexp : ∀ o', ¬s.Buffered k pair o')
    (hval : ValidOffer pair o) {info : SdaOfferBasicInfo} (how : info.owner = k) (hd : info.deadline = o.deadline)
    (hgi : info.mosaicGive = o.currentMosaicGive)
    (e : Effect s s' k pair (some o) (o.groupOf pair) (· ++ [info])) : Book s' := by
  have hnew : ∀ g, g.mosaics = pair → k ∉ (s.group g).map (·.owner) := by
    intro g hg hmem
    obtain ⟨o₁, ho₁, -⟩ := (h.mem_iff g k).mp hmem
    rw [hg, ho] at ho₁
    cases ho₁
  have hi : ∀ g, ∀ info' ∈ s'.group g, g = o.groupOf pair ∧ info' = info ∨ info' ∈ s.group g := by
    intro g info' hin
    rw [e.group_eq] at hin
    split_ifs at hin with hg
    · obtain hin | hin := mem_append.mp hin
      · exact .inr hin
      · exact .inl ⟨hg, mem_singleton.mp hin⟩
    · exact .inr hin
  have hold : ∀ g, ∀ info' ∈ s.group g, ∀ o₁, s'.live info'.owner g.mosaics = some o₁ →
      s.live info'.owner g.mosaics = some o₁ := by
    intro g info' hin o₁ ho₁
    obtain ⟨hk, hp, -⟩ | ho₁ := e.live_cases ho₁
    · exact absurd (mem_map.mpr ⟨info', hin, hk⟩) (hnew g hp)
    · exact ho₁
  have hm : ∀ o₁, s'.live info.owner (o.groupOf pair).mosaics = some o₁ → o₁ = o := by
    intro o₁ ho₁
    rw [e.live_eq, if_pos ⟨how, rfl⟩] at ho₁
    exact (Option.some.inj ho₁).symm
  refine ⟨h.hash_injective, e.owner_eq, e.account, ?_, ?_, ?_, ?_, ?_, ?_, ?_, e.exchanged ▸ h.exchanged⟩
  · exact fun _ _ _ ho₁ => h.valid_of_effect hval e ho₁
  · intro k' pair' o₁ hbuf
    exact h.buffered k' pair' o₁ (e.buffered_of_some hbuf)
  · intro k' pair' o₁ o₂ ho₁ hbuf
    replace hbuf := e.buffered_of_some hbuf
    obtain ⟨rfl, rfl, -⟩ | ho₁ := e.live_cases ho₁
    · exact hexp o₂ hbuf
    · exact h.disjoint k' pair' o₁ o₂ ho₁ hbuf
  · intro g
    rw [e.group_eq]
    split_ifs with hg
    · rw [map_append, map_singleton, how]
      exact (nodup_append.mpr ⟨h.nodup g, nodup_singleton k, by
        intro a ha b hb
        rw [mem_singleton.mp hb]
        rintro rfl
        exact hnew g (by rw [hg]; rfl) ha⟩)
    · exact h.nodup g
  · intro g k'
    rw [e.group_eq, e.live_eq]
    by_cases hg : g = o.groupOf pair
    · subst hg
      have hpa : (o.groupOf pair).mosaics = pair := rfl
      rw [if_pos rfl, map_append, mem_append, h.mem_iff, hpa]
      by_cases hk : k' = k
      · simp [hk, how]
      · simp [hk, how]
    · rw [if_neg hg, h.mem_iff]
      split_ifs with heq
      · obtain ⟨rfl, hp⟩ := heq
        rw [hp, ho]
        simpa using Ne.symm hg
      · rfl
  · intro g info' hin o₁ ho₁
    obtain ⟨rfl, rfl⟩ | hin := hi g info' hin
    · rw [hm o₁ ho₁, hd]
    · exact h.deadline_eq g info' hin o₁ (hold g info' hin o₁ ho₁)
  · intro hu g info' hin o₁ ho₁
    rw [State.Whole, e.exchanged] at hu
    obtain ⟨rfl, rfl⟩ | hin := hi g info' hin
    · rw [hm o₁ ho₁, hgi]
    · exact h.give_eq hu g info' hin o₁ (hold g info' hin o₁ ho₁)

end

end XpxChain.ExchangeSda

