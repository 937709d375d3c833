import XpxChain.ExchangeSda.Cleanup
import XpxChain.Library.Runs

/-! Runs of transactions and cleanups: the groups list the live offers, exchanges are fair and nothing is lost, and the
observers do not fail on what the validators accept. -/

namespace XpxChain.ExchangeSda

open Std Accounts Library Exceptions OrderedContainers SdaOfferGroupVector

section

variable [Sha3]

/-- What the observers rely on and the validators do not check: the amounts fit in `int`, no pair is placed again while
an offer of it is in a buffer, and the deposits do not take the total of a mosaic beyond 64 bits. -/
def Sound (s : State) (x : Context × Event) : Prop :=
  x.1.height ≠ 0 ∧
    match x.2 with
    | .place signer offers =>
      signer ∈ s.accounts ∧ ∀ offer ∈ offers, offer.amountGive < 2 ^ 31 ∧ offer.amountGet < 2 ^ 31 ∧
        s.total offer.mosaics.mosaicIdGive + deposits offers offer.mosaics.mosaicIdGive < 2 ^ 64 ∧
        ∀ entry ∈ s.exchange[signer]?, ∀ buffer ∈ entry.expiredSdaOfferBalances.toList, offer.mosaics ∉ buffer.2
    | .remove _ _ | .cleanup => True

instance (s : State) : (x : Context × Event) → Decidable (Sound s x)
  | (_, .place _ _) => inferInstanceAs (Decidable (_ ∧ _ ∧ _))
  | (_, .remove _ _) => inferInstanceAs (Decidable (_ ∧ True))
  | (_, .cleanup) => inferInstanceAs (Decidable (_ ∧ True))

/-- Each group lists the live offers of its pair and price, every owner once, as they are; a group that is not there
lists none. -/
def State.Consistent (s : State) : Prop :=
  ∀ (pair : MosaicsPair) (give get : ℕ), 0 < give → 0 < get → give.Coprime get →
    ((s.group ⟨pair, (give, get)⟩).map (·.owner)).Nodup ∧
      ∀ info, info ∈ s.group ⟨pair, (give, get)⟩ ↔ ∃ o, s.live info.owner pair = some o ∧
        o.initialMosaicGive * get = o.initialMosaicGet * give ∧ info.mosaicGive = o.currentMosaicGive ∧
          info.deadline = o.deadline

variable {s s' : State} {x : Context × Event}

section

variable {offers : List SdaOfferWithDuration} {signer : Key}

omit [Sha3] in
lemma deposits_eq_zero {m : MosaicId}
    (h : ∀ offer ∈ offers, offer.mosaics.mosaicIdGive ≠ m) : deposits offers m = 0 := by
  induction offers with
  | nil => rfl
  | cons offer offers ih =>
    rw [deposits_cons, if_neg (h offer List.mem_cons_self), ih fun other hoth => h other (List.mem_cons_of_mem _ hoth)]

lemma not_buffered {pair : MosaicsPair}
    (h : ∀ entry ∈ s.exchange[signer]?, ∀ buffer ∈ entry.expiredSdaOfferBalances.toList, pair ∉ buffer.2)
    (o : SdaOfferBalance) : ¬s.Buffered signer pair o := by
  rintro ⟨entry, hent, height, ho⟩
  rw [ExtTreeMap.getD_eq_getD_getElem?] at ho
  cases hb : entry.expiredSdaOfferBalances[height]? with
  | none =>
    rw [hb] at ho
    simp at ho
  | some buffer =>
    rw [hb] at ho
    refine h entry hent (height, buffer) (ExtTreeMap.mem_toList_iff_getElem?_eq_some.mpr hb) ?_
    exact mem_of_getElem? ho

def Event.deposited : Event → MosaicId → ℕ
  | .place _ offers => deposits offers
  | .remove _ _ | .cleanup => fun _ => 0

lemma deposits_lt {context : Context} (hlt : ∀ m, s.total m < 2 ^ 64)
    (hs : Sound s (context, .place signer offers)) (m : MosaicId) : s.total m + deposits offers m < 2 ^ 64 := by
  by_cases hm : ∃ offer ∈ offers, offer.mosaics.mosaicIdGive = m
  · obtain ⟨offer, ho, rfl⟩ := hm
    exact (hs.2.2 offer ho).2.2.1
  · push Not at hm
    rw [deposits_eq_zero hm]
    exact hlt m

theorem observe_spec (h : Book s) (hlt : ∀ m, s.total m < 2 ^ 64) (hs : Sound s x)
    (hacc : x.2.accepted x.1 s) :
    ∃ s', observe x.1 s x.2 = .ok s' ∧ Book s' ∧ ∀ m, s'.total m = s.total m + x.2.deposited m := by
  obtain ⟨context, event⟩ := x
  cases event with
  | place signer offers =>
    obtain ⟨hval, hl⟩ := placeValidator_success (of_decide_eq_true hacc)
    obtain ⟨hnd, hof⟩ := validateOffers_success hval
    have hp : ∀ offer ∈ offers, Placeable s signer offer := by
      intro offer ho
      obtain ⟨-, hne, hg, hget⟩ := hof offer ho
      obtain ⟨hg', hget', -, hf⟩ := hs.2.2 offer ho
      exact ⟨hne, hg, hget, hg', hget', hl offer ho, not_buffered hf⟩
    obtain ⟨s', hpl, h', ht, -⟩ := placeObserver_spec hs.1 h hs.2.1 hnd hp (deposits_lt hlt hs)
    exact ⟨s', hpl, h', ht⟩
  | remove owner pairs =>
    obtain ⟨s', hr, h', ht, -⟩ := removeObserver_spec hs.1 h hlt (of_decide_eq_true hacc)
    exact ⟨s', hr, h', ht⟩
  | cleanup =>
    obtain ⟨s', hc, h', ht, -⟩ := cleanupObserver_spec hs.1 h hlt
    exact ⟨s', hc, h', ht⟩

lemma settle_spec (h : Book s') (hlt : ∀ m, x.2.deposited m < 2 ^ 64) {s'' : State} (hs : settle x.1 s' x.2 = .ok s'') :
    Book s'' ∧ ∀ m, s''.total m + x.2.deposited m = s'.total m := by
  obtain ⟨context, event⟩ := x
  cases event with
  | place signer offers => exact settle_place_spec h hlt hs
  | remove _ _ | cleanup =>
    cases hs
    exact ⟨h, fun _ => rfl⟩

theorem next_spec (h : Book s) (hlt : ∀ m, s.total m < 2 ^ 64) (hs : Sound s x) :
    Book (next s x) ∧ ∀ m, (next s x).total m = s.total m := by
  by_cases hacc : x.2.accepted x.1 s
  · obtain ⟨s', hobs, h', ht'⟩ := observe_spec h hlt hs hacc
    have hd : ∀ m, x.2.deposited m < 2 ^ 64 := by
      intro m
      obtain ⟨context, event⟩ := x
      cases event with
      | place signer offers => exact Nat.lt_of_le_of_lt (Nat.le_add_left _ _) (deposits_lt hlt hs m)
      | remove _ _ | cleanup => exact Nat.two_pow_pos 64
    simp only [next, if_pos hacc, hobs]
    cases hse : settle x.1 s' x.2 with
    | error e => exact ⟨h, fun _ => rfl⟩
    | ok s'' =>
      obtain ⟨h'', ht''⟩ := settle_spec h' hd hse
      refine ⟨h'', fun m => ?_⟩
      change s''.total m = s.total m
      have hm := ht'' m
      rw [ht' m] at hm
      omega
  · rw [next, if_neg hacc]
    exact ⟨h, fun _ => rfl⟩

end

section

def State.start (accounts : AccountStateCache) : State := { accounts := accounts }

variable {accounts : AccountStateCache} {steps : List (Context × Event)}

lemma book_start (hinj : Function.Injective Sha3.hash) : Book (State.start accounts) := by
  refine ⟨hinj, ?_, ?_, ?_, ?_, ?_, ?_, ?_, ?_, ?_, ?_⟩ <;> simp [State.start, State.live, State.Buffered, State.group]

theorem book_run (hinj : Function.Injective Sha3.hash) (hsup : ∀ m, (State.start accounts).total m < 2 ^ 64)
    (hs : Runs.Always next (State.start accounts) (fun _ s x => Sound s x) steps) :
    Book (Runs.run next (State.start accounts) steps) ∧
      ∀ m, (Runs.run next (State.start accounts) steps).total m = (State.start accounts).total m := by
  refine Runs.invariant_run (fun _ s => Book s ∧ ∀ m, s.total m = (State.start accounts).total m)
    ⟨book_start hinj, fun _ => rfl⟩ (fun _ s x hinv hx => ?_) hs
  obtain ⟨h, ht⟩ := hinv
  obtain ⟨h', ht'⟩ := next_spec h (fun m => by rw [ht]; exact hsup m) hx
  exact ⟨h', fun m => (ht' m).trans (ht m)⟩

lemma Book.consistent (h : Book s) (hwhole : s.Whole) : s.Consistent := by
  intro pair give get hgi hget hc
  have hg : groupOf pair give get = ⟨pair, (give, get)⟩ := by
    have hred := groupOf_of_coprime pair hc Nat.one_pos
    rw [Nat.mul_one, Nat.mul_one] at hred
    exact hred
  have hp : ∀ k o, s.live k pair = some o → (o.groupOf pair = ⟨pair, (give, get)⟩ ↔
      o.initialMosaicGive * get = o.initialMosaicGet * give) := by
    intro k o ho
    rw [← hg, SdaOfferBalance.groupOf, groupOf_eq_iff (h.valid k pair o ho).give_pos hgi]
    exact and_iff_right rfl
  refine ⟨h.nodup _, fun info => ⟨fun hi => ?_, ?_⟩⟩
  · obtain ⟨o, ho, hgr⟩ := (h.mem_iff _ info.owner).mp (List.mem_map.mpr ⟨info, hi, rfl⟩)
    exact ⟨o, ho, (hp _ o ho).mp hgr, h.give_eq hwhole _ info hi o ho, h.deadline_eq _ info hi o ho⟩
  · rintro ⟨o, ho, hcr, hamt, hd⟩
    obtain ⟨listed, hl, how⟩ := List.mem_map.mp ((h.mem_iff ⟨pair, (give, get)⟩ info.owner).mpr
      ⟨o, ho, (hp _ o ho).mpr hcr⟩)
    rw [← how] at ho
    have hs : listed = info := by
      have hgi' := h.give_eq hwhole _ listed hl o ho
      have hd' := h.deadline_eq _ listed hl o ho
      cases listed
      cases info
      simp only [SdaOfferBasicInfo.mk.injEq]
      exact ⟨how, hgi'.trans hamt.symm, hd'.trans hd.symm⟩
    rw [← hs]
    exact hl

end

end

section

/-- The hash of the examples: the data itself. -/
instance exampleSha3 : Sha3 where
  Hash := GroupKey
  hash := id

lemma exampleSha3_injective : Function.Injective exampleSha3.hash := Function.injective_id

def exampleContext (height : Height) : Context where
  height := height
  maxOfferDuration := 100
  longOfferKey := 0
  offerSortPolicy := .smallToBig
  sort less group := group.insertionSort fun a b => less a b
  sort_perm _ _ := List.perm_insertionSort _ _

def exampleAccounts : AccountStateCache :=
  (ExtTreeMap.insert (∅ : ExtTreeMap Key AccountBalances) 1 fun _ => 2 ^ 40).insert 2 fun _ => 2 ^ 40

lemma exampleAccounts_supply (m : MosaicId) : (State.start exampleAccounts).total m < 2 ^ 64 := by
  have hf :=
    sumEntries_insert (f := fun _ (balances : AccountBalances) => balances m)
    (m := (∅ : ExtTreeMap Key AccountBalances))
    (k := (1 : Key)) (v := fun _ => 2 ^ 40)
  have hs := sumEntries_insert (f := fun _ (balances : AccountBalances) => balances m)
    (m := ExtTreeMap.insert (∅ : ExtTreeMap Key AccountBalances) 1 fun _ => 2 ^ 40) (k := (2 : Key))
      (v := fun _ => 2 ^ 40)
  simp only [sumEntries_empty] at hf hs
  change sumEntries _ exampleAccounts + 0 < _
  rw [exampleAccounts]
  omega

def exampleTrade (give get : ℕ) (give' get' : ℕ) : List (Context × Event) :=
  [(exampleContext 5, .place 2 [⟨⟨1, 2⟩, give, get, 10⟩]), (exampleContext 6, .place 1 [⟨⟨2, 1⟩, give', get', 10⟩])]

/-- An offer at the price one is partly filled and another one, at the price two, is used up. -/
def exampleSteps : List (Context × Event) :=
  exampleTrade 10 10 4 4 ++ [(exampleContext 7, .place 2 [⟨⟨3, 4⟩, 10, 5, 10⟩]),
    (exampleContext 7, .place 1 [⟨⟨4, 3⟩, 8, 16, 10⟩]), (exampleContext 7, .remove 2 [⟨1, 2⟩]),
      (exampleContext 7, .cleanup)]

end

section

instance [Sha3] (s : State) : Decidable s.Whole := inferInstanceAs (Decidable (∀ _ ∈ _, _))

/-- As long as no offer at another price than one is left partly filled, the groups list the live offers. -/
theorem groups_list_live_offers [Sha3] (hinjective : Function.Injective Sha3.hash) (accounts : AccountStateCache)
    (hsupply : ∀ m, (State.start accounts).total m < 2 ^ 64)
    (steps : List (Context × Event)) (hsound : Runs.Always next (State.start accounts) (fun _ s x => Sound s x) steps) :
    ∀ past, past <+: steps → (Runs.run next (State.start accounts) past).Whole →
      (Runs.run next (State.start accounts) past).Consistent := by
  rintro past ⟨rest, rfl⟩ hwhole
  exact (book_run hinjective hsupply (Runs.always_append_left hsound)).1.consistent hwhole

theorem groups_list_live_offers_example : (Runs.run next (State.start exampleAccounts) exampleSteps).Consistent :=
  groups_list_live_offers exampleSha3_injective exampleAccounts exampleAccounts_supply exampleSteps (by decide +kernel)
    exampleSteps (List.prefix_refl _) (by decide +kernel)

/-- At the price two an exchange writes the amount that the existing offer still gets to its group. -/
theorem group_lists_wrong_amount :
    Runs.Always next (State.start exampleAccounts) (fun _ s x => x.2.accepted x.1 s = true) (exampleTrade 10 5 1 2) ∧
      ¬(Runs.run next (State.start exampleAccounts) (exampleTrade 10 5 1 2)).Consistent := by
  refine ⟨by decide +kernel, fun h => ?_⟩
  have hlisted : (⟨2, 4, 15⟩ : SdaOfferBasicInfo) ∈
      (Runs.run next (State.start exampleAccounts) (exampleTrade 10 5 1 2)).group ⟨⟨1, 2⟩, (2, 1)⟩ := by
    decide +kernel
  have hlive : (Runs.run next (State.start exampleAccounts) (exampleTrade 10 5 1 2)).live 2 ⟨1, 2⟩ =
      some ⟨8, 4, 10, 5, 15⟩ := by
    decide +kernel
  obtain ⟨o, ho, -, hgive, -⟩ := ((h ⟨1, 2⟩ 2 1 (by decide) (by decide) (by decide)).2 ⟨2, 4, 15⟩).mp hlisted
  rw [hlive, Option.some.injEq] at ho
  subst ho
  exact absurd hgive (by decide)

end

section

deriving instance Decidable for Reciprocal

/-- In a run of sound steps exchanges are fair and the total of every mosaic is what it was. -/
theorem exchanges_fair_and_conserve [Sha3] (hinjective : Function.Injective Sha3.hash) (accounts : AccountStateCache)
    (hsupply : ∀ m, (State.start accounts).total m < 2 ^ 64)
    (steps : List (Context × Event)) (hsound : Runs.Always next (State.start accounts) (fun _ s x => Sound s x) steps) :
    ∀ past, past <+: steps → (∀ offers ∈ (Runs.run next (State.start accounts) past).exchanged,
        Reciprocal offers.1 offers.2 ∧ offers.1.Fair ∧ offers.2.Fair) ∧
      ∀ m, (Runs.run next (State.start accounts) past).total m = (State.start accounts).total m := by
  rintro past ⟨rest, rfl⟩
  obtain ⟨h, htotal⟩ := book_run hinjective hsupply (Runs.always_append_left hsound)
  exact ⟨h.exchanged, htotal⟩

theorem exchanges_fair_and_conserve_example : (Runs.run next (State.start exampleAccounts) exampleSteps).total 1 =
    (State.start exampleAccounts).total 1 :=
  (exchanges_fair_and_conserve exampleSha3_injective exampleAccounts exampleAccounts_supply exampleSteps
    (by decide +kernel)
    exampleSteps (List.prefix_refl _)).2 1

/-- An amount that is cut to `int` meets an offer of another price. -/
theorem exchange_at_other_price :
    Runs.Always next (State.start exampleAccounts) (fun _ s x => x.2.accepted x.1 s = true)
      (exampleTrade (2 ^ 32 + 1) 1 1 1) ∧
      ∃ offers ∈ (Runs.run next (State.start exampleAccounts) (exampleTrade (2 ^ 32 + 1) 1 1 1)).exchanged,
        ¬Reciprocal offers.1 offers.2 := by
  decide +kernel

end

section

/-- In a run of sound steps no observer fails on what the validators accept. -/
theorem observers_never_fail [Sha3] (hinjective : Function.Injective Sha3.hash) (accounts : AccountStateCache)
    (hsupply : ∀ m, (State.start accounts).total m < 2 ^ 64) (steps : List (Context × Event))
    (hsound : Runs.Always next (State.start accounts) (fun _ s x => Sound s x) steps) :
    Runs.Always next (State.start accounts) (fun _ s x => x.2.accepted x.1 s = true →
      (observe x.1 s x.2).isOk = true) steps := by
  intro past x rest hsplit haccepted
  have hpast : Runs.Always next (State.start accounts) (fun _ s x => Sound s x) past := by
    rw [hsplit] at hsound
    exact Runs.always_append_left hsound
  obtain ⟨h, htotal⟩ := book_run hinjective hsupply hpast
  obtain ⟨s', hobserve, -⟩ :=
    observe_spec h (fun m => by rw [htotal]; exact hsupply m) (hsound past x rest hsplit) haccepted
  exact exists_ok_iff.mp ⟨s', hobserve⟩

theorem observers_never_fail_example :
    Runs.Always next (State.start exampleAccounts) (fun _ s x => x.2.accepted x.1 s = true →
      (observe x.1 s x.2).isOk = true)
      exampleSteps :=
  observers_never_fail exampleSha3_injective exampleAccounts exampleAccounts_supply exampleSteps (by decide +kernel)

/-- Both amounts are cut to zero, and so is the number by which they are divided. -/
theorem offer_divides_by_zero :
    let event := Event.place 1 [⟨⟨1, 2⟩, 2 ^ 32, 2 ^ 32, 10⟩]
    event.accepted (exampleContext 5) (State.start exampleAccounts) = true ∧
      (match observe (exampleContext 5) (State.start exampleAccounts) event with
        | .error e => some e
        | .ok _ => none) = some .divisionByZero := by
  decide +kernel

end

end XpxChain.ExchangeSda
