import XpxChain.Exchange.Offers
import XpxChain.Library.Exceptions

/-! Placing offers: the validator, the observer and the deadline that is stored. -/

namespace XpxChain.Exchange

open Std Accounts Library Exceptions OrderedContainers ExchangeEntry List

structure ExchangeCache where
  entries : ExtTreeMap Key ExchangeEntry := ∅
  heightGrouping : ExtTreeMap Height (Finset Key) := ∅

namespace ExchangeCache

variable (cache : ExchangeCache)

def expiringOfferOwners (height : Height) : Finset Key := cache.heightGrouping.getD height ∅

def addExpiryHeight (owner : Key) (height : Height) : ExchangeCache :=
  if height = 0 then cache
  else { cache with
    heightGrouping := cache.heightGrouping.insert height (insert owner (cache.expiringOfferOwners height)) }

/-- What is left of an entry when its `OfferExpiryUpdater` is destroyed. Entries of the first two versions are removed
as soon as they are empty. -/
def update (entry : ExchangeEntry) : ExchangeCache :=
  let cache :=
    (cache.addExpiryHeight entry.owner entry.minPruneHeight).addExpiryHeight entry.owner entry.minExpiryHeight
  if entry.version < 3 ∧ entry.empty then { cache with entries := cache.entries.erase entry.owner }
  else { cache with entries := cache.entries.insert entry.owner entry }

variable {cache}

@[simp] lemma addExpiryHeight_entries {owner : Key} {height : Height} :
    (cache.addExpiryHeight owner height).entries = cache.entries := by
  unfold addExpiryHeight
  split_ifs <;> rfl

lemma update_entries {entry : ExchangeEntry} : (cache.update entry).entries =
    if entry.version < 3 ∧ entry.empty then cache.entries.erase entry.owner
    else cache.entries.insert entry.owner entry := by
  unfold update
  split_ifs <;> simp

end ExchangeCache

structure MosaicDefinition where
  height : Height
  duration : ℕ
deriving DecidableEq, Repr

def MosaicDefinition.isEternal (definition : MosaicDefinition) : Prop := definition.duration = 0
deriving Decidable

/-- What validators and observers read from the chain. -/
structure Context (currencyMosaicId : MosaicId) where
  height : Height
  resolve : UnresolvedMosaicId → MosaicId
  mosaics : MosaicId → Option MosaicDefinition
  maxOfferDuration : ℕ
  longOfferKey : Key

variable {currencyMosaicId : MosaicId} (context : Context currencyMosaicId)

section

variable (version : ℕ) (owner : Key)

/-- The checks of the offered mosaics. Version 4 also checks the type of the offer and that the mosaic exists, which the
older versions look up without a check. -/
def checkOffers (offeredMosaicIds : Finset MosaicId) : List OfferWithDuration → Except ExchangeError ValidationResult
  | [] => .ok .success
  | offer :: offers =>
    let mosaicId := context.resolve offer.mosaic.mosaicId
    if mosaicId ∈ offeredMosaicIds then .ok .duplicatedOfferInRequest
    else if version = 4 ∧ offer.type ≠ .sell ∧ offer.type ≠ .buy then .ok .incorrectOfferType
    else if offer.duration = 0 then .ok .zeroOfferDuration
    else if offer.duration > context.maxOfferDuration ∧ owner ≠ context.longOfferKey then .ok .offerDurationTooLarge
    else
      match context.mosaics mosaicId with
      | none => if version = 4 then .ok .mosaicDoesNotExist else .error (.mosaicNotFound mosaicId)
      | some definition =>
        let maxMosaicHeight := (context.height + definition.duration) % 2 ^ 64
        let maxOfferHeight := (context.height + offer.duration) % 2 ^ 64
        if ¬ definition.isEternal ∧ maxOfferHeight > maxMosaicHeight then .ok .offerDurationExceedsMosaicDuration
        else if offer.mosaic.amount = 0 then .ok .zeroAmount
        else if offer.cost = 0 then .ok .zeroPrice
        else if mosaicId = currencyMosaicId then .ok .mosaicNotAllowed
        else checkOffers (insert mosaicId offeredMosaicIds) offers

def offerValidator (offers : List OfferWithDuration) (cache : ExchangeCache) : Except ExchangeError ValidationResult :=
  if offers = [] then .ok .noOffers
  else do
    match ← checkOffers context version owner ∅ offers with
    | .success =>
      match cache.entries[owner]? with
      | none => return .success
      | some entry =>
        if ∃ offer ∈ offers, entry.offerExists offer.type (context.resolve offer.mosaic.mosaicId) then
          return .offerExists
        else return .success
    | result => return result

end

section

variable (mode : NotifyMode)

def getOfferDeadline (duration : ℕ) (currentHeight : Height) : Height :=
  let maxDeadline := 2 ^ 64 - 1
  if duration < maxDeadline - currentHeight then currentHeight + duration else maxDeadline

def observeOffer (entry : ExchangeEntry) (offer : OfferWithDuration) : ExchangeEntry :=
  let mosaicId := context.resolve offer.mosaic.mosaicId
  match mode with
  | .commit => entry.addOffer mosaicId offer (getOfferDeadline offer.duration context.height)
  | .rollback => entry.removeOffer offer.type mosaicId

def offerEntry (version : ℕ) (owner : Key) (cache : ExchangeCache) : Except ExchangeError ExchangeEntry :=
  match cache.entries[owner]?, mode with
  | none, .commit => .ok ⟨owner, min version 3, {}, {}⟩
  | none, .rollback => .error (.entryNotFound owner)
  | some entry, _ => .ok entry

def offerObserver (version : ℕ) (owner : Key) (offers : List OfferWithDuration) (cache : ExchangeCache) :
    Except ExchangeError ExchangeCache := do
  let entry ← offerEntry mode version owner cache
  let entry := offers.foldl (observeOffer context mode) entry
  let cache := cache.update entry
  if mode = .rollback ∧ entry.empty ∧ (version = 4 ∨ entry.version > 2) then
    if entry.version < 3 then .error (.entryNotFound owner)
    else .ok { cache with entries := cache.entries.erase owner }
  else .ok cache

end

variable {context} {offers : List OfferWithDuration}

section

variable {entry : ExchangeEntry} {type : OfferType} {m mosaicId : MosaicId} {offer : OfferWithDuration}
  {deadline : Height}

lemma offerExists_iff :
    entry.offerExists type m ↔ if type = .buy then m ∈ entry.buy.offers else m ∈ entry.sell.offers := Iff.rfl

lemma owner_addOffer :
    (entry.addOffer mosaicId offer deadline).owner = entry.owner := by
  unfold addOffer
  split_ifs <;> rfl

lemma offerExists_addOffer
    (hm : m ≠ mosaicId) : (entry.addOffer mosaicId offer deadline).offerExists type m ↔ entry.offerExists type m := by
  unfold addOffer
  rw [offerExists_iff, offerExists_iff]
  split_ifs <;> simp [Ne.symm hm]

variable (entry) in
def deadlineOf (type : OfferType) (m : MosaicId) : Option Height :=
  entry.onBook type fun book => book.offers[m]?.map fun offer => (IsOffer.base offer).deadline

lemma deadlineOf_of_empty (h : entry.empty) : deadlineOf entry type m = none := by
  obtain ⟨⟨hb, -⟩, hs, -⟩ := h
  rw [ExtTreeMap.isEmpty_iff] at hb hs
  unfold deadlineOf onBook
  split_ifs <;> simp [hb, hs]

lemma deadlineOf_addOffer_self (hnew : ¬ entry.offerExists offer.type mosaicId) :
    deadlineOf (entry.addOffer mosaicId offer deadline) offer.type mosaicId = some deadline := by
  rw [offerExists_iff] at hnew
  unfold addOffer deadlineOf onBook
  split_ifs at hnew ⊢ <;> simp [hnew, ExtTreeMap.getElem_insertIfNew, IsOffer.base]

lemma deadlineOf_addOffer_of_ne (hm : m ≠ mosaicId) :
    deadlineOf (entry.addOffer mosaicId offer deadline) type m = deadlineOf entry type m := by
  unfold addOffer deadlineOf onBook
  split_ifs <;> simp [ExtTreeMap.getElem?_insertIfNew, Ne.symm hm]

end

section

variable {cache cache' : ExchangeCache} {version : ℕ} {owner : Key}

variable (context) in
def mosaicOf (offer : OfferWithDuration) : MosaicId := context.resolve offer.mosaic.mosaicId

variable {entry : ExchangeEntry}

lemma not_offerExists_observeOffer {offer : OfferWithDuration}
    (hfresh : mosaicOf context offer ∉ offers.map (mosaicOf context))
    (hnew : ∀ other ∈ offers, ¬ entry.offerExists other.type (mosaicOf context other)) :
    ∀ other ∈ offers, ¬ (observeOffer context .commit entry offer).offerExists other.type (mosaicOf context other) := by
  intro other hother hexists
  have hne : mosaicOf context other ≠ mosaicOf context offer := fun h => hfresh (mem_map.mpr ⟨other, hother, h⟩)
  exact hnew other hother ((offerExists_addOffer hne).mp hexists)

lemma guard_eq_success {p : Prop} [Decidable p] {result : ValidationResult} {x : Except ExchangeError ValidationResult}
    (hr : result ≠ .success) : (if p then .ok result else x) = .ok .success ↔ ¬ p ∧ x = .ok .success := by
  split_ifs with hp
  · simp [hp, hr]
  · simp [hp]

lemma checkOffers_success {seen : Finset MosaicId} (h : checkOffers context version owner seen offers = .ok .success) :
    (offers.map (mosaicOf context)).Nodup ∧ ∀ offer ∈ offers, mosaicOf context offer ∉ seen := by
  induction offers generalizing seen with
  | nil => simp
  | cons offer offers ih =>
    obtain ⟨hseen, h⟩ := (guard_eq_success (by decide)).mp h
    obtain ⟨-, h⟩ := (guard_eq_success (by decide)).mp h
    obtain ⟨-, h⟩ := (guard_eq_success (by decide)).mp h
    obtain ⟨-, h⟩ := (guard_eq_success (by decide)).mp h
    split at h
    · split_ifs at h
      cases h
    · obtain ⟨-, h⟩ := (guard_eq_success (by decide)).mp h
      obtain ⟨-, h⟩ := (guard_eq_success (by decide)).mp h
      obtain ⟨-, h⟩ := (guard_eq_success (by decide)).mp h
      obtain ⟨-, h⟩ := (guard_eq_success (by decide)).mp h
      obtain ⟨hnodup, hnew⟩ := ih h
      simp only [Finset.mem_insert, not_or] at hnew
      refine ⟨nodup_cons.mpr ⟨fun hmem => ?_, hnodup⟩, forall_mem_cons.mpr ⟨hseen, fun b hb => (hnew b hb).2⟩⟩
      obtain ⟨b, hb, heq⟩ := mem_map.mp hmem
      exact (hnew b hb).1 heq

lemma offerValidator_success (h : offerValidator context version owner offers cache = .ok .success)
    (hent : cache.entries[owner]? = some entry) :
    ∀ offer ∈ offers, ¬ entry.offerExists offer.type (mosaicOf context offer) := by
  obtain ⟨-, h⟩ := (guard_eq_success (by decide)).mp h
  obtain ⟨result, -, h⟩ := bind_eq_ok.mp h
  cases result with
  | success =>
    rw [hent] at h
    obtain ⟨he, -⟩ := (guard_eq_success (by decide)).mp h
    push Not at he
    exact he
  | _ => cases h

lemma checkOffers_of_success (h : offerValidator context version owner offers cache = .ok .success) :
    checkOffers context version owner ∅ offers = .ok .success := by
  obtain ⟨-, h⟩ := (guard_eq_success (by decide)).mp h
  obtain ⟨result, hc, h⟩ := bind_eq_ok.mp h
  cases result with
  | success => exact hc
  | _ => cases h

lemma offerEntry_commit (h : offerEntry .commit version owner cache = .ok entry) :
    cache.entries[owner]? = none ∧ entry = ⟨owner, min version 3, {}, {}⟩ ∨ cache.entries[owner]? = some entry := by
  unfold offerEntry at h
  cases hf : cache.entries[owner]? with
  | none => exact .inl ⟨rfl, by simpa [hf] using h.symm⟩
  | some found => exact .inr (by simpa [hf] using h)

lemma deadlineOf_observeOffers_of_ne {type : OfferType} {m : MosaicId}
    (hm : m ∉ offers.map (mosaicOf context)) :
    deadlineOf (offers.foldl (observeOffer context .commit) entry) type m = deadlineOf entry type m := by
  induction offers generalizing entry with
  | nil => rfl
  | cons offer offers ih =>
    rw [map_cons, mem_cons, not_or] at hm
    exact (ih hm.2).trans (deadlineOf_addOffer_of_ne hm.1)

lemma deadlineOf_observeOffers {offer : OfferWithDuration} (hnd : (offers.map (mosaicOf context)).Nodup)
    (hnew : ∀ offer ∈ offers, ¬ entry.offerExists offer.type (mosaicOf context offer)) (hoffer : offer ∈ offers) :
    deadlineOf (offers.foldl (observeOffer context .commit) entry) offer.type (mosaicOf context offer) =
      some (getOfferDeadline offer.duration context.height) := by
  induction offers generalizing entry with
  | nil => cases hoffer
  | cons other offers ih =>
    obtain ⟨hf, hnd⟩ := nodup_cons.mp hnd
    rcases mem_cons.mp hoffer with rfl | hoffer
    · exact (deadlineOf_observeOffers_of_ne hf).trans (deadlineOf_addOffer_self (hnew offer mem_cons_self))
    · exact ih hnd (not_offerExists_observeOffer hf fun other ho => hnew other (mem_cons_of_mem _ ho)) hoffer

lemma getOfferDeadline_eq {duration : ℕ} {height : Height} :
    getOfferDeadline duration height = min (height + duration) (2 ^ 64 - 1) := by
  unfold getOfferDeadline
  grind

/-- The validator counts the duration of the mosaic from the current height, so that its check does not bound the
deadline; the end of the mosaic is the sum, modulo `2 ^ 64`, that `isActive` compares a height with. -/
theorem stored_deadline_le_mosaic_end_iff {offer : OfferWithDuration}
    (howner : ∀ entry, cache.entries[owner]? = some entry → entry.owner = owner)
    (hvalid : offerValidator context 4 owner offers cache = .ok .success)
    (hobserve : offerObserver context .commit 4 owner offers cache = .ok cache') (hoffer : offer ∈ offers) :
    ∃ entry deadline, cache'.entries[owner]? = some entry ∧
      deadlineOf entry offer.type (mosaicOf context offer) = some deadline ∧
      ∀ definition, context.mosaics (mosaicOf context offer) = some definition → ¬ definition.isEternal →
        (deadline ≤ (definition.height + definition.duration) % 2 ^ 64 ↔
          min (context.height + offer.duration) (2 ^ 64 - 1) ≤ (definition.height + definition.duration) % 2 ^ 64) := by
  have hnd := (checkOffers_success (checkOffers_of_success hvalid)).1
  obtain ⟨found, hfound, hobserve⟩ := bind_eq_ok.mp hobserve
  simp only [reduceCtorEq, false_and, if_false, Except.ok.injEq] at hobserve
  subst hobserve
  have hplaced : found.owner = owner ∧ ∀ offer ∈ offers, ¬ found.offerExists offer.type (mosaicOf context offer) := by
    rcases offerEntry_commit hfound with ⟨-, rfl⟩ | hfind
    · exact ⟨rfl, fun offer _ => by simp [offerExists_iff]⟩
    · exact ⟨howner _ hfind, offerValidator_success hvalid hfind⟩
  have hkeeps : (offers.foldl (observeOffer context .commit) found).owner = owner :=
    foldlRecOn (motive := fun e : ExchangeEntry => e.owner = owner) offers _ hplaced.1
      fun _ h _ _ => owner_addOffer.trans h
  have hstored := deadlineOf_observeOffers hnd hplaced.2 hoffer
  -- the entry has an offer now, so that `update` does not drop it
  have hfull : ¬ (offers.foldl (observeOffer context .commit) found).empty := fun h =>
    Option.some_ne_none _ (hstored.symm.trans (deadlineOf_of_empty h))
  refine ⟨_, _, ?_, hstored, fun definition _ _ => by rw [getOfferDeadline_eq]⟩
  rw [ExchangeCache.update_entries, hkeeps, if_neg fun h => hfull h.2]
  exact ExtTreeMap.getElem?_insert_self

def plainContext : Context 1 where
  height := 1
  resolve := id
  mosaics _ := some ⟨1, 0⟩
  maxOfferDuration := 100
  longOfferKey := 0

def mosaicUntil101 (height : Height) : Context 1 := { plainContext with height, mosaics := fun _ => some ⟨1, 100⟩ }

theorem stored_deadline_le_mosaic_end_within : ∃ cache',
    offerObserver (mosaicUntil101 90) .commit 4 7 [⟨⟨⟨5, 2⟩, 3, .sell⟩, 11⟩] {} = .ok cache' ∧
    ∃ entry deadline, cache'.entries[(7 : Key)]? = some entry ∧ deadlineOf entry .sell 5 = some deadline ∧
      deadline ≤ 101 := by
  obtain ⟨entry, deadline, hentry, hdeadline, hle⟩ := @stored_deadline_le_mosaic_end_iff 1 (mosaicUntil101 90)
    [⟨⟨⟨5, 2⟩, 3, .sell⟩, 11⟩] {} _ 7 _ (by simp) rfl rfl mem_cons_self
  exact ⟨_, rfl, entry, deadline, hentry, hdeadline, (hle ⟨1, 100⟩ rfl (by decide)).mpr (by decide)⟩

/-- At height 90 an offer of 100 blocks is accepted for a mosaic that ends at 101. -/
theorem stored_deadline_after_mosaic_end : ∃ cache',
    offerValidator (mosaicUntil101 90) 4 7 [⟨⟨⟨5, 2⟩, 3, .sell⟩, 100⟩] {} = .ok .success ∧
    offerObserver (mosaicUntil101 90) .commit 4 7 [⟨⟨⟨5, 2⟩, 3, .sell⟩, 100⟩] {} = .ok cache' ∧
    cache'.entries[(7 : Key)]?.bind (deadlineOf · .sell 5) = some 190 ∧ (1 + 100 : Height) < 190 :=
  ⟨_, rfl, rfl, rfl, by decide⟩

end

end XpxChain.Exchange
