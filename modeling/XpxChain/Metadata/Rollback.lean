import XpxChain.Metadata.Transactions

/-! Undoing a metadata transaction. Values always come back; an entry that was deleted comes back with the version and
the flag that the transaction gives it. -/

namespace XpxChain.Metadata

open Std MetadataNotification MetadataTransaction MetadataValue

variable {generateUniqueKey : MetadataKey → Hash256} {context context' : MetadataContext} {cache : MetadataCache}
  {transaction : MetadataTransaction} {entry : MetadataEntry}

def NonEmptyValues (cache : MetadataCache) : Prop :=
  ∀ (key : Hash256) (entry : MetadataEntry), cache[key]? = some entry → entry.value ≠ []

lemma nonEmptyValues_empty : NonEmptyValues ∅ := by
  intro key entry hent
  simp at hent

lemma NonEmptyValues.observe (h : NonEmptyValues cache)
    (haccepted : transaction.Accepted generateUniqueKey context cache) :
    NonEmptyValues (transaction.observe generateUniqueKey context .commit cache) := by
  intro key entry hent
  rw [MetadataTransaction.observe] at hent
  by_cases hkey : key = transaction.uniqueKey generateUniqueKey context
  · subst hkey
    cases hold : cache[transaction.uniqueKey generateUniqueKey context]? with
    | none =>
      have hd := haccepted.of_none hold
      have hpos := haccepted.sizes.1
      rw [getElem?_updateCache_of_none hold] at hent
      cases hent
      rw [newEntry_value, update_nil, effectiveValueSize, if_neg (by omega), List.take_length]
      exact List.ne_nil_of_length_pos hpos
    | some entry₀ =>
      rw [getElem?_updateCache_of_some hold] at hent
      split_ifs at hent with hz
      cases hent
      apply List.ne_nil_of_length_pos
      rw [length_update]
      exact Nat.pos_of_ne_zero hz
  · rw [getElem?_updateCache_of_ne hkey] at hent
    exact h key entry hent

lemma NonEmptyValues.of_run {condition : MetadataCache → MetadataStep → Prop} {cache' : MetadataCache}
    (hrun : AcceptedRun generateUniqueKey condition cache cache')
    (h : NonEmptyValues cache) : NonEmptyValues cache' := by
  induction hrun with
  | refl => exact h
  | step _ haccepted _ ih => exact ih.observe haccepted

def MetadataEntry.content (entry : MetadataEntry) : MetadataValue × Bool × ℕ :=
  (entry.value, entry.immutable, entry.version)

def MetadataTransaction.Deletes (transaction : MetadataTransaction) : Prop :=
  transaction.notification.valueSizeDelta = -transaction.notification.value.length

/-- An entry that the transaction deletes has the version and the flag of an entry that it creates in the context of the
rollback. -/
def DeletesOwnKind (generateUniqueKey : MetadataKey → Hash256) (context : MetadataContext) (cache : MetadataCache)
    (transaction : MetadataTransaction) : Prop :=
  transaction.Deletes → ∀ entry, cache[transaction.uniqueKey generateUniqueKey context]? = some entry →
    (transaction.newEntry context).immutable = entry.immutable ∧ (transaction.newEntry context).version = entry.version

section

variable (haccepted : transaction.Accepted generateUniqueKey context cache)
include haccepted

lemma take_rollback_of_none (hn : cache[transaction.uniqueKey generateUniqueKey context]? = none) :
    (transaction.notification.value.take (transaction.notification.effectiveValueSize .rollback)).length = 0 := by
  have hd := haccepted.of_none hn
  have hpos := haccepted.sizes.1
  rw [effectiveValueSize, if_pos (by omega), List.length_take]
  omega

lemma update_rollback_update_commit (hs : cache[transaction.uniqueKey generateUniqueKey context]? = some entry) :
    MetadataValue.update (MetadataValue.update entry.value
          (transaction.notification.value.take (transaction.notification.effectiveValueSize .commit)))
        (transaction.notification.value.take (transaction.notification.effectiveValueSize .rollback)) = entry.value ∧
      entry.value.length = (transaction.notification.value.take
        (transaction.notification.effectiveValueSize .rollback)).length := by
  rcases haccepted.of_some hs with ⟨hd, hlen⟩ | ⟨hd, hlen, ht⟩
  · have hr : transaction.notification.effectiveValueSize .rollback = entry.value.length := by
      rw [effectiveValueSize]
      split_ifs <;> omega
    rw [hr, effectiveValueSize, if_neg (by omega), List.take_length, List.length_take]
    exact ⟨update_take_update rfl (by omega), by omega⟩
  · rw [effectiveValueSize, effectiveValueSize, if_pos hd, if_neg (by omega),
      List.take_length]
    exact ⟨update_update_take hlen (by omega) ht, hlen⟩

lemma length_take_commit_eq_zero :
    (transaction.notification.value.take (transaction.notification.effectiveValueSize .commit)).length = 0 ↔
      transaction.Deletes := by
  obtain ⟨hpos, habs⟩ := haccepted.sizes
  rw [abs_le] at habs
  rw [MetadataTransaction.Deletes, List.length_take, effectiveValueSize]
  split_ifs <;> omega

section

variable (hresolve : context'.resolve = context.resolve)
include hresolve

omit haccepted in
lemma uniqueKey_eq_of_resolve :
    transaction.uniqueKey generateUniqueKey context' = transaction.uniqueKey generateUniqueKey context := by
  rw [uniqueKey, hresolve]
  rfl

lemma rollback_commit_of_none (hold : cache[transaction.uniqueKey generateUniqueKey context]? = none) :
    (transaction.observe generateUniqueKey context' .rollback
      (transaction.observe generateUniqueKey context .commit cache))[transaction.uniqueKey generateUniqueKey context]? =
      none := by
  rw [observe, observe, uniqueKey_eq_of_resolve hresolve,
    getElem?_updateCache_of_some (getElem?_updateCache_of_none hold), if_pos (take_rollback_of_none haccepted hold)]

lemma rollback_commit_of_deletes (hdeletes : transaction.Deletes)
    (hold : cache[transaction.uniqueKey generateUniqueKey context]? = some entry) :
    (transaction.observe generateUniqueKey context' .rollback
      (transaction.observe generateUniqueKey context .commit cache))[transaction.uniqueKey generateUniqueKey context]? =
      some { transaction.newEntry context' with value := entry.value } := by
  have hzero := (length_take_commit_eq_zero haccepted).mpr hdeletes
  have hempty : update entry.value
      (transaction.notification.value.take (transaction.notification.effectiveValueSize .commit)) = [] :=
    List.eq_nil_of_length_eq_zero (length_update.trans hzero)
  obtain ⟨hvalue, -⟩ := update_rollback_update_commit haccepted hold
  rw [hempty] at hvalue
  rw [observe, observe, uniqueKey_eq_of_resolve hresolve,
    getElem?_updateCache_of_none ((getElem?_updateCache_of_some hold).trans (if_pos hzero)), newEntry_value, hvalue]

lemma rollback_commit_of_not_deletes (hdeletes : ¬ transaction.Deletes) (hvalues : NonEmptyValues cache)
    (hold : cache[transaction.uniqueKey generateUniqueKey context]? = some entry) :
    (transaction.observe generateUniqueKey context' .rollback
      (transaction.observe generateUniqueKey context .commit cache))[transaction.uniqueKey generateUniqueKey context]? =
      some entry := by
  obtain ⟨hvalue, hlength⟩ := update_rollback_update_commit haccepted hold
  have hkept := fun h => hdeletes ((length_take_commit_eq_zero haccepted).mp h)
  have hne : entry.value.length ≠ 0 := fun hzero => hvalues _ entry hold (List.eq_nil_of_length_eq_zero hzero)
  rw [observe, observe, uniqueKey_eq_of_resolve hresolve,
    getElem?_updateCache_of_some ((getElem?_updateCache_of_some hold).trans (if_neg hkept)),
    if_neg (by rwa [← hlength]), hvalue]

end

end

/-- Only what the context says about uninitialized flags may differ between commit and rollback. -/
theorem metadata_rollback_inverts_commit_iff (hrun : AcceptedRun generateUniqueKey (fun _ _ => True) ∅ cache)
    (haccepted : transaction.Accepted generateUniqueKey context cache) (hresolve : context'.resolve = context.resolve) :
    (∀ key : Hash256, (transaction.observe generateUniqueKey context' .rollback
        (transaction.observe generateUniqueKey context .commit cache))[key]?.map MetadataEntry.content =
      cache[key]?.map MetadataEntry.content) ↔ DeletesOwnKind generateUniqueKey context' cache transaction := by
  have hsame : transaction.uniqueKey generateUniqueKey context' = transaction.uniqueKey generateUniqueKey context :=
    uniqueKey_eq_of_resolve hresolve
  constructor
  · intro hrestored hdeletes entry hold
    rw [hsame] at hold
    have hentry := hrestored (transaction.uniqueKey generateUniqueKey context)
    rw [rollback_commit_of_deletes haccepted hresolve hdeletes hold, hold] at hentry
    obtain ⟨-, hflag⟩ := Prod.mk.inj (Option.some.inj hentry)
    exact Prod.mk.inj hflag
  · intro hkind key
    by_cases hkey : key = transaction.uniqueKey generateUniqueKey context
    · subst hkey
      cases hold : cache[transaction.uniqueKey generateUniqueKey context]? with
      | none => rw [rollback_commit_of_none haccepted hresolve hold]
      | some entry =>
        by_cases hdeletes : transaction.Deletes
        · obtain ⟨himmutable, hversion⟩ := hkind hdeletes entry (by rw [hsame, hold])
          rw [rollback_commit_of_deletes haccepted hresolve hdeletes hold, Option.map_some, Option.map_some,
            MetadataEntry.content, himmutable, hversion]
          rfl
        · rw [rollback_commit_of_not_deletes haccepted hresolve hdeletes (nonEmptyValues_empty.of_run hrun) hold]
    · rw [observe, observe, hsame, getElem?_updateCache_of_ne hkey, getElem?_updateCache_of_ne hkey]

section

def plainDeletion : MetadataTransaction := .plain (sampleNotification 3 0 5)

def extendedDeletion : MetadataTransaction := .extended (sampleNotification 3 0 5) false

lemma reached_sampleCache : AcceptedRun sampleDigest (fun _ _ => True) ∅ (sampleCache false) := by
  have haccepted : (extended (sampleNotification 3 2 5) false).Accepted sampleDigest sampleContext ∅ := by
    decide +kernel
  exact @AcceptedRun.step sampleDigest _ _ _ ⟨sampleContext, _⟩ (.refl ∅) haccepted trivial

theorem metadata_rollback_inverts_commit_sample : extendedDeletion.Deletes ∧
      (extendedDeletion.observe sampleDigest sampleContext .rollback
        (extendedDeletion.observe sampleDigest sampleContext .commit (sampleCache false)))[(3 : Hash256)]?.map
          MetadataEntry.content =
      (sampleCache false)[(3 : Hash256)]?.map MetadataEntry.content := by
  refine ⟨rfl, (metadata_rollback_inverts_commit_iff reached_sampleCache (by decide +kernel) rfl).mpr ?_ 3⟩
  intro _ entry hentry
  have hcontent : (sampleCache false)[extendedDeletion.uniqueKey sampleDigest sampleContext]?.map
      MetadataEntry.content =
      some ([5], false, 2) := by
    decide +kernel
  rw [hentry] at hcontent
  obtain ⟨-, hflag⟩ := Prod.mk.inj (Option.some.inj hcontent)
  obtain ⟨himmutable, hversion⟩ := Prod.mk.inj hflag
  exact ⟨himmutable.symm, hversion.symm⟩

/-- A plain transaction deletes an entry of the second version, and its rollback creates one of the first. -/
theorem plain_deletion_loses_metadata_version : AcceptedRun sampleDigest (fun _ _ => True) ∅ (sampleCache false) ∧
      plainDeletion.Accepted sampleDigest sampleContext (sampleCache false) ∧
      (sampleCache false)[(3 : Hash256)]?.map MetadataEntry.content = some ([5], false, 2) ∧
      (plainDeletion.observe sampleDigest sampleContext .rollback
        (plainDeletion.observe sampleDigest sampleContext .commit (sampleCache false)))[(3 : Hash256)]?.map
          MetadataEntry.content =
      some ([5], false, 1) := by
  refine ⟨reached_sampleCache, ?_⟩
  decide +kernel

end

end XpxChain.Metadata
