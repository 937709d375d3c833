import XpxChain.Storage.NodeIndependence

/-! The shards of a drive verification partition the replicators that it is about. -/

namespace XpxChain.Storage

open List hiding Disjoint

variable {shards : List (Finset Key)} {keys used : List Key} {key : Key} {shard : Finset Key} {n m : ℕ}

/-- One key for each shard from the first on, while there are keys. -/
def fill : List (Finset Key) → List Key → List (Finset Key)
  | shard :: shards, key :: keys => insert key shard :: fill shards keys
  | shards, _ => shards

lemma fillRound_eq (h : shards.length ≤ keys.length) :
    fillRound shards keys = some (fill shards (keys.take shards.length), keys.drop shards.length) := by
  induction shards generalizing keys with
  | nil => rfl
  | cons shard shards ih =>
    cases keys with
    | nil => contradiction
    | cons key keys =>
      rw [fillRound, ih (Nat.le_of_succ_le_succ h)]
      rfl

lemma fillRemainder_eq (h : keys.length ≤ shards.length) : fillRemainder shards keys = some (fill shards keys) := by
  induction shards generalizing keys with
  | nil =>
    rw [length_eq_zero_iff.mp (Nat.le_zero.mp h)]
    rfl
  | cons shard shards ih =>
    cases keys with
    | nil => rfl
    | cons key keys =>
      rw [fillRemainder, ih (Nat.le_of_succ_le_succ h)]
      rfl

lemma length_fill : (fill shards keys).length = shards.length := by
  induction shards generalizing keys with
  | nil => rfl
  | cons shard shards ih =>
    cases keys with
    | nil => rfl
    | cons key keys => exact congrArg (· + 1) ih

lemma exists_mem_fill (h : keys.length ≤ shards.length) :
    (∃ shard ∈ fill shards keys, key ∈ shard) ↔ (∃ shard ∈ shards, key ∈ shard) ∨ key ∈ keys := by
  induction shards generalizing keys with
  | nil => simp [fill, length_eq_zero_iff.mp (Nat.le_zero.mp h)]
  | cons shard shards ih =>
    cases keys with
    | nil => simp [fill]
    | cons first keys =>
      simp only [fill, mem_cons, exists_eq_or_imp, Finset.mem_insert, ih (Nat.le_of_succ_le_succ h)]
      rw [or_comm (a := key = first), or_or_or_comm]

lemma mem_fill (h : shard ∈ fill shards keys) :
    ∃ old ∈ shards, shard = old ∧ keys.length < shards.length ∨ ∃ key ∈ keys, shard = insert key old := by
  induction shards generalizing keys with
  | nil => contradiction
  | cons first shards ih =>
    cases keys with
    | nil => exact ⟨shard, h, .inl ⟨rfl, Nat.succ_pos _⟩⟩
    | cons key keys =>
      rcases mem_cons.mp h with rfl | h
      · exact ⟨first, mem_cons_self, .inr ⟨key, mem_cons_self, rfl⟩⟩
      · obtain ⟨old, hold, ⟨heq, hlt⟩ | ⟨key', hkey, heq⟩⟩ := ih h
        · exact ⟨old, mem_cons_of_mem _ hold, .inl ⟨heq, Nat.succ_lt_succ hlt⟩⟩
        · exact ⟨old, mem_cons_of_mem _ hold, .inr ⟨key', mem_cons_of_mem _ hkey, heq⟩⟩

lemma pairwise_fill (hlen : keys.length ≤ shards.length) (hd : shards.Pairwise Disjoint) (hnd : keys.Nodup)
    (hnew : ∀ key ∈ keys, ∀ shard ∈ shards, key ∉ shard) : (fill shards keys).Pairwise Disjoint := by
  induction shards generalizing keys with
  | nil => exact .nil
  | cons shard shards ih =>
    cases keys with
    | nil => exact hd
    | cons key keys =>
      obtain ⟨hf, hd⟩ := pairwise_cons.mp hd
      obtain ⟨hkey, hnd⟩ := nodup_cons.mp hnd
      have hlen := Nat.le_of_succ_le_succ hlen
      refine .cons (fun other hoth => ?_) (ih hlen hd hnd fun k hk t ht =>
        hnew k (mem_cons_of_mem _ hk) t (mem_cons_of_mem _ ht))
      rw [Finset.disjoint_right]
      intro k hk hmem
      rcases (exists_mem_fill hlen).mp ⟨other, hoth, hk⟩ with ⟨old, hold, hk⟩ | hk
      · rcases Finset.mem_insert.mp hmem with rfl | hmem
        · exact hnew k mem_cons_self old (mem_cons_of_mem _ hold) hk
        · exact Finset.disjoint_left.mp (hf old hold) hmem hk
      · rcases Finset.mem_insert.mp hmem with rfl | hmem
        · exact hkey hk
        · exact hnew k (mem_cons_of_mem _ hk) shard mem_cons_self hmem

structure Partitions (low high : ℕ) (shards : List (Finset Key)) (keys : List Key) : Prop where
  disjoint : shards.Pairwise Disjoint
  cover : ∀ key, key ∈ keys ↔ ∃ shard ∈ shards, key ∈ shard
  card : ∀ shard ∈ shards, low ≤ shard.card ∧ shard.card ≤ high

lemma partitions_replicate : Partitions 0 0 (replicate m ∅) [] := by
  refine ⟨pairwise_replicate.mpr (.inr disjoint_bot_left), ?_, ?_⟩ <;> simp +contextual [mem_replicate]

namespace Partitions

lemma fill (h : Partitions n n shards used) (hnd : (used ++ keys).Nodup) (hlen : keys.length ≤ shards.length) :
    Partitions (if keys.length = shards.length then n + 1 else n) (n + 1) (fill shards keys) (used ++ keys) := by
  obtain ⟨-, hk, hu⟩ := nodup_append'.mp hnd
  have hnew : ∀ key ∈ keys, ∀ shard ∈ shards, key ∉ shard := fun key hkey shard hs hmem =>
    hu ((h.cover key).mpr ⟨shard, hs, hmem⟩) hkey
  refine ⟨pairwise_fill hlen h.disjoint hk hnew, fun key => ?_, fun shard hs => ?_⟩
  · rw [mem_append, h.cover, exists_mem_fill hlen]
  · obtain ⟨old, hold, ⟨rfl, hlt⟩ | ⟨key, hkey, rfl⟩⟩ := mem_fill hs
    · have := h.card shard hold
      rw [if_neg hlt.ne]
      omega
    · have := h.card old hold
      rw [Finset.card_insert_of_notMem (hnew key hkey old hold)]
      split_ifs <;> omega

lemma fillRounds (rounds : ℕ) (h : Partitions n n shards used) (hnd : (used ++ keys).Nodup)
    (hlen : rounds * shards.length ≤ keys.length) :
    ∃ shards', fillRounds rounds shards keys = some (shards', keys.drop (rounds * shards.length)) ∧
      shards'.length = shards.length ∧
        Partitions (n + rounds) (n + rounds) shards' (used ++ keys.take (rounds * shards.length)) := by
  induction rounds generalizing n shards keys used with
  | zero => exact ⟨shards, by simp [Storage.fillRounds], rfl, by simpa using h⟩
  | succ rounds ih =>
    rw [Nat.succ_mul, Nat.add_comm (rounds * _)] at hlen ⊢
    have hr : (keys.take shards.length).length = shards.length := length_take_of_le (by omega)
    have hf := h.fill (hnd.sublist ((take_sublist _ _).append_left _)) hr.le
    rw [if_pos hr] at hf
    rw [← take_append_drop shards.length keys, ← append_assoc] at hnd
    obtain ⟨shards', hre, hlen', hp⟩ := ih hf hnd (by rw [length_fill, length_drop]; omega)
    rw [length_fill] at hre hlen' hp
    refine ⟨shards', ?_, hlen', ?_⟩
    · rw [Storage.fillRounds, fillRound_eq (by omega), ← drop_drop]
      exact hre
    · rwa [take_add, ← append_assoc, Nat.add_comm rounds, ← Nat.add_assoc]

end Partitions

lemma fillShards_partitions (hnd : keys.Nodup) (hm : 0 < m) :
    ∃ shards, fillShards keys.length m keys = some shards ∧
      Partitions (keys.length / m) (keys.length / m + 1) shards keys := by
  have hmul := Nat.div_mul_le_self keys.length m
  obtain ⟨shards, hr, hlen, hp⟩ :=
    (partitions_replicate (m := m)).fillRounds (keys.length / m) hnd (by simpa using hmul)
  rw [length_replicate] at hr hlen hp
  have hre : (keys.drop (keys.length / m * m)).length < shards.length := by
    rw [length_drop, hlen, ← Nat.mod_eq_sub_div_mul]
    exact Nat.mod_lt _ hm
  have hall := hp.fill (by simpa using hnd) hre.le
  rw [if_neg hre.ne, nil_append, take_append_drop, zero_add] at hall
  exact ⟨_, by rw [fillShards, hr]; exact fillRemainder_eq hre.le, hall⟩

namespace VerificationContext

variable {G : Type}

/-- The replicators that are proved in a verification are dealt to shards of nearly equal sizes. They fit into the 16
bits in which they are counted, since a drive has no more of them than it has ordered. -/
theorem verification_shards_partition (context : VerificationContext G) (drive : BcDriveEntry) (replicators : List Key)
    (g : G) (hordered : drive.replicators.card ≤ drive.replicatorCount.toNat)
    (hconfirmed : ∀ key ∈ replicators, key ∈ drive.replicators) (hnd : replicators.Nodup)
    (hsize : 2 ≤ context.shardSize) :
    ∃ shards g', context.makeShards replicators g = some (shards, g') ∧ shards.Pairwise Disjoint ∧
      (∀ key, key ∈ replicators ↔ ∃ shard ∈ shards, key ∈ shard) ∧
      (context.shardSize / 2 ≤ replicators.length → ∀ shard ∈ shards, context.shardSize / 2 ≤ shard.card) ∧
      ∀ shard ∈ shards, ∀ other ∈ shards, shard.card ≤ other.card + 1 := by
  have hlen : replicators.length < 2 ^ 16 := by
    have hsubset : replicators.toFinset ⊆ drive.replicators := fun key hkey => hconfirmed key (mem_toFinset.mp hkey)
    have hcard := (Finset.card_le_card hsubset).trans hordered
    rw [toFinset_card_of_nodup hnd] at hcard
    exact hcard.trans_lt drive.replicatorCount.toNat_lt
  have hpos : 0 < context.shardSize / 2 := by omega
  simp only [makeShards, Nat.mod_eq_of_lt hlen, if_neg hpos.ne']
  split_ifs with hfew
  · refine ⟨_, _, rfl, pairwise_singleton _ _, ?_, ?_, ?_⟩ <;> simp [toFinset_card_of_nodup hnd]
  · have hperm := context.rng.shuffle_perm replicators g
    obtain ⟨shards, hfill, h⟩ := fillShards_partitions (hperm.nodup_iff.mpr hnd)
      (Nat.div_pos (by omega : context.shardSize / 2 ≤ replicators.length) hpos)
    rw [hperm.length_eq] at hfill h
    refine ⟨shards, _, by rw [hfill]; rfl, h.disjoint, fun key => hperm.mem_iff.symm.trans (h.cover key),
      fun hle shard hshard => ?_,
      fun shard hshard other hother => (h.card shard hshard).2.trans (Nat.succ_le_succ (h.card other hother).1)⟩
    refine le_trans ?_ (h.card shard hshard).1
    rw [Nat.le_div_iff_mul_le (Nat.div_pos hle hpos)]
    exact Nat.mul_div_le _ _

theorem verification_shards_partition_five : ∃ shards g',
    makeShards { twoPicks with shardSize := 4 } [1, 2, 3, 4, 5] 0 = some (shards, g') ∧ shards.Pairwise Disjoint := by
  obtain ⟨shards, g', h, hdisj, -⟩ := verification_shards_partition { twoPicks with shardSize := 4 }
    { key := 1, replicators := {1, 2, 3, 4, 5}, replicatorCount :=
      5 } [1, 2, 3, 4, 5] 0 (by decide) (by simp) (by decide)
    (by decide)
  exact ⟨shards, g', h, hdisj⟩

end VerificationContext

end XpxChain.Storage
