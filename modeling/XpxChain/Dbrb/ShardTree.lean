import XpxChain.Dbrb.ShardBuilder

/-! The shards of a process as parts of the tree that the view lists level by level. -/

namespace XpxChain.Dbrb

open Library OrderedContainers Exceptions LevelOrder Std.ExtTreeMap Std.LawfulEqCmp Finset List

open DbrbShard

variable {view : DbrbTreeView} {me : ProcessId} {shardSize : ℕ} {shard : DbrbDoubleShard}

lemma createDbrbShard_cases (h : createDbrbShard view me shardSize = .ok shard) : 2 < shardSize ∧
      (me ∉ view ∧ (∃ parentView, shard = { parentView }) ∨
        ∃ b place parentView, shard = { b.shard with initialized := true } ∧ me ∈ view ∧
          (view.drop (levelEnd (shardSize - 1) (view.idxOf me))).foldlM
            (addDescendant (shardSize - 1) (Place.ofIndex (shardSize - 1) (view.idxOf me)))
            (addLevel view (shardSize - 1) (view.idxOf me) (Place.ofIndex (shardSize - 1) (view.idxOf me))
                { parentView },
              ⟨(position (shardSize - 1) (view.idxOf me)).2 - 1, (position (shardSize - 1) (view.idxOf me)).2⟩) =
            .ok (b, place)) := by
  simp only [createDbrbShard] at h
  split at h
  next => contradiction
  next hsz =>
    have hsz : 2 < shardSize := by
      rw [DbrbDoubleShard.minShardSize] at hsz
      omega
    refine ⟨hsz, ?_⟩
    split at h
    next hnil =>
      cases h
      exact Or.inl ⟨by simp [hnil], ∅, rfl⟩
    next =>
      rw [← Place.ofIndex_zero (shardSize - 1)] at h
      split at h
      next before hf =>
        cases h
        exact Or.inl ⟨findProcess_none hf, _, rfl⟩
      next before this hf =>
        obtain ⟨hlen, hmem, rfl⟩ := findProcess_found (by omega) hf
        obtain ⟨⟨b, place⟩, hb, h⟩ := bind_eq_ok.mp h
        rw [Nat.zero_add, hlen] at hb
        exact Or.inr ⟨b, place, _, (Except.ok.inj h).symm, hmem, hb⟩

structure Descended (childCount index start : ℕ) (past : List ProcessId) (b : Builder) (place : Place) : Prop where
  consistent : Consistent b
  place : place = Place.ofIndex childCount (start - 1 + past.length)
  childMembers : ∀ q, q ∈ b.shard.childMembers ↔
    ∃ t, past[t]? = some q ∧ Descends childCount index (start + t)

variable {childCount : ℕ} {b b' : Builder} {place place' : Place} {id q : ProcessId}

lemma Descended.step {index start : ℕ} {past : List ProcessId}
    (hc : 1 < childCount) (hs : index < start) (hd : Descended childCount index start past b place)
    (h : addDescendant childCount (Place.ofIndex childCount index) (b, place) id = .ok (b', place')) :
    Descended childCount index start (past ++ [id]) b' place' := by
  obtain ⟨hb, hp, -, hbe, hnot⟩ := addDescendant_children hd.consistent h
  rw [hd.place, Place.next_ofIndex (by omega),
    (by omega : start - 1 + past.length + 1 = start + past.length)] at hp hbe hnot
  rw [below_iff_descends hc (by omega)] at hbe hnot
  refine ⟨hb, by rw [hp, List.length_append, List.length_singleton]; congr 1; omega, fun q => ?_⟩
  have hsn : (∃ t, (past ++ [id])[t]? = some q ∧ Descends childCount index (start + t)) ↔
      q ∈ b.shard.childMembers ∨ q = id ∧ Descends childCount index (start + past.length) := by
    rw [hd.childMembers]
    constructor
    · rintro ⟨t, ht, hde⟩
      rcases Nat.lt_trichotomy t past.length with hlt | rfl | hlt
      · exact Or.inl ⟨t, by rwa [List.getElem?_append_left hlt] at ht, hde⟩
      · exact Or.inr ⟨by simpa [eq_comm] using ht, hde⟩
      · rw [List.getElem?_eq_none (by simpa using hlt)] at ht
        contradiction
    · rintro (⟨t, ht, hde⟩ | ⟨rfl, hde⟩)
      · have hlt := (List.getElem?_eq_some_iff.mp ht).1
        exact ⟨t, by rwa [List.getElem?_append_left hlt], hde⟩
      · exact ⟨past.length, by simp, hde⟩
  rw [hsn]
  by_cases hde : Descends childCount index (start + past.length)
  · rw [hbe hde, Finset.mem_insert]
    tauto
  · rw [hnot hde]
    tauto

lemma createDbrbShard_descended (hmem : me ∈ view) (h : createDbrbShard view me shardSize = .ok shard) :
    2 < shardSize ∧ ∃ b place, shard = { b.shard with initialized := true } ∧
      Descended (shardSize - 1) (view.idxOf me) (levelEnd (shardSize - 1) (view.idxOf me))
        (view.drop (levelEnd (shardSize - 1) (view.idxOf me))) b place := by
  obtain ⟨hsz, ⟨hnot, -⟩ | ⟨b, place, parentView, rfl, -, hb⟩⟩ := createDbrbShard_cases h
  · exact absurd hmem hnot
  · have hpos : 0 < shardSize - 1 := by omega
    refine ⟨hsz, b, place, rfl, foldlM_invariant
      (fun past (s : Builder × Place) => Descended (shardSize - 1) _ _ past s.1 s.2) hb ?_ ?_⟩
    · refine ⟨addLevel_consistent.1, ?_, by simp [addLevel_consistent.2]⟩
      simp [Place.ofIndex, position_levelEnd_sub_one hpos]
    · rintro past id rest ⟨b, place⟩ ⟨b', place'⟩ - hd hadd
      exact hd.step (by omega) (lt_levelEnd hpos _) hadd

theorem createDbrbShard_keyed (h : createDbrbShard view me shardSize = .ok shard) : Keyed shard := by
  by_cases hmem : me ∈ view
  · obtain ⟨-, b, place, rfl, hd⟩ := createDbrbShard_descended hmem h
    exact { hd.consistent.toKeyed with }
  · obtain ⟨-, ⟨-, parentView, rfl⟩ | ⟨-, -, -, -, hin, -⟩⟩ := createDbrbShard_cases h
    · exact ⟨by simp, by simp, by simp, by simp⟩
    · exact absurd hin hmem

theorem mem_childMembers_iff (h : createDbrbShard view me shardSize = .ok shard) : q ∈ shard.childMembers ↔
      ∃ j, view[j]? = some q ∧ view.idxOf me < j ∧ Descends (shardSize - 1) (view.idxOf me) j := by
  by_cases hmem : me ∈ view
  · obtain ⟨hsz, b, place, rfl, hd⟩ := createDbrbShard_descended hmem h
    refine (hd.childMembers q).trans ?_
    constructor
    · rintro ⟨t, ht, hde⟩
      rw [getElem?_drop] at ht
      have hlt := lt_levelEnd (by omega : 0 < shardSize - 1) (view.idxOf me)
      exact ⟨_, ht, by omega, hde⟩
    · rintro ⟨j, hj, hlt, hde⟩
      obtain ⟨t, rfl⟩ := Nat.exists_eq_add_of_le (hde.levelEnd_le (by omega) hlt.ne)
      exact ⟨t, by rwa [getElem?_drop], hde⟩
  · obtain ⟨-, ⟨-, parentView, rfl⟩ | ⟨-, -, -, -, hin, -⟩⟩ := createDbrbShard_cases h
    · rw [idxOf_eq_length hmem]
      constructor
      · intro hq
        exact absurd hq (notMem_empty q)
      · rintro ⟨j, hj, hlt, -⟩
        rw [getElem?_eq_none hlt.le] at hj
        contradiction
    · exact absurd hin hmem

lemma addDescendant_neighbours {this : Place} (h : addDescendant childCount this (b, place) id = .ok (b', place'))
    (hb : b.shard.parent = 0 ∧ b.shard.siblings = ∅ ∧ b.shard.neighbours ⊆ b.shard.children) :
    b'.shard.parent = 0 ∧ b'.shard.siblings = ∅ ∧ b'.shard.neighbours ⊆ b'.shard.children := by
  simp only [addDescendant] at h
  split_ifs at h
  · split at h
    · obtain ⟨rfl, -⟩ := Prod.mk.inj (Except.ok.inj h)
      exact ⟨hb.1, hb.2.1, insert_subset_insert id hb.2.2⟩
    · obtain ⟨rfl, -⟩ := Prod.mk.inj (Except.ok.inj h)
      exact hb
  · split at h
    · contradiction
    · obtain ⟨rfl, -⟩ := Prod.mk.inj (Except.ok.inj h)
      exact hb
  · obtain ⟨rfl, -⟩ := Prod.mk.inj (Except.ok.inj h)
    exact hb

theorem createDbrbShard_root_neighbours (hv : view[0]? = some me) (h : createDbrbShard view me shardSize = .ok shard) :
    shard.parent = 0 ∧ shard.siblings = ∅ ∧ shard.neighbours ⊆ shard.children := by
  have hidx : view.idxOf me = 0 := by
    cases view with
    | nil => simp at hv
    | cons head view => simp [Option.some.inj hv]
  obtain ⟨-, ⟨-, parentView, rfl⟩ | ⟨b, place, parentView, rfl, -, hb⟩⟩ := createDbrbShard_cases h
  · exact ⟨rfl, rfl, Finset.Subset.refl _⟩
  · refine foldlM_invariant (fun _ (s : Builder × Place) =>
      s.1.shard.parent = 0 ∧ s.1.shard.siblings = ∅ ∧ s.1.shard.neighbours ⊆ s.1.shard.children) hb ?_ ?_
    · simp [hidx, Place.ofIndex_zero, addLevel]
    · rintro past id rest ⟨b, place⟩ ⟨b', place'⟩ - hs hadd
      exact addDescendant_neighbours hadd hs

lemma inSubtree_of_mem_childMembers (h : createDbrbShard view me shardSize = .ok shard)
    (hq : q ∈ shard.childMembers) : InSubtree (shardSize - 1) view me q := by
  obtain ⟨j, hj, -, hd⟩ := (mem_childMembers_iff h).mp hq
  exact ⟨j, hj, hd⟩

lemma not_inSubtree_of_mem_parentMembers (h : createDbrbShard view me shardSize = .ok shard)
    (hdi : Disjoint shard.parentMembers shard.childMembers) (hq : q ∈ shard.parentMembers) (hne : q ≠ me) :
    ¬ InSubtree (shardSize - 1) view me q := by
  rintro ⟨j, hj, hd⟩
  rcases hd.le.lt_or_eq with hlt | rfl
  · exact disjoint_left.mp hdi hq ((mem_childMembers_iff h).mpr ⟨j, hj, hlt, hd⟩)
  · exact hne (Option.some.inj (hj.symm.trans (List.getElem?_idxOf (List.idxOf_lt_length_iff.mp
      (List.getElem?_eq_some_iff.mp hj).1))))

variable {other : DbrbDoubleShard}

lemma childMembers_subset (h : createDbrbShard view me shardSize = .ok shard)
    (ho : createDbrbShard view q shardSize = .ok other) (hd : Descends (shardSize - 1) (view.idxOf me) (view.idxOf q)) :
    other.childMembers ⊆ shard.childMembers := by
  intro r hr
  obtain ⟨j, hj, hlt, hq⟩ := (mem_childMembers_iff ho).mp hr
  exact (mem_childMembers_iff h).mpr ⟨j, hj, hd.le.trans_lt hlt, hd.trans hq⟩

/-- Two processes with a common descendant are one below the other. -/
theorem shard_subtrees_nested (hn : view.Nodup) (h : createDbrbShard view me shardSize = .ok shard)
    (ho : createDbrbShard view q shardSize = .ok other) : Disjoint shard.childMembers other.childMembers ∨
      shard.childMembers ⊆ other.childMembers ∨ other.childMembers ⊆ shard.childMembers := by
  refine or_iff_not_imp_left.mpr fun hd => ?_
  obtain ⟨r, hr, hr'⟩ := not_disjoint_iff.mp hd
  obtain ⟨j, hj, -, hp⟩ := (mem_childMembers_iff h).mp hr
  obtain ⟨j', hj', -, hq⟩ := (mem_childMembers_iff ho).mp hr'
  obtain rfl := (List.getElem?_inj (List.getElem?_eq_some_iff.mp hj).1 hn).mp (hj.trans hj'.symm)
  exact (hq.comparable hp).imp (childMembers_subset ho h) (childMembers_subset h ho)

/-- The first process has the other six below it, and the second one has two of them. -/
theorem shard_subtrees_nested_seven : ∃ s t, createDbrbShard [1, 2, 3, 4, 5, 6, 7] 1 3 = .ok s ∧
    createDbrbShard [1, 2, 3, 4, 5, 6, 7] 2 3 = .ok t ∧ s.childMembers.card = 6 ∧ t.childMembers.card = 2 ∧
    (Disjoint s.childMembers t.childMembers ∨ s.childMembers ⊆ t.childMembers ∨ t.childMembers ⊆ s.childMembers) :=
  ⟨_, _, rfl, rfl, by decide +kernel, by decide +kernel,
    @shard_subtrees_nested [1, 2, 3, 4, 5, 6, 7] 1 3 _ 2 _ (by decide) rfl rfl⟩

end XpxChain.Dbrb
