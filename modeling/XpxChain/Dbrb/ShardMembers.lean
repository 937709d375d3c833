import XpxChain.Dbrb.Shard

/-! The processes on the two sides of a process in the tree of shards. -/

namespace XpxChain.Dbrb

open Library OrderedContainers Exceptions DbrbDoubleShard Finset

def viewMembers (views : ShardViews) : ViewData := views.toList.foldr (fun entry members => entry.2 ∪ members) ∅

variable {views : ShardViews} {key id : ProcessId}

lemma mem_viewMembers {q : ProcessId} :
    q ∈ viewMembers views ↔ ∃ (key : ProcessId) (view : ViewData), views[key]? = some view ∧ q ∈ view := by
  have hf : ∀ l : List (ProcessId × ViewData),
      q ∈ l.foldr (fun entry members => entry.2 ∪ members) ∅ ↔ ∃ entry ∈ l, q ∈ entry.2 := by
    intro l
    induction l with
    | nil => simp
    | cons entry l ih => simp [ih]
  rw [viewMembers, hf]
  constructor
  · rintro ⟨⟨key, view⟩, hmem, hq⟩
    exact ⟨key, view, Std.ExtTreeMap.mem_toList_iff_getElem?_eq_some.mp hmem, hq⟩
  · rintro ⟨key, view, hv, hq⟩
    exact ⟨⟨key, view⟩, Std.ExtTreeMap.mem_toList_iff_getElem?_eq_some.mpr hv, hq⟩

lemma subset_viewMembers {view : ViewData} (h : views[key]? = some view) : view ⊆ viewMembers views :=
  fun _ hq => mem_viewMembers.mpr ⟨key, view, h, hq⟩

lemma viewMembers_insertIfNew : viewMembers (views.insertIfNew id {id}) ⊆ insert id (viewMembers views) := by
  intro q hq
  obtain ⟨key, view, hv, hq⟩ := mem_viewMembers.mp hq
  rw [Std.ExtTreeMap.getElem?_insertIfNew] at hv
  split_ifs at hv
  · cases hv
    exact mem_insert.mpr (Or.inl (mem_singleton.mp hq))
  · exact mem_insert_of_mem (subset_viewMembers hv hq)

lemma viewMembers_addToView : viewMembers (DbrbShard.addToView views key id) ⊆ insert id (viewMembers views) := by
  intro q hq
  obtain ⟨k, view, hv, hq⟩ := mem_viewMembers.mp hq
  rw [DbrbShard.addToView, Std.ExtTreeMap.getElem?_alter] at hv
  split_ifs at hv
  · obtain ⟨old, hold, rfl⟩ := Option.map_eq_some_iff.mp hv
    rcases mem_insert.mp hq with rfl | hq
    · exact mem_insert_self _ _
    · exact mem_insert_of_mem (subset_viewMembers hold hq)
  · exact mem_insert_of_mem (subset_viewMembers hv hq)

@[simp] lemma viewMembers_empty : viewMembers ∅ = ∅ := rfl

namespace DbrbDoubleShard

def parentMembers (shard : DbrbDoubleShard) : ViewData := shard.parentView ∪ viewMembers shard.siblingViews

def childMembers (shard : DbrbDoubleShard) : ViewData := viewMembers shard.childViews

end DbrbDoubleShard

namespace DbrbShard

variable {b : Builder} {id : ProcessId}

lemma parentMembers_addSibling {i : ℕ} : (addSibling b i id).shard.parentMembers ⊆ insert id b.shard.parentMembers := by
  rw [parentMembers, parentMembers, ← union_insert]
  exact union_subset_union (erase_subset _ _) viewMembers_insertIfNew

variable {childCount index : ℕ} {this place place' : Place} {b' : Builder} {view : DbrbTreeView}

lemma addDescendant_sides (h : addDescendant childCount this (b, place) id = .ok (b', place')) :
    b'.shard.parentMembers ⊆ insert id b.shard.parentMembers ∧
        b'.shard.childMembers = b.shard.childMembers ∨ b'.shard.childMembers ⊆ insert id b.shard.childMembers ∧
        b'.shard.parentMembers = b.shard.parentMembers := by
  simp only [addDescendant] at h
  split_ifs at h
  · right
    split at h
    · obtain ⟨rfl, -⟩ := Prod.mk.inj (Except.ok.inj h)
      exact ⟨viewMembers_insertIfNew, rfl⟩
    · obtain ⟨rfl, -⟩ := Prod.mk.inj (Except.ok.inj h)
      exact ⟨viewMembers_addToView, rfl⟩
  · left
    split at h
    · contradiction
    · obtain ⟨rfl, -⟩ := Prod.mk.inj (Except.ok.inj h)
      refine ⟨?_, rfl⟩
      rw [parentMembers, parentMembers, ← union_insert]
      exact union_subset_union_right viewMembers_addToView
  · left
    obtain ⟨rfl, -⟩ := Prod.mk.inj (Except.ok.inj h)
    refine ⟨?_, rfl⟩
    rw [parentMembers, parentMembers, ← insert_union]

def Within (s : ViewData) (shard : DbrbDoubleShard) : Prop :=
  shard.parentMembers ⊆ s ∧ shard.childMembers ⊆ s

def Sides (seen : List ProcessId) (shard : DbrbDoubleShard) : Prop :=
  Within seen.toFinset shard ∧ (seen.Nodup → Disjoint shard.parentMembers shard.childMembers)

variable {seen : List ProcessId}

lemma addDescendant_keeps_sides (hb : Sides seen b.shard)
    (h : addDescendant childCount this (b, place) id = .ok (b', place')) : Sides (seen ++ [id]) b'.shard := by
  obtain ⟨⟨hpar, hch⟩, hd⟩ := hb
  have hg : insert id seen.toFinset = (seen ++ [id]).toFinset := by
    rw [List.toFinset_append, List.toFinset_cons, List.toFinset_nil, insert_empty_eq, union_comm, insert_eq]
  have hs : seen.toFinset ⊆ (seen ++ [id]).toFinset := hg ▸ subset_insert _ _
  have hnew : (seen ++ [id]).Nodup → seen.Nodup ∧ id ∉ seen.toFinset := by
    intro hn
    rw [List.nodup_append] at hn
    exact ⟨hn.1, fun hid => hn.2.2 id (List.mem_toFinset.mp hid) id List.mem_cons_self rfl⟩
  rcases addDescendant_sides h with ⟨hp, hc⟩ | ⟨hc, hp⟩
  · refine ⟨⟨hp.trans (hg ▸ insert_subset_insert id hpar), hc ▸ hch.trans hs⟩, ?_⟩
    intro hn
    obtain ⟨hn, hid⟩ := hnew hn
    refine disjoint_of_subset_left hp (hc ▸ disjoint_insert_left.mpr ⟨?_, hd hn⟩)
    exact fun hmem => hid (hch hmem)
  · refine ⟨⟨hp ▸ hpar.trans hs, hc.trans (hg ▸ insert_subset_insert id hch)⟩, ?_⟩
    intro hn
    obtain ⟨hn, hid⟩ := hnew hn
    refine disjoint_of_subset_right hc (hp ▸ disjoint_insert_right.mpr ⟨?_, hd hn⟩)
    exact fun hmem => hid (hpar hmem)

variable {s : ViewData}

lemma siblings_sides {siblings : List (ProcessId × ℕ)} (hs : ∀ sibling ∈ siblings, sibling.1 ∈ s)
    (hb : b.shard.parentMembers ⊆ s) :
    (siblings.foldl (fun b sibling => addSibling b sibling.2 sibling.1) b).shard.parentMembers ⊆ s ∧
      (siblings.foldl (fun b sibling => addSibling b sibling.2 sibling.1) b).shard.childMembers =
        b.shard.childMembers := by
  induction siblings generalizing b with
  | nil => exact ⟨hb, rfl⟩
  | cons sibling siblings ih =>
    have hr := fun other ho => hs other (List.mem_cons_of_mem sibling ho)
    have hid := hs sibling List.mem_cons_self
    exact ih hr (parentMembers_addSibling.trans (insert_subset hid hb))

def Place.Valid (childCount : ℕ) (place : Place) : Prop :=
  place.levelIndex < place.levelNodeCount ∧ (1 < place.levelNodeCount → childCount ∣ place.levelNodeCount)

lemma Place.Valid.next (hc : 0 < childCount) (h : place.Valid childCount) :
    (place.next childCount).Valid childCount := by
  unfold Place.next
  split
  next =>
    have hpos : 0 < place.levelNodeCount := by
      have := h.1
      omega
    exact ⟨Nat.mul_pos hpos hc, fun _ => Dvd.intro_left _ rfl⟩
  next hl => exact ⟨by simpa using hl, h.2⟩

lemma findProcess_spec (me : ProcessId) (view : DbrbTreeView)
    (hc : 0 < childCount) (hp : place.Valid childCount) : (findProcess me childCount place view).1 <+: view ∧
      ∀ this ∈ (findProcess me childCount place view).2, this.Valid childCount := by
  induction view generalizing place with
  | nil => simp [findProcess]
  | cons head view ih =>
    simp only [findProcess]
    split_ifs
    · refine ⟨List.nil_prefix, ?_⟩
      rintro this ⟨⟩
      exact hp
    · obtain ⟨hs, ht⟩ := ih (hp.next hc)
      exact ⟨List.cons_prefix_cons.mpr ⟨rfl, hs⟩, ht⟩

lemma mem_take_of_mem_siblingsOf {sibling : ProcessId × ℕ} (ht : this.Valid childCount) (hl : 1 < this.levelNodeCount)
    (h : sibling ∈ siblingsOf view childCount index this) :
    sibling.1 ∈ view.take (index - this.levelIndex + this.levelNodeCount) := by
  have hmem := List.fst_mem_of_mem_zipIdx (List.mem_of_mem_filter h)
  rw [List.take_drop] at hmem
  refine List.take_subset_take_left view ?_ (List.mem_of_mem_drop hmem)
  obtain ⟨shards, hs⟩ := ht.2 hl
  have hsh : this.levelIndex / childCount < shards := Nat.div_lt_of_lt_mul (hs ▸ ht.1)
  calc index - this.levelIndex + this.levelIndex / childCount * childCount + childCount
      = index - this.levelIndex + (this.levelIndex / childCount + 1) * childCount := by ring
    _ ≤ index - this.levelIndex + shards * childCount := by gcongr; exact hsh
    _ = index - this.levelIndex + this.levelNodeCount := by rw [hs, Nat.mul_comm]

lemma mem_take_of_mem_restOfLevel (h : id ∈ restOfLevel view childCount index this) :
    id ∈ view.take (index - this.levelIndex + this.levelNodeCount) := by
  simp only [restOfLevel] at h
  rcases Nat.le_total (index + (childCount - this.levelIndex % childCount))
    (index - this.levelIndex + this.levelNodeCount) with hle | hle
  · rw [List.take_drop, Nat.add_sub_cancel' hle] at h
    exact List.mem_of_mem_drop h
  · rw [Nat.sub_eq_zero_of_le hle] at h
    contradiction

lemma addLevel_sides {before : List ProcessId} (hbef : before <+: view) (ht : this.Valid childCount) :
    Sides (view.take (before.length - this.levelIndex + this.levelNodeCount))
      (addLevel view childCount before.length this { parentView := before.toFinset }).shard := by
  have hf : before.toFinset ∪ ∅ ⊆ (view.take (before.length - this.levelIndex + this.levelNodeCount)).toFinset := by
    intro id hid
    rw [union_empty, List.mem_toFinset, List.prefix_iff_eq_take.mp hbef] at hid
    refine List.mem_toFinset.mpr (List.take_subset_take_left view ?_ hid)
    have := ht.1
    omega
  unfold addLevel
  split
  next hl =>
    obtain ⟨hpar, hch⟩ := siblings_sides
      (b := { shard := { parentView := before.toFinset, parent := parentOf view childCount before.length this
                         neighbours := insert (parentOf view childCount before.length this) ∅ } })
      (fun _ hs => List.mem_toFinset.mpr (mem_take_of_mem_siblingsOf ht hl hs)) hf
    refine ⟨⟨?_, hch.subset.trans (empty_subset _)⟩, fun _ => ?_⟩
    · rw [parentMembers, union_right_comm]
      refine union_subset hpar ?_
      intro id hid
      exact List.mem_toFinset.mpr (mem_take_of_mem_restOfLevel (List.mem_toFinset.mp hid))
    · exact (disjoint_empty_right _).mono_right hch.le
  next => exact ⟨⟨hf, empty_subset _⟩, fun _ => disjoint_empty_right _⟩

lemma addDescendant_root (hc : 1 < childCount) (hb : b.shard.parentMembers = ∅ ∧ b.siblingIndexes = ∅)
    (h : addDescendant childCount ⟨0, 1⟩ (b, place) id = .ok (b', place')) :
    b'.shard.parentMembers = ∅ ∧ b'.siblingIndexes = ∅ := by
  obtain ⟨hp, hs⟩ := hb
  simp only [addDescendant, Nat.div_eq_of_lt hc, Nat.mul_zero, Nat.zero_div, if_true, hs] at h
  split_ifs at h
  · split at h
    · obtain ⟨rfl, -⟩ := Prod.mk.inj (Except.ok.inj h)
      exact ⟨hp, hs⟩
    · obtain ⟨rfl, -⟩ := Prod.mk.inj (Except.ok.inj h)
      exact ⟨hp, rfl⟩
  · simp at h

end DbrbShard

open DbrbShard

variable {view : DbrbTreeView} {me : ProcessId} {shardSize : ℕ} {shard : DbrbDoubleShard}

theorem createDbrbShard_sides (h : createDbrbShard view me shardSize = .ok shard) : Sides view shard := by
  have hemp : Sides view {} := ⟨⟨empty_subset _, empty_subset _⟩,
    fun _ => disjoint_empty_left _⟩
  simp only [createDbrbShard] at h
  split at h
  next => contradiction
  next hsz =>
    have hc : 0 < shardSize - 1 := by
      rw [minShardSize] at hsz
      omega
    have hr : (⟨0, 1⟩ : Place).Valid (shardSize - 1) := ⟨Nat.zero_lt_one, fun h => absurd h (lt_irrefl 1)⟩
    obtain ⟨hbef, ht⟩ := findProcess_spec me view hc hr
    split at h
    next =>
      cases h
      exact hemp
    next =>
      split at h
      next before hf =>
        cases h
        rw [hf] at hbef
        refine ⟨⟨?_, empty_subset _⟩, fun _ => disjoint_empty_right _⟩
        intro id hid
        rw [parentMembers, viewMembers_empty, union_empty, List.mem_toFinset] at hid
        exact List.mem_toFinset.mpr (hbef.subset hid)
      next before this hf =>
        rw [hf] at hbef ht
        obtain ⟨⟨b, place⟩, hb, h⟩ := bind_eq_ok.mp h
        cases h
        have hl := addLevel_sides hbef (ht this rfl)
        have hsi := foldlM_invariant (fun past (b : Builder × Place) =>
          Sides (view.take (before.length - this.levelIndex + this.levelNodeCount) ++ past) b.1.shard) hb
          (by simpa using hl) (by
            rintro past id rest ⟨b, place⟩ ⟨b', place'⟩ - hs hadd
            rw [← List.append_assoc]
            exact addDescendant_keeps_sides hs hadd)
        rw [List.take_append_drop] at hsi
        exact hsi

lemma createDbrbShard_nil (h : createDbrbShard [] me shardSize = .ok shard) : shard = {} := by
  unfold createDbrbShard at h
  split at h
  next => contradiction
  next => exact (Except.ok.inj h).symm

theorem createDbrbShard_root (hv : view[0]? = some me) (h : createDbrbShard view me shardSize = .ok shard) :
    shard.parentMembers = ∅ := by
  obtain ⟨rest, rfl⟩ : ∃ rest, view = me :: rest := by
    cases view with
    | nil => simp at hv
    | cons head rest => exact ⟨rest, by simpa using hv⟩
  unfold createDbrbShard at h
  split at h
  next => contradiction
  next hsz =>
    have hc : 1 < shardSize - 1 := by
      rw [minShardSize] at hsz
      omega
    simp only [List.cons_ne_nil, if_false, findProcess, if_true] at h
    obtain ⟨⟨b, place⟩, hb, h⟩ := bind_eq_ok.mp h
    cases h
    refine (foldlM_invariant (fun _ b => b.1.shard.parentMembers = ∅ ∧ b.1.siblingIndexes = ∅) hb ⟨rfl, rfl⟩ ?_).1
    rintro past id rest ⟨b, place⟩ ⟨b', place'⟩ - hr hadd
    exact addDescendant_root hc hr hadd

end XpxChain.Dbrb
