import XpxChain.Dbrb.ShardMembers
import XpxChain.Library.LevelOrder

/-! The builder of shards follows the tree that the view lists. -/

namespace XpxChain.Dbrb

open Library OrderedContainers Exceptions LevelOrder Std.ExtTreeMap Std.LawfulEqCmp Finset List

def InSubtree (childCount : ℕ) (tree : DbrbTreeView) (root q : ProcessId) : Prop :=
  ∃ j, tree[j]? = some q ∧ Descends childCount (tree.idxOf root) j

namespace DbrbShard

def Place.ofIndex (childCount i : ℕ) : Place := ⟨(position childCount i).1, (position childCount i).2⟩

variable {childCount : ℕ} {me : ProcessId} {view : DbrbTreeView} {this : Place}

lemma Place.next_ofIndex (hc : 0 < childCount) (i : ℕ) :
    (Place.ofIndex childCount i).next childCount = Place.ofIndex childCount (i + 1) := by
  simp only [Place.next, Place.ofIndex, position_succ hc, nextPosition]
  by_cases hl : (position childCount i).2 ≤ (position childCount i).1 + 1
  · simp only [if_pos hl]
    exact if_pos hl
  · simp only [if_neg hl]
    exact if_neg hl

lemma Place.ofIndex_zero (childCount : ℕ) : Place.ofIndex childCount 0 = ⟨0, 1⟩ := by
  rw [Place.ofIndex, position_zero]

variable {before : List ProcessId}

lemma findProcess_none {place : Place} (h : findProcess me childCount place view = (before, none)) : me ∉ view := by
  induction view generalizing place before with
  | nil => simp
  | cons id view ih =>
    simp only [findProcess] at h
    split_ifs at h with hid
    · simp at h
    · have hr := ih (Prod.ext rfl (Prod.mk.inj h).2)
      simp [hr, Ne.symm hid]

lemma findProcess_found {i : ℕ} (hc : 0 < childCount)
    (h : findProcess me childCount (Place.ofIndex childCount i) view = (before, some this)) :
    before.length = view.idxOf me ∧ me ∈ view ∧ this = Place.ofIndex childCount (i + before.length) := by
  induction view generalizing i before with
  | nil => simp [findProcess] at h
  | cons id view ih =>
    simp only [findProcess] at h
    split_ifs at h with hid
    · obtain ⟨rfl, ht⟩ := Prod.mk.inj h
      refine ⟨by simp [hid], by simp [hid], (Option.some.inj ht).symm⟩
    · rw [Place.next_ofIndex hc] at h
      obtain ⟨rfl, ht⟩ := Prod.mk.inj h
      obtain ⟨hlen, hmem, hp⟩ := ih (Prod.ext rfl ht)
      refine ⟨by simp [idxOf_cons_ne _ hid, hlen], mem_cons_of_mem _ hmem, ?_⟩
      rw [hp, length_cons, Nat.add_right_comm, Nat.add_assoc]

structure Keyed (shard : DbrbDoubleShard) : Prop where
  keyed : ∀ (key : ProcessId) (members : ViewData), shard.childViews[key]? = some members → key ∈ members
  children : ∀ q ∈ shard.children, q ∈ shard.childViews
  siblings : ∀ q ∈ shard.siblings, q ∈ shard.siblingViews
  neighbours : shard.neighbours ⊆ insert shard.parent (shard.siblings ∪ shard.children)

structure Consistent (b : Builder) : Prop extends Keyed b.shard where
  indexed : ∀ (i : ℕ) (key : ProcessId), b.childIndexes[i]? = some key → key ∈ b.shard.childViews

section

variable {b b' : Builder} {place place' : Place} {id : ProcessId}

lemma Consistent.addChild (hb : Consistent b) (i : ℕ) : Consistent (addChild b i id) := by
  refine ⟨⟨?keyed, ?children, hb.siblings, ?neighbours⟩, ?indexed⟩
  case keyed =>
    intro key members h
    simp only [DbrbShard.addChild, getElem?_insertIfNew] at h
    split_ifs at h with hc
    · cases h
      simp [eq_of_compare hc.1]
    · exact hb.keyed key members h
  case indexed =>
    intro j key h
    simp only [DbrbShard.addChild, getElem?_insertIfNew] at h ⊢
    split_ifs at h
    · cases h
      simp
    · simp [hb.indexed j key h]
  case children =>
    intro q hq
    rcases Finset.mem_insert.mp hq with rfl | hq
    · simp [DbrbShard.addChild]
    · simp [DbrbShard.addChild, hb.children q hq]
  case neighbours =>
    intro q hq
    rcases Finset.mem_insert.mp hq with rfl | hq
    · simp [DbrbShard.addChild]
    · have := hb.neighbours hq
      simp only [Finset.mem_insert, Finset.mem_union] at this
      simp only [DbrbShard.addChild, Finset.mem_insert, Finset.mem_union]
      tauto

variable {views : ShardViews} {key : ProcessId} {siblings : List (ProcessId × ℕ)}

lemma mem_addToView {q : ProcessId} (hq : q ∈ views) : q ∈ addToView views key id := by
  rw [addToView, mem_alter]
  split_ifs with hc
  · rw [Option.isSome_map, eq_of_compare hc]
    exact mem_iff_isSome_getElem?.mp hq
  · exact hq

lemma Consistent.addToChild (hb : Consistent b) (key : ProcessId) :
    Consistent { b with shard := { b.shard with childViews := addToView b.shard.childViews key id } } := by
  refine ⟨⟨?keyed, fun q hq => mem_addToView (hb.children q hq), hb.siblings, hb.neighbours⟩,
    fun i k h => mem_addToView (hb.indexed i k h)⟩
  case keyed =>
    intro k members h
    rw [addToView, getElem?_alter] at h
    split_ifs at h with hc
    · obtain rfl := eq_of_compare hc
      obtain ⟨old, hold, rfl⟩ := Option.map_eq_some_iff.mp h
      exact mem_insert_of_mem (hb.keyed _ old hold)
    · exact hb.keyed k members h

lemma Consistent.addToSibling (hb : Consistent b) (key : ProcessId) :
    Consistent { b with shard := { b.shard with siblingViews := addToView b.shard.siblingViews key id } } :=
  { hb with siblings := fun q hq => mem_addToView (hb.siblings q hq) }

lemma childMembers_addChild (hb : Consistent b) (i : ℕ) :
    (DbrbShard.addChild b i id).shard.childMembers = insert id b.shard.childMembers := by
  refine Finset.Subset.antisymm viewMembers_insertIfNew (insert_subset ?_ ?_)
  · have hc := (hb.addChild i).children id (mem_insert_self _ _)
    obtain ⟨members, hm⟩ := Option.isSome_iff_exists.mp (mem_iff_isSome_getElem?.mp hc)
    exact subset_viewMembers hm ((hb.addChild i).keyed id members hm)
  · intro q hq
    obtain ⟨key, members, hm, hq⟩ := mem_viewMembers.mp hq
    refine mem_viewMembers.mpr ⟨key, members, ?_, hq⟩
    rw [DbrbShard.addChild, getElem?_insertIfNew, if_neg]
    · exact hm
    · rintro ⟨hc, hn⟩
      obtain rfl := eq_of_compare hc
      exact hn (mem_iff_isSome_getElem?.mpr (by simp [hm]))

lemma viewMembers_addToView_of_mem (hkey : key ∈ views) :
    viewMembers (addToView views key id) = insert id (viewMembers views) := by
  refine Finset.Subset.antisymm viewMembers_addToView (insert_subset ?_ ?_)
  · obtain ⟨members, hm⟩ := Option.isSome_iff_exists.mp (mem_iff_isSome_getElem?.mp hkey)
    refine mem_viewMembers.mpr ⟨key, insert id members, ?_, mem_insert_self _ _⟩
    simp [addToView, hm]
  · intro q hq
    obtain ⟨k, members, hm, hq⟩ := mem_viewMembers.mp hq
    by_cases hk : compare key k = .eq
    · obtain rfl := eq_of_compare hk
      refine mem_viewMembers.mpr ⟨key, insert id members, ?_, mem_insert_of_mem hq⟩
      simp [addToView, hm]
    · refine mem_viewMembers.mpr ⟨k, members, ?_, hq⟩
      rw [addToView, getElem?_alter, if_neg hk, hm]

/-- The test by which the source recognises a place below this one. -/
def Below (childCount : ℕ) (this place : Place) : Prop :=
  place.levelIndex * (this.levelNodeCount / childCount) / place.levelNodeCount = this.levelIndex / childCount ∧
    place.levelIndex * this.levelNodeCount / place.levelNodeCount = this.levelIndex

lemma addDescendant_children (hb : Consistent b) (h : addDescendant childCount this (b, place) id = .ok (b', place')) :
    Consistent b' ∧ place' = place.next childCount ∧ b'.shard.parent = b.shard.parent ∧
      (Below childCount this (place.next childCount) →
        b'.shard.childMembers = insert id b.shard.childMembers) ∧
      (¬ Below childCount this (place.next childCount) → b'.shard.childMembers = b.shard.childMembers) := by
  simp only [addDescendant] at h
  split_ifs at h with hpar ht
  · have hbe : Below childCount this (place.next childCount) := ⟨hpar, ht⟩
    split at h
    next hno =>
      obtain ⟨rfl, rfl⟩ := Prod.mk.inj (Except.ok.inj h)
      exact ⟨hb.addChild _, rfl, rfl, fun _ => childMembers_addChild hb _, fun hn => absurd hbe hn⟩
    next key hkey =>
      obtain ⟨rfl, rfl⟩ := Prod.mk.inj (Except.ok.inj h)
      exact ⟨hb.addToChild key, rfl, rfl, fun _ => viewMembers_addToView_of_mem (hb.indexed _ key hkey),
        fun hn => absurd hbe hn⟩
  · have hbe : ¬ Below childCount this (place.next childCount) := fun hn => ht hn.2
    split at h
    next => contradiction
    next key hkey =>
      obtain ⟨rfl, rfl⟩ := Prod.mk.inj (Except.ok.inj h)
      exact ⟨hb.addToSibling key, rfl, rfl, fun hn => absurd hn hbe, fun _ => rfl⟩
  · have hbe : ¬ Below childCount this (place.next childCount) := fun hn => hpar hn.1
    obtain ⟨rfl, rfl⟩ := Prod.mk.inj (Except.ok.inj h)
    exact ⟨{ hb with }, rfl, rfl, fun hn => absurd hn hbe, fun _ => rfl⟩

lemma below_iff_descends {i j : ℕ} (hc : 1 < childCount) (hij : i ≤ j) :
    Below childCount (Place.ofIndex childCount i) (Place.ofIndex childCount j) ↔ Descends childCount i j := by
  constructor
  · intro h
    exact (descends_iff_scaled hc hij).mpr h.2
  · intro h
    exact ⟨h.scaled_parent hc, (descends_iff_scaled hc hij).mp h⟩

lemma Consistent.addSibling (hb : Consistent b) (i : ℕ) : Consistent (addSibling b i id) := by
  refine { hb with siblings := ?_, neighbours := ?_ }
  · intro q hq
    rcases Finset.mem_insert.mp hq with rfl | hq
    · simp [DbrbShard.addSibling]
    · simp [DbrbShard.addSibling, hb.siblings q hq]
  · intro q hq
    rcases Finset.mem_insert.mp hq with rfl | hq
    · simp [DbrbShard.addSibling]
    · have := hb.neighbours hq
      simp only [Finset.mem_insert, Finset.mem_union] at this
      simp only [DbrbShard.addSibling, Finset.mem_insert, Finset.mem_union]
      tauto

lemma Consistent.siblings_foldl (hb : Consistent b) :
    Consistent (siblings.foldl (fun b sibling => DbrbShard.addSibling b sibling.2 sibling.1) b) := by
  induction siblings generalizing b with
  | nil => exact hb
  | cons sibling siblings ih => exact ih (hb.addSibling sibling.2)

lemma childMembers_siblings_foldl :
    (siblings.foldl (fun b sibling => DbrbShard.addSibling b sibling.2 sibling.1) b).shard.childMembers =
      b.shard.childMembers := by
  induction siblings generalizing b with
  | nil => rfl
  | cons sibling siblings ih => exact ih

end

lemma addLevel_consistent {index : ℕ} {parentView : ViewData} :
    Consistent (addLevel view childCount index this { parentView }) ∧
      (addLevel view childCount index this { parentView }).shard.childMembers = ∅ := by
  have hemp : ∀ parent neighbours, neighbours ⊆ {parent} →
      Consistent { shard := { parentView, parent, neighbours } } := by
    intro parent neighbours hn
    refine ⟨⟨by simp, by simp, by simp, ?_⟩, by simp⟩
    simpa using hn
  unfold addLevel
  split
  next =>
    refine ⟨{ (hemp _ _ ?_).siblings_foldl with }, childMembers_siblings_foldl⟩
    simp
  next => exact ⟨hemp _ _ (empty_subset _), rfl⟩

end DbrbShard

end XpxChain.Dbrb
