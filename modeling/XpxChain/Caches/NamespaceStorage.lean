import XpxChain.Caches.NamespaceSerializer

/-! Histories that the namespace cache reaches are loaded as they were saved, if no registration has a grace period. -/

namespace XpxChain.Caches

open Std Library OrderedContainers Exceptions BinaryFormats RootNamespaceHistory ExtTreeMap

variable {rootOf : NamespaceId → NamespaceId} {history history' : RootNamespaceHistory} {back : RootNamespace}
  {rest : List RootNamespace} {rootId id parentId : NamespaceId} {path : NamespacePath} {children : NamespaceChildren}

section

lemma StorableChildren.insert (h : StorableChildren rootId children) {child : NamespaceChild}
    (hfew : (children.insert id child).size < 2 ^ 32) (hid : id ≠ 0 ∧ id ≠ rootId)
    (hp : IsChildPath rootId children id child.1) (hk : ∀ old, children[id]? = some old → old.1 = child.1) :
    StorableChildren rootId (children.insert id child) := by
  have hm : ∀ {c path}, IsChildPath rootId children c path → IsChildPath rootId (children.insert id child) c path := by
    rintro c path (hd | ⟨x, hb, hx, hr | ⟨parent, hpar, hp⟩⟩)
    · exact .inl hd
    · exact .inr ⟨x, hb, hx, .inl hr⟩
    · by_cases hid : id = x
      · subst hid
        exact .inr ⟨id, hb, hx, .inr ⟨child, getElem?_insert_self, (hk parent hpar).symm.trans hp⟩⟩
      · exact .inr ⟨x, hb, hx, .inr ⟨parent, by rwa [getElem?_insert, if_neg (by simpa using hid)], hp⟩⟩
  refine ⟨hfew, ?_, ?_⟩
  · intro c hc
    rw [mem_insert] at hc
    rcases hc with hc | hc
    · exact Std.compare_eq_iff_eq.mp hc ▸ hid
    · exact h.ids c hc
  · exact forall_insert (fun c other _ hoth => hm (h.paths c other hoth)) (hm hp)

namespace RootNamespaceHistory

lemma Storable.of_subset (h : history.Storable) (roots : List RootNamespace) (hr : roots ⊆ history.roots) :
    Storable { history with roots } :=
  ⟨fun root hro => h.lifetimes root (hr hro), fun root hro => h.children root (hr hro)⟩

lemma Storable.cons (h : history.Storable) (root : RootNamespace) (hl : root.lifetime.EndsWithoutGrace)
    (hchs : StorableChildren history.id root.children) : Storable { history with roots := root :: history.roots } :=
  ⟨List.forall_mem_cons.mpr ⟨hl, h.lifetimes⟩, List.forall_mem_cons.mpr ⟨hchs, h.children⟩⟩

lemma Storable.pushBack (h : history.Storable) {owner : Key} {lifetime : NamespaceLifetime} {setAliasOnRenew : Bool}
    (hl : lifetime.EndsWithoutGrace) : (history.pushBack owner lifetime setAliasOnRenew).Storable := by
  have hemp : StorableChildren history.id ∅ := ⟨by simp, by simp, by simp⟩
  rcases hr : history.roots with _ | ⟨back, rest⟩
  · rw [RootNamespaceHistory.pushBack, ← hr]
    exact hr ▸ h.cons { owner, lifetime } hl hemp
  · by_cases ho : back.owner = owner
    · rw [pushBack_of_owner hr ho]
      exact h.cons _ hl (h.children back (hr ▸ List.mem_cons_self))
    · rw [pushBack_of_other hr ho]
      exact h.cons _ hl hemp

lemma Storable.modifyChildren (h : history.Storable) (hs : history.Sound rootOf) (hr : history.roots = back :: rest)
    {change : NamespaceChildren → NamespaceChildren}
    (hchg : StorableChildren history.id (change back.children)) : (history.modifyChildren change).Storable := by
  constructor
  · intro root hro
    have hmem : root.lifetime ∈ (history.modifyChildren change).roots.map (·.lifetime) := List.mem_map_of_mem hro
    rw [map_modifyChildren history change (·.lifetime) fun _ => rfl] at hmem
    obtain ⟨old, hold, heq⟩ := List.mem_map.mp hmem
    exact heq ▸ h.lifetimes old hold
  · intro root hro
    rw [modifyChildren_id]
    rcases mem_modifyChildren hs hr hro with hsa | hold
    · exact hsa ▸ hchg
    · exact h.children root hold

lemma add_parent (hr : history.roots = back :: rest) (hok : history.add path id parentId = .ok history') :
    parentId = history.id ∨ ∃ parent, back.children[parentId]? = some parent ∧ parent.1.length = path.length - 1 := by
  by_cases hro : parentId = history.id
  · exact .inl hro
  · simp only [add, hr, ne_eq, Ne.symm hro, not_false_eq_true, if_true] at hok
    split_ifs at hok
    · cases hok
    · cases hpar : back.children[parentId]? with
      | none =>
        simp only [hpar] at hok
        cases hok
      | some parent =>
        simp only [hpar] at hok
        by_cases hlen : parent.1.length = path.length - 1
        · exact .inr ⟨parent, rfl, hlen⟩
        · rw [if_pos hlen] at hok
          cases hok

end RootNamespaceHistory

end

section

/-- What `insert` of a root or of a child, `setAlias` and `prune` of the cache do to one history. -/
inductive HistoryCall
  | pushBack (owner : Key) (lifetime : NamespaceLifetime) (setAliasOnRenew : Bool)
  | add (path : NamespacePath)
  | setAlias (id : NamespaceId) (newAlias : NamespaceAlias)
  | prune (height : Height)

def RootNamespaceHistory.call (history : RootNamespaceHistory) :
    HistoryCall → Except NamespaceError RootNamespaceHistory
  | .pushBack owner lifetime setAliasOnRenew => .ok (history.pushBack owner lifetime setAliasOnRenew)
  | .add path => history.add path path.id path.parentId
  | .setAlias id newAlias => history.setAlias id newAlias
  | .prune height => .ok (history.prune height).1

/-- No registration has a grace period or ends before the one before it, no part of a child's path is zero, and the
counters of the loader reach the numbers of roots and children. The cache finds the history of a child by the first part
of its path. -/
def HistoryCall.Storable (history : RootNamespaceHistory) : HistoryCall → Prop
  | .pushBack _ lifetime _ => lifetime.EndsWithoutGrace ∧ history.roots.length + 1 < 2 ^ 32 ∧
    ∀ back ∈ history.roots.head?, back.lifetime.gracePeriodEnd ≤ lifetime.gracePeriodEnd
  | .add path =>
    path.head? = some history.id ∧ path.id ≠ history.id ∧ 0 ∉ path.tail ∧ (path.length = 2 ∨ path.length = 3) ∧
    ∀ back ∈ history.roots.head?, back.children.size + 1 < 2 ^ 32
  | .setAlias _ _ | .prune _ => True

def StorableCalls : RootNamespaceHistory → List HistoryCall → Prop
  | _, [] => True
  | history, call :: calls =>
    call.Storable history ∧ ∀ history', history.call call = .ok history' → StorableCalls history' calls

structure Reached (history : RootNamespaceHistory) : Prop where
  storable : history.Storable
  sound : history.roots ≠ [] → history.Sound fun _ => history.id

namespace Reached

variable (h : Reached history)
include h

lemma pushBack {owner : Key} {lifetime : NamespaceLifetime} {setAliasOnRenew : Bool}
    (hc : (HistoryCall.pushBack owner lifetime setAliasOnRenew).Storable history) :
    Reached (history.pushBack owner lifetime setAliasOnRenew) := by
  obtain ⟨hl, hlen, hend⟩ := hc
  refine ⟨h.storable.pushBack hl, fun _ => ?_⟩
  rcases hr : history.roots with _ | ⟨back, rest⟩
  · rw [RootNamespaceHistory.pushBack, hr]
    refine ⟨?_, ?_, rfl, ?_, ?_, ?_, ?_⟩ <;> simp
  · have hs := h.sound (hr ▸ List.cons_ne_nil _ _)
    have hb := hend back (by rw [hr]; rfl)
    by_cases ho : back.owner = owner
    · rw [pushBack_of_owner hr ho]
      exact hs.push hr hlen hb (.inl ⟨rfl, rfl⟩)
    · rw [pushBack_of_other hr ho]
      exact hs.push hr hlen hb (.inr ⟨Ne.symm ho, rfl⟩)

lemma modifyChildren (hr : history.roots = back :: rest) {change : NamespaceChildren → NamespaceChildren}
    (hchg : StorableChildren history.id (change back.children)) : Reached (history.modifyChildren change) := by
  have hs := h.sound (hr ▸ List.cons_ne_nil _ _)
  refine ⟨h.storable.modifyChildren hs hr hchg, fun _ => ?_⟩
  rw [modifyChildren_id]
  refine sound_modifyChildren hs hr fun c child hch => ⟨rfl, ?_, ?_⟩
  · exact (hchg.ids c (mem_keySet.mp (mem_keySet_iff.mpr ⟨_, hch⟩))).2
  · rcases hchg.paths c child hch with hp | ⟨x, hp, -⟩ <;> rw [hp] <;> rfl

lemma add (hca : (HistoryCall.add path).Storable history)
    (hok : history.add path path.id path.parentId = .ok history') : Reached history' := by
  obtain ⟨hh, hne, hz, hlen, hfew⟩ := hca
  rcases hr : history.roots with _ | ⟨back, rest⟩
  · simp [RootNamespaceHistory.add, hr] at hok
  have hp := hlen.imp List.length_eq_two.mp List.length_eq_three.mp
  have hba := h.storable.children back (hr ▸ List.mem_cons_self)
  obtain ⟨hnew, rfl⟩ := add_eq_ok hr hok
  have hpar := RootNamespaceHistory.add_parent hr hok
  have hcnt : (back.children.insert path.id (path, NamespaceAlias.none)).size < 2 ^ 32 := by
    rw [size_insert, if_neg (by simpa using hnew)]
    exact hfew back (by rw [hr]; rfl)
  have hn : back.children[path.id]? = none := by simpa using hnew
  refine h.modifyChildren hr (hba.insert hcnt ⟨?_, hne⟩ ?_ (by simp [hn]))
  · obtain ⟨a, c, rfl⟩ | ⟨a, x, c, rfl⟩ := hp
    · exact fun hc => hz (List.mem_singleton.mpr hc.symm)
    · exact fun hc => hz (List.mem_cons_of_mem _ (List.mem_singleton.mpr hc.symm))
  · obtain ⟨a, c, rfl⟩ | ⟨a, x, c, rfl⟩ := hp
    · cases hh
      exact .inl rfl
    · cases hh
      refine .inr ⟨x, rfl, fun hx => hz (by simp [← hx]), hpar.imp_right ?_⟩
      rintro ⟨parent, hs, hl⟩
      refine ⟨parent, hs, ?_⟩
      rcases hba.paths _ parent hs with hd | ⟨y, hb, -⟩
      · exact hd
      · simp [hb] at hl

lemma setAlias {newAlias : NamespaceAlias} (hok : history.setAlias id newAlias = .ok history') : Reached history' := by
  rcases hr : history.roots with _ | ⟨back, rest⟩
  · simp [RootNamespaceHistory.setAlias, hr] at hok
  have hb := h.storable.children back (hr ▸ List.mem_cons_self)
  simp only [RootNamespaceHistory.setAlias, hr] at hok
  split_ifs at hok with hro
  · cases hok
    refine ⟨?_, fun _ => (h.sound (hr ▸ List.cons_ne_nil _ _)).setRootAlias hr newAlias⟩
    have hre := h.storable.of_subset rest (by rw [hr]; exact List.subset_cons_self back rest)
    exact hre.cons _ (h.storable.lifetimes back (hr ▸ List.mem_cons_self)) hb
  · cases hch : back.children[id]? with
    | none => simp [hch] at hok
    | some child =>
      simp only [hch] at hok
      cases hok
      have hmem : id ∈ back.children := mem_keySet.mp (mem_keySet_iff.mpr ⟨child, hch⟩)
      refine h.modifyChildren hr (hb.insert ?_ (hb.ids id hmem) (hb.paths id child hch) ?_)
      · rw [size_insert, if_pos (contains_iff_mem.mpr hmem)]
        exact hb.few
      · rw [hch]
        rintro _ ⟨rfl⟩
        rfl

lemma prune (height : Height) : Reached (history.prune height).1 := by
  refine ⟨h.storable.of_subset (history.prune height).1.roots ?_, fun hso => ?_⟩
  · rw [prune_roots]
    exact List.filter_subset_self _
  · rcases hr : history.roots with _ | ⟨back, rest⟩
    · simp [prune_roots, hr] at hso
    have hs := h.sound (hr ▸ List.cons_ne_nil _ _)
    by_cases hend : back.lifetime.gracePeriodEnd ≤ height
    · exact absurd (prune_of_expired hs hr hend).1 hso
    · exact hs.of_infix (prune_of_active hs hr (Nat.not_le.mp hend)).2.1.isInfix hso

theorem call {call : HistoryCall} (hc : call.Storable history)
    (hok : history.call call = .ok history') : Reached history' := by
  cases call with
  | pushBack owner lifetime setAliasOnRenew =>
    cases hok
    exact h.pushBack hc
  | add path => exact h.add hc hok
  | setAlias id newAlias => exact h.setAlias hok
  | prune height =>
    cases hok
    exact h.prune height

end Reached

theorem reached_run {calls : List HistoryCall} (h : Reached history) (hc : StorableCalls history calls)
    (hok : calls.foldlM RootNamespaceHistory.call history = .ok history') : Reached history' := by
  induction calls generalizing history with
  | nil =>
    cases hok
    exact h
  | cons call calls ih =>
    obtain ⟨next, hn, hok⟩ := bind_eq_ok.mp hok
    exact ih (h.call hc.1 hn) (hc.2 next hn) hok

end

/-- A history that is reached without grace periods is loaded as it was saved, with nothing of the bytes left. -/
theorem namespace_history_round_trip {calls : List HistoryCall} (hcalls : StorableCalls { id } calls)
    (hok : calls.foldlM RootNamespaceHistory.call { id } = .ok history) :
    ∃ bytes, history.save = some bytes ∧ RootNamespaceHistory.load.run bytes = some (history, []) := by
  have h := reached_run ⟨⟨by simp, by simp⟩, by simp⟩ hcalls hok
  have hboth : history.roots.length < 2 ^ 32 ∧
      history.roots.IsChain fun newer older => newer.owner = older.owner → newer.children = older.children := by
    by_cases hroots : history.roots = []
    · simp [hroots]
    · exact ⟨(h.sound hroots).short, (h.sound hroots).shared⟩
  obtain ⟨bytes, hsave, hreads⟩ := h.storable.reads_load hboth.1 hboth.2
  refine ⟨bytes, hsave, ?_⟩
  have hall := hreads []
  rwa [List.append_nil] at hall

instance (history : RootNamespaceHistory) (call : HistoryCall) : Decidable (call.Storable history) := by
  cases call <;> unfold HistoryCall.Storable NamespaceLifetime.EndsWithoutGrace <;> infer_instance

instance decidableStorableCalls :
    (history : RootNamespaceHistory) → (calls : List HistoryCall) → Decidable (StorableCalls history calls)
  | _, [] => isTrue trivial
  | history, call :: calls =>
    have := fun history' => decidableStorableCalls history' calls
    inferInstanceAs (Decidable (call.Storable history ∧ ∀ history', history.call call = .ok history' →
      StorableCalls history' calls))

/-! A root with two levels of children and aliases is renewed by its owner and taken over by another one, without and
with a grace period of ten blocks. -/

def registrations (grace : ℕ) : List HistoryCall :=
  [.pushBack 7 ⟨1, 10, 10 + grace⟩ true, .add [1, 2], .add [1, 2, 3], .setAlias 3 (.mosaic 5),
    .pushBack 7 ⟨9, 30, 30 + grace⟩ true,
    .setAlias 1 (.address 6), .pushBack 8 ⟨41, 60, 60 + grace⟩ true, .prune (10 + grace)]

theorem namespace_history_round_trip_sample :
    ∃ history bytes, (registrations 0).foldlM RootNamespaceHistory.call { id := 1 } = .ok history ∧
    history.roots.length = 2 ∧ history.save = some bytes ∧
      RootNamespaceHistory.load.run bytes = some (history, []) := by
  have hclosed : ((registrations 0).foldlM call { id := 1 } >>= fun history => .ok history.roots.length) = .ok 2 := by
    decide +kernel
  obtain ⟨history, hrun, hlength⟩ := bind_eq_ok.mp hclosed
  obtain ⟨bytes, hsave, hload⟩ := namespace_history_round_trip (by decide +kernel) hrun
  exact ⟨history, bytes, hrun, Except.ok.inj hlength, hsave, hload⟩

theorem loaded_history_forgets_grace_period : ∃ history bytes loaded,
    (registrations 10).foldlM RootNamespaceHistory.call { id := 1 } = .ok history ∧
      history.save = some bytes ∧ RootNamespaceHistory.load.run bytes = some (loaded, []) ∧
      history.roots.map (·.lifetime.gracePeriodEnd) = [70, 40] ∧
        loaded.roots.map (·.lifetime.gracePeriodEnd) = [60, 30] := by
  have hclosed : ((registrations 10).foldlM call { id := 1 } >>= fun history => .ok do
      let bytes ← history.save
      let (loaded, rest) ← load.run bytes
      return (rest, history.roots.map (·.lifetime.gracePeriodEnd), loaded.roots.map (·.lifetime.gracePeriodEnd))) =
      .ok (some ([], [70, 40], [60, 30])) := by decide +kernel
  obtain ⟨history, hrun, hfound⟩ := bind_eq_ok.mp hclosed
  obtain ⟨bytes, hsave, hfound⟩ := Option.bind_eq_some_iff.mp (Except.ok.inj hfound)
  obtain ⟨⟨loaded, rest⟩, hload, hfound⟩ := Option.bind_eq_some_iff.mp hfound
  obtain ⟨rfl, hold, hnew⟩ : rest = [] ∧ _ = _ ∧ _ = _ := by simpa using hfound
  exact ⟨history, bytes, loaded, hrun, hsave, hload, hold, hnew⟩

end XpxChain.Caches
