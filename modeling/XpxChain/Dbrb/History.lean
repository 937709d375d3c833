import XpxChain.Dbrb.EntryHistory

/-! The views of an entry contain one another, and its quorums count different members. -/

namespace XpxChain.Dbrb

open Library OrderedContainers Runs QuorumManager BroadcastData Option

namespace DbrbProcess

structure ViewsContained (id : ProcessId) (g : EntryHistory) (d : BroadcastData) : Prop where
  bootstrap : d.bootstrapView.data ⊆ d.broadcastView.data
  member : d.broadcastView.isMember id
  current : d.broadcastView.data ⊆ g.openedIn.data

def PreparesCoverBootstrap (crypto : Crypto) (_past : List (Environment × Input)) (p : DbrbProcess)
    (x : Environment × Input) : Prop :=
  ∀ m h, x.2 = .processMessage (.prepare m) → p.opens crypto x.1 x.2 = some h →
    p.bootstrapView.le m.view

variable {crypto : Crypto} {id : ProcessId} {p : DbrbProcess} {x : Environment × Input}
  {past inputs : List (Environment × Input)}

lemma run_id : (run (next crypto) { id } inputs).id = id := by
  induction inputs using List.reverseRecOn with
  | nil => rfl
  | append_singleton past x ih => rw [run_snoc, next, step_id, ih]

lemma viewsContained_countInvariant : CountInvariant fun g _ d => ViewsContained id g d where
  acknowledge _ _ _ _ _ hd := { hd with }
  deliver _ _ _ _ _ hd := { hd with }
  confirm _ _ _ _ _ hd := { hd with }
  same _ _ _ _ hs hd := by
    refine ⟨?_, hs.broadcastView ▸ hd.member, hs.broadcastView ▸ hd.current⟩
    rw [hs.bootstrapView, hs.broadcastView]
    exact hd.bootstrap

lemma bootstrap_le_proposedView {h : Hash256} (hx : PreparesCoverBootstrap crypto past p x)
    (ho : p.opens crypto x.1 x.2 = some h) : p.bootstrapView.le x.2.proposedView := by
  obtain ⟨env, i⟩ := x
  cases i with
  | broadcast payload recipients =>
    simp only [opens, ite_none_right_eq_some] at ho
    exact ho.1.2.2.1
  | processMessage m =>
    cases m with
    | prepare m => exact hx m h rfl ho
    | _ => contradiction
  | updateView | maybeDeliver | clearData => contradiction

theorem views_contained_iff : (∀ past, past <+: inputs → (run (next crypto) { id } past).AllEntries fun h =>
      ViewsContained id (history crypto id past h)) ↔
      Always (next crypto) { id } (PreparesCoverBootstrap crypto) inputs := by
  constructor
  · rintro hall past x rest rfl m h hm ho
    obtain ⟨d, hstep, hd⟩ := step_of_opens ho
    have hentry : (run (next crypto) { id } (past ++ [x])).broadcastData[h]? = some d := by
      rw [run_snoc, next, hstep, getElem?_store]
    have hviews := (hall (past ++ [x]) ⟨rest, by simp⟩ h d hentry).bootstrap
    rw [hm] at hd
    obtain ⟨-, -⟩ := hd
    exact View.le_iff.mpr hviews
  · rintro hC past ⟨rest, rfl⟩
    have hid : Always (next crypto) { id } (fun past p x => p.id = id ∧ PreparesCoverBootstrap crypto past p x) past :=
      fun _ _ _ he => ⟨run_id, always_append_left hC _ _ _ he⟩
    refine run_tracked viewsContained_countInvariant ?_ hid
    rintro past p x h d ⟨hp, hx⟩ ho hd
    have hb := View.le_iff.mp (bootstrap_le_proposedView hx ho)
    obtain ⟨hm, hc⟩ := hd
    exact ⟨hb, hp ▸ hm, hc⟩

def uncoveredPrepare : List (Environment × Input) :=
  [(.accepting, .updateView ∅ {1, 2, 3, 4}),
    (.accepting, .processMessage (.prepare ⟨2, ⟨.pushBlock, [7]⟩, ⟨{1, 2}⟩, ⟨{1, 2, 3, 4}⟩⟩))]

theorem not_views_contained : ¬ (run (next .plain) { id := 1 } uncoveredPrepare).AllEntries fun h =>
    ViewsContained 1 (history .plain 1 uncoveredPrepare h) := by
  intro hall
  have hany : (run (next .plain) { id := 1 } uncoveredPrepare).broadcastData[(263 : Hash256)]?.any
      (fun d => ¬ d.bootstrapView.data ⊆ d.broadcastView.data) := by decide +kernel
  obtain ⟨d, hd, hn⟩ := any_eq_true _ _ |>.mp hany
  exact of_decide_eq_true hn (hall _ d hd).bootstrap

end DbrbProcess

namespace QuorumManager

variable {set : ViewData} {sender : ProcessId} {n : ℕ} {collected : Bool}

lemma le_card_insert_iff : n ≤ (insert sender set).card ↔ n ≤ set.card ∨ (insert sender set).card = n := by
  by_cases hs : sender ∈ set
  · rw [Finset.insert_eq_of_mem hs]
    omega
  · rw [Finset.card_insert_of_notMem hs]
    omega

lemma collect_iff (hset : collected ↔ n ≤ set.card) :
    (collected || (collect set sender n).2) ↔ n ≤ (insert sender set).card := by
  by_cases hs : sender ∈ set
  · simpa [collect, hs] using hset
  · rw [le_card_insert_iff, Bool.or_eq_true, hset, collect, if_neg hs, beq_iff_eq]

lemma filter_image_pair {h : Hash256} :
    (set.image fun q => (q, h)).filter (fun entry => entry.2 = h) = set.image fun q => (q, h) := by
  rw [Finset.filter_eq_self]
  intro entry he
  obtain ⟨q, -, rfl⟩ := Finset.mem_image.mp he
  rfl

lemma card_image_pair {h : Hash256} : (set.image fun q => (q, h)).card = set.card :=
  Finset.card_image_of_injective _ fun _ _ he => congrArg Prod.fst he

end QuorumManager

namespace DbrbProcess

structure QuorumsCounted (g : EntryHistory) (d : BroadcastData) : Prop where
  acknowledged : d.acknowledgedQuorumCollected ↔ d.broadcastView.quorumSize ≤ g.acknowledged.card
  delivered : d.deliverQuorumCollected ↔ d.broadcastView.quorumSize ≤ g.delivered.card
  confirmed : d.confirmDeliverQuorumCollected ↔ d.bootstrapView.quorumSize ≤ g.confirmed.card
  acknowledged_members : g.acknowledged ⊆ d.broadcastView.data
  delivered_members : g.delivered ⊆ d.broadcastView.data

structure Counted (g : EntryHistory) (h : Hash256) (d : BroadcastData) : Prop extends QuorumsCounted g d where
  acknowledgedPayloads :
    d.quorumManager.acknowledgedPayloads d.broadcastView = g.acknowledged.image fun q => (q, h)
  deliverProcesses : d.quorumManager.deliverQuorumCollectedProcesses d.broadcastView = g.delivered
  confirmProcesses : d.quorumManager.confirmedDeliverProcesses d.broadcastView = g.confirmed

namespace Counted

variable {g : EntryHistory} {h : Hash256} {d d' : BroadcastData}

lemma of_newEntry {p : DbrbProcess} {view : View} (hd : NewEntry p view d) :
    Counted { openedIn := p.currentView } h d := by
  obtain ⟨hm, hc⟩ := hd
  have hpos : ∀ v : View, ¬ v.quorumSize ≤ 0 := fun v => Nat.not_le.mpr quorumSize_pos
  constructor
  case toQuorumsCounted => constructor <;> simp [hpos]
  all_goals rfl

lemma same (hd : Counted g h d) (hs : SameCounts d d') : Counted g h d' := by
  obtain ⟨h₁, h₂, h₃, h₄, h₅, h₆⟩ := hs
  obtain ⟨⟨ha, hv, hc, ham, hvm⟩, hp, hdp, hcp⟩ := hd
  refine ⟨⟨?_, ?_, ?_, ?_, ?_⟩, ?_, ?_, ?_⟩ <;> simpa only [h₁, h₂, h₃, h₄, h₅, h₆]

lemma acknowledge {m : AcknowledgedMessage} (hd : Counted g m.payloadHash d)
    (hv : m.view = d.broadcastView) (hs : m.sender ∈ m.view.data) :
    Counted { g with acknowledged := insert m.sender g.acknowledged } m.payloadHash (d.acknowledge m) := by
  have hset : insert (m.sender, m.payloadHash) (d.quorumManager.acknowledgedPayloads m.view) =
      (insert m.sender g.acknowledged).image fun q => (q, m.payloadHash) := by
    rw [hv, hd.acknowledgedPayloads, Finset.image_insert]
  refine { hd with acknowledged := ?_, acknowledged_members := ?_, acknowledgedPayloads := ?_ }
  · simp only [BroadcastData.acknowledge, updateAcknowledged, hset,
      filter_image_pair, card_image_pair, Bool.or_eq_true, beq_iff_eq]
    rw [le_card_insert_iff, hd.acknowledged, hv]
  · exact Finset.insert_subset (hv ▸ hs) hd.acknowledged_members
  · simp only [BroadcastData.acknowledge, updateAcknowledged, hset]
    rw [hv, Function.update_self]

lemma deliver {m : DeliverMessage} (hd : Counted g m.payloadHash d) (hv : m.view = d.broadcastView)
    (hs : m.sender ∈ m.view.data) :
    Counted { g with delivered := insert m.sender g.delivered } m.payloadHash (d.collectDeliver m) := by
  refine { hd with delivered := ?_, delivered_members := ?_, deliverProcesses := ?_ }
  · rw [collectDeliver, updateDeliver, hv, hd.deliverProcesses]
    exact collect_iff hd.delivered
  · exact Finset.insert_subset (hv ▸ hs) hd.delivered_members
  · simp [collectDeliver, updateDeliver, hv, hd.deliverProcesses]

lemma confirm {m : ConfirmDeliverMessage} (hd : Counted g m.payloadHash d) (hv : m.view = d.broadcastView) :
    Counted { g with confirmed := insert m.sender g.confirmed } m.payloadHash (d.collectConfirmDeliver m) := by
  refine { hd with confirmed := ?_, confirmProcesses := ?_ }
  · rw [collectConfirmDeliver, updateConfirmDeliver, hv, hd.confirmProcesses]
    exact collect_iff hd.confirmed
  · simp [collectConfirmDeliver, updateConfirmDeliver, hv, hd.confirmProcesses]

lemma countInvariant : CountInvariant Counted where
  acknowledge _ _ _ hv hs hd := hd.acknowledge hv hs
  deliver _ _ _ hv hs hd := hd.deliver hv hs
  confirm _ _ _ hv _ hd := hd.confirm hv
  same _ _ _ _ hs hd := hd.same hs

end Counted

variable {crypto : Crypto} {id : ProcessId} {inputs : List (Environment × Input)} {h : Hash256}
  {d : BroadcastData}

theorem quorums_counted (hd : (run (next crypto) { id } inputs).broadcastData[h]? = some d) :
    QuorumsCounted (history crypto id inputs h) d := by
  have htrue : Always (next crypto) { id } (fun _ _ _ => True) inputs := fun _ _ _ _ => trivial
  have hcounted := run_tracked Counted.countInvariant (fun _ _ _ _ _ _ _ hd => .of_newEntry hd) htrue
  exact (hcounted h d hd).toQuorumsCounted

def acknowledgement (mode : DbrbMode) (sender : ProcessId) : Environment × Input :=
  ({ Environment.accepting with mode },
    .processMessage (.acknowledged ⟨sender, 263, ⟨{1, 2, 3, 4}⟩,
      Crypto.plain.sign sender (.view ⟨.pushBlock, [7]⟩ ⟨{1, 2, 3, 4}⟩)⟩))

def acknowledgedBroadcast : List (Environment × Input) :=
  [(.accepting, .updateView {2, 3, 4} {1}), (.accepting, .broadcast ⟨.pushBlock, [7]⟩ {1, 2, 3, 4}),
    acknowledgement .running 2, acknowledgement .running 2, acknowledgement .paused 3,
    acknowledgement .running 1, acknowledgement .running 3]

theorem quorums_counted_acknowledgedBroadcast :
    ∃ d, (run (next .plain) { id := 1 } acknowledgedBroadcast).broadcastData[(263 : Hash256)]? = some d ∧
      d.acknowledgedQuorumCollected = true ∧ d.deliverQuorumCollected = false ∧
      QuorumsCounted (history .plain 1 acknowledgedBroadcast 263) d := by
  have hany : (run (next .plain) { id := 1 } acknowledgedBroadcast).broadcastData[(263 : Hash256)]?.any
      (fun d => d.acknowledgedQuorumCollected && !d.deliverQuorumCollected) := by decide +kernel
  obtain ⟨d, hd, hq⟩ := any_eq_true _ _ |>.mp hany
  obtain ⟨ha, hn⟩ := Bool.and_eq_true_iff.mp hq
  exact ⟨d, hd, ha, Bool.not_eq_true' _ |>.mp hn, quorums_counted hd⟩

end DbrbProcess

end XpxChain.Dbrb
