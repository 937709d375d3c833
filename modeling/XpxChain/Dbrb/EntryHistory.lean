import XpxChain.Dbrb.EntryOpening

/-! Invariants of an entry and its history. -/

namespace XpxChain.Dbrb

open Library OrderedContainers Runs QuorumManager BroadcastData Option

namespace DbrbProcess

variable {crypto : Crypto} {env : Environment} {p : DbrbProcess} {i : Input} {h : Hash256}

section

structure SameCounts (d d' : BroadcastData) : Prop where
  broadcastView : d'.broadcastView = d.broadcastView
  bootstrapView : d'.bootstrapView = d.bootstrapView
  quorumManager : d'.quorumManager = d.quorumManager
  acknowledgedQuorum : d'.acknowledgedQuorumCollected = d.acknowledgedQuorumCollected
  deliverQuorum : d'.deliverQuorumCollected = d.deliverQuorumCollected
  confirmDeliverQuorum : d'.confirmDeliverQuorumCollected = d.confirmDeliverQuorumCollected

variable {d d' : BroadcastData} {x : Environment × Input}

lemma SameCounts.refl : SameCounts d d := ⟨rfl, rfl, rfl, rfl, rfl, rfl⟩

lemma SameCounts.of_validated (hd : d.validated env h = some d') : SameCounts d d' := by
  rcases validated_cases hd with ⟨rfl, _⟩ | ⟨rfl, _⟩
  · exact .refl
  · exact ⟨rfl, rfl, rfl, rfl, rfl, rfl⟩

section

variable {sender : ProcessId} {view : View} {record : BroadcastData → Option BroadcastData}
  {finish : BroadcastData → BroadcastData × List Effect}

lemma handleEntry_of_rejected (hn : ∀ d, Located p sender h view d → record d = none) :
    (p.handleEntry env sender h view record finish).1 = p := by
  have hh : Handled env p sender h view record finish (p.handleEntry env sender h view record finish) :=
    handleEntry_handled
  generalize p.handleEntry env sender h view record finish = r at hh
  cases hh with
  | ignored => rfl
  | paused hl hr | refused hl hr | finished hl hr => simp [hn _ hl] at hr

lemma handleEntry_allEntries {J : Hash256 → BroadcastData → Prop} {d d₁ : BroadcastData}
    (hl : Located p sender h view d) (hr : record d = some d₁)
    (hoth : ∀ k e, k ≠ h → p.broadcastData[k]? = some e → J k e) (hd₁ : J h d₁)
    (hs : ∀ e e', SameCounts e e' → J h e → J h e') (hf : ∀ e, SameCounts e (finish e).1) :
    (p.handleEntry env sender h view record finish).1.AllEntries J := by
  by_cases hm : env.mode = .running
  · rcases hv : d₁.validated env h with - | d₂
    · have he : p.handleEntry env sender h view record finish = (p.erase h, []) := by
        simp [handleEntry, hl.member, hl.sender, hl.entry, hl.view.symm, hr, hm, hv]
      rw [he]
      exact forall_erase hoth
    · rw [handleEntry_eq hl hr hm hv]
      exact forall_insert hoth (hs _ _ (hf d₂) (hs _ _ (.of_validated hv) hd₁))
  · have he : p.handleEntry env sender h view record finish = (p.store h d₁, []) := by
      simp [handleEntry, hl.member, hl.sender, hl.entry, hl.view.symm, hr, hm]
    rw [he]
    exact forall_insert hoth hd₁

end

structure CountInvariant (J : EntryHistory → Hash256 → BroadcastData → Prop) : Prop where
  acknowledge : ∀ g m d, m.view = d.broadcastView → m.sender ∈ m.view.data → J g m.payloadHash d →
    J { g with acknowledged := insert m.sender g.acknowledged } m.payloadHash (d.acknowledge m)
  deliver : ∀ g m d, m.view = d.broadcastView → m.sender ∈ m.view.data → J g m.payloadHash d →
    J { g with delivered := insert m.sender g.delivered } m.payloadHash (d.collectDeliver m)
  confirm : ∀ g m d, m.view = d.broadcastView → m.sender ∈ m.view.data → J g m.payloadHash d →
    J { g with confirmed := insert m.sender g.confirmed } m.payloadHash (d.collectConfirmDeliver m)
  same : ∀ g h d d', SameCounts d d' → J g h d → J g h d'

variable {J : EntryHistory → Hash256 → BroadcastData → Prop} {g : Hash256 → EntryHistory}

section

variable (hJ : CountInvariant J) (hp : p.AllEntries fun h => J (g h) h)
include hJ hp

lemma handleEntry_tracked {sender : ProcessId} {view : View} {m : Message}
    {record : BroadcastData → Option BroadcastData} {finish : BroadcastData → BroadcastData × List Effect}
    (count : EntryHistory → EntryHistory)
    (hac : p.accepts crypto m ↔ ∃ d, Located p sender h view d ∧ (record d).isSome)
    (ht : ∀ k, p.track crypto k (env, .processMessage m) (g k) = if h = k ∧
      p.accepts crypto m then count (g k) else g k)
    (hre : ∀ d d₁, Located p sender h view d → record d = some d₁ → J (count (g h)) h d₁)
    (hf : ∀ e, SameCounts e (finish e).1) :
    (p.handleEntry env sender h view record finish).1.AllEntries fun k =>
      J (p.track crypto k (env, .processMessage m) (g k)) k := by
  simp only [ht]
  by_cases ha : p.accepts crypto m
  · obtain ⟨d, hl, hr⟩ := hac.mp ha
    obtain ⟨d₁, hr⟩ := isSome_iff_exists.mp hr
    refine handleEntry_allEntries hl hr (fun k e hk he => ?_) ?_ (hJ.same _ _) hf
    · simpa [hk.symm] using hp k e he
    · simpa [ha] using hre d d₁ hl hr
  · rw [handleEntry_of_rejected]
    · simpa [ha] using hp
    · intro d hl
      by_contra hr
      exact ha (hac.mpr ⟨d, hl, isSome_iff_ne_none.mpr hr⟩)

lemma acknowledged_tracked {m : AcknowledgedMessage} :
    (p.onAcknowledgedMessageReceived crypto env m).1.AllEntries fun h =>
      J (p.track crypto h (env, .processMessage (.acknowledged m)) (g h)) h := by
  refine handleEntry_tracked hJ hp (fun g => { g with acknowledged := insert m.sender g.acknowledged })
    (by simp [accepts_acknowledged])
    (fun k => by simp [track, opens]) ?_ ?_
  · intro d d₁ hl hr
    obtain ⟨-, hr⟩ := ite_none_right_eq_some.mp hr
    cases hr
    exact hJ.acknowledge _ m d hl.view hl.sender (hp _ _ hl.entry)
  · intro e
    split
    next =>
      unfold onAcknowledgedQuorumCollected
      split <;> exact ⟨rfl, rfl, rfl, rfl, rfl, rfl⟩
    next => exact .refl

lemma deliver_tracked {m : DeliverMessage} : (p.onDeliverMessageReceived env m).1.AllEntries fun h =>
      J (p.track crypto h (env, .processMessage (.deliver m)) (g h)) h := by
  refine handleEntry_tracked hJ hp (fun g => { g with delivered := insert m.sender g.delivered })
    (by simp [accepts_deliver])
    (fun k => by simp [track, opens]) ?_ ?_
  · intro d d₁ hl hr
    cases hr
    exact hJ.deliver _ m d hl.view hl.sender (hp _ _ hl.entry)
  · intro e
    split <;> exact ⟨rfl, rfl, rfl, rfl, rfl, rfl⟩

lemma confirmDeliver_tracked {m : ConfirmDeliverMessage} :
    (p.onConfirmDeliverMessageReceived env m).1.AllEntries fun h =>
      J (p.track crypto h (env, .processMessage (.confirmDeliver m)) (g h)) h := by
  refine handleEntry_tracked hJ hp (fun g => { g with confirmed := insert m.sender g.confirmed })
    (by simp [accepts_confirmDeliver])
    (fun k => by simp [track, opens]) ?_ ?_
  · intro d d₁ hl hr
    cases hr
    exact hJ.confirm _ m d hl.view hl.sender (hp _ _ hl.entry)
  · intro e
    split <;> exact ⟨rfl, rfl, rfl, rfl, rfl, rfl⟩

end

lemma SameCounts.of_entryStep {h : Hash256} (hs : EntryStep crypto env p .maybeDeliver h d d') : SameCounts d d' := by
  cases hs <;> exact ⟨rfl, rfl, rfl, rfl, rfl, rfl⟩

lemma commit_tracked {m : CommitMessage} (hJ : CountInvariant J) (hp : p.AllEntries fun h => J (g h) h) :
    (p.onCommitMessageReceived crypto env m).1.AllEntries fun h => J (g h) h := by
  refine handleEntry_handled.allEntries hp ?_ ?_ ?_
  · intro d d₁ hl hd hr
    obtain ⟨-, hr⟩ := ite_none_right_eq_some.mp hr
    cases hr
    exact ⟨hd, hl.view.symm⟩
  · intro d hd _
    exact hJ.same _ _ d _ ⟨rfl, rfl, rfl, rfl, rfl, rfl⟩ hd
  · intro d hd _
    exact hJ.same _ _ d _ ⟨rfl, rfl, rfl, rfl, rfl, rfl⟩ hd

lemma opening_tracked (hp : p.AllEntries fun h => J (g h) h)
    (ht : ∀ h, p.opens crypto x.1 x.2 = none → p.track crypto h x (g h) = g h)
    (hnot : p.opens crypto x.1 x.2 = none → (p.step crypto x.1 x.2).1 = p)
    (hnew : ∀ h d, p.opens crypto x.1 x.2 = some h → NewEntry p x.2.proposedView d →
      J { openedIn := p.currentView } h d) :
    (p.next crypto x).AllEntries fun h => J (p.track crypto h x (g h)) h := by
  refine opening_allEntries ?_ hnot ?_
  · intro ho
    simpa only [ht _ ho] using hp
  · intro h d ho hd
    rw [track, if_pos ho]
    exact hnew h d ho hd

theorem next_tracked (hJ : CountInvariant J) (hp : p.AllEntries fun h => J (g h) h)
    (hnew : ∀ h d, p.opens crypto x.1 x.2 = some h → NewEntry p x.2.proposedView d →
      J { openedIn := p.currentView } h d) :
    (p.next crypto x).AllEntries fun h => J (p.track crypto h x (g h)) h := by
  obtain ⟨env, i⟩ := x
  cases i with
  | broadcast payload recipients =>
    exact opening_tracked hp (fun h ho => by simp [track, ho]) broadcast_of_not_opens hnew
  | processMessage m =>
    cases m with
    | prepare m => exact opening_tracked hp (fun h ho => by simp [track, ho]) onPrepareMessageReceived_of_not_opens hnew
    | acknowledged m => exact acknowledged_tracked hJ hp
    | deliver m => exact deliver_tracked hJ hp
    | confirmDeliver m => exact confirmDeliver_tracked hJ hp
    | commit m => exact commit_tracked hJ hp
    | _ => exact hp
  | updateView view bootstrapProcesses =>
    rw [next]
    rcases step_updateView crypto env p view bootstrapProcesses with h | ⟨_, h⟩ <;> rw [h] <;> exact hp
  | maybeDeliver =>
    have hsa : ∀ h d d', EntryStep crypto env p .maybeDeliver h d d' → J (g h) h d → J (g h) h d' :=
      fun _ _ _ hs => hJ.same _ _ _ _ (.of_entryStep hs)
    exact maybeDeliver_allEntries hp hsa
  | clearData => exact allEntries_clearData

theorem run_tracked {id : ProcessId} {inputs : List (Environment × Input)}
    {C : List (Environment × Input) → DbrbProcess → Environment × Input → Prop} (hJ : CountInvariant J)
    (hnew : ∀ past p x h d, C past p x → p.opens crypto x.1 x.2 = some h → NewEntry p x.2.proposedView d →
      J { openedIn := p.currentView } h d)
    (hC : Always (next crypto) { id } C inputs) :
    (run (next crypto) { id } inputs).AllEntries fun h => J (history crypto id inputs h) h := by
  induction inputs using List.reverseRecOn with
  | nil => exact allEntries_new
  | append_singleton past x ih =>
    obtain ⟨hpa, hx⟩ := always_snoc.mp hC
    rw [run_snoc]
    simp only [history_snoc]
    exact next_tracked hJ (ih hpa) fun h d => hnew _ _ _ _ _ hx

end

end DbrbProcess

end XpxChain.Dbrb
