import XpxChain.Dbrb.Process

/-! The outcomes of the message handlers of `DbrbProcess`. -/

namespace XpxChain.Dbrb.DbrbProcess

open Library.OrderedContainers

variable {crypto : Crypto} {env : Environment} {p : DbrbProcess}

def AllEntries (p : DbrbProcess) (I : Hash256 → BroadcastData → Prop) : Prop :=
  ∀ h d, p.broadcastData[h]? = some d → I h d

section

variable {I J : Hash256 → BroadcastData → Prop} {h : Hash256} {d : BroadcastData}

@[simp] lemma store_id : (p.store h d).id = p.id := rfl

@[simp] lemma erase_id : (p.erase h).id = p.id := rfl

@[simp] lemma clearData_id : p.clearData.id = p.id := rfl

@[simp] lemma getElem?_store : (p.store h d).broadcastData[h]? = some d := by
  simp [store]

lemma AllEntries.mono (hp : p.AllEntries I) (hij : ∀ h d, I h d → J h d) : p.AllEntries J :=
  fun h d he => hij h d (hp h d he)

lemma AllEntries.store (hp : p.AllEntries I) (hd : I h d) : (p.store h d).AllEntries I :=
  forall_insert (fun k e _ => hp k e) hd

lemma AllEntries.erase (hp : p.AllEntries I) : (p.erase h).AllEntries I := forall_erase fun k e _ => hp k e

lemma allEntries_clearData : p.clearData.AllEntries I := by
  intro k e he
  simp [clearData] at he

lemma allEntries_new {id : ProcessId} : AllEntries { id } I := by
  intro k e he
  simp at he

end

lemma validated_cases {d d' : BroadcastData} {h : Hash256} (hd : d.validated env h = some d') :
    d' = d ∧ d.payloadValidated ∨
      d' = { d with payloadValidated := true } ∧ env.validate d.payload h = .messageValid := by
  unfold BroadcastData.validated at hd
  split at hd
  next hv => exact Or.inl ⟨(Option.some.inj hd).symm, hv⟩
  next =>
    split at hd
    next hv => exact Or.inr ⟨(Option.some.inj hd).symm, hv⟩
    next => contradiction

section

variable {sender : ProcessId} {h : Hash256} {view : View}
  {record : BroadcastData → Option BroadcastData} {finish : BroadcastData → BroadcastData × List Effect}

structure Located (p : DbrbProcess) (sender : ProcessId) (h : Hash256) (view : View) (d : BroadcastData) : Prop where
  member : p.id ∈ view.data
  sender : sender ∈ view.data
  entry : p.broadcastData[h]? = some d
  view : view = d.broadcastView

inductive Handled (env : Environment) (p : DbrbProcess) (sender : ProcessId) (h : Hash256) (view : View)
    (record : BroadcastData → Option BroadcastData)
    (finish : BroadcastData → BroadcastData × List Effect) : DbrbProcess × List Effect → Prop
  | ignored : Handled env p sender h view record finish (p, [])
  | paused {d d₁} : Located p sender h view d → record d = some d₁ →
      Handled env p sender h view record finish (p.store h d₁, [])
  | refused {d d₁} : Located p sender h view d → record d = some d₁ →
      Handled env p sender h view record finish (p.erase h, [])
  | finished {d d₁ d₂} : Located p sender h view d → record d = some d₁ → env.mode = .running →
      d₁.validated env h = some d₂ →
      Handled env p sender h view record finish (p.store h (finish d₂).1, (finish d₂).2)

lemma handleEntry_handled :
    Handled env p sender h view record finish (p.handleEntry env sender h view record finish) := by
  unfold handleEntry
  split
  next => exact .ignored
  next hm =>
    split
    next => exact .ignored
    next hs =>
      split
      next => exact .ignored
      next d hd =>
        split
        next => exact .ignored
        next hv =>
          have hl : Located p sender h view d := ⟨not_not.mp hm, not_not.mp hs, hd, not_not.mp hv⟩
          split
          next => exact .ignored
          next d₁ hr =>
            split
            next => exact .paused hl hr
            next hmo =>
              split
              next => exact .refused hl hr
              next d₂ hd₂ => exact .finished hl hr (not_not.mp hmo) hd₂

lemma handleEntry_eq {d d₁ d₂ : BroadcastData} (hl : Located p sender h view d)
    (hr : record d = some d₁) (hm : env.mode = .running) (hv : d₁.validated env h = some d₂) :
    p.handleEntry env sender h view record finish = (p.store h (finish d₂).1, (finish d₂).2) := by
  simp [handleEntry, hl.member, hl.sender, hl.entry, hl.view.symm, hr, hm, hv]

variable {r : DbrbProcess × List Effect}

section

variable (hr : Handled env p sender h view record finish r)
include hr

lemma Handled.id_eq : r.1.id = p.id := by
  cases hr <;> rfl

lemma Handled.allEntries {I : Hash256 → BroadcastData → Prop} (hp : p.AllEntries I)
    (hre : ∀ d d₁, Located p sender h view d → I h d → record d = some d₁ → I h d₁ ∧ d₁.broadcastView = view)
    (hval : ∀ d, I h d → env.validate d.payload h = .messageValid → I h { d with payloadValidated := true })
    (hf : ∀ d, I h d → d.broadcastView = view → I h (finish d).1) : r.1.AllEntries I := by
  cases hr with
  | ignored => exact hp
  | paused hl hr => exact hp.store (hre _ _ hl (hp _ _ hl.entry) hr).1
  | refused hl hr => exact hp.erase
  | finished hl hr _ hv =>
    obtain ⟨hd₁, hvi⟩ := hre _ _ hl (hp _ _ hl.entry) hr
    rcases validated_cases hv with ⟨rfl, _⟩ | ⟨rfl, hva⟩
    · exact hp.store (hf _ hd₁ hvi)
    · exact hp.store (hf _ (hval _ hd₁ hva) hvi)

lemma Handled.finished_of_mem {e : Effect} (he : e ∈ r.2) :
    ∃ d d₁ d₂, Located p sender h view d ∧ record d = some d₁ ∧ env.mode = .running ∧
      d₁.validated env h = some d₂ ∧ r = (p.store h (finish d₂).1, (finish d₂).2) := by
  cases hr with
  | ignored => simp at he
  | paused hl hr => simp at he
  | refused hl hr => simp at he
  | finished hl hr hm hv => exact ⟨_, _, _, hl, hr, hm, hv, rfl⟩

end

end

section

inductive Opening (id : ProcessId) : Effect → Prop
  | prepare {m recipients} : m.sender = id → Opening id (.disseminate (.prepare m) recipients)
  | acknowledged {m recipients} : m.sender = id → Opening id (.disseminate (.acknowledged m) recipients)

inductive Fresh (crypto : Crypto) (env : Environment) (p : DbrbProcess) : Hash256 → BroadcastData → Prop
  | mk {payload : Payload} {broadcastView : View} {payloadSignature : Signature} {payloadValidated : Bool} :
      broadcastView.isMember p.id →
      (payloadValidated →
        env.validate payload (crypto.calculatePayloadHash payload) = .messageValid) →
      Fresh crypto env p (crypto.calculatePayloadHash payload)
        { payload, broadcastView, bootstrapView := p.bootstrapView, begin := env.now
          payloadSignature, payloadValidated }

structure Opened (crypto : Crypto) (env : Environment) (p : DbrbProcess) (r : DbrbProcess × List Effect) : Prop where
  state : r.1 = p ∨ ∃ h d, Fresh crypto env p h d ∧ r.1 = p.clearData.store h d
  effects : ∀ e ∈ r.2, Opening p.id e

lemma opened_self : Opened crypto env p (p, []) := ⟨Or.inl rfl, by simp⟩

lemma broadcast_opened {payload : Payload} {recipients : ViewData} :
    Opened crypto env p (p.broadcast crypto env payload recipients) := by
  unfold broadcast
  simp only [ite_not]
  split_ifs with _ _ _ hm
  · exact opened_self
  · exact ⟨Or.inr ⟨_, _, .mk hm (by simp), rfl⟩, by simp [Opening.prepare]⟩
  all_goals exact opened_self

lemma onPrepareMessageReceived_opened {m : PrepareMessage} :
    Opened crypto env p (p.onPrepareMessageReceived crypto env m) := by
  unfold onPrepareMessageReceived
  split
  next => exact opened_self
  next =>
    split
    next => exact opened_self
    next hm =>
      split
      next => exact opened_self
      next =>
        split
        next => exact opened_self
        next hb =>
          have hb : m.bootstrapView = p.bootstrapView := not_not.mp hb
          by_cases hmo : env.mode = .running
          · simp only [hmo, decide_true, true_and, if_true]
            split
            next => exact opened_self
            next hv =>
              split
              next d hd => exact ⟨Or.inl rfl, by simp [Opening.acknowledged]⟩
              next =>
                refine ⟨Or.inr ⟨_, _, hb ▸ .mk (not_not.mp hm) fun _ => not_not.mp hv, rfl⟩, ?_⟩
                simp [Opening.acknowledged, Opening.prepare]
          · simp only [hmo, decide_false, Bool.false_eq_true, false_and, if_false]
            split
            next => exact ⟨Or.inl rfl, by simp⟩
            next => exact ⟨Or.inr ⟨_, _, hb ▸ .mk (not_not.mp hm) (by simp), rfl⟩, by simp⟩

end

end XpxChain.Dbrb.DbrbProcess

