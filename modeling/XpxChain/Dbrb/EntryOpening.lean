import XpxChain.Dbrb.ProcessSteps
import XpxChain.Library.Runs

/-! The view that an entry of `DbrbProcess` was opened in, and the processes whose messages it has accepted. -/

namespace XpxChain.Dbrb

open Library OrderedContainers Runs QuorumManager BroadcastData Option

structure EntryHistory where
  openedIn : View := ⟨∅⟩
  acknowledged : ViewData := ∅
  delivered : ViewData := ∅
  confirmed : ViewData := ∅

def Input.proposedView : Input → View
  | .broadcast _ recipients => ⟨recipients⟩
  | .processMessage (.prepare message) => message.view
  | _ => ⟨∅⟩

namespace DbrbProcess

section

variable (crypto : Crypto) (env : Environment) (p : DbrbProcess)

def opens : Input → Option Hash256
  | .broadcast payload recipients =>
    if recipients ≠ ∅ ∧ View.le ⟨recipients⟩ p.currentView ∧ p.bootstrapView.le ⟨recipients⟩ ∧
        p.id ∈ recipients then
      some (crypto.calculatePayloadHash payload)
    else none
  | .processMessage (.prepare message) =>
    let payloadHash := crypto.calculatePayloadHash message.payload
    if message.view.le p.currentView ∧ message.view.isMember p.id ∧ message.view.isMember message.sender ∧
        message.bootstrapView = p.bootstrapView ∧
        (env.mode = .running → env.validate message.payload payloadHash = .messageValid) ∧
        p.broadcastData[payloadHash]? = none then
      some payloadHash
    else none
  | _ => none

def located (sender : ProcessId) (payloadHash : Hash256) (view : View) : Option BroadcastData :=
  p.broadcastData[payloadHash]?.filter fun data =>
    view.isMember p.id ∧ view.isMember sender ∧ view = data.broadcastView

def accepts : Message → Bool
  | .acknowledged message =>
    (p.located message.sender message.payloadHash message.view).any fun data =>
      verify crypto message.sender data.payload message.view message.payloadSignature
  | .deliver message => (p.located message.sender message.payloadHash message.view).isSome
  | .confirmDeliver message => (p.located message.sender message.payloadHash message.view).isSome
  | _ => false

def track (h : Hash256) (x : Environment × Input) (g : EntryHistory) : EntryHistory :=
  if p.opens crypto x.1 x.2 = some h then { openedIn := p.currentView }
  else match x.2 with
  | .processMessage (.acknowledged m) =>
    if m.payloadHash = h ∧ p.accepts crypto (.acknowledged m) then
      { g with acknowledged := insert m.sender g.acknowledged }
    else g
  | .processMessage (.deliver m) =>
    if m.payloadHash = h ∧ p.accepts crypto (.deliver m) then
      { g with delivered := insert m.sender g.delivered }
    else g
  | .processMessage (.confirmDeliver m) =>
    if m.payloadHash = h ∧ p.accepts crypto (.confirmDeliver m) then
      { g with confirmed := insert m.sender g.confirmed }
    else g
  | _ => g

def history (id : ProcessId) (inputs : List (Environment × Input)) (h : Hash256) : EntryHistory :=
  observe (next crypto) (fun p => p.track crypto h) { id } {} inputs

end

variable {crypto : Crypto} {env : Environment} {p : DbrbProcess} {i : Input} {h : Hash256}

lemma history_snoc {id : ProcessId} {past : List (Environment × Input)} {x : Environment × Input} :
    history crypto id (past ++ [x]) h =
      (run (next crypto) { id } past).track crypto h x (history crypto id past h) :=
  observe_snoc _ _ _ _ _

lemma located_eq_some {sender : ProcessId} {view : View} {d : BroadcastData} :
    p.located sender h view = some d ↔ Located p sender h view d := by
  rw [located, filter_eq_some_iff, decide_eq_true_iff]
  exact ⟨fun ⟨hd, hm, hs, hv⟩ => ⟨hm, hs, hd, hv⟩, fun hl => ⟨hl.entry, hl.member, hl.sender, hl.view⟩⟩

lemma accepts_acknowledged {m : AcknowledgedMessage} : p.accepts crypto (.acknowledged m) ↔
    ∃ d, Located p m.sender m.payloadHash m.view d ∧ verify crypto m.sender d.payload m.view m.payloadSignature := by
  simp only [accepts, any_eq_true, located_eq_some]

lemma accepts_deliver {m : DeliverMessage} :
    p.accepts crypto (.deliver m) ↔ ∃ d, Located p m.sender m.payloadHash m.view d := by
  simp only [accepts, isSome_iff_exists, located_eq_some]

lemma accepts_confirmDeliver {m : ConfirmDeliverMessage} : p.accepts crypto (.confirmDeliver m) ↔
    ∃ d, Located p m.sender m.payloadHash m.view d := by
  simp only [accepts, isSome_iff_exists, located_eq_some]

section

inductive NewEntry (p : DbrbProcess) (view : View) : BroadcastData → Prop
  | mk {payload : Payload} {now : Timestamp} {payloadSignature : Signature} {payloadValidated : Bool} :
      view.isMember p.id → view.data ⊆ p.currentView.data →
      NewEntry p view { payload, broadcastView := view, bootstrapView := p.bootstrapView, begin := now
                        payloadSignature, payloadValidated }

lemma step_of_opens (ho : p.opens crypto env i = some h) :
    ∃ d, (p.step crypto env i).1 = p.clearData.store h d ∧ NewEntry p i.proposedView d := by
  cases i with
  | broadcast payload recipients =>
    simp only [opens, ite_none_right_eq_some, some.injEq] at ho
    obtain ⟨⟨hne, hle, hb, hm⟩, rfl⟩ := ho
    simp only [step, broadcast, View.isMember_iff, hne, hle, hb, hm, not_true, if_false]
    exact ⟨_, rfl, .mk hm (View.le_iff.mp hle)⟩
  | processMessage m =>
    cases m with
    | prepare m =>
      simp only [opens, ite_none_right_eq_some, some.injEq] at ho
      obtain ⟨⟨hle, hm, hs, hb, hv, hn⟩, rfl⟩ := ho
      have hval : ¬ (env.mode = .running ∧ env.validate m.payload
          (crypto.calculatePayloadHash m.payload) ≠ .messageValid) := fun h => h.2 (hv h.1)
      simp only [step, processMessage, onPrepareMessageReceived, hle, hm, hs, hb, not_true, if_false, ne_eq,
        decide_eq_true_eq]
      rw [if_neg hval, hn]
      exact ⟨_, rfl, .mk hm (View.le_iff.mp hle)⟩
    | _ => contradiction
  | updateView | maybeDeliver | clearData => contradiction

lemma broadcast_of_not_opens {payload : Payload} {recipients : ViewData}
    (ho : p.opens crypto env (.broadcast payload recipients) = none) :
    (p.broadcast crypto env payload recipients).1 = p := by
  simp only [opens, ite_eq_right_iff, reduceCtorEq, imp_false, not_and] at ho
  simp only [broadcast, ite_not]
  split_ifs with hne hle hb hm
  · rfl
  · exact absurd hm (ho hne hle hb)
  all_goals rfl

lemma onPrepareMessageReceived_of_not_opens {m : PrepareMessage}
    (ho : p.opens crypto env (.processMessage (.prepare m)) = none) :
    (p.onPrepareMessageReceived crypto env m).1 = p := by
  simp only [opens, ite_eq_right_iff, reduceCtorEq, imp_false, not_and] at ho
  simp only [onPrepareMessageReceived, decide_eq_true_eq, ne_eq, ite_not]
  split
  next hle =>
    split
    next hm =>
      split
      next hs =>
        split
        next hb =>
          split
          next => rfl
          next hv =>
            have hval := ho hle hm hs hb fun hmo => not_not.mp fun hne => hv ⟨hmo, hne⟩
            split
            next => rfl
            next hn => exact absurd hn hval
        next => rfl
      next => rfl
    next => rfl
  next => rfl

variable {I : Hash256 → BroadcastData → Prop}

lemma opening_allEntries (hp : p.opens crypto env i = none → p.AllEntries I)
    (hnot : p.opens crypto env i = none → (p.step crypto env i).1 = p)
    (hnew : ∀ h d, p.opens crypto env i = some h → NewEntry p i.proposedView d → I h d) :
    (p.step crypto env i).1.AllEntries I := by
  rcases ho : p.opens crypto env i with - | k
  · rw [hnot ho]
    exact hp ho
  · obtain ⟨d, hs, hd⟩ := step_of_opens ho
    rw [hs]
    exact allEntries_clearData.store (hnew k d ho hd)

theorem step_allEntries_of_opens (hp : p.AllEntries I)
    (hnew : ∀ h d, p.opens crypto env i = some h → NewEntry p i.proposedView d → I h d)
    (hs : ∀ h d d', EntryStep crypto env p i h d d' → I h d → I h d') : (p.step crypto env i).1.AllEntries I := by
  cases i with
  | broadcast payload recipients => exact opening_allEntries (fun _ => hp) broadcast_of_not_opens hnew
  | processMessage m =>
    cases m with
    | prepare m => exact opening_allEntries (fun _ => hp) onPrepareMessageReceived_of_not_opens hnew
    | _ => exact processMessage_allEntries hp (fun _ he => by contradiction) hs
  | updateView view bootstrapProcesses =>
    rcases step_updateView crypto env p view bootstrapProcesses with h | ⟨_, h⟩ <;> rw [h] <;> exact hp
  | maybeDeliver => exact maybeDeliver_allEntries hp hs
  | clearData => exact allEntries_clearData

end

end DbrbProcess

end XpxChain.Dbrb
