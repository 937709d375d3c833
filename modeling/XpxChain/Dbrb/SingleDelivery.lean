import XpxChain.Dbrb.History
import XpxChain.Dbrb.ProcessInvariant

/-! How often `DbrbProcess` delivers a payload. -/

namespace XpxChain.Dbrb

open Library Runs

def Effect.delivered? : Effect → Option Payload
  | .deliver payload => some payload
  | .disseminate _ _ => none

namespace DbrbProcess

section

variable (crypto : Crypto)

def deliveries (id : ProcessId) (inputs : List (Environment × Input)) : List Hash256 :=
  observe (next crypto) (fun p x hashes => hashes ++
    ((p.step crypto x.1 x.2).2.filterMap Effect.delivered?).map crypto.calculatePayloadHash) { id } [] inputs

def OpensUndelivered (id : ProcessId) (past : List (Environment × Input)) (p : DbrbProcess)
    (x : Environment × Input) : Prop :=
  ∀ h, p.opens crypto x.1 x.2 = some h → h ∉ deliveries crypto id past

instance (id : ProcessId) (past : List (Environment × Input)) (p : DbrbProcess) (x : Environment × Input) :
    Decidable (OpensUndelivered crypto id past p x) :=
  decidable_of_iff ((p.opens crypto x.1 x.2).all fun h => h ∉ deliveries crypto id past)
    (by simp [OpensUndelivered, Option.all_eq_true])

end

variable {crypto : Crypto} {env : Environment} {p : DbrbProcess} {i : Input} {h : Hash256}
  {d d' : BroadcastData}

lemma deliveries_snoc {id : ProcessId} {past : List (Environment × Input)} {x : Environment × Input} :
    deliveries crypto id (past ++ [x]) = deliveries crypto id past ++
      (((run (next crypto) { id } past).step crypto x.1 x.2).2.filterMap Effect.delivered?).map
        crypto.calculatePayloadHash :=
  observe_snoc _ _ _ _ _

structure Delivers (p : DbrbProcess) (r : DbrbProcess × List Effect) (h : Hash256) (d d' : BroadcastData) : Prop where
  entry : p.broadcastData[h]? = some d
  before : d.delivered = false
  after : d'.delivered
  payload : d'.payload = d.payload
  result : r = (p.store h d', [.deliver d'.payload])

def Silent (effects : List Effect) : Prop := ∀ payload, .deliver payload ∉ effects

lemma Silent.filterMap_eq_nil {effects : List Effect} (hs : Silent effects) :
    effects.filterMap Effect.delivered? = [] := by
  rw [List.filterMap_eq_nil_iff]
  intro e he
  cases e with
  | deliver payload => exact absurd he (hs payload)
  | disseminate => rfl

variable {r : DbrbProcess × List Effect} {delivered : List Hash256}

lemma Opened.silent (hr : Opened crypto env p r) : Silent r.2 := by
  intro payload he
  cases hr.effects _ he

section

variable {sender : ProcessId} {view : View} {record : BroadcastData → Option BroadcastData}
  {finish : BroadcastData → BroadcastData × List Effect}

lemma handleEntry_silent (hf : ∀ e, Silent (finish e).2) :
    Silent (p.handleEntry env sender h view record finish).2 := by
  intro payload he
  obtain ⟨-, -, d₂, -, -, -, -, heq⟩ := handleEntry_handled.finished_of_mem he
  rw [heq] at he
  exact hf d₂ payload he

end

lemma validated_delivered (hv : d.validated env h = some d') : d'.delivered = d.delivered ∧ d'.payload = d.payload := by
  rcases validated_cases hv with ⟨rfl, _⟩ | ⟨rfl, _⟩ <;> exact ⟨rfl, rfl⟩

lemma onConfirmDeliverMessageReceived_delivers {m : ConfirmDeliverMessage} :
    Silent (p.onConfirmDeliverMessageReceived env m).2 ∨
      ∃ h d d', Delivers p (p.onConfirmDeliverMessageReceived env m) h d d' := by
  by_cases hs : Silent (p.onConfirmDeliverMessageReceived env m).2
  · exact Or.inl hs
  · obtain ⟨payload, he⟩ := not_forall_not.mp hs
    obtain ⟨d, d₁, d₂, hl, hr, -, hv, heq⟩ := handleEntry_handled.finished_of_mem he
    cases hr
    obtain ⟨hd, hpay⟩ := validated_delivered hv
    rw [onConfirmDeliverMessageReceived, heq] at he ⊢
    split at he
    next hc =>
      have hn := Bool.not_eq_true' _ |>.mp (Bool.and_eq_true_iff.mp hc).2
      exact Or.inr ⟨_, d, { d₂ with delivered := true }, hl.entry, hd ▸ hn, rfl, hpay, by rw [if_pos hc]⟩
    next => simp at he

lemma maybeDeliver_delivers : Silent (p.maybeDeliver env).2 ∨ ∃ h d d', Delivers p (p.maybeDeliver env) h d d' := by
  rcases maybeDeliver_cases env p with heq | ⟨h, d, hd, heq | ⟨d₁, hv, heq | ⟨-, hn, heq⟩⟩⟩
  · exact Or.inl (by simp [heq, Silent])
  · exact Or.inl (by simp [heq, Silent])
  · exact Or.inl (by simp [heq, Silent])
  · obtain ⟨hde, hpay⟩ := validated_delivered hv
    exact Or.inr ⟨h, d, { d₁ with delivered := true }, hd, hde ▸ hn, rfl, hpay, heq⟩

variable (crypto env p i) in
lemma step_delivers : Silent (p.step crypto env i).2 ∨ ∃ h d d', Delivers p (p.step crypto env i) h d d' := by
  cases i with
  | broadcast payload recipients => exact Or.inl broadcast_opened.silent
  | processMessage m =>
    cases m with
    | prepare m => exact Or.inl onPrepareMessageReceived_opened.silent
    | acknowledged m =>
      refine Or.inl (handleEntry_silent fun e payload he => ?_)
      unfold onAcknowledgedQuorumCollected at he
      split_ifs at he <;> simp at he
    | commit m =>
      refine Or.inl (handleEntry_silent fun e payload he => ?_)
      split_ifs at he <;> simp at he
    | deliver m =>
      refine Or.inl (handleEntry_silent fun e payload he => ?_)
      split_ifs at he <;> simp at he
    | confirmDeliver m => exact onConfirmDeliverMessageReceived_delivers
    | _ => exact Or.inl (by simp [step, processMessage, Silent])
  | updateView view bootstrapProcesses =>
    rcases step_updateView crypto env p view bootstrapProcesses with h | ⟨_, h⟩ <;>
      exact Or.inl (by simp [h, Silent])
  | maybeDeliver => exact maybeDeliver_delivers
  | clearData => exact Or.inl (by simp [step, Silent])

structure Marked (crypto : Crypto) (delivered : List Hash256) (h : Hash256) (d : BroadcastData) : Prop where
  inv : EntryInv crypto (fun _ => True) (fun _ => True) h d
  marked : h ∈ delivered → d.delivered

lemma step_marked (hp : p.AllEntries (Marked crypto delivered))
    (hx : ∀ h, p.opens crypto env i = some h → h ∉ delivered) :
    (p.step crypto env i).1.AllEntries (Marked crypto delivered) := by
  intro h d hd
  constructor
  · exact step_entryInv (hp.mono fun _ _ hd => hd.inv) (fun _ _ _ => trivial) (fun _ _ => trivial) h d hd
  · refine step_allEntries_of_opens (hp.mono fun _ _ hd => hd.marked) ?_ ?_ h d hd
    · exact fun h d ho _ hmem => absurd hmem (hx h ho)
    · intro h d d' hs hm hmem
      cases hs with
      | deliver => rfl
      | _ => exact hm hmem

lemma Delivers.marked (hd : Delivers p r h d d') (hp : p.AllEntries (Marked crypto delivered))
    (hr : r.1.AllEntries (Marked crypto delivered)) :
    h ∉ delivered ∧ (r.2.filterMap Effect.delivered?).map crypto.calculatePayloadHash = [h] ∧
      r.1.AllEntries (Marked crypto (delivered ++ [h])) := by
  obtain ⟨hinv, hm⟩ := hp h d hd.entry
  refine ⟨?_, ?_, ?_⟩
  · intro hmem
    exact absurd (hm hmem) (hd.before ▸ Bool.false_ne_true)
  · rw [hd.result, hinv.hash, ← hd.payload]
    rfl
  · intro k e he
    refine ⟨(hr k e he).inv, fun hmem => ?_⟩
    rcases List.mem_append.mp hmem with hmem | hmem
    · exact (hr k e he).marked hmem
    · obtain rfl := List.mem_singleton.mp hmem
      rw [hd.result, getElem?_store] at he
      exact Option.some.inj he ▸ hd.after

theorem deliveries_nodup {id : ProcessId} {inputs : List (Environment × Input)}
    (h : Always (next crypto) { id } (OpensUndelivered crypto id) inputs) : (deliveries crypto id inputs).Nodup := by
  suffices hinv : (deliveries crypto id inputs).Nodup ∧
      (run (next crypto) { id } inputs).AllEntries (Marked crypto (deliveries crypto id inputs)) from hinv.1
  induction inputs using List.reverseRecOn with
  | nil => exact ⟨List.nodup_nil, allEntries_new⟩
  | append_singleton past x ih =>
    obtain ⟨hpast, hx⟩ := always_snoc.mp h
    obtain ⟨hnodup, hp⟩ := ih hpast
    have hstep := step_marked hp hx
    rw [deliveries_snoc, run_snoc]
    rcases step_delivers crypto x.1 (run (next crypto) { id } past) x.2 with hs | ⟨k, d, d', hd⟩
    · rw [hs.filterMap_eq_nil, List.map_nil, List.append_nil]
      exact ⟨hnodup, hstep⟩
    · obtain ⟨hnew, heq, hmarked⟩ := hd.marked hp hstep
      rw [heq]
      exact ⟨hnodup.append (List.nodup_singleton k) (by simpa using hnew), hmarked⟩

def preparation (byte : UInt8) : Environment × Input :=
  (.accepting, .processMessage (.prepare ⟨2, ⟨.pushBlock, [byte]⟩, ⟨{1, 2}⟩, ⟨{1, 2}⟩⟩))

def confirmationFrom (sender : ProcessId) : Environment × Input :=
  (.accepting, .processMessage (.confirmDeliver ⟨sender, 263, ⟨{1, 2}⟩⟩))

theorem deliveries_nodup_confirmed :
    deliveries .plain 1 [(.accepting, .updateView ∅ {1, 2}), preparation 7, confirmationFrom 1,
      confirmationFrom 2, preparation 8] = [263] ∧
    (deliveries .plain 1 [(.accepting, .updateView ∅ {1, 2}), preparation 7, confirmationFrom 1,
      confirmationFrom 2, preparation 8]).Nodup :=
  ⟨by decide +kernel, deliveries_nodup (by decide +kernel)⟩

def repeatedPrepare : List (Environment × Input) :=
  [(.accepting, .updateView ∅ {1, 2}), preparation 7, confirmationFrom 1, confirmationFrom 2,
    preparation 8, preparation 7, confirmationFrom 1, confirmationFrom 2]

theorem not_deliveries_nodup : ¬ (deliveries .plain 1 repeatedPrepare).Nodup := by
  decide +kernel

end DbrbProcess

end XpxChain.Dbrb
