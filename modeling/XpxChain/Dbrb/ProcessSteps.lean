import XpxChain.Dbrb.ProcessHandlers

/-! What one step of `DbrbProcess` can do to its broadcast data, and what it sends and delivers. -/

namespace XpxChain.Dbrb.DbrbProcess

variable {crypto : Crypto} {env : Environment} {p : DbrbProcess} {i : Input}
  {I : Hash256 → BroadcastData → Prop}

variable (env p) in
lemma maybeDeliver_cases :
    p.maybeDeliver env = (p, []) ∨ ∃ h d, p.broadcastData[h]? = some d ∧ (p.maybeDeliver env = (p.erase h, []) ∨
        ∃ d₁, d.validated env h = some d₁ ∧ (p.maybeDeliver env = (p.store h d₁, []) ∨
            d₁.confirmDeliverQuorumCollected ∧ d₁.delivered = false ∧
              p.maybeDeliver env = (p.store h { d₁ with delivered := true }, [.deliver d₁.payload]))) := by
  unfold maybeDeliver
  split
  next h d hl =>
    have hd : p.broadcastData[h]? = some d := by
      rw [← Std.ExtTreeMap.mem_toList_iff_getElem?_eq_some, hl]
      exact List.mem_singleton_self _
    refine Or.inr ⟨h, d, hd, ?_⟩
    split
    next => exact Or.inl rfl
    next d₁ hv =>
      refine Or.inr ⟨d₁, hv, ?_⟩
      split
      next hc =>
        obtain ⟨hq, hn⟩ := Bool.and_eq_true_iff.mp hc
        exact Or.inr ⟨hq, Bool.not_eq_true' _ |>.mp hn, rfl⟩
      next => exact Or.inl rfl
  next => exact Or.inl rfl

variable (crypto env p) in
lemma step_updateView (view bootstrapProcesses : ViewData) :
    p.step crypto env (.updateView view bootstrapProcesses) = (p, []) ∨
      bootstrapProcesses ≠ ∅ ∧ p.step crypto env (.updateView view bootstrapProcesses) =
        ({ p with currentView := ⟨view ∪ bootstrapProcesses⟩, bootstrapView := ⟨bootstrapProcesses⟩ }, []) := by
  by_cases hb : bootstrapProcesses = ∅
  · simp [step, updateView, hb]
  · exact Or.inr ⟨hb, by simp [step, updateView, View.merge, hb]⟩

lemma Opened.id_eq {r : DbrbProcess × List Effect} (hr : Opened crypto env p r) : r.1.id = p.id := by
  rcases hr.state with h | ⟨_, _, _, h⟩
  · rw [h]
  · rw [h, store_id, clearData_id]

lemma step_id : (p.step crypto env i).1.id = p.id := by
  cases i with
  | broadcast payload recipients => exact broadcast_opened.id_eq
  | processMessage message =>
    cases message with
    | prepare m => exact onPrepareMessageReceived_opened.id_eq
    | acknowledged m => exact handleEntry_handled.id_eq
    | commit m => exact handleEntry_handled.id_eq
    | deliver m => exact handleEntry_handled.id_eq
    | confirmDeliver m => exact handleEntry_handled.id_eq
    | _ => rfl
  | updateView view bootstrapProcesses =>
    rcases step_updateView crypto env p view bootstrapProcesses with h | ⟨_, h⟩ <;> rw [h]
  | maybeDeliver =>
    rcases maybeDeliver_cases env p with h | ⟨_, _, _, h | ⟨_, _, h | ⟨_, _, h⟩⟩⟩ <;>
      simp only [step, h, store_id, erase_id]
  | clearData => rfl

inductive EntryStep (crypto : Crypto) (env : Environment) (p : DbrbProcess) :
    Input → Hash256 → BroadcastData → BroadcastData → Prop
  | validate {i : Input} {h : Hash256} {d : BroadcastData} : env.validate d.payload h = .messageValid →
      EntryStep crypto env p i h d { d with payloadValidated := true }
  | acknowledge {m : AcknowledgedMessage} {d : BroadcastData} :
      Located p m.sender m.payloadHash m.view d →
      verify crypto m.sender d.payload m.view m.payloadSignature →
      EntryStep crypto env p (.processMessage (.acknowledged m)) m.payloadHash d (d.acknowledge m)
  | certify {m : AcknowledgedMessage} {d : BroadcastData} : m.view = d.broadcastView →
      d.acknowledgedQuorumCollected →
      EntryStep crypto env p (.processMessage (.acknowledged m)) m.payloadHash d
        { d with certificate := d.collectCertificate m }
  | commit {i : Input} {h : Hash256} {d : BroadcastData} :
      EntryStep crypto env p i h d { d with commitMessageDisseminated := true }
  | collectDeliver {m : DeliverMessage} {d : BroadcastData} :
      Located p m.sender m.payloadHash m.view d →
      EntryStep crypto env p (.processMessage (.deliver m)) m.payloadHash d (d.collectDeliver m)
  | confirmDeliver {i : Input} {h : Hash256} {d : BroadcastData} :
      EntryStep crypto env p i h d { d with confirmDeliverMessageDisseminated := true }
  | collectConfirmDeliver {m : ConfirmDeliverMessage} {d : BroadcastData} :
      Located p m.sender m.payloadHash m.view d →
      EntryStep crypto env p (.processMessage (.confirmDeliver m)) m.payloadHash d
        (d.collectConfirmDeliver m)
  | deliver {i : Input} {h : Hash256} {d : BroadcastData} :
      EntryStep crypto env p i h d { d with delivered := true }

lemma Opened.allEntries {r : DbrbProcess × List Effect} (hr : Opened crypto env p r) (hp : p.AllEntries I)
    (hf : ∀ h d, Fresh crypto env p h d → I h d) : r.1.AllEntries I := by
  rcases hr.state with h | ⟨h, d, hd, hr⟩
  · rwa [h]
  · rw [hr]
    exact allEntries_clearData.store (hf h d hd)

lemma processMessage_allEntries {m : Message} (hp : p.AllEntries I)
    (hf : ∀ prepare, m = .prepare prepare → ∀ h d, Fresh crypto env p h d → I h d)
    (hs : ∀ h d d', EntryStep crypto env p (.processMessage m) h d d' → I h d → I h d') :
    (p.processMessage crypto env m).1.AllEntries I := by
  cases m with
  | prepare m => exact onPrepareMessageReceived_opened.allEntries hp (hf m rfl)
  | acknowledged m =>
    apply handleEntry_handled.allEntries hp _ (fun d hd hv => hs _ _ _ (.validate hv) hd)
    · intro d hd hvi
      split
      next hq =>
        have hc := hs _ _ _ (.certify hvi.symm (Bool.and_eq_true_iff.mp hq).1) hd
        unfold onAcknowledgedQuorumCollected
        split
        next => exact hc
        next => exact hs _ _ _ .commit hc
      next => exact hd
    · intro d d₁ hl hd hr
      split at hr
      next hv =>
        cases hr
        exact ⟨hs _ _ _ (.acknowledge hl hv) hd, hl.view.symm⟩
      next => contradiction
  | commit m =>
    apply handleEntry_handled.allEntries hp _ (fun d hd hv => hs _ _ _ (.validate hv) hd)
    · intro d hd hvi
      exact hs _ _ _ .commit hd
    · intro d d₁ hl hd hr
      split at hr
      next hv =>
        cases hr
        exact ⟨hd, hl.view.symm⟩
      next => contradiction
  | deliver m =>
    apply handleEntry_handled.allEntries hp _ (fun d hd hv => hs _ _ _ (.validate hv) hd)
    · intro d hd hvi
      split
      next => exact hs _ _ _ .confirmDeliver hd
      next => exact hd
    · intro d d₁ hl hd hr
      cases hr
      exact ⟨hs _ _ _ (.collectDeliver hl) hd, hl.view.symm⟩
  | confirmDeliver m =>
    apply handleEntry_handled.allEntries hp _ (fun d hd hv => hs _ _ _ (.validate hv) hd)
    · intro d hd hvi
      split
      next => exact hs _ _ _ .deliver hd
      next => exact hd
    · intro d d₁ hl hd hr
      cases hr
      exact ⟨hs _ _ _ (.collectConfirmDeliver hl) hd, hl.view.symm⟩
  | _ => exact hp

lemma maybeDeliver_allEntries (hp : p.AllEntries I)
    (hs : ∀ h d d', EntryStep crypto env p .maybeDeliver h d d' → I h d → I h d') :
    (p.maybeDeliver env).1.AllEntries I := by
  have hva : ∀ {h d d₁}, p.broadcastData[h]? = some d → d.validated env h = some d₁ → I h d₁ := by
    intro h d d₁ hd hv
    rcases validated_cases hv with ⟨rfl, _⟩ | ⟨rfl, hval⟩
    · exact hp _ _ hd
    · exact hs _ _ _ (.validate hval) (hp _ _ hd)
  rcases maybeDeliver_cases env p with h | ⟨h, d, hd, h | ⟨d₁, hv, h | ⟨_, _, h⟩⟩⟩
  all_goals rw [h]
  · exact hp
  · exact hp.erase
  · exact hp.store (hva hd hv)
  · exact hp.store (hs _ _ _ .deliver (hva hd hv))

theorem step_allEntries (hp : p.AllEntries I) (hf : ∀ h d, Fresh crypto env p h d → I h d)
    (hs : ∀ h d d', EntryStep crypto env p i h d d' → I h d → I h d') : (p.step crypto env i).1.AllEntries I := by
  cases i with
  | broadcast payload recipients => exact broadcast_opened.allEntries hp hf
  | processMessage m => exact processMessage_allEntries hp (fun _ _ => hf) hs
  | updateView view bootstrapProcesses =>
    rcases step_updateView crypto env p view bootstrapProcesses with h | ⟨_, h⟩ <;> rw [h] <;> exact hp
  | maybeDeliver => exact maybeDeliver_allEntries hp hs
  | clearData => exact allEntries_clearData

variable {crypto : Crypto} {env : Environment} {p : DbrbProcess} {i : Input} {e : Effect}

structure CommitAccepted (crypto : Crypto) (env : Environment) (p : DbrbProcess) (m : CommitMessage)
    (d : BroadcastData) : Prop where
  located : Located p m.sender m.payloadHash m.view d
  verified : ∀ q s, m.certificate[q]? = some s → verify crypto q d.payload m.view s
  running : env.mode = .running
  valid : d.payloadValidated ∨ env.validate d.payload m.payloadHash = .messageValid

lemma CommitAccepted.validated {m : CommitMessage} {d : BroadcastData} (h : CommitAccepted crypto env p m d) :
    d.validated env m.payloadHash = some { d with payloadValidated := true } := by
  unfold BroadcastData.validated
  split
  next hv => rw [← hv]
  next hv => rw [if_pos (h.valid.resolve_left hv)]

inductive StepEffect (crypto : Crypto) (env : Environment) (p r : DbrbProcess) : Input → Effect → Prop
  | opening {i : Input} {e : Effect} : Opening p.id e → StepEffect crypto env p r i e
  | ownCommit {m : AcknowledgedMessage} {d d₁ : BroadcastData} {recipients : ViewData} :
      Located p m.sender m.payloadHash m.view d →
      verify crypto m.sender d.payload m.view m.payloadSignature →
      (d.acknowledge m).validated env m.payloadHash = some d₁ → d₁.acknowledgedQuorumCollected →
      r.broadcastData[m.payloadHash]? = some { d₁ with
        certificate := d₁.collectCertificate m, commitMessageDisseminated := true } →
      StepEffect crypto env p r (.processMessage (.acknowledged m))
        (.disseminate (.commit ⟨p.id, m.payloadHash, d₁.collectCertificate m, m.view⟩) recipients)
  | relayedCommit {m : CommitMessage} {d : BroadcastData} {recipients : ViewData} :
      CommitAccepted crypto env p m d →
      r.broadcastData[m.payloadHash]? = some { d with
        payloadValidated := true, commitMessageDisseminated := true } →
      StepEffect crypto env p r (.processMessage (.commit m))
        (.disseminate (.commit ⟨p.id, m.payloadHash, m.certificate, m.view⟩) recipients)
  | deliver {m : CommitMessage} {d : BroadcastData} {recipients : ViewData} :
      CommitAccepted crypto env p m d →
      r.broadcastData[m.payloadHash]? = some { d with
        payloadValidated := true, commitMessageDisseminated := true } →
      StepEffect crypto env p r (.processMessage (.commit m))
        (.disseminate (.deliver ⟨p.id, m.payloadHash, m.view⟩) recipients)
  | confirmDeliver {m : DeliverMessage} {d : BroadcastData} {recipients : ViewData} :
      p.id ∈ m.view.data → m.view = d.broadcastView → d.deliverQuorumCollected →
      r.broadcastData[m.payloadHash]? = some d →
      StepEffect crypto env p r (.processMessage (.deliver m))
        (.disseminate (.confirmDeliver ⟨p.id, m.payloadHash, m.view⟩) recipients)
  | delivered {i : Input} {h : Hash256} {d : BroadcastData} : d.confirmDeliverQuorumCollected →
      r.broadcastData[h]? = some d → StepEffect crypto env p r i (.deliver d.payload)

lemma onAcknowledgedMessageReceived_effect {m : AcknowledgedMessage}
    (he : e ∈ (p.onAcknowledgedMessageReceived crypto env m).2) :
    StepEffect crypto env p (p.onAcknowledgedMessageReceived crypto env m).1 (.processMessage (.acknowledged m)) e := by
  obtain ⟨d, d₁, d₂, hl, hr, -, hv, heq⟩ := handleEntry_handled.finished_of_mem he
  rw [onAcknowledgedMessageReceived, heq] at he ⊢
  split at hr
  next hve =>
    cases hr
    split at he
    next hq =>
      rw [if_pos hq]
      unfold onAcknowledgedQuorumCollected at he ⊢
      split at he
      next => simp at he
      next hc =>
        obtain rfl := List.mem_singleton.mp he
        refine .ownCommit hl hve hv (Bool.and_eq_true_iff.mp hq).1 ?_
        simp [hc]
    next => simp at he
  next => contradiction

lemma onCommitMessageReceived_effect {m : CommitMessage} (he : e ∈ (p.onCommitMessageReceived crypto env m).2) :
    StepEffect crypto env p (p.onCommitMessageReceived crypto env m).1 (.processMessage (.commit m)) e := by
  obtain ⟨d, d₁, d₂, hl, hr, hm, hv, heq⟩ := handleEntry_handled.finished_of_mem he
  rw [onCommitMessageReceived, heq] at he ⊢
  split at hr
  next hall =>
    cases hr
    have hc : CommitAccepted crypto env p m d := by
      refine ⟨hl, ?_, hm, ?_⟩
      · intro q s hq
        exact List.all_eq_true.mp hall (q, s) (Std.ExtTreeMap.mem_toList_iff_getElem?_eq_some.mpr hq)
      · exact (validated_cases hv).imp And.right And.right
    obtain rfl : { d with payloadValidated := true } = d₂ := Option.some.inj (hc.validated.symm.trans hv)
    rcases List.mem_append.mp he with he | he
    · split at he
      next => simp at he
      next =>
        obtain rfl := List.mem_singleton.mp he
        exact .relayedCommit hc getElem?_store
    · obtain rfl := List.mem_singleton.mp he
      exact .deliver hc getElem?_store
  next => contradiction

lemma onDeliverMessageReceived_effect {m : DeliverMessage} (he : e ∈ (p.onDeliverMessageReceived env m).2) :
    StepEffect crypto env p (p.onDeliverMessageReceived env m).1 (.processMessage (.deliver m)) e := by
  obtain ⟨d, d₁, d₂, hl, hr, -, hv, heq⟩ := handleEntry_handled.finished_of_mem he
  rw [onDeliverMessageReceived, heq] at he ⊢
  cases hr
  split at he
  next hq =>
    rw [if_pos hq]
    obtain rfl := List.mem_singleton.mp he
    refine .confirmDeliver (d := { d₂ with confirmDeliverMessageDisseminated := true }) hl.member ?_ hq.1 getElem?_store
    rcases validated_cases hv with ⟨rfl, _⟩ | ⟨rfl, _⟩ <;> exact hl.view
  next => simp at he

lemma onConfirmDeliverMessageReceived_effect {m : ConfirmDeliverMessage}
    (he : e ∈ (p.onConfirmDeliverMessageReceived env m).2) :
    StepEffect crypto env p (p.onConfirmDeliverMessageReceived env m).1 (.processMessage (.confirmDeliver m)) e := by
  obtain ⟨d, d₁, d₂, hl, hr, -, hv, heq⟩ := handleEntry_handled.finished_of_mem he
  rw [onConfirmDeliverMessageReceived, heq] at he ⊢
  split at he
  next hq =>
    rw [if_pos hq]
    obtain rfl := List.mem_singleton.mp he
    exact .delivered (d := { d₂ with delivered := true }) (Bool.and_eq_true_iff.mp hq).1 getElem?_store
  next => simp at he

lemma maybeDeliver_effect (he : e ∈ (p.maybeDeliver env).2) :
    StepEffect crypto env p (p.maybeDeliver env).1 .maybeDeliver e := by
  rcases maybeDeliver_cases env p with h | ⟨h, d, -, h | ⟨d₁, -, h | ⟨hq, -, h⟩⟩⟩
  all_goals rw [h] at he ⊢
  · simp at he
  · simp at he
  · simp at he
  · obtain rfl := List.mem_singleton.mp he
    exact .delivered (d := { d₁ with delivered := true }) hq getElem?_store

theorem step_effect (he : e ∈ (p.step crypto env i).2) : StepEffect crypto env p (p.step crypto env i).1 i e := by
  cases i with
  | broadcast payload recipients => exact .opening (broadcast_opened.effects e he)
  | processMessage message =>
    cases message with
    | prepare m => exact .opening (onPrepareMessageReceived_opened.effects e he)
    | acknowledged m => exact onAcknowledgedMessageReceived_effect he
    | commit m => exact onCommitMessageReceived_effect he
    | deliver m => exact onDeliverMessageReceived_effect he
    | confirmDeliver m => exact onConfirmDeliverMessageReceived_effect he
    | _ => simp [step, processMessage] at he
  | updateView view bootstrapProcesses =>
    rcases step_updateView crypto env p view bootstrapProcesses with h | ⟨_, h⟩ <;> simp [h] at he
  | maybeDeliver => exact maybeDeliver_effect he
  | clearData => simp [step] at he

lemma step_sender {m : Message} {recipients : ViewData}
    (he : .disseminate m recipients ∈ (p.step crypto env i).2) : m.sender = p.id := by
  cases step_effect he with
  | opening ho => cases ho <;> assumption
  | _ => rfl

end XpxChain.Dbrb.DbrbProcess
