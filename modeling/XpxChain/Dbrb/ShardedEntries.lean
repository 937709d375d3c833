import XpxChain.Dbrb.ShardedProcess

/-! What the messages of a broadcast can do to its entry in `ShardedDbrbProcess`. -/

namespace XpxChain.Dbrb.ShardedDbrbProcess

open Library OrderedContainers

variable {crypto : Crypto} {env : Environment} {p : ShardedDbrbProcess}

def AllEntries (p : ShardedDbrbProcess) (I : Hash256 → ShardBroadcastData → Prop) : Prop :=
  ∀ h d, p.broadcastData[h]? = some d → I h d

section

variable {I J : Hash256 → ShardBroadcastData → Prop} {h : Hash256} {d : ShardBroadcastData}

lemma AllEntries.mono (hp : p.AllEntries I) (hij : ∀ h d, I h d → J h d) : p.AllEntries J :=
  fun h d he => hij h d (hp h d he)

lemma AllEntries.store (hp : p.AllEntries I) (hd : I h d) : (p.store h d).AllEntries I :=
  forall_insert (fun k e _ => hp k e) hd

lemma AllEntries.erase (hp : p.AllEntries I) : (p.erase h).AllEntries I := forall_erase fun k e _ => hp k e

lemma allEntries_empty {id : ProcessId} {shardSize : ℕ} {currentView : View} :
    AllEntries { id, shardSize, currentView } I := by
  intro k e he
  simp at he

lemma AllEntries.entry (hp : p.AllEntries I) (hemp : ∀ h, I h {}) (h : Hash256) : I h (p.entry h) := by
  rw [ShardedDbrbProcess.entry, Std.ExtTreeMap.getD_eq_getD_getElem?]
  cases hd : p.broadcastData[h]? with
  | none => exact hemp h
  | some d => exact hp h d hd

end

section

variable {recipients : Recipients}

@[simp] lemma keySet_addSignature {signer : ProcessId} {signature : Signature} :
    keySet (recipients.addSignature signer signature) = keySet recipients := by
  ext q
  simp [Recipients.addSignature]

variable {quorumCollected : Bool}

@[simp] lemma keySet_notify : keySet (recipients.notify quorumCollected) = keySet recipients := by
  ext q
  simp [Recipients.notify]

lemma keySet_requestCertificate {sender : ProcessId} {r : Recipients × Option CertificateType}
    (h : requestCertificate sender quorumCollected recipients = some r) : keySet r.1 = keySet recipients := by
  obtain ⟨c, hc, rfl⟩ := Option.map_eq_some_iff.mp h
  have hs : sender ∈ keySet recipients := mem_keySet_iff.mpr ⟨c, hc⟩
  dsimp only
  split_ifs
  · rw [keySet_insert, Finset.insert_eq_of_mem hs]
  · rw [keySet_insert, Finset.insert_eq_of_mem hs]

lemma keySet_register {ids : ViewData} {certificate : CertificateType} :
    keySet (recipients.register ids certificate) = keySet recipients ∪ ids := by
  rw [Recipients.register, keySet_foldl_insertIfNew (f := fun _ => (⟨false, false, certificate⟩ : DeliverCertificate))]
  congr 1
  ext q
  simp

end

def ownCommit (crypto : Crypto) (p : ShardedDbrbProcess) (payload : Payload)
    (data : ShardBroadcastData) : ShardBroadcastData :=
  let signed := { data with commitMessageSent := true }.addOwnSignature p.id
    (p.sign crypto .dbrbShardDeliverMessage payload data.tree)
  { signed with
    parentShardDeliverCertificateRecipients := signed.parentShardDeliverCertificateRecipients.register
      data.shard.children signed.parentShardDeliverCertificate }

inductive EntryStep (crypto : Crypto) (p : ShardedDbrbProcess) (payload : Payload) :
    ShardBroadcastData → ShardBroadcastData → Prop
  | acknowledge {d : ShardBroadcastData} {certificate : CertificateType} {acknowledged : Bool} :
      EntryStep crypto p payload d { d with acknowledgeCertificate := certificate, acknowledged }
  | ownCommit {d : ShardBroadcastData} : p.id = d.broadcaster →
      EntryStep crypto p payload d (p.ownCommit crypto payload d)
  | commit {d : ShardBroadcastData} : EntryStep crypto p payload d (p.signedCommit crypto payload d)
  | recipients {d : ShardBroadcastData} {parent child : Recipients} :
      keySet parent = keySet d.parentShardDeliverCertificateRecipients →
      keySet child = keySet d.childShardDeliverCertificateRecipients →
      EntryStep crypto p payload d { d with
        parentShardDeliverCertificateRecipients := parent, childShardDeliverCertificateRecipients := child }
  | addSignature {d : ShardBroadcastData} {toParent : Bool} {entry : ProcessId × Signature} :
      entry.1 ∈ (if toParent then d.shard.parentMembers else d.shard.childMembers) →
      verify crypto .dbrbShardDeliverMessage entry.1 payload d.tree entry.2 →
      EntryStep crypto p payload d
        ((if toParent then ShardBroadcastData.addParentSignature else ShardBroadcastData.addChildSignature) d entry)
  | deliver {d : ShardBroadcastData} {delivered : Bool} : EntryStep crypto p payload d { d with delivered }

lemma EntryStep.frame {payload : Payload} {d d' : ShardBroadcastData} (h : EntryStep crypto p payload d d') :
    d'.payload = d.payload ∧ d'.shard = d.shard ∧ d'.tree = d.tree ∧ d'.broadcaster = d.broadcaster := by
  cases h with
  | @addSignature toParent => cases toParent <;> exact ⟨rfl, rfl, rfl, rfl⟩
  | _ => exact ⟨rfl, rfl, rfl, rfl⟩

def Kept (crypto : Crypto) (p : ShardedDbrbProcess) (I : Hash256 → ShardBroadcastData → Prop) : Prop :=
  ∀ h payload d d', d.payload = some payload → EntryStep crypto p payload d d' → I h d → I h d'

section

variable {I : Hash256 → ShardBroadcastData → Prop}
  {view : ViewData} {payload : Payload} {m : ShardCommitMessage} {d : ShardBroadcastData} {h : Hash256}

lemma acceptedSignatures_spec {type : PacketType} {tree : DbrbTreeView} {certificate : CertificateType}
    {entry : ProcessId × Signature} (h : entry ∈ acceptedSignatures crypto type view payload tree certificate) :
    entry.1 ∈ view ∧ verify crypto type entry.1 payload tree entry.2 := by
  simpa using List.mem_takeWhile_imp h

lemma deliverTarget_subset {shard : DbrbDoubleShard} {sender : ProcessId} {toParent : Bool}
    (h : deliverTarget shard sender = some (toParent, view)) :
    view ⊆ if toParent then shard.parentMembers else shard.childMembers := by
  unfold deliverTarget at h
  split_ifs at h
  · obtain ⟨rfl, rfl⟩ := Prod.mk.inj (Option.some.inj h)
    exact Finset.subset_union_left
  · obtain ⟨siblings, hs, h⟩ := Option.map_eq_some_iff.mp h
    obtain ⟨rfl, rfl⟩ := Prod.mk.inj h
    exact (subset_viewMembers hs).trans Finset.subset_union_right
  · obtain ⟨children, hc, h⟩ := Option.map_eq_some_iff.mp h
    obtain ⟨rfl, rfl⟩ := Prod.mk.inj h
    exact subset_viewMembers hc

lemma onAcknowledgedMessageReceived_allEntries {m : ShardAcknowledgedMessage} (hp : p.AllEntries I)
    (hemp : ∀ h, I h {}) (hs : Kept crypto p I) : (p.onAcknowledgedMessageReceived crypto m).process.AllEntries I := by
  have hd := hp.entry hemp m.payloadHash
  simp only [onAcknowledgedMessageReceived]
  split
  next payload childView hpay hv =>
    split_ifs with hlen hq hid hse
    · exact hp.store (hs _ _ _ _ hpay .acknowledge hd)
    · exact hp.store (hs _ _ _ _ hpay .acknowledge hd)
    · exact hp.store (hs _ _ _ _ hpay .acknowledge hd)
    · let d : ShardBroadcastData :=
        { p.entry m.payloadHash with acknowledgeCertificate := ∅, acknowledged := true }
      exact hp.store (hs _ payload d _ hpay (.ownCommit hid) (hs _ _ _ _ hpay .acknowledge hd))
    · exact hp.store (hs _ _ _ _ hpay .acknowledge hd)
  next => exact hp.store hd

lemma answerCommit_allEntries {sent : List Effect} (hp : p.AllEntries I) (hs : Kept crypto p I)
    (hpay : d.payload = some payload) (hd : I m.payloadHash d) : (p.answerCommit m sent d).process.AllEntries I := by
  simp only [answerCommit]
  split_ifs
  · split
    next => exact hp.store hd
    next hr => exact hp.store (hs _ _ _ _ hpay (.recipients rfl (keySet_requestCertificate hr)) hd)
  · split
    next => exact hp.store hd
    next hr => exact hp.store (hs _ _ _ _ hpay (.recipients (keySet_requestCertificate hr) rfl) hd)

lemma onCommitMessageReceived_allEntries (hp : p.AllEntries I)
    (hemp : ∀ h, I h {}) (hs : Kept crypto p I) : (p.onCommitMessageReceived crypto m).process.AllEntries I := by
  have hd := hp.entry hemp m.payloadHash
  simp only [onCommitMessageReceived]
  split
  next => exact hp.store hd
  next payload hpay =>
    split_ifs
    · exact hp.store hd
    · exact answerCommit_allEntries hp hs hpay hd
    · exact answerCommit_allEntries hp hs hpay (hs _ _ _ _ hpay .commit hd)
    · exact hp.store hd
    · exact hp.store hd

lemma addSignatures_keep (accepted : List (ProcessId × Signature)) (toParent : Bool) (hst : Kept crypto p I)
    (hpay : d.payload = some payload)
    (hs : ∀ entry ∈ accepted, entry.1 ∈ (if toParent then d.shard.parentMembers else d.shard.childMembers) ∧
      verify crypto .dbrbShardDeliverMessage entry.1 payload d.tree entry.2)
    (hd : I h d) :
    ∃ d', accepted.foldl (if toParent then
      ShardBroadcastData.addParentSignature else ShardBroadcastData.addChildSignature) d = d' ∧
      I h d' ∧ d'.payload = some payload ∧ d'.shard = d.shard := by
  induction accepted generalizing d with
  | nil => exact ⟨d, rfl, hd, hpay, rfl⟩
  | cons entry accepted ih =>
    obtain ⟨hmem, hv⟩ := hs entry List.mem_cons_self
    have hr := fun other ho => hs other (List.mem_cons_of_mem entry ho)
    have hd' := hst h _ _ _ hpay (.addSignature hmem hv) hd
    cases toParent with
    | true => exact ih hpay hr hd'
    | false => exact ih hpay hr hd'

lemma onDeliverMessageReceived_cases {m : ShardDeliverMessage} (hp : p.AllEntries I) (hemp : ∀ h, I h {})
    (hst : Kept crypto p I) :
    (∃ d, I m.payloadHash d ∧ (p.onDeliverMessageReceived crypto m).process = p.store m.payloadHash d ∧
        (p.onDeliverMessageReceived crypto m).effects = []) ∨
      ∃ payload d, d.payload = some payload ∧ m.sender ∈ d.shard.neighbours ∧ I m.payloadHash d ∧
        p.onDeliverMessageReceived crypto m = p.completeDeliver m.payloadHash payload d := by
  have hd := hp.entry hemp m.payloadHash
  simp only [onDeliverMessageReceived]
  split
  next => exact Or.inl ⟨_, hd, rfl, rfl⟩
  next payload hpay =>
    split
    next => exact Or.inl ⟨_, hd, rfl, rfl⟩
    next hnbr =>
      split
      next => exact Or.inl ⟨_, hd, rfl, rfl⟩
      next toParent view ht =>
        obtain ⟨d, heq, hd, hpay, hs⟩ :=
          addSignatures_keep (acceptedSignatures crypto .dbrbShardDeliverMessage view payload
            (p.entry m.payloadHash).tree m.certificate) toParent hst hpay
          (fun entry he => (acceptedSignatures_spec he).imp_left fun hv => deliverTarget_subset ht hv) hd
        rw [heq]
        split
        next => exact Or.inl ⟨d, hd, rfl, rfl⟩
        next => exact Or.inr ⟨payload, d, hpay, hs ▸ not_not.mp hnbr, hd, rfl⟩

lemma completeDeliver_allEntries (hp : p.AllEntries I) (hs : Kept crypto p I) (hpay : d.payload = some payload)
    (hd : I h d) :
    (p.completeDeliver h payload d).process.AllEntries I := by
  let notified : ShardBroadcastData := { d with
    parentShardDeliverCertificateRecipients :=
      d.parentShardDeliverCertificateRecipients.notify d.parentQuorumCollected
    childShardDeliverCertificateRecipients :=
      d.childShardDeliverCertificateRecipients.notify d.childQuorumCollected }
  have hn : I h notified := hs _ _ _ _ hpay (.recipients keySet_notify keySet_notify) hd
  exact hp.store (hs _ payload notified _ hpay .deliver hn)

lemma onDeliverMessageReceived_allEntries {m : ShardDeliverMessage} (hp : p.AllEntries I)
    (hemp : ∀ h, I h {}) (hs : Kept crypto p I) : (p.onDeliverMessageReceived crypto m).process.AllEntries I := by
  rcases onDeliverMessageReceived_cases hp hemp hs with ⟨d, hd, hr, -⟩ | ⟨payload, d, hpay, -, hd, hr⟩
  · rw [hr]
    exact hp.store hd
  · rw [hr]
    exact completeDeliver_allEntries hp hs hpay hd

end

end XpxChain.Dbrb.ShardedDbrbProcess
