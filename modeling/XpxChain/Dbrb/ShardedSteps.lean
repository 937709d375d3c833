import XpxChain.Dbrb.ShardedEntries

/-! What one step of `ShardedDbrbProcess` can do to the entries of its broadcast data. -/

namespace XpxChain.Dbrb.ShardedDbrbProcess

open Library OrderedContainers

variable {crypto : Crypto} {env : Environment} {p : ShardedDbrbProcess}

section

variable {I : Hash256 → ShardBroadcastData → Prop}

def ReachesSignature (crypto : Crypto) (env : Environment) (p : ShardedDbrbProcess) (m : ShardPrepareMessage) : Prop :=
  env.validate m.payload (crypto.calculatePayloadHash m.payload) = .messageValid ∧
    ¬ (⟨m.view.toFinset⟩ : View).gt p.currentView ∧ (⟨m.view.toFinset⟩ : View).isMember p.id ∧
    (p.entry (crypto.calculatePayloadHash m.payload)).payload = none ∧
    (createDbrbShard m.view p.id p.shardSize).toOption.any fun shard =>
      shard.initialized && decide (shard.parent = m.sender)
deriving Decidable

def SignedPrepare (crypto : Crypto) (m : ShardPrepareMessage) : Prop :=
  verify crypto .dbrbShardPrepareMessage (m.view.headD 0) m.payload m.view m.broadcasterSignature
deriving Decidable

structure OpenedEntry (payload : Payload) (broadcaster : ProcessId) (shard : DbrbDoubleShard)
    (d : ShardBroadcastData) : Prop where
  payload : d.payload = some payload
  broadcaster : d.broadcaster = broadcaster
  shard : d.shard = shard
  commitMessageSent : d.commitMessageSent = false
  parentCertificate : d.parentShardDeliverCertificate = ∅
  parentRecipients : d.parentShardDeliverCertificateRecipients = ∅
  childCertificate : d.childShardDeliverCertificate = ∅
  childRecipients : d.childShardDeliverCertificateRecipients = ∅

inductive PreparedTree (crypto : Crypto) (m : ShardPrepareMessage) (d : ShardBroadcastData) : Prop
  | signed : SignedPrepare crypto m → d.tree = m.view → d.networkQuorumSize = quorumSize m.view.length →
      PreparedTree crypto m d
  | unsigned : ¬ SignedPrepare crypto m → d.tree = [] → PreparedTree crypto m d

lemma onPrepareMessageReceived_allEntries {m : ShardPrepareMessage} (hp : p.AllEntries I) (hemp : ∀ h, I h {})
    (hf : ∀ h d, I h d → d.payload = none → d = {})
    (ho : ∀ shard d, ReachesSignature crypto env p m → createDbrbShard m.view p.id p.shardSize = .ok shard →
      OpenedEntry m.payload (m.view.headD 0) shard d → PreparedTree crypto m d →
      I (crypto.calculatePayloadHash m.payload) d) :
    (p.onPrepareMessageReceived crypto env m).process.AllEntries I := by
  have hd := hp.entry hemp (crypto.calculatePayloadHash m.payload)
  simp only [onPrepareMessageReceived]
  split
  next => exact hp
  next hval =>
    split
    next => exact hp
    next hv =>
      split
      next => exact hp
      next hm =>
        split
        next => exact hp.store hd
        next hso =>
          split
          next => exact hp.store hd
          next shard hs =>
            split
            next => exact hp.erase
            next hi =>
              split
              next => exact hp.erase
              next hpar =>
                have hn := Option.not_isSome_iff_eq_none.mp hso
                have hr : ReachesSignature crypto env p m := by
                  refine ⟨not_not.mp hval, hv, not_not.mp hm, hn, ?_⟩
                  rw [hs]
                  simpa [Except.toOption] using ⟨not_not.mp hi, not_not.mp hpar⟩
                rw [hf _ _ hd hn]
                split
                next hsig =>
                  exact hp.store (ho shard _ hr hs ⟨rfl, rfl, rfl, rfl, rfl, rfl, rfl, rfl⟩ (.signed hsig rfl rfl))
                next hsig =>
                  exact hp.store (ho shard _ hr hs ⟨rfl, rfl, rfl, rfl, rfl, rfl, rfl, rfl⟩ (.unsigned hsig rfl))

variable {recipients connectedNodes : ViewData}

lemma card_nodes {id : ProcessId} (h : id ∈ recipients) :
    (recipients.erase id ∩ connectedNodes).card + (recipients.erase id \ connectedNodes).card + 1 =
      recipients.card := by
  rw [Finset.card_inter_add_card_sdiff, Finset.card_erase_add_one h]

lemma broadcast_allEntries {payload : Payload} (hp : p.AllEntries I)
    (hemp : p.entry (crypto.calculatePayloadHash payload) = {})
    (hi : ∀ d, OpenedEntry payload p.id {} d → I (crypto.calculatePayloadHash payload) d)
    (ho : ∀ shard d, OpenedEntry payload p.id shard d → p.id ∈ recipients →
      createDbrbTreeView (recipients.erase p.id ∩ connectedNodes) (recipients.erase p.id \ connectedNodes) p.id
      p.shardSize = .ok d.tree → createDbrbShard d.tree p.id p.shardSize = .ok shard →
      d.networkQuorumSize = quorumSize recipients.card → I (crypto.calculatePayloadHash payload) d) :
    (p.broadcast crypto env payload recipients connectedNodes).process.AllEntries I := by
  simp only [broadcast, hemp]
  split
  next => exact hp
  next =>
    split
    next => exact hp
    next =>
      split
      next => exact hp
      next hm =>
        split
        next => exact hp.store (hi _ ⟨rfl, rfl, rfl, rfl, rfl, rfl, rfl, rfl⟩)
        next tree ht =>
          split
          next => exact hp.store (hi _ ⟨rfl, rfl, rfl, rfl, rfl, rfl, rfl, rfl⟩)
          next shard hs =>
            exact hp.store (ho shard _ ⟨rfl, rfl, rfl, rfl, rfl, rfl, rfl, rfl⟩ (not_not.mp hm) ht hs rfl)

theorem step_allEntries {i : ShardedInput} (hp : p.AllEntries I) (hemp : ∀ h, I h {}) (hs : Kept crypto p I)
    (hb : ∀ payload recipients connectedNodes, i = .broadcast payload recipients connectedNodes →
      (p.broadcast crypto env payload recipients connectedNodes).process.AllEntries I)
    (hpr : ∀ m, i = .processMessage (.shardPrepare m) →
      (p.onPrepareMessageReceived crypto env m).process.AllEntries I) :
    (p.step crypto env i).process.AllEntries I := by
  cases i with
  | broadcast payload recipients connectedNodes => exact hb _ _ _ rfl
  | processMessage message =>
    cases message with
    | shardPrepare m => exact hpr m rfl
    | shardAcknowledged m => exact onAcknowledgedMessageReceived_allEntries hp hemp hs
    | shardCommit m => exact onCommitMessageReceived_allEntries hp hemp hs
    | shardDeliver m => exact onDeliverMessageReceived_allEntries hp hemp hs
    | _ => exact hp
  | updateView view bootstrapProcesses shardSize =>
    simp only [step, updateView]
    split
    next => exact hp
    next => exact allEntries_empty
  | clearData => exact allEntries_empty

end

lemma step_frame {i : ShardedInput}
    (hi : ∀ view bootstrapProcesses shardSize, i ≠ .updateView view bootstrapProcesses shardSize) :
    (p.step crypto env i).process = { p with broadcastData := (p.step crypto env i).process.broadcastData } := by
  cases i with
  | broadcast payload recipients connectedNodes =>
    simp only [step, broadcast]
    repeat' split
    all_goals rfl
  | processMessage message =>
    cases message with
    | shardPrepare m =>
      simp only [step, processMessage, onPrepareMessageReceived]
      repeat' split
      all_goals rfl
    | shardAcknowledged m =>
      simp only [step, processMessage, onAcknowledgedMessageReceived]
      repeat' split
      all_goals rfl
    | shardCommit m =>
      simp only [step, processMessage, onCommitMessageReceived, answerCommit]
      repeat' split
      all_goals rfl
    | shardDeliver m =>
      simp only [step, processMessage, onDeliverMessageReceived]
      repeat' split
      all_goals rfl
    | _ => rfl
  | updateView view bootstrapProcesses shardSize => exact absurd rfl (hi _ _ _)
  | clearData => rfl

lemma step_id {i : ShardedInput} : (p.step crypto env i).process.id = p.id := by
  by_cases hi : ∀ view bootstrapProcesses shardSize, i ≠ .updateView view bootstrapProcesses shardSize
  · rw [step_frame hi]
  · push Not at hi
    obtain ⟨view, bootstrapProcesses, shardSize, rfl⟩ := hi
    simp only [step, updateView]
    split
    all_goals rfl

end XpxChain.Dbrb.ShardedDbrbProcess
