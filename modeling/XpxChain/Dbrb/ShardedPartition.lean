import XpxChain.Dbrb.ShardedDelivery
import XpxChain.Dbrb.ShardTree
import XpxChain.Library.Runs

/-! The certificates of an entry of `ShardedDbrbProcess` as parts of its tree. -/

namespace XpxChain.Dbrb.ShardedDbrbProcess

open Library OrderedContainers Runs ShardBroadcastData Finset

structure MadeFrom (id : ProcessId) (shardSize : ℕ) (d : ShardBroadcastData) (tree : DbrbTreeView) : Prop where
  shard : createDbrbShard tree id shardSize = .ok d.shard
  stored : d.tree = tree ∨ d.tree = []
  member : id ∈ tree
  broadcaster : d.broadcaster = tree.headD 0
  distinct : tree.Nodup ∨ tree[0]? = some id

structure CertificatesPartition (p : ShardedDbrbProcess) (d : ShardBroadcastData) : Prop where
  overlap : keySet d.parentShardDeliverCertificate ∩ keySet d.childShardDeliverCertificate ⊆ {p.id}
  sides : keySet d.parentShardDeliverCertificate ∪ keySet d.childShardDeliverCertificate ⊆ {p.id} ∨
    ∃ tree, MadeFrom p.id p.shardSize d tree ∧
      (∀ q ∈ keySet d.childShardDeliverCertificate, q ≠ p.id → InSubtree (p.shardSize - 1) tree p.id q) ∧
      ∀ q ∈ keySet d.parentShardDeliverCertificate, q ≠ p.id → ¬ InSubtree (p.shardSize - 1) tree p.id q

/-- No `at` of a message handler throws. -/
def LookupsSucceed (crypto : Crypto) (_past : List (Environment × ShardedInput)) (p : ShardedDbrbProcess)
    (x : Environment × ShardedInput) : Prop :=
  (p.step crypto x.1 x.2).error ≠ some .outOfRange

/-- The trees of PREPARE messages name no process twice, only a payload without an entry is broadcast, and
no COMMIT message reaches the broadcaster of its payload from the zero key, which stands for a missing
parent. -/
def OpensDistinct (crypto : Crypto) (_past : List (Environment × ShardedInput)) (p : ShardedDbrbProcess)
    (x : Environment × ShardedInput) : Prop :=
  match x.2 with
  | .broadcast payload _ _ => (p.entry (crypto.calculatePayloadHash payload)).payload = none
  | .processMessage (.shardPrepare m) => ReachesSignature crypto x.1 p m → m.view.Nodup
  | .processMessage (.shardCommit m) => (p.entry m.payloadHash).broadcaster = p.id → m.sender ≠ 0
  | _ => True

structure Partitioned (id : ProcessId) (shardSize : ℕ) (d : ShardBroadcastData) : Prop where
  fresh : d.payload = none → d = {}
  parent : keySet d.parentShardDeliverCertificate ⊆ insert id d.shard.parentMembers
  child : keySet d.childShardDeliverCertificate ⊆ insert id d.shard.childMembers
  shard : d.shard = {} ∨ ∃ tree, MadeFrom id shardSize d tree
  parentRecipients : d.commitMessageSent →
    d.shard.children ⊆ keySet d.parentShardDeliverCertificateRecipients
  childRecipients : d.commitMessageSent → id = d.broadcaster ∨
    insert d.shard.parent d.shard.siblings ⊆ keySet d.childShardDeliverCertificateRecipients

variable {crypto : Crypto} {p : ShardedDbrbProcess} {x : Environment × ShardedInput} {id : ProcessId}
  {shardSize : ℕ} {d : ShardBroadcastData} {payload : Payload}

lemma partitioned_empty : Partitioned id shardSize {} := by
  constructor
  case fresh => exact fun _ => rfl
  case shard => exact Or.inl rfl
  all_goals simp

lemma OpenedEntry.partitioned {broadcaster : ProcessId} {shard : DbrbDoubleShard}
    (hd : OpenedEntry payload broadcaster shard d) (hs : d.shard = {} ∨ ∃ tree, MadeFrom id shardSize d tree) :
    Partitioned id shardSize d := by
  constructor
  case fresh => simp [hd.payload]
  case parent => simp [hd.parentCertificate]
  case child => simp [hd.childCertificate]
  case shard => exact hs
  case parentRecipients => simp [hd.commitMessageSent]
  case childRecipients => simp [hd.commitMessageSent]

lemma MadeFrom.congr {e : ShardBroadcastData} {tree : DbrbTreeView} (hd : MadeFrom id shardSize d tree)
    (hs : e.shard = d.shard) (ht : e.tree = d.tree) (hb : e.broadcaster = d.broadcaster) :
    MadeFrom id shardSize e tree :=
  ⟨hs ▸ hd.shard, ht ▸ hd.stored, hd.member, hb.trans hd.broadcaster, hd.distinct⟩

lemma Partitioned.committed {recipients : Recipients} (hd : Partitioned p.id shardSize d)
    (hpay : d.payload = some payload)
    (hr : p.id = d.broadcaster ∨ insert d.shard.parent d.shard.siblings ⊆ keySet recipients) :
    Partitioned p.id shardSize
      { p.ownCommit crypto payload d with childShardDeliverCertificateRecipients := recipients } := by
  refine ⟨?_, ?_, ?_, hd.shard.imp_right fun ⟨tree, h⟩ => ⟨tree, h.congr rfl rfl rfl⟩, ?_, fun _ => hr⟩
  · intro hn
    exact absurd (hpay.symm.trans hn) (by simp)
  · simpa [ShardedDbrbProcess.ownCommit, addOwnSignature, insert_subset_iff] using hd.parent
  · simpa [ShardedDbrbProcess.ownCommit, addOwnSignature, insert_subset_iff] using hd.child
  · simp [ShardedDbrbProcess.ownCommit, addOwnSignature, keySet_register]

lemma Partitioned.signedCommit (hd : Partitioned p.id shardSize d) (hpay : d.payload = some payload) :
    Partitioned p.id shardSize (p.signedCommit crypto payload d) := by
  refine hd.committed hpay (.inr fun q hq => ?_)
  simp only [keySet_register, mem_union, mem_singleton, mem_insert] at hq ⊢
  tauto

lemma Partitioned.addSignature {toParent : Bool} {entry : ProcessId × Signature} (hd : Partitioned id shardSize d)
    (hpay : d.payload = some payload)
    (hmem : entry.1 ∈ (if toParent then d.shard.parentMembers else d.shard.childMembers)) :
    Partitioned id shardSize
      ((if toParent then ShardBroadcastData.addParentSignature else ShardBroadcastData.addChildSignature) d entry) := by
  have hf : d.payload ≠ none := by simp [hpay]
  cases toParent with
  | true =>
    refine ⟨fun hn => absurd hn hf, ?_, hd.child,
      hd.shard.imp_right fun ⟨tree, h⟩ => ⟨tree, h.congr rfl rfl rfl⟩, ?_, hd.childRecipients⟩
    · simpa [addParentSignature] using
        insert_subset (mem_insert_of_mem hmem) hd.parent
    · simpa [addParentSignature] using hd.parentRecipients
  | false =>
    refine ⟨fun hn => absurd hn hf, hd.parent, ?_,
      hd.shard.imp_right fun ⟨tree, h⟩ => ⟨tree, h.congr rfl rfl rfl⟩, hd.parentRecipients, ?_⟩
    · simpa [addChildSignature] using
        insert_subset (mem_insert_of_mem hmem) hd.child
    · simpa [addChildSignature] using hd.childRecipients

lemma partitioned_kept : Kept crypto p fun _ => Partitioned p.id shardSize := by
  intro h payload d d' hpay hs hd
  have hf : d.payload ≠ none := by simp [hpay]
  cases hs with
  | acknowledge | deliver =>
    exact ⟨fun hn => absurd hn hf, hd.parent, hd.child,
      hd.shard.imp_right fun ⟨tree, h⟩ => ⟨tree, h.congr rfl rfl rfl⟩, hd.parentRecipients, hd.childRecipients⟩
  | recipients hpar hch =>
    exact ⟨fun hn => absurd hn hf, hd.parent, hd.child, hd.shard.imp_right fun ⟨tree, h⟩ => ⟨tree, h.congr rfl rfl rfl⟩,
      fun hc => hpar ▸ hd.parentRecipients hc, fun hc => hch ▸ hd.childRecipients hc⟩
  | ownCommit hid => exact hd.committed hpay (.inl hid)
  | commit => exact hd.signedCommit hpay
  | addSignature hmem hv => exact hd.addSignature hpay hmem

section

variable {tree : DbrbTreeView}

lemma MadeFrom.disjoint (hd : MadeFrom id shardSize d tree) : Disjoint d.shard.parentMembers d.shard.childMembers := by
  rcases hd.distinct with hn | hr
  · exact (createDbrbShard_sides hd.shard).2 hn
  · rw [createDbrbShard_root hr hd.shard]
    exact disjoint_empty_left _

lemma Partitioned.certificatesPartition (hd : Partitioned p.id p.shardSize d) : CertificatesPartition p d := by
  have hdi : Disjoint d.shard.parentMembers d.shard.childMembers := by
    rcases hd.shard with hs | ⟨tree, hm⟩
    · rw [hs]
      exact disjoint_empty_left _
    · exact hm.disjoint
  constructor
  · intro q hq
    obtain ⟨hp, hc⟩ := mem_inter.mp hq
    rcases mem_insert.mp (hd.parent hp) with hid | hp
    · exact mem_singleton.mpr hid
    · rcases mem_insert.mp (hd.child hc) with hid | hc
      · exact mem_singleton.mpr hid
      · exact absurd hc (disjoint_left.mp hdi hp)
  · rcases hd.shard with hs | ⟨tree, hm⟩
    · have hpar := hd.parent
      have hch := hd.child
      rw [hs] at hpar hch
      exact Or.inl (union_subset hpar hch)
    · refine Or.inr ⟨tree, hm, fun q hq hne => ?_, fun q hq hne => ?_⟩
      · exact inSubtree_of_mem_childMembers hm.shard ((mem_insert.mp (hd.child hq)).resolve_left hne)
      · exact not_inSubtree_of_mem_parentMembers hm.shard hm.disjoint
          ((mem_insert.mp (hd.parent hq)).resolve_left hne) hne

lemma Partitioned.mem_neighbours (hd : Partitioned id shardSize d) {q : ProcessId} (hq : q ∈ d.shard.neighbours) :
    DbrbShard.Keyed d.shard ∧ (id = d.broadcaster → d.shard.parent = 0 ∧ d.shard.siblings = ∅) := by
  rcases hd.shard with hs | ⟨tree, hm⟩
  · rw [hs] at hq
    contradiction
  · refine ⟨createDbrbShard_keyed hm.shard, fun hid => ?_⟩
    have hr : tree[0]? = some id := by
      have hme := hm.member
      cases tree with
      | nil => simp at hme
      | cons head tree => simpa [hm.broadcaster, eq_comm] using hid
    obtain ⟨hpar, hsi, -⟩ := createDbrbShard_root_neighbours hr hm.shard
    exact ⟨hpar, hsi⟩

lemma deliverTarget_isSome {shard : DbrbDoubleShard} {sender : ProcessId} (hs : DbrbShard.Keyed shard)
    (hn : sender ∈ shard.neighbours) : ∃ target, deliverTarget shard sender = some target := by
  unfold deliverTarget
  split_ifs with hpar hsi
  · exact ⟨_, rfl⟩
  · obtain ⟨view, hv⟩ := mem_keySet_iff.mp (mem_keySet.mpr (hs.siblings sender hsi))
    exact ⟨(true, view), by rw [hv]; rfl⟩
  · have hp := hs.neighbours hn
    simp only [mem_insert, mem_union, hpar, hsi, false_or] at hp
    obtain ⟨view, hv⟩ := mem_keySet_iff.mp (mem_keySet.mpr (hs.children sender hp))
    exact ⟨(false, view), by rw [hv]; rfl⟩

lemma onDeliverMessageReceived_error {m : ShardDeliverMessage}
    (hp : p.AllEntries fun _ => Partitioned p.id p.shardSize) :
    (p.onDeliverMessageReceived crypto m).error = none := by
  have hd := hp.entry (fun _ => partitioned_empty) m.payloadHash
  simp only [onDeliverMessageReceived]
  split
  next => rfl
  next payload hpay =>
    split
    next => rfl
    next hnbr =>
      have hnbr := not_not.mp hnbr
      obtain ⟨target, ht⟩ := deliverTarget_isSome (hd.mem_neighbours hnbr).1 hnbr
      rw [ht]
      dsimp only
      split
      next => rfl
      next => rfl

lemma answerCommit_error {m : ShardCommitMessage} {sent : List Effect} (hd : Partitioned p.id p.shardSize d)
    (hn : m.sender ∈ d.shard.neighbours) (hse : d.commitMessageSent)
    (hz : d.broadcaster = p.id → m.sender ≠ 0) : (p.answerCommit m sent d).error = none := by
  obtain ⟨hk, hro⟩ := hd.mem_neighbours hn
  have hre : ∀ {recipients : Recipients} {quorumCollected : Bool}, m.sender ∈ keySet recipients →
      ∃ r, requestCertificate m.sender quorumCollected recipients = some r := by
    intro recipients quorumCollected hmem
    obtain ⟨c, hc⟩ := mem_keySet_iff.mp hmem
    exact ⟨_, Option.map_eq_some_iff.mpr ⟨c, hc, rfl⟩⟩
  simp only [answerCommit]
  split
  next hsd =>
    have hmem : m.sender ∈ keySet d.childShardDeliverCertificateRecipients := by
      rcases hd.childRecipients hse with hid | hmem
      · obtain ⟨hpar, hs⟩ := hro hid
        rw [hpar, hs] at hsd
        exact absurd (hsd.resolve_right (notMem_empty _)) (hz hid.symm)
      · exact hmem (by simpa using hsd)
    obtain ⟨r, hr⟩ := hre hmem
    rw [hr]
  next hsd =>
    obtain ⟨hpar, hsi⟩ := not_or.mp hsd
    have hp := hk.neighbours hn
    simp only [mem_insert, mem_union, hpar, hsi, false_or] at hp
    obtain ⟨r, hr⟩ := hre (hd.parentRecipients hse hp)
    rw [hr]

lemma onCommitMessageReceived_error {m : ShardCommitMessage} (hp : p.AllEntries fun _ => Partitioned p.id p.shardSize)
    (hz : (p.entry m.payloadHash).broadcaster = p.id → m.sender ≠ 0) :
    (p.onCommitMessageReceived crypto m).error = none := by
  have hd := hp.entry (fun _ => partitioned_empty) m.payloadHash
  simp only [onCommitMessageReceived]
  split
  next => rfl
  next payload hpay =>
    split
    next => rfl
    next hnbr =>
      have hnbr := not_not.mp hnbr
      split
      next => rfl
      next =>
        split
        next => rfl
        next =>
          split
          next hs => exact answerCommit_error hd hnbr hs hz
          next => exact answerCommit_error (hd.signedCommit hpay) hnbr rfl hz

end

section

variable {past inputs : List (Environment × ShardedInput)}

def PartitionedEntries (p : ShardedDbrbProcess) : Prop := p.AllEntries fun _ => Partitioned p.id p.shardSize

lemma step_partitioned {env : Environment} {i : ShardedInput}
    (hp : p.AllEntries fun _ => Partitioned p.id p.shardSize) (hx : OpensDistinct crypto past p (env, i)) :
    (p.step crypto env i).process.AllEntries fun _ => Partitioned p.id p.shardSize := by
  have hemp : ∀ _ : Hash256, Partitioned p.id p.shardSize {} := fun _ => partitioned_empty
  refine step_allEntries hp hemp partitioned_kept ?_ ?_
  · rintro payload recipients connectedNodes rfl
    refine broadcast_allEntries hp ((hp.entry hemp _).fresh hx) (fun d hd => hd.partitioned (Or.inl hd.shard)) ?_
    intro shard d hd hm ht hs _
    refine hd.partitioned ?_
    rcases createDbrbTreeView_view ht with hnil | ⟨-, hh⟩
    · rw [hnil] at hs
      exact Or.inl (hd.shard.trans (createDbrbShard_nil hs))
    · refine Or.inr ⟨d.tree, hd.shard ▸ hs, Or.inl rfl, List.mem_of_getElem? hh, ?_, Or.inr hh⟩
      rw [hd.broadcaster, List.headD_eq_head?_getD, List.head?_eq_getElem?, hh, Option.getD_some]
  · rintro m rfl
    refine onPrepareMessageReceived_allEntries hp hemp (fun _ _ hd => hd.fresh) ?_
    intro shard d hr hs hd ht
    refine hd.partitioned (Or.inr ⟨m.view, hd.shard ▸ hs, ?_, List.mem_toFinset.mp hr.2.2.1,
      hd.broadcaster, Or.inl (hx hr)⟩)
    cases ht with
    | signed _ ht => exact Or.inl ht
    | unsigned _ ht => exact Or.inr ht

lemma next_partitioned (hp : PartitionedEntries p) (hx : OpensDistinct crypto past p x) :
    PartitionedEntries (p.next crypto x) := by
  obtain ⟨env, i⟩ := x
  have hs := step_partitioned hp hx
  by_cases hi : ∀ view bootstrapProcesses shardSize, i ≠ .updateView view bootstrapProcesses shardSize
  · have hf : p.next crypto (env, i) = { p with broadcastData := (p.next crypto (env, i)).broadcastData } :=
      step_frame hi
    rw [hf]
    exact hs
  · push Not at hi
    obtain ⟨view, bootstrapProcesses, shardSize, rfl⟩ := hi
    simp only [next, step, updateView]
    split
    next => exact hp
    next => exact allEntries_empty

lemma lookupsSucceed_of_partitioned (hp : PartitionedEntries p) (hx : OpensDistinct crypto past p x) :
    LookupsSucceed crypto past p x := by
  obtain ⟨env, i⟩ := x
  rw [LookupsSucceed]
  cases i with
  | broadcast payload recipients connectedNodes =>
    simp only [step, broadcast]
    repeat' split
    all_goals simp
  | processMessage message =>
    cases message with
    | shardPrepare m =>
      simp only [step, processMessage, onPrepareMessageReceived, acceptPrepare]
      repeat' split
      all_goals simp
    | shardAcknowledged m =>
      simp only [step, processMessage, onAcknowledgedMessageReceived]
      repeat' split
      all_goals simp
    | shardCommit m => simp [step, processMessage, onCommitMessageReceived_error hp hx]
    | shardDeliver m => simp [step, processMessage, onDeliverMessageReceived_error hp]
    | _ => simp [step, processMessage]
  | updateView view bootstrapProcesses shardSize =>
    simp only [step, updateView]
    split
    all_goals simp
  | clearData => simp [step]

theorem certificates_partition (h : Always (next crypto) { id, shardSize } (OpensDistinct crypto) inputs) :
    ((run (next crypto) { id, shardSize } inputs).AllEntries fun _ =>
      CertificatesPartition (run (next crypto) { id, shardSize } inputs)) ∧
    Always (next crypto) { id, shardSize } (LookupsSucceed crypto) inputs := by
  constructor
  · have hinv : PartitionedEntries (run (next crypto) { id, shardSize } inputs) :=
      invariant_run (fun _ => PartitionedEntries) allEntries_empty (fun _ _ _ => next_partitioned) h
    exact AllEntries.mono hinv fun _ _ hd => hd.certificatesPartition
  · exact always_of_invariant (fun _ => PartitionedEntries) allEntries_empty (fun _ _ _ => next_partitioned)
      (fun _ _ _ => lookupsSucceed_of_partitioned) h

instance {past : List (Environment × ShardedInput)} : Decidable (OpensDistinct crypto past p x) := by
  obtain ⟨env, input⟩ := x
  cases input with
  | processMessage message => cases message <;> dsimp only [OpensDistinct] <;> infer_instance
  | _ => dsimp only [OpensDistinct]; infer_instance

def ownPayload : Payload := ⟨.pushBlock, [7]⟩

def deliverFrom (sender : ProcessId) (tree : DbrbTreeView) : ShardedInput :=
  .processMessage (.shardDeliver ⟨⟨sender, 263,
    .ofList [(sender, Crypto.plain.sign sender (.tree .dbrbShardDeliverMessage ownPayload tree))]⟩⟩)

def preparedInputs : List (Environment × ShardedInput) :=
  [.updateView {1, 2, 3, 4} ∅ 4,
    .processMessage (.shardPrepare ⟨1, ownPayload, [1, 2, 3, 4],
      Crypto.plain.sign 1 (.tree .dbrbShardPrepareMessage ownPayload [1, 2, 3, 4])⟩),
    deliverFrom 1 [1, 2, 3, 4]].map (Environment.accepting, ·)

theorem certificates_partition_preparedInputs :
    ((run (next .plain) { id := 2, shardSize := 4 } preparedInputs).AllEntries fun _ =>
      CertificatesPartition (run (next .plain) { id := 2, shardSize := 4 } preparedInputs)) ∧
    Always (next .plain) { id := 2, shardSize := 4 } (LookupsSucceed .plain) preparedInputs :=
  certificates_partition (by decide +kernel)

def rebroadcastInputs : List (Environment × ShardedInput) :=
  preparedInputs ++ [.broadcast ownPayload {1, 2, 3, 4} {1, 3, 4}, deliverFrom 1 [2, 1, 3, 4]].map
    (Environment.accepting, ·)

theorem not_certificates_partition :
    ¬ (run (next .plain) { id := 2, shardSize := 4 } rebroadcastInputs).AllEntries fun _ =>
      CertificatesPartition (run (next .plain) { id := 2, shardSize := 4 } rebroadcastInputs) := by
  intro hall
  have hany : (run (next .plain) { id := 2, shardSize := 4 } rebroadcastInputs).broadcastData[(263 : Hash256)]?.any
      (fun d => d.parentShardDeliverCertificate.contains 1 && d.childShardDeliverCertificate.contains 1) := by
    decide +kernel
  obtain ⟨d, hd, hq⟩ := Option.any_eq_true _ _ |>.mp hany
  obtain ⟨hparent, hchild⟩ := Bool.and_eq_true_iff.mp hq
  have hmem : (1 : ProcessId) ∈ keySet d.parentShardDeliverCertificate ∩ keySet d.childShardDeliverCertificate :=
    mem_inter.mpr ⟨mem_keySet.mpr hparent, mem_keySet.mpr hchild⟩
  have hown := (hall _ d hd).overlap hmem
  exact absurd hown (by decide +kernel)

end

end XpxChain.Dbrb.ShardedDbrbProcess
