import XpxChain.Dbrb.ShardedSteps
import XpxChain.Dbrb.TreeView
import XpxChain.Library.Runs

/-! The invariant of the entries of `ShardedDbrbProcess`, and the signatures behind a delivery. -/

namespace XpxChain.Dbrb

open Library OrderedContainers Runs

def SignedBy (crypto : Crypto) (id : ProcessId) (payload : Payload) (tree : DbrbTreeView) (members : ViewData)
    (certificate : CertificateType) : Prop :=
  ∀ q s, certificate[q]? = some s → (q = id ∨ q ∈ members) ∧
    ShardedDbrbProcess.verify crypto .dbrbShardDeliverMessage q payload tree s

variable {crypto : Crypto} {id : ProcessId} {payload : Payload} {tree : DbrbTreeView} {members : ViewData}

lemma SignedBy.insertIfNew {q : ProcessId} {certificate : CertificateType} {s : Signature}
    (h : SignedBy crypto id payload tree members certificate) (hq : q = id ∨ q ∈ members)
    (hs : ShardedDbrbProcess.verify crypto .dbrbShardDeliverMessage q payload tree s) :
    SignedBy crypto id payload tree members (certificate.insertIfNew q s) := by
  intro r t hr
  rw [Std.ExtTreeMap.getElem?_insertIfNew] at hr
  split_ifs at hr with hc
  · obtain rfl := Std.LawfulEqCmp.eq_of_compare hc.1
    cases hr
    exact ⟨hq, hs⟩
  · exact h r t hr

lemma signedBy_empty : SignedBy crypto id payload tree members ∅ := by
  intro q s hq
  simp at hq

structure ActiveEntry (crypto : Crypto) (id : ProcessId) (verified : Payload → DbrbTreeView → Prop)
    (payload : Payload) (d : ShardBroadcastData) : Prop where
  verified : verified payload d.tree
  quorum : d.networkQuorumSize = quorumSize d.tree.length
  member : id ∈ d.tree
  within : DbrbShard.Within d.tree.toFinset d.shard
  separated : Disjoint d.shard.parentMembers d.shard.childMembers
  parent : SignedBy crypto id payload d.tree d.shard.parentMembers d.parentShardDeliverCertificate
  child : SignedBy crypto id payload d.tree d.shard.childMembers d.childShardDeliverCertificate

structure ShardEntryInv (crypto : Crypto) (id : ProcessId) (verified : Payload → DbrbTreeView → Prop)
    (h : Hash256) (d : ShardBroadcastData) : Prop where
  fresh : d.payload = none → d = {}
  active : ∀ payload, d.payload = some payload → h = crypto.calculatePayloadHash payload ∧
    (d.shard.neighbours = ∅ ∧ d.shard.childViews = ∅ ∨ ActiveEntry crypto id verified payload d)

section

variable {crypto : Crypto} {id : ProcessId} {verified later : Payload → DbrbTreeView → Prop}
  {payload : Payload} {h : Hash256} {d : ShardBroadcastData}

lemma ActiveEntry.mono (ha : ActiveEntry crypto id verified payload d)
    (hv : ∀ payload tree, verified payload tree → later payload tree) : ActiveEntry crypto id later payload d :=
  { ha with verified := hv _ _ ha.verified }

lemma ActiveEntry.addOwnSignature (ha : ActiveEntry crypto id verified payload d) :
    ActiveEntry crypto id verified payload
      (d.addOwnSignature id (crypto.sign id (.tree .dbrbShardDeliverMessage payload d.tree))) :=
  { ha with
    parent := ha.parent.insertIfNew (Or.inl rfl) (crypto.verify_sign _ _)
    child := ha.child.insertIfNew (Or.inl rfl) (crypto.verify_sign _ _) }

lemma ShardEntryInv.of_payload (hd : d.payload = some payload) (hh : h = crypto.calculatePayloadHash payload)
    (ha : d.shard.neighbours = ∅ ∧ d.shard.childViews = ∅ ∨ ActiveEntry crypto id verified payload d) :
    ShardEntryInv crypto id verified h d := by
  constructor
  · intro hn
    rw [hn] at hd
    contradiction
  · intro other ho
    obtain rfl := Option.some.inj (hd.symm.trans ho)
    exact ⟨hh, ha⟩

lemma shardEntryInv_fresh : ShardEntryInv crypto id verified h {} := by
  constructor
  · intro _
    rfl
  · intro payload hp
    contradiction

variable {p : ShardedDbrbProcess} {shard : DbrbDoubleShard}

lemma ActiveEntry.step {d' : ShardBroadcastData}
    (ha : ActiveEntry crypto p.id verified payload d) (hs : ShardedDbrbProcess.EntryStep crypto p payload d d') :
    ActiveEntry crypto p.id verified payload d' := by
  cases hs with
  | acknowledge | recipients | deliver => exact { ha with }
  | ownCommit | commit => exact { ha.addOwnSignature with }
  | @addSignature toParent _ hmem hv =>
    cases toParent with
    | true => exact { ha with parent := ha.parent.insertIfNew (Or.inr hmem) hv }
    | false => exact { ha with child := ha.child.insertIfNew (Or.inr hmem) hv }

lemma shardEntryInv_kept : ShardedDbrbProcess.Kept crypto p (ShardEntryInv crypto p.id verified) := by
  intro h payload d d' hp hs hd
  obtain ⟨hpay, hsh, -, -⟩ := hs.frame
  obtain ⟨hh, hent⟩ := hd.active payload hp
  exact .of_payload (hpay.trans hp) hh (hent.imp (hsh ▸ ·) (·.step hs))

lemma shardEntryInv_of_prepare {m : ShardPrepareMessage}
    {broadcaster : ProcessId} (hm : p.id ∈ m.view.toFinset) (hsh : createDbrbShard m.view p.id p.shardSize = .ok shard)
    (hd : ShardedDbrbProcess.OpenedEntry m.payload broadcaster shard d) (ht : d.tree = m.view)
    (hq : d.networkQuorumSize = quorumSize m.view.length) (hn : m.view.Nodup) (hv : verified m.payload m.view) :
    ShardEntryInv crypto p.id verified (crypto.calculatePayloadHash m.payload) d := by
  obtain ⟨hw, hs⟩ := createDbrbShard_sides hsh
  refine .of_payload hd.payload rfl (Or.inr ?_)
  constructor
  case verified => exact ht ▸ hv
  case quorum => exact ht ▸ hq
  case member => exact ht ▸ List.mem_toFinset.mp hm
  case within => exact ht ▸ hd.shard ▸ hw
  case separated => exact hd.shard ▸ hs hn
  case parent => exact hd.parentCertificate ▸ signedBy_empty
  case child => exact hd.childCertificate ▸ signedBy_empty

lemma shardEntryInv_of_broadcast {recipients connectedNodes : ViewData} (hm : p.id ∈ recipients)
    (ht : createDbrbTreeView (recipients.erase p.id ∩ connectedNodes) (recipients.erase p.id \ connectedNodes) p.id
      p.shardSize = .ok d.tree) (hs : createDbrbShard d.tree p.id p.shardSize = .ok shard)
    (hd : ShardedDbrbProcess.OpenedEntry payload p.id shard d) (hq : d.networkQuorumSize = quorumSize recipients.card)
    (hv : ∀ tree : DbrbTreeView, tree[0]? = some p.id → verified payload tree) :
    ShardEntryInv crypto p.id verified (crypto.calculatePayloadHash payload) d := by
  refine .of_payload hd.payload rfl ?_
  rcases createDbrbTreeView_view ht with hnil | ⟨hlen, hh⟩
  · left
    rw [hnil] at hs
    rw [hd.shard, createDbrbShard_nil hs]
    exact ⟨rfl, rfl⟩
  · right
    rw [ShardedDbrbProcess.card_nodes hm] at hlen
    constructor
    case verified => exact hv _ hh
    case quorum => rw [hq, hlen]
    case member => exact List.mem_of_getElem? hh
    case within => exact hd.shard ▸ (createDbrbShard_sides hs).1
    case separated => rw [hd.shard, createDbrbShard_root hh hs]; exact Finset.disjoint_empty_left _
    case parent => exact hd.parentCertificate ▸ signedBy_empty
    case child => exact hd.childCertificate ▸ signedBy_empty

def deliverSigners (crypto : Crypto) (payload : Payload) (d : ShardBroadcastData) : ViewData :=
  (keySet d.parentShardDeliverCertificate ∪ keySet d.childShardDeliverCertificate).filter fun q =>
    q ∈ d.tree ∧
      (d.parentShardDeliverCertificate[q]?.any
          (ShardedDbrbProcess.verify crypto .dbrbShardDeliverMessage q payload d.tree) ∨
        d.childShardDeliverCertificate[q]?.any
          (ShardedDbrbProcess.verify crypto .dbrbShardDeliverMessage q payload d.tree))

lemma ActiveEntry.quorum_le_card (ha : ActiveEntry crypto id verified payload d) (hq : d.networkQuorumCollected) :
    quorumSize d.tree.length ≤ (deliverSigners crypto payload d).card := by
  have hi : keySet d.parentShardDeliverCertificate ∩ keySet d.childShardDeliverCertificate ⊆ {id} := by
    intro q hq
    obtain ⟨hp, hc⟩ := Finset.mem_inter.mp hq
    obtain ⟨s, hs⟩ := mem_keySet_iff.mp hp
    obtain ⟨t, ht⟩ := mem_keySet_iff.mp hc
    rcases (ha.parent q s hs).1 with hid | hpar
    · exact Finset.mem_singleton.mpr hid
    · rcases (ha.child q t ht).1 with hid | hch
      · exact Finset.mem_singleton.mpr hid
      · exact absurd hch (Finset.disjoint_left.mp ha.separated hpar)
  have hm : ∀ q, q = id ∨ q ∈ d.shard.parentMembers ∨ q ∈ d.shard.childMembers → q ∈ d.tree := by
    rintro q (rfl | hq | hq)
    · exact ha.member
    · exact List.mem_toFinset.mp (ha.within.1 hq)
    · exact List.mem_toFinset.mp (ha.within.2 hq)
  have hsub : keySet d.parentShardDeliverCertificate ∪ keySet d.childShardDeliverCertificate ⊆
      deliverSigners crypto payload d := by
    intro q hq
    refine Finset.mem_filter.mpr ⟨hq, ?_⟩
    rcases Finset.mem_union.mp hq with hq | hq
    · obtain ⟨s, hs⟩ := mem_keySet_iff.mp hq
      obtain ⟨hsi, hv⟩ := ha.parent q s hs
      exact ⟨hm q (hsi.imp_right Or.inl), Or.inl (by simp [hs, hv])⟩
    · obtain ⟨s, hs⟩ := mem_keySet_iff.mp hq
      obtain ⟨hsi, hv⟩ := ha.child q s hs
      exact ⟨hm q (hsi.imp_right Or.inr), Or.inr (by simp [hs, hv])⟩
  have hca := Quorums.card_union_of_inter_subset_singleton hi
  have hsz := of_decide_eq_true hq
  rw [← card_keySet, ← card_keySet, ha.quorum] at hsz
  exact le_trans (by omega) (Finset.card_le_card hsub)

end

namespace ShardedDbrbProcess

variable {crypto : Crypto} {env : Environment} {p : ShardedDbrbProcess} {x : Environment × ShardedInput}
  {past : List (Environment × ShardedInput)}

inductive BroadcasterVerified (crypto : Crypto) (id : ProcessId) (inputs : List (Environment × ShardedInput)) :
    Payload → DbrbTreeView → Prop
  | prepare {env m} : (env, .processMessage (.shardPrepare m)) ∈ inputs → SignedPrepare crypto m →
      BroadcasterVerified crypto id inputs m.payload m.view
  | own {env payload recipients connectedNodes} {tree : DbrbTreeView} :
      (env, .broadcast payload recipients connectedNodes) ∈ inputs → tree[0]? = some id →
      BroadcasterVerified crypto id inputs payload tree

variable {later : List (Environment × ShardedInput)} {payload : Payload}

lemma BroadcasterVerified.mono {id : ProcessId} {inputs : List (Environment × ShardedInput)}
    {tree : DbrbTreeView} (hsub : inputs ⊆ later)
    (h : BroadcasterVerified crypto id inputs payload tree) : BroadcasterVerified crypto id later payload tree := by
  cases h with
  | prepare hm hs => exact .prepare (hsub hm) hs
  | own hb ht => exact .own (hsub hb) ht

def DeliversVerified (crypto : Crypto) (past : List (Environment × ShardedInput)) (p : ShardedDbrbProcess)
    (x : Environment × ShardedInput) : Prop :=
  ∀ payload, .deliver payload ∈ (p.step crypto x.1 x.2).effects →
    ∃ d, (p.next crypto x).broadcastData[crypto.calculatePayloadHash payload]? = some d ∧
      d.payload = some payload ∧ BroadcasterVerified crypto p.id (past ++ [x]) payload d.tree ∧
      quorumSize d.tree.length ≤ (deliverSigners crypto payload d).card

/-- A PREPARE message that reaches the check of its signature passes it and names no process twice, and
only a payload without an entry is broadcast. -/
def OpensSoundly (crypto : Crypto) (_past : List (Environment × ShardedInput)) (p : ShardedDbrbProcess)
    (x : Environment × ShardedInput) : Prop :=
  match x.2 with
  | .broadcast payload _ _ => (p.entry (crypto.calculatePayloadHash payload)).payload = none
  | .processMessage (.shardPrepare m) => ReachesSignature crypto x.1 p m → SignedPrepare crypto m ∧ m.view.Nodup
  | _ => True

lemma deliver_mem_step {i : ShardedInput} (h : .deliver payload ∈ (p.step crypto env i).effects) :
    ∃ m, i = .processMessage (.shardDeliver m) := by
  cases i with
  | broadcast payload recipients connectedNodes =>
    simp only [step, broadcast] at h
    repeat' split at h
    all_goals simp at h
  | processMessage message =>
    cases message with
    | shardDeliver m => exact ⟨m, rfl⟩
    | shardPrepare m =>
      simp only [step, processMessage, onPrepareMessageReceived, acceptPrepare] at h
      repeat' split at h
      all_goals simp at h
    | shardAcknowledged m =>
      simp only [step, processMessage, onAcknowledgedMessageReceived] at h
      repeat' split at h
      all_goals simp at h
    | shardCommit m =>
      simp only [step, processMessage, onCommitMessageReceived, answerCommit] at h
      repeat' split at h
      all_goals simp at h
    | _ => simp [step, processMessage] at h
  | updateView view bootstrapProcesses shardSize =>
    simp only [step, updateView] at h
    split at h
    all_goals simp at h
  | clearData => simp [step] at h

lemma deliver_mem_completeDeliver {h : Hash256} {other : Payload} {d : ShardBroadcastData}
    (he : .deliver payload ∈ (p.completeDeliver h other d).effects) : payload = other ∧ d.networkQuorumCollected := by
  simp only [completeDeliver, List.mem_append, List.mem_map] at he
  rcases he with ⟨_, -, hne⟩ | he
  · contradiction
  · split at he
    next hd =>
      rw [Bool.and_eq_true] at hd
      exact ⟨Effect.deliver.inj (List.mem_singleton.mp he), hd.2⟩
    next => contradiction

def VerifiedEntries (crypto : Crypto) (past : List (Environment × ShardedInput)) (p : ShardedDbrbProcess) : Prop :=
  p.AllEntries (ShardEntryInv crypto p.id (BroadcasterVerified crypto p.id past))

lemma VerifiedEntries.mono (hp : VerifiedEntries crypto past p)
    (hsub : past ⊆ later) : VerifiedEntries crypto later p :=
  AllEntries.mono hp fun _ _ hd =>
    { fresh := hd.fresh
      active := fun payload hpay => (hd.active payload hpay).imp_right fun hact =>
        hact.imp_right fun ha => ha.mono fun _ _ => .mono hsub }

lemma VerifiedEntries.next (hp : VerifiedEntries crypto past p) (hx : OpensSoundly crypto past p x) :
    VerifiedEntries crypto (past ++ [x]) (p.next crypto x) := by
  obtain ⟨env, i⟩ := x
  have hk := hp.mono (List.subset_append_left past [(env, i)])
  have hl : (env, i) ∈ past ++ [(env, i)] := by simp
  rw [VerifiedEntries, ShardedDbrbProcess.next, step_id]
  refine step_allEntries hk (fun _ => shardEntryInv_fresh) shardEntryInv_kept ?_ ?_
  · rintro payload recipients connectedNodes rfl
    have hf := (hk.entry (fun _ => shardEntryInv_fresh) (crypto.calculatePayloadHash payload)).fresh hx
    refine broadcast_allEntries hk hf ?_ ?_
    · intro d hd
      refine .of_payload hd.payload rfl (Or.inl ?_)
      rw [hd.shard]
      exact ⟨rfl, rfl⟩
    · intro shard d hd hm ht hs hq
      exact shardEntryInv_of_broadcast hm ht hs hd hq fun tree => .own hl
  · rintro m rfl
    refine onPrepareMessageReceived_allEntries hk (fun _ => shardEntryInv_fresh) (fun _ _ hd => hd.fresh) ?_
    intro shard d hr hs hd ht
    obtain ⟨hsig, hnd⟩ := hx hr
    cases ht with
    | signed _ ht hq =>
      exact shardEntryInv_of_prepare hr.2.2.1 hs hd ht hq hnd (.prepare hl hsig)
    | unsigned hu => exact absurd hsig hu

lemma deliversVerified_of_entries (hp : VerifiedEntries crypto past p) : DeliversVerified crypto past p x := by
  obtain ⟨env, i⟩ := x
  intro payload he
  obtain ⟨m, rfl⟩ := deliver_mem_step he
  have hk := hp.mono (List.subset_append_left past [(env, .processMessage (.shardDeliver m))])
  rcases onDeliverMessageReceived_cases (m := m) hk (fun _ => shardEntryInv_fresh) shardEntryInv_kept with
    ⟨d, -, -, hr⟩ | ⟨other, d, hd, hnbr, hinv, hr⟩
  · have hn : .deliver payload ∈ (p.onDeliverMessageReceived crypto m).effects := he
    simp [hr] at hn
  · obtain ⟨hh, hent⟩ := hinv.active other hd
    have ha := hent.resolve_left fun hi => by simp [hi.1] at hnbr
    have hmem : .deliver payload ∈ (p.completeDeliver m.payloadHash other d).effects := hr ▸ he
    obtain ⟨rfl, hq⟩ := deliver_mem_completeDeliver hmem
    have hne : p.next crypto (env, .processMessage (.shardDeliver m)) =
        (p.completeDeliver m.payloadHash payload d).process := congrArg ShardedOutcome.process hr
    rw [hne, hh]
    exact ⟨_, Std.ExtTreeMap.getElem?_insert_self, hd, ha.verified, ha.quorum_le_card hq⟩

theorem delivers_verified {id : ProcessId} {shardSize : ℕ} {inputs : List (Environment × ShardedInput)}
    (h : Always (next crypto) { id, shardSize } (OpensSoundly crypto) inputs) :
    Always (next crypto) { id, shardSize } (DeliversVerified crypto) inputs := by
  refine always_of_invariant (VerifiedEntries crypto) allEntries_empty (fun _ _ _ hp hx => hp.next hx) ?_ h
  intro past p x hp _
  exact deliversVerified_of_entries hp

instance {past : List (Environment × ShardedInput)} : Decidable (OpensSoundly crypto past p x) := by
  unfold OpensSoundly
  split <;> infer_instance

def samplePayload : Payload := ⟨.pushBlock, [7]⟩

def sampleTree : DbrbTreeView := [1, 2, 3, 4]

def sampleCertificate (type : PacketType) (signers : List ProcessId) : CertificateType :=
  .ofList (signers.map fun q => (q, Crypto.plain.sign q (.tree type samplePayload sampleTree)))

def sampleInputs (broadcasterSignature : Signature) : List (Environment × ShardedInput) :=
  [.updateView {1, 2, 3, 4} ∅ 4,
    .processMessage (.shardPrepare ⟨1, samplePayload, sampleTree, broadcasterSignature⟩),
    .processMessage (.shardCommit ⟨⟨1, 263, sampleCertificate .dbrbShardAcknowledgedMessage [1, 2, 3]⟩⟩),
    .processMessage (.shardDeliver ⟨⟨1, 263, sampleCertificate .dbrbShardDeliverMessage [1]⟩⟩)].map
      (Environment.accepting, ·)

def lastDeliver : Environment × ShardedInput :=
  (.accepting, .processMessage (.shardDeliver ⟨⟨3, 263, sampleCertificate .dbrbShardDeliverMessage [3]⟩⟩))

def sampleSignature : Signature := Crypto.plain.sign 1 (.tree .dbrbShardPrepareMessage samplePayload sampleTree)

theorem delivers_verified_sampleInputs :
    .deliver samplePayload ∈ ((run (next .plain) { id := 2, shardSize := 4 } (sampleInputs sampleSignature)).step
      .plain lastDeliver.1 lastDeliver.2).effects ∧
    Always (next .plain) { id := 2, shardSize :=
      4 } (DeliversVerified .plain) (sampleInputs sampleSignature ++ [lastDeliver]) :=
  ⟨by decide +kernel, delivers_verified (by decide +kernel)⟩

def unsignedInputs : List (Environment × ShardedInput) :=
  [.updateView {1, 2, 3, 4} ∅ 4,
    .processMessage (.shardPrepare ⟨1, samplePayload, sampleTree, 0⟩),
    .processMessage (.shardCommit ⟨⟨1, 263, ∅⟩⟩)].map (Environment.accepting, ·)

def emptyDeliver : Environment × ShardedInput := (.accepting, .processMessage (.shardDeliver ⟨⟨1, 263, ∅⟩⟩))

theorem not_delivers_verified : ¬ Always (next .plain) { id := 2, shardSize := 4 } (DeliversVerified .plain)
    (unsignedInputs ++ [emptyDeliver]) := by
  intro h
  obtain ⟨d, hd, -, hb, -⟩ := (always_snoc.mp h).2 samplePayload (by decide +kernel)
  have htree : ((next .plain (run (next .plain) { id := 2, shardSize := 4 } unsignedInputs)
      emptyDeliver).broadcastData[Crypto.plain.calculatePayloadHash samplePayload]?).all
        fun d => d.tree = [] := by decide +kernel
  rw [hd] at htree
  rw [of_decide_eq_true htree] at hb
  generalize samplePayload = payload, hnil : ([] : DbrbTreeView) = tree at hb
  cases hb with
  | prepare hm hs =>
    simp [unsignedInputs, emptyDeliver] at hm
    rw [hm.2] at hnil
    exact absurd hnil.symm (List.cons_ne_nil _ _)
  | own hb ht => simp [← hnil] at ht

end ShardedDbrbProcess

end XpxChain.Dbrb
