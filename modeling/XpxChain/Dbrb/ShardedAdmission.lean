import XpxChain.Dbrb.ShardedSteps
import XpxChain.Library.Runs

/-! The trees that PREPARE messages bring into `ShardedDbrbProcess`. -/

namespace XpxChain.Dbrb.ShardedDbrbProcess

open Library Runs Std.ExtTreeMap

def noteAdmission (crypto : Crypto) (h : Hash256) (p : ShardedDbrbProcess) (x : Environment × ShardedInput)
    (admitted : Option (View × ProcessId)) : Option (View × ProcessId) :=
  match x.2 with
  | .broadcast payload recipients _ =>
    if crypto.calculatePayloadHash payload = h ∧ recipients ≠ ∅ ∧ ¬ (⟨recipients⟩ : View).gt p.currentView ∧
        p.id ∈ recipients then
      none
    else admitted
  | .processMessage (.shardPrepare m) =>
    if crypto.calculatePayloadHash m.payload = h ∧ ReachesSignature crypto x.1 p m then
      if SignedPrepare crypto m then some (p.currentView, m.sender) else none
    else admitted
  | .updateView view bootstrapProcesses _ => if view ∪ bootstrapProcesses = ∅ then admitted else none
  | .clearData => none
  | _ => admitted

def admission (crypto : Crypto) (id : ProcessId) (shardSize : ℕ) (inputs : List (Environment × ShardedInput))
    (h : Hash256) : Option (View × ProcessId) :=
  observe (next crypto) (noteAdmission crypto h) { id, shardSize } none inputs

structure AdmittedTree (p : ShardedDbrbProcess) (view : View) (sender : ProcessId) (d : ShardBroadcastData) : Prop where
  nodup : d.tree.Nodup
  current : d.tree.toFinset ⊆ view.data
  member : p.id ∈ d.tree
  shard : createDbrbShard d.tree p.id p.shardSize = .ok d.shard
  parent : d.shard.parent = sender

def TreesAdmitted (admission : Hash256 → Option (View × ProcessId)) (p : ShardedDbrbProcess) : Prop :=
  p.AllEntries fun h d => ∀ payload view sender, d.payload = some payload → admission h = some (view, sender) →
    AdmittedTree p view sender d

/-- An accepted PREPARE message names no process twice, and its processes and those of the current view
include one another one way or the other. -/
def PreparesComparable (crypto : Crypto) (_past : List (Environment × ShardedInput)) (p : ShardedDbrbProcess)
    (x : Environment × ShardedInput) : Prop :=
  ∀ m, x.2 = .processMessage (.shardPrepare m) → ReachesSignature crypto x.1 p m → SignedPrepare crypto m →
    m.view.Nodup ∧
      ((⟨m.view.toFinset⟩ : View).le p.currentView ∨ (⟨m.view.toFinset⟩ : View).gt p.currentView)

variable {crypto : Crypto} {p : ShardedDbrbProcess} {x : Environment × ShardedInput} {h : Hash256}
  {id : ProcessId} {shardSize : ℕ} {past inputs : List (Environment × ShardedInput)}

lemma admission_snoc : admission crypto id shardSize (past ++ [x]) h =
    noteAdmission crypto h (run (next crypto) { id, shardSize } past) x (admission crypto id shardSize past h) :=
  observe_snoc _ _ _ _ _

variable {env : Environment} {before : Option (View × ProcessId)} {m : ShardPrepareMessage} {d : ShardBroadcastData}

lemma admit_broadcast {payload : Payload} {recipients connectedNodes : ViewData}
    (hc : recipients ≠ ∅ ∧ ¬ (⟨recipients⟩ : View).gt p.currentView ∧ p.id ∈ recipients) :
    noteAdmission crypto (crypto.calculatePayloadHash payload) p (env, .broadcast payload recipients connectedNodes)
      before = none :=
  if_pos ⟨rfl, hc⟩

section

variable (hreach : ReachesSignature crypto env p m)
include hreach

lemma admit_prepare :
    noteAdmission crypto (crypto.calculatePayloadHash m.payload) p (env, .processMessage (.shardPrepare m)) before =
      if SignedPrepare crypto m then some (p.currentView, m.sender) else none :=
  if_pos ⟨rfl, hreach⟩

lemma onPrepareMessageReceived_accepted (hsig : SignedPrepare crypto m) :
    ∃ d, (p.onPrepareMessageReceived crypto env m).process = p.store (crypto.calculatePayloadHash m.payload) d ∧
      d.payload = some m.payload ∧ d.tree = m.view := by
  obtain ⟨hval, hgt, hm, hn, hs⟩ := hreach
  rw [SignedPrepare] at hsig
  rcases hc : createDbrbShard m.view p.id p.shardSize with e | shard
  · simp [hc, Except.toOption] at hs
  · obtain ⟨hi, hpar⟩ : shard.initialized ∧ shard.parent = m.sender := by
      simpa [hc, Except.toOption] using hs
    simp only [onPrepareMessageReceived, hval, hgt, hm, hn, hc, hi, hpar, hsig, ne_eq,
      not_true, if_false, if_true, Option.isSome_none, Bool.false_eq_true]
    exact ⟨_, rfl, rfl, rfl⟩

lemma onPrepareMessageReceived_unsigned (hsig : ¬ SignedPrepare crypto m) :
    ∃ d, (p.onPrepareMessageReceived crypto env m).process = p.store (crypto.calculatePayloadHash m.payload) d ∧
      d.payload = some m.payload ∧ d.tree = (p.entry (crypto.calculatePayloadHash m.payload)).tree := by
  obtain ⟨hval, hgt, hm, hn, hs⟩ := hreach
  rw [SignedPrepare] at hsig
  rcases hc : createDbrbShard m.view p.id p.shardSize with e | shard
  · simp [hc, Except.toOption] at hs
  · obtain ⟨hi, hpar⟩ : shard.initialized ∧ shard.parent = m.sender := by
      simpa [hc, Except.toOption] using hs
    simp only [onPrepareMessageReceived, hval, hgt, hm, hn, hc, hi, hpar, hsig, ne_eq,
      not_true, if_false, Option.isSome_none, Bool.false_eq_true]
    exact ⟨_, rfl, rfl, rfl⟩

lemma AdmittedTree.of_prepare {shard : DbrbDoubleShard} (hs : createDbrbShard m.view p.id p.shardSize = .ok shard)
    (hd : d.shard = shard) (ht : d.tree = m.view) (hn : m.view.Nodup)
    (hc : (⟨m.view.toFinset⟩ : View).le p.currentView ∨ (⟨m.view.toFinset⟩ : View).gt p.currentView) :
    AdmittedTree p p.currentView m.sender d := by
  obtain ⟨-, hgt, hm, -, hpar⟩ := hreach
  rw [hs] at hpar
  have hpar : shard.initialized ∧ shard.parent = m.sender := by
    simpa [Except.toOption] using hpar
  exact ⟨ht ▸ hn, ht ▸ View.le_iff.mp (hc.resolve_right hgt), ht ▸ List.mem_toFinset.mp hm,
    ht ▸ hd ▸ hs, hd ▸ hpar.2⟩

end

variable (crypto p) in
lemma broadcast_cases (env : Environment) (payload : Payload) (recipients connectedNodes : ViewData) :
    (p.broadcast crypto env payload recipients connectedNodes).process = p ∨
      (recipients ≠ ∅ ∧ ¬ (⟨recipients⟩ : View).gt p.currentView ∧ p.id ∈ recipients) ∧ ∃ d, d.payload = some payload ∧
          (p.broadcast crypto env payload recipients connectedNodes).process =
            p.store (crypto.calculatePayloadHash payload) d := by
  simp only [broadcast]
  split
  next => exact Or.inl rfl
  next hne =>
    split
    next => exact Or.inl rfl
    next hgt =>
      split
      next => exact Or.inl rfl
      next hm =>
        refine Or.inr ⟨⟨hne, hgt, not_not.mp hm⟩, ?_⟩
        split
        next => exact ⟨_, rfl, rfl⟩
        next =>
          split
          next => exact ⟨_, rfl, rfl⟩
          next => exact ⟨_, rfl, rfl⟩

structure Admitted (p : ShardedDbrbProcess) (a : Hash256 → Option (View × ProcessId)) (h : Hash256)
    (d : ShardBroadcastData) : Prop where
  fresh : d.payload = none → d = {}
  tree : ∀ payload view sender, d.payload = some payload → a h = some (view, sender) → AdmittedTree p view sender d

variable {a : Hash256 → Option (View × ProcessId)}

lemma admitted_empty : Admitted p a h {} := ⟨fun _ => rfl, by simp⟩

lemma admitted_kept : Kept crypto p (Admitted p a) := by
  intro h payload d d' hpay hs hd
  obtain ⟨hp, hsh, ht, -⟩ := hs.frame
  refine ⟨fun hn => absurd (hp.symm.trans hn) (by simp [hpay]), ?_⟩
  intro payload view sender hd' ha
  obtain ⟨hn, hc, hm, hs, hpar⟩ := hd.tree payload view sender (hp ▸ hd') ha
  exact ⟨ht ▸ hn, ht ▸ hc, ht ▸ hm, by rw [ht, hsh]; exact hs, hsh ▸ hpar⟩

lemma Admitted.congr {q : ShardedDbrbProcess} (hd : Admitted p a h d) (hid : q.id = p.id)
    (hsz : q.shardSize = p.shardSize) : Admitted q a h d := by
  refine ⟨hd.fresh, fun payload view sender hp ha => ?_⟩
  obtain ⟨hn, hc, hm, hs, hpar⟩ := hd.tree payload view sender hp ha
  exact ⟨hn, hc, hid ▸ hm, by rw [hid, hsz]; exact hs, hpar⟩

lemma AllEntries.admitted_mono {b : Hash256 → Option (View × ProcessId)} (hp : p.AllEntries (Admitted p a))
    (hab : ∀ h d c, p.broadcastData[h]? = some d → d.payload ≠ none → b h = some c → a h = some c) :
    p.AllEntries (Admitted p b) := by
  intro h d hd
  refine ⟨(hp h d hd).fresh, fun payload view sender hpay hb => ?_⟩
  exact (hp h d hd).tree payload view sender hpay (hab h d _ hd (by simp [hpay]) hb)

lemma entry_of_getElem? (hd : p.broadcastData[h]? = some d) : p.entry h = d := by
  rw [entry, getD_eq_getD_getElem?, hd, Option.getD_some]

lemma eq_some_of_admit {c : View × ProcessId}
    (hd : p.broadcastData[h]? = some d) (hpay : d.payload ≠ none) (ha : noteAdmission crypto h p x before = some c) :
    before = some c := by
  obtain ⟨env, i⟩ := x
  cases i with
  | broadcast payload recipients connectedNodes =>
    simp only [noteAdmission] at ha
    split_ifs at ha
    exact ha
  | processMessage message =>
    cases message with
    | shardPrepare m =>
      simp only [noteAdmission] at ha
      split_ifs at ha with hr
      · obtain ⟨rfl, -, -, -, hn, -⟩ := hr
        exact absurd (entry_of_getElem? hd ▸ hn) hpay
      · exact ha
    | _ => exact ha
  | updateView view bootstrapProcesses shardSize =>
    simp only [noteAdmission] at ha
    split_ifs at ha
    exact ha
  | clearData => contradiction

lemma step_admitted {i : ShardedInput} (hp : p.AllEntries (Admitted p a))
    (hx : PreparesComparable crypto past p (env, i)) :
    (p.step crypto env i).process.AllEntries (Admitted p fun h => noteAdmission crypto h p (env, i) (a h)) := by
  have hk : p.AllEntries (Admitted p fun h => noteAdmission crypto h p (env, i) (a h)) :=
    hp.admitted_mono fun h d c hd hpay ha => eq_some_of_admit hd hpay ha
  refine step_allEntries hk (fun _ => admitted_empty) admitted_kept ?_ ?_
  · rintro payload recipients connectedNodes rfl
    rcases broadcast_cases crypto p env payload recipients connectedNodes with heq | ⟨hch, d, hd, heq⟩
    · rw [heq]
      exact hk
    · rw [heq]
      refine hk.store ⟨by simp [hd], fun _ _ _ _ ha => ?_⟩
      rw [admit_broadcast hch] at ha
      contradiction
  · rintro m rfl
    refine onPrepareMessageReceived_allEntries hk (fun _ => admitted_empty) (fun _ _ hd => hd.fresh) ?_
    intro shard d hreach hs hd ht
    refine ⟨by simp [hd.payload], fun _ view sender _ ha => ?_⟩
    rw [admit_prepare hreach] at ha
    cases ht with
    | signed hsig ht =>
      rw [if_pos hsig] at ha
      obtain ⟨rfl, rfl⟩ := Prod.mk.inj (Option.some.inj ha)
      obtain ⟨hn, hc⟩ := hx m rfl hreach hsig
      exact .of_prepare hreach hs hd.shard ht hn hc
    | unsigned hu =>
      rw [if_neg hu] at ha
      contradiction

lemma next_admitted (hp : p.AllEntries (Admitted p a)) (hx : PreparesComparable crypto past p x) :
    (p.next crypto x).AllEntries (Admitted (p.next crypto x) fun h => noteAdmission crypto h p x (a h)) := by
  obtain ⟨env, i⟩ := x
  have hs := step_admitted hp hx
  by_cases hi : ∀ view bootstrapProcesses shardSize, i ≠ .updateView view bootstrapProcesses shardSize
  · have hf : p.next crypto (env, i) = { p with broadcastData := (p.next crypto (env, i)).broadcastData } :=
      step_frame hi
    refine hs.mono fun h d hd => hd.congr ?_ ?_
    · rw [hf]
    · rw [hf]
  · push Not at hi
    obtain ⟨view, bootstrapProcesses, shardSize, rfl⟩ := hi
    rw [next] at *
    simp only [step, updateView] at hs ⊢
    split
    next hemp => rwa [if_pos hemp] at hs
    next => exact allEntries_empty

theorem trees_admitted_iff : (∀ past, past <+: inputs →
      TreesAdmitted (admission crypto id shardSize past) (run (next crypto) { id, shardSize } past)) ↔
      Always (next crypto) { id, shardSize } (PreparesComparable crypto) inputs := by
  constructor
  · rintro hall past ⟨env, i⟩ rest rfl m rfl hreach hsigned
    obtain ⟨d, hstep, hpayload, htree⟩ := onPrepareMessageReceived_accepted hreach hsigned
    have hnext : run (next crypto) { id, shardSize } (past ++ [(env, .processMessage (.shardPrepare m))]) =
        (run (next crypto) { id, shardSize } past).store (crypto.calculatePayloadHash m.payload) d :=
      (run_snoc _ _ _ _).trans hstep
    have hadmitted := hall (past ++ [(env, .processMessage (.shardPrepare m))]) ⟨rest, by simp⟩
    rw [hnext] at hadmitted
    have htrees :=
      hadmitted _ d (by simp [store]) _ _ _ hpayload
      (admission_snoc.trans ((admit_prepare hreach).trans (if_pos hsigned)))
    rw [← htree]
    exact ⟨htrees.nodup, Or.inl (View.le_iff.mpr htrees.current)⟩
  · rintro hC past ⟨rest, rfl⟩
    have hpast := always_append_left hC
    clear hC
    suffices hinv : (run (next crypto) { id, shardSize } past).AllEntries
        (Admitted (run (next crypto) { id, shardSize } past) (admission crypto id shardSize past)) from
      fun h d hd => (hinv h d hd).tree
    induction past using List.reverseRecOn with
    | nil => exact allEntries_empty
    | append_singleton past x ih =>
      obtain ⟨hpast, hx⟩ := always_snoc.mp hpast
      rw [run_snoc]
      have hnext := next_admitted (ih hpast) hx
      intro h d hd
      refine ⟨(hnext h d hd).fresh, ?_⟩
      rw [admission_snoc]
      exact (hnext h d hd).tree

def foreignTree : List (Environment × ShardedInput) :=
  [(.accepting, .updateView {1, 2, 3} ∅ 4),
    (.accepting, .processMessage (.shardPrepare ⟨1, ⟨.pushBlock, [7]⟩, [1, 2, 9],
      Crypto.plain.sign 1 (.tree .dbrbShardPrepareMessage ⟨.pushBlock, [7]⟩ [1, 2, 9])⟩))]

theorem not_trees_admitted : ¬ TreesAdmitted (admission .plain 2 4 foreignTree)
    (run (next .plain) { id := 2, shardSize := 4 } foreignTree) := by
  intro hall
  have hany : (run (next .plain) { id := 2, shardSize := 4 } foreignTree).broadcastData[(263 : Hash256)]?.any
      (fun d => d.payload = some ⟨.pushBlock, [7]⟩ ∧ 9 ∈ d.tree) := by decide +kernel
  have hadmission : admission .plain 2 4 foreignTree 263 = some (⟨{1, 2, 3}⟩, 1) := by decide +kernel
  obtain ⟨d, hd, hp⟩ := Option.any_eq_true _ _ |>.mp hany
  obtain ⟨hpayload, htree⟩ := of_decide_eq_true hp
  have hcurrent := (hall _ d hd _ _ _ hpayload hadmission).current (List.mem_toFinset.mpr htree)
  exact absurd hcurrent (by decide)

section

variable {q : ShardedDbrbProcess} {env env' : Environment} {m m' : ShardPrepareMessage}

/-- The entry of a payload may have been created or erased, and nothing else has changed. -/
structure SameFor (h : Hash256) (p q : ShardedDbrbProcess) : Prop where
  frame : q = { p with broadcastData := q.broadcastData }
  entry : q.entry h = p.entry h
  store : ∀ d, q.store h d = p.store h d

lemma sameFor_rejected (hemp : p.entry h = {}) (hh : crypto.calculatePayloadHash m.payload = h)
    (hm : ¬ReachesSignature crypto env p m) : SameFor h p (p.onPrepareMessageReceived crypto env m).process := by
  have hsa : SameFor h p p := ⟨rfl, rfl, fun _ => rfl⟩
  have hs : SameFor h p (p.store h {}) := by
    refine ⟨rfl, hemp ▸ getD_insert_self, fun d => congrArg (mk p.id p.shardSize p.currentView) ?_⟩
    ext
    simp only [store, getElem?_insert]
    split_ifs <;> rfl
  have he : SameFor h p (p.erase h) := by
    refine ⟨rfl, hemp ▸ getD_erase_self, fun d => congrArg (mk p.id p.shardSize p.currentView) ?_⟩
    ext
    simp only [erase, getElem?_insert, getElem?_erase]
    split_ifs <;> rfl
  simp only [onPrepareMessageReceived, hh, hemp, ReachesSignature] at hm ⊢
  repeat' split
  all_goals first | exact hsa | exact hs | exact he | simp_all [Except.toOption]

lemma SameFor.onPrepareMessageReceived (hq : SameFor (crypto.calculatePayloadHash m.payload) p q)
    (hreach : ReachesSignature crypto env p m) (hsig : SignedPrepare crypto m) :
    q.onPrepareMessageReceived crypto env m = p.onPrepareMessageReceived crypto env m := by
  obtain ⟨hf, hent, hst⟩ := hq
  obtain ⟨hval, hgt, hm, hn, hs⟩ := hreach
  rw [SignedPrepare] at hsig
  generalize q.broadcastData = data at hf
  subst hf
  rcases hc : createDbrbShard m.view p.id p.shardSize with e | shard
  · simp [hc, Except.toOption] at hs
  · obtain ⟨hi, hpar⟩ : shard.initialized ∧ shard.parent = m.sender := by
      simpa [hc, Except.toOption] using hs
    simp only [ShardedDbrbProcess.onPrepareMessageReceived, hent, hval, hgt, hm, hn, hc, hi, hpar, hsig, ne_eq,
      not_true, if_false, if_true, Option.isSome_none, Bool.false_eq_true, acceptPrepare, hst]
    rfl

lemma entry_onPrepareMessageReceived_of_isSome (hh : crypto.calculatePayloadHash m.payload = h)
    (hpayload : (p.entry h).payload.isSome) :
    (p.onPrepareMessageReceived crypto env m).process.entry h = p.entry h := by
  simp only [onPrepareMessageReceived, hh, hpayload, if_true]
  split_ifs
  · rfl
  · rfl
  · exact getD_insert_self
  · rfl

/-- A rejected PREPARE message has no effect on a later valid one exactly if it is rejected before the signature of the
broadcaster is checked: at that check the entry already has a payload, and the branch of the failure leaves it. -/
theorem rejected_prepare_has_no_effect_iff (hrejected : ¬(ReachesSignature crypto env p m ∧ SignedPrepare crypto m))
    (hfresh : (p.entry (crypto.calculatePayloadHash m.payload)).payload = none →
      p.entry (crypto.calculatePayloadHash m.payload) = {})
    (hpayload : m'.payload = m.payload) (hvalid : ReachesSignature crypto env' p m')
    (hsigned : SignedPrepare crypto m') :
    (p.onPrepareMessageReceived crypto env m).process.onPrepareMessageReceived crypto env' m' =
      p.onPrepareMessageReceived crypto env' m' ↔ ¬ ReachesSignature crypto env p m := by
  have hempty := hfresh (hpayload ▸ hvalid.2.2.2.1)
  rw [← hpayload] at hempty
  refine ⟨fun heq hreach => ?_, fun hreach =>
    (sameFor_rejected hempty (hpayload ▸ rfl) hreach).onPrepareMessageReceived hvalid hsigned⟩
  obtain ⟨d, hleft, hd, htree⟩ := onPrepareMessageReceived_unsigned hreach fun h => hrejected ⟨hreach, h⟩
  obtain ⟨d', haccepted, -, htree'⟩ := onPrepareMessageReceived_accepted hvalid hsigned
  rw [← hpayload] at hleft htree
  -- the entry left by the first message is not touched by the second one and has no tree
  have hentry : (p.store (crypto.calculatePayloadHash m'.payload) d).entry (crypto.calculatePayloadHash m'.payload) =
      d :=
    getD_insert_self
  have hkept : (p.onPrepareMessageReceived crypto env' m').process.entry (crypto.calculatePayloadHash m'.payload) =
      d := by
    rw [← heq, hleft, entry_onPrepareMessageReceived_of_isSome rfl (by rw [hentry, hd]; rfl), hentry]
  rw [haccepted] at hkept
  have hsame : d' = d := getD_insert_self.symm.trans hkept
  have hnil : m'.view = [] := by rw [← htree', hsame, htree, hempty]
  have hmember := hvalid.2.2.1
  simp [View.isMember, hnil] at hmember

def joinedProcess : ShardedDbrbProcess := { id := 2, shardSize := 4, currentView := ⟨{1, 2, 3, 4}⟩ }

def prepareFrom (sender : ProcessId) (broadcasterSignature : Signature) : ShardPrepareMessage :=
  ⟨sender, ⟨.pushBlock, [7]⟩, [1, 2, 3, 4], broadcasterSignature⟩

def validPrepare : ShardPrepareMessage :=
  prepareFrom 1 (Crypto.plain.sign 1 (.tree .dbrbShardPrepareMessage ⟨.pushBlock, [7]⟩ [1, 2, 3, 4]))

theorem rejected_prepare_has_no_effect_prepareFrom :
    (joinedProcess.onPrepareMessageReceived .plain .accepting (prepareFrom 3 0)).process.onPrepareMessageReceived .plain
      .accepting validPrepare = joinedProcess.onPrepareMessageReceived .plain .accepting validPrepare :=
  have hearly : ¬ ReachesSignature .plain .accepting joinedProcess (prepareFrom 3 0) := by decide +kernel
  (@rejected_prepare_has_no_effect_iff .plain joinedProcess .accepting .accepting (prepareFrom 3 0) validPrepare
    (fun h => hearly h.1) (fun _ => rfl) rfl (by decide +kernel) (by decide +kernel)).mpr hearly

theorem unsigned_prepare_blocks_payload : ReachesSignature .plain .accepting joinedProcess validPrepare ∧
    SignedPrepare .plain validPrepare ∧ ¬SignedPrepare .plain (prepareFrom 1 0) ∧
    (joinedProcess.onPrepareMessageReceived .plain .accepting validPrepare).effects ≠ [] ∧
    ((joinedProcess.onPrepareMessageReceived .plain .accepting (prepareFrom 1 0)).process.onPrepareMessageReceived
      .plain .accepting
      validPrepare).effects = [] := by
  decide +kernel

end

end XpxChain.Dbrb.ShardedDbrbProcess

