import XpxChain.ChainSync.Synchronisation

/-! A chain is adopted only with a better score, except for one that is cut. -/

namespace XpxChain.ChainSync

open Std Library Exceptions List

variable {Payload Config : Type}

section

variable {conversion : Conversion} {localChain : List (BlockElement Payload)} {index commonBlockHeight : ℕ}
  {parent : BlockElement Payload} {result result' : UnwindResult Payload}

lemma loadBlockElement_eq_ok :
    loadBlockElement localChain (index + 1) = .ok parent ↔ localChain[index]? = some parent := by
  rw [loadBlockElement]
  cases localChain[index]? <;> simp

def ScoredAbove (conversion : Conversion) (blocks : List (BlockElement Payload)) (score : ℤ) : Prop :=
  match blocks with
  | [] => score = 0
  | first :: rest => calculatePartialChainScore conversion first rest = .ok score

lemma ScoredAbove.addChild {blocks : List (BlockElement Payload)} (h : ScoredAbove conversion blocks result.score)
    (hadd : result.addChild conversion parent blocks.head? = .ok result') :
    calculatePartialChainScore conversion parent blocks = .ok result'.score := by
  cases blocks with
  | nil =>
    cases hadd
    exact congrArg Except.ok h.symm
  | cons child rest =>
    obtain ⟨score, hs, hres⟩ := bind_eq_ok.mp hadd
    cases hres
    refine calculatePartialChainScore_cons.mpr ⟨score, hs, ?_⟩
    rw [add_sub_cancel_right]
    exact h

lemma unwindFrom_score {height : ℕ} (hht : commonBlockHeight ≤ height)
    (hs : ScoredAbove conversion (localChain.drop height) result.score)
    (h : unwindFrom conversion localChain commonBlockHeight height (localChain.drop height).head? result =
      .ok result') :
    ∃ common, loadBlockElement localChain commonBlockHeight = .ok common ∧
      calculatePartialChainScore conversion common (localChain.drop commonBlockHeight) = .ok result'.score := by
  -- below the height, the drop of the chain grows by the parent
  induction height generalizing result with
  | zero => exact absurd h (by simp [unwindFrom])
  | succ index ih =>
    obtain ⟨parent, hpar, hr⟩ := bind_eq_ok.mp h
    obtain ⟨next, hn, hr⟩ := bind_eq_ok.mp hr
    have he : ScoredAbove conversion (localChain.drop (index + 1)) (result.extractConfigs parent).score := hs
    have hsc := he.addChild hn
    split_ifs at hr with hc
    · cases hr
      subst hc
      exact ⟨parent, hpar, hsc⟩
    · have hd : localChain.drop index = parent :: localChain.drop (index + 1) := by
        obtain ⟨hlt, hget⟩ := List.getElem?_eq_some_iff.mp (loadBlockElement_eq_ok.mp hpar)
        rw [List.drop_eq_getElem_cons hlt, hget]
      have hs' : ScoredAbove conversion (localChain.drop index) next.score := by
        rw [hd]
        exact hsc
      exact ih (Nat.le_of_lt_succ (Nat.lt_of_le_of_ne hht (Ne.symm hc))) hs' (by rwa [hd])

lemma unwindLocalChain_score (hht : commonBlockHeight ≤ localChain.length)
    (h : unwindLocalChain conversion localChain commonBlockHeight = .ok result') {common : BlockElement Payload}
    (hc : loadBlockElement localChain commonBlockHeight = .ok common) :
    calculatePartialChainScore conversion common (localChain.drop commonBlockHeight) = .ok result'.score := by
  rw [unwindLocalChain] at h
  split_ifs at h with htop
  · cases h
    rw [← htop, drop_length]
    rfl
  · have hnil : localChain.drop localChain.length = [] := drop_length
    have hs : ScoredAbove conversion (localChain.drop localChain.length) ({} : UnwindResult Payload).score := by
      rw [hnil]
      rfl
    obtain ⟨other, hoth, hsc⟩ := unwindFrom_score hht hs (by rwa [hnil])
    rw [hc] at hoth
    cases hoth
    exact hsc

end

section

variable {conversion : Conversion} {elements : List (BlockElement Payload)} {common : BlockElement Payload}
  {peerScore score : ℤ} {left left' : List (BlockElement Payload)} {remoteConfigs : ExtTreeMap Height Config}
  {configHeights : Finset Height} {peerStartHeight height : Height}

lemma cutFrom_spec {newSize : ℕ} (hpos : 0 < newSize) {i : ℕ} (hi : i < elements.length) (hsz : newSize ≤ i + 1)
    (hs : calculatePartialChainScore conversion common (elements.take (i + 1)) = .ok peerScore)
    (h : cutFrom conversion elements newSize i (elements.take (i + 1)) peerScore = .ok (left, score)) :
    left = elements.take newSize ∧ calculatePartialChainScore conversion common left = .ok score := by
  induction i generalizing peerScore with
  | zero =>
    rw [cutFrom, if_pos hpos] at h
    cases h
    obtain rfl : newSize = 1 := by omega
    exact ⟨rfl, hs⟩
  | succ i ih =>
    rw [cutFrom] at h
    split_ifs at h with hlt
    · cases h
      obtain rfl : newSize = i + 1 + 1 := by omega
      exact ⟨rfl, hs⟩
    · have hi' : i < elements.length := by omega
      rw [getElem?_eq_getElem hi', getElem?_eq_getElem hi] at h
      obtain ⟨blockScore, hblk, hr⟩ := bind_eq_ok.mp h
      have ht : elements.take (i + 1 + 1) = elements.take (i + 1) ++ [elements[i + 1]] := by
        rw [take_succ_eq_append_getElem hi]
      have hl : (elements.take (i + 1)).getLastD common = elements[i] := by
        rw [take_succ_eq_append_getElem hi', getLastD_concat]
      rw [ht, calculatePartialChainScore_concat, hl] at hs
      obtain ⟨blockScore', hblk', hf⟩ := hs
      obtain rfl : blockScore = blockScore' := Except.ok.inj (hblk.symm.trans hblk')
      rw [ht, dropLast_concat] at hr
      exact ih hi' (by omega) hf hr

/-- The range is cut at the first of the heights from which on the peer has a configuration that the local blocks do not
have and that lies within the range. -/
structure IsCutHeight (elements : List (BlockElement Payload)) (remoteConfigs : ExtTreeMap Height Config)
    (configHeights : Finset Height) (peerStartHeight height : Height) : Prop where
  mem : height ∈ remoteConfigs
  unknown : height ∉ configHeights
  inside : sizeSub height peerStartHeight < elements.length

lemma cutSize_eq_none (h : cutSize elements remoteConfigs configHeights peerStartHeight = none) :
    ¬ IsCutHeight elements remoteConfigs configHeights peerStartHeight height := by
  rw [cutSize, Option.map_eq_none_iff, find?_eq_none] at h
  exact fun hcut => h height (ExtTreeMap.mem_keys.mpr hcut.mem) (decide_eq_true ⟨hcut.unknown, hcut.inside⟩)

lemma cutSize_eq_some {newSize : ℕ} (h : cutSize elements remoteConfigs configHeights peerStartHeight = some newSize) :
    ∃ height, IsCutHeight elements remoteConfigs configHeights peerStartHeight height ∧
      (∀ other < height, ¬ IsCutHeight elements remoteConfigs configHeights peerStartHeight other) ∧
      newSize = sizeSub height peerStartHeight := by
  obtain ⟨height, hfind, rfl⟩ := Option.map_eq_some_iff.mp h
  obtain ⟨hcut, before, after, hkeys, hbefore⟩ := find?_eq_some_iff_append.mp hfind
  simp only [decide_eq_true_eq] at hcut
  have hordered := @ExtTreeMap.ordered_keys _ _ _ remoteConfigs _
  rw [hkeys, pairwise_append, pairwise_cons] at hordered
  refine ⟨height, ⟨ExtTreeMap.mem_keys.mp (hkeys ▸ by simp), hcut.1, hcut.2⟩, fun other hlt hother => ?_, rfl⟩
  have hmem := ExtTreeMap.mem_keys.mpr hother.mem
  rw [hkeys, mem_append, mem_cons] at hmem
  rcases hmem with hmem | rfl | hmem
  · simpa [hother.unknown, hother.inside] using hbefore other hmem
  · exact absurd hlt (Nat.lt_irrefl _)
  · exact absurd (Nat.compare_eq_lt.mp (hordered.2.1.1 other hmem)) (Nat.lt_asymm hlt)

lemma cutFrom_zero {i : ℕ} : cutFrom conversion elements 0 i left peerScore ≠ .ok (left', score) := by
  induction i generalizing left peerScore with
  | zero => exact nofun
  | succ i ih =>
    rw [cutFrom, if_neg (Nat.not_lt_zero _)]
    split
    · intro h
      obtain ⟨_, -, h⟩ := bind_eq_ok.mp h
      exact ih h
    · exact nofun

lemma cut_spec {size : Option ℕ} (hsz : ∀ newSize ∈ size, newSize < elements.length)
    (hs : calculatePartialChainScore conversion common elements = .ok peerScore)
    (h : cut conversion elements peerScore size = .ok (left, score)) :
    0 < size.getD 1 ∧ left = elements.take (size.getD elements.length) ∧
      calculatePartialChainScore conversion common left = .ok score := by
  cases size with
  | none =>
    cases h
    exact ⟨Nat.one_pos, (take_length).symm, hs⟩
  | some newSize =>
    have hpos : 0 < newSize := by
      rcases Nat.eq_zero_or_pos newSize with rfl | hpos
      · exact absurd h cutFrom_zero
      · exact hpos
    have hlt := hsz newSize rfl
    have hlen : elements.take (elements.length - 1 + 1) = elements := by
      rw [Nat.sub_add_cancel (by omega), take_length]
    have hl : elements.length - 1 < elements.length := by omega
    have hle : newSize ≤ elements.length - 1 + 1 := by omega
    rw [← hlen] at hs
    exact ⟨hpos, cutFrom_spec hpos hl hle hs (by rwa [hlen])⟩

end

section

variable {handlers : Handlers Payload Config} {localChain elements left : List (BlockElement Payload)}
  {source : InputSource} {state : SyncState Payload}

/-- The peer's blocks below the first configuration height that cuts its range have a greater score than the local
blocks. -/
def KeepsScore (handlers : Handlers Payload Config) (localChain elements : List (BlockElement Payload)) : Prop :=
  ∀ first ∈ elements.head?, ∀ remoteConfigs ∈ extractConfigs handlers.parseConfig elements, ∀ unwindResult common,
    unwindLocalChain handlers.conversion localChain (first.height - 1) = .ok unwindResult →
    loadBlockElement localChain (first.height - 1) = .ok common →
    ∀ height, IsCutHeight elements remoteConfigs unwindResult.configHeights first.height height →
      (∀ other < height, ¬ IsCutHeight elements remoteConfigs unwindResult.configHeights first.height other) →
      ∃ score, calculatePartialChainScore handlers.conversion common (elements.take (sizeSub height first.height)) =
        .ok score ∧ unwindResult.score < score

lemma preprocess_eq_proceed (h : preprocess handlers localChain source elements = .ok (.proceed left state)) :
    ∃ first rest remoteConfigs unwindResult peerScore leftScore,
      elements = first :: rest ∧ 2 ≤ first.height ∧ first.height ≤ localChain.length + 1 ∧
      extractConfigs handlers.parseConfig elements = some remoteConfigs ∧
      unwindLocalChain handlers.conversion localChain (first.height - 1) = .ok unwindResult ∧
      loadBlockElement localChain (first.height - 1) = .ok state.commonBlockElement ∧
      calculatePartialChainScore handlers.conversion state.commonBlockElement elements = .ok peerScore ∧
      unwindResult.score < peerScore ∧
      cut handlers.conversion elements peerScore
        (cutSize elements remoteConfigs unwindResult.configHeights first.height) =
        .ok (left, leftScore) ∧ state.scoreDelta = leftScore - unwindResult.score := by
  cases elements with
  | nil => cases h
  | cons first rest =>
    rw [preprocess] at h
    split_ifs at h with hl hbe
    · cases h
    · obtain ⟨htwo, hle, -⟩ := hl
      split at h
      · cases h
      · rename_i remoteConfigs hc
        obtain ⟨matching, -, h⟩ := bind_eq_ok.mp h
        split_ifs at h with hd
        · cases h
        · obtain ⟨unwindResult, hu, h⟩ := bind_eq_ok.mp h
          obtain ⟨common, hco, h⟩ := bind_eq_ok.mp h
          obtain ⟨peerScore, hp, h⟩ := bind_eq_ok.mp h
          split_ifs at h with hb
          · cases h
          · obtain ⟨⟨left', leftScore⟩, hcut, h⟩ := bind_eq_ok.mp h
            cases h
            exact ⟨first, rest, remoteConfigs, unwindResult, peerScore, leftScore, rfl, htwo, hle, hc, hu, hco,
              hp, Int.not_le.mp hb, hcut, rfl⟩
    · cases h

lemma eq_of_first_cutHeight {remoteConfigs : ExtTreeMap Height Config} {configHeights : Finset Height}
    {start height height' : Height} (h : IsCutHeight elements remoteConfigs configHeights start height)
    (hfirst : ∀ other < height, ¬ IsCutHeight elements remoteConfigs configHeights start other)
    (h' : IsCutHeight elements remoteConfigs configHeights start height')
    (hfirst' : ∀ other < height', ¬ IsCutHeight elements remoteConfigs configHeights start other) :
    height = height' := by
  rcases Nat.lt_trichotomy height height' with hlt | heq | hlt
  · exact absurd h (hfirst' height hlt)
  · exact heq
  · exact absurd h' (hfirst height' hlt)

/-- Of the blocks that the cut leaves it says that their score is greater. -/
lemma keepsScore_iff {first : BlockElement Payload} {remoteConfigs : ExtTreeMap Height Config}
    {unwindResult : UnwindResult Payload} {common : BlockElement Payload} {peerScore leftScore : ℤ}
    (hfirst : elements.head? = some first)
    (hconfigs : extractConfigs handlers.parseConfig elements = some remoteConfigs)
    (hunwind : unwindLocalChain handlers.conversion localChain (first.height - 1) = .ok unwindResult)
    (hcommon : loadBlockElement localChain (first.height - 1) = .ok common)
    (hpeer : calculatePartialChainScore handlers.conversion common elements = .ok peerScore)
    (hbetter : unwindResult.score < peerScore)
    (hleft : calculatePartialChainScore handlers.conversion common (elements.take ((cutSize elements remoteConfigs
      unwindResult.configHeights first.height).getD elements.length)) = .ok leftScore) :
    KeepsScore handlers localChain elements ↔ unwindResult.score < leftScore := by
  cases hsize : cutSize elements remoteConfigs unwindResult.configHeights first.height with
  | none =>
    rw [hsize, Option.getD_none, take_length] at hleft
    refine iff_of_true ?_ (Except.ok.inj (hpeer.symm.trans hleft) ▸ hbetter)
    rintro _ hfirst' _ hremote _ _ hunwind' - height hheight -
    obtain rfl := Option.some.inj (hfirst.symm.trans hfirst')
    obtain rfl := Option.some.inj (hconfigs.symm.trans hremote)
    obtain rfl := Except.ok.inj (hunwind.symm.trans hunwind')
    exact absurd hheight (cutSize_eq_none hsize)
  | some newSize =>
    rw [hsize, Option.getD_some] at hleft
    obtain ⟨height, hheight, hlower, rfl⟩ := cutSize_eq_some hsize
    constructor
    · intro hkeeps
      obtain ⟨score, hkept, hgreater⟩ := hkeeps first hfirst _ hconfigs _ _ hunwind hcommon height hheight hlower
      rwa [← Except.ok.inj (hkept.symm.trans hleft)]
    · rintro hgreater _ hfirst' _ hremote _ _ hunwind' hload height' hheight' hlower'
      obtain rfl := Option.some.inj (hfirst.symm.trans hfirst')
      obtain rfl := Option.some.inj (hconfigs.symm.trans hremote)
      obtain rfl := Except.ok.inj (hunwind.symm.trans hunwind')
      obtain rfl := Except.ok.inj (hcommon.symm.trans hload)
      obtain rfl := eq_of_first_cutHeight hheight hlower hheight' hlower'
      exact ⟨leftScore, hleft, hgreater⟩

/-- The scores are compared before the range is cut and not again. -/
theorem adopted_chain_is_better_iff (h : preprocess handlers localChain source elements = .ok (.proceed left state)) :
    (∃ first rest peerScore localScore, left = first :: rest ∧
      loadBlockElement localChain (first.height - 1) = .ok state.commonBlockElement ∧
      calculatePartialChainScore handlers.conversion state.commonBlockElement left = .ok peerScore ∧
      calculatePartialChainScore handlers.conversion state.commonBlockElement (localChain.drop (first.height - 1)) =
        .ok localScore ∧
      localScore < peerScore ∧ state.scoreDelta = peerScore - localScore) ↔
        KeepsScore handlers localChain elements := by
  obtain ⟨first, rest, remoteConfigs, unwindResult, peerScore, leftScore, rfl, htwo, hle, hconfigs, hunwind,
    hcommon, hpeer, hbetter, hcut, hdelta⟩ := preprocess_eq_proceed h
  have hlocal := unwindLocalChain_score (Nat.sub_le_iff_le_add.mpr hle) hunwind hcommon
  have hinside : ∀ newSize ∈ cutSize (first :: rest) remoteConfigs unwindResult.configHeights first.height,
      newSize < (first :: rest).length := by
    intro newSize hsize
    obtain ⟨height, hheight, -, rfl⟩ := cutSize_eq_some hsize
    exact hheight.inside
  obtain ⟨hpos, hleft, hscore⟩ := cut_spec hinside hpeer hcut
  obtain ⟨rest', hrest⟩ : ∃ rest', left = first :: rest' := by
    cases hsize : cutSize (first :: rest) remoteConfigs unwindResult.configHeights first.height with
    | none => exact ⟨rest, by rw [hleft, hsize, Option.getD_none, take_length]⟩
    | some newSize =>
      rw [hsize, Option.getD_some] at hpos hleft
      exact ⟨rest.take (newSize - 1), by rw [hleft, ← take_succ_cons, Nat.sub_add_cancel hpos]⟩
  rw [keepsScore_iff rfl hconfigs hunwind hcommon hpeer hbetter (hleft ▸ hscore)]
  constructor
  · rintro ⟨first', _, peerScore', localScore, hleft', -, hpeer', hlocal', hgreater, -⟩
    obtain rfl : first = first' := (List.cons.inj (hrest.symm.trans hleft')).1
    rw [Except.ok.inj (hscore.symm.trans hpeer'), Except.ok.inj (hlocal.symm.trans hlocal')]
    exact hgreater
  · exact fun hgreater => ⟨first, rest', leftScore, _, hrest, hcommon, hscore, hlocal, hgreater, hdelta⟩

end

/-! A local chain of two blocks, and a peer with two blocks above the first of them. All have the difficulty that is
calculated for them; the first block of the peer has a configuration. -/

section

def sampleConfiguration : SyncConfiguration where
  blockGenerationTargetTime := 15000
  blockTimeSmoothingFactor := 3000
  maxDifficultyBlocks := 60

def sampleBlock (height : Height) (transactions : List (Transaction Unit)) : BlockElement Unit where
  height
  timestamp := 15000 * height
  difficulty := 2 ^ 60
  transactions

def sampleChain : List (BlockElement Unit) := [sampleBlock 1 [], sampleBlock 2 []]

def sampleHandlers : Handlers Unit SyncConfiguration where
  conversion := ⟨fun n => n % 2 ^ 64, fun _ h => Nat.mod_eq_of_lt h⟩
  parseConfig _ := some sampleConfiguration
  difficultyChecker := chainDifficultyChecker (sampleChain.map BlockElement.difficultyInfo) fun _ => sampleConfiguration
  maxRollbackBlocks := 10

def samplePeer (applyHeightDelta : ℕ) : List (BlockElement Unit) :=
  [sampleBlock 2 [.aggregate [.networkConfig applyHeightDelta ()]], sampleBlock 3 []]

def sampleState (scoreDelta : ℤ) : SyncState Unit := ⟨sampleBlock 1 [], scoreDelta, []⟩

theorem adopted_chain_is_better_example :
    preprocess sampleHandlers sampleChain .remotePull (samplePeer 100) =
        .ok (.proceed (samplePeer 100) (sampleState 16)) ∧
      ∃ first rest peerScore localScore, samplePeer 100 = first :: rest ∧
        loadBlockElement sampleChain (first.height - 1) = .ok (sampleState 16).commonBlockElement ∧
        calculatePartialChainScore sampleHandlers.conversion (sampleState 16).commonBlockElement (samplePeer 100) =
          .ok peerScore ∧
        calculatePartialChainScore sampleHandlers.conversion (sampleState 16).commonBlockElement
          (sampleChain.drop (first.height - 1)) = .ok localScore ∧
        localScore < peerScore ∧ (sampleState 16).scoreDelta = peerScore - localScore := by
  have hproceeds : preprocess sampleHandlers sampleChain .remotePull (samplePeer 100) =
      .ok (.proceed (samplePeer 100) (sampleState 16)) := by decide +kernel
  refine ⟨hproceeds, (adopted_chain_is_better_iff hproceeds).mpr ?_⟩
  intro first hfirst remoteConfigs hconfigs unwindResult common _ _ height hheight _
  obtain rfl : remoteConfigs = (∅ : ExtTreeMap Height SyncConfiguration).insertIfNew 102 sampleConfiguration :=
    Option.some.inj (hconfigs.symm.trans rfl)
  obtain rfl : 102 = height := by simpa using hheight.mem
  cases hfirst
  exact absurd hheight.inside (by decide)

/-- The block that makes the peer's chain better is cut off, since the configuration of the first one is in force from
its height on. -/
theorem equal_chain_is_adopted : preprocess sampleHandlers sampleChain .remotePull (samplePeer 1) =
        .ok (.proceed [sampleBlock 2 [.aggregate [.networkConfig 1 ()]]] (sampleState 0)) ∧
      calculatePartialChainScore sampleHandlers.conversion (sampleBlock 1 [])
        [sampleBlock 2 [.aggregate [.networkConfig 1 ()]]] = .ok 16 ∧
      calculatePartialChainScore sampleHandlers.conversion (sampleBlock 1 []) (sampleChain.drop 1) = .ok 16 := by
  decide +kernel

/-- A configuration that is in force from the first block of the range on makes the loop read outside of the blocks. -/
example : preprocess sampleHandlers sampleChain .remotePull (samplePeer 0) = .error .outOfRange := by
  decide +kernel

end

end XpxChain.ChainSync
