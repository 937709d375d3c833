import XpxChain.Types

/-! The difficulty of the next block. -/

namespace XpxChain.ChainSync

open Std

structure BlockDifficultyInfo where
  blockHeight : Fin (2 ^ 64)
  blockTimestamp : Fin (2 ^ 64)
  blockDifficulty : Fin (2 ^ 64)
deriving DecidableEq

structure DifficultyConfiguration where
  blockGenerationTargetTime : Fin (2 ^ 64)
  blockTimeSmoothingFactor : Fin (2 ^ 32)

inductive DifficultyError
  | zeroDifficulty
  | blocksNotSynced
  | invalidTargetTime
  | emptyCache
  | heightOrCountOutOfRange
  | heightNotFound
deriving DecidableEq

def DifficultyConfiguration.ratio (config : DifficultyConfiguration) : ℕ := config.blockGenerationTargetTime / 1000

def DifficultyConfiguration.factor (config : DifficultyConfiguration) : ℕ := config.blockTimeSmoothingFactor / 1000

/-- The new base target in 128 bits, from the previous one and the average block time `s`. -/
def nextTarget (tp s ratio factor : ℕ) : ℕ :=
  if ratio < s then tp * min s ((ratio + factor) % 2 ^ 64) % 2 ^ 128 / ratio
  else
    let decrease := tp * 64 % 2 ^ 128 * sizeSub ratio (max s (sizeSub ratio factor)) % 2 ^ 128 / 100 / ratio
    (tp + 2 ^ 128 - decrease) % 2 ^ 128

/-- The seconds for each block of the history up to the next block. -/
def averageBlockTime (difficultyInfos : List BlockDifficultyInfo) (firstInfo nextBlockInfo : BlockDifficultyInfo) : ℕ :=
  sizeSub nextBlockInfo.blockTimestamp firstInfo.blockTimestamp / (difficultyInfos.length * 1000)

def calculateTarget (difficultyInfos : List BlockDifficultyInfo) (nextBlockInfo : BlockDifficultyInfo)
    (config : DifficultyConfiguration) : Except DifficultyError ℕ :=
  if config.blockGenerationTargetTime = 0 then .ok (2 ^ 64 - 1)
  else match difficultyInfos.head?, difficultyInfos.getLast? with
  | some firstInfo, some lastInfo =>
    if lastInfo.blockDifficulty = 0 then .error .zeroDifficulty
    else if lastInfo.blockHeight + 1 ≠ nextBlockInfo.blockHeight then .error .blocksNotSynced
    else if config.ratio = 0 then .error .invalidTargetTime
    else .ok (nextTarget lastInfo.blockDifficulty
      (averageBlockTime difficultyInfos firstInfo nextBlockInfo) config.ratio
      config.factor)
  | _, _ => .ok 0

/-- The target is narrowed to 64 bits without a check. -/
def calculateDifficulty (difficultyInfos : List BlockDifficultyInfo) (nextBlockInfo : BlockDifficultyInfo)
    (config : DifficultyConfiguration) : Except DifficultyError ℕ :=
  (calculateTarget difficultyInfos nextBlockInfo config).map (· % 2 ^ 64)

section

structure SyncConfiguration extends DifficultyConfiguration where
  maxDifficultyBlocks : ℕ

variable (cache : List BlockDifficultyInfo) (configAt : Height → SyncConfiguration)
  (remoteConfigs : ExtTreeMap Height SyncConfiguration)

/-- The cached infos up to a height, at most `count` of them; the cache has an info for each height from its first one
on. -/
def difficultyInfos (height : Height) (count : ℕ) : Except DifficultyError (List BlockDifficultyInfo) :=
  if cache = [] then .error .emptyCache
  else if height = 0 ∨ count = 0 then .error .heightOrCountOutOfRange
  else if cache.all (fun info => info.blockHeight ≠ height) then .error .heightNotFound
  else .ok (cache.filter fun info => info.blockHeight ≤ height ∧ height < info.blockHeight + count)

/-- The configuration of the peer with the greatest height that is not above the block, or else the local one. -/
def findConfig (height : Height) : SyncConfiguration :=
  ((remoteConfigs.getEntryLE? height).map Prod.snd).getD (configAt height)

/-- The loop of `CheckDifficulties`: how many blocks have the difficulty that is calculated for them. -/
def checkDifficulties (startHeight : Height) (difficulties : List BlockDifficultyInfo) :
    List BlockDifficultyInfo → Except DifficultyError ℕ
  | [] => .ok 0
  | block :: blocks => do
    let config := findConfig configAt remoteConfigs block.blockHeight
    let startHeight := difficulties.head?.elim startHeight (·.blockHeight)
    let loaded ←
      if difficulties.length < config.maxDifficultyBlocks ∧ 1 < startHeight then
        difficultyInfos cache (startHeight - 1) (config.maxDifficultyBlocks - difficulties.length)
      else .ok []
    let difficulties := loaded ++ difficulties
    let difficulty ← calculateDifficulty (difficulties.drop (difficulties.length - config.maxDifficultyBlocks)) block
      config.toDifficultyConfiguration
    if difficulty ≠ block.blockDifficulty then return 0
    else return (← checkDifficulties startHeight (difficulties ++ [block]) blocks) + 1

end

section

variable {tp s ratio factor : ℕ}

lemma nextTarget_of_slow (hs : ratio < s) (hf : factor ≤ ratio) (hr : ratio < 2 ^ 63) (htp : tp < 2 ^ 64) :
    nextTarget tp s ratio factor = tp * min s (ratio + factor) / ratio := by
  have hlt : tp * min s (ratio + factor) < 2 ^ 64 * 2 ^ 64 := Nat.mul_lt_mul'' htp (by omega)
  rw [nextTarget, if_pos hs, Nat.mod_eq_of_lt (by omega : ratio + factor < 2 ^ 64), Nat.mod_eq_of_lt (by omega)]

lemma nextTarget_of_fast (hs : s ≤ ratio) (hf : factor ≤ ratio) (hsm : factor < 2 ^ 32) (htp : tp < 2 ^ 64) :
    nextTarget tp s ratio factor = tp - tp * 64 * (ratio - max s (ratio - factor)) / 100 / ratio := by
  have hle : tp * 64 * (ratio - max s (ratio - factor)) ≤ tp * 64 * 2 ^ 32 := Nat.mul_le_mul_left _ (by omega)
  have hd : tp * 64 * (ratio - max s (ratio - factor)) / 100 / ratio ≤ tp := by
    rw [Nat.div_div_eq_div_mul]
    apply Nat.div_le_of_le_mul
    calc tp * 64 * (ratio - max s (ratio - factor)) ≤ tp * 64 * ratio := Nat.mul_le_mul_left _ (by omega)
      _ ≤ 100 * ratio * tp := by rw [Nat.mul_comm _ tp]; nlinarith
  rw [nextTarget, if_neg (Nat.not_lt.mpr hs), sizeSub_of_le hf, sizeSub_of_le (by omega),
    Nat.mod_eq_of_lt (by omega : tp * 64 < 2 ^ 128), Nat.mod_eq_of_lt (hle.trans_lt (by omega))]
  change (tp + 2 ^ 128 - _) % 2 ^ 128 = _
  generalize tp * 64 * (ratio - max s (ratio - factor)) / 100 / ratio = decrease at hd ⊢
  omega

theorem nextTarget_bounds (htp : 0 < tp) (hlt : tp < 2 ^ 64) (hf : factor ≤ ratio) (hsm : factor < 2 ^ 32)
    (hpos : 0 < ratio) (hr : ratio < 2 ^ 63) (s : ℕ) :
    0 < nextTarget tp s ratio factor ∧
      (nextTarget tp s ratio factor < 2 ^ 64 ↔ (ratio < s → tp * min s (ratio + factor) < 2 ^ 64 * ratio)) ∧
      tp * (100 * ratio) ≤ nextTarget tp s ratio factor * (100 * ratio) + tp * (64 * factor) ∧
      nextTarget tp s ratio factor * ratio ≤ tp * (ratio + factor) := by
  obtain hs | hs := Nat.lt_or_ge ratio s
  · rw [nextTarget_of_slow hs hf hr hlt]
    have hge : tp ≤ tp * min s (ratio + factor) / ratio :=
      (Nat.le_div_iff_mul_le hpos).mpr (Nat.mul_le_mul_left tp (by omega))
    have hle :=
      (Nat.div_mul_le_self (tp * min s (ratio + factor)) ratio).trans (Nat.mul_le_mul_left tp (min_le_right _ _))
    refine ⟨htp.trans_le hge, ?_, ?_, hle⟩
    · rw [Nat.div_lt_iff_lt_mul hpos]
      exact ⟨fun h _ => h, fun h => h hs⟩
    · exact (Nat.mul_le_mul_right _ hge).trans (Nat.le_add_right _ _)
  · rw [nextTarget_of_fast hs hf hsm hlt]
    set x := ratio - max s (ratio - factor)
    have hx : x ≤ factor := by omega
    set y := tp * 64 * x / 100 / ratio
    have hy : y * (100 * ratio) ≤ tp * 64 * x := by
      rw [show y = tp * 64 * x / (100 * ratio) from Nat.div_div_eq_div_mul _ _ _]
      exact Nat.div_mul_le_self _ _
    have hyf : y * (100 * ratio) ≤ tp * (64 * factor) := hy.trans (by nlinarith)
    have hlty : y < tp := by
      by_contra hge
      nlinarith [Nat.mul_le_mul_right (100 * ratio) (Nat.not_lt.mp hge)]
    refine ⟨Nat.sub_pos_of_lt hlty, iff_of_true ((Nat.sub_le _ _).trans_lt hlt) fun h => absurd h (by omega), ?_, ?_⟩
    · rw [Nat.sub_mul]
      omega
    · exact Nat.mul_le_mul (Nat.sub_le _ _) (Nat.le_add_right _ _)

end

/-- The next difficulty is positive, bounded and not truncated, unless slow blocks raise it beyond 64 bits. -/
theorem next_difficulty_positive_and_bounded_iff (difficultyInfos : List BlockDifficultyInfo)
    (nextBlockInfo firstInfo lastInfo : BlockDifficultyInfo) (config : DifficultyConfiguration)
    (hfirst : difficultyInfos.head? = some firstInfo) (hlast : difficultyInfos.getLast? = some lastInfo)
    (hpositive : ∀ info ∈ difficultyInfos, 0 < info.blockDifficulty)
    (hnext : lastInfo.blockHeight + 1 = nextBlockInfo.blockHeight)
    (htarget : 1000 ≤ config.blockGenerationTargetTime.val)
    (hsmoothing : config.blockTimeSmoothingFactor.val ≤ config.blockGenerationTargetTime.val) :
    (∃ d', calculateTarget difficultyInfos nextBlockInfo config = .ok d' ∧
      calculateDifficulty difficultyInfos nextBlockInfo config = .ok d' ∧ 0 < d' ∧
      (lastInfo.blockDifficulty.val : ℚ) * (1 - 64 * config.factor / (100 * config.ratio)) ≤ d' ∧
      (d' : ℚ) ≤ lastInfo.blockDifficulty.val * (1 + config.factor / config.ratio)) ↔
    (config.ratio < averageBlockTime difficultyInfos firstInfo nextBlockInfo →
      lastInfo.blockDifficulty * min (averageBlockTime difficultyInfos firstInfo nextBlockInfo)
        (config.ratio + config.factor) <
        2 ^ 64 * config.ratio) := by
  have hratio : 0 < config.ratio := Nat.div_pos htarget (by decide)
  have hfactor : config.factor ≤ config.ratio := Nat.div_le_div_right hsmoothing
  have hd := hpositive lastInfo (List.mem_of_getLast? hlast)
  have htime : config.blockGenerationTargetTime ≠ 0 := by
    intro h0
    simp [h0] at htarget
  have hs : calculateTarget difficultyInfos nextBlockInfo config = .ok (nextTarget lastInfo.blockDifficulty
      (averageBlockTime difficultyInfos firstInfo nextBlockInfo) config.ratio config.factor) := by
    simp only [calculateTarget, htime, hfirst, hlast, hnext, hd.ne', hratio.ne', if_false, ne_eq, not_true_eq_false]
  obtain ⟨hpos, hlt, hlower, hupper⟩ := nextTarget_bounds hd lastInfo.blockDifficulty.isLt hfactor
    ((Nat.div_le_self _ _).trans_lt config.blockTimeSmoothingFactor.isLt) hratio
    (Nat.div_lt_of_lt_mul (config.blockGenerationTargetTime.isLt.trans (by decide)))
    (averageBlockTime difficultyInfos firstInfo nextBlockInfo)
  rw [← hlt]
  constructor
  · rintro ⟨d', htarget, hdifficulty, -⟩
    cases hs.symm.trans htarget
    rw [calculateDifficulty, hs, Except.map, Except.ok.injEq] at hdifficulty
    exact hdifficulty ▸ Nat.mod_lt _ (Nat.two_pow_pos 64)
  · intro hlt
    refine ⟨_, hs, ?_, hpos, ?_, ?_⟩
    · rw [calculateDifficulty, hs, Except.map, Nat.mod_eq_of_lt hlt]
    · have hq : (0 : ℚ) < 100 * config.ratio := by positivity
      have hlower := Nat.cast_le (α := ℚ) |>.mpr hlower
      push_cast at hlower
      rw [one_sub_div hq.ne', ← mul_div_assoc, div_le_iff₀ hq]
      linarith
    · have hq : (0 : ℚ) < config.ratio := by positivity
      rw [one_add_div hq.ne', ← mul_div_assoc, le_div_iff₀ hq]
      exact_mod_cast hupper

theorem next_difficulty_positive_and_bounded_example :
    ∃ d', calculateDifficulty [⟨1, 0, 10 ^ 15⟩, ⟨2, 15000, 10 ^ 15⟩] ⟨3, 90000, 0⟩ ⟨15000, 3000⟩ = .ok d' ∧ 0 < d' := by
  obtain ⟨d', -, h, hpos, -⟩ := (next_difficulty_positive_and_bounded_iff [⟨1, 0, 10 ^ 15⟩, ⟨2, 15000, 10 ^ 15⟩]
    ⟨3, 90000, 0⟩ ⟨1, 0, 10 ^ 15⟩ ⟨2, 15000, 10 ^ 15⟩ ⟨15000, 3000⟩ rfl rfl (by decide) rfl (by decide) (by decide)).mpr
    (by decide)
  exact ⟨d', h, hpos⟩

theorem next_difficulty_wraps_to_zero : calculateDifficulty [⟨1, 0, 2 ^ 63⟩] ⟨2, 40000, 0⟩ ⟨15000, 15000⟩ = .ok 0 := by
  decide +kernel

end XpxChain.ChainSync
