import XpxChain.Disruptor.InFlight

/-! Elements that are not in flight are clean. -/

namespace XpxChain.Disruptor

open Library

variable {ι : Type}

namespace ConsumerDispatcher

variable {o : Options ι} {s s' : ConsumerDispatcher ι} {level k q q' : ℕ}

variable {element : DisruptorElement ι} {input : ι}

structure Clean (o : Options ι) (s : ConsumerDispatcher ι) : Prop where
  finished_le : ∀ k ≤ o.lastLevel, ∀ entry ∈ s.finished k,
    entry.1 < s.position k ∨ entry.1 = s.position k ∧ (s.stage k).Returned
  passed : ∀ q, s.InFlight q → ¬(s.elementAt o q).isSkipped → ∀ k ≤ o.lastLevel,
    q < s.position k ∨ q = s.position k ∧ s.stage k = .advancing →
      ∃ result, (q, result) ∈ s.finished k ∧ result.completionStatus ≠ .aborted
  unmarked : ∀ q, s.InFlight q → ¬(s.elementAt o q).isSkipped →
    ∀ k ≤ o.lastLevel, ∀ result, (q, result) ∈ s.finished k →
    result.completionStatus = .aborted → q = s.position k ∧ ∃ code, s.stage k = .marking code
  consuming : ∀ k ≤ o.lastLevel, s.stage k = .consuming → ¬(s.elementAt o (s.position k)).isSkipped

namespace Clean

lemma congr (h : s.Clean o) (hcr : s'.container = s.container) (hfin : s'.finished = s.finished)
    (hcns : s'.consumers = s.consumers) (hcnt : s'.allElementsCount = s.allElementsCount)
    (hd : s.completed.length ≤ s'.completed.length) : s'.Clean o := by
  have hf : ∀ q, s'.InFlight q → s.InFlight q := fun q hq => ⟨hd.trans hq.1, hcnt ▸ hq.2⟩
  have hp : s'.position = s.position := by
    funext k
    rw [position, position, hcns]
  have hst : s'.stage = s.stage := by
    funext k
    rw [stage, stage, hcns]
  have he : s'.elementAt o = s.elementAt o := by
    funext q
    rw [elementAt, elementAt, hcr]
  constructor
  · rw [hfin, hp, hst]
    exact h.finished_le
  · intro q hq
    rw [he, hfin, hp, hst]
    exact h.passed q (hf q hq)
  · intro q hq
    rw [he, hfin, hp, hst]
    exact h.unmarked q (hf q hq)
  · rw [he, hp, hst]
    exact h.consuming

variable {stage : Stage} {result : ConsumerResult}

lemma setStage (h : s.Clean o) (hold : ¬(s.stage level).Returned)
    (ha : stage = .advancing → (s.elementAt o (s.position level)).isSkipped)
    (hco : stage = .consuming → ¬(s.elementAt o (s.position level)).isSkipped) : (s.setStage level stage).Clean o := by
  constructor
  · intro k hk entry hent
    rw [position_setStage, stage_setStage]
    rcases h.finished_le k hk entry hent with hlt | ⟨heq, hret⟩
    · exact Or.inl hlt
    · have hkl : k ≠ level := by
        rintro rfl
        exact hold hret
      rw [if_neg hkl]
      exact Or.inr ⟨heq, hret⟩
  · intro q hq hs k hk hp
    rw [position_setStage, stage_setStage] at hp
    refine h.passed q hq hs k hk ?_
    rcases hp with hlt | ⟨rfl, hst⟩
    · exact Or.inl hlt
    · split_ifs at hst with hkl
      · subst hkl
        exact absurd (ha hst) hs
      · exact Or.inr ⟨rfl, hst⟩
  · intro q hq hs k hk result hres habt
    obtain ⟨rfl, code, hc⟩ := h.unmarked q hq hs k hk result hres habt
    rw [position_setStage, stage_setStage, if_neg]
    · exact ⟨rfl, code, hc⟩
    · rintro rfl
      exact hold (hc ▸ trivial)
  · intro k hk hst
    rw [position_setStage]
    rw [stage_setStage] at hst
    split_ifs at hst with hkl
    · subst hkl
      exact hco hst
    · exact h.consuming k hk hst

lemma finished_recordFinished : (s.recordFinished level result).finished k =
    if k = level then s.finished k ++ [(s.position k, result)] else s.finished k := by
  by_cases hk : k = level
  · subst hk
    simp [recordFinished, position]
  · simp [recordFinished, hk]

lemma mem_finished_recordFinished {entry : ℕ × ConsumerResult} :
    entry ∈ (s.recordFinished level result).finished k ↔ entry ∈ s.finished k ∨ k = level ∧
      entry = (s.position k, result) := by
  rw [finished_recordFinished]
  split_ifs with hk
  · simp [hk]
  · simp [hk]

lemma returns (h : s.Clean o) (hst : s.stage level = .consuming)
    (hm : result.completionStatus = .aborted → ∃ code, stage = .marking code)
    (ha : result.completionStatus ≠ .aborted → stage = .advancing) :
    ((s.recordFinished level result).setStage level stage).Clean o := by
  have hret : stage.Returned := by
    by_cases habt : result.completionStatus = .aborted
    · obtain ⟨code, rfl⟩ := hm habt
      trivial
    · rw [ha habt]
      trivial
  constructor
  · intro k hk entry hent
    rw [position_setStage, stage_setStage]
    rcases mem_finished_recordFinished.mp hent with hent | ⟨rfl, rfl⟩
    · rcases h.finished_le k hk entry hent with hlt | ⟨heq, hold⟩
      · exact Or.inl hlt
      · refine Or.inr ⟨heq, ?_⟩
        split_ifs
        · exact hret
        · exact hold
    · rw [if_pos rfl]
      exact Or.inr ⟨rfl, hret⟩
  · intro q hq hs k hk hp
    rw [position_setStage, stage_setStage] at hp
    by_cases hat : q = s.position k ∧ k = level
    · obtain ⟨rfl, rfl⟩ := hat
      refine ⟨result, mem_finished_recordFinished.mpr (Or.inr ⟨rfl, rfl⟩), fun habt => ?_⟩
      obtain ⟨code, rfl⟩ := hm habt
      rw [if_pos rfl] at hp
      rcases hp with hlt | ⟨-, hc⟩
      · exact absurd hlt (lt_irrefl _)
      · cases hc
    · have hp' : q < s.position k ∨ q = s.position k ∧ s.stage k = .advancing := by
        rcases hp with hlt | ⟨heq, hadv⟩
        · exact Or.inl hlt
        · rw [if_neg fun hkl => hat ⟨heq, hkl⟩] at hadv
          exact Or.inr ⟨heq, hadv⟩
      obtain ⟨result', hmem, hke⟩ := h.passed q hq hs k hk hp'
      exact ⟨result', mem_finished_recordFinished.mpr (Or.inl hmem), hke⟩
  · intro q hq hs k hk result' hres habt
    rw [position_setStage, stage_setStage]
    rcases mem_finished_recordFinished.mp hres with hres | ⟨rfl, heq⟩
    · obtain ⟨rfl, code, hcd⟩ := h.unmarked q hq hs k hk result' hres habt
      rw [if_neg (fun hkl => by subst hkl; rw [hst] at hcd; cases hcd)]
      exact ⟨rfl, code, hcd⟩
    · obtain ⟨rfl, rfl⟩ := Prod.mk.inj heq
      rw [if_pos rfl]
      exact ⟨rfl, hm habt⟩
  · intro k hk hco
    rw [stage_setStage] at hco
    rw [position_setStage]
    split_ifs at hco with hkl
    · rw [hco] at hret
      exact hret.elim
    · exact h.consuming k hk hco

lemma mark (h : s.Clean o) (hpos : s.Positioned o) (hl : level ≤ o.lastLevel) {code : ℕ}
    (hst : s.stage level = .marking code) (hm : element.isSkipped) :
    ((s.setElement o (s.position level) element).setStage level .advancing).Clean o := by
  have hfi := hpos.fits level hl
  rw [hst] at hfi
  have hf := hpos.inFlight_position hl hfi
  have hoth : ∀ q, s.InFlight q → q ≠ s.position level →
      (s.setElement o (s.position level) element).elementAt o q = s.elementAt o q :=
    fun q hq hne => elementAt_setElement_of_ne fun hmod => hne (hpos.inFlight_inj hq hf hmod)
  have hke : ∀ q, s.InFlight q → ¬((s.setElement o (s.position level) element).elementAt o q).isSkipped →
      q ≠ s.position level ∧ ¬(s.elementAt o q).isSkipped := by
    intro q hq hs
    have hne : q ≠ s.position level := by
      rintro rfl
      rw [elementAt_setElement_self] at hs
      exact hs hm
    exact ⟨hne, by rwa [hoth q hq hne] at hs⟩
  constructor
  · intro k hk entry hent
    rw [position_setStage, stage_setStage]
    rcases h.finished_le k hk entry hent with hlt | ⟨heq, hret⟩
    · exact Or.inl hlt
    · refine Or.inr ⟨heq, ?_⟩
      split_ifs
      · trivial
      · exact hret
  · intro q hq hs k hk hp
    obtain ⟨hne, hs⟩ := hke q hq hs
    rw [position_setStage, stage_setStage] at hp
    refine h.passed q hq hs k hk ?_
    rcases hp with hlt | ⟨rfl, hadv⟩
    · exact Or.inl hlt
    · rw [if_neg fun hkl => hne (by rw [hkl]; rfl)] at hadv
      exact Or.inr ⟨rfl, hadv⟩
  · intro q hq hs k hk result hres habt
    obtain ⟨hne, hs⟩ := hke q hq hs
    obtain ⟨rfl, code', hco⟩ := h.unmarked q hq hs k hk result hres habt
    rw [position_setStage, stage_setStage, if_neg fun hkl => hne (by rw [hkl])]
    exact ⟨rfl, code', hco⟩
  · intro k hk hc
    rw [stage_setStage] at hc
    rw [position_setStage]
    split_ifs at hc with hkl
    have hkf := hpos.fits k hk
    change s.stage k = .consuming at hc
    rw [hc] at hkf
    have hne : s.position k ≠ s.position level := hpos.position_ne_of_lt hk hl hkl hkf hfi
    change ¬((s.setElement o (s.position level) element).elementAt o (s.position k)).isSkipped
    rw [hoth _ (hpos.inFlight_position hk hkf) hne]
    exact h.consuming k hk hc

lemma advance (h : s.Clean o) (hst : s.stage level = .advancing) (hret : ¬stage.Returned) (hco : stage ≠ .consuming) :
    (((s.advancePosition level).advanceBarrier (level + 1)).setStage level stage).Clean o := by
  constructor
  · intro k hk entry hent
    rw [position_advance, stage_advance]
    have hle := h.finished_le k hk entry hent
    split_ifs with hkl
    · left
      omega
    · exact hle
  · intro q hq hs k hk hp
    rw [position_advance, stage_advance] at hp
    refine h.passed q hq hs k hk ?_
    split_ifs at hp with hkl
    · subst hkl
      rcases hp with hlt | ⟨-, rfl⟩
      · rcases Nat.lt_succ_iff_lt_or_eq.mp hlt with hlt | rfl
        · exact Or.inl hlt
        · exact Or.inr ⟨rfl, hst⟩
      · exact absurd trivial hret
    · exact hp
  · intro q hq hs k hk result hres habt
    obtain ⟨rfl, code, hc⟩ := h.unmarked q hq hs k hk result hres habt
    have hkl : k ≠ level := by
      rintro rfl
      rw [hst] at hc
      cases hc
    rw [position_advance, stage_advance, if_neg hkl, if_neg hkl]
    exact ⟨rfl, code, hc⟩
  · intro k hk hat
    rw [stage_advance] at hat
    rw [position_advance]
    split_ifs at hat ⊢ with hkl
    · exact absurd hat hco
    · exact h.consuming k hk hat

lemma pushBack (h : s.Clean o) (hpos : s.Positioned o) {input : ι} (ha : s.adder = .adding input) :
    (s.pushBack o input).Clean o := by
  have hret : ∀ k ≤ o.lastLevel, (s.stage k).Returned → s.position k < s.allElementsCount := by
    intro k hk hat
    have hf := hpos.fits k hk
    have hb := hpos.barrier_le_count hk
    cases hst : s.stage k with
    | marking code | advancing =>
      rw [hst] at hf
      exact Nat.lt_of_lt_of_le hf hb
    | reading | comparing position | consuming | inspecting position | completing position | leaving id result =>
      rw [hst] at hat
      exact hat.elim
  constructor
  · exact h.finished_le
  · intro q hq hs k hk hp
    rcases hq.of_pushBack with hq | rfl
    · rw [hpos.elementAt_pushBack ha hq] at hs
      exact h.passed q hq hs k hk hp
    · rcases hp with hlt | ⟨heq, hadv⟩
      · exact absurd (hpos.position_le_count hk) (Nat.not_le.mpr hlt)
      · have := hret k hk (by rw [show s.stage k = .advancing from hadv]; trivial)
        exact absurd heq (Nat.ne_of_gt this)
  · intro q hq hs k hk result hres habt
    rcases hq.of_pushBack with hq | rfl
    · rw [hpos.elementAt_pushBack ha hq] at hs
      exact h.unmarked q hq hs k hk result hres habt
    · rcases h.finished_le k hk _ hres with hlt | ⟨heq, hat⟩
      · exact absurd (hpos.position_le_count hk) (Nat.not_le.mpr hlt)
      · exact absurd heq (Nat.ne_of_gt (hret k hk hat))
  · intro k hk hc
    have hf := hpos.fits k hk
    rw [show s.stage k = .consuming from hc] at hf
    change ¬((s.pushBack o input).elementAt o (s.position k)).isSkipped
    rw [hpos.elementAt_pushBack ha (hpos.inFlight_position hk hf)]
    exact h.consuming k hk hc

end Clean

end ConsumerDispatcher

end XpxChain.Disruptor
