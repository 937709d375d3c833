import Mathlib

/-! Records of a step function: a list of samples with increasing positions, each sample holding up to the next one. The
least value of the function on a window is the least among the samples of the window and the last one before it. -/

namespace XpxChain.Library.StepRecords

open List

variable {σ ι α : Type} [LinearOrder ι] [LinearOrder α] (pos : σ → ι) (val : σ → α)

def Increasing (l : List σ) : Prop := l.Pairwise fun x y => pos x < pos y

def Relevant (l : List σ) (lo : ι) (x : σ) : Prop := x ∈ l ∧ ∀ y ∈ l, pos x < pos y → lo < pos y

def Reads (l : List σ) (h : ι) (v : α) : Prop :=
  (∀ x, Relevant pos l h x → pos x ≤ h → v = val x) ∧ ∀ x ∈ l.head?, h < pos x → val x ≤ v

variable {pos val} {l k d : List σ} {x y z : σ} {f : ι → α} {lo hi h : ι} {v : α}

lemma Increasing.lt_of_append (h : Increasing pos (l ++ k)) (hx : x ∈ l) (hy : y ∈ k) : pos x < pos y :=
  (pairwise_append.mp h).2.2 x hx y hy

lemma Increasing.eq_of_pos (h : Increasing pos l) (hx : x ∈ l) (hy : y ∈ l) (he : pos x = pos y) : x = y := by
  induction l with
  | nil => simp at hx
  | cons a l ih =>
    obtain ⟨ha, hl⟩ := pairwise_cons.mp h
    rcases mem_cons.mp hx with hxa | hx <;> rcases mem_cons.mp hy with hya | hy
    · rw [hxa, hya]
    · exact absurd (hxa ▸ he) (ha y hy).ne
    · exact absurd (hya ▸ he.symm) (ha x hx).ne
    · exact ih hl hx hy

lemma Relevant.unique (hl : Increasing pos l) (hx : Relevant pos l h x) (hxh : pos x ≤ h) (hy : Relevant pos l h y)
    (hyh : pos y ≤ h) : x = y := by
  rcases lt_trichotomy (pos x) (pos y) with hlt | heq | hlt
  · exact absurd (hx.2 y hy.1 hlt) hyh.not_gt
  · exact hl.eq_of_pos hx.1 hy.1 heq
  · exact absurd (hy.2 x hx.1 hlt) hxh.not_gt

lemma exists_relevant_le (hl : Increasing pos l) (h : ι) :
    (∀ x ∈ l, h < pos x) ∨ ∃ x, Relevant pos l h x ∧ pos x ≤ h := by
  induction l with
  | nil => exact .inl (by simp)
  | cons a l ih =>
    obtain ⟨ha, hl⟩ := pairwise_cons.mp hl
    rcases ih hl with haf | ⟨x, ⟨hx, hla⟩, hle⟩
    · rcases lt_or_ge h (pos a) with hah | hah
      · exact .inl (by simpa using ⟨hah, haf⟩)
      · refine .inr ⟨a, ⟨mem_cons_self, ?_⟩, hah⟩
        intro y hy hlt
        rcases mem_cons.mp hy with rfl | hy
        · exact absurd hlt (lt_irrefl _)
        · exact haf y hy
    · refine .inr ⟨x, ⟨mem_cons_of_mem a hx, ?_⟩, hle⟩
      intro y hy hlt
      rcases mem_cons.mp hy with rfl | hy
      · exact absurd (ha x hx) hlt.not_gt
      · exact hla y hy hlt

lemma relevant_append_right (hl : Increasing pos (d ++ k)) (hx : x ∈ k) :
    Relevant pos (d ++ k) h x ↔ Relevant pos k h x := by
  constructor
  · rintro ⟨-, hla⟩
    exact ⟨hx, fun y hy hlt => hla y (mem_append_right d hy) hlt⟩
  · rintro ⟨-, hla⟩
    refine ⟨mem_append_right d hx, ?_⟩
    intro y hy hlt
    rcases mem_append.mp hy with hy | hy
    · exact absurd (hl.lt_of_append hy hx) hlt.not_gt
    · exact hla y hy hlt

lemma relevant_append_left (hx : x ∈ l) (hk : ∀ y ∈ k, h < pos y) : Relevant pos (l ++ k) h x ↔ Relevant pos l h x := by
  constructor
  · rintro ⟨-, hl⟩
    exact ⟨hx, fun y hy hlt => hl y (mem_append_left k hy) hlt⟩
  · rintro ⟨-, hl⟩
    refine ⟨mem_append_left k hx, ?_⟩
    intro y hy hlt
    rcases mem_append.mp hy with hy | hy
    · exact hl y hy hlt
    · exact hk y hy

lemma not_relevant_append (hl : Increasing pos (l ++ k)) (hx : x ∈ l) (hy : y ∈ k)
    (hyh : pos y ≤ h) : ¬Relevant pos (l ++ k) h x :=
  fun hr => absurd (hr.2 y (mem_append_right l hy) (hl.lt_of_append hx hy)) hyh.not_gt

lemma reads_of_forall_eq (hl : ∀ y ∈ l, v = val y) : Reads pos val l h v :=
  ⟨fun x hx _ => hl x hx.1, fun x hx _ => (hl x (mem_of_mem_head? hx)).ge⟩

lemma Reads.replace_last (hr : Reads pos val (l ++ d) h v) (hd : ∀ y ∈ d, h < pos y) (hk : ∀ y ∈ k, h < pos y)
    (hh : l ≠ [] ∨ ∀ x ∈ k.head?, val x ≤ v) : Reads pos val (l ++ k) h v := by
  constructor
  · intro x hx hxh
    rcases mem_append.mp hx.1 with hxl | hxk
    · exact hr.1 x ((relevant_append_left hxl hd).mpr ((relevant_append_left hxl hk).mp hx)) hxh
    · exact absurd (hk x hxk) hxh.not_gt
  · intro x hx hxh
    cases l with
    | nil => exact hh.resolve_left (not_not_intro rfl) x hx
    | cons a l => exact hr.2 x hx hxh

lemma reads_last (hl : Increasing pos (l ++ [x])) (hx : pos x = h) : Reads pos val (l ++ [x]) h (val x) := by
  constructor
  · intro y hy _
    rcases mem_append.mp hy.1 with hyl | hyx
    · exact absurd hy (not_relevant_append hl hyl (mem_singleton_self x) hx.le)
    · rw [mem_singleton.mp hyx]
  · intro y hy hlt
    cases l with
    | nil =>
      obtain rfl : x = y := by simpa using hy
      exact le_rfl
    | cons a l =>
      obtain rfl : a = y := by simpa using hy
      have hax := hl.lt_of_append (mem_cons_self) (mem_singleton_self x)
      exact absurd hlt (hx ▸ hax.not_gt)

lemma Reads.extend (hr : Reads pos val l hi v) (hl : ∀ x ∈ l, pos x ≤ hi) (hh : hi ≤ h) : Reads pos val l h v := by
  constructor
  · intro x hx _
    refine hr.1 x ⟨hx.1, ?_⟩ (hl x hx.1)
    intro y hy hlt
    exact absurd (hh.trans_lt (hx.2 y hy hlt)) (hl y hy).not_gt
  · intro x hx hlt
    exact absurd (hh.trans_lt hlt) (hl x (mem_of_mem_head? hx)).not_gt

lemma Increasing.erase_middle (hl : Increasing pos (l ++ (d ++ k))) : Increasing pos (l ++ k) :=
  hl.sublist ((sublist_append_right d k).append_left l)

lemma relevant_erase_middle (hx : x ∈ l ++ k) (hr : Relevant pos (l ++ (d ++ k)) h x) : Relevant pos (l ++ k) h x := by
  refine ⟨hx, fun z hz hlt => hr.2 z ?_ hlt⟩
  rcases mem_append.mp hz with hz | hz
  · exact mem_append_left _ hz
  · exact mem_append_right _ (mem_append_right _ hz)

lemma Reads.erase_repeated (hr : Reads pos val ((l ++ [x]) ++ (d ++ k)) h v)
    (hl : Increasing pos ((l ++ [x]) ++ (d ++ k))) (hd : ∀ y ∈ d, val y = val x) :
    Reads pos val ((l ++ [x]) ++ k) h v := by
  have hlk := hl.erase_middle
  have hxl : x ∈ l ++ [x] := mem_append_right l (mem_singleton_self x)
  constructor
  · intro y hy hyh
    obtain ⟨w, hw, hwh⟩ : ∃ w, Relevant pos ((l ++ [x]) ++ (d ++ k)) h w ∧ pos w ≤ h := by
      refine (exists_relevant_le hl h).resolve_left fun hall => ?_
      refine absurd (hall y ?_) hyh.not_gt
      exact ((sublist_append_right d k).append_left (l ++ [x])).subset hy.1
    rw [hr.1 w hw hwh]
    by_cases hwd : w ∈ d
    · -- the last sample is an erased one, so `y` is the one whose value it repeats
      have hk : ∀ z ∈ k, h < pos z := fun z hz =>
        hw.2 z (mem_append_right _ (mem_append_right _ hz))
          ((pairwise_append.mp (pairwise_append.mp hl).2.1).2.2 w hwd z hz)
      have hxw : pos x < pos w := hl.lt_of_append hxl (mem_append_left k hwd)
      have hx : Relevant pos ((l ++ [x]) ++ k) h x := by
        refine (relevant_append_left hxl hk).mpr ⟨hxl, fun z hz hlt => ?_⟩
        rcases mem_append.mp hz with hz | hz
        · exact absurd (Increasing.lt_of_append (pairwise_append.mp hl).1 hz (mem_singleton_self x)) hlt.not_gt
        · exact absurd hlt (mem_singleton.mp hz ▸ lt_irrefl _)
      rw [hy.unique hlk hyh hx (hxw.le.trans hwh), hd w hwd]
    · have hmem : w ∈ (l ++ [x]) ++ k := by
        rcases mem_append.mp hw.1 with h | h
        · exact mem_append_left k h
        · exact mem_append_right _ ((mem_append.mp h).resolve_left hwd)
      rw [(relevant_erase_middle hmem hw).unique hlk hwh hy hyh]
  · intro y hy hlt
    refine hr.2 y ?_ hlt
    cases l with
    | nil => exact hy
    | cons a l => exact hy

lemma Reads.drop_oldest (hr : Reads pos val (d ++ k) h v) (hl : Increasing pos (d ++ k))
    (hh : ∀ x ∈ k.head?, pos x ≤ h ∨ val x ≤ v) : Reads pos val k h v := by
  constructor
  · intro x hx hxh
    exact hr.1 x ((relevant_append_right hl hx.1).mpr hx) hxh
  · intro x hx hlt
    exact (hh x hx).resolve_left hlt.not_ge

theorem isLeast_of_reads (hl : Increasing pos l) (hr : ∀ h, lo ≤ h → h ≤ hi → Reads pos val l h (f h)) (hwin : lo ≤ hi)
    (hpos : ∀ y ∈ l, pos y ≤ hi) (hx : Relevant pos l lo x) (hmin : ∀ y, Relevant pos l lo y → val x ≤ val y) :
    IsLeast (f '' Set.Icc lo hi) (val x) := by
  constructor
  · -- the value of `x` is the one at its own position, or at `lo` if it lies before the window
    rcases le_or_gt lo (pos x) with hlo | hlo
    · exact ⟨pos x, ⟨hlo, hpos x hx.1⟩, (hr (pos x) hlo (hpos x hx.1)).1 x ⟨hx.1, fun y _ h => h⟩ le_rfl⟩
    · exact ⟨lo, ⟨le_rfl, hwin⟩, (hr lo le_rfl hwin).1 x hx hlo.le⟩
  · rintro _ ⟨h, ⟨hlo, hhi⟩, rfl⟩
    rcases exists_relevant_le hl h with hbef | ⟨y, hy, hle⟩
    · obtain ⟨a, ha⟩ : ∃ a, a ∈ l.head? := by
        cases l with
        | nil => simp [Relevant] at hx
        | cons a l => exact ⟨a, rfl⟩
      have hal : a ∈ l := mem_of_mem_head? ha
      calc val x ≤ val a := hmin a ⟨hal, fun y hy _ => hlo.trans_lt (hbef y hy)⟩
        _ ≤ f h := (hr h hlo hhi).2 a ha (hbef a hal)
    · rw [(hr h hlo hhi).1 y hy hle]
      exact hmin y ⟨hy.1, fun z hz hlt => hlo.trans_lt (hy.2 z hz hlt)⟩

end XpxChain.Library.StepRecords
