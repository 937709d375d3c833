import XpxChain.BlockStorage.FileBlockStorage

/-! What files hold, and the operations on one file. -/

namespace XpxChain.BlockStorage

open Library BinaryFormats DurablePrograms BlockChunkIndexEntry Meets List

section

variable {bytes more data other : Bytes} {offset position n : ℕ} {content : Option Bytes}

def HoldsAt (content : Option Bytes) (offset : ℕ) (data : Bytes) : Prop :=
  ∃ before after, content = some (before ++ data ++ after) ∧ before.length = offset

section

variable (h : HoldsAt (some bytes) offset data)
include h

lemma HoldsAt.length_le : offset + data.length ≤ bytes.length := by
  obtain ⟨before, after, hc, rfl⟩ := h
  cases hc
  simp

lemma HoldsAt.slice : (bytes.drop offset).take data.length = data := by
  obtain ⟨before, after, hc, rfl⟩ := h
  cases hc
  simp [append_assoc]

lemma HoldsAt.append : HoldsAt (some (bytes ++ more)) offset data := by
  obtain ⟨before, after, hc, hlen⟩ := h
  cases hc
  exact ⟨before, after ++ more, by simp, hlen⟩

end

lemma holdsAt_end : HoldsAt (some (bytes ++ data)) bytes.length data := ⟨bytes, [], by simp, rfl⟩

lemma HoldsAt.take (h : HoldsAt (some bytes) offset data) (hn : offset + data.length ≤ n) :
    HoldsAt (some (bytes.take n)) offset data := by
  obtain ⟨before, after, hc, hlen⟩ := h
  cases hc
  refine ⟨before, after.take (n - (before ++ data).length), ?_, hlen⟩
  rw [take_append, take_of_length_le]
  simpa [hlen] using hn

lemma length_overwrite (h : position ≤ bytes.length) :
    (overwrite bytes position data).length = max bytes.length (position + data.length) := by
  simp only [overwrite, length_append, length_take, length_drop]
  omega

lemma overwrite_end : overwrite bytes bytes.length data = bytes ++ data := by
  simp [overwrite]

lemma HoldsAt.overwrite_after (h : HoldsAt (some bytes) offset data) (hp : offset + data.length ≤ position) :
    HoldsAt (some (overwrite bytes position other)) offset data := by
  rw [overwrite, append_assoc]
  exact (h.take hp).append

lemma holdsAt_overwrite (h : position ≤ bytes.length) : HoldsAt (some (overwrite bytes position data)) position data :=
  ⟨bytes.take position, bytes.drop (position + data.length), rfl, by rw [length_take]; omega⟩

lemma resized_of_le (h : n ≤ bytes.length) : resized bytes n = bytes.take n := by
  rw [resized, Nat.sub_eq_zero_of_le h, replicate_zero, append_nil]

variable {path : Path} {disk : Disk}

lemma readAt_eq_ok (h : HoldsAt (disk.file path) offset data) : readAt path offset data.length disk = .ok data := by
  obtain ⟨bytes, hf⟩ : ∃ bytes, disk.file path = some bytes := by
    obtain ⟨before, after, hc, -⟩ := h
    exact ⟨_, hc⟩
  rw [hf] at h
  have hlen := h.length_le
  have ho : RawFile.openReadOnly path disk = .ok ⟨path, bytes.length, 0⟩ := by simp [RawFile.openReadOnly, hf]
  have hs : RawFile.seek ⟨path, bytes.length, 0⟩ offset = .ok ⟨path, bytes.length, offset⟩ :=
    if_neg (by simp only; omega)
  have hr : RawFile.read ⟨path, bytes.length, offset⟩ data.length disk =
      .ok (data, ⟨path, bytes.length, offset + data.length⟩) := by
    simp only [RawFile.read, hf, Option.getD_some, h.slice, if_true]
  simp only [readAt, ho, Bind.bind, Except.bind, hs, hr, Pure.pure, Except.pure]

end

section

variable {disk : Disk} {path : Path} {file : RawFile} {content data : Bytes} {C : Disk → Prop}
  {Q : RawFile → Disk → Prop}

structure IsOpen (disk : Disk) (file : RawFile) (path : Path) (content : Bytes) : Prop where
  path_eq : file.path = path
  size_eq : file.fileSize = content.length
  content_eq : disk.file path = some content

lemma IsOpen.congr {disk' : Disk} (h : IsOpen disk file path content) (hf : disk'.file path = disk.file path) :
    IsOpen disk' file path content :=
  ⟨h.path_eq, h.size_eq, hf.trans h.content_eq⟩

def Disk.touch (path : Path) (disk : Disk) : Disk := if (disk.file path).isSome then disk else disk.put path []

lemma Disk.file_touch (other : Path) :
    (disk.touch path).file other = if path = other then some ((disk.file path).getD []) else disk.file other := by
  unfold Disk.touch
  cases hf : disk.file path with
  | none => simp
  | some content =>
    by_cases hp : path = other
    · subst hp
      simp [hf]
    · simp [hp]

lemma Disk.directories_touch : (disk.touch path).directories = disk.directories := by
  unfold Disk.touch
  split_ifs <;> rfl

lemma meets_openReadAppend (hpar : (disk.file path).isSome ∨ disk.hasParent path) (hC : C (disk.touch path))
    (hQ : Q { path, fileSize := ((disk.file path).getD []).length } (disk.touch path)) :
    Meets (RawFile.openReadAppend path) C Q disk := by
  refine bind (query rfl ?_)
  cases hf : disk.file path with
  | some content =>
    have ht : disk.touch path = disk := by simp [Disk.touch, hf]
    rw [ht, hf] at hQ
    exact pure hQ
  | none =>
    have ht : disk.touch path = disk.put path [] := by simp [Disk.touch, hf]
    rw [hf] at hpar hQ
    rw [ht] at hC hQ
    refine bind (query rfl ?_)
    simp only [Option.isSome_none, Bool.false_eq_true, false_or] at hpar
    rw [if_pos hpar]
    exact bind (change hC (pure hQ))

lemma meets_seek {position : ℕ} (h : position ≤ file.fileSize) (hQ : Q { file with position } disk) :
    Meets (Program.query fun _ => file.seek position) C Q disk := by
  refine query ?_ hQ
  rw [RawFile.seek, if_neg (Nat.not_lt.mpr h)]

lemma meets_write (h : IsOpen disk file path content) (hp : file.position ≤ content.length)
    (hC : C (disk.put path (overwrite content file.position data)))
    (hQ : ∀ file', IsOpen (disk.put path (overwrite content file.position data)) file' path
      (overwrite content file.position data) → Q file' (disk.put path (overwrite content file.position data))) :
    Meets (file.write data) C Q disk := by
  have hw : file.writeContent data disk = disk.put path (overwrite content file.position data) := by
    simp only [RawFile.writeContent, h.path_eq, h.content_eq]
  refine bind (change ?_ ?_)
  · rwa [hw]
  · rw [hw]
    refine pure (hQ _ ⟨h.path_eq, ?_, by simp⟩)
    rw [length_overwrite hp, h.size_eq]

end

end XpxChain.BlockStorage
