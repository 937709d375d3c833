import Mathlib

/-! Ordered maps and multimaps as sorted lists. -/

namespace XpxChain.Library.SortedTables

open List

variable {α κ : Type} [LinearOrder κ] {key : α → κ} {a : α} {l t : List α}

def emplace (key : α → κ) (a : α) : List α → List α
  | [] => [a]
  | b :: t => if key a < key b then a :: b :: t else b :: emplace key a t

def emplaceNew (key : α → κ) (a : α) : List α → List α
  | [] => [a]
  | b :: t =>
    if key a < key b then a :: b :: t
    else if key b < key a then b :: emplaceNew key a t
    else b :: t

def multimap (key : α → κ) (l : List α) : List α := l.foldl (fun t a => emplace key a t) []

def map (key : α → κ) (l : List α) : List α := l.foldl (fun t a => emplaceNew key a t) []

lemma emplace_perm : (emplace key a t).Perm (a :: t) := by
  induction t with
  | nil => exact .refl _
  | cons b t ih =>
    rw [emplace]
    split
    next => exact .refl _
    next => exact (ih.cons b).trans (.swap a b t)

lemma emplace_sorted (h : t.Pairwise (key · ≤ key ·)) : (emplace key a t).Pairwise (key · ≤ key ·) := by
  induction t with
  | nil => exact pairwise_singleton _ _
  | cons b t ih =>
    obtain ⟨hb, ht⟩ := pairwise_cons.mp h
    rw [emplace]
    split
    next hlt =>
      refine pairwise_cons.mpr ⟨?_, h⟩
      intro c hc
      rcases mem_cons.mp hc with rfl | hc
      · exact hlt.le
      · exact hlt.le.trans (hb c hc)
    next hle =>
      refine pairwise_cons.mpr ⟨?_, ih ht⟩
      intro c hc
      rcases mem_cons.mp (emplace_perm.mem_iff.mp hc) with rfl | hc
      · exact not_lt.mp hle
      · exact hb c hc

lemma emplace_of_le (h : ∀ b ∈ t, key b ≤ key a) : emplace key a t = t ++ [a] := by
  induction t with
  | nil => rfl
  | cons b t ih =>
    rw [emplace, if_neg (h b mem_cons_self).not_gt, ih fun c hc => h c (mem_cons_of_mem b hc), cons_append]

lemma emplaceNew_of_lt (h : ∀ b ∈ t, key b < key a) : emplaceNew key a t = t ++ [a] := by
  induction t with
  | nil => rfl
  | cons b t ih =>
    have hb := h b mem_cons_self
    rw [emplaceNew, if_neg hb.not_gt, if_pos hb, ih fun c hc => h c (mem_cons_of_mem b hc), cons_append]

lemma multimap_perm : (multimap key l).Perm l := by
  have hf : ∀ t, (l.foldl (fun t a => emplace key a t) t).Perm (l ++ t) := by
    induction l with
    | nil => exact fun t => .refl t
    | cons a l ih =>
      intro t
      exact (ih _).trans ((emplace_perm.append_left l).trans perm_middle)
  simpa [multimap] using hf []

lemma multimap_sorted : (multimap key l).Pairwise (key · ≤ key ·) := by
  have hf : ∀ t : List α, t.Pairwise (key · ≤ key ·) →
      (l.foldl (fun t a => emplace key a t) t).Pairwise (key · ≤ key ·) := by
    induction l with
    | nil => exact fun t ht => ht
    | cons a l ih => exact fun t ht => ih _ (emplace_sorted ht)
  exact hf [] .nil

lemma emplaceNew_subperm : (emplaceNew key a t).Subperm (a :: t) := by
  induction t with
  | nil => exact .refl _
  | cons b t ih =>
    rw [emplaceNew]
    split
    next => exact .refl _
    next =>
      split
      next => exact ((subperm_cons b).mpr ih).trans (List.Perm.swap a b t).subperm
      next => exact (sublist_cons_self a (b :: t)).subperm

lemma emplaceNew_ne_nil : emplaceNew key a t ≠ [] := by
  cases t with
  | nil => exact cons_ne_nil _ _
  | cons b t =>
    rw [emplaceNew]
    split_ifs
    all_goals exact cons_ne_nil _ _

lemma map_subperm : (map key l).Subperm l := by
  have hf : ∀ t, (l.foldl (fun t a => emplaceNew key a t) t).Subperm (l ++ t) := by
    induction l with
    | nil => exact fun t => .refl t
    | cons a l ih =>
      intro t
      exact (ih _).trans (((subperm_append_left l).mpr emplaceNew_subperm).trans perm_middle.subperm)
  simpa [map] using hf []

lemma map_map_subperm {β : Type} (f : α → β) : ((map key l).map f).Subperm (l.map f) := by
  obtain ⟨t, hp, hs⟩ := (map_subperm : (map key l).Subperm l)
  exact ⟨t.map f, hp.map f, hs.map f⟩

lemma foldl_emplaceNew_ne_nil (h : t ≠ []) : l.foldl (fun t a => emplaceNew key a t) t ≠ [] := by
  induction l generalizing t with
  | nil => exact h
  | cons b l ih => exact ih emplaceNew_ne_nil

lemma map_eq_nil_iff : map key l = [] ↔ l = [] := by
  cases l with
  | nil => exact iff_of_true rfl rfl
  | cons b l =>
    have hf : map key (b :: l) ≠ [] := foldl_emplaceNew_ne_nil (t := [b]) (cons_ne_nil b [])
    exact iff_of_false hf (cons_ne_nil b l)

lemma emplaceNew_eq_emplace (h : ∀ b ∈ t, key b ≠ key a) : emplaceNew key a t = emplace key a t := by
  induction t with
  | nil => rfl
  | cons b t ih =>
    have hr := ih fun c hc => h c (mem_cons_of_mem b hc)
    rw [emplaceNew, emplace, hr]
    rcases lt_trichotomy (key a) (key b) with hlt | heq | hgt
    · rw [if_pos hlt, if_pos hlt]
    · exact absurd heq.symm (h b mem_cons_self)
    · rw [if_neg hgt.not_gt, if_neg hgt.not_gt, if_pos hgt]

lemma map_eq_multimap (h : (l.map key).Nodup) : map key l = multimap key l := by
  have hf : ∀ t : List α, (∀ a ∈ l, ∀ b ∈ t, key b ≠ key a) →
      l.foldl (fun t a => emplaceNew key a t) t = l.foldl (fun t a => emplace key a t) t := by
    induction l with
    | nil => exact fun t _ => rfl
    | cons a l ih =>
      intro t ht
      obtain ⟨ha, hl⟩ := nodup_cons.mp h
      rw [foldl_cons, emplaceNew_eq_emplace (ht a mem_cons_self)]
      apply ih hl
      intro c hc b hb
      rcases mem_cons.mp (emplace_perm.mem_iff.mp hb) with rfl | hb
      · exact fun he => ha (mem_map.mpr ⟨c, hc, he.symm⟩)
      · exact ht c (mem_cons_of_mem a hc) b hb
  exact hf [] fun _ _ _ hb => absurd hb not_mem_nil

variable {l' : List α} {size : ℕ}

lemma eq_of_perm_of_sorted (h : (l.map key).Nodup) (hp : l.Perm l')
    (hl : l.Pairwise (key · ≤ key ·)) (hl' : l'.Pairwise (key · ≤ key ·)) : l = l' := by
  refine hp.eq_of_pairwise ?_ hl hl'
  intro a b ha hb hab hba
  exact inj_on_of_nodup_map h ha (hp.mem_iff.mpr hb) (le_antisymm hab hba)

lemma map_eq_of_perm (h : (l.map key).Nodup) (hp : l.Perm l') : map key l = map key l' := by
  have h' : (l'.map key).Nodup := (hp.map key).nodup_iff.mp h
  rw [map_eq_multimap h, map_eq_multimap h']
  refine eq_of_perm_of_sorted (((multimap_perm.map key).nodup_iff).mpr h) ?_ multimap_sorted multimap_sorted
  exact multimap_perm.trans (hp.trans multimap_perm.symm)

lemma map_perm (h : (l.map key).Nodup) : (map key l).Perm l := by
  rw [map_eq_multimap h]
  exact multimap_perm

lemma map_sorted (h : (l.map key).Nodup) : (map key l).Pairwise (key · ≤ key ·) := by
  rw [map_eq_multimap h]
  exact multimap_sorted

/-- The entries up to the one at `size`, and all further ones with its key. -/
def cut (key : α → κ) (size : ℕ) (t : List α) : List α :=
  match t[size]? with
  | none => t
  | some b => t.takeWhile fun a => decide (key a ≤ key b)

lemma cut_sublist : (cut key size t).Sublist t := by
  unfold cut
  split
  next => exact .refl t
  next => exact takeWhile_sublist _

lemma takeWhile_eq_filter_of_pairwise {p : α → Bool}
    (h : t.Pairwise fun a b => p b → p a) : t.takeWhile p = t.filter p := by
  induction t with
  | nil => rfl
  | cons a t ih =>
    obtain ⟨ha, ht⟩ := pairwise_cons.mp h
    by_cases hp : p a
    · rw [takeWhile_cons_of_pos hp, filter_cons_of_pos hp, ih ht]
    · rw [takeWhile_cons_of_neg hp, filter_cons_of_neg hp, eq_comm, filter_eq_nil_iff]
      intro b hb hpb
      exact hp (ha b hb hpb)

lemma dropWhile_eq_filter_of_pairwise {p : α → Bool} (h : t.Pairwise fun a b => p b → p a) :
    t.dropWhile p = t.filter (!p ·) := by
  induction t with
  | nil => rfl
  | cons a t ih =>
    obtain ⟨ha, ht⟩ := pairwise_cons.mp h
    by_cases hp : p a
    · rw [dropWhile_cons_of_pos hp, filter_cons_of_neg (by simp [hp]), ih ht]
    · rw [dropWhile_cons_of_neg hp, eq_comm, filter_eq_self]
      intro b hb
      rw [Bool.not_eq_true']
      rcases mem_cons.mp hb with rfl | hb
      · exact Bool.eq_false_iff.mpr hp
      · exact Bool.eq_false_iff.mpr fun hpb => hp (ha b hb hpb)

lemma takeWhile_eq_filter {c : κ} (h : t.Pairwise (key · ≤ key ·)) :
    t.takeWhile (fun a => decide (key a ≤ c)) = t.filter (fun a => decide (key a ≤ c)) :=
  takeWhile_eq_filter_of_pairwise (h.imp fun hab hb => decide_eq_true (hab.trans (of_decide_eq_true hb)))

lemma cut_perm {t' : List α} (size : ℕ) (ht : t.Pairwise (key · ≤ key ·)) (ht' : t'.Pairwise (key · ≤ key ·))
    (hp : t.Perm t') : (cut key size t).Perm (cut key size t') := by
  have hk : t.map key = t'.map key :=
    (hp.map key).eq_of_pairwise (fun _ _ _ _ => le_antisymm) (pairwise_map.mpr ht) (pairwise_map.mpr ht')
  have hsz : t[size]?.map key = t'[size]?.map key := by
    rw [← getElem?_map, ← getElem?_map, hk]
  unfold cut
  cases h : t[size]? with
  | none =>
    rw [h, Option.map_none, eq_comm, Option.map_eq_none_iff] at hsz
    rw [hsz]
    exact hp
  | some b =>
    rw [h, Option.map_some, eq_comm, Option.map_eq_some_iff] at hsz
    obtain ⟨b', hb', hkey⟩ := hsz
    rw [hb']
    simp only [hkey]
    rw [takeWhile_eq_filter ht, takeWhile_eq_filter ht']
    exact hp.filter _

lemma map_append (h : ((l ++ l').map key).Nodup) (hle : ∀ a ∈ l, ∀ b ∈ l', key a ≤ key b) :
    map key (l ++ l') = map key l ++ map key l' := by
  obtain ⟨hl, hl', -⟩ := List.nodup_append.mp (List.map_append ▸ h)
  have hp : (map key (l ++ l')).Perm (map key l ++ map key l') :=
    (map_perm h).trans ((map_perm hl).append (map_perm hl')).symm
  refine eq_of_perm_of_sorted (((map_perm h).map key).nodup_iff.mpr h) hp (map_sorted h) ?_
  refine List.pairwise_append.mpr ⟨map_sorted hl, map_sorted hl', ?_⟩
  intro a ha b hb
  exact hle a ((map_perm hl).mem_iff.mp ha) b ((map_perm hl').mem_iff.mp hb)

lemma size_lt_length_takeWhile {b : α} (ht : t.Pairwise (key · ≤ key ·)) (h : t[size]? = some b) :
    size < (t.takeWhile fun a => decide (key a ≤ key b)).length := by
  obtain ⟨hlt, hb⟩ := List.getElem?_eq_some_iff.mp h
  have hs : t.take size ++ b :: t.drop (size + 1) = t := by
    rw [← hb, List.getElem_cons_drop, List.take_append_drop]
  have hbef : ∀ a ∈ t.take size, decide (key a ≤ key b) := by
    rw [← hs] at ht
    intro a ha
    exact decide_eq_true ((List.pairwise_append.mp ht).2.2 a ha b List.mem_cons_self)
  rw [← hs, List.takeWhile_append_of_pos hbef]
  simp [hlt.le]

lemma take_map_cut {κ' : Type} [LinearOrder κ'] {fine : α → κ'} (ht : t.Pairwise (key · ≤ key ·))
    (hfi : ∀ a b, fine a ≤ fine b → key a ≤ key b) (hn : (t.map fine).Nodup) :
    (map fine (cut key size t)).take size = (map fine t).take size := by
  unfold cut
  cases h : t[size]? with
  | none => rfl
  | some b =>
    set front := t.filter fun a => decide (key a ≤ key b) with hf
    set back := t.filter fun a => !decide (key a ≤ key b) with hb
    have hp : (front ++ back).Perm t := List.filter_append_perm _ t
    have hnp : ((front ++ back).map fine).Nodup := (hp.map fine).nodup_iff.mpr hn
    have hle : ∀ a ∈ front, ∀ c ∈ back, fine a ≤ fine c := by
      intro a ha c hc
      have hab : key a ≤ key b := by simpa [hf] using (List.mem_filter.mp ha).2
      have hbc : key b < key c := by simpa [hb] using (List.mem_filter.mp hc).2
      exact (not_le.mp fun hca => (hab.trans_lt hbc).not_ge (hfi c a hca)).le
    have hlen : size ≤ (map fine front).length := by
      rw [(map_perm (List.nodup_append.mp (List.map_append ▸ hnp)).1).length_eq, hf, ← takeWhile_eq_filter ht]
      exact (size_lt_length_takeWhile ht h).le
    have hcut : t.takeWhile (fun a => decide (key a ≤ key b)) = front := takeWhile_eq_filter ht
    simp only [hcut]
    rw [← map_eq_of_perm hnp hp, map_append hnp hle, List.take_append_of_le_length hlen]

end XpxChain.Library.SortedTables
