import Mathlib

/-! Tries with compressed paths: a map from the words of one length has one canonical trie. -/

namespace XpxChain.Library.CompressedTries

open List Function

inductive Trie (σ α : Type)
  | empty
  | leaf (path : List σ) (value : α)
  | branch (path : List σ) (children : σ → Trie σ α)

namespace Trie

variable {σ α : Type} [DecidableEq σ]

def get : Trie σ α → List σ → Option α
  | empty, _ => none
  | leaf path value, word => if word = path then some value else none
  | branch path children, word =>
    if path <+: word then
      match word.drop path.length with
      | [] => none
      | x :: rest => (children x).get rest
    else none

def Canonical : Trie σ α → ℕ → Prop
  | empty, _ => True
  | leaf path _, n => path.length = n
  | branch path children, n =>
    path.length < n ∧ (∀ x, (children x).Canonical (n - path.length - 1)) ∧
      ∃ x y, x ≠ y ∧ children x ≠ empty ∧ children y ≠ empty

def prepend (start : List σ) : Trie σ α → Trie σ α
  | empty => empty
  | leaf path value => leaf (start ++ path) value
  | branch path children => branch (start ++ path) children

variable {t t' : Trie σ α} {children children' : σ → Trie σ α} {path word start rest : List σ} {x y : σ} {value : α}
  {n : ℕ}

@[simp]
lemma get_empty : (empty : Trie σ α).get word = none := rfl

lemma get_leaf : (leaf path value).get word = if word = path then some value else none := rfl

@[simp]
lemma get_branch_append : (branch path children).get (path ++ x :: rest) = (children x).get rest := by
  simp [get]

lemma get_branch_eq_none (h : ¬path <+: word) : (branch path children).get word = none := by
  rw [get, if_neg h]

omit [DecidableEq σ] in
lemma exists_of_prefix (hw : path <+: word) (hlen : path.length < word.length) :
    ∃ x rest, word = path ++ x :: rest := by
  obtain ⟨suffix, rfl⟩ := hw
  cases suffix with
  | nil => simp at hlen
  | cons x rest => exact ⟨x, rest, rfl⟩

lemma exists_of_get_branch (h : (branch path children).get word = some value) :
    ∃ x rest, word = path ++ x :: rest ∧ (children x).get rest = some value := by
  by_cases hpre : path <+: word
  · obtain ⟨suffix, rfl⟩ := hpre
    cases suffix with
    | nil => simp [get] at h
    | cons x rest => exact ⟨x, rest, rfl, by rwa [get_branch_append] at h⟩
  · rw [get_branch_eq_none hpre] at h
    cases h

@[simp]
lemma get_prepend_append : (t.prepend start).get (start ++ word) = t.get word := by
  cases t with
  | empty => rfl
  | leaf path value => simp [prepend, get]
  | branch path children =>
    have hd : (start ++ word).drop (start ++ path).length = word.drop path.length := by
      rw [length_append, drop_append, drop_of_length_le (Nat.le_add_right _ _), nil_append, Nat.add_sub_cancel_left]
    simp only [prepend, get, prefix_append_right_inj, hd]

lemma get_prepend_eq_none (h : ¬start <+: word) : (t.prepend start).get word = none := by
  cases t with
  | empty => rfl
  | leaf path value =>
    rw [prepend, get_leaf, if_neg]
    rintro rfl
    exact h (prefix_append _ _)
  | branch path children =>
    apply get_branch_eq_none
    intro hpre
    exact h ((prefix_append _ _).trans hpre)

omit [DecidableEq σ] in
lemma canonical_prepend (h : t.Canonical n) : (t.prepend start).Canonical (n + start.length) := by
  cases t with
  | empty => trivial
  | leaf path value =>
    have hp : path.length = n := h
    change (start ++ path).length = _
    rw [length_append, hp, Nat.add_comm]
  | branch path children =>
    obtain ⟨hlen, hchs, htwo⟩ := h
    refine ⟨?_, fun x => ?_, htwo⟩
    · rw [length_append]
      omega
    · have hd : n + start.length - (start ++ path).length - 1 = n - path.length - 1 := by
        rw [length_append]
        omega
      rw [hd]
      exact hchs x

omit [DecidableEq σ] in
@[simp]
lemma prepend_eq_empty : t.prepend start = empty ↔ t = empty := by
  cases t <;> simp [prepend]

omit [DecidableEq σ] in
lemma drop_append_cons : (path ++ x :: rest).drop (path.length + 1) = rest := by
  rw [drop_append, drop_of_length_le (Nat.le_succ _), Nat.add_sub_cancel_left, nil_append, drop_one, tail_cons]

lemma get_update (hlen : path.length < word.length) : (branch path (Function.update children x t)).get word =
      if path ++ [x] <+: word then t.get (word.drop (path.length + 1)) else (branch path children).get word := by
  by_cases hpre : path <+: word
  · obtain ⟨y, rest, rfl⟩ := exists_of_prefix hpre hlen
    by_cases hxy : y = x
    · subst hxy
      simp
    · simp [hxy, Ne.symm hxy]
  · rw [get_branch_eq_none hpre, get_branch_eq_none hpre, if_neg]
    intro h
    exact hpre ((prefix_append _ _).trans h)

omit [DecidableEq σ] in
lemma prefix_concat_iff : path ++ [x] <+: word ↔ ∃ rest, word = path ++ x :: rest := by
  constructor
  · rintro ⟨rest, rfl⟩
    exact ⟨rest, by simp⟩
  · rintro ⟨rest, rfl⟩
    exact ⟨rest, by simp⟩

lemma get_single (hlen : path.length < word.length) (hs : ∀ z ≠ y, children z = empty) :
    (branch path children).get word = ((children y).prepend (path ++ [y])).get word := by
  by_cases hpre : path ++ [y] <+: word
  · obtain ⟨rest, rfl⟩ := hpre
    rw [get_prepend_append, append_assoc]
    exact get_branch_append
  · rw [get_prepend_eq_none hpre]
    by_cases hp : path <+: word
    · obtain ⟨z, rest, rfl⟩ := exists_of_prefix hp hlen
      rw [get_branch_append, hs z, get_empty]
      rintro rfl
      exact hpre (prefix_concat_iff.mpr ⟨rest, rfl⟩)
    · exact get_branch_eq_none hp

def fork (path : List σ) (x : σ) (t : Trie σ α) (y : σ) (t' : Trie σ α) : Trie σ α :=
  branch path (Function.update (Function.update (fun _ => empty) x t) y t')

lemma fork_comm (hne : x ≠ y) : fork path x t y t' = fork path y t' x t := by
  unfold fork
  rw [update_comm hne]

lemma canonical_fork (hne : x ≠ y) (ht : t.Canonical n) (ht' : t'.Canonical n) (hemp : t ≠ empty) (hemp' : t' ≠ empty) :
    (fork path x t y t').Canonical (path.length + n + 1) := by
  have hd : path.length + n + 1 - path.length - 1 = n := by omega
  refine ⟨by omega, fun z => ?_, x, y, hne, ?_, ?_⟩
  · rw [hd, update_apply, update_apply]
    split_ifs
    · exact ht'
    · exact ht
    · trivial
  · rwa [update_of_ne hne, update_self]
  · rwa [update_self]

lemma get_fork_leaf (hne : x ≠ y) (hlen : path.length < word.length) : (fork path y t x (leaf rest value)).get word =
      if word = path ++ x :: rest then some value else (t.prepend (path ++ [y])).get word := by
  rw [fork, get_update hlen]
  split_ifs with hpre hw hw
  · subst hw
    rw [drop_append_cons, get_leaf, if_pos rfl]
  · obtain ⟨rest', rfl⟩ := prefix_concat_iff.mp hpre
    rw [get_prepend_eq_none, get_leaf, if_neg]
    · intro hr
      apply hw
      rw [← hr, drop_append_cons]
    · intro hy
      obtain ⟨rest'', hr⟩ := prefix_concat_iff.mp hy
      simp at hr
      exact hne hr.1
  · exact absurd (prefix_concat_iff.mpr ⟨rest, hw⟩) hpre
  · rw [get_single hlen, update_self]
    intro z hz
    rw [update_of_ne hz]

lemma canonical_update (h : (branch path children).Canonical n) (ht : t.Canonical (n - path.length - 1))
    (hemp : t ≠ empty) :
    (branch path (Function.update children x t)).Canonical n := by
  obtain ⟨hlen, hchs, y, z, hne, hy, hz⟩ := h
  refine ⟨hlen, fun w => ?_, y, z, hne, ?_, ?_⟩
  · rw [update_apply]
    split_ifs
    · exact ht
    · exact hchs w
  · rw [update_apply]
    split_ifs <;> assumption
  · rw [update_apply]
    split_ifs <;> assumption

lemma exists_word (h : t.Canonical n) (hemp : t ≠ empty) : ∃ word, word.length = n ∧ (t.get word).isSome := by
  induction t generalizing n with
  | empty => exact absurd rfl hemp
  | leaf path value => exact ⟨path, h, by simp [get]⟩
  | branch path children ih =>
    obtain ⟨hlen, hchs, x, -, -, hx, -⟩ := h
    obtain ⟨rest, hr, hget⟩ := ih x (hchs x) hx
    refine ⟨path ++ x :: rest, ?_, by rwa [get_branch_append]⟩
    rw [length_append, length_cons]
    omega

lemma canonical_branch_get (h : (branch path children).Canonical n) (hx : children x ≠ empty) :
    ∃ rest, (path ++ x :: rest).length = n ∧ ((branch path children).get (path ++ x :: rest)).isSome := by
  obtain ⟨hlen, hchs, -⟩ := h
  obtain ⟨rest, hr, hget⟩ := exists_word (hchs x) hx
  refine ⟨rest, ?_, by rwa [get_branch_append]⟩
  rw [length_append, length_cons]
  omega

lemma branch_path_prefix {path' : List σ} (h : (branch path children).Canonical n)
    (h' : ∀ word, word.length = n → ((branch path children).get word).isSome → path' <+: word) : path' <+: path := by
  obtain ⟨x, y, hne, hx, hy⟩ := h.2.2
  obtain ⟨rest, hr, hget⟩ := canonical_branch_get h hx
  obtain ⟨rest', hr', hget'⟩ := canonical_branch_get h hy
  have hpre := h' _ hr hget
  have hpre' := h' _ hr' hget'
  by_cases hlen : path'.length ≤ path.length
  · exact prefix_of_prefix_length_le hpre (prefix_append _ _) hlen
  · -- otherwise the two words would agree on the symbol after the path
    have hl : path.length < path'.length := by omega
    have hs := hpre.getElem hl
    have hs' := hpre'.getElem hl
    rw [hs] at hs'
    simp at hs'
    exact absurd hs' hne

lemma prefix_of_get_branch (h : ((branch path children).get word).isSome) : path <+: word := by
  by_contra hpre
  rw [get_branch_eq_none hpre] at h
  cases h

lemma branch_ne_leaf (h : (branch path children).Canonical n)
    (hget : ∀ word, word.length = n → (branch path children).get word = (leaf rest value).get word) : False := by
  obtain ⟨x, y, hne, hx, hy⟩ := h.2.2
  obtain ⟨r, hr, hge⟩ := canonical_branch_get h hx
  obtain ⟨r', hr', hg⟩ := canonical_branch_get h hy
  rw [hget _ hr, get_leaf, Option.isSome_ite] at hge
  rw [hget _ hr', get_leaf, ← hge] at hg
  simp at hg
  exact hne hg.1.symm

lemma eq_empty_of_get (h : t.Canonical n) (hget : ∀ word, word.length = n → t.get word = none) : t = empty := by
  by_contra hemp
  obtain ⟨word, hlen, hs⟩ := exists_word h hemp
  rw [hget word hlen] at hs
  cases hs

theorem canonical_unique (h : t.Canonical n) (h' : t'.Canonical n)
    (hget : ∀ word, word.length = n → t.get word = t'.get word) : t = t' := by
  induction t generalizing t' n with
  | empty => exact (eq_empty_of_get h' fun word hw => (hget word hw).symm).symm
  | leaf path value =>
    cases t' with
    | empty => exact eq_empty_of_get h hget
    | leaf path' value' =>
      have hp := hget path h
      rw [get_leaf, get_leaf, if_pos rfl] at hp
      split_ifs at hp with heq
      cases heq
      cases hp
      rfl
    | branch path' children' => exact (branch_ne_leaf h' fun word hw => (hget word hw).symm).elim
  | branch path children ih =>
    cases t' with
    | empty => exact eq_empty_of_get h hget
    | leaf path' value' => exact (branch_ne_leaf h hget).elim
    | branch path' children' =>
      have hpre : path' <+: path := by
        apply branch_path_prefix h
        intro word hw hs
        rw [hget word hw] at hs
        exact prefix_of_get_branch hs
      have hpre' : path <+: path' := by
        apply branch_path_prefix h'
        intro word hw hs
        rw [← hget word hw] at hs
        exact prefix_of_get_branch hs
      obtain rfl : path = path' := hpre'.eq_of_length (Nat.le_antisymm hpre'.length_le hpre.length_le)
      have hchs : children = children' := by
        funext x
        apply ih x (h.2.1 x) (h'.2.1 x)
        intro rest hr
        have hlen : (path ++ x :: rest).length = n := by
          have hn := h.1
          rw [length_append, length_cons]
          omega
        have hw := hget _ hlen
        rwa [get_branch_append, get_branch_append] at hw
      rw [hchs]

end Trie

end XpxChain.Library.CompressedTries
