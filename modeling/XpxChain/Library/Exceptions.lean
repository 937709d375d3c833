import Mathlib

/-! Successful computations that may throw. -/

namespace XpxChain.Library.Exceptions

variable {ε α β : Type} {x : Except ε α} {f : α → Except ε β} {b : β} {l : List α}

lemma bind_eq_ok : x >>= f = .ok b ↔ ∃ a, x = .ok a ∧ f a = .ok b := by
  cases x with
  | error e =>
    constructor
    · intro h
      contradiction
    · rintro ⟨_, h, _⟩
      contradiction
  | ok a =>
    constructor
    · intro h
      exact ⟨a, rfl, h⟩
    · rintro ⟨_, h, hb⟩
      cases h
      exact hb

lemma bind_congr_of_ok {g : α → Except ε β} (h : ∀ a, x = .ok a → f a = g a) : (x >>= f) = x >>= g := by
  cases x with
  | error e => rfl
  | ok a => exact h a rfl

lemma mapError_eq_ok {δ : Type} {f : ε → δ} {a : α} : x.mapError f = .ok a ↔ x = .ok a := by
  cases x with
  | error e => simp [Except.mapError]
  | ok b => simp [Except.mapError]

lemma exists_ok_iff : (∃ a, x = .ok a) ↔ x.isOk := by
  cases x with
  | error e => simp [Except.isOk, Except.toBool]
  | ok a => simp [Except.isOk, Except.toBool]

def FailsOnly (P : ε → Prop) (x : Except ε α) : Prop := ∀ e, x = .error e → P e

variable {P : ε → Prop}

lemma FailsOnly.ok {a : α} : FailsOnly P (.ok a) := by
  rintro _ ⟨⟩

lemma FailsOnly.error {e : ε} (h : P e) : FailsOnly (α := α) P (.error e) := by
  rintro _ ⟨⟩
  exact h

lemma failsOnly_bind : FailsOnly P (x >>= f) ↔ FailsOnly P x ∧ ∀ a, x = .ok a → FailsOnly P (f a) := by
  cases x with
  | error e => exact ⟨fun h => ⟨.error (h e rfl), by rintro _ ⟨⟩⟩, fun h => .error (h.1 e rfl)⟩
  | ok a => exact ⟨fun h => ⟨.ok, by rintro _ ⟨⟩; exact h⟩, fun h => h.2 a rfl⟩

lemma FailsOnly.bind (h : FailsOnly P x) (hf : ∀ a, x = .ok a → FailsOnly P (f a)) : FailsOnly P (x >>= f) :=
  failsOnly_bind.mpr ⟨h, hf⟩

lemma FailsOnly.foldlM {g : β → α → Except ε β}
    (h : ∀ a ∈ l, ∀ b, FailsOnly P (g b a)) : FailsOnly P (l.foldlM g b) := by
  induction l generalizing b with
  | nil => exact .ok
  | cons a l ih =>
    obtain ⟨ha, hl⟩ := List.forall_mem_cons.mp h
    exact (ha b).bind fun _ _ => ih hl

lemma FailsOnly.forM {f : α → Except ε Unit} (h : ∀ a ∈ l, FailsOnly P (f a)) : FailsOnly P (l.forM f) := by
  induction l with
  | nil => exact .ok
  | cons a l ih =>
    obtain ⟨ha, hl⟩ := List.forall_mem_cons.mp h
    exact ha.bind fun _ _ => ih hl

lemma forM_eq_ok {f : α → Except ε Unit} : l.forM f = .ok () ↔ ∀ a ∈ l, f a = .ok () := by
  induction l with
  | nil => exact iff_of_true rfl fun a ha => absurd ha List.not_mem_nil
  | cons a l ih =>
    rw [List.forall_mem_cons, ← ih]
    exact bind_eq_ok.trans ⟨fun ⟨_, ha, hl⟩ => ⟨ha, hl⟩, fun ⟨ha, hl⟩ => ⟨(), ha, hl⟩⟩

section

variable {n : ℕ}

end

instance decidableForallOk {P : α → Prop} [DecidablePred P] : (x : Except ε α) → Decidable (∀ a, x = .ok a → P a)
  | .ok a => decidable_of_iff (P a) ⟨fun h _ hb => Except.ok.inj hb ▸ h, fun h => h a rfl⟩
  | .error _ => isTrue fun _ h => nomatch h

theorem foldlM_invariant (I : List α → β → Prop) {f : β → α → Except ε β} {b' : β} (h : l.foldlM f b = .ok b')
    (h₀ : I [] b)
    (hst : ∀ past a rest b b', l = past ++ a :: rest → I past b → f b a = .ok b' → I (past ++ [a]) b') : I l b' := by
  suffices hs : ∀ past rest b, l = past ++ rest → I past b → rest.foldlM f b = .ok b' → I l b' from
    hs [] l b rfl h₀ h
  intro past rest
  induction rest generalizing past with
  | nil =>
    intro b hl hb hf
    cases hf
    rwa [hl, List.append_nil]
  | cons a rest ih =>
    intro b hl hb hf
    obtain ⟨c, hc, hf⟩ := bind_eq_ok.mp hf
    exact ih (past ++ [a]) c (by simp [hl]) (hst past a rest b c hl hb hc) hf

theorem foldlM_total (I : List α → β → Prop) {f : β → α → Except ε β}
    (hs : ∀ a rest b, I (a :: rest) b → ∃ b', f b a = .ok b' ∧ I rest b') (h : I l b) :
    ∃ b', l.foldlM f b = .ok b' ∧ I [] b' := by
  induction l generalizing b with
  | nil => exact ⟨b, rfl, h⟩
  | cons a rest ih =>
    obtain ⟨c, hc, hI⟩ := hs a rest b h
    obtain ⟨b', hb', hend⟩ := ih hI
    exact ⟨b', by rw [List.foldlM_cons]; exact bind_eq_ok.mpr ⟨c, hc, hb'⟩, hend⟩

lemma exists_foldlM_ok {f : β → α → Except ε β} (h : ∀ a ∈ l, ∀ b, ∃ b', f b a = .ok b')
    (b : β) : ∃ b', l.foldlM f b = .ok b' := by
  obtain ⟨b', hb', -⟩ := foldlM_total (fun l _ => ∀ a ∈ l, ∀ b, ∃ b', f b a = .ok b') (by
    intro a rest b h
    obtain ⟨b', hb'⟩ := h a List.mem_cons_self b
    exact ⟨b', hb', fun c hc => h c (List.mem_cons_of_mem a hc)⟩) h
  exact ⟨b', hb'⟩

section

variable (I : ℕ → β → Prop) {f : β → ℕ → Except ε β} {n : ℕ}

end

end XpxChain.Library.Exceptions
