import Mathlib

/-! Programs over a durable state, with all the states at which they can be stopped. -/

namespace XpxChain.Library.DurablePrograms

structure Outcome (σ ε α : Type) where
  trace : List σ
  result : Except ε α
  state : σ

def Program (σ ε α : Type) := σ → Outcome σ ε α

variable {σ ε α β : Type}

namespace Program

protected def bind (program : Program σ ε α) (next : α → Program σ ε β) : Program σ ε β := fun s =>
  match (program s).result with
  | .error e => ⟨(program s).trace, .error e, (program s).state⟩
  | .ok a => ⟨(program s).trace ++ (next a (program s).state).trace, (next a (program s).state).result,
      (next a (program s).state).state⟩

instance : Monad (Program σ ε) where
  pure a := fun s => ⟨[], .ok a, s⟩
  bind := Program.bind

def change (f : σ → σ) : Program σ ε Unit := fun s => ⟨[f s], .ok (), f s⟩

def query (f : σ → Except ε α) : Program σ ε α := fun s => ⟨[], f s, s⟩

def fail (e : ε) : Program σ ε α := fun s => ⟨[], .error e, s⟩

/-- The states in which a program that starts from `s` can be stopped. -/
def stops (program : Program σ ε α) (s : σ) : List σ := s :: (program s).trace

end Program

structure Meets (program : Program σ ε α) (C : σ → Prop) (Q : α → σ → Prop) (s : σ) : Prop where
  safe : ∀ t ∈ (program s).trace, C t
  returns : ∃ a, (program s).result = .ok a ∧ Q a (program s).state

namespace Meets

variable {program : Program σ ε α} {next : α → Program σ ε β} {C C' : σ → Prop} {Q Q' : α → σ → Prop} {s : σ}

lemma pure {a : α} (h : Q a s) : Meets (Pure.pure a : Program σ ε α) C Q s := ⟨by simp [Pure.pure], a, rfl, h⟩

lemma bind {R : β → σ → Prop} (h : Meets program C (fun a t => Meets (next a) C R t) s) :
    Meets (program >>= next) C R s := by
  obtain ⟨hs, a, hres, hn, b, hb, hR⟩ := h
  have hbi : (program >>= next) s =
      ⟨(program s).trace ++ (next a (program s).state).trace, (next a (program s).state).result,
      (next a (program s).state).state⟩ := by
    simp only [Bind.bind, Program.bind, hres]
  constructor
  · intro t ht
    rw [hbi, List.mem_append] at ht
    exact ht.elim (hs t) (hn t)
  · rw [hbi]
    exact ⟨b, hb, hR⟩

lemma change {f : σ → σ} {Q : Unit → σ → Prop} (hC : C (f s)) (hQ : Q () (f s)) :
    Meets (Program.change f : Program σ ε Unit) C Q s :=
  ⟨by simpa [Program.change] using hC, (), rfl, hQ⟩

lemma query {f : σ → Except ε α} {a : α} (hf : f s = .ok a) (hQ : Q a s) : Meets (Program.query f) C Q s :=
  ⟨by simp [Program.query], a, hf, hQ⟩

lemma mono (h : Meets program C Q s) (hQ : ∀ a t, Q a t → Q' a t) : Meets program C Q' s := by
  obtain ⟨hs, a, hres, ha⟩ := h
  exact ⟨hs, a, hres, hQ a _ ha⟩

lemma weaken (h : Meets program C Q s) (hC : ∀ t, C t → C' t) : Meets program C' Q s :=
  ⟨fun t ht => hC t (h.safe t ht), h.returns⟩

lemma ite {p : Prop} [Decidable p] {other : Program σ ε α} (h : p → Meets program C Q s)
    (hoth : ¬ p → Meets other C Q s) : Meets (if p then program else other) C Q s := by
  split_ifs with hp
  · exact h hp
  · exact hoth hp

lemma forM {I : List β → σ → Prop} {f : β → Program σ ε Unit} {l : List β} {Q : Unit → σ → Prop} (h : I l s)
    (hr : ∀ b rest t, I (b :: rest) t → Meets (f b) C (fun _ u => I rest u) t) (hQ : ∀ t, I [] t → Q () t) :
    Meets (l.forM f) C Q s := by
  induction l generalizing s with
  | nil => exact pure (hQ s h)
  | cons b rest ih =>
    exact bind ((hr b rest s h).mono fun _ t ht => ih ht)

lemma stops (h : Meets program C Q s) (hs : C s) : ∀ t ∈ program.stops s, C t := by
  intro t ht
  rcases List.mem_cons.mp ht with rfl | ht
  · exact hs
  · exact h.safe t ht

end Meets

end XpxChain.Library.DurablePrograms
