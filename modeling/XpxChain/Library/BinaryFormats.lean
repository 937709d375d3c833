import Mathlib

/-! Bytes, numbers in little-endian order, and readers that invert a writer. -/

namespace XpxChain.Library.BinaryFormats

abbrev Byte := Fin 256

instance neZeroByte : NeZero 256 := inferInstance

abbrev Bytes := List Byte

def littleEndian : ℕ → ℕ → Bytes
  | 0, _ => []
  | width + 1, n => ⟨n % 256, Nat.mod_lt _ (by decide)⟩ :: littleEndian width (n / 256)

def valueOf : Bytes → ℕ
  | [] => 0
  | byte :: bytes => byte + 256 * valueOf bytes

@[simp] lemma length_littleEndian (width n : ℕ) : (littleEndian width n).length = width := by
  induction width generalizing n with
  | zero => rfl
  | succ width ih => rw [littleEndian, List.length_cons, ih]

lemma valueOf_littleEndian {width n : ℕ} (h : n < 256 ^ width) : valueOf (littleEndian width n) = n := by
  induction width generalizing n with
  | zero =>
    rw [pow_zero, Nat.lt_one_iff] at h
    rw [h, littleEndian, valueOf]
  | succ width ih =>
    have hdiv : n / 256 < 256 ^ width := by
      rw [Nat.div_lt_iff_lt_mul (by decide)]
      rwa [pow_succ] at h
    rw [littleEndian, valueOf, ih hdiv]
    exact Nat.mod_add_div n 256

lemma valueOf_lt (bytes : Bytes) : valueOf bytes < 256 ^ bytes.length := by
  induction bytes with
  | nil => simp [valueOf]
  | cons byte bytes ih =>
    rw [valueOf, List.length_cons]
    omega

abbrev Reader (α : Type) := StateT Bytes Option α

variable {α β γ : Type}

def takeBytes (n : ℕ) : Reader Bytes := fun input =>
  if n ≤ input.length then some (input.take n, input.drop n) else none

def readNumber (width : ℕ) : Reader ℕ := do
  let bytes ← takeBytes width
  return valueOf bytes

def repeatRead (step : β → Reader β) : ℕ → β → Reader β
  | 0, b => pure b
  | n + 1, b => do
    let b ← step b
    repeatRead step n b

def Reads (reader : Reader α) (bytes : Bytes) (a : α) : Prop :=
  ∀ rest, reader.run (bytes ++ rest) = some (a, rest)

namespace Reads

variable {reader : Reader α} {next : α → Reader β} {bytes bytes' : Bytes} {a : α} {b : β}

lemma pure (a : α) : Reads (Pure.pure a) [] a := fun _ => rfl

lemma bind (h : Reads reader bytes a) (hn : Reads (next a) bytes' b) : Reads (reader >>= next) (bytes ++ bytes') b := by
  intro rest
  rw [StateT.run_bind, List.append_assoc, h]
  exact hn rest

lemma bind_done (h : Reads reader bytes a) (hn : Reads (next a) [] b) : Reads (reader >>= next) bytes b := by
  have hb := h.bind hn
  rwa [List.append_nil] at hb

variable {n : ℕ} {value : Option α} {step : β → Reader β} {write : α → Bytes} {items : List α}

lemma takeBytes (h : bytes.length = n) : Reads (takeBytes n) bytes bytes := by
  intro rest
  subst h
  simp [BinaryFormats.takeBytes, StateT.run]

lemma readNumber {width : ℕ} (h : n < 256 ^ width) : Reads (readNumber width) (littleEndian width n) n := by
  refine (takeBytes (length_littleEndian width n)).bind_done ?_
  rw [valueOf_littleEndian h]
  exact pure n

lemma lift (h : value = some a) : Reads (liftM value) [] a := by
  subst h
  exact pure a

lemma lift_bind (h : value = some a) (hn : Reads (next a) bytes b) : Reads (liftM value >>= next) bytes b :=
  (lift h).bind hn

lemma repeatRead {add : β → α → Option β} {b b' : β}
    (hs : ∀ item ∈ items, ∀ b b', add b item = some b' → Reads (step b) (write item) b')
    (h : items.foldlM add b = some b') :
    Reads (repeatRead step items.length b) (items.flatMap write) b' := by
  induction items generalizing b with
  | nil =>
    cases h
    exact pure _
  | cons item items ih =>
    rw [List.foldlM_cons, Option.bind_eq_bind, Option.bind_eq_some_iff] at h
    obtain ⟨c, hc, h⟩ := h
    refine bind (hs item List.mem_cons_self b c hc) (ih ?_ h)
    exact fun item hi => hs item (List.mem_cons_of_mem _ hi)

lemma repeatRead_append {step : List α → Reader (List α)}
    (hs : ∀ item ∈ items, ∀ t, Reads (step t) (write item) (t ++ [item])) :
    Reads (BinaryFormats.repeatRead step items.length []) (items.flatMap write) items := by
  have hf : ∀ l t : List α, l.foldlM (fun t a => some (t ++ [a])) t = some (t ++ l) := by
    intro l
    induction l with
    | nil => simp
    | cons a l ih =>
      intro t
      rw [List.foldlM_cons, Option.bind_eq_bind, Option.bind_some, ih, List.append_assoc, List.singleton_append]
  refine repeatRead ?_ (hf items [])
  intro item hi t t' ht
  cases ht
  exact hs item hi t

lemma repeatRead_succ {b c d : β} (h : Reads (BinaryFormats.repeatRead step n b) bytes c)
    (hl : Reads (step c) bytes' d) : Reads (BinaryFormats.repeatRead step (n + 1) b) (bytes ++ bytes') d := by
  have hs : ∀ n b, BinaryFormats.repeatRead step (n + 1) b = BinaryFormats.repeatRead step n b >>= step := by
    intro n
    induction n with
    | zero => exact fun b => (bind_pure (step b)).trans (pure_bind b step).symm
    | succ n ih =>
      intro b
      rw [BinaryFormats.repeatRead, BinaryFormats.repeatRead, bind_assoc]
      exact congrArg (step b >>= ·) (funext ih)
  rw [hs]
  exact h.bind hl

end Reads

end XpxChain.Library.BinaryFormats
