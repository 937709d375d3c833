import XpxChain.Crypto.MerkleHashBuilder

/-!
`Final` as the source computes it: on one vector, whose front each round overwrites with the hashes of the pairs it has
read, and with a 32-bit counter.
-/

namespace XpxChain.Crypto

open List

section

variable (sha3 : Hash256 → Hash256 → Hash256)

/-- The inner loop of `Final`; it runs out of fuel when the counter wraps before it reaches the number of hashes. -/
def hashPairs : ℕ → List Hash256 → ℕ → ℕ → List Hash256 → Option (List Hash256 × ℕ × List Hash256)
  | 0, _, _, _, _ => none
  | fuel + 1, hashes, numRemainingHashes, i, consumed =>
    if i < numRemainingHashes then
      if (i + 1) % 2 ^ 32 < numRemainingHashes then
        let hash := sha3 (hashes.getD i 0) (hashes.getD (i + 1) 0)
        hashPairs fuel (hashes.set (i / 2) hash) numRemainingHashes ((i + 2) % 2 ^ 32) (consumed ++ [hash])
      else
        let hash := sha3 (hashes.getD i 0) (hashes.getD i 0)
        hashPairs fuel (hashes.set (i / 2) hash) (numRemainingHashes + 1) ((i + 2) % 2 ^ 32) (consumed ++ [hash])
    else some (hashes, numRemainingHashes, consumed)

def hashRounds : ℕ → List Hash256 → ℕ → List Hash256 → Option (Hash256 × List Hash256)
  | 0, _, _, _ => none
  | fuel + 1, hashes, numRemainingHashes, consumed =>
    if 1 < numRemainingHashes then do
      let last := if numRemainingHashes % 2 = 1 then [hashes.getD (numRemainingHashes - 1) 0] else []
      let (hashes, numRemainingHashes, consumed) ←
        hashPairs sha3 (numRemainingHashes + 1) hashes numRemainingHashes 0 (consumed ++ last)
      hashRounds fuel hashes (numRemainingHashes / 2) consumed
    else some (hashes.getD 0 0, consumed)

def finalVector (hashes : List Hash256) : Option (Hash256 × List Hash256) :=
  if hashes = [] then some (0, [0]) else hashRounds sha3 hashes.length hashes hashes.length hashes

end

variable {sha3 : Hash256 → Hash256 → Hash256} {hashes done layer consumed : List Hash256} {fuel : ℕ}

/-- The vector starts with the hashes of the pairs read so far, and the rest of the layer is still where it was. -/
structure Overwritten (hashes done layer : List Hash256) : Prop where
  front : hashes.take done.length = done
  unread : (hashes.drop (2 * done.length)).take layer.length = layer

namespace Overwritten

lemma getD (h : Overwritten hashes done layer) {i : ℕ} (hi : i < layer.length) :
    hashes.getD (2 * done.length + i) 0 = layer[i] := by
  have hget : layer[i]? = hashes[2 * done.length + i]? := by
    conv_lhs => rw [← h.unread, getElem?_take_of_lt hi, getElem?_drop]
  rw [getD_eq_getElem?_getD, ← hget, getElem?_eq_getElem hi, Option.getD_some]

lemma length_lt (h : Overwritten hashes done layer) (hlayer : 0 < layer.length) :
    done.length < hashes.length := by
  have hlen := congrArg length h.unread
  rw [length_take, length_drop] at hlen
  omega

lemma set (h : Overwritten hashes done layer) (hlayer : 0 < layer.length) (hash : Hash256) :
    Overwritten (hashes.set done.length hash) (done ++ [hash]) (layer.drop 2) where
  front := by
    rw [length_append, length_singleton, take_add_one, take_set_of_le le_rfl, h.front,
      getElem?_set_self (h.length_lt hlayer), Option.toList_some]
  unread := by
    rw [length_append, length_singleton, drop_set_of_lt (by omega), length_drop]
    conv_rhs => rw [← h.unread, drop_take, drop_drop]
    rfl

end Overwritten

lemma hashPairs_eq (h : Overwritten hashes done layer) (hfuel : layer.length < fuel)
    (hbound : 2 * done.length + layer.length + 1 < 2 ^ 32) :
    ∃ hashes', hashPairs sha3 fuel hashes (2 * done.length + layer.length) (2 * done.length) consumed =
        some (hashes', 2 * (done ++ nextHashes sha3 layer).length, consumed ++ nextHashes sha3 layer) ∧
      hashes'.take (done ++ nextHashes sha3 layer).length = done ++ nextHashes sha3 layer := by
  have hhalf : 2 * done.length / 2 = done.length := Nat.mul_div_cancel_left _ two_pos
  induction layer using nextHashes.induct generalizing hashes done consumed fuel with
  | case1 =>
    obtain ⟨fuel, rfl⟩ := Nat.exists_eq_add_of_lt hfuel
    refine ⟨hashes, ?_, ?_⟩
    · simp [hashPairs, nextHashes]
    · simpa [nextHashes] using h.front
  | case2 hash =>
    -- The number of hashes grows to an even one, so that the counter meets it.
    obtain ⟨fuel, rfl⟩ := Nat.exists_eq_add_of_lt hfuel
    have hset := h.set Nat.one_pos (sha3 hash hash)
    have hread : hashes.getD (2 * done.length) 0 = hash := h.getD Nat.one_pos
    simp only [length_singleton] at hbound
    refine ⟨_, ?_, hset.front⟩
    rw [length_singleton, show 1 + fuel + 1 = fuel + 1 + 1 by omega, hashPairs, if_pos (by omega), if_neg (by omega),
      Nat.mod_eq_of_lt (by omega), hashPairs, if_neg (by omega), hread, hhalf]
    simp [nextHashes, Nat.mul_add]
  | case3 left right rest ih =>
    obtain ⟨fuel, rfl⟩ := Nat.exists_eq_add_of_lt hfuel
    have hset := h.set (Nat.succ_pos _) (sha3 left right)
    have hleft : hashes.getD (2 * done.length) 0 = left := h.getD (Nat.succ_pos _)
    have hright : hashes.getD (2 * done.length + 1) 0 = right := h.getD (Nat.succ_lt_succ (Nat.succ_pos _))
    simp only [length_cons] at hbound hfuel ⊢
    have hlen : (done ++ [sha3 left right]).length = done.length + 1 := by simp
    have hnext := @ih (hashes.set done.length (sha3 left right)) (done ++ [sha3 left right])
      (consumed ++ [sha3 left right]) (rest.length + 1 + 1 + fuel) hset (by omega) (by omega) (by omega)
    rw [hashPairs, if_pos (by omega), Nat.mod_eq_of_lt (by omega), if_pos (by omega), Nat.mod_eq_of_lt (by omega),
      hleft, hright, hhalf]
    rw [hlen, show 2 * (done.length + 1) = 2 * done.length + 2 by omega,
      show 2 * done.length + 2 + rest.length = 2 * done.length + (rest.length + 1 + 1) by omega] at hnext
    simpa [nextHashes] using hnext

lemma hashRounds_eq (hlayer : hashes.take layer.length = layer) (hne : layer ≠ []) (hfuel : layer.length ≤ fuel)
    (hbound : layer.length + 1 < 2 ^ 32) :
    hashRounds sha3 fuel hashes layer.length consumed =
      some ((finalLoop sha3 layer).1, consumed ++ (finalLoop sha3 layer).2) := by
  induction layer using finalLoop.induct sha3 generalizing hashes consumed fuel with
  | case1 layer hlen ih =>
    obtain ⟨fuel, rfl⟩ : ∃ k, fuel = k + 1 := ⟨fuel - 1, by omega⟩
    have hnext := length_nextHashes sha3 layer
    have hread : Overwritten hashes [] layer := ⟨rfl, by simpa using hlayer⟩
    obtain ⟨hashes', hpairs, hfront⟩ :=
      @hashPairs_eq sha3 hashes [] layer (consumed ++ padding layer) _ hread (Nat.lt_add_one _) (by simpa using hbound)
    have hlast : (if layer.length % 2 = 1 then [hashes.getD (layer.length - 1) 0] else []) = padding layer := by
      have hget := hread.getD (show layer.length - 1 < layer.length by omega)
      simp only [length_nil, Nat.mul_zero, Nat.zero_add] at hget
      rw [padding, hget, getLastD_eq_getLast?, getLast?_eq_getElem?, getElem?_eq_getElem (by omega), Option.getD_some]
    simp only [length_nil, Nat.mul_zero, Nat.zero_add, nil_append] at hpairs hfront
    rw [hashRounds, if_pos hlen, hlast]
    dsimp only
    rw [hpairs, Option.bind_eq_bind, Option.bind_some, Nat.mul_div_cancel_left _ two_pos,
      ih hfront (ne_nil_of_length_pos (by omega)) (by omega) (by omega)]
    conv_rhs => rw [finalLoop, if_pos hlen]
    simp only [append_assoc]
  | case2 layer hlen =>
    obtain ⟨fuel, rfl⟩ : ∃ k, fuel = k + 1 := ⟨fuel - 1, by have := length_pos_of_ne_nil hne; omega⟩
    obtain ⟨hash, rfl⟩ := length_eq_one_iff.mp (show layer.length = 1 by have := length_pos_of_ne_nil hne; omega)
    obtain ⟨rest, rfl⟩ : ∃ rest, hashes = hash :: rest := by
      cases hashes with
      | nil => simp at hlayer
      | cons head rest => simpa using hlayer
    simp [hashRounds, finalLoop]

theorem finalVector_eq (hbound : hashes.length + 1 < 2 ^ 32) : finalVector sha3 hashes = some (final sha3 hashes) := by
  rw [finalVector, final]
  split_ifs with h
  · rfl
  · exact hashRounds_eq (take_length) h le_rfl hbound

end XpxChain.Crypto
