import XpxChain.Library.OrderedContainers

/-! Maps that are overwritten entry by entry with the entries of another map. -/

namespace XpxChain.Library.FoldedMaps

open Std OrderedContainers ExtTreeMap

variable {κ α : Type} [Ord κ] [TransOrd κ] [LawfulEqOrd κ] [DecidableEq κ]

lemma find?_entries {l : List (κ × α)} {t : ExtTreeMap κ α} (hl : ∀ p, p ∈ l ↔ p ∈ t.toList) (k : κ) :
    (l.find? fun p => p.1 = k).map Prod.snd = t[k]? := by
  cases hf : l.find? fun p => p.1 = k with
  | none =>
    rw [Option.map_none, eq_comm, Option.eq_none_iff_forall_ne_some]
    intro v hv
    have hmem := (hl (k, v)).mpr (mem_toList_iff_getElem?_eq_some.mpr hv)
    simpa using List.find?_eq_none.mp hf _ hmem
  | some p =>
    have hk : p.1 = k := by simpa using List.find?_some hf
    have hp := mem_toList_iff_getElem?_eq_some.mp ((hl p).mp (List.mem_of_find?_eq_some hf))
    rw [Option.map_some, ← hk, hp]

section

variable (l : List (κ × α)) (m : ExtTreeMap κ α) (k : κ)
include l m k

lemma foldl_insertIfNew :
    (l.foldl (fun m p => m.insertIfNew p.1 p.2) m)[k]? = m[k]?.or ((l.find? fun p => p.1 = k).map Prod.snd) := by
  induction l generalizing m with
  | nil => simp
  | cons p l ih =>
    rw [List.foldl_cons, ih, getElem?_insertIfNew]
    by_cases hk : p.1 = k
    · subst hk
      cases hm : m[p.1]? with
      | none => simp [mem_iff_isSome_getElem?, hm]
      | some v => simp [mem_iff_isSome_getElem?, hm]
    · simp [hk]

lemma foldl_insert :
    (l.foldl (fun m p => m.insert p.1 p.2) m)[k]? = ((l.reverse.find? fun p => p.1 = k).map Prod.snd).or m[k]? := by
  induction l generalizing m with
  | nil => simp
  | cons p l ih =>
    rw [List.foldl_cons, ih, getElem?_insert, List.reverse_cons, List.find?_append]
    by_cases hk : p.1 = k
    · cases hl : l.reverse.find? fun p => p.1 = k <;> simp [hk]
    · cases hl : l.reverse.find? fun p => p.1 = k <;> simp [hk]

lemma foldl_erase :
    (l.foldl (fun m p => m.erase p.1) m)[k]? = if k ∈ l.map Prod.fst then none else m[k]? := by
  induction l generalizing m with
  | nil => simp
  | cons p l ih =>
    rw [List.foldl_cons, ih, getElem?_erase]
    by_cases hk : p.1 = k
    · simp [hk]
    · simp only [Std.compare_eq_iff_eq, hk, if_false, List.map_cons, List.mem_cons, Ne.symm hk, false_or]

end

variable (t m : ExtTreeMap κ α) (k : κ)

theorem getElem?_insertNewEntries : (t.toList.foldl (fun m p => m.insertIfNew p.1 p.2) m)[k]? = m[k]?.or t[k]? := by
  rw [foldl_insertIfNew, find?_entries fun _ => Iff.rfl]

theorem getElem?_insertEntries : (t.toList.foldl (fun m p => m.insert p.1 p.2) m)[k]? = t[k]?.or m[k]? := by
  rw [foldl_insert, find?_entries fun _ => List.mem_reverse]

theorem getElem?_eraseEntries : (t.toList.foldl (fun m p => m.erase p.1) m)[k]? = if k ∈ t then none else m[k]? := by
  rw [foldl_erase, map_fst_toList_eq_keys]
  simp only [mem_keys]

end XpxChain.Library.FoldedMaps

