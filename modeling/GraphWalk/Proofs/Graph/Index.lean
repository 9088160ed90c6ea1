import Mathlib.Data.List.Nodup
import Mathlib.Data.Nat.Basic
import Mathlib.Tactic.Common
import Std.Data.TreeMap

/-!
Maps that index a list by a key.

Adding an element with a new key, and dropping the elements of one key or of several, is the
same on the map and on the list.
-/

namespace GraphWalk

variable {α β κ : Type} [Ord κ] {m : Std.TreeMap κ β} {as : List α} {key : α → κ} {value : α → β}

/-- The map finds under every key the value of the element that has the key. -/
def Indexes (m : Std.TreeMap κ β) (as : List α) (key : α → κ) (value : α → β) : Prop :=
  ∀ k b, m[k]? = some b ↔ ∃ a ∈ as, key a = k ∧ value a = b

lemma indexes_empty [Std.TransOrd κ] : Indexes (∅ : Std.TreeMap κ β) [] key value := by
  simp [Indexes]

namespace Indexes

lemma getElem?_key (h : Indexes m as key value) {a : α} (ha : a ∈ as) :
    m[key a]? = some (value a) := (h _ _).mpr ⟨a, ha, rfl, rfl⟩

variable [Std.TransOrd κ]

lemma contains_iff (h : Indexes m as key value) (k : κ) :
    m.contains k = true ↔ k ∈ as.map key := by
  rw [Std.TreeMap.contains_eq_isSome_getElem?, Option.isSome_iff_exists, List.mem_map]
  constructor
  · rintro ⟨b, hb⟩
    obtain ⟨a, ha, hk, -⟩ := (h k b).mp hb
    exact ⟨a, ha, hk⟩
  · rintro ⟨a, ha, rfl⟩
    exact ⟨value a, h.getElem?_key ha⟩

variable [Std.LawfulEqOrd κ]

lemma keys_perm (h : Indexes m as key value) (hn : (as.map key).Nodup) :
    m.keys.Perm (as.map key) := by
  refine (List.perm_ext_iff_of_nodup Std.TreeMap.nodup_keys hn).mpr fun k => ?_
  rw [Std.TreeMap.mem_keys, Std.TreeMap.mem_iff_contains, h.contains_iff]

lemma size_eq (h : Indexes m as key value) (hn : (as.map key).Nodup) : m.size = as.length := by
  rw [← Std.TreeMap.length_keys, (h.keys_perm hn).length_eq, List.length_map]

lemma insert (h : Indexes m as key value) {a : α} (ha : key a ∉ as.map key) :
    Indexes (m.insert (key a) (value a)) (as ++ [a]) key value := by
  intro k b
  rw [Std.TreeMap.getElem?_insert]
  simp only [List.mem_append, List.mem_singleton]
  by_cases hk : key a = k
  · rw [if_pos (Std.LawfulEqOrd.compare_eq_iff_eq.mpr hk), Option.some.injEq]
    subst hk
    constructor
    · rintro rfl
      exact ⟨a, .inr rfl, rfl, rfl⟩
    · rintro ⟨a', ha' | rfl, he, hb⟩
      · exact absurd (he ▸ List.mem_map_of_mem ha') ha
      · exact hb
  · rw [if_neg (mt Std.LawfulEqOrd.compare_eq_iff_eq.mp hk), h]
    constructor
    · rintro ⟨a', ha', he, hb⟩
      exact ⟨a', .inl ha', he, hb⟩
    · rintro ⟨a', ha' | rfl, he, hb⟩
      · exact ⟨a', ha', he, hb⟩
      · exact absurd he hk

variable [DecidableEq κ]

lemma erase (h : Indexes m as key value) (k : κ) :
    Indexes (m.erase k) (as.filter (key · ≠ k)) key value := by
  intro k' b
  rw [Std.TreeMap.getElem?_erase]
  simp only [List.mem_filter, decide_eq_true_eq]
  by_cases hk : k = k'
  · rw [if_pos (Std.LawfulEqOrd.compare_eq_iff_eq.mpr hk)]
    subst hk
    constructor
    · intro hc
      cases hc
    · rintro ⟨a, ⟨-, hne⟩, he, -⟩
      exact absurd he hne
  · rw [if_neg (mt Std.LawfulEqOrd.compare_eq_iff_eq.mp hk), h]
    constructor
    · rintro ⟨a, ha, rfl, hb⟩
      exact ⟨a, ⟨ha, Ne.symm hk⟩, rfl, hb⟩
    · rintro ⟨a, ⟨ha, -⟩, he, hb⟩
      exact ⟨a, ha, he, hb⟩

lemma foldl_erase (h : Indexes m as key value) (ks : List κ) :
    Indexes (ks.foldl (·.erase ·) m) (as.filter (key · ∉ ks)) key value := by
  induction ks generalizing m as with
  | nil => simpa using h
  | cons k ks ih =>
    have hrest := ih (h.erase k)
    rw [List.filter_filter] at hrest
    rw [List.foldl_cons]
    convert hrest using 2
    simp [not_or, Bool.and_comm]

end Indexes

end GraphWalk
