import Std.Data.TreeSet

/-!
Keeping the first of several elements with the same key.
-/

namespace GraphWalk

/-- Drops every element whose key was seen before. -/
def distinctBy [Ord κ] (key : α → κ) (seen : Std.TreeSet κ) : List α → List α
  | [] => []
  | a :: rest =>
    if seen.contains (key a) then distinctBy key seen rest
    else a :: distinctBy key (seen.insert (key a)) rest

section

variable [Ord κ] [Std.TransOrd κ] {key : α → κ}

theorem mem_of_mem_distinctBy {a : α} {seen : Std.TreeSet κ} {as : List α}
    (h : a ∈ distinctBy key seen as) : a ∈ as ∧ key a ∉ seen := by
  induction as generalizing seen with
  | nil => simp [distinctBy] at h
  | cons b rest ih =>
    rw [distinctBy] at h
    split at h
    · exact ⟨List.mem_cons_of_mem b (ih h).1, (ih h).2⟩
    · rename_i fresh
      rcases List.mem_cons.mp h with rfl | h
      · exact ⟨List.mem_cons_self, by simpa using fresh⟩
      · refine ⟨List.mem_cons_of_mem b (ih h).1, fun seen_a => (ih h).2 ?_⟩
        exact Std.TreeSet.mem_insert.mpr (.inr seen_a)

theorem nodup_map_distinctBy (seen : Std.TreeSet κ) (as : List α) :
    ((distinctBy key seen as).map key).Nodup := by
  induction as generalizing seen with
  | nil => simp [distinctBy]
  | cons a rest ih =>
    rw [distinctBy]
    split
    · exact ih seen
    · refine List.nodup_cons.mpr ⟨fun h => ?_, ih _⟩
      obtain ⟨b, hb, same⟩ := List.mem_map.mp h
      exact (mem_of_mem_distinctBy hb).2 (by simp [same])

/-- Every key that was not seen before keeps an element. -/
theorem exists_mem_distinctBy [Std.LawfulEqOrd κ] {a : α} {seen : Std.TreeSet κ} {as : List α}
    (h : a ∈ as) (fresh : key a ∉ seen) : ∃ b ∈ distinctBy key seen as, key b = key a := by
  induction as generalizing seen with
  | nil => simp at h
  | cons b rest ih =>
    rw [distinctBy]
    by_cases same : key b = key a
    · have : ¬ seen.contains (key b) = true := by simpa [same] using fresh
      exact ⟨b, by simp [this], same⟩
    · have mem : a ∈ rest := (List.mem_cons.mp h).resolve_left fun e => same (e ▸ rfl)
      split
      · exact ih mem fresh
      · have fresh' : key a ∉ seen.insert (key b) := by
          simpa [Std.TreeSet.mem_insert, same] using fresh
        obtain ⟨c, hc, e⟩ := ih mem fresh'
        exact ⟨c, List.mem_cons_of_mem b hc, e⟩

theorem distinctBy_eq_self [Std.LawfulEqOrd κ] {seen : Std.TreeSet κ} {as : List α}
    (h : (as.map key).Nodup) (fresh : ∀ a ∈ as, key a ∉ seen) : distinctBy key seen as = as := by
  induction as generalizing seen with
  | nil => rfl
  | cons a rest ih =>
    obtain ⟨ha, hrest⟩ := List.nodup_cons.mp h
    have fresh_a : ¬ seen.contains (key a) = true := fresh a List.mem_cons_self
    rw [distinctBy, if_neg fresh_a, ih hrest fun b hb seen_b => ?_]
    rcases Std.TreeSet.mem_insert.mp seen_b with same | seen_b
    · exact ha (Std.LawfulEqOrd.eq_of_compare same ▸ List.mem_map_of_mem hb)
    · exact fresh b (List.mem_cons_of_mem a hb) seen_b

/-- Having seen more keys drops the elements that have one of them. -/
theorem distinctBy_of_mem_iff [Std.LawfulEqOrd κ] {seen more : Std.TreeSet κ} {P : κ → Prop}
    [DecidablePred P] (h : ∀ k, k ∈ more ↔ k ∈ seen ∨ P k) (as : List α) :
    distinctBy key more as = (distinctBy key seen as).filter fun a => ¬ P (key a) := by
  induction as generalizing seen more with
  | nil => rfl
  | cons a rest ih =>
    have grow (k : κ) : k ∈ more.insert (key a) ↔ k ∈ seen.insert (key a) ∨ P k := by
      simp only [Std.TreeSet.mem_insert, h, or_assoc]
    by_cases ha : key a ∈ seen
    · have old : seen.contains (key a) = true := ha
      have old' : more.contains (key a) = true := (h _).mpr (.inl ha)
      rw [distinctBy, if_pos old', distinctBy, if_pos old, ih h]
    · have fresh : ¬ seen.contains (key a) = true := ha
      by_cases hP : P (key a)
      · have same (k : κ) : k ∈ more ↔ k ∈ seen.insert (key a) ∨ P k := by
          rw [h, Std.TreeSet.mem_insert, Std.LawfulEqOrd.compare_eq_iff_eq]
          refine ⟨.imp_left .inr, ?_⟩
          rintro ((rfl | hk) | hk)
          · exact .inr hP
          · exact .inl hk
          · exact .inr hk
        have old : more.contains (key a) = true := (h _).mpr (.inr hP)
        rw [distinctBy, if_pos old, distinctBy, if_neg fresh,
          List.filter_cons_of_neg (by simpa using hP), ih same]
      · have fresh' : ¬ more.contains (key a) = true := fun hk => ((h _).mp hk).elim ha hP
        rw [distinctBy, if_neg fresh', distinctBy, if_neg fresh,
          List.filter_cons_of_pos (by simpa using hP), ih grow]

theorem distinctBy_append [Std.LawfulEqOrd κ] [DecidableEq κ] (seen : Std.TreeSet κ)
    (as bs : List α) :
    distinctBy key seen (as ++ bs) =
      distinctBy key seen as ++ (distinctBy key seen bs).filter fun b => key b ∉ as.map key := by
  induction as generalizing seen with
  | nil => exact (List.filter_eq_self.mpr fun b _ => by simp).symm
  | cons a rest ih =>
    rw [List.cons_append, distinctBy, distinctBy]
    by_cases ha : key a ∈ seen
    · have old : seen.contains (key a) = true := ha
      rw [if_pos old, if_pos old, ih]
      congr 1
      refine List.filter_congr fun b hb => ?_
      have hne : key b ≠ key a := fun e => (mem_of_mem_distinctBy hb).2 (e ▸ ha)
      simp [hne]
    · have fresh : ¬ seen.contains (key a) = true := ha
      have grow (k : κ) : k ∈ seen.insert (key a) ↔ k ∈ seen ∨ k = key a := by
        rw [Std.TreeSet.mem_insert, Std.LawfulEqOrd.compare_eq_iff_eq, or_comm, eq_comm]
      rw [if_neg fresh, if_neg fresh, ih, distinctBy_of_mem_iff grow bs, List.filter_filter,
        List.cons_append]
      congr 3
      funext b
      simp [Bool.and_comm]

end

end GraphWalk
