import Mathlib.Tactic

/-!
# Distinct members

The members of a list, each once and in order of first occurrence.
-/

namespace EquationNetwork

variable {α : Type*} [BEq α] [LawfulBEq α]

theorem nodup_eraseDups (l : List α) : l.eraseDups.Nodup := by
  generalize hn : l.length = n
  induction n using Nat.strong_induction_on generalizing l with
  | _ n ih =>
    cases l with
    | nil => simp
    | cons a l =>
      rw [List.eraseDups_cons, List.nodup_cons]
      refine ⟨by simp, ih _ ?_ _ rfl⟩
      have hle := List.length_filter_le (fun b => !b == a) l
      rw [List.length_cons] at hn
      omega

/-- One more member comes last if it is new. -/
theorem eraseDups_concat (l : List α) (a : α) :
    (l ++ [a]).eraseDups = l.eraseDups ++ if a ∈ l then [] else [a] := by
  rw [List.eraseDups_append]
  by_cases ha : a ∈ l <;> simp [List.removeAll, List.eraseDups_cons, ha]

/-- Members that a test rejects may be left out first. -/
theorem eraseDups_filter (p : α → Bool) (l : List α) :
    (l.filter p).eraseDups = l.eraseDups.filter p := by
  induction l using List.reverseRecOn with
  | nil => rfl
  | append_singleton l a ih =>
    rw [List.filter_append, eraseDups_concat, List.filter_append, ← ih]
    by_cases ha : p a = true
    · have hone : [a].filter p = [a] := by simp [ha]
      rw [hone, eraseDups_concat]
      by_cases hmem : a ∈ l <;> simp [hmem, ha]
    · have hnone : [a].filter p = [] := by simp [ha]
      by_cases hmem : a ∈ l <;> simp [hnone, hmem]

/-- Members told apart by what `f` makes of them may be told apart before `f` is applied. -/
theorem eraseDupsBy_map {β γ : Type*} (f : β → γ) (r : γ → γ → Bool) (l : List β) :
    (l.map f).eraseDupsBy r = (l.eraseDupsBy fun a b => r (f a) (f b)).map f := by
  generalize hn : l.length = n
  induction n using Nat.strong_induction_on generalizing l with
  | _ n ih =>
    cases l with
    | nil => rfl
    | cons a l =>
      rw [List.map_cons, List.eraseDupsBy_cons, List.eraseDupsBy_cons, List.map_cons,
        List.filter_map]
      congr 1
      refine ih _ ?_ _ rfl
      have hle := List.length_filter_le (fun b => decide (r (f b) (f a) = false)) l
      rw [List.length_cons] at hn
      show (l.filter fun b => decide (r (f b) (f a) = false)).length < n
      omega

/-- The first member that passes a test is found among the distinct members. -/
theorem find?_eraseDups (p : α → Bool) (l : List α) : l.eraseDups.find? p = l.find? p := by
  induction l using List.reverseRecOn with
  | nil => rfl
  | append_singleton l a ih =>
    rw [eraseDups_concat, List.find?_append, List.find?_append, ih]
    by_cases hmem : a ∈ l
    · cases hfind : l.find? p with
      | some b => rfl
      | none =>
        have ha : p a = false := by simpa using List.find?_eq_none.1 hfind a hmem
        simp [hmem, ha]
    · rw [if_neg hmem]

end EquationNetwork
