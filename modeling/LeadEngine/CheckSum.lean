import Mathlib.Algebra.BigOperators.Fin
import Mathlib.Data.Nat.ModEq

/-! Check sums over the symbols of a word, counted from its right end: what a symbol adds may
depend on its place. -/
namespace LeadEngine
namespace CheckSum

variable {α : Type} (term : ℕ → α → ℕ)

/-- Each symbol adds its term at the number of symbols right of it. -/
def total : List α → ℕ
  | [] => 0
  | x :: xs => term xs.length x + total xs

@[simp] theorem total_cons (x : α) (xs : List α) :
    total term (x :: xs) = term xs.length x + total term xs := rfl

theorem total_eq_sum (xs : List α) :
    total term xs = ∑ i : Fin xs.length, term i (xs.get i.rev) := by
  induction xs with
  | nil => rfl
  | cons x xs ih =>
    rw [total_cons,ih,add_comm]
    simp only [List.length_cons]
    rw [Fin.sum_univ_castSucc]
    simp [Fin.rev_castSucc]

theorem total_append_comm (front : List α) {back back' : List α}
    (h : back.length = back'.length) :
    total term (front ++ back) + total term back' =
      total term (front ++ back') + total term back := by
  induction front with
  | nil => exact add_comm _ _
  | cons x front ih =>
    have hlength : (front ++ back).length = (front ++ back').length := by
      rw [List.length_append,List.length_append,h]
    simp only [List.cons_append,total_cons,hlength]
    omega

section Detection

variable {m : ℕ}

theorem total_append_modEq (front : List α) {back back' : List α}
    (h : back.length = back'.length) :
    total term (front ++ back) ≡ total term (front ++ back') [MOD m] ↔
      total term back ≡ total term back' [MOD m] := by
  have hcomm := total_append_comm term front h
  constructor
  · intro hsum
    have heq : total term (front ++ back') + total term back ≡
        total term (front ++ back') + total term back' [MOD m] :=
      (congrArg (· % m) hcomm.symm).trans (hsum.add_right _)
    exact heq.add_left_cancel' _
  · intro hends
    have heq : total term back' + total term (front ++ back) ≡
        total term back' + total term (front ++ back') [MOD m] := by
      rw [add_comm,hcomm,add_comm (total term back')]
      exact hends.add_left _
    exact heq.add_left_cancel' _

theorem total_change (front back : List α) (x y : α) :
    total term (front ++ x :: back) ≡ total term (front ++ y :: back) [MOD m] ↔
      term back.length x ≡ term back.length y [MOD m] := by
  have hlength : (x :: back).length = (y :: back).length := rfl
  rw [total_append_modEq term front hlength,total_cons,total_cons]
  exact ⟨fun h => h.add_right_cancel' _,fun h => h.add_right _⟩

theorem total_swap (front back : List α) (x y : α) :
    total term (front ++ x :: y :: back) ≡ total term (front ++ y :: x :: back) [MOD m] ↔
      term (back.length+1) x + term back.length y ≡
        term (back.length+1) y + term back.length x [MOD m] := by
  have hlength : (x :: y :: back).length = (y :: x :: back).length := rfl
  rw [total_append_modEq term front hlength]
  simp only [total_cons,List.length_cons,← add_assoc]
  exact ⟨fun h => h.add_right_cancel' _,fun h => h.add_right _⟩

end Detection

end CheckSum
end LeadEngine
