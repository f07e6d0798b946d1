import Mathlib.Logic.Relation
import Mathlib.Data.List.Perm.Basic

/-! Precedence constraints between finitely many actions. Constraints without a cycle
admit an order of the actions that respects them, and they stay without a cycle when an
action is placed between predecessors and successors that no chain leads back from. -/
namespace LeadEngine
namespace Precedence

open Relation

variable {ι κ : Type*} {r r' : ι → ι → Prop}

/-- No action precedes itself through a chain of constraints. -/
def Acyclic (r : ι → ι → Prop) : Prop := ∀ i, ¬ TransGen r i i

theorem Acyclic.mono (h : Acyclic r) (hsub : ∀ i j, r' i j → r i j) : Acyclic r' :=
  fun i hi => h i (TransGen.mono hsub i i hi)

theorem Acyclic.comap (h : Acyclic r) (f : κ → ι) : Acyclic fun a b => r (f a) (f b) :=
  fun a ha => h (f a) (ha.lift f fun _ _ hab => hab)

theorem acyclic_of_isolated (h : ∀ i j, ¬ r i j) : Acyclic r := by
  intro i hi
  obtain ⟨j,_,hji⟩ := TransGen.tail'_iff.mp hi
  exact h j i hji

/-- A path over old constraints and constraints from `A` to `B` uses the new ones at most
once when `B` does not lead back to `A`. -/
theorem transGen_union {A B : ι → Prop} (hr : ∀ i j, r' i j → r i j ∨ A i ∧ B j)
    (hback : ∀ a b, A a → B b → ¬ ReflTransGen r b a) {i j : ι} (h : TransGen r' i j) :
    TransGen r i j ∨ ∃ a b, A a ∧ B b ∧ ReflTransGen r i a ∧ ReflTransGen r b j := by
  induction h with
  | single hij =>
    rcases hr _ _ hij with hij | ⟨ha,hb⟩
    · exact Or.inl (.single hij)
    · exact Or.inr ⟨_,_,ha,hb,.refl,.refl⟩
  | tail _ hjk ih =>
    rcases hr _ _ hjk with hjk | ⟨ha,hb⟩
    · rcases ih with ih | ⟨a,b,ha,hb,hia,hbj⟩
      · exact Or.inl (ih.tail hjk)
      · exact Or.inr ⟨a,b,ha,hb,hia,hbj.tail hjk⟩
    · rcases ih with ih | ⟨a,b,_,hb',_,hbj⟩
      · exact Or.inr ⟨_,_,ha,hb,ih.to_reflTransGen,.refl⟩
      · exact absurd hbj (hback _ _ ha hb')

theorem Acyclic.union {A B : ι → Prop} (h : Acyclic r)
    (hr : ∀ i j, r' i j → r i j ∨ A i ∧ B j)
    (hback : ∀ a b, A a → B b → ¬ ReflTransGen r b a) : Acyclic r' := by
  intro i hi
  rcases transGen_union hr hback hi with hi | ⟨a,b,ha,hb,hia,hbi⟩
  · exact h i hi
  · exact hback a b ha hb (hbi.trans hia)

/-- An unconstrained action can be placed after `A` and before `B` unless a chain leads
from `B` back to `A`. -/
theorem Acyclic.place {A B : ι → Prop} {x : ι} (h : Acyclic r)
    (hr : ∀ i j, r' i j → r i j ∨ A i ∧ j = x ∨ i = x ∧ B j)
    (hfrom : ∀ i, ¬ r x i) (hto : ∀ i, ¬ r i x) (hA : ¬ A x) (hB : ¬ B x)
    (hback : ∀ a b, A a → B b → ¬ ReflTransGen r b a) : Acyclic r' := by
  have hstuck : ∀ j, ReflTransGen r x j → j = x := by
    intro j hj
    rcases hj.cases_head with hxj | ⟨k,hk,_⟩
    · exact hxj.symm
    · exact absurd hk (hfrom k)
  have hafter : Acyclic fun i j => r i j ∨ A i ∧ j = x := by
    refine h.union (A := A) (B := (· = x)) (fun _ _ => id) ?_
    rintro a b ha rfl hba
    rw [hstuck a hba] at ha
    exact hA ha
  refine hafter.union (A := (· = x)) (B := B) (fun i j hij => ?_) ?_
  · rcases hr i j hij with hij | hij | hij
    · exact Or.inl (Or.inl hij)
    · exact Or.inl (Or.inr hij)
    · exact Or.inr hij
  · rintro a b rfl hb hba
    have hreach : ∀ j, ReflTransGen (fun i j => r i j ∨ A i ∧ j = a) b j →
        j = a ∧ (∃ i, A i ∧ ReflTransGen r b i) ∨ ReflTransGen r b j := by
      intro j hj
      induction hj with
      | refl => exact Or.inr .refl
      | tail _ hjk ih =>
        rcases hjk with hjk | ⟨hj,rfl⟩
        · rcases ih with ⟨rfl,_⟩ | ih
          · exact absurd hjk (hfrom _)
          · exact Or.inr (ih.tail hjk)
        · rcases ih with ⟨rfl,_⟩ | ih
          · exact absurd hj hA
          · exact Or.inl ⟨rfl,_,hj,ih⟩
    rcases hreach a hba with ⟨_,i,hi,hbi⟩ | hba
    · exact hback i b hi hb hbi
    · rcases hba.cases_tail with rfl | ⟨j,_,hja⟩
      · exact hB hb
      · exact hto j hja

/-- Among finitely many actions some action has no predecessor. -/
theorem Acyclic.exists_first (h : Acyclic r) {xs : List ι} (hne : xs ≠ []) :
    ∃ x ∈ xs, ∀ y ∈ xs, ¬ TransGen r y x := by
  induction xs with
  | nil => exact absurd rfl hne
  | cons a as ih =>
    by_cases has : as = []
    · subst has
      exact ⟨a,by simp,by simpa using h a⟩
    · obtain ⟨x,hx,hfirst⟩ := ih has
      by_cases hax : TransGen r a x
      · refine ⟨a,List.mem_cons_self,fun y hy hya => ?_⟩
        rcases List.mem_cons.mp hy with rfl | hy
        · exact h _ hya
        · exact hfirst y hy (hya.trans hax)
      · refine ⟨x,List.mem_cons_of_mem _ hx,fun y hy hyx => ?_⟩
        rcases List.mem_cons.mp hy with rfl | hy
        · exact hax hyx
        · exact hfirst y hy hyx

/-- Constraints without a cycle admit an order that respects them. -/
theorem Acyclic.exists_order (h : Acyclic r) (xs : List ι) :
    ∃ ys : List ι, ys.Perm xs ∧ ys.Pairwise fun i j => ¬ r j i := by
  classical
  generalize hn : xs.length = n
  induction n generalizing xs with
  | zero => exact ⟨[],by rw [List.length_eq_zero_iff.mp hn],List.Pairwise.nil⟩
  | succ n ih =>
    have hne : xs ≠ [] := by
      rintro rfl
      simp at hn
    obtain ⟨x,hx,hfirst⟩ := h.exists_first hne
    obtain ⟨ys,hys,hpair⟩ := ih (xs.erase x) (by rw [List.length_erase_of_mem hx]; omega)
    refine ⟨x :: ys,(hys.cons x).trans (List.perm_cons_erase hx).symm,
      List.pairwise_cons.mpr ⟨fun y hy hyx => ?_,hpair⟩⟩
    exact hfirst y (List.mem_of_mem_erase (hys.mem_iff.mp hy)) (.single hyx)

end Precedence
end LeadEngine
