import Mathlib.Algebra.Order.BigOperators.Group.Finset
import Mathlib.Data.Fintype.Basic
import Mathlib.Data.List.Basic

/-! Labelled transition systems and their finite executions.
A step is any relation between two states and a label, so the same rules serve
deterministic programs, programs with failing steps and interleaved transactions. -/
namespace LeadEngine
namespace TransitionSystem

variable {σ τ α β : Type*}

abbrev Transition (σ α : Type*) := σ × α × σ

/-- A finite execution from `start`, carried as the list of its transitions in order. -/
inductive Path (step : σ → α → σ → Prop) (start : σ) : List (Transition σ α) → σ → Prop
  | nil : Path step start [] start
  | snoc {tr : List (Transition σ α)} {s s' : σ} {a : α} :
      Path step start tr s → step s a s' → Path step start (tr ++ [(s,a,s')]) s'

def Reachable (step : σ → α → σ → Prop) (start s : σ) : Prop :=
  ∃ tr, Path step start tr s

variable {step : σ → α → σ → Prop} {start : σ}

theorem Path.reachable {tr : List (Transition σ α)} {s : σ} (h : Path step start tr s) :
    Reachable step start s := ⟨tr,h⟩

theorem Reachable.refl : Reachable step start start := ⟨[],Path.nil⟩

theorem Reachable.tail {s s' : σ} {a : α} (h : Reachable step start s) (hs : step s a s') :
    Reachable step start s' := by
  obtain ⟨tr,htr⟩ := h
  exact ⟨_,htr.snoc hs⟩

theorem Reachable.invariant {I : σ → Prop} {s : σ} (h : Reachable step start s)
    (hinit : I start) (hstep : ∀ s a s', I s → step s a s' → I s') : I s := by
  obtain ⟨tr,htr⟩ := h
  induction htr with
  | nil => exact hinit
  | snoc _ hs ih => exact hstep _ _ _ ih hs

theorem Path.invariant_of_guard {I : σ → Prop} {G : σ → α → Prop} {tr : List (Transition σ α)}
    {s : σ} (h : Path step start tr s) (hinit : I start)
    (hstep : ∀ s a s', I s → G s a → step s a s' → I s')
    (hguard : ∀ t ∈ tr, G t.1 t.2.1) : I s := by
  induction h with
  | nil => exact hinit
  | snoc _ hs ih =>
    have hp := ih (fun t ht => hguard t (List.mem_append_left _ ht))
    exact hstep _ _ _ hp (hguard _ (List.mem_append_right _ (List.mem_singleton.mpr rfl))) hs

theorem Path.eq_start_of_nil {s : σ} (h : Path step start [] s) : s = start := by
  generalize htr : ([] : List (Transition σ α)) = tr at h
  cases h with
  | nil => rfl
  | snoc _ _ => simp at htr

theorem Path.snoc_inv {tr : List (Transition σ α)} {s s' t : σ} {a : α}
    (h : Path step start (tr ++ [(s,a,s')]) t) : Path step start tr s ∧ step s a s' ∧ t = s' := by
  generalize htr : tr ++ [(s,a,s')] = full at h
  cases h with
  | nil => simp at htr
  | snoc hp hs =>
    obtain ⟨rfl,he⟩ := List.append_inj' htr rfl
    simp only [List.cons.injEq,Prod.mk.injEq,and_true] at he
    obtain ⟨rfl,rfl,rfl⟩ := he
    exact ⟨hp,hs,rfl⟩

theorem Path.trans {tr tr' : List (Transition σ α)} {s s' : σ} (h : Path step start tr s)
    (h' : Path step s tr' s') : Path step start (tr ++ tr') s' := by
  induction h' with
  | nil => simpa using h
  | snoc _ hs ih => rw [← List.append_assoc]; exact ih.snoc hs

theorem Reachable.trans {s s' : σ} (h : Reachable step start s) (h' : Reachable step s s') :
    Reachable step start s' := by
  obtain ⟨tr,htr⟩ := h
  obtain ⟨tr',htr'⟩ := h'
  exact ⟨_,htr.trans htr'⟩

theorem Path.step_of_mem {tr : List (Transition σ α)} {s : σ} (h : Path step start tr s)
    {t : Transition σ α} (ht : t ∈ tr) : Reachable step start t.1 ∧ step t.1 t.2.1 t.2.2 := by
  induction h with
  | nil => simp at ht
  | snoc hp hs ih =>
    rcases List.mem_append.mp ht with ht | ht
    · exact ih ht
    · rw [List.mem_singleton.mp ht]
      exact ⟨hp.reachable,hs⟩

/-- A property of executions that a step extends exactly when its guard holds is
true of every prefix of an execution exactly when every transition meets the guard. -/
theorem Path.always_iff_guard {P : List (Transition σ α) → σ → Prop} {G : σ → α → Prop}
    (hinit : P [] start)
    (hstep : ∀ tr s a s', Path step start tr s → P tr s → step s a s' →
      (P (tr ++ [(s,a,s')]) s' ↔ G s a))
    {tr : List (Transition σ α)} {s : σ} (h : Path step start tr s) :
    (∀ tr₁ s₁, tr₁ <+: tr → Path step start tr₁ s₁ → P tr₁ s₁) ↔ ∀ t ∈ tr, G t.1 t.2.1 := by
  induction h with
  | nil =>
    simp only [List.prefix_nil,List.not_mem_nil,false_implies,implies_true,iff_true]
    rintro tr₁ s₁ rfl hp
    rw [hp.eq_start_of_nil]
    exact hinit
  | @snoc tr s s' a hp hs ih =>
    constructor
    · intro hall t ht
      have hprev := fun tr₁ s₁ (hpre : tr₁ <+: tr) =>
        hall tr₁ s₁ (hpre.trans (List.prefix_append _ _))
      rcases List.mem_append.mp ht with ht | ht
      · exact ih.mp hprev t ht
      · obtain rfl := List.mem_singleton.mp ht
        exact (hstep tr s a s' hp (hprev tr s List.prefix_rfl hp) hs).mp
          (hall _ _ List.prefix_rfl (hp.snoc hs))
    · intro hg tr₁ s₁ hpre hp₁
      have hprev := ih.mpr (fun t ht => hg t (List.mem_append_left _ ht))
      rcases List.prefix_concat_iff.mp hpre with rfl | hpre
      · obtain ⟨_,_,rfl⟩ := hp₁.snoc_inv
        exact (hstep tr s a s₁ hp (hprev tr s List.prefix_rfl hp) hs).mpr
          (hg _ (List.mem_append_right _ (List.mem_singleton.mpr rfl)))
      · exact hprev tr₁ s₁ hpre hp₁

/-- Take the scheduled steps in order, leaving out those that are not possible. -/
def follow (next : σ → α → Option σ) : σ → List α → σ
  | s,[] => s
  | s,a :: rest =>
    match next s a with
    | some s' => follow next s' rest
    | none => follow next s rest

def followed (next : σ → α → Option σ) : σ → List α → List (Transition σ α)
  | _,[] => []
  | s,a :: rest =>
    match next s a with
    | some s' => (s,a,s') :: followed next s' rest
    | none => followed next s rest

theorem path_follow (next : σ → α → Option σ) (s : σ) (schedule : List α) :
    Path (fun s a s' => next s a = some s') s (followed next s schedule)
      (follow next s schedule) := by
  induction schedule generalizing s with
  | nil => exact .nil
  | cons a rest ih =>
    rw [follow,followed]
    cases hn : next s a with
    | some s' => exact (Path.nil.snoc hn).trans (ih s')
    | none => exact ih s

/-- Threads that each take so many steps at most make every execution finite. -/
theorem Path.length_le_of_threads {ι : Type*} [Fintype ι] {step : σ → ι → σ → Prop} {start s : σ}
    (rank : σ → ι → ℕ) {most : ℕ} (hmost : ∀ s i, rank s i ≤ most)
    (hstep : ∀ s i s', step s i s' → rank s i < rank s' i ∧ ∀ j, j ≠ i → rank s' j = rank s j)
    {tr : List (Transition σ ι)} (h : Path step start tr s) :
    tr.length ≤ most * Fintype.card ι := by
  have hsum : tr.length ≤ ∑ i, rank s i := by
    induction h with
    | nil => exact Nat.zero_le _
    | @snoc tr s s' i _ hs ih =>
      obtain ⟨hlt,hothers⟩ := hstep s i s' hs
      have hmore : ∑ j, rank s j < ∑ j, rank s' j := by
        refine Finset.sum_lt_sum (fun j _ => ?_) ⟨i,Finset.mem_univ i,hlt⟩
        by_cases hj : j = i
        · rw [hj]
          exact hlt.le
        · exact (hothers j hj).ge
      rw [List.length_append,List.length_singleton]
      omega
  calc tr.length ≤ ∑ i, rank s i := hsum
    _ ≤ ∑ _i : ι, most := Finset.sum_le_sum fun i _ => hmost s i
    _ = most * Fintype.card ι := by simp [Nat.mul_comm]

end TransitionSystem
end LeadEngine
