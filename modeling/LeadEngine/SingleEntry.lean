import LeadEngine.TransitionSystem

/-! Threads that look whether a gate is open and go through it later. The gate is closed once one
of them has gone through, so that more than one may have found it open by then. -/
namespace LeadEngine
namespace SingleEntry

open TransitionSystem

inductive Place
  | outside | inside | through | refused
  deriving DecidableEq

def Place.entered : Place → Bool
  | .inside | .through => true
  | _ => false

variable {ι : Type}

def Closed (p : ι → Place) : Prop := ∃ j, p j = .through

def Single (p : ι → Place) : Prop :=
  ∀ i j, (p i).entered = true → (p j).entered = true → i = j

/-- The thread does not find the gate open while another one is inside. -/
def Alone (p : ι → Place) (i : ι) : Prop :=
  p i = .outside → ¬ Closed p → ∀ j, j ≠ i → p j ≠ .inside

def Justified (p : ι → Place) : Prop := ∀ i, p i = .refused → Closed p

theorem alone_of_place {p : ι → Place} {i : ι} (h : p i ≠ .outside) : Alone p i :=
  fun hout => absurd hout h

section Gate

variable [DecidableEq ι]

inductive GateStep (p : ι → Place) (i : ι) : (ι → Place) → Prop
  | enter (h : p i = .outside) (hopen : ¬ Closed p) : GateStep p i (Function.update p i .inside)
  | refuse (h : p i = .outside) (hclosed : Closed p) :
      GateStep p i (Function.update p i .refused)
  | pass (h : p i = .inside) : GateStep p i (Function.update p i .through)
  | stay (h : p i ≠ .outside) : GateStep p i p

section Step

variable {p p' : ι → Place} {i : ι}

theorem entered_update {q : Place} (h : q.entered = (p i).entered) (j : ι) :
    (Function.update p i q j).entered = (p j).entered := by
  by_cases hj : j = i
  · rw [hj,Function.update_self,h]
  · rw [Function.update_of_ne hj]

theorem single_update {q : Place} (h : q.entered = (p i).entered) :
    Single (Function.update p i q) ↔ Single p := by
  simp only [Single,entered_update h]

/-- One step leaves at most one thread that found the gate open exactly when there was at most one
and the step was taken alone. -/
theorem GateStep.single_iff (h : GateStep p i p') : Single p' ↔ Single p ∧ Alone p i := by
  cases h with
  | enter h hopen =>
    have hself : Function.update p i .inside i = .inside := Function.update_self ..
    have hother : ∀ j, j ≠ i → Function.update p i .inside j = p j :=
      fun j hj => Function.update_of_ne hj ..
    constructor
    · intro hsingle
      have hno : ∀ j, j ≠ i → (p j).entered = false := by
        intro j hj
        by_contra hentered
        rw [← hother j hj,Bool.not_eq_false] at hentered
        exact hj (hsingle j i hentered (by rw [hself]; rfl))
      refine ⟨fun j k hj hk => ?_,fun _ _ j hj hinside => ?_⟩
      · have hji : j ≠ i := by
          rintro rfl
          rw [h] at hj
          cases hj
        rw [hno j hji] at hj
        cases hj
      · have hfalse := hno j hj
        rw [hinside] at hfalse
        cases hfalse
    · rintro ⟨hsingle,halone⟩
      have hno : ∀ j, j ≠ i → (p j).entered = false := by
        intro j hj
        cases hpj : p j with
        | inside => exact absurd hpj (halone h hopen j hj)
        | through => exact absurd ⟨j,hpj⟩ hopen
        | outside | refused => rfl
      have honly : ∀ j, (Function.update p i .inside j).entered = true → j = i := by
        intro j hj
        by_contra hji
        rw [hother j hji,hno j hji] at hj
        cases hj
      intro j k hj hk
      rw [honly j hj,honly k hk]
  | refuse h hclosed =>
    rw [single_update (by rw [h]; rfl)]
    exact (and_iff_left fun _ hopen => absurd hclosed hopen).symm
  | pass h =>
    rw [single_update (by rw [h]; rfl)]
    exact (and_iff_left (alone_of_place (by simp [h]))).symm
  | stay h => exact (and_iff_left (alone_of_place h)).symm

theorem GateStep.closed (h : GateStep p i p') (hclosed : Closed p) : Closed p' := by
  obtain ⟨j,hj⟩ := hclosed
  have hkeep : ∀ q, p i ≠ .through → Closed (Function.update p i q) := by
    intro q hi
    refine ⟨j,?_⟩
    rw [Function.update_of_ne ?_,hj]
    rintro rfl
    exact hi hj
  cases h with
  | enter h | refuse h | pass h => exact hkeep _ (by simp [h])
  | stay => exact ⟨j,hj⟩

theorem GateStep.justified (h : GateStep p i p') (hjustified : Justified p) : Justified p' := by
  intro j hj
  have hold : p j = .refused → Closed p' := fun hp => h.closed (hjustified j hp)
  cases h with
  | enter h | pass h =>
    by_cases hji : j = i
    · rw [hji,Function.update_self] at hj
      cases hj
    · rw [Function.update_of_ne hji] at hj
      exact hold hj
  | refuse h hclosed => exact (GateStep.refuse h hclosed).closed hclosed
  | stay => exact hold hj

end Step

section Runs

variable {σ : Type} {step : σ → ι → σ → Prop} {start s : σ} (place : σ → ι → Place)

/-- A run with at most one thread that found the gate open is one whose steps are taken alone. -/
theorem single_run_iff {tr : List (Transition σ ι)}
    (hinit : ∀ i, place start i = .outside)
    (hsteps : ∀ s i s', Reachable step start s → step s i s' →
      GateStep (place s) i (place s'))
    (h : Path step start tr s) : Single (place s) ↔ ∀ x ∈ tr, Alone (place x.1) x.2.1 := by
  induction h with
  | nil =>
    refine iff_of_true (fun i j hi => ?_) (by simp)
    rw [hinit i] at hi
    cases hi
  | snoc hp hs ih =>
    rw [(hsteps _ _ _ hp.reachable hs).single_iff,ih]
    simp [or_imp,forall_and]

theorem justified_run (hinit : ∀ i, place start i = .outside)
    (hsteps : ∀ s i s', Reachable step start s → step s i s' →
      GateStep (place s) i (place s'))
    (h : Reachable step start s) : Justified (place s) := by
  have hboth : Reachable step start s ∧ Justified (place s) := by
    refine h.invariant (I := fun s => Reachable step start s ∧ Justified (place s))
      ⟨.refl,fun i hi => ?_⟩ ?_
    · rw [hinit i] at hi
      cases hi
    · rintro s i s' ⟨hreach,hjustified⟩ hs
      exact ⟨hreach.tail hs,(hsteps s i s' hreach hs).justified hjustified⟩
  exact hboth.2

end Runs

end Gate

section Over

variable {p : ι → Place}

/-- Once every thread is through or refused, one went through and the others were refused exactly
when at most one found the gate open. -/
theorem one_through_iff [Nonempty ι] (hjustified : Justified p)
    (hover : ∀ i, p i = .through ∨ p i = .refused) :
    (∃ i, p i = .through ∧ ∀ j, j ≠ i → p j = .refused) ↔ Single p := by
  constructor
  · rintro ⟨i,-,hothers⟩
    have honly : ∀ j, (p j).entered = true → j = i := by
      intro j hj
      by_contra hji
      rw [hothers j hji] at hj
      cases hj
    intro j k hj hk
    rw [honly j hj,honly k hk]
  · intro hsingle
    obtain ⟨i,hi⟩ : Closed p := by
      obtain ⟨k⟩ := ‹Nonempty ι›
      exact (hover k).elim (fun hk => ⟨k,hk⟩) (hjustified k)
    refine ⟨i,hi,fun j hj => (hover j).resolve_left fun hthrough => hj ?_⟩
    exact hsingle j i (by rw [hthrough]; rfl) (by rw [hi]; rfl)

end Over

section Logs

variable {α : Type} {before after : List α} {item : ι → α} {P P' : ι → Prop}

def Appended (before after : List α) (item : ι → α) (P : ι → Prop) : Prop :=
  ∃ order : List ι, order.Nodup ∧ (∀ k, k ∈ order ↔ P k) ∧ after = before ++ order.map item

theorem appended_none (h : ∀ k, ¬ P k) : Appended before before item P :=
  ⟨[],List.nodup_nil,fun k => by simp [h k],by simp⟩

theorem Appended.congr (h : Appended before after item P) (hP : ∀ k, P' k ↔ P k) :
    Appended before after item P' := by
  obtain ⟨order,hnodup,hmem,hafter⟩ := h
  exact ⟨order,hnodup,fun k => (hmem k).trans (hP k).symm,hafter⟩

theorem Appended.snoc (h : Appended before after item P) {i : ι} (hi : ¬ P i)
    (hP : ∀ k, P' k ↔ P k ∨ k = i) : Appended before (after ++ [item i]) item P' := by
  obtain ⟨order,hnodup,hmem,rfl⟩ := h
  refine ⟨order ++ [i],?_,fun k => ?_,by simp⟩
  · have hnew : i ∉ order := fun hin => hi ((hmem i).mp hin)
    exact List.nodup_append.mpr ⟨hnodup,List.nodup_singleton i,fun j hj k hk hjk =>
      hnew (List.mem_singleton.mp hk ▸ hjk ▸ hj)⟩
  · rw [hP,List.mem_append,List.mem_singleton,hmem]

theorem Appended.item_mem (h : Appended before after item P) {k : ι} (hk : P k) :
    item k ∈ after := by
  obtain ⟨order,_,hmem,rfl⟩ := h
  exact List.mem_append_right _ (List.mem_map_of_mem ((hmem k).mpr hk))

theorem Appended.mem (h : Appended before after item P) {x : α} (hx : x ∈ after) :
    x ∈ before ∨ ∃ k, P k ∧ x = item k := by
  obtain ⟨order,_,hmem,rfl⟩ := h
  refine (List.mem_append.mp hx).imp_right fun hx => ?_
  obtain ⟨k,hk,rfl⟩ := List.mem_map.mp hx
  exact ⟨k,(hmem k).mp hk,rfl⟩

theorem Appended.eq_or_single (h : Appended before after item P)
    (hP : ∀ i j, P i → P j → i = j) :
    (∀ k, ¬ P k) ∧ after = before ∨ ∃ i, P i ∧ after = before ++ [item i] := by
  obtain ⟨order,hnodup,hmem,rfl⟩ := h
  cases order with
  | nil => exact Or.inl ⟨fun k hk => by simpa using (hmem k).mpr hk,by simp⟩
  | cons i rest =>
    have hi : P i := (hmem i).mp List.mem_cons_self
    have hrest : rest = [] := by
      refine List.eq_nil_iff_forall_not_mem.mpr fun j hj => ?_
      obtain rfl := hP i j hi ((hmem j).mp (List.mem_cons_of_mem _ hj))
      exact (List.nodup_cons.mp hnodup).1 hj
    exact Or.inr ⟨i,hi,by rw [hrest]; rfl⟩

end Logs

end SingleEntry
end LeadEngine
