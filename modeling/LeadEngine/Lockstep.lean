import LeadEngine.TransitionSystem

/-! Two programs side by side: results that are alike, a run of one that is followed step by step in
the other, and a view that some steps of a run change and the others do not. -/
namespace LeadEngine
namespace Lockstep

open TransitionSystem

section Results

variable {ε α β γ δ : Type*} {R : α → β → Prop} {S : γ → δ → Prop}

/-- Both raise the same, or both return and what they return is related. -/
inductive Alike (R : α → β → Prop) : Except ε α → Except ε β → Prop
  | raised (err : ε) : Alike R (.error err) (.error err)
  | returned {a : α} {b : β} (h : R a b) : Alike R (.ok a) (.ok b)

theorem Alike.ok {x : Except ε α} {y : Except ε β} (h : Alike R x y) {a : α} (hx : x = .ok a) :
    ∃ b, y = .ok b ∧ R a b := by
  cases h with
  | raised err => cases hx
  | returned hab =>
    obtain rfl := Except.ok.inj hx
    exact ⟨_,rfl,hab⟩

theorem forall₂_filter {p : α → Bool} {q : β → Bool} {l : List α} {l' : List β}
    (h : List.Forall₂ R l l') (hpq : ∀ a b, R a b → p a = q b) :
    List.Forall₂ R (l.filter p) (l'.filter q) := by
  induction h with
  | nil => exact .nil
  | @cons a b _ _ hab _ ih =>
    rw [List.filter_cons,List.filter_cons,hpq a b hab]
    split
    · exact .cons hab ih
    · exact ih

end Results

section Runs

variable {σ σ' τ τ' : Type*} {step : σ → τ → σ → Prop} {step' : σ' → τ' → σ' → Prop}
  {start : σ} {start' : σ'} {R : σ → σ' → Prop} {L : τ → τ' → Prop}

variable (step') in
/-- Where each step has its counterpart under each related label, a run is followed under any
list of related labels. -/
theorem follows {tr : List (Transition σ τ)} {s : σ} (h : Path step start tr s)
    (hinit : R start start')
    (hstep : ∀ s a s₁ t b, R s t → L a b → step s a s₁ → ∃ t₁, step' t b t₁ ∧ R s₁ t₁)
    {labels : List τ'} (hlabels : List.Forall₂ L (tr.map fun t => t.2.1) labels) :
    ∃ tr' t, Path step' start' tr' t ∧ tr'.map (fun t => t.2.1) = labels ∧ R s t := by
  induction h generalizing labels with
  | nil =>
    cases hlabels
    exact ⟨[],start',.nil,rfl,hinit⟩
  | @snoc tr s s₁ a _ hs ih =>
    rw [List.map_append,List.map_singleton] at hlabels
    have hbefore := (List.forall₂_take_append _ _ _ hlabels.flip).flip
    have hlast := (List.forall₂_drop_append _ _ _ hlabels.flip).flip
    obtain ⟨b,rest,hab,hnil,hdrop⟩ := List.forall₂_cons_left_iff.mp hlast
    cases hnil
    obtain ⟨tr',t,hpath,hmap,hrel⟩ := ih hbefore
    obtain ⟨t₁,ht₁,hrel₁⟩ := hstep s a s₁ t b hrel hab hs
    refine ⟨_,t₁,hpath.snoc ht₁,?_,hrel₁⟩
    rw [List.map_append,hmap,List.map_singleton,← hdrop,List.take_append_drop]

end Runs

section Views

variable {σ ρ τ : Type*} {step : σ → τ → σ → Prop} {step' : ρ → τ → ρ → Prop} {start : σ}

/-- A view that the kept steps of a run change by the same step, and the others not at all, is
reached by the kept steps alone. -/
theorem projects {I : σ → Prop} {guard : τ → Prop} (view : σ → ρ) (kept : τ → Bool)
    {tr : List (Transition σ τ)} {s : σ} (h : Path step start tr s)
    (hguard : ∀ t ∈ tr, guard t.2.1) (hinit : I start)
    (hinv : ∀ s a s', I s → guard a → step s a s' → I s')
    (hkept : ∀ s a s', I s → guard a → kept a = true → step s a s' → step' (view s) a (view s'))
    (hdropped : ∀ s a s', I s → guard a → kept a = false → step s a s' → view s' = view s) :
    I s ∧ ∃ tr', Path step' (view start) tr' (view s) ∧
      tr'.map (fun t => t.2.1) = (tr.map fun t => t.2.1).filter kept := by
  induction h with
  | nil => exact ⟨hinit,[],.nil,rfl⟩
  | @snoc tr s s' a _ hs ih =>
    obtain ⟨hI,tr',hpath,hmap⟩ := ih fun t ht => hguard t (List.mem_append_left _ ht)
    have ha : guard a := hguard _ (List.mem_append_right _ (List.mem_singleton_self _))
    refine ⟨hinv s a s' hI ha hs,?_⟩
    rw [List.map_append,List.filter_append,← hmap]
    cases hkeep : kept a with
    | false =>
      rw [hdropped s a s' hI ha hkeep hs]
      exact ⟨tr',hpath,by simp [hkeep]⟩
    | true =>
      exact ⟨_,hpath.snoc (hkept s a s' hI ha hkeep hs),by simp [hkeep]⟩

end Views

end Lockstep
end LeadEngine
