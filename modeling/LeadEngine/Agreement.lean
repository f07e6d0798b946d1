import Mathlib.Data.Finset.Card
import Mathlib.Data.List.Basic

/-! Injective agreement over traces: each finish of a session has a start of its own before
it. The trace decides it by counting. -/
namespace LeadEngine
namespace Agreement

variable {κ : Type*}

/-- What a step of a trace does to the sessions of a key. -/
inductive Event (κ : Type*)
  | start (k : κ)
  | finish (k : κ)
  | silent
  deriving DecidableEq

/-- Each finish is matched by a distinct earlier start of the same key. -/
def InjectiveAgreement (es : List (Event κ)) : Prop :=
  ∃ origin : ℕ → ℕ,
    (∀ i k, es[i]? = some (.finish k) → origin i < i ∧ es[origin i]? = some (.start k)) ∧
    ∀ i j k l, es[i]? = some (.finish k) → es[j]? = some (.finish l) →
      origin i = origin j → i = j

theorem injectiveAgreement_nil : InjectiveAgreement ([] : List (Event κ)) :=
  ⟨id,by simp,by simp⟩

theorem InjectiveAgreement.of_append {es es' : List (Event κ)}
    (h : InjectiveAgreement (es ++ es')) : InjectiveAgreement es := by
  obtain ⟨origin,hstart,hinj⟩ := h
  have hget : ∀ (i : ℕ) (x : Event κ), es[i]? = some x → (es ++ es')[i]? = some x := by
    intro i x hx
    rw [List.getElem?_append_left (List.getElem?_eq_some_iff.mp hx).1]
    exact hx
  refine ⟨origin,?_,?_⟩
  · intro i k hi
    obtain ⟨hlt,horigin⟩ := hstart i k (hget i _ hi)
    have hlen : i < es.length := (List.getElem?_eq_some_iff.mp hi).1
    refine ⟨hlt,?_⟩
    rwa [List.getElem?_append_left (hlt.trans hlen)] at horigin
  · intro i j k l hi hj
    exact hinj i j k l (hget i _ hi) (hget j _ hj)

section Counting

variable [DecidableEq κ]

def positions (es : List (Event κ)) (e : Event κ) : Finset ℕ :=
  (Finset.range es.length).filter fun i => es[i]? = some e

@[simp] theorem mem_positions {es : List (Event κ)} {e : Event κ} {i : ℕ} :
    i ∈ positions es e ↔ es[i]? = some e := by
  simp only [positions,Finset.mem_filter,Finset.mem_range,and_iff_right_iff_imp]
  intro h
  exact (List.getElem?_eq_some_iff.mp h).1

theorem positions_snoc_self (es : List (Event κ)) (e : Event κ) :
    positions (es ++ [e]) e = insert es.length (positions es e) := by
  ext i
  rw [mem_positions,Finset.mem_insert,mem_positions,List.getElem?_append]
  split_ifs with h
  · simp [Nat.ne_of_lt h]
  · have hnone : es[i]? = none := List.getElem?_eq_none (Nat.le_of_not_lt h)
    rw [hnone,List.getElem?_singleton]
    split_ifs with hi <;> simp <;> omega

theorem positions_snoc_of_ne {es : List (Event κ)} {e e' : Event κ} (h : e ≠ e') :
    positions (es ++ [e']) e = positions es e := by
  ext i
  rw [mem_positions,mem_positions,List.getElem?_append]
  split_ifs with hi
  · rfl
  · have hnone : es[i]? = none := List.getElem?_eq_none (Nat.le_of_not_lt hi)
    rw [hnone,List.getElem?_singleton]
    split_ifs <;> simp [Ne.symm h]

theorem card_positions (es : List (Event κ)) (e : Event κ) :
    (positions es e).card = es.count e := by
  induction es using List.reverseRecOn with
  | nil => simp [positions]
  | append_singleton es e' ih =>
    rw [List.count_append]
    by_cases h : e = e'
    · subst h
      have hnew : es.length ∉ positions es e := by simp
      rw [positions_snoc_self,Finset.card_insert_of_notMem hnew,ih]
      simp
    · rw [positions_snoc_of_ne h,ih]
      simp [Ne.symm h]

theorem InjectiveAgreement.count_le {es : List (Event κ)} (h : InjectiveAgreement es) (k : κ) :
    es.count (.finish k) ≤ es.count (.start k) := by
  obtain ⟨origin,hstart,hinj⟩ := h
  rw [← card_positions,← card_positions]
  apply Finset.card_le_card_of_injOn origin
  · intro i hi
    exact mem_positions.mpr (hstart i k (mem_positions.mp hi)).2
  · intro i hi j hj hij
    exact hinj i j k k (mem_positions.mp hi) (mem_positions.mp hj) hij

theorem exists_unmatched {es : List (Event κ)} {origin : ℕ → ℕ} {k : κ}
    (hstart : ∀ i l, es[i]? = some (.finish l) → es[origin i]? = some (.start l))
    (hlt : es.count (.finish k) < es.count (.start k)) :
    ∃ j, es[j]? = some (.start k) ∧ ∀ i l, es[i]? = some (.finish l) → origin i ≠ j := by
  rw [← card_positions,← card_positions] at hlt
  have himage : ((positions es (.finish k)).image origin).card < (positions es (.start k)).card :=
    Finset.card_image_le.trans_lt hlt
  obtain ⟨j,hj,hnot⟩ := Finset.exists_mem_notMem_of_card_lt_card himage
  refine ⟨j,mem_positions.mp hj,?_⟩
  rintro i l hi rfl
  have hkey : l = k := by
    have hsame := (hstart i l hi).symm.trans (mem_positions.mp hj)
    simpa using hsame
  subst hkey
  exact hnot (Finset.mem_image_of_mem origin (mem_positions.mpr hi))

omit [DecidableEq κ] in
theorem finish_of_snoc {es : List (Event κ)} {e : Event κ} {i : ℕ} {l : κ}
    (h : (es ++ [e])[i]? = some (.finish l)) :
    es[i]? = some (.finish l) ∧ i < es.length ∨ i = es.length ∧ e = .finish l := by
  rw [List.getElem?_append] at h
  split_ifs at h with hlt
  · exact .inl ⟨h,hlt⟩
  · rw [List.getElem?_singleton] at h
    split_ifs at h with hz
    exact .inr ⟨by omega,Option.some.inj h⟩

omit [DecidableEq κ] in
theorem getElem?_snoc_of_some {es : List (Event κ)} (e : Event κ) {i : ℕ} {x : Event κ}
    (h : es[i]? = some x) : (es ++ [e])[i]? = some x := by
  rw [List.getElem?_append_left (List.getElem?_eq_some_iff.mp h).1]
  exact h

omit [DecidableEq κ] in
theorem InjectiveAgreement.snoc_other {es : List (Event κ)} (h : InjectiveAgreement es)
    {e : Event κ} (he : ∀ k, e ≠ .finish k) : InjectiveAgreement (es ++ [e]) := by
  obtain ⟨origin,hstart,hinj⟩ := h
  have hold : ∀ (i : ℕ) (l : κ), (es ++ [e])[i]? = some (.finish l) →
      es[i]? = some (.finish l) := by
    intro i l hi
    rcases finish_of_snoc hi with ⟨hi,_⟩ | ⟨_,hl⟩
    · exact hi
    · exact absurd hl (he l)
  refine ⟨origin,?_,?_⟩
  · intro i l hi
    obtain ⟨hlt,horigin⟩ := hstart i l (hold i l hi)
    exact ⟨hlt,getElem?_snoc_of_some e horigin⟩
  · intro i i' l l' hi hi'
    exact hinj i i' l l' (hold i l hi) (hold i' l' hi')

theorem InjectiveAgreement.snoc_finish {es : List (Event κ)} (h : InjectiveAgreement es) {k : κ}
    (hlt : es.count (.finish k) < es.count (.start k)) :
    InjectiveAgreement (es ++ [.finish k]) := by
  obtain ⟨origin,hstart,hinj⟩ := h
  obtain ⟨j,hj,hfree⟩ := exists_unmatched (fun i l hi => (hstart i l hi).2) hlt
  refine ⟨Function.update origin es.length j,?_,?_⟩
  · intro i l hi
    rcases finish_of_snoc hi with ⟨hi,hlt⟩ | ⟨rfl,hl⟩
    · rw [Function.update_of_ne hlt.ne]
      exact ⟨(hstart i l hi).1,getElem?_snoc_of_some _ (hstart i l hi).2⟩
    · obtain rfl : k = l := by simpa using hl
      rw [Function.update_self]
      exact ⟨(List.getElem?_eq_some_iff.mp hj).1,getElem?_snoc_of_some _ hj⟩
  · intro i i' l l' hi hi' hsame
    rcases finish_of_snoc hi with ⟨hi,hlt⟩ | ⟨rfl,_⟩ <;>
      rcases finish_of_snoc hi' with ⟨hi',hlt'⟩ | ⟨rfl,_⟩
    · rw [Function.update_of_ne hlt.ne,Function.update_of_ne hlt'.ne] at hsame
      exact hinj i i' l l' hi hi' hsame
    · rw [Function.update_of_ne hlt.ne,Function.update_self] at hsame
      exact absurd hsame (hfree i l hi)
    · rw [Function.update_of_ne hlt'.ne,Function.update_self] at hsame
      exact absurd hsame.symm (hfree i' l' hi')
    · rfl

/-- One more event keeps the agreement exactly when it finishes no key without a start to
spare. -/
theorem injectiveAgreement_snoc {es : List (Event κ)} (h : InjectiveAgreement es) (e : Event κ) :
    InjectiveAgreement (es ++ [e]) ↔
      ∀ k, e = .finish k → es.count (.finish k) < es.count (.start k) := by
  constructor
  · rintro hsnoc k rfl
    have hle := hsnoc.count_le k
    have hnone : List.count (Event.start k) [Event.finish k] = 0 := by simp
    rw [List.count_append,List.count_append,List.count_singleton_self,hnone] at hle
    omega
  · intro hcount
    cases e with
    | finish k => exact h.snoc_finish (hcount k rfl)
    | start k => exact h.snoc_other (by simp)
    | silent => exact h.snoc_other (by simp)

end Counting

end Agreement
end LeadEngine
