import Mathlib.Data.List.Infix

/-! Replacing the matches of a pattern from left to right. A pattern is given by what follows a
match at the head of a word; the replacement is not searched again. -/
namespace LeadEngine
namespace Substitution

variable {α : Type} {next : List α → Option (List α)} {by' : List α}

/-- A match takes at least one letter off the head of the word. -/
def Proper (next : List α → Option (List α)) : Prop :=
  ∀ w after, next w = some after → after <:+ w ∧ after.length < w.length

inductive Substituted (next : List α → Option (List α)) (by' : List α) :
    List α → List α → Prop
  | nil : Substituted next by' [] []
  | hit {w after out : List α} (h : next w = some after) :
      Substituted next by' after out → Substituted next by' w (by' ++ out)
  | miss {c : α} {w out : List α} (h : next (c :: w) = none) :
      Substituted next by' w out → Substituted next by' (c :: w) (c :: out)

def Free (next : List α → Option (List α)) (w : List α) : Prop :=
  ∀ rest, rest <:+ w → next rest = none

theorem Proper.nil (h : Proper next) : next [] = none := by
  by_contra hmatch
  obtain ⟨after,hafter⟩ := Option.ne_none_iff_exists'.mp hmatch
  exact Nat.not_lt_zero _ (h _ _ hafter).2

theorem free_cons {c : α} {w : List α} :
    Free next (c :: w) ↔ next (c :: w) = none ∧ Free next w := by
  constructor
  · intro h
    exact ⟨h _ List.suffix_rfl,fun rest hrest => h rest (hrest.trans (List.suffix_cons c w))⟩
  · rintro ⟨hhead,htail⟩ rest hrest
    rcases List.suffix_cons_iff.mp hrest with rfl | hrest
    · exact hhead
    · exact htail rest hrest

theorem Free.suffix {w rest : List α} (h : Free next w) (hrest : rest <:+ w) : Free next rest :=
  fun rest' hrest' => h rest' (hrest'.trans hrest)

theorem Free.substituted {w : List α} (h : Free next w) : Substituted next by' w w := by
  induction w with
  | nil => exact .nil
  | cons c w ih =>
    obtain ⟨hhead,htail⟩ := free_cons.mp h
    exact .miss hhead (ih htail)

theorem Substituted.unique (hproper : Proper next) {w out out' : List α}
    (h : Substituted next by' w out) (h' : Substituted next by' w out') : out = out' := by
  induction h generalizing out' with
  | nil =>
    cases h' with
    | nil => rfl
    | hit hmatch => rw [hproper.nil] at hmatch; cases hmatch
  | hit hmatch _ ih =>
    cases h' with
    | nil => rw [hproper.nil] at hmatch; cases hmatch
    | hit hmatch' hrest =>
      obtain rfl := Option.some.inj (hmatch.symm.trans hmatch')
      rw [ih hrest]
    | miss hnone => rw [hmatch] at hnone; cases hnone
  | miss hnone _ ih =>
    cases h' with
    | hit hmatch => rw [hnone] at hmatch; cases hmatch
    | miss _ hrest => rw [ih hrest]

theorem Substituted.mem (hproper : Proper next) {w out : List α} (h : Substituted next by' w out)
    {c : α} (hc : c ∈ out) : c ∈ by' ∨ c ∈ w := by
  induction h with
  | nil => cases hc
  | hit hmatch _ ih =>
    rcases List.mem_append.mp hc with hc | hc
    · exact .inl hc
    · exact (ih hc).imp_right fun hmem => (hproper _ _ hmatch).1.subset hmem
  | miss _ _ ih =>
    rcases List.mem_cons.mp hc with rfl | hc
    · exact .inr List.mem_cons_self
    · exact (ih hc).imp_right (List.mem_cons_of_mem _)

theorem Substituted.head {c : α} {w out : List α} (h : Substituted next by' (c :: w) out)
    (hnone : next (c :: w) = none) : out.head? = some c := by
  cases h with
  | hit hmatch => rw [hnone] at hmatch; cases hmatch
  | miss => rfl

theorem Substituted.sublist (hproper : Proper next) {p : α → Bool} (hby : by'.filter p = [])
    {w out : List α} (h : Substituted next by' w out) : (out.filter p).Sublist (w.filter p) := by
  induction h with
  | nil => exact List.Sublist.slnil
  | hit hmatch _ ih =>
    rw [List.filter_append,hby,List.nil_append]
    exact ih.trans ((hproper _ _ hmatch).1.sublist.filter p)
  | @miss c w _ _ _ ih =>
    rw [List.filter_cons,List.filter_cons]
    split_ifs
    · exact ih.cons_cons c
    · exact ih

end Substitution
end LeadEngine
