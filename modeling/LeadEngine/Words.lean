import Mathlib.Algebra.BigOperators.Group.List.Lemmas
import Mathlib.Algebra.FreeMonoid.Basic
import Mathlib.Data.List.DropRight
import Mathlib.Data.List.Infix
import Mathlib.Data.Nat.Find

/-! Words over an alphabet: trimming at both ends, and words joined from parts. Words that commute
are powers of one word, so parts can be joined in any order exactly when all of them repeat one
part. -/
namespace LeadEngine
namespace Words

variable {α : Type}

def trim (p : α → Bool) (w : List α) : List α := (w.dropWhile p).rdropWhile p

theorem infix_dropWhile {p : α → Bool} {v w : List α} (hv : ∀ c ∈ v.head?, p c = false)
    (h : v <:+: w) : v <:+: w.dropWhile p := by
  induction w with
  | nil => exact h
  | cons a w ih =>
    rw [List.dropWhile_cons]
    split_ifs with ha
    · rcases List.infix_cons_iff.mp h with hprefix | hinfix
      · cases v with
        | nil => exact List.nil_infix
        | cons c v =>
          obtain ⟨rfl,_⟩ := List.cons_prefix_cons.mp hprefix
          rw [hv c rfl] at ha
          cases ha
      · exact ih hinfix
    · exact h

theorem infix_rdropWhile {p : α → Bool} {v w : List α} (hv : ∀ c ∈ v.getLast?, p c = false)
    (h : v <:+: w) : v <:+: w.rdropWhile p := by
  rw [List.rdropWhile,← List.reverse_infix,List.reverse_reverse]
  exact infix_dropWhile (by simpa using hv) (List.reverse_infix.mpr h)

theorem head?_trim (p : α → Bool) (w : List α) : ∀ c ∈ (trim p w).head?, p c = false := by
  intro c hc
  have hhead := List.head?_dropWhile_not p w
  obtain ⟨rest,hrest⟩ := List.rdropWhile_prefix (p:=p) (w.dropWhile p)
  rw [← hrest,List.head?_append,show ((w.dropWhile p).rdropWhile p).head? = some c from hc]
    at hhead
  exact hhead

theorem getLast?_trim (p : α → Bool) (w : List α) : ∀ c ∈ (trim p w).getLast?, p c = false := by
  intro c hc
  rw [trim,List.rdropWhile,List.getLast?_reverse] at hc
  have hhead := List.head?_dropWhile_not p (w.dropWhile p).reverse
  rw [Option.mem_def.mp hc] at hhead
  exact hhead

theorem trim_infix (p : α → Bool) (w : List α) : trim p w <:+: w :=
  (List.rdropWhile_prefix _ _).isInfix.trans (List.dropWhile_suffix _).isInfix

theorem trim_infix_trim {p : α → Bool} {v w : List α} (h : trim p v <:+: w) :
    trim p v <:+: trim p w :=
  infix_rdropWhile (getLast?_trim p v) (infix_dropWhile (head?_trim p v) h)

theorem infix_intercalate {sep part : List α} {parts : List (List α)} (h : part ∈ parts) :
    part <:+: sep.intercalate parts := by
  induction parts with
  | nil => cases h
  | cons first rest ih =>
    cases rest with
    | nil =>
      obtain rfl := List.mem_singleton.mp h
      simp
    | cons second rest =>
      rw [List.intercalate_cons_cons]
      rcases List.mem_cons.mp h with rfl | h
      · exact ((List.prefix_append _ _).trans (List.prefix_append _ _)).isInfix
      · exact (ih h).trans (List.suffix_append _ _).isInfix

section Commuting

open FreeMonoid

theorem prefix_of_commute {u w : FreeMonoid α} (h : Commute u w) (hlen : u.length ≤ w.length) :
    u.toList <+: w.toList := by
  have hu : u.toList <+: (u * w).toList := List.prefix_append _ _
  rw [h.eq] at hu
  exact List.prefix_of_prefix_length_le hu (List.prefix_append _ _) hlen

/-- The words that commute with a nonempty word are the powers of one word. -/
theorem exists_root {w : FreeMonoid α} (hw : w ≠ 1) :
    ∃ r : FreeMonoid α, ∀ v, Commute v w → ∃ n, v = r^n := by
  classical
  have hex : ∃ n, ∃ r : FreeMonoid α, r ≠ 1 ∧ Commute r w ∧ r.length = n :=
    ⟨_,w,hw,.refl w,rfl⟩
  obtain ⟨r,hr,hcomm,hlen⟩ := Nat.find_spec hex
  have hmin : ∀ v, v ≠ 1 → Commute v w → r.length ≤ v.length := fun v hv hvw =>
    hlen.le.trans (Nat.find_min' hex ⟨v,hv,hvw,rfl⟩)
  have hprefix : ∀ v, v ≠ 1 → Commute v w → r.toList <+: v.toList := by
    intro v hv hvw
    have hrw : r.toList <+: w.toList := prefix_of_commute hcomm (hmin w hw (.refl w))
    rcases le_total v.length w.length with h | h
    · exact List.prefix_of_prefix_length_le hrw (prefix_of_commute hvw h) (hmin v hv hvw)
    · exact hrw.trans (prefix_of_commute hvw.symm h)
  refine ⟨r,fun v => ?_⟩
  induction hn : v.length using Nat.strongRecOn generalizing v with
  | ind n ih =>
    intro hvw
    by_cases hv : v = 1
    · exact ⟨0,hv⟩
    obtain ⟨rest,hrest⟩ := hprefix v hv hvw
    obtain rfl : v = r * ofList rest := hrest.symm
    have hpos : 0 < r.length := Nat.pos_of_ne_zero (mt length_eq_zero.mp hr)
    have hcancel : Commute (ofList rest) w := by
      refine mul_left_cancel (a:=r) ?_
      rw [← mul_assoc,hvw.eq,← mul_assoc,← hcomm.eq,mul_assoc]
    obtain ⟨m,hm⟩ := ih (ofList rest).length (by rw [← hn,length_mul]; omega) _ rfl hcancel
    exact ⟨m+1,by rw [pow_succ',← hm]⟩

theorem mem_of_mem_pow {r : FreeMonoid α} {n : ℕ} {c : α} (h : c ∈ r^n) : c ∈ r := by
  induction n with
  | zero => exact absurd h notMem_one
  | succ n ih =>
    rw [pow_succ,mem_mul] at h
    exact h.elim ih id

theorem root_ends {a b : α} (hab : a ≠ b) {r w : FreeMonoid α} {n : ℕ}
    (h : w * ofList [a,b] = r^n) : ∃ u, r = u * ofList [a,b] := by
  have hletters : a ∈ r ∧ b ∈ r := by
    constructor <;>
    · refine mem_of_mem_pow (n:=n) ?_
      rw [← h,mem_mul]
      exact Or.inr (show _ ∈ [a,b] by simp)
  have hlen : 2 ≤ r.length := by
    by_contra hshort
    rcases Nat.le_one_iff_eq_zero_or_eq_one.mp (Nat.le_of_lt_succ (Nat.lt_of_not_le hshort)) with
      hzero | hone
    · rw [length_eq_zero.mp hzero] at hletters
      exact notMem_one hletters.1
    · obtain ⟨c,rfl⟩ := length_eq_one.mp hone
      exact hab ((mem_of.mp hletters.1).trans (mem_of.mp hletters.2).symm)
  cases n with
  | zero => exact absurd (congrArg FreeMonoid.length h) (by simp [length_mul])
  | succ n =>
    have hsuffix : [a,b] <:+ (r^n * r).toList := by
      rw [← pow_succ,← h]
      exact List.suffix_append _ _
    obtain ⟨u,hu⟩ := List.suffix_of_suffix_length_le hsuffix (List.suffix_append _ _)
      (show [a,b].length ≤ r.toList.length from hlen)
    exact ⟨ofList u,hu.symm⟩

end Commuting

section Joined

open FreeMonoid

variable {sep u x y : List α}

def Repeats (sep u part : List α) : Prop := ∃ n, part = sep.intercalate (List.replicate (n+1) u)

def ended (sep part : List α) : FreeMonoid α := ofList (part ++ sep)

theorem intercalate_ended {parts : List (List α)} (h : parts ≠ []) :
    ofList (sep.intercalate parts ++ sep) = (parts.map (ended sep)).prod := by
  induction parts with
  | nil => exact absurd rfl h
  | cons first rest ih =>
    cases rest with
    | nil => simp [ended]
    | cons second rest =>
      rw [List.intercalate_cons_cons,List.map_cons,List.prod_cons,← ih (by simp),ended,
        ← ofList_append]
      simp

theorem intercalate_perm {parts parts' : List (List α)} (hperm : parts.Perm parts')
    (h : ∀ x ∈ parts, ∀ y ∈ parts, Commute (ended sep x) (ended sep y)) :
    sep.intercalate parts = sep.intercalate parts' := by
  by_cases hnil : parts = []
  · subst hnil
    rw [hperm.nil_eq]
  have hnil' : parts' ≠ [] := fun h' => hnil (h' ▸ hperm).eq_nil
  have hpairwise : (parts.map (ended sep)).Pairwise Commute :=
    List.pairwise_map.mpr (List.pairwise_of_forall_mem_list h)
  have hprod := (hperm.map (ended sep)).prod_eq' hpairwise
  rw [← intercalate_ended hnil,← intercalate_ended hnil'] at hprod
  exact List.append_cancel_right (ofList.injective hprod)

theorem commute_of_swap {rest : List (List α)}
    (h : sep.intercalate (x :: y :: rest) = sep.intercalate (y :: x :: rest)) :
    Commute (ended sep x) (ended sep y) := by
  have hprod : ((x :: y :: rest).map (ended sep)).prod =
      ((y :: x :: rest).map (ended sep)).prod := by
    rw [← intercalate_ended (by simp),← intercalate_ended (by simp),h]
  simp only [List.map_cons,List.prod_cons,← mul_assoc] at hprod
  exact mul_right_cancel hprod

theorem ended_of_repeats {part : List α} (h : Repeats sep u part) :
    ∃ n, ended sep part = ended sep u ^ (n+1) := by
  obtain ⟨n,rfl⟩ := h
  exact ⟨n,by rw [ended,intercalate_ended (by simp)]; simp⟩

theorem commute_of_repeats (hx : Repeats sep u x) (hy : Repeats sep u y) :
    Commute (ended sep x) (ended sep y) := by
  obtain ⟨n,hn⟩ := ended_of_repeats hx
  obtain ⟨m,hm⟩ := ended_of_repeats hy
  rw [hn,hm]
  exact Commute.pow_pow_self _ _ _

/-- Parts that commute all repeat one part, if the separator has two different letters. -/
theorem exists_repeats {a b : α} (hab : a ≠ b) {parts : List (List α)}
    (h : ∀ x ∈ parts, ∀ y ∈ parts, Commute (ended [a,b] x) (ended [a,b] y)) :
    ∃ u, ∀ part ∈ parts, Repeats [a,b] u part := by
  cases parts with
  | nil => exact ⟨[],by simp⟩
  | cons first rest =>
    have hfirst : ended [a,b] first ≠ 1 := fun hone => by
      simpa [ended] using congrArg FreeMonoid.length hone
    obtain ⟨r,hr⟩ := exists_root hfirst
    obtain ⟨n,hn⟩ := hr _ (.refl _)
    obtain ⟨u,rfl⟩ := root_ends hab (w:=ofList first) hn
    refine ⟨u.toList,fun part hpart => ?_⟩
    obtain ⟨m,hm⟩ := hr _ (h part hpart first List.mem_cons_self)
    cases m with
    | zero => exact absurd (congrArg FreeMonoid.length hm) (by simp [ended])
    | succ m =>
      refine ⟨m,(List.append_left_inj [a,b]).mp (ofList.injective ?_)⟩
      rw [intercalate_ended (by simp)]
      simpa [ended] using hm

end Joined

end Words
end LeadEngine
