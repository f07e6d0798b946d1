import Mathlib.Logic.Relation
import LeadEngine.PhoneIdentity

/-! The form of a normalised phone: a leading plus sign and digits, unless a plus sign stands
after a digit. -/
namespace LeadEngine
namespace Deduplicator

open Interpreter History

variable [Interpreter]

def stripped (text : List Char) : List Char := text.filter fun c => isDecimal c || c == '+'

def PhoneForm (text : List Char) : Prop :=
  ∃ number, (text = number ∨ text = '+' :: number) ∧ ∀ c ∈ number, isDecimal c = true

/-- One character other than a digit and a plus sign is inserted or removed. -/
def Reformat (text other : List Char) : Prop :=
  ∃ front c back, isDecimal c = false ∧ c ≠ '+' ∧
    (text = front ++ back ∧ other = front ++ c :: back ∨
      text = front ++ c :: back ∧ other = front ++ back)

/-- The normalised phone is a canonical form of the number. -/
structure Canonical (phone : String) : Prop where
  form : PhoneForm (normalisePhone phone).toList
  sameDigits : digits (normalisePhone phone) = digits phone
  again : normalisePhone (normalisePhone phone) = normalisePhone phone
  reformatted : ∀ other, Relation.ReflTransGen Reformat phone.toList other →
    normalisePhone (String.ofList other) = normalisePhone phone

/-- No digit stands before the first plus sign. -/
def PlusFirst (phone : String) : Prop :=
  '+' ∈ phone.toList → ∀ c ∈ phone.toList.takeWhile (· ≠ '+'), isDecimal c = false

section Stripped

theorem normalisePhone_stripped {phone : String} {rest : List Char}
    (h : stripped phone.toList = '+' :: rest) :
    normalisePhone phone = String.ofList ('+' :: rest.filter (· ≠ '+')) := by
  unfold stripped at h
  simp only [normalisePhone,h]

theorem normalisePhone_plain (phone : String)
    (h : ∀ rest, stripped phone.toList ≠ '+' :: rest) :
    normalisePhone phone = String.ofList (stripped phone.toList) := by
  unfold normalisePhone
  split
  · rename_i rest hplus
    exact absurd hplus (h rest)
  · rfl

theorem stripped_stripped (text : List Char) : stripped (stripped text) = stripped text := by
  rw [stripped,stripped,List.filter_filter]
  exact List.filter_congr fun c _ => Bool.and_self _

theorem isDecimal_of_stripped (text : List Char) {c : Char} (h : c ∈ stripped text)
    (hc : c ≠ '+') : isDecimal c = true := by
  have hkept := (List.mem_filter.mp h).2
  simpa [hc] using hkept

theorem plus_mem_stripped {text : List Char} : '+' ∈ stripped text ↔ '+' ∈ text := by
  simp [stripped]

theorem Reformat.stripped_eq {text other : List Char} (h : Reformat text other) :
    stripped other = stripped text := by
  obtain ⟨front,c,back,hdigit,hplus,⟨rfl,rfl⟩ | ⟨rfl,rfl⟩⟩ := h
  · simp [stripped,hdigit,hplus]
  · simp [stripped,hdigit,hplus]

theorem stripped_of_reformatted {text other : List Char}
    (h : Relation.ReflTransGen Reformat text other) : stripped other = stripped text := by
  induction h with
  | refl => rfl
  | tail _ hstep ih => rw [hstep.stripped_eq,ih]

theorem plusFirst_stripped {text : List Char} (hplus : '+' ∈ text) :
    (∀ c ∈ text.takeWhile (· ≠ '+'), isDecimal c = false) ↔
      ∃ rest, stripped text = '+' :: rest := by
  induction text with
  | nil => cases hplus
  | cons c text ih =>
    by_cases hc : c = '+'
    · subst hc
      simp [stripped]
    · have hrest : '+' ∈ text := (List.mem_cons.mp hplus).resolve_left (Ne.symm hc)
      cases hdigit : isDecimal c with
      | false => simpa [stripped,hc,hdigit] using ih hrest
      | true => simp [stripped,hc,hdigit]

end Stripped

section Forms

variable {phone : String}

theorem plusFirst_iff : PlusFirst phone ↔
    (∃ rest, stripped phone.toList = '+' :: rest) ∨ '+' ∉ stripped phone.toList := by
  by_cases hplus : '+' ∈ phone.toList
  · simp [PlusFirst,hplus,plus_mem_stripped,← plusFirst_stripped hplus]
  · simp [PlusFirst,hplus,plus_mem_stripped]

/-- The phone normalises to its digits, after a plus sign if it has one. -/
theorem normalisePhone_of_plusFirst (h : PlusFirst phone) :
    normalisePhone phone =
      String.ofList ((if '+' ∈ phone.toList then ['+'] else []) ++ digits phone) := by
  have hdigits := digits_normalisePhone phone
  obtain ⟨rest,hrest⟩ | hnone := plusFirst_iff.mp h
  · have hplus : '+' ∈ phone.toList := plus_mem_stripped.mp (hrest ▸ List.mem_cons_self)
    have hnumber : (rest.filter (· ≠ '+')).filter isDecimal = rest.filter (· ≠ '+') := by
      rw [List.filter_eq_self]
      intro c hc
      obtain ⟨hmem,hne⟩ := List.mem_filter.mp hc
      exact isDecimal_of_stripped phone.toList (hrest ▸ List.mem_cons_of_mem _ hmem)
        (of_decide_eq_true hne)
    rw [normalisePhone_stripped hrest,digits,String.toList_ofList,
      List.filter_cons_of_neg (by simp [isDecimal_plus]),hnumber] at hdigits
    rw [normalisePhone_stripped hrest,if_pos hplus,← hdigits]
    rfl
  · have hno : '+' ∉ phone.toList := fun hmem => hnone (plus_mem_stripped.mpr hmem)
    have hplain := normalisePhone_plain phone fun rest hrest =>
      hnone (hrest ▸ List.mem_cons_self)
    have hnumber : (stripped phone.toList).filter isDecimal = stripped phone.toList := by
      rw [List.filter_eq_self]
      intro c hc
      exact isDecimal_of_stripped phone.toList hc (fun heq => hnone (heq ▸ hc))
    rw [hplain,digits,String.toList_ofList,hnumber] at hdigits
    rw [hplain,if_neg hno,hdigits,List.nil_append]

theorem form_normalisePhone (h : PlusFirst phone) :
    PhoneForm (normalisePhone phone).toList := by
  refine ⟨digits phone,?_,fun c hc => (List.mem_filter.mp hc).2⟩
  rw [normalisePhone_of_plusFirst h,String.toList_ofList]
  split_ifs
  · exact Or.inr rfl
  · exact Or.inl rfl

theorem plusFirst_of_form (h : PhoneForm (normalisePhone phone).toList) : PlusFirst phone := by
  rw [plusFirst_iff]
  by_contra hneg
  obtain ⟨hfront,hplus⟩ := not_or.mp hneg
  rw [not_not] at hplus
  rw [normalisePhone_plain phone (not_exists.mp hfront),String.toList_ofList] at h
  obtain ⟨number,hnumber | hnumber,hdigit⟩ := h
  · rw [hnumber] at hplus
    exact absurd (hdigit '+' hplus) (by simp [isDecimal_plus])
  · exact hfront ⟨number,hnumber⟩

theorem normalisePhone_idem (phone : String) :
    normalisePhone (normalisePhone phone) = normalisePhone phone := by
  by_cases hfront : ∃ rest, stripped phone.toList = '+' :: rest
  · obtain ⟨rest,hrest⟩ := hfront
    have hkept : stripped ('+' :: rest.filter (· ≠ '+')) = '+' :: rest.filter (· ≠ '+') := by
      rw [stripped,List.filter_eq_self]
      intro c hc
      by_cases hplus : c = '+'
      · simp [hplus]
      · have hmem := (List.mem_cons.mp hc).resolve_left hplus
        have hdigit := isDecimal_of_stripped phone.toList
          (hrest ▸ List.mem_cons_of_mem _ (List.mem_filter.mp hmem).1) hplus
        simp [hdigit]
    rw [normalisePhone_stripped hrest,normalisePhone_stripped (by rw [String.toList_ofList,hkept]),
      List.filter_filter]
    simp only [Bool.and_self]
  · have hplain := normalisePhone_plain phone (not_exists.mp hfront)
    have hkept : stripped (normalisePhone phone).toList = stripped phone.toList := by
      rw [hplain,String.toList_ofList,stripped_stripped]
    rw [normalisePhone_plain _ (by rw [hkept]; exact not_exists.mp hfront),hkept,hplain]

theorem normalisePhone_congr {other : String}
    (h : stripped other.toList = stripped phone.toList) :
    normalisePhone other = normalisePhone phone := by
  unfold stripped at h
  unfold normalisePhone
  rw [h]

/-- A phone has a canonical form exactly when no digit stands before its first plus sign. The
digits, the second pass and the formatting are right for every phone. -/
theorem canonical_iff (phone : String) : Canonical phone ↔ PlusFirst phone := by
  constructor
  · intro h
    exact plusFirst_of_form h.form
  · intro h
    refine ⟨form_normalisePhone h,digits_normalisePhone phone,normalisePhone_idem phone,?_⟩
    intro other hother
    apply normalisePhone_congr
    rw [String.toList_ofList,stripped_of_reformatted hother]

omit [Interpreter] in
/-- Two numbers in one cell: the plus sign of the second stays between the digits. -/
theorem not_canonical_twoNumbers :
    letI := Interpreter.ascii id
    ¬ Canonical "9876543210 / +919876543210" := by
  let := Interpreter.ascii id
  intro h
  have hnine := plusFirst_of_form h.form (by simp) '9' (by simp)
  exact absurd hnine (by decide)

end Forms

end Deduplicator
end LeadEngine
