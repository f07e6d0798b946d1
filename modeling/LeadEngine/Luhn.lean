import Mathlib.Data.Nat.Digits.Defs
import LeadEngine.CheckSum
import LeadEngine.DataPolicy

/-! The Luhn check of a numeral: the sum it stands for, and the mistakes that it finds. -/
namespace LeadEngine
namespace DataPolicy

open CheckSum

def digitValue (c : Char) : ℕ := c.toNat - 48

/-- What a digit counts for at its place from the right: itself, or at the odd places the digit
sum of its double. -/
def luhnPlace (place d : ℕ) : ℕ := if place % 2 = 1 then (Nat.digits 10 (2*d)).sum else d

/-- The Luhn sum of a numeral. -/
def luhnSum (numeral : List Char) : ℕ :=
  ∑ i : Fin numeral.length, luhnPlace i (digitValue (numeral.get i.rev))

/-- Zero and nine, the digits that the check cannot tell from their swap. -/
def ZeroNine (a b : Char) : Prop := a = '0' ∧ b = '9' ∨ a = '9' ∧ b = '0'

/-- The loop's index is odd at every second digit from the right. -/
def luhnTermAt (place : ℕ) (c : Char) : ℕ := luhnTerm (decide (place % 2 = 1)) (digitValue c)

section Digits

theorem digitValue_lt {c : Char} (h : asciiDigit c = true) : digitValue c < 10 := by
  have hrange : '0' ≤ c ∧ c ≤ '9' := by simpa [asciiDigit] using h
  have hle : c.toNat ≤ 57 := hrange.2
  exact Nat.lt_of_le_of_lt (Nat.sub_le_sub_right hle 48) (by decide)

theorem digitValue_inj {c c' : Char} (h : asciiDigit c = true) (h' : asciiDigit c' = true)
    (heq : digitValue c = digitValue c') : c = c' := by
  have hrange : '0' ≤ c ∧ c ≤ '9' := by simpa [asciiDigit] using h
  have hrange' : '0' ≤ c' ∧ c' ≤ '9' := by simpa [asciiDigit] using h'
  have hle : 48 ≤ c.toNat := hrange.1
  have hle' : 48 ≤ c'.toNat := hrange'.1
  unfold digitValue at heq
  exact Char.toNat_inj.mp (by omega)

theorem luhnTermAt_eq {c : Char} (h : asciiDigit c = true) (place : ℕ) :
    luhnTermAt place c = luhnPlace place (digitValue c) := by
  have hdouble : ∀ d < 10, luhnTerm true d = (Nat.digits 10 (2*d)).sum := by decide +kernel
  unfold luhnTermAt luhnPlace
  split_ifs with hodd
  · rw [decide_eq_true hodd]
    exact hdouble _ (digitValue_lt h)
  · rw [decide_eq_false hodd]
    rfl

theorem luhnTermAt_modEq {c c' : Char} (h : asciiDigit c = true) (h' : asciiDigit c' = true)
    {place : ℕ} (heq : luhnTermAt place c ≡ luhnTermAt place c' [MOD 10]) : c = c' := by
  have hresidue : ∀ doubled, ∀ d < 10, ∀ d' < 10,
      luhnTerm doubled d % 10 = luhnTerm doubled d' % 10 → d = d' := by decide +kernel
  exact digitValue_inj h h' (hresidue _ _ (digitValue_lt h) _ (digitValue_lt h') heq)

theorem luhnTermAt_swap {a b : Char} (ha : asciiDigit a = true) (hb : asciiDigit b = true)
    (hne : a ≠ b) (place : ℕ) :
    luhnTermAt (place+1) a + luhnTermAt place b ≡
      luhnTermAt (place+1) b + luhnTermAt place a [MOD 10] ↔ ZeroNine a b := by
  have hresidue : ∀ doubled, ∀ d < 10, ∀ d' < 10, d = d' ∨
      ((luhnTerm (!doubled) d + luhnTerm doubled d') % 10 =
        (luhnTerm (!doubled) d' + luhnTerm doubled d) % 10 ↔
          d = 0 ∧ d' = 9 ∨ d = 9 ∧ d' = 0) := by decide +kernel
  have hparity : decide ((place+1) % 2 = 1) = !decide (place % 2 = 1) := by
    rw [← decide_not,decide_eq_decide]
    omega
  have hvalue : digitValue a ≠ digitValue b := fun heq => hne (digitValue_inj ha hb heq)
  have hzero : ∀ c, asciiDigit c = true → (digitValue c = 0 ↔ c = '0') := by
    intro c hc
    exact ⟨fun heq => digitValue_inj hc rfl heq,fun heq => heq ▸ rfl⟩
  have hnine : ∀ c, asciiDigit c = true → (digitValue c = 9 ↔ c = '9') := by
    intro c hc
    exact ⟨fun heq => digitValue_inj hc rfl heq,fun heq => heq ▸ rfl⟩
  unfold luhnTermAt ZeroNine
  rw [Nat.ModEq,hparity,← hzero a ha,← hzero b hb,← hnine a ha,← hnine b hb]
  exact (hresidue _ _ (digitValue_lt ha) _ (digitValue_lt hb)).resolve_left hvalue

end Digits

section Loop

theorem luhnTotal_concat (doubled : Bool) (ds : List ℕ) (d : ℕ) :
    luhnTotal doubled (ds ++ [d]) =
      luhnTotal doubled ds + luhnTerm (doubled ^^ decide (ds.length % 2 = 1)) d := by
  induction ds generalizing doubled with
  | nil => simp [luhnTotal]
  | cons x ds ih =>
    have hparity : decide ((ds.length+1) % 2 = 1) = !decide (ds.length % 2 = 1) := by
      rw [← decide_not,decide_eq_decide]
      omega
    rw [List.cons_append,luhnTotal,ih,luhnTotal,List.length_cons,hparity,Bool.not_xor,
      Bool.xor_not,add_assoc]

theorem luhnTotal_eq (numeral : List Char) :
    luhnTotal false (numeral.map digitValue).reverse = total luhnTermAt numeral := by
  induction numeral with
  | nil => rfl
  | cons c numeral ih =>
    rw [List.map_cons,List.reverse_cons,luhnTotal_concat,ih,total_cons,add_comm]
    simp [luhnTermAt]

theorem luhnValid_iff (numeral : List Char) :
    luhnValid numeral = true ↔ total luhnTermAt numeral ≡ 0 [MOD 10] := by
  rw [luhnValid,decide_eq_true_eq,Nat.ModEq,← luhnTotal_eq]
  rfl

theorem total_eq_luhnSum {numeral : List Char} (h : ∀ c ∈ numeral, asciiDigit c = true) :
    total luhnTermAt numeral = luhnSum numeral := by
  rw [total_eq_sum,luhnSum]
  exact Finset.sum_congr rfl fun i _ => luhnTermAt_eq (h _ (List.get_mem _ _)) _

end Loop

section Detection

variable {numeral front back : List Char}

theorem luhnValid_change {c c' : Char} (hc : asciiDigit c = true) (hc' : asciiDigit c' = true)
    (hne : c ≠ c') (h : luhnValid (front ++ c :: back) = true) :
    luhnValid (front ++ c' :: back) = false := by
  rw [luhnValid_iff] at h
  rw [← Bool.not_eq_true,luhnValid_iff]
  intro h'
  exact hne (luhnTermAt_modEq hc hc' ((total_change luhnTermAt front back c c').mp
    (h.trans h'.symm)))

theorem luhnValid_swap {a b : Char} (ha : asciiDigit a = true) (hb : asciiDigit b = true)
    (hne : a ≠ b) (h : luhnValid (front ++ a :: b :: back) = true) :
    luhnValid (front ++ b :: a :: back) = true ↔ ZeroNine a b := by
  rw [luhnValid_iff] at h
  rw [luhnValid_iff,← luhnTermAt_swap ha hb hne back.length,
    ← total_swap luhnTermAt front back a b]
  exact ⟨fun h' => h.trans h'.symm,fun heq => heq.symm.trans h⟩

/-- The check holds of the numerals whose Luhn sum ends in zero. Of a numeral that passes, every
changed digit is noticed, and every swap of unequal neighbours but zero and nine. -/
theorem luhnValid_luhn (numeral : List Char) (hdigits : ∀ c ∈ numeral, asciiDigit c = true) :
    (luhnValid numeral = true ↔ luhnSum numeral % 10 = 0) ∧
      (luhnValid numeral = true →
        (∀ front c back c', numeral = front ++ c :: back → asciiDigit c' = true → c ≠ c' →
          luhnValid (front ++ c' :: back) = false) ∧
        ∀ front a b back, numeral = front ++ a :: b :: back → a ≠ b →
          (luhnValid (front ++ b :: a :: back) = true ↔ ZeroNine a b)) := by
  refine ⟨?_,fun hvalid => ⟨?_,?_⟩⟩
  · rw [luhnValid_iff,total_eq_luhnSum hdigits]
    rfl
  · rintro front c back c' rfl hc' hne
    exact luhnValid_change (hdigits c (by simp)) hc' hne hvalid
  · rintro front a b back rfl hne
    exact luhnValid_swap (hdigits a (by simp)) (hdigits b (by simp)) hne hvalid

/-- A numeral of 16 digits passes, and no other last digit does. -/
theorem luhnValid_visa : luhnValid "4111111111111111".toList = true ∧
    luhnSum "4111111111111111".toList % 10 = 0 ∧
    luhnValid "4111111111111112".toList = false := by
  have hdigits : ∀ c ∈ "4111111111111111".toList, asciiDigit c = true := by simp [asciiDigit]
  obtain ⟨hsum,hfind⟩ := luhnValid_luhn "4111111111111111".toList hdigits
  have hvalid : luhnValid "4111111111111111".toList = true := by decide +kernel
  exact ⟨hvalid,hsum.mp hvalid,
    (hfind hvalid).1 "411111111111111".toList '1' [] '2' rfl rfl (by decide)⟩

end Detection

end DataPolicy
end LeadEngine
