import LeadEngine.ByteText
import LeadEngine.Normaliser
import LeadEngine.Words

/-! The text of a UUID: what `str` writes, and what `uuid.UUID` reads it as. -/
namespace LeadEngine
namespace UuidText

open ByteText

section Reading

def isSpace (c : Char) : Bool := c = ' ' || (9 ≤ c.toNat && c.toNat ≤ 13)

def readDigits : ℕ → List Char → Option ℕ
  | n,[] => some n
  | n,c :: rest =>
    if c = '_' then
      match rest with
      | [] => none
      | d :: rest => (hexValue d).bind fun v => readDigits (16*n+v) rest
    else (hexValue c).bind fun v => readDigits (16*n+v) rest

def readNumber : List Char → Option ℕ
  | [] => none
  | c :: rest => (hexValue c).bind fun v => readDigits v rest

/-- `int(text, 16)` of a text without a minus sign. -/
def intBase16 (text : List Char) : Option ℕ :=
  let body := Words.trim isSpace text
  let body := if body.head? = some '+' then body.tail else body
  if body.head? = some '0' ∧ (body.tail.head? = some 'x' ∨ body.tail.head? = some 'X') then
    let digits := body.drop 2
    readNumber (if digits.head? = some '_' then digits.tail else digits)
  else readNumber body

/-- `text.replace(word, "")`. Inside an occurrence the number of its letters that follow is
counted down. -/
def remove (word : List Char) : ℕ → List Char → List Char
  | _,[] => []
  | n+1,_ :: rest => remove word n rest
  | 0,c :: rest =>
    if word.isPrefixOf (c :: rest) then remove word (word.length-1) rest
    else c :: remove word 0 rest

def isBrace (c : Char) : Bool := c = '{' || c = '}'

def hexOf (text : List Char) : List Char :=
  (Words.trim isBrace (remove "uuid:".toList 0 (remove "urn:".toList 0 text))).filter (· ≠ '-')

/-- `uuid.UUID(text)`. `int` also takes digits and spaces beyond ASCII. -/
def parse (intBeyondAscii : List Char → Option ℕ) (text : String) : Option UUID :=
  let hex := hexOf text.toList
  if hex.length ≠ 32 then none
  else if hex.all fun c => c.toNat < 128 then intBase16 hex
  else intBeyondAscii hex

end Reading

section RoundTrip

def digits (u : UUID) : List Char :=
  hexDigits 8 (u >>> 96) ++ hexDigits 4 (u >>> 80) ++ hexDigits 4 (u >>> 64) ++
    hexDigits 4 (u >>> 48) ++ hexDigits 12 u

theorem mem_digits {u : UUID} {c : Char} (h : c ∈ digits u) : ∃ v < 16, c = hexDigit v := by
  simp only [digits,List.mem_append,or_assoc] at h
  rcases h with h | h | h | h | h <;> exact mem_hexDigits h

theorem length_digits (u : UUID) : (digits u).length = 32 := by simp [digits]

theorem mem_uuidText {u : UUID} {c : Char} (h : c ∈ Normaliser.uuidText u) :
    c = '-' ∨ ∃ v < 16, c = hexDigit v := by
  simp only [Normaliser.uuidText,List.mem_append,List.mem_cons,or_assoc] at h
  rcases h with h | rfl | h | rfl | h | rfl | h | rfl | h
  any_goals exact .inl rfl
  all_goals exact .inr (mem_hexDigits h)

theorem uuidText_letters {u : UUID} {c : Char} (h : c ∈ Normaliser.uuidText u) :
    c ≠ 'u' ∧ isBrace c = false := by
  have hall : ∀ v < 16, hexDigit v ≠ 'u' ∧ isBrace (hexDigit v) = false := by decide +kernel
  obtain rfl | ⟨v,hv,rfl⟩ := mem_uuidText h
  · decide
  · exact hall v hv

theorem digit_letters {v : ℕ} (hv : v < 16) : hexDigit v ≠ '-' ∧ isSpace (hexDigit v) = false ∧
    hexDigit v ≠ '+' ∧ hexDigit v ≠ 'x' ∧ hexDigit v ≠ 'X' ∧ hexDigit v ≠ '_' ∧
    (hexDigit v).toNat < 128 := by
  have hall : ∀ v < 16, hexDigit v ≠ '-' ∧ isSpace (hexDigit v) = false ∧ hexDigit v ≠ '+' ∧
      hexDigit v ≠ 'x' ∧ hexDigit v ≠ 'X' ∧ hexDigit v ≠ '_' ∧ (hexDigit v).toNat < 128 := by
    decide +kernel
  exact hall v hv

theorem remove_of_not_mem {c : Char} {word text : List Char} (h : c ∉ text) :
    remove (c :: word) 0 text = text := by
  induction text with
  | nil => rfl
  | cons d rest ih =>
    rw [List.mem_cons,not_or] at h
    have hprefix : (c :: word).isPrefixOf (d :: rest) = false := by
      simp [List.isPrefixOf,h.1]
    rw [remove, hprefix,ih h.2]
    rfl

theorem trim_of_all {p : Char → Bool} {text : List Char} (h : ∀ c ∈ text, p c = false) :
    Words.trim p text = text := by
  have hdrop : ∀ word : List Char, (∀ c ∈ word, p c = false) → word.dropWhile p = word := by
    intro word hword
    cases word with
    | nil => rfl
    | cons c word => exact List.dropWhile_cons_of_neg (by simp [hword c List.mem_cons_self])
  rw [Words.trim,hdrop text h,List.rdropWhile,
    hdrop text.reverse fun c hc => h c (List.mem_reverse.mp hc),List.reverse_reverse]

theorem filter_digits (u : UUID) : (Normaliser.uuidText u).filter (· ≠ '-') = digits u := by
  have hkeep : ∀ width n, (hexDigits width n).filter (· ≠ '-') = hexDigits width n := by
    intro width n
    refine List.filter_eq_self.mpr fun c hc => ?_
    obtain ⟨v,hv,rfl⟩ := mem_hexDigits hc
    exact decide_eq_true (digit_letters hv).1
  simp only [Normaliser.uuidText,List.filter_append,List.filter_cons,hkeep]
  rfl

theorem hexOf_uuidText (u : UUID) : hexOf (Normaliser.uuidText u) = digits u := by
  have hurn : remove "urn:".toList 0 (Normaliser.uuidText u) = Normaliser.uuidText u :=
    remove_of_not_mem fun h => (uuidText_letters h).1 rfl
  have huuid : remove "uuid:".toList 0 (Normaliser.uuidText u) = Normaliser.uuidText u :=
    remove_of_not_mem fun h => (uuidText_letters h).1 rfl
  rw [hexOf,hurn,huuid,trim_of_all fun c hc => (uuidText_letters hc).2,filter_digits]

theorem groups_eq {n : ℕ} (hn : n < 2^128) :
    16^12*(16^4*(16^4*(16^4*(n/2^96%16^8)+n/2^80%16^4)+n/2^64%16^4)+n/2^48%16^4)+n%16^12 = n := by
  have hgroup : ∀ k, n/2^k/2^16 = n/2^(k+16) := fun k => by
    rw [Nat.div_div_eq_div_mul,← pow_add]
  have hfirst : n/2^96%16^8 = n/2^96 :=
    Nat.mod_eq_of_lt (Nat.div_lt_of_lt_mul (by norm_num at hn ⊢; exact hn))
  have h₁ := Nat.div_add_mod (n/2^80) (2^16)
  have h₂ := Nat.div_add_mod (n/2^64) (2^16)
  have h₃ := Nat.div_add_mod (n/2^48) (2^16)
  have h₄ := Nat.div_add_mod n (2^48)
  rw [hgroup] at h₁ h₂ h₃
  rw [hfirst,show 16^4 = 2^16 by norm_num,show 16^12 = 2^48 by norm_num,h₁,h₂,h₃,h₄]

theorem hexNumber_digits {u : UUID} (hu : u < 2^128) : hexNumber 0 (digits u) = some u := by
  simp only [digits,hexNumber_append,hexNumber_hexDigits,Option.bind_some,
    Nat.shiftRight_eq_div_pow,Nat.mul_zero,Nat.zero_add]
  exact congrArg some (groups_eq hu)

theorem readDigits_eq {text : List Char} (h : ∀ c ∈ text, c ≠ '_') (n : ℕ) :
    readDigits n text = hexNumber n text := by
  induction text generalizing n with
  | nil => rfl
  | cons c rest ih =>
    rw [List.forall_mem_cons] at h
    rw [readDigits.eq_def,hexNumber]
    simp only [if_neg h.1]
    cases hexValue c with
    | none => rfl
    | some v => exact ih h.2 _

theorem intBase16_digits {u : UUID} (hu : u < 2^128) : intBase16 (digits u) = some u := by
  have htrim : Words.trim isSpace (digits u) = digits u := by
    refine trim_of_all fun c hc => ?_
    obtain ⟨v,hv,rfl⟩ := mem_digits hc
    exact (digit_letters hv).2.1
  have hhead : ∀ word : List Char, (∀ c ∈ word, ∃ v < 16, c = hexDigit v) →
      word.head? ≠ some '+' ∧ word.head? ≠ some 'x' ∧ word.head? ≠ some 'X' := by
    intro word hword
    cases word with
    | nil => simp
    | cons c word =>
      obtain ⟨v,hv,rfl⟩ := hword c List.mem_cons_self
      obtain ⟨_,_,hplus,hx,hX,_⟩ := digit_letters hv
      simp [hplus,hx,hX]
  have hdigits := fun c (hc : c ∈ digits u) => mem_digits hc
  have htail := hhead (digits u).tail fun c hc => hdigits c (List.mem_of_mem_tail hc)
  have hnumber := hexNumber_digits hu
  simp only [intBase16,htrim,if_neg (hhead _ hdigits).1,htail.2.1,htail.2.2,or_self,and_false,
    if_false]
  cases htext : digits u with
  | nil => simpa [htext] using length_digits u
  | cons c rest =>
    rw [htext,hexNumber] at hnumber
    rw [readNumber]
    cases hv : hexValue c with
    | none => simp [hv] at hnumber
    | some v =>
      simp only [hv,Nat.mul_zero,Nat.zero_add] at hnumber
      rw [Option.bind_some,readDigits_eq _ v,hnumber]
      intro d hd
      obtain ⟨w,hw,rfl⟩ := hdigits d (by rw [htext]; exact List.mem_cons_of_mem _ hd)
      exact (digit_letters hw).2.2.2.2.2.1

theorem parse_uuidText (intBeyondAscii : List Char → Option ℕ) {u : UUID} (hu : u < 2^128) :
    parse intBeyondAscii (String.ofList (Normaliser.uuidText u)) = some u := by
  have hascii : ((digits u).all fun c => decide (c.toNat < 128)) = true := by
    refine List.all_eq_true.mpr fun c hc => ?_
    obtain ⟨v,hv,rfl⟩ := mem_digits hc
    exact decide_eq_true (digit_letters hv).2.2.2.2.2.2
  rw [parse,String.toList_ofList,hexOf_uuidText]
  simp only [length_digits,ne_eq,not_true_eq_false,if_false,hascii,if_true,intBase16_digits hu]

theorem uuidText_inj {u u' : UUID} (hu : u < 2^128) (hu' : u' < 2^128)
    (h : Normaliser.uuidText u = Normaliser.uuidText u') : u = u' := by
  have hread := parse_uuidText (fun _ => none) hu
  rw [h,parse_uuidText (fun _ => none) hu'] at hread
  exact (Option.some.inj hread).symm

/-- One UUID with its prefixes, in braces, and with a sign and an underscore in its number. -/
example :
    ["urn:uuid:00000000-0000-0000-0000-00000000000a","\x7b0000000000000000000000000000000A\x7d",
      "+0x_000000000000000000000000000a"].map (parse fun _ => none) =
        [some 10,some 10,some 10] := by decide +kernel

end RoundTrip

end UuidText
end LeadEngine
