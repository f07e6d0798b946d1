import LeadEngine.Interpreter
import LeadEngine.Pattern

/-! Data minimisation at the file upload boundary: detection and removal of
regulated identifiers in the extra fields of a row. -/
namespace LeadEngine
namespace DataPolicy

open Interpreter

inductive Detection
  | creditCard | aadhaar | pan | ifsc | passport
  deriving DecidableEq

def luhnTerm (doubled : Bool) (d : ℕ) : ℕ :=
  if doubled then if 9 < d*2 then d*2-9 else d*2 else d

def luhnTotal : Bool → List ℕ → ℕ
  | _,[] => 0
  | doubled,d :: ds => luhnTerm doubled d + luhnTotal (!doubled) ds

/-- The digit string passes the Luhn check. -/
def luhnValid (digits : List Char) : Bool :=
  luhnTotal false (digits.map fun c => c.toNat - 48).reverse % 10 = 0

def asciiDigit (c : Char) : Bool := '0' ≤ c && c ≤ '9'

def asciiUpper (c : Char) : Bool := 'A' ≤ c && c ≤ 'Z'

section Detect

variable [Interpreter]

def digit : Pattern := .chr isDecimal

def ccRaw : Pattern :=
  .all [.boundary,digit,
    .rep (.seq (.opt (.chr fun c => c == ' ' || c == '-')) digit) 12 18,.boundary]

def aadhaar : Pattern :=
  let separator : Pattern := .opt (.chr fun c => isSpace c || c == '-')
  .all [.boundary,.rep digit 4 4,separator,.rep digit 4 4,separator,.rep digit 4 4,.boundary]

def pan : Pattern :=
  .all [.boundary,.rep (.chr asciiUpper) 5 5,.rep (.chr asciiDigit) 4 4,.chr asciiUpper,.boundary]

def ifsc : Pattern :=
  .all [.boundary,.rep (.chr asciiUpper) 4 4,.chr (· == '0'),
    .rep (.chr fun c => asciiUpper c || asciiDigit c) 6 6,.boundary]

def passport : Pattern :=
  .all [.boundary,.chr asciiUpper,.rep (.chr asciiDigit) 7 7,.boundary]

/-- The label of the first identifier kind found in the uppercased value. -/
def classifyValue (raw : String) : Option Detection :=
  let upperText := raw.toList.flatMap upper
  if (ccRaw.findAll isWord upperText).any fun found =>
      let digitsOnly := found.filter asciiDigit
      13 ≤ digitsOnly.length && digitsOnly.length ≤ 19 && luhnValid digitsOnly then
    some .creditCard
  else if aadhaar.occurs isWord upperText then some .aadhaar
  else if pan.occurs isWord upperText then some .pan
  else if ifsc.occurs isWord upperText then some .ifsc
  else if passport.occurs isWord upperText then some .passport
  else none

def searchedText : Json → String
  | .null => ""
  | value => strip (str value)

def detectField (value : Json) : Option Detection :=
  if searchedText value = "" then none else classifyValue (searchedText value)

def detectSensitiveFields (data : Dict String Json) : Dict String Detection :=
  data.filterMap fun _ value => detectField value

def stripSensitiveFields (extraFields : Dict String Json) :
    Dict String Json × Dict String Detection :=
  let detections := detectSensitiveFields extraFields
  (extraFields.filter fun k _ => k ∉ detections.keys,detections)

theorem mem_detections {data : Dict String Json} {k : String} {d : Detection} :
    (k,d) ∈ (detectSensitiveFields data).entries ↔
      ∃ v, (k,v) ∈ data.entries ∧ detectField v = some d := by
  simp only [detectSensitiveFields,Dict.entries_filterMap,List.mem_filterMap,Prod.exists,
    Option.map_eq_some_iff,Prod.mk.injEq]
  constructor
  · rintro ⟨k',v,hm,d',hd,rfl,rfl⟩
    exact ⟨v,hm,hd⟩
  · rintro ⟨v,hm,hd⟩
    exact ⟨k,v,hm,d,hd,rfl,rfl⟩

theorem mem_detections_keys {data : Dict String Json} {k : String} :
    k ∈ (detectSensitiveFields data).keys ↔
      ∃ v, (k,v) ∈ data.entries ∧ (detectField v).isSome := by
  simp only [Dict.keys,List.mem_map,Prod.exists,mem_detections,Option.isSome_iff_exists]
  constructor
  · rintro ⟨k',d,⟨v,hm,hd⟩,rfl⟩
    exact ⟨v,hm,d,hd⟩
  · rintro ⟨v,hm,d,hd⟩
    exact ⟨k,d,⟨v,hm,hd⟩,rfl⟩

theorem strip_eq_self_iff (extra : Dict String Json) :
    (stripSensitiveFields extra).1 = extra ↔ (stripSensitiveFields extra).2.entries = [] := by
  constructor
  · intro h
    have he : (extra.entries.filter fun e => decide (e.1 ∉ (detectSensitiveFields extra).keys)) =
        extra.entries := congrArg Dict.entries h
    rw [List.filter_eq_self] at he
    refine List.eq_nil_iff_forall_not_mem.mpr fun ⟨k,d⟩ hd => ?_
    obtain ⟨v,hm,hv⟩ := mem_detections.mp hd
    have hk := he (k,v) hm
    simp only [decide_eq_true_eq] at hk
    exact hk (mem_detections_keys.mpr ⟨v,hm,by simp [hv]⟩)
  · intro h
    refine Dict.ext_entries ?_
    simp only [stripSensitiveFields,Dict.entries_filter]
    rw [List.filter_eq_self]
    intro e _
    have hk : (detectSensitiveFields extra).keys = [] := by
      simpa [Dict.keys,stripSensitiveFields] using h
    simp [hk]

end Detect

end DataPolicy
end LeadEngine
