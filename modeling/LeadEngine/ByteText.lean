import Mathlib.Data.List.Basic
import Mathlib.Tactic.Ring

/-! Byte strings as text: URL-safe base64 with a decoder that passes over what is no digit,
hexadecimal, and UTF-8. -/
namespace LeadEngine
namespace ByteText

def unreserved (c : Char) : Bool := c.isAlphanum || c == '-' || c == '.' || c == '_' || c == '~'

def isAscii (text : String) : Bool := text.toList.all fun c => c.toNat < 128

section Base64

def base64Digit (v : ℕ) : Char :=
  if v < 26 then Char.ofNat (65+v)
  else if v < 52 then Char.ofNat (71+v)
  else if v < 62 then Char.ofNat (v-4)
  else if v = 62 then '-' else '_'

def base64Value (c : Char) : Option ℕ :=
  if 65 ≤ c.toNat ∧ c.toNat ≤ 90 then some (c.toNat-65)
  else if 97 ≤ c.toNat ∧ c.toNat ≤ 122 then some (c.toNat-71)
  else if 48 ≤ c.toNat ∧ c.toNat ≤ 57 then some (c.toNat+4)
  else if c = '-' ∨ c = '+' then some 62
  else if c = '_' ∨ c = '/' then some 63
  else none

/-- Three bytes as four digits, and what is left at the end padded to four characters. -/
def base64Encode : List UInt8 → List Char
  | [] => []
  | [a] => [base64Digit (a.toNat/4),base64Digit (a.toNat%4*16),'=','=']
  | [a,b] => [base64Digit (a.toNat/4),base64Digit (a.toNat%4*16+b.toNat/16),
      base64Digit (b.toNat%16*4),'=']
  | a :: b :: c :: rest =>
    base64Digit (a.toNat/4) :: base64Digit (a.toNat%4*16+b.toNat/16) ::
      base64Digit (b.toNat%16*4+c.toNat/64) :: base64Digit (c.toNat%64) :: base64Encode rest

/-- The digits read of a group of four, with the bits that they leave for the next byte. -/
inductive Group
  | start
  | one (left : ℕ)
  | two (left : ℕ)
  | three (left : ℕ)
  deriving DecidableEq

def Group.pos : Group → ℕ
  | .start => 0
  | .one _ => 1
  | .two _ => 2
  | .three _ => 3

/-- Read digits until the text ends or a group is padded to its end; a padding character that
comes too early and every other character is passed over. -/
def base64Read : Group → ℕ → List Char → Option (List UInt8)
  | group,_,[] => if group = .start then some [] else none
  | group,pads,c :: text =>
    if c = '=' then
      if 2 ≤ group.pos then
        if 4 ≤ group.pos+(pads+1) then some [] else base64Read group (pads+1) text
      else base64Read group pads text
    else
      match base64Value c with
      | none => base64Read group pads text
      | some v =>
        match group with
        | .start => base64Read (.one v) 0 text
        | .one left => (base64Read (.two (v%16)) 0 text).map (UInt8.ofNat (left*4+v/16) :: ·)
        | .two left => (base64Read (.three (v%4)) 0 text).map (UInt8.ofNat (left*16+v/4) :: ·)
        | .three left => (base64Read .start 0 text).map (UInt8.ofNat (left*64+v) :: ·)

def base64Decode (text : String) : Option (List UInt8) :=
  if isAscii text then base64Read .start 0 text.toList else none

theorem base64Value_digit {v : ℕ} (h : v < 64) : base64Value (base64Digit v) = some v := by
  have hall : ∀ v < 64, base64Value (base64Digit v) = some v := by decide +kernel
  exact hall v h

theorem base64Digit_safe {v : ℕ} (h : v < 64) : base64Digit v ≠ '=' ∧ base64Digit v ≠ '.' ∧
    (base64Digit v).toNat < 128 ∧ unreserved (base64Digit v) = true := by
  have hall : ∀ v < 64, base64Digit v ≠ '=' ∧ base64Digit v ≠ '.' ∧
      (base64Digit v).toNat < 128 ∧ unreserved (base64Digit v) = true := by decide +kernel
  exact hall v h

theorem padding_not_mem {core : List Char} (h : ∀ c ∈ core, ∃ v < 64, c = base64Digit v) :
    '=' ∉ core := by
  intro hmem
  obtain ⟨v,hv,heq⟩ := h _ hmem
  exact (base64Digit_safe hv).1 heq.symm

section Groups

variable {v : ℕ} {pads left : ℕ} {text : List Char}

theorem base64Read_start (h : v < 64) :
    base64Read .start pads (base64Digit v :: text) = base64Read (.one v) 0 text := by
  simp [base64Read,(base64Digit_safe h).1,base64Value_digit h]

theorem base64Read_one (h : v < 64) :
    base64Read (.one left) pads (base64Digit v :: text) =
      (base64Read (.two (v%16)) 0 text).map (UInt8.ofNat (left*4+v/16) :: ·) := by
  simp [base64Read,(base64Digit_safe h).1,base64Value_digit h]

theorem base64Read_two (h : v < 64) :
    base64Read (.two left) pads (base64Digit v :: text) =
      (base64Read (.three (v%4)) 0 text).map (UInt8.ofNat (left*16+v/4) :: ·) := by
  simp [base64Read,(base64Digit_safe h).1,base64Value_digit h]

theorem base64Read_three (h : v < 64) :
    base64Read (.three left) pads (base64Digit v :: text) =
      (base64Read .start 0 text).map (UInt8.ofNat (left*64+v) :: ·) := by
  simp [base64Read,(base64Digit_safe h).1,base64Value_digit h]

end Groups

theorem ofNat_parts {a : UInt8} {n : ℕ} (h : n = a.toNat) : UInt8.ofNat n = a := by
  rw [h,UInt8.ofNat_toNat]

theorem base64Read_encode (bytes : List UInt8) :
    base64Read .start 0 (base64Encode bytes) = some bytes := by
  induction bytes using base64Encode.induct with
  | case1 => rfl
  | case2 a =>
    have ha := a.toNat_lt
    have hfirst : a.toNat/4 < 64 := by omega
    have hsecond : a.toNat%4*16 < 64 := by omega
    rw [base64Encode,base64Read_start hfirst,base64Read_one hsecond]
    have hbyte : UInt8.ofNat (a.toNat/4*4+a.toNat%4*16/16) = a := ofNat_parts (by omega)
    simp only [hbyte]
    simp [base64Read,Group.pos]
  | case3 a b =>
    have ha := a.toNat_lt
    have hb := b.toNat_lt
    have hfirst : a.toNat/4 < 64 := by omega
    have hsecond : a.toNat%4*16+b.toNat/16 < 64 := by omega
    have hthird : b.toNat%16*4 < 64 := by omega
    rw [base64Encode,base64Read_start hfirst,base64Read_one hsecond,base64Read_two hthird]
    have hbyte : UInt8.ofNat (a.toNat/4*4+(a.toNat%4*16+b.toNat/16)/16) = a :=
      ofNat_parts (by omega)
    have hbyte' : UInt8.ofNat ((a.toNat%4*16+b.toNat/16)%16*16+b.toNat%16*4/4) = b :=
      ofNat_parts (by omega)
    simp only [hbyte,hbyte']
    simp [base64Read,Group.pos]
  | case4 a b c rest ih =>
    have ha := a.toNat_lt
    have hb := b.toNat_lt
    have hc := c.toNat_lt
    have hfirst : a.toNat/4 < 64 := by omega
    have hsecond : a.toNat%4*16+b.toNat/16 < 64 := by omega
    have hthird : b.toNat%16*4+c.toNat/64 < 64 := by omega
    have hfourth : c.toNat%64 < 64 := by omega
    rw [base64Encode,base64Read_start hfirst,base64Read_one hsecond,base64Read_two hthird,
      base64Read_three hfourth,ih]
    have hbyte : UInt8.ofNat (a.toNat/4*4+(a.toNat%4*16+b.toNat/16)/16) = a :=
      ofNat_parts (by omega)
    have hbyte' : UInt8.ofNat ((a.toNat%4*16+b.toNat/16)%16*16+
        (b.toNat%16*4+c.toNat/64)/4) = b := ofNat_parts (by omega)
    have hbyte'' : UInt8.ofNat ((b.toNat%16*4+c.toNat/64)%4*64+c.toNat%64) = c :=
      ofNat_parts (by omega)
    simp only [hbyte,hbyte',hbyte'',Option.map_some]

/-- An encoding is digits and at most two padding characters, in groups of four. -/
theorem base64Encode_shape (bytes : List UInt8) :
    ∃ core : List Char, ∃ n ≤ 2, (core.length+n) % 4 = 0 ∧
      base64Encode bytes = core ++ List.replicate n '=' ∧
      ∀ c ∈ core, ∃ v < 64, c = base64Digit v := by
  induction bytes using base64Encode.induct with
  | case1 => exact ⟨[],0,by omega,rfl,rfl,by simp⟩
  | case2 a =>
    have ha := a.toNat_lt
    refine ⟨[base64Digit (a.toNat/4),base64Digit (a.toNat%4*16)],2,by omega,by simp,rfl,?_⟩
    simp only [List.mem_cons,List.not_mem_nil,or_false]
    rintro c (rfl | rfl)
    · exact ⟨_,by omega,rfl⟩
    · exact ⟨_,by omega,rfl⟩
  | case3 a b =>
    have ha := a.toNat_lt
    have hb := b.toNat_lt
    refine ⟨[base64Digit (a.toNat/4),base64Digit (a.toNat%4*16+b.toNat/16),
      base64Digit (b.toNat%16*4)],1,by omega,by simp,rfl,?_⟩
    simp only [List.mem_cons,List.not_mem_nil,or_false]
    rintro c (rfl | rfl | rfl)
    · exact ⟨_,by omega,rfl⟩
    · exact ⟨_,by omega,rfl⟩
    · exact ⟨_,by omega,rfl⟩
  | case4 a b c rest ih =>
    have ha := a.toNat_lt
    have hb := b.toNat_lt
    have hc := c.toNat_lt
    obtain ⟨core,n,hn,hlength,htext,hcore⟩ := ih
    refine ⟨base64Digit (a.toNat/4) :: base64Digit (a.toNat%4*16+b.toNat/16) ::
      base64Digit (b.toNat%16*4+c.toNat/64) :: base64Digit (c.toNat%64) :: core,n,hn,?_,?_,?_⟩
    · simp only [List.length_cons]
      omega
    · rw [base64Encode,htext]
      rfl
    · simp only [List.mem_cons]
      rintro d (rfl | rfl | rfl | rfl | hd)
      · exact ⟨_,by omega,rfl⟩
      · exact ⟨_,by omega,rfl⟩
      · exact ⟨_,by omega,rfl⟩
      · exact ⟨_,by omega,rfl⟩
      · exact hcore d hd

theorem base64Decode_encode (bytes : List UInt8) :
    base64Decode (String.ofList (base64Encode bytes)) = some bytes := by
  have hascii : isAscii (String.ofList (base64Encode bytes)) = true := by
    obtain ⟨core,n,_,_,htext,hcore⟩ := base64Encode_shape bytes
    rw [isAscii,String.toList_ofList,htext,List.all_append,Bool.and_eq_true]
    refine ⟨List.all_eq_true.mpr fun c hc => ?_,by simp⟩
    obtain ⟨v,hv,rfl⟩ := hcore c hc
    exact decide_eq_true (base64Digit_safe hv).2.2.1
  rw [base64Decode,if_pos hascii,String.toList_ofList,base64Read_encode]

example : base64Decode "e3 0=\n" = some [123,125] := by decide +kernel

end Base64

section Hexadecimal

def hexDigit (v : ℕ) : Char := Char.ofNat (if v < 10 then 48+v else 87+v)

def hexlify (bytes : List UInt8) : String :=
  String.ofList (bytes.flatMap fun b => [hexDigit (b.toNat/16),hexDigit (b.toNat%16)])

theorem hexDigit_safe {v : ℕ} (h : v < 16) : hexDigit v ≠ '.' ∧ (hexDigit v).toNat < 128 ∧
    unreserved (hexDigit v) = true := by
  have hall : ∀ v < 16, hexDigit v ≠ '.' ∧ (hexDigit v).toNat < 128 ∧
      unreserved (hexDigit v) = true := by decide +kernel
  exact hall v h

theorem mem_hexlify {bytes : List UInt8} {c : Char} (h : c ∈ (hexlify bytes).toList) :
    ∃ v < 16, c = hexDigit v := by
  rw [hexlify,String.toList_ofList,List.mem_flatMap] at h
  obtain ⟨b,_,hc⟩ := h
  have hb := b.toNat_lt
  simp only [List.mem_cons,List.not_mem_nil,or_false] at hc
  obtain rfl | rfl := hc
  · exact ⟨_,by omega,rfl⟩
  · exact ⟨_,by omega,rfl⟩

theorem isAscii_hexlify (bytes : List UInt8) : isAscii (hexlify bytes) = true := by
  refine List.all_eq_true.mpr fun c hc => ?_
  obtain ⟨v,hv,rfl⟩ := mem_hexlify hc
  exact decide_eq_true (hexDigit_safe hv).2.1

def hexValue (c : Char) : Option ℕ :=
  if 48 ≤ c.toNat ∧ c.toNat ≤ 57 then some (c.toNat-48)
  else if 97 ≤ c.toNat ∧ c.toNat ≤ 102 then some (c.toNat-87)
  else if 65 ≤ c.toNat ∧ c.toNat ≤ 70 then some (c.toNat-55)
  else none

/-- The last `width` hexadecimal digits of a number. -/
def hexDigits : ℕ → ℕ → List Char
  | 0,_ => []
  | width+1,n => hexDigits width (n/16) ++ [hexDigit (n%16)]

def hexNumber : ℕ → List Char → Option ℕ
  | n,[] => some n
  | n,c :: text =>
    match hexValue c with
    | none => none
    | some v => hexNumber (16*n+v) text

theorem hexValue_digit {v : ℕ} (h : v < 16) : hexValue (hexDigit v) = some v := by
  have hall : ∀ v < 16, hexValue (hexDigit v) = some v := by decide +kernel
  exact hall v h

@[simp] theorem length_hexDigits (width n : ℕ) : (hexDigits width n).length = width := by
  induction width generalizing n with
  | zero => rfl
  | succ width ih => simp [hexDigits,ih]

theorem mem_hexDigits {width n : ℕ} {c : Char} (h : c ∈ hexDigits width n) :
    ∃ v < 16, c = hexDigit v := by
  induction width generalizing n with
  | zero => cases h
  | succ width ih =>
    rw [hexDigits,List.mem_append,List.mem_singleton] at h
    rcases h with h | h
    · exact ih h
    · exact ⟨n%16,by omega,h⟩

theorem hexNumber_append (n : ℕ) (front back : List Char) :
    hexNumber n (front ++ back) = (hexNumber n front).bind fun m => hexNumber m back := by
  induction front generalizing n with
  | nil => rfl
  | cons c front ih =>
    rw [List.cons_append,hexNumber,hexNumber]
    cases hexValue c with
    | none => rfl
    | some v => exact ih _

theorem hexNumber_hexDigits (width n : ℕ) (start : ℕ) :
    hexNumber start (hexDigits width n) = some (16^width*start + n%16^width) := by
  induction width generalizing n with
  | zero => simp [hexDigits,hexNumber,Nat.mod_one]
  | succ width ih =>
    have hdigit : n%16 < 16 := Nat.mod_lt _ (by decide)
    have hsplit : n%16^(width+1) = 16*(n/16%16^width)+n%16 := by
      rw [pow_succ',Nat.mod_mul]
      ring
    rw [hexDigits,hexNumber_append,ih,Option.bind_some,hexNumber,hexValue_digit hdigit,hsplit]
    exact congrArg some (by ring)

end Hexadecimal

section Utf8

def utf8Encode (text : String) : List UInt8 := text.toUTF8.data.toList

def utf8Decode (bytes : List UInt8) : Option String := String.fromUTF8? bytes.toByteArray

theorem utf8Decode_encode (text : String) : utf8Decode (utf8Encode text) = some text := by
  have hbytes : (utf8Encode text).toByteArray = text.toByteArray := by
    apply ByteArray.ext
    rw [List.data_toByteArray,utf8Encode,Array.toArray_toList]
    rfl
  rw [utf8Decode,hbytes,String.fromUTF8?,dif_pos text.isValidUTF8]
  rfl

end Utf8

end ByteText
end LeadEngine
