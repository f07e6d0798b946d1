import LeadEngine.ByteText

/-! The text of URL parameters: bytes that a URL does not carry are quoted, a blank is written as
a plus sign, and the query of a URL is read back as it was written. -/
namespace LeadEngine
namespace FormText

open ByteText

section Quote

def upperHexDigit (v : ℕ) : Char := Char.ofNat (if v < 10 then 48+v else 55+v)

def quoteByte (safe : List Char) (b : UInt8) : List Char :=
  if b.toNat < 128 ∧ (unreserved (Char.ofNat b.toNat) = true ∨ Char.ofNat b.toNat ∈ safe) then
    [Char.ofNat b.toNat]
  else ['%',upperHexDigit (b.toNat/16),upperHexDigit (b.toNat%16)]

/-- `urllib.parse.quote`: every byte of the text that is neither unreserved nor safe is escaped. -/
def quote (safe : List Char) (text : String) : List Char :=
  (utf8Encode text).flatMap (quoteByte safe)

/-- The bytes of a quoted text; a percent sign that no two hexadecimal digits follow stands for
itself. -/
def unquoteBytes : List Char → List UInt8
  | [] => []
  | '%' :: a :: b :: text =>
    match hexValue a,hexValue b with
    | some x,some y => UInt8.ofNat (16*x+y) :: unquoteBytes text
    | _,_ => 37 :: unquoteBytes (a :: b :: text)
  | c :: text => String.utf8EncodeChar c ++ unquoteBytes text

/-- `urllib.parse.unquote`; `replaced` is what it makes of a text whose bytes are not UTF-8. -/
def unquote (replaced : List Char → String) (text : List Char) : String :=
  (utf8Decode (unquoteBytes text)).getD (replaced text)

variable {safe : List Char} {b : UInt8} {c : Char} {text : List Char}

theorem upperHexDigit_safe {v : ℕ} (h : v < 16) : hexValue (upperHexDigit v) = some v ∧
    upperHexDigit v ≠ '%' ∧ unreserved (upperHexDigit v) = true := by
  have hall : ∀ v < 16, hexValue (upperHexDigit v) = some v ∧ upperHexDigit v ≠ '%' ∧
      unreserved (upperHexDigit v) = true := by decide +kernel
  exact hall v h

theorem utf8EncodeChar_ascii (h : b.toNat < 128) :
    String.utf8EncodeChar (Char.ofNat b.toNat) = [b] := by
  have hall : ∀ n < 128, String.utf8EncodeChar (Char.ofNat n) = [UInt8.ofNat n] := by
    decide +kernel
  rw [hall _ h,UInt8.ofNat_toNat]

theorem unquoteBytes_cons (h : c ≠ '%') :
    unquoteBytes (c :: text) = String.utf8EncodeChar c ++ unquoteBytes text := by
  rw [unquoteBytes]
  intro a b rest hc
  exact absurd hc h

theorem unquoteBytes_escaped : unquoteBytes
    ('%' :: upperHexDigit (b.toNat/16) :: upperHexDigit (b.toNat%16) :: text) =
      b :: unquoteBytes text := by
  have hb := b.toNat_lt
  have hhigh : b.toNat/16 < 16 := by omega
  have hlow : b.toNat%16 < 16 := by omega
  have hbyte : UInt8.ofNat (16*(b.toNat/16)+b.toNat%16) = b := ofNat_parts (by omega)
  rw [unquoteBytes]
  simp only [(upperHexDigit_safe hhigh).1,(upperHexDigit_safe hlow).1,hbyte]

theorem unquoteBytes_quoteByte (hsafe : '%' ∉ safe) :
    unquoteBytes (quoteByte safe b ++ text) = b :: unquoteBytes text := by
  unfold quoteByte
  split_ifs with h
  · obtain ⟨hascii,hkept⟩ := h
    have hne : Char.ofNat b.toNat ≠ '%' := by
      rintro heq
      rw [heq] at hkept
      rcases hkept with hkept | hkept
      · exact absurd hkept (by decide)
      · exact hsafe hkept
    rw [List.singleton_append,unquoteBytes_cons hne,utf8EncodeChar_ascii hascii,
      List.singleton_append]
  · exact unquoteBytes_escaped

theorem unquoteBytes_quote (hsafe : '%' ∉ safe) (bytes : List UInt8) :
    unquoteBytes (bytes.flatMap (quoteByte safe)) = bytes := by
  induction bytes with
  | nil => rfl
  | cons b bytes ih => rw [List.flatMap_cons,unquoteBytes_quoteByte hsafe,ih]

theorem unquote_quote (replaced : List Char → String) (hsafe : '%' ∉ safe) (text : String) :
    unquote replaced (quote safe text) = text := by
  rw [unquote,quote,unquoteBytes_quote hsafe,utf8Decode_encode,Option.getD_some]

theorem mem_quote {text : String} (h : c ∈ quote safe text) :
    unreserved c = true ∨ c ∈ safe ∨ c = '%' := by
  rw [quote,List.mem_flatMap] at h
  obtain ⟨b,_,hc⟩ := h
  have hb := b.toNat_lt
  unfold quoteByte at hc
  split_ifs at hc with hkept
  · rw [List.mem_singleton] at hc
    rw [hc]
    exact hkept.2.imp_right .inl
  · simp only [List.mem_cons,List.not_mem_nil,or_false] at hc
    obtain rfl | rfl | rfl := hc
    · exact .inr (.inr rfl)
    · exact .inl (upperHexDigit_safe (by omega)).2.2
    · exact .inl (upperHexDigit_safe (by omega)).2.2

theorem utf8Encode_eq (text : String) :
    utf8Encode text = text.toList.flatMap String.utf8EncodeChar := by
  have hbytes : text.toUTF8 = (text.toList.flatMap String.utf8EncodeChar).toByteArray :=
    String.utf8Encode_toList.symm
  rw [utf8Encode,hbytes,List.data_toByteArray]

theorem quote_char (hascii : c.toNat < 128) (h : unreserved c = true ∨ c ∈ safe) :
    (String.utf8EncodeChar c).flatMap (quoteByte safe) = [c] := by
  have hbyte : (UInt8.ofNat c.toNat).toNat = c.toNat := by
    rw [UInt8.toNat_ofNat']
    omega
  have hchar : Char.ofNat (UInt8.ofNat c.toNat).toNat = c := by rw [hbyte,Char.ofNat_toNat]
  have hbytes : String.utf8EncodeChar c = [UInt8.ofNat c.toNat] := by
    rw [← utf8EncodeChar_ascii (by rw [hbyte]; exact hascii),hchar]
  rw [hbytes,List.flatMap_singleton,quoteByte,hchar,hbyte,if_pos ⟨hascii,h⟩]

theorem quote_eq_self {text : String}
    (h : ∀ c ∈ text.toList, c.toNat < 128 ∧ (unreserved c = true ∨ c ∈ safe)) :
    quote safe text = text.toList := by
  have hchars : ∀ chars : List Char,
      (∀ c ∈ chars, c.toNat < 128 ∧ (unreserved c = true ∨ c ∈ safe)) →
      (chars.flatMap String.utf8EncodeChar).flatMap (quoteByte safe) = chars := by
    intro chars
    induction chars with
    | nil => exact fun _ => rfl
    | cons c chars ih =>
      intro hall
      obtain ⟨hc,hrest⟩ := List.forall_mem_cons.mp hall
      rw [List.flatMap_cons,List.flatMap_append,quote_char hc.1 hc.2,ih hrest,
        List.singleton_append]
  rw [quote,utf8Encode_eq,hchars _ h]

end Quote

section Query

def blankToPlus (c : Char) : Char := if c = ' ' then '+' else c

def plusToBlank (c : Char) : Char := if c = '+' then ' ' else c

def quotePlus (text : String) : List Char := (quote [' '] text).map blankToPlus

def unquotePlus (replaced : List Char → String) (text : List Char) : String :=
  unquote replaced (text.map plusToBlank)

/-- `urllib.parse.urlencode`. -/
def urlencode (params : List (String × String)) : List Char :=
  ['&'].intercalate (params.map fun p => quotePlus p.1 ++ '=' :: quotePlus p.2)

def readPair (replaced : List Char → String) (pair : List Char) : String × String :=
  (unquotePlus replaced (pair.takeWhile (· ≠ '=')),
    unquotePlus replaced (pair.dropWhile (· ≠ '=')).tail)

/-- `urllib.parse.parse_qsl(.., keep_blank_values=True)`. -/
def parseQsl (replaced : List Char → String) (query : List Char) : List (String × String) :=
  ((query.splitOn '&').filter (· ≠ [])).map (readPair replaced)

variable {c : Char}

theorem mem_quotePlus {text : String} (h : c ∈ quotePlus text) :
    unreserved c = true ∨ c = '+' ∨ c = '%' := by
  rw [quotePlus,List.mem_map] at h
  obtain ⟨c',hc',rfl⟩ := h
  unfold blankToPlus
  split_ifs with hblank
  · exact .inr (.inl rfl)
  · rcases mem_quote hc' with hc | hc | hc
    · exact .inl hc
    · exact absurd (List.mem_singleton.mp hc) hblank
    · exact .inr (.inr hc)

theorem not_mem_quotePlus {text : String} (hreserved : unreserved c = false) (hplus : c ≠ '+')
    (hpercent : c ≠ '%') : c ∉ quotePlus text := by
  intro h
  rcases mem_quotePlus h with h | h | h
  · rw [hreserved] at h
    cases h
  · exact hplus h
  · exact hpercent h

theorem unquotePlus_quotePlus (replaced : List Char → String) (text : String) :
    unquotePlus replaced (quotePlus text) = text := by
  have hback : ∀ c ∈ quote [' '] text, plusToBlank (blankToPlus c) = c := by
    intro c hc
    have hplus : c ≠ '+' := by
      rintro rfl
      rcases mem_quote hc with hc | hc | hc
      · exact absurd hc (by decide)
      · exact absurd hc (by decide)
      · exact absurd hc (by decide)
    by_cases hblank : c = ' '
    · subst hblank
      rfl
    · rw [blankToPlus,if_neg hblank,plusToBlank,if_neg hplus]
  have hquoted : (quotePlus text).map plusToBlank = quote [' '] text := by
    rw [quotePlus,List.map_map]
    exact (List.map_congr_left hback).trans (List.map_id _)
  rw [unquotePlus,hquoted,unquote_quote replaced (by decide)]

example : quotePlus "app 1/é" = "app+1%2F%C3%A9".toList := by decide +kernel

theorem isAscii_of_unreserved (h : unreserved c = true) : c.toNat < 128 := by
  change (((decide (c.val ≥ 65 ∧ c.val ≤ 90) || decide (c.val ≥ 97) && decide (c.val ≤ 122)) ||
    decide (c.val ≥ 48) && decide (c.val ≤ 57)) ||
      c == '-' || c == '.' || c == '_' || c == '~') = true at h
  simp only [Bool.or_eq_true,Bool.and_eq_true,decide_eq_true_iff,beq_iff_eq] at h
  rcases h with (((((⟨_,h⟩ | ⟨_,h⟩) | ⟨_,h⟩) | rfl) | rfl) | rfl) | rfl
  · exact Nat.lt_of_le_of_lt h (by decide)
  · exact Nat.lt_of_le_of_lt h (by decide)
  · exact Nat.lt_of_le_of_lt h (by decide)
  all_goals decide

theorem quotePlus_eq_self {text : String} (h : ∀ c ∈ text.toList, unreserved c = true) :
    quotePlus text = text.toList := by
  have hquote : quote [' '] text = text.toList :=
    quote_eq_self fun c hc => ⟨isAscii_of_unreserved (h c hc),.inl (h c hc)⟩
  rw [quotePlus,hquote]
  refine (List.map_congr_left fun c hc => ?_).trans (List.map_id _)
  have hblank : c ≠ ' ' := by
    rintro rfl
    exact absurd (h _ hc) (by decide)
  exact if_neg hblank

theorem urlencode_concat {params : List (String × String)} (h : params ≠ []) (name value : String) :
    urlencode (params ++ [(name,value)]) =
      urlencode params ++ '&' :: (quotePlus name ++ '=' :: quotePlus value) := by
  induction params with
  | nil => exact absurd rfl h
  | cons p rest ih =>
    cases rest with
    | nil => simp [urlencode]
    | cons q rest =>
      have hrest := ih (List.cons_ne_nil _ _)
      simp only [urlencode,List.map_cons,List.cons_append,List.intercalate_cons_cons] at hrest ⊢
      rw [hrest]
      simp

theorem readPair_quoted (replaced : List Char → String) (name value : String) :
    readPair replaced (quotePlus name ++ '=' :: quotePlus value) = (name,value) := by
  have hname : ∀ c ∈ quotePlus name, decide (c ≠ '=') = true := by
    intro c hc
    rw [decide_eq_true_iff]
    rintro rfl
    exact not_mem_quotePlus (by decide) (by decide) (by decide) hc
  simp only [readPair,List.takeWhile_append_of_pos hname,List.dropWhile_append_of_pos hname]
  simp [unquotePlus_quotePlus]

/-- A query is read back as it was written. -/
theorem parseQsl_urlencode (replaced : List Char → String) (params : List (String × String)) :
    parseQsl replaced (urlencode params) = params := by
  by_cases hnil : params = []
  · subst hnil
    rfl
  · have hapart : ∀ pair ∈ params.map fun p => quotePlus p.1 ++ '=' :: quotePlus p.2,
        '&' ∉ pair := by
      intro pair hpair hmem
      obtain ⟨p,_,rfl⟩ := List.mem_map.mp hpair
      rcases List.mem_append.mp hmem with hmem | hmem
      · exact not_mem_quotePlus (by decide) (by decide) (by decide) hmem
      · rcases List.mem_cons.mp hmem with hmem | hmem
        · exact absurd hmem (by decide)
        · exact not_mem_quotePlus (by decide) (by decide) (by decide) hmem
    have hfull : (params.map fun p => quotePlus p.1 ++ '=' :: quotePlus p.2).filter (· ≠ []) =
        params.map fun p => quotePlus p.1 ++ '=' :: quotePlus p.2 := by
      apply List.filter_eq_self.mpr
      intro pair hpair
      obtain ⟨p,_,rfl⟩ := List.mem_map.mp hpair
      simp
    rw [parseQsl,urlencode,List.splitOn_intercalate _ hapart (by simpa using hnil),hfull,
      List.map_map]
    simp [Function.comp_def,readPair_quoted]

end Query

section Url

def writeUrl (base : String) (params : List (String × String)) : String :=
  base ++ "?" ++ String.ofList (urlencode params)

/-- A URL split at its first question mark, without the fragment. -/
def readUrl (replaced : List Char → String) (url : String) : String × List (String × String) :=
  let front := url.toList.takeWhile (· ≠ '#')
  (String.ofList (front.takeWhile (· ≠ '?')),
    parseQsl replaced (front.dropWhile (· ≠ '?')).tail)

variable {base : String} {params : List (String × String)} {c : Char}

theorem mem_urlencode (h : c ∈ urlencode params) :
    unreserved c = true ∨ c ∈ ['+','%','&','='] := by
  have hquoted : ∀ text, c ∈ quotePlus text → unreserved c = true ∨ c ∈ ['+','%','&','='] := by
    intro text hc
    rcases mem_quotePlus hc with hc | rfl | rfl
    · exact .inl hc
    · exact .inr (by decide)
    · exact .inr (by decide)
  have hpairs : ∀ pairs : List (List Char), c ∈ ['&'].intercalate pairs →
      c = '&' ∨ ∃ pair ∈ pairs, c ∈ pair := by
    intro pairs
    induction pairs with
    | nil => exact fun h => absurd h (by simp)
    | cons pair rest ih =>
      intro h
      cases rest with
      | nil => exact .inr ⟨pair,List.mem_cons_self,by simpa using h⟩
      | cons next rest =>
        rw [List.intercalate_cons_cons,List.append_assoc,List.mem_append] at h
        rcases h with h | h
        · exact .inr ⟨pair,List.mem_cons_self,h⟩
        · rcases List.mem_append.mp h with h | h
          · exact .inl (List.mem_singleton.mp h)
          · obtain hc | ⟨p,hp,hc⟩ := ih h
            · exact .inl hc
            · exact .inr ⟨p,List.mem_cons_of_mem _ hp,hc⟩
  rcases hpairs _ h with rfl | ⟨pair,hpair,hc⟩
  · exact .inr (by decide)
  · obtain ⟨p,_,rfl⟩ := List.mem_map.mp hpair
    rcases List.mem_append.mp hc with hc | hc
    · exact hquoted _ hc
    · rcases List.mem_cons.mp hc with rfl | hc
      · exact .inr (by decide)
      · exact hquoted _ hc

theorem takeWhile_fragment {front fragment : List Char} (hfront : '#' ∉ front)
    (hfragment : fragment.head? = none ∨ fragment.head? = some '#') :
    (front ++ fragment).takeWhile (· ≠ '#') = front := by
  have hall : ∀ c ∈ front, decide (c ≠ '#') = true := by
    intro c hc
    rw [decide_eq_true_iff]
    rintro rfl
    exact hfront hc
  rw [List.takeWhile_append_of_pos hall]
  cases fragment with
  | nil => simp
  | cons c rest =>
    have hc : c = '#' := by simpa using hfragment
    simp [hc]

/-- A URL is read back as it was written, with whatever fragment behind it. -/
theorem readUrl_writeUrl (replaced : List Char → String) (hquery : '?' ∉ base.toList)
    (hhash : '#' ∉ base.toList) {fragment : String}
    (hfragment : fragment.toList.head? = none ∨ fragment.toList.head? = some '#') :
    readUrl replaced (writeUrl base params ++ fragment) = (base,params) := by
  have htext : (writeUrl base params ++ fragment).toList =
      (base.toList ++ '?' :: urlencode params) ++ fragment.toList := by
    simp [writeUrl]
  have hfront : '#' ∉ base.toList ++ '?' :: urlencode params := by
    intro h
    rcases List.mem_append.mp h with h | h
    · exact hhash h
    · rcases List.mem_cons.mp h with h | h
      · exact absurd h (by decide)
      · exact absurd (mem_urlencode h) (by decide)
  have hall : ∀ c ∈ base.toList, decide (c ≠ '?') = true := by
    intro c hc
    rw [decide_eq_true_iff]
    rintro rfl
    exact hquery hc
  simp only [readUrl,htext,takeWhile_fragment hfront hfragment,List.takeWhile_append_of_pos hall,
    List.dropWhile_append_of_pos hall]
  simp [parseQsl_urlencode]

end Url

end FormText
end LeadEngine
