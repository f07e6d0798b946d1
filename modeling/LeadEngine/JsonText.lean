import LeadEngine.ByteText
import LeadEngine.Interpreter

/-! JSON texts as Python's `json` module writes and reads them. The decoder accepts more than the
encoder writes; what the encoder writes it reads back. -/
namespace LeadEngine
namespace JsonText

open ByteText

/-- The floats of the interpreter: how one is written, and what a literal is read as. -/
class Floats where
  repr : ℚ → List Char
  read : List Char → Option Json

@[reducible] def noFloats : Floats := ⟨fun _ => [],fun _ => none⟩

section Encoder

def unicodeEscape (unit : ℕ) : List Char := '\\' :: 'u' :: hexDigits 4 unit

/-- A letter of a string in ASCII; above the basic plane it becomes a surrogate pair. -/
def escape (c : Char) : List Char :=
  if c = '"' then ['\\','"']
  else if c = '\\' then ['\\','\\']
  else if c = '\n' then ['\\','n']
  else if c = '\r' then ['\\','r']
  else if c = '\t' then ['\\','t']
  else if c.toNat = 12 then ['\\','f']
  else if c.toNat = 8 then ['\\','b']
  else if 32 ≤ c.toNat ∧ c.toNat ≤ 126 then [c]
  else if c.toNat < 0x10000 then unicodeEscape c.toNat
  else unicodeEscape (0xD800 + (c.toNat - 0x10000) / 0x400) ++
    unicodeEscape (0xDC00 + (c.toNat - 0x10000) % 0x400)

def quote (text : List Char) : List Char := '"' :: (text.flatMap escape ++ ['"'])

def intText (n : ℤ) : List Char :=
  if n < 0 then '-' :: Nat.toDigits 10 n.natAbs else Nat.toDigits 10 n.natAbs

variable [Floats]

mutual

def dumps : Json → List Char
  | .null => "null".toList
  | .bool true => "true".toList
  | .bool false => "false".toList
  | .int n => intText n
  | .float q => Floats.repr q
  | .str s => quote s.toList
  | .arr [] => ['[',']']
  | .arr (x :: xs) => '[' :: (dumps x ++ dumpItems xs)
  | .obj [] => ['{','}']
  | .obj ((k,v) :: kvs) => '{' :: (quote k.toList ++ ':' :: ' ' :: (dumps v ++ dumpFields kvs))

def dumpItems : List Json → List Char
  | [] => [']']
  | x :: xs => ',' :: ' ' :: (dumps x ++ dumpItems xs)

def dumpFields : List (String × Json) → List Char
  | [] => ['}']
  | (k,v) :: kvs => ',' :: ' ' :: (quote k.toList ++ ':' :: ' ' :: (dumps v ++ dumpFields kvs))

end

end Encoder

section Strings

def shortEscape (c : Char) : Option ℕ :=
  if c = '"' ∨ c = '\\' ∨ c = '/' then some c.toNat
  else if c = 'b' then some 8
  else if c = 'f' then some 12
  else if c = 'n' then some 10
  else if c = 'r' then some 13
  else if c = 't' then some 9
  else none

def readUnit : List Char → Option (ℕ × List Char)
  | [] => none
  | c :: rest =>
    if c = '\\' then
      match rest with
      | [] => none
      | e :: rest =>
        if e = 'u' then
          if 4 ≤ rest.length then (hexNumber 0 (rest.take 4)).map (·,rest.drop 4) else none
        else (shortEscape e).map (·,rest)
    else if c.toNat < 32 then none
    else some (c.toNat,rest)

def readUnits : ℕ → List Char → Option (List ℕ × List Char)
  | 0,_ => none
  | fuel+1,text =>
    if text.head? = some '"' then some ([],text.tail)
    else
      match readUnit text with
      | none => none
      | some (u,rest) => (readUnits fuel rest).map fun r => (u :: r.1,r.2)

/-- The letters of the units. Half of a surrogate pair alone is none. -/
def joinUnits : List ℕ → Option (List Char)
  | [] => some []
  | u :: units =>
    if 0xD800 ≤ u ∧ u < 0xDC00 then
      match units with
      | [] => none
      | v :: units =>
        if 0xDC00 ≤ v ∧ v < 0xE000 then
          (joinUnits units).map (Char.ofNat (0x10000+(u-0xD800)*0x400+(v-0xDC00)) :: ·)
        else none
    else if 0xDC00 ≤ u ∧ u < 0xE000 then none
    else (joinUnits units).map (Char.ofNat u :: ·)

def readString (text : List Char) : Option (String × List Char) :=
  match readUnits (text.length+1) text with
  | none => none
  | some (units,rest) => (joinUnits units).map fun s => (String.ofList s,rest)

def unitsOf (c : Char) : List ℕ :=
  if c.toNat < 0x10000 then [c.toNat]
  else [0xD800 + (c.toNat - 0x10000) / 0x400,0xDC00 + (c.toNat - 0x10000) % 0x400]

theorem readUnit_unicodeEscape {unit : ℕ} (h : unit < 0x10000) (rest : List Char) :
    readUnit (unicodeEscape unit ++ rest) = some (unit,rest) := by
  have htake : (hexDigits 4 unit ++ rest).take 4 = hexDigits 4 unit :=
    List.take_left' (length_hexDigits 4 unit)
  have hdrop : (hexDigits 4 unit ++ rest).drop 4 = rest :=
    List.drop_left' (length_hexDigits 4 unit)
  have hnumber : hexNumber 0 (hexDigits 4 unit) = some unit := by
    rw [hexNumber_hexDigits]
    exact congrArg some (by omega)
  simp [unicodeEscape,readUnit,htake,hdrop,hnumber]

/-- An escape is read as the units of its letter. -/
theorem readUnits_escape (fuel : ℕ) (c : Char) (rest : List Char) :
    readUnits (fuel+(unitsOf c).length) (escape c ++ rest) =
      (readUnits fuel rest).map fun r => (unitsOf c ++ r.1,r.2) := by
  have hvalid : c.toNat < 0x110000 := by
    have h := c.valid
    rcases h with h | h
    · exact lt_trans h (by decide)
    · exact h.2
  have hone : ∀ text : List Char, text.head? ≠ some '"' → c.toNat < 0x10000 →
      readUnit text = some (c.toNat,rest) →
      readUnits (fuel+(unitsOf c).length) text =
        (readUnits fuel rest).map fun r => (unitsOf c ++ r.1,r.2) := by
    intro text hquote hsmall hunit
    simp [unitsOf,hsmall,readUnits,hquote,hunit]
  unfold escape
  split_ifs with h₁ h₂ h₃ h₄ h₅ h₆ h₇ h₈ h₉
  · subst h₁
    exact hone _ (by simp) (by decide) (by rfl)
  · subst h₂
    exact hone _ (by simp) (by decide) (by rfl)
  · subst h₃
    exact hone _ (by simp) (by decide) (by rfl)
  · subst h₄
    exact hone _ (by simp) (by decide) (by rfl)
  · subst h₅
    exact hone _ (by simp) (by decide) (by rfl)
  · refine hone _ (by simp) (by omega) ?_
    rw [h₆]
    rfl
  · refine hone _ (by simp) (by omega) ?_
    rw [h₇]
    rfl
  · refine hone _ ?_ (by omega) ?_
    · simpa using h₁
    · have hlow : ¬ c.toNat < 32 := by omega
      simp [readUnit,h₂,hlow]
  · exact hone _ (by simp [unicodeEscape]) h₉ (readUnit_unicodeEscape h₉ rest)
  · have hhigh : 0xD800 + (c.toNat - 0x10000) / 0x400 < 0x10000 := by omega
    have hlow : 0xDC00 + (c.toNat - 0x10000) % 0x400 < 0x10000 := by omega
    have hquote : ∀ unit rest, (unicodeEscape unit ++ rest).head? ≠ some '"' := by
      simp [unicodeEscape]
    rw [List.append_assoc,unitsOf,if_neg h₉]
    show readUnits (fuel+2) _ = _
    rw [readUnits,if_neg (hquote _ _),readUnit_unicodeEscape hhigh]
    show (readUnits (fuel+1) _).map _ = _
    rw [readUnits,if_neg (hquote _ _),readUnit_unicodeEscape hlow]
    dsimp only
    cases readUnits fuel rest <;> rfl

theorem readUnits_quoted (fuel : ℕ) (text rest : List Char) :
    readUnits (fuel+1+(text.flatMap unitsOf).length) (text.flatMap escape ++ '"' :: rest) =
      some (text.flatMap unitsOf,rest) := by
  induction text generalizing fuel with
  | nil => simp [readUnits]
  | cons c text ih =>
    have hfuel : fuel+1+((c :: text).flatMap unitsOf).length =
        (fuel+1+(text.flatMap unitsOf).length)+(unitsOf c).length := by
      simp only [List.flatMap_cons,List.length_append]
      omega
    rw [hfuel,List.flatMap_cons,List.append_assoc,readUnits_escape,ih]
    rfl

theorem joinUnits_letter {u : ℕ} (h : u < 0xD800 ∨ 0xDFFF < u) (units : List ℕ) :
    joinUnits (u :: units) = (joinUnits units).map (Char.ofNat u :: ·) := by
  have hhigh : ¬ (0xD800 ≤ u ∧ u < 0xDC00) := by omega
  have hlow : ¬ (0xDC00 ≤ u ∧ u < 0xE000) := by omega
  rw [joinUnits.eq_def]
  simp only [if_neg hhigh,if_neg hlow]

theorem joinUnits_unitsOf (text : List Char) : joinUnits (text.flatMap unitsOf) = some text := by
  induction text with
  | nil => rfl
  | cons c text ih =>
    have hvalid : c.toNat < 0xD800 ∨ 0xDFFF < c.toNat ∧ c.toNat < 0x110000 := c.valid
    rw [List.flatMap_cons,unitsOf]
    split_ifs with hsmall
    · rw [List.singleton_append,joinUnits_letter (hvalid.imp id And.left),ih,Char.ofNat_toNat]
      rfl
    · have hhigh : 0xD800 ≤ 0xD800+(c.toNat-0x10000)/0x400 ∧
          0xD800+(c.toNat-0x10000)/0x400 < 0xDC00 := by omega
      have hlow : 0xDC00 ≤ 0xDC00+(c.toNat-0x10000)%0x400 ∧
          0xDC00+(c.toNat-0x10000)%0x400 < 0xE000 := by omega
      have hjoin : 0x10000+(0xD800+(c.toNat-0x10000)/0x400-0xD800)*0x400+
          (0xDC00+(c.toNat-0x10000)%0x400-0xDC00) = c.toNat := by omega
      rw [List.cons_append,List.singleton_append,joinUnits,if_pos hhigh]
      show (if _ then _ else none) = _
      rw [if_pos hlow,hjoin,ih,Char.ofNat_toNat]
      rfl

theorem length_unitsOf_le (text : List Char) :
    (text.flatMap unitsOf).length ≤ (text.flatMap escape).length := by
  have hone : ∀ c : Char, (unitsOf c).length ≤ (escape c).length := by
    intro c
    unfold unitsOf escape
    split_ifs
    all_goals first | omega | simp [unicodeEscape]
  induction text with
  | nil => exact le_rfl
  | cons c text ih =>
    simp only [List.flatMap_cons,List.length_append]
    have hc := hone c
    omega

/-- A quoted text is read back, whatever follows it. -/
theorem readString_quote (text rest : List Char) :
    readString (text.flatMap escape ++ '"' :: rest) = some (String.ofList text,rest) := by
  have hle := length_unitsOf_le text
  obtain ⟨fuel,hfuel⟩ : ∃ fuel, (text.flatMap escape ++ '"' :: rest).length+1 =
      fuel+1+(text.flatMap unitsOf).length := by
    refine ⟨(text.flatMap escape ++ '"' :: rest).length-(text.flatMap unitsOf).length,?_⟩
    simp only [List.length_append,List.length_cons]
    omega
  rw [readString,hfuel,readUnits_quoted]
  show (joinUnits _).map _ = _
  rw [joinUnits_unitsOf]
  rfl

end Strings

section Decoder

def isSpace (c : Char) : Bool := c == ' ' || c == '\t' || c == '\n' || c == '\r'

def skip (text : List Char) : List Char := text.dropWhile isSpace

def maxDigits : ℕ := 4300

/-- The digits before the point; nothing follows a leading zero. -/
def wholePart (text : List Char) : List Char :=
  if text.head? = some '0' then ['0'] else text.takeWhile Char.isDigit

def fractionPart : List Char → List Char
  | [] => []
  | c :: rest =>
    let digits := rest.takeWhile Char.isDigit
    if c = '.' ∧ digits ≠ [] then c :: digits else []

def exponentPart : List Char → List Char
  | [] => []
  | c :: rest =>
    let sign := if rest.head? = some '+' ∨ rest.head? = some '-' then rest.take 1 else []
    let digits := (rest.drop sign.length).takeWhile Char.isDigit
    if (c = 'e' ∨ c = 'E') ∧ digits ≠ [] then c :: (sign ++ digits) else []

/-- An object keeps the last value of a key, in the place of its first. -/
def asObject (fields : List (String × Json)) : Json :=
  .obj (fields.foldl (fun d e => d.set e.1 e.2) (Dict.empty : Dict String Json)).entries

variable [Floats]

def readUnsigned (sign text : List Char) : Option (Json × List Char) :=
  let digits := wholePart text
  let rest := text.drop digits.length
  let fraction := fractionPart rest
  let exponent := exponentPart (rest.drop fraction.length)
  if digits = [] then none
  else if fraction = [] ∧ exponent = [] then
    if digits.length ≤ maxDigits then
      let n : ℤ := Nat.ofDigitChars 10 digits 0
      some (.int (if sign = [] then n else -n),rest)
    else none
  else
    (Floats.read (sign ++ digits ++ fraction ++ exponent)).map
      (·,rest.drop (fraction.length+exponent.length))

def readNumber (text : List Char) : Option (Json × List Char) :=
  if text.head? = some '-' then readUnsigned ['-'] text.tail else readUnsigned [] text

def constants : List (String × Option Json) :=
  [("null",some .null),("true",some (.bool true)),("false",some (.bool false)),
    ("NaN",Floats.read "NaN".toList),("Infinity",Floats.read "Infinity".toList),
    ("-Infinity",Floats.read "-Infinity".toList)]

def readConstant (text : List Char) : Option (Json × List Char) :=
  constants.findSome? fun e =>
    if e.1.toList.isPrefixOf text then e.2.map (·,text.drop e.1.length) else none

def readAtom (text : List Char) : Option (Json × List Char) :=
  (readConstant text).or (readNumber text)

def readKey : List Char → Option (String × List Char)
  | [] => none
  | c :: rest =>
    if c = '"' then
      match readString rest with
      | none => none
      | some (key,rest) =>
        if (skip rest).head? = some ':' then some (key,skip (skip rest).tail) else none
    else none

mutual

def readValue : ℕ → List Char → Option (Json × List Char)
  | 0,_ => none
  | _+1,[] => none
  | fuel+1,c :: rest =>
    if c = '"' then (readString rest).map fun r => (.str r.1,r.2)
    else if c = '[' then
      if (skip rest).head? = some ']' then some (.arr [],(skip rest).tail)
      else
        match readValue fuel (skip rest) with
        | none => none
        | some (x,rest) => (readItems fuel rest).map fun r => (.arr (x :: r.1),r.2)
    else if c = '{' then
      if (skip rest).head? = some '}' then some (.obj [],(skip rest).tail)
      else
        match readKey (skip rest) with
        | none => none
        | some (k,rest) =>
          match readValue fuel rest with
          | none => none
          | some (v,rest) => (readFields fuel rest).map fun r => (asObject ((k,v) :: r.1),r.2)
    else readAtom (c :: rest)

def readItems : ℕ → List Char → Option (List Json × List Char)
  | 0,_ => none
  | fuel+1,text =>
    if (skip text).head? = some ']' then some ([],(skip text).tail)
    else if (skip text).head? = some ',' then
      match readValue fuel (skip (skip text).tail) with
      | none => none
      | some (x,rest) => (readItems fuel rest).map fun r => (x :: r.1,r.2)
    else none

def readFields : ℕ → List Char → Option (List (String × Json) × List Char)
  | 0,_ => none
  | fuel+1,text =>
    if (skip text).head? = some '}' then some ([],(skip text).tail)
    else if (skip text).head? = some ',' then
      match readKey (skip (skip text).tail) with
      | none => none
      | some (k,rest) =>
        match readValue fuel rest with
        | none => none
        | some (v,rest) => (readFields fuel rest).map fun r => ((k,v) :: r.1,r.2)
    else none

end

/-- `json.loads`. A text with a byte order mark is refused. -/
def loads (text : List Char) : Option Json :=
  match readValue (text.length+1) (skip text) with
  | none => none
  | some (value,rest) => if skip rest = [] then some value else none

end Decoder

section RoundTrip

mutual

/-- A value without floats and long integers, whose objects have distinct keys. -/
def Plain : Json → Prop
  | .int n => (Nat.toDigits 10 n.natAbs).length ≤ maxDigits
  | .float _ => False
  | .arr xs => PlainItems xs
  | .obj kvs => (kvs.map Prod.fst).Nodup ∧ PlainFields kvs
  | _ => True

def PlainItems : List Json → Prop
  | [] => True
  | x :: xs => Plain x ∧ PlainItems xs

def PlainFields : List (String × Json) → Prop
  | [] => True
  | (_,v) :: kvs => Plain v ∧ PlainFields kvs

end

def Ended (rest : List Char) : Prop :=
  ∀ c ∈ rest.head?, c.isDigit = false ∧ c ≠ '.' ∧ c ≠ 'e' ∧ c ≠ 'E'

theorem skip_of_head {text : List Char} (h : ∀ c ∈ text.head?, isSpace c = false) :
    skip text = text := by
  cases text with
  | nil => rfl
  | cons c rest =>
    rw [skip,List.dropWhile_cons_of_neg]
    simpa using h c rfl

theorem asObject_nodup {fields : List (String × Json)} (h : (fields.map Prod.fst).Nodup) :
    asObject fields = .obj fields := by
  rw [asObject,Dict.entries_foldl_set Prod.fst Prod.snd (by simpa [Dict.keys] using h)]
  simp

theorem isDigit_of_mem_toDigits {n : ℕ} {c : Char} (h : c ∈ Nat.toDigits 10 n) :
    c.isDigit = true :=
  Nat.isDigit_of_mem_toDigits (by decide) (by decide) h

theorem head?_toDigits {n : ℕ} (h : n ≠ 0) : (Nat.toDigits 10 n).head? ≠ some '0' := by
  induction n using Nat.strong_induction_on with
  | _ n ih =>
    rw [Nat.toDigits_eq_if (by decide)]
    split_ifs with hsmall
    · have hall : ∀ m < 10, m ≠ 0 → [Nat.digitChar m].head? ≠ some '0' := by decide
      exact hall n hsmall h
    · rw [List.head?_append_of_ne_nil _ Nat.toDigits_ne_nil]
      exact ih (n/10) (by omega) (by omega)

theorem wholePart_toDigits (n : ℕ) {rest : List Char} (hrest : Ended rest) :
    wholePart (Nat.toDigits 10 n ++ rest) = Nat.toDigits 10 n := by
  rw [wholePart,List.head?_append_of_ne_nil _ Nat.toDigits_ne_nil]
  by_cases hzero : n = 0
  · rw [hzero,Nat.toDigits_zero]
    rfl
  · rw [if_neg (head?_toDigits hzero),
      List.takeWhile_append_of_pos fun c hc => isDigit_of_mem_toDigits hc]
    cases rest with
    | nil => simp
    | cons c rest => simp [(hrest c rfl).1]

theorem fractionPart_ended {rest : List Char} (h : Ended rest) : fractionPart rest = [] := by
  cases rest with
  | nil => rfl
  | cons c rest => simp [fractionPart,(h c rfl).2.1]

theorem exponentPart_ended {rest : List Char} (h : Ended rest) : exponentPart rest = [] := by
  cases rest with
  | nil => rfl
  | cons c rest => simp [exponentPart,(h c rfl).2.2.1,(h c rfl).2.2.2]

theorem toDigits_cons (n : ℕ) :
    ∃ d rest, Nat.toDigits 10 n = d :: rest ∧ d.isDigit = true := by
  obtain ⟨d,rest,htext⟩ := List.exists_cons_of_ne_nil (Nat.toDigits_ne_nil (n:=n) (b:=10))
  exact ⟨d,rest,htext,isDigit_of_mem_toDigits (by rw [htext]; exact List.mem_cons_self)⟩

theorem intText_cons (n : ℤ) : ∃ c rest, intText n = c :: rest ∧
    (c.isDigit = true ∨ c = '-' ∧ ∃ d rest', rest = d :: rest' ∧ d.isDigit = true) := by
  obtain ⟨d,rest,htext,hd⟩ := toDigits_cons n.natAbs
  rw [intText,htext]
  split_ifs
  · exact ⟨'-',_,rfl,.inr ⟨rfl,d,rest,rfl,hd⟩⟩
  · exact ⟨d,rest,rfl,.inl hd⟩

theorem ne_of_isDigit {c d : Char} (hc : c.isDigit = true) (hd : d.isDigit = false) : c ≠ d := by
  rintro rfl
  rw [hc] at hd
  cases hd

variable [Floats]

theorem readUnsigned_toDigits {n : ℕ} (hn : (Nat.toDigits 10 n).length ≤ maxDigits)
    {rest : List Char} (hrest : Ended rest) (sign : List Char) :
    readUnsigned sign (Nat.toDigits 10 n ++ rest) =
      some (.int (if sign = [] then n else -n),rest) := by
  simp [readUnsigned,wholePart_toDigits n hrest,fractionPart_ended hrest,exponentPart_ended hrest,
    hn]

theorem readNumber_intText {n : ℤ} (hn : (Nat.toDigits 10 n.natAbs).length ≤ maxDigits)
    {rest : List Char} (hrest : Ended rest) :
    readNumber (intText n ++ rest) = some (.int n,rest) := by
  rw [intText]
  split_ifs with hneg
  · rw [readNumber,if_pos (by rfl)]
    show readUnsigned ['-'] (Nat.toDigits 10 n.natAbs ++ rest) = _
    rw [readUnsigned_toDigits hn hrest,if_neg (by simp)]
    congr
    omega
  · have hhead : (Nat.toDigits 10 n.natAbs ++ rest).head? ≠ some '-' := by
      rw [List.head?_append_of_ne_nil _ Nat.toDigits_ne_nil]
      intro hminus
      have hdigit := isDigit_of_mem_toDigits (List.mem_of_mem_head? hminus)
      cases hdigit
    rw [readNumber,if_neg hhead,readUnsigned_toDigits hn hrest,if_pos rfl]
    congr
    omega

theorem readConstant_intText (n : ℤ) (rest : List Char) :
    readConstant (intText n ++ rest) = none := by
  obtain ⟨c,digits,htext,hc⟩ := intText_cons n
  rw [htext]
  obtain hc | ⟨rfl,d,digits,rfl,hd⟩ := hc
  · have hne := fun e (he : Char.isDigit e = false) => (ne_of_isDigit hc he).symm
    simp [readConstant,constants,hne 'n' rfl,hne 't' rfl,hne 'f' rfl,hne 'N' rfl,hne 'I' rfl,
      hne '-' rfl]
  · simp [readConstant,constants,(ne_of_isDigit hd (d := 'I') rfl).symm]

theorem dumps_cons {j : Json} (h : Plain j) :
    ∃ c rest, dumps j = c :: rest ∧ isSpace c = false ∧ c ≠ ']' ∧ c ≠ '}' := by
  cases j with
  | null => exact ⟨'n',_,rfl,by decide⟩
  | bool b => cases b with
    | true => exact ⟨'t',_,rfl,by decide⟩
    | false => exact ⟨'f',_,rfl,by decide⟩
  | int n =>
    obtain ⟨c,rest,htext,hc⟩ := intText_cons n
    refine ⟨c,rest,htext,?_⟩
    obtain hc | ⟨rfl,_⟩ := hc
    · have hne := fun e (he : Char.isDigit e = false) => ne_of_isDigit hc he
      simp [isSpace,hne]
    · decide
  | float q => exact absurd h (by simp [Plain])
  | str s => exact ⟨'"',_,rfl,by decide⟩
  | arr xs => cases xs with
    | nil => exact ⟨'[',_,rfl,by decide⟩
    | cons x xs => exact ⟨'[',_,rfl,by decide⟩
  | obj kvs => cases kvs with
    | nil => exact ⟨'{',_,rfl,by decide⟩
    | cons e kvs => exact ⟨'{',_,rfl,by decide⟩

theorem ended_dumpItems (xs : List Json) (rest : List Char) : Ended (dumpItems xs ++ rest) := by
  intro c hc
  cases xs with
  | nil =>
    obtain rfl := Option.some.inj hc
    decide
  | cons x xs =>
    obtain rfl := Option.some.inj hc
    decide

theorem ended_dumpFields (kvs : List (String × Json)) (rest : List Char) :
    Ended (dumpFields kvs ++ rest) := by
  intro c hc
  cases kvs with
  | nil =>
    obtain rfl := Option.some.inj hc
    decide
  | cons e kvs =>
    obtain rfl := Option.some.inj hc
    decide

theorem skip_dumps {j : Json} (h : Plain j) (rest : List Char) :
    skip (dumps j ++ rest) = dumps j ++ rest ∧ (dumps j ++ rest).head? ≠ some ']' := by
  obtain ⟨c,text,htext,hspace,hbracket,_⟩ := dumps_cons h
  rw [htext]
  refine ⟨skip_of_head fun d hd => ?_,fun hhead => hbracket (Option.some.inj hhead)⟩
  rw [← Option.some.inj hd]
  exact hspace

omit [Floats] in
theorem skip_quote (k rest : List Char) :
    skip (quote k ++ rest) = quote k ++ rest ∧ (quote k ++ rest).head? ≠ some '}' :=
  ⟨rfl,by simp [quote]⟩

omit [Floats] in
theorem readKey_quote (k : String) (rest : List Char)
    (hrest : ∀ c ∈ rest.head?, isSpace c = false) :
    readKey (quote k.toList ++ ':' :: ' ' :: rest) = some (k,rest) := by
  have htext : quote k.toList ++ ':' :: ' ' :: rest =
      '"' :: (k.toList.flatMap escape ++ '"' :: ':' :: ' ' :: rest) := by
    simp [quote]
  have hcolon : skip (':' :: ' ' :: rest) = ':' :: ' ' :: rest := rfl
  have hspace : skip (' ' :: rest) = rest := skip_of_head hrest
  rw [htext,readKey,if_pos rfl,readString_quote]
  simp only [hcolon,List.head?_cons,if_true,List.tail_cons,hspace,String.ofList_toList]

theorem readKey_field (k : String) {v : Json} (hv : Plain v) (rest : List Char) :
    readKey (quote k.toList ++ ':' :: ' ' :: (dumps v ++ rest)) = some (k,dumps v ++ rest) := by
  obtain ⟨c,text,htext,hspace,_⟩ := dumps_cons hv
  refine readKey_quote k _ fun d hd => ?_
  rw [htext] at hd
  rw [← Option.some.inj hd]
  exact hspace

mutual

/-- What the encoder writes is read back, whatever follows it. -/
theorem readValue_dumps (j : Json) (fuel : ℕ) (rest : List Char) (h : Plain j)
    (hfuel : (dumps j).length ≤ fuel) (hrest : Ended rest) :
    readValue fuel (dumps j ++ rest) = some (j,rest) := by
  match j,fuel with
  | .null,fuel+1 => rfl
  | .bool true,fuel+1 => rfl
  | .bool false,fuel+1 => rfl
  | .int n,fuel+1 =>
    obtain ⟨c,text,htext,hc⟩ := intText_cons n
    have hatom : readAtom (intText n ++ rest) = some (.int n,rest) := by
      rw [readAtom,readConstant_intText,Option.none_or,readNumber_intText h hrest]
    have hhead : c ≠ '"' ∧ c ≠ '[' ∧ c ≠ '{' := by
      obtain hc | ⟨rfl,_⟩ := hc
      · exact ⟨ne_of_isDigit hc rfl,ne_of_isDigit hc rfl,ne_of_isDigit hc rfl⟩
      · decide
    rw [htext] at hatom
    rw [dumps,htext,List.cons_append,readValue,if_neg hhead.1,if_neg hhead.2.1,if_neg hhead.2.2]
    exact hatom
  | .str s,fuel+1 =>
    have htext : dumps (.str s) ++ rest = '"' :: (s.toList.flatMap escape ++ '"' :: rest) := by
      simp [dumps,quote]
    rw [htext,readValue,if_pos rfl,readString_quote,String.ofList_toList]
    rfl
  | .arr [],fuel+1 => rfl
  | .arr (x :: xs),fuel+1 =>
    obtain ⟨hx,hxs⟩ := h
    rw [dumps,List.length_cons,List.length_append] at hfuel
    obtain ⟨hskip,hopen⟩ := skip_dumps hx (dumpItems xs ++ rest)
    have hitem := readValue_dumps x fuel (dumpItems xs ++ rest) hx (by omega)
      (ended_dumpItems xs rest)
    have hitems := readItems_dumpItems xs fuel rest hxs (by omega)
    rw [dumps,List.cons_append,List.append_assoc,readValue,if_neg (by decide),if_pos rfl,hskip,
      if_neg hopen,hitem]
    simp only [hitems,Option.map_some]
  | .obj [],fuel+1 => rfl
  | .obj ((k,v) :: kvs),fuel+1 =>
    obtain ⟨hnodup,hv,hkvs⟩ := h
    simp only [dumps,List.length_cons,List.length_append] at hfuel
    have hkey := readKey_field k hv (dumpFields kvs ++ rest)
    have hvalue := readValue_dumps v fuel (dumpFields kvs ++ rest) hv (by omega)
      (ended_dumpFields kvs rest)
    have hfields := readFields_dumpFields kvs fuel rest hkvs (by omega)
    have htext : dumps (.obj ((k,v) :: kvs)) ++ rest =
        '{' :: (quote k.toList ++ ':' :: ' ' :: (dumps v ++ (dumpFields kvs ++ rest))) := by
      simp [dumps]
    rw [htext,readValue,if_neg (by decide),if_neg (by decide),if_pos rfl,(skip_quote _ _).1,
      if_neg (skip_quote _ _).2,hkey]
    simp only [hvalue,hfields,Option.map_some,asObject_nodup hnodup]
  | j,0 =>
    obtain ⟨c,text,htext,_⟩ := dumps_cons h
    simp [htext] at hfuel

theorem readItems_dumpItems (xs : List Json) (fuel : ℕ) (rest : List Char) (h : PlainItems xs)
    (hfuel : (dumpItems xs).length ≤ fuel) :
    readItems fuel (dumpItems xs ++ rest) = some (xs,rest) := by
  match xs,fuel with
  | [],fuel+1 => rfl
  | x :: xs,fuel+1 =>
    obtain ⟨hx,hxs⟩ := h
    simp only [dumpItems,List.length_cons,List.length_append] at hfuel
    have hskip := (skip_dumps hx (dumpItems xs ++ rest)).1
    have hitem := readValue_dumps x fuel (dumpItems xs ++ rest) hx (by omega)
      (ended_dumpItems xs rest)
    have hitems := readItems_dumpItems xs fuel rest hxs (by omega)
    have htext : skip (dumpItems (x :: xs) ++ rest) =
        ',' :: ' ' :: (dumps x ++ (dumpItems xs ++ rest)) := by
      rw [dumpItems,List.cons_append,List.cons_append,List.append_assoc]
      rfl
    have hspace : skip (' ' :: (dumps x ++ (dumpItems xs ++ rest))) =
        dumps x ++ (dumpItems xs ++ rest) := hskip
    rw [readItems,htext,if_neg (by simp),if_pos (List.head?_cons ..),List.tail_cons,hspace,hitem]
    simp only [hitems,Option.map_some]
  | xs,0 => cases xs <;> simp [dumpItems] at hfuel

theorem readFields_dumpFields (kvs : List (String × Json)) (fuel : ℕ) (rest : List Char)
    (h : PlainFields kvs) (hfuel : (dumpFields kvs).length ≤ fuel) :
    readFields fuel (dumpFields kvs ++ rest) = some (kvs,rest) := by
  match kvs,fuel with
  | [],fuel+1 => rfl
  | (k,v) :: kvs,fuel+1 =>
    obtain ⟨hv,hkvs⟩ := h
    simp only [dumpFields,List.length_cons,List.length_append] at hfuel
    have hkey := readKey_field k hv (dumpFields kvs ++ rest)
    have hvalue := readValue_dumps v fuel (dumpFields kvs ++ rest) hv (by omega)
      (ended_dumpFields kvs rest)
    have hfields := readFields_dumpFields kvs fuel rest hkvs (by omega)
    have htext : skip (dumpFields ((k,v) :: kvs) ++ rest) = ',' :: ' ' ::
        (quote k.toList ++ ':' :: ' ' :: (dumps v ++ (dumpFields kvs ++ rest))) := by
      have hcomma : dumpFields ((k,v) :: kvs) ++ rest = ',' :: ' ' ::
          (quote k.toList ++ ':' :: ' ' :: (dumps v ++ (dumpFields kvs ++ rest))) := by
        simp [dumpFields]
      rw [hcomma]
      rfl
    have hspace : ∀ text, skip (' ' :: (quote k.toList ++ text)) = quote k.toList ++ text :=
      fun _ => rfl
    rw [readFields,htext,if_neg (by simp),if_pos (List.head?_cons ..),List.tail_cons,hspace,hkey]
    simp only [hvalue,hfields,Option.map_some]
  | kvs,0 => cases kvs <;> simp [dumpFields] at hfuel

end

theorem loads_dumps {j : Json} (h : Plain j) : loads (dumps j) = some j := by
  have hskip := (skip_dumps h []).1
  rw [List.append_nil] at hskip
  have hread := readValue_dumps j ((dumps j).length+1) [] h (Nat.le_succ _) (by simp [Ended])
  rw [List.append_nil] at hread
  rw [loads,hskip,hread]
  rfl

end RoundTrip

section Sorted

open Json

theorem plainFields_iff {kvs : List (String × Json)} :
    PlainFields kvs ↔ ∀ e ∈ kvs, Plain e.2 := by
  induction kvs with
  | nil => simp [PlainFields]
  | cons e rest ih =>
    rw [List.forall_mem_cons,← ih]
    rfl

theorem plain_texts (fields : List (String × String)) (h : (fields.map Prod.fst).Nodup) :
    Plain (.obj (fields.map fun e => (e.1,.str e.2))) := by
  refine ⟨by simpa [List.map_map,Function.comp_def] using h,plainFields_iff.mpr fun e he => ?_⟩
  obtain ⟨e',_,rfl⟩ := List.mem_map.mp he
  trivial

theorem insertField_perm (field : String × Json) (kvs : List (String × Json)) :
    (insertField field kvs).Perm (field :: kvs) := by
  induction kvs with
  | nil => exact List.Perm.refl _
  | cons other rest ih =>
    rw [insertField]
    split_ifs
    · exact (ih.cons other).trans (List.Perm.swap _ _ _)
    · exact List.Perm.refl _

theorem sortFields_perm (kvs : List (String × Json)) :
    (sortFields kvs).Perm (kvs.map fun e => (e.1,e.2.sortKeys)) := by
  induction kvs with
  | nil => exact List.Perm.refl _
  | cons e rest ih =>
    rw [sortFields]
    exact (insertField_perm _ _).trans (ih.cons _)

theorem keys_sortFields (kvs : List (String × Json)) :
    ((sortFields kvs).map Prod.fst).Perm (kvs.map Prod.fst) := by
  simpa [List.map_map,Function.comp_def] using (sortFields_perm kvs).map Prod.fst

mutual

theorem plain_sortKeys : ∀ (j : Json), Plain j → Plain j.sortKeys
  | .null,h | .bool _,h | .int _,h | .float _,h | .str _,h => h
  | .arr xs,h => plain_sortItems xs h
  | .obj kvs,h => by
    refine ⟨(keys_sortFields kvs).nodup_iff.mpr h.1,plainFields_iff.mpr fun e he => ?_⟩
    obtain ⟨e',he',rfl⟩ := List.mem_map.mp ((sortFields_perm kvs).mem_iff.mp he)
    exact plain_sortFields kvs h.2 e' he'

theorem plain_sortItems : ∀ (xs : List Json), PlainItems xs → PlainItems (sortItems xs)
  | [],_ => trivial
  | x :: xs,h => ⟨plain_sortKeys x h.1,plain_sortItems xs h.2⟩

theorem plain_sortFields : ∀ (kvs : List (String × Json)), PlainFields kvs →
    ∀ e ∈ kvs, Plain e.2.sortKeys
  | (_,v) :: kvs,h,e,he => by
    rcases List.mem_cons.mp he with rfl | he
    · exact plain_sortKeys v h.1
    · exact plain_sortFields kvs h.2 e he

end

theorem get?_eq_some_iff {kvs : List (String × Json)} (h : (kvs.map Prod.fst).Nodup) {k : String}
    {v : Json} : (Json.obj kvs).get? k = some v ↔ (k,v) ∈ kvs := by
  rw [Json.get?,Option.map_eq_some_iff]
  constructor
  · rintro ⟨e,he,rfl⟩
    have hkey : e.1 = k := by simpa using List.find?_some he
    exact hkey ▸ List.mem_of_find?_eq_some he
  · intro hmem
    cases hfound : kvs.find? (fun e => e.1 = k) with
    | none => simpa using List.find?_eq_none.mp hfound _ hmem
    | some e =>
      have hkey : e.1 = k := by simpa using List.find?_some hfound
      exact ⟨e,rfl,congrArg Prod.snd
        (List.inj_on_of_nodup_map h (List.mem_of_find?_eq_some hfound) hmem hkey)⟩

theorem get?_sortFields {kvs : List (String × Json)} (h : (kvs.map Prod.fst).Nodup) (k : String) :
    (Json.obj (sortFields kvs)).get? k = ((Json.obj kvs).get? k).map Json.sortKeys := by
  ext v
  rw [get?_eq_some_iff ((keys_sortFields kvs).nodup_iff.mpr h),(sortFields_perm kvs).mem_iff,
    Option.map_eq_some_iff,List.mem_map]
  constructor
  · rintro ⟨⟨k',v'⟩,hmem,heq⟩
    obtain ⟨rfl,rfl⟩ := Prod.mk.inj heq
    exact ⟨v',(get?_eq_some_iff h).mpr hmem,rfl⟩
  · rintro ⟨v',hget,rfl⟩
    exact ⟨(k,v'),(get?_eq_some_iff h).mp hget,rfl⟩

end Sorted

end JsonText
end LeadEngine
