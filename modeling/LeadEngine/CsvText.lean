import Mathlib.Data.List.Basic

/-! Comma-separated text as a reader in the manner of Python's `csv` module takes it apart: the
machine, character by character and line by line, and the language that it accepts. -/
namespace LeadEngine
namespace CsvText

inductive State
  | startRecord | startField | inField | inQuotedField | quoteInQuotedField | eatCrnl
  deriving DecidableEq

inductive CsvError
  | newLine | fieldLimit
  deriving DecidableEq

/-- The state of a reader, the field that it is in and the fields of the record before it. -/
structure Reader where
  state : State
  field : List Char
  fields : List (List Char)
  deriving DecidableEq

def Reader.fresh : Reader := ⟨.startRecord,[],[]⟩

def Reader.saveField (r : Reader) (next : State) : Reader := ⟨next,[],r.fields ++ [r.field]⟩

def Newline (c : Char) : Prop := c = '\n' ∨ c = '\r'

instance (c : Char) : Decidable (Newline c) := by unfold Newline; infer_instance

section Machine

variable (limit : ℕ)

def Reader.addChar (r : Reader) (c : Char) (next : State) : Except CsvError Reader :=
  if limit ≤ r.field.length then .error .fieldLimit else .ok ⟨next,r.field ++ [c],r.fields⟩

def Reader.startField (r : Reader) (c : Char) : Except CsvError Reader :=
  if Newline c then .ok (r.saveField .eatCrnl)
  else if c = '"' then .ok ⟨.inQuotedField,r.field,r.fields⟩
  else if c = ',' then .ok (r.saveField .startField)
  else r.addChar limit c .inField

/-- One character. A quotation mark that follows the closing one of a quoted field is kept, and
what else follows it is read as if the field had no quotation marks. -/
def Reader.processChar (r : Reader) (c : Char) : Except CsvError Reader :=
  match r.state with
  | .startRecord =>
    if Newline c then .ok ⟨.eatCrnl,r.field,r.fields⟩ else r.startField limit c
  | .startField => r.startField limit c
  | .inField =>
    if Newline c then .ok (r.saveField .eatCrnl)
    else if c = ',' then .ok (r.saveField .startField)
    else r.addChar limit c .inField
  | .inQuotedField =>
    if c = '"' then .ok ⟨.quoteInQuotedField,r.field,r.fields⟩
    else r.addChar limit c .inQuotedField
  | .quoteInQuotedField =>
    if c = '"' then r.addChar limit c .inQuotedField
    else if c = ',' then .ok (r.saveField .startField)
    else if Newline c then .ok (r.saveField .eatCrnl)
    else r.addChar limit c .inField
  | .eatCrnl => if Newline c then .ok r else .error .newLine

def Reader.endLine (r : Reader) : Reader :=
  match r.state with
  | .startRecord | .inQuotedField => r
  | .startField | .inField | .quoteInQuotedField => r.saveField .startRecord
  | .eatCrnl => ⟨.startRecord,r.field,r.fields⟩

def Reader.line (r : Reader) : List Char → Except CsvError Reader
  | [] => .ok r.endLine
  | c :: text => (r.processChar limit c).bind fun r' => r'.line text

/-- The records of the lines. A line that ends inside a quoted field is continued by the next
one, and by the end of the input if there is none. -/
def Reader.records (r : Reader) : List (List Char) → Except CsvError (List (List (List Char)))
  | [] =>
    if r.state = .inQuotedField ∨ r.field ≠ [] then .ok [(r.saveField .startRecord).fields]
    else .ok []
  | text :: rest =>
    (r.line limit text).bind fun r' =>
      if r'.state = .startRecord then (Reader.fresh.records rest).map (r'.fields :: ·)
      else r'.records rest

end Machine

def lines : List Char → List (List Char)
  | [] => []
  | c :: text =>
    if c = '\n' then [c] :: lines text
    else
      match lines text with
      | [] => [[c]]
      | line :: rest => (c :: line) :: rest

def read (limit : ℕ) (text : List Char) : Except CsvError (List (List (List Char))) :=
  Reader.fresh.records limit (lines text)

section Flat

variable {limit : ℕ}

/-- Reading without taking the text into lines: a line feed outside quotation marks is where a
record ends. -/
def Reader.text (limit : ℕ) (r : Reader) :
    List Char → Except CsvError (List (List (List Char)))
  | [] =>
    if r.state = .startRecord then .ok []
    else .ok [(if r.state = .eatCrnl then r else r.saveField .startRecord).fields]
  | c :: rest =>
    (r.processChar limit c).bind fun r' =>
      if c = '\n' ∧ r'.state = .eatCrnl then (Reader.fresh.text limit rest).map (r'.fields :: ·)
      else r'.text limit rest

theorem processChar_ok {r r' : Reader} {c : Char} (h : r.processChar limit c = .ok r') :
    r'.state ≠ .startRecord ∧ (Newline c → r'.state = .eatCrnl ∨ r'.state = .inQuotedField) := by
  have hquote : ¬ Newline '"' := by decide
  have hcomma : ¬ Newline ',' := by decide
  cases hstate : r.state <;>
    simp only [Reader.processChar,hstate,Reader.startField,Reader.addChar,Reader.saveField] at h <;>
    split_ifs at h <;> cases h <;> simp_all

theorem endLine_state (r : Reader) :
    r.endLine.state = .startRecord ∨ r.endLine.state = .inQuotedField := by
  cases hstate : r.state <;> simp [Reader.endLine,Reader.saveField,hstate]

theorem line_state {r r' : Reader} {text : List Char} (h : r.line limit text = .ok r') :
    r'.state = .startRecord ∨ r'.state = .inQuotedField := by
  induction text generalizing r with
  | nil =>
    obtain rfl := Except.ok.inj h
    exact endLine_state r
  | cons c text ih =>
    rw [Reader.line] at h
    cases hc : r.processChar limit c with
    | error e => rw [hc] at h; cases h
    | ok r₁ =>
      rw [hc] at h
      exact ih h

theorem lines_append {line rest : List Char} (h : '\n' ∉ line) :
    lines (line ++ '\n' :: rest) = (line ++ ['\n']) :: lines rest := by
  induction line with
  | nil => simp [lines]
  | cons c line ih =>
    simp only [List.mem_cons,not_or] at h
    simp [lines,ih h.2,Ne.symm h.1]

theorem lines_last {line : List Char} (h : '\n' ∉ line) (hne : line ≠ []) :
    lines line = [line] := by
  induction line with
  | nil => exact absurd rfl hne
  | cons c line ih =>
    simp only [List.mem_cons,not_or] at h
    cases line with
    | nil => simp [lines,Ne.symm h.1]
    | cons d line =>
      rw [lines,if_neg (Ne.symm h.1),ih h.2 (by simp)]

theorem text_line {line : List Char} (h : '\n' ∉ line) (r : Reader) (rest : List Char) :
    r.text limit (line ++ '\n' :: rest) =
      (r.line limit (line ++ ['\n'])).bind fun r' =>
        if r'.state = .startRecord then (Reader.fresh.text limit rest).map (r'.fields :: ·)
        else r'.text limit rest := by
  induction line generalizing r with
  | nil =>
    simp only [List.nil_append,Reader.text,Reader.line]
    cases hc : r.processChar limit '\n' with
    | error e => rfl
    | ok r₁ =>
      simp only [Except.bind,true_and]
      rcases (processChar_ok hc).2 (.inl rfl) with hstate | hstate <;>
        simp [Reader.endLine,hstate]
  | cons c line ih =>
    simp only [List.mem_cons,not_or] at h
    simp only [List.cons_append,Reader.text,Reader.line]
    cases hc : r.processChar limit c with
    | error e => rfl
    | ok r₁ => simpa [Except.bind,Ne.symm h.1] using ih h.2 r₁

theorem text_last {line : List Char} (h : '\n' ∉ line) {r : Reader}
    (hr : r.state ≠ .startRecord ∨ line ≠ []) :
    r.text limit line =
      (r.line limit line).bind fun r' =>
        if r'.state = .startRecord then .ok [r'.fields] else r'.records limit [] := by
  induction line generalizing r with
  | nil =>
    have hstart : r.state ≠ .startRecord := hr.resolve_right (by simp)
    simp only [Reader.text,Reader.line,hstart,if_false,Except.bind]
    cases hstate : r.state <;> simp_all [Reader.endLine,Reader.saveField,Reader.records]
  | cons c line ih =>
    simp only [List.mem_cons,not_or] at h
    simp only [Reader.text,Reader.line]
    cases hc : r.processChar limit c with
    | error e => rfl
    | ok r₁ =>
      simpa [Except.bind,Ne.symm h.1] using ih h.2 (.inl (processChar_ok hc).1)

theorem records_eq_text {r : Reader} (hr : r = .fresh ∨ r.state = .inQuotedField)
    (text : List Char) : r.records limit (lines text) = r.text limit text := by
  induction hn : text.length using Nat.strongRecOn generalizing text r with
  | _ n ih =>
    by_cases hfeed : '\n' ∈ text
    · obtain ⟨line,rest,rfl,hline⟩ := List.eq_append_cons_of_mem hfeed
      have hshort : rest.length < n := by
        rw [← hn,List.length_append,List.length_cons]
        omega
      rw [text_line hline,lines_append hline,Reader.records]
      cases hc : r.line limit (line ++ ['\n']) with
      | error e => rfl
      | ok r₁ =>
        simp only [Except.bind]
        rcases line_state hc with hstate | hstate
        · rw [if_pos hstate,if_pos hstate,ih _ hshort (.inl rfl) rest rfl]
        · rw [if_neg (by simp [hstate]),if_neg (by simp [hstate]),
            ih _ hshort (.inr hstate) rest rfl]
    · cases text with
      | nil =>
        rcases hr with rfl | hr
        · rfl
        · simp [lines,Reader.records,Reader.text,hr]
      | cons c text =>
        rw [lines_last hfeed (by simp),text_last hfeed (.inr (by simp)),Reader.records]
        rfl

theorem read_eq_text (text : List Char) : read limit text = Reader.fresh.text limit text :=
  records_eq_text (.inl rfl) text

end Flat

section Language

def Plain (v : List Char) : Prop := (∀ c ∈ v, c ≠ ',' ∧ ¬ Newline c) ∧ v.head? ≠ some '"'

def double (v : List Char) : List Char := v.flatMap fun c => if c = '"' then ['"','"'] else [c]

/-- A field and a text for it. What follows the closing quotation mark belongs to the field. -/
inductive Cell : List Char → List Char → Prop
  | bare {v : List Char} (h : Plain v) : Cell v v
  | quoted (v : List Char) {tail : List Char} (h : Plain tail) :
      Cell (v ++ tail) ('"' :: (double v ++ '"' :: tail))

inductive Fields : List (List Char) → List Char → Prop
  | last {v t : List Char} (h : Cell v t) : Fields [v] t
  | cons {v t ts : List Char} {vs : List (List Char)} (h : Cell v t) (hrest : Fields vs ts) :
      Fields (v :: vs) (t ++ ',' :: ts)

/-- Fields of which the last is quoted to the end of the input. -/
inductive OpenFields : List (List Char) → List Char → Prop
  | last (v : List Char) : OpenFields [v] ('"' :: double v)
  | cons {v t ts : List Char} {vs : List (List Char)} (h : Cell v t) (hrest : OpenFields vs ts) :
      OpenFields (v :: vs) (t ++ ',' :: ts)

/-- A record without the end of its line; a blank line has no fields. -/
def Line (cells : List (List Char)) (t : List Char) : Prop :=
  cells = [] ∧ t = [] ∨ Fields cells t ∧ t ≠ []

/-- The records of a text. A line ends with a line feed that any number of carriage returns may
precede, the last one also without the line feed. -/
inductive Records : List (List (List Char)) → List Char → Prop
  | nil : Records [] []
  | cons {cells : List (List Char)} {t rest : List Char} {rs : List (List (List Char))}
      (h : Line cells t) (n : ℕ) (hrest : Records rs rest) :
      Records (cells :: rs) (t ++ (List.replicate n '\r' ++ '\n' :: rest))
  | last {cells : List (List Char)} {t : List Char} (h : Line cells t) (n : ℕ)
      (hne : t ++ List.replicate n '\r' ≠ []) : Records [cells] (t ++ List.replicate n '\r')
  | unclosed {cells : List (List Char)} {t : List Char} (h : OpenFields cells t) :
      Records [cells] t

def Within (limit : ℕ) (rs : List (List (List Char))) : Prop :=
  ∀ cells ∈ rs, ∀ v ∈ cells, v.length ≤ limit

instance (limit : ℕ) (rs : List (List (List Char))) : Decidable (Within limit rs) := by
  unfold Within; infer_instance

end Language

section Forward

variable (limit : ℕ) (fs : List (List Char))

def AtEnd (rest : List Char) : Prop := ∀ c ∈ rest.head?, Newline c

def Closing (s : State) : Prop := s = .startField ∨ s = .inField ∨ s = .quoteInQuotedField

theorem text_inField {v : List Char} (h : ∀ c ∈ v, c ≠ ',' ∧ ¬ Newline c) {f : List Char}
    (hf : f.length ≤ limit) (rest : List Char) :
    (Reader.mk .inField f fs).text limit (v ++ rest) =
      if f.length+v.length ≤ limit then (Reader.mk .inField (f ++ v) fs).text limit rest
      else .error .fieldLimit := by
  induction v generalizing f with
  | nil => simp [hf]
  | cons c v ih =>
    obtain ⟨⟨hcomma,hline⟩,hv⟩ := List.forall_mem_cons.mp h
    have hfeed : c ≠ '\n' := fun hc => hline (.inl hc)
    by_cases hfull : limit ≤ f.length
    · have hlong : ¬ f.length+(c :: v).length ≤ limit := by
        rw [List.length_cons]
        omega
      rw [if_neg hlong]
      simp [Reader.text,Reader.processChar,Reader.addChar,hline,hcomma,hfull,Except.bind]
    · have hnext : (f ++ [c]).length ≤ limit := by
        rw [List.length_append,List.length_singleton]
        omega
      have hstep := ih hv hnext
      rw [List.length_append,List.length_singleton,List.append_assoc,List.singleton_append] at hstep
      rw [List.cons_append,Reader.text,List.length_cons,Nat.add_comm v.length,← Nat.add_assoc,
        ← hstep]
      simp [Reader.processChar,Reader.addChar,hline,hcomma,hfull,hfeed,Except.bind]

theorem text_double (v : List Char) {f : List Char} (hf : f.length ≤ limit) (rest : List Char) :
    (Reader.mk .inQuotedField f fs).text limit (double v ++ rest) =
      if f.length+v.length ≤ limit then (Reader.mk .inQuotedField (f ++ v) fs).text limit rest
      else .error .fieldLimit := by
  induction v generalizing f with
  | nil => simp [double,hf]
  | cons c v ih =>
    have hdouble : double (c :: v) = (if c = '"' then ['"','"'] else [c]) ++ double v := rfl
    by_cases hfull : limit ≤ f.length
    · have hlong : ¬ f.length+(c :: v).length ≤ limit := by
        rw [List.length_cons]
        omega
      rw [if_neg hlong,hdouble]
      by_cases hc : c = '"'
      · simp [hc,Reader.text,Reader.processChar,Reader.addChar,hfull,Except.bind]
      · simp [hc,Reader.text,Reader.processChar,Reader.addChar,hfull,Except.bind]
    · have hnext : (f ++ [c]).length ≤ limit := by
        rw [List.length_append,List.length_singleton]
        omega
      have hstep := ih hnext
      rw [List.length_append,List.length_singleton,List.append_assoc,List.singleton_append] at hstep
      rw [hdouble,List.length_cons,Nat.add_comm v.length,← Nat.add_assoc,← hstep]
      by_cases hc : c = '"'
      · subst hc
        simp [Reader.text,Reader.processChar,Reader.addChar,hfull,Except.bind]
      · simp [Reader.text,Reader.processChar,Reader.addChar,hfull,hc,Except.bind]

theorem text_plain {v : List Char} (h : Plain v) {s : State}
    (hs : s = .startField ∨ s = .quoteInQuotedField) {f : List Char} (hf : f.length ≤ limit) :
    ∃ s', Closing s' ∧ ∀ rest : List Char,
      (Reader.mk s f fs).text limit (v ++ rest) =
        if f.length+v.length ≤ limit then (Reader.mk s' (f ++ v) fs).text limit rest
        else .error .fieldLimit := by
  cases v with
  | nil =>
    refine ⟨s,?_,fun rest => by simp [hf]⟩
    rcases hs with rfl | rfl
    · exact .inl rfl
    · exact .inr (.inr rfl)
  | cons c v =>
    refine ⟨.inField,.inr (.inl rfl),fun rest => ?_⟩
    obtain ⟨hcomma,hline⟩ := h.1 c (List.mem_cons_self ..)
    have hquote : c ≠ '"' := fun hc => h.2 (congrArg some hc)
    rw [← text_inField limit fs h.1 hf rest]
    rcases hs with rfl | rfl <;>
      simp [Reader.text,Reader.processChar,Reader.startField,Reader.addChar,hline,hcomma,hquote]

/-- A field is read to its end, unless it is too long. -/
theorem text_cell {v t : List Char} (h : Cell v t) :
    ∃ s, Closing s ∧ ∀ rest : List Char,
      (Reader.mk .startField [] fs).text limit (t ++ rest) =
        if v.length ≤ limit then (Reader.mk s v fs).text limit rest else .error .fieldLimit := by
  cases h with
  | bare h =>
    obtain ⟨s,hs,htext⟩ := text_plain limit fs h (.inl rfl) (f := []) (Nat.zero_le limit)
    exact ⟨s,hs,fun rest => by simpa using htext rest⟩
  | @quoted v tail h =>
    have hopen : ∀ rest : List Char, (Reader.mk .startField [] fs).text limit
        ('"' :: (double v ++ '"' :: tail) ++ rest) =
          if v.length ≤ limit then (Reader.mk .quoteInQuotedField v fs).text limit (tail ++ rest)
          else .error .fieldLimit := by
      intro rest
      have hdouble := text_double limit fs v (f := []) (Nat.zero_le limit) ('"' :: (tail ++ rest))
      simpa [Reader.text,Reader.processChar,Reader.startField,Except.bind,Newline] using hdouble
    by_cases hfit : v.length ≤ limit
    · obtain ⟨s,hs,htext⟩ := text_plain limit fs h (.inr rfl) hfit
      refine ⟨s,hs,fun rest => ?_⟩
      rw [hopen,if_pos hfit,htext,List.length_append]
    · refine ⟨.startField,.inl rfl,fun rest => ?_⟩
      have hlong : ¬ (v ++ tail).length ≤ limit := by
        rw [List.length_append]
        omega
      rw [hopen,if_neg hfit,if_neg hlong]

theorem text_comma {s : State} (hs : Closing s) (v rest : List Char) :
    (Reader.mk s v fs).text limit (',' :: rest) =
      (Reader.mk .startField [] (fs ++ [v])).text limit rest := by
  rcases hs with rfl | rfl | rfl <;>
    simp [Reader.text,Reader.processChar,Reader.startField,Reader.saveField,Newline,Except.bind]

theorem text_atEnd {s : State} (hs : Closing s) (v : List Char) {rest : List Char}
    (hrest : AtEnd rest) :
    (Reader.mk s v fs).text limit rest = (Reader.mk .eatCrnl [] (fs ++ [v])).text limit rest := by
  cases rest with
  | nil => rcases hs with rfl | rfl | rfl <;> rfl
  | cons c rest =>
    have hline : Newline c := hrest c rfl
    have hcomma : c ≠ ',' := fun hc => absurd (hc ▸ hline) (by decide)
    have hquote : c ≠ '"' := fun hc => absurd (hc ▸ hline) (by decide)
    rcases hs with rfl | rfl | rfl <;>
      simp [Reader.text,Reader.processChar,Reader.startField,Reader.saveField,hline,hcomma,hquote]

theorem text_fields {vs : List (List Char)} {t : List Char} (h : Fields vs t) {rest : List Char}
    (hrest : AtEnd rest) :
    (Reader.mk .startField [] fs).text limit (t ++ rest) =
      if ∀ v ∈ vs, v.length ≤ limit then (Reader.mk .eatCrnl [] (fs ++ vs)).text limit rest
      else .error .fieldLimit := by
  induction h generalizing fs with
  | last h =>
    obtain ⟨s,hs,htext⟩ := text_cell limit fs h
    simp only [htext,text_atEnd limit fs hs _ hrest,List.forall_mem_singleton]
  | @cons v t ts vs h _ ih =>
    obtain ⟨s,hs,htext⟩ := text_cell limit fs h
    rw [List.append_assoc,List.cons_append,htext,text_comma limit fs hs,ih]
    by_cases hv : v.length ≤ limit <;> simp [hv]

theorem text_openFields {vs : List (List Char)} {t : List Char} (h : OpenFields vs t) :
    (Reader.mk .startField [] fs).text limit t =
      if ∀ v ∈ vs, v.length ≤ limit then .ok [fs ++ vs] else .error .fieldLimit := by
  induction h generalizing fs with
  | last v =>
    have hdouble := text_double limit fs v (f := []) (Nat.zero_le limit) []
    simpa [Reader.text,Reader.processChar,Reader.startField,Reader.saveField,Except.bind,Newline]
      using hdouble
  | @cons v t ts vs h _ ih =>
    obtain ⟨s,hs,htext⟩ := text_cell limit fs h
    rw [htext,text_comma limit fs hs,ih]
    by_cases hv : v.length ≤ limit <;> simp [hv]

theorem text_crnl (n : ℕ) (rest : List Char) :
    (Reader.mk .eatCrnl [] fs).text limit (List.replicate n '\r' ++ rest) =
      (Reader.mk .eatCrnl [] fs).text limit rest := by
  induction n with
  | zero => rfl
  | succ n ih =>
    rw [List.replicate_succ,List.cons_append,← ih]
    simp [Reader.text,Reader.processChar,Newline,Except.bind]

theorem text_feed (rest : List Char) :
    (Reader.mk .eatCrnl [] fs).text limit ('\n' :: rest) =
      (Reader.fresh.text limit rest).map (fs :: ·) := by
  simp [Reader.text,Reader.processChar,Newline,Except.bind]

theorem text_stray {rest : List Char} (h : rest ≠ []) (hhead : ∀ c ∈ rest.head?, ¬ Newline c) :
    (Reader.mk .eatCrnl [] fs).text limit rest = .error .newLine := by
  cases rest with
  | nil => exact absurd rfl h
  | cons c rest =>
    have hline : ¬ Newline c := hhead c rfl
    simp [Reader.text,Reader.processChar,hline,Except.bind]

end Forward

section Accepts

variable {limit : ℕ}

theorem Cell.head {v t : List Char} (h : Cell v t) : ∀ c ∈ t.head?, ¬ Newline c := by
  cases h with
  | bare h => exact fun c hc => (h.1 c (List.mem_of_mem_head? hc)).2
  | quoted v h =>
    intro c hc
    obtain rfl := Option.some.inj hc
    decide

theorem Cell.head_append {v t : List Char} (h : Cell v t) (rest : List Char) :
    ∀ c ∈ (t ++ ',' :: rest).head?, ¬ Newline c := by
  cases t with
  | nil =>
    intro c hc
    obtain rfl := Option.some.inj hc
    decide
  | cons d t => exact h.head

theorem Fields.head {vs : List (List Char)} {t : List Char} (h : Fields vs t) :
    ∀ c ∈ t.head?, ¬ Newline c := by
  cases h with
  | last h => exact h.head
  | cons h _ => exact h.head_append _

theorem OpenFields.head {vs : List (List Char)} {t : List Char} (h : OpenFields vs t) :
    ∃ c ∈ t.head?, ¬ Newline c := by
  cases h with
  | last v => exact ⟨'"',rfl,by decide⟩
  | @cons v t ts vs h _ =>
    cases t with
    | nil => exact ⟨',',rfl,by decide⟩
    | cons d t => exact ⟨d,rfl,h.head d rfl⟩

theorem fresh_text {text : List Char} (h : ∃ c ∈ text.head?, ¬ Newline c) :
    Reader.fresh.text limit text = (Reader.mk .startField [] []).text limit text := by
  obtain ⟨c,hc,hline⟩ := h
  cases text with
  | nil => cases hc
  | cons d text =>
    obtain rfl := Option.some.inj hc
    simp [Reader.text,Reader.processChar,Reader.fresh,Reader.startField,Reader.addChar,hline,
      Reader.saveField]

theorem text_record {cells : List (List Char)} {t rest : List Char} (h : Line cells t)
    (hrest : AtEnd rest) (hne : t ++ rest ≠ []) :
    Reader.fresh.text limit (t ++ rest) =
      if ∀ v ∈ cells, v.length ≤ limit then (Reader.mk .eatCrnl [] cells).text limit rest
      else .error .fieldLimit := by
  rcases h with ⟨rfl,rfl⟩ | ⟨hfields,ht⟩
  · cases rest with
    | nil => exact absurd rfl hne
    | cons c rest =>
      have hline : Newline c := hrest c rfl
      simp [Reader.text,Reader.processChar,Reader.fresh,hline]
  · have hhead : ∃ c ∈ (t ++ rest).head?, ¬ Newline c := by
      cases t with
      | nil => exact absurd rfl ht
      | cons c t => exact ⟨c,rfl,hfields.head c rfl⟩
    rw [fresh_text hhead,text_fields limit [] hfields hrest,List.nil_append]

theorem exists_double (text : List Char) :
    ∃ v rest, text = double v ++ rest ∧
      (rest = [] ∨ ∃ rest', rest = '"' :: rest' ∧ rest'.head? ≠ some '"') := by
  induction hn : text.length using Nat.strongRecOn generalizing text with
  | _ n ih =>
    cases text with
    | nil => exact ⟨[],[],rfl,.inl rfl⟩
    | cons c text =>
      by_cases hc : c = '"'
      · subst hc
        by_cases hd : text.head? = some '"'
        · obtain ⟨text,rfl⟩ := List.head?_eq_some_iff.mp hd
          have hshort : text.length < n := by
            rw [← hn,List.length_cons,List.length_cons]
            omega
          obtain ⟨v,rest,rfl,hrest⟩ := ih _ hshort text rfl
          exact ⟨'"' :: v,rest,rfl,hrest⟩
        · exact ⟨[],'"' :: text,rfl,.inr ⟨text,rfl,hd⟩⟩
      · have hshort : text.length < n := by
          rw [← hn,List.length_cons]
          omega
        obtain ⟨v,rest,rfl,hrest⟩ := ih _ hshort text rfl
        exact ⟨c :: v,rest,by simp [double,hc],hrest⟩

theorem exists_plain {text : List Char} (h : text.head? ≠ some '"') :
    ∃ v rest, text = v ++ rest ∧ Plain v ∧ ∀ c ∈ rest.head?, c = ',' ∨ Newline c := by
  have hsplit : ∀ text : List Char, ∃ v rest, text = v ++ rest ∧
      (∀ c ∈ v, c ≠ ',' ∧ ¬ Newline c) ∧ ∀ c ∈ rest.head?, c = ',' ∨ Newline c := by
    intro text
    induction text with
    | nil => exact ⟨[],[],rfl,by simp,by simp⟩
    | cons c text ih =>
      by_cases hc : c = ',' ∨ Newline c
      · exact ⟨[],c :: text,rfl,by simp,by simpa using hc⟩
      · obtain ⟨v,rest,rfl,hv,hrest⟩ := ih
        exact ⟨c :: v,rest,rfl,List.forall_mem_cons.mpr ⟨not_or.mp hc,hv⟩,hrest⟩
  obtain ⟨v,rest,rfl,hv,hrest⟩ := hsplit text
  refine ⟨v,rest,rfl,⟨hv,?_⟩,hrest⟩
  cases v with
  | nil => simp
  | cons c v => exact h

theorem exists_cell (text : List Char) :
    (∃ v t rest, text = t ++ rest ∧ Cell v t ∧ ∀ c ∈ rest.head?, c = ',' ∨ Newline c) ∨
      ∃ v, text = '"' :: double v := by
  by_cases hquote : text.head? = some '"'
  · obtain ⟨text,rfl⟩ := List.head?_eq_some_iff.mp hquote
    obtain ⟨v,rest,rfl,rfl | ⟨rest,rfl,hrest⟩⟩ := exists_double text
    · exact .inr ⟨v,by rw [List.append_nil]⟩
    · obtain ⟨tail,rest,rfl,htail,hdelim⟩ := exists_plain hrest
      exact .inl ⟨v ++ tail,_,rest,by simp,.quoted v htail,hdelim⟩
  · obtain ⟨v,rest,rfl,hv,hrest⟩ := exists_plain hquote
    exact .inl ⟨v,v,rest,rfl,.bare hv,hrest⟩

theorem exists_fields (text : List Char) :
    ∃ vs t rest, text = t ++ rest ∧ (Fields vs t ∧ AtEnd rest ∨ OpenFields vs t ∧ rest = []) := by
  induction hn : text.length using Nat.strongRecOn generalizing text with
  | _ n ih =>
    rcases exists_cell text with ⟨v,t,rest,rfl,hcell,hrest⟩ | ⟨v,rfl⟩
    · by_cases hcomma : rest.head? = some ','
      · obtain ⟨rest,rfl⟩ := List.head?_eq_some_iff.mp hcomma
        have hshort : rest.length < n := by
          rw [← hn,List.length_append,List.length_cons]
          omega
        obtain ⟨vs,ts,rest,rfl,hfields⟩ := ih _ hshort rest rfl
        refine ⟨v :: vs,t ++ ',' :: ts,rest,by simp,?_⟩
        exact hfields.imp (And.imp_left (.cons hcell)) (And.imp_left (.cons hcell))
      · refine ⟨[v],t,rest,rfl,.inl ⟨.last hcell,fun c hc => ?_⟩⟩
        refine (hrest c hc).resolve_left ?_
        rintro rfl
        exact hcomma hc
    · exact ⟨[v],_,[],by simp,.inr ⟨.last v,rfl⟩⟩

theorem exists_returns (text : List Char) :
    ∃ n rest, text = List.replicate n '\r' ++ rest ∧ rest.head? ≠ some '\r' := by
  induction text with
  | nil => exact ⟨0,[],rfl,by simp⟩
  | cons c text ih =>
    by_cases hc : c = '\r'
    · obtain ⟨n,rest,rfl,hrest⟩ := ih
      exact ⟨n+1,rest,by rw [hc,List.replicate_succ,List.cons_append],hrest⟩
    · exact ⟨0,c :: text,rfl,by simpa using hc⟩

theorem exists_record (text : List Char) :
    (∃ cells t rest, text = t ++ rest ∧ Line cells t ∧ AtEnd rest) ∨
      ∃ cells, OpenFields cells text := by
  obtain ⟨vs,t,rest,rfl,⟨hfields,hrest⟩ | ⟨hopen,rfl⟩⟩ := exists_fields text
  · by_cases ht : t = []
    · exact .inl ⟨[],[],rest,by rw [ht],.inl ⟨rfl,rfl⟩,hrest⟩
    · exact .inl ⟨vs,t,rest,rfl,.inr ⟨hfields,ht⟩,hrest⟩
  · exact .inr ⟨vs,by rwa [List.append_nil]⟩

theorem read_of_records {rs : List (List (List Char))} {text : List Char} (h : Records rs text)
    (hfit : Within limit rs) : read limit text = .ok rs := by
  rw [read_eq_text]
  induction h with
  | nil => rfl
  | @cons cells t rest rs h n _ ih =>
    obtain ⟨hcells,hrs⟩ := List.forall_mem_cons.mp hfit
    have hend : AtEnd (List.replicate n '\r' ++ '\n' :: rest) := by
      cases n with
      | zero => exact fun c hc => .inl (Option.some.inj hc).symm
      | succ n => exact fun c hc => .inr (Option.some.inj hc).symm
    rw [text_record h hend (by simp),if_pos hcells,text_crnl,text_feed,ih hrs]
    rfl
  | @last cells t h n hne =>
    have hend : AtEnd (List.replicate n '\r') := by
      cases n with
      | zero => exact fun c hc => by cases hc
      | succ n => exact fun c hc => .inr (Option.some.inj hc).symm
    have hcrnl := text_crnl limit cells n []
    rw [List.append_nil] at hcrnl
    rw [text_record h hend hne,if_pos (hfit cells (by simp)),hcrnl]
    rfl
  | @unclosed cells t h =>
    rw [fresh_text h.head,text_openFields limit [] h,if_pos (hfit cells (by simp)),List.nil_append]

theorem records_of_text {rs : List (List (List Char))} {text : List Char}
    (h : Reader.fresh.text limit text = .ok rs) : Records rs text ∧ Within limit rs := by
  induction hn : text.length using Nat.strongRecOn generalizing text rs with
  | _ n ih =>
    by_cases hempty : text = []
    · subst hempty
      obtain rfl := Except.ok.inj h
      exact ⟨.nil,by simp [Within]⟩
    rcases exists_record text with ⟨cells,t,rest,rfl,hline,hend⟩ | ⟨cells,hopen⟩
    · rw [text_record hline hend hempty] at h
      split_ifs at h with hcells
      obtain ⟨k,rest,rfl,hreturn⟩ := exists_returns rest
      rw [text_crnl] at h
      cases rest with
      | nil =>
        obtain rfl := Except.ok.inj h
        rw [List.append_nil] at hempty ⊢
        exact ⟨.last hline k hempty,by simpa [Within] using hcells⟩
      | cons c rest =>
        by_cases hc : c = '\n'
        · subst hc
          rw [text_feed] at h
          cases hrest : Reader.fresh.text limit rest with
          | error e => rw [hrest] at h; cases h
          | ok rs' =>
            rw [hrest] at h
            obtain rfl := Except.ok.inj h
            have hshort : rest.length < n := by
              rw [← hn]
              simp only [List.length_append,List.length_cons]
              omega
            obtain ⟨hrs,hfit⟩ := ih _ hshort hrest rfl
            exact ⟨.cons hline k hrs,List.forall_mem_cons.mpr ⟨hcells,hfit⟩⟩
        · have hstray : ∀ d ∈ (c :: rest).head?, ¬ Newline d := by
            rintro d hd (rfl | rfl)
            · exact hc (Option.some.inj hd)
            · exact hreturn hd
          rw [text_stray limit cells (by simp) hstray] at h
          cases h
    · rw [fresh_text hopen.head,text_openFields limit [] hopen,List.nil_append] at h
      split_ifs at h with hcells
      obtain rfl := Except.ok.inj h
      exact ⟨.unclosed hopen,by simpa [Within] using hcells⟩

/-- The reader accepts exactly the texts of the language whose fields are within the limit, and
returns their records. -/
theorem read_eq_ok_iff {rs : List (List (List Char))} {text : List Char} :
    read limit text = .ok rs ↔ Records rs text ∧ Within limit rs := by
  constructor
  · intro h
    rw [read_eq_text] at h
    exact records_of_text h
  · rintro ⟨h,hfit⟩
    exact read_of_records h hfit

theorem Records.unique {rs rs' : List (List (List Char))} {text : List Char} (h : Records rs text)
    (h' : Records rs' text) : rs = rs' := by
  -- a reader whose limit is above all fields reads both
  have hlength : ∀ rs : List (List (List Char)), Within rs.flatten.flatten.length rs :=
    fun rs cells hcells v hv =>
      (List.sublist_flatten_of_mem (List.mem_flatten_of_mem hcells hv)).length_le
  have hfit : Within (rs.flatten.flatten.length + rs'.flatten.flatten.length) rs :=
    fun cells hcells v hv => Nat.le_add_right_of_le (hlength rs cells hcells v hv)
  have hfit' : Within (rs.flatten.flatten.length + rs'.flatten.flatten.length) rs' :=
    fun cells hcells v hv => Nat.le_add_left_of_le (hlength rs' cells hcells v hv)
  exact Except.ok.inj ((read_of_records h hfit).symm.trans (read_of_records h' hfit'))

end Accepts

section Writer

def NeedsQuotes (v : List Char) : Prop := ∃ c ∈ v, c = ',' ∨ c = '"' ∨ Newline c

instance (v : List Char) : Decidable (NeedsQuotes v) :=
  decidable_of_iff ((v.any fun c => decide (c = ',' ∨ c = '"' ∨ Newline c)) = true)
    (by simp [NeedsQuotes])

def quoted (v : List Char) : List Char := '"' :: (double v ++ ['"'])

/-- A record as it is written: its fields, which of them are quoted without need, and whether a
carriage return stands in front of the line feed. -/
structure Written where
  cells : List (Bool × List Char)
  crlf : Bool

def Written.fields (line : Written) : List (List Char) := line.cells.map Prod.snd

def writeCell (cell : Bool × List Char) : List Char :=
  if cell.1 ∨ NeedsQuotes cell.2 then quoted cell.2 else cell.2

def writeCells : List (Bool × List Char) → List Char
  | [] => []
  | [cell] => writeCell cell
  | cell :: rest => writeCell cell ++ ',' :: writeCells rest

/-- A record of one empty field is quoted, so that its line is not blank. -/
def Written.text (line : Written) : List Char :=
  if line.fields = [[]] then quoted [] else writeCells line.cells

def Written.lineEnd (line : Written) : List Char := if line.crlf then ['\r','\n'] else ['\n']

/-- The lines of a file. The last one may lack its end unless it is blank. -/
def write (final : Bool) : List Written → List Char
  | [] => []
  | [line] => line.text ++ if final ∨ line.cells = [] then line.lineEnd else []
  | line :: rest => line.text ++ (line.lineEnd ++ write final rest)

theorem plain_nil : Plain [] := ⟨by simp,by simp⟩

theorem cell_quoted (v : List Char) : Cell v (quoted v) := by
  simpa [quoted] using Cell.quoted v plain_nil

theorem cell_writeCell (cell : Bool × List Char) : Cell cell.2 (writeCell cell) := by
  rw [writeCell]
  split_ifs with h
  · exact cell_quoted cell.2
  · have hfree : ∀ c ∈ cell.2, ¬ (c = ',' ∨ c = '"' ∨ Newline c) := fun c hc hbad =>
      h (.inr ⟨c,hc,hbad⟩)
    refine .bare ⟨fun c hc => ?_,fun hhead => ?_⟩
    · exact ⟨fun hcomma => hfree c hc (.inl hcomma),fun hline => hfree c hc (.inr (.inr hline))⟩
    · exact hfree '"' (List.mem_of_mem_head? hhead) (.inr (.inl rfl))

theorem fields_writeCells {cells : List (Bool × List Char)} (h : cells ≠ []) :
    Fields (cells.map Prod.snd) (writeCells cells) := by
  induction cells with
  | nil => exact absurd rfl h
  | cons cell rest ih =>
    cases rest with
    | nil => exact .last (cell_writeCell cell)
    | cons next rest => exact .cons (cell_writeCell cell) (ih (by simp))

theorem writeCells_ne_nil {cells : List (Bool × List Char)} (h : cells ≠ [])
    (hblank : cells.map Prod.snd ≠ [[]]) : writeCells cells ≠ [] := by
  match cells with
  | [] => exact absurd rfl h
  | [cell] =>
    rw [writeCells,writeCell]
    split_ifs
    · simp [quoted]
    · simpa using hblank
  | cell :: next :: rest => simp [writeCells]

theorem Written.line (line : Written) : Line line.fields line.text := by
  rw [Written.text]
  split_ifs with hone
  · exact .inr ⟨by simpa [hone] using Fields.last (cell_quoted []),by simp [quoted]⟩
  · by_cases hcells : line.cells = []
    · exact .inl (by simp [Written.fields,hcells,writeCells])
    · exact .inr ⟨fields_writeCells hcells,writeCells_ne_nil hcells hone⟩

theorem Written.lineEnd_eq (line : Written) :
    ∃ n, line.lineEnd = List.replicate n '\r' ++ ['\n'] := by
  rw [Written.lineEnd]
  split_ifs
  · exact ⟨1,rfl⟩
  · exact ⟨0,rfl⟩

theorem records_write (final : Bool) (ls : List Written) :
    Records (ls.map Written.fields) (write final ls) := by
  induction ls with
  | nil => exact .nil
  | cons line rest ih =>
    obtain ⟨n,hend⟩ := line.lineEnd_eq
    cases rest with
    | nil =>
      rw [write]
      split_ifs with hfinal
      · rw [hend]
        exact .cons line.line n .nil
      · have htext : line.text ≠ [] := by
          rcases line.line with ⟨hfields,_⟩ | ⟨_,htext⟩
          · exact absurd (.inr (List.map_eq_nil_iff.mp hfields)) hfinal
          · exact htext
        simpa using Records.last line.line 0 (by simpa using htext)
    | cons next rest =>
      rw [write,hend,List.append_assoc,List.singleton_append]
      · exact .cons line.line n ih
      · simp

theorem read_write {limit : ℕ} (final : Bool) {ls : List Written}
    (hfit : Within limit (ls.map Written.fields)) :
    read limit (write final ls) = .ok (ls.map Written.fields) :=
  read_of_records (records_write final ls) hfit

end Writer

end CsvText
end LeadEngine
