import LeadEngine.DataPolicy
import LeadEngine.Tiling

/-! Card numbers in a text. The scanner cuts the text into the leftmost longest numerals of 13 to
19 digits and tests each as a whole, so that a card is found where it is a tile of its own. -/
namespace LeadEngine
namespace DataPolicy

open Interpreter Pattern

def separator (c : Char) : Bool := c == ' ' || c == '-'

/-- So many digits, each after at most one space or hyphen. -/
inductive Spaced (digit : Char → Bool) : ℕ → List Char → Prop
  | nil : Spaced digit 0 []
  | digit {n : ℕ} {d : Char} {text : List Char} (hd : digit d = true) (h : Spaced digit n text) :
      Spaced digit (n+1) (d :: text)
  | spaced {n : ℕ} {c d : Char} {text : List Char} (hc : separator c = true) (hd : digit d = true)
      (h : Spaced digit n text) : Spaced digit (n+1) (c :: d :: text)

section Scan

variable [Interpreter]

/-- A numeral of 13 to 19 digits, with no word character right before it or after it. -/
def Numeral (digit : Char → Bool) (before seg rest : List Char) : Prop :=
  before.head?.any isWord = false ∧ rest.head?.any isWord = false ∧
    ∃ d text n, seg = d :: text ∧ digit d = true ∧ Spaced digit n text ∧ 12 ≤ n ∧ n ≤ 18

def HasCard (text : List Char) : Prop :=
  ∃ before card rest, text = before ++ card ++ rest ∧ Numeral asciiDigit before.reverse card rest ∧
    luhnValid (card.filter asciiDigit) = true

/-- No further digit lies past a separator on either side. -/
structure Apart (digit : Char → Bool) (before rest : List Char) : Prop where
  left : ∀ c d text, before = c :: d :: text → separator c = true → digit d = false
  right : ∀ c d text, rest = c :: d :: text → separator c = true → digit d = false

def TileIsCard (tile : List Char) : Prop :=
  13 ≤ (tile.filter asciiDigit).length ∧ (tile.filter asciiDigit).length ≤ 19 ∧
    luhnValid (tile.filter asciiDigit) = true

def upperText (raw : String) : List Char := raw.toList.flatMap upper

/-- One of the leftmost longest numerals of the text is a card number, or the text contains an
identifier of another kind. -/
def Detected (text : List Char) : Prop :=
  (∃ tiles, Tiling (Numeral isDecimal) [] text tiles ∧ ∃ tile ∈ tiles, TileIsCard tile) ∨
    aadhaar.occurs isWord text = true ∨ pan.occurs isWord text = true ∨
    ifsc.occurs isWord text = true ∨ passport.occurs isWord text = true

theorem not_isDecimal_separator {c : Char} (h : separator c = true) : isDecimal c = false := by
  obtain rfl | rfl : c = ' ' ∨ c = '-' := by simpa [separator] using h
  all_goals rw [isDecimal_ascii _ (by decide)]; rfl

def furtherDigit : Pattern := .seq (.opt (.chr separator)) digit

theorem ends_digit (before after : List Char) : ends isWord digit ⟨before,after⟩ =
    match after with
    | d :: rest => if isDecimal d then [⟨d :: before,rest⟩] else []
    | [] => [] := by
  cases after <;> rfl

theorem mem_digit {before after : List Char} {q : Place} : q ∈ ends isWord digit ⟨before,after⟩ ↔
    ∃ d rest, after = d :: rest ∧ isDecimal d = true ∧ q = ⟨d :: before,rest⟩ := by
  rw [ends_digit]
  cases after with
  | nil => simp
  | cons d rest => by_cases hd : isDecimal d = true <;> simp [hd]

theorem ends_furtherDigit (before after : List Char) : ends isWord furtherDigit ⟨before,after⟩ =
    match after with
    | [] => []
    | c :: rest =>
      if separator c then ends isWord digit ⟨c :: before,rest⟩
      else ends isWord digit ⟨before,c :: rest⟩ := by
  cases after with
  | nil => rfl
  | cons c rest =>
    by_cases hc : separator c = true
    · have hno : ends isWord digit ⟨before,c :: rest⟩ = [] := by
        simp [ends_digit,not_isDecimal_separator hc]
      simp [furtherDigit,ends,hc,hno]
    · simp [furtherDigit,ends,hc]

theorem length_digit (before after : List Char) :
    (ends isWord digit ⟨before,after⟩).length ≤ 1 := by
  rw [ends_digit]
  split
  · split_ifs <;> simp
  · simp

theorem length_furtherDigit (p : Place) : (ends isWord furtherDigit p).length ≤ 1 := by
  obtain ⟨before,after⟩ := p
  rw [ends_furtherDigit]
  split
  · simp
  · split_ifs
    · exact length_digit ..
    · exact length_digit ..

theorem mem_furtherDigit {before after : List Char} {q : Place} :
    q ∈ ends isWord furtherDigit ⟨before,after⟩ ↔
      (∃ d rest, after = d :: rest ∧ isDecimal d = true ∧ q = ⟨d :: before,rest⟩) ∨
        ∃ c d rest, after = c :: d :: rest ∧ separator c = true ∧ isDecimal d = true ∧
          q = ⟨d :: c :: before,rest⟩ := by
  rw [ends_furtherDigit]
  cases after with
  | nil => simp
  | cons c rest =>
    by_cases hc : separator c = true
    · have hno : isDecimal c = false := not_isDecimal_separator hc
      simp only [if_pos hc,ends_digit]
      cases rest with
      | nil => simp [hno]
      | cons d rest => by_cases hd : isDecimal d = true <;> simp [hc,hno,hd]
    · simp only [if_neg hc,ends_digit]
      by_cases hd : isDecimal c = true <;> simp [hc,hd]

/-- Steps of the scanner read spaced digits. -/
theorem steps_furtherDigit {n : ℕ} {before after : List Char} {stop : Place} :
    Steps (ends isWord furtherDigit) n ⟨before,after⟩ stop ↔
      ∃ text rest, Spaced isDecimal n text ∧ after = text ++ rest ∧
        stop = ⟨text.reverse ++ before,rest⟩ := by
  constructor
  · intro h
    generalize hp : (⟨before,after⟩ : Place) = p at h
    induction h generalizing before after with
    | done p =>
      obtain rfl := hp
      exact ⟨[],after,.nil,rfl,rfl⟩
    | step hq _ ih =>
      obtain rfl := hp
      obtain ⟨d,rest,rfl,hd,rfl⟩ | ⟨c,d,rest,rfl,hc,hd,rfl⟩ := mem_furtherDigit.mp hq
      · obtain ⟨text,rest,htext,rfl,rfl⟩ := ih rfl
        exact ⟨d :: text,rest,.digit hd htext,rfl,by simp⟩
      · obtain ⟨text,rest,htext,rfl,rfl⟩ := ih rfl
        exact ⟨c :: d :: text,rest,.spaced hc hd htext,rfl,by simp⟩
  · rintro ⟨text,rest,htext,rfl,rfl⟩
    induction htext generalizing before with
    | nil => exact .done _
    | @digit n d text hd _ ih =>
      have hrest : Steps (ends isWord furtherDigit) n ⟨d :: before,text ++ rest⟩
          ⟨text.reverse ++ d :: before,rest⟩ := ih
      exact .step (mem_furtherDigit.mpr (.inl ⟨d,text ++ rest,rfl,hd,rfl⟩)) (by simpa using hrest)
    | @spaced n c d text hc hd _ ih =>
      have hrest : Steps (ends isWord furtherDigit) n ⟨d :: c :: before,text ++ rest⟩
          ⟨text.reverse ++ d :: c :: before,rest⟩ := ih
      exact .step (mem_furtherDigit.mpr (.inr ⟨c,d,text ++ rest,rfl,hc,hd,rfl⟩))
        (by simpa using hrest)

omit [Interpreter] in
theorem Spaced.last_digit {digit : Char → Bool} {n : ℕ} {text : List Char}
    (h : Spaced digit n text) {d : Char} (hd : digit d = true) (before : List Char) :
    ∃ e, digit e = true ∧ (text.reverse ++ d :: before).head? = some e := by
  induction h generalizing d before with
  | nil => exact ⟨d,hd,rfl⟩
  | digit he _ ih => simpa using ih he (d :: before)
  | @spaced n c e text _ he _ ih => simpa using ih he (c :: d :: before)

theorem mem_ends_ccRaw {before after : List Char} {stop : Place} :
    stop ∈ ends isWord ccRaw ⟨before,after⟩ ↔ ∃ seg rest, after = seg ++ rest ∧
      Numeral isDecimal before seg rest ∧ stop = ⟨seg.reverse ++ before,rest⟩ := by
  have hsplit : stop ∈ ends isWord ccRaw ⟨before,after⟩ ↔
      before.head?.any isWord ≠ after.head?.any isWord ∧ ∃ d rest, after = d :: rest ∧
        isDecimal d = true ∧ ∃ n, 12 ≤ n ∧ n ≤ 18 ∧
          Steps (ends isWord furtherDigit) n ⟨d :: before,rest⟩ stop ∧
            stop.before.head?.any isWord ≠ stop.after.head?.any isWord := by
    change stop ∈ ends isWord (.seq .boundary (.seq digit
      (.seq (.rep furtherDigit 12 18) .boundary))) ⟨before,after⟩ ↔ _
    simp only [mem_ends_seq,mem_ends_boundary]
    constructor
    · rintro ⟨_,⟨hstart,rfl⟩,_,hdigit,q,hq,hend,rfl⟩
      obtain ⟨d,rest,rfl,hd,rfl⟩ := mem_digit.mp hdigit
      obtain ⟨n,hleast,hmost,hsteps⟩ := mem_repeatGreedy.mp hq
      exact ⟨hstart,d,rest,rfl,hd,n,hleast,hmost,hsteps,hend⟩
    · rintro ⟨hstart,d,rest,rfl,hd,n,hleast,hmost,hsteps,hend⟩
      exact ⟨_,⟨hstart,rfl⟩,_,mem_digit.mpr ⟨d,rest,rfl,hd,rfl⟩,stop,
        mem_repeatGreedy.mpr ⟨n,hleast,hmost,hsteps⟩,hend,rfl⟩
  rw [hsplit]
  constructor
  · rintro ⟨hstart,d,rest,rfl,hd,n,hleast,hmost,hsteps,hend⟩
    obtain ⟨text,rest,htext,rfl,rfl⟩ := steps_furtherDigit.mp hsteps
    obtain ⟨e,he,hlast⟩ := htext.last_digit hd before
    refine ⟨d :: text,rest,rfl,⟨?_,?_,d,text,n,rfl,hd,htext,hleast,hmost⟩,by simp⟩
    · simpa [isWord_of_isDecimal d hd] using hstart
    · simpa [hlast,isWord_of_isDecimal e he] using hend
  · rintro ⟨seg,rest,rfl,⟨hbefore,hrest,d,text,n,rfl,hd,htext,hleast,hmost⟩,rfl⟩
    obtain ⟨e,he,hlast⟩ := htext.last_digit hd before
    refine ⟨?_,d,text ++ rest,rfl,hd,n,hleast,hmost,?_,?_⟩
    · simp [hbefore,isWord_of_isDecimal d hd]
    · exact steps_furtherDigit.mpr ⟨text,rest,htext,rfl,by simp⟩
    · simp [hlast,hrest,isWord_of_isDecimal e he]

theorem matches_ccRaw {before seg rest : List Char} :
    Matches isWord ccRaw before seg rest ↔ Numeral isDecimal before seg rest := by
  rw [Matches,mem_ends_ccRaw]
  constructor
  · rintro ⟨seg',rest',heq,hnumeral,hstop⟩
    obtain rfl : rest = rest' := congrArg Place.after hstop
    obtain rfl := List.append_cancel_right heq
    exact hnumeral
  · intro h
    exact ⟨seg,rest,rfl,h,rfl⟩

theorem orderly_ccRaw : Orderly isWord ccRaw where
  longestFirst := by
    have hone : ∀ p, (ends isWord digit p).length ≤ 1 := by
      rintro ⟨before,after⟩
      exact length_digit before after
    have hadvances : ∀ p, ∀ q ∈ ends isWord furtherDigit p, q.after.length < p.after.length := by
      rintro ⟨before,after⟩ q hq
      obtain ⟨d,rest,rfl,-,rfl⟩ | ⟨c,d,rest,rfl,-,-,rfl⟩ := mem_furtherDigit.mp hq
      · exact Nat.lt_succ_self _
      · exact Nat.lt_succ_of_lt (Nat.lt_succ_self _)
    intro p
    change (ends isWord (.seq .boundary (.seq digit
      (.seq (.rep furtherDigit 12 18) .boundary))) p).Pairwise _
    refine pairwise_flatMap_of_length_le_one ?_ fun q _ =>
      pairwise_flatMap_of_length_le_one (hone q) fun q' _ => ?_
    · simp only [ends]
      split_ifs <;> simp
    · exact (repeatGreedy_longestFirst length_furtherDigit hadvances q').2.sublist
        (sublist_boundary _)
  advances := by
    rintro ⟨before,after⟩ stop hstop
    obtain ⟨seg,rest,rfl,⟨-,-,d,text,n,rfl,-⟩,rfl⟩ := mem_ends_ccRaw.mp hstop
    simp only [List.cons_append,List.length_cons,List.length_append]
    omega

theorem tiling_findAll (text : List Char) :
    Tiling (Numeral isDecimal) [] text (ccRaw.findAll isWord text) := by
  have h := findAll_tiling orderly_ccRaw text
  have hsame : Matches isWord ccRaw = Numeral isDecimal := by
    funext before seg rest
    exact propext matches_ccRaw
  rwa [hsame] at h

theorem classifyValue_isSome_iff (raw : String) :
    (classifyValue raw).isSome = true ↔ Detected (upperText raw) := by
  have hcard : (∃ tiles, Tiling (Numeral isDecimal) [] (upperText raw) tiles ∧
      ∃ tile ∈ tiles, TileIsCard tile) ↔
        ∃ tile ∈ ccRaw.findAll isWord (upperText raw), TileIsCard tile := by
    constructor
    · rintro ⟨tiles,htiling,h⟩
      rwa [htiling.unique (tiling_findAll _)] at h
    · intro h
      exact ⟨_,tiling_findAll _,h⟩
  have hany : (ccRaw.findAll isWord (upperText raw)).any (fun found =>
      let digitsOnly := found.filter asciiDigit
      13 ≤ digitsOnly.length && digitsOnly.length ≤ 19 && luhnValid digitsOnly) = true ↔
        ∃ tile ∈ ccRaw.findAll isWord (upperText raw), TileIsCard tile := by
    simp only [List.any_eq_true,Bool.and_eq_true,decide_eq_true_eq,and_assoc,TileIsCard]
  rw [Detected,hcard,← hany]
  simp only [classifyValue]
  split_ifs with hfound haadhaar hpan hifsc hpassport
  · exact iff_of_true rfl (.inl hfound)
  · exact iff_of_true rfl (.inr (.inl haadhaar))
  · exact iff_of_true rfl (.inr (.inr (.inl hpan)))
  · exact iff_of_true rfl (.inr (.inr (.inr (.inl hifsc))))
  · exact iff_of_true rfl (.inr (.inr (.inr (.inr hpassport))))
  · refine iff_of_false (by simp) ?_
    rintro (h | h | h | h | h)
    exacts [hfound h,haadhaar h,hpan h,hifsc h,hpassport h]

omit [Interpreter] in
/-- Every other character in a numeral is a separator, with a digit on either side. -/
theorem Spaced.digits_around {digit : Char → Bool} {n : ℕ} {text : List Char}
    (h : Spaced digit n text) {d c : Char} {u v : List Char} (heq : d :: text = u ++ c :: v)
    (hd : digit d = true) (hc : digit c = false) :
    separator c = true ∧
      (∃ u' e, u = u' ++ [e] ∧ digit e = true) ∧ ∃ e v', v = e :: v' ∧ digit e = true := by
  induction h generalizing d u with
  | nil =>
    cases u <;> simp_all
  | @digit n e text he h ih =>
    cases u with
    | nil => simp_all
    | cons d' u =>
      obtain ⟨rfl,htail⟩ := List.cons.inj heq
      obtain ⟨hsep,⟨u',e',rfl,he'⟩,hright⟩ := ih htail he
      exact ⟨hsep,⟨d :: u',e',rfl,he'⟩,hright⟩
  | @spaced n s e text hs he h ih =>
    cases u with
    | nil => simp_all
    | cons d' u =>
      obtain ⟨rfl,htail⟩ := List.cons.inj heq
      cases u with
      | nil =>
        obtain ⟨rfl,rfl⟩ := List.cons.inj htail
        exact ⟨hs,⟨[],d,rfl,hd⟩,e,text,rfl,he⟩
      | cons s' u =>
        obtain ⟨rfl,hrest⟩ := List.cons.inj htail
        obtain ⟨hsep,⟨u',e',rfl,he'⟩,hright⟩ := ih hrest he
        exact ⟨hsep,⟨d :: s :: u',e',rfl,he'⟩,hright⟩

theorem Numeral.inside {before seg rest u v : List Char} {x : Char}
    (h : Numeral isDecimal before seg rest) (hseg : seg = u ++ x :: v) (hx : isWord x = false) :
    separator x = true ∧ (∃ u' e, u = u' ++ [e] ∧ isDecimal e = true) ∧
      ∃ e v', v = e :: v' ∧ isDecimal e = true := by
  obtain ⟨-,-,d,text,n,rfl,hd,htext,-⟩ := h
  refine htext.digits_around hseg hd ?_
  by_contra hdecimal
  rw [isWord_of_isDecimal x (by simpa using hdecimal)] at hx
  cases hx

/-- A numeral that stands apart is one of the tiles, whatever lies around it. -/
theorem mem_tiles_of_apart {before card rest : List Char} {tiles : List (List Char)}
    (h : Tiling (Numeral isDecimal) [] (before ++ (card ++ rest)) tiles)
    (hcard : Numeral isDecimal before.reverse card rest)
    (hapart : Apart isDecimal before.reverse rest) : card ∈ tiles := by
  refine h.mem_of_longest rfl ?_ (by simpa using hcard) ?_ ?_
  · obtain ⟨-,-,d,text,n,rfl,-⟩ := hcard
    simp
  · -- a match across the start of the card has a digit before the separator there
    intro pre seg rest' heq htile hlt
    by_contra hacross
    obtain rfl | ⟨b,x,rfl⟩ := List.eq_nil_or_concat' before
    · cases hlt
    obtain ⟨w,hw⟩ : b ++ [x] <+: pre ++ seg := List.prefix_of_prefix_length_le
      (List.prefix_append (b ++ [x]) _)
      (by rw [heq,← List.append_assoc]; exact List.prefix_append ..) (by omega)
    obtain ⟨u,rfl⟩ : pre <+: b := List.prefix_of_prefix_length_le (List.prefix_append pre seg)
      (by rw [← hw,List.append_assoc]; exact List.prefix_append ..)
      (by simpa [Nat.lt_succ_iff] using hlt)
    have hseg : seg = u ++ x :: w := by
      simp only [List.append_assoc] at hw
      exact (List.append_cancel_left hw).symm
    have hx : isWord x = false := by simpa using hcard.1
    obtain ⟨hsep,⟨u',e,rfl,he⟩,-⟩ := htile.inside hseg hx
    rw [hapart.left x e (pre ++ u').reverse (by simp) hsep] at he
    cases he
  · -- a longer match from the start of the card has a digit after the separator at its end
    intro seg rest' heq htile
    by_contra hlonger
    obtain ⟨w,rfl⟩ : card <+: seg := List.prefix_of_prefix_length_le
      (List.prefix_append card rest) (heq ▸ List.prefix_append seg rest') (by omega)
    rw [List.append_assoc] at heq
    obtain rfl := List.append_cancel_left heq
    cases w with
    | nil => simp at hlonger
    | cons x w =>
      have hx : isWord x = false := by simpa using hcard.2.1
      obtain ⟨hsep,-,e,w',rfl,he⟩ := htile.inside rfl hx
      rw [hapart.right x e _ rfl hsep] at he
      cases he

theorem isDecimal_of_asciiDigit {c : Char} (h : asciiDigit c = true) : isDecimal c = true := by
  have hrange : '0' ≤ c ∧ c ≤ '9' := by simpa [asciiDigit] using h
  have hle : c.toNat ≤ 57 := hrange.2
  rw [isDecimal_ascii c (by omega)]
  exact h

omit [Interpreter] in
theorem Spaced.mono {digit digit' : Char → Bool} (hmono : ∀ c, digit c = true → digit' c = true)
    {n : ℕ} {text : List Char} (h : Spaced digit n text) : Spaced digit' n text := by
  induction h with
  | nil => exact .nil
  | digit hd _ ih => exact .digit (hmono _ hd) ih
  | spaced hc hd _ ih => exact .spaced hc (hmono _ hd) ih

omit [Interpreter] in
theorem spaced_of_all {digit : Char → Bool} {n : ℕ} {text : List Char} (hlength : text.length = n)
    (h : text.all digit = true) : Spaced digit n text := by
  subst hlength
  induction text with
  | nil => exact .nil
  | cons d text ih =>
    rw [List.all_cons,Bool.and_eq_true] at h
    exact .digit h.1 (ih h.2)

omit [Interpreter] in
theorem Spaced.length_digits {n : ℕ} {text : List Char} (h : Spaced asciiDigit n text) :
    (text.filter asciiDigit).length = n := by
  induction h with
  | nil => rfl
  | digit hd _ ih => simp [hd,ih]
  | @spaced n c d text hc hd _ ih =>
    have hno : asciiDigit c = false := by
      obtain rfl | rfl : c = ' ' ∨ c = '-' := by simpa [separator] using hc
      all_goals rfl
    simp [hno,hd,ih]

theorem tileIsCard {before card rest : List Char} (h : Numeral asciiDigit before card rest)
    (hluhn : luhnValid (card.filter asciiDigit) = true) : TileIsCard card := by
  obtain ⟨-,-,d,text,n,rfl,hd,htext,hleast,hmost⟩ := h
  have hlength : ((d :: text).filter asciiDigit).length = n+1 := by
    rw [List.filter_cons_of_pos hd,List.length_cons,htext.length_digits]
  exact ⟨by omega,by omega,hluhn⟩

theorem detected_of_apart {before card rest : List Char}
    (hcard : Numeral asciiDigit before.reverse card rest)
    (hluhn : luhnValid (card.filter asciiDigit) = true)
    (hapart : Apart isDecimal before.reverse rest) : Detected (before ++ (card ++ rest)) := by
  have hdecimal : Numeral isDecimal before.reverse card rest := by
    obtain ⟨hbefore,hrest,d,text,n,hseg,hd,htext,hn⟩ := hcard
    exact ⟨hbefore,hrest,d,text,n,hseg,isDecimal_of_asciiDigit hd,
      htext.mono fun _ => isDecimal_of_asciiDigit,hn⟩
  exact .inl ⟨_,tiling_findAll _,card,mem_tiles_of_apart (tiling_findAll _) hdecimal hapart,
    tileIsCard hcard hluhn⟩

/-- The string gets a label, and a field with it as its text does not stay. -/
structure Withheld (raw : String) : Prop where
  label : (classifyValue raw).isSome = true
  removed : ∀ (extra : Dict String Json) (k : String) (value : Json), (k,value) ∈ extra.entries →
    searchedText value = raw → k ∉ (stripSensitiveFields extra).1.keys

theorem withheld_iff {raw : String} (hraw : raw ≠ "") :
    Withheld raw ↔ (classifyValue raw).isSome = true := by
  refine ⟨Withheld.label,fun h => ⟨h,fun extra k value hm htext hk => ?_⟩⟩
  have hdetected : (detectField value).isSome = true := by
    rwa [detectField,htext,if_neg hraw]
  have hfound : k ∈ (detectSensitiveFields extra).keys :=
    mem_detections_keys.mpr ⟨value,hm,hdetected⟩
  obtain ⟨e,he,rfl⟩ := List.mem_map.mp hk
  rw [stripSensitiveFields,Dict.entries_filter,List.mem_filter] at he
  exact of_decide_eq_true he.2 hfound

/-- A string with a card number is withheld exactly when one of the leftmost longest numerals of
its upper case text is a card number or an identifier of another kind is there. -/
theorem withheld_card_iff (raw : String) (h : HasCard raw.toList) :
    Withheld raw ↔ Detected (upperText raw) := by
  have hraw : raw ≠ "" := by
    rintro rfl
    obtain ⟨before,card,rest,htext,⟨-,-,d,text,n,rfl,-⟩,-⟩ := h
    simp at htext
  rw [withheld_iff hraw,classifyValue_isSome_iff]

end Scan

/-- A card between other numbers, none of which is joined to it by a separator. -/
theorem card_among_numbers_withheld :
    letI := Interpreter.ascii id
    Withheld "Ref 12: 4111111111111111, code 123" ∧
      Detected (upperText "Ref 12: 4111111111111111, code 123") := by
  let := Interpreter.ascii id
  have hcard : HasCard "Ref 12: 4111111111111111, code 123".toList :=
    ⟨"Ref 12: ".toList,"4111111111111111".toList,", code 123".toList,rfl,
      ⟨rfl,rfl,'4',"111111111111111".toList,15,rfl,rfl,spaced_of_all rfl rfl,by omega,by omega⟩,rfl⟩
  -- a colon stands before the blank in front of the card, and no separator behind it
  have hapart : Apart isDecimal "REF 12: ".toList.reverse ", CODE 123".toList := by
    constructor
    · intro c d text htext _
      have hrest := (List.cons.inj (show ' ' :: ':' :: "21 FER".toList = c :: d :: text from htext)).2
      rw [← (List.cons.inj hrest).1]
      rfl
    · intro c d text htext hsep
      rw [← (List.cons.inj (show ',' :: " CODE 123".toList = c :: d :: text from htext)).1] at hsep
      cases hsep
  have hdetected : Detected (upperText "Ref 12: 4111111111111111, code 123") :=
    @detected_of_apart _ "REF 12: ".toList "4111111111111111".toList ", CODE 123".toList
      ⟨rfl,rfl,'4',"111111111111111".toList,15,rfl,rfl,spaced_of_all rfl rfl,by omega,by omega⟩ rfl
      hapart
  exact ⟨(withheld_card_iff _ hcard).mpr hdetected,hdetected⟩

/-- A verification code after the card is taken for its last digits. -/
theorem card_with_code_kept :
    letI := Interpreter.ascii id
    HasCard "4111111111111111 123".toList ∧ ¬ Withheld "4111111111111111 123" :=
  letI := Interpreter.ascii id
  ⟨⟨[],"4111111111111111".toList," 123".toList,rfl,
    ⟨rfl,rfl,'4',"111111111111111".toList,15,rfl,rfl,spaced_of_all rfl rfl,by omega,by omega⟩,rfl⟩,
    fun h => absurd h.label (by decide +kernel)⟩

end DataPolicy
end LeadEngine
