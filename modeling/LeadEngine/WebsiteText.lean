import LeadEngine.Substitution
import LeadEngine.Website
import LeadEngine.Words

/-! What the agents are given of a website: a text without tags in which runs of white space are
single blanks, made of the letters of the page in their order. -/
namespace LeadEngine
namespace Onboarding

open Substitution Words Interpreter

section Matches

theorem substituted_substitute {next : List Char → Option (List Char)} {by' : List Char}
    (hproper : Proper next) (fuel : ℕ) (text : List Char) (hfuel : text.length < fuel) :
    Substituted next by' text (substitute next by' fuel text) := by
  induction fuel generalizing text with
  | zero => exact absurd hfuel (Nat.not_lt_zero _)
  | succ fuel ih =>
    cases text with
    | nil => exact .nil
    | cons c rest =>
      rw [substitute]
      cases hmatch : next (c :: rest) with
      | none =>
        rw [List.length_cons] at hfuel
        exact .miss hmatch (ih rest (by omega))
      | some after =>
        have hlt := (hproper _ _ hmatch).2
        exact .hit hmatch (ih after (by omega))

theorem substituted_sub {next : List Char → Option (List Char)} {by' : List Char}
    (hproper : Proper next) (text : List Char) : Substituted next by' text (sub next by' text) :=
  substituted_substitute hproper _ text (Nat.lt_succ_self _)

theorem afterBracket_suffix {text after : List Char} (h : afterBracket text = some after) :
    after <:+ text ∧ after.length < text.length := by
  induction text with
  | nil => cases h
  | cons c rest ih =>
    rw [afterBracket] at h
    split_ifs at h with hc
    · obtain rfl := Option.some.inj h
      exact ⟨List.suffix_cons c _,Nat.lt_succ_self _⟩
    · obtain ⟨hsuffix,hlt⟩ := ih h
      exact ⟨hsuffix.trans (List.suffix_cons c rest),Nat.lt_succ_of_lt hlt⟩

theorem afterBracket_eq_none {text : List Char} : afterBracket text = none ↔ '>' ∉ text := by
  induction text with
  | nil => simp [afterBracket]
  | cons c rest ih =>
    rw [afterBracket]
    split_ifs with hc
    · simp [hc]
    · rw [ih,List.mem_cons,not_or]
      exact ⟨fun h => ⟨Ne.symm hc,h⟩,And.right⟩

theorem afterName_suffix {same : Char → Char → Bool} {name text after : List Char}
    (h : afterName same name text = some after) : after <:+ text := by
  induction name generalizing text with
  | nil =>
    obtain rfl := Option.some.inj h
    exact List.suffix_rfl
  | cons p name ih =>
    cases text with
    | nil => cases h
    | cons c rest =>
      rw [afterName] at h
      split_ifs at h
      exact (ih h).trans (List.suffix_cons c rest)

theorem afterClose_suffix {name text after : List Char} (h : afterClose name text = some after) :
    after <:+ text := by
  induction text with
  | nil => cases h
  | cons c rest ih =>
    rw [afterClose] at h
    split at h
    · rename_i hclose
      obtain rfl := Option.some.inj h
      exact afterName_suffix hclose
    · exact (ih h).trans (List.suffix_cons c rest)

theorem proper_afterTag : Proper afterTag := by
  intro text after h
  unfold afterTag at h
  split at h
  · rename_i c rest
    split_ifs at h
    obtain ⟨hsuffix,hlt⟩ := afterBracket_suffix h
    refine ⟨hsuffix.trans ((List.suffix_cons c rest).trans (List.suffix_cons _ _)),?_⟩
    simp only [List.length_cons]
    omega
  · cases h

theorem afterElement_inv {text after : List Char} (h : afterElement text = some after) :
    ∃ rest name attributes content, text = '<' :: rest ∧ (name = "script" ∨ name = "style") ∧
      afterName matchesLetter name.toList rest = some attributes ∧
      afterBracket attributes = some content ∧ after <:+ content := by
  unfold afterElement at h
  split at h
  · rename_i rest
    obtain ⟨name,hname,hmatch⟩ := List.exists_of_findSome?_eq_some h
    obtain ⟨attributes,hattributes,hrest⟩ := Option.bind_eq_some_iff.mp hmatch
    obtain ⟨content,hcontent,hclose⟩ := Option.bind_eq_some_iff.mp hrest
    exact ⟨rest,name,attributes,content,rfl,by simpa using hname,hattributes,hcontent,
      afterClose_suffix hclose⟩
  · cases h

theorem proper_afterElement : Proper afterElement := by
  intro text after h
  obtain ⟨rest,name,attributes,content,rfl,_,hattributes,hcontent,hafter⟩ := afterElement_inv h
  obtain ⟨hsuffix,_⟩ := afterBracket_suffix hcontent
  have hrest := hafter.trans (hsuffix.trans (afterName_suffix hattributes))
  exact ⟨hrest.trans (List.suffix_cons _ rest),Nat.lt_succ_of_le hrest.length_le⟩

end Matches

section Tags

def Closed (text : List Char) : Prop := text.head? = some '>' ∨ '>' ∉ text

theorem afterTag_eq_none {c : Char} {rest : List Char} :
    afterTag (c :: rest) = none ↔ (c = '<' → Closed rest) := by
  by_cases hc : c = '<'
  · subst hc
    cases rest with
    | nil => simp [afterTag,Closed]
    | cons d rest =>
      by_cases hd : d = '>'
      · simp [afterTag,Closed,hd]
      · simp [afterTag,Closed,hd,afterBracket_eq_none,Ne.symm hd]
  · refine ⟨fun _ heq => absurd heq hc,fun _ => ?_⟩
    unfold afterTag
    split
    · rename_i heq
      exact absurd (List.cons.inj heq).1 hc
    · rfl

theorem Closed.substituted {next : List Char → Option (List Char)} {text out : List Char}
    (hproper : Proper next) (hbracket : ∀ rest, next ('>' :: rest) = none) (h : Closed text)
    (hout : Substituted next [' '] text out) : Closed out := by
  rcases h with hhead | hnone
  · obtain ⟨rest,rfl⟩ := List.head?_eq_some_iff.mp hhead
    exact .inl (hout.head (hbracket rest))
  · refine .inr fun hmem => ?_
    rcases hout.mem hproper hmem with hblank | hmem
    · simp at hblank
    · exact hnone hmem

theorem afterTag_blank (rest : List Char) : afterTag (' ' :: rest) = none :=
  afterTag_eq_none.mpr fun h => absurd h (by decide)

theorem free_afterTag {text out : List Char} (h : Substituted afterTag [' '] text out) :
    Free afterTag out := by
  have hbracket : ∀ rest, afterTag ('>' :: rest) = none := fun rest =>
    afterTag_eq_none.mpr fun h => absurd h (by decide)
  induction h with
  | nil => exact fun rest hrest => by rw [List.suffix_nil.mp hrest]; rfl
  | hit _ _ ih => exact free_cons.mpr ⟨afterTag_blank _,ih⟩
  | miss hnone hrest ih =>
    refine free_cons.mpr ⟨afterTag_eq_none.mpr fun hc => ?_,ih⟩
    exact (afterTag_eq_none.mp hnone hc).substituted proper_afterTag hbracket hrest

theorem free_of_prefix {text front : List Char} (h : Free afterTag text) (hfront : front <+: text) :
    Free afterTag front := by
  induction front generalizing text with
  | nil => exact fun rest hrest => by rw [List.suffix_nil.mp hrest]; rfl
  | cons c front ih =>
    obtain ⟨back,rfl⟩ := hfront
    obtain ⟨hhead,htail⟩ := free_cons.mp h
    refine free_cons.mpr ⟨afterTag_eq_none.mpr fun hc => ?_,ih htail (List.prefix_append _ _)⟩
    rcases afterTag_eq_none.mp hhead hc with hclose | hnone
    · cases front with
      | nil => exact .inr List.not_mem_nil
      | cons d front => exact .inl hclose
    · exact .inr fun hmem => hnone (List.mem_append_left _ hmem)

theorem free_of_part {text part : List Char} (h : Free afterTag text) (hpart : part <:+: text) :
    Free afterTag part := by
  obtain ⟨front,back,rfl⟩ := hpart
  exact free_of_prefix (h.suffix (List.append_assoc .. ▸ List.suffix_append front (part ++ back)))
    (List.prefix_append _ _)

theorem free_afterElement {text : List Char} (h : Free afterTag text) : Free afterElement text := by
  intro rest hrest
  by_contra hmatch
  obtain ⟨after,hafter⟩ := Option.ne_none_iff_exists'.mp hmatch
  obtain ⟨body,name,attributes,content,rfl,hname,hattributes,hcontent,_⟩ := afterElement_inv hafter
  obtain ⟨letters,hletters⟩ : ∃ letters, name.toList = 's' :: letters := by
    rcases hname with rfl | rfl
    · exact ⟨_,rfl⟩
    · exact ⟨_,rfl⟩
  have hclose : '>' ∈ body := by
    have hmem : '>' ∈ attributes := by
      by_contra hnone
      rw [afterBracket_eq_none.mpr hnone] at hcontent
      cases hcontent
    exact (afterName_suffix hattributes).subset hmem
  rcases afterTag_eq_none.mp (h _ hrest) rfl with hhead | hnone
  · obtain ⟨tail,rfl⟩ := List.head?_eq_some_iff.mp hhead
    rw [hletters,afterName,if_neg (by decide)] at hattributes
    cases hattributes
  · exact hnone hclose

end Tags

section Blanks

variable [Interpreter]

theorem isSpace_blank : isSpace ' ' = true := by rw [isSpace_ascii ' ' (by decide)]; decide

theorem isSpace_bracket : isSpace '>' = false := by rw [isSpace_ascii '>' (by decide)]; decide

/-- White space is blanks, and no two of them in a row. -/
structure Spaced (text : List Char) : Prop where
  blanks : ∀ c ∈ text, isSpace c = true → c = ' '
  single : text.IsChain fun c d => isSpace c = true → isSpace d = false

theorem Spaced.of_part {text part : List Char} (h : Spaced text) (hpart : part <:+: text) :
    Spaced part :=
  ⟨fun c hc => h.blanks c (hpart.subset hc), List.IsChain.infix h.single hpart⟩

theorem Spaced.cons {c : Char} {text : List Char} (h : Spaced text)
    (hblank : isSpace c = true → c = ' ')
    (hsingle : ∀ d ∈ text.head?, isSpace c = true → isSpace d = false) : Spaced (c :: text) :=
  ⟨List.forall_mem_cons.mpr ⟨hblank,h.blanks⟩,List.isChain_cons.mpr ⟨hsingle,h.single⟩⟩

theorem afterSpaces_of_not_space {c : Char} {rest : List Char} (h : isSpace c = false) :
    afterSpaces (c :: rest) = none := by
  simp [afterSpaces,h]

theorem afterSpaces_inv {text after : List Char} (h : afterSpaces text = some after) :
    ∃ c rest, text = c :: rest ∧ isSpace c = true ∧ after = rest.dropWhile isSpace := by
  unfold afterSpaces at h
  split at h
  · rename_i c rest
    split_ifs at h with hc
    exact ⟨c,rest,rfl,hc,(Option.some.inj h).symm⟩
  · cases h

theorem proper_afterSpaces : Proper afterSpaces := by
  intro text after h
  obtain ⟨c,rest,rfl,_,rfl⟩ := afterSpaces_inv h
  have hsuffix := List.dropWhile_suffix (l:=rest) (p:=isSpace)
  exact ⟨hsuffix.trans (List.suffix_cons c rest),Nat.lt_succ_of_le hsuffix.length_le⟩

theorem spaced_afterSpaces {text out : List Char} (h : Substituted afterSpaces [' '] text out) :
    Spaced out := by
  induction h with
  | nil => exact ⟨by simp,List.IsChain.nil⟩
  | @hit text after out hmatch hrest ih =>
    refine ih.cons (fun _ => rfl) fun d hd _ => ?_
    obtain ⟨_,rest,_,_,rfl⟩ := afterSpaces_inv hmatch
    have hhead := List.head?_dropWhile_not isSpace rest
    cases hafter : rest.dropWhile isSpace with
    | nil =>
      rw [hafter] at hrest
      cases hrest with
      | nil => cases hd
      | hit hnone => rw [proper_afterSpaces.nil] at hnone; cases hnone
    | cons e tail =>
      rw [hafter] at hrest hhead
      rw [hrest.head (afterSpaces_of_not_space hhead)] at hd
      obtain rfl := Option.some.inj hd
      exact hhead
  | @miss c text out hnone _ ih =>
    have hc : isSpace c = false := by
      by_contra hspace
      simp [afterSpaces,hspace] at hnone
    exact ih.cons (fun hspace => by simp [hc] at hspace) fun _ _ hspace => by simp [hc] at hspace

theorem free_afterSpaces {text out : List Char} (h : Free afterTag text)
    (hout : Substituted afterSpaces [' '] text out) : Free afterTag out := by
  induction hout with
  | nil => exact h
  | hit hmatch _ ih =>
    exact free_cons.mpr ⟨afterTag_blank _,ih (h.suffix (proper_afterSpaces _ _ hmatch).1)⟩
  | miss hnone hrest ih =>
    obtain ⟨hhead,htail⟩ := free_cons.mp h
    refine free_cons.mpr ⟨afterTag_eq_none.mpr fun hc => ?_,ih htail⟩
    exact (afterTag_eq_none.mp hhead hc).substituted proper_afterSpaces
      (fun _ => afterSpaces_of_not_space isSpace_bracket) hrest

theorem Spaced.substituted {text : List Char} (h : Spaced text) :
    Substituted afterSpaces [' '] text text := by
  induction text with
  | nil => exact .nil
  | cons c rest ih =>
    have hrest := ih (h.of_part (List.suffix_cons c rest).isInfix)
    cases hc : isSpace c with
    | false => exact .miss (afterSpaces_of_not_space hc) hrest
    | true =>
      obtain rfl := h.blanks c List.mem_cons_self hc
      have hhead := (List.isChain_cons.mp h.single).1
      have hdrop : rest.dropWhile isSpace = rest := by
        cases rest with
        | nil => rfl
        | cons d tail => rw [List.dropWhile_cons,if_neg (by simp [hhead d rfl hc])]
      exact .hit (by simp [afterSpaces,hc,hdrop]) hrest

/-- A text that is left as it is: no tags, single blanks and none at the ends. -/
structure Plain (text : List Char) : Prop where
  free : Free afterTag text
  spaced : Spaced text
  first : ∀ c ∈ text.head?, isSpace c = false
  last : ∀ c ∈ text.getLast?, isSpace c = false

theorem toList_stripHtml (html : String) : (stripHtml html).toList = trim isSpace
    (sub afterSpaces [' '] (sub afterTag [' '] (sub afterElement [] html.toList))) := by
  simp [stripHtml,strip,trim,List.rdropWhile]

theorem plain_stripHtml (html : String) : Plain (stripHtml html).toList := by
  let text := sub afterTag [' '] (sub afterElement [] html.toList)
  have hspaces : Substituted afterSpaces [' '] text (sub afterSpaces [' '] text) :=
    substituted_sub proper_afterSpaces text
  have htrim := trim_infix isSpace (sub afterSpaces [' '] text)
  rw [toList_stripHtml]
  have hfree := free_afterSpaces (free_afterTag (substituted_sub proper_afterTag _)) hspaces
  exact ⟨free_of_part hfree htrim,(spaced_afterSpaces hspaces).of_part htrim,head?_trim _ _,
    getLast?_trim _ _⟩

theorem Plain.stripHtml_eq {text : String} (h : Plain text.toList) : stripHtml text = text := by
  have hkept : ∀ {next : List Char → Option (List Char)} {by' : List Char}, Proper next →
      Substituted next by' text.toList text.toList → sub next by' text.toList = text.toList :=
    fun hproper hsame => (substituted_sub hproper _).unique hproper hsame
  have htrim : trim isSpace text.toList = text.toList := by
    have hinfix : text.toList <:+: trim isSpace text.toList :=
      infix_rdropWhile h.last (infix_dropWhile h.first List.infix_rfl)
    have htrim := trim_infix isSpace text.toList
    exact htrim.eq_of_length_le hinfix.length_le
  apply String.toList_injective
  rw [toList_stripHtml,hkept proper_afterElement (free_afterElement h.free).substituted,
    hkept proper_afterTag h.free.substituted,hkept proper_afterSpaces h.spaced.substituted,htrim]

/-- The text of a page has no tag and no white space but single blanks between other letters, its
letters are letters of the page in their order, and the texts that `_strip_html` leaves alone are
exactly those of this form; a second pass changes nothing. -/
theorem stripHtml_spec (html : String) :
    Plain (stripHtml html).toList ∧ (stripHtml html = html ↔ Plain html.toList) ∧
      stripHtml (stripHtml html) = stripHtml html ∧
      ((stripHtml html).toList.filter fun c => !isSpace c).Sublist
        (html.toList.filter fun c => !isSpace c) := by
  have hplain := plain_stripHtml html
  have hblank : [' '].filter (fun c => !isSpace c) = [] := by simp [isSpace_blank]
  refine ⟨hplain,⟨fun h => h ▸ hplain,Plain.stripHtml_eq⟩,hplain.stripHtml_eq,?_⟩
  rw [toList_stripHtml]
  have htrim := trim_infix isSpace
    (sub afterSpaces [' '] (sub afterTag [' '] (sub afterElement [] html.toList)))
  exact (htrim.sublist.filter _).trans
    (((substituted_sub proper_afterSpaces _).sublist proper_afterSpaces hblank).trans
      (((substituted_sub proper_afterTag _).sublist proper_afterTag hblank).trans
        ((substituted_sub proper_afterElement _).sublist proper_afterElement rfl)))

end Blanks

end Onboarding
end LeadEngine
