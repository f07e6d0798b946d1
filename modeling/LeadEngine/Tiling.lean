import LeadEngine.Pattern

/-! The non-overlapping matches of a pattern as a tiling of the text: from left to right, at each
place the longest segment that matches there. A pattern whose backtracking tries longer matches
first is found in this way. -/
namespace LeadEngine
namespace Pattern

variable {isWord : Char → Bool}

def Matches (isWord : Char → Bool) (r : Pattern) (before seg rest : List Char) : Prop :=
  ⟨seg.reverse ++ before,rest⟩ ∈ ends isWord r ⟨before,seg ++ rest⟩

/-- Leftmost longest segments of the text after a place, and nothing that matches between them. -/
inductive Tiling (Tile : List Char → List Char → List Char → Prop) :
    List Char → List Char → List (List Char) → Prop
  | done (before : List Char) : Tiling Tile before [] []
  | skip {before after : List Char} {c : Char} {tiles : List (List Char)}
      (hno : ∀ seg rest, c :: after = seg ++ rest → ¬ Tile before seg rest)
      (h : Tiling Tile (c :: before) after tiles) : Tiling Tile before (c :: after) tiles
  | tile {before seg rest : List Char} {tiles : List (List Char)} (hseg : seg ≠ [])
      (htile : Tile before seg rest)
      (hlongest : ∀ seg' rest', seg ++ rest = seg' ++ rest' → Tile before seg' rest' →
        seg'.length ≤ seg.length)
      (h : Tiling Tile (seg.reverse ++ before) rest tiles) :
      Tiling Tile before (seg ++ rest) (seg :: tiles)

structure Orderly (isWord : Char → Bool) (r : Pattern) : Prop where
  longestFirst : ∀ at', (ends isWord r at').Pairwise fun p q => p.after.length < q.after.length
  advances : ∀ at', ∀ stop ∈ ends isWord r at', stop.after.length < at'.after.length

/-- A text has one tiling. -/
theorem Tiling.unique {Tile : List Char → List Char → List Char → Prop}
    {before after : List Char} {tiles tiles' : List (List Char)}
    (h : Tiling Tile before after tiles) (h' : Tiling Tile before after tiles') :
    tiles = tiles' := by
  induction h generalizing tiles' with
  | done before =>
    generalize hafter : ([] : List Char) = after at h'
    cases h' with
    | done => rfl
    | skip => cases hafter
    | tile hseg => exact absurd (List.append_eq_nil_iff.mp hafter.symm).1 hseg
  | @skip before after c tiles hno h ih =>
    generalize hafter : c :: after = after' at h'
    cases h' with
    | done => cases hafter
    | skip _ h' =>
      cases hafter
      exact ih h'
    | tile _ htile => exact absurd htile (hno _ _ hafter)
  | @tile before seg rest tiles hseg htile hlongest h ih =>
    generalize hafter : seg ++ rest = after' at h'
    cases h' with
    | done => exact absurd (List.append_eq_nil_iff.mp hafter).1 hseg
    | skip hno => exact absurd htile (hno _ _ hafter.symm)
    | @tile _ seg' rest' _ _ htile' hlongest' h' =>
      have hlength := Nat.le_antisymm (hlongest' seg rest hafter.symm htile)
        (hlongest seg' rest' hafter htile')
      obtain ⟨rfl,rfl⟩ := List.append_inj hafter hlength
      rw [ih h']

/-- A segment is a tile when every match that starts before it ends before it and no match from
its start is longer. -/
theorem Tiling.mem_of_longest {Tile : List Char → List Char → List Char → Prop}
    {before after : List Char} {tiles : List (List Char)} (h : Tiling Tile before after tiles)
    {pre seg rest : List Char} (hafter : after = pre ++ (seg ++ rest)) (hseg : seg ≠ [])
    (htile : Tile (pre.reverse ++ before) seg rest)
    (hfirst : ∀ pre' seg' rest', after = pre' ++ (seg' ++ rest') →
      Tile (pre'.reverse ++ before) seg' rest' → pre'.length < pre.length →
        (pre' ++ seg').length ≤ pre.length)
    (hlongest : ∀ seg' rest', seg ++ rest = seg' ++ rest' →
      Tile (pre.reverse ++ before) seg' rest' → seg'.length ≤ seg.length) : seg ∈ tiles := by
  induction h generalizing pre with
  | done before => simp_all
  | @skip before after c tiles hno h ih =>
    cases pre with
    | nil => exact absurd htile (hno _ _ hafter)
    | cons c' pre =>
      obtain ⟨rfl,rfl⟩ := List.cons.inj hafter
      refine ih rfl (by simpa using htile) (fun pre' seg' rest' heq htile' hlt => ?_)
        (by simpa using hlongest)
      have hle := hfirst (c :: pre') seg' rest' (by rw [heq]; rfl) (by simpa using htile')
        (Nat.succ_lt_succ hlt)
      exact Nat.le_of_succ_le_succ hle
  | @tile before seg₀ rest₀ tiles hseg₀ htile₀ hlongest₀ h ih =>
    by_cases hends : seg₀.length ≤ pre.length
    · -- the tile ends before the segment
      obtain ⟨pre₁,rfl⟩ : seg₀ <+: pre := List.prefix_of_prefix_length_le
        (List.prefix_append seg₀ rest₀) (hafter ▸ List.prefix_append pre _) hends
      rw [List.append_assoc] at hafter
      obtain rfl := List.append_cancel_left hafter
      refine .tail _ (ih rfl (by simpa using htile) (fun pre' seg' rest' heq htile' hlt => ?_)
        (by simpa using hlongest))
      have hle := hfirst (seg₀ ++ pre') seg' rest' (by rw [heq,List.append_assoc])
        (by simpa using htile') (by simpa using hlt)
      simpa using hle
    · -- it starts where the segment does, and both are the longest there
      have hpre : pre = [] := by
        by_contra hne
        exact hends (hfirst [] seg₀ rest₀ rfl htile₀ (List.length_pos_of_ne_nil hne))
      subst hpre
      rw [List.nil_append] at hafter
      have hlength := Nat.le_antisymm (hlongest seg₀ rest₀ hafter.symm htile₀)
        (hlongest₀ seg rest hafter htile)
      obtain ⟨rfl,-⟩ := List.append_inj hafter hlength
      exact .head _

section Ends

theorem mem_ends_seq {a b : Pattern} {p stop : Place} :
    stop ∈ ends isWord (.seq a b) p ↔ ∃ q ∈ ends isWord a p, stop ∈ ends isWord b q :=
  List.mem_flatMap

theorem mem_ends_boundary {p stop : Place} : stop ∈ ends isWord .boundary p ↔
    p.before.head?.any isWord ≠ p.after.head?.any isWord ∧ stop = p := by
  simp only [ends]
  split_ifs with h
  · simp [h]
  · simp [h]

theorem sublist_boundary (places : List Place) :
    (places.flatMap (ends isWord .boundary)).Sublist places := by
  induction places with
  | nil => exact .slnil
  | cons p places ih =>
    rw [List.flatMap_cons,ends]
    split_ifs
    · exact ih.cons_cons p
    · exact ih.cons p

theorem pairwise_flatMap_of_length_le_one {α β : Type} {R : β → β → Prop} {l : List α}
    {f : α → List β} (hl : l.length ≤ 1) (hf : ∀ a ∈ l, (f a).Pairwise R) :
    (l.flatMap f).Pairwise R := by
  cases l with
  | nil => exact .nil
  | cons a l =>
    obtain rfl : l = [] := List.eq_nil_of_length_eq_zero (by simpa using hl)
    simpa using hf a

theorem place_of_repeatGreedy {next : Place → List Place} {P : Place → Place → Prop}
    (hrefl : ∀ p, P p p) (htrans : ∀ p q, q ∈ next p → ∀ r, P q r → P p r) (most : ℕ)
    {least : ℕ} {p stop : Place} (h : stop ∈ repeatGreedy next least most p) : P p stop := by
  induction most generalizing least p with
  | zero =>
    simp only [repeatGreedy] at h
    split_ifs at h
    · obtain rfl := List.mem_singleton.mp h
      exact hrefl stop
    · cases h
  | succ most ih =>
    obtain h | h := List.mem_append.mp h
    · obtain ⟨q,hq,hstop⟩ := List.mem_flatMap.mp h
      exact htrans p q hq stop (ih hstop)
    · split_ifs at h
      · obtain rfl := List.mem_singleton.mp h
        exact hrefl stop
      · cases h

def Reaches (p q : Place) : Prop :=
  ∃ seg, p.after = seg ++ q.after ∧ q.before = seg.reverse ++ p.before

theorem Reaches.refl (p : Place) : Reaches p p := ⟨[],rfl,rfl⟩

theorem Reaches.trans {p q r : Place} (h : Reaches p q) (h' : Reaches q r) : Reaches p r := by
  obtain ⟨seg,hafter,hbefore⟩ := h
  obtain ⟨seg',hafter',hbefore'⟩ := h'
  refine ⟨seg ++ seg',?_,?_⟩
  · rw [hafter,hafter',List.append_assoc]
  · rw [hbefore',hbefore,List.reverse_append,List.append_assoc]

/-- Every match ends further on in the text. -/
theorem reaches_of_mem_ends (r : Pattern) {p stop : Place} (h : stop ∈ ends isWord r p) :
    Reaches p stop := by
  induction r generalizing p stop with
  | chr test =>
    obtain ⟨before,after⟩ := p
    cases after with
    | nil => cases h
    | cons c after =>
      simp only [ends] at h
      split_ifs at h
      · obtain rfl := List.mem_singleton.mp h
        exact ⟨[c],rfl,rfl⟩
      · cases h
  | seq a b iha ihb =>
    obtain ⟨q,hq,hstop⟩ := List.mem_flatMap.mp h
    exact (iha hq).trans (ihb hstop)
  | opt a ih =>
    obtain h | h := List.mem_append.mp h
    · exact ih h
    · obtain rfl := List.mem_singleton.mp h
      exact .refl stop
  | rep a least most ih =>
    exact place_of_repeatGreedy Reaches.refl (fun _ _ hq _ => (ih hq).trans) most h
  | boundary =>
    simp only [ends] at h
    split_ifs at h
    · obtain rfl := List.mem_singleton.mp h
      exact .refl stop
    · cases h

end Ends

section Scan

variable {r : Pattern}

theorem matches_iff {before seg rest : List Char} {stop : Place}
    (h : stop ∈ ends isWord r ⟨before,seg ++ rest⟩) (hrest : stop.after = rest) :
    stop = ⟨seg.reverse ++ before,rest⟩ := by
  obtain ⟨seg',hafter,hbefore⟩ := reaches_of_mem_ends r h
  rw [hrest] at hafter
  obtain rfl := List.append_cancel_right hafter
  rw [← hrest,← hbefore]

/-- The scan of an orderly pattern finds the tiles of the text. -/
theorem findFrom_tiling (h : Orderly isWord r) (fuel : ℕ) {before after : List Char}
    (hfuel : after.length < fuel) :
    Tiling (Matches isWord r) before after (findFrom isWord r fuel ⟨before,after⟩) := by
  induction fuel generalizing before after with
  | zero => cases hfuel
  | succ fuel ih =>
    rw [findFrom]
    cases hends : ends isWord r ⟨before,after⟩ with
    | nil =>
      cases after with
      | nil => exact .done before
      | cons c after =>
        refine .skip (fun seg rest hseg hmatch => ?_) (ih (Nat.lt_of_succ_lt_succ hfuel))
        rw [Matches,← hseg,hends] at hmatch
        cases hmatch
    | cons stop others =>
      have hstop : stop ∈ ends isWord r ⟨before,after⟩ := by simp [hends]
      have hshorter : stop.after.length < after.length := h.advances _ stop hstop
      obtain ⟨seg,hafter,hbefore⟩ := reaches_of_mem_ends r hstop
      replace hafter : after = seg ++ stop.after := hafter
      subst hafter
      have htaken : (seg ++ stop.after).take
          ((seg ++ stop.after).length - stop.after.length) = seg := by simp
      simp only [List.head?_cons,if_pos hshorter,htaken]
      have hplace : stop = ⟨seg.reverse ++ before,stop.after⟩ := matches_iff hstop rfl
      refine .tile ?_ ?_ (fun seg' rest' heq hmatch => ?_) ?_
      · rintro rfl
        simp at hshorter
      · rw [Matches,← hplace]
        exact hstop
      · -- the first end is the furthest
        rw [Matches,← heq,hends] at hmatch
        have hlength : seg.length + stop.after.length = seg'.length + rest'.length := by
          simpa using congrArg List.length heq
        have hfirst := h.longestFirst ⟨before,seg ++ stop.after⟩
        rw [hends,List.pairwise_cons] at hfirst
        obtain hsame | hother := List.mem_cons.mp hmatch
        · have hrest : rest' = stop.after := congrArg Place.after hsame
          rw [hrest] at hlength
          omega
        · have hlater : stop.after.length < rest'.length := hfirst.1 _ hother
          omega
      · rw [hplace]
        exact ih (Nat.lt_of_lt_of_le hshorter (Nat.le_of_lt_succ hfuel))

theorem findAll_tiling (h : Orderly isWord r) (text : List Char) :
    Tiling (Matches isWord r) [] text (r.findAll isWord text) :=
  findFrom_tiling h (text.length+1) (Nat.lt_succ_self _)

end Scan

section Greedy

variable {next : Place → List Place}

inductive Steps (next : Place → List Place) : ℕ → Place → Place → Prop
  | done (p : Place) : Steps next 0 p p
  | step {n : ℕ} {p q stop : Place} (hq : q ∈ next p) (h : Steps next n q stop) :
      Steps next (n+1) p stop

theorem mem_repeatGreedy {least most : ℕ} {p stop : Place} :
    stop ∈ repeatGreedy next least most p ↔ ∃ n, least ≤ n ∧ n ≤ most ∧ Steps next n p stop := by
  induction most generalizing least p with
  | zero =>
    simp only [repeatGreedy]
    constructor
    · intro h
      split_ifs at h with hleast
      · obtain rfl := List.mem_singleton.mp h
        exact ⟨0,by omega,Nat.le_refl 0,.done stop⟩
      · cases h
    · rintro ⟨n,hleast,hmost,h⟩
      obtain rfl : n = 0 := by omega
      obtain rfl : least = 0 := by omega
      cases h
      simp
  | succ most ih =>
    rw [repeatGreedy,List.mem_append,List.mem_flatMap]
    constructor
    · rintro (⟨q,hq,h⟩ | h)
      · obtain ⟨n,hleast,hmost,hsteps⟩ := ih.mp h
        exact ⟨n+1,by omega,by omega,.step hq hsteps⟩
      · split_ifs at h with hleast
        · obtain rfl := List.mem_singleton.mp h
          exact ⟨0,by omega,by omega,.done stop⟩
        · cases h
    · rintro ⟨n,hleast,hmost,h⟩
      cases h with
      | done =>
        obtain rfl : least = 0 := by omega
        exact .inr (by simp)
      | @step n _ q _ hq hsteps =>
        exact .inl ⟨q,hq,ih.mpr ⟨n,by omega,by omega,hsteps⟩⟩

/-- A step that has one result, further on, makes a repetition try its longest match first. -/
theorem repeatGreedy_longestFirst (hone : ∀ p, (next p).length ≤ 1)
    (hadvances : ∀ p, ∀ q ∈ next p, q.after.length < p.after.length) {least most : ℕ} (p : Place) :
    (∀ q ∈ repeatGreedy next least most p, q.after.length ≤ p.after.length) ∧
      (repeatGreedy next least most p).Pairwise fun q r => q.after.length < r.after.length := by
  induction most generalizing least p with
  | zero =>
    simp only [repeatGreedy]
    split_ifs <;> simp
  | succ most ih =>
    have hfirst : ∀ q ∈ (next p).flatMap (repeatGreedy next (least-1) most),
        q.after.length < p.after.length := by
      intro q hq
      obtain ⟨x,hx,hq⟩ := List.mem_flatMap.mp hq
      exact Nat.lt_of_le_of_lt ((ih x).1 q hq) (hadvances p x hx)
    have hordered : ((next p).flatMap (repeatGreedy next (least-1) most)).Pairwise
        fun q r => q.after.length < r.after.length :=
      pairwise_flatMap_of_length_le_one (hone p) fun x _ => (ih x).2
    rw [repeatGreedy]
    constructor
    · intro q hq
      obtain hq | hq := List.mem_append.mp hq
      · exact Nat.le_of_lt (hfirst q hq)
      · split_ifs at hq
        · obtain rfl := List.mem_singleton.mp hq
          exact Nat.le_refl _
        · cases hq
    · refine List.pairwise_append.mpr ⟨hordered,by split_ifs <;> simp,fun q hq x hx => ?_⟩
      split_ifs at hx
      · obtain rfl := List.mem_singleton.mp hx
        exact hfirst q hq
      · cases hx

end Greedy

end Pattern
end LeadEngine
