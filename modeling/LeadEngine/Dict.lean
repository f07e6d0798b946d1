import Mathlib.Data.List.Nodup
import Mathlib.Data.List.TakeWhile

/-! Insertion-ordered dictionaries: association lists whose keys are distinct. -/
namespace LeadEngine

/-- A dictionary in insertion order; the field `nodup` rules out a repeated key. -/
structure Dict (κ α : Type) where
  entries : List (κ × α)
  nodup : (entries.map Prod.fst).Nodup
  deriving DecidableEq

namespace Dict

variable {κ α β : Type}

def empty : Dict κ α := ⟨[],List.nodup_nil⟩

def keys (d : Dict κ α) : List κ := d.entries.map Prod.fst

def isEmpty (d : Dict κ α) : Bool := d.entries.isEmpty

def get? [DecidableEq κ] (d : Dict κ α) (k : κ) : Option α :=
  (d.entries.find? fun e => e.1 = k).map Prod.snd

def mapValues (f : α → β) (d : Dict κ α) : Dict κ β where
  entries := d.entries.map fun e => (e.1,f e.2)
  nodup := by
    have h := d.nodup
    simpa [List.map_map,Function.comp_def] using h

def filter (p : κ → α → Bool) (d : Dict κ α) : Dict κ α where
  entries := d.entries.filter fun e => p e.1 e.2
  nodup := d.nodup.sublist (List.filter_sublist.map _)

def filterMap (f : κ → α → Option β) (d : Dict κ α) : Dict κ β where
  entries := d.entries.filterMap fun e => (f e.1 e.2).map (e.1,·)
  nodup := by
    refine d.nodup.sublist ?_
    induction d.entries with
    | nil => exact List.Sublist.slnil
    | cons e es ih =>
      cases h : f e.1 e.2 with
      | none => simpa [List.filterMap_cons,h] using ih.cons e.1
      | some v => simpa [List.filterMap_cons,h] using ih.cons_cons e.1

/-- `d[k] = v`: a present key keeps its place, a new one goes to the end. -/
def set [DecidableEq κ] (d : Dict κ α) (k : κ) (v : α) : Dict κ α :=
  if h : k ∈ d.keys then
    { entries := d.entries.map fun e => if e.1 = k then (k,v) else e
      nodup := by
        have he : (d.entries.map fun e => if e.1 = k then (k,v) else e).map Prod.fst =
            d.entries.map Prod.fst := by
          rw [List.map_map]
          refine List.map_congr_left fun e _ => ?_
          by_cases hk : e.1 = k <;> simp [hk]
        rw [he]
        exact d.nodup }
  else
    { entries := d.entries ++ [(k,v)]
      nodup := by
        rw [List.map_append,List.nodup_append]
        refine ⟨d.nodup,by simp,?_⟩
        intro a ha b hb hab
        obtain rfl : b = k := by simpa using hb
        exact h (hab ▸ ha) }

@[simp] theorem entries_empty : (empty : Dict κ α).entries = [] := rfl

@[simp] theorem entries_filter (p : κ → α → Bool) (d : Dict κ α) :
    (d.filter p).entries = d.entries.filter fun e => p e.1 e.2 := rfl

@[simp] theorem entries_filterMap (f : κ → α → Option β) (d : Dict κ α) :
    (d.filterMap f).entries = d.entries.filterMap fun e => (f e.1 e.2).map (e.1,·) := rfl

@[simp] theorem entries_mapValues (f : α → β) (d : Dict κ α) :
    (d.mapValues f).entries = d.entries.map fun e => (e.1,f e.2) := rfl

@[simp] theorem keys_mapValues (f : α → β) (d : Dict κ α) : (d.mapValues f).keys = d.keys := by
  simp [keys]

@[simp] theorem get?_mapValues [DecidableEq κ] (f : α → β) (d : Dict κ α) (k : κ) :
    (d.mapValues f).get? k = (d.get? k).map f := by
  simp [get?,List.find?_map,Function.comp_def]

theorem ext_entries {d d' : Dict κ α} (h : d.entries = d'.entries) : d = d' := by
  cases d
  cases d'
  simp_all

@[simp] theorem isEmpty_iff (d : Dict κ α) : d.isEmpty = true ↔ d.entries = [] :=
  List.isEmpty_iff

theorem mem_set [DecidableEq κ] {d : Dict κ α} {k : κ} {v : α} {e : κ × α}
    (h : e ∈ (d.set k v).entries) : e = (k,v) ∨ e ∈ d.entries := by
  unfold set at h
  split at h
  · obtain ⟨x,hx,rfl⟩ := List.mem_map.mp h
    by_cases hk : x.1 = k
    · exact Or.inl (by simp [hk])
    · exact Or.inr (by simpa [hk] using hx)
  · rcases List.mem_append.mp h with h | h
    · exact Or.inr h
    · exact Or.inl (List.mem_singleton.mp h)

theorem find?_assigned [DecidableEq κ] (entries : List (κ × α)) (k k' : κ) (v : α) :
    (entries.map fun e => if e.1 = k then (k,v) else e).find? (fun e => e.1 = k') =
      (entries.find? fun e => e.1 = k').map fun e => if e.1 = k then (k,v) else e := by
  rw [List.find?_map]
  congr 2
  funext e
  by_cases h : e.1 = k <;> simp [h]

/-- Reading after an assignment. -/
theorem get?_set [DecidableEq κ] (d : Dict κ α) (k k' : κ) (v : α) :
    (d.set k v).get? k' = if k' = k then some v else d.get? k' := by
  unfold set get?
  split
  · rename_i hmem
    rw [find?_assigned]
    cases hfound : d.entries.find? fun e => e.1 = k' with
    | none =>
      have hne : k' ≠ k := by
        rintro rfl
        obtain ⟨e,he,hk⟩ := List.mem_map.mp hmem
        exact absurd hk (by simpa using List.find?_eq_none.mp hfound e he)
      simp [hne]
    | some e =>
      have hk : e.1 = k' := by simpa using List.find?_some hfound
      by_cases h : k' = k <;> simp [hk,h]
  · rename_i hmem
    by_cases h : k' = k
    · subst h
      have hnone : d.entries.find? (fun e => e.1 = k') = none := by
        refine List.find?_eq_none.mpr fun e he => ?_
        simp only [decide_eq_true_eq]
        rintro rfl
        exact hmem (List.mem_map_of_mem he)
      simp [List.find?_append,hnone]
    · simp [List.find?_append,h,Ne.symm h]

theorem keys_set [DecidableEq κ] (d : Dict κ α) (k : κ) (v : α) :
    (d.set k v).keys = if k ∈ d.keys then d.keys else d.keys ++ [k] := by
  unfold set
  split_ifs
  · show List.map Prod.fst _ = d.keys
    rw [List.map_map]
    refine List.map_congr_left fun e _ => ?_
    by_cases h : e.1 = k <;> simp [h]
  · simp [keys]

theorem mem_keys_set [DecidableEq κ] {d : Dict κ α} {k k' : κ} {v : α} :
    k' ∈ (d.set k v).keys ↔ k' ∈ d.keys ∨ k' = k := by
  rw [keys_set]
  split_ifs with hmem
  · exact ⟨Or.inl,fun h => h.elim id fun h => h ▸ hmem⟩
  · simp

theorem mem_keys_foldl_set [DecidableEq κ] {γ : Type} (key : γ → κ) (value : γ → α)
    (items : List γ) (d : Dict κ α) {k : κ} :
    k ∈ (items.foldl (fun d x => d.set (key x) (value x)) d).keys ↔
      k ∈ d.keys ∨ ∃ x ∈ items, k = key x := by
  induction items generalizing d with
  | nil => simp
  | cons x rest ih => simp [ih,mem_keys_set,or_assoc]

theorem mem_entries [DecidableEq κ] {d : Dict κ α} {k : κ} {v : α} :
    (k,v) ∈ d.entries ↔ d.get? k = some v := by
  unfold get?
  constructor
  · intro h
    cases hfound : d.entries.find? fun e => e.1 = k with
    | none => exact absurd (decide_eq_true rfl) (List.find?_eq_none.mp hfound _ h)
    | some e =>
      have hk : e.1 = k := by simpa using List.find?_some hfound
      have he : e = (k,v) :=
        List.inj_on_of_nodup_map d.nodup (List.mem_of_find?_eq_some hfound) h hk
      simp [he]
  · intro h
    obtain ⟨e,hfound,rfl⟩ := Option.map_eq_some_iff.mp h
    obtain rfl : e.1 = k := by simpa using List.find?_some hfound
    exact List.mem_of_find?_eq_some hfound

/-- The first entry with a property: no key in front of its own has a value with it. -/
theorem find?_entries [DecidableEq κ] {d : Dict κ α} {p : κ × α → Bool} {k : κ} {v : α} :
    d.entries.find? p = some (k,v) ↔ d.get? k = some v ∧ p (k,v) = true ∧
      ∀ k' ∈ d.keys.takeWhile (· ≠ k), ∀ v', d.get? k' = some v' → p (k',v') = false := by
  have hsplit : ∀ {front back : List (κ × α)}, d.entries = front ++ (k,v) :: back →
      d.keys.takeWhile (· ≠ k) = front.map Prod.fst := by
    intro front back h
    have hnodup := d.nodup
    rw [h,List.map_append,List.map_cons,List.nodup_append] at hnodup
    rw [keys,h,List.map_append,List.map_cons,List.takeWhile_append_of_pos,
      List.takeWhile_cons_of_neg (by simp),List.append_nil]
    intro k' hk'
    simpa using hnodup.2.2 k' hk' k (by simp)
  rw [List.find?_eq_some_iff_append]
  constructor
  · rintro ⟨hp,front,back,h,hfront⟩
    refine ⟨mem_entries.mp (by rw [h]; simp),hp,fun k' hk' v' hv' => ?_⟩
    rw [hsplit h] at hk'
    obtain ⟨e,he,rfl⟩ := List.mem_map.mp hk'
    have hsame : e = (e.1,v') :=
      List.inj_on_of_nodup_map d.nodup (by rw [h]; simp [he]) (mem_entries.mpr hv') rfl
    rw [← hsame]
    simpa using hfront e he
  · rintro ⟨hget,hp,hnone⟩
    obtain ⟨front,back,h⟩ := List.append_of_mem (mem_entries.mpr hget)
    refine ⟨hp,front,back,h,fun e he => ?_⟩
    have hkey : e.1 ∈ d.keys.takeWhile (· ≠ k) := by
      rw [hsplit h]
      exact List.mem_map_of_mem he
    simpa using hnone e.1 hkey e.2 (mem_entries.mp (by rw [h]; simp [he]))

theorem get?_foldl_set [DecidableEq κ] {γ : Type} (key : γ → κ) (value : γ → α)
    (items : List γ) (d : Dict κ α) (k : κ) :
    (items.foldl (fun d x => d.set (key x) (value x)) d).get? k =
      ((items.reverse.find? fun x => key x = k).map value).or (d.get? k) := by
  induction items generalizing d with
  | nil => simp
  | cons x rest ih =>
    rw [List.foldl_cons,ih,get?_set,List.reverse_cons,List.find?_append]
    cases rest.reverse.find? fun x => key x = k with
    | some y => simp
    | none => by_cases h : k = key x <;> simp [h,eq_comm]

theorem mem_takeWhile_foldl_set [DecidableEq κ] {γ : Type} (key : γ → κ) (value : γ → α)
    (items : List γ) (d : Dict κ α) (k k' : κ) :
    k' ∈ (items.foldl (fun d x => d.set (key x) (value x)) d).keys.takeWhile (· ≠ k) ↔
      k' ∈ (d.keys ++ items.map key).takeWhile (· ≠ k) := by
  induction items generalizing d with
  | nil => simp
  | cons x rest ih =>
    rw [List.foldl_cons,ih,keys_set]
    split_ifs with hmem
    · simp only [List.takeWhile_append,List.map_cons]
      split_ifs with hall
      · have hx : key x ≠ k := by
          have hself := List.takeWhile_eq_self_iff.mp
            ((List.takeWhile_prefix _).eq_of_length hall) (key x) hmem
          simpa using hself
        rw [List.takeWhile_cons_of_pos (by simpa using hx)]
        simp only [List.mem_append,List.mem_cons]
        exact ⟨fun h => h.imp id Or.inr,fun h => h.elim Or.inl fun h => h.elim
          (fun h => Or.inl (h ▸ hmem)) Or.inr⟩
      · rfl
    · rw [List.map_cons,List.append_assoc,List.singleton_append]

theorem entries_foldl_set [DecidableEq κ] {γ : Type} (key : γ → κ) (value : γ → α)
    {items : List γ} {d : Dict κ α} (h : (d.keys ++ items.map key).Nodup) :
    (items.foldl (fun d x => d.set (key x) (value x)) d).entries =
      d.entries ++ items.map fun x => (key x,value x) := by
  induction items generalizing d with
  | nil => simp
  | cons x rest ih =>
    have hnew : key x ∉ d.keys := fun hmem =>
      (List.nodup_append.mp h).2.2 _ hmem _ (by simp) rfl
    have hset : (d.set (key x) (value x)).entries = d.entries ++ [(key x,value x)] := by
      rw [set,dif_neg hnew]
    rw [List.foldl_cons,ih,hset,List.append_assoc]
    · rfl
    · rwa [keys_set,if_neg hnew,List.append_assoc]

end Dict
end LeadEngine
