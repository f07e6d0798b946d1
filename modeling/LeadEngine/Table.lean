import Mathlib.Data.List.Pairwise
import Mathlib.Data.List.Basic

/-! Tables as lists of rows, with unique indexes over nullable keys and the
"at most one row" reading of a query result. -/
namespace LeadEngine
namespace Table

variable {α κ ε : Type*}

/-- A unique index over a nullable key; rows whose key is `none` never conflict. -/
def UniqueOn (key : α → Option κ) (rows : List α) : Prop :=
  rows.Pairwise fun a b => ∀ k, key a = some k → key b ≠ some k

/-- Inserting `x` would give some key to a second row. -/
def Conflicts (key : α → Option κ) (rows : List α) (x : α) : Prop :=
  ∃ r ∈ rows, key r = key x ∧ (key x).isSome

instance [DecidableEq κ] (key : α → Option κ) (rows : List α) (x : α) :
    Decidable (Conflicts key rows x) := by unfold Conflicts; infer_instance

theorem conflicts_append {key : α → Option κ} {rows rows' : List α} {x : α} :
    Conflicts key (rows ++ rows') x ↔ Conflicts key rows x ∨ Conflicts key rows' x := by
  simp only [Conflicts,List.mem_append,or_and_right,exists_or]

theorem conflicts_singleton_comm {key : α → Option κ} {x y : α} (h : Conflicts key [y] x) :
    Conflicts key [x] y := by
  obtain ⟨r,hr,hkey,hsome⟩ := h
  obtain rfl := List.mem_singleton.mp hr
  exact ⟨x,List.mem_singleton_self x,hkey.symm,hkey ▸ hsome⟩

theorem mem_of_mem_append {rows : List α} {r x : α} (h : r ∈ rows ++ [x]) (hne : r ≠ x) :
    r ∈ rows :=
  (List.mem_append.mp h).resolve_right fun hx => hne (List.mem_singleton.mp hx)

theorem UniqueOn.nil (key : α → Option κ) : UniqueOn key [] := List.Pairwise.nil

theorem UniqueOn.append_singleton {key : α → Option κ} {rows : List α} {x : α}
    (h : UniqueOn key rows) (hx : ¬ Conflicts key rows x) : UniqueOn key (rows ++ [x]) := by
  refine List.pairwise_append.mpr ⟨h,List.pairwise_singleton _ _,?_⟩
  intro r hr y hy k hk hk'
  obtain rfl := List.mem_singleton.mp hy
  exact hx ⟨r,hr,hk.trans hk'.symm,by simp [hk']⟩

theorem UniqueOn.map {key : α → Option κ} {rows : List α} {f : α → α} (h : UniqueOn key rows)
    (hf : ∀ r ∈ rows, ∀ k, key (f r) = some k → key r = some k) : UniqueOn key (rows.map f) := by
  refine List.pairwise_map.mpr (h.imp_of_mem ?_)
  intro a b ha hb hab k hk hk'
  exact hab k (hf a ha k hk) (hf b hb k hk')

theorem UniqueOn.eq_of_key {key : α → Option κ} {rows : List α} {a b : α} {k : κ}
    (h : UniqueOn key rows) (ha : a ∈ rows) (hb : b ∈ rows) (hka : key a = some k)
    (hkb : key b = some k) : a = b := by
  induction rows with
  | nil => simp at ha
  | cons x xs ih =>
    obtain ⟨hx,hxs⟩ := List.pairwise_cons.mp h
    rcases List.mem_cons.mp ha with hax | hax <;> rcases List.mem_cons.mp hb with hbx | hbx
    · rw [hax,hbx]
    · exact absurd hkb (hx b hbx k (hax ▸ hka))
    · exact absurd hka (hx a hax k (hbx ▸ hkb))
    · exact ih hxs hax hbx

theorem UniqueOn.sublist {key : α → Option κ} {rows rows' : List α} (h : UniqueOn key rows)
    (hsub : rows'.Sublist rows) : UniqueOn key rows' := List.Pairwise.sublist hsub h

theorem UniqueOn.perm {key : α → Option κ} {rows rows' : List α} (h : UniqueOn key rows)
    (hp : rows.Perm rows') : UniqueOn key rows' := by
  refine (hp.pairwise_iff ?_).mp h
  intro a b hab k hk hk'
  exact hab k hk' hk

/-- The rows a query by key selects. -/
def rowsAt [DecidableEq κ] (key : α → Option κ) (k : κ) (rows : List α) : List α :=
  rows.filter fun r => key r = some k

@[simp] theorem mem_rowsAt [DecidableEq κ] {key : α → Option κ} {k : κ} {rows : List α} {r : α} :
    r ∈ rowsAt key k rows ↔ r ∈ rows ∧ key r = some k := by
  simp [rowsAt]

theorem UniqueOn.rowsAt_length_le_one [DecidableEq κ] {key : α → Option κ} {rows : List α}
    (h : UniqueOn key rows) (k : κ) : (rowsAt key k rows).length ≤ 1 := by
  have hp : (rowsAt key k rows).Pairwise fun a b => ∀ k, key a = some k → key b ≠ some k :=
    h.filter _
  match hr : rowsAt key k rows with
  | [] => simp
  | [_] => simp
  | a :: b :: rest =>
    rw [hr] at hp
    have ha : a ∈ rowsAt key k rows := by simp [hr]
    have hb : b ∈ rowsAt key k rows := by simp [hr]
    exact absurd (mem_rowsAt.mp hb).2
      ((List.pairwise_cons.mp hp).1 b (by simp) k (mem_rowsAt.mp ha).2)

theorem UniqueOn.rowsAt_eq [DecidableEq κ] {key : α → Option κ} {rows : List α} {r : α} {k : κ}
    (h : UniqueOn key rows) (hr : r ∈ rows) (hk : key r = some k) : rowsAt key k rows = [r] := by
  have hl := h.rowsAt_length_le_one k
  have hm : r ∈ rowsAt key k rows := mem_rowsAt.mpr ⟨hr,hk⟩
  match hs : rowsAt key k rows with
  | [] => simp [hs] at hm
  | [_] => simp_all
  | _ :: _ :: _ => simp [hs] at hl

/-- An index is unique exactly when no key selects two rows. -/
theorem uniqueOn_iff_rowsAt_length_le_one [DecidableEq κ] {key : α → Option κ} {rows : List α} :
    UniqueOn key rows ↔ ∀ k, (rowsAt key k rows).length ≤ 1 := by
  constructor
  · exact fun h k => h.rowsAt_length_le_one k
  · intro h
    induction rows with
    | nil => exact UniqueOn.nil key
    | cons x xs ih =>
      refine List.pairwise_cons.mpr ⟨?_,ih fun k => ?_⟩
      · intro y hy k hx hk
        have hpos : 0 < (rowsAt key k xs).length :=
          List.length_pos_of_mem (mem_rowsAt.mpr ⟨hy,hk⟩)
        have hle := h k
        rw [rowsAt,List.filter_cons_of_pos (by simp [hx]),List.length_cons] at hle
        rw [rowsAt] at hpos
        omega
      · refine Nat.le_trans ?_ (h k)
        exact ((List.sublist_cons_self x xs).filter _).length_le

/-- Rows appended under given keys keep an index exactly when their keys are distinct and new. -/
theorem uniqueOn_append_iff {key : α → Option κ} {rows new : List α} {keys : List κ}
    (h : UniqueOn key rows) (hkeys : new.map key = keys.map some) :
    UniqueOn key (rows ++ new) ↔ keys.Nodup ∧ ∀ k ∈ keys, ∀ r ∈ rows, key r ≠ some k := by
  have hnew : UniqueOn key new ↔ keys.Nodup := by
    have hmap : UniqueOn key new ↔
        (new.map key).Pairwise fun a b => ∀ k, a = some k → b ≠ some k := by
      rw [List.pairwise_map]
      rfl
    rw [hmap,hkeys,List.pairwise_map,List.Nodup]
    simp [eq_comm]
  have hcross : (∀ r ∈ rows, ∀ x ∈ new, ∀ k, key r = some k → key x ≠ some k) ↔
      ∀ k ∈ keys, ∀ r ∈ rows, key r ≠ some k := by
    constructor
    · intro hr k hk r hrm hrk
      have hm : some k ∈ new.map key := by
        rw [hkeys]
        exact List.mem_map_of_mem hk
      obtain ⟨x,hx,hxk⟩ := List.mem_map.mp hm
      exact hr r hrm x hx k hrk hxk
    · intro hk r hrm x hx k hrk hxk
      have hm : some k ∈ keys.map some := by
        rw [← hkeys,← hxk]
        exact List.mem_map_of_mem hx
      obtain ⟨k',hk',he⟩ := List.mem_map.mp hm
      obtain rfl := Option.some.inj he
      exact hk k' hk' r hrm hrk
  rw [UniqueOn,List.pairwise_append]
  refine ⟨fun ⟨_,hp,hc⟩ => ⟨hnew.mp hp,hcross.mp hc⟩,fun ⟨hp,hc⟩ => ⟨h,hnew.mpr hp,hcross.mpr hc⟩⟩

theorem exists_of_forall₂ {R : α → α → Prop} {rows rows' : List α}
    (h : List.Forall₂ R rows rows') : ∀ r' ∈ rows', ∃ r ∈ rows, R r r' := by
  induction h with
  | nil => simp
  | cons hr _ ih =>
    intro r' hr'
    obtain rfl | hr' := List.mem_cons.mp hr'
    · exact ⟨_,List.mem_cons_self,hr⟩
    · obtain ⟨r,hm,hR⟩ := ih r' hr'
      exact ⟨r,List.mem_cons_of_mem _ hm,hR⟩

theorem UniqueOn.of_forall₂ {key : α → Option κ} {R : α → α → Prop} {rows rows' : List α}
    (h : UniqueOn key rows) (hR : List.Forall₂ R rows rows')
    (hkey : ∀ r r', R r r' → ∀ k, key r' = some k → key r = some k) : UniqueOn key rows' := by
  induction hR with
  | nil => exact UniqueOn.nil key
  | @cons x x' xs xs' hx hxs ih =>
    obtain ⟨hhead,htail⟩ := List.pairwise_cons.mp h
    refine List.pairwise_cons.mpr ⟨?_,ih htail⟩
    intro y' hy' k hk hyk
    obtain ⟨y,hy,hR⟩ := exists_of_forall₂ hxs y' hy'
    exact hhead y hy k (hkey _ _ hx k hk) (hkey _ _ hR k hyk)

theorem uniqueOn_some_iff {f : α → κ} {rows : List α} :
    UniqueOn (fun r => some (f r)) rows ↔ (rows.map f).Nodup := by
  rw [UniqueOn,List.Nodup,List.pairwise_map]
  simp [eq_comm]

/-- A result set of at most one row; a second row raises `err`. -/
def scalarOneOrNone (err : ε) : List α → Except ε (Option α)
  | [] => .ok none
  | [r] => .ok (some r)
  | _ => .error err

@[simp] theorem scalarOneOrNone_none {err : ε} {rows : List α} :
    scalarOneOrNone err rows = .ok none ↔ rows = [] := by
  match rows with
  | [] => simp [scalarOneOrNone]
  | [_] => simp [scalarOneOrNone]
  | _ :: _ :: _ => simp [scalarOneOrNone]

@[simp] theorem scalarOneOrNone_some {err : ε} {rows : List α} {r : α} :
    scalarOneOrNone err rows = .ok (some r) ↔ rows = [r] := by
  match rows with
  | [] => simp [scalarOneOrNone]
  | [_] => simp [scalarOneOrNone]
  | _ :: _ :: _ => simp [scalarOneOrNone]

theorem scalarOneOrNone_error {err : ε} {rows : List α} {e : ε}
    (h : scalarOneOrNone err rows = .error e) : e = err ∧ 2 ≤ rows.length := by
  match rows with
  | [] => simp [scalarOneOrNone] at h
  | [_] => simp [scalarOneOrNone] at h
  | _ :: _ :: _ => simp_all [scalarOneOrNone]

theorem scalarOneOrNone_mem {err : ε} {rows : List α} {o : Option α}
    (h : scalarOneOrNone err rows = .ok o) (r : α) : o = some r ↔ r ∈ rows := by
  match rows with
  | [] =>
    obtain rfl : none = o := by simpa [scalarOneOrNone] using h
    simp
  | [x] =>
    obtain rfl : some x = o := by simpa [scalarOneOrNone] using h
    simp [eq_comm]
  | _ :: _ :: _ => simp [scalarOneOrNone] at h

theorem scalarOneOrNone_ok_of_length (err : ε) {rows : List α} (h : rows.length ≤ 1) :
    ∃ o, scalarOneOrNone err rows = .ok o := by
  match rows with
  | [] => exact ⟨none,rfl⟩
  | [x] => exact ⟨some x,rfl⟩
  | _ :: _ :: _ => simp at h

theorem scalarOneOrNone_rowsAt_none [DecidableEq κ] {err : ε} {key : α → Option κ} {k : κ}
    {rows : List α} :
    scalarOneOrNone err (rowsAt key k rows) = .ok none ↔ ∀ r ∈ rows, key r ≠ some k := by
  rw [scalarOneOrNone_none,rowsAt,List.filter_eq_nil_iff]
  simp

theorem UniqueOn.scalarOneOrNone_rowsAt_some [DecidableEq κ] {err : ε} {key : α → Option κ}
    {k : κ} {rows : List α} {r : α} (h : UniqueOn key rows) :
    scalarOneOrNone err (rowsAt key k rows) = .ok (some r) ↔ r ∈ rows ∧ key r = some k := by
  rw [scalarOneOrNone_some,← mem_rowsAt]
  constructor
  · intro hr
    simp [hr]
  · intro hr
    exact h.rowsAt_eq (mem_rowsAt.mp hr).1 (mem_rowsAt.mp hr).2

theorem UniqueOn.scalarOneOrNone_rowsAt_ok [DecidableEq κ] {key : α → Option κ} {rows : List α}
    (h : UniqueOn key rows) (err : ε) (k : κ) :
    ∃ o, scalarOneOrNone err (rowsAt key k rows) = .ok o := by
  cases hr : scalarOneOrNone err (rowsAt key k rows) with
  | ok o => exact ⟨o,rfl⟩
  | error e =>
    have hl := h.rowsAt_length_le_one k
    have hl' := (scalarOneOrNone_error hr).2
    omega

end Table
end LeadEngine
