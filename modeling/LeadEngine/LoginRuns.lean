import LeadEngine.Logins

/-! Runs of concurrent logins of one person: when each of them returns the one row of the
person, and how a run is lost in which two calls have both found no row. -/
namespace LeadEngine
namespace Logins

open Accounts Table TransitionSystem

section Statement

variable {ι : Type}

/-- The primary key and the unique index of the subject. -/
structure Keyed (db : Directory) : Prop where
  ids : UniqueOn User.idKey db.users
  subs : UniqueOn User.subKey db.users

def ReturnsRow (subject : String) (c : Desk ι) (i : ι) : Prop :=
  ∃ user row, c.phase i = .returned user ∧
    (c.db.users.filter fun u => u.auth0Sub = subject) = [row] ∧ user.id = row.id ∧
    user.auth0Sub = subject

/-- Every call that is over has returned the single row of the person, so that none raised. -/
def Serialised (subject : String) (c : Desk ι) : Prop :=
  ∀ i, (c.phase i).isOver = true → ReturnsRow subject c i

/-- The row that the next statement of the call writes. -/
def nextRow (calls : ι → Login) (c : Desk ι) (i : ι) : Option User :=
  match c.phase i with
  | .missed => some (calls i).row
  | .found user =>
    if refreshed user (calls i).principal = user then none
    else (findUser c.db user.id).map (merged user (refreshed user (calls i).principal))
  | _ => none

/-- The call does not look for the row while another one is about to create it, and it writes no
row that the rows of other people or the tenants forbid. -/
structure Undisturbed (calls : ι → Login) (c : Desk ι) (i : ι) : Prop where
  lookup : c.phase i = .start → (∀ u ∈ c.db.users, u.auth0Sub ≠ (calls i).principal.subject) →
    ∀ j, j ≠ i → (c.phase j).isCreating = false
  fits : ∀ row ∈ nextRow calls c i, ¬ Violates c.db.tenants
    (c.db.users.filter fun u => u.auth0Sub ≠ (calls i).principal.subject) row

instance [DecidableEq ι] [Fintype ι] (calls : ι → Login) (c : Desk ι) (i : ι) :
    Decidable (Undisturbed calls c i) :=
  decidable_of_iff
    ((c.phase i = .start → (∀ u ∈ c.db.users, u.auth0Sub ≠ (calls i).principal.subject) →
        ∀ j, j ≠ i → (c.phase j).isCreating = false) ∧
      ∀ row ∈ nextRow calls c i, ¬ Violates c.db.tenants
        (c.db.users.filter fun u => u.auth0Sub ≠ (calls i).principal.subject) row)
    ⟨fun h => ⟨h.1,h.2⟩,fun h => ⟨h.lookup,h.fits⟩⟩

end Statement

structure Standing (subject : String) (db : Directory) (p : LoginPhase) : Prop where
  known : ∀ id, p.knows = some id → ∃ u ∈ db.users, u.id = id ∧ u.auth0Sub = subject
  inserted : ∀ row, p = .inserted row → row.auth0Sub = subject ∧
    ¬ Conflicts User.idKey db.users row ∧ ¬ Conflicts User.subKey db.users row
  updated : ∀ row, p = .updated row → row.auth0Sub = subject
  returned : ∀ user, p = .returned user → user.auth0Sub = subject

structure Sound {ι : Type} (subject : String) (c : Desk ι) : Prop where
  keyed : Keyed c.db
  standing : ∀ i, Standing subject c.db (c.phase i)
  one : ∀ i j row row', c.phase i = .inserted row → c.phase j = .inserted row' → i = j

theorem standing_nothing {subject : String} {db : Directory} {p : LoginPhase}
    (hknows : p.knows = none) (hpending : p.pending = none) : Standing subject db p where
  known := fun id hid => by simp [hknows] at hid
  inserted := fun row hrow => by simp [hrow,LoginPhase.pending] at hpending
  updated := fun row hrow => by simp [hrow,LoginPhase.pending] at hpending
  returned := fun user huser => by simp [huser,LoginPhase.knows] at hknows

theorem sound_initial {ι : Type} {subject : String} {db : Directory} (h : Keyed db) :
    Sound subject (Desk.initial (ι:=ι) db) where
  keyed := h
  standing := fun _ => standing_nothing rfl rfl
  one := fun i j row row' hp => by simp [Desk.initial] at hp

section Invariant

variable {ι : Type} [DecidableEq ι] {calls : ι → Login} {subject : String} {c c' : Desk ι} {i : ι}

theorem Sound.move (h : Sound subject c) {db : Directory} {p : LoginPhase} (hkeyed : Keyed db)
    (hothers : ∀ j, j ≠ i → Standing subject db (c.phase j)) (hp : Standing subject db p)
    (hone : ∀ row j row', p = .inserted row → c.phase j = .inserted row' → j = i) :
    Sound subject (c.moveTo i db p) where
  keyed := hkeyed
  standing := by
    intro j
    by_cases hj : j = i
    · subst hj
      rw [moveTo_phase_self]
      exact hp
    · rw [moveTo_phase_ne _ _ _ _ hj]
      exact hothers j hj
  one := by
    intro j k row row' hjrow hkrow
    by_cases hj : j = i
    · subst hj
      by_cases hk : k = j
      · exact hk.symm
      · rw [moveTo_phase_self] at hjrow
        rw [moveTo_phase_ne _ _ _ _ hk] at hkrow
        exact (hone row k row' hjrow hkrow).symm
    · rw [moveTo_phase_ne _ _ _ _ hj] at hjrow
      by_cases hk : k = i
      · subst hk
        rw [moveTo_phase_self] at hkrow
        exact hone row' j row hkrow hjrow
      · rw [moveTo_phase_ne _ _ _ _ hk] at hkrow
        exact h.one j k row row' hjrow hkrow

theorem Sound.quiet (h : Sound subject c) {p : LoginPhase} (hp : Standing subject c.db p)
    (hone : ∀ row j row', p = .inserted row → c.phase j = .inserted row' → j = i) :
    Sound subject (c.moveTo i c.db p) :=
  h.move h.keyed (fun j _ => h.standing j) hp hone

theorem standing_known {db : Directory} {p : LoginPhase} {u : User} (hu : u ∈ db.users)
    (hsubject : u.auth0Sub = subject) (hknows : p.knows = some u.id)
    (hupdated : ∀ row, p = .updated row → row.auth0Sub = subject)
    (hreturned : ∀ user, p = .returned user → user.auth0Sub = subject) :
    Standing subject db p where
  known := fun id hid => ⟨u,hu,Option.some.inj (hknows.symm.trans hid),hsubject⟩
  inserted := fun row hrow => by simp [hrow,LoginPhase.knows] at hknows
  updated := hupdated
  returned := hreturned

omit [DecidableEq ι] in
theorem Sound.stored (h : Sound subject c) {p : LoginPhase} {id : UUID} (hp : c.phase i = p)
    (hknows : p.knows = some id) :
    ∃ u ∈ c.db.users, findUser c.db id = some u ∧ u.id = id ∧ u.auth0Sub = subject := by
  obtain ⟨u,hu,rfl,hsub⟩ := (h.standing i).known id (hp ▸ hknows)
  exact ⟨u,hu,findUser_of_mem h.keyed.ids hu,rfl,hsub⟩

theorem Sound.commitInsert (h : Sound subject c) {row : User} (hp : c.phase i = .inserted row) :
    Sound subject
      (c.moveTo i { c.db with users := c.db.users ++ [row] } (.committed row.id)) := by
  obtain ⟨hsubject,hid,hsub⟩ := (h.standing i).inserted row hp
  refine h.move ⟨h.keyed.ids.append_singleton hid,h.keyed.subs.append_singleton hsub⟩
    (fun j hj => ?_) ?_ (by simp)
  · have hstanding := h.standing j
    refine ⟨fun id hk => ?_,fun row' hrow' => ?_,hstanding.updated,hstanding.returned⟩
    · obtain ⟨u,hu,hfields⟩ := hstanding.known id hk
      exact ⟨u,List.mem_append_left _ hu,hfields⟩
    · exact absurd (h.one j i row' row hrow' hp) hj
  · exact standing_known (u:=row) (by simp) hsubject rfl (by simp) (by simp)

theorem Keyed.overwritten {db : Directory} (h : Keyed db) {u row : User} (hu : u ∈ db.users)
    (hid : u.id = row.id) (hsub : u.auth0Sub = row.auth0Sub) :
    Keyed { db with users := overwritten db.users row } where
  ids := uniqueOn_overwritten h.ids row
  subs := by
    refine h.subs.map fun r hr k hk => ?_
    split_ifs at hk with hrow
    · have hsame : r = u := h.ids.eq_of_key hr hu (congrArg some hrow) (congrArg some hid)
      rwa [hsame,User.subKey,hsub]
    · exact hk

theorem Sound.commitUpdate (h : Sound subject c) {row : User} (hp : c.phase i = .updated row) :
    Sound subject (c.moveTo i { c.db with users := overwritten c.db.users row }
      (.committed row.id)) := by
  have hsubject := (h.standing i).updated row hp
  obtain ⟨u,hu,-,hid,husubject⟩ := h.stored hp rfl
  refine h.move (h.keyed.overwritten hu hid (husubject.trans hsubject.symm)) (fun j _ => ?_) ?_
    (by simp)
  · have hstanding := h.standing j
    refine ⟨fun id hk => ?_,fun row' hrow' => ?_,hstanding.updated,hstanding.returned⟩
    · obtain ⟨x,hx,rfl,hxsubject⟩ := hstanding.known id hk
      refine ⟨_,List.mem_map_of_mem hx,?_⟩
      split_ifs with hrow
      · exact ⟨hrow.symm,hsubject⟩
      · exact ⟨rfl,hxsubject⟩
    · -- there is a row of the person, so that no other call has inserted one
      obtain ⟨hsubject',-,hsub⟩ := hstanding.inserted row' hrow'
      refine absurd ⟨u,hu,?_,rfl⟩ hsub
      exact congrArg some (husubject.trans hsubject'.symm)
  · exact standing_known (mem_overwritten hu hid) hsubject rfl (by simp) (by simp)

variable (hsubject : ∀ i, (calls i).principal.subject = subject)

include hsubject

theorem Advanced.sound (h : Sound subject c) (hadv : Advanced calls c i c') :
    Sound subject c' := by
  have hraise : ∀ err, Sound subject (c.moveTo i c.db (.raised err)) :=
    fun err => h.quiet (standing_nothing rfl rfl) (by simp)
  cases hadv with
  | ambiguous | refuseInsert | gone | refuseUpdate | lost => exact hraise _
  | miss => exact h.quiet (standing_nothing rfl rfl) (by simp)
  | find user _ hmem hsub =>
    exact h.quiet (standing_known hmem (hsub.trans (hsubject i)) rfl (by simp) (by simp)) (by simp)
  | insert hp hwaits hfree =>
    refine h.quiet ⟨by simp [LoginPhase.knows],?_,by simp,by simp⟩ ?_
    · rintro row ⟨⟩
      exact ⟨hsubject i,fun hid => hfree (.inl hid),fun hsub => hfree (.inr (.inl hsub))⟩
    · -- an inserted row of the person would make this insert wait
      rintro row j row' ⟨⟩ hj
      by_contra hne
      have hsub := ((h.standing j).inserted row' hj).1
      refine hwaits ⟨j,hne,row',by simp [hj,LoginPhase.pending],.inl (.inr (.inl ?_))⟩
      exact ⟨row',List.mem_singleton.mpr rfl,congrArg some (hsub.trans (hsubject i).symm),rfl⟩
  | unchanged user hp =>
    obtain ⟨u,hu,-,hid,hsub⟩ := h.stored hp rfl
    exact h.quiet (standing_known hu hsub (congrArg some hid.symm) (by simp) (by simp)) (by simp)
  | update user current row hp _ hcurrent hrow =>
    obtain ⟨u,hu,hfind,hid,hsub⟩ := h.stored hp rfl
    obtain rfl := Option.some.inj (hfind.symm.trans hcurrent)
    subst hrow
    refine h.quiet (standing_known hu hsub rfl ?_ (by simp)) (by simp)
    rintro row ⟨⟩
    exact hsub
  | commitInsert row hp => exact h.commitInsert hp
  | commitUpdate row hp => exact h.commitUpdate hp
  | reread id user hp hfind =>
    obtain ⟨u,hu,hfound,hid,hsub⟩ := h.stored hp rfl
    obtain rfl := Option.some.inj (hfound.symm.trans hfind)
    subst hid
    refine h.quiet (standing_known hu hsub rfl (by simp) ?_) (by simp)
    rintro user ⟨⟩
    exact hsub

end Invariant

/-- No call has raised, one at most is creating the row, and none has missed a row that is there. -/
structure Settled {ι : Type} (subject : String) (c : Desk ι) : Prop where
  noneRaised : ∀ i err, c.phase i ≠ .raised err
  missed : ∀ i, c.phase i = .missed → ∀ u ∈ c.db.users, u.auth0Sub ≠ subject
  oneCreating : ∀ i j, (c.phase i).isCreating = true → (c.phase j).isCreating = true → i = j

structure OthersSettled {ι : Type} (subject : String) (c : Desk ι) (i : ι) (db : Directory) :
    Prop where
  noneRaised : ∀ j, j ≠ i → ∀ err, c.phase j ≠ .raised err
  missed : ∀ j, j ≠ i → c.phase j = .missed → ∀ u ∈ db.users, u.auth0Sub ≠ subject
  oneCreating : ∀ j k, j ≠ i → k ≠ i → (c.phase j).isCreating = true →
    (c.phase k).isCreating = true → j = k

section Step

variable {ι : Type} [DecidableEq ι] {calls : ι → Login} {subject : String} {c c' : Desk ι} {i : ι}

theorem settled_moveTo {db : Directory} {p : LoginPhase} :
    Settled subject (c.moveTo i db p) ↔ OthersSettled subject c i db ∧
      (∀ err, p ≠ .raised err) ∧ (p = .missed → ∀ u ∈ db.users, u.auth0Sub ≠ subject) ∧
      (p.isCreating = true → ∀ j, j ≠ i → (c.phase j).isCreating = false) := by
  have hother : ∀ j, j ≠ i → (c.moveTo i db p).phase j = c.phase j :=
    fun j hj => moveTo_phase_ne _ _ _ _ hj
  have hself : (c.moveTo i db p).phase i = p := moveTo_phase_self ..
  constructor
  · intro h
    refine ⟨⟨fun j hj => ?_,fun j hj => ?_,fun j k hj hk => ?_⟩,?_,?_,fun hp j hj => ?_⟩
    · rw [← hother j hj]
      exact h.noneRaised j
    · rw [← hother j hj]
      exact h.missed j
    · rw [← hother j hj,← hother k hk]
      exact h.oneCreating j k
    · rw [← hself]
      exact h.noneRaised i
    · rw [← hself]
      exact h.missed i
    · by_contra hcreating
      rw [← hother j hj] at hcreating
      rw [← hself] at hp
      exact hj (h.oneCreating j i (by simpa using hcreating) hp)
  · rintro ⟨hothers,hraised,hmissed,hcreating⟩
    refine ⟨fun j => ?_,fun j => ?_,fun j k => ?_⟩
    · by_cases hj : j = i
      · rw [hj,hself]
        exact hraised
      · rw [hother j hj]
        exact hothers.noneRaised j hj
    · by_cases hj : j = i
      · rw [hj,hself]
        exact hmissed
      · rw [hother j hj]
        exact hothers.missed j hj
    · by_cases hj : j = i <;> by_cases hk : k = i
      · rw [hj,hk]
        exact fun _ _ => rfl
      · rw [hj,hself,hother k hk]
        intro hp hk'
        rw [hcreating hp k hk] at hk'
        cases hk'
      · rw [hk,hself,hother j hj]
        intro hj' hp
        rw [hcreating hp j hj] at hj'
        cases hj'
      · rw [hother j hj,hother k hk]
        exact hothers.oneCreating j k hj hk

theorem settled_split (i : ι) : Settled subject c ↔ OthersSettled subject c i c.db ∧
    (∀ err, c.phase i ≠ .raised err) ∧
    (c.phase i = .missed → ∀ u ∈ c.db.users, u.auth0Sub ≠ subject) ∧
    ((c.phase i).isCreating = true → ∀ j, j ≠ i → (c.phase j).isCreating = false) := by
  rw [← settled_moveTo (p:=c.phase i),Desk.moveTo,Function.update_eq_self]

theorem settled_quiet {p : LoginPhase} (hover : (c.phase i).isOver = false)
    (hcreating : (c.phase i).isCreating = false) (hraised : ∀ err, p ≠ .raised err)
    (hp : p.isCreating = false) : Settled subject (c.moveTo i c.db p) ↔ Settled subject c := by
  rw [settled_moveTo,settled_split i]
  have hself : ∀ err, c.phase i ≠ .raised err := by
    intro err herr
    simp [herr,LoginPhase.isOver] at hover
  have hmissed : c.phase i ≠ .missed := by
    intro hm
    simp [hm,LoginPhase.isCreating] at hcreating
  have hmissed' : p ≠ .missed := by
    rintro rfl
    cases hp
  simp [hself,hraised,hmissed,hmissed',hcreating,hp]

omit [DecidableEq ι] in
theorem Sound.rows_length (h : Sound subject c) :
    (c.db.users.filter fun u => u.auth0Sub = subject).length ≤ 1 := by
  have hrows : (c.db.users.filter fun u => u.auth0Sub = subject) =
      rowsAt User.subKey subject c.db.users := by simp [rowsAt,User.subKey]
  rw [hrows]
  exact h.keyed.subs.rowsAt_length_le_one subject

theorem violates_mono {tenants : List UUID} {others others' : List User} {u : User}
    (hsub : ∀ r ∈ others, r ∈ others') (h : Violates tenants others u) :
    Violates tenants others' u := by
  have hconflicts : ∀ {κ : Type} (key : User → Option κ), Conflicts key others u →
      Conflicts key others' u := fun key ⟨r,hr,hkey⟩ => ⟨r,hsub r hr,hkey⟩
  obtain h | h | h | h := h
  · exact .inl (hconflicts _ h)
  · exact .inr (.inl (hconflicts _ h))
  · exact .inr (.inr (.inl (hconflicts _ h)))
  · exact .inr (.inr (.inr h))

theorem Keyed.filter_others {db : Directory} (h : Keyed db) {u : User} (hu : u ∈ db.users) :
    (db.users.filter fun r => r.id ≠ u.id) =
      db.users.filter fun r => r.auth0Sub ≠ u.auth0Sub := by
  refine List.filter_congr fun r hr => ?_
  rw [decide_eq_decide]
  refine not_congr ⟨fun hid => ?_,fun hsub => ?_⟩
  · rw [h.ids.eq_of_key hr hu (congrArg some hid) rfl]
  · rw [h.subs.eq_of_key hr hu (congrArg some hsub) rfl]

omit [DecidableEq ι] in
theorem undisturbed_of_phase (hstart : c.phase i ≠ .start) (hnext : nextRow calls c i = none) :
    Undisturbed calls c i where
  lookup := fun h => absurd h hstart
  fits := fun row hrow => by simp [hnext] at hrow

omit [DecidableEq ι] in
theorem Sound.undisturbed_update_iff (h : Sound subject c)
    (hsubject : (calls i).principal.subject = subject) {user current row : User}
    (hp : c.phase i = .found user) (hchanged : refreshed user (calls i).principal ≠ user)
    (hcurrent : findUser c.db user.id = some current)
    (hrow : row = merged user (refreshed user (calls i).principal) current) :
    Undisturbed calls c i ↔
      ¬ Violates c.db.tenants (c.db.users.filter fun r => r.id ≠ row.id) row := by
  have hnext : nextRow calls c i = some row := by
    simp [nextRow,hp,hchanged,hcurrent,← hrow]
  have hothers : (c.db.users.filter fun r => r.id ≠ row.id) =
      c.db.users.filter fun r => r.auth0Sub ≠ (calls i).principal.subject := by
    obtain ⟨u,hu,hfind,-,hsub⟩ := h.stored hp rfl
    obtain rfl := Option.some.inj (hfind.symm.trans hcurrent)
    rw [hsubject,← hsub,← h.keyed.filter_others hu,hrow]
    rfl
  rw [hothers]
  constructor
  · intro hundisturbed
    exact hundisturbed.fits row hnext
  · intro hfree
    refine ⟨by simp [hp],fun row' hrow' => ?_⟩
    obtain rfl := Option.some.inj (hnext.symm.trans hrow')
    exact hfree

theorem Sound.settled_commitInsert (h : Sound subject c) {row : User}
    (hp : c.phase i = .inserted row) :
    Settled subject (c.moveTo i { c.db with users := c.db.users ++ [row] } (.committed row.id)) ↔
      Settled subject c := by
  have hsub := ((h.standing i).inserted row hp).1
  have hstored : row ∈ c.db.users ++ [row] := by simp
  rw [settled_moveTo,settled_split i,hp]
  constructor
  · rintro ⟨hothers,-⟩
    have hmissed : ∀ j, j ≠ i → c.phase j ≠ .missed :=
      fun j hj hm => hothers.missed j hj hm row hstored hsub
    refine ⟨⟨hothers.noneRaised,fun j hj hm => absurd hm (hmissed j hj),hothers.oneCreating⟩,
      by simp,by simp,fun _ j hj => ?_⟩
    cases hj' : c.phase j with
    | missed => exact absurd hj' (hmissed j hj)
    | inserted row' => exact absurd (h.one j i row' row hj' hp) hj
    | _ => rfl
  · rintro ⟨hothers,-,-,hcreating⟩
    refine ⟨⟨hothers.noneRaised,fun j hj hm => ?_,hothers.oneCreating⟩,by simp,by simp,
      by simp [LoginPhase.isCreating]⟩
    have hno := hcreating rfl j hj
    simp [hm,LoginPhase.isCreating] at hno

theorem Sound.settled_commitUpdate (h : Sound subject c) {row : User}
    (hp : c.phase i = .updated row) :
    Settled subject (c.moveTo i { c.db with users := overwritten c.db.users row }
      (.committed row.id)) ↔ Settled subject c := by
  obtain ⟨u,hu,-,hid,hsub⟩ := h.stored hp rfl
  have hstored := mem_overwritten hu hid
  rw [settled_moveTo,settled_split i,hp]
  refine and_congr ⟨fun h' => ⟨h'.noneRaised,fun j hj hm => ?_,h'.oneCreating⟩,
    fun h' => ⟨h'.noneRaised,fun j hj hm => ?_,h'.oneCreating⟩⟩ (by simp [LoginPhase.isCreating])
  · exact absurd ((h.standing i).updated row hp) (h'.missed j hj hm row hstored)
  · exact absurd hsub (h'.missed j hj hm u hu)

variable (hsubject : ∀ i, (calls i).principal.subject = subject)

include hsubject

/-- A step is made without loss exactly when its call is undisturbed. -/
theorem Advanced.settled_iff (h : Sound subject c) (hadv : Advanced calls c i c') :
    Settled subject c' ↔ Settled subject c ∧ Undisturbed calls c i := by
  cases hadv with
  | ambiguous hp hrows =>
    rw [hsubject i] at hrows
    exact absurd (Nat.le_trans hrows h.rows_length) (by decide)
  | miss hp hnone =>
    rw [settled_moveTo,settled_split i,hp]
    constructor
    · rintro ⟨hothers,-,-,hcreating⟩
      refine ⟨⟨hothers,by simp,by simp,by simp [LoginPhase.isCreating]⟩,fun _ _ => hcreating rfl,?_⟩
      simp [nextRow,hp]
    · rintro ⟨⟨hothers,-⟩,hundisturbed⟩
      refine ⟨hothers,by simp,fun _ u hu => ?_,fun _ => hundisturbed.lookup hp hnone⟩
      rw [← hsubject i]
      exact hnone u hu
  | find user hp hmem hsub =>
    rw [settled_quiet (by simp [hp,LoginPhase.isOver]) (by simp [hp,LoginPhase.isCreating])
      (by simp) rfl]
    refine (and_iff_left ⟨fun _ hnone => absurd hsub (hnone user hmem),?_⟩).symm
    simp [nextRow,hp]
  | insert hp hwaits hfree =>
    rw [settled_moveTo,settled_split i,hp]
    constructor
    · rintro ⟨hothers,-,-,hcreating⟩
      refine ⟨⟨hothers,by simp,fun _ u hu hsub => ?_,fun _ => hcreating rfl⟩,by simp [hp],?_⟩
      · exact hfree (.inr (.inl ⟨u,hu,congrArg some (hsub.trans (hsubject i).symm),rfl⟩))
      · intro row hrow
        obtain rfl : (calls i).row = row := by simpa [nextRow,hp] using hrow
        exact fun hviolates => hfree (violates_mono (fun r => List.mem_of_mem_filter) hviolates)
    · rintro ⟨⟨hothers,-,-,hcreating⟩,-⟩
      exact ⟨hothers,by simp,by simp,fun _ => hcreating rfl⟩
  | refuseInsert hp hviolates =>
    refine iff_of_false (fun h' => h'.noneRaised i _ (moveTo_phase_self ..)) ?_
    rintro ⟨hsettled,hundisturbed⟩
    refine hundisturbed.fits (calls i).row (by simp [nextRow,hp])
      (violates_mono (fun r hr => ?_) hviolates)
    rw [List.mem_filter,decide_eq_true_eq,hsubject i]
    exact ⟨hr,hsettled.missed i hp r hr⟩
  | unchanged user hp hsame =>
    rw [settled_quiet (by simp [hp,LoginPhase.isOver]) (by simp [hp,LoginPhase.isCreating])
      (by simp) rfl]
    exact (and_iff_left (undisturbed_of_phase (by simp [hp]) (by simp [nextRow,hp,hsame]))).symm
  | gone user hp hgone =>
    obtain ⟨u,-,hfind,-⟩ := h.stored hp rfl
    cases hgone.symm.trans hfind
  | update user current row hp hchanged hcurrent hrow hfree =>
    rw [settled_quiet (by simp [hp,LoginPhase.isOver]) (by simp [hp,LoginPhase.isCreating])
      (by simp) rfl]
    have hiff := h.undisturbed_update_iff (hsubject i) hp hchanged hcurrent hrow
    exact (and_iff_left (hiff.mpr hfree)).symm
  | refuseUpdate user current row hp hchanged hcurrent hrow hviolates =>
    have hiff := h.undisturbed_update_iff (hsubject i) hp hchanged hcurrent hrow
    refine iff_of_false (fun h' => h'.noneRaised i _ (moveTo_phase_self ..)) ?_
    rintro ⟨-,hundisturbed⟩
    exact hiff.mp hundisturbed hviolates
  | commitInsert row hp =>
    rw [h.settled_commitInsert hp]
    exact (and_iff_left (undisturbed_of_phase (by simp [hp]) (by simp [nextRow,hp]))).symm
  | commitUpdate row hp =>
    rw [h.settled_commitUpdate hp]
    exact (and_iff_left (undisturbed_of_phase (by simp [hp]) (by simp [nextRow,hp]))).symm
  | reread id user hp hfind =>
    rw [settled_quiet (by simp [hp,LoginPhase.isOver]) (by simp [hp,LoginPhase.isCreating])
      (by simp) rfl]
    exact (and_iff_left (undisturbed_of_phase (by simp [hp]) (by simp [nextRow,hp]))).symm
  | lost id hp hlost =>
    obtain ⟨u,-,hfind,-⟩ := h.stored hp rfl
    cases hlost.symm.trans hfind

end Step

section Runs

variable {ι : Type} [DecidableEq ι] [Fintype ι] {calls : ι → Login} {subject : String}
  {db : Directory} {c : Desk ι} {tr : List (Transition (Desk ι) ι)}

theorem sound_of_path (hsubject : ∀ i, (calls i).principal.subject = subject) (hkeyed : Keyed db)
    (h : Path (LoginStep calls) (.initial db) tr c) : Sound subject c :=
  h.reachable.invariant (I:=Sound subject) (sound_initial hkeyed) fun _ _ _ hs hstep =>
    (LoginStep.advanced hstep).sound hsubject hs

omit [DecidableEq ι] [Fintype ι] in
theorem settled_initial : Settled subject (Desk.initial (ι:=ι) db) where
  noneRaised := fun i err h => by simp [Desk.initial] at h
  missed := fun i h => by simp [Desk.initial] at h
  oneCreating := fun i j h => by simp [Desk.initial,LoginPhase.isCreating] at h

theorem settled_run_iff (hsubject : ∀ i, (calls i).principal.subject = subject)
    (hkeyed : Keyed db) (h : Path (LoginStep calls) (.initial db) tr c) :
    Settled subject c ↔ ∀ x ∈ tr, Undisturbed calls x.1 x.2.1 := by
  induction h with
  | nil => simp [settled_initial]
  | @snoc tr c c' i hp hstep ih =>
    rw [(LoginStep.advanced hstep).settled_iff hsubject (sound_of_path hsubject hkeyed hp),ih]
    simp [List.mem_append,or_imp,forall_and]

omit [DecidableEq ι] [Fintype ι] in
theorem Sound.serialised (h : Sound subject c) (hsettled : Settled subject c) :
    Serialised subject c := by
  intro i hover
  cases hp : c.phase i with
  | returned user =>
    obtain ⟨row,hrow,-,hid,hsub⟩ := h.stored hp rfl
    have hmem : row ∈ c.db.users.filter fun u => u.auth0Sub = subject := by simp [hrow,hsub]
    obtain ⟨x,hx⟩ := List.length_eq_one_iff.mp
      (Nat.le_antisymm h.rows_length (List.length_pos_of_mem hmem))
    rw [hx,List.mem_singleton] at hmem
    exact ⟨user,row,hp,hmem ▸ hx,hid.symm,(h.standing i).returned user hp⟩
  | raised err => exact absurd hp (hsettled.noneRaised i err)
  | _ => simp [hp,LoginPhase.isOver] at hover

omit [DecidableEq ι] [Fintype ι] in
theorem settled_of_returnsRow (h : ∀ i, ReturnsRow subject c i) : Settled subject c where
  noneRaised := by
    intro i err hp
    obtain ⟨user,_,hreturned,_⟩ := h i
    cases hp.symm.trans hreturned
  missed := by
    intro i hp
    obtain ⟨user,_,hreturned,_⟩ := h i
    cases hp.symm.trans hreturned
  oneCreating := by
    intro i j hi
    obtain ⟨user,_,hreturned,_⟩ := h i
    simp [hreturned,LoginPhase.isCreating] at hi

/-- While every step of a run is undisturbed each call that is over has returned the single row of
the person. A run that has come to its end has returned it to every call exactly then. -/
theorem logins_serialised_iff (hsubject : ∀ i, (calls i).principal.subject = subject)
    (hkeyed : Keyed db) (h : Path (LoginStep calls) (.initial db) tr c) :
    ((∀ x ∈ tr, Undisturbed calls x.1 x.2.1) → Serialised subject c) ∧
      ((∀ i, loginNext calls c i = none) →
        ((∀ i, ReturnsRow subject c i) ↔ ∀ x ∈ tr, Undisturbed calls x.1 x.2.1)) := by
  have hserialised : (∀ x ∈ tr, Undisturbed calls x.1 x.2.1) → Serialised subject c := fun hall =>
    (sound_of_path hsubject hkeyed h).serialised ((settled_run_iff hsubject hkeyed h).mpr hall)
  refine ⟨hserialised,fun hstuck => ⟨fun hreturns => ?_,fun hall i => ?_⟩⟩
  · exact (settled_run_iff hsubject hkeyed h).mp (settled_of_returnsRow hreturns)
  · exact hserialised hall i (over_of_stuck hstuck i)

end Runs

def newAdmin : Principal := ⟨"auth0|new","n@us.com",none,.platformAdmin⟩

def twoTabs (second : Bool) : Login := ⟨if second then 8 else 7,newAdmin⟩

def inTurn : Desk Bool := follow (loginNext twoTabs) (.initial .empty)
  [false,false,false,false,true,true,true]

theorem keyed_empty : Keyed .empty := ⟨UniqueOn.nil _,UniqueOn.nil _⟩

theorem inTurn_serialised :
    Serialised "auth0|new" inTurn ∧ ∀ i, ReturnsRow "auth0|new" inTurn i := by
  have hsubject : ∀ i, (twoTabs i).principal.subject = "auth0|new" := fun _ => rfl
  have hpath : Path (LoginStep twoTabs) (.initial .empty) _ inTurn := path_follow _ _ _
  have hrun := logins_serialised_iff hsubject keyed_empty hpath
  have hundisturbed : ∀ x ∈ followed (loginNext twoTabs) (.initial .empty)
      [false,false,false,false,true,true,true], Undisturbed twoTabs x.1 x.2.1 := by
    decide
  exact ⟨hrun.1 hundisturbed,(hrun.2 (by decide)).mpr hundisturbed⟩

def atOnce : Desk Bool := follow (loginNext twoTabs) (.initial .empty)
  [false,true,false,false,false,true]

/-- The slower of the two requests fails. -/
theorem atOnce_raises :
    Path (LoginStep twoTabs) (.initial .empty)
        (followed (loginNext twoTabs) (.initial .empty) [false,true,false,false,false,true])
        atOnce ∧
      (∀ i, loginNext twoTabs atOnce i = none) ∧ atOnce.phase true = .raised .integrityError ∧
      ¬ Serialised "auth0|new" atOnce ∧ ¬ ∀ i, ReturnsRow "auth0|new" atOnce i := by
  have hraised : atOnce.phase true = .raised .integrityError := by decide
  have hno : ¬ ReturnsRow "auth0|new" atOnce true := by
    rintro ⟨user,_,hreturned,_⟩
    cases hraised.symm.trans hreturned
  refine ⟨path_follow _ _ _,by decide,hraised,fun h => hno (h true ?_),fun h => hno (h true)⟩
  rw [hraised]
  rfl

end Logins
end LeadEngine
