import Mathlib.Data.List.Basic

/-! Scripts of database statements that share one session. Objects that are added to the session
are flushed in front of the next statement; a step may be lost, and the session is then rolled
back before the next script runs. -/
namespace LeadEngine
namespace UnitOfWork

variable {σ ω ε α β γ : Type}

/-- What is committed now and was committed before, what the open transaction sees, the objects
that wait to be flushed, and the number of steps after which one is lost, the next commit at the
latest. -/
structure Session (σ ω : Type) where
  committed : σ
  commits : List σ
  working : σ
  pending : List ω
  faultIn : Option ℕ

inductive Failure (ε : Type)
  | lost
  | raised (err : ε)

inductive Script (σ ω ε α : Type) : Type 1
  | raise (err : ε)
  | finish (a : α)
  | add (o : ω) (next : Script σ ω ε α)
  | flush (next : Script σ ω ε α)
  | statement (β : Type) (run : σ → Except ε (σ × β)) (next : β → Script σ ω ε α)
  | commit (a : α)

namespace Session

def start (c : σ) : Session σ ω := ⟨c,[],c,[],none⟩

def rollback (s : Session σ ω) : Session σ ω := { s with working := s.committed, pending := [] }

structure Idle (s : Session σ ω) : Prop where
  working : s.working = s.committed
  pending : s.pending = []

structure SameCommits (s s' : Session σ ω) : Prop where
  committed : s'.committed = s.committed
  commits : s'.commits = s.commits

def execute (s : Session σ ω) (run : σ → Except ε (σ × β)) :
    Except (Failure ε) β × Session σ ω :=
  match s.faultIn with
  | some 0 => (.error .lost,s)
  | _ =>
    match run s.working with
    | .error err => (.error (.raised err),s)
    | .ok (w,b) => (.ok b,{ s with working := w, faultIn := s.faultIn.map (· - 1) })

def andThen (r : Except (Failure ε) β × Session σ ω)
    (next : β → Session σ ω → Except (Failure ε) α × Session σ ω) :
    Except (Failure ε) α × Session σ ω :=
  match r with
  | (.error err,s) => (.error err,s)
  | (.ok b,s) => next b s

def flushEach (insert : ω → σ → Except ε σ) :
    List ω → Session σ ω → Except (Failure ε) Unit × Session σ ω
  | [],s => (.ok (),{ s with pending := [] })
  | o :: rest,s =>
    andThen (s.execute fun w => (insert o w).map (·,())) fun _ s' => flushEach insert rest s'

def flush (insert : ω → σ → Except ε σ) (s : Session σ ω) :
    Except (Failure ε) Unit × Session σ ω :=
  flushEach insert s.pending s

def commit (s : Session σ ω) : Session σ ω :=
  { s with committed := s.working, commits := s.commits ++ [s.working] }

end Session

open Session

/-- Run a script in a session. -/
def Script.exec (insert : ω → σ → Except ε σ) :
    Script σ ω ε α → Session σ ω → Except (Failure ε) α × Session σ ω
  | .raise err,s => (.error (.raised err),s)
  | .finish a,s => (.ok a,s)
  | .add o next,s => next.exec insert { s with pending := s.pending ++ [o] }
  | .flush next,s => andThen (s.flush insert) fun _ s' => next.exec insert s'
  | .statement _ run next,s =>
    andThen (s.flush insert) fun _ s' =>
      andThen (s'.execute run) fun b s'' => (next b).exec insert s''
  | .commit a,s =>
    andThen (s.flush insert) fun _ s' =>
      if s'.faultIn.isSome then (.error .lost,s') else (.ok a,s'.commit)

/-- The objects inserted when no step is lost. -/
def insertEach (insert : ω → σ → Except ε σ) : List ω → σ → Except ε σ
  | [],w => .ok w
  | o :: rest,w => (insert o w).bind (insertEach insert rest)

def Script.result (insert : ω → σ → Except ε σ) :
    Script σ ω ε α → σ → List ω → Except ε (σ × α)
  | .raise err,_,_ => .error err
  | .finish a,w,_ => .ok (w,a)
  | .add o next,w,os => next.result insert w (os ++ [o])
  | .flush next,w,os => (insertEach insert os w).bind fun w' => next.result insert w' []
  | .statement _ run next,w,os =>
    (insertEach insert os w).bind fun w' =>
      (run w').bind fun r => (next r.2).result insert r.1 []
  | .commit a,w,os => (insertEach insert os w).map (·,a)

/-- A script that ends without a commit has written nothing. -/
def Script.Tidy (insert : ω → σ → Except ε σ) (c : σ) : Script σ ω ε α → σ → List ω → Prop
  | .raise _,_,_ => True
  | .finish _,w,os => w = c ∧ os = []
  | .add o next,w,os => next.Tidy insert c w (os ++ [o])
  | .flush next,w,os => ∀ w', insertEach insert os w = .ok w' → next.Tidy insert c w' []
  | .statement _ run next,w,os => ∀ w', insertEach insert os w = .ok w' →
      ∀ r, run w' = .ok r → (next r.2).Tidy insert c r.1 []
  | .commit _,_,_ => True

/-- How a step, or several, of a session end, given what they do when none is lost. -/
inductive Stepped (s : Session σ ω) (meaning : Except ε (σ × β)) (pending : List ω) :
    Except (Failure ε) β × Session σ ω → Prop
  | lost (s' : Session σ ω) (hs : s.SameCommits s') : Stepped s meaning pending (.error .lost,s')
  | raised (err : ε) (s' : Session σ ω) (hr : meaning = .error err) (hs : s.SameCommits s') :
      Stepped s meaning pending (.error (.raised err),s')
  | ok (b : β) (s' : Session σ ω) (hr : meaning = .ok (s'.working,b)) (hs : s.SameCommits s')
      (hp : s'.pending = pending) : Stepped s meaning pending (.ok b,s')

/-- How a script ends, given what it does when no step is lost. -/
inductive Ended (s : Session σ ω) (meaning : Except ε (σ × α)) :
    Except (Failure ε) α × Session σ ω → Prop
  | lost (s' : Session σ ω) (hs : s.SameCommits s') : Ended s meaning (.error .lost,s')
  | raised (err : ε) (s' : Session σ ω) (hr : meaning = .error err) (hs : s.SameCommits s') :
      Ended s meaning (.error (.raised err),s')
  | finished (a : α) (s' : Session σ ω) (hr : meaning = .ok (s.committed,a))
      (hs : s.SameCommits s') (hidle : s'.Idle) : Ended s meaning (.ok a,s')
  | committed (a : α) (s' : Session σ ω) (hr : meaning = .ok (s'.committed,a)) (hidle : s'.Idle)
      (hcommits : s'.commits = s.commits ++ [s'.committed]) : Ended s meaning (.ok a,s')

section Steps

variable {insert : ω → σ → Except ε σ} {s s' : Session σ ω} {os os' : List ω}
  {meaning : Except ε (σ × β)}

theorem Session.SameCommits.trans {s'' : Session σ ω} (h : s.SameCommits s')
    (h' : s'.SameCommits s'') : s.SameCommits s'' :=
  ⟨h'.committed.trans h.committed,h'.commits.trans h.commits⟩

theorem Ended.after {m : Except ε (σ × α)} {r : Except (Failure ε) α × Session σ ω}
    (hs : s.SameCommits s') (h : Ended s' m r) : Ended s m r := by
  cases h with
  | lost s'' hs' => exact .lost s'' (hs.trans hs')
  | raised err s'' hr hs' => exact .raised err s'' hr (hs.trans hs')
  | finished a s'' hr hs' hidle =>
    exact .finished a s'' (by rw [hr,hs.committed]) (hs.trans hs') hidle
  | committed a s'' hr hidle hcommits =>
    exact .committed a s'' hr hidle (by rw [hcommits,hs.commits])

/-- Steps one after another. -/
theorem Stepped.andThen {r : Except (Failure ε) β × Session σ ω} (h : Stepped s meaning os r)
    {next : β → Session σ ω → Except (Failure ε) γ × Session σ ω} {rest : σ × β → Except ε (σ × γ)}
    (hnext : ∀ b s', s'.pending = os → Stepped s' (rest (s'.working,b)) os' (next b s')) :
    Stepped s (meaning.bind rest) os' (Session.andThen r next) := by
  cases h with
  | lost s' hs => exact .lost s' hs
  | raised err s' hr hs => exact .raised err s' (by rw [hr]; rfl) hs
  | ok b s' hr hs hp =>
    have hstep := hnext b s' hp
    rw [hr]
    show Stepped s (rest (s'.working,b)) os' (next b s')
    generalize next b s' = r at hstep
    cases hstep with
    | lost s'' hs' => exact .lost s'' (hs.trans hs')
    | raised err s'' hr' hs' => exact .raised err s'' hr' (hs.trans hs')
    | ok c s'' hr' hs' hp' => exact .ok c s'' hr' (hs.trans hs') hp'

theorem Stepped.ended {r : Except (Failure ε) β × Session σ ω} (h : Stepped s meaning os r)
    {next : β → Session σ ω → Except (Failure ε) α × Session σ ω} {rest : σ × β → Except ε (σ × α)}
    (hnext : ∀ b s', meaning = .ok (s'.working,b) → s.SameCommits s' → s'.pending = os →
      Ended s' (rest (s'.working,b)) (next b s')) :
    Ended s (meaning.bind rest) (Session.andThen r next) := by
  cases h with
  | lost s' hs => exact .lost s' hs
  | raised err s' hr hs => exact .raised err s' (by rw [hr]; rfl) hs
  | ok b s' hr hs hp =>
    rw [hr]
    exact (hnext b s' hr hs hp).after hs

theorem execute_stepped (s : Session σ ω) (run : σ → Except ε (σ × β)) :
    Stepped s (run s.working) s.pending (s.execute run) := by
  unfold Session.execute
  split
  · exact .lost s ⟨rfl,rfl⟩
  · split
    · rename_i err hr
      exact .raised err s hr ⟨rfl,rfl⟩
    · rename_i w b hr
      exact .ok b _ hr ⟨rfl,rfl⟩ rfl

theorem map_bind (x : Except ε σ) (f : σ → Except ε γ) :
    (x.map (·,())).bind (fun r => f r.1) = x.bind f := by
  cases x <;> rfl

theorem of_map_ok {x : Except ε σ} {w : σ} {b : β} {f : σ → β}
    (h : x.map (fun w => (w,f w)) = .ok (w,b)) : x = .ok w := by
  cases x with
  | error err => cases h
  | ok w' => rw [(Prod.mk.inj (Except.ok.inj h)).1]

theorem bind_map (x : Except ε σ) (f : σ → Except ε σ) (b : β) :
    (x.bind f).map (·,b) = x.bind fun w => (f w).map (·,b) := by
  cases x <;> rfl

theorem flushEach_stepped (insert : ω → σ → Except ε σ) (os : List ω) (s : Session σ ω) :
    Stepped s ((insertEach insert os s.working).map (·,())) [] (flushEach insert os s) := by
  induction os generalizing s with
  | nil => exact .ok () _ rfl ⟨rfl,rfl⟩ rfl
  | cons o rest ih =>
    have hstep := execute_stepped s fun w => (insert o w).map (·,())
    have hboth : Stepped s (((insert o s.working).map (·,())).bind fun r =>
        (insertEach insert rest r.1).map (·,())) [] (flushEach insert (o :: rest) s) :=
      hstep.andThen fun _ s' _ => ih s'
    rwa [map_bind _ fun w => (insertEach insert rest w).map (·,()),← bind_map] at hboth

theorem flush_stepped (insert : ω → σ → Except ε σ) (s : Session σ ω) :
    Stepped s ((insertEach insert s.pending s.working).map (·,())) [] (s.flush insert) :=
  flushEach_stepped insert s.pending s

/-- A script ends in one of four ways, and what it leaves depends on its meaning only. -/
theorem exec_ended (p : Script σ ω ε α) (s : Session σ ω)
    (ht : p.Tidy insert s.committed s.working s.pending) :
    Ended s (p.result insert s.working s.pending) (p.exec insert s) := by
  induction p generalizing s with
  | raise err => exact .raised err s rfl ⟨rfl,rfl⟩
  | finish a =>
    obtain ⟨hw,hp⟩ := ht
    exact .finished a s (by rw [← hw]; rfl) ⟨rfl,rfl⟩ ⟨hw,hp⟩
  | add o next ih =>
    have hsame : s.SameCommits { s with pending := s.pending ++ [o] } := ⟨rfl,rfl⟩
    exact Ended.after hsame (ih _ ht)
  | flush next ih =>
    rw [Script.result,← map_bind]
    refine (flush_stepped insert s).ended fun _ s' hr hs hp => ?_
    have hw := of_map_ok hr
    have hended := ih s' (by rw [hs.committed,hp]; exact ht _ hw)
    rwa [hp] at hended
  | statement β run next ih =>
    rw [Script.result,← map_bind _ fun w => (run w).bind _]
    refine (flush_stepped insert s).ended fun _ s' hr hs hp => ?_
    have hw := of_map_ok hr
    refine (execute_stepped s' run).ended fun b s'' hr' hs' hp' => ?_
    have hended := ih b s'' (by rw [hs'.committed,hs.committed,hp',hp]; exact ht _ hw _ hr')
    rwa [hp',hp] at hended
  | commit a =>
    have hmeaning : Script.result insert (.commit a : Script σ ω ε α) s.working s.pending =
        ((insertEach insert s.pending s.working).map (·,())).bind fun r => .ok (r.1,a) := by
      rw [Script.result]
      cases insertEach insert s.pending s.working <;> rfl
    rw [hmeaning]
    refine (flush_stepped insert s).ended fun _ s' hr hs hp => ?_
    split_ifs
    · exact .lost s' ⟨rfl,rfl⟩
    · exact .committed a s'.commit rfl ⟨rfl,hp⟩ rfl

end Steps

section Undisturbed

variable {insert : ω → σ → Except ε σ}

/-- The step was not lost, and no later one will be. -/
def Undisturbed (r : Except (Failure ε) β × Session σ ω) : Prop :=
  r.1 ≠ .error .lost ∧ r.2.faultIn = none

theorem undisturbed_execute {s : Session σ ω} (h : s.faultIn = none) (run : σ → Except ε (σ × β)) :
    Undisturbed (s.execute run) := by
  unfold Session.execute
  rw [h]
  dsimp only
  split
  · exact ⟨by simp,h⟩
  · exact ⟨by simp,rfl⟩

theorem undisturbed_andThen {r : Except (Failure ε) β × Session σ ω} (h : Undisturbed r)
    {next : β → Session σ ω → Except (Failure ε) α × Session σ ω}
    (hnext : ∀ b s', s'.faultIn = none → Undisturbed (next b s')) :
    Undisturbed (Session.andThen r next) := by
  obtain ⟨_ | b,s'⟩ := r
  · exact ⟨fun hlost => h.1 (by rw [Except.error.inj hlost]),h.2⟩
  · exact hnext b s' h.2

theorem undisturbed_flushEach (os : List ω) {s : Session σ ω} (h : s.faultIn = none) :
    Undisturbed (flushEach insert os s) := by
  induction os generalizing s with
  | nil => exact ⟨by simp [flushEach],h⟩
  | cons o rest ih => exact undisturbed_andThen (undisturbed_execute h _) fun _ _ h' => ih h'

theorem undisturbed_exec (p : Script σ ω ε α) {s : Session σ ω} (h : s.faultIn = none) :
    Undisturbed (p.exec insert s) := by
  have hflush : Undisturbed (s.flush insert) := undisturbed_flushEach s.pending h
  induction p generalizing s with
  | raise err => exact ⟨by simp [Script.exec],h⟩
  | finish a => exact ⟨by simp [Script.exec],h⟩
  | add o next ih => exact ih h (undisturbed_flushEach _ h)
  | flush next ih =>
    exact undisturbed_andThen hflush fun _ _ h' => ih h' (undisturbed_flushEach _ h')
  | statement β run next ih =>
    refine undisturbed_andThen hflush fun _ _ h' => ?_
    exact undisturbed_andThen (undisturbed_execute h' run) fun b _ h'' =>
      ih b h'' (undisturbed_flushEach _ h'')
  | commit a =>
    refine undisturbed_andThen hflush fun _ s' h' => ?_
    have hgo : ¬ s'.faultIn.isSome := by simp [h']
    rw [if_neg hgo]
    exact ⟨by simp,h'⟩

end Undisturbed

section Faulty

variable {insert : ω → σ → Except ε σ} {s s' : Session σ ω}

/-- A step is still to be lost, or was, and nothing is committed meanwhile. -/
structure Doomed (s : Session σ ω) (r : Except (Failure ε) β × Session σ ω) : Prop where
  fault : r.1.isOk → r.2.faultIn.isSome
  same : s.SameCommits r.2

theorem doomed_execute (h : s.faultIn.isSome) (run : σ → Except ε (σ × β)) :
    Doomed s (s.execute run) := by
  unfold Session.execute
  split
  · exact ⟨fun _ => h,rfl,rfl⟩
  · split
    · exact ⟨fun _ => h,rfl,rfl⟩
    · exact ⟨fun _ => by simpa using h,rfl,rfl⟩

theorem Doomed.andThen {r : Except (Failure ε) β × Session σ ω} (h : Doomed s r)
    {next : β → Session σ ω → Except (Failure ε) α × Session σ ω}
    (hnext : ∀ b s', s'.faultIn.isSome → Doomed s' (next b s')) :
    Doomed s (Session.andThen r next) := by
  obtain ⟨_ | b,s'⟩ := r
  · exact ⟨fun hok => (by cases hok),h.same⟩
  · have hrest := hnext b s' (h.fault rfl)
    exact ⟨hrest.fault,h.same.trans hrest.same⟩

theorem doomed_flushEach (os : List ω) (h : s.faultIn.isSome) :
    Doomed s (flushEach insert os s) := by
  induction os generalizing s with
  | nil => exact ⟨fun _ => h,rfl,rfl⟩
  | cons o rest ih => exact (doomed_execute h _).andThen fun _ _ h' => ih h'

/-- A script that is to lose a step commits nothing. -/
theorem doomed_exec (p : Script σ ω ε α) (h : s.faultIn.isSome) : Doomed s (p.exec insert s) := by
  have hflush : Doomed s (s.flush insert) := doomed_flushEach s.pending h
  induction p generalizing s with
  | raise err => exact ⟨fun hok => (by cases hok),rfl,rfl⟩
  | finish a => exact ⟨fun _ => h,rfl,rfl⟩
  | add o next ih =>
    have hnext := ih (s := { s with pending := s.pending ++ [o] }) h (doomed_flushEach _ h)
    exact ⟨hnext.fault,hnext.same.committed,hnext.same.commits⟩
  | flush next ih => exact hflush.andThen fun _ _ h' => ih h' (doomed_flushEach _ h')
  | statement β run next ih =>
    refine hflush.andThen fun _ _ h' => ?_
    exact (doomed_execute h' run).andThen fun b _ h'' => ih b h'' (doomed_flushEach _ h'')
  | commit a =>
    refine hflush.andThen fun _ s' h' => ?_
    rw [if_pos h']
    exact ⟨fun hok => (by cases hok),rfl,rfl⟩

end Faulty

section Jobs

variable (insert : ω → σ → Except ε σ) (script : γ → Script σ ω ε α)

/-- Run a job in a session, of which the step after the given number of steps is lost. -/
def runJob (job : γ × Option ℕ) (s : Session σ ω) : Except (Failure ε) α × Session σ ω :=
  (script job.1).exec insert { s with faultIn := job.2 }

/-- Run the jobs one after another in one session; a job that fails is rolled back. -/
def runEach : List (γ × Option ℕ) → Session σ ω → Session σ ω
  | [],s => s
  | job :: rest,s =>
    match runJob insert script job s with
    | (.ok _,s') => runEach rest s'
    | (.error _,s') => runEach rest s'.rollback

/-- The jobs that lose no step. -/
def spared (jobs : List (γ × Option ℕ)) : List γ :=
  (jobs.filter fun job => job.2 = none).map Prod.fst

/-- The jobs one after another when no step is lost; one that raises does nothing. -/
def runAlone : List γ → σ → σ
  | [],c => c
  | job :: rest,c =>
    match (script job).result insert c [] with
    | .error _ => runAlone rest c
    | .ok (c',_) => runAlone rest c'

variable {insert script}

theorem runJob_ended {s : Session σ ω} (htidy : ∀ job c, (script job).Tidy insert c c [])
    (h : s.Idle) (job : γ × Option ℕ) :
    Ended s ((script job.1).result insert s.committed []) (runJob insert script job s) := by
  have hsame : s.SameCommits { s with faultIn := job.2 } := ⟨rfl,rfl⟩
  have hended := exec_ended (script job.1) { s with faultIn := job.2 } (by
    show (script job.1).Tidy insert s.committed s.working s.pending
    rw [h.working,h.pending]
    exact htidy job.1 s.committed)
  have hmeaning : (script job.1).result insert s.working s.pending =
      (script job.1).result insert s.committed [] := by rw [h.working,h.pending]
  rw [← hmeaning]
  exact hended.after hsame

theorem spared_sublist (jobs : List (γ × Option ℕ)) :
    (spared jobs).Sublist (jobs.map Prod.fst) :=
  List.filter_sublist.map Prod.fst

theorem spared_of_none {jobs : List (γ × Option ℕ)} (h : ∀ job ∈ jobs, job.2 = none) :
    spared jobs = jobs.map Prod.fst := by
  rw [spared,List.filter_eq_self.mpr fun job hjob => decide_eq_true (h job hjob)]

theorem idle_start (c : σ) : (start c : Session σ ω).Idle := ⟨rfl,rfl⟩

theorem idle_rollback (s : Session σ ω) : s.rollback.Idle := ⟨rfl,rfl⟩

/-- The session `r` comes from `s` by the jobs, of which those that lose a step have left nothing:
it ends with what the others do alone, and every state it commits is one that the others reach. -/
structure RanAlone (insert : ω → σ → Except ε σ) (script : γ → Script σ ω ε α)
    (jobs : List (γ × Option ℕ)) (s r : Session σ ω) : Prop where
  committed : r.committed = runAlone insert script (spared jobs) s.committed
  commits : ∀ c ∈ r.commits, c ∈ s.commits ∨ ∃ done, done <+: jobs ∧
    c = runAlone insert script (spared done) s.committed

section Step

variable {job : γ × Option ℕ} {rest : List (γ × Option ℕ)} {s s' r : Session σ ω}

/-- The session goes on from `s'` after one job, which does alone what it did in front of `s'`
unless it lost a step. -/
theorem RanAlone.cons (h : RanAlone insert script rest s' r)
    (halone : ∀ jobs, runAlone insert script (spared (job :: jobs)) s.committed =
      runAlone insert script (spared jobs) s'.committed)
    (hcommits : ∀ c ∈ s'.commits, c ∈ s.commits ∨ c = s'.committed) :
    RanAlone insert script (job :: rest) s r where
  committed := by rw [halone,h.committed]
  commits c hc := by
    obtain hold | ⟨done,hdone,rfl⟩ := h.commits c hc
    · obtain hold | rfl := hcommits c hold
      · exact .inl hold
      · exact .inr ⟨[job],by simp,(halone []).symm⟩
    · exact .inr ⟨job :: done,List.prefix_cons_inj _ |>.mpr hdone,(halone done).symm⟩

theorem RanAlone.lost {n : ℕ} (hfault : job.2 = some n) (hs : s.SameCommits s')
    (h : RanAlone insert script rest s' r) : RanAlone insert script (job :: rest) s r := by
  refine h.cons (fun jobs => ?_) fun c hc => .inl ?_
  · have hnone : spared (job :: jobs) = spared jobs := by simp [spared,hfault]
    rw [hnone,hs.committed]
  · rwa [← hs.commits]

theorem runAlone_spared_cons (hfault : job.2 = none) (jobs : List (γ × Option ℕ)) (c : σ) :
    runAlone insert script (spared (job :: jobs)) c =
      match (script job.1).result insert c [] with
      | .error _ => runAlone insert script (spared jobs) c
      | .ok (c',_) => runAlone insert script (spared jobs) c' := by
  have hcons : spared (job :: jobs) = job.1 :: spared jobs := by simp [spared,hfault]
  rw [hcons,runAlone]

end Step

/-- The jobs of a session: those that lose a step leave nothing, and the others end as if they were
alone. -/
theorem runEach_ranAlone (htidy : ∀ job c, (script job).Tidy insert c c [])
    (jobs : List (γ × Option ℕ)) {s : Session σ ω} (h : s.Idle) :
    RanAlone insert script jobs s (runEach insert script jobs s) := by
  induction jobs generalizing s with
  | nil => exact ⟨rfl,fun c hc => .inl hc⟩
  | cons job rest ih =>
    have hended := runJob_ended htidy h job
    rw [runEach]
    cases hfault : job.2 with
    | some n =>
      have hdoomed : Doomed { s with faultIn := job.2 } (runJob insert script job s) :=
        doomed_exec _ (by simp [hfault])
      have hsame : s.SameCommits (runJob insert script job s).2 :=
        ⟨hdoomed.same.committed,hdoomed.same.commits⟩
      generalize runJob insert script job s = r at hended hsame
      cases hended with
      | lost s' _ =>
        have hback : s.SameCommits s'.rollback := ⟨hsame.committed,hsame.commits⟩
        exact .lost hfault hback (ih (idle_rollback s'))
      | raised err s' _ _ =>
        have hback : s.SameCommits s'.rollback := ⟨hsame.committed,hsame.commits⟩
        exact .lost hfault hback (ih (idle_rollback s'))
      | finished a s' _ _ hidle => exact .lost hfault hsame (ih hidle)
      | committed a s' _ hidle _ => exact .lost hfault hsame (ih hidle)
    | none =>
      have hundisturbed : Undisturbed (runJob insert script job s) :=
        undisturbed_exec (script job.1) hfault
      generalize runJob insert script job s = r at hended hundisturbed
      cases hended with
      | lost s' _ => exact absurd rfl hundisturbed.1
      | raised err s' hr hs =>
        refine (ih (idle_rollback s')).cons (fun jobs => ?_) fun c hc => .inl ?_
        · rw [runAlone_spared_cons hfault,hr]
          exact congrArg _ hs.committed.symm
        · rwa [← hs.commits]
      | finished a s' hr hs hidle =>
        refine (ih hidle).cons (fun jobs => ?_) fun c hc => .inl ?_
        · rw [runAlone_spared_cons hfault,hr,hs.committed]
        · rwa [← hs.commits]
      | committed a s' hr hidle hcommits =>
        refine (ih hidle).cons (fun jobs => ?_) fun c hc => ?_
        · rw [runAlone_spared_cons hfault,hr]
        · rwa [hcommits,List.mem_append,List.mem_singleton] at hc

theorem runEach_of_none (htidy : ∀ job c, (script job).Tidy insert c c [])
    {jobs : List (γ × Option ℕ)} (hnone : ∀ job ∈ jobs, job.2 = none) {s : Session σ ω}
    (h : s.Idle) : (runEach insert script jobs s).committed =
      runAlone insert script (jobs.map Prod.fst) s.committed := by
  rw [(runEach_ranAlone htidy jobs h).committed,spared_of_none hnone]

end Jobs

end UnitOfWork
end LeadEngine
