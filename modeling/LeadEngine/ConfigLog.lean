import LeadEngine.ConfigRuns

/-! Interleaved calls of `create_active` against a history that only grows: the table is the one of
the committed calls run one after another in the order of their commits, and `list_versions` shows
the history of a tenant, newest first. -/
namespace LeadEngine
namespace TenantConfigs

open TransitionSystem

section History

variable [DoubleArithmetic]

/-- `list_versions`: newest first, each row checked again. -/
def listVersions (table : List TenantConfig) (tenantId : UUID) :
    Except ConfigError (List TenantConfig) :=
  ((rowsOf tenantId table).mergeSort fun r r' => r'.version ≤ r.version).mapM modelValidate

def createAll (table : List TenantConfig) : List CreateCall → Except ConfigError (List TenantConfig)
  | [] => .ok table
  | call :: rest => (createActive table call).bind fun result => createAll result.1 rest

theorem createAll_append (table : List TenantConfig) (log more : List CreateCall) :
    createAll table (log ++ more) = (createAll table log).bind (createAll · more) := by
  induction log generalizing table with
  | nil => rfl
  | cons call rest ih =>
    simp only [List.cons_append,createAll]
    cases createActive table call with
    | error err => rfl
    | ok result => exact ih result.1

/-- The version a call has written, as it stands once the given call has come after it. -/
def CreateCall.version (call : CreateCall) (n : ℕ) : Option CreateCall → TenantConfig
  | none => call.row n
  | some next => { call.row n with status := .archived, archivedAt := some next.now }

def versionsFrom (next : Option CreateCall) : ℕ → List CreateCall → List TenantConfig
  | _,[] => []
  | n,call :: rest => call.version n (rest.head?.or next) :: versionsFrom next (n+1) rest

def versions (tenantId : UUID) (log : List CreateCall) : List TenantConfig :=
  versionsFrom none 1 (log.filter fun call => call.tenantId = tenantId)

@[simp] theorem version_id (call : CreateCall) (n : ℕ) (next : Option CreateCall) :
    (call.version n next).id = call.id := by cases next <;> rfl
@[simp] theorem version_version (call : CreateCall) (n : ℕ) (next : Option CreateCall) :
    (call.version n next).version = n := by cases next <;> rfl
@[simp] theorem version_payload (call : CreateCall) (n : ℕ) (next : Option CreateCall) :
    (call.version n next).payload = call.data.toConfigPayload := by cases next <;> rfl

theorem versionsFrom_append (next : Option CreateCall) (n : ℕ) (log more : List CreateCall) :
    versionsFrom next n (log ++ more) =
      versionsFrom (more.head?.or next) n log ++ versionsFrom next (n+log.length) more := by
  induction log generalizing n with
  | nil => rfl
  | cons call rest ih =>
    rw [List.cons_append,versionsFrom,versionsFrom,ih,List.cons_append,List.length_cons,
      Nat.add_right_comm,Nat.add_assoc,List.head?_append,Option.or_assoc]

@[simp] theorem length_versionsFrom (next : Option CreateCall) (n : ℕ) (log : List CreateCall) :
    (versionsFrom next n log).length = log.length := by
  induction log generalizing n with
  | nil => rfl
  | cons call rest ih => simp [versionsFrom,ih]

theorem map_id_versionsFrom (next : Option CreateCall) (n : ℕ) (log : List CreateCall) :
    (versionsFrom next n log).map TenantConfig.id = log.map CreateCall.id := by
  induction log generalizing n with
  | nil => rfl
  | cons call rest ih => simp [versionsFrom,ih]

theorem map_version_versionsFrom (next : Option CreateCall) (n : ℕ) (log : List CreateCall) :
    (versionsFrom next n log).map TenantConfig.version = List.range' n log.length := by
  induction log generalizing n with
  | nil => rfl
  | cons call rest ih => simp [versionsFrom,ih,List.range'_succ]

theorem status_versionsFrom {next : CreateCall} {n : ℕ} {log : List CreateCall} {r : TenantConfig}
    (hr : r ∈ versionsFrom (some next) n log) : r.status = .archived := by
  induction log generalizing n with
  | nil => cases hr
  | cons call rest ih =>
    rcases List.mem_cons.mp hr with rfl | hr
    · cases rest <;> rfl
    · exact ih hr

theorem mem_versionsFrom {next : Option CreateCall} {n : ℕ} {log : List CreateCall}
    {r : TenantConfig} (hr : r ∈ versionsFrom next n log) :
    ∃ call ∈ log, r.payload = call.data.toConfigPayload := by
  induction log generalizing n with
  | nil => cases hr
  | cons call rest ih =>
    rcases List.mem_cons.mp hr with rfl | hr
    · exact ⟨call,List.mem_cons_self,version_payload ..⟩
    · obtain ⟨call',hcall',hpayload⟩ := ih hr
      exact ⟨call',List.mem_cons_of_mem _ hcall',hpayload⟩

theorem versionsFrom_concat (log : List CreateCall) (last : CreateCall) :
    versionsFrom none 1 (log ++ [last]) =
      versionsFrom (some last) 1 log ++ [last.row (log.length+1)] := by
  rw [versionsFrom_append,Nat.add_comm 1]
  rfl

theorem archive_versionsFrom {log : List CreateCall} {last : CreateCall} (call : CreateCall)
    (hids : ((log ++ [last]).map CreateCall.id).Nodup) :
    (versionsFrom none 1 (log ++ [last])).map (archive call.now last.id) ++
        [call.row (log.length+2)] = versionsFrom none 1 (log ++ [last] ++ [call]) := by
  have hother : ∀ r ∈ versionsFrom (some last) 1 log, archive call.now last.id r = r := by
    intro r hr
    refine archive_of_ne fun hid => ?_
    have hmem : r.id ∈ log.map CreateCall.id := by
      rw [← map_id_versionsFrom (some last) 1 log]
      exact List.mem_map_of_mem hr
    rw [List.map_append,List.nodup_append] at hids
    exact hids.2.2 r.id hmem last.id (by simp) hid
  have hlast : archive call.now last.id (last.row (log.length+1)) =
      last.version (log.length+1) (some call) := if_pos rfl
  rw [versionsFrom_concat (log ++ [last]) call,versionsFrom_concat log last,
    versionsFrom_append (some call),List.map_append,List.map_congr_left hother,List.map_id',
    List.map_singleton,hlast,Nat.add_comm 1,List.length_append,List.length_singleton]
  rfl

/-- A commit of a call that is ready appends it to the history of its tenant. -/
theorem rowsOf_commit {db : List TenantConfig} {call : CreateCall} {current : Option TenantConfig}
    {log : List CreateCall} (hids : (db.map TenantConfig.id).Nodup)
    (hready : Ready db call.tenantId current)
    (hrows : rowsOf call.tenantId db = versionsFrom none 1 log) :
    rowsOf call.tenantId (archived call.now current db ++
        [call.row ((rowsOf call.tenantId db).length+1)]) = versionsFrom none 1 (log ++ [call]) := by
  rw [rowsOf_append,rowsOf_row_self]
  cases current with
  | none =>
    have hempty : rowsOf call.tenantId db = [] := hready
    have hlog : log.length = 0 := by
      rw [← length_versionsFrom none 1,← hrows,hempty,List.length_nil]
    rw [archived,hempty,List.length_eq_zero_iff.mp hlog]
    rfl
  | some r =>
    obtain ⟨a,ha,hactive,hid⟩ := hready
    rcases List.eq_nil_or_concat log with rfl | ⟨before,last,rfl⟩
    · rw [hrows] at ha
      cases ha
    · rw [List.concat_eq_append] at hrows ⊢
      have hlast : a = last.row (before.length+1) := by
        rw [hrows,versionsFrom_concat] at ha
        rcases List.mem_append.mp ha with ha | ha
        · rw [status_versionsFrom ha] at hactive
          cases hactive
        · exact List.mem_singleton.mp ha
      have hnodup : ((before ++ [last]).map CreateCall.id).Nodup := by
        rw [← map_id_versionsFrom none 1,← hrows]
        exact nodup_rowsOf hids
      rw [archived,rowsOf_map_archive,hrows,length_versionsFrom,List.length_append,
        List.length_singleton,← archive_versionsFrom call hnodup,← hid,hlast]
      rfl

/-- What `list_versions` returns of a table that holds the history of the tenant. -/
theorem listVersions_eq {table : List TenantConfig} {tenantId : UUID} {log : List CreateCall}
    (h : rowsOf tenantId table = versions tenantId log) :
    listVersions table tenantId = .ok (versions tenantId log).reverse := by
  let newer : TenantConfig → TenantConfig → Bool := fun r r' => r'.version ≤ r.version
  have hincreasing : (versions tenantId log).Pairwise fun r r' => r.version < r'.version := by
    rw [← List.pairwise_map (f:=TenantConfig.version),versions,map_version_versionsFrom]
    exact List.pairwise_lt_range'
  have hdecreasing : ((versions tenantId log).mergeSort newer).Pairwise fun r r' => newer r r' := by
    refine List.pairwise_mergeSort (fun a b c => ?_) (fun a b => ?_) _
    · simp only [newer,decide_eq_true_eq]
      omega
    · simp only [newer,Bool.or_eq_true,decide_eq_true_eq]
      omega
  have hsorted : (versions tenantId log).mergeSort newer = (versions tenantId log).reverse := by
    refine List.Perm.eq_of_pairwise (fun r r' hr hr' hle hle' => ?_) hdecreasing
      (List.pairwise_reverse.mpr (hincreasing.imp fun hlt => decide_eq_true hlt.le))
      ((List.mergeSort_perm _ _).trans (List.reverse_perm _).symm)
    have heq : r.version = r'.version :=
      le_antisymm (of_decide_eq_true hle') (of_decide_eq_true hle)
    have hnodup : ((versions tenantId log).map TenantConfig.version).Nodup :=
      List.pairwise_map.mpr (hincreasing.imp fun hlt => hlt.ne)
    exact List.inj_on_of_nodup_map hnodup ((List.mergeSort_perm _ _).subset hr)
      (List.mem_reverse.mp hr') heq
  have hread : ∀ rows : List TenantConfig, (∀ r ∈ rows, modelValidate r = .ok r) →
      rows.mapM modelValidate = .ok rows := by
    intro rows hrows
    induction rows with
    | nil => rfl
    | cons r rest ih =>
      obtain ⟨hr,hrest⟩ := List.forall_mem_cons.mp hrows
      rw [List.mapM_cons,hr,ih hrest]
      rfl
  rw [listVersions,h,hsorted]
  refine hread _ fun r hr => ?_
  obtain ⟨call,_,hpayload⟩ := mem_versionsFrom (List.mem_reverse.mp hr)
  refine if_pos ?_
  rw [hpayload]
  exact ⟨call.data.weights_valid,call.data.thresholds_valid⟩

end History

section Runs

variable [DoubleArithmetic] {ι : Type} {calls : ι → CreateCall} {c c' : Registry ι}

/-- The log of the calls that have committed: one after another they give the table, and each
tenant has the versions of its own calls. -/
structure Logged (calls : ι → CreateCall) (log : List ι) (c : Registry ι) : Prop where
  nodup : log.Nodup
  committed : ∀ i, i ∈ log ↔ c.phase i = .committed
  serial : createAll [] (log.map calls) = .ok c.db
  rows : ∀ t, rowsOf t c.db = versions t (log.map calls)

theorem logged_initial : Logged calls [] Registry.initial :=
  ⟨List.nodup_nil,by simp [Registry.initial],rfl,fun _ => rfl⟩

omit [DoubleArithmetic] in
theorem Ready.archived_eq {db : List TenantConfig} {t : UUID}
    {current current' : Option TenantConfig}
    (hregistered : Registered (rowsOf t db)) (h : Ready db t current) (h' : Ready db t current')
    (now : Time) : archived now current db = archived now current' db := by
  cases current with
  | none =>
    cases current' with
    | none => rfl
    | some r' =>
      obtain ⟨a,ha,_⟩ := h'
      rw [show rowsOf t db = [] from h] at ha
      cases ha
  | some r =>
    obtain ⟨a,ha,hactive,hid⟩ := h
    cases current' with
    | none =>
      rw [show rowsOf t db = [] from h'] at ha
      cases ha
    | some r' =>
      obtain ⟨a',ha',hactive',hid'⟩ := h'
      rw [archived,archived,← hid,← hid',hregistered.eq_of_active ha ha' hactive hactive']

variable [DecidableEq ι]

/-- A commit appends its call to the log. -/
theorem Logged.commit {log : List ι} (h : Logged calls log c) (hsound : Sound calls c) {i : ι}
    {current : Option TenantConfig} {version : ℕ} (hi : c.phase i = .inserted current version) :
    Logged calls (log ++ [i]) (c.moveTo i
      (archived (calls i).now current c.db ++ [(calls i).row version]) .committed) := by
  obtain ⟨hready,rfl,hfresh⟩ := (hsound.standing i).inserted current version hi
  have hnew : i ∉ log := by simp [h.committed,hi]
  refine ⟨?_,fun j => ?_,?_,fun t => ?_⟩
  · rw [List.nodup_append]
    exact ⟨h.nodup,List.nodup_singleton i,fun j hj k hk hjk =>
      hnew (List.mem_singleton.mp hk ▸ hjk ▸ hj)⟩
  · by_cases hj : j = i
    · simp [hj]
    · rw [moveTo_phase_ne _ _ _ _ hj,← h.committed j]
      simp [hj]
  · obtain ⟨current',hready',hok⟩ := createActive_ok hsound.ids hsound.registered hfresh
    rw [List.map_append,createAll_append,h.serial]
    simp only [List.map_singleton,createAll,Except.bind,hok,moveTo_db]
    rw [hready.archived_eq (hsound.registered _) hready']
  · rw [moveTo_db,List.map_append,List.map_singleton,versions,List.filter_append]
    by_cases ht : t = (calls i).tenantId
    · subst ht
      rw [rowsOf_commit hsound.ids hready (h.rows _)]
      simp
    · rw [rowsOf_commit_ne hsound.ids hready ht,h.rows t,versions]
      simp [Ne.symm ht]

theorem Logged.quiet {log : List ι} (h : Logged calls log c) {i : ι} {p : CallPhase}
    (hbefore : c.phase i ≠ .committed) (hafter : p ≠ .committed) :
    Logged calls log (c.moveTo i c.db p) := by
  refine ⟨h.nodup,fun j => ?_,h.serial,h.rows⟩
  by_cases hj : j = i
  · subst hj
    simp [h.committed,hbefore,hafter]
  · rw [moveTo_phase_ne _ _ _ _ hj,h.committed j]

theorem Moved.logged {log : List ι} {i : ι} (hm : Moved calls c i c') (h : Logged calls log c)
    (hsound : Sound calls c) : ∃ more, Logged calls (log ++ more) c' := by
  cases hm with
  | commit current version hp => exact ⟨[i],h.commit hsound hp⟩
  | raise hover =>
    refine ⟨[],?_⟩
    rw [List.append_nil]
    refine h.quiet (fun hp => ?_) (by simp)
    simp [hp,CallPhase.isOver] at hover
  | select _ hp | flush _ hp | numberFirst hp | number _ hp | insert _ _ hp =>
    refine ⟨[],?_⟩
    rw [List.append_nil]
    exact h.quiet (by simp [hp]) (by simp)

variable [Fintype ι]

theorem Logged.reachable {log : List ι} (h : Logged calls log c) (hsound : Sound calls c)
    (hrun : Reachable (RegistryStep calls) c c') :
    Sound calls c' ∧ ∃ more, Logged calls (log ++ more) c' := by
  apply hrun.invariant (I := fun c' => Sound calls c' ∧ ∃ more, Logged calls (log ++ more) c')
  · exact ⟨hsound,[],by rwa [List.append_nil]⟩
  · rintro d m d' ⟨hd,more,hlogged⟩ hs
    obtain ⟨i,hm⟩ := RegistryStep.moved hs
    obtain ⟨more',hlogged'⟩ := hm.logged hlogged hd
    exact ⟨hm.sound hd,more ++ more',by rwa [← List.append_assoc]⟩

omit [DecidableEq ι] [Fintype ι] in
theorem Logged.listVersions {log : List ι} (h : Logged calls log c) (t : UUID) :
    listVersions c.db t = .ok (versions t (log.map calls)).reverse :=
  listVersions_eq (h.rows t)

/-- In every interleaving of `create_active` calls there is an order of the committed calls in which
they give the same table one after another, each of them accepted; `list_versions` shows the calls of
the tenant in that order, newest first, each archived when the next one was activated. Whatever
follows only appends to the order, so a reader never sees a version vanish, change or move. -/
theorem config_linearised (h : Reachable (RegistryStep calls) .initial c) :
    ∃ log : List ι, log.Nodup ∧ (∀ i, i ∈ log ↔ c.phase i = .committed) ∧
      createAll [] (log.map calls) = .ok c.db ∧
      (∀ t, listVersions c.db t = .ok (versions t (log.map calls)).reverse) ∧
      ∀ c', Reachable (RegistryStep calls) c c' → ∃ more : List ι,
        createAll c.db (more.map calls) = .ok c'.db ∧
        ∀ t, listVersions c'.db t = .ok (versions t ((log ++ more).map calls)).reverse := by
  obtain ⟨hsound,log,hlog⟩ := logged_initial.reachable sound_initial h
  rw [List.nil_append] at hlog
  refine ⟨log,hlog.nodup,hlog.committed,hlog.serial,hlog.listVersions,fun c' hrun => ?_⟩
  obtain ⟨_,more,hmore⟩ := hlog.reachable hsound hrun
  refine ⟨more,?_,hmore.listVersions⟩
  have hserial := hmore.serial
  rw [List.map_append,createAll_append,hlog.serial] at hserial
  exact hserial

end Runs

/-- Of three overlapping calls the one that is overtaken fails; the two others are the history. -/
theorem overlapping_linearised :
    letI := DoubleArithmetic.exact
    let c := follow (registryNext threeCalls) .initial (overlapping 0 1 2)
    ∃ log : List (Fin 3), log.Nodup ∧ 0 ∈ log ∧ 1 ∈ log ∧ 2 ∉ log ∧
      listVersions c.db 1 = .ok (versions 1 (log.map threeCalls)).reverse := by
  let := DoubleArithmetic.exact
  intro c
  have hpath : Reachable (RegistryStep threeCalls) .initial c := (path_follow _ _ _).reachable
  obtain ⟨log,hnodup,hcommitted,_,hlisted,_⟩ := config_linearised hpath
  refine ⟨log,hnodup,(hcommitted 0).mpr rfl,(hcommitted 1).mpr rfl,fun hmem => ?_,hlisted 1⟩
  have hraised : c.phase 2 = .raised := rfl
  exact CallPhase.noConfusion (hraised.symm.trans ((hcommitted 2).mp hmem))

end TenantConfigs
end LeadEngine
