/-
  Failure records and the failed-jobs count under the scheduler's retries.

  1. **One pass** (`reconcileJobs_once_per_pass`) — a pass increments the count at most once, and
     the records it hands `setCache` are, in order, those of the first entries with a non-zero
     exit code in the order `range` visits its status map (`failureRecords`): one record per
     entry at most, the map's keys being distinct. A pass that has recorded or counted ends with
     an error only when a later `setCache` is refused or the delete fails (a missing job aside).

  2. **Retries** (`retryRun`) — the scheduler runs the pass again after every error, and nothing
     in the pass remembers what an earlier pass sent: a pass that failed after its records and
     its count is followed by one that sends them again (`delete_failure_repeats_records`).
-/
import Forge.Watcher.Model

namespace Forge.Watcher

/-- A call of `IncrementFailedScansTotal`. -/
def Effect.isIncrement : Effect → Bool
  | .increment _ _ => true
  | _ => false

/-- A call of `setCache`: a record handed to the outcome sink. -/
def Effect.isSetCache : Effect → Bool
  | .setCache .. => true
  | _ => false

/-- What `setCache` is handed: the action, the image and the message. -/
def Effect.record? : Effect → Option (ActionType × Image × String)
  | .setCache action img msg _ => some (action, img, msg)
  | _ => none

/-- The record of each status with a non-zero exit code, in the order visited. -/
def failureRecords (action : ActionType) (img : Image) (visits : List (String × Terminated)) :
    List (ActionType × Image × String) :=
  (visits.filter fun e => e.2.exitCode ≠ 0).map fun e => (action, img, failureMessage e.2)

/-- What one pass guarantees of its records and its count, for the statuses `visits` of its
    status map, in the order it visited them. -/
structure OncePerPass (visits : List (String × Terminated)) (r : Option Err × List Effect) :
    Prop where
  increments : (r.2.filter Effect.isIncrement).length ≤ 1
  records : ∃ action img, r.2.filterMap Effect.record? <+: failureRecords action img visits
  late_error : ∀ e, r.1 = some e → (∃ x ∈ r.2, x.isSetCache ∨ x.isIncrement) →
    e = .new "cannot set cache when job is failed" ∨
      ∃ a, a ≠ .notFound ∧ e = .wrap "deleting job" (.api a)

/-- Effects that neither record nor count. -/
def Quiet (l : List Effect) : Prop := ∀ x ∈ l, x.isSetCache = false ∧ x.isIncrement = false

@[simp] theorem quiet_nil : Quiet [] := fun _ h => by cases h

theorem Quiet.filter_isIncrement {l : List Effect} (h : Quiet l) :
    l.filter Effect.isIncrement = [] :=
  List.filter_eq_nil_iff.mpr fun x hx => by simp [(h x hx).2]

theorem Quiet.filterMap_record {l : List Effect} (h : Quiet l) : l.filterMap Effect.record? = [] :=
  List.filterMap_eq_nil_iff.mpr fun x hx => by
    have := (h x hx).1
    cases x <;> simp_all [Effect.record?, Effect.isSetCache]

/-- A result that neither records nor counts. -/
theorem OncePerPass.quiet {visits : List (String × Terminated)} {r : Option Err × List Effect}
    (h : Quiet r.2) : OncePerPass visits r :=
  ⟨by simp [h.filter_isIncrement], ⟨.clusterDeleteAction, ⟨"", ""⟩, by simp [h.filterMap_record]⟩,
    fun _ _ ⟨x, hx, he⟩ => by simp [h x hx] at he⟩

/-- Quiet effects before a pass's effects change nothing of `OncePerPass`. -/
theorem OncePerPass.append_quiet {visits : List (String × Terminated)} {e : Option Err}
    {q l : List Effect} (h : OncePerPass visits (e, l)) (hq : Quiet q) :
    OncePerPass visits (e, q ++ l) := by
  refine ⟨by simpa [List.filter_append, hq.filter_isIncrement] using h.increments,
    by simpa [List.filterMap_append, hq.filterMap_record] using h.records,
    fun e' he' ⟨x, hx, hxs⟩ => h.late_error e' he' ⟨x, ?_, hxs⟩⟩
  rcases List.mem_append.mp hx with hx | hx
  · simp [hq x hx] at hxs
  · exact hx

/-! ## The steps of a pass -/

theorem deleteJob_error {env : PassEnv} {job : Job} {e : Err} (h : (deleteJob env job).1 = some e) :
    ∃ a, a ≠ .notFound ∧ e = .wrap "deleting job" (.api a) := by
  unfold deleteJob at h
  split at h
  · cases h
  · rename_i a _
    cases a <;> simp at h
    exact ⟨_, by simp, h.symm⟩

theorem getTerminatedContainersStatusesByJob_quiet (env : PassEnv) (job : Job) :
    Quiet (getTerminatedContainersStatusesByJob env job).2 := by
  have hd : (deleteJob env job).2 = [.delete job.name] := rfl
  unfold getTerminatedContainersStatusesByJob
  split
  · split
    · simp
    · split
      · split <;> rename_i heq <;> simp only [heq] at hd <;>
          simp [hd, Quiet, Effect.isSetCache, Effect.isIncrement]
      · simp [Quiet]
  · simp [Quiet]

/-- What the loop over the statuses sends: records only, those of the first non-zero exit codes
    visited, and no error but a refused `setCache`. -/
theorem emitFailures_shape (env : PassEnv) (action : ActionType) (img : Image) :
    ∀ (l : List (String × Terminated)) (i : Nat),
      (∀ x ∈ (emitFailures env action img i l).2, x.isSetCache = true ∧ x.isIncrement = false) ∧
      (emitFailures env action img i l).2.filterMap Effect.record? <+: failureRecords action img l ∧
      ((emitFailures env action img i l).1 = none ∨
        (emitFailures env action img i l).1 = some (.new "cannot set cache when job is failed"))
  | [], _ => by simp [emitFailures, failureRecords]
  | (k, t) :: rest, i => by
    by_cases h0 : t.exitCode = 0
    · simpa [emitFailures, failureRecords, h0] using emitFailures_shape env action img rest i
    · by_cases hs : env.setCache i
      · obtain ⟨h1, h2, h3⟩ := emitFailures_shape env action img rest (i + 1)
        simp only [emitFailures, h0, hs, if_false, if_true, List.mem_cons, forall_eq_or_imp,
          List.filterMap_cons, Effect.record?]
        exact ⟨⟨⟨rfl, rfl⟩, h1⟩, by simpa [failureRecords, h0] using h2, h3⟩
      · simp [emitFailures, h0, hs, Effect.isSetCache, Effect.isIncrement, Effect.record?,
          failureRecords]

theorem filter_isIncrement_of_records {l : List Effect}
    (h : ∀ x ∈ l, x.isSetCache = true ∧ x.isIncrement = false) : l.filter Effect.isIncrement = [] :=
  List.filter_eq_nil_iff.mpr fun x hx => by simp [(h x hx).2]

/-- A refused record ends the pass with its error. -/
theorem emitFailures_refused {env : PassEnv} {action : ActionType} {img : Image}
    {visits : List (String × Terminated)} {e : Err} {records : List Effect}
    (h : emitFailures env action img 0 visits = (some e, records)) :
    OncePerPass visits (some e, records) := by
  obtain ⟨hrec, hpre, herr⟩ := emitFailures_shape env action img visits 0
  simp only [h, Option.some.injEq, reduceCtorEq, false_or] at hrec hpre herr
  exact ⟨by simp [filter_isIncrement_of_records hrec], ⟨action, img, hpre⟩,
    fun e' he' _ => .inl (by cases he'; exact herr)⟩

/-- With every record accepted, the pass counts the failure and deletes the job. -/
theorem emitFailures_done {env : PassEnv} {action : ActionType} {img : Image}
    {visits : List (String × Terminated)} {records : List Effect} (job : Job)
    (h : emitFailures env action img 0 visits = (none, records)) :
    OncePerPass visits
      ((deleteJob env job).1, records ++ .increment action img :: (deleteJob env job).2) := by
  obtain ⟨hrec, hpre, -⟩ := emitFailures_shape env action img visits 0
  simp only [h] at hrec hpre
  exact ⟨by simp [List.filter_append, filter_isIncrement_of_records hrec, deleteJob,
      Effect.isIncrement],
    ⟨action, img, by simpa [List.filterMap_append, deleteJob, Effect.record?] using hpre⟩,
    fun e he _ => .inr (@deleteJob_error env job e he)⟩

/-- The status map a failed-job pass builds, empty when it builds none. -/
def failedStatuses (env : PassEnv) (job : Job) : StrMap Terminated :=
  match (getTerminatedContainersStatusesByJob env job).1 with
  | .ok m => m
  | .error _ => .empty

/-- **One pass of a failed job** records and counts at most once. -/
theorem processFailed_once (env : PassEnv) (job : Job) :
    OncePerPass (env.order.visit (failedStatuses env job)) (processFailedScanJob env job) := by
  have hget := getTerminatedContainersStatusesByJob_quiet env job
  have hc (img : Image) : Quiet [.cacheDeleteJob img] := by
    simp [Quiet, Effect.isSetCache, Effect.isIncrement]
  unfold processFailedScanJob
  split
  · exact .quiet (by simp [Quiet])
  · split
    · exact .quiet (by simp [Quiet])
    · rename_i img _
      split
      · exact ⟨by simp [deleteJob, Effect.isIncrement],
          ⟨.clusterDeleteAction, img, by simp [deleteJob, Effect.record?]⟩,
          fun e he _ => .inr (@deleteJob_error env job e he)⟩
      · split
        · rename_i heq
          simp only [heq] at hget
          exact .quiet hget
        · rename_i statuses effs heq
          simp only [heq] at hget
          rw [show failedStatuses env job = statuses by simp [failedStatuses, heq]]
          split
          · exact .quiet fun x hx => by
              rcases List.mem_append.mp hx with hx | hx
              exacts [hget x hx, hc _ x hx]
          · split
            · rename_i hem
              simpa using ((emitFailures_refused hem).append_quiet (hc img)).append_quiet hget
            · rename_i hem
              simpa using ((emitFailures_done job hem).append_quiet (hc img)).append_quiet hget

/-- The status map a pass builds: the failed-job branch's, and the empty map elsewhere. -/
def passStatuses (env : PassEnv) : StrMap Terminated :=
  match env.cached with
  | .ok job => failedStatuses env job
  | .error _ => .empty

/-- **One pass records and counts at most once**: at most one increment; its records, in order,
    those of the first entries of its status map with a non-zero exit code in the order `range`
    visits them, so one per entry at most; and an error after a record or the increment only from
    a refused `setCache` or a failed delete. -/
theorem reconcileJobs_once_per_pass (env : PassEnv) :
    OncePerPass (env.order.visit (passStatuses env)) (reconcileJobs env) := by
  cases hc : env.cached with
  | error e => by_cases h : e = .notFound <;> exact .quiet (by simp [reconcileJobs, hc, h])
  | ok job =>
    simp only [reconcileJobs, passStatuses, hc]
    split
    · exact .quiet (by simp)
    · split
      · exact .quiet (by simp [processCompleteScanJob, deleteJob, Quiet, Effect.isSetCache,
          Effect.isIncrement])
      · split
        · exact processFailed_once env job
        · exact .quiet (by simp)

/-! ## Retries -/

/-- Passes on one job, the scheduler running the pass again after each error, until one
    succeeds or the environments run out: the effects of every pass, in order. -/
def retryRun : List PassEnv → List Effect
  | [] => []
  | env :: envs =>
    match reconcileJobs env with
    | (none, effs) => effs
    | (some _, effs) => effs ++ retryRun envs

/-- A pass on a failed job whose one container exited with `7`, every call succeeding but the
    delete, which returns `delete`. -/
def failedPass (delete : Option ApiErr) : PassEnv where
  cached := .ok ⟨"j", "forge-core", [jobFailed], [("controller-uid", "u")]⟩
  actionType := .ok (.other "scan")
  image := .ok ⟨"img", "c"⟩
  refetch := .ok ⟨"j", "forge-core", [jobFailed], [("controller-uid", "u")]⟩
  podList _ _ := .ok [⟨[], [⟨"main", some ⟨7, "Error", "boom"⟩⟩]⟩]
  cacheDeleteJob := none
  setCache _ := true
  delete := delete
  order := ⟨StrMap.entries, fun _ => List.Perm.refl _⟩

/-- The delete times out after the record and the count; the scheduler's second pass sends
    both again. -/
theorem delete_failure_repeats_records :
    retryRun [failedPass (some (.other "timeout")), failedPass none] =
      [.cacheDeleteJob ⟨"img", "c"⟩,
        .setCache (.other "scan") ⟨"img", "c"⟩ "scanjob failed with reason: Error and message: boom" true,
        .increment (.other "scan") ⟨"img", "c"⟩, .delete "j",
        .cacheDeleteJob ⟨"img", "c"⟩,
        .setCache (.other "scan") ⟨"img", "c"⟩ "scanjob failed with reason: Error and message: boom" true,
        .increment (.other "scan") ⟨"img", "c"⟩, .delete "j"] := by
  decide

end Forge.Watcher
