/-
  How a pass ends: which condition it acts on, and what it makes of a missing job.

  1. **The first condition decides** (`reconcileJobs_first_condition`) — the pass switches on
     `Status.Conditions[0].Type` alone: a job whose terminal condition comes after another is
     reported as unrecognized, and is neither processed nor deleted.

  2. **Missing jobs** — a job missing from the cache ends the pass with success, and a delete of
     a missing job counts as done. Errors of the live re-fetch and of the pod list are API
     errors, never `podControlledByJobNotFoundErr`, so the branch of
     `GetTerminatedContainersStatusesByJob` that tests for it never runs; every such error stops
     the pass before any record or delete (`processFailed_pod_error`). A `NotFound` from the
     live re-fetch among them: the pass fails with it (`processFailed_refetch_notFound`), where
     the cached read's `NotFound` is a success.
-/
import Forge.Watcher.Model

namespace Forge.Watcher

/-! ## The first condition -/

/-- A delete that succeeds, or finds the job gone, is done. -/
theorem deleteJob_done (env : PassEnv) (job : Job)
    (hdel : env.delete = none ∨ env.delete = some .notFound) :
    deleteJob env job = (none, [.delete job.name]) := by
  rcases hdel with h | h <;> simp [deleteJob, h]

/-- **The pass acts on the first condition only**: none, no action; `Complete` first, the job
    is deleted; `Failed` first, `processFailedScanJob`; anything else first, the
    unrecognized-condition error naming it, with no effect, whatever comes after it. -/
theorem reconcileJobs_first_condition (env : PassEnv) {job : Job} (hc : env.cached = .ok job)
    (hdel : env.delete = none ∨ env.delete = some .notFound) :
    (job.conditions = [] → reconcileJobs env = (none, [])) ∧
    (∀ rest, job.conditions = jobComplete :: rest → reconcileJobs env = (none, [.delete job.name])) ∧
    (∀ rest, job.conditions = jobFailed :: rest → reconcileJobs env = processFailedScanJob env job) ∧
    (∀ t rest, job.conditions = t :: rest → t ≠ jobComplete → t ≠ jobFailed →
      reconcileJobs env = (some (.new ("unrecognized scan job condition: " ++ t)), [])) := by
  refine ⟨fun h => by simp [reconcileJobs, hc, h], fun rest h => ?_, fun rest h => ?_,
    fun t rest h h1 h2 => by simp [reconcileJobs, hc, h, h1, h2]⟩
  · simp [reconcileJobs, hc, h, processCompleteScanJob, deleteJob_done env job hdel]
  · simp [reconcileJobs, hc, h, jobFailed, jobComplete]

/-- Every call succeeds, and the job's first condition is `SuccessCriteriaMet`, its second
    `Complete`. -/
def completedLate : PassEnv where
  cached := .ok ⟨"j", "forge-core", ["SuccessCriteriaMet", jobComplete], []⟩
  actionType := .ok (.other "scan")
  image := .ok ⟨"img", "c"⟩
  refetch := .ok ⟨"j", "forge-core", ["SuccessCriteriaMet", jobComplete], []⟩
  podList _ _ := .ok []
  cacheDeleteJob := none
  setCache _ := true
  delete := none
  order := ⟨StrMap.entries, fun _ => List.Perm.refl _⟩

theorem reconcileJobs_first_condition_completedLate :
    (completedLate.cached = .ok ⟨"j", "forge-core", ["SuccessCriteriaMet", jobComplete], []⟩ ∧
      (completedLate.delete = none ∨ completedLate.delete = some .notFound)) ∧
    reconcileJobs completedLate =
      (some (.new ("unrecognized scan job condition: " ++ "SuccessCriteriaMet")), []) :=
  ⟨⟨rfl, .inl rfl⟩, (reconcileJobs_first_condition completedLate rfl (.inl rfl)).2.2.2
    "SuccessCriteriaMet" [jobComplete] rfl (by decide) (by decide)⟩

/-- A job completed after meeting its success criteria is reported as unrecognized and not
    deleted. -/
theorem complete_after_other_condition_unrecognized :
    reconcileJobs completedLate =
      (some (.new "unrecognized scan job condition: SuccessCriteriaMet"), []) := by
  decide

/-! ## Missing jobs -/

/-- A job missing from the cache ends the pass with success and no effect. -/
theorem reconcileJobs_cache_notFound (env : PassEnv) (h : env.cached = .error .notFound) :
    reconcileJobs env = (none, []) := by
  simp [reconcileJobs, h]

/-- A failed pod lookup: its `NotFound` as it is, anything else as an unknown issue; no effect.
    The branch for `podControlledByJobNotFoundErr` is never taken. -/
theorem getTerminatedContainersStatusesByJob_error {env : PassEnv} {job : Job} {a : ApiErr}
    (h : getPodByJob env job = .error (.api a)) :
    getTerminatedContainersStatusesByJob env job =
      (.error (if a = .notFound then .api .notFound else .wrap "unknown issue" (.api a)), []) := by
  cases a <;> simp [getTerminatedContainersStatusesByJob, h]

/-- **A failed pod lookup stops the pass**: with the lookups of action and image done and the
    action not `ClusterDeleteAction`, an error of the re-fetch or of the pod list ends the pass
    with that error (wrapped as an unknown issue, unless it is `NotFound`), before any record,
    count or delete. -/
theorem processFailed_pod_error (env : PassEnv) (job : Job) {action : ActionType} {img : Image}
    {a : ApiErr} (ha : env.actionType = .ok action) (hcd : action ≠ .clusterDeleteAction)
    (hi : env.image = .ok img) (hp : getPodByJob env job = .error (.api a)) :
    processFailedScanJob env job =
      (some (if a = .notFound then .api .notFound else .wrap "unknown issue" (.api a)), []) := by
  simp [processFailedScanJob, ha, hi, hcd, getTerminatedContainersStatusesByJob_error hp]

/-- **A job gone on the live re-fetch fails the pass**: its `NotFound` is returned, and the
    scheduler runs the pass again. -/
theorem processFailed_refetch_notFound (env : PassEnv) (job : Job) {action : ActionType}
    {img : Image} (ha : env.actionType = .ok action) (hcd : action ≠ .clusterDeleteAction)
    (hi : env.image = .ok img) (hr : env.refetch = .error .notFound) :
    processFailedScanJob env job = (some (.api .notFound), []) := by
  rw [processFailed_pod_error env job ha hcd hi (a := .notFound) (by simp [getPodByJob, hr])]
  rfl

/-- A failed job in the cache, deleted before the live re-fetch. -/
def goneOnRefetch : PassEnv where
  cached := .ok ⟨"j", "forge-core", [jobFailed], [("controller-uid", "u")]⟩
  actionType := .ok (.other "scan")
  image := .ok ⟨"img", "c"⟩
  refetch := .error .notFound
  podList _ _ := .ok []
  cacheDeleteJob := none
  setCache _ := true
  delete := none
  order := ⟨StrMap.entries, fun _ => List.Perm.refl _⟩

/-- The pass on a job deleted between the cached read and the live re-fetch ends with the
    `NotFound` error. -/
theorem refetch_notFound_fails_pass :
    reconcileJobs goneOnRefetch = (some (.api .notFound), []) := by
  decide

end Forge.Watcher
