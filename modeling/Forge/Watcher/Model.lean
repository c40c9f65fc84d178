/-
  The job watcher (`ShellJobController`, package `controller`): one reconcile pass on a job,
  from the cached read to the job's deletion.

  1. **Data** — what the pass reads of a `batchv1.Job` and a `corev1.Pod`; Go's errors with
     `%w` wrapping (`Err`), seen through by `isNotFound` and `isPodControlledByJobNotFound` as
     `errors.As` and `errors.Is` do; and a Go `map[string]…` (`StrMap`), its entries with
     distinct keys as a field, so that no other map can be built.

  2. **Environment** — `PassEnv`: what every call leaving the pass returns. The helpers the
     source calls and does not define (`getActionTypeFromJob`, `getContainerImageFromJob`,
     `setCache`, `Cache.DeleteJob`, `Metrics.IncrementFailedScansTotal`) are left to it, with
     the API server's answers and the order in which `range` visits a map.

  3. **Program** — `reconcileJobs` and the functions it calls, statement by statement; each
     returns its error, if any, and the effects it had outside (`Effect`), in order.
-/
import Mathlib.Data.List.Nodup
import Mathlib.Data.List.Perm.Basic

namespace Forge.Watcher

/-! ## Jobs and pods -/

/-- `corev1.ContainerStateTerminated`, as far as the pass reads it. -/
structure Terminated where
  /-- `ExitCode`, an `int32` the pass only compares with `0` -/
  exitCode : Int
  reason : String
  message : String
  deriving DecidableEq, Repr

/-- `corev1.ContainerStatus`: the name, and `State.Terminated` (`nil` unless terminated). -/
structure ContainerStatus where
  name : String
  terminated : Option Terminated
  deriving DecidableEq, Repr

/-- `corev1.Pod`: `Status.InitContainerStatuses` and `Status.ContainerStatuses`. -/
structure Pod where
  initContainerStatuses : List ContainerStatus
  containerStatuses : List ContainerStatus
  deriving DecidableEq, Repr

/-- `batchv1.Job`, as far as the pass reads it. -/
structure Job where
  name : String
  ns : String
  /-- the `Type` of each of `Status.Conditions`, in order -/
  conditions : List String
  /-- `Spec.Selector.MatchLabels` -/
  matchLabels : List (String × String)
  deriving DecidableEq, Repr

/-- `batchv1.JobComplete` -/
def jobComplete : String := "Complete"
/-- `batchv1.JobFailed` -/
def jobFailed : String := "Failed"

/-! ## Errors -/

/-- An error the API server returns. -/
inductive ApiErr where
  /-- a `NotFound` status -/
  | notFound
  | other (msg : String)
  deriving DecidableEq, Repr

/-- A Go `error` of the pass. -/
inductive Err where
  | api (e : ApiErr)
  /-- `podControlledByJobNotFoundErr` -/
  | podControlledByJobNotFound
  /-- `errors.New(msg)`, or `fmt.Errorf` with no `%w` -/
  | new (msg : String)
  /-- `fmt.Errorf("pre: %w", inner)` -/
  | wrap (pre : String) (inner : Err)
  deriving DecidableEq, Repr

/-- Whether `err` or an error it wraps satisfies `p`: how `errors.Is` and `errors.As` look
    through `%w`. -/
def Err.unwraps (p : Err → Bool) : Err → Bool
  | .wrap pre e => p (.wrap pre e) || e.unwraps p
  | e => p e

/-- `k8sapierror.IsNotFound` -/
def isNotFound (e : Err) : Bool := e.unwraps (· == .api .notFound)

/-- `IsPodControlledByJobNotFound`: `errors.Is(err, podControlledByJobNotFoundErr)` -/
def isPodControlledByJobNotFound (e : Err) : Bool := e.unwraps (· == .podControlledByJobNotFound)

@[simp] theorem isNotFound_api (e : ApiErr) : isNotFound (.api e) = (e == .notFound) := by
  cases e <;> rfl

@[simp] theorem isPodControlledByJobNotFound_api (e : ApiErr) :
    isPodControlledByJobNotFound (.api e) = false := rfl

/-! ## Go maps -/

theorem nodup_keys_insert {V : Type} (l : List (String × V)) (h : (l.map Prod.fst).Nodup)
    (k : String) (v : V) : ((l.filter (·.1 != k) ++ [(k, v)]).map Prod.fst).Nodup := by
  rw [List.map_append]
  refine (h.sublist ((List.filter_sublist _).map _)).append (List.nodup_singleton _) ?_
  simp [List.Disjoint]

/-- A Go `map[string]V`: its entries, with distinct keys. -/
structure StrMap (V : Type) where
  entries : List (String × V)
  nodup : (entries.map Prod.fst).Nodup

/-- `make(map[string]V)` -/
def StrMap.empty {V : Type} : StrMap V := ⟨[], List.nodup_nil⟩

/-- `m[k] = v` -/
def StrMap.insert {V : Type} (m : StrMap V) (k : String) (v : V) : StrMap V :=
  ⟨m.entries.filter (·.1 != k) ++ [(k, v)], nodup_keys_insert _ m.nodup k v⟩

/-- The order in which `range` visits a map: any order of its entries, chosen anew for each
    map. -/
structure RangeOrder where
  visit : StrMap Terminated → List (String × Terminated)
  perm : ∀ m, (visit m).Perm m.entries

/-! ## The environment of a pass -/

/-- `scanjob.ActionType` (package `scanjob`, not in the source): the pass only compares it with
    `ClusterDeleteAction` and hands it on. -/
inductive ActionType where
  | clusterDeleteAction
  | other (name : String)
  deriving DecidableEq, Repr

/-- What the pass reads of the image `getContainerImageFromJob` returns. -/
structure Image where
  id : String
  cluster : String
  deriving DecidableEq, Repr

/-- What a pass did outside itself. -/
inductive Effect where
  /-- `r.Cache.DeleteJob(img.ID, img.Cluster)` -/
  | cacheDeleteJob (img : Image)
  /-- `r.setCache(actionType, img, cache.StateError, errorMsg)`, with what it returned -/
  | setCache (action : ActionType) (img : Image) (msg : String) (ok : Bool)
  /-- `r.Metrics.IncrementFailedScansTotal(action.String(), img.ID, img.Cluster)` -/
  | increment (action : ActionType) (img : Image)
  /-- `r.Client.Delete(ctx, job, …)` on the job named `name` -/
  | delete (name : String)
  deriving DecidableEq, Repr

/-- What every call leaving one pass returns. -/
structure PassEnv where
  /-- `r.Client.Get(ctx, req.NamespacedName, job)`, from the cache -/
  cached : Except ApiErr Job
  /-- `r.getActionTypeFromJob(job)` -/
  actionType : Except Err ActionType
  /-- `r.getContainerImageFromJob(job)` -/
  image : Except Err Image
  /-- `r.Clientset.BatchV1().Jobs(ns).Get(ctx, name, …)`, the live re-fetch -/
  refetch : Except ApiErr Job
  /-- `r.Clientset.CoreV1().Pods(ns).List(ctx, …)`, by namespace and label selector -/
  podList : String → String → Except ApiErr (List Pod)
  /-- the error of `r.Cache.DeleteJob`, if any -/
  cacheDeleteJob : Option Err
  /-- what the `i`-th call of `r.setCache` in the pass returns -/
  setCache : Nat → Bool
  /-- the error of `r.Client.Delete`, if any -/
  delete : Option ApiErr
  order : RangeOrder

/-! ## The pass -/

section Pass

variable (env : PassEnv)

/-- `r.deleteJob(ctx, job)`: a missing job counts as deleted. -/
def deleteJob (job : Job) : Option Err × List Effect :=
  (match env.delete with
    | none => none
    | some e => if isNotFound (.api e) then none else some (.wrap "deleting job" (.api e)),
   [.delete job.name])

/-- `MatchLabels[key]`, the empty string for a missing key. -/
def labelValue (labels : List (String × String)) (key : String) : String :=
  (labels.lookup key).getD ""

/-- `r.podListLookup(ctx, namespace, refreshedJob)` -/
def podListLookup (ns : String) (refreshedJob : Job) : Except ApiErr (List Pod) :=
  let value := labelValue refreshedJob.matchLabels "controller-uid"
  let (key, value) :=
    if value.length = 0 then
      ("batch.kubernetes.io/controller-uid",
        labelValue refreshedJob.matchLabels "batch.kubernetes.io/controller-uid")
    else ("controller-uid", value)
  env.podList ns (key ++ "=" ++ value)

/-- `r.getPodByJob(ctx, job)`: the first pod of the list, or `nil` for an empty list. -/
def getPodByJob (job : Job) : Except Err (Option Pod) :=
  match env.refetch with
  | .error e => .error (.api e)
  | .ok refreshedJob =>
    match podListLookup env job.ns refreshedJob with
    | .error e => .error (.api e)
    | .ok items => .ok items.head?

/-- A loop of `GetTerminatedContainersStatusesByPod`:
    `states[status.Name] = status.State.Terminated` for each terminated status. -/
def collectTerminated (states : StrMap Terminated) : List ContainerStatus → StrMap Terminated
  | [] => states
  | status :: rest =>
    collectTerminated
      (match status.terminated with
        | none => states
        | some t => states.insert status.name t) rest

/-- `GetTerminatedContainersStatusesByPod`: the init containers first, then the others. -/
def getTerminatedContainersStatusesByPod : Option Pod → StrMap Terminated
  | none => .empty
  | some pod =>
    collectTerminated (collectTerminated .empty pod.initContainerStatuses) pod.containerStatuses

/-- `r.GetTerminatedContainersStatusesByJob(ctx, job)`; a `nil` map is the empty one. -/
def getTerminatedContainersStatusesByJob (job : Job) :
    Except Err (StrMap Terminated) × List Effect :=
  match getPodByJob env job with
  | .error err =>
    if isNotFound err then (.error err, [])
    else if isPodControlledByJobNotFound err then
      match deleteJob env job with
      | (none, effs) => (.ok .empty, effs)
      | (some e, effs) => (.error e, effs)
    else (.error (.wrap "unknown issue" err), [])
  | .ok pod => (.ok (getTerminatedContainersStatusesByPod pod), [])

/-- `fmt.Sprintf("scanjob failed with reason: %s and message: %s", status.Reason, status.Message)` -/
def failureMessage (status : Terminated) : String :=
  "scanjob failed with reason: " ++ status.reason ++ " and message: " ++ status.message

/-- The loop over the statuses of `processFailedScanJob`, in the order `range` visits them,
    from the `i`-th call of `setCache` on: a record for each non-zero exit code, stopping at the
    first refusal. -/
def emitFailures (action : ActionType) (img : Image) :
    Nat → List (String × Terminated) → Option Err × List Effect
  | _, [] => (none, [])
  | i, (_, status) :: rest =>
    if status.exitCode = 0 then emitFailures action img i rest
    else if env.setCache i then
      let r := emitFailures action img (i + 1) rest
      (r.1, .setCache action img (failureMessage status) true :: r.2)
    else
      (some (.new "cannot set cache when job is failed"),
        [.setCache action img (failureMessage status) false])

/-- `r.processCompleteScanJob(ctx, job)`; the labels it reads are only logged. -/
def processCompleteScanJob (job : Job) : Option Err × List Effect :=
  deleteJob env job

/-- `r.processFailedScanJob(ctx, job)` -/
def processFailedScanJob (job : Job) : Option Err × List Effect :=
  match env.actionType with
  | .error e => (some e, [])
  | .ok actionType =>
    match env.image with
    | .error e => (some e, [])
    | .ok img =>
      if actionType = .clusterDeleteAction then
        let d := deleteJob env job
        (d.1, .increment .clusterDeleteAction img :: d.2)
      else
        match getTerminatedContainersStatusesByJob env job with
        | (.error e, effs) => (some e, effs)
        | (.ok statuses, effs) =>
          match env.cacheDeleteJob with
          | some _ =>
            (some (.new "cannot decrease number of running jobs"), effs ++ [.cacheDeleteJob img])
          | none =>
            match emitFailures env actionType img 0 (env.order.visit statuses) with
            | (some e, records) => (some e, effs ++ .cacheDeleteJob img :: records)
            | (none, records) =>
              let d := deleteJob env job
              (d.1, effs ++ .cacheDeleteJob img :: records ++ .increment actionType img :: d.2)

/-- `reconcileJobs()`'s function on one request: its error, if any, and its effects. The
    `ctrl.Result` it returns is always empty. -/
def reconcileJobs : Option Err × List Effect :=
  match env.cached with
  | .error e =>
    if isNotFound (.api e) then (none, [])
    else (some (.wrap "getting job from cache" (.api e)), [])
  | .ok job =>
    match job.conditions with
    | [] => (none, [])
    | jobCondition :: _ =>
      if jobCondition = jobComplete then processCompleteScanJob env job
      else if jobCondition = jobFailed then processFailedScanJob env job
      else (some (.new ("unrecognized scan job condition: " ++ jobCondition)), [])

end Pass

end Forge.Watcher
