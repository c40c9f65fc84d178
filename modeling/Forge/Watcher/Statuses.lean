/-
  The failure records of a failed job: which containers `GetTerminatedContainersStatusesByPod`
  collects, and what `processFailedScanJob` hands the outcome sink for them.

  1. **The status map** (`getTerminatedContainersStatusesByPod_entries`) — when no two
     statuses of the pod share a name, the map holds exactly the terminated containers of both
     lists, keyed by name: no insert overwrites, so the loops append.

  2. **The records** (`processFailed_records`) — with the lookups and the sink calls
     succeeding, the pass calls `Cache.DeleteJob`, then `setCache` once for each entry with a
     non-zero exit code, in the order `range` visits the map, then counts the failure and
     deletes the job. A record is the action, the image, `StateError` and the message
     `scanjob failed with reason: … and message: …`: the container's name is only logged,
     so two containers failing alike leave two equal records.
-/
import Forge.Watcher.Model

namespace Forge.Watcher

/-! ## The status map -/

/-- The map entry of a status: its name and `State.Terminated`, if it terminated. -/
def terminatedEntry (s : ContainerStatus) : Option (String × Terminated) :=
  s.terminated.map (s.name, ·)

/-- The terminated containers of a pod, init containers first, keyed by name. -/
def terminatedEntries : Option Pod → List (String × Terminated)
  | none => []
  | some p => (p.initContainerStatuses ++ p.containerStatuses).filterMap terminatedEntry

theorem StrMap.insert_entries_of_not_mem {V : Type} (m : StrMap V) {k : String} (v : V)
    (hk : k ∉ m.entries.map Prod.fst) : (m.insert k v).entries = m.entries ++ [(k, v)] := by
  have hkeep : m.entries.filter (·.1 != k) = m.entries := List.filter_eq_self.mpr fun a ha => by
    simpa using fun he : a.1 = k => hk (he ▸ List.mem_map_of_mem _ ha)
  simp [StrMap.insert, hkeep]

/-- With names distinct and new to the map, the loop appends each terminated status. -/
theorem collectTerminated_entries : ∀ (ss : List ContainerStatus) (m : StrMap Terminated),
    (ss.map (·.name)).Nodup → (∀ s ∈ ss, s.name ∉ m.entries.map Prod.fst) →
    (collectTerminated m ss).entries = m.entries ++ ss.filterMap terminatedEntry
  | [], m, _, _ => by simp [collectTerminated]
  | s :: rest, m, hnd, hnew => by
    rw [List.map_cons, List.nodup_cons] at hnd
    have hrest : ∀ s' ∈ rest, s'.name ≠ s.name := fun s' hs' he =>
      hnd.1 (he ▸ List.mem_map_of_mem _ hs')
    cases ht : s.terminated with
    | none =>
      simp only [collectTerminated, ht]
      rw [collectTerminated_entries rest m hnd.2 fun s' hs' => hnew s' (.tail _ hs')]
      simp [terminatedEntry, ht]
    | some t =>
      have hm := StrMap.insert_entries_of_not_mem m t (hnew s (.head _))
      simp only [collectTerminated, ht]
      rw [collectTerminated_entries rest _ hnd.2 fun s' hs' => ?_, hm]
      · simp [terminatedEntry, ht]
      · rw [hm, List.map_append, List.mem_append, not_or]
        exact ⟨hnew s' (.tail _ hs'), by simpa using hrest s' hs'⟩

theorem mem_keys_terminated {ss : List ContainerStatus} {k : String}
    (h : k ∈ (ss.filterMap terminatedEntry).map Prod.fst) : k ∈ ss.map (·.name) := by
  obtain ⟨e, he, rfl⟩ := List.mem_map.mp h
  obtain ⟨s, hs, hse⟩ := List.mem_filterMap.mp he
  simp only [terminatedEntry, Option.map_eq_some'] at hse
  obtain ⟨t, -, rfl⟩ := hse
  exact List.mem_map_of_mem _ hs

/-- **The map holds exactly the terminated containers of both lists, keyed by name**, when
    no two statuses share a name. -/
theorem getTerminatedContainersStatusesByPod_entries {pod : Option Pod}
    (hnames : ∀ p, pod = some p →
      ((p.initContainerStatuses ++ p.containerStatuses).map (·.name)).Nodup) :
    (getTerminatedContainersStatusesByPod pod).entries = terminatedEntries pod := by
  cases pod with
  | none => rfl
  | some p =>
    have hnd := hnames p rfl
    rw [List.map_append, List.nodup_append] at hnd
    have hinit := collectTerminated_entries p.initContainerStatuses .empty hnd.1 (by simp [StrMap.empty])
    simp only [getTerminatedContainersStatusesByPod, terminatedEntries, List.filterMap_append]
    rw [collectTerminated_entries _ _ hnd.2.1 fun s hs hmem => hnd.2.2
      (mem_keys_terminated (by rwa [hinit] at hmem)) (List.mem_map_of_mem _ hs),
      hinit]
    rfl

/-! ## The records -/

/-- The record `processFailedScanJob` hands `setCache` for a map entry, if its exit code is not
    `0`. -/
def failureRecord (action : ActionType) (img : Image) (e : String × Terminated) : Option Effect :=
  if e.2.exitCode = 0 then none else some (.setCache action img (failureMessage e.2) true)

/-- With every `setCache` accepted, the loop records each non-zero exit code in visiting order. -/
theorem emitFailures_accepted (env : PassEnv) (action : ActionType) (img : Image)
    (hset : ∀ i, env.setCache i = true) :
    ∀ (l : List (String × Terminated)) (i : Nat),
      emitFailures env action img i l = (none, l.filterMap (failureRecord action img))
  | [], _ => rfl
  | (k, t) :: rest, i => by
    by_cases h0 : t.exitCode = 0
    · simp [emitFailures, h0, failureRecord, emitFailures_accepted env action img hset rest]
    · simp [emitFailures, h0, hset, failureRecord, emitFailures_accepted env action img hset rest]

/-- **The records of a failed job**: with the lookups succeeding, the action not
    `ClusterDeleteAction`, every call to the cache accepted and no two statuses of the pod
    sharing a name, the map holds exactly the terminated containers, and the pass calls
    `Cache.DeleteJob`, hands `setCache` one record per non-zero exit code (in some order) and
    none for the others, counts the failure and deletes the job. -/
theorem processFailed_records (env : PassEnv) (job : Job) {action : ActionType} {img : Image}
    {pod : Option Pod} (ha : env.actionType = .ok action) (hcd : action ≠ .clusterDeleteAction)
    (hi : env.image = .ok img) (hp : getPodByJob env job = .ok pod)
    (hnames : ∀ p, pod = some p →
      ((p.initContainerStatuses ++ p.containerStatuses).map (·.name)).Nodup)
    (hcache : env.cacheDeleteJob = none) (hset : ∀ i, env.setCache i = true) :
    (getTerminatedContainersStatusesByPod pod).entries = terminatedEntries pod ∧
    ∃ records : List Effect,
      records.Perm ((terminatedEntries pod).filterMap (failureRecord action img)) ∧
      processFailedScanJob env job = ((deleteJob env job).1,
        .cacheDeleteJob img :: records ++ .increment action img :: (deleteJob env job).2) := by
  have hmap := getTerminatedContainersStatusesByPod_entries hnames
  refine ⟨hmap, (env.order.visit (getTerminatedContainersStatusesByPod pod)).filterMap
    (failureRecord action img), ?_, ?_⟩
  · rw [← hmap]
    exact (env.order.perm _).filterMap _
  · simp [processFailedScanJob, ha, hi, hcd, getTerminatedContainersStatusesByJob, hp, hcache,
      emitFailures_accepted env action img hset]

/-- A failed job whose selector carries `controller-uid`. -/
def failedJob : Job := ⟨"j", "forge-core", [jobFailed], [("controller-uid", "u")]⟩

/-- A pod whose containers `a` and `b` both exited with `7`, for the same reason. -/
def twoFailuresPod : Pod :=
  ⟨[], [⟨"a", some ⟨7, "Error", "boom"⟩⟩, ⟨"b", some ⟨7, "Error", "boom"⟩⟩]⟩

/-- A pass on `failedJob` with `twoFailuresPod` behind it, where every call succeeds. -/
def twoFailures : PassEnv where
  cached := .ok failedJob
  actionType := .ok (.other "scan")
  image := .ok ⟨"img", "c"⟩
  refetch := .ok failedJob
  podList _ _ := .ok [twoFailuresPod]
  cacheDeleteJob := none
  setCache _ := true
  delete := none
  order := ⟨StrMap.entries, fun _ => List.Perm.refl _⟩

theorem processFailed_records_two :
    (getTerminatedContainersStatusesByPod (some twoFailuresPod)).entries =
      terminatedEntries (some twoFailuresPod) ∧
    ∃ records : List Effect, records.Perm ((terminatedEntries (some twoFailuresPod)).filterMap
        (failureRecord (.other "scan") ⟨"img", "c"⟩)) ∧
      processFailedScanJob twoFailures failedJob = ((deleteJob twoFailures failedJob).1,
        .cacheDeleteJob ⟨"img", "c"⟩ :: records ++
          .increment (.other "scan") ⟨"img", "c"⟩ :: (deleteJob twoFailures failedJob).2) :=
  processFailed_records twoFailures failedJob rfl (by decide) rfl rfl
    (fun _ h => by cases h; decide) rfl fun _ => rfl

/-- The records for `a` and for `b` are the same record: neither names its container. -/
theorem failure_records_omit_container :
    processFailedScanJob twoFailures failedJob = (none,
      [.cacheDeleteJob ⟨"img", "c"⟩,
        .setCache (.other "scan") ⟨"img", "c"⟩ "scanjob failed with reason: Error and message: boom" true,
        .setCache (.other "scan") ⟨"img", "c"⟩ "scanjob failed with reason: Error and message: boom" true,
        .increment (.other "scan") ⟨"img", "c"⟩, .delete "j"]) := by
  decide

end Forge.Watcher
