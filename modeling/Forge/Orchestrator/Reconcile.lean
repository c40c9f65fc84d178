/-
  `Reconcile` of the shell provisioner (package `controller`): on a `ProvisionerSpec` whose
  `UUID` is unset, mint an id, assemble the job with a `ShellJobBuilder`, apply it with
  `controllerutil.CreateOrUpdate`, and write the id back onto the spec.

  1. **Program** — `reconcile`, statement by statement. The builder (package `job`) is not in
     the source: its fields and `Build` are modelled from the spec. The environment decides,
     in one `CallEnv` per call, the id `uuid.New()` returns, whether `Build` fails and what
     `CreateOrUpdate` returns; a failing `CreateOrUpdate` has no effect.

  2. **Runs** — `State` is the spec together with every descriptor handed to
     `CreateOrUpdate` so far; `Reachable` holds of every state a sequence of calls reaches,
     each call seeing the spec the previous one wrote back.

  3. **Specification** — `reconcile_cases` says once what a call can do. From it, over every
     run (`reconcile_assigns_once`): at most one store call succeeds, the id written back is
     that call's descriptor's, an id once written is never touched again, and a call that
     fails leaves the id unset.

  4. **The script source** (`reconcile_script_source`) — under the spec's invariant that exactly
     one of `Run` and `RunConfigMapRef` is set: an inline script reaches the descriptor
     verbatim, while a referenced one makes `Reconcile` dereference the `nil` `Run` (the
     `RunConfigMapRef` branch calls `WithScriptToRun(*spec.Run)`) and panic before `Build`.
-/
import Mathlib.Data.List.Basic

namespace Forge.Orchestrator

/-- What `Reconcile` reads of the `Build`. -/
structure Build where
  /-- `build.Namespace` -/
  ns : String
  /-- `build.Name` -/
  name : String
  /-- `build.Spec.Connector.Credentials.Name` -/
  credentialsName : String
  deriving DecidableEq, Repr

/-- What `Reconcile` reads and writes of a `ProvisionerSpec`. -/
structure ProvisionerSpec where
  uuid : Option String
  run : Option String
  /-- `RunConfigMapRef`, by the name it refers to; `Reconcile` only tests it against `nil`. -/
  runConfigMapRef : Option String
  deriving DecidableEq, Repr

def shellProvisionerRepo : String := "ghcr.io/forge-build/forge-provisioner-shell"
def shellProvisionerTag : String := "latest"
def forgeCoreNamespace : String := "forge-core"

/-- Modelled from the spec: `job.ShellJobBuilder` (package `job`, not in the source), the
    descriptor fields its `With…` setters fill. -/
structure ShellJobBuilder where
  jobNamespace : String
  buildNamespace : String
  buildName : String
  uuid : String
  repo : String
  tag : String
  sshCredentialsSecretName : String
  scriptToRun : Option String
  deriving DecidableEq, Repr

/-- Modelled from the spec: `WithScriptToRun` sets the script, copied verbatim. -/
def ShellJobBuilder.withScriptToRun (b : ShellJobBuilder) (s : String) : ShellJobBuilder :=
  { b with scriptToRun := some s }

/-- Modelled from the spec: the job descriptor (package `job`, not in the source): its
    namespace, the `build-name` and `provisioner-id` metadata, the image `repo:tag`, the
    credentials secret and the script. -/
structure Job where
  jobNamespace : String
  buildNamespace : String
  buildName : String
  provisionerId : String
  image : String
  credentialsSecret : String
  script : Option String
  deriving DecidableEq, Repr

/-- Modelled from the spec: `builder.Build()` assembles the descriptor from the builder's
    fields; whether it fails is the environment's (`fail`). -/
def ShellJobBuilder.build (b : ShellJobBuilder) (fail : Option String) : Except String Job :=
  match fail with
  | some e => .error e
  | none => .ok ⟨b.jobNamespace, b.buildNamespace, b.buildName, b.uuid, b.repo ++ ":" ++ b.tag,
      b.sshCredentialsSecretName, b.scriptToRun⟩

/-- `controllerutil.OperationResult` -/
inductive OperationResult where
  | none
  | created
  | updated
  | updatedStatus
  | updatedStatusOnly
  deriving DecidableEq, Repr

/-- What the environment decides in one call. -/
structure CallEnv where
  /-- `uuid.New().String()` -/
  id : String
  /-- the error of `builder.Build()`, if any -/
  buildErr : Option String
  /-- what `controllerutil.CreateOrUpdate` returns -/
  store : Except String OperationResult

/-- `ctrl.Result`; `Reconcile` sets only `RequeueAfter`, here in nanoseconds. -/
structure Result where
  requeueAfter : Nat := 0
  deriving DecidableEq, Repr

/-- How a call of `Reconcile` ends. -/
inductive Outcome where
  | ok (r : Result)
  | err (e : String)
  /-- a dereference of a `nil` pointer -/
  | panic
  deriving DecidableEq, Repr

/-- What one call of `Reconcile` did. -/
structure Call where
  outcome : Outcome
  /-- the spec as the call left it -/
  spec : ProvisionerSpec
  /-- the descriptors handed to `CreateOrUpdate`, each with whether the call succeeded -/
  applied : List (Job × Bool)
  deriving DecidableEq, Repr

/-- `job.NewShellJobBuilder().WithNamespace(ForgeCoreNamespace)…WithSSHCredentialsSecretName(…)` -/
def newBuilder (build : Build) (id : String) : ShellJobBuilder :=
  ⟨forgeCoreNamespace, build.ns, build.name, id, shellProvisionerRepo, shellProvisionerTag,
    build.credentialsName, none⟩

/-- `if spec.Run != nil {…}` and `if spec.RunConfigMapRef != nil { builder.WithScriptToRun(*spec.Run) }`:
    the builder, or `none` where `*spec.Run` dereferences `nil`. -/
def withScript (spec : ProvisionerSpec) (b : ShellJobBuilder) : Option ShellJobBuilder :=
  let b := match spec.run with
    | some s => b.withScriptToRun s
    | none => b
  match spec.runConfigMapRef with
  | none => some b
  | some _ => spec.run.map b.withScriptToRun

/-- `Reconcile(ctx, client, build, spec)` -/
def reconcile (build : Build) (spec : ProvisionerSpec) (env : CallEnv) : Call :=
  match spec.uuid with
  | some _ => ⟨.ok {}, spec, []⟩
  | none =>
    match withScript spec (newBuilder build env.id) with
    | none => ⟨.panic, spec, []⟩
    | some builder =>
      match builder.build env.buildErr with
      | .error e => ⟨.err e, spec, []⟩
      | .ok desired =>
        match env.store with
        | .error e => ⟨.err e, spec, [(desired, false)]⟩
        | .ok op =>
          let spec := { spec with uuid := some env.id }
          if op ≠ .none then ⟨.ok { requeueAfter := 2000000000 }, spec, [(desired, true)]⟩
          else ⟨.ok {}, spec, [(desired, true)]⟩

/-! ## What one call can do -/

theorem withScript_uuid {spec : ProvisionerSpec} {b b' : ShellJobBuilder}
    (h : withScript spec b = some b') : b'.uuid = b.uuid := by
  unfold withScript at h
  cases hr : spec.run <;> cases hm : spec.runConfigMapRef <;>
    simp_all [ShellJobBuilder.withScriptToRun] <;> rw [← h]

theorem build_provisionerId {b : ShellJobBuilder} {fail : Option String} {d : Job}
    (h : b.build fail = .ok d) : d.provisionerId = b.uuid := by
  cases fail <;> simp [ShellJobBuilder.build] at h
  rw [← h]

/-- **Everything a call can do**: with the id set, nothing; otherwise it stops before the store
    (a panic or a `Build` error), or hands `CreateOrUpdate` one descriptor carrying the new id,
    and writes the id back exactly when that call succeeds. -/
theorem reconcile_cases (build : Build) (spec : ProvisionerSpec) (env : CallEnv) :
    (spec.uuid ≠ none ∧ reconcile build spec env = ⟨.ok {}, spec, []⟩) ∨
    (spec.uuid = none ∧ (reconcile build spec env).spec = spec ∧
      (reconcile build spec env).applied = []) ∨
    (spec.uuid = none ∧ ∃ d : Job, d.provisionerId = env.id ∧
      (reconcile build spec env).spec = spec ∧ (reconcile build spec env).applied = [(d, false)]) ∨
    (spec.uuid = none ∧ ∃ d : Job, d.provisionerId = env.id ∧
      (∃ r, (reconcile build spec env).outcome = .ok r) ∧
      (reconcile build spec env).spec = { spec with uuid := some env.id } ∧
      (reconcile build spec env).applied = [(d, true)]) := by
  cases hu : spec.uuid with
  | some u => exact .inl ⟨by simp, by simp [reconcile, hu]⟩
  | none =>
    refine .inr ?_
    cases hw : withScript spec (newBuilder build env.id) with
    | none => exact .inl ⟨rfl, by simp [reconcile, hu, hw]⟩
    | some b =>
      cases hb : b.build env.buildErr with
      | error e => exact .inl ⟨rfl, by simp [reconcile, hu, hw, hb]⟩
      | ok d =>
        have hd : d.provisionerId = env.id := (build_provisionerId hb).trans (withScript_uuid hw)
        refine .inr ?_
        cases hs : env.store with
        | error e => exact .inl ⟨rfl, d, hd, by simp [reconcile, hu, hw, hb, hs]⟩
        | ok op =>
          refine .inr ⟨rfl, d, hd, ?_⟩
          by_cases hop : op = .none <;> simp [reconcile, hu, hw, hb, hs, hop]

/-- A call panics exactly where `withScript` dereferences `nil`. -/
theorem reconcile_panic_iff (build : Build) (spec : ProvisionerSpec) (env : CallEnv) :
    (reconcile build spec env).outcome = .panic ↔
      spec.uuid = none ∧ withScript spec (newBuilder build env.id) = none := by
  unfold reconcile
  repeat' split
  all_goals simp_all

/-- A call that returns an error leaves the spec as it was, with no id. -/
theorem reconcile_err {build : Build} {spec : ProvisionerSpec} {env : CallEnv} {e : String}
    (h : (reconcile build spec env).outcome = .err e) :
    (reconcile build spec env).spec = spec ∧ spec.uuid = none := by
  rcases reconcile_cases build spec env with ⟨-, hr⟩ | ⟨hu, hs, -⟩ | ⟨hu, d, -, hs, -⟩ |
    ⟨-, d, -, ⟨r, hr⟩, -⟩
  · simp [hr] at h
  · exact ⟨hs, hu⟩
  · exact ⟨hs, hu⟩
  · simp [hr] at h

/-! ## The script source -/

/-- An inline script reaches the builder verbatim. -/
theorem withScript_of_run {spec : ProvisionerSpec} (b : ShellJobBuilder) {s : String}
    (hr : spec.run = some s) (hm : spec.runConfigMapRef = none) :
    withScript spec b = some (b.withScriptToRun s) := by
  simp [withScript, hr, hm]

/-- A referenced script, with no inline one, dereferences the `nil` `Run`. -/
theorem withScript_of_configMapRef {spec : ProvisionerSpec} (b : ShellJobBuilder)
    (hr : spec.run = none) (hm : spec.runConfigMapRef ≠ none) : withScript spec b = none := by
  obtain ⟨r, hm⟩ := Option.ne_none_iff_exists'.mp hm
  simp [withScript, hr, hm]

/-- **The script source under the spec's invariant** (exactly one of `Run` and
    `RunConfigMapRef` set) on a spec with no id: with `Run` set the call does not panic, and a
    descriptor that `Build` returns goes to `CreateOrUpdate` with `*spec.Run` as its script;
    with `RunConfigMapRef` set, `builder.WithScriptToRun(*spec.Run)` dereferences the `nil`
    `Run`, and the call panics before `Build`, with the spec untouched. -/
theorem reconcile_script_source (build : Build) (env : CallEnv) {spec : ProvisionerSpec}
    (hu : spec.uuid = none) (hone : spec.run.isSome ≠ spec.runConfigMapRef.isSome) :
    (∀ s, spec.run = some s → (reconcile build spec env).outcome ≠ .panic ∧
      (env.buildErr = none →
        ∃ d ok, (reconcile build spec env).applied = [(d, ok)] ∧ d.script = some s)) ∧
    (spec.runConfigMapRef ≠ none → reconcile build spec env = ⟨.panic, spec, []⟩) := by
  refine ⟨fun s hr => ?_, fun hm => ?_⟩
  · have hm : spec.runConfigMapRef = none := by simpa [hr] using hone
    have hw := withScript_of_run (newBuilder build env.id) hr hm
    refine ⟨?_, fun hb => ?_⟩
    · exact fun h => by simpa [hw] using ((reconcile_panic_iff build spec env).mp h).2
    · cases hs : env.store with
      | error e => simp [reconcile, hu, hw, hb, hs, ShellJobBuilder.build,
          ShellJobBuilder.withScriptToRun]
      | ok op => by_cases hop : op = .none <;> simp [reconcile, hu, hw, hb, hs, hop,
          ShellJobBuilder.build, ShellJobBuilder.withScriptToRun]
  · have hr : spec.run = none := by simpa [Option.ne_none_iff_isSome.mp hm] using hone
    simp [reconcile, hu, withScript_of_configMapRef _ hr hm]

/-- A spec that takes its script from a config map. -/
theorem reconcile_script_source_configMapRef :
    (ProvisionerSpec.uuid ⟨none, none, some "scripts"⟩ = none ∧
      (ProvisionerSpec.run ⟨none, none, some "scripts"⟩).isSome ≠
        (ProvisionerSpec.runConfigMapRef ⟨none, none, some "scripts"⟩).isSome) ∧
    reconcile ⟨"default", "b", "creds"⟩ ⟨none, none, some "scripts"⟩ ⟨"id1", none, .ok .created⟩ =
      ⟨.panic, ⟨none, none, some "scripts"⟩, []⟩ :=
  ⟨⟨rfl, by decide⟩, (reconcile_script_source ⟨"default", "b", "creds"⟩ ⟨"id1", none, .ok .created⟩
    rfl (by decide)).2 (by simp)⟩

/-! ## Runs of calls -/

/-- The spec, and every descriptor handed to `CreateOrUpdate` so far with whether it
    succeeded, oldest first. -/
structure State where
  spec : ProvisionerSpec
  applied : List (Job × Bool)
  deriving DecidableEq, Repr

/-- One more call, on the spec the last one wrote back. -/
def State.call (build : Build) (s : State) (env : CallEnv) : State :=
  let c := reconcile build s.spec env
  ⟨c.spec, s.applied ++ c.applied⟩

/-- The states a sequence of calls reaches from `spec₀`. -/
inductive Reachable (build : Build) (spec₀ : ProvisionerSpec) : State → Prop
  | init : Reachable build spec₀ ⟨spec₀, []⟩
  | call {s : State} (env : CallEnv) : Reachable build spec₀ s → Reachable build spec₀ (s.call build env)

/-- With the id set, a call changes nothing. -/
theorem State.call_of_set (build : Build) {s : State} (env : CallEnv) (h : s.spec.uuid ≠ none) :
    s.call build env = s := by
  obtain ⟨spec, applied⟩ := s
  obtain ⟨u, hu⟩ := Option.ne_none_iff_exists'.mp h
  simp only at hu
  simp [State.call, reconcile, hu]

/-- What every run from `spec₀` keeps. -/
structure Assigned (spec₀ : ProvisionerSpec) (s : State) : Prop where
  /-- A spec that came with an id is never touched, and no store call is made. -/
  preset : spec₀.uuid ≠ none → s = ⟨spec₀, []⟩
  /-- Until the id is written, every store call failed. -/
  unset : s.spec.uuid = none → ∀ a ∈ s.applied, a.2 = false
  /-- An id written by the run is the id of the last descriptor handed to the store, the one
      call that succeeded. -/
  written : spec₀.uuid = none → ∀ u, s.spec.uuid = some u →
    ∃ pre d, s.applied = pre ++ [(d, true)] ∧ d.provisionerId = u ∧ ∀ a ∈ pre, a.2 = false

theorem Assigned.init (spec₀ : ProvisionerSpec) : Assigned spec₀ ⟨spec₀, []⟩ where
  preset _ := rfl
  unset _ := by simp
  written h u hu := by simp [h] at hu

theorem Assigned.call {build : Build} {spec₀ : ProvisionerSpec} {s : State}
    (hi : Assigned spec₀ s) (env : CallEnv) : Assigned spec₀ (s.call build env) := by
  by_cases hset : s.spec.uuid = none
  · rcases reconcile_cases build s.spec env with ⟨h, -⟩ | ⟨-, hs, ha⟩ | ⟨-, d, -, hs, ha⟩ |
      ⟨-, d, hd, -, hs, ha⟩
    · exact absurd hset h
    · simpa [State.call, hs, ha] using hi
    · refine ⟨fun h0 => ?_, fun _ a ha' => ?_, fun h0 u hu => ?_⟩
      · exact absurd (by simpa [hi.preset h0] using hset) h0
      · simp only [State.call, hs, ha, List.mem_append, List.mem_singleton] at ha'
        rcases ha' with ha' | rfl
        · exact hi.unset hset a ha'
        · rfl
      · simp [State.call, hs, hset] at hu
    · refine ⟨fun h0 => ?_, fun hu => ?_, fun _ u hu => ?_⟩
      · exact absurd (by simpa [hi.preset h0] using hset) h0
      · simp [State.call, hs] at hu
      · simp only [State.call, hs, ha, Option.some.injEq] at hu ⊢
        exact ⟨s.applied, d, rfl, hd.trans hu, hi.unset hset⟩
  · rwa [State.call_of_set build env hset]

theorem Reachable.assigned {build : Build} {spec₀ : ProvisionerSpec} {s : State}
    (hs : Reachable build spec₀ s) : Assigned spec₀ s := by
  induction hs with
  | init => exact .init spec₀
  | call env _ ih => exact ih.call env

/-- At most one store call succeeds in any run. -/
theorem Assigned.succeeded_le_one {spec₀ : ProvisionerSpec} {s : State} (hi : Assigned spec₀ s) :
    (s.applied.filter (·.2)).length ≤ 1 := by
  have hnone : ∀ l : List (Job × Bool), (∀ a ∈ l, a.2 = false) → l.filter (·.2) = [] :=
    fun l h => List.filter_eq_nil_iff.mpr fun a ha => by simp [h a ha]
  cases hu : s.spec.uuid with
  | none => simp [hnone _ (hi.unset hu)]
  | some u =>
    by_cases h0 : spec₀.uuid = none
    · obtain ⟨pre, d, ha, -, hpre⟩ := hi.written h0 u hu
      simp [ha, List.filter_append, hnone _ hpre]
    · simp [hi.preset h0]

/-- What holds after every run of calls from `spec₀`. -/
structure AssignsOnce (build : Build) (spec₀ : ProvisionerSpec) (s : State)
    extends Assigned spec₀ s : Prop where
  /-- At most one `CreateOrUpdate` has succeeded: at most one job for the spec. -/
  succeeded : (s.applied.filter (·.2)).length ≤ 1
  /-- Once the id is set, a call changes nothing and makes no store call. -/
  kept : ∀ env, s.spec.uuid ≠ none → s.call build env = s
  /-- A call that returns an error leaves the spec as it was, with no id. -/
  err_unset : ∀ env e, (reconcile build s.spec env).outcome = .err e →
    (reconcile build s.spec env).spec = s.spec ∧ s.spec.uuid = none

/-- **One job and one id over every run of calls**, whatever `Build` and the store do. -/
theorem reconcile_assigns_once (build : Build) (spec₀ : ProvisionerSpec) {s : State}
    (hs : Reachable build spec₀ s) : AssignsOnce build spec₀ s where
  toAssigned := hs.assigned
  succeeded := hs.assigned.succeeded_le_one
  kept env h := State.call_of_set build env h
  err_unset _ _ h := reconcile_err h

/-- A call whose `CreateOrUpdate` fails, then one that creates the job. -/
theorem reconcile_assigns_once_retry :
    AssignsOnce ⟨"default", "b", "creds"⟩ ⟨none, some "true", none⟩
      (((State.mk ⟨none, some "true", none⟩ []).call ⟨"default", "b", "creds"⟩
        ⟨"id1", none, .error "conflict"⟩).call ⟨"default", "b", "creds"⟩ ⟨"id2", none, .ok .created⟩) :=
  reconcile_assigns_once _ _ (.call _ (.call _ .init))

end Forge.Orchestrator
