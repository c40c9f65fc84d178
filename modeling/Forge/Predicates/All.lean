/-
  The event filters of `utils/predicates`: `All`, which lets an event through only when every
  given `predicate.Funcs` does, and `ResourceNotPausedAndHasFilterLabel`, `All` of
  `ResourceNotPaused` and `ResourceHasFilterLabel`.

  1. **Program** — `Funcs` is `predicate.Funcs`: four functions, each `nil` (`none`) or a
     predicate on its kind of event, with controller-runtime's methods `Create`, `Delete`,
     `Update`, `Generic` (`Funcs.create`, …), which let an event through where the function is
     `nil` (`orTrue`). Each of `All`'s four functions runs one loop over the members
     (`allLoop`): call the member's function of its kind, stop with `false` at the first
     `false`. The loop calls `p.UpdateFunc(e)` itself, not `p.Update(e)`, and a call of a `nil`
     function value panics in Go, so a call of `All`'s functions returns `Option Bool`, `none`
     for a panic (`AllFuncs`). The logger only logs and is left out; `utils.HasPaused` and
     `utils.HasWatchLabel` are not in the source and are parameters (`ObjectEnv`).

  2. **Specification** — `allLoop_spec`: whatever the members, the loop either panics or returns
     the conjunction of the members' methods, and it panics exactly when it reaches a member
     whose function of that kind is `nil`, every member before it having returned `true`
     (`LoopSpec`). With every member's function of the kind set it returns the conjunction
     (`LoopSpec.eq_of_set`): so `ResourceNotPausedAndHasFilterLabel`, whose two members set all
     four, never panics on an event that carries an object, and lets it through exactly when its
     object (`ObjectNew` for an update) is not paused and, unless the label value is empty,
     carries the watch label. `all_conjunction_or_panic` states both. An event's object is
     never `nil` here; `processIfNotPaused` and `processIfLabelMatch` call
     `obj.GetObjectKind()` unguarded, and would panic on one.
-/
import Mathlib.Data.List.Basic

namespace Forge.Predicates

/-- `event.CreateEvent` -/
structure CreateEvent (Obj : Type) where
  object : Obj

/-- `event.DeleteEvent` -/
structure DeleteEvent (Obj : Type) where
  object : Obj
  deleteStateUnknown : Bool

/-- `event.UpdateEvent` -/
structure UpdateEvent (Obj : Type) where
  objectOld : Obj
  objectNew : Obj

/-- `event.GenericEvent` -/
structure GenericEvent (Obj : Type) where
  object : Obj

/-- `predicate.Funcs`: each function `nil` or a predicate on its kind of event. -/
structure Funcs (Obj : Type) where
  createFunc : Option (CreateEvent Obj → Bool)
  deleteFunc : Option (DeleteEvent Obj → Bool)
  updateFunc : Option (UpdateEvent Obj → Bool)
  genericFunc : Option (GenericEvent Obj → Bool)

/-- The method of `predicate.Funcs` for one kind of event:
    `if p.CreateFunc != nil { return p.CreateFunc(e) }; return true`. -/
def orTrue {E : Type} (f : Option (E → Bool)) (e : E) : Bool :=
  match f with
  | some f => f e
  | none => true

section Methods

variable {Obj : Type} (p : Funcs Obj)

/-- `Funcs.Create` -/
def Funcs.create (e : CreateEvent Obj) : Bool := orTrue p.createFunc e
/-- `Funcs.Delete` -/
def Funcs.delete (e : DeleteEvent Obj) : Bool := orTrue p.deleteFunc e
/-- `Funcs.Update` -/
def Funcs.update (e : UpdateEvent Obj) : Bool := orTrue p.updateFunc e
/-- `Funcs.Generic` -/
def Funcs.generic (e : GenericEvent Obj) : Bool := orTrue p.genericFunc e

end Methods

/-- The loop of each of `All`'s functions, over the members' functions of its kind:
    `for _, p := range predicates { if !p.CreateFunc(e) { return false } }; return true`.
    Calling a `nil` function panics (`none`). -/
def allLoop {E : Type} (e : E) : List (Option (E → Bool)) → Option Bool
  | [] => some true
  | none :: _ => none
  | some f :: fs => if f e then allLoop e fs else some false

/-- The `predicate.Funcs` that `All` returns: its four functions are set, and a call of one
    returns a `bool`, or `none` where it panics. -/
structure AllFuncs (Obj : Type) where
  create : CreateEvent Obj → Option Bool
  delete : DeleteEvent Obj → Option Bool
  update : UpdateEvent Obj → Option Bool
  generic : GenericEvent Obj → Option Bool

/-- `All(logger, predicates...)` -/
def all {Obj : Type} (ps : List (Funcs Obj)) : AllFuncs Obj where
  create e := allLoop e (ps.map (·.createFunc))
  delete e := allLoop e (ps.map (·.deleteFunc))
  update e := allLoop e (ps.map (·.updateFunc))
  generic e := allLoop e (ps.map (·.genericFunc))

/-! ## `ResourceNotPaused` and `ResourceHasFilterLabel` -/

/-- `utils.HasPaused` and `utils.HasWatchLabel`, which are not in the source. -/
structure ObjectEnv (Obj : Type) where
  hasPaused : Obj → Bool
  hasWatchLabel : Obj → String → Bool

section Filters

variable {Obj : Type} (env : ObjectEnv Obj)

/-- `processIfNotPaused(logger, obj)` -/
def processIfNotPaused (obj : Obj) : Bool := if env.hasPaused obj then false else true

/-- `processIfLabelMatch(logger, obj, labelValue)`: an empty label value lets every object
    through. -/
def processIfLabelMatch (obj : Obj) (labelValue : String) : Bool :=
  if labelValue = "" then true else env.hasWatchLabel obj labelValue

/-- A `predicate.Funcs` with all four functions set, each testing the event's object:
    `e.Object`, and `e.ObjectNew` for an update. -/
def Funcs.ofObject (f : Obj → Bool) : Funcs Obj :=
  ⟨some fun e => f e.object, some fun e => f e.object, some fun e => f e.objectNew,
    some fun e => f e.object⟩

/-- `ResourceNotPaused(logger)` -/
def resourceNotPaused : Funcs Obj := .ofObject (processIfNotPaused env)

/-- `ResourceHasFilterLabel(logger, labelValue)` -/
def resourceHasFilterLabel (labelValue : String) : Funcs Obj :=
  .ofObject fun obj => processIfLabelMatch env obj labelValue

/-- `ResourceNotPausedAndHasFilterLabel(logger, labelValue)` -/
def resourceNotPausedAndHasFilterLabel (labelValue : String) : AllFuncs Obj :=
  all [resourceNotPaused env, resourceHasFilterLabel env labelValue]

end Filters

/-! ## The loop against the conjunction -/

section Loop

variable {Obj E : Type} (get : Funcs Obj → Option (E → Bool))

/-- What a call `r` of the function of `All` that picks the members' functions with `get` does
    on the event `e`: it panics exactly when the loop reaches a member whose function is `nil`,
    every member before it having returned `true`; otherwise it returns the conjunction of the
    members' methods. -/
structure LoopSpec (ps : List (Funcs Obj)) (e : E) (r : Option Bool) : Prop where
  panics_iff : r = none ↔
    ∃ pre p post, ps = pre ++ p :: post ∧ get p = none ∧ ∀ q ∈ pre, orTrue (get q) e = true
  returns : ∀ b, r = some b → b = ps.all fun p => orTrue (get p) e

/-- Members before a `nil` function, and the rest of the list, seen from its head. -/
theorem exists_reached_cons {e : E} (p : Funcs Obj) (ps : List (Funcs Obj)) :
    (∃ pre q post, p :: ps = pre ++ q :: post ∧ get q = none ∧
        ∀ q' ∈ pre, orTrue (get q') e = true) ↔
      get p = none ∨ (orTrue (get p) e = true ∧ ∃ pre q post, ps = pre ++ q :: post ∧
        get q = none ∧ ∀ q' ∈ pre, orTrue (get q') e = true) := by
  constructor
  · rintro ⟨_ | ⟨p', pre⟩, q, post, h, hq, hpre⟩
    · obtain ⟨rfl, rfl⟩ := List.cons.inj h
      exact .inl hq
    · obtain ⟨rfl, rfl⟩ := List.cons.inj h
      exact .inr ⟨hpre p (by simp), pre, q, post, rfl, hq, fun q' h' => hpre q' (by simp [h'])⟩
  · rintro (hp | ⟨hp, pre, q, post, rfl, hq, hpre⟩)
    · exact ⟨[], p, ps, rfl, hp, by simp⟩
    · exact ⟨p :: pre, q, post, rfl, hq, List.forall_mem_cons.mpr ⟨hp, hpre⟩⟩

/-- **The loop is the conjunction, or a panic at the first `nil` it reaches**, for every list of
    members and every event. -/
theorem allLoop_spec (e : E) : ∀ ps : List (Funcs Obj), LoopSpec get ps e (allLoop e (ps.map get))
  | [] => ⟨by simp [allLoop], by simp [allLoop]⟩
  | p :: ps => by
    have ih := allLoop_spec e ps
    refine ⟨?_, fun b hb => ?_⟩
    · rw [exists_reached_cons, ← ih.panics_iff]
      cases hp : get p with
      | none => simp [allLoop, hp]
      | some f => by_cases hf : f e <;> simp [allLoop, hp, hf, orTrue]
    · cases hp : get p with
      | none => simp [allLoop, hp] at hb
      | some f =>
        by_cases hf : f e
        · simpa [hp, hf, orTrue] using ih.returns b (by simpa [allLoop, hp, hf] using hb)
        · simp only [List.map_cons, hp, allLoop, hf, Bool.false_eq_true, if_false,
            Option.some.injEq] at hb
          simp [hp, hf, orTrue, ← hb]

-- A `false` before a `nil` function ends the loop before the call that would panic.
example : allLoop () [some fun _ => false, none] = some false := rfl

/-- With every member's function of the kind set, the call returns the conjunction. -/
theorem LoopSpec.eq_of_set {ps : List (Funcs Obj)} {e : E} {r : Option Bool}
    (h : LoopSpec get ps e r) (hset : ∀ p ∈ ps, get p ≠ none) :
    r = some (ps.all fun p => orTrue (get p) e) := by
  cases hr : r with
  | none =>
    obtain ⟨pre, p, post, rfl, hp, -⟩ := h.panics_iff.mp hr
    exact absurd hp (hset p (by simp))
  | some b => rw [h.returns b hr]

end Loop

/-- What the four functions of `All(logger, ps...)` do, kind by kind. -/
structure AllSpec {Obj : Type} (ps : List (Funcs Obj)) (c : AllFuncs Obj) : Prop where
  create : ∀ e, LoopSpec Funcs.createFunc ps e (c.create e)
  delete : ∀ e, LoopSpec Funcs.deleteFunc ps e (c.delete e)
  update : ∀ e, LoopSpec Funcs.updateFunc ps e (c.update e)
  generic : ∀ e, LoopSpec Funcs.genericFunc ps e (c.generic e)

/-- Four calls that never panic, each the predicate `f` of the event's object. -/
def AllFuncs.ofObject {Obj : Type} (f : Obj → Bool) : AllFuncs Obj :=
  ⟨fun e => some (f e.object), fun e => some (f e.object), fun e => some (f e.objectNew),
    fun e => some (f e.object)⟩

/-- `All` of members that set all four functions never panics: on every event it is the
    conjunction of the members' predicates of the event's object. -/
theorem all_ofObject {Obj : Type} (fs : List (Obj → Bool)) :
    all (fs.map Funcs.ofObject) = .ofObject fun obj => fs.all (· obj) := by
  simp only [all, AllFuncs.ofObject]
  congr <;> funext e <;>
    exact ((allLoop_spec _ e _).eq_of_set _ fun p hp => by
      obtain ⟨f, -, rfl⟩ := List.mem_map.mp hp
      exact Option.some_ne_none _).trans
      (by rw [Option.some_inj, Bool.eq_iff_iff]; simp only [List.all_eq_true, List.mem_map,
        forall_exists_index, and_imp, forall_apply_eq_imp_iff₂]; rfl)

/-- **`All` panics or returns the conjunction** of its members' methods, for every list of
    members and every event of each kind; and `ResourceNotPausedAndHasFilterLabel` never panics
    on an event that carries an object, and lets it through exactly when its object is not
    paused and matches the label. -/
theorem all_conjunction_or_panic {Obj : Type} (env : ObjectEnv Obj) (labelValue : String)
    (ps : List (Funcs Obj)) :
    AllSpec ps (all ps) ∧
    resourceNotPausedAndHasFilterLabel env labelValue =
      .ofObject fun obj => processIfNotPaused env obj && processIfLabelMatch env obj labelValue :=
  ⟨⟨fun e => allLoop_spec _ e ps, fun e => allLoop_spec _ e ps, fun e => allLoop_spec _ e ps,
    fun e => allLoop_spec _ e ps⟩,
    (all_ofObject [processIfNotPaused env, (processIfLabelMatch env · labelValue)]).trans (by simp)⟩

/-- A member that leaves `CreateFunc` `nil` makes `All` panic on a create event, where its
    `Create` method lets the event through. -/
theorem all_nil_member_panics :
    (all [(⟨none, none, none, none⟩ : Funcs Unit)]).create ⟨()⟩ = none ∧
      [(⟨none, none, none, none⟩ : Funcs Unit)].all (·.create ⟨()⟩) = true :=
  ⟨rfl, rfl⟩

end Forge.Predicates
