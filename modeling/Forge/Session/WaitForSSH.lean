/-
  `WaitForSSH(maxWait)`: call `Connect`; on success `Disconnect` (deferred) and return `nil`;
  on failure return `ErrTimeout` once the time since the start reaches `maxWait`, and else
  sleep two seconds and try again.

  1. **Program** — `waitLoop`, one turn of the `for` loop per step, on a clock in nanoseconds
     that a `Connect` advances by its duration and `time.Sleep(2 * time.Second)` by exactly
     2 s. The environment gives each attempt's duration and outcome (`Attempt`); fuel bounds
     the turns, and `waitFuel` turns are always enough.

  2. **Time** — `startAt` and `endAt`: when attempt `k` starts and ends, all before it having
     failed. Each failed turn adds at least the two seconds of the sleep.

  3. **Specification** — `Stops`: what a run returned from the loop entered at attempt `k`
     looks like; the loop meets it (`waitLoop_stops`), returns with enough fuel
     (`waitLoop_returns`), and returns the same run with any more (`waitLoop_more_fuel`).
     `waitForSSH_spec` puts these together for `waitForSSH`, run with `waitFuel` turns.
-/
import Forge.Session.Client

namespace Forge.Session

/-- `2 * time.Second`, in nanoseconds. -/
def retryDelay : Nat := 2000000000

/-- What the environment decides of one `Connect`: how long it takes, and whether it returns
    `nil`. -/
structure Attempt where
  duration : Nat
  ok : Bool
  deriving DecidableEq, Repr

/-- What a call of `WaitForSSH` did. -/
structure WaitRun where
  /-- the error it returned: `nil`, or `ErrTimeout` -/
  result : Option SshErr
  /-- the calls of `Connect` -/
  attempts : Nat
  /-- the calls of `Disconnect` -/
  disconnects : Nat
  /-- the time since `start` when it returned -/
  elapsed : Nat
  deriving DecidableEq, Repr

/-- The loop of `WaitForSSH` from attempt `k`, `t` nanoseconds after `start`, with `fuel`
    turns left. -/
def waitLoop (maxWait : Int) (attempt : Nat → Attempt) : Nat → Nat → Nat → Option WaitRun
  | 0, _, _ => none
  | fuel + 1, k, t =>
    let t := t + (attempt k).duration
    if (attempt k).ok then some ⟨none, k + 1, 1, t⟩
    else if maxWait ≤ t then some ⟨some .timeout, k + 1, 0, t⟩
    else waitLoop maxWait attempt fuel (k + 1) (t + retryDelay)

/-- Turns enough for every run: one more than `⌈maxWait / 2 s⌉`. -/
def waitFuel (maxWait : Int) : Nat := maxWait.toNat / retryDelay + 2

/-- `client.WaitForSSH(maxWait)`, `maxWait` a `time.Duration` in nanoseconds. -/
def waitForSSH (maxWait : Int) (attempt : Nat → Attempt) : Option WaitRun :=
  waitLoop maxWait attempt (waitFuel maxWait) 0 0

/-! ## Time -/

/-- When attempt `k` starts, all before it having failed. -/
def startAt (attempt : Nat → Attempt) : Nat → Nat
  | 0 => 0
  | k + 1 => startAt attempt k + (attempt k).duration + retryDelay

/-- When attempt `k` ends. -/
def endAt (attempt : Nat → Attempt) (k : Nat) : Nat := startAt attempt k + (attempt k).duration

theorem startAt_ge (attempt : Nat → Attempt) : ∀ k, retryDelay * k ≤ startAt attempt k
  | 0 => Nat.le_refl 0
  | k + 1 => by
    have := startAt_ge attempt k
    simp only [startAt, Nat.mul_succ]
    omega

theorem startAt_succ (attempt : Nat → Attempt) (k : Nat) :
    startAt attempt (k + 1) = endAt attempt k + retryDelay := rfl

/-! ## The loop -/

/-- A run returned from the loop entered at attempt `k`: the attempts from `k` before the last
    failed and ended before `maxWait`; the last succeeded, with one `Disconnect`, or failed at or
    after `maxWait`, with `ErrTimeout`; the call returned when the last attempt ended. -/
structure Stops (maxWait : Int) (attempt : Nat → Attempt) (k : Nat) (r : WaitRun) : Prop where
  entered : k < r.attempts
  before : ∀ i, k ≤ i → i + 1 < r.attempts →
    (attempt i).ok = false ∧ (endAt attempt i : Int) < maxWait
  returned : r.elapsed = endAt attempt (r.attempts - 1)
  last : (r.result = none ∧ (attempt (r.attempts - 1)).ok = true ∧ r.disconnects = 1) ∨
    (r.result = some .timeout ∧ (attempt (r.attempts - 1)).ok = false ∧
      maxWait ≤ endAt attempt (r.attempts - 1) ∧ r.disconnects = 0)

section Loop

variable {maxWait : Int} {attempt : Nat → Attempt}

/-- **What the loop returns**, entered at attempt `k` at the time it starts. -/
theorem waitLoop_stops : ∀ (fuel k : Nat) {r : WaitRun},
    waitLoop maxWait attempt fuel k (startAt attempt k) = some r → Stops maxWait attempt k r
  | 0, _, _, h => by simp [waitLoop] at h
  | fuel + 1, k, r, h => by
    have hend : startAt attempt k + (attempt k).duration = endAt attempt k := rfl
    simp only [waitLoop, hend] at h
    cases hok : (attempt k).ok
    · by_cases hw : maxWait ≤ endAt attempt k
      · simp only [hok, hw, if_true, Bool.false_eq_true, if_false, Option.some.injEq] at h
        subst h
        exact ⟨by simp, fun i hi hi' => by simp at hi'; omega, rfl, .inr ⟨rfl, hok, hw, rfl⟩⟩
      · simp only [hok, hw, if_false, Bool.false_eq_true] at h
        have ih := waitLoop_stops fuel (k + 1) (by rwa [startAt_succ])
        refine ⟨by have := ih.entered; omega, fun i hi hi' => ?_, ih.returned, ih.last⟩
        rcases Nat.eq_or_lt_of_le hi with rfl | hi
        · exact ⟨hok, by omega⟩
        · exact ih.before i hi hi'
    · simp only [hok, if_true, Option.some.injEq] at h
      subst h
      exact ⟨by simp, fun i hi hi' => by simp at hi'; omega, rfl, .inl ⟨rfl, hok, rfl⟩⟩

/-- **Enough fuel makes the loop return**: from attempt `k`, when `maxWait` is at most two
    seconds for each turn available. -/
theorem waitLoop_returns : ∀ (fuel k : Nat), maxWait ≤ retryDelay * (k + fuel) →
    ∃ r, waitLoop maxWait attempt (fuel + 1) k (startAt attempt k) = some r
  | fuel, k, hf => by
    have hge := startAt_ge attempt k
    have hend : startAt attempt k + (attempt k).duration = endAt attempt k := rfl
    have hle : retryDelay * k ≤ endAt attempt k := by simp only [endAt]; omega
    simp only [waitLoop, hend]
    cases hok : (attempt k).ok
    · by_cases hw : maxWait ≤ endAt attempt k
      · simp [hw]
      · simp only [hw, if_false, Bool.false_eq_true]
        cases fuel with
        | zero =>
          exfalso
          simp only [retryDelay] at hf hle
          push_cast at hf
          omega
        | succ f =>
          rw [← startAt_succ]
          exact waitLoop_returns f (k + 1) (by
            push_cast at hf ⊢
            rwa [show (k : Int) + 1 + f = k + (f + 1) by omega])
    · simp

/-- More fuel returns the same run. -/
theorem waitLoop_more_fuel : ∀ {fuel fuel' k t : Nat} {r : WaitRun},
    waitLoop maxWait attempt fuel k t = some r → fuel ≤ fuel' →
      waitLoop maxWait attempt fuel' k t = some r
  | 0, _, _, _, _, h, _ => by simp [waitLoop] at h
  | fuel + 1, fuel' + 1, k, t, r, h, hle => by
    simp only [waitLoop] at h ⊢
    split_ifs at h ⊢
    · exact h
    · exact h
    · exact waitLoop_more_fuel h (by omega)
  | _ + 1, 0, _, _, _, _, hle => by omega

end Loop

/-! ## `WaitForSSH` -/

/-- What `WaitForSSH` guarantees of the run `r` it returns. -/
structure WaitSpec (maxWait : Int) (attempt : Nat → Attempt) (r : WaitRun) : Prop where
  stops : Stops maxWait attempt 0 r
  /-- `nil` exactly when an attempt succeeded. -/
  ok_iff : r.result = none ↔ ∃ k < r.attempts, (attempt k).ok = true
  /-- `ErrTimeout` comes in `[maxWait, maxWait + 2 s + the last attempt's duration)`. -/
  window : r.result = some .timeout →
    maxWait ≤ r.elapsed ∧ r.elapsed < maxWait + retryDelay + (attempt (r.attempts - 1)).duration
  /-- Attempts that fail at once are `⌈maxWait / 2 s⌉ + 1`. -/
  count : (∀ k, attempt k = ⟨0, false⟩) →
    r.attempts = (maxWait.toNat + retryDelay - 1) / retryDelay + 1

theorem Stops.ok_iff {maxWait : Int} {attempt : Nat → Attempt} {r : WaitRun}
    (h : Stops maxWait attempt 0 r) : r.result = none ↔ ∃ k < r.attempts, (attempt k).ok = true := by
  constructor
  · intro hr
    rcases h.last with ⟨-, hok, -⟩ | ⟨ht, -⟩
    · exact ⟨_, by have := h.entered; omega, hok⟩
    · simp [hr] at ht
  · rintro ⟨k, hk, hok⟩
    by_cases hl : k + 1 < r.attempts
    · simp [(h.before k (Nat.zero_le _) hl).1] at hok
    · rcases h.last with ⟨hr, -⟩ | ⟨-, hf, -⟩
      · exact hr
      · rw [show r.attempts - 1 = k by omega] at hf
        simp [hf] at hok

theorem endAt_succ (attempt : Nat → Attempt) (k : Nat) :
    endAt attempt (k + 1) = endAt attempt k + retryDelay + (attempt (k + 1)).duration := rfl

theorem Stops.window {maxWait : Int} {attempt : Nat → Attempt} {r : WaitRun}
    (h : Stops maxWait attempt 0 r) (hw : 0 ≤ maxWait) (ht : r.result = some .timeout) :
    maxWait ≤ r.elapsed ∧ r.elapsed < maxWait + retryDelay + (attempt (r.attempts - 1)).duration := by
  have hlast : maxWait ≤ endAt attempt (r.attempts - 1) := by
    rcases h.last with ⟨hr, -⟩ | ⟨-, -, hm, -⟩
    · simp [hr] at ht
    · exact hm
  refine ⟨h.returned ▸ hlast, ?_⟩
  rw [h.returned]
  have hpos := h.entered
  by_cases h1 : r.attempts = 1
  · simp only [h1, Nat.sub_self, endAt, startAt, retryDelay]
    omega
  · have hb := (h.before (r.attempts - 2) (Nat.zero_le _) (by omega)).2
    rw [show r.attempts - 1 = r.attempts - 2 + 1 by omega, endAt_succ]
    push_cast
    omega

theorem Stops.count {maxWait : Int} {attempt : Nat → Attempt} {r : WaitRun}
    (h : Stops maxWait attempt 0 r) (hw : 0 ≤ maxWait) (hz : ∀ k, attempt k = ⟨0, false⟩) :
    r.attempts = (maxWait.toNat + retryDelay - 1) / retryDelay + 1 := by
  have hstart : ∀ k, startAt attempt k = retryDelay * k := by
    intro k
    induction k with
    | zero => rfl
    | succ k ih => simp [startAt, ih, hz, Nat.mul_succ]
  have hend : ∀ k, endAt attempt k = retryDelay * k := fun k => by simp [endAt, hstart, hz]
  have hlast : maxWait ≤ ((retryDelay * (r.attempts - 1) : Nat) : Int) := by
    rcases h.last with ⟨-, hok, -⟩ | ⟨-, -, hm, -⟩
    · simp [hz] at hok
    · rwa [hend] at hm
  have hpos := h.entered
  have hprev : r.attempts = 1 ∨ ((retryDelay * (r.attempts - 2) : Nat) : Int) < maxWait := by
    by_cases h1 : r.attempts = 1
    · exact .inl h1
    · have := (h.before (r.attempts - 2) (Nat.zero_le _) (by omega)).2
      rw [hend] at this
      exact .inr this
  simp only [retryDelay] at hlast hprev ⊢
  omega

/-- **`WaitForSSH` returns, and as the loop says**: for every `maxWait ≥ 0` and every
    sequence of attempts, `waitForSSH` returns a run; `waitFuel maxWait` turns, or any more,
    return the same run, which meets `WaitSpec`. -/
theorem waitForSSH_spec (maxWait : Int) (attempt : Nat → Attempt) (hw : 0 ≤ maxWait) :
    ∃ r, waitForSSH maxWait attempt = some r ∧
      (∀ fuel, waitFuel maxWait ≤ fuel → waitLoop maxWait attempt fuel 0 0 = some r) ∧
      WaitSpec maxWait attempt r := by
  obtain ⟨r, hr⟩ := @waitLoop_returns maxWait attempt (maxWait.toNat / retryDelay + 1) 0
    (by simp only [retryDelay]; omega)
  have hs := waitLoop_stops _ _ hr
  exact ⟨r, hr, fun fuel hf => waitLoop_more_fuel hr hf, hs, hs.ok_iff, hs.window hw, hs.count hw⟩

/-- `maxWait` of five seconds, every `Connect` failing at once. -/
theorem waitForSSH_spec_five_seconds :
    ∃ r, waitForSSH 5000000000 (fun _ => ⟨0, false⟩) = some r ∧
      (∀ fuel, waitFuel 5000000000 ≤ fuel →
        waitLoop 5000000000 (fun _ => ⟨0, false⟩) fuel 0 0 = some r) ∧
      WaitSpec 5000000000 (fun _ => ⟨0, false⟩) r :=
  waitForSSH_spec 5000000000 (fun _ => ⟨0, false⟩) (by decide)

example : waitForSSH 5000000000 (fun _ => ⟨0, false⟩) = some ⟨some .timeout, 4, 0, 6000000000⟩ := by
  decide

end Forge.Session
