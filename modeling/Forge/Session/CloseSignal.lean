/-
  The close signal of an `SSHClient` over every interleaving of `Connect`, `Disconnect` and
  `keepAlive` goroutines (`Forge.Session.Client`).

  1. **The invariant** (`Inv`) — `closeMutex` is held exactly by the goroutine inside one of the
     two critical sections; channels are closed in the order they are made; `client.close` is
     `nil` with every channel closed, or the newest channel and open, or the newest channel just
     closed by the `Disconnect` that holds the mutex and has not yet cleared the field; the log's
     channel events run `made 0, closed 0, made 1, …`; every goroutine's place fits the
     configuration (`Pc.Fits`): a `keepAlive` goroutine exists only when `KeepAlive > 0`, and a
     panic is one the configuration causes (`Panic.FromConfig`), never a `close` of a closed
     channel.

  2. **Preservation** — one lemma per kind of step (`Inv.setPc`, `Inv.connectLock`, …)
     proves what that goroutine's step keeps; `Inv.next` dispatches on the place, and
     `Reachable.inv` is the induction over the run.

  3. **Consequences** (`close_signal_safe`) — while the mutex is free the field is `nil` or an
     open channel, and inside a `Disconnect`'s critical section it is the channel just closed;
     no `Disconnect` closes a closed channel, and the only panics are `Validate` on a `nil`
     `client.Creds` and `time.NewTicker` on a wrapped interval, so with `Creds` set and
     `KeepAlive` below `9223372037` none; a `Disconnect` waits on nothing but the mutex; between
     two channel creations exactly one `Disconnect` closes, every other is a no-op; a failing
     `Connect` changes neither field and starts no goroutine.
-/
import Forge.Session.Client

namespace Forge.Session

/-! ## Critical sections and channel events -/

/-- The goroutine holds `closeMutex` at this place. -/
def Pc.locked : Pc → Bool
  | .connectSpawn | .disconnectClear => true
  | _ => false

/-- Goroutine `t` is inside a critical section. -/
def Holds (w : World) (t : Nat) : Prop := ∃ pc, w.threads[t]? = some pc ∧ pc.locked = true

/-- The channel events of a log. -/
def chanEvents : List Event → List Event :=
  List.filter fun | .made _ | .closed _ => true | _ => false

/-- The channel events of a client that makes and closes alternately: `made 0`, `closed 0`,
    `made 1`, `closed 1`, … -/
def canon : Nat → List Event
  | 0 => []
  | n + 1 => canon n ++ [if n % 2 = 0 then .made (n / 2) else .closed (n / 2)]

@[simp] theorem chanEvents_append (l : List Event) (e : Event) :
    chanEvents (l ++ [e]) = chanEvents l ++ chanEvents [e] := List.filter_append _ _

@[simp] theorem chanEvents_made (c : Nat) : chanEvents [.made c] = [.made c] := rfl
@[simp] theorem chanEvents_closed (c : Nat) : chanEvents [.closed c] = [.closed c] := rfl
@[simp] theorem chanEvents_disconnected (t : Nat) : chanEvents [.disconnected t] = [] := rfl
@[simp] theorem chanEvents_request (t : Nat) : chanEvents [.request t] = [] := rfl

theorem getElem?_setPc {w : World} {t : Nat} {p : Pc} (ht : w.threads[t]? = some p) (pc : Pc)
    (u : Nat) : (w.setPc t pc).threads[u]? = if t = u then some pc else w.threads[u]? := by
  have hlt : t < w.threads.length := (List.getElem?_eq_some_iff.mp ht).1
  simp [World.setPc, List.getElem?_set, hlt]

theorem holds_setPc {w : World} {t : Nat} {p : Pc} (ht : w.threads[t]? = some p) (pc : Pc)
    (u : Nat) : Holds (w.setPc t pc) u ↔ if t = u then pc.locked = true else Holds w u := by
  unfold Holds
  rw [getElem?_setPc ht]
  split <;> simp

theorem getElem?_spawn (w : World) (pcs : List Pc) (u : Nat) :
    (w.spawn pcs).threads[u]? = w.threads[u]? ∨
      (w.threads[u]? = none ∧ ∀ pc, (w.spawn pcs).threads[u]? = some pc → pc ∈ pcs) := by
  by_cases hu : u < w.threads.length
  · exact .inl (List.getElem?_append_left hu)
  · right
    refine ⟨List.getElem?_eq_none (by omega), fun pc h => ?_⟩
    rw [World.spawn, List.getElem?_append_right (by omega)] at h
    exact List.getElem?_mem h

theorem holds_spawn (w : World) {pcs : List Pc} (hpcs : ∀ pc ∈ pcs, pc.locked = false) (u : Nat) :
    Holds (w.spawn pcs) u ↔ Holds w u := by
  unfold Holds
  rcases getElem?_spawn w pcs u with h | ⟨hnone, hmem⟩
  · rw [h]
  · rw [hnone]
    simp only [reduceCtorEq, false_and, exists_false, iff_false, not_exists, not_and]
    intro pc hpc
    simp [hpcs pc (hmem pc hpc)]

/-! ## The invariant -/

/-- A panic the configuration alone causes, whatever the interleaving: `Validate` reading through
    a `nil` `client.Creds`, or a `keepAlive` goroutine's `time.NewTicker` on an interval wrapped
    to `≤ 0`. A `close` of a closed channel is never one. -/
def Panic.FromConfig (cfg : Config) : Panic → Prop
  | .closeOfClosedChannel => False
  | .nilPointerDereference => cfg.creds = none
  | .nonPositiveInterval => 0 < cfg.keepAlive ∧ tickerInterval cfg.keepAlive ≤ 0

/-- With `client.Creds` set and `KeepAlive` below `9223372037` seconds, no panic comes from the
    configuration. -/
theorem Panic.not_fromConfig {cfg : Config} (hc : cfg.creds ≠ none)
    (hk : cfg.keepAlive < 9223372037) : ∀ p : Panic, ¬ p.FromConfig cfg
  | .closeOfClosedChannel => id
  | .nilPointerDereference => hc
  | .nonPositiveInterval => by
    show ¬ (0 < cfg.keepAlive ∧ tickerInterval cfg.keepAlive ≤ 0)
    rintro ⟨h0, hle⟩
    rw [tickerInterval_of_lt (Int.le_of_lt h0) hk] at hle
    omega

/-- What a goroutine's place says of the configuration: `keepAlive` is started only when
    `KeepAlive > 0`, and a panic is one the configuration causes. -/
def Pc.Fits (cfg : Config) : Pc → Prop
  | .keepAliveTicker => 0 < cfg.keepAlive
  | .panicked p => p.FromConfig cfg
  | _ => True

/-- What every reachable state satisfies. -/
structure Inv (cfg : Config) (w : World) : Prop where
  /-- `closeMutex` is held exactly by the goroutine inside a critical section. -/
  owner_iff : ∀ t, Holds w t ↔ w.owner = some t
  /-- Channels are closed in the order they are made. -/
  closed_range : w.closed = List.range w.closed.length
  /-- `client.close` is `nil` with every channel closed, or the newest channel and open, or a
      `Disconnect` is between its `close` and its clear. -/
  field : (∃ t : Nat, w.threads[t]? = some Pc.disconnectClear) ∨
    (w.close = none ∧ w.closed.length = w.made) ∨
    (w.close = some (w.made - 1) ∧ w.closed.length + 1 = w.made)
  /-- Between its `close` and its clear, a `Disconnect` leaves the newest channel, closed, in
      the field. -/
  clearing : ∀ t : Nat, w.threads[t]? = some Pc.disconnectClear →
    w.close = some (w.made - 1) ∧ w.closed.length = w.made ∧ 0 < w.made
  /-- The log's channel events alternate. -/
  events : chanEvents w.log = canon (w.made + w.closed.length)
  /-- Every goroutine's place fits the configuration. -/
  fits : ∀ (t : Nat) (pc : Pc), w.threads[t]? = some pc → pc.Fits cfg

theorem Inv.init (cfg : Config) : Inv cfg World.init where
  owner_iff t := by simp [Holds, World.init]
  closed_range := rfl
  field := .inr (.inl ⟨rfl, rfl⟩)
  clearing t := by simp [World.init]
  events := rfl
  fits t pc := by simp [World.init]

section Invariant

variable {cfg : Config}

/-- While nobody holds the mutex, no `Disconnect` is between its `close` and its clear. -/
theorem Inv.not_clearing {w : World} (hi : Inv cfg w) (ho : w.owner = none) (t : Nat) :
    w.threads[t]? ≠ some .disconnectClear := fun h =>
  absurd ((hi.owner_iff t).mp ⟨_, h, rfl⟩) (by simp [ho])

/-- **While the mutex is free, `client.close` is `nil` or an open channel.** -/
theorem Inv.close_open {w : World} (hi : Inv cfg w) (ho : w.owner = none) {c : Nat}
    (hc : w.close = some c) : c ∉ w.closed := by
  rcases hi.field with ⟨t, ht⟩ | ⟨h, -⟩ | ⟨h, hlen⟩
  · exact absurd ht (hi.not_clearing ho t)
  · simp [h] at hc
  · rw [h, Option.some.injEq] at hc
    rw [hi.closed_range, List.mem_range]
    omega

/-- **Inside a `Disconnect`'s critical section the field holds the channel closed last**, and
    that `Disconnect` holds the mutex. -/
theorem Inv.clearing_last {w : World} (hi : Inv cfg w) {t : Nat}
    (ht : w.threads[t]? = some .disconnectClear) :
    w.owner = some t ∧ ∃ c, w.close = some c ∧ w.closed.getLast? = some c := by
  obtain ⟨hc, hlen, hpos⟩ := hi.clearing t ht
  have hcl : w.closed = List.range (w.made - 1) ++ [w.made - 1] := by
    rw [← List.range_succ, Nat.succ_eq_add_one, Nat.sub_add_cancel hpos, ← hlen]
    exact hi.closed_range
  exact ⟨(hi.owner_iff t).mp ⟨_, ht, rfl⟩, w.made - 1, hc, by simp [hcl]⟩

/-! ## One step at a time -/

theorem fits_setPc {w : World} {t : Nat} {p pc : Pc} (hi : Inv cfg w)
    (ht : w.threads[t]? = some p) (hpc : pc.Fits cfg) (u : Nat) (q : Pc) :
    (w.setPc t pc).threads[u]? = some q → q.Fits cfg := by
  rw [getElem?_setPc ht]
  split
  · rintro ⟨⟩
    exact hpc
  · exact hi.fits u q

/-- A step that moves goroutine `t` between places outside the critical sections. -/
theorem Inv.setPc {w : World} {t : Nat} {p pc : Pc} (hi : Inv cfg w) (ht : w.threads[t]? = some p)
    (hp : p.locked = false) (hpc : pc.locked = false) (hfit : pc.Fits cfg) :
    Inv cfg (w.setPc t pc) where
  owner_iff u := by
    rw [holds_setPc ht, World.setPc_owner, ← hi.owner_iff]
    split
    · subst_vars; simp [Holds, ht, hp, hpc]
    · rfl
  closed_range := hi.closed_range
  field := hi.field.imp_left fun ⟨u, hu⟩ => ⟨u, by
    rw [getElem?_setPc ht, if_neg]
    · exact hu
    · rintro rfl
      rw [ht, Option.some.injEq] at hu
      simp [hu, Pc.locked] at hp⟩
  clearing u hu := by
    rw [getElem?_setPc ht] at hu
    split at hu
    · cases hu
      simp [Pc.locked] at hpc
    · exact hi.clearing u hu
  events := hi.events
  fits := fits_setPc hi ht hfit

/-- A log entry that is not a channel event. -/
theorem Inv.log {w : World} {e : Event} (hi : Inv cfg w) (he : chanEvents [e] = []) :
    Inv cfg { w with log := w.log ++ [e] } where
  owner_iff := hi.owner_iff
  closed_range := hi.closed_range
  field := hi.field
  clearing := hi.clearing
  events := by simp [he, hi.events]
  fits := hi.fits

/-- New calls start outside the critical sections. -/
theorem Inv.spawn {w : World} {pcs : List Pc} (hi : Inv cfg w)
    (hpcs : ∀ pc ∈ pcs, pc.locked = false ∧ pc.Fits cfg) : Inv cfg (w.spawn pcs) where
  owner_iff u := by rw [holds_spawn w (fun pc h => (hpcs pc h).1), World.spawn_owner, hi.owner_iff]
  closed_range := hi.closed_range
  field := hi.field.imp_left fun ⟨u, hu⟩ =>
    ⟨u, (List.getElem?_append_left (List.getElem?_eq_some_iff.mp hu).1).trans hu⟩
  clearing u hu := by
    rcases getElem?_spawn w pcs u with h | ⟨-, hmem⟩
    · exact hi.clearing u (h ▸ hu)
    · simpa [Pc.locked] using (hpcs _ (hmem _ hu)).1
  events := hi.events
  fits u q hu := by
    rcases getElem?_spawn w pcs u with h | ⟨-, hmem⟩
    · exact hi.fits u q (h ▸ hu)
    · exact (hpcs _ (hmem _ hu)).2

theorem canon_succ (n : Nat) :
    canon (n + 1) = canon n ++ [if n % 2 = 0 then .made (n / 2) else .closed (n / 2)] := rfl

/-- `Connect`'s stored connection is not part of the invariant. -/
theorem Inv.conn {w : World} (hi : Inv cfg w) (c : Option Nat) : Inv cfg { w with conn := c } :=
  ⟨hi.owner_iff, hi.closed_range, hi.field, hi.clearing, hi.events, hi.fits⟩

/-- Taking the free mutex: goroutine `t`, and only it, is in a critical section after. -/
theorem holds_acquire {w : World} {t : Nat} {p pc : Pc} (hi : Inv cfg w)
    (ht : w.threads[t]? = some p) (ho : w.owner = none) (hpc : pc.locked = true) (u : Nat) :
    Holds (w.setPc t pc) u ↔ some t = some u := by
  rw [holds_setPc ht]
  split
  · simp [*]
  · rw [hi.owner_iff, ho]
    simp [*]

/-- Releasing the mutex held by `t`: nobody is in a critical section after. -/
theorem not_holds_release {w : World} {t : Nat} {p pc : Pc} (hi : Inv cfg w)
    (ht : w.threads[t]? = some p) (ho : w.owner = some t) (hpc : pc.locked = false) (u : Nat) :
    ¬ Holds (w.setPc t pc) u := by
  rw [holds_setPc ht]
  split
  · simp [hpc]
  · rw [hi.owner_iff, ho, Option.some.injEq]
    assumption

/-- The mutex holder `t` is the only goroutine that may be clearing. -/
theorem Inv.clearing_eq {w : World} {t : Nat} (hi : Inv cfg w) (ho : w.owner = some t) {u : Nat}
    (hu : w.threads[u]? = some .disconnectClear) : u = t := by
  have := (hi.owner_iff u).mp ⟨_, hu, rfl⟩
  rw [ho, Option.some.injEq] at this
  exact this.symm

/-- `Connect` takes the mutex and makes a channel if the field is `nil`. -/
theorem Inv.connectLock {w w' : World} {t : Nat} {b : Bool} (hi : Inv cfg w)
    (ht : w.threads[t]? = some .connectLock) (h : stepAt cfg w t b .connectLock = some w') :
    Inv cfg w' := by
  simp only [stepAt] at h
  split_ifs at h with ho
  have hacq := holds_acquire hi ht ho (rfl : Pc.connectSpawn.locked = true)
  have hclear (u : Nat) : (w.setPc t .connectSpawn).threads[u]? ≠ some .disconnectClear := by
    rw [getElem?_setPc ht]
    split
    · simp
    · exact hi.not_clearing ho u
  have hfree := hi.field.resolve_left fun ⟨u, hu⟩ => hi.not_clearing ho u hu
  cases hc : w.close with
  | none =>
    simp only [hc, Option.some.injEq] at h hfree
    subst h
    have hlen : w.closed.length = w.made := by simpa using hfree
    refine ⟨hacq, hi.closed_range, .inr (.inr ⟨by simp, by simp [hlen]⟩),
      fun u hu => absurd hu (hclear u), ?_, fits_setPc hi ht trivial⟩
    simp only [World.setPc_log, World.setPc_closed, chanEvents_append, hi.events, chanEvents_made]
    rw [show w.made + 1 + w.closed.length = (w.made + w.closed.length) + 1 by omega, canon_succ,
      if_pos (by omega), show (w.made + w.closed.length) / 2 = w.made by omega]
  | some c =>
    simp only [hc, Option.some.injEq] at h
    subst h
    exact ⟨hacq, hi.closed_range, .inr (by simpa [hc] using hfree),
      fun u hu => absurd hu (hclear u), hi.events, fits_setPc hi ht trivial⟩

/-- `Connect` starts `keepAlive` when configured, returns, and unlocks. -/
theorem Inv.connectSpawn {w w' : World} {t : Nat} {b : Bool} (hi : Inv cfg w)
    (ht : w.threads[t]? = some .connectSpawn) (h : stepAt cfg w t b .connectSpawn = some w') :
    Inv cfg w' := by
  simp only [stepAt, Option.some.injEq] at h
  subst h
  have ho : w.owner = some t := (hi.owner_iff t).mp ⟨_, ht, rfl⟩
  have hks : ∀ pc ∈ (if 0 < cfg.keepAlive then [Pc.keepAliveTicker] else []),
      pc.locked = false ∧ pc.Fits cfg := by
    split_ifs with hk <;> simp [Pc.locked, Pc.Fits, hk]
  have hclear (u : Nat) : w.threads[u]? ≠ some .disconnectClear := fun hu => by
    rw [hi.clearing_eq ho hu, ht] at hu
    cases hu
  have hks' := fun pc h => (hks pc h).1
  refine ⟨fun u => ⟨fun h => absurd ((holds_spawn _ hks' u).mp h)
      (not_holds_release hi ht ho (rfl : Pc.done.locked = false) u),
    fun h => by simp at h⟩, hi.closed_range, .inr (hi.field.resolve_left fun ⟨u, hu⟩ => hclear u hu),
    fun u hu => ?_, hi.events, fun u q hu => ?_⟩
  · rcases getElem?_spawn (w.setPc t .done) _ u with h | ⟨-, hmem⟩
    · rw [h, getElem?_setPc ht] at hu
      split at hu
      · cases hu
      · exact absurd hu (hclear u)
    · simpa [Pc.locked] using hks' _ (hmem _ hu)
  · rcases getElem?_spawn (w.setPc t .done) _ u with h | ⟨-, hmem⟩
    · exact fits_setPc hi ht (show Pc.done.Fits cfg from trivial) u q (h ▸ hu)
    · exact (hks _ (hmem _ hu)).2

/-- `Disconnect` takes the mutex and closes the field's channel, or finds `nil` and returns. -/
theorem Inv.disconnectLock {w w' : World} {t : Nat} {b : Bool} (hi : Inv cfg w)
    (ht : w.threads[t]? = some .disconnectLock) (h : stepAt cfg w t b .disconnectLock = some w') :
    Inv cfg w' := by
  simp only [stepAt] at h
  split_ifs at h with ho
  cases hc : w.close with
  | none =>
    simp only [hc, Option.some.injEq] at h
    subst h
    exact (hi.setPc ht rfl (rfl : Pc.done.locked = false) trivial).log rfl
  | some c =>
    have hnc := hi.close_open ho hc
    simp only [hc, hnc, if_false, Option.some.injEq] at h
    subst h
    obtain ⟨hcm, hlen⟩ : c = w.made - 1 ∧ w.closed.length + 1 = w.made := by
      rcases hi.field with ⟨u, hu⟩ | ⟨h, -⟩ | ⟨h, hlen⟩
      · exact absurd hu (hi.not_clearing ho u)
      · simp [hc] at h
      · exact ⟨by simpa [hc] using h, hlen⟩
    refine ⟨holds_acquire hi ht ho (rfl : Pc.disconnectClear.locked = true), ?_,
      .inl ⟨t, by simp [getElem?_setPc ht]⟩, fun _ _ => ⟨by simp [hc, hcm], by simp; omega, by simp; omega⟩,
      ?_, fits_setPc hi ht trivial⟩
    · simp only [World.setPc_closed, List.length_append, List.length_singleton, List.range_succ]
      rw [← hi.closed_range, hcm, show w.made - 1 = w.closed.length by omega]
    · simp only [World.setPc_log, World.setPc_made, World.setPc_closed, chanEvents_append, hi.events,
        chanEvents_closed, List.length_append, List.length_singleton]
      rw [← Nat.add_assoc, canon_succ, if_neg (by omega),
        show (w.made + w.closed.length) / 2 = c by omega]

/-- `Disconnect` sets the field to `nil`, returns and unlocks. -/
theorem Inv.disconnectClear {w w' : World} {t : Nat} {b : Bool} (hi : Inv cfg w)
    (ht : w.threads[t]? = some .disconnectClear) (h : stepAt cfg w t b .disconnectClear = some w') :
    Inv cfg w' := by
  simp only [stepAt, Option.some.injEq] at h
  subst h
  have ho : w.owner = some t := (hi.owner_iff t).mp ⟨_, ht, rfl⟩
  refine ⟨fun u => ⟨fun h => absurd h (not_holds_release hi ht ho (rfl : Pc.done.locked = false) u),
      fun h => by simp at h⟩, hi.closed_range, .inr (.inl ⟨rfl, (hi.clearing t ht).2.1⟩), fun u hu => ?_,
    by simp [hi.events], fits_setPc hi ht trivial⟩
  rw [getElem?_setPc ht] at hu
  split at hu
  · cases hu
  · exact absurd (hi.clearing_eq ho hu) (Ne.symm ‹_›)

/-- `keepAlive` creates its ticker, or panics on an interval `≤ 0`. -/
theorem Inv.keepAliveTicker {w w' : World} {t : Nat} {b : Bool} (hi : Inv cfg w)
    (ht : w.threads[t]? = some .keepAliveTicker) (h : stepAt cfg w t b .keepAliveTicker = some w') :
    Inv cfg w' := by
  have hk : 0 < cfg.keepAlive := hi.fits t _ ht
  simp only [stepAt] at h
  split_ifs at h with hpos <;> cases h
  · exact hi.setPc ht rfl rfl trivial
  · exact hi.setPc ht rfl rfl ⟨hk, Int.not_lt.mp hpos⟩

/-- **Every step keeps the invariant.** -/
theorem Inv.next {w w' : World} {a : Act} (hi : Inv cfg w) (h : step cfg w a = some w') :
    Inv cfg w' := by
  cases a with
  | callConnect => cases h; refine hi.spawn ?_; simp [Pc.locked, Pc.Fits]
  | callDisconnect => cases h; refine hi.spawn ?_; simp [Pc.locked, Pc.Fits]
  | run t b =>
    simp only [step, Option.bind_eq_some] at h
    obtain ⟨pc, ht, h⟩ := h
    cases pc with
    | connect =>
      simp only [stepAt] at h
      split at h
      · cases h
        exact hi.setPc ht rfl rfl ‹cfg.creds = none›
      · split_ifs at h <;> cases h
        · exact (hi.setPc ht rfl (rfl : Pc.connectLock.locked = false) trivial).conn _
        · exact hi.setPc ht rfl rfl trivial
    | connectLock => exact hi.connectLock ht h
    | connectSpawn => exact hi.connectSpawn ht h
    | disconnect =>
      simp only [stepAt] at h
      split at h
      · split_ifs at h <;> cases h
        · exact (hi.setPc ht rfl (rfl : Pc.done.locked = false) trivial).log rfl
        · exact hi.setPc ht rfl rfl trivial
      · cases h
        exact hi.setPc ht rfl rfl trivial
    | disconnectLock => exact hi.disconnectLock ht h
    | disconnectClear => exact hi.disconnectClear ht h
    | keepAliveTicker => exact hi.keepAliveTicker ht h
    | keepAlive => cases h; exact hi.setPc ht rfl rfl trivial
    | keepAliveWait ch =>
      simp only [stepAt] at h
      split_ifs at h
      · cases h
        exact (hi.setPc ht rfl (rfl : Pc.keepAliveSend.locked = false) trivial).log rfl
      · split at h
        · split_ifs at h
          cases h
          exact hi.setPc ht rfl rfl trivial
        · cases h
    | keepAliveSend =>
      cases h
      exact hi.setPc ht rfl (by split <;> rfl) (by split <;> trivial)
    | done => cases h
    | panicked => cases h

/-- The invariant holds in every state some interleaving reaches. -/
theorem Reachable.inv {w : World} (h : Reachable cfg w) : Inv cfg w := by
  induction h with
  | init => exact Inv.init cfg
  | step _ _ hs ih => exact ih.next hs

end Invariant

/-! ## What every interleaving guarantees -/

/-- What holds of the client at every point of every interleaving. -/
structure Safe (cfg : Config) (w : World) : Prop where
  /-- While `closeMutex` is free, `client.close` is `nil` or an open channel. -/
  close_open : w.owner = none → ∀ c, w.close = some c → c ∉ w.closed
  /-- Inside a `Disconnect`'s critical section, between `close(client.close)` and
      `client.close = nil`, that `Disconnect` holds the mutex and the field holds the channel
      just closed. -/
  clearing : ∀ t, w.threads[t]? = some Pc.disconnectClear →
    w.owner = some t ∧ ∃ c, w.close = some c ∧ w.closed.getLast? = some c
  /-- No goroutine has closed a closed channel: every panic is one the configuration causes. -/
  panics : ∀ (t : Nat) (p : Panic), w.threads[t]? = some (.panicked p) → p.FromConfig cfg
  /-- With `client.Creds` set and `KeepAlive` below `9223372037` seconds, no goroutine has
      panicked. -/
  no_panic : cfg.creds ≠ none → cfg.keepAlive < 9223372037 →
    ∀ (t : Nat) (p : Panic), w.threads[t]? ≠ some (.panicked p)
  /-- A `Disconnect` waits on nothing but `closeMutex`, and its step does not panic. -/
  disconnect_moves : ∀ t b, (w.threads[t]? = some Pc.disconnect ∨
      w.threads[t]? = some Pc.disconnectClear ∨
      (w.threads[t]? = some Pc.disconnectLock ∧ w.owner = none)) →
    ∃ w', step cfg w (.run t b) = some w' ∧ ∀ p : Panic, w'.threads[t]? ≠ some (.panicked p)
  /-- Channels are made and closed alternately, `made 0, closed 0, made 1, …`: between two
      creations exactly one `Disconnect` closes, and every other closes nothing. -/
  alternates : chanEvents w.log = canon (w.made + w.closed.length)
  /-- A `Connect` that fails validation, auth or `dial` only returns: `cryptoClient`, `close`
      and the goroutines are untouched. -/
  connect_fails : ∀ t b creds, w.threads[t]? = some Pc.connect → cfg.creds = some creds →
    ¬ (connectAuth cfg creds = none ∧ b = true) → step cfg w (.run t b) = some (w.setPc t Pc.done)

theorem getElem?_setPc_self {w : World} {t : Nat} {p : Pc} (ht : w.threads[t]? = some p)
    (pc : Pc) : (w.setPc t pc).threads[t]? = some pc := by
  rw [getElem?_setPc ht, if_pos rfl]

/-- A `Disconnect` not waiting for `closeMutex` has a step, which panics only by closing a closed
    channel. -/
theorem disconnect_step_exists (cfg : Config) {w : World} {t : Nat} (b : Bool)
    (ht : w.threads[t]? = some .disconnect ∨ w.threads[t]? = some .disconnectClear ∨
      (w.threads[t]? = some .disconnectLock ∧ w.owner = none)) :
    ∃ w', step cfg w (.run t b) = some w' ∧
      ∀ p, w'.threads[t]? = some (.panicked p) → p = .closeOfClosedChannel := by
  rcases ht with ht | ht | ⟨ht, ho⟩
  · simp only [step, ht, Option.some_bind, stepAt]
    split
    · split <;> exact ⟨_, rfl, by simp [getElem?_setPc_self ht]⟩
    · exact ⟨_, rfl, by simp [getElem?_setPc_self ht]⟩
  · simp only [step, ht, Option.some_bind, stepAt]
    exact ⟨_, rfl, by simp [getElem?_setPc_self ht]⟩
  · simp only [step, ht, Option.some_bind, stepAt, ho, if_true]
    split
    · exact ⟨_, rfl, by simp [getElem?_setPc_self ht]⟩
    · split <;> exact ⟨_, rfl, by simp [getElem?_setPc_self ht, eq_comm]⟩

/-- **The close signal over every interleaving**: every reachable state is `Safe`. -/
theorem close_signal_safe (cfg : Config) {w : World} (hw : Reachable cfg w) : Safe cfg w where
  close_open ho _ := hw.inv.close_open ho
  clearing _ := hw.inv.clearing_last
  panics t _ := hw.inv.fits t _
  no_panic hc hk t p ht := Panic.not_fromConfig hc hk p (hw.inv.fits t _ ht)
  disconnect_moves t b ht :=
    let ⟨w', h, hp⟩ := disconnect_step_exists cfg b ht
    ⟨w', h, fun p hpw => by
      simpa [hp p hpw, Pc.Fits, Panic.FromConfig] using (Reachable.step _ hw h).inv.fits t _ hpw⟩
  alternates := hw.inv.events
  connect_fails t b _ ht hc hf := by simp [step, ht, stepAt, hc, hf]

/-- The client with a password and no keepalive. -/
def passwordClient : Config := ⟨some ⟨"u", "p", ""⟩, false, 0⟩

/-- A `Connect` and two `Disconnect`s: the first has closed channel `0` and not yet cleared the
    field, the second waits for `closeMutex`. -/
theorem close_signal_safe_two_disconnects :
    ∃ w, Reachable passwordClient w ∧ w.threads = [.done, .disconnectClear, .disconnectLock] ∧
      Safe passwordClient w := by
  obtain ⟨w, hw, h⟩ := exists_reachable_of_run passwordClient
    [.callConnect, .run 0 true, .run 0 true, .run 0 true, .callDisconnect, .callDisconnect,
      .run 1 true, .run 2 true, .run 1 true]
    (p := fun w => w.threads == [.done, .disconnectClear, .disconnectLock]) (by decide)
  exact ⟨w, hw, by simpa using h, close_signal_safe passwordClient hw⟩

/-- A `Connect` and then a `Disconnect` that has run `close(client.close)` and not yet
    `client.close = nil`: the field holds a closed channel. -/
theorem close_field_holds_closed_channel :
    ∃ w, Reachable passwordClient w ∧ (w.close = some 0 ∧ 0 ∈ w.closed) := by
  obtain ⟨w, hw, h⟩ := exists_reachable_of_run passwordClient
    [.callConnect, .run 0 true, .run 0 true, .run 0 true, .callDisconnect, .run 1 true, .run 1 true]
    (p := fun w => w.close == some 0 && w.closed.contains 0) (by decide)
  exact ⟨w, hw, by simpa using h⟩

end Forge.Session
