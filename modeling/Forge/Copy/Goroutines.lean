/-
  The goroutines of `SSHClient.Upload` and `SSHClient.Download` and what they share: the buffered
  `errorChan`, the `sync.WaitGroup`, and the caller, which waits on the group and then takes one
  error from the channel, if there is one (`select { case err := <-errorChan: … default: }`).

  1. **Program** — each goroutine as its code (`Goroutine`): a body of statements (`Stmt`),
     each a call whose error is dropped (`fmt.Fprint(w, …)`), a call whose error is sent before
     a `return` (`if err != nil { errorChan <- err; return }`), or a check that sends a fixed
     error; then its deferred calls in the order they run, the last deferred first:
     `wg.Done()` and the close of its pipe. `upload` runs the writer and the remote `scp -t`,
     `download` the ack writer, the reader and the remote `scp -f`; `errorChan` has room for one
     error per goroutine (`Transfer`).

  2. **Steps** — `step`: one statement of one goroutine, the outcome of its call the
     environment's (`Act.run`), or the caller's `wg.Wait()` and `select`, which can pass only
     once the counter is zero. A send on a full channel, and `wg.Done()` at zero, cannot move.
     `Reachable`: every interleaving from the call's `wg.Add(n)` and `go` statements.

  3. **Specification** — `Inv`, over every reachable state: the counter is the number of
     goroutines not yet past `wg.Done()` (`waiting`), the channel holds the errors sent in
     order, no goroutine has sent twice, and once the call returned it holds the first error.
     From it (`Reports`): no send blocks; until the call returns some step can be taken, and
     every step lowers `World.measure`, so every interleaving ends with the call returned; at the
     barrier every goroutine has run its body, sends included, and `wg.Done()`, and has only
     deferred closes left — in Upload the writer's `w.Close()`, deferred before its
     `wg.Done()` and so run after it; the call returns `nil` when no goroutine sent, and the
     first error sent otherwise. `copy_calls_report` states it of Upload and Download, with what
     is left of each goroutine at the return; `upload_returns_before_writer_closes` is an Upload
     whose remote `scp -t` fails, returning its error before the writer's close has run.
-/
import Mathlib.Data.Finset.Card
import Mathlib.Algebra.Order.BigOperators.Group.Finset

namespace Forge.Copy

/-! ## The goroutines' code -/

/-- A statement of a goroutine's body. -/
inductive Stmt (ε : Type) where
  /-- a call whose error is dropped: `fmt.Fprint(w, …)` -/
  | call
  /-- a call whose error is sent, the goroutine then returning:
      `if err != nil { errorChan <- err; return }` -/
  | callOrSend
  /-- a check that sends the fixed error `e` and returns when it fails -/
  | check (e : ε)
  deriving DecidableEq, Repr

/-- A deferred call. -/
inductive Deferred where
  /-- `wg.Done()` -/
  | done
  /-- the close of the goroutine's pipe, its error only logged -/
  | close
  deriving DecidableEq, Repr

/-- A goroutine's code: its body, and its deferred calls in the order they run when it returns,
    the reverse of its `defer` statements. It runs `wg.Done()` once. -/
structure Goroutine (ε : Type) where
  body : List (Stmt ε)
  deferred : List Deferred
  done_once : deferred.count .done = 1

/-- What a call starts: its goroutines, and `make(chan error, cap)` with room for one error
    each. -/
structure Transfer (ε : Type) where
  goroutines : List (Goroutine ε)
  cap : Nat
  room : goroutines.length ≤ cap

section Code

variable {ε : Type}

/-- Upload's writer: `fmt.Fprintf(w, "C%#o %d %s\n", …)`, `io.Copy(w, …)` with its error sent,
    `fmt.Fprint(w, "\x00")`; `defer w.Close()` and then `defer wg.Done()`, so `wg.Done()`
    runs first. -/
def uploadWriter : Goroutine ε := ⟨[.call, .callOrSend, .call], [.done, .close], by decide⟩

/-- The remote `scp` of either call: `session.Run(…)`, its error sent. -/
def remoteScp : Goroutine ε := ⟨[.callOrSend], [.done], by decide⟩

/-- `SSHClient.Upload`: `make(chan error, 2)`, the writer and the remote `scp -t`. -/
def upload : Transfer ε := ⟨[uploadWriter, remoteScp], 2, Nat.le_refl 2⟩

/-- Download's ack writer: three `fmt.Fprint(ackPipe, …)`; `defer wg.Done()` and then
    `defer ackPipe.Close()`, so the close runs first. -/
def ackWriter : Goroutine ε := ⟨[.call, .call, .call], [.close, .done], by decide⟩

/-- Download's reader: `dr.ReadString('\n')`, the header check that sends
    `ErrSSHInvalidMessageLength`, `strconv.ParseInt`, `io.CopyN`, each error sent. -/
def dataReader (errInvalidMessageLength : ε) : Goroutine ε :=
  ⟨[.callOrSend, .check errInvalidMessageLength, .callOrSend, .callOrSend], [.done], by decide⟩

/-- `SSHClient.Download`: `make(chan error, 3)`, the ack writer, the reader and the remote
    `scp -f`. -/
def download (errInvalidMessageLength : ε) : Transfer ε :=
  ⟨[ackWriter, dataReader errInvalidMessageLength, remoteScp], 3, Nat.le_refl 3⟩

end Code

/-! ## Steps -/

/-- Where a goroutine is in its code. -/
inductive Pc (ε : Type) where
  /-- about to run statement `k` of the body; past its end, about to return -/
  | body (k : Nat)
  /-- about to run `errorChan <- e` and return -/
  | send (e : ε)
  /-- returning: about to run deferred call `k`; past the last one, exited -/
  | ret (k : Nat)
  deriving DecidableEq, Repr

/-- A call in progress. -/
structure World (ε : Type) where
  /-- every goroutine's place, by number -/
  pcs : List (Pc ε)
  /-- `errorChan`'s buffer, oldest first -/
  chan : List ε
  /-- the `WaitGroup`'s counter -/
  counter : Nat
  /-- every send so far, with the goroutine that made it, oldest first -/
  sent : List (Nat × ε)
  /-- what the call returned, once it has -/
  result : Option (Option ε)
  deriving DecidableEq, Repr

/-- The actions of one step: goroutine `t` runs a statement, `o` the error its call returns
    (or, for a check, whether it fails); or the caller passes `wg.Wait()` and selects. -/
inductive Act (ε : Type) where
  | run (t : Nat) (o : Option ε)
  | wait
  deriving DecidableEq, Repr

section Steps

variable {ε : Type}

/-- `wg.Add(n)` and the `go` statements: every goroutine at the top of its body. -/
def World.start (c : Transfer ε) : World ε :=
  ⟨c.goroutines.map fun _ => .body 0, [], c.goroutines.length, [], none⟩

/-- Goroutine `t` moves to `pc`. -/
def World.setPc (w : World ε) (t : Nat) (pc : Pc ε) : World ε := { w with pcs := w.pcs.set t pc }

@[simp] theorem World.setPc_pcs (w : World ε) (t : Nat) (pc : Pc ε) :
    (w.setPc t pc).pcs = w.pcs.set t pc := rfl
@[simp] theorem World.setPc_chan (w : World ε) (t : Nat) (pc : Pc ε) :
    (w.setPc t pc).chan = w.chan := rfl
@[simp] theorem World.setPc_counter (w : World ε) (t : Nat) (pc : Pc ε) :
    (w.setPc t pc).counter = w.counter := rfl
@[simp] theorem World.setPc_sent (w : World ε) (t : Nat) (pc : Pc ε) :
    (w.setPc t pc).sent = w.sent := rfl
@[simp] theorem World.setPc_result (w : World ε) (t : Nat) (pc : Pc ε) :
    (w.setPc t pc).result = w.result := rfl

/-- The next statement of goroutine `t` at `pc`; `none` when it cannot move. -/
def Goroutine.stepAt (g : Goroutine ε) (cap : Nat) (w : World ε) (t : Nat) (o : Option ε) :
    Pc ε → Option (World ε)
  | .body k =>
    match g.body[k]?, o with
    | none, _ => some (w.setPc t (.ret 0))
    | some .callOrSend, some e => some (w.setPc t (.send e))
    | some (.check e), some _ => some (w.setPc t (.send e))
    | some _, _ => some (w.setPc t (.body (k + 1)))
  | .send e =>
    if w.chan.length < cap then
      some { w.setPc t (.ret 0) with chan := w.chan ++ [e], sent := w.sent ++ [(t, e)] }
    else none
  | .ret k =>
    match g.deferred[k]?, w.counter with
    | none, _ => none
    | some .close, _ => some (w.setPc t (.ret (k + 1)))
    | some .done, 0 => none
    | some .done, n + 1 => some { w.setPc t (.ret (k + 1)) with counter := n }

/-- One step of the call. -/
def step (c : Transfer ε) (w : World ε) : Act ε → Option (World ε)
  | .run t o =>
    match c.goroutines[t]?, w.pcs[t]? with
    | some g, some pc => g.stepAt c.cap w t o pc
    | _, _ => none
  | .wait =>
    match w.counter, w.result with
    | 0, none => some { w with chan := w.chan.tail, result := some w.chan.head? }
    | _, _ => none

/-- The states some interleaving reaches. -/
inductive Reachable (c : Transfer ε) : World ε → Prop
  | start : Reachable c (.start c)
  | step {w w' : World ε} (a : Act ε) : Reachable c w → step c w a = some w' → Reachable c w'

/-- Replays an interleaving. -/
def runActs (c : Transfer ε) : World ε → List (Act ε) → Option (World ε)
  | w, [] => some w
  | w, a :: as => (step c w a).bind fun w' => runActs c w' as

theorem runActs_reachable {c : Transfer ε} :
    ∀ {w w' : World ε} (as : List (Act ε)), Reachable c w → runActs c w as = some w' →
      Reachable c w'
  | w, w', [], hw, h => by cases h; exact hw
  | w, w', a :: as, hw, h => by
    simp only [runActs, Option.bind_eq_some] at h
    obtain ⟨w₁, h₁, h₂⟩ := h
    exact runActs_reachable as (.step a hw h₁) h₂

/-- A replayed interleaving whose last state satisfies `p` shows a reachable state that does. -/
theorem exists_reachable_of_run (c : Transfer ε) (as : List (Act ε)) {p : World ε → Bool}
    (h : (runActs c (.start c) as).map p = some true) : ∃ w, Reachable c w ∧ p w = true := by
  cases hr : runActs c (.start c) as with
  | none => simp [hr] at h
  | some w =>
    simp only [hr, Option.map_some', Option.some.injEq] at h
    exact ⟨w, runActs_reachable as .start hr, h⟩

end Steps

/-! ## What the barrier waits for, and what is left -/

section Pending

variable {ε : Type}

/-- Not yet past its `wg.Done()`. -/
def Goroutine.pending (g : Goroutine ε) : Pc ε → Bool
  | .body _ => true
  | .send _ => true
  | .ret k => decide (Deferred.done ∈ g.deferred.drop k)

/-- At most the steps a goroutine at `pc` has left. -/
def Goroutine.rank (g : Goroutine ε) : Pc ε → Nat
  | .body k => g.body.length - k + g.deferred.length + 2
  | .send _ => g.deferred.length + 1
  | .ret k => g.deferred.length - k

/-- Goroutine `t`, at its place in `pcs`, is not yet past its `wg.Done()`. -/
def pendingAt (c : Transfer ε) (pcs : List (Pc ε)) (t : Nat) : Bool :=
  match c.goroutines[t]?, pcs[t]? with
  | some g, some pc => g.pending pc
  | _, _ => false

/-- The goroutines `wg.Wait()` still waits for. -/
def waiting (c : Transfer ε) (pcs : List (Pc ε)) : Finset Nat :=
  (Finset.range c.goroutines.length).filter fun t => pendingAt c pcs t

/-- The steps goroutine `t` has left, at most. -/
def rankAt (c : Transfer ε) (pcs : List (Pc ε)) (t : Nat) : Nat :=
  match c.goroutines[t]?, pcs[t]? with
  | some g, some pc => g.rank pc
  | _, _ => 0

/-- At most the steps left before every goroutine has exited and the call returned. -/
def World.measure (c : Transfer ε) (w : World ε) : Nat :=
  (Finset.range c.goroutines.length).sum (rankAt c w.pcs) + if w.result.isNone then 1 else 0

theorem Goroutine.pending_ret_zero (g : Goroutine ε) : g.pending (.ret 0) = true := by
  have : Deferred.done ∈ g.deferred :=
    List.count_pos_iff.mp (by rw [g.done_once]; exact Nat.one_pos)
  simpa [Goroutine.pending] using this

theorem Goroutine.pending_close {g : Goroutine ε} {k : Nat} (h : g.deferred[k]? = some .close) :
    g.pending (.ret (k + 1)) = g.pending (.ret k) := by
  obtain ⟨hk, hget⟩ := List.getElem?_eq_some_iff.mp h
  simp [Goroutine.pending, List.drop_eq_getElem_cons hk, hget]

/-- `wg.Done()` is what takes a goroutine past it: the only one in its deferred calls. -/
theorem Goroutine.pending_done {g : Goroutine ε} {k : Nat} (h : g.deferred[k]? = some .done) :
    g.pending (.ret k) = true ∧ g.pending (.ret (k + 1)) = false := by
  obtain ⟨hk, hget⟩ := List.getElem?_eq_some_iff.mp h
  have hsplit := List.drop_eq_getElem_cons hk
  have hrest : (g.deferred.drop (k + 1)).count .done = 0 := by
    have := g.done_once
    rw [← List.take_append_drop k g.deferred, List.count_append, hsplit, hget,
      List.count_cons_self] at this
    omega
  simp [Goroutine.pending, hsplit, hget, List.count_eq_zero.mp hrest]

/-- Past `wg.Done()`, only deferred closes are left. -/
theorem Goroutine.closes_left {g : Goroutine ε} {k : Nat} (h : g.pending (.ret k) = false) :
    ∀ d ∈ g.deferred.drop k, d = .close := by
  intro d hd
  cases d with
  | done => simp_all [Goroutine.pending]
  | close => rfl

theorem pendingAt_of {c : Transfer ε} {pcs : List (Pc ε)} {t : Nat} {g : Goroutine ε}
    {pc : Pc ε} (hg : c.goroutines[t]? = some g) (ht : pcs[t]? = some pc) :
    pendingAt c pcs t = g.pending pc := by
  simp [pendingAt, hg, ht]

theorem pendingAt_set_ne (c : Transfer ε) (pcs : List (Pc ε)) {t u : Nat} (pc : Pc ε)
    (h : u ≠ t) : pendingAt c (pcs.set t pc) u = pendingAt c pcs u := by
  simp [pendingAt, List.getElem?_set_ne (Ne.symm h)]

theorem pendingAt_set_self {c : Transfer ε} {pcs : List (Pc ε)} {t : Nat} {g : Goroutine ε}
    {pc₀ : Pc ε} (hg : c.goroutines[t]? = some g) (ht : pcs[t]? = some pc₀) (pc : Pc ε) :
    pendingAt c (pcs.set t pc) t = g.pending pc :=
  pendingAt_of hg (List.getElem?_set_self (List.getElem?_eq_some_iff.mp ht).1)

/-- A step that keeps goroutine `t` waited for, or not, keeps the barrier's set. -/
theorem waiting_set {c : Transfer ε} {pcs : List (Pc ε)} {t : Nat} {g : Goroutine ε}
    {pc pc' : Pc ε} (hg : c.goroutines[t]? = some g) (ht : pcs[t]? = some pc)
    (h : g.pending pc' = g.pending pc) : waiting c (pcs.set t pc') = waiting c pcs := by
  refine Finset.filter_congr fun u _ => ?_
  by_cases hu : u = t
  · subst hu
    rw [pendingAt_set_self hg ht, pendingAt_of hg ht, h]
  · rw [pendingAt_set_ne _ _ _ hu]

/-- `wg.Done()` of goroutine `t` takes it out of the barrier's set. -/
theorem waiting_set_done {c : Transfer ε} {pcs : List (Pc ε)} {t : Nat} {g : Goroutine ε}
    {pc pc' : Pc ε} (hg : c.goroutines[t]? = some g) (ht : pcs[t]? = some pc)
    (hp' : g.pending pc' = false) : waiting c (pcs.set t pc') = (waiting c pcs).erase t := by
  ext u
  by_cases hu : u = t
  · subst hu
    simp [waiting, pendingAt_set_self hg ht, hp']
  · simp [waiting, hu, pendingAt_set_ne _ _ _ hu]

theorem mem_waiting {c : Transfer ε} {pcs : List (Pc ε)} {t : Nat} {g : Goroutine ε}
    {pc : Pc ε} (hg : c.goroutines[t]? = some g) (ht : pcs[t]? = some pc)
    (hp : g.pending pc = true) : t ∈ waiting c pcs := by
  simp [waiting, pendingAt_of hg ht, hp, (List.getElem?_eq_some_iff.mp hg).1]

theorem rankAt_set_ne (c : Transfer ε) (pcs : List (Pc ε)) {t u : Nat} (pc : Pc ε)
    (h : u ≠ t) : rankAt c (pcs.set t pc) u = rankAt c pcs u := by
  simp [rankAt, List.getElem?_set_ne (Ne.symm h)]

/-- A step of goroutine `t` that lowers its rank lowers the sum of the ranks. -/
theorem sum_rankAt_set {c : Transfer ε} {pcs : List (Pc ε)} {t : Nat} {g : Goroutine ε}
    {pc pc' : Pc ε} (hg : c.goroutines[t]? = some g) (ht : pcs[t]? = some pc)
    (h : g.rank pc' < g.rank pc) :
    (Finset.range c.goroutines.length).sum (rankAt c (pcs.set t pc')) <
      (Finset.range c.goroutines.length).sum (rankAt c pcs) := by
  have hrank : rankAt c (pcs.set t pc') t < rankAt c pcs t := by
    simpa [rankAt, hg, ht, List.getElem?_set_self (List.getElem?_eq_some_iff.mp ht).1] using h
  refine Finset.sum_lt_sum (fun u _ => ?_) ⟨t, ?_, hrank⟩
  · by_cases hu : u = t
    · exact hu ▸ hrank.le
    · exact (rankAt_set_ne _ _ _ hu).le
  · simpa using (List.getElem?_eq_some_iff.mp hg).1

end Pending

/-! ## What one step can do -/

section StepCases

variable {ε : Type}

/-- **Everything a statement can do**: move its goroutine without touching the shared state,
    keeping it waited for or not and lowering its rank, a goroutine that returned staying
    returned; send on a channel with room and return; or run `wg.Done()` on a positive counter,
    the only step that takes a goroutine past the barrier. -/
theorem Goroutine.stepAt_cases {g : Goroutine ε} {cap : Nat} {w w' : World ε} {t : Nat}
    {o : Option ε} {pc : Pc ε} (h : g.stepAt cap w t o pc = some w') :
    (∃ pc', w' = w.setPc t pc' ∧ g.pending pc' = g.pending pc ∧ g.rank pc' < g.rank pc ∧
      (∀ k, pc = .ret k → ∃ k', pc' = .ret k') ∧ ∀ k', pc' = .ret k' → k' ≤ g.deferred.length) ∨
    (∃ e, pc = .send e ∧ w.chan.length < cap ∧
      w' = { w.setPc t (.ret 0) with chan := w.chan ++ [e], sent := w.sent ++ [(t, e)] }) ∨
    (∃ k n, pc = .ret k ∧ g.deferred[k]? = some .done ∧ w.counter = n + 1 ∧
      w' = { w.setPc t (.ret (k + 1)) with counter := n }) := by
  cases pc with
  | body k =>
    refine .inl ?_
    cases hk : g.body[k]? with
    | none =>
      simp only [Goroutine.stepAt, hk, Option.some.injEq] at h
      subst h
      have := List.getElem?_eq_none_iff.mp hk
      exact ⟨_, rfl, g.pending_ret_zero, by simp only [Goroutine.rank]; omega, by simp, by simp⟩
    | some s =>
      have := (List.getElem?_eq_some_iff.mp hk).1
      cases s <;> cases o <;> simp only [Goroutine.stepAt, hk, Option.some.injEq] at h <;>
        subst h <;> exact ⟨_, rfl, rfl, by simp only [Goroutine.rank]; omega, by simp, by simp⟩
  | send e =>
    simp only [Goroutine.stepAt] at h
    split at h
    · exact .inr (.inl ⟨e, rfl, ‹_›, (Option.some.inj h).symm⟩)
    · cases h
  | ret k =>
    simp only [Goroutine.stepAt] at h
    split at h
    · cases h
    · rename_i hk
      have := (List.getElem?_eq_some_iff.mp hk).1
      exact .inl ⟨_, (Option.some.inj h).symm, Goroutine.pending_close hk,
        by simp only [Goroutine.rank]; omega, fun _ _ => ⟨_, rfl⟩, fun _ h => by cases h; omega⟩
    · cases h
    · exact .inr (.inr ⟨k, _, rfl, ‹_›, ‹_›, (Option.some.inj h).symm⟩)

/-- Everything a step of the call can do: a statement of a goroutine (as above), or the
    caller's return once the counter is zero. -/
theorem step_cases {c : Transfer ε} {w w' : World ε} {a : Act ε} (h : step c w a = some w') :
    (∃ t o g pc, a = .run t o ∧ c.goroutines[t]? = some g ∧ w.pcs[t]? = some pc ∧
      g.stepAt c.cap w t o pc = some w') ∨
    (a = .wait ∧ w.counter = 0 ∧ w.result = none ∧
      w' = { w with chan := w.chan.tail, result := some w.chan.head? }) := by
  cases a with
  | run t o =>
    simp only [step] at h
    split at h
    · exact .inl ⟨t, o, _, _, rfl, ‹_›, ‹_›, h⟩
    · cases h
  | wait =>
    simp only [step] at h
    split at h
    · exact .inr ⟨rfl, ‹_›, ‹_›, (Option.some.inj h).symm⟩
    · cases h

end StepCases

/-! ## The invariant -/

section Invariant

variable {ε : Type}

/-- What holds in every state an interleaving reaches. -/
structure Inv (c : Transfer ε) (w : World ε) : Prop where
  length : w.pcs.length = c.goroutines.length
  /-- the counter counts the goroutines not yet past `wg.Done()` -/
  counter : w.counter = (waiting c w.pcs).card
  /-- until the caller's `select`, the channel holds every error sent, in order -/
  chan : w.result = none → w.chan = w.sent.map Prod.snd
  /-- no goroutine has sent twice -/
  nodup : (w.sent.map Prod.fst).Nodup
  /-- a goroutine that sent has returned -/
  sent_ret : ∀ p ∈ w.sent, ∃ k, w.pcs[p.1]? = some (.ret k)
  /-- a returning goroutine is at one of its deferred calls, or past the last -/
  ret_le : ∀ (t : Nat) (g : Goroutine ε) (k : Nat), c.goroutines[t]? = some g →
    w.pcs[t]? = some (.ret k) → k ≤ g.deferred.length
  /-- the call returned the first error sent, past the barrier -/
  result : ∀ r, w.result = some r → r = (w.sent.map Prod.snd).head? ∧ waiting c w.pcs = ∅

theorem Inv.start (c : Transfer ε) : Inv c (.start c) where
  length := by simp [World.start]
  counter := by
    refine ((congrArg Finset.card (Finset.filter_true_of_mem fun t ht => ?_)).trans
      (Finset.card_range _)).symm
    have ht := Finset.mem_range.mp ht
    simp only [World.start, pendingAt, List.getElem?_map, List.getElem?_eq_getElem ht,
      Option.map_some']
    rfl
  chan _ := rfl
  nodup := List.nodup_nil
  sent_ret := by simp [World.start]
  ret_le := by simp [World.start, List.getElem?_replicate]
  result := by simp [World.start]

theorem Inv.exists_goroutine {c : Transfer ε} {w : World ε} (hi : Inv c w) {t : Nat}
    {pc : Pc ε} (ht : w.pcs[t]? = some pc) : ∃ g, c.goroutines[t]? = some g :=
  ⟨_, List.getElem?_eq_getElem (hi.length ▸ (List.getElem?_eq_some_iff.mp ht).1)⟩

/-- While a goroutine is waited for, the call has not returned. -/
theorem Inv.result_none {c : Transfer ε} {w : World ε} (hi : Inv c w) {t : Nat}
    (ht : t ∈ waiting c w.pcs) : w.result = none := by
  cases hr : w.result with
  | none => rfl
  | some r => simp [(hi.result r hr).2] at ht

/-- Nothing is sent past the barrier: a goroutine about to send is waited for. -/
theorem Inv.send_waited {c : Transfer ε} {w : World ε} (hi : Inv c w) {t : Nat} {e : ε}
    (ht : w.pcs[t]? = some (.send e)) : t ∈ waiting c w.pcs :=
  mem_waiting (hi.exists_goroutine ht).choose_spec ht rfl

/-- **No send blocks**: while a goroutine is about to send, the others have sent at most once
    each, so `errorChan` has room. -/
theorem Inv.chan_room {c : Transfer ε} {w : World ε} (hi : Inv c w) {t : Nat} {e : ε}
    (ht : w.pcs[t]? = some (.send e)) : w.chan.length < c.cap := by
  have hlt : t < c.goroutines.length := hi.length ▸ (List.getElem?_eq_some_iff.mp ht).1
  have hsub : (w.sent.map Prod.fst).toFinset ⊆ (Finset.range c.goroutines.length).erase t := by
    intro u hu
    obtain ⟨p, hp, rfl⟩ := List.mem_map.mp (List.mem_toFinset.mp hu)
    obtain ⟨k, hk⟩ := hi.sent_ret p hp
    have hne : p.1 ≠ t := fun h => by simp [h, ht] at hk
    simpa [hne, ← hi.length] using (List.getElem?_eq_some_iff.mp hk).1
  have hcard := Finset.card_le_card hsub
  rw [List.toFinset_card_of_nodup hi.nodup, Finset.card_erase_of_mem (by simpa using hlt),
    Finset.card_range] at hcard
  have := c.room
  simp only [hi.chan (hi.result_none (hi.send_waited ht)), List.length_map] at hcard ⊢
  omega

/-- A send keeps the senders distinct: the goroutine sending has not sent before. -/
theorem Inv.not_sent {c : Transfer ε} {w : World ε} (hi : Inv c w) {t : Nat} {e : ε}
    (ht : w.pcs[t]? = some (.send e)) : t ∉ w.sent.map Prod.fst := by
  intro hmem
  obtain ⟨p, hp, rfl⟩ := List.mem_map.mp hmem
  obtain ⟨k, hk⟩ := hi.sent_ret p hp
  simp [ht] at hk

/-- Goroutine `t` moving from `pc` to `pc'`, a returned one staying returned: every goroutine
    that sent has still returned. -/
theorem sent_ret_set {pcs : List (Pc ε)} {sent : List (Nat × ε)} {t : Nat} {pc pc' : Pc ε}
    (ht : pcs[t]? = some pc) (hret : ∀ k, pc = .ret k → ∃ k', pc' = .ret k')
    (hs : ∀ p ∈ sent, ∃ k, pcs[p.1]? = some (.ret k)) :
    ∀ p ∈ sent, ∃ k, (pcs.set t pc')[p.1]? = some (.ret k) := by
  intro p hp
  obtain ⟨k, hk⟩ := hs p hp
  by_cases hpt : p.1 = t
  · obtain ⟨k', rfl⟩ := hret k (by simpa [hpt, ht] using hk)
    exact ⟨k', by simp [hpt, List.getElem?_set_self (List.getElem?_eq_some_iff.mp ht).1]⟩
  · exact ⟨k, by simp [List.getElem?_set_ne (Ne.symm hpt), hk]⟩

/-- Goroutine `t` moving to a place within its deferred calls keeps every returning goroutine
    within them. -/
theorem ret_le_set {c : Transfer ε} {pcs : List (Pc ε)} {t : Nat} {g : Goroutine ε}
    {pc pc' : Pc ε} (hg : c.goroutines[t]? = some g) (ht : pcs[t]? = some pc)
    (h' : ∀ k, pc' = .ret k → k ≤ g.deferred.length)
    (hb : ∀ (u : Nat) (g : Goroutine ε) (k : Nat), c.goroutines[u]? = some g →
      pcs[u]? = some (.ret k) → k ≤ g.deferred.length) :
    ∀ (u : Nat) (g' : Goroutine ε) (k : Nat), c.goroutines[u]? = some g' →
      (pcs.set t pc')[u]? = some (.ret k) → k ≤ g'.deferred.length := by
  intro u g' k hg' hu
  by_cases hut : u = t
  · subst hut
    obtain rfl := Option.some.inj (hg'.symm.trans hg)
    rw [List.getElem?_set_self (List.getElem?_eq_some_iff.mp ht).1] at hu
    exact h' k (Option.some.inj hu)
  · exact hb u g' k hg' (by rwa [List.getElem?_set_ne (Ne.symm hut)] at hu)

/-- One statement of goroutine `t` keeps the invariant. -/
theorem Inv.after_stepAt {c : Transfer ε} {w w' : World ε} (hi : Inv c w) {t : Nat}
    {o : Option ε} {g : Goroutine ε} {pc : Pc ε} (hg : c.goroutines[t]? = some g)
    (ht : w.pcs[t]? = some pc) (h : g.stepAt c.cap w t o pc = some w') : Inv c w' := by
  have hlt : t < w.pcs.length := (List.getElem?_eq_some_iff.mp ht).1
  rcases Goroutine.stepAt_cases h with ⟨pc', rfl, hp, -, hret, hle⟩ | ⟨e, rfl, -, rfl⟩ |
    ⟨k, n, rfl, hd, hn, rfl⟩
  · -- a move of `t` alone
    refine ⟨by simp [hi.length], by simp [waiting_set hg ht hp, hi.counter], hi.chan, hi.nodup,
      sent_ret_set ht hret hi.sent_ret, ret_le_set hg ht hle hi.ret_le, fun r hr => ?_⟩
    simpa [waiting_set hg ht hp] using hi.result r hr
  · -- a send
    have hroom := waiting_set hg ht (g.pending_ret_zero.trans rfl)
    refine ⟨by simp [World.setPc, hi.length], by simp [World.setPc, hroom, hi.counter],
      fun hr => by simp [hi.chan hr], ?_, fun p hp => ?_, ret_le_set hg ht (by simp) hi.ret_le,
      fun r hr => ?_⟩
    · simp only [World.setPc, List.map_append, List.map_cons, List.map_nil]
      exact hi.nodup.append (List.nodup_singleton _) (List.disjoint_singleton.mpr (hi.not_sent ht))
    · rcases List.mem_append.mp hp with hp | hp
      · exact sent_ret_set ht (by simp) hi.sent_ret p hp
      · obtain rfl := List.mem_singleton.mp hp
        exact ⟨0, by simp [List.getElem?_set_self hlt]⟩
    · simp [World.setPc, hi.result_none (hi.send_waited ht)] at hr
  · -- `wg.Done()`
    obtain ⟨hp, hp'⟩ := Goroutine.pending_done hd
    have hmem := mem_waiting hg ht hp
    refine ⟨by simp [World.setPc, hi.length], ?_, hi.chan, hi.nodup,
      sent_ret_set ht (fun _ _ => ⟨_, rfl⟩) hi.sent_ret,
      ret_le_set hg ht (fun _ h => by cases h; exact (List.getElem?_eq_some_iff.mp hd).1) hi.ret_le,
      fun r hr => ?_⟩
    · simp only [World.setPc, waiting_set_done hg ht hp', Finset.card_erase_of_mem hmem,
        ← hi.counter, hn]
      rfl
    · simp [World.setPc, hi.result_none hmem] at hr

/-- **Every step keeps the invariant.** -/
theorem Inv.after_step {c : Transfer ε} {w w' : World ε} {a : Act ε} (hi : Inv c w)
    (h : step c w a = some w') : Inv c w' := by
  rcases step_cases h with ⟨t, o, g, pc, rfl, hg, ht, h⟩ | ⟨rfl, h0, hr, rfl⟩
  · exact hi.after_stepAt hg ht h
  · have hempty : waiting c w.pcs = ∅ := Finset.card_eq_zero.mp (hi.counter ▸ h0)
    exact ⟨hi.length, hi.counter, by simp, hi.nodup, hi.sent_ret, hi.ret_le,
      fun r hr' => ⟨by simp_all [hi.chan hr], hempty⟩⟩

theorem Reachable.inv {c : Transfer ε} {w : World ε} (hw : Reachable c w) : Inv c w := by
  induction hw with
  | start => exact .start c
  | step _ _ h ih => exact ih.after_step h

end Invariant

/-! ## What every interleaving guarantees -/

section Reports

variable {ε : Type}

/-- Every step lowers the measure: no interleaving is infinite. -/
theorem step_measure {c : Transfer ε} {w w' : World ε} {a : Act ε} (h : step c w a = some w') :
    w'.measure c < w.measure c := by
  rcases step_cases h with ⟨t, o, g, pc, rfl, hg, ht, h⟩ | ⟨rfl, -, hr, rfl⟩
  · obtain ⟨hres, hsum⟩ : w'.result = w.result ∧
        (Finset.range c.goroutines.length).sum (rankAt c w'.pcs) <
          (Finset.range c.goroutines.length).sum (rankAt c w.pcs) := by
      rcases Goroutine.stepAt_cases h with ⟨pc', rfl, -, hrank, -⟩ | ⟨e, rfl, -, rfl⟩ |
        ⟨k, n, rfl, hd, -, rfl⟩
      · exact ⟨rfl, sum_rankAt_set hg ht hrank⟩
      · exact ⟨rfl, sum_rankAt_set hg ht (by simp [Goroutine.rank])⟩
      · have := (List.getElem?_eq_some_iff.mp hd).1
        exact ⟨rfl, sum_rankAt_set hg ht (by simp only [Goroutine.rank]; omega)⟩
    simp only [World.measure, hres]
    omega
  · simp [World.measure, hr]

/-- While the call has not returned, some step can be taken. -/
theorem Inv.progress {c : Transfer ε} {w : World ε} (hi : Inv c w) (hr : w.result = none) :
    ∃ a w', step c w a = some w' := by
  cases hc : w.counter with
  | zero => exact ⟨.wait, Option.isSome_iff_exists.mp (by simp [step, hc, hr])⟩
  | succ n =>
    obtain ⟨t, ht⟩ : (waiting c w.pcs).Nonempty :=
      Finset.card_pos.mp (by rw [← hi.counter, hc]; exact Nat.succ_pos n)
    simp only [waiting, Finset.mem_filter, Finset.mem_range] at ht
    obtain ⟨pc, hpc⟩ : ∃ pc, w.pcs[t]? = some pc :=
      ⟨_, List.getElem?_eq_getElem (hi.length ▸ ht.1)⟩
    obtain ⟨g, hg⟩ := hi.exists_goroutine hpc
    have hp : g.pending pc = true := by simpa [pendingAt_of hg hpc] using ht.2
    refine ⟨.run t none, ?_⟩
    simp only [step, hg, hpc]
    cases pc with
    | body k => cases hk : g.body[k]? <;> simp [Goroutine.stepAt, hk]
    | send e => simp [Goroutine.stepAt, hi.chan_room hpc]
    | ret k =>
      have hk : k < g.deferred.length := by
        by_contra hk
        simp [Goroutine.pending, List.drop_eq_nil_of_le (Nat.not_lt.mp hk)] at hp
      cases hd : g.deferred[k] <;>
        simp [Goroutine.stepAt, List.getElem?_eq_getElem hk, hd, hc]

/-- What every interleaving of a call's goroutines guarantees in the state `w` it reached. -/
structure Reports (c : Transfer ε) (w : World ε) : Prop where
  /-- Each goroutine sends at most one error. -/
  at_most_once : (w.sent.map Prod.fst).Nodup
  /-- No send blocks. -/
  send_proceeds : ∀ t e o, w.pcs[t]? = some (.send e) → ∃ w', step c w (.run t o) = some w'
  /-- Until the call returns, some step can be taken ... -/
  progress : w.result = none → ∃ a w', step c w a = some w'
  /-- ... and every step lowers the measure, so every interleaving ends with the call returned. -/
  decreases : ∀ a w', step c w a = some w' → w'.measure c < w.measure c
  /-- Past the barrier every goroutine has returned from its body, sends included, and run
      `wg.Done()`: only deferred closes are left. -/
  barrier : w.result ≠ none → ∀ (t : Nat) (g : Goroutine ε) (pc : Pc ε),
    c.goroutines[t]? = some g → w.pcs[t]? = some pc →
    ∃ k ≤ g.deferred.length, pc = .ret k ∧ ∀ d ∈ g.deferred.drop k, d = .close
  /-- The call returns `nil` when no goroutine sent, and the first error sent otherwise ... -/
  returns : ∀ r, w.result = some r → r = (w.sent.map Prod.snd).head?
  /-- ... and no error is sent after it returned. -/
  final : w.result ≠ none → ∀ a w', step c w a = some w' → w'.sent = w.sent

theorem Inv.reports {c : Transfer ε} {w : World ε} (hi : Inv c w) : Reports c w where
  at_most_once := hi.nodup
  send_proceeds t e o ht := by
    obtain ⟨g, hg⟩ := hi.exists_goroutine ht
    exact Option.isSome_iff_exists.mp (by simp [step, hg, ht, Goroutine.stepAt, hi.chan_room ht])
  progress := hi.progress
  decreases _ _ := step_measure
  barrier hr t g pc hg ht := by
    have hp : g.pending pc = false := by
      by_contra hp
      exact hr (hi.result_none (mem_waiting hg ht (by simpa using hp)))
    cases pc with
    | body k => simp [Goroutine.pending] at hp
    | send e => simp [Goroutine.pending] at hp
    | ret k => exact ⟨k, hi.ret_le t g k hg ht, rfl, Goroutine.closes_left hp⟩
  returns r hr := (hi.result r hr).1
  final hr a w' h := by
    rcases step_cases h with ⟨t, o, g, pc, -, hg, ht, h⟩ | ⟨-, -, hr', -⟩
    · rcases Goroutine.stepAt_cases h with ⟨pc', rfl, -⟩ | ⟨e, rfl, -, rfl⟩ | ⟨k, n, -, -, -, rfl⟩
      · rfl
      · exact absurd (hi.result_none (hi.send_waited ht)) hr
      · rfl
    · exact absurd hr' hr

end Reports

/-! ## Upload and Download -/

section Calls

variable {ε : Type}

/-- At the barrier, a goroutine whose `wg.Done()` is its last deferred call has exited. -/
theorem exited_of_done_last {g : Goroutine ε} {k : Nat} (hk : k ≤ g.deferred.length)
    (hlast : g.deferred.getLast? = some .done) (hcl : ∀ d ∈ g.deferred.drop k, d = .close) :
    k = g.deferred.length := by
  by_contra hne
  have hdrop : (g.deferred.drop k).getLast? = some .done := by
    rw [List.getLast?_drop, if_neg (by omega), hlast]
  exact absurd (hcl _ (List.mem_of_getLast?_eq_some hdrop)) (by decide)

/-- **Upload and Download report the first error**: over every interleaving of their goroutines
    and every outcome of their calls, `Reports` holds. At the return, Download's goroutines have
    all exited, and so has Upload's remote `scp`; Upload's writer has exited or is about to run
    `w.Close()`. -/
theorem copy_calls_report (errInvalidMessageLength : ε) :
    (∀ w : World ε, Reachable upload w → Reports upload w ∧
      (w.result ≠ none → w.pcs = [.ret 1, .ret 1] ∨ w.pcs = [.ret 2, .ret 1])) ∧
    (∀ w : World ε, Reachable (download errInvalidMessageLength) w →
      Reports (download errInvalidMessageLength) w ∧
      (w.result ≠ none → w.pcs = [.ret 2, .ret 1, .ret 1])) := by
  refine ⟨fun w hw => ⟨hw.inv.reports, fun hr => ?_⟩, fun w hw => ⟨hw.inv.reports, fun hr => ?_⟩⟩
  · obtain ⟨p₀, p₁, hpcs⟩ := List.length_eq_two.mp hw.inv.length
    obtain ⟨k₀, hk₀, rfl, hcl₀⟩ := hw.inv.reports.barrier hr 0 uploadWriter p₀ rfl (by simp [hpcs])
    obtain ⟨k₁, hk₁, rfl, hcl₁⟩ := hw.inv.reports.barrier hr 1 remoteScp p₁ rfl (by simp [hpcs])
    have h₁ := exited_of_done_last hk₁ rfl hcl₁
    simp only [uploadWriter, remoteScp, List.length_cons, List.length_nil] at hk₀ h₁ hcl₀
    subst h₁
    have h₀ : k₀ ≠ 0 := by
      rintro rfl
      simp at hcl₀
    rcases (by omega : k₀ = 1 ∨ k₀ = 2) with rfl | rfl
    · exact .inl hpcs
    · exact .inr hpcs
  · obtain ⟨p₀, p₁, p₂, hpcs⟩ := List.length_eq_three.mp hw.inv.length
    obtain ⟨k₀, hk₀, rfl, hcl₀⟩ := hw.inv.reports.barrier hr 0 ackWriter p₀ rfl (by simp [hpcs])
    obtain ⟨k₁, hk₁, rfl, hcl₁⟩ :=
      hw.inv.reports.barrier hr 1 (dataReader errInvalidMessageLength) p₁ rfl (by simp [hpcs])
    obtain ⟨k₂, hk₂, rfl, hcl₂⟩ := hw.inv.reports.barrier hr 2 remoteScp p₂ rfl (by simp [hpcs])
    rw [hpcs, exited_of_done_last hk₀ rfl hcl₀, exited_of_done_last hk₁ rfl hcl₁,
      exited_of_done_last hk₂ rfl hcl₂]
    rfl

/-- **Upload returns before its writer closes.** The remote `scp -t` exits with an error (a
    directory it cannot write), sends it and runs `wg.Done()`; the writer's `io.Copy` then meets
    the closed session and sends `EOF`, and the writer runs `wg.Done()`. The caller passes the
    barrier and returns the remote's error while the writer has still to run its deferred
    `w.Close()` (deferred call 1). -/
theorem upload_returns_before_writer_closes :
    ∃ w, Reachable (upload : Transfer String) w ∧
      w.sent = [(1, "Process exited with status 1"), (0, "EOF")] ∧
      w.result = some (some "Process exited with status 1") ∧ w.pcs = [.ret 1, .ret 1] := by
  obtain ⟨w, hw, h⟩ := exists_reachable_of_run (upload : Transfer String)
    ([.run 1 (some "Process exited with status 1"), .run 1 none, .run 1 none,
      .run 0 none, .run 0 (some "EOF"), .run 0 none, .run 0 none, .wait])
    (p := fun w => decide (w.sent = [(1, "Process exited with status 1"), (0, "EOF")] ∧
      w.result = some (some "Process exited with status 1") ∧ w.pcs = [.ret 1, .ret 1]))
    (by decide)
  exact ⟨w, hw, of_decide_eq_true h⟩

end Calls

end Forge.Copy
