/-
  The goroutines of one `SSHClient` (`pkg/ssh`): calls of `Connect` and `Disconnect`, and the
  `keepAlive` goroutines that `Connect` starts, interleaved in every order.

  1. **State** — `World`: the client's shared fields `cryptoClient` and `close`, the channels
     `make(chan bool, 1)` has created (numbered in order) and those closed, the holder of
     `closeMutex`, every goroutine's place in its code (`Pc`), and a log of what happened.

  2. **Steps** — `step`: one atomic step of one goroutine, or a new call. A step is one Go
     statement that touches shared state, with the purely local statements around it. Where the
     code has a choice the environment makes it (`Act.run`'s `b`): whether `dial` succeeds,
     which ready case a `select` takes, whether `SendRequest` succeeds. A goroutine that cannot
     move (waiting for `closeMutex`, or blocked in `keepAlive`'s `select`) has no step.

  3. **Runs** — `Reachable`: every state some interleaving reaches from the client's zero
     value; `runActs` replays one interleaving.

  The source's points that matter: `Disconnect`'s `select` reads `client.close` without the
  mutex; `close(client.close)` and `client.close = nil` are two statements under the mutex;
  `keepAlive`'s `select` reads `client.close` again at every turn of its loop, and a receive
  from a `nil` channel never proceeds. Three statements can panic: `close` of a closed channel,
  `Validate`'s first read through a `nil` `client.Creds`, and `time.NewTicker` on the interval
  `time.Duration(KeepAlive) * time.Second`, which wraps to `≤ 0` for some large `KeepAlive`. The
  model marks the goroutine that panics and lets the others run on, so its runs include every
  run of the program up to the panic.
-/
import Mathlib.Data.List.Basic

namespace Forge.Session

/-- The errors `Connect` and `WaitForSSH` return. -/
inductive SshErr where
  /-- `ErrInvalidUsername` -/
  | invalidUsername
  /-- `ErrInvalidAuth` -/
  | invalidAuth
  /-- the error of `readPrivateKey` -/
  | privateKey
  /-- the error of `dial` -/
  | dial
  /-- `ErrTimeout`, of `WaitForSSH` -/
  | timeout
  deriving DecidableEq, Repr

/-- `Credentials`, the fields `Connect` reads (`mu` guards only the setters and getters). -/
structure Credentials where
  sshUser : String
  sshPassword : String
  sshPrivateKey : String
  deriving DecidableEq, Repr

/-- What `Connect` and `keepAlive` read besides the shared fields: `client.Creds` (`none` is
    `nil`), whether `readPrivateKey` accepts the key, and `Options.KeepAlive`, a Go `int`. -/
structure Config where
  creds : Option Credentials
  keyParses : Bool
  keepAlive : Int
  deriving DecidableEq, Repr

/-- `Validate` on `*client.Creds`: a username, and a password or a key. -/
def validate (creds : Credentials) : Option SshErr :=
  if creds.sshUser = "" then some .invalidUsername
  else if creds.sshPassword = "" ∧ creds.sshPrivateKey = "" then some .invalidAuth
  else none

/-- `Connect` before `dial`, on `*client.Creds`: `Validate`, then the auth method, the private
    key first. -/
def connectAuth (cfg : Config) (creds : Credentials) : Option SshErr :=
  match validate creds with
  | some e => some e
  | none => if creds.sshPrivateKey ≠ "" ∧ cfg.keyParses = false then some .privateKey else none

/-- `time.Duration(client.Options.KeepAlive) * time.Second`, in nanoseconds: Go's `int64`
    product, wrapped to `[-2^63, 2^63)`. -/
def tickerInterval (keepAlive : Int) : Int :=
  (keepAlive * 1000000000 + 9223372036854775808) % 18446744073709551616 - 9223372036854775808

/-- Below `9223372037` seconds the product does not wrap. -/
theorem tickerInterval_of_lt {k : Int} (h0 : 0 ≤ k) (h : k < 9223372037) :
    tickerInterval k = k * 1000000000 := by
  unfold tickerInterval
  omega

/-- At `9223372037` seconds it wraps below zero. -/
example : tickerInterval 9223372037 < 0 := by decide

/-- Why a goroutine panicked: the Go runtime's three messages. -/
inductive Panic where
  /-- `close of closed channel` -/
  | closeOfClosedChannel
  /-- `invalid memory address or nil pointer dereference`, reading through `client.Creds` -/
  | nilPointerDereference
  /-- `non-positive interval for NewTicker` -/
  | nonPositiveInterval
  deriving DecidableEq, Repr

/-- Where a goroutine is in the code of `Connect`, `Disconnect` or `keepAlive`. -/
inductive Pc where
  /-- `Connect` called: about to validate, pick the auth method and `dial`. -/
  | connect
  /-- `Connect` stored `client.cryptoClient = c`; at `closeMutex.Lock()`. -/
  | connectLock
  /-- `Connect` holds `closeMutex` and has ensured `client.close`; about to start `keepAlive`,
      return and unlock. -/
  | connectSpawn
  /-- `Disconnect` called: about to evaluate `select { case <-client.close: default: }`. -/
  | disconnect
  /-- `Disconnect` took `default`; at `closeMutex.Lock()`. -/
  | disconnectLock
  /-- `Disconnect` holds `closeMutex` and has run `close(client.close)`; about to set the
      field to `nil`, return and unlock. -/
  | disconnectClear
  /-- `keepAlive` called: about to run `t := time.NewTicker(…)`. -/
  | keepAliveTicker
  /-- `keepAlive` at the top of its loop, about to evaluate its `select`. -/
  | keepAlive
  /-- `keepAlive` blocked in its `select` on the ticker and on the channel `ch` it read. -/
  | keepAliveWait (ch : Option Nat)
  /-- `keepAlive` inside `SendRequest`. -/
  | keepAliveSend
  /-- Returned. -/
  | done
  /-- Panicked, for the reason `p`. -/
  | panicked (p : Panic)
  deriving DecidableEq, Repr

/-- What happened, in the log. -/
inductive Event where
  /-- `make(chan bool, 1)` created channel `c`. -/
  | made (c : Nat)
  /-- `close` closed channel `c`. -/
  | closed (c : Nat)
  /-- The `Disconnect` of goroutine `t` returned. -/
  | disconnected (t : Nat)
  /-- The `keepAlive` goroutine `t` began a `SendRequest`. -/
  | request (t : Nat)
  deriving DecidableEq, Repr

/-- One client and its goroutines. -/
structure World where
  /-- `client.cryptoClient`: the goroutine whose `dial` returned it, or `nil`. -/
  conn : Option Nat
  /-- `client.close` -/
  close : Option Nat
  /-- The channels made so far are `0, …, made - 1`. -/
  made : Nat
  /-- The channels closed so far, in order. -/
  closed : List Nat
  /-- The goroutine holding `closeMutex`. -/
  owner : Option Nat
  /-- Every goroutine's place, by number. -/
  threads : List Pc
  /-- What happened, oldest first. -/
  log : List Event
  deriving DecidableEq, Repr

/-- The client before any call: every field at its zero value. -/
def World.init : World := ⟨none, none, 0, [], none, [], []⟩

/-- Goroutine `t` moves to `pc`. -/
def World.setPc (w : World) (t : Nat) (pc : Pc) : World := { w with threads := w.threads.set t pc }

/-- New goroutines start at `pcs`. -/
def World.spawn (w : World) (pcs : List Pc) : World := { w with threads := w.threads ++ pcs }

@[simp] theorem World.setPc_conn (w : World) (t : Nat) (pc : Pc) : (w.setPc t pc).conn = w.conn := rfl
@[simp] theorem World.setPc_close (w : World) (t : Nat) (pc : Pc) : (w.setPc t pc).close = w.close := rfl
@[simp] theorem World.setPc_made (w : World) (t : Nat) (pc : Pc) : (w.setPc t pc).made = w.made := rfl
@[simp] theorem World.setPc_closed (w : World) (t : Nat) (pc : Pc) :
    (w.setPc t pc).closed = w.closed := rfl
@[simp] theorem World.setPc_owner (w : World) (t : Nat) (pc : Pc) : (w.setPc t pc).owner = w.owner := rfl
@[simp] theorem World.setPc_log (w : World) (t : Nat) (pc : Pc) : (w.setPc t pc).log = w.log := rfl
/-- A goroutine moved to where it already is leaves the world as it was. -/
theorem World.setPc_self {w : World} {t : Nat} {pc : Pc} (h : w.threads[t]? = some pc) :
    w.setPc t pc = w := by
  suffices w.threads.set t pc = w.threads by simp [World.setPc, this]
  refine List.ext_getElem? fun n => ?_
  rw [List.getElem?_set]
  split
  · subst_vars; simp [h, (List.getElem?_eq_some_iff.1 h).1]
  · rfl

@[simp] theorem World.spawn_conn (w : World) (pcs : List Pc) : (w.spawn pcs).conn = w.conn := rfl
@[simp] theorem World.spawn_close (w : World) (pcs : List Pc) : (w.spawn pcs).close = w.close := rfl
@[simp] theorem World.spawn_made (w : World) (pcs : List Pc) : (w.spawn pcs).made = w.made := rfl
@[simp] theorem World.spawn_closed (w : World) (pcs : List Pc) : (w.spawn pcs).closed = w.closed := rfl
@[simp] theorem World.spawn_owner (w : World) (pcs : List Pc) : (w.spawn pcs).owner = w.owner := rfl
@[simp] theorem World.spawn_log (w : World) (pcs : List Pc) : (w.spawn pcs).log = w.log := rfl

/-- A new call, or the next step of goroutine `t` with the environment's choice `b`. -/
inductive Act where
  | callConnect
  | callDisconnect
  | run (t : Nat) (b : Bool)
  deriving DecidableEq, Repr

/-- The next step of goroutine `t`, at `pc`; `none` when it cannot move. -/
def stepAt (cfg : Config) (w : World) (t : Nat) (b : Bool) : Pc → Option World
  | .connect =>
    match cfg.creds with
    -- `Validate` reads `client.Creds.SSHUser`
    | none => some (w.setPc t (.panicked .nilPointerDereference))
    -- `Validate`, `getAuth`, `dial`; on success `client.cryptoClient = c`
    | some creds =>
      if connectAuth cfg creds = none ∧ b = true then
        some { w.setPc t .connectLock with conn := some t }
      else some (w.setPc t .done)
  | .connectLock =>
    -- `closeMutex.Lock()`; `if client.close == nil { client.close = make(chan bool, 1) }`
    if w.owner = none then
      match w.close with
      | none => some { w.setPc t .connectSpawn with
          close := some w.made, made := w.made + 1, owner := some t, log := w.log ++ [.made w.made] }
      | some _ => some { w.setPc t .connectSpawn with owner := some t }
    else none
  | .connectSpawn =>
    -- `if client.Options.KeepAlive > 0 { go client.keepAlive() }`; `return nil`; unlock
    some { (w.setPc t .done).spawn (if 0 < cfg.keepAlive then [.keepAliveTicker] else []) with
      owner := none }
  | .disconnect =>
    -- `select { case <-client.close: default: }`, with `client.close` read unlocked
    match w.close with
    | some c => if c ∈ w.closed then some { w.setPc t .done with log := w.log ++ [.disconnected t] }
      else some (w.setPc t .disconnectLock)
    | none => some (w.setPc t .disconnectLock)
  | .disconnectLock =>
    -- `closeMutex.Lock()`; `if client.close != nil { close(client.close)`
    if w.owner = none then
      match w.close with
      | none => some { w.setPc t .done with log := w.log ++ [.disconnected t] }
      | some c => if c ∈ w.closed then some (w.setPc t (.panicked .closeOfClosedChannel))
        else some { w.setPc t .disconnectClear with
          closed := w.closed ++ [c], owner := some t, log := w.log ++ [.closed c] }
    else none
  | .disconnectClear =>
    -- `client.close = nil }`; return; unlock
    some { w.setPc t .done with close := none, owner := none, log := w.log ++ [.disconnected t] }
  | .keepAliveTicker =>
    -- `NewTicker` panics on an interval `≤ 0`
    if 0 < tickerInterval cfg.keepAlive then some (w.setPc t .keepAlive)
    else some (w.setPc t (.panicked .nonPositiveInterval))
  | .keepAlive =>
    -- the `select` evaluates `client.close` and blocks
    some (w.setPc t (.keepAliveWait w.close))
  | .keepAliveWait ch =>
    -- the ticker's case (`b`), or the close case once the channel read is closed
    if b then some { w.setPc t .keepAliveSend with log := w.log ++ [.request t] }
    else match ch with
      | some c => if c ∈ w.closed then some (w.setPc t .done) else none
      | none => none
  | .keepAliveSend =>
    -- `SendRequest` returns: loop on success, return on error
    some (w.setPc t (if b then .keepAlive else .done))
  | .done => none
  | .panicked _ => none

/-- One step of the client. -/
def step (cfg : Config) (w : World) : Act → Option World
  | .callConnect => some (w.spawn [.connect])
  | .callDisconnect => some (w.spawn [.disconnect])
  | .run t b => w.threads[t]?.bind (stepAt cfg w t b)

/-- The states some interleaving reaches. -/
inductive Reachable (cfg : Config) : World → Prop
  | init : Reachable cfg World.init
  | step {w w' : World} (a : Act) : Reachable cfg w → step cfg w a = some w' → Reachable cfg w'

/-- Replays an interleaving. -/
def runActs (cfg : Config) : World → List Act → Option World
  | w, [] => some w
  | w, a :: as => (step cfg w a).bind fun w' => runActs cfg w' as

theorem runActs_append (cfg : Config) :
    ∀ (w : World) (as bs : List Act),
      runActs cfg w (as ++ bs) = (runActs cfg w as).bind fun w' => runActs cfg w' bs
  | w, [], bs => rfl
  | w, a :: as, bs => by
    simp only [List.cons_append, runActs]
    cases step cfg w a with
    | none => rfl
    | some w' => exact runActs_append cfg w' as bs

theorem runActs_reachable {cfg : Config} :
    ∀ {w w' : World} (as : List Act), Reachable cfg w → runActs cfg w as = some w' →
      Reachable cfg w'
  | w, w', [], hw, h => by cases h; exact hw
  | w, w', a :: as, hw, h => by
    simp only [runActs, Option.bind_eq_some] at h
    obtain ⟨w₁, h₁, h₂⟩ := h
    exact runActs_reachable as (.step a hw h₁) h₂

/-- A replayed interleaving whose last state satisfies `p` shows a reachable state that does. -/
theorem exists_reachable_of_run (cfg : Config) (as : List Act) {p : World → Bool}
    (h : (runActs cfg World.init as).map p = some true) : ∃ w, Reachable cfg w ∧ p w = true := by
  cases hr : runActs cfg World.init as with
  | none => simp [hr] at h
  | some w =>
    simp only [hr, Option.map_some', Option.some.injEq] at h
    exact ⟨w, runActs_reachable as .init hr, h⟩

end Forge.Session
