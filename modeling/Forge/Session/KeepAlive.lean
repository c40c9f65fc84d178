/-
  What a `keepAlive` goroutine does once `client.close` has been cleared.

  1. **Every turn** (`keepAlive_turns`) — at the top of its loop with `client.close` at `nil`,
     the goroutine's `select` reads `nil`, whose close case can never fire (a receive from a
     `nil` channel never proceeds), so it sends as many requests as succeed: one turn by
     `keepAlive_turn`, every turn by induction.

  2. **After a `Disconnect`** (`keepAlive_outlives_disconnect`) — every `Disconnect` that
     closes a channel ends by setting `client.close` to `nil`. A `keepAlive` goroutine that
     evaluates its `select` after that, whether it had not yet reached it or was inside
     `SendRequest`, waits on the ticker alone and keeps sending requests after that
     `Disconnect` has returned. A concrete interleaving shows the whole schedule from the
     client's zero value.
-/
import Forge.Session.Client

namespace Forge.Session

/-- One turn of the loop with `client.close` at `nil`: the `select` reads `nil`, the ticker
    fires, the request is begun and succeeds. -/
theorem keepAlive_turn (cfg : Config) {w : World} {t : Nat}
    (ht : w.threads[t]? = some .keepAlive) (hc : w.close = none) :
    runActs cfg w [.run t true, .run t true, .run t true] =
      some { w with log := w.log ++ [.request t] } := by
  have hl := (List.getElem?_eq_some_iff.1 ht).1
  have hback : w.threads.set t .keepAlive = w.threads := congrArg World.threads (World.setPc_self ht)
  simp [runActs, step, ht, stepAt, hc, World.setPc, hl, hback]

/-- **A cleared field never stops a `keepAlive` goroutine**: at the top of its loop with
    `client.close` at `nil`, it begins one request per tick for as long as its requests
    succeed, and nothing else changes. -/
theorem keepAlive_turns (cfg : Config) {t : Nat} :
    ∀ (n : Nat) {w : World}, w.threads[t]? = some .keepAlive → w.close = none →
      runActs cfg w (List.replicate n [.run t true, .run t true, .run t true]).flatten =
        some { w with log := w.log ++ List.replicate n (.request t) }
  | 0, w, _, _ => by simp [runActs]
  | n + 1, w, ht, hc => by
    rw [List.replicate_succ, List.flatten_cons, runActs_append, keepAlive_turn cfg ht hc,
      Option.some_bind, keepAlive_turns cfg n (w := { w with log := w.log ++ [.request t] }) ht hc]
    simp [List.replicate_succ]

/-- **`Disconnect` does not stop a `keepAlive` goroutine that has not yet evaluated its
    `select`**: from any state where one goroutine is about to clear `client.close` and a
    `keepAlive` goroutine is at the top of its loop, the `Disconnect` returns, and then the
    `keepAlive` goroutine begins `n` requests, for every `n`. -/
theorem keepAlive_outlives_disconnect (cfg : Config) {w : World} {d k : Nat}
    (hd : w.threads[d]? = some .disconnectClear) (hk : w.threads[k]? = some .keepAlive) (n : Nat) :
    ∃ w', runActs cfg w (.run d true :: (List.replicate n [.run k true, .run k true, .run k true]).flatten) =
      some w' ∧ w'.log = w.log ++ .disconnected d :: List.replicate n (.request k) := by
  have hdk : d ≠ k := by rintro rfl; simp [hd] at hk
  have hk' : (w.threads.set d .done)[k]? = some .keepAlive := by
    rw [List.getElem?_set_ne hdk, hk]
  have hrun := keepAlive_turns cfg n
    (w := { w.setPc d .done with close := none, owner := none, log := w.log ++ [.disconnected d] })
    hk' rfl
  exact ⟨_, by simp only [runActs, step, hd, Option.some_bind, stepAt]; exact hrun, by simp⟩

/-- The client with a password and a keepalive every second. -/
def keepAliveClient : Config := ⟨some ⟨"u", "p", ""⟩, false, 1⟩

/-- From the client's zero value: `Connect` (goroutine 0) makes channel `0` and starts
    `keepAlive` (goroutine 1); a `Disconnect` (goroutine 2) closes channel `0`, clears the field
    and returns; goroutine 1 then creates its ticker, reaches its `select`, reads `nil`, and its
    tick begins a request. -/
theorem keepAlive_requests_after_disconnect :
    ∃ w, Reachable keepAliveClient w ∧
      w.log = [.made 0, .closed 0, .disconnected 2, .request 1] := by
  obtain ⟨w, hw, h⟩ := exists_reachable_of_run keepAliveClient
    [.callConnect, .run 0 true, .run 0 true, .run 0 true, .callDisconnect, .run 2 true,
      .run 2 true, .run 2 true, .run 1 true, .run 1 true, .run 1 true]
    (p := fun w => w.log == [.made 0, .closed 0, .disconnected 2, .request 1]) (by decide)
  exact ⟨w, hw, by simpa using h⟩

end Forge.Session
