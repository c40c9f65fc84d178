/-
  The `bufio.Reader` that the Download reader task wraps around the session's stdout pipe, and
  the two calls it makes on it: `ReadString('\n')` and `io.CopyN(dst, dr, length)`.

  1. **State** — `BufReader`: the bytes `bufio` has buffered and not handed out yet, and the
     pipe's remaining reads in order; `io.EOF` follows the last one. A "split of the stream
     into reads" is exactly the choice of `pipe`, so every theorem below quantifies over it.

  2. **Program** — `readStringAux` searches the buffer for the delimiter and refills from the
     pipe until it finds one or the pipe is exhausted (`io.EOF`, with the data read so far);
     `readUpTo` is the reads through `io.LimitReader(dr, n)`, buffer first; `copyN` is
     `io.CopyN`'s bookkeeping on top (`written == n` is success, a short copy is `io.EOF`).

  3. **Specification** — both calls depend only on the bytes not yet consumed
     (`BufReader.stream`), never on where the reads were split: `readString_view` and
     `readUpTo_take`/`readUpTo_drop`. Nothing is lost between the buffered `ReadString` and the
     `CopyN` that follows it, because both go through the same reader.
-/
import Forge.Copy.Wire

namespace Forge.Copy

/-- The errors the Download reader task can send on `errorChan`. -/
inductive CopyErr where
  /-- `io.EOF` -/
  | eof
  /-- `ErrSSHInvalidMessageLength` -/
  | invalidMessageLength
  /-- the `*strconv.NumError` of `ParseInt`, with the `Num` it was given -/
  | numError (err : NumErr) (num : List UInt8)
  deriving DecidableEq, Repr

/-- A `bufio.Reader` on a pipe: buffered bytes not handed out yet, and the pipe's
    remaining reads. -/
structure BufReader where
  buf : List UInt8
  pipe : List (List UInt8)
  deriving DecidableEq, Repr

/-- The bytes of the stream not consumed yet, wherever they sit. -/
def BufReader.stream (r : BufReader) : List UInt8 := r.buf ++ r.pipe.flatten

@[simp] theorem BufReader.stream_mk (buf : List UInt8) (pipe : List (List UInt8)) :
    (BufReader.mk buf pipe).stream = buf ++ pipe.flatten := rfl

/-! ## `ReadString` -/

/-- The first line of `s`: the bytes up to and including the first `delim`, and the rest. -/
def splitLine (delim : UInt8) : List UInt8 → Option (List UInt8 × List UInt8)
  | [] => none
  | c :: cs => if c = delim then some ([c], cs) else (splitLine delim cs).map fun lp => (c :: lp.1, lp.2)

/-- `ReadString(delim)` with `buf` already buffered: return the first line, or refill from
    the pipe; with the pipe exhausted, everything read so far and `io.EOF`. -/
def readStringAux (delim : UInt8) :
    List UInt8 → List (List UInt8) → List UInt8 × Option CopyErr × BufReader
  | buf, [] => match splitLine delim buf with
    | some (line, post) => (line, none, ⟨post, []⟩)
    | none => (buf, some .eof, ⟨[], []⟩)
  | buf, c :: cs => match splitLine delim buf with
    | some (line, post) => (line, none, ⟨post, c :: cs⟩)
    | none => readStringAux delim (buf ++ c) cs

/-- `dr.ReadString(delim)` -/
def readString (delim : UInt8) (r : BufReader) : List UInt8 × Option CopyErr × BufReader :=
  readStringAux delim r.buf r.pipe

/-- A call's result, with the reader it leaves seen as the bytes it has not consumed. -/
def view (r : List UInt8 × Option CopyErr × BufReader) : List UInt8 × Option CopyErr × List UInt8 :=
  (r.1, r.2.1, r.2.2.stream)

/-- `ReadString` on a stream held whole: its first line, or everything and `io.EOF`. -/
def lineView (delim : UInt8) (s : List UInt8) : List UInt8 × Option CopyErr × List UInt8 :=
  match splitLine delim s with
  | some (line, post) => (line, none, post)
  | none => (s, some .eof, [])

theorem splitLine_append_of_some {d : UInt8} (x : List UInt8) :
    ∀ {s l p : List UInt8}, splitLine d s = some (l, p) → splitLine d (s ++ x) = some (l, p ++ x) := by
  intro s
  induction s with
  | nil => simp [splitLine]
  | cons c cs ih =>
    intro l p h
    by_cases hc : c = d
    · simp only [splitLine, hc, if_true, Option.some.injEq, Prod.mk.injEq] at h ⊢
      simp [h.1, ← h.2]
    · simp only [splitLine, hc, if_false, Option.map_eq_some'] at h
      obtain ⟨⟨l', p'⟩, h', he⟩ := h
      cases he
      simp [splitLine, hc, ih h']

theorem splitLine_append_of_none {d : UInt8} (x : List UInt8) :
    ∀ {s : List UInt8}, splitLine d s = none →
      splitLine d (s ++ x) = (splitLine d x).map fun lp => (s ++ lp.1, lp.2) := by
  intro s
  induction s with
  | nil => simp
  | cons c cs ih =>
    intro h
    by_cases hc : c = d
    · simp [splitLine, hc] at h
    · simp only [splitLine, hc, if_false, Option.map_eq_none'] at h
      simp [splitLine, hc, ih h, Option.map_map, Function.comp_def]

/-- A line with no earlier delimiter is split off exactly. -/
theorem splitLine_line {d : UInt8} (rest : List UInt8) :
    ∀ {pre : List UInt8}, d ∉ pre → splitLine d (pre ++ d :: rest) = some (pre ++ [d], rest) := by
  intro pre
  induction pre with
  | nil => simp [splitLine]
  | cons c cs ih =>
    intro h
    simp only [List.mem_cons, not_or] at h
    simp [splitLine, Ne.symm h.1, ih h.2]

/-- **`ReadString` sees only the stream**: the line, the error and the bytes left over are
    those of the whole unread stream, whatever the split into reads. -/
theorem readStringAux_view (d : UInt8) : ∀ (pipe : List (List UInt8)) (buf : List UInt8),
    view (readStringAux d buf pipe) = lineView d (buf ++ pipe.flatten) := by
  intro pipe
  induction pipe with
  | nil =>
    intro buf
    cases h : splitLine d buf with
    | none => simp [readStringAux, lineView, view, h]
    | some lp => simp [readStringAux, lineView, view, h]
  | cons c cs ih =>
    intro buf
    cases h : splitLine d buf with
    | none =>
      simp only [readStringAux, h]
      rw [ih, List.flatten_cons, List.append_assoc]
    | some lp =>
      obtain ⟨l, p⟩ := lp
      simp [readStringAux, lineView, view, h, splitLine_append_of_some _ h]

theorem readString_view (d : UInt8) (r : BufReader) :
    view (readString d r) = lineView d r.stream :=
  readStringAux_view d r.pipe r.buf

/-! ## `io.CopyN` -/

/-- The reads through `io.LimitReader(dr, k)`: at most `k` bytes, the buffer first, then the
    pipe's reads, stopping at `io.EOF`; what is read but not handed out stays buffered. -/
def readUpTo : Nat → List UInt8 → List (List UInt8) → List UInt8 × BufReader
  | k, buf, [] => (buf.take k, ⟨buf.drop k, []⟩)
  | k, buf, c :: cs =>
    if k ≤ buf.length then (buf.take k, ⟨buf.drop k, c :: cs⟩)
    else
      let r := readUpTo (k - buf.length) c cs
      (buf ++ r.1, r.2)

/-- `io.CopyN(dst, dr, n)`: `written, err = io.Copy(dst, io.LimitReader(dr, n))`; then
    `written == n` is success, and `written < n` with no error becomes `io.EOF`. -/
def copyN (r : BufReader) (n : Int) : List UInt8 × Option CopyErr × BufReader :=
  let (written, r') := readUpTo n.toNat r.buf r.pipe
  if (written.length : Int) = n then (written, none, r')
  else if (written.length : Int) < n then (written, some .eof, r')
  else (written, none, r')

/-- The bytes copied are the first `k` of the stream. -/
theorem readUpTo_take : ∀ (pipe : List (List UInt8)) (k : Nat) (buf : List UInt8),
    (readUpTo k buf pipe).1 = (buf ++ pipe.flatten).take k := by
  intro pipe
  induction pipe with
  | nil => intro k buf; simp [readUpTo]
  | cons c cs ih =>
    intro k buf
    by_cases hk : k ≤ buf.length
    · simp [readUpTo, hk, List.take_append_of_le_length hk]
    · simp only [readUpTo, hk, if_false, ih, List.flatten_cons, List.take_append_eq_append_take,
        List.take_of_length_le (by omega : buf.length ≤ k)]

/-- What is left is the stream after its first `k` bytes. -/
theorem readUpTo_drop : ∀ (pipe : List (List UInt8)) (k : Nat) (buf : List UInt8),
    (readUpTo k buf pipe).2.stream = (buf ++ pipe.flatten).drop k := by
  intro pipe
  induction pipe with
  | nil => intro k buf; simp [readUpTo]
  | cons c cs ih =>
    intro k buf
    by_cases hk : k ≤ buf.length
    · simp [readUpTo, hk, List.drop_append_of_le_length hk]
    · simp only [readUpTo, hk, if_false, ih, List.flatten_cons, List.drop_append_eq_append_drop,
        List.drop_eq_nil_of_le (by omega : buf.length ≤ k), List.nil_append]

/-- **`CopyN` sees only the stream**: with `n ≥ 0` it copies the first `n` bytes of the
    stream, fails with `io.EOF` exactly when fewer are there, and leaves the rest; with
    `n < 0` it copies nothing and reports nothing. -/
theorem copyN_view (r : BufReader) (n : Int) :
    view (copyN r n) =
    if n < 0 then ([], none, r.stream)
    else (r.stream.take n.toNat, if r.stream.length < n.toNat then some .eof else none,
      r.stream.drop n.toNat) := by
  have ht : (readUpTo n.toNat r.buf r.pipe).1 = r.stream.take n.toNat := readUpTo_take _ _ _
  have hd : (readUpTo n.toNat r.buf r.pipe).2.stream = r.stream.drop n.toNat := readUpTo_drop _ _ _
  simp only [copyN, view]
  generalize readUpTo n.toNat r.buf r.pipe = res at ht hd ⊢
  obtain ⟨w, r'⟩ := res
  simp only at ht hd ⊢
  simp only [ht, List.length_take]
  by_cases hn : n < 0
  · have h0 : n.toNat = 0 := by omega
    rw [h0] at hd
    simp [h0, hn, hd, show (0 : Int) ≠ n by omega, show ¬ (0 : Int) < n by omega]
  · by_cases hk : r.stream.length < n.toNat
    · rw [if_neg (by omega), if_pos (by omega)]
      simp [hk, hn, hd]
    · rw [if_pos (by omega)]
      simp [hk, hn, hd]

end Forge.Copy
