/-
  The reader goroutine of `SSHClient.Download`: read one header line, check it, parse the
  length, copy that many bytes to the destination.

  1. **Program** — `downloadReader`, statement by statement: `dr.ReadString('\n')`,
     `strings.Split(s, " ")`, the check `len(scpMsgs) != 3 || len(scpMsgs[0]) != 5 ||
     scpMsgs[0][0] != 'C'`, `strconv.ParseInt(scpMsgs[1], 10, 64)`, `io.CopyN(dst, dr, length)`;
     each failure is the error sent on `errorChan`. The destination accepts every write.

  2. **Stream semantics** — `readerSpec` says what the goroutine does to the bytes it is sent,
     held whole. `downloadReader_view` proves the goroutine equal to it under every split of the
     stream into reads: the buffered `ReadString` and the `CopyN` after it lose nothing.

  3. **What is accepted** — `readerSpec_ok_iff`: no error exactly when there is a header line of
     three space-separated fields, the first five bytes long and starting with `C`, the second
     accepted by `ParseInt` as some `L`, and `L` is negative or at least `L` bytes follow. A
     negative `L` is accepted with nothing written (`readerSpec_negative`): `io.CopyN` with
     `n < 0` copies nothing and reports nothing.
-/
import Forge.Copy.Reader

namespace Forge.Copy

/-- What the reader goroutine did: the error it sent on `errorChan`, the bytes it wrote to
    `dst`, and the reader it left. -/
structure ReaderRun where
  err : Option CopyErr
  written : List UInt8
  rest : BufReader
  deriving DecidableEq, Repr

/-- The run, with the reader it left seen as the bytes it did not consume. -/
def ReaderRun.view (r : ReaderRun) : Option CopyErr × List UInt8 × List UInt8 :=
  (r.err, r.written, r.rest.stream)

/-- `len(scpMsgs) != 3 || len(scpMsgs[0]) != 5 || scpMsgs[0][0] != 'C'` -/
def headerInvalid : List (List UInt8) → Bool
  | [f0, _, _] => f0.length != 5 || f0.head? != some 67
  | _ => true

/-- The reader goroutine of `SSHClient.Download`, on `dr := bufio.NewReader(dataPipe)`. -/
def downloadReader (dr : BufReader) : ReaderRun :=
  match readString newline dr with
  | (_, some err, dr) => ⟨some err, [], dr⟩
  | (s, none, dr) =>
    let scpMsgs := s.splitOn space
    if headerInvalid scpMsgs then ⟨some .invalidMessageLength, [], dr⟩
    else
      match parseInt (scpMsgs.getD 1 []) with
      | .error e => ⟨some (.numError e (scpMsgs.getD 1 [])), [], dr⟩
      | .ok length =>
        let (written, err, dr) := copyN dr length
        ⟨err, written, dr⟩

/-! ## The goroutine on a whole stream -/

/-- The copy step once the length is known, on the bytes after the header line. -/
def copySpec (post : List UInt8) (L : Int) : Option CopyErr × List UInt8 × List UInt8 :=
  if L < 0 then (none, [], post)
  else (if post.length < L.toNat then some .eof else none, post.take L.toNat, post.drop L.toNat)

/-- What the reader goroutine does to the bytes `s` it is sent. -/
def readerSpec (s : List UInt8) : Option CopyErr × List UInt8 × List UInt8 :=
  match splitLine newline s with
  | none => (some .eof, [], [])
  | some (line, post) =>
    let scpMsgs := line.splitOn space
    if headerInvalid scpMsgs then (some .invalidMessageLength, [], post)
    else
      match parseInt (scpMsgs.getD 1 []) with
      | .error e => (some (.numError e (scpMsgs.getD 1 [])), [], post)
      | .ok L => copySpec post L

/-- **The reader goroutine under any split of its stream into reads** is `readerSpec` of the
    stream. -/
theorem downloadReader_view (r : BufReader) : (downloadReader r).view = readerSpec r.stream := by
  have hrs := readString_view newline r
  unfold downloadReader readerSpec
  generalize readString newline r = res at hrs ⊢
  obtain ⟨line, err, dr⟩ := res
  simp only [view, lineView] at hrs
  cases hs : splitLine newline r.stream with
  | none =>
    simp only [hs, Prod.mk.injEq] at hrs
    obtain ⟨-, rfl, hdr⟩ := hrs
    simp [ReaderRun.view, hdr]
  | some lp =>
    obtain ⟨l, p⟩ := lp
    simp only [hs, Prod.mk.injEq] at hrs
    obtain ⟨rfl, rfl, hdr⟩ := hrs
    simp only
    split
    · simp [ReaderRun.view, hdr]
    · cases hp : parseInt ((line.splitOn space)[1]?.getD []) with
      | error e => simp [ReaderRun.view, hdr, hp]
      | ok L =>
        have hc := copyN_view dr L
        simp only [view, hdr] at hc
        by_cases hL : L < 0 <;> simp only [hL, if_true, if_false, Prod.mk.injEq] at hc <;>
          simp [ReaderRun.view, copySpec, hL, hc, hp]

/-! ## What the goroutine accepts -/

theorem headerInvalid_eq_false_iff (l : List (List UInt8)) :
    headerInvalid l = false ↔ ∃ f0 f1 f2, l = [f0, f1, f2] ∧ f0.length = 5 ∧ f0.head? = some 67 := by
  constructor
  · intro h
    match l, h with
    | [f0, f1, f2], h => exact ⟨f0, f1, f2, rfl, by simpa [headerInvalid] using h⟩
  · rintro ⟨f0, f1, f2, rfl, h5, hC⟩
    simp [headerInvalid, h5, hC]

/-- A first field that is not five bytes long fails the check, whatever follows it. -/
theorem headerInvalid_cons {f0 : List UInt8} (fs : List (List UInt8)) (h : f0.length ≠ 5) :
    headerInvalid (f0 :: fs) = true := by
  match fs with
  | [_, _] => simp [headerInvalid, h]
  | [] | [_] | _ :: _ :: _ :: _ => rfl

/-- Past a well-formed header line, the goroutine is the copy step of its length. -/
theorem readerSpec_of_header {s line post f0 f1 f2 : List UInt8} {L : Int}
    (hl : splitLine newline s = some (line, post)) (hf : line.splitOn space = [f0, f1, f2])
    (h5 : f0.length = 5) (hC : f0.head? = some 67) (hL : parseInt f1 = .ok L) :
    readerSpec s = copySpec post L := by
  simp [readerSpec, hl, hf, headerInvalid, h5, hC, hL]

/-- **No error exactly on the accepted grammar**: a header line of three space-separated
    fields, the first five bytes starting with `C`, the second parsed by `ParseInt` as `L`,
    and `L` negative or at least `L` bytes after the line. -/
theorem readerSpec_ok_iff (s : List UInt8) :
    (readerSpec s).1 = none ↔
      ∃ line post f0 f1 f2 L, splitLine newline s = some (line, post) ∧
        line.splitOn space = [f0, f1, f2] ∧ f0.length = 5 ∧ f0.head? = some 67 ∧
        parseInt f1 = .ok L ∧ (L < 0 ∨ L.toNat ≤ post.length) := by
  constructor
  · intro h
    cases hl : splitLine newline s with
    | none => simp [readerSpec, hl] at h
    | some lp =>
      obtain ⟨line, post⟩ := lp
      cases hv : headerInvalid (line.splitOn space) with
      | true => simp [readerSpec, hl, hv] at h
      | false =>
        obtain ⟨f0, f1, f2, hf, h5, hC⟩ := (headerInvalid_eq_false_iff _).mp hv
        cases hL : parseInt f1 with
        | error e => simp [readerSpec, hl, hf, headerInvalid, h5, hC, hL] at h
        | ok L =>
          rw [readerSpec_of_header hl hf h5 hC hL, copySpec] at h
          refine ⟨line, post, f0, f1, f2, L, rfl, hf, h5, hC, hL, ?_⟩
          by_cases hneg : L < 0
          · exact .inl hneg
          · simp only [hneg, if_false, ite_eq_right_iff, reduceCtorEq, imp_false] at h
            exact .inr (Nat.not_lt.mp h)
  · rintro ⟨line, post, f0, f1, f2, L, hl, hf, h5, hC, hL, hlen⟩
    rw [readerSpec_of_header hl hf h5 hC hL, copySpec]
    split_ifs <;> first | rfl | omega

/-- Bytes reach the destination only past an accepted header, and they are the first bytes
    after the header line: a rejected header writes nothing. -/
theorem readerSpec_written {s : List UInt8} (h : (readerSpec s).2.1 ≠ []) :
    ∃ line post f0 f1 f2 L, splitLine newline s = some (line, post) ∧
      line.splitOn space = [f0, f1, f2] ∧ f0.length = 5 ∧ f0.head? = some 67 ∧
      parseInt f1 = .ok L ∧ 0 ≤ L ∧ (readerSpec s).2.1 = post.take L.toNat := by
  cases hl : splitLine newline s with
  | none => simp [readerSpec, hl] at h
  | some lp =>
    obtain ⟨line, post⟩ := lp
    cases hv : headerInvalid (line.splitOn space) with
    | true => simp [readerSpec, hl, hv] at h
    | false =>
      obtain ⟨f0, f1, f2, hf, h5, hC⟩ := (headerInvalid_eq_false_iff _).mp hv
      cases hL : parseInt f1 with
      | error e => simp [readerSpec, hl, hf, headerInvalid, h5, hC, hL] at h
      | ok L =>
        rw [readerSpec_of_header hl hf h5 hC hL, copySpec] at h ⊢
        by_cases hneg : L < 0
        · simp [hneg] at h
        · exact ⟨line, post, f0, f1, f2, L, rfl, hf, h5, hC, hL, by omega, by simp [hneg]⟩

/-- A well-formed header with a negative length is accepted: no error, nothing written,
    nothing consumed past the header line. -/
theorem readerSpec_negative {s line post f0 f1 f2 : List UInt8} {L : Int}
    (hl : splitLine newline s = some (line, post)) (hf : line.splitOn space = [f0, f1, f2])
    (h5 : f0.length = 5) (hC : f0.head? = some 67) (hL : parseInt f1 = .ok L) (hneg : L < 0) :
    readerSpec s = (none, [], post) := by
  rw [readerSpec_of_header hl hf h5 hC hL, copySpec, if_pos hneg]

/-- The header `C0644 -1 f` reaches the reader: it reports no error and writes nothing. -/
theorem download_negative_length_accepted :
    downloadReader ⟨[], [ascii "C0644 -1 f\n"]⟩ = ⟨none, [], ⟨[], []⟩⟩ := by decide

end Forge.Copy
