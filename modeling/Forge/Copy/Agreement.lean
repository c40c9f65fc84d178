/-
  Upload's encoder against Download's parser: what the Download reader goroutine makes of the
  exact stream the Upload writer goroutine emits.

  1. **Agreement** (`download_reads_upload`) — for a mode in `[0o100, 0o777]`, any content an
     `int` length can describe, any destination whose basename has no space and no newline, and
     any split of the stream into reads: the header is accepted, exactly the content is written,
     and the trailing NUL is left unread.

  2. **Disagreement** (`download_rejects_small_mode`) — for every mode below `0o100`, `%#o`
     prints at most three bytes (`07`, `044`, …), so the first field is shorter than the five
     bytes the reader demands, and the reader answers `ErrSSHInvalidMessageLength`, whatever the
     content, the destination and the split.

  3. **Above `0o777`** — `%#o` prints `0` and at least four digits (`01000`, `04755`, …), again
     not four bytes, and the reader rejects it as well. `download_upload_modes` puts the three
     together: the reader reads Upload back exactly on `[0o100, 0o777]`.
-/
import Forge.Copy.Download

namespace Forge.Copy

theorem splitLine_eq_none_iff (d : UInt8) (s : List UInt8) : splitLine d s = none ↔ d ∉ s := by
  induction s with
  | nil => simp [splitLine]
  | cons c cs ih =>
    by_cases hc : c = d
    · simp [splitLine, hc]
    · simp [splitLine, hc, ih, Ne.symm hc]

/-- At most two digits below `b²`. -/
theorem fmtDigits_length_le_two {b u : Nat} (hb : 2 ≤ b) (hu : u < b * b) :
    (fmtDigits b u).length ≤ 2 := by
  by_cases hub : u < b
  · simp [fmtDigits, digitLoop_of_lt _ _ hub]
  · obtain ⟨k, rfl⟩ : ∃ k, u = k + 1 := ⟨u - 1, by omega⟩
    have h2 : (k + 1) / b < b := (Nat.div_lt_iff_lt_mul (by omega)).mpr hu
    simp [fmtDigits, digitLoop_of_le _ (Nat.not_lt.mp hub), digitLoop_of_lt _ _ h2]

theorem fmtSharpO_length_le_three {m : Nat} (hm : m < 64) : (fmtSharpO m).length ≤ 3 := by
  have h := fmtDigits_length_le_two (b := 8) (u := m) (by omega) hm
  simp only [fmtSharpO]
  split <;> simp <;> omega

/-- The Upload stream, cut after its first field and the space that ends it. -/
theorem uploadStream_eq (mode : UInt32) (content dst : List UInt8) :
    uploadStream mode content dst = (ascii "C" ++ fmtSharpO mode.toNat ++ [space]) ++
      (fmtD content.length ++ [space] ++ pathBase dst ++ [newline] ++ content ++ [0]) := by
  simp [uploadStream, uploadHeader]

/-- **Agreement**: the reader takes exactly the content out of the stream the writer sends,
    for every mode in `[0o100, 0o777]` and every split of the stream into reads. -/
theorem download_reads_upload {mode : UInt32} {content dst : List UInt8}
    (chunks : List (List UInt8)) (hlo : 64 ≤ mode.toNat) (hhi : mode.toNat < 512)
    (hlen : content.length < 2 ^ 63) (hsp : space ∉ pathBase dst) (hnl : newline ∉ pathBase dst)
    (hchunks : chunks.flatten = uploadStream mode content dst) :
    (downloadReader ⟨[], chunks⟩).view = (none, content, [0]) := by
  have hC : ascii "C" = [67] := rfl
  have hsharp := fmtSharpO_of_three_digits hlo hhi
  have hpre : newline ∉ ascii "C" ++ fmtSharpO mode.toNat ++ [space] ++ fmtD content.length ++
      [space] ++ pathBase dst := by
    have hd := (allDigits_fmtD content.length).not_mem.2
    have hs := (allDigits_fmtSharpO mode.toNat).not_mem.2
    simp only [List.mem_append, List.mem_singleton, not_or]
    exact ⟨⟨⟨⟨⟨by decide, hs⟩, by decide⟩, hd⟩, by decide⟩, hnl⟩
  have hline : splitLine newline (uploadStream mode content dst) =
      some (uploadHeader mode content dst, content ++ [0]) := by
    have := splitLine_line (content ++ [0]) hpre
    simpa [uploadStream, uploadHeader] using this
  have hv : readerSpec (uploadStream mode content dst) = copySpec (content ++ [0]) content.length :=
    readerSpec_of_header hline (splitOn_uploadHeader hsp) (by simp [hC, hsharp]) (by simp [hC])
      (parseInt_fmtD hlen)
  rw [downloadReader_view, BufReader.stream_mk, List.nil_append, hchunks, hv, copySpec,
    if_neg (by omega)]
  simp

/-- Whenever `%#o` prints other than four bytes, the first field is not five bytes long and the
    reader rejects the header, whatever the content, the destination and the split. -/
theorem download_rejects_mode_width {mode : UInt32} {content dst : List UInt8}
    (chunks : List (List UInt8)) (hm : (fmtSharpO mode.toNat).length ≠ 4)
    (hchunks : chunks.flatten = uploadStream mode content dst) :
    (downloadReader ⟨[], chunks⟩).err = some .invalidMessageLength := by
  have hv := downloadReader_view ⟨[], chunks⟩
  simp only [BufReader.stream_mk, List.nil_append, hchunks, uploadStream_eq] at hv
  have hf0 : space ∉ ascii "C" ++ fmtSharpO mode.toNat := by
    simpa using ⟨by decide, (allDigits_fmtSharpO mode.toNat).not_mem.1⟩
  have hn0 : splitLine newline (ascii "C" ++ fmtSharpO mode.toNat ++ [space]) = none := by
    rw [splitLine_eq_none_iff]
    simpa using ⟨by decide, (allDigits_fmtSharpO mode.toNat).not_mem.2, by decide⟩
  obtain ⟨⟨l, p⟩, hx⟩ : ∃ lp, splitLine newline (fmtD content.length ++ [space] ++ pathBase dst ++
      [newline] ++ content ++ [0]) = some lp := by
    refine Option.ne_none_iff_exists'.mp ?_
    rw [Ne, splitLine_eq_none_iff]
    simp
  unfold readerSpec at hv
  rw [splitLine_append_of_none _ hn0, hx] at hv
  have hsplit : (ascii "C" ++ fmtSharpO mode.toNat ++ [space] ++ l).splitOn space =
      (ascii "C" ++ fmtSharpO mode.toNat) :: l.splitOn space := by
    have hxs : ∀ x ∈ ascii "C" ++ fmtSharpO mode.toNat, ¬(x == space) = true := by
      intro x hx he
      exact hf0 (beq_iff_eq.mp he ▸ hx)
    simpa using List.splitOnP_first (· == space) _ hxs space (by simp) l
  have hinv := @headerInvalid_cons (ascii "C" ++ fmtSharpO mode.toNat) (l.splitOn space) (by
    have hC : (ascii "C").length = 1 := rfl
    simp only [List.length_append, hC]
    omega)
  simp only [Option.map_some', hsplit, hinv, if_true] at hv
  exact congrArg Prod.fst hv

/-- **Disagreement below `0o100`**: for every mode under `0o100`, every content, every
    destination and every split of the stream into reads, the reader rejects the header with
    `ErrSSHInvalidMessageLength`. -/
theorem download_rejects_small_mode {mode : UInt32} {content dst : List UInt8}
    (chunks : List (List UInt8)) (hm : mode.toNat < 64)
    (hchunks : chunks.flatten = uploadStream mode content dst) :
    (downloadReader ⟨[], chunks⟩).err = some .invalidMessageLength :=
  download_rejects_mode_width chunks (by have := fmtSharpO_length_le_three hm; omega) hchunks

/-- The first digit `fmtInteger` prints for a positive value is not `0`. -/
theorem digitLoop_head_pos {b : Nat} (hb : 2 ≤ b) :
    ∀ n u acc, 0 < u → ∃ d ds, digitLoop b n u acc = d :: ds ∧ 0 < d
  | 0, u, acc, hu => ⟨u, acc, rfl, hu⟩
  | n + 1, u, acc, hu => by
    by_cases hub : u < b
    · exact ⟨u, acc, digitLoop_of_lt _ _ hub, hu⟩
    · rw [digitLoop_of_le _ (by omega)]
      exact digitLoop_head_pos hb n _ _ (Nat.div_pos (by omega) (by omega))

/-- The loop prints at least one digit in front of what it has. -/
theorem length_digitLoop {b : Nat} : ∀ n u acc, acc.length + 1 ≤ (digitLoop b n u acc).length
  | 0, _, _ => by simp [digitLoop]
  | n + 1, u, acc => by
    unfold digitLoop
    split
    · simp
    · have := length_digitLoop (b := b) n (u / b) (u % b :: acc)
      simp only [List.length_cons] at this
      omega

/-- At least four octal digits from `0o1000` on. -/
theorem fmtDigits_length_ge_four {u : Nat} (hu : 512 ≤ u) : 4 ≤ (fmtDigits 8 u).length := by
  obtain ⟨k, rfl⟩ : ∃ k, u = k + 2 + 1 := ⟨u - 3, by omega⟩
  have h1 : 8 ≤ (k + 2 + 1) / 8 := (Nat.le_div_iff_mul_le (by omega)).mpr (by omega)
  have h2 : 8 ≤ (k + 2 + 1) / 8 / 8 :=
    (Nat.le_div_iff_mul_le (by omega)).mpr ((Nat.le_div_iff_mul_le (by omega)).mpr (by omega))
  rw [fmtDigits, digitLoop_of_le _ (by omega), digitLoop_of_le _ h1, digitLoop_of_le _ h2]
  exact length_digitLoop (b := 8) k _ [_, _, _]

/-- `%#o` of a mode of `0o1000` or more is `0` and at least four octal digits. -/
theorem fmtSharpO_length_ge_five {m : Nat} (hm : 512 ≤ m) : 5 ≤ (fmtSharpO m).length := by
  obtain ⟨d, ds, hds, hd⟩ := digitLoop_head_pos (b := 8) (by omega) m m [] (by omega)
  have hlt : d < 8 := fmtDigits_lt_base (b := 8) (u := m) (by omega) d (by simp [fmtDigits, hds])
  have hne : digitByte d ≠ digitByte 0 := fun h =>
    absurd (digitByte_inj _ (by omega) _ (by omega) h) (by omega)
  have h4 := fmtDigits_length_ge_four hm
  rw [fmtDigits, hds, List.length_cons] at h4
  simp only [fmtSharpO, fmtDigits, hds, List.map_cons, List.head?_cons, ne_eq, Option.some.injEq,
    hne, not_false_eq_true, if_true, List.length_cons, List.length_map]
  omega

/-- **Download reads Upload back exactly on `[0o100, 0o777]`.** For every content an `int` length
    can describe, every destination whose basename has no space and no newline, and every split
    of the stream into reads: with a mode in `[0o100, 0o777]` the reader writes exactly the
    content and leaves the NUL unread; with every other mode, below or above, `%#o` prints other
    than four bytes and the reader answers `ErrSSHInvalidMessageLength`. -/
theorem download_upload_modes {mode : UInt32} {content dst : List UInt8}
    (chunks : List (List UInt8)) (hlen : content.length < 2 ^ 63) (hsp : space ∉ pathBase dst)
    (hnl : newline ∉ pathBase dst) (hchunks : chunks.flatten = uploadStream mode content dst) :
    (64 ≤ mode.toNat ∧ mode.toNat < 512 →
      (downloadReader ⟨[], chunks⟩).view = (none, content, [0])) ∧
    (¬(64 ≤ mode.toNat ∧ mode.toNat < 512) →
      (downloadReader ⟨[], chunks⟩).err = some .invalidMessageLength) := by
  refine ⟨fun h => download_reads_upload chunks h.1 h.2 hlen hsp hnl hchunks, fun h => ?_⟩
  by_cases hlo : 64 ≤ mode.toNat
  · have h5 := fmtSharpO_length_ge_five (m := mode.toNat) (by omega)
    exact download_rejects_mode_width chunks (by omega) hchunks
  · exact download_rejects_small_mode chunks (by omega) hchunks

theorem download_upload_modes_0o644 :
    (downloadReader ⟨[], [uploadStream 0o644 (ascii "hi") (ascii "/tmp/f")]⟩).view =
      (none, ascii "hi", [0]) :=
  (@download_upload_modes 0o644 (ascii "hi") (ascii "/tmp/f") _ (by decide) (by decide) (by decide)
    (List.flatten_singleton _)).1 ⟨by decide, by decide⟩

/-- The mode `0o44` with content `hi` to `/tmp/f`: the writer sends `C044 2 f`, and the
    reader rejects it. -/
theorem upload_mode_0o44_rejected :
    (downloadReader ⟨[], [uploadStream 0o44 (ascii "hi") (ascii "/tmp/f")]⟩).err =
      some .invalidMessageLength := by decide

end Forge.Copy
