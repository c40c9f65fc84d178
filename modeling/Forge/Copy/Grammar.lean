/-
  The grammar the `Download` reader goroutine accepts, stated on the bytes of the stream.

  1. **The length field** — `strconv.ParseInt(s, 10, 64)` returns a value exactly on a decimal
     numeral of an `int64` (`Numeral`: an optional `+` or `-`, one or more digits, leading
     zeros allowed): `parseUintLoop_ok_iff` reads the `ParseUint` loop, with its two range
     checks, as Horner's rule below `2^64`, and `parseInt_ok_iff` adds the sign and the
     `int64` cutoffs.

  2. **The header line** — `ReadString('\n')` returns the bytes up to the first newline
     (`splitLine_eq_some`), and `strings.Split(s, " ")` gives three fields exactly on three
     space-free fields joined by single spaces (`splitOn_eq_three`).

  3. **The stream** — `download_accepts_iff`: on every split of the stream into reads, the
     goroutine sends no error exactly on `C????` `␠` numeral `␠` name `\n`, followed by at
     least `L` bytes unless `L` is negative. Both directions go through `readerSpec_ok_iff`:
     what is accepted has this form (the line is cut at its newline and the third field ends
     with it, `line_eq_fields`), and every stream of this form is accepted.
-/
import Forge.Copy.Download
import Forge.Copy.Path

namespace Forge.Copy

/-- The value of decimal digits, most significant first, after a value `n` already read. -/
def horner (n : Nat) (ds : List Nat) : Nat := ds.foldl (fun m d => m * 10 + d) n

theorem le_horner (n : Nat) (ds : List Nat) : n ≤ horner n ds := le_foldl_horner ds n

/-- **`ParseUint`'s loop**: it reads exactly a run of digits whose value, read on from `n`,
    fits in 64 bits. -/
theorem parseUintLoop_ok_iff (u : Nat) :
    ∀ (cs : List UInt8) (n : Nat), n ≤ maxUint64 →
      (parseUintLoop n cs = .ok u ↔
        ∃ ds, (∀ d ∈ ds, d < 10) ∧ cs = ds.map digitByte ∧ u = horner n ds ∧ u ≤ maxUint64)
  | [], n, hn => by
    constructor
    · intro h; cases h; exact ⟨[], by simp, rfl, rfl, hn⟩
    · rintro ⟨ds, -, hds, rfl, -⟩
      obtain rfl : ds = [] := List.map_eq_nil_iff.mp hds.symm
      rfl
  | c :: cs, n, hn => by
    by_cases hc : isDigit c = true
    · obtain ⟨d, hd, rfl⟩ := (isDigit_iff c).mp hc
      have hmax : maxUint64 = 18446744073709551615 := rfl
      have hcons : ∀ P : Nat → Prop,
          (∃ ds, (∀ x ∈ ds, x < 10) ∧ digitByte d :: cs = ds.map digitByte ∧ P (horner n ds)) ↔
            ∃ ds, (∀ x ∈ ds, x < 10) ∧ cs = ds.map digitByte ∧ P (horner (n * 10 + d) ds) := by
        intro P
        constructor
        · rintro ⟨_ | ⟨e, ds⟩, hds, he, hP⟩
          · simp at he
          · rw [List.map_cons, List.cons.injEq] at he
            obtain ⟨he, rfl⟩ := he
            obtain rfl := digitByte_inj d hd e (hds e (List.mem_cons_self _ _)) he
            exact ⟨ds, fun x hx => hds x (List.mem_cons_of_mem _ hx), rfl, hP⟩
        · rintro ⟨ds, hds, rfl, hP⟩
          exact ⟨d :: ds, by simpa [hd] using hds, rfl, hP⟩
      simp only [parseUintLoop, hc, if_true, digitByte_toNat d hd, Nat.add_sub_cancel_left]
      rw [hcons fun v => u = v ∧ u ≤ maxUint64]
      -- past `maxUint64` no digits can follow: the value only grows
      have hover : maxUint64 < n * 10 + d → ¬∃ ds, (∀ x ∈ ds, x < 10) ∧ cs = ds.map digitByte ∧
          (u = horner (n * 10 + d) ds ∧ u ≤ maxUint64) :=
        fun h ⟨ds, _, _, hu, hle⟩ => by have := le_horner (n * 10 + d) ds; omega
      split_ifs with h1 h2
      · exact iff_of_false (by simp) (hover (by omega))
      · exact iff_of_false (by simp) (hover h2)
      · exact parseUintLoop_ok_iff u cs (n * 10 + d) (by omega)
    · have hne : ∀ ds : List Nat, (∀ d ∈ ds, d < 10) → c :: cs ≠ ds.map digitByte := by
        rintro (_ | ⟨e, ds⟩) hds he
        · simp at he
        · rw [List.map_cons, List.cons.injEq] at he
          exact hc (he.1 ▸ isDigit_digitByte e (hds e (List.mem_cons_self _ _)))
      simp only [parseUintLoop, hc, if_false, Bool.false_eq_true, reduceCtorEq, false_iff, not_exists, not_and]
      exact fun ds hds he => absurd he (hne ds hds)

theorem parseUint_ok_iff (t : List UInt8) (u : Nat) :
    parseUint t = .ok u ↔ ∃ ds, ds ≠ [] ∧ (∀ d ∈ ds, d < 10) ∧ t = ds.map digitByte ∧
      u = horner 0 ds ∧ u ≤ maxUint64 := by
  unfold parseUint
  split_ifs with ht
  · subst ht
    simp only [reduceCtorEq, false_iff, not_exists, not_and]
    exact fun ds hne _ h => (hne (List.map_eq_nil_iff.mp h.symm)).elim
  · rw [parseUintLoop_ok_iff u t 0 (by decide)]
    constructor
    · rintro ⟨ds, h1, rfl, h3⟩
      exact ⟨ds, by rintro rfl; exact ht rfl, h1, rfl, h3⟩
    · rintro ⟨ds, -, h⟩
      exact ⟨ds, h⟩

/-- `ParseInt` past its sign: the magnitude `ParseUint` reads, within the `int64` cutoff of
    that sign. An `ErrRange` of `ParseUint` gives `maxUint64`, past both cutoffs. -/
theorem parseInt_ok_iff_magnitude {s : List UInt8} (hs : s ≠ []) (L : Int) :
    parseInt s = .ok L ↔ ∃ u, parseUint (signSplit s).2 = .ok u ∧
      if (signSplit s).1 then u ≤ 2 ^ 63 ∧ L = -(u : Int) else u < 2 ^ 63 ∧ L = u := by
  unfold parseInt
  rw [if_neg hs]
  generalize signSplit s = p
  obtain ⟨neg, t⟩ := p
  have hmax : maxUint64 = 18446744073709551615 := rfl
  rcases h : parseUint t with e | u
  · cases e <;> cases neg <;> simp [h, hmax]
  · -- the sign's cutoff, checked on the magnitude read
    cases neg <;> simp [h] <;> split_ifs <;> simp <;> omega

/-- A decimal numeral of an `int64`: an optional `+` or `-`, then one or more digits, leading
    zeros allowed, whose value is at most `2^63` after a `-` and below `2^63` otherwise. -/
def Numeral (f : List UInt8) (L : Int) : Prop :=
  ∃ sg ds, (sg = [] ∨ sg = [43] ∨ sg = [45]) ∧ ds ≠ [] ∧ (∀ d ∈ ds, d < 10) ∧
    f = sg ++ ds.map digitByte ∧
    if sg = [45] then horner 0 ds ≤ 2 ^ 63 ∧ L = -(horner 0 ds : Int)
    else horner 0 ds < 2 ^ 63 ∧ L = horner 0 ds

theorem signSplit_digits {ds : List Nat} (hne : ds ≠ []) (hds : ∀ d ∈ ds, d < 10) :
    signSplit (ds.map digitByte) = (false, ds.map digitByte) := by
  obtain ⟨d, ds, rfl⟩ := List.exists_cons_of_ne_nil hne
  have := digitByte_not_sign d (hds d (List.mem_cons_self _ _))
  simp [signSplit, this.1, this.2]

/-- **`strconv.ParseInt(s, 10, 64)` accepts exactly the decimal numerals of an `int64`**, and
    returns their value. -/
theorem parseInt_ok_iff (s : List UInt8) (L : Int) : parseInt s = .ok L ↔ Numeral s L := by
  by_cases hs : s = []
  · subst hs
    simp only [parseInt, if_true, reduceCtorEq, false_iff]
    rintro ⟨sg, ds, -, hne, -, h, -⟩
    exact hne (List.map_eq_nil_iff.mp (List.append_eq_nil.mp h.symm).2)
  rw [parseInt_ok_iff_magnitude hs]
  have hmax : maxUint64 = 18446744073709551615 := rfl
  constructor
  · rintro ⟨u, hu, hL⟩
    obtain ⟨ds, hne, hds, ht, rfl, -⟩ := (parseUint_ok_iff _ _).mp hu
    obtain ⟨c, t, rfl⟩ := List.exists_cons_of_ne_nil hs
    by_cases h43 : c = 43
    · subst h43
      simp only [signSplit, if_true] at ht hL
      exact ⟨[43], ds, by simp, hne, hds, by rw [← ht]; rfl, by simpa using hL⟩
    by_cases h45 : c = 45
    · subst h45
      simp only [signSplit, if_neg h43, if_true] at ht hL
      exact ⟨[45], ds, by simp, hne, hds, by rw [← ht]; rfl, by simpa using hL⟩
    · simp only [signSplit, if_neg h43, if_neg h45] at ht hL
      exact ⟨[], ds, by simp, hne, hds, ht, by simpa using hL⟩
  · rintro ⟨sg, ds, hsg, hne, hds, rfl, hL⟩
    have hu : parseUint (ds.map digitByte) = .ok (horner 0 ds) :=
      (parseUint_ok_iff _ _).mpr ⟨ds, hne, hds, rfl, rfl, by split_ifs at hL <;> omega⟩
    refine ⟨horner 0 ds, ?_⟩
    rcases hsg with rfl | rfl | rfl
    · rw [List.nil_append, signSplit_digits hne hds]
      exact ⟨hu, by simpa using hL⟩
    all_goals exact ⟨hu, by simpa using hL⟩

/-! ## The header line -/

/-- What `ReadString` returns: the bytes up to the first delimiter, the delimiter, and the rest
    of the stream after it. -/
theorem splitLine_eq_some {d : UInt8} :
    ∀ {s line post : List UInt8}, splitLine d s = some (line, post) →
      ∃ pre, d ∉ pre ∧ line = pre ++ [d] ∧ s = line ++ post
  | [], _, _, h => by simp [splitLine] at h
  | c :: cs, line, post, h => by
    by_cases hc : c = d
    · simp only [splitLine, hc, if_true, Option.some.injEq, Prod.mk.injEq] at h
      obtain ⟨rfl, rfl⟩ := h
      exact ⟨[], List.not_mem_nil _, rfl, by rw [hc]; rfl⟩
    · simp only [splitLine, hc, if_false, Option.map_eq_some', Prod.mk.injEq] at h
      obtain ⟨⟨l, p⟩, hl, rfl, rfl⟩ := h
      obtain ⟨pre, hpre, rfl, rfl⟩ := splitLine_eq_some hl
      exact ⟨c :: pre, List.not_mem_cons_of_ne_of_not_mem (Ne.symm hc) hpre, rfl, rfl⟩

/-- `strings.Split(s, " ")` gives three fields exactly when `s` is three space-free fields
    joined by single spaces. -/
theorem splitOn_eq_three {line f0 f1 f2 : List UInt8} :
    line.splitOn space = [f0, f1, f2] ↔
      line = f0 ++ space :: (f1 ++ space :: f2) ∧ space ∉ f0 ∧ space ∉ f1 ∧ space ∉ f2 := by
  have hjoin : [space].intercalate [f0, f1, f2] = f0 ++ space :: (f1 ++ space :: f2) := by
    simp [List.intercalate]
  constructor
  · intro h
    have hs : ∀ x ∈ [f0, f1, f2], space ∉ x := fun x hx => not_mem_of_mem_splitOn (h ▸ hx)
    exact ⟨by rw [← hjoin, ← h, List.intercalate_splitOn], hs f0 (by simp), hs f1 (by simp),
      hs f2 (by simp)⟩
  · rintro ⟨rfl, h0, h1, h2⟩
    rw [← hjoin]
    exact List.splitOn_intercalate _ space (by simp [h0, h1, h2]) (by simp)

/-- The bytes of a numeral are a sign or digits: no space and no newline. -/
theorem Numeral.not_mem {f : List UInt8} {L : Int} (h : Numeral f L) : space ∉ f ∧ newline ∉ f := by
  obtain ⟨sg, ds, hsg, -, hds, rfl, -⟩ := h
  have hd := (allDigits_map hds).not_mem
  rcases hsg with rfl | rfl | rfl
  · exact hd
  all_goals exact ⟨List.not_mem_cons_of_ne_of_not_mem (by decide) hd.1,
    List.not_mem_cons_of_ne_of_not_mem (by decide) hd.2⟩

/-- The first line ends with the third field: the name and the newline. -/
theorem line_eq_fields {pre f0 f1 f2 : List UInt8}
    (h : pre ++ [newline] = f0 ++ space :: (f1 ++ space :: f2)) :
    ∃ name, f2 = name ++ [newline] ∧ pre = f0 ++ space :: (f1 ++ space :: name) := by
  rcases List.eq_nil_or_concat f2 with rfl | ⟨name, b, rfl⟩
  · have h' : pre ++ [newline] = (f0 ++ space :: f1) ++ [space] := by simp [h]
    exact absurd (List.append_inj' h' rfl).2 (by decide)
  · have h' : pre ++ [newline] = (f0 ++ space :: (f1 ++ space :: name)) ++ [b] := by simp [h]
    obtain ⟨hpre, hb⟩ := List.append_inj' h' rfl
    obtain rfl := List.singleton_inj.mp hb
    exact ⟨name, List.concat_eq_append _ _, hpre⟩

/-- **The copy-header grammar, byte by byte.** On every split of the stream into reads,
    `Download`'s reader goroutine sends no error exactly when the stream is: a first field of
    five bytes starting with `C`, a space, a decimal numeral of an `int64` `L` (an optional `+`
    or `-` and one or more digits), a space, a name, a newline, and then, unless `L` is
    negative, at least `L` more bytes; with no space and no newline inside the fields. -/
theorem download_accepts_iff (chunks : List (List UInt8)) :
    (downloadReader ⟨[], chunks⟩).err = none ↔
      ∃ f0 f1 name post L, chunks.flatten = f0 ++ space :: (f1 ++ space :: (name ++ newline :: post)) ∧
        f0.length = 5 ∧ f0.head? = some 67 ∧ space ∉ f0 ∧ newline ∉ f0 ∧ Numeral f1 L ∧
        space ∉ name ∧ newline ∉ name ∧ (L < 0 ∨ L.toNat ≤ post.length) := by
  have hv : (downloadReader ⟨[], chunks⟩).err = (readerSpec chunks.flatten).1 := by
    simpa [ReaderRun.view] using congrArg Prod.fst (downloadReader_view ⟨[], chunks⟩)
  rw [hv, readerSpec_ok_iff]
  constructor
  · rintro ⟨line, post, f0, f1, f2, L, hl, hf, h5, hC, hL, hpost⟩
    obtain ⟨pre, hpre, rfl, hs⟩ := splitLine_eq_some hl
    obtain ⟨hline, h0, h1, h2⟩ := splitOn_eq_three.mp hf
    obtain ⟨name, rfl, rfl⟩ := line_eq_fields hline
    simp only [List.mem_append, List.mem_cons, not_or] at hpre h2
    exact ⟨f0, f1, name, post, L, by simp [hs], h5, hC, h0, hpre.1, (parseInt_ok_iff _ _).mp hL,
      h2.1, hpre.2.2.2.2, hpost⟩
  · rintro ⟨f0, f1, name, post, L, hs, h5, hC, h0, hn0, hL, hname, hnn, hpost⟩
    have hpre : newline ∉ f0 ++ space :: (f1 ++ space :: name) := by
      simp only [List.mem_append, List.mem_cons, not_or]
      exact ⟨hn0, by decide, hL.not_mem.2, by decide, hnn⟩
    refine ⟨f0 ++ space :: (f1 ++ space :: (name ++ [newline])), post, f0, f1, name ++ [newline], L,
      ?_, splitOn_eq_three.mpr ⟨rfl, h0, hL.not_mem.1, by simp [hname]; decide⟩, h5, hC,
      (parseInt_ok_iff _ _).mpr hL, hpost⟩
    rw [hs]
    simpa using splitLine_line post hpre

example : (downloadReader ⟨[], [ascii "C0644 +0", ascii "05 f\nhello"]⟩).err = none := by decide

end Forge.Copy
