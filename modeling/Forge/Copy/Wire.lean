/-
  The byte-level pieces of the `scp` copy protocol that `pkg/ssh` speaks over a session's
  standard streams (`SSHClient.Upload`, `SSHClient.Download`).

  1. **Bytes** — Go strings are byte strings, so every wire value is a `List UInt8`; `ascii`
     turns a literal into its bytes.

  2. **Printing** — `fmt`'s integer verbs as `fmtInteger` computes them: the digit loop
     `for u >= base { buf[i] = digits[u%base]; u /= base }; buf[i] = digits[u]` (`digitLoop`,
     with an explicit loop bound so that it runs under `decide`), `%d` (`fmtD`) and `%#o`
     (`fmtSharpO`: a leading `0` is added only when the first digit is not already `0`).

  3. **Parsing** — `strconv.ParseInt(s, 10, 64)` with its sign handling, its `ParseUint` loop
     and both range checks, returning `ErrSyntax` or `ErrRange` as Go does.

  4. **The Upload header** — `"C%#o %d %s\n"` of `(mode, len(fileContent), path.Base(dst))`.

  The crux is `parseInt_fmtD`: printing a length with `%d` and parsing it back with
  `ParseInt` is the identity below `2^63`; and `fmtSharpO_of_three_digits`: `%#o` prints
  exactly four bytes for a mode in `[0o100, 0o777]`, and fewer below.
-/
import Mathlib.Data.List.Basic
import Mathlib.Algebra.Group.Nat.Basic

namespace Forge.Copy

/-! ## Bytes -/

/-- The bytes of an ASCII literal. -/
def ascii (s : String) : List UInt8 := s.toList.map fun c => c.toNat.toUInt8

/-- `' '` -/
def space : UInt8 := 32
/-- `'\n'` -/
def newline : UInt8 := 10
/-- `'/'` -/
def slash : UInt8 := 47

/-- The ASCII digit for a digit value (`digits[d]` in `fmtInteger`, below 10). -/
def digitByte (d : Nat) : UInt8 := (48 + d).toUInt8

/-- `'0' <= c && c <= '9'` -/
def isDigit (c : UInt8) : Bool := 48 ≤ c && c ≤ 57

theorem digitByte_toNat : ∀ d < 10, (digitByte d).toNat = 48 + d := by decide

theorem digitByte_inj : ∀ a < 10, ∀ b < 10, digitByte a = digitByte b → a = b := by decide

/-- A digit is not a sign. -/
theorem digitByte_not_sign : ∀ d < 10, digitByte d ≠ 43 ∧ digitByte d ≠ 45 := by decide

theorem isDigit_digitByte : ∀ d < 10, isDigit (digitByte d) = true := by decide

theorem toUInt8_toNat (a : UInt8) : a.toNat.toUInt8 = a :=
  UInt8.toNat.inj (UInt8.toNat_ofNat_of_lt a.toNat_lt_size)

/-- The bytes `'0'` to `'9'` are exactly the digits. -/
theorem isDigit_iff (c : UInt8) : isDigit c = true ↔ ∃ d < 10, c = digitByte d := by
  constructor
  · intro h
    have h1 : 48 ≤ c.toNat ∧ c.toNat ≤ 57 := by
      simpa [isDigit, UInt8.le_def, BitVec.le_def] using h
    refine ⟨c.toNat - 48, by omega, ?_⟩
    rw [digitByte, Nat.add_sub_cancel' h1.1, toUInt8_toNat]
  · rintro ⟨d, hd, rfl⟩
    exact isDigit_digitByte d hd

/-- A digit is neither a space nor a newline. -/
theorem digitByte_ne : ∀ d < 10, digitByte d ≠ space ∧ digitByte d ≠ newline := by decide

/-! ## `fmtInteger`'s digit loop -/

/-- The digit loop of `fmtInteger`, filling the buffer right to left in front of `acc`;
    `fuel` bounds the iterations and `u ≤ fuel` is always enough. -/
def digitLoop (base : Nat) : Nat → Nat → List Nat → List Nat
  | 0, u, acc => u :: acc
  | fuel + 1, u, acc =>
    if u < base then u :: acc else digitLoop base fuel (u / base) (u % base :: acc)

/-- The digit values `fmtInteger` prints for `u` in `base`, most significant first. -/
def fmtDigits (base u : Nat) : List Nat := digitLoop base u u []

/-- `%d` of a non-negative integer. -/
def fmtD (n : Nat) : List UInt8 := (fmtDigits 10 n).map digitByte

/-- `%#o`: the octal digits, with a `0` in front unless the first digit already is one. -/
def fmtSharpO (n : Nat) : List UInt8 :=
  let ds := (fmtDigits 8 n).map digitByte
  if ds.head? ≠ some (digitByte 0) then digitByte 0 :: ds else ds

theorem digitLoop_of_lt {b u : Nat} (n : Nat) (acc : List Nat) (h : u < b) :
    digitLoop b n u acc = u :: acc := by
  cases n <;> simp [digitLoop, h]

theorem digitLoop_of_le {b u n : Nat} (acc : List Nat) (h : b ≤ u) :
    digitLoop b (n + 1) u acc = digitLoop b n (u / b) (u % b :: acc) := by
  simp [digitLoop, Nat.not_lt.mpr h]

/-- Every printed digit is a digit of the base. -/
theorem digitLoop_lt_base {b : Nat} (hb : 2 ≤ b) :
    ∀ n u acc, u ≤ n → (∀ d ∈ acc, d < b) → ∀ d ∈ digitLoop b n u acc, d < b
  | 0, u, acc, hu, hacc => by simpa [digitLoop] using ⟨by omega, hacc⟩
  | n + 1, u, acc, hu, hacc => by
    by_cases hub : u < b
    · simpa [digitLoop_of_lt _ _ hub] using ⟨hub, hacc⟩
    · have : u / b < u := Nat.div_lt_self (by omega) (by omega)
      rw [digitLoop_of_le _ (by omega)]
      exact digitLoop_lt_base hb n _ _ (by omega) (by simpa using ⟨Nat.mod_lt _ (by omega), hacc⟩)

/-- Reading the printed digits back with Horner's rule recovers the value. -/
theorem foldl_digitLoop {b : Nat} (hb : 2 ≤ b) :
    ∀ n u acc, u ≤ n →
      (digitLoop b n u acc).foldl (fun m d => m * b + d) 0 =
        acc.foldl (fun m d => m * b + d) u := by
  intro n
  induction n with
  | zero => intro u acc _; simp [digitLoop]
  | succ n ih =>
    intro u acc hu
    by_cases hub : u < b
    · rw [digitLoop_of_lt _ _ hub]; simp
    · rw [digitLoop_of_le _ (by omega), ih _ _ ?_]
      · simp [Nat.div_add_mod']
      · have : u / b < u := Nat.div_lt_self (by omega) (by omega)
        omega

theorem fmtDigits_lt_base {b u : Nat} (hb : 2 ≤ b) : ∀ d ∈ fmtDigits b u, d < b :=
  digitLoop_lt_base hb u u [] le_rfl (by simp)

theorem foldl_fmtDigits {b u : Nat} (hb : 2 ≤ b) :
    (fmtDigits b u).foldl (fun m d => m * b + d) 0 = u := by
  simpa using foldl_digitLoop hb u u [] le_rfl

/-- Three digits exactly when `b² ≤ u < b³`. -/
theorem fmtDigits_three {b u : Nat} (hb : 2 ≤ b) (hlo : b * b ≤ u) (hhi : u < b * b * b) :
    fmtDigits b u = [u / b / b, u / b % b, u % b] := by
  have h4 : 2 * 2 ≤ b * b := Nat.mul_le_mul hb hb
  obtain ⟨k, rfl⟩ : ∃ k, u = k + 2 := ⟨u - 2, by omega⟩
  have h1 : b ≤ (k + 2) / b := (Nat.le_div_iff_mul_le (by omega)).mpr hlo
  have h2 : (k + 2) / b / b < b := by
    rw [Nat.div_div_eq_div_mul]
    exact (Nat.div_lt_iff_lt_mul (by omega)).mpr (by rwa [← Nat.mul_assoc])
  have h0 : b ≤ k + 2 := (Nat.le_mul_self b).trans hlo
  rw [fmtDigits, digitLoop_of_le _ h0, digitLoop_of_le _ h1, digitLoop_of_lt _ _ h2]

theorem digitLoop_ne_nil {b : Nat} : ∀ n u acc, digitLoop b n u acc ≠ [] := by
  intro n
  induction n with
  | zero => simp [digitLoop]
  | succ n ih => intro u acc; unfold digitLoop; split <;> simp [ih]

/-- `%d` prints a non-empty run of decimal digits. -/
theorem fmtDigits_cons (n : Nat) :
    ∃ d ds, fmtDigits 10 n = d :: ds ∧ ∀ x ∈ d :: ds, x < 10 := by
  obtain ⟨d, ds, h⟩ := List.exists_cons_of_ne_nil (digitLoop_ne_nil (b := 10) n n [])
  exact ⟨d, ds, h, h ▸ fmtDigits_lt_base (by omega)⟩

/-- `%#o` of a mode in `[0o100, 0o777]` is `0` and three octal digits, the first not `0`. -/
theorem fmtSharpO_of_three_digits {m : Nat} (hlo : 64 ≤ m) (hhi : m < 512) :
    fmtSharpO m = [digitByte 0, digitByte (m / 8 / 8), digitByte (m / 8 % 8), digitByte (m % 8)] := by
  have h3 := fmtDigits_three (b := 8) (u := m) (by omega) hlo hhi
  have hne : digitByte (m / 8 / 8) ≠ digitByte 0 := fun h =>
    absurd (digitByte_inj _ (by omega) _ (by omega) h) (by omega)
  simp [fmtSharpO, h3, hne]

/-! ## `strconv.ParseInt(s, 10, 64)` -/

/-- The `Err` of a `strconv.NumError`. -/
inductive NumErr where
  | errSyntax
  | errRange
  deriving DecidableEq, Repr

/-- `maxUint64` -/
def maxUint64 : Nat := 2 ^ 64 - 1

/-- The per-byte loop of `ParseUint(s, 10, 64)`, with its two range checks `n >= cutoff`
    (`cutoff = maxUint64/10 + 1`) and `n1 > maxVal` (`maxVal = maxUint64` at 64 bits). -/
def parseUintLoop : Nat → List UInt8 → Except NumErr Nat
  | n, [] => .ok n
  | n, c :: cs =>
    if isDigit c then
      if maxUint64 / 10 + 1 ≤ n then .error .errRange
      else if maxUint64 < n * 10 + (c.toNat - 48) then .error .errRange
      else parseUintLoop (n * 10 + (c.toNat - 48)) cs
    else .error .errSyntax

/-- `ParseUint(s, 10, 64)` -/
def parseUint (s : List UInt8) : Except NumErr Nat :=
  if s = [] then .error .errSyntax else parseUintLoop 0 s

/-- `ParseInt`'s sign: `if s[0] == '+' { s = s[1:] } else if s[0] == '-' { neg = true; s = s[1:] }` -/
def signSplit : List UInt8 → Bool × List UInt8
  | [] => (false, [])
  | c :: t => if c = 43 then (false, t) else if c = 45 then (true, t) else (false, c :: t)

/-- `ParseInt(s, 10, 64)`: an `ErrSyntax` of `ParseUint` is returned; after an `ErrRange`
    `ParseUint` returned `maxUint64`, which the `int64` cutoff `2^63` then rejects. -/
def parseInt (s : List UInt8) : Except NumErr Int :=
  if s = [] then .error .errSyntax
  else
    let (neg, t) := signSplit s
    match parseUint t with
    | .error .errSyntax => .error .errSyntax
    | r =>
      let un : Nat := match r with
        | .ok u => u
        | .error _ => maxUint64
      if !neg && 2 ^ 63 ≤ un then .error .errRange
      else if neg && 2 ^ 63 < un then .error .errRange
      else .ok (if neg then -(un : Int) else un)

theorem le_foldl_horner (ds : List Nat) : ∀ a, a ≤ ds.foldl (fun m d => m * 10 + d) a := by
  induction ds with
  | nil => intro a; exact le_rfl
  | cons d ds ih => intro a; exact le_trans (by omega) (ih (a * 10 + d))

/-- On printed digits whose value fits, the loop is Horner's rule. -/
theorem parseUintLoop_digits : ∀ (ds : List Nat) (a : Nat), (∀ d ∈ ds, d < 10) →
    ds.foldl (fun m d => m * 10 + d) a ≤ maxUint64 →
    parseUintLoop a (ds.map digitByte) = .ok (ds.foldl (fun m d => m * 10 + d) a) := by
  intro ds
  induction ds with
  | nil => intro a _ _; rfl
  | cons d ds ih =>
    intro a hds hfit
    have hd := hds d (List.mem_cons_self _ _)
    have hle := le_foldl_horner ds (a * 10 + d)
    simp only [List.foldl_cons] at hfit
    have hmax : maxUint64 = 18446744073709551615 := rfl
    simp only [List.map_cons, parseUintLoop, isDigit_digitByte d hd, digitByte_toNat d hd,
      Nat.add_sub_cancel_left, if_true, List.foldl_cons]
    rw [if_neg (by omega), if_neg (by omega)]
    exact ih _ (fun x hx => hds x (List.mem_cons_of_mem _ hx)) hfit

/-- **`%d` then `ParseInt` is the identity** on every length an `int` can hold. -/
theorem parseInt_fmtD {n : Nat} (hn : n < 2 ^ 63) : parseInt (fmtD n) = .ok n := by
  obtain ⟨d, ds, h, hdig⟩ := fmtDigits_cons n
  have hval : (d :: ds).foldl (fun m d => m * 10 + d) 0 = n := h ▸ foldl_fmtDigits (by omega)
  have hd := hdig d (List.mem_cons_self _ _)
  have hloop := parseUintLoop_digits _ 0 hdig (by rw [hval, maxUint64]; omega)
  rw [hval, List.map_cons] at hloop
  simp [parseInt, parseUint, fmtD, h, signSplit, digitByte_not_sign d hd, hloop]
  omega

/-! ## The Upload header -/

/-- `path.Base`: the last element of a slash-separated path once trailing slashes are gone;
    `"."` for the empty path and `"/"` for a path of slashes only. -/
def pathBase (p : List UInt8) : List UInt8 :=
  if p = [] then ascii "."
  else
    let trimmed := (p.reverse.dropWhile (· == slash)).reverse
    let last := (trimmed.reverse.takeWhile (· != slash)).reverse
    if last = [] then ascii "/" else last

/-- The header the Upload writer sends first:
    `fmt.Fprintf(w, "C%#o %d %s\n", mode, len(fileContent), remoteFileName)`. -/
def uploadHeader (mode : UInt32) (content dst : List UInt8) : List UInt8 :=
  ascii "C" ++ fmtSharpO mode.toNat ++ [space] ++ fmtD content.length ++ [space] ++
    pathBase dst ++ [newline]

/-- Everything the writer puts on the pipe when its writes go through: the header, the
    content (`io.Copy`) and the terminating `fmt.Fprint(w, "\x00")`. -/
def uploadStream (mode : UInt32) (content dst : List UInt8) : List UInt8 :=
  uploadHeader mode content dst ++ content ++ [0]

/-- Bytes that are all ASCII digits. -/
def AllDigits (l : List UInt8) : Prop := ∀ x ∈ l, ∃ d < 10, x = digitByte d

theorem AllDigits.not_mem {l : List UInt8} (h : AllDigits l) : space ∉ l ∧ newline ∉ l := by
  constructor <;> intro hx <;> obtain ⟨d, hd, he⟩ := h _ hx
  · exact (digitByte_ne d hd).1 he.symm
  · exact (digitByte_ne d hd).2 he.symm

theorem allDigits_map {ds : List Nat} (h : ∀ d ∈ ds, d < 10) : AllDigits (ds.map digitByte) := by
  intro x hx
  obtain ⟨d, hd, rfl⟩ := List.mem_map.mp hx
  exact ⟨d, h d hd, rfl⟩

theorem allDigits_fmtD (n : Nat) : AllDigits (fmtD n) :=
  allDigits_map fun d hd => fmtDigits_lt_base (by omega) d hd

theorem allDigits_fmtSharpO (n : Nat) : AllDigits (fmtSharpO n) := by
  have h := allDigits_map fun d hd => Nat.lt_trans (fmtDigits_lt_base (b := 8) (u := n)
    (by omega) d hd) (by omega)
  simp only [fmtSharpO]
  split
  · intro x hx
    rcases List.mem_cons.mp hx with rfl | hx
    · exact ⟨0, by omega, rfl⟩
    · exact h x hx
  · exact h

/-- The header is its three fields joined by single spaces, the newline ending the last. -/
theorem uploadHeader_eq_intercalate (mode : UInt32) (content dst : List UInt8) :
    uploadHeader mode content dst = [space].intercalate
      [ascii "C" ++ fmtSharpO mode.toNat, fmtD content.length, pathBase dst ++ [newline]] := by
  simp [uploadHeader, List.intercalate]

/-- **The header splits into its three fields** when the basename holds no space. -/
theorem splitOn_uploadHeader {mode : UInt32} {content dst : List UInt8}
    (hbase : space ∉ pathBase dst) :
    (uploadHeader mode content dst).splitOn space =
      [ascii "C" ++ fmtSharpO mode.toNat, fmtD content.length, pathBase dst ++ [newline]] := by
  rw [uploadHeader_eq_intercalate]
  refine List.splitOn_intercalate _ _ ?_ (by simp)
  have hC : space ∉ ascii "C" := by decide
  have hnl : space ≠ newline := by decide
  simp only [List.mem_cons, List.mem_singleton, List.not_mem_nil, or_false, forall_eq_or_imp,
    forall_eq, List.mem_append]
  exact ⟨by simpa [hC] using (allDigits_fmtSharpO _).not_mem.1, (allDigits_fmtD _).not_mem.1,
    by simp [hbase, hnl]⟩

end Forge.Copy
