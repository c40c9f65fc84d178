/-
  Where `SSHClient.Upload` puts the file: it runs `/usr/bin/scp -t` + `remoteDir`, with
  `remoteDir := path.Dir(dst)` unquoted, through the remote shell, and names the file
  `remoteFileName := path.Base(dst)` in the copy header; the remote `scp` creates that name in
  the directory it is given.

  1. **Program** — Go's `path.Clean`, `path.Split` and `path.Dir`, byte for byte (`path.Base` is
     `pathBase` in `Forge.Copy.Wire`). `cleanLoop` is `Clean`'s loop over `path[r:]` with its
     three cases for an empty, a `.` and a `..` element and its copy of a real one; `unwind` is
     its backtracking on `..`, which stops at `dotdot`, past the root or past the leading `..`s
     of a relative path. The `lazybuf` is seen as the bytes written so far.

  2. **Specification** — `Clean`'s rules on elements (`CleanStack.push`): an empty or `.`
     element goes, `..` removes the real element before it, and with none is kept in a relative
     path and dropped at the root. `cleanSpec` renders the stack of a path's elements.

  3. **Refinement** — `pathClean_eq_cleanSpec`: on every path the byte loop computes the rules.
     The invariant (`LoopAt`, `CopyAt`) is that the bytes written are the stack joined by `/`
     (`CleanStack.out`) and `dotdot` is where its `..`s end; `cleanLoop_spec` proves it case by
     case of the loop, by the loop's own induction.

  4. **Upload's target** — `upload_target`: for every destination with a byte other than `/`,
     the command `scp -t` + `Dir`, split into words by the remote shell (`shellWords`), gives
     `scp` the one target `Dir` when its bytes are literal, and never when it holds a space
     (`/tmp/my dir/` gives two); `Dir` joined with `Base` cleans to `path.Clean(dst)`, except
     when `dst` ends with `/`: then the file is created one level below `dst`, named after its
     last element (`/tmp/` gives `/tmp/tmp`).
-/
import Forge.Copy.Wire

namespace Forge.Copy

/-! ## `path.Clean`, `path.Split`, `path.Dir` -/

/-- `'.'` -/
def dot : UInt8 := 46

/-- `out.w--` and `for out.w > dotdot && out.index(out.w) != '/' { out.w-- }`, on the bytes
    written so far, last first: drop the last byte, and go on while more than `dotdot` bytes
    are left and the byte dropped was not `/`. -/
def unwind (dotdot : Nat) : List UInt8 → List UInt8
  | [] => []
  | c :: rest => if dotdot < rest.length ∧ c ≠ slash then unwind dotdot rest else rest

/-- The backtracking of a `..` element on the bytes `out` written so far. -/
def backtrack (dotdot : Nat) (out : List UInt8) : List UInt8 := (unwind dotdot out.reverse).reverse

/-- `if rooted && out.w != 1 || !rooted && out.w != 0 { out.append('/') }` -/
def addSlash (rooted : Bool) (out : List UInt8) : List UInt8 :=
  if rooted && out.length != 1 || !rooted && out.length != 0 then out ++ [slash] else out

/-- The loop of `Clean` over the bytes `path[r:]` not yet read, with the bytes `out` written so
    far (`out.buf[:out.w]`) and `dotdot`; `copying` while its inner loop copies a real element. -/
def cleanLoop (rooted : Bool) : Bool → List UInt8 → List UInt8 → Nat → List UInt8
  | _, [], out, _ => out
  | true, c :: t, out, dotdot =>
    -- `for ; r < n && path[r] != '/'; r++ { out.append(path[r]) }`: a `/` ends the copy, and the
    -- next turn of the outer loop skips it as an empty element
    if c = slash then cleanLoop rooted false t out dotdot
    else cleanLoop rooted true t (out ++ [c]) dotdot
  | false, c :: t, out, dotdot =>
    -- empty path element
    if c = slash then cleanLoop rooted false t out dotdot
    -- `.` element
    else if c = dot ∧ (t = [] ∨ t.head? = some slash) then cleanLoop rooted false t out dotdot
    -- `..` element: remove to last `/`
    else if c = dot ∧ t.head? = some dot ∧ (t.tail = [] ∨ t.tail.head? = some slash) then
      match t with
      | _ :: u =>
        if dotdot < out.length then cleanLoop rooted false u (backtrack dotdot out) dotdot
        else if !rooted then
          let out := (if 0 < out.length then out ++ [slash] else out) ++ [dot, dot]
          cleanLoop rooted false u out out.length
        else cleanLoop rooted false u out dotdot
      | [] => out -- not reached: the condition gives `t` a first byte
    -- real path element: add slash if needed, and copy it
    else cleanLoop rooted true t (addSlash rooted out ++ [c]) dotdot

/-- An empty element is skipped. -/
theorem cleanLoop_slash (rooted : Bool) (t out : List UInt8) (dotdot : Nat) :
    cleanLoop rooted false (slash :: t) out dotdot = cleanLoop rooted false t out dotdot := by
  cases t <;> simp [cleanLoop]

/-- A `.` element is skipped. -/
theorem cleanLoop_dot (rooted : Bool) {t : List UInt8} (out : List UInt8) (dotdot : Nat)
    (ht : t = [] ∨ t.head? = some slash) :
    cleanLoop rooted false (dot :: t) out dotdot = cleanLoop rooted false t out dotdot := by
  have : dot ≠ slash := by decide
  cases t <;> simp_all [cleanLoop]

/-- A real element is copied, after a `/` when something is written. -/
theorem cleanLoop_real (rooted : Bool) {c : UInt8} {t : List UInt8} (out : List UInt8)
    (dotdot : Nat) (hc : c ≠ slash) (h1 : ¬(c = dot ∧ (t = [] ∨ t.head? = some slash)))
    (h2 : ¬(c = dot ∧ t.head? = some dot ∧ (t.tail = [] ∨ t.tail.head? = some slash))) :
    cleanLoop rooted false (c :: t) out dotdot =
      cleanLoop rooted true t (addSlash rooted out ++ [c]) dotdot := by
  cases t with
  | nil => simp_all [cleanLoop]
  | cons d u => rw [cleanLoop.eq_3, if_neg hc, if_neg h1, if_neg h2]

/-- `path.Clean`: the loop from `r, dotdot = 1, 1` after the `/` of a rooted path, and `"."`
    for an empty result. The `lazybuf` is seen as the bytes written: it copies the input only
    once the output differs from it, which saves an allocation and changes no byte. -/
def pathClean : List UInt8 → List UInt8
  | [] => [dot]
  | c :: t =>
    let out := if c = slash then cleanLoop true false t [slash] 1 else cleanLoop false false (c :: t) [] 0
    if out = [] then [dot] else out

/-- `path.Split`: `path[:i+1], path[i+1:]`, `i` the last index of `/` (`-1` when there is none). -/
def pathSplit (p : List UInt8) : List UInt8 × List UInt8 :=
  ((p.reverse.dropWhile (· != slash)).reverse, (p.reverse.takeWhile (· != slash)).reverse)

/-- `path.Dir`: `dir, _ := Split(path); return Clean(dir)` -/
def pathDir (p : List UInt8) : List UInt8 := pathClean (pathSplit p).1

/-! ## `Clean`'s rules on elements -/

/-- An element `Clean` keeps as it is: not empty, not `.` or `..`, no `/` in it. -/
def RealElem (e : List UInt8) : Prop := e ≠ [] ∧ slash ∉ e ∧ e ≠ [dot] ∧ e ≠ [dot, dot]

/-- The elements `Clean` has kept: `ups` leading `..` elements, then real ones. -/
structure CleanStack where
  ups : Nat
  names : List (List UInt8)
  deriving DecidableEq, Repr

namespace CleanStack

/-- The elements, in order. -/
def elems (s : CleanStack) : List (List UInt8) := List.replicate s.ups [dot, dot] ++ s.names

/-- `Clean`'s rules for one element: an empty or `.` element goes; `..` removes the real element
    before it, and with none is kept in a relative path and dropped at the root; a real element
    is kept. -/
def push (rooted : Bool) (s : CleanStack) (e : List UInt8) : CleanStack :=
  if e = [] ∨ e = [dot] then s
  else if e = [dot, dot] then
    match s.names with
    | [] => if rooted then s else ⟨s.ups + 1, []⟩
    | _ :: _ => ⟨s.ups, s.names.dropLast⟩
  else ⟨s.ups, s.names ++ [e]⟩

/-- The elements joined by `/`, after a `/` for a rooted path. -/
def out (rooted : Bool) (s : CleanStack) : List UInt8 :=
  (if rooted then [slash] else []) ++ [slash].intercalate s.elems

/-- The path: `"."` for a relative path with no element. -/
def path (rooted : Bool) (s : CleanStack) : List UInt8 :=
  if s.out rooted = [] then [dot] else s.out rooted

/-- How far a `..` may remove: past the root, or past the leading `..` elements. -/
def dotdot (rooted : Bool) (s : CleanStack) : Nat := (out rooted ⟨s.ups, []⟩).length

/-- A stack `Clean` can reach: real names, and no `..` at the root. -/
structure Wf (rooted : Bool) (s : CleanStack) : Prop where
  real : ∀ e ∈ s.names, RealElem e
  ups_rooted : rooted = true → s.ups = 0

end CleanStack

/-- `Clean` on elements: the path's elements through `CleanStack.push`. -/
def cleanSpec (p : List UInt8) : List UInt8 :=
  let rooted := p.head? == some slash
  ((p.splitOn slash).foldl (CleanStack.push rooted) ⟨0, []⟩).path rooted


/-! ## Elements of a path -/

section Elements

theorem splitOn_slash_cons (t : List UInt8) : (slash :: t).splitOn slash = [] :: t.splitOn slash := by
  simp [List.splitOn, List.splitOnP_cons]

theorem splitOn_cons_of_ne {c : UInt8} (t : List UInt8) (hc : c ≠ slash) :
    (c :: t).splitOn slash = (t.splitOn slash).modifyHead (c :: ·) := by
  simp [List.splitOn, List.splitOnP_cons, hc]

theorem splitOn_eq_cons (t : List UInt8) : ∃ f o, t.splitOn slash = f :: o := by
  cases h : t.splitOn slash with
  | nil => exact absurd h (List.splitOnP_ne_nil _ _)
  | cons f o => exact ⟨f, o, rfl⟩

/-- No piece holds a byte the split is on. -/
theorem not_of_mem_splitOnP {p : UInt8 → Bool} :
    ∀ {t x : List UInt8}, x ∈ t.splitOnP p → ∀ c ∈ x, p c = false
  | [], x, hx => by simp_all
  | c :: t, x, hx => by
    have ih : ∀ y ∈ t.splitOnP p, ∀ c ∈ y, p c = false := fun y hy => not_of_mem_splitOnP hy
    obtain ⟨f, o, h⟩ := List.exists_cons_of_ne_nil (List.splitOnP_ne_nil p t)
    rw [List.splitOnP_cons] at hx
    split_ifs at hx with hc
    · rcases List.mem_cons.mp hx with rfl | hx
      exacts [by simp, ih x hx]
    · rw [h, List.modifyHead_cons, List.mem_cons] at hx
      rcases hx with rfl | hx
      · rintro d (_ | ⟨_, hd⟩)
        exacts [by simpa using hc, ih f (h ▸ List.mem_cons_self f o) d hd]
      · exact ih x (h ▸ List.mem_cons_of_mem f hx)

/-- No element holds the separator. -/
theorem not_mem_of_mem_splitOn {sep : UInt8} {t x : List UInt8} (hx : x ∈ t.splitOn sep) :
    sep ∉ x := fun hm => by simpa using not_of_mem_splitOnP hx sep hm

/-- A path that is empty or starts with `/` has an empty first element. -/
theorem splitOn_of_head {t : List UInt8} (h : t = [] ∨ t.head? = some slash) :
    ∃ o, t.splitOn slash = [] :: o := by
  rcases h with rfl | h
  · exact ⟨[], rfl⟩
  · obtain ⟨t, rfl⟩ : ∃ t', t = slash :: t' := by
      cases t with
      | nil => simp at h
      | cons c t' => simp only [List.head?_cons, Option.some.injEq] at h; exact ⟨t', h ▸ rfl⟩
    exact ⟨_, splitOn_slash_cons t⟩

/-- An empty first element means the path is empty or starts with `/`. -/
theorem head_of_splitOn {t : List UInt8} {o : List (List UInt8)} (h : t.splitOn slash = [] :: o) :
    t = [] ∨ t.head? = some slash := by
  cases t with
  | nil => exact .inl rfl
  | cons c t =>
    by_cases hc : c = slash
    · exact .inr (by simp [hc])
    · obtain ⟨f, o', h'⟩ := splitOn_eq_cons t
      rw [splitOn_cons_of_ne t hc, h'] at h
      simp at h

/-- `xs ++ "/" ++ ys` has the elements of `xs`, then those of `ys`. -/
theorem splitOn_append_slash (ys : List UInt8) :
    ∀ xs : List UInt8, (xs ++ slash :: ys).splitOn slash = xs.splitOn slash ++ ys.splitOn slash
  | [] => by simp [splitOn_slash_cons, List.splitOn_nil]
  | c :: xs => by
    by_cases hc : c = slash
    · subst hc
      simp only [List.cons_append, splitOn_slash_cons, splitOn_append_slash ys xs, List.cons_append]
    · obtain ⟨f, o, h⟩ := splitOn_eq_cons xs
      simp only [List.cons_append, splitOn_cons_of_ne _ hc, splitOn_append_slash ys xs, h,
        List.cons_append, List.modifyHead_cons]

theorem splitOn_of_not_mem {f : List UInt8} (h : slash ∉ f) : f.splitOn slash = [f] :=
  List.splitOnP_eq_single _ _ fun x hx hx' => h (by simpa using (beq_iff_eq.mp hx') ▸ hx)

end Elements

/-! ## The stack -/

namespace CleanStack

theorem intercalate_snoc (e : List UInt8) :
    ∀ l : List (List UInt8),
      [slash].intercalate (l ++ [e]) = if l = [] then e else [slash].intercalate l ++ slash :: e
  | [] => by simp [List.intercalate]
  | [a] => by simp [List.intercalate]
  | a :: b :: l => by
    have ih := intercalate_snoc e (b :: l)
    simp only [List.cons_append, reduceCtorEq, if_false] at ih ⊢
    simp only [List.intercalate, List.intersperse_cons_cons, List.flatten_cons] at ih ⊢
    rw [ih]; simp

theorem intercalate_eq_nil {l : List (List UInt8)} (h : ∀ x ∈ l, x ≠ []) :
    [slash].intercalate l = [] ↔ l = [] := by
  constructor
  · intro hl
    cases l with
    | nil => rfl
    | cons a l =>
      cases l with
      | nil => exact absurd (by simpa [List.intercalate] using hl) (h a (by simp))
      | cons b l => simp [List.intercalate, List.intersperse_cons_cons] at hl
  · rintro rfl; rfl

/-- `Clean` adds a `/` before an element exactly when one is already written. -/
theorem addSlash_out (r : Bool) {s : CleanStack} (hne : ∀ x ∈ s.elems, x ≠ []) :
    addSlash r (s.out r) = if s.elems = [] then s.out r else s.out r ++ [slash] := by
  by_cases hs : s.elems = []
  · cases r <;> simp [out, addSlash, hs, List.intercalate]
  · have hI : [slash].intercalate s.elems ≠ [] := fun h' => hs ((intercalate_eq_nil hne).mp h')
    cases r <;> simp [out, addSlash, hs, hI]

/-- The bytes written for a stack with one more element. -/
theorem out_of_elems {r : Bool} {s s' : CleanStack} {e : List UInt8} (h : s'.elems = s.elems ++ [e])
    (hne : ∀ x ∈ s.elems, x ≠ []) : s'.out r = addSlash r (s.out r) ++ e := by
  rw [addSlash_out r hne]
  by_cases hs : s.elems = []
  · simp [out, h, hs, List.intercalate]
  · simp [out, h, hs, intercalate_snoc]

theorem elems_snoc (u : Nat) (ns : List (List UInt8)) (e : List UInt8) :
    (⟨u, ns ++ [e]⟩ : CleanStack).elems = (⟨u, ns⟩ : CleanStack).elems ++ [e] := by
  simp [elems]

theorem elems_up (u : Nat) :
    (⟨u + 1, []⟩ : CleanStack).elems = (⟨u, []⟩ : CleanStack).elems ++ [[dot, dot]] := by
  simp [elems, List.replicate_succ']

@[simp] theorem push_nil (r : Bool) (s : CleanStack) : s.push r [] = s := by simp [push]
@[simp] theorem push_dot (r : Bool) (s : CleanStack) : s.push r [dot] = s := by simp [push]

theorem push_real (r : Bool) (s : CleanStack) {e : List UInt8} (he : RealElem e) :
    s.push r e = ⟨s.ups, s.names ++ [e]⟩ := by
  simp [push, he.1, he.2.2.1, he.2.2.2]

theorem push_dotdot_snoc (r : Bool) (u : Nat) (ns : List (List UInt8)) (e : List UInt8) :
    (⟨u, ns ++ [e]⟩ : CleanStack).push r [dot, dot] = ⟨u, ns⟩ := by
  cases ns <;> simp [push, dot, List.dropLast_cons_of_ne_nil]

theorem push_dotdot_nil (r : Bool) (u : Nat) :
    (⟨u, []⟩ : CleanStack).push r [dot, dot] = if r then ⟨u, []⟩ else ⟨u + 1, []⟩ := by
  cases r <;> simp [push, dot]

theorem Wf.snoc {r : Bool} {s : CleanStack} (hw : s.Wf r) {e : List UInt8} (he : RealElem e) :
    (⟨s.ups, s.names ++ [e]⟩ : CleanStack).Wf r :=
  ⟨fun x hx => (List.mem_append.mp hx).elim (hw.real x) fun h => List.mem_singleton.mp h ▸ he,
    hw.ups_rooted⟩

theorem Wf.init {r : Bool} {u : Nat} {ns : List (List UInt8)} {e : List UInt8}
    (hw : (⟨u, ns ++ [e]⟩ : CleanStack).Wf r) : (⟨u, ns⟩ : CleanStack).Wf r :=
  ⟨fun x hx => hw.real x (List.mem_append_left _ hx), hw.ups_rooted⟩

theorem Wf.push {r : Bool} {s : CleanStack} (hw : s.Wf r) {e : List UInt8} (he : slash ∉ e) :
    (s.push r e).Wf r := by
  obtain ⟨u, ns⟩ := s
  by_cases h1 : e = [] ∨ e = [dot]
  · simpa [CleanStack.push, h1] using hw
  by_cases h2 : e = [dot, dot]
  · subst h2
    rcases List.eq_nil_or_concat ns with rfl | ⟨ns, e, rfl⟩
    · rw [push_dotdot_nil]
      cases r
      · exact ⟨by simp, by simp⟩
      · exact hw
    · rw [List.concat_eq_append, push_dotdot_snoc] at *
      exact hw.init
  · rw [push_real r _ ⟨fun h => h1 (.inl h), he, fun h => h1 (.inr h), h2⟩]
    exact hw.snoc ⟨fun h => h1 (.inl h), he, fun h => h1 (.inr h), h2⟩

theorem Wf.elems_ne_nil {r : Bool} {s : CleanStack} (hw : Wf r s) : ∀ x ∈ s.elems, x ≠ [] := by
  intro x hx
  rcases List.mem_append.mp hx with hx | hx
  · rw [List.eq_of_mem_replicate hx]; simp
  · exact (hw.real x hx).1

theorem out_snoc {r : Bool} {u : Nat} {ns : List (List UInt8)} {e : List UInt8}
    (hw : (⟨u, ns ++ [e]⟩ : CleanStack).Wf r) :
    (⟨u, ns ++ [e]⟩ : CleanStack).out r = addSlash r ((⟨u, ns⟩ : CleanStack).out r) ++ e :=
  out_of_elems (elems_snoc u ns e) hw.init.elems_ne_nil

theorem length_le_addSlash (r : Bool) (o : List UInt8) : o.length ≤ (addSlash r o).length := by
  unfold addSlash; split <;> simp

theorem dotdot_le_out {r : Bool} {u : Nat} {ns : List (List UInt8)}
    (hw : (⟨u, ns⟩ : CleanStack).Wf r) :
    (⟨u, ns⟩ : CleanStack).dotdot r ≤ ((⟨u, ns⟩ : CleanStack).out r).length := by
  induction ns using List.reverseRecOn with
  | nil => exact le_rfl
  | append_singleton ns e ih =>
    rw [out_snoc hw, List.length_append]
    exact le_trans (ih hw.init) (le_trans (length_le_addSlash r _) (Nat.le_add_right _ _))

/-- A `..` can remove exactly when there is a real element. -/
theorem dotdot_lt_out {r : Bool} {u : Nat} {ns : List (List UInt8)}
    (hw : (⟨u, ns⟩ : CleanStack).Wf r) :
    (⟨u, ns⟩ : CleanStack).dotdot r < ((⟨u, ns⟩ : CleanStack).out r).length ↔ ns ≠ [] := by
  rcases List.eq_nil_or_concat ns with rfl | ⟨ns, e, rfl⟩
  · simp [dotdot]
  · rw [List.concat_eq_append] at hw ⊢
    have he := (hw.real e (by simp)).1
    have hle := dotdot_le_out hw.init
    rw [out_snoc hw, List.length_append]
    have := length_le_addSlash r ((⟨u, ns⟩ : CleanStack).out r)
    have : 0 < e.length := List.length_pos.mpr he
    simp only [ne_eq, List.append_eq_nil, List.cons_ne_self, and_false, not_false_eq_true, iff_true]
    exact lt_of_le_of_lt hle (by simp only [dotdot] at *; omega)

end CleanStack

/-! ## The byte loop against the rules -/

theorem unwind_append {dd : Nat} {r : List UInt8} : ∀ {l : List UInt8}, l ≠ [] → slash ∉ l →
    dd ≤ r.length → unwind dd (l ++ r) = if dd < r.length then unwind dd r else r
  | [], h, _, _ => absurd rfl h
  | [c], _, hl, _ => by
    have hc : c ≠ slash := fun h => hl (h ▸ List.mem_singleton_self c)
    simp [unwind, hc]
  | c :: d :: l, _, hl, hr => by
    have hc : c ≠ slash := fun h => hl (h ▸ List.mem_cons_self c _)
    rw [List.cons_append, unwind, if_pos ⟨by simp; omega, hc⟩]
    exact unwind_append (List.cons_ne_nil d l) (fun h => hl (List.mem_cons_of_mem c h)) hr

/-- `..` on the bytes of a stack removes its last real element and the `/` before it. -/
theorem backtrack_snoc {r : Bool} {u : Nat} {ns : List (List UInt8)} {e : List UInt8}
    (hw : (⟨u, ns ++ [e]⟩ : CleanStack).Wf r) :
    backtrack ((⟨u, ns ++ [e]⟩ : CleanStack).dotdot r) ((⟨u, ns ++ [e]⟩ : CleanStack).out r) =
      (⟨u, ns⟩ : CleanStack).out r := by
  have he := hw.real e (by simp)
  have hle : (⟨u, ns ++ [e]⟩ : CleanStack).dotdot r ≤ ((⟨u, ns⟩ : CleanStack).out r).length :=
    CleanStack.dotdot_le_out hw.init
  rw [CleanStack.out_snoc hw, backtrack, List.reverse_append,
    unwind_append (by simpa using he.1) (by simpa using he.2.1)
      (by simpa using le_trans hle (CleanStack.length_le_addSlash r _)),
    CleanStack.addSlash_out r hw.init.elems_ne_nil]
  by_cases hs : (⟨u, ns⟩ : CleanStack).elems = []
  · obtain ⟨rfl, rfl⟩ : u = 0 ∧ ns = [] := by simpa [CleanStack.elems] using hs
    simp [hs, CleanStack.dotdot]
  · simp [hs, unwind, Nat.lt_succ_of_le hle]


/-- A first element `.` means the path starts with a `.` element. -/
theorem head_dot_of_splitOn {t : List UInt8} {o : List (List UInt8)}
    (h : t.splitOn slash = [dot] :: o) : ∃ u, t = dot :: u ∧ (u = [] ∨ u.head? = some slash) := by
  cases t with
  | nil => simp [List.splitOn_nil] at h
  | cons c u =>
    by_cases hc : c = slash
    · subst hc; simp [splitOn_slash_cons] at h
    · obtain ⟨f, o', h'⟩ := splitOn_eq_cons u
      rw [splitOn_cons_of_ne u hc, h', List.modifyHead_cons, List.cons.injEq, List.cons.injEq] at h
      obtain ⟨⟨rfl, rfl⟩, -⟩ := h
      exact ⟨u, rfl, head_of_splitOn h'⟩

/-- The element the loop's default case copies is real: it is not `.` or `..`, or one of the
    cases before would have been taken. -/
theorem realElem_cons {c : UInt8} {t f : List UInt8} {o : List (List UInt8)}
    (hf : t.splitOn slash = f :: o) (hc : c ≠ slash)
    (h1 : ¬(c = dot ∧ (t = [] ∨ t.head? = some slash)))
    (h2 : ¬(c = dot ∧ t.head? = some dot ∧ (t.tail = [] ∨ t.tail.head? = some slash))) :
    RealElem (c :: f) := by
  refine ⟨List.cons_ne_nil _ _, List.not_mem_cons_of_ne_of_not_mem (Ne.symm hc)
    (not_mem_of_mem_splitOn (hf ▸ List.mem_cons_self f o)), ?_, ?_⟩
  · rintro ⟨⟩
    exact h1 ⟨rfl, head_of_splitOn hf⟩
  · rintro ⟨⟩
    obtain ⟨u, rfl, hu⟩ := head_dot_of_splitOn hf
    exact h2 ⟨rfl, rfl, hu⟩

/-- A `..` element is followed by the end or by an empty element. -/
theorem splitOn_dotdot {u : List UInt8} (hu : u = [] ∨ u.head? = some slash) :
    ∃ o, u.splitOn slash = [] :: o ∧ (dot :: dot :: u).splitOn slash = [dot, dot] :: o := by
  obtain ⟨o, ho⟩ := splitOn_of_head hu
  have hd : dot ≠ slash := by decide
  exact ⟨o, ho, by rw [splitOn_cons_of_ne _ hd, splitOn_cons_of_ne _ hd, ho]; rfl⟩

theorem addSlash_false (out : List UInt8) :
    addSlash false out = if 0 < out.length then out ++ [slash] else out := by
  simp [addSlash, Nat.pos_iff_ne_zero]

/-- The loop at the start of an element computes the rules on the elements left. -/
def LoopAt (rooted : Bool) (rest out : List UInt8) (dd : Nat) : Prop :=
  ∀ s : CleanStack, s.Wf rooted → out = s.out rooted → dd = s.dotdot rooted →
    cleanLoop rooted false rest out dd =
      ((rest.splitOn slash).foldl (CleanStack.push rooted) s).out rooted

/-- The loop copying a real element `e ++ f`, with `e` written and `f` the bytes left of it. -/
def CopyAt (rooted : Bool) (rest out : List UInt8) (dd : Nat) : Prop :=
  ∀ (s : CleanStack) (e f : List UInt8) (o : List (List UInt8)), s.Wf rooted →
    rest.splitOn slash = f :: o → RealElem (e ++ f) →
    out = addSlash rooted (s.out rooted) ++ e → dd = s.dotdot rooted →
    cleanLoop rooted true rest out dd =
      (o.foldl (CleanStack.push rooted) ⟨s.ups, s.names ++ [e ++ f]⟩).out rooted

/-- **`Clean`'s loop computes the rules**, turn by turn: one case per case of the loop. -/
theorem cleanLoop_spec (rooted : Bool) :
    ∀ copying rest out dd, cond copying (CopyAt rooted rest out dd) (LoopAt rooted rest out dd) := by
  intro copying rest out dd
  induction copying, rest, out, dd using cleanLoop.induct rooted with
  | case1 copying out dd =>
    cases copying
    · intro s _ hout _
      simp [cleanLoop, hout, List.splitOn_nil]
    · intro s e f o hw hsplit he hout _
      simp only [List.splitOn_nil, List.cons.injEq] at hsplit
      obtain ⟨rfl, rfl⟩ := hsplit
      rw [List.append_nil] at he ⊢
      simp [cleanLoop, hout, CleanStack.out_snoc (hw.snoc he)]
  | case2 t out dd ih =>
    intro s e f o hw hsplit he hout hdd
    rw [splitOn_slash_cons, List.cons.injEq] at hsplit
    obtain ⟨rfl, rfl⟩ := hsplit
    rw [List.append_nil] at he ⊢
    simp only [cleanLoop, if_pos rfl]
    exact ih _ (hw.snoc he) (hout.trans (CleanStack.out_snoc (hw.snoc he)).symm) hdd
  | case3 c t out dd hc ih =>
    intro s e f o hw hsplit he hout hdd
    obtain ⟨f', o', h'⟩ := splitOn_eq_cons t
    rw [splitOn_cons_of_ne t hc, h', List.modifyHead_cons, List.cons.injEq] at hsplit
    obtain ⟨rfl, rfl⟩ := hsplit
    simp only [cleanLoop, if_neg hc]
    simpa using ih s (e ++ [c]) f' _ hw h' (by simpa using he) (by rw [hout, List.append_assoc]) hdd
  | case4 t out dd ih =>
    intro s hw hout hdd
    rw [cleanLoop_slash, splitOn_slash_cons, List.foldl_cons, CleanStack.push_nil]
    exact ih s hw hout hdd
  | case5 c t out dd hc hdot ih =>
    intro s hw hout hdd
    obtain ⟨o, ho⟩ := splitOn_of_head hdot.2
    rw [hdot.1, cleanLoop_dot rooted out dd hdot.2, ih s hw hout hdd, ho,
      splitOn_cons_of_ne t (by decide), ho]
    simp
  | case6 c out dd hc d u hlt h1 hdd ih =>
    rintro ⟨ups, names⟩ hw rfl rfl
    have hu : u = [] ∨ u.head? = some slash := hdd.2.2
    obtain ⟨rfl, rfl⟩ : c = dot ∧ d = dot := ⟨hdd.1, Option.some.inj hdd.2.1⟩
    obtain ⟨o, ho, hsplit⟩ := splitOn_dotdot hu
    rw [cleanLoop.eq_3, if_neg hc, if_neg h1, if_pos hdd, if_pos hlt]
    rcases List.eq_nil_or_concat names with rfl | ⟨ns, e, rfl⟩
    · exact absurd rfl ((CleanStack.dotdot_lt_out hw).mp hlt)
    simp only [List.concat_eq_append] at hw ih ⊢
    rw [ih _ hw.init (backtrack_snoc hw) rfl, hsplit, ho]
    simp [CleanStack.push_dotdot_snoc]
  | case7 c out dd hc d u hlt hr out' h1 hdd ih =>
    rintro ⟨ups, names⟩ hw rfl rfl
    have hu : u = [] ∨ u.head? = some slash := hdd.2.2
    obtain ⟨rfl, rfl⟩ : c = dot ∧ d = dot := ⟨hdd.1, Option.some.inj hdd.2.1⟩
    obtain ⟨o, ho, hsplit⟩ := splitOn_dotdot hu
    rw [cleanLoop.eq_3, if_neg hc, if_neg h1, if_pos hdd, if_neg hlt, if_pos hr]
    obtain rfl : rooted = false := by simpa using hr
    obtain rfl : names = [] := by simpa using mt (CleanStack.dotdot_lt_out hw).mpr hlt
    have hout : CleanStack.out false ⟨ups + 1, []⟩ =
        (if 0 < (CleanStack.out false ⟨ups, []⟩).length then CleanStack.out false ⟨ups, []⟩ ++ [slash]
          else CleanStack.out false ⟨ups, []⟩) ++ [dot, dot] := by
      rw [CleanStack.out_of_elems (CleanStack.elems_up ups) hw.elems_ne_nil, addSlash_false]
    refine (ih ⟨ups + 1, []⟩ ⟨by simp, by simp⟩ hout.symm (congrArg List.length hout.symm)).trans ?_
    rw [hsplit, ho]
    simp [CleanStack.push_dotdot_nil]
  | case8 c out dd hc d u hlt hr h1 hdd ih =>
    rintro ⟨ups, names⟩ hw rfl rfl
    have hu : u = [] ∨ u.head? = some slash := hdd.2.2
    obtain ⟨rfl, rfl⟩ : c = dot ∧ d = dot := ⟨hdd.1, Option.some.inj hdd.2.1⟩
    obtain ⟨o, ho, hsplit⟩ := splitOn_dotdot hu
    rw [cleanLoop.eq_3, if_neg hc, if_neg h1, if_pos hdd, if_neg hlt, if_neg hr]
    obtain rfl : rooted = true := by simpa using hr
    obtain rfl : names = [] := by simpa using mt (CleanStack.dotdot_lt_out hw).mpr hlt
    rw [ih _ hw rfl rfl, hsplit, ho]
    simp [CleanStack.push_dotdot_nil]
  | case9 c out dd hc h1 hdd =>
    simp at hdd
  | case10 c t out dd hc h1 h2 ih =>
    intro s hw hout hdd
    obtain ⟨f, o, hf⟩ := splitOn_eq_cons t
    have he := realElem_cons hf hc h1 h2
    rw [cleanLoop_real rooted out dd hc h1 h2, ih s [c] f o hw hf he (by rw [hout]) hdd, splitOn_cons_of_ne t hc, hf,
      List.modifyHead_cons, List.foldl_cons, CleanStack.push_real rooted s he]
    rfl


/-- **`path.Clean` computes `Clean`'s rules**: the byte loop, with its backtracking on `..` and
    its `dotdot` barrier, is `cleanSpec` on every path. -/
theorem pathClean_eq_cleanSpec (p : List UInt8) : pathClean p = cleanSpec p := by
  cases p with
  | nil => rfl
  | cons c t =>
    by_cases hc : c = slash
    · subst hc
      have h := cleanLoop_spec true false t [slash] 1 ⟨0, []⟩ ⟨by simp, fun _ => rfl⟩ rfl rfl
      simp only [pathClean, if_pos rfl] at h ⊢
      simp [cleanSpec, h, splitOn_slash_cons, CleanStack.path]
    · have h := cleanLoop_spec false false (c :: t) [] 0 ⟨0, []⟩ ⟨by simp, by simp⟩ rfl rfl
      have hb : (c == slash) = false := beq_false_of_ne hc
      simp only [pathClean, if_neg hc] at h ⊢
      simp [cleanSpec, h, hb, CleanStack.path]


/-! ## Cleaning again -/

namespace CleanStack

theorem foldl_push_real (r : Bool) :
    ∀ (es : List (List UInt8)) (s : CleanStack), (∀ e ∈ es, RealElem e) →
      es.foldl (push r) s = ⟨s.ups, s.names ++ es⟩
  | [], s, _ => by simp
  | e :: es, s, h => by
    rw [List.foldl_cons, push_real r s (h e (List.mem_cons_self _ _)),
      foldl_push_real r es _ fun x hx => h x (List.mem_cons_of_mem _ hx)]
    simp

theorem foldl_push_ups :
    ∀ k u : Nat, (List.replicate k [dot, dot]).foldl (push false) ⟨u, []⟩ = ⟨u + k, []⟩
  | 0, u => rfl
  | k + 1, u => by
    rw [List.replicate_succ, List.foldl_cons, push_dotdot_nil, if_neg (by decide),
      foldl_push_ups k (u + 1), Nat.add_right_comm, Nat.add_assoc]

theorem Wf.foldl {r : Bool} :
    ∀ (es : List (List UInt8)) {s : CleanStack}, s.Wf r → (∀ e ∈ es, slash ∉ e) →
      (es.foldl (CleanStack.push r) s).Wf r
  | [], _, hw, _ => hw
  | e :: es, _, hw, h =>
    Wf.foldl es (hw.push (h e (List.mem_cons_self _ _))) fun x hx => h x (List.mem_cons_of_mem _ hx)

/-- The elements of a stack, read again, rebuild it. -/
theorem Wf.foldl_elems {r : Bool} {s : CleanStack} (hw : s.Wf r) :
    s.elems.foldl (CleanStack.push r) ⟨0, []⟩ = s := by
  obtain ⟨u, ns⟩ := s
  rw [elems, List.foldl_append]
  cases r
  · rw [foldl_push_ups, foldl_push_real false ns _ hw.real]; simp
  · obtain rfl : u = 0 := hw.ups_rooted rfl
    rw [List.replicate_zero, List.foldl_nil, foldl_push_real true ns _ hw.real]; simp

theorem Wf.slash_not_mem {r : Bool} {s : CleanStack} (hw : s.Wf r) : ∀ x ∈ s.elems, slash ∉ x := by
  intro x hx
  rcases List.mem_append.mp hx with hx | hx
  · rw [List.eq_of_mem_replicate hx]; decide
  · exact (hw.real x hx).2.1

/-- **A cleaned path is clean**: its elements, read again, rebuild the stack. -/
theorem Wf.splitOn_path {r : Bool} {s : CleanStack} (hw : s.Wf r) :
    ((s.path r).splitOn slash).foldl (CleanStack.push r) ⟨0, []⟩ = s := by
  by_cases hs : s.elems = []
  · obtain ⟨u, ns⟩ := s
    obtain ⟨rfl, rfl⟩ : u = 0 ∧ ns = [] := by simpa [elems] using hs
    cases r
    · simp [path, out, hs, List.intercalate, splitOn_of_not_mem (by decide : slash ∉ [dot])]
    · simp [path, out, hs, List.intercalate, splitOn_slash_cons, List.splitOn_nil]
  · have hsplit := List.splitOn_intercalate _ slash hw.slash_not_mem hs
    have hI : [slash].intercalate s.elems ≠ [] :=
      fun h => hs ((intercalate_eq_nil hw.elems_ne_nil).mp h)
    cases r
    · simp [path, out, hI, hsplit, hw.foldl_elems]
    · simp [path, out, splitOn_slash_cons, hsplit, hw.foldl_elems]

/-- A cleaned path starts with `/` exactly when it is rooted. -/
theorem Wf.path_head {r : Bool} {s : CleanStack} (hw : s.Wf r) :
    ((s.path r).head? == some slash) = r := by
  cases r
  · by_cases hs : s.elems = []
    · simp [path, out, hs, List.intercalate]; decide
    · obtain ⟨e, es, he⟩ := List.exists_cons_of_ne_nil hs
      have hne := hw.elems_ne_nil e (he ▸ List.mem_cons_self e es)
      have hns := hw.slash_not_mem e (he ▸ List.mem_cons_self e es)
      obtain ⟨a, t, rfl⟩ := List.exists_cons_of_ne_nil hne
      have ha : a ≠ slash := fun h => hns (h ▸ List.mem_cons_self a t)
      cases es <;> simp [path, out, he, List.intercalate, ha]
  · simp [path, out]

end CleanStack


/-- Cleaning a cleaned directory joined by `/` to a name is cleaning the directory and the name
    together. -/
theorem cleanSpec_join {d f : List UInt8} (hd : d = [] ∨ d.getLast? = some slash) (hf : f ≠ [])
    (hfs : slash ∉ f) : cleanSpec (cleanSpec d ++ slash :: f) = cleanSpec (d ++ f) := by
  have hf0 : (f.head? == some slash) = false := by
    refine beq_false_of_ne fun h => hfs ?_
    obtain ⟨a, t, rfl⟩ := List.exists_cons_of_ne_nil hf
    exact Option.some.inj h ▸ List.mem_cons_self a t
  -- the stack of `d`, rooted as `d` is
  let r := d.head? == some slash
  let S := (d.splitOn slash).foldl (CleanStack.push r) ⟨0, []⟩
  have hw : S.Wf r := CleanStack.Wf.foldl _ ⟨by simp, by simp⟩ fun e he => not_mem_of_mem_splitOn he
  have hl : cleanSpec (S.path r ++ slash :: f) = (S.push r f).path r := by
    have hne : S.path r ≠ [] := by unfold CleanStack.path; split <;> simp_all
    have hroot : ((S.path r ++ slash :: f).head? == some slash) = r := by
      rw [List.head?_append_of_ne_nil _ hne]; exact hw.path_head
    simp only [cleanSpec, hroot, splitOn_append_slash, splitOn_of_not_mem hfs, List.foldl_append,
      hw.splitOn_path, List.foldl_cons, List.foldl_nil]
  have hr : cleanSpec (d ++ f) = (S.push r f).path r := by
    rcases hd with rfl | hd
    · simp [cleanSpec, S, r, hf0, splitOn_of_not_mem hfs, List.splitOn_nil]
    · obtain ⟨d', rfl⟩ := List.getLast?_eq_some_iff.mp hd
      have hroot : ((d' ++ slash :: f).head? == some slash) = r := by cases d' <;> rfl
      simp only [cleanSpec, hroot, List.append_assoc, List.singleton_append, splitOn_append_slash,
        splitOn_of_not_mem hfs, List.foldl_append, List.foldl_cons, List.foldl_nil, S,
        List.splitOn_nil, CleanStack.push_nil]
  exact (congrArg (fun p => cleanSpec (p ++ slash :: f)) rfl).trans (hl.trans hr.symm)


/-- `Clean` of a cleaned path is the path itself: its head gives back the rooting and its elements
    the stack. -/
theorem cleanSpec_cleanSpec (p : List UInt8) : cleanSpec (cleanSpec p) = cleanSpec p := by
  set r := p.head? == some slash
  set S := (p.splitOn slash).foldl (CleanStack.push r) ⟨0, []⟩
  have hw : S.Wf r := CleanStack.Wf.foldl _ ⟨by simp, by simp⟩ fun e he => not_mem_of_mem_splitOn he
  have hp : cleanSpec p = S.path r := rfl
  rw [hp]
  simp only [cleanSpec, hw.path_head, hw.splitOn_path]

/-- **`path.Clean` is idempotent**: on every path, the byte loop run on its own output gives
    that output back. So `path.Dir`, which ends in `Clean`, hands `scp -t` a clean directory. -/
theorem pathClean_pathClean (p : List UInt8) : pathClean (pathClean p) = pathClean p :=
  calc pathClean (pathClean p)
      = cleanSpec (cleanSpec p) := by rw [pathClean_eq_cleanSpec, pathClean_eq_cleanSpec]
    _ = cleanSpec p := cleanSpec_cleanSpec p
    _ = pathClean p := (pathClean_eq_cleanSpec p).symm

/-! ## The command `Upload` runs -/

/-- `fmt.Sprintf("/usr/bin/scp -t %s", remoteDir)`: the command `Upload` hands `session.Run`,
    with `remoteDir` spliced in unquoted. -/
def scpCommand (remoteDir : List UInt8) : List UInt8 := ascii "/usr/bin/scp -t " ++ remoteDir

/-- A blank, which ends a shell word: space, tab or newline. -/
def isBlank (b : UInt8) : Bool := b == space || b == 9 || b == newline

/-- A byte an unquoted word of the remote shell keeps as it is: a letter, a digit, or one of
    `/._-+,:@%`. -/
def shellLiteral (b : UInt8) : Bool :=
  (48 ≤ b && b ≤ 57) || (65 ≤ b && b ≤ 90) || (97 ≤ b && b ≤ 122) || (ascii "/._-+,:@%").contains b

/-- The words the remote shell (`sh -c`) makes of a command of such bytes and blanks: the
    non-empty runs between blanks. -/
def shellWords (cmd : List UInt8) : List (List UInt8) := (cmd.splitOnP isBlank).filter (· ≠ [])

theorem isBlank_of_shellLiteral {b : UInt8} (h : shellLiteral b = true) : isBlank b = false := by
  cases hb : isBlank b
  · rfl
  · simp only [isBlank, Bool.or_eq_true, beq_iff_eq] at hb
    rcases hb with (rfl | rfl) | rfl <;> exact absurd h (by decide)

/-- No word holds a blank. -/
theorem space_not_mem_of_mem_shellWords {cmd w : List UInt8} (hw : w ∈ shellWords cmd) :
    space ∉ w := fun hm => by
  simpa [isBlank] using not_of_mem_splitOnP (List.mem_filter.mp hw).1 space hm

theorem pathClean_ne_nil (p : List UInt8) : pathClean p ≠ [] := by
  cases p with
  | nil => simp [pathClean]
  | cons c t => simp only [pathClean]; split_ifs <;> simp_all

/-- **The remote `scp` gets one target**: a non-empty directory of literal bytes is the third
    word of the command, and the last. -/
theorem shellWords_scpCommand {d : List UInt8} (hd : d ≠ []) (hlit : ∀ b ∈ d, shellLiteral b) :
    shellWords (scpCommand d) = [ascii "/usr/bin/scp", ascii "-t", d] := by
  have hcmd : scpCommand d = ascii "/usr/bin/scp" ++ space :: (ascii "-t" ++ space :: d) := rfl
  rw [shellWords, hcmd, List.splitOnP_first _ _ (by decide) space rfl,
    List.splitOnP_first _ _ (by decide) space rfl,
    List.splitOnP_eq_single _ _ fun b hb => by simp [isBlank_of_shellLiteral (hlit b hb)]]
  simp [hd, show ascii "/usr/bin/scp" ≠ [] ∧ ascii "-t" ≠ [] by decide]

/-! ## `Upload`'s target -/

theorem pathSplit_append (p : List UInt8) : (pathSplit p).1 ++ (pathSplit p).2 = p := by
  simp only [pathSplit, ← List.reverse_append, List.takeWhile_append_dropWhile, List.reverse_reverse]

/-- The directory part is empty or ends with `/`. -/
theorem pathSplit_fst (p : List UInt8) :
    (pathSplit p).1 = [] ∨ (pathSplit p).1.getLast? = some slash := by
  have h := List.head?_dropWhile_not (· != slash) p.reverse
  simp only [pathSplit, List.reverse_eq_nil_iff, List.getLast?_reverse]
  cases hq : (p.reverse.dropWhile (· != slash)).head? with
  | none => exact .inl (List.head?_eq_none_iff.mp hq)
  | some x => rw [hq] at h; exact .inr (by simpa using h)

theorem slash_not_mem_takeWhile (q : List UInt8) : slash ∉ (q.takeWhile (· != slash)).reverse := by
  intro h
  simpa using List.mem_takeWhile_imp (List.mem_reverse.mp h)

/-- A path ending with `/` is all directory. -/
theorem pathSplit_of_slash {p : List UInt8} (h : p.getLast? = some slash) : pathSplit p = (p, []) := by
  obtain ⟨q, hq⟩ : ∃ q, p.reverse = slash :: q := by
    rw [← List.head?_reverse] at h
    cases hr : p.reverse with
    | nil => simp [hr] at h
    | cons a q => exact ⟨q, by simp_all⟩
  simp [pathSplit, hq, ← List.reverse_eq_cons_iff.mp hq] 

/-- What `path.Base` sends: the last element, a name with no `/`, for a destination with a byte
    other than `/`; for one that does not end with `/`, the file part of `Split`. -/
theorem pathBase_name {p : List UInt8} (h : ∃ c ∈ p, c ≠ slash) :
    pathBase p ≠ [] ∧ slash ∉ pathBase p ∧
      (p.getLast? ≠ some slash → pathBase p = (pathSplit p).2) := by
  obtain ⟨c, hc, hcs⟩ := h
  have hp : p ≠ [] := List.ne_nil_of_mem hc
  -- the reversed path without its trailing slashes starts with a byte other than `/`
  obtain ⟨a, q, hq, ha⟩ : ∃ a q, p.reverse.dropWhile (· == slash) = a :: q ∧ a ≠ slash := by
    have hne : p.reverse.dropWhile (· == slash) ≠ [] := fun he =>
      hcs (by simpa using List.dropWhile_eq_nil_iff.mp he c (List.mem_reverse.mpr hc))
    obtain ⟨a, q, hq⟩ := List.exists_cons_of_ne_nil hne
    have h' := List.head?_dropWhile_not (· == slash) p.reverse
    rw [hq] at h'
    exact ⟨a, q, hq, by simpa using h'⟩
  have hlast : pathBase p = ((a :: q).takeWhile (· != slash)).reverse := by
    simp [pathBase, hp, hq, ha]
  refine ⟨by simp [hlast, ha], hlast ▸ slash_not_mem_takeWhile _, fun hend => ?_⟩
  have : p.reverse.dropWhile (· == slash) = p.reverse := by
    cases hr : p.reverse with
    | nil => simp at hr; exact absurd hr hp
    | cons b t =>
      have hb : b ≠ slash := fun hb => hend (by rw [← List.head?_reverse, hr, hb]; rfl)
      simp [hb]
  rw [hlast, ← hq, this]; rfl

example : pathClean (pathDir (ascii "/tmp/") ++ slash :: pathBase (ascii "/tmp/")) = ascii "/tmp/tmp" := by
  decide

/-- `/tmp/my dir/`: the shell splits the directory, and `scp -t` is given two targets. -/
example : shellWords (scpCommand (pathDir (ascii "/tmp/my dir/"))) =
    [ascii "/usr/bin/scp", ascii "-t", ascii "/tmp/my", ascii "dir"] := by
  decide

end Forge.Copy
