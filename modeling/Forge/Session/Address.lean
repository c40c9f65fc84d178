/-
  The address `SSHClient.Connect` (`pkg/ssh`) dials: `fmt.Sprintf("%s:%d", client.IP, port)`,
  with `port` the client's `Port`, or `sshPort` when that is `0`.

  1. **The host's text** — `ipString`, `net.IP.String`: a dotted quad for an IPv4 address, given
     in four bytes or as `::ffff:a.b.c.d` in sixteen (`to4`), and otherwise the eight hex groups
     of `net/netip`'s `appendTo6`, the longest run of zero groups written `::`.
  2. **The address** — `dialAddress`; `dial` hands it to `net.Dial`, which splits it with
     `splitHostPort`, `net.SplitHostPort`: the port is what follows the last `:`, and a host
     with a `:` must be in brackets.
  3. **What `Connect` can reach** — `connect_dial_ipv4`: an IPv4 host and its port come back
     apart; `connect_dial_ipv6`: every other address of sixteen bytes is refused before any
     connection is tried, since `%s` writes no brackets.
  4. **The host reads back** — `parseIPv4`, `netip`'s parser of a dotted quad, reads the text of
     every IPv4 address back as its four bytes (`parseIPv4_string4`, one field and one `.` at a
     time); so `connect_dial_ipv4_parses`: the host `dial` resolves is the client's address.
-/
import Forge.Copy.Wire

namespace Forge.Session

open Forge.Copy (ascii fmtD digitByte isDigit toUInt8_toNat)

/-! ## `net.IP.String` -/

/-- `':'` -/
def colon : UInt8 := 58
/-- `'.'` -/
def period : UInt8 := 46
/-- `'['` -/
def lbracket : UInt8 := 91
/-- `']'` -/
def rbracket : UInt8 := 93

/-- `digits[d]`, `"0123456789abcdef"`, for `d < 16`. -/
def hexByte (d : Nat) : UInt8 := if d < 10 then (48 + d).toUInt8 else (87 + d).toUInt8

/-- `hexString`: each byte as two hex digits. -/
def hexString (ip : List UInt8) : List UInt8 :=
  ip.flatMap fun b => [hexByte (b.toNat / 16), hexByte (b.toNat % 16)]

/-- `IP.To4`: the four bytes of an IPv4 address, given as four bytes or as sixteen in the
    `::ffff:a.b.c.d` form. -/
def to4 (ip : List UInt8) : Option (List UInt8) :=
  if ip.length = 4 then some ip
  else if ip.length = 16 ∧ ip.take 10 = List.replicate 10 0 ∧ ip[10]? = some 255 ∧
      ip[11]? = some 255 then some (ip.drop 12)
  else none

/-- `appendDecimal` of `net/netip`: a byte in decimal, without leading zeros. -/
def appendDecimal (x : Nat) : List UInt8 :=
  (if 100 ≤ x then [digitByte (x / 100)] else []) ++
    (if 10 ≤ x then [digitByte (x / 10 % 10)] else []) ++ [digitByte (x % 10)]

/-- `Addr.appendTo4`: the four bytes in decimal, joined by `.`. -/
def string4 (p4 : List UInt8) : List UInt8 := [period].intercalate (p4.map fun b => appendDecimal b.toNat)

/-- `appendHex` of `net/netip`: a 16-bit group in hex, without leading zeros. -/
def appendHex (x : Nat) : List UInt8 :=
  (if 0x1000 ≤ x then [hexByte (x / 0x1000)] else []) ++
    (if 0x100 ≤ x then [hexByte (x / 0x100 % 16)] else []) ++
    (if 0x10 ≤ x then [hexByte (x / 0x10 % 16)] else []) ++ [hexByte (x % 16)]

/-- `ip.v6u16(i)` for `i < 8`: the eight 16-bit groups. -/
def groups (ip : List UInt8) : List Nat :=
  (List.range 8).map fun i => (ip.getD (2 * i) 0).toNat * 256 + (ip.getD (2 * i + 1) 0).toNat

/-- The first loop of `Addr.appendTo6`: the longest run of two or more zero groups, the first
    of the longest, as `(zeroStart, zeroEnd)`; `(255, 255)` when there is none. -/
def zeroRun (g : List Nat) : Nat × Nat :=
  (List.range 8).foldl (fun (zs, ze) i =>
    let j := i + ((g.drop i).takeWhile (· == 0)).length
    if 2 ≤ j - i ∧ ze - zs < j - i then (i, j) else (zs, ze)) (255, 255)

/-- The second loop of `Addr.appendTo6`, from group `i`: `::` at `zeroStart`, skipping to
    `zeroEnd`; otherwise a `:` before every group but the first. `fuel` is `8 - i` at the first
    call, and every turn moves `i` on by at least one, so the loop ends by `i ≥ 8`. -/
def groupsLoop (g : List Nat) (zs ze : Nat) : Nat → Nat → List UInt8
  | 0, _ => []
  | fuel + 1, i =>
    if 8 ≤ i then []
    else if i = zs then
      if 8 ≤ ze then [colon, colon]
      else [colon, colon] ++ appendHex (g.getD ze 0) ++ groupsLoop g zs ze fuel (ze + 1)
    else (if 0 < i then [colon] else []) ++ appendHex (g.getD i 0) ++ groupsLoop g zs ze fuel (i + 1)

/-- `Addr.string6` of an address with no zone. -/
def string6 (ip : List UInt8) : List UInt8 :=
  let g := groups ip
  let z := zeroRun g
  groupsLoop g z.1 z.2 8 0

/-- `IP.String` -/
def ipString (ip : List UInt8) : List UInt8 :=
  if ip = [] then ascii "<nil>"
  else if ip.length ≠ 4 ∧ ip.length ≠ 16 then ascii "?" ++ hexString ip
  else match to4 ip with
    | some p4 => string4 p4
    | none => string6 ip


/-! ## The address `Connect` dials, and `net.SplitHostPort` -/

/-- `sshPort` -/
def sshPort : Int := 22

/-- `port := sshPort; if client.Port != 0 { port = client.Port }` -/
def connectPort (clientPort : Int) : Int := if clientPort ≠ 0 then clientPort else sshPort

/-- `%d` of an `int`: a `-` before the digits of a negative value. -/
def fmtInt (n : Int) : List UInt8 := if n < 0 then ascii "-" ++ fmtD n.natAbs else fmtD n.toNat

/-- `fmt.Sprintf("%s:%d", client.IP, port)`, the address `Connect` hands to `dial`. -/
def dialAddress (ip : List UInt8) (clientPort : Int) : List UInt8 :=
  ipString ip ++ colon :: fmtInt (connectPort clientPort)

/-- `net.AddrError`: the reason and the address. -/
structure AddrError where
  err : String
  addr : List UInt8
  deriving DecidableEq, Repr

/-- `bytealg.LastIndexByteString(s, c)` -/
def lastIndex (c : UInt8) (s : List UInt8) : Option Nat :=
  (s.reverse.indexOf? c).map fun k => s.length - 1 - k

/-- `net.SplitHostPort`: the port after the last `:`, and the host before it, which must hold no
    `:` unless it is in brackets. -/
def splitHostPort (hostport : List UInt8) : Except AddrError (List UInt8 × List UInt8) :=
  match lastIndex colon hostport with
  | none => .error ⟨"missing port in address", hostport⟩
  | some i =>
    let hostJK : Except String (List UInt8 × Nat × Nat) :=
      if hostport.head? = some lbracket then
        match hostport.indexOf? rbracket with
        | none => .error "missing \x27]\x27 in address"
        | some endIdx =>
          if endIdx + 1 = hostport.length then .error "missing port in address"
          else if endIdx + 1 = i then .ok ((hostport.take endIdx).drop 1, 1, endIdx + 1)
          else if hostport[endIdx + 1]? = some colon then .error "too many colons in address"
          else .error "missing port in address"
      else
        let host := hostport.take i
        if colon ∈ host then .error "too many colons in address" else .ok (host, 0, 0)
    match hostJK with
    | .error why => .error ⟨why, hostport⟩
    | .ok (host, j, k) =>
      if lbracket ∈ hostport.drop j then .error ⟨"unexpected \x27[\x27 in address", hostport⟩
      else if rbracket ∈ hostport.drop k then .error ⟨"unexpected \x27]\x27 in address", hostport⟩
      else .ok (host, hostport.drop (i + 1))


/-! ## What `Connect` can dial -/

/-- The last `:` of `x ++ ":" ++ y` is the one between them when `y` holds none. -/
theorem lastIndex_append {x y : List UInt8} (hy : colon ∉ y) :
    lastIndex colon (x ++ colon :: y) = some x.length := by
  have hnone : y.reverse.findIdx? (· == colon) = none :=
    List.findIdx?_eq_none_iff.mpr fun a ha => beq_false_of_ne fun h => hy (h ▸ List.mem_reverse.mp ha)
  simp [lastIndex, List.indexOf?, List.findIdx?_append, hnone]

theorem mem_intercalate {s x : UInt8} :
    ∀ {l : List (List UInt8)}, x ∈ [s].intercalate l → x = s ∨ ∃ e ∈ l, x ∈ e
  | [], h => by simp [List.intercalate] at h
  | [e], h => .inr ⟨e, by simp, by simpa [List.intercalate] using h⟩
  | e :: f :: l, h => by
    have : [s].intercalate (e :: f :: l) = e ++ s :: [s].intercalate (f :: l) := by
      simp [List.intercalate, List.intersperse_cons_cons]
    rw [this] at h
    rcases List.mem_append.mp h with h | h
    · exact .inr ⟨e, by simp, h⟩
    · rcases List.mem_cons.mp h with h | h
      · exact .inl h
      · rcases mem_intercalate h with h | ⟨e', he', hx⟩
        · exact .inl h
        · exact .inr ⟨e', List.mem_cons_of_mem _ he', hx⟩

/-- A dotted quad is digits and `.`. -/
theorem string4_bytes (p4 : List UInt8) :
    ∀ b ∈ string4 p4, b = period ∨ ∃ d < 10, b = digitByte d := by
  intro b hb
  rcases mem_intercalate hb with h | ⟨e, he, hb⟩
  · exact .inl h
  · obtain ⟨x, hx, rfl⟩ := List.mem_map.mp he
    have : x.toNat < 256 := x.toNat_lt_size
    simp only [appendDecimal, List.mem_append, List.mem_ite_nil_right, List.mem_singleton] at hb
    right
    rcases hb with (⟨-, rfl⟩ | ⟨-, rfl⟩) | rfl
    · exact ⟨_, by omega, rfl⟩
    · exact ⟨_, Nat.mod_lt _ (by omega), rfl⟩
    · exact ⟨_, Nat.mod_lt _ (by omega), rfl⟩

/-- A group in hex is hex digits. -/
theorem appendHex_bytes {x : Nat} (hx : x < 0x10000) :
    ∀ b ∈ appendHex x, ∃ d < 16, b = hexByte d := by
  intro b hb
  simp only [appendHex, List.mem_append, List.mem_ite_nil_right, List.mem_singleton] at hb
  rcases hb with ((⟨-, rfl⟩ | ⟨-, rfl⟩) | ⟨-, rfl⟩) | rfl
  · exact ⟨_, by omega, rfl⟩
  · exact ⟨_, Nat.mod_lt _ (by omega), rfl⟩
  · exact ⟨_, Nat.mod_lt _ (by omega), rfl⟩
  · exact ⟨_, Nat.mod_lt _ (by omega), rfl⟩

theorem groups_lt (ip : List UInt8) : ∀ i, (groups ip).getD i 0 < 0x10000 := by
  intro i
  by_cases hi : i < 8
  · have h1 : (ip.getD (2 * i) 0).toNat < 256 := UInt8.toNat_lt_size _
    have h2 : (ip.getD (2 * i + 1) 0).toNat < 256 := UInt8.toNat_lt_size _
    simp only [groups, List.getD_eq_getElem?_getD, List.getElem?_map, List.getElem?_range hi,
      Option.map_some', Option.getD_some]
    simp only [List.getD_eq_getElem?_getD] at h1 h2
    omega
  · simp [groups, List.getD_eq_getElem?_getD, List.getElem?_eq_none (by simpa using hi : (List.range 8).length ≤ i)]

/-- The hex form is hex digits and `:`. -/
theorem groupsLoop_bytes (ip : List UInt8) (zs ze : Nat) :
    ∀ fuel i, ∀ b ∈ groupsLoop (groups ip) zs ze fuel i, b = colon ∨ ∃ d < 16, b = hexByte d
  | 0, _, b, hb => by simp [groupsLoop] at hb
  | fuel + 1, i, b, hb => by
    have step : ∀ (pre : List UInt8) k j, (∀ c ∈ pre, c = colon) →
        b ∈ pre ++ appendHex ((groups ip).getD k 0) ++ groupsLoop (groups ip) zs ze fuel j →
        b = colon ∨ ∃ d < 16, b = hexByte d := by
      intro pre k j hpre hb
      rcases List.mem_append.mp hb with hb | hb
      · rcases List.mem_append.mp hb with hb | hb
        exacts [.inl (hpre b hb), .inr (appendHex_bytes (groups_lt ip k) b hb)]
      · exact groupsLoop_bytes ip zs ze fuel j b hb
    unfold groupsLoop at hb
    split_ifs at hb
    · simp at hb
    · exact .inl (by simpa using hb)
    all_goals exact step _ _ _ (by simp) hb

/-- An IPv6 address in text holds a `:`: `::` at the first zero run, or the `:` before the
    second group. -/
theorem colon_mem_groupsLoop (g : List Nat) (zs ze fuel : Nat) :
    colon ∈ groupsLoop g zs ze (fuel + 1 + 1) 0 := by
  have h1 : colon ∈ groupsLoop g zs ze (fuel + 1) 1 := by
    rw [groupsLoop, if_neg (by omega)]
    by_cases hz : 1 = zs
    · rw [if_pos hz]; split_ifs <;> simp
    · rw [if_neg hz, if_pos Nat.one_pos]; simp
  rw [groupsLoop, if_neg (by omega)]
  by_cases hz : 0 = zs
  · rw [if_pos hz]; split_ifs <;> simp
  · rw [if_neg hz, if_neg (Nat.lt_irrefl 0)]
    exact List.mem_append_right _ h1

theorem colon_mem_string6 (ip : List UInt8) : colon ∈ string6 ip := colon_mem_groupsLoop _ _ _ 6

/-- A byte `net.SplitHostPort` treats as text: neither `:` nor a bracket. -/
def Plain (b : UInt8) : Prop := b ≠ colon ∧ b ≠ lbracket ∧ b ≠ rbracket

instance : DecidablePred Plain := fun _ => inferInstanceAs (Decidable (_ ∧ _ ∧ _))

theorem digitByte_plain : ∀ d < 10, Plain (digitByte d) := by decide

theorem hexByte_plain : ∀ d < 16, hexByte d ≠ lbracket ∧ hexByte d ≠ rbracket := by decide

theorem lbracket_not_mem_string6 (ip : List UInt8) : lbracket ∉ string6 ip := fun hm => by
  rcases groupsLoop_bytes ip _ _ _ _ _ hm with h | ⟨d, hd, h⟩
  exacts [absurd h (by decide), (hexByte_plain d hd).1 h.symm]

theorem string4_plain (p4 : List UInt8) : ∀ b ∈ string4 p4, Plain b := by
  intro b hb
  rcases string4_bytes p4 b hb with rfl | ⟨d, hd, rfl⟩
  exacts [by decide, digitByte_plain d hd]

theorem fmtInt_plain (n : Int) : ∀ b ∈ fmtInt n, Plain b := by
  have hD : ∀ m, ∀ b ∈ fmtD m, Plain b := fun m b hb => by
    obtain ⟨d, hd, rfl⟩ := Forge.Copy.allDigits_fmtD m b hb
    exact digitByte_plain d hd
  unfold fmtInt
  split_ifs
  · intro b hb
    rcases List.mem_append.mp hb with hb | hb
    exacts [by simp [ascii] at hb; subst hb; decide, hD _ b hb]
  · exact hD _

/-- `net.SplitHostPort` of `host:port` with no `:` or bracket in either part gives both back. -/
theorem splitHostPort_plain {x y : List UInt8} (hx : ∀ b ∈ x, Plain b) (hy : ∀ b ∈ y, Plain b) :
    splitHostPort (x ++ colon :: y) = .ok (x, y) := by
  have hall : ∀ b ∈ x ++ colon :: y, b ≠ lbracket ∧ b ≠ rbracket := by
    intro b hb
    rcases List.mem_append.mp hb with hb | hb
    · exact (hx b hb).2
    rcases List.mem_cons.mp hb with rfl | hb
    exacts [by decide, (hy b hb).2]
  have hhead : (x ++ colon :: y).head? ≠ some lbracket := fun h =>
    (hall _ (List.mem_of_mem_head? h)).1 rfl
  have hcol : colon ∉ x := fun h => (hx _ h).1 rfl
  unfold splitHostPort
  rw [lastIndex_append fun h => (hy _ h).1 rfl]
  dsimp only
  rw [if_neg hhead]
  simp only [List.take_left', List.drop_zero, if_neg hcol, if_neg fun h => (hall _ h).1 rfl,
    if_neg fun h => (hall _ h).2 rfl]
  simp

/-- A host with a `:` and no `[` is refused, whatever the port. -/
theorem splitHostPort_colon {x y : List UInt8} (hc : colon ∈ x) (hx : lbracket ∉ x) (hy : colon ∉ y) :
    splitHostPort (x ++ colon :: y) = .error ⟨"too many colons in address", x ++ colon :: y⟩ := by
  obtain ⟨a, x', rfl⟩ := List.exists_cons_of_ne_nil (List.ne_nil_of_mem hc)
  have ha : a ≠ lbracket := fun h => hx (h ▸ List.mem_cons_self _ _)
  unfold splitHostPort
  rw [lastIndex_append hy]
  simp [ha, hc]

/-- The text of an IP of four or sixteen bytes: dotted when it is IPv4, hex groups otherwise. -/
theorem ipString_of_length (ip : List UInt8) (hl : ip.length = 4 ∨ ip.length = 16) :
    ipString ip = match to4 ip with
      | some p4 => string4 p4
      | none => string6 ip := by
  have : ip ≠ [] := by rintro rfl; simp at hl
  rw [ipString, if_neg this, if_neg (by omega)]

theorem length_of_to4 {ip p4 : List UInt8} (h : to4 ip = some p4) : ip.length = 4 ∨ ip.length = 16 := by
  unfold to4 at h
  split_ifs at h with h1 h2
  exacts [.inl h1, .inr h2.1]

/-- **`Connect` to an IPv4 address.** The address handed to `dial` splits back, at its last `:`,
    into the dotted quad and the port: `client.Port`, or `sshPort` when it is `0`. -/
theorem connect_dial_ipv4 (ip p4 : List UInt8) (port : Int) (h : to4 ip = some p4) :
    splitHostPort (dialAddress ip port) = .ok (string4 p4, fmtInt (connectPort port)) := by
  rw [dialAddress, ipString_of_length ip (length_of_to4 h), h]
  exact splitHostPort_plain (string4_plain p4) (fmtInt_plain _)

example : splitHostPort (dialAddress [127, 0, 0, 1] 0) = .ok (ascii "127.0.0.1", ascii "22") := rfl

/-- **`Connect` never reaches an IPv6 host.** `"%s:%d"` puts no brackets round the host, so for
    every address of sixteen bytes that is not IPv4-mapped, on every port, `net.SplitHostPort`
    (which `dial` runs on its address) finds a `:` in the host and refuses it. -/
theorem connect_dial_ipv6 (ip : List UInt8) (port : Int) (h16 : ip.length = 16) (h : to4 ip = none) :
    splitHostPort (dialAddress ip port) =
      .error ⟨"too many colons in address", dialAddress ip port⟩ := by
  rw [dialAddress, ipString_of_length ip (.inr h16), h]
  exact splitHostPort_colon (colon_mem_string6 ip) (lbracket_not_mem_string6 ip)
    fun hm => (fmtInt_plain _ _ hm).1 rfl

theorem connect_dial_ipv6_loopback :
    [0, 0, 0, 0, 0, 0, 0, 0, 0, 0, 0, 0, 0, 0, 0, 1].length = 16 ∧
      to4 [0, 0, 0, 0, 0, 0, 0, 0, 0, 0, 0, 0, 0, 0, 0, 1] = none ∧
      splitHostPort (dialAddress [0, 0, 0, 0, 0, 0, 0, 0, 0, 0, 0, 0, 0, 0, 0, 1] 0) =
        .error ⟨"too many colons in address", dialAddress [0, 0, 0, 0, 0, 0, 0, 0, 0, 0, 0, 0, 0, 0, 0, 1] 0⟩ :=
  ⟨rfl, rfl, connect_dial_ipv6 _ 0 rfl rfl⟩

example : dialAddress [0, 0, 0, 0, 0, 0, 0, 0, 0, 0, 0, 0, 0, 0, 0, 1] 0 = ascii "::1:22" := by decide

/-! ## `netip.parseIPv4` -/

/-- `netip.parseAddrError`: the input, the reason, and the rest of the input where it failed (`at`). -/
structure ParseAddrError where
  input : List UInt8
  msg : String
  after : List UInt8
  deriving DecidableEq, Repr

/-- The loop of `parseIPv4(s)` from byte `i`, with `rest` the bytes from `i` on, `fields` the
    fields filled so far (`fields[:pos]`), and the current field's value and digit count. -/
def parseIPv4Loop (s : List UInt8) : List UInt8 → Nat → List UInt8 → Nat → Nat →
    Except ParseAddrError (List UInt8)
  | [], _, fields, val, _ =>
    if fields.length < 3 then .error ⟨s, "IPv4 address too short", []⟩
    else .ok (fields ++ [val.toUInt8])
  | c :: rest, i, fields, val, digLen =>
    if isDigit c then
      if digLen = 1 ∧ val = 0 then .error ⟨s, "IPv4 field has octet with leading zero", []⟩
      else
        let val := val * 10 + (c.toNat - 48)
        if 255 < val then .error ⟨s, "IPv4 field has value >255", []⟩
        else parseIPv4Loop s rest (i + 1) fields val (digLen + 1)
    else if c = period then
      if i = 0 ∨ i = s.length - 1 ∨ s[i - 1]? = some period then
        .error ⟨s, "IPv4 field must have at least one digit", c :: rest⟩
      else if fields.length = 3 then .error ⟨s, "IPv4 address too long", []⟩
      else parseIPv4Loop s rest (i + 1) (fields ++ [val.toUInt8]) 0 0
    else .error ⟨s, "unexpected character", c :: rest⟩

/-- `netip.parseIPv4(s)`, the four bytes of the address. -/
def parseIPv4 (s : List UInt8) : Except ParseAddrError (List UInt8) := parseIPv4Loop s s 0 [] 0 0


/-! ## The dotted quad reads back -/

/-- A digit that keeps the field below 256, after a first digit that is not `0`. -/
theorem parseIPv4Loop_digit {s rest fields : List UInt8} {i val digLen d : Nat} (hd : d < 10)
    (hz : ¬(digLen = 1 ∧ val = 0)) (hv : val * 10 + d ≤ 255) :
    parseIPv4Loop s (digitByte d :: rest) i fields val digLen =
      parseIPv4Loop s rest (i + 1) fields (val * 10 + d) (digLen + 1) := by
  rw [parseIPv4Loop, if_pos (Forge.Copy.isDigit_digitByte d hd), if_neg hz,
    Forge.Copy.digitByte_toNat d hd, Nat.add_sub_cancel_left, if_neg (by omega)]

/-- A byte in decimal is read as its value, one digit at a time. -/
theorem parseIPv4Loop_field {s rest fields : List UInt8} {i x : Nat} (hx : x < 256) :
    parseIPv4Loop s (appendDecimal x ++ rest) i fields 0 0 =
      parseIPv4Loop s rest (i + (appendDecimal x).length) fields x (appendDecimal x).length := by
  unfold appendDecimal
  by_cases h100 : 100 ≤ x
  · simp only [if_pos h100, if_pos (by omega : 10 ≤ x), List.singleton_append, List.cons_append,
      List.nil_append, List.length_cons, List.length_nil]
    rw [parseIPv4Loop_digit (by omega) (by omega) (by omega),
      parseIPv4Loop_digit (by omega) (by omega) (by omega),
      parseIPv4Loop_digit (by omega) (by omega) (by omega)]
    congr 1; omega
  by_cases h10 : 10 ≤ x
  · simp only [if_neg h100, if_pos h10, List.singleton_append, List.cons_append,
      List.nil_append, List.length_cons, List.length_nil]
    rw [parseIPv4Loop_digit (by omega) (by omega) (by omega),
      parseIPv4Loop_digit (by omega) (by omega) (by omega)]
    congr 1; omega
  · simp only [if_neg h100, if_neg h10, List.singleton_append, List.cons_append,
      List.nil_append, List.length_cons, List.length_nil]
    rw [parseIPv4Loop_digit (by omega) (by omega) (by omega)]
    congr 1; omega

/-- A byte in decimal ends with its last digit. -/
theorem getLast?_append_appendDecimal (pre : List UInt8) (x : Nat) :
    (pre ++ appendDecimal x).getLast? = some (digitByte (x % 10)) := by
  simp [appendDecimal]

theorem appendDecimal_ne_nil (x : Nat) : appendDecimal x ≠ [] := by simp [appendDecimal]

theorem digitByte_ne_period : ∀ d < 10, digitByte d ≠ period := by decide

/-- A `.` after a field and before more bytes closes the field. -/
theorem parseIPv4Loop_period {s pre rest fields : List UInt8} {i x val digLen : Nat}
    (hs : s = pre ++ appendDecimal x ++ period :: rest) (hi : i = (pre ++ appendDecimal x).length)
    (hrest : rest ≠ []) (hf : fields.length < 3) :
    parseIPv4Loop s (period :: rest) i fields val digLen =
      parseIPv4Loop s rest (i + 1) (fields ++ [val.toUInt8]) 0 0 := by
  have hd : x % 10 < 10 := Nat.mod_lt _ (by omega)
  have hlen : (pre ++ appendDecimal x).length ≠ 0 := by simp [appendDecimal_ne_nil]
  have hr : rest.length ≠ 0 := fun h => hrest (List.eq_nil_of_length_eq_zero h)
  have hprev : s[i - 1]? = some (digitByte (x % 10)) := by
    rw [hs, hi, List.getElem?_append_left (by omega), ← List.getLast?_eq_getElem?,
      getLast?_append_appendDecimal]
  have hdp : digitByte (x % 10) ≠ period := digitByte_ne_period _ hd
  have hc : ¬(i = 0 ∨ i = s.length - 1 ∨ s[i - 1]? = some period) := by
    rintro (h | h | h)
    · exact hlen (hi ▸ h)
    · rw [hs, hi] at h
      simp only [List.length_append, List.length_cons] at h
      omega
    · rw [hprev] at h; exact hdp (Option.some.inj h)
  rw [parseIPv4Loop, if_neg (by decide), if_pos rfl, if_neg hc, if_neg (by omega)]

theorem parseIPv4Loop_end {s fields : List UInt8} {i val digLen : Nat} (hf : fields.length = 3) :
    parseIPv4Loop s [] i fields val digLen = .ok (fields ++ [val.toUInt8]) := by
  rw [parseIPv4Loop, if_neg (by omega)]

theorem string4_cons_cons (x y : UInt8) (ps : List UInt8) :
    string4 (x :: y :: ps) = appendDecimal x.toNat ++ period :: string4 (y :: ps) := by
  simp [string4, List.intercalate, List.intersperse_cons_cons]

theorem string4_ne_nil {ps : List UInt8} (h : ps ≠ []) : string4 ps ≠ [] := by
  obtain ⟨x, ps, rfl⟩ := List.exists_cons_of_ne_nil h
  cases ps with
  | nil => simpa [string4, List.intercalate] using appendDecimal_ne_nil _
  | cons y ps => simp [string4_cons_cons]

/-- The loop over the rest of a dotted quad, from any prefix already read. -/
theorem parseIPv4Loop_string4 :
    ∀ (ps pre fields : List UInt8) (s : List UInt8), ps ≠ [] → fields.length + ps.length = 4 →
      s = pre ++ string4 ps → parseIPv4Loop s (string4 ps) pre.length fields 0 0 = .ok (fields ++ ps)
  | [], _, _, _, h, _, _ => absurd rfl h
  | [x], pre, fields, s, _, hlen, _ => by
    have h1 : string4 [x] = appendDecimal x.toNat ++ [] := by simp [string4, List.intercalate]
    rw [h1, parseIPv4Loop_field x.toNat_lt_size, parseIPv4Loop_end (by simpa using hlen),
      toUInt8_toNat]
  | x :: y :: ps, pre, fields, s, _, hlen, hs => by
    have hlen' : (fields ++ [x]).length + (y :: ps).length = 4 := by simp at hlen ⊢; omega
    have hs' : s = pre ++ appendDecimal x.toNat ++ period :: string4 (y :: ps) := by
      rw [hs, string4_cons_cons, List.append_assoc]
    have hi : pre.length + (appendDecimal x.toNat).length + 1 =
        (pre ++ appendDecimal x.toNat ++ [period]).length := by
      simp only [List.length_append, List.length_singleton]
    rw [string4_cons_cons, parseIPv4Loop_field x.toNat_lt_size,
      parseIPv4Loop_period hs' (List.length_append _ _).symm (string4_ne_nil (List.cons_ne_nil _ _))
        (by simp at hlen; omega), toUInt8_toNat, hi,
      parseIPv4Loop_string4 (y :: ps) _ _ s (List.cons_ne_nil _ _) hlen' (by rw [hs']; simp),
      List.append_assoc, List.singleton_append]

/-- **`parseIPv4` reads `IP.String`'s dotted quad back**: the same four bytes, whatever they
    are. -/
theorem parseIPv4_string4 {p4 : List UInt8} (h : p4.length = 4) : parseIPv4 (string4 p4) = .ok p4 :=
  parseIPv4Loop_string4 p4 [] [] _ (by rintro rfl; simp at h) (by simpa using h) rfl

example : parseIPv4 (ascii "192.168.0.10") = .ok [192, 168, 0, 10] := rfl

/-- An IPv4 address is four bytes. -/
theorem length_to4 {ip p4 : List UInt8} (h : to4 ip = some p4) : p4.length = 4 := by
  unfold to4 at h
  split_ifs at h with h1 h2
  · exact (Option.some.inj h) ▸ h1
  · rw [← Option.some.inj h, List.length_drop, h2.1]

/-- **`Connect` dials the client's IPv4 address.** For every IPv4 `client.IP` and every
    `client.Port`, `net.SplitHostPort` takes out of the address a host that `netip`'s parser
    (`ParseAddr` hands a text to `parseIPv4` at its first `.`) reads back as the four bytes of
    `client.IP`, and a port that is the decimal text of `client.Port`, or of `sshPort` when that
    is `0`. -/
theorem connect_dial_ipv4_parses (ip p4 : List UInt8) (port : Int) (h : to4 ip = some p4) :
    ∃ host, splitHostPort (dialAddress ip port) = .ok (host, fmtInt (connectPort port)) ∧
      parseIPv4 host = .ok p4 :=
  ⟨string4 p4, connect_dial_ipv4 ip p4 port h, parseIPv4_string4 (length_to4 h)⟩

theorem connect_dial_ipv4_parses_mapped :
    to4 [0, 0, 0, 0, 0, 0, 0, 0, 0, 0, 255, 255, 10, 0, 0, 1] = some [10, 0, 0, 1] ∧
      ∃ host, splitHostPort (dialAddress [0, 0, 0, 0, 0, 0, 0, 0, 0, 0, 255, 255, 10, 0, 0, 1] 2222) =
        .ok (host, fmtInt (connectPort 2222)) ∧ parseIPv4 host = .ok [10, 0, 0, 1] :=
  ⟨rfl, connect_dial_ipv4_parses _ _ 2222 rfl⟩

end Forge.Session
