import Mathlib.Data.Nat.Bitwise

/-! # Prefix arithmetic of `IPv4Address` and `IPv6Address`

`CreateMask<T>(bits)` (`address.cc`) builds the host part of a `bits`-long prefix as
`(1 << (sizeof(T) * 8 - bits)) - 1`, and the two address classes combine it with their bytes in
`broadcastAddress`, `networdAddress` and `subnetMask`. The model keeps the C++ widths:
`createMask` returns a `Fin (2 ^ width)`, an `IPv4Address` is the 32-bit value of `sin_addr` in
host order (the `byteswapOnLittleEndian` applied to the mask and the one that reads the address
cancel), and an `IPv6Address` is the sixteen bytes of `sin6_addr`, each below 256. Shifting the
`int` `1` by 32 or more and writing past `s6_addr[15]` are undefined; the model returns the
expression that does it. The `int` overflow of `(1 << 31) - 1` is taken as gcc's wrap.

Against the CIDR meaning of a prefix, `netMask w p`, the top `p` of `w` bits:

* `IPv4Address.broadcastAddress_eq`, `IPv4Address.subnetMask_eq`: for `1 ≤ p ≤ 32` the broadcast
  address and the mask are CIDR's, and `IPv4Address.networdAddress_cidr_iff`: the network
  address is CIDR's only for the address `0`;
* `IPv6Address.broadcastAddress_value`, `IPv6Address.subnetMask_value`: the same over 128 bits
  for `p < 128`, and `IPv6Address.networdAddress_cidr_iff`: the network address is CIDR's only
  when the byte the prefix ends in is zero;
* `IPv4Address.prefix_undefined_iff`, `IPv6Address.prefix_undefined_iff`: which prefix lengths
  make each call undefined. -/

namespace Sylar.Address.Prefix

/-! ### CIDR masks -/

/-- The `w`-bit value whose top `p` bits are set. -/
def netMask (w p : Nat) : Nat := (2 ^ p - 1) <<< (w - p)

/-- `NOT x` over `w` bits. -/
def compl (w x : Nat) : Nat := x ^^^ (2 ^ w - 1)

theorem testBit_netMask {w p : Nat} (hp : p ≤ w) (i : Nat) :
    (netMask w p).testBit i = decide (w - p ≤ i ∧ i < w) := by
  simp only [netMask, Nat.testBit_shiftLeft, Nat.testBit_two_pow_sub_one, ← Bool.decide_and,
    decide_eq_decide]
  omega

@[simp]
theorem testBit_compl (w x i : Nat) : (compl w x).testBit i = (x.testBit i ^^ decide (i < w)) := by
  simp only [compl, Nat.testBit_xor, Nat.testBit_two_pow_sub_one]

/-- Outside the top `p` bits, `w` bits wide: the host part of a prefix. -/
theorem compl_netMask {w p : Nat} (hp : p ≤ w) : compl w (netMask w p) = 2 ^ (w - p) - 1 :=
  Nat.eq_of_testBit_eq fun i => by
    simp only [testBit_compl, testBit_netMask hp, Nat.testBit_two_pow_sub_one]
    by_cases h : i < w <;> by_cases h' : i < w - p <;> simp [h, h'] <;> omega

theorem compl_host {w p : Nat} (hp : p ≤ w) : compl w (2 ^ (w - p) - 1) = netMask w p :=
  Nat.eq_of_testBit_eq fun i => by
    simp only [testBit_compl, testBit_netMask hp, Nat.testBit_two_pow_sub_one]
    by_cases h : i < w <;> by_cases h' : i < w - p <;> simp [h, h'] <;> omega

/-- Masking a `w`-bit value with the host part of a prefix gives what masking it with the
network part gives only when the value is zero. -/
theorem and_host_eq_and_net_iff {w p x : Nat} (hx : x < 2 ^ w) (hp : p ≤ w) :
    x &&& (2 ^ (w - p) - 1) = x &&& netMask w p ↔ x = 0 := by
  constructor
  · intro h
    refine Nat.eq_of_testBit_eq fun i => ?_
    have hi := congrArg (Nat.testBit · i) h
    simp only [Nat.testBit_and, Nat.testBit_two_pow_sub_one, testBit_netMask hp] at hi
    rw [Nat.zero_testBit]
    by_cases hw : i < w
    · revert hi
      cases x.testBit i <;> by_cases h' : i < w - p <;> simp [h'] <;> omega
    · exact Nat.testBit_lt_two_pow (Nat.lt_of_lt_of_le hx (Nat.pow_le_pow_right Nat.zero_lt_two
        (Nat.le_of_not_lt hw)))
  · rintro rfl
    simp

/-! ### `CreateMask` -/

/-- The shift in `CreateMask`, undefined at a count of 32 or more. -/
def maskShift : String := "1 << (sizeof(T) * 8 - bits)"

/-- **`CreateMask<T>(bits)`**, `T` of `width` bits. The count `sizeof(T) * 8 - bits` is a
`size_t`, so a `bits` past the width wraps it near `2 ^ 64`. At count 31, `1 << 31` is `INT_MIN`
and the `- 1` overflows the `int`, which C++ leaves undefined; the model takes gcc's wrap to
`INT_MAX`. The `int` is then converted to `T`. -/
def createMask (width bits : Nat) : Except String (Fin (2 ^ width)) :=
  let count := (width + 2 ^ 64 - bits) % 2 ^ 64
  if count < 32 then .ok ⟨(2 ^ count - 1) % 2 ^ width, Nat.mod_lt _ (Nat.two_pow_pos width)⟩
  else .error maskShift

theorem createMask_eq {width bits : Nat} (hb : bits ≤ width) (hc : width - bits < 32) :
    ∃ m, createMask width bits = .ok m ∧ (m : Nat) = 2 ^ (width - bits) - 1 := by
  have hcount : (width + 2 ^ 64 - bits) % 2 ^ 64 = width - bits := by omega
  have hlt : 2 ^ (width - bits) - 1 < 2 ^ width :=
    Nat.lt_of_lt_of_le (Nat.sub_lt (Nat.two_pow_pos _) Nat.one_pos)
      (Nat.pow_le_pow_right Nat.zero_lt_two (Nat.sub_le _ _))
  simp only [createMask, hcount, if_pos hc, Except.ok.injEq, exists_eq_left', Nat.mod_eq_of_lt hlt]

/-- A call that is undefined exactly when `c` holds: it then fails with `msg`, and otherwise it
returns, possibly `nullptr`. -/
def UndefinedIff (x : Except String α) (msg : String) (c : Prop) : Prop :=
  (c → x = .error msg) ∧ (¬c → ∃ r, x = .ok r)

/-- `CreateMask` shifts by 32 or more exactly when `bits` leaves 32 or more of the width, or
passes it and wraps the count. -/
theorem createMask_undefined {width bits : Nat} (hw : width ≤ 32) (hbits : bits < 2 ^ 32) :
    UndefinedIff (createMask width bits) maskShift (bits + 32 ≤ width ∨ width < bits) := by
  have hcount : (width + 2 ^ 64 - bits) % 2 ^ 64 < 32 ↔ bits ≤ width ∧ width < bits + 32 := by
    omega
  simp only [UndefinedIff, createMask]
  split <;> refine ⟨fun h => ?_, fun h => ?_⟩ <;> first | rfl | exact ⟨_, rfl⟩ | omega

theorem UndefinedIff.bind {x : Except String α} {f : α → Except String β} {msg : String}
    {c : Prop} (h : UndefinedIff x msg c) (hf : ∀ v, ∃ r, f v = .ok r) :
    UndefinedIff (x >>= f) msg c := by
  refine ⟨fun hc => by rw [h.1 hc]; rfl, fun hc => ?_⟩
  obtain ⟨v, hv⟩ := h.2 hc
  rw [hv]
  exact hf v

theorem UndefinedIff.of_iff {x : Except String α} {msg : String} {c d : Prop}
    (h : UndefinedIff x msg c) (hcd : c ↔ d) : UndefinedIff x msg d :=
  propext hcd ▸ h

theorem uint32_toNat_lt (p : UInt32) : p.toNat < 2 ^ 32 := p.toNat_lt_size

/-! ### `IPv4Address` -/

/-- An **`IPv4Address`**: the value of `sin_addr.s_addr` in host order. -/
structure IPv4Address where
  addr : Nat
  addr_lt : addr < 2 ^ 32

namespace IPv4Address

/-- What `broadcastAddress` and `networdAddress` share: `nullptr` past 32, else the address
combined by `op` with `CreateMask<uint32_t>(prefix_len)`. -/
def withHostMask (a : IPv4Address) (prefixLen : UInt32) (op : Nat → Nat → Nat)
    (hop : ∀ x y, x < 2 ^ 32 → y < 2 ^ 32 → op x y < 2 ^ 32) :
    Except String (Option IPv4Address) :=
  if prefixLen.toNat > 32 then .ok none
  else do
    let m ← createMask 32 prefixLen.toNat
    return some ⟨op a.addr m, hop _ _ a.addr_lt m.isLt⟩

/-- **`IPv4Address::broadcastAddress(prefix_len)`**: `baddr.sin_addr.s_addr |=` the mask. -/
def broadcastAddress (a : IPv4Address) (prefixLen : UInt32) :
    Except String (Option IPv4Address) :=
  a.withHostMask prefixLen (· ||| ·) fun _ _ => Nat.or_lt_two_pow

/-- **`IPv4Address::networdAddress(prefix_len)`**: `baddr.sin_addr.s_addr &=` the mask. -/
def networdAddress (a : IPv4Address) (prefixLen : UInt32) :
    Except String (Option IPv4Address) :=
  a.withHostMask prefixLen (· &&& ·) fun x _ _ hy => Nat.and_lt_two_pow x hy

/-- **`IPv4Address::subnetMask(prefix_len)`**: the complement of the mask, with no range check. -/
def subnetMask (prefixLen : UInt32) : Except String IPv4Address := do
  let m ← createMask 32 prefixLen.toNat
  return ⟨compl 32 m, Nat.xor_lt_two_pow m.isLt (Nat.sub_lt (Nat.two_pow_pos 32) Nat.one_pos)⟩

section Defined

variable (a : IPv4Address) {p : UInt32}

theorem withHostMask_eq {op : Nat → Nat → Nat} {hop} (hp : 1 ≤ p.toNat) (hp' : p.toNat ≤ 32) :
    Option.map addr <$> a.withHostMask p op hop =
      .ok (some (op a.addr (2 ^ (32 - p.toNat) - 1))) := by
  obtain ⟨m, hm, hv⟩ := createMask_eq hp' (by omega : 32 - p.toNat < 32)
  simp [withHostMask, hm, hv, Nat.not_lt.2 hp']

theorem broadcastAddress_eq (hp : 1 ≤ p.toNat) (hp' : p.toNat ≤ 32) :
    Option.map addr <$> a.broadcastAddress p =
      .ok (some (a.addr ||| compl 32 (netMask 32 p.toNat))) := by
  rw [broadcastAddress, withHostMask_eq a hp hp', compl_netMask hp']

theorem subnetMask_eq (hp : 1 ≤ p.toNat) (hp' : p.toNat ≤ 32) :
    addr <$> subnetMask p = .ok (netMask 32 p.toNat) := by
  obtain ⟨m, hm, hv⟩ := createMask_eq hp' (by omega : 32 - p.toNat < 32)
  simp [subnetMask, hm, hv, compl_host hp']

/-- The network address is CIDR's only for the address `0`: it keeps the host part. -/
theorem networdAddress_cidr_iff (hp : 1 ≤ p.toNat) (hp' : p.toNat ≤ 32) :
    Option.map addr <$> a.networdAddress p = .ok (some (a.addr &&& netMask 32 p.toNat)) ↔
      a.addr = 0 := by
  rw [networdAddress, withHostMask_eq a hp hp', ← and_host_eq_and_net_iff a.addr_lt hp']
  simp

end Defined

theorem withHostMask_undefined (a : IPv4Address) (p : UInt32) {op : Nat → Nat → Nat} {hop} :
    UndefinedIff (a.withHostMask p op hop) maskShift (p.toNat = 0) := by
  by_cases h32 : 32 < p.toNat
  · rw [withHostMask, if_pos h32]
    exact ⟨fun h => by omega, fun _ => ⟨_, rfl⟩⟩
  · rw [withHostMask, if_neg h32]
    exact ((@createMask_undefined 32 p.toNat le_rfl (uint32_toNat_lt p)).bind
      fun _ => ⟨_, rfl⟩).of_iff (by omega)

/-- Where the IPv4 calls shift out of range: `prefix_len = 0` shifts `1` by 32 in all three, and
`subnetMask`, which has no range check, shifts by a wrapped count past 32. The signed overflow at
`prefix_len = 1` is taken as gcc's wrap (`createMask`). -/
theorem prefix_undefined_iff (a : IPv4Address) (p : UInt32) :
    UndefinedIff (a.broadcastAddress p) maskShift (p.toNat = 0) ∧
      UndefinedIff (a.networdAddress p) maskShift (p.toNat = 0) ∧
      UndefinedIff (subnetMask p) maskShift (p.toNat = 0 ∨ 32 < p.toNat) :=
  ⟨a.withHostMask_undefined p, a.withHostMask_undefined p,
    ((@createMask_undefined 32 p.toNat le_rfl (uint32_toNat_lt p)).bind
      fun _ => ⟨_, rfl⟩).of_iff (by omega)⟩

end IPv4Address

/-! ### `IPv6Address` -/

/-- Writing past `s6_addr[15]`. -/
def byteIndex : String := "s6_addr[prefix_len / 8]"

/-- An **`IPv6Address`**: the sixteen bytes of `sin6_addr.s6_addr`, most significant first, and
`sin6_port` in host order. -/
structure IPv6Address where
  s6_addr : List Nat
  port : Nat
  length_eq : s6_addr.length = 16
  lt_256 : ∀ x ∈ s6_addr, x < 256

namespace IPv6Address

/-- `s6_addr[j]`. -/
def byte (a : IPv6Address) (j : Nat) : Nat := a.s6_addr.getD j 0

theorem byte_lt (a : IPv6Address) (j : Nat) : a.byte j < 2 ^ 8 := by
  rw [byte, List.getD_eq_getElem?_getD]
  cases h : a.s6_addr[j]? with
  | none => exact Nat.two_pow_pos 8
  | some x => exact a.lt_256 x (List.mem_iff_getElem?.2 ⟨j, h⟩)

theorem byte_of_le (a : IPv6Address) {j : Nat} (hj : 16 ≤ j) : a.byte j = 0 :=
  List.getD_eq_default _ _ (a.length_eq ▸ hj)

/-- The address with the byte at every index `P` holds of set to `v`. -/
def update (a : IPv6Address) (P : Nat → Prop) [DecidablePred P] (v : Nat) (hv : v < 256) :
    IPv6Address :=
  { a with
    s6_addr := (List.range 16).map fun j => if P j then v else a.byte j
    length_eq := by simp
    lt_256 := by
      simp only [List.mem_map, List.mem_range, forall_exists_index, and_imp]
      rintro _ j - rfl
      split
      exacts [hv, a.byte_lt j] }

@[simp]
theorem byte_update (a : IPv6Address) (P : Nat → Prop) [DecidablePred P] (v : Nat) (hv : v < 256)
    (j : Nat) : (a.update P v hv).byte j = if P j ∧ j < 16 then v else a.byte j := by
  by_cases hj : j < 16
  · simp [update, byte, hj]
  · simp only [hj, and_false, if_false, a.byte_of_le (Nat.le_of_not_lt hj)]
    exact List.getD_eq_default _ _ (by simpa [update] using Nat.le_of_not_lt hj)

/-- `s6_addr[i] = v`; an `i` past 15 writes outside the array. -/
def setByte (a : IPv6Address) (i v : Nat) (hv : v < 256) : Except String IPv6Address :=
  if i < 16 then .ok (a.update (· = i) v hv) else .error byteIndex

/-- The loop `for (i = lo; i < hi; ++i) s6_addr[i] = v`; both callers reach it with
`hi ≤ 16`. -/
def fill (a : IPv6Address) (lo hi v : Nat) (hv : v < 256) : IPv6Address :=
  a.update (fun j => lo ≤ j ∧ j < hi) v hv

/-- **`IPv6Address()`**: all zero. -/
def zero : IPv6Address := ⟨List.replicate 16 0, 0, by simp, by simp⟩

@[simp]
theorem byte_zero (j : Nat) : zero.byte j = 0 := by
  simp only [zero, byte, List.getD_eq_getElem?_getD, List.getElem?_replicate]
  split <;> rfl

/-- What `broadcastAddress` and `networdAddress` share: the byte the prefix ends in is combined
by `op` with `CreateMask<uint8_t>(prefix_len % 8)`, and every later byte is set to `v`. -/
def withHostMask (a : IPv6Address) (prefixLen : UInt32) (op : Nat → Nat → Nat)
    (hop : ∀ x y, x < 2 ^ 8 → y < 2 ^ 8 → op x y < 2 ^ 8) (v : Nat) (hv : v < 256) :
    Except String IPv6Address := do
  let m ← createMask 8 (prefixLen.toNat % 8)
  let b ← a.setByte (prefixLen.toNat / 8) (op (a.byte (prefixLen.toNat / 8)) m)
    (hop _ _ (a.byte_lt _) m.isLt)
  return b.fill (prefixLen.toNat / 8 + 1) 16 v hv

/-- **`IPv6Address::broadcastAddress(prefix_len)`**: the host mask OR-ed into the byte the prefix
ends in, and `0xff` in every later byte. -/
def broadcastAddress (a : IPv6Address) (prefixLen : UInt32) : Except String IPv6Address :=
  a.withHostMask prefixLen (· ||| ·) (fun _ _ => Nat.or_lt_two_pow) 255 (by decide)

/-- **`IPv6Address::networdAddress(prefix_len)`**: the byte the prefix ends in AND-ed with the
same host mask, and `0x00` in every later byte. -/
def networdAddress (a : IPv6Address) (prefixLen : UInt32) : Except String IPv6Address :=
  a.withHostMask prefixLen (· &&& ·) (fun x _ _ hy => Nat.and_lt_two_pow x hy) 0 (by decide)

/-- **`IPv6Address::subnetMask(prefix_len)`**: on a zeroed address, the byte the prefix ends in
is `~CreateMask<uint8_t>(prefix_len % 8)` and every earlier byte is `0xff`. -/
def subnetMask (prefixLen : UInt32) : Except String IPv6Address := do
  let m ← createMask 8 (prefixLen.toNat % 8)
  let s ← zero.setByte (prefixLen.toNat / 8) (compl 8 m)
    (Nat.xor_lt_two_pow m.isLt (by decide))
  return s.fill 0 (prefixLen.toNat / 8) 255 (by decide)

/-! #### The bytes each operation writes -/

section Bytes

variable (a : IPv6Address) {p : UInt32}

theorem createMask_byte (p : UInt32) :
    ∃ m, createMask 8 (p.toNat % 8) = .ok m ∧ (m : Nat) = 2 ^ (8 - p.toNat % 8) - 1 :=
  createMask_eq (by omega) (by omega)

theorem withHostMask_bytes {op : Nat → Nat → Nat} {hop} {v : Nat} {hv} (hp : p.toNat < 128) :
    ∃ b, a.withHostMask p op hop v hv = .ok b ∧ ∀ j, b.byte j =
      if j = p.toNat / 8 then op (a.byte (p.toNat / 8)) (2 ^ (8 - p.toNat % 8) - 1)
      else if p.toNat / 8 < j ∧ j < 16 then v else a.byte j := by
  obtain ⟨m, hm, hmv⟩ := createMask_byte p
  simp only [withHostMask, hm, setByte, if_pos (by omega : p.toNat / 8 < 16)]
  refine ⟨_, rfl, fun j => ?_⟩
  simp only [fill, byte_update, hmv]
  split_ifs <;> first | rfl | omega

theorem subnetMask_bytes (hp : p.toNat < 128) :
    ∃ b, subnetMask p = .ok b ∧ ∀ j, b.byte j =
      if j = p.toNat / 8 then compl 8 (2 ^ (8 - p.toNat % 8) - 1)
      else if j < p.toNat / 8 then 255 else 0 := by
  obtain ⟨m, hm, hv⟩ := createMask_byte p
  simp only [subnetMask, hm, setByte, if_pos (by omega : p.toNat / 8 < 16)]
  refine ⟨_, rfl, fun j => ?_⟩
  simp only [fill, byte_update, byte_zero, hv]
  split_ifs <;> first | rfl | omega

theorem withHostMask_undefined (p : UInt32) {op : Nat → Nat → Nat} {hop} {v : Nat} {hv} :
    UndefinedIff (a.withHostMask p op hop v hv) byteIndex (128 ≤ p.toNat) := by
  obtain ⟨m, hm, -⟩ := createMask_byte p
  by_cases hp : 128 ≤ p.toNat
  · refine ⟨fun _ => ?_, fun h => absurd hp h⟩
    simp only [withHostMask, hm, setByte, if_neg (by omega : ¬p.toNat / 8 < 16)]
    rfl
  · obtain ⟨b, hb, -⟩ := a.withHostMask_bytes (p := p) (by omega)
    exact ⟨fun h => absurd h hp, fun _ => ⟨b, hb⟩⟩

/-- Past 127 the byte the prefix ends in is past `s6_addr[15]`. -/
theorem prefix_undefined_iff (p : UInt32) :
    UndefinedIff (a.broadcastAddress p) byteIndex (128 ≤ p.toNat) ∧
      UndefinedIff (a.networdAddress p) byteIndex (128 ≤ p.toNat) ∧
      UndefinedIff (subnetMask p) byteIndex (128 ≤ p.toNat) := by
  refine ⟨a.withHostMask_undefined p, a.withHostMask_undefined p, ?_⟩
  obtain ⟨m, hm, -⟩ := createMask_byte p
  by_cases hp : 128 ≤ p.toNat
  · refine ⟨fun _ => ?_, fun h => absurd hp h⟩
    simp only [subnetMask, hm, setByte, if_neg (by omega : ¬p.toNat / 8 < 16)]
    rfl
  · obtain ⟨s, hs, -⟩ := subnetMask_bytes (p := p) (by omega)
    exact ⟨fun h => absurd h hp, fun _ => ⟨s, hs⟩⟩

end Bytes

/-! #### Over 128 bits -/

/-- The 128-bit number the bytes spell, `s6_addr[0]` most significant. -/
def value (a : IPv6Address) : Nat := a.s6_addr.foldl (fun acc x => 256 * acc + x) 0

theorem testBit_foldl {l : List Nat} (hl : ∀ x ∈ l, x < 256) (acc i : Nat) :
    (l.foldl (fun acc x => 256 * acc + x) acc).testBit i =
      if i < 8 * l.length then (l.getD (l.length - 1 - i / 8) 0).testBit (i % 8)
      else acc.testBit (i - 8 * l.length) := by
  induction l generalizing acc with
  | nil => simp
  | cons x l ih =>
    have hx : x < 2 ^ 8 := hl x (List.mem_cons_self x l)
    rw [List.foldl_cons, ih fun y hy => hl y (List.mem_cons_of_mem x hy),
      show 256 * acc + x = 2 ^ 8 * acc + x from rfl, Nat.testBit_mul_pow_two_add acc hx,
      List.length_cons]
    by_cases h1 : i < 8 * l.length
    · obtain ⟨k, hk⟩ : ∃ k, l.length + 1 - 1 - i / 8 = k + 1 := ⟨l.length - 1 - i / 8, by omega⟩
      rw [if_pos h1, if_pos (by omega), hk, List.getD_cons_succ, show l.length - 1 - i / 8 = k by
        omega]
    · rw [if_neg h1]
      by_cases h2 : i - 8 * l.length < 8
      · rw [if_pos h2, if_pos (by omega), show l.length + 1 - 1 - i / 8 = 0 by omega,
          List.getD_cons_zero, show i - 8 * l.length = i % 8 by omega]
      · rw [if_neg h2, if_neg (by omega), show i - 8 * l.length - 8 = i - 8 * (l.length + 1) by
          omega]

/-- Bit `i` of the address is bit `i % 8` of byte `15 - i / 8`. -/
theorem testBit_value (a : IPv6Address) (i : Nat) :
    a.value.testBit i = (decide (i < 128) && (a.byte (15 - i / 8)).testBit (i % 8)) := by
  rw [value, testBit_foldl a.lt_256, a.length_eq]
  by_cases h : i < 128 <;> simp [h, byte]

theorem testBit_255 (k : Nat) : Nat.testBit 255 k = decide (k < 8) :=
  Nat.testBit_two_pow_sub_one 8 k

/-- Bit `i` lies in the host part of a `p`-long prefix: in a byte past the one the prefix ends
in, or in that byte's low `8 - p % 8` bits. -/
theorem lt_host_iff {i p : Nat} (hi : i < 128) (hp : p < 128) :
    i < 128 - p ↔ p / 8 < 15 - i / 8 ∨ 15 - i / 8 = p / 8 ∧ i % 8 < 8 - p % 8 := by
  omega

section Value

variable (a : IPv6Address) {p : UInt32}

theorem broadcastAddress_value (hp : p.toNat < 128) :
    value <$> a.broadcastAddress p = .ok (a.value ||| compl 128 (netMask 128 p.toNat)) := by
  obtain ⟨b, hb, hbytes⟩ := a.withHostMask_bytes (p := p) (v := 255) hp
  rw [broadcastAddress, hb, compl_netMask hp.le]
  refine congrArg Except.ok (Nat.eq_of_testBit_eq fun i => ?_)
  simp only [testBit_value, hbytes, Nat.testBit_or, Nat.testBit_two_pow_sub_one]
  by_cases hi : i < 128
  · simp only [hi, decide_True, Bool.true_and, lt_host_iff hi hp]
    rcases lt_trichotomy (15 - i / 8) (p.toNat / 8) with h | h | h
    · simp [h.ne, Nat.not_lt.2 h.le, show ¬p.toNat / 8 < 15 - i / 8 by omega]
    · simp [h]
    · simp [h.ne', h, testBit_255, show 15 - i / 8 < 16 by omega, show i % 8 < 8 by omega]
  · simp [hi, show ¬i < 128 - p.toNat by omega]

theorem subnetMask_value (hp : p.toNat < 128) :
    value <$> subnetMask p = .ok (netMask 128 p.toNat) := by
  obtain ⟨b, hb, hbytes⟩ := subnetMask_bytes hp
  rw [hb]
  refine congrArg Except.ok (Nat.eq_of_testBit_eq fun i => ?_)
  simp only [testBit_value, hbytes, testBit_netMask hp.le,
    compl_host (by omega : p.toNat % 8 ≤ 8)]
  by_cases hi : i < 128
  · have hhost := lt_host_iff hi hp
    rcases lt_trichotomy (15 - i / 8) (p.toNat / 8) with h | h | h
    · simp [hi, h, h.ne, testBit_255, show i % 8 < 8 by omega]
      omega
    · simp only [hi, h, if_pos, decide_True, Bool.true_and, and_true,
        testBit_netMask (by omega : p.toNat % 8 ≤ 8), decide_eq_decide]
      omega
    · simp [hi, h.ne', Nat.not_lt.2 h.le]
      omega
  · simp [hi]

/-- Bit `i` of the network address is CIDR's unless it is a set bit of the byte the prefix
ends in. -/
theorem networdAddress_testBit {b : IPv6Address} (hp : p.toNat < 128)
    (hb : a.networdAddress p = .ok b) (i : Nat) :
    b.value.testBit i = (a.value &&& netMask 128 p.toNat).testBit i ↔
      (i < 128 → 15 - i / 8 = p.toNat / 8 → (a.byte (p.toNat / 8)).testBit (i % 8) = false) := by
  obtain ⟨b', hb', hbytes⟩ := a.withHostMask_bytes (p := p) (v := 0) hp
  obtain rfl : b = b' := Except.ok.inj (hb.symm.trans hb')
  simp only [testBit_value, hbytes, Nat.testBit_and, testBit_netMask hp.le,
    Nat.testBit_two_pow_sub_one]
  by_cases hi : i < 128
  · have hhost := lt_host_iff hi hp
    rcases lt_trichotomy (15 - i / 8) (p.toNat / 8) with h | h | h
    · simp [hi, h.ne, Nat.not_lt.2 h.le]
      omega
    · rw [h]
      simp only [if_pos, Nat.testBit_and, Nat.testBit_two_pow_sub_one, hi, decide_True,
        Bool.true_and, and_true, true_implies]
      cases (a.byte (p.toNat / 8)).testBit (i % 8) <;> simp
      omega
    · simp [hi, h.ne', h, show 15 - i / 8 < 16 by omega]
      omega
  · simp [hi]

/-- The network address is CIDR's only when the byte the prefix ends in is zero: that byte keeps
its host bits and loses its network bits. -/
theorem networdAddress_cidr_iff (hp : p.toNat < 128) :
    value <$> a.networdAddress p = .ok (a.value &&& netMask 128 p.toNat) ↔
      a.byte (p.toNat / 8) = 0 := by
  obtain ⟨b, hb, -⟩ := a.withHostMask_bytes (p := p) (v := 0) hp
  have hbit := a.networdAddress_testBit hp hb
  rw [networdAddress, hb]
  constructor
  · intro h
    have hv := Except.ok.inj h
    refine Nat.eq_of_testBit_eq fun k => ?_
    by_cases hk : k < 8
    · have := (hbit (8 * (15 - p.toNat / 8) + k)).1 (by rw [hv]) (by omega) (by omega)
      rwa [show (8 * (15 - p.toNat / 8) + k) % 8 = k by omega, ← Nat.zero_testBit k] at this
    · exact (Nat.testBit_lt_two_pow (Nat.lt_of_lt_of_le (a.byte_lt _)
        (Nat.pow_le_pow_right Nat.zero_lt_two (Nat.le_of_not_lt hk)))).trans
        (Nat.zero_testBit k).symm
  · intro h0
    exact congrArg Except.ok (Nat.eq_of_testBit_eq fun i =>
      (hbit i).2 fun _ _ => by rw [h0, Nat.zero_testBit])

end Value

end IPv6Address

/-! ### Against CIDR -/

/-- What the six operations compute, for the prefix lengths CIDR gives a meaning to: IPv4's
broadcast address and mask are CIDR's for `1 ≤ p ≤ 32` but its network address only for the
address `0`, and `p = 0` shifts by 32; IPv6's are CIDR's over 128 bits for `p < 128` but its
network address only when the byte the prefix ends in is zero, and `p = 128` writes past
`s6_addr[15]`. -/
theorem prefix_arithmetic_vs_cidr :
    (∀ (a : IPv4Address) (p : UInt32), 1 ≤ p.toNat → p.toNat ≤ 32 →
      Option.map IPv4Address.addr <$> a.broadcastAddress p =
          .ok (some (a.addr ||| compl 32 (netMask 32 p.toNat))) ∧
        IPv4Address.addr <$> IPv4Address.subnetMask p = .ok (netMask 32 p.toNat) ∧
        (Option.map IPv4Address.addr <$> a.networdAddress p =
            .ok (some (a.addr &&& netMask 32 p.toNat)) ↔ a.addr = 0)) ∧
    (∀ (a : IPv4Address) (p : UInt32), p.toNat = 0 →
      a.broadcastAddress p = .error maskShift ∧ a.networdAddress p = .error maskShift ∧
        IPv4Address.subnetMask p = .error maskShift) ∧
    (∀ (a : IPv6Address) (p : UInt32), p.toNat < 128 →
      IPv6Address.value <$> a.broadcastAddress p =
          .ok (a.value ||| compl 128 (netMask 128 p.toNat)) ∧
        IPv6Address.value <$> IPv6Address.subnetMask p = .ok (netMask 128 p.toNat) ∧
        (IPv6Address.value <$> a.networdAddress p = .ok (a.value &&& netMask 128 p.toNat) ↔
          a.byte (p.toNat / 8) = 0)) ∧
    (∀ (a : IPv6Address) (p : UInt32), p.toNat = 128 →
      a.broadcastAddress p = .error byteIndex ∧ a.networdAddress p = .error byteIndex ∧
        IPv6Address.subnetMask p = .error byteIndex) := by
  refine ⟨fun a p hp hp' => ⟨a.broadcastAddress_eq hp hp', IPv4Address.subnetMask_eq hp hp',
      a.networdAddress_cidr_iff hp hp'⟩, fun a p hp => ?_,
    fun a p hp => ⟨a.broadcastAddress_value hp, IPv6Address.subnetMask_value hp,
      a.networdAddress_cidr_iff hp⟩, fun a p hp => ?_⟩
  · obtain ⟨hb, hn, hs⟩ := IPv4Address.prefix_undefined_iff a p
    exact ⟨hb.1 hp, hn.1 hp, hs.1 (.inl hp)⟩
  · obtain ⟨hb, hn, hs⟩ := a.prefix_undefined_iff p
    exact ⟨hb.1 hp.ge, hn.1 hp.ge, hs.1 hp.ge⟩

/-- `192.168.1.77`. -/
def host77 : IPv4Address := ⟨0xC0A8014D, by decide⟩

/-- `networdAddress(24)` of `192.168.1.77` is `0.0.0.77`, not CIDR's `192.168.1.0`. -/
theorem networdAddress_host77 :
    Option.map IPv4Address.addr <$> host77.networdAddress 24 = .ok (some 77) ∧
      Option.map IPv4Address.addr <$> host77.networdAddress 24 ≠
        .ok (some (host77.addr &&& netMask 32 24)) :=
  ⟨rfl, fun h => absurd ((prefix_arithmetic_vs_cidr.1 host77 24 (by decide) (by decide)).2.2.1 h)
    (by decide)⟩

/-- Each call is undefined exactly at these prefix lengths, and returns otherwise: the IPv4 ones
at `0` (a shift by 32) and `subnetMask` also past 32 (a wrapped count), the IPv6 ones from 128
on (a write past `s6_addr[15]`). An IPv4 `prefix_len` of `1` also overflows an `int`, in
`(1 << 31) - 1`; `createMask` takes that as gcc's wrap, so it is not counted here. -/
theorem prefix_calls_undefined_iff (a : IPv4Address) (b : IPv6Address) (p : UInt32) :
    UndefinedIff (a.broadcastAddress p) maskShift (p.toNat = 0) ∧
      UndefinedIff (a.networdAddress p) maskShift (p.toNat = 0) ∧
      UndefinedIff (IPv4Address.subnetMask p) maskShift (p.toNat = 0 ∨ 32 < p.toNat) ∧
      UndefinedIff (b.broadcastAddress p) byteIndex (128 ≤ p.toNat) ∧
      UndefinedIff (b.networdAddress p) byteIndex (128 ≤ p.toNat) ∧
      UndefinedIff (IPv6Address.subnetMask p) byteIndex (128 ≤ p.toNat) :=
  ⟨(IPv4Address.prefix_undefined_iff a p).1, (IPv4Address.prefix_undefined_iff a p).2.1,
    (IPv4Address.prefix_undefined_iff a p).2.2, b.prefix_undefined_iff p⟩

end Sylar.Address.Prefix
