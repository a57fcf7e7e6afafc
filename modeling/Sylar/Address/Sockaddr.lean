import Mathlib.Data.List.Lex
import Mathlib.Algebra.Group.Nat.Basic

/-! # Socket addresses: `operator<`, `operator==` and `UnixAddress`

`Address::operator<` runs `memcmp` over the shorter of the two `getAddrLen()`s and lets the
shorter address win a tie; `operator==` asks for equal lengths and `memcmp` zero over them. The
model keeps of an address what the two read, the bytes of the structure `getAddr()` points to and
`getAddrLen()`, and lays out the structures the constructors fill as an x86-64 Linux host does:
`sa_family` in host order (least significant byte first), ports and IPv4 addresses in network
order (`byteswapOnLittleEndian`).

* `lt_iff`, `eq_iff`: `operator<` is the lexicographic order on the first `getAddrLen()` bytes,
  a proper prefix first, and `operator==` is equality of those bytes; so `operator<` is a strict
  total order whose incomparable pairs are the `==` pairs (`address_lt_strict_total`).
* `ipv4Address_lt_iff`: between two `IPv4Address(address, port)`s the port decides first, since
  `sin_port` comes before `sin_addr`.
* `unixAddress_getPath`: when `UnixAddress(path)` throws, and what `getPath()` gives back. -/

namespace Sylar.Address.Sockaddr

/-! ### `memcmp` and the lexicographic order -/

/-- `memcmp(s1, s2, n)`: the difference, as `unsigned char`s, of the first of the `n` bytes where
`s1` and `s2` differ, or `0`. -/
def memcmp : List Nat → List Nat → Nat → Int
  | a :: as, b :: bs, n + 1 => if a = b then memcmp as bs n else (a : Int) - b
  | _, _, _ => 0

@[simp] theorem memcmp_zero (l₁ l₂ : List Nat) : memcmp l₁ l₂ 0 = 0 := by
  cases l₁ <;> cases l₂ <;> rfl

@[simp] theorem memcmp_nil_left (l : List Nat) (n : Nat) : memcmp [] l n = 0 := by
  cases l <;> cases n <;> rfl

@[simp] theorem memcmp_nil_right (l : List Nat) (n : Nat) : memcmp l [] n = 0 := by
  cases l <;> cases n <;> rfl

@[simp] theorem memcmp_cons (a b : Nat) (as bs : List Nat) (n : Nat) :
    memcmp (a :: as) (b :: bs) (n + 1) = if a = b then memcmp as bs n else (a : Int) - b := rfl

/-- `memcmp` reads no byte past the `n`-th. -/
theorem memcmp_take : ∀ {l₁ l₂ : List Nat} {n k₁ k₂ : Nat}, n ≤ k₁ → n ≤ k₂ →
    memcmp (l₁.take k₁) (l₂.take k₂) n = memcmp l₁ l₂ n
  | [], _, _, _, _, _, _ => by simp
  | _ :: _, [], _, _, _, _, _ => by simp
  | _ :: _, _ :: _, 0, _, _, _, _ => by simp
  | a :: as, b :: bs, n + 1, k₁ + 1, k₂ + 1, h₁, h₂ => by
    simp only [List.take_succ_cons, memcmp_cons, memcmp_take (by omega : n ≤ k₁)
      (by omega : n ≤ k₂)]

theorem cons_lt_cons_iff {a b : Nat} {as bs : List Nat} :
    a :: as < b :: bs ↔ a < b ∨ a = b ∧ as < bs := by
  constructor
  · intro h
    cases h with
    | cons h => exact .inr ⟨rfl, h⟩
    | rel h => exact .inl h
  · rintro (h | ⟨rfl, h⟩)
    exacts [.rel h, .cons h]

/-- Comparing two byte strings the way `operator<` does: `memcmp` over the shorter length, then
the lengths. -/
theorem lt_iff_memcmp : ∀ l₁ l₂ : List Nat,
    l₁ < l₂ ↔ memcmp l₁ l₂ (min l₁.length l₂.length) < 0 ∨
      memcmp l₁ l₂ (min l₁.length l₂.length) = 0 ∧ l₁.length < l₂.length
  | [], [] => by simp [List.Lex.not_nil_right]
  | [], b :: bs => by simpa using List.Lex.nil
  | a :: as, [] => by simp [List.Lex.not_nil_right]
  | a :: as, b :: bs => by
    rw [cons_lt_cons_iff, lt_iff_memcmp as bs]
    simp only [List.length_cons, Nat.succ_min_succ, memcmp_cons]
    by_cases hab : a = b
    · simp [hab]
    · simp only [hab, if_false, false_and, or_false]
      omega

theorem memcmp_eq_zero_iff : ∀ {l₁ l₂ : List Nat}, l₁.length = l₂.length →
    (memcmp l₁ l₂ l₁.length = 0 ↔ l₁ = l₂)
  | [], [], _ => by simp
  | a :: as, b :: bs, h => by
    simp only [List.length_cons, memcmp_cons, List.cons.injEq]
    by_cases hab : a = b
    · simp [hab, memcmp_eq_zero_iff (Nat.succ.inj h)]
    · simp only [hab, if_false, false_and, iff_false]
      omega

/-! ### `operator<` and `operator==` -/

/-- An `Address` as `operator<` and `operator==` read it: the bytes of the structure `getAddr()`
points to, and `getAddrLen()`, which never runs past them. -/
structure Address where
  addr : List Nat
  addrLen : Nat
  addrLen_le : addrLen ≤ addr.length

namespace Address

/-- **`Address::operator<`**. -/
def lt (a b : Address) : Bool :=
  let minlen := min a.addrLen b.addrLen
  let result := memcmp a.addr b.addr minlen
  if result < 0 then true
  else if result > 0 then false
  else if a.addrLen < b.addrLen then true
  else false

/-- **`Address::operator==`**. -/
def eq (a b : Address) : Bool := a.addrLen == b.addrLen && memcmp a.addr b.addr a.addrLen == 0

/-- `Address::operator!=`. -/
def ne (a b : Address) : Bool := !a.eq b

/-- The bytes the two operators compare. -/
def key (a : Address) : List Nat := a.addr.take a.addrLen

@[simp] theorem length_key (a : Address) : a.key.length = a.addrLen := by
  simp [key, a.addrLen_le]

theorem memcmp_key (a b : Address) {n : Nat} (ha : n ≤ a.addrLen) (hb : n ≤ b.addrLen) :
    memcmp a.key b.key n = memcmp a.addr b.addr n :=
  memcmp_take ha hb

/-- `operator<` is the lexicographic order on the bytes it compares. -/
theorem lt_iff (a b : Address) : a.lt b = true ↔ a.key < b.key := by
  rw [lt_iff_memcmp, length_key, length_key,
    memcmp_key a b (min_le_left _ _) (min_le_right _ _)]
  simp only [lt]
  split_ifs <;> simp_all <;> omega

/-- `operator==` is equality of the bytes `operator<` compares. -/
theorem eq_iff (a b : Address) : a.eq b = true ↔ a.key = b.key := by
  simp only [eq, Bool.and_eq_true, beq_iff_eq]
  constructor
  · rintro ⟨hl, hm⟩
    rw [← memcmp_key a b le_rfl (hl ▸ le_rfl), ← length_key a] at hm
    exact (memcmp_eq_zero_iff (by simp [hl])).1 hm
  · intro hk
    have hl : a.addrLen = b.addrLen := by rw [← length_key, hk, length_key]
    refine ⟨hl, ?_⟩
    rw [← memcmp_key a b le_rfl (hl ▸ le_rfl), ← length_key a]
    exact (memcmp_eq_zero_iff (by simp [hl])).2 hk

/-- **`operator<` is a strict total order, and `operator==` its equivalence**: what `std::map`
and `std::set` ask of a key's `operator<`. -/
theorem address_lt_strict_total :
    (∀ a : Address, a.lt a = false) ∧
    (∀ a b c : Address, a.lt b = true → b.lt c = true → a.lt c = true) ∧
    (∀ a b : Address, a.lt b = true ∨ a.eq b = true ∨ b.lt a = true) ∧
    (∀ a b : Address, a.eq b = true ↔ a.lt b = false ∧ b.lt a = false) := by
  refine ⟨fun a => ?_, fun a b c hab hbc => ?_, fun a b => ?_, fun a b => ?_⟩
  · exact Bool.eq_false_iff.2 fun h => lt_irrefl _ ((lt_iff a a).1 h)
  · rw [lt_iff] at hab hbc ⊢
    exact lt_trans hab hbc
  · simp only [lt_iff, eq_iff]
    exact lt_trichotomy a.key b.key
  · rw [eq_iff, ← Bool.not_eq_true, ← Bool.not_eq_true, lt_iff, lt_iff]
    exact ⟨fun h => by simp [h],
      fun ⟨h₁, h₂⟩ => le_antisymm (not_lt.1 h₂) (not_lt.1 h₁)⟩

/-- `[1, 2] < [1, 3] < [1, 3, 0]`: a byte decides the first, the length the second. -/
theorem address_lt_strict_total_bytes :
    (⟨[1, 2], 2, by decide⟩ : Address).lt ⟨[1, 3], 2, by decide⟩ = true ∧
      (⟨[1, 3], 2, by decide⟩ : Address).lt ⟨[1, 3, 0], 3, by decide⟩ = true ∧
      (⟨[1, 2], 2, by decide⟩ : Address).lt ⟨[1, 3, 0], 3, by decide⟩ = true :=
  have hab : (⟨[1, 2], 2, by decide⟩ : Address).lt ⟨[1, 3], 2, by decide⟩ = true := rfl
  have hbc : (⟨[1, 3], 2, by decide⟩ : Address).lt ⟨[1, 3, 0], 3, by decide⟩ = true := rfl
  ⟨hab, hbc, address_lt_strict_total.2.1 _ _ _ hab hbc⟩

end Address

/-! ### The structures the constructors fill -/

/-- `AF_UNIX`, `AF_INET` on Linux. -/
def AF_UNIX : Nat := 1

def AF_INET : Nat := 2

/-- A `uint16_t` in host order on x86-64: least significant byte first. -/
def hostOrder16 (x : Nat) : List Nat := [x % 256, x / 256 % 256]

/-- The `n` low bytes of `x` in network order, most significant first. -/
def networkOrder : Nat → Nat → List Nat
  | 0, _ => []
  | n + 1, x => x / 256 ^ n % 256 :: networkOrder n x

@[simp] theorem length_networkOrder (n x : Nat) : (networkOrder n x).length = n := by
  induction n <;> simp [networkOrder, *]

/-- **`IPv4Address(address, port)`**: a zeroed `sockaddr_in` with `sin_family = AF_INET`, and
`sin_port` and `sin_addr` in network order; `getAddrLen()` is `sizeof(sockaddr_in)`. -/
def ipv4Address (address : UInt32) (port : UInt16) : Address where
  addr := hostOrder16 AF_INET ++ networkOrder 2 port.toNat ++ networkOrder 4 address.toNat ++
    List.replicate 8 0
  addrLen := 16
  addrLen_le := by simp [hostOrder16]

theorem append_lt_append_iff : ∀ {l₁ l₂ m₁ m₂ : List Nat}, l₁.length = l₂.length →
    (l₁ ++ m₁ < l₂ ++ m₂ ↔ l₁ < l₂ ∨ l₁ = l₂ ∧ m₁ < m₂)
  | [], [], _, _, _ => by simp [List.Lex.not_nil_right]
  | a :: as, b :: bs, _, _, hl => by
    simp only [List.cons_append, cons_lt_cons_iff, append_lt_append_iff (Nat.succ.inj hl),
      List.cons.injEq]
    constructor
    · rintro (h | ⟨rfl, h | ⟨rfl, h⟩⟩)
      exacts [.inl (.inl h), .inl (.inr ⟨rfl, h⟩), .inr ⟨⟨rfl, rfl⟩, h⟩]
    · rintro ((h | ⟨rfl, h⟩) | ⟨⟨rfl, rfl⟩, h⟩)
      exacts [.inl h, .inr ⟨rfl, .inl h⟩, .inr ⟨rfl, .inr ⟨rfl, h⟩⟩]

theorem append_eq_append_iff_of_length {l₁ l₂ m₁ m₂ : List Nat}
    (h : l₁.length = l₂.length) :
    l₁ ++ m₁ = l₂ ++ m₂ ↔ l₁ = l₂ ∧ m₁ = m₂ :=
  ⟨fun he => List.append_inj he h, fun ⟨h₁, h₂⟩ => h₁ ▸ h₂ ▸ rfl⟩

/-- A number below `M` plus `M` times a digit, compared: the digit decides first. -/
theorem add_mul_lt_add_mul_iff {M A B C D : Nat} (hB : B < M) (hD : D < M) :
    B + M * A < D + M * C ↔ A < C ∨ A = C ∧ B < D := by
  constructor
  · intro h
    rcases Nat.lt_trichotomy A C with hAC | rfl | hCA
    · exact .inl hAC
    · exact .inr ⟨rfl, by omega⟩
    · have := Nat.mul_le_mul_left M hCA
      rw [Nat.mul_succ] at this
      omega
  · rintro (hAC | ⟨rfl, h⟩)
    · have := Nat.mul_le_mul_left M hAC
      rw [Nat.mul_succ] at this
      omega
    · omega

theorem networkOrder_lt_iff : ∀ (n x y : Nat),
    networkOrder n x < networkOrder n y ↔ x % 256 ^ n < y % 256 ^ n
  | 0, x, y => by simp [networkOrder, List.Lex.not_nil_right, Nat.mod_one]
  | n + 1, x, y => by
    rw [networkOrder, networkOrder, cons_lt_cons_iff, networkOrder_lt_iff n, Nat.mod_pow_succ,
      Nat.mod_pow_succ, add_mul_lt_add_mul_iff (Nat.mod_lt _ (Nat.pow_pos (by decide)))
        (Nat.mod_lt _ (Nat.pow_pos (by decide)))]

theorem networkOrder_eq_iff : ∀ (n x y : Nat),
    networkOrder n x = networkOrder n y ↔ x % 256 ^ n = y % 256 ^ n
  | 0, x, y => by simp [networkOrder, Nat.mod_one]
  | n + 1, x, y => by
    rw [networkOrder, networkOrder, List.cons.injEq, networkOrder_eq_iff n, Nat.mod_pow_succ,
      Nat.mod_pow_succ]
    have hx := Nat.mod_lt x (Nat.pow_pos (by decide) : 0 < 256 ^ n)
    have hy := Nat.mod_lt y (Nat.pow_pos (by decide) : 0 < 256 ^ n)
    constructor
    · rintro ⟨h₁, h₂⟩
      rw [h₁, h₂]
    · intro h
      have h₁ := (add_mul_lt_add_mul_iff (A := x / 256 ^ n % 256) (C := y / 256 ^ n % 256)
        hx hy).not.1 (by omega)
      have h₂ := (add_mul_lt_add_mul_iff (A := y / 256 ^ n % 256) (C := x / 256 ^ n % 256)
        hy hx).not.1 (by omega)
      omega

/-- **Two `IPv4Address`es are ordered by port first**: `sin_port` precedes `sin_addr` in
`sockaddr_in`, so `operator<` compares the ports and only then the addresses; `operator==` asks
for both to agree. -/
theorem ipv4Address_lt_iff (a₁ a₂ : UInt32) (p₁ p₂ : UInt16) :
    ((ipv4Address a₁ p₁).lt (ipv4Address a₂ p₂) = true ↔
      p₁.toNat < p₂.toNat ∨ p₁ = p₂ ∧ a₁.toNat < a₂.toNat) ∧
    ((ipv4Address a₁ p₁).eq (ipv4Address a₂ p₂) = true ↔
      a₁ = a₂ ∧ p₁ = p₂) := by
  have hp₁ := p₁.toNat_lt_size
  have hp₂ := p₂.toNat_lt_size
  have ha₁ := a₁.toNat_lt_size
  have ha₂ := a₂.toNat_lt_size
  have hport : networkOrder 2 p₁.toNat = networkOrder 2 p₂.toNat ↔ p₁ = p₂ := by
    rw [networkOrder_eq_iff]
    exact ⟨fun h => UInt16.toNat.inj (by simpa [Nat.mod_eq_of_lt, hp₁, hp₂] using h),
      fun h => h ▸ rfl⟩
  have haddr : networkOrder 4 a₁.toNat = networkOrder 4 a₂.toNat ↔ a₁ = a₂ := by
    rw [networkOrder_eq_iff]
    exact ⟨fun h => UInt32.toNat.inj (by simpa [Nat.mod_eq_of_lt, ha₁, ha₂] using h),
      fun h => h ▸ rfl⟩
  have hkey : ∀ a p, (ipv4Address a p).key = (ipv4Address a p).addr := fun a p =>
    List.take_of_length_le (by simp [ipv4Address, hostOrder16])
  rw [Address.lt_iff, Address.eq_iff, hkey, hkey]
  simp only [ipv4Address, List.append_assoc]
  rw [append_lt_append_iff rfl, append_lt_append_iff (by simp),
    append_lt_append_iff (by simp), networkOrder_lt_iff, networkOrder_lt_iff,
    List.append_cancel_left_eq, append_eq_append_iff_of_length (by simp),
    List.append_cancel_right_eq]
  simp only [lt_irrefl, false_or, true_and, and_false, or_false, hport, haddr,
    Nat.mod_eq_of_lt (show p₁.toNat < 256 ^ 2 from hp₁),
    Nat.mod_eq_of_lt (show p₂.toNat < 256 ^ 2 from hp₂),
    Nat.mod_eq_of_lt (show a₁.toNat < 256 ^ 4 from ha₁),
    Nat.mod_eq_of_lt (show a₂.toNat < 256 ^ 4 from ha₂)]
  exact and_comm

/-! ### `UnixAddress` -/

/-- `sizeof(sockaddr_un::sun_path)` on Linux. -/
def sunPathSize : Nat := 108

/-- `offsetof(sockaddr_un, sun_path)`: the family in front of it. -/
def sunPathOffset : Nat := 2

/-- A `UnixAddress`: `sun_path`, and `m_length`, which counts the family too. -/
structure UnixAddress where
  sunPath : List Nat
  length : Nat
  length_sunPath : sunPath.length = sunPathSize
  length_le : length ≤ sunPathOffset + sunPathSize

namespace UnixAddress

/-- The bytes `UnixAddress(path)` copies out of `path.c_str()`: the terminating `'\0'` too,
unless `path` starts with `'\0'` (an abstract name). -/
def copyLength (path : List Nat) : Nat :=
  if path.head? = some 0 then path.length else path.length + 1

/-- **`UnixAddress(path)`**: a zeroed `sockaddr_un` with `copyLength path` bytes of
`path.c_str()` in `sun_path`; more than `sizeof(sun_path)` throws. -/
def create (path : List Nat) : Except String UnixAddress :=
  if h : copyLength path > sunPathSize then .error "path too long"
  else .ok
    { sunPath := (path ++ [0]).take (copyLength path) ++
        List.replicate (sunPathSize - copyLength path) 0
      length := copyLength path + sunPathOffset
      length_sunPath := by
        have : copyLength path ≤ path.length + 1 := by unfold copyLength; split <;> omega
        simp only [List.length_append, List.length_take, List.length_singleton,
          List.length_replicate]
        omega
      length_le := by omega }

/-- The text `getPath()` puts before an abstract name, `"\\0"`: a backslash and a `'0'`. -/
def escapedNul : List Nat := [92, 48]

/-- **`UnixAddress::getPath()`**, the text `insert` writes too: an abstract name as `"\\0"` and
the rest of `m_length`, any other `sun_path` as the C string it holds. -/
def getPath (u : UnixAddress) : List Nat :=
  if u.length > sunPathOffset ∧ u.sunPath.head? = some 0 then
    escapedNul ++ (u.sunPath.drop 1).take (u.length - sunPathOffset - 1)
  else u.sunPath.takeWhile (· ≠ 0)

/-- The address `operator<` and `operator==` see: `getAddr()` is the whole `sockaddr_un`,
`getAddrLen()` is `m_length`. -/
def toAddress (u : UnixAddress) : Address where
  addr := hostOrder16 AF_UNIX ++ u.sunPath
  addrLen := u.length
  addrLen_le := by
    have := u.length_le
    simp only [List.length_append, hostOrder16, List.length_cons, List.length_nil,
      u.length_sunPath, sunPathOffset] at this ⊢
    omega

theorem takeWhile_append_zero (l r : List Nat) :
    (l ++ 0 :: r).takeWhile (· ≠ 0) = l.takeWhile (· ≠ 0) := by
  induction l with
  | nil => simp
  | cons x l ih => simp only [List.cons_append, List.takeWhile_cons, ih]

theorem copyLength_pos (path : List Nat) : 0 < copyLength path := by
  unfold copyLength
  split
  · rename_i h
    cases path <;> simp_all
  · omega

theorem key_toAddress {path : List Nat} {u : UnixAddress} (hu : create path = .ok u) :
    u.toAddress.key = hostOrder16 AF_UNIX ++ (path ++ [0]).take (copyLength path) := by
  unfold create at hu
  split at hu
  · cases hu
  cases hu
  have hC : ((path ++ [0]).take (copyLength path)).length = copyLength path := by
    have : copyLength path ≤ path.length + 1 := by unfold copyLength; split <;> omega
    simp only [List.length_take, List.length_append, List.length_singleton]
    omega
  show (hostOrder16 AF_UNIX ++ _).take (copyLength path + 2) = _
  rw [Nat.add_comm, show 2 = (hostOrder16 AF_UNIX).length from rfl, List.take_append,
    List.take_left' hC]

/-- **What `getPath()` gives back.** `UnixAddress(path)` throws `"path too long"` exactly when it
would copy more than `sizeof(sun_path)` bytes; otherwise `getPath()` is `path` cut at its first
`'\0'`, except that an abstract name, and the empty path, come back as `"\\0"` followed by the
rest of the path. Two such addresses are `==` exactly when they copied the same bytes, so the
empty path gives the same address as the abstract name `"\0"`. -/
theorem unixAddress_getPath (path : List Nat) :
    (create path = .error "path too long" ↔ sunPathSize < copyLength path) ∧
    (∀ u, create path = .ok u →
      u.getPath = if path.head? = some 0 ∨ path = [] then escapedNul ++ path.drop 1
        else path.takeWhile (· ≠ 0)) ∧
    (∀ path' u u', create path = .ok u → create path' = .ok u' →
      (u.toAddress.eq u'.toAddress = true ↔
        (path ++ [0]).take (copyLength path) = (path' ++ [0]).take (copyLength path'))) := by
  refine ⟨?_, fun u hu => ?_, fun path' u u' hu hu' => ?_⟩
  · unfold create
    split <;> simp_all
  · unfold create at hu
    split at hu
    · cases hu
    rename_i hle
    cases hu
    have hpos := copyLength_pos path
    simp only [getPath, sunPathOffset]
    rcases path with _ | ⟨x, rest⟩
    · simp [copyLength]
    by_cases hx : x = 0
    · subst hx
      simp [copyLength, List.take_append_of_le_length, Nat.le_add_right]
    · have hlen : copyLength (x :: rest) = rest.length + 2 := by simp [copyLength, hx]
      simp only [hlen, List.head?_cons, Option.some.injEq, hx, and_false, if_false, false_or,
        reduceCtorEq, or_false]
      rw [List.take_of_length_le (by simp), List.append_assoc, List.singleton_append,
        takeWhile_append_zero]
      simp [hx]
  · rw [Address.eq_iff, key_toAddress hu, key_toAddress hu', List.append_cancel_left_eq]

/-- The abstract name `"\0a"` reads back as `"\\0a"`, `"a\0b"` as `"a"`, and the two are
different addresses. -/
theorem unixAddress_getPath_abstract :
    ∃ u u', create [0, 97] = .ok u ∧ create [97, 0, 98] = .ok u' ∧ u.getPath = [92, 48, 97] ∧
      u'.getPath = [97] ∧ u.toAddress.eq u'.toAddress = false :=
  ⟨_, _, rfl, rfl, ((unixAddress_getPath [0, 97]).2.1 _ rfl).trans rfl,
    ((unixAddress_getPath [97, 0, 98]).2.1 _ rfl).trans rfl,
    Bool.eq_false_iff.2 fun h =>
      absurd (((unixAddress_getPath [0, 97]).2.2 [97, 0, 98] _ _ rfl rfl).1 h) (by decide)⟩

end UnixAddress

end Sylar.Address.Sockaddr
