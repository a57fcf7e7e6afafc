import Sylar.Address.Text
import Sylar.Address.Sockaddr
import Mathlib.Data.String.Basic

/-! # `Address::Lookup`: the host text, and what the addresses print

`Address::Lookup(result, host, ...)` cuts `host` into the `node` and `service` it hands
`getaddrinfo`: `[address]:port` for IPv6, `address:port` when `host` has one `':'`, and the whole
host with a null service otherwise. `IPv4Address::insert` prints the four bytes in decimal between
dots, then `':'` and the port; `IPv6Address::insert` is modelled in `Sylar.Address.Text`.

* `splitHost_insert`: the text either `insert` prints is cut back into the address text, which
  reads back to the address (dotted decimal, RFC 4291 text), and the port in decimal.
* `splitHost_bare_ipv6`: the RFC 4291 text of any IPv6 address without brackets is handed over
  whole, with a service that starts at its first `':'`.
* `interface_prefix_length`: `CountBytes` counts one bits, so the prefix length
  `GetInterfaceAddresses` records for a netmask `subnetMask` builds is its prefix length.
* `interface_addresses_of_iface`: the overload for one interface appends that interface's
  addresses of the family, in listing order, and its result says whether the vector is empty
  after the call, not whether the interface had an address; an entry with a null `ifa_addr`
  crashes it. -/

namespace Sylar.Address.Lookup

open Sylar.Address.Prefix Sylar.Address.Text Sylar.Address.Sockaddr

/-! ### Decimal numerals -/

/-- The value of decimal digits, most significant first. -/
def decValue (w : List Char) : Nat := w.foldl (fun acc c => 10 * acc + (c.toNat - '0'.toNat)) 0

/-- `Nat.toDigitsCore` in any base: digits whose value is the number, with no leading zero. -/
theorem toDigitsCore_spec {b : Nat} {P : Char → Prop} {v : Char → Nat} (hb : 1 < b)
    (hd : ∀ d < b, P (Nat.digitChar d) ∧ v (Nat.digitChar d) = d) :
    ∀ fuel n ds, n < fuel → ∃ w, Nat.toDigitsCore b fuel n ds = w ++ ds ∧ w ≠ [] ∧
      (∀ c ∈ w, P c) ∧ w.foldl (fun acc c => b * acc + v c) 0 = n ∧
      (0 < n → w.head? ≠ some (Nat.digitChar 0))
  | 0, n, _, h => absurd h (Nat.not_lt_zero n)
  | fuel + 1, n, ds, h => by
    have hlast := hd (n % b) (Nat.mod_lt _ (by omega))
    have hzero := hd 0 (by omega)
    simp only [Nat.toDigitsCore]
    split
    · rename_i hn
      have hnb : n % b = n := Nat.mod_eq_of_lt (by rwa [Nat.div_eq_zero_iff (by omega)] at hn)
      refine ⟨[Nat.digitChar (n % b)], rfl, List.cons_ne_nil _ _, by simp [hlast.1], ?_, ?_⟩
      · simp only [List.foldl_cons, List.foldl_nil, hlast.2]
        omega
      · intro hpos heq
        have := congrArg v (Option.some.inj heq)
        rw [hlast.2, hzero.2] at this
        omega
    · rename_i hn
      obtain ⟨w, hw, hne, hP, hv, hhead⟩ :=
        toDigitsCore_spec hb hd fuel (n / b) (Nat.digitChar (n % b) :: ds)
          (Nat.lt_of_lt_of_le
            (Nat.div_lt_self (Nat.pos_of_ne_zero fun h0 => hn (by simp [h0])) hb) (by omega))
      refine ⟨w ++ [Nat.digitChar (n % b)], by simp [hw], by simp, ?_, ?_, ?_⟩
      · intro c hc
        rcases List.mem_append.1 hc with hc | hc
        · exact hP c hc
        · rw [List.mem_singleton.1 hc]
          exact hlast.1
      · rw [List.foldl_append, hv, List.foldl_cons, List.foldl_nil, hlast.2, Nat.div_add_mod]
      · intro _
        rw [List.head?_append_of_ne_nil _ hne]
        exact hhead (Nat.pos_of_ne_zero hn)

theorem digitChar_dec : ∀ d, d < 10 →
    (Nat.digitChar d).isDigit = true ∧ (Nat.digitChar d).toNat - '0'.toNat = d := by
  decide

/-- `os << x` for an unsigned `x`: decimal digits, no leading zero. -/
theorem toDigits_dec (x : Nat) :
    Nat.toDigits 10 x ≠ [] ∧ (∀ c ∈ Nat.toDigits 10 x, c.isDigit = true) ∧
      decValue (Nat.toDigits 10 x) = x ∧ (0 < x → (Nat.toDigits 10 x).head? ≠ some '0') := by
  obtain ⟨w, hw, h⟩ := toDigitsCore_spec (P := fun c => c.isDigit = true)
    (v := fun c => c.toNat - '0'.toNat) (by decide) digitChar_dec (x + 1) x [] (Nat.lt_succ_self x)
  rw [List.append_nil] at hw
  rwa [Nat.toDigits, hw]

theorem not_mem_toDigits {c : Char} (hc : c.isDigit = false) (x : Nat) :
    c ∉ Nat.toDigits 10 x := fun h => by
  rw [(toDigits_dec x).2.1 c h] at hc
  cases hc

/-! ### The host text -/

/-- `memchr(s, c, n)`: the index of the first `c` among the first `n` characters of `s`. -/
def memchr : List Char → Char → Nat → Option Nat
  | x :: xs, c, n + 1 => if x = c then some 0 else (memchr xs c n).map (· + 1)
  | _, _, _ => none

/-- The bracketed branch of `Address::Lookup`: for `host[0] == '['`, the text up to the first
`']'`, and the service after it if a `':'` follows. -/
def bracketed : List Char → List Char × Option (List Char)
  | '[' :: rest =>
    match memchr rest ']' rest.length with
    | some i => (rest.take i, if rest[i + 1]? = some ':' then some (rest.drop (i + 2)) else none)
    | none => ([], none)
  | _ => ([], none)

/-- The branch for anything else: a single `':'` splits the host; with more, `service` is left at
the first one and `node` empty. -/
def colonSplit (host : List Char) : List Char × Option (List Char) :=
  match memchr host ':' host.length with
  | some i =>
    if memchr (host.drop (i + 1)) ':' (host.length - i - 1) = none then
      (host.take i, some (host.drop (i + 1)))
    else ([], some (host.drop i))
  | none => ([], none)

/-- **The `node` and `service` `Address::Lookup(host)` hands `getaddrinfo`** (`none`: a null
`service`); an empty `node` falls back to the whole host. -/
def splitHost (host : List Char) : List Char × Option (List Char) :=
  let r := bracketed host
  let r := if r.1 = [] then colonSplit host else r
  (if r.1 = [] then host else r.1, r.2)

theorem memchr_of_not_mem {c : Char} :
    ∀ {l : List Char} {n : Nat}, c ∉ l → memchr l c n = none
  | [], _, _ => by simp [memchr]
  | _ :: _, 0, _ => rfl
  | x :: xs, n + 1, h => by
    simp only [List.mem_cons, not_or] at h
    simp [memchr, Ne.symm h.1, memchr_of_not_mem h.2]

theorem memchr_append {c : Char} : ∀ {l : List Char} {r : List Char} {n : Nat}, c ∉ l →
    l.length < n → memchr (l ++ c :: r) c n = some l.length
  | [], _, n + 1, _, _ => by simp [memchr]
  | x :: xs, r, n + 1, h, hn => by
    simp only [List.mem_cons, not_or] at h
    simp [memchr, Ne.symm h.1, memchr_append h.2 (by simpa using hn)]

/-- `[address]:port`: the address between the brackets, the port after the `':'`. -/
theorem splitHost_bracket {text port : List Char} (hne : text ≠ []) (hb : ']' ∉ text) :
    splitHost ('[' :: (text ++ ']' :: ':' :: port)) = (text, some port) := by
  have hm : memchr (text ++ ']' :: ':' :: port) ']' (text ++ ']' :: ':' :: port).length =
      some text.length := memchr_append hb (by simp)
  have hget : (text ++ ']' :: ':' :: port)[text.length + 1]? = some ':' := by
    rw [List.getElem?_append_right (by omega)]
    simp
  have hbr : bracketed ('[' :: (text ++ ']' :: ':' :: port)) = (text, some port) := by
    simp only [bracketed, hm, hget]
    simp
  simp [splitHost, hbr, hne]

theorem bracketed_of_head {host : List Char} (h0 : host.head? ≠ some '[') :
    bracketed host = ([], none) := by
  unfold bracketed
  split
  · exact absurd rfl h0
  · rfl

/-- `address:port` with a single `':'`, and no `'['` in front. -/
theorem splitHost_colon {node port : List Char} (hne : node ≠ []) (h0 : node.head? ≠ some '[')
    (hn : ':' ∉ node) (hp : ':' ∉ port) :
    splitHost (node ++ ':' :: port) = (node, some port) := by
  have hbr : bracketed (node ++ ':' :: port) = ([], none) :=
    bracketed_of_head (by rwa [List.head?_append_of_ne_nil _ hne])
  have hm : memchr (node ++ ':' :: port) ':' (node ++ ':' :: port).length = some node.length :=
    memchr_append hn (by simp)
  have hcs : colonSplit (node ++ ':' :: port) = (node, some port) := by
    simp only [colonSplit, hm]
    simp [memchr_of_not_mem hp]
  simp [splitHost, hbr, hcs, hne]

theorem exists_first {c : Char} : ∀ {l : List Char}, c ∈ l →
    ∃ pre mid, l = pre ++ c :: mid ∧ c ∉ pre
  | x :: xs, h => by
    by_cases hx : x = c
    · exact ⟨[], xs, by rw [hx]; rfl, List.not_mem_nil c⟩
    · obtain ⟨pre, mid, rfl, hpre⟩ :=
        exists_first ((List.mem_cons.1 h).resolve_left (Ne.symm hx))
      exact ⟨x :: pre, mid, rfl, by simp [hpre, Ne.symm hx]⟩

theorem memchr_ne_none {c : Char} {l : List Char} {n : Nat} (h : c ∈ l) (hn : l.length ≤ n) :
    memchr l c n ≠ none := by
  obtain ⟨pre, mid, rfl, hpre⟩ := exists_first h
  rw [memchr_append hpre (by simp at hn; omega)]
  exact Option.some_ne_none _

/-- Two or more `':'`, and no `'['` in front: `node` is the whole host, and `service` is left at
the first `':'`. -/
theorem splitHost_two_colons {host : List Char} (h0 : host.head? ≠ some '[')
    (h2 : 2 ≤ host.count ':') :
    ∃ i, host[i]? = some ':' ∧ ':' ∉ host.take i ∧
      splitHost host = (host, some (host.drop i)) := by
  obtain ⟨pre, mid, rfl, hpre⟩ :=
    exists_first ((List.count_pos_iff (a := ':') (l := host)).1 (by omega))
  have hmid : ':' ∈ mid := by
    rw [List.count_append, List.count_cons_self, List.count_eq_zero.2 hpre] at h2
    exact List.count_pos_iff.1 (by omega)
  refine ⟨pre.length, by rw [List.getElem?_append_right le_rfl]; simp, by simpa using hpre, ?_⟩
  have hm : memchr (pre ++ ':' :: mid) ':' (pre ++ ':' :: mid).length = some pre.length :=
    memchr_append hpre (by simp)
  have hd : (pre ++ ':' :: mid).drop (pre.length + 1) = mid := by simp
  have hcs : colonSplit (pre ++ ':' :: mid) = ([], some (':' :: mid)) := by
    simp only [colonSplit, hm, hd]
    rw [if_neg (memchr_ne_none hmid (by simp))]
    simp
  simp [splitHost, bracketed_of_head h0, hcs]

/-! ### What the addresses print, read back -/

/-- **`IPv4Address::insert(os)`** of `IPv4Address(address, port)`: the four bytes of the address,
most significant first, in decimal between dots, then `':'` and the port. -/
def IPv4Address.insert (address : UInt32) (port : UInt16) : List Char :=
  let addr := address.toNat
  Nat.toDigits 10 (addr >>> 24 &&& 0xff) ++ '.' :: Nat.toDigits 10 (addr >>> 16 &&& 0xff) ++
    '.' :: Nat.toDigits 10 (addr >>> 8 &&& 0xff) ++ '.' :: Nat.toDigits 10 (addr &&& 0xff) ++
    ':' :: Nat.toDigits 10 port.toNat

/-- One part of dotted decimal: one to three digits, no leading zero, at most 255. -/
def parseOctet (w : List Char) : Option Nat :=
  if 0 < w.length ∧ w.length ≤ 3 ∧ w.all Char.isDigit ∧
      (w.length = 1 ∨ w.head? ≠ some '0') ∧ decValue w ≤ 255 then some (decValue w)
  else none

/-- **Dotted decimal**, as `inet_pton(AF_INET, src, dst)` accepts it: four octets between dots,
the first the most significant; the address in host order. -/
def inetPton4 (t : List Char) : Option Nat :=
  match (t.splitOn '.').mapM parseOctet with
  | some [b₃, b₂, b₁, b₀] => some (b₃ * 2 ^ 24 + b₂ * 2 ^ 16 + b₁ * 2 ^ 8 + b₀)
  | _ => none

theorem parseOctet_toDigits {x : Nat} (hx : x < 256) : parseOctet (Nat.toDigits 10 x) = some x := by
  obtain ⟨hne, hdig, hv, hhead⟩ := toDigits_dec x
  have hlen : (Nat.toDigits 10 x).length ≤ 3 :=
    Nat.toDigitsCore_length 10 (by decide) (x + 1) x 3 (by omega : x < 10 ^ 3) (by decide)
  have hlead : (Nat.toDigits 10 x).length = 1 ∨ (Nat.toDigits 10 x).head? ≠ some '0' := by
    rcases Nat.eq_zero_or_pos x with rfl | hpos
    · exact .inl rfl
    · exact .inr (hhead hpos)
  rw [parseOctet,
    if_pos ⟨List.length_pos.2 hne, hlen, List.all_eq_true.2 hdig, hlead, by omega⟩, hv]

theorem mapM_parseOctet {xs : List Nat} (hxs : ∀ x ∈ xs, x < 256) :
    (xs.map (Nat.toDigits 10)).mapM parseOctet = some xs := by
  induction xs with
  | nil => rfl
  | cons x xs ih =>
    rw [List.map_cons, List.mapM_cons, parseOctet_toDigits (hxs x (List.mem_cons_self x xs)),
      ih fun y hy => hxs y (List.mem_cons_of_mem x hy)]
    rfl

/-- The four bytes `IPv4Address::insert` prints, most significant first. -/
def octets (address : UInt32) : List Nat :=
  [address.toNat / 2 ^ 24 % 256, address.toNat / 2 ^ 16 % 256, address.toNat / 2 ^ 8 % 256,
    address.toNat % 256]

theorem insert_eq (address : UInt32) (port : UInt16) :
    IPv4Address.insert address port =
      ['.'].intercalate ((octets address).map (Nat.toDigits 10)) ++
        ':' :: Nat.toDigits 10 port.toNat := by
  have hff : (0xff : Nat) = 2 ^ 8 - 1 := rfl
  simp only [IPv4Address.insert, hff, Nat.and_pow_two_sub_one_eq_mod, Nat.shiftRight_eq_div_pow,
    octets, List.map_cons, List.map_nil, List.intercalate, List.intersperse_cons_cons,
    List.intersperse_single, List.flatten_cons, List.flatten_nil, List.append_assoc,
    List.cons_append, List.nil_append, List.append_nil, Nat.pow_zero, Nat.div_one]

theorem inetPton4_octets (address : UInt32) :
    inetPton4 (['.'].intercalate ((octets address).map (Nat.toDigits 10))) =
      some address.toNat := by
  have hlt : ∀ x ∈ octets address, x < 256 := by simp [octets, Nat.mod_lt]
  have hdot : ∀ w ∈ (octets address).map (Nat.toDigits 10), '.' ∉ w := by
    intro w hw
    obtain ⟨x, -, rfl⟩ := List.mem_map.1 hw
    exact not_mem_toDigits (by decide) x
  rw [inetPton4, List.splitOn_intercalate _ '.' hdot (by simp [octets]), mapM_parseOctet hlt]
  have := address.toNat_lt_size
  simp only [octets, UInt32.size] at this ⊢
  congr 1
  omega

theorem insertAddr_ne_nil (g : Nat → Nat) (hg : ∀ i < 8, g i < 65536) : insertAddr g ≠ [] :=
  fun h => by
    have := denote_insertAddr hg
    rw [h] at this
    cases this

/-- **What either address prints, `Address::Lookup` cuts back.** The text of
`IPv4Address(address, port)` is cut into dotted decimal that `inet_pton` reads back to `address`,
and the text of any `IPv6Address` into RFC 4291 text that denotes its sixteen bytes; in both the
service is the port in decimal. -/
theorem splitHost_insert (address : UInt32) (port : UInt16) (a : IPv6Address) :
    (∃ node service, splitHost (IPv4Address.insert address port) = (node, some service) ∧
      inetPton4 node = some address.toNat ∧ (∀ c ∈ service, c.isDigit = true) ∧
      decValue service = port.toNat) ∧
    (∃ node service, splitHost (insert a) = (node, some service) ∧
      (denote node).map bytesOfGroups = some a.s6_addr ∧ (∀ c ∈ service, c.isDigit = true) ∧
      decValue service = a.port) := by
  refine ⟨⟨_, _, ?_, inetPton4_octets address, (toDigits_dec _).2.1, (toDigits_dec _).2.2.1⟩,
    ⟨_, _, splitHost_bracket (insertAddr_ne_nil _ fun i _ => group_lt a i) (not_mem_insertAddr _),
      ?_, (toDigits_dec _).2.1, (toDigits_dec _).2.2.1⟩⟩
  · have hfirst : ∃ c cs, Nat.toDigits 10 (address.toNat / 2 ^ 24 % 256) = c :: cs ∧
        c.isDigit = true := by
      obtain ⟨hne, hdig, -⟩ := toDigits_dec (address.toNat / 2 ^ 24 % 256)
      obtain ⟨c, cs, h⟩ := List.exists_cons_of_ne_nil hne
      exact ⟨c, cs, h, hdig c (h ▸ List.mem_cons_self c cs)⟩
    obtain ⟨c, cs, hcs, hc⟩ := hfirst
    rw [insert_eq]
    refine splitHost_colon ?_ ?_ ?_ (not_mem_toDigits (by decide) _)
    · simp [octets, List.intercalate, hcs]
    · simp only [octets, List.map_cons, List.intercalate, List.intersperse_cons_cons,
        List.flatten_cons, hcs, List.cons_append, List.head?_cons, ne_eq, Option.some.injEq]
      rintro rfl
      exact absurd hc (by decide)
    · have h := not_mem_toDigits (c := ':') (by decide)
      simp [octets, List.intercalate, h]
  · rw [denote_insertAddr fun i _ => group_lt a i, Option.map_some', bytesOfGroups_group]

/-! ### An IPv6 address without brackets -/

theorem colon_not_mem_hex (x : Nat) : ':' ∉ hex x := fun h =>
  (ne_of_isHexDigit ((hex_spec x).2.1 _ h)).1 rfl

theorem count_join_cons (x : Nat) (xs : List Nat) : (join (x :: xs)).count ':' = xs.length := by
  induction xs generalizing x with
  | nil => simp [List.count_eq_zero.2 (colon_not_mem_hex x)]
  | cons y ys ih =>
    rw [join_cons_cons, List.count_append, List.count_cons_self, ih,
      List.count_eq_zero.2 (colon_not_mem_hex x)]
    simp

theorem two_le_count_insertAddr (g : Nat → Nat) : 2 ≤ (insertAddr g).count ':' := by
  have h7 : ((List.range 8).map g).getLast? = some (g 7) := by simp [List.range_succ]
  have hlen : ((List.range 8).map g).length = 8 := by simp
  have hrun := phase_run g 8
  unfold insertAddr
  generalize (List.range 8).foldl (insertStep g) ([], false) = st at hrun ⊢
  generalize (List.range 8).map g = gs at hrun h7 hlen ⊢
  cases hrun with
  | before hP =>
    obtain ⟨x, xs, rfl⟩ := List.exists_cons_of_length_pos (by omega : 0 < gs.length)
    have hc : (join (x :: xs)).count ':' = 7 := by
      rw [count_join_cons]
      simpa using hlen
    dsimp only
    split_ifs <;> simp [hc]
  | @inRun pre z hpre hz =>
    obtain ⟨z, rfl⟩ : ∃ z', z = z' + 1 := ⟨z - 1, by omega⟩
    rw [List.replicate_succ', ← List.append_assoc, List.getLast?_concat] at h7
    simp [← Option.some.inj h7]
  | after =>
    simp only [Bool.not_true, Bool.false_and, Bool.false_eq_true, if_false, List.count_append,
      List.count_cons_self]
    omega

theorem bracket_not_mem_insertAddr (g : Nat → Nat) : '[' ∉ insertAddr g := by
  have hj := not_mem_join (c := '[') (by decide) (by decide)
  have hrun := phase_run g 8
  unfold insertAddr
  generalize (List.range 8).foldl (insertStep g) ([], false) = st at hrun ⊢
  generalize (List.range 8).map g = gs at hrun
  cases hrun <;> dsimp only <;> split_ifs <;> simp [hj]

/-- **An IPv6 address without brackets is not cut**: a host with no `'['` in front and two or more
`':'` is handed over whole as `node`, with `service` the text from its first `':'` on; and the RFC
4291 text of every IPv6 address, as `insert` writes it between the brackets, is such a host. -/
theorem splitHost_bare_ipv6 :
    (∀ host : List Char, host.head? ≠ some '[' → 2 ≤ host.count ':' →
      ∃ i, host[i]? = some ':' ∧ ':' ∉ host.take i ∧ splitHost host = (host, some (host.drop i))) ∧
    (∀ a : IPv6Address,
      (insertAddr (group a)).head? ≠ some '[' ∧ 2 ≤ (insertAddr (group a)).count ':') :=
  ⟨fun _ h0 h2 => splitHost_two_colons h0 h2, fun _ =>
    ⟨fun h => bracket_not_mem_insertAddr _ (List.mem_of_mem_head? h),
      two_le_count_insertAddr _⟩⟩

/-- `fe80::1` is handed over whole, with the service `"::1"` from its first `':'`. -/
theorem splitHost_bare_ipv6_fe80 :
    splitHost "fe80::1".toList = ("fe80::1".toList, some "::1".toList) ∧
      ∃ i, "fe80::1".toList[i]? = some ':' ∧ ':' ∉ "fe80::1".toList.take i ∧
        splitHost "fe80::1".toList = ("fe80::1".toList, some ("fe80::1".toList.drop i)) :=
  ⟨by decide, splitHost_bare_ipv6.1 _ (by decide) (by decide)⟩

/-! ### `CountBytes` and the prefix length of a netmask -/

/-- **`CountBytes(value)`**: clear the lowest set bit, `value &= value - 1`, until none is left,
counting the turns. -/
def countBytes (value : Nat) : Nat :=
  if value = 0 then 0 else countBytes (value &&& (value - 1)) + 1
termination_by value
decreasing_by exact Nat.lt_of_le_of_lt Nat.and_le_right (by omega)

@[simp] theorem countBytes_zero : countBytes 0 = 0 := by
  rw [countBytes, if_pos rfl]

theorem countBytes_of_ne_zero {v : Nat} (hv : v ≠ 0) :
    countBytes v = countBytes (v &&& (v - 1)) + 1 := by
  rw [countBytes, if_neg hv]

/-- The lowest bit of `2v` is clear: `2v - 1` ends in a one where `2v` ends in a zero. -/
theorem countBytes_two_mul (v : Nat) : countBytes (2 * v) = countBytes v := by
  induction v using Nat.strong_induction_on with
  | _ v ih =>
    rcases Nat.eq_zero_or_pos v with rfl | hv
    · rfl
    have hand : 2 * v &&& (2 * v - 1) = 2 * (v &&& (v - 1)) := by
      have := Nat.land_bit false v true (v - 1)
      simp only [Nat.bit_false, Nat.bit_true, Bool.false_and] at this
      rwa [show 2 * (v - 1) + 1 = 2 * v - 1 by omega] at this
    rw [countBytes_of_ne_zero (by omega), hand,
      ih _ (Nat.lt_of_le_of_lt Nat.and_le_right (by omega)), ← countBytes_of_ne_zero (by omega)]

theorem countBytes_two_mul_add_one (v : Nat) : countBytes (2 * v + 1) = countBytes v + 1 := by
  have hand : (2 * v + 1) &&& (2 * v + 1 - 1) = 2 * v := by
    have := Nat.land_bit true v false v
    simp only [Nat.bit_false, Nat.bit_true, Bool.true_and, Nat.and_self] at this
    simpa using this
  rw [countBytes_of_ne_zero (by omega), hand, countBytes_two_mul]

/-- **`CountBytes` counts the one bits** of its argument. -/
theorem countBytes_eq_count (v : Nat) : countBytes v = v.bits.count true := by
  induction v using Nat.strong_induction_on with
  | _ v ih =>
    rcases Nat.eq_zero_or_pos v with rfl | hv
    · simp [Nat.zero_bits]
    have hdiv := ih (v / 2) (by omega)
    rcases Nat.mod_two_eq_zero_or_one v with h | h
    · obtain ⟨u, rfl⟩ : ∃ u, v = 2 * u := ⟨v / 2, by omega⟩
      rw [Nat.bit0_bits u (by omega), countBytes_two_mul]
      simpa using hdiv
    · obtain ⟨u, rfl⟩ : ∃ u, v = 2 * u + 1 := ⟨v / 2, by omega⟩
      rw [Nat.bit1_bits, countBytes_two_mul_add_one]
      simpa [show (2 * u + 1) / 2 = u by omega] using hdiv

/-- Bits below `2 ^ k` and bits above it are counted apart. -/
theorem countBytes_add_two_pow_mul : ∀ (k : Nat) {x : Nat} (y : Nat), x < 2 ^ k →
    countBytes (x + 2 ^ k * y) = countBytes x + countBytes y
  | 0, x, y, hx => by
    obtain rfl : x = 0 := by simpa using hx
    simp
  | k + 1, x, y, hx => by
    have ih := countBytes_add_two_pow_mul k (x := x / 2) y (by rw [Nat.pow_succ] at hx; omega)
    have e : 2 ^ (k + 1) * y = 2 * (2 ^ k * y) := by
      rw [Nat.pow_succ, Nat.mul_comm (2 ^ k) 2, Nat.mul_assoc]
    rcases Nat.mod_two_eq_zero_or_one x with h | h
    · rw [show x + 2 ^ (k + 1) * y = 2 * (x / 2 + 2 ^ k * y) by omega,
        countBytes_two_mul, ih, show x = 2 * (x / 2) by omega, countBytes_two_mul,
        Nat.mul_div_cancel_left _ (by decide)]
    · rw [show x + 2 ^ (k + 1) * y = 2 * (x / 2 + 2 ^ k * y) + 1 by omega,
        countBytes_two_mul_add_one, ih, show x = 2 * (x / 2) + 1 by omega,
        countBytes_two_mul_add_one, show (2 * (x / 2) + 1) / 2 = x / 2 by omega]
      omega

theorem countBytes_two_pow_sub_one : ∀ k, countBytes (2 ^ k - 1) = k
  | 0 => countBytes_zero
  | k + 1 => by
    rw [show 2 ^ (k + 1) - 1 = 2 * (2 ^ k - 1) + 1 by
      rw [Nat.pow_succ]; have := Nat.one_le_two_pow (n := k); omega,
      countBytes_two_mul_add_one, countBytes_two_pow_sub_one k]

theorem countBytes_netMask {w p : Nat} : countBytes (netMask w p) = p := by
  rw [netMask, Nat.shiftLeft_eq, Nat.mul_comm, ← Nat.zero_add (2 ^ (w - p) * _),
    countBytes_add_two_pow_mul _ _ (Nat.two_pow_pos _), countBytes_zero, Nat.zero_add,
    countBytes_two_pow_sub_one]

/-- `AF_UNSPEC` and `AF_INET6` on Linux. -/
def AF_UNSPEC : Nat := 0

def AF_INET6 : Nat := 10

/-- A `getifaddrs` entry as `GetInterfaceAddresses` reads it: the name, `ifa_addr->sa_family`,
and the address bytes of `ifa_netmask` (`sin_addr` or `sin6_addr`) in memory order. -/
structure IfAddrs where
  name : String
  family : Nat
  netmask : List Nat

/-- `sin_addr.s_addr`: the `uint32_t` a little-endian host reads from the bytes. -/
def hostValue (bytes : List Nat) : Nat := bytes.foldr (fun b acc => b + 256 * acc) 0

/-- **The prefix length `GetInterfaceAddresses` records** for an entry: `CountBytes` of
`sin_addr.s_addr`, or `CountBytes` summed over the sixteen bytes of `sin6_addr`; an entry of
another family makes no address and is not recorded. -/
def prefixLength (ifa : IfAddrs) : Option Nat :=
  if ifa.family = AF_INET then some (countBytes (hostValue ifa.netmask))
  else if ifa.family = AF_INET6 then
    some ((List.range 16).map fun i => countBytes (ifa.netmask.getD i 0)).sum
  else none

/-- A `getifaddrs` entry: one whose `ifa_addr` is null, as for an interface with no address, or
one with an address. -/
inductive IfEntry
  | noAddr (name : String)
  | addr (ifa : IfAddrs)

/-- What the loop records for an entry with an address: nothing when another family is asked for,
or when the entry makes no address. -/
def recordEntry (family : Nat) (ifa : IfAddrs) : Option (String × Nat × Nat) :=
  if family ≠ AF_UNSPEC ∧ family ≠ ifa.family then none
  else (prefixLength ifa).map fun p => (ifa.name, ifa.family, p)

/-- **`Address::GetInterfaceAddresses(result, family)`** over a `getifaddrs` listing: the entries
of the family asked for (`AF_UNSPEC`: any) that make an address, with their prefix lengths; the
`multimap`'s order by name is left out. `none`: the loop reads `next->ifa_addr->sa_family`
through a null `ifa_addr` (in the family test for a family other than `AF_UNSPEC`, in the
`switch` for `AF_UNSPEC`), which crashes. -/
def getInterfaceAddresses : List IfEntry → Nat → Option (List (String × Nat × Nat))
  | [], _ => some []
  | .noAddr _ :: _, _ => none
  | .addr ifa :: ifs, family =>
    (getInterfaceAddresses ifs family).map fun rest => (recordEntry family ifa).toList ++ rest

/-- A listing of entries with addresses is walked to the end. -/
theorem getInterfaceAddresses_addr (family : Nat) :
    ∀ l : List IfAddrs, getInterfaceAddresses (l.map .addr) family =
      some (l.filterMap (recordEntry family))
  | [] => rfl
  | ifa :: l => by
    rw [List.map_cons, getInterfaceAddresses, getInterfaceAddresses_addr family l,
      List.filterMap_cons]
    cases recordEntry family ifa <;> rfl

/-- A null `ifa_addr` anywhere in the listing is reached, whatever the family. -/
theorem getInterfaceAddresses_noAddr {n : String} (family : Nat) :
    ∀ {l : List IfEntry}, .noAddr n ∈ l → getInterfaceAddresses l family = none
  | .noAddr _ :: _, _ => rfl
  | .addr _ :: _, h => by
    rw [getInterfaceAddresses, getInterfaceAddresses_noAddr family (by simpa using h)]
    rfl

theorem countBytes_byte_add {b y : Nat} (hb : b < 256) :
    countBytes (b + 256 * y) = countBytes b + countBytes y :=
  countBytes_add_two_pow_mul 8 y hb

/-- `CountBytes` of the four bytes of `x` in network order, read back in host order, is
`CountBytes x`: the bits are only moved. -/
theorem countBytes_hostValue_networkOrder {x : Nat} (hx : x < 2 ^ 32) :
    countBytes (hostValue (networkOrder 4 x)) = countBytes x := by
  have hsplit : x = x % 256 + 256 * (x / 256 % 256 + 256 * (x / 65536 % 256 +
      256 * (x / 16777216 % 256))) := by omega
  simp only [hostValue, networkOrder, List.foldr_cons, List.foldr_nil, Nat.mul_zero,
    Nat.add_zero, Nat.pow_zero, Nat.div_one, Nat.reducePow]
  conv => rhs; rw [hsplit]
  simp only [countBytes_byte_add (Nat.mod_lt _ (by decide : 256 > 0))]
  omega

/-- One full byte, the byte the prefix ends in, then none. -/
theorem sum_countBytes_mask {q r : Nat} (hr : r ≤ 8) : ∀ n,
    ((List.range n).map fun j =>
      countBytes (if j = q then compl 8 (2 ^ (8 - r) - 1) else if j < q then 255 else 0)).sum =
      8 * min q n + if q < n then r else 0
  | 0 => by simp
  | n + 1 => by
    rw [List.range_succ, List.map_append, List.sum_append, sum_countBytes_mask hr n]
    have h255 : countBytes 255 = 8 := countBytes_two_pow_sub_one 8
    have hq : countBytes (compl 8 (2 ^ (8 - r) - 1)) = r := by
      rw [compl_host hr, countBytes_netMask]
    simp only [List.map_singleton, List.sum_singleton]
    rcases Nat.lt_trichotomy n q with h | rfl | h
    · rw [if_neg h.ne, if_pos h, h255, if_neg (by omega), if_neg (by omega),
        Nat.min_eq_right h.le, Nat.min_eq_right h]
      omega
    · rw [if_pos rfl, hq, if_neg (Nat.lt_irrefl n), if_pos (Nat.lt_succ_self n), Nat.min_self,
        Nat.min_eq_left (Nat.le_succ n)]
      omega
    · rw [if_neg h.ne', if_neg (Nat.not_lt.2 h.le), countBytes_zero, if_pos h, if_pos (by omega),
        Nat.min_eq_left h.le, Nat.min_eq_left (by omega), Nat.add_zero]

/-- **The prefix length of a netmask that `subnetMask` builds is its prefix length**, and in
general the number of one bits of the netmask: `CountBytes` counts one bits. -/
theorem interface_prefix_length :
    (∀ v, countBytes v = v.bits.count true) ∧
    (∀ (name : String) (p : UInt32) (m : IPv4Address), 1 ≤ p.toNat → p.toNat ≤ 32 →
      IPv4Address.subnetMask p = .ok m →
      prefixLength ⟨name, AF_INET, networkOrder 4 m.addr⟩ = some p.toNat) ∧
    (∀ (name : String) (p : UInt32) (m : IPv6Address), p.toNat < 128 →
      IPv6Address.subnetMask p = .ok m →
      prefixLength ⟨name, AF_INET6, m.s6_addr⟩ = some p.toNat) := by
  refine ⟨countBytes_eq_count, fun name p m hp hp' hm => ?_, fun name p m hp hm => ?_⟩
  · have haddr := IPv4Address.subnetMask_eq hp hp'
    rw [hm] at haddr
    have ha : m.addr = netMask 32 p.toNat := Except.ok.inj haddr
    rw [prefixLength, if_pos rfl, countBytes_hostValue_networkOrder m.addr_lt, ha,
      countBytes_netMask]
  · obtain ⟨b, hb, hbytes⟩ := IPv6Address.subnetMask_bytes hp
    rw [hm] at hb
    cases hb
    have hsum := sum_countBytes_mask (q := p.toNat / 8) (by omega : p.toNat % 8 ≤ 8) 16
    rw [← List.map_congr_left fun j _ => congrArg countBytes (hbytes j), if_pos (by omega)]
      at hsum
    rw [prefixLength, if_neg (show ¬AF_INET6 = AF_INET by decide), if_pos rfl]
    exact congrArg some (hsum.trans (by omega))

/-- A `/24` IPv4 netmask and a `/64` IPv6 netmask are read back as `24` and `64`. -/
theorem interface_prefix_length_24_64 :
    (∃ m, IPv4Address.subnetMask 24 = .ok m ∧
      prefixLength ⟨"eth0", AF_INET, networkOrder 4 m.addr⟩ = some 24) ∧
    (∃ m, IPv6Address.subnetMask 64 = .ok m ∧ prefixLength ⟨"eth0", AF_INET6, m.s6_addr⟩ = some 64) :=
  ⟨⟨_, rfl, interface_prefix_length.2.1 "eth0" 24 _ (by decide) (by decide) rfl⟩,
    ⟨_, rfl, interface_prefix_length.2.2 "eth0" 64 _ (by decide) rfl⟩⟩

/-- The any-addresses the interface overload gives for `""` and `"*"`: `IPv4Address()` for
`AF_INET` and `AF_UNSPEC`, `IPv6Address()` for `AF_INET6` and `AF_UNSPEC`, each with prefix
length `0`, as family and prefix length. -/
def anyAddresses (family : Nat) : List (Nat × Nat) :=
  (if family = AF_INET ∨ family = AF_UNSPEC then [(AF_INET, 0)] else []) ++
    (if family = AF_INET6 ∨ family = AF_UNSPEC then [(AF_INET6, 0)] else [])

/-- **`Address::GetInterfaceAddresses(result, iface, family)`**, with the `getifaddrs` listing
(`none` where `getifaddrs` fails): the vector after the call, an address as its family and
prefix length, and what the call returns; `none` where the first overload crashes. A name other
than `""` and `"*"` gives the entries of the first overload's `multimap` under that name, which
`equal_range` finds in the order they were inserted. -/
def getInterfaceAddressesIface (ifs : Option (List IfEntry)) (result : List (Nat × Nat))
    (iface : String) (family : Nat) : Option (List (Nat × Nat) × Bool) :=
  if iface.isEmpty || iface == "*" then some (result ++ anyAddresses family, true)
  else
    match ifs with
    | none => some (result, false)
    | some ifs =>
      (getInterfaceAddresses ifs family).map fun results =>
        if results.isEmpty then (result, false)
        else
          let result := result ++ (results.filter fun r => r.1 == iface).map Prod.snd
          (result, !result.isEmpty)

/-- What the first overload records for an entry, but its name: the address's family and its
prefix length, for an entry of the family asked for that makes an address. -/
def interfaceAddress (family : Nat) (ifa : IfAddrs) : Option (Nat × Nat) :=
  if family ≠ AF_UNSPEC ∧ family ≠ ifa.family then none
  else (prefixLength ifa).map fun p => (ifa.family, p)

/-- The addresses of one interface's `getifaddrs` entries of the family asked for, with their
prefix lengths, in listing order. -/
def ifaceAddresses (ifs : List IfAddrs) (iface : String) (family : Nat) : List (Nat × Nat) :=
  (ifs.filter fun ifa => ifa.name == iface).filterMap (interfaceAddress family)

theorem filterMap_recordEntry (ifs : List IfAddrs) (family : Nat) :
    ifs.filterMap (recordEntry family) =
      ifs.filterMap fun ifa => (interfaceAddress family ifa).map (Prod.mk ifa.name) := by
  unfold recordEntry interfaceAddress
  congr 1; funext ifa
  split <;> simp [Option.map_map, Function.comp_def]

theorem filter_filterMap_name (ifs : List IfAddrs) (iface : String)
    (g : IfAddrs → Option (Nat × Nat)) :
    ((ifs.filterMap fun ifa => (g ifa).map (Prod.mk ifa.name)).filter fun r => r.1 == iface).map
      Prod.snd = (ifs.filter fun ifa => ifa.name == iface).filterMap g := by
  induction ifs with
  | nil => rfl
  | cons ifa ifs ih =>
    rw [List.filterMap_cons, List.filter_cons]
    cases hg : g ifa <;> by_cases hn : ifa.name = iface <;> simp [hg, hn, ih]

/-- `equal_range(iface)` over the first overload's entries is the interface's own entries. -/
theorem filter_recordEntry (ifs : List IfAddrs) (iface : String) (family : Nat) :
    ((ifs.filterMap (recordEntry family)).filter fun r => r.1 == iface).map Prod.snd =
      ifaceAddresses ifs iface family := by
  rw [filterMap_recordEntry, filter_filterMap_name, ifaceAddresses]

/-- **What `GetInterfaceAddresses(result, iface, family)` appends and returns**: for `""` and
`"*"` the any-addresses of the family, and `true` even when it appends none; for another name,
`false` when `getifaddrs` fails, a crash when an entry has a null `ifa_addr`, and otherwise the
addresses of that interface's entries of the family, in listing order, and `true` exactly when
the family has an address on some interface and the vector is not empty after the call, so a
vector that was not empty gives `true` with nothing found. -/
theorem interface_addresses_of_iface (result : List (Nat × Nat)) (iface : String) (family : Nat) :
    ((iface = "" ∨ iface = "*") → ∀ ifs,
      getInterfaceAddressesIface ifs result iface family = some (result ++ anyAddresses family, true)) ∧
    (iface ≠ "" → iface ≠ "*" →
      getInterfaceAddressesIface none result iface family = some (result, false) ∧
      (∀ l n, .noAddr n ∈ l → getInterfaceAddressesIface (some l) result iface family = none) ∧
      ∀ l : List IfAddrs, ∃ b,
        getInterfaceAddressesIface (some (l.map .addr)) result iface family =
          some (result ++ ifaceAddresses l iface family, b) ∧
        (b = true ↔ (∃ ifa ∈ l, (recordEntry family ifa).isSome) ∧
          result ++ ifaceAddresses l iface family ≠ [])) := by
  have hany : (iface.isEmpty || iface == "*") = true ↔ iface = "" ∨ iface = "*" := by
    simp only [Bool.or_eq_true, String.isEmpty_iff, beq_iff_eq]
  unfold getInterfaceAddressesIface
  refine ⟨fun h _ => if_pos (hany.2 h), fun h₁ h₂ => ?_⟩
  have hne : ¬(iface.isEmpty || iface == "*") = true := fun h => (hany.1 h).elim h₁ h₂
  refine ⟨(if_neg hne).trans rfl,
    fun l n h => by simp only [if_neg hne, getInterfaceAddresses_noAddr family h]; rfl,
    fun l => ?_⟩
  have hex :
      l.filterMap (recordEntry family) ≠ [] ↔ ∃ ifa ∈ l, (recordEntry family ifa).isSome := by
    simp [Option.isSome_iff_ne_none]
  simp only [if_neg hne, getInterfaceAddresses_addr]
  by_cases he : l.filterMap (recordEntry family) = []
  · have hi : ifaceAddresses l iface family = [] := by
      rw [← filter_recordEntry, he]; rfl
    exact ⟨false, by simp [he, hi], by simp [← hex, he]⟩
  · exact ⟨!(result ++ ifaceAddresses l iface family).isEmpty, by simp [he, filter_recordEntry],
      by simp [← hex, he]⟩

/-- A tunnel with no address listed before `eth0` crashes the call for `eth0`. -/
theorem interface_addresses_of_iface_tun0 :
    "eth0" ≠ "" ∧ "eth0" ≠ "*" ∧
      getInterfaceAddressesIface (some [.noAddr "tun0", .addr ⟨"eth0", AF_INET, [255, 255, 255, 0]⟩])
        [] "eth0" AF_INET = none :=
  ⟨by decide, by decide,
    ((interface_addresses_of_iface [] "eth0" AF_INET).2 (by decide) (by decide)).2.1 _ "tun0"
      (List.mem_cons_self _ _)⟩

/-- An interface that is not listed, asked for with a vector that holds an address, gives
`true`. -/
example : getInterfaceAddressesIface (some [.addr ⟨"eth0", AF_INET, [255, 255, 255, 0]⟩])
    [(AF_INET6, 0)] "eth1" AF_INET = some ([(AF_INET6, 0)], true) := by decide

end Sylar.Address.Lookup
