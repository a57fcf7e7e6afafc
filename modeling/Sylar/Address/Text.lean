import Mathlib.Data.Nat.Digits
import Sylar.Address.Prefix

/-! # The text `IPv6Address::insert` writes

`IPv6Address::insert` reads the sixteen bytes as eight `uint16_t` groups, prints each in hex, and
compresses zero groups with one flag, `used_zeros`: zero groups are skipped while it is clear, the
first non-zero group after them gets an extra `:` and sets it, and a clear flag with a zero last
group ends the text with `::`. So the first run of zero groups, wherever it lies, becomes `::`.

Against RFC 4291 (section 2.2), read by `denote`: eight colon-separated groups of one to four hex
digits, or fewer around a single `::` standing for the zero groups left out.

* `phase_run`: the loop's text and flag after any number of groups, by the phase it is in;
* `denote_insertAddr`: the text between the brackets denotes the eight groups;
* `insert_denotes`: for every address and port, the text between `[` and `]` is valid and
  denotes exactly the address's sixteen bytes. -/

namespace Sylar.Address.Text

open Sylar.Address.Prefix

/-! ### Hex numerals -/

/-- A hex digit (`HEXDIG`): `0-9`, `a-f` or `A-F`. -/
def isHexDigit (c : Char) : Bool :=
  c.isDigit || (decide ('a' ≤ c) && decide (c ≤ 'f')) || (decide ('A' ≤ c) && decide (c ≤ 'F'))

/-- The value of a hex digit. -/
def hexDigitValue (c : Char) : Nat :=
  if c.isDigit then c.toNat - '0'.toNat
  else if c.isLower then c.toNat - 'a'.toNat + 10 else c.toNat - 'A'.toNat + 10

/-- The value of hex digits, most significant first. -/
def hexValue (w : List Char) : Nat := w.foldl (fun acc c => 16 * acc + hexDigitValue c) 0

/-- `os << std::hex << x << std::dec`: lower-case digits, no leading zero. -/
def hex (x : Nat) : List Char := Nat.toDigits 16 x

theorem digitChar_hex : ∀ d, d < 16 →
    isHexDigit (Nat.digitChar d) = true ∧ hexDigitValue (Nat.digitChar d) = d := by
  decide

theorem hexValue_append_singleton (w : List Char) (c : Char) :
    hexValue (w ++ [c]) = 16 * hexValue w + hexDigitValue c := by
  simp only [hexValue, List.foldl_append, List.foldl_cons, List.foldl_nil]

theorem toDigitsCore_hex : ∀ fuel n ds, n < fuel → ∃ w, Nat.toDigitsCore 16 fuel n ds = w ++ ds ∧
    w ≠ [] ∧ (∀ c ∈ w, isHexDigit c = true) ∧ hexValue w = n
  | 0, n, _, h => absurd h (Nat.not_lt_zero n)
  | fuel + 1, n, ds, h => by
    have hd := digitChar_hex (n % 16) (Nat.mod_lt _ (by decide))
    simp only [Nat.toDigitsCore]
    split
    · refine ⟨[Nat.digitChar (n % 16)], rfl, List.cons_ne_nil _ _, by simp [hd.1], ?_⟩
      simp only [hexValue, List.foldl_cons, List.foldl_nil, hd.2]
      omega
    · obtain ⟨w, hw, -, hhex, hv⟩ :=
        toDigitsCore_hex fuel (n / 16) (Nat.digitChar (n % 16) :: ds) (by omega)
      refine ⟨w ++ [Nat.digitChar (n % 16)], by simp [hw], by simp, ?_, ?_⟩
      · intro c hc
        rcases List.mem_append.1 hc with hc | hc
        · exact hhex c hc
        · rw [List.mem_singleton.1 hc]
          exact hd.1
      · rw [hexValue_append_singleton, hv, hd.2]
        omega

theorem hex_spec (x : Nat) :
    hex x ≠ [] ∧ (∀ c ∈ hex x, isHexDigit c = true) ∧ hexValue (hex x) = x := by
  obtain ⟨w, hw, h⟩ := toDigitsCore_hex (x + 1) x [] (Nat.lt_succ_self x)
  rw [List.append_nil] at hw
  rwa [hex, Nat.toDigits, hw]

theorem length_hex {x : Nat} (hx : x < 65536) : (hex x).length ≤ 4 :=
  Nat.toDigitsCore_length 16 (by decide) (x + 1) x 4 hx (by decide)

theorem ne_of_isHexDigit {c : Char} (h : isHexDigit c = true) : c ≠ ':' ∧ c ≠ ']' := by
  constructor <;> rintro rfl <;> exact absurd h (by decide)

/-! ### RFC 4291 text -/

/-- A group: one to four hex digits. -/
def parseGroup (w : List Char) : Option Nat :=
  if 0 < w.length ∧ w.length ≤ 4 ∧ w.all isHexDigit then some (hexValue w) else none

/-- Colon-separated groups; no text is no group. -/
def parseGroups (t : List Char) : Option (List Nat) :=
  if t = [] then some [] else (t.splitOn ':').mapM parseGroup

/-- The text split around its first `::`. -/
def splitDoubleColon : List Char → Option (List Char × List Char)
  | ':' :: ':' :: r => some ([], r)
  | c :: r => (splitDoubleColon r).map fun (l, r') => (c :: l, r')
  | [] => none

/-- **RFC 4291, 2.2**: the eight groups a text denotes, if it is either eight colon-separated
groups, or fewer around one `::` that stands for the zero groups left out. -/
def denote (t : List Char) : Option (List Nat) :=
  match splitDoubleColon t with
  | none => parseGroups t >>= fun gs => if gs.length = 8 then some gs else none
  | some (l, r) => do
    let gl ← parseGroups l
    let gr ← parseGroups r
    if gl.length + gr.length < 8 then
      some (gl ++ List.replicate (8 - (gl.length + gr.length)) 0 ++ gr)
    else none

theorem parseGroup_hex {x : Nat} (hx : x < 65536) : parseGroup (hex x) = some x := by
  obtain ⟨hne, hhex, hv⟩ := hex_spec x
  simp only [parseGroup, List.length_pos.2 hne, length_hex hx, List.all_eq_true, true_and, hv]
  exact if_pos hhex

/-! ### Groups in hex, colon-separated -/

/-- The groups `xs` in hex, colon-separated. -/
def join (xs : List Nat) : List Char := [':'].intercalate (xs.map hex)

@[simp]
theorem join_nil : join [] = [] := rfl

@[simp]
theorem join_singleton (x : Nat) : join [x] = hex x := by
  simp [join, List.intercalate]

theorem join_cons_cons (x y : Nat) (ys : List Nat) :
    join (x :: y :: ys) = hex x ++ ':' :: join (y :: ys) := by
  simp [join, List.intercalate]

theorem join_append_singleton {xs : List Nat} (hxs : xs ≠ []) (x : Nat) :
    join (xs ++ [x]) = join xs ++ ':' :: hex x := by
  induction xs with
  | nil => contradiction
  | cons y ys ih =>
    cases ys with
    | nil => simp [join_cons_cons]
    | cons z zs =>
      rw [List.cons_append, List.cons_append, join_cons_cons, ← List.cons_append,
        ih (List.cons_ne_nil _ _), join_cons_cons]
      simp

/-- A joined text starts with its first group's first digit. -/
theorem join_cons_append (x : Nat) (xs : List Nat) (t : List Char) :
    ∃ c w, join (x :: xs) ++ t = c :: w ∧ isHexDigit c = true := by
  obtain ⟨hne, hhex, -⟩ := hex_spec x
  obtain ⟨c, w, hw⟩ := List.exists_cons_of_ne_nil hne
  refine ⟨c, ?_, ?_, hhex c (hw ▸ List.mem_cons_self c w)⟩
  · cases xs with
    | nil => exact w ++ t
    | cons y ys => exact w ++ ':' :: join (y :: ys) ++ t
  · cases xs <;> simp [join_cons_cons, hw]

theorem not_mem_join {c : Char} (hc : c ≠ ':') (hhex : isHexDigit c = false) (xs : List Nat) :
    c ∉ join xs := by
  induction xs with
  | nil => simp
  | cons x xs ih =>
    have hx : c ∉ hex x := fun h => by rw [(hex_spec x).2.1 c h] at hhex; cases hhex
    cases xs with
    | nil => simpa using hx
    | cons y ys => simp [join_cons_cons, hx, hc, ih]

theorem mapM_parseGroup_hex {xs : List Nat} (hxs : ∀ x ∈ xs, x < 65536) :
    (xs.map hex).mapM parseGroup = some xs := by
  induction xs with
  | nil => rfl
  | cons x xs ih =>
    rw [List.map_cons, List.mapM_cons, parseGroup_hex (hxs x (List.mem_cons_self x xs)),
      ih fun y hy => hxs y (List.mem_cons_of_mem x hy)]
    rfl

theorem parseGroups_join {xs : List Nat} (hxs : ∀ x ∈ xs, x < 65536) :
    parseGroups (join xs) = some xs := by
  cases xs with
  | nil => rfl
  | cons x xs =>
    obtain ⟨c, w, hcw, -⟩ := join_cons_append x xs []
    rw [List.append_nil] at hcw
    rw [parseGroups, if_neg (hcw ▸ List.cons_ne_nil c w), join,
      List.splitOn_intercalate _ ':' (fun w hw => ?_) (by simp), mapM_parseGroup_hex hxs]
    obtain ⟨y, -, rfl⟩ := List.mem_map.1 hw
    exact fun h => absurd ((hex_spec y).2.1 _ h) (by decide)

/-! ### Finding the `::` -/

theorem splitDoubleColon_cons {c : Char} {r : List Char} (h : c ≠ ':' ∨ r.head? ≠ some ':') :
    splitDoubleColon (c :: r) = (splitDoubleColon r).map fun (l, r') => (c :: l, r') := by
  rcases r with _ | ⟨d, r⟩
  · by_cases hc : c = ':' <;> simp [splitDoubleColon, hc]
  · by_cases hc : c = ':' <;> by_cases hd : d = ':'
    · subst hc hd
      simp at h
    all_goals simp [splitDoubleColon, hc, hd]

theorem splitDoubleColon_colonFree {w : List Char} (hw : ':' ∉ w) (t : List Char) :
    splitDoubleColon (w ++ t) = (splitDoubleColon t).map fun (l, r) => (w ++ l, r) := by
  induction w with
  | nil => rw [List.nil_append]; cases splitDoubleColon t <;> rfl
  | cons c w ih =>
    rw [List.mem_cons, not_or] at hw
    rw [List.cons_append, splitDoubleColon_cons (.inl (Ne.symm hw.1)), ih hw.2, Option.map_map]
    rfl

/-- A joined text holds no `::` and does not end in `:`, so the first `::` after it is the first
`::` of the whole. -/
theorem splitDoubleColon_join (xs : List Nat) (t : List Char) :
    splitDoubleColon (join xs ++ t) = (splitDoubleColon t).map fun (l, r) => (join xs ++ l, r) := by
  have hcolon : ∀ x, ':' ∉ hex x := fun x h => absurd ((hex_spec x).2.1 _ h) (by decide)
  induction xs with
  | nil => rw [join_nil, List.nil_append]; cases splitDoubleColon t <;> rfl
  | cons x xs ih =>
    cases xs with
    | nil => rw [join_singleton, splitDoubleColon_colonFree (hcolon x)]
    | cons y ys =>
      obtain ⟨c, w, hcw, hc⟩ := join_cons_append y ys t
      have hne : (join (y :: ys) ++ t).head? ≠ some ':' := by
        rw [hcw]
        exact fun h => absurd (Option.some.inj h ▸ hc) (by decide)
      rw [join_cons_cons, List.append_assoc, splitDoubleColon_colonFree (hcolon x),
        List.cons_append, splitDoubleColon_cons (.inr hne), ih, Option.map_map, Option.map_map]
      congr 1
      funext p
      simp

/-! ### `IPv6Address::insert` -/

/-- `byteswapOnLittleEndian(addr[i])`, with `addr` the bytes read as `uint16_t`s: group `i`,
bytes `2i` and `2i + 1`, the first most significant. It is zero exactly when `addr[i]` is. -/
def group (a : IPv6Address) (i : Nat) : Nat := 256 * a.byte (2 * i) + a.byte (2 * i + 1)

/-- One turn of the loop over the groups `g`, on the text written so far and `used_zeros`. -/
def insertStep (g : Nat → Nat) (st : List Char × Bool) (i : Nat) : List Char × Bool :=
  let (os, usedZeros) := st
  if g i == 0 && !usedZeros then (os, usedZeros)
  else
    let (os, usedZeros) :=
      if i != 0 && g (i - 1) == 0 && !usedZeros then (os ++ [':'], true) else (os, usedZeros)
    let os := if i != 0 then os ++ [':'] else os
    (os ++ hex (g i), usedZeros)

/-- The loop over the eight groups and the check after it: the text between `[` and `]`. -/
def insertAddr (g : Nat → Nat) : List Char :=
  let (os, usedZeros) := (List.range 8).foldl (insertStep g) ([], false)
  if !usedZeros && g 7 == 0 then os ++ [':', ':'] else os

/-- **`IPv6Address::insert(os)`**: `[`, the groups, `]:` and the port in decimal. -/
def insert (a : IPv6Address) : List Char :=
  '[' :: insertAddr (group a) ++ ']' :: ':' :: Nat.toDigits 10 a.port

/-- Where the loop is after the groups `P`, with its text and flag: before any zero group,
inside the first run of them, or past it. -/
inductive Phase : List Nat → List Char × Bool → Prop
  | before {P : List Nat} : (∀ x ∈ P, x ≠ 0) → Phase P (join P, false)
  | inRun {pre : List Nat} {z : Nat} : (∀ x ∈ pre, x ≠ 0) → 0 < z →
      Phase (pre ++ List.replicate z 0) (join pre, false)
  | after {pre post : List Nat} {z : Nat} : (∀ x ∈ pre, x ≠ 0) → 0 < z → post ≠ [] →
      Phase (pre ++ List.replicate z 0 ++ post) (join pre ++ ':' :: ':' :: join post, true)

/-- One turn of the loop moves to the phase of one more group. -/
theorem phase_step {g : Nat → Nat} {i : Nat} {st : List Char × Bool}
    (h : Phase ((List.range i).map g) st) :
    Phase ((List.range i).map g ++ [g i]) (insertStep g st i) := by
  have hprev : ∀ j, j + 1 = i → ((List.range i).map g).getLast? = some (g j) := by
    rintro j rfl
    rw [List.range_succ, List.map_append, List.map_singleton, List.getLast?_concat]
  have hnil : (List.range i).map g = [] ↔ i = 0 := by simp
  generalize (List.range i).map g = P at h hprev hnil
  cases h with
  | before hP =>
    by_cases hx : g i = 0
    · rw [hx]
      simpa [insertStep, hx] using (Phase.inRun hP Nat.one_pos : Phase (P ++ [0]) _)
    · have hstep : insertStep g (join P, false) i = (join (P ++ [g i]), false) := by
        rcases Nat.eq_zero_or_eq_succ_pred i with hi | hi
        · subst hi
          simp [insertStep, hx, hnil.2 rfl]
        · have hlast := hprev _ hi.symm
          have hP0 : P ≠ [] := fun h => by simp [h] at hlast
          have hpj : g (i - 1) ≠ 0 := hP _ (List.mem_of_getLast?_eq_some hlast)
          have hi0 : i ≠ 0 := hi.symm ▸ Nat.succ_ne_zero _
          simp [insertStep, hx, hi0, hpj, join_append_singleton hP0]
      rw [hstep]
      exact .before fun y hy =>
        (List.mem_append.1 hy).elim (hP y) fun h => List.mem_singleton.1 h ▸ hx
  | @inRun pre z hpre hz =>
    have hi0 : i ≠ 0 := fun h => by simpa [hz.ne'] using hnil.2 h
    obtain ⟨z, rfl⟩ : ∃ z', z = z' + 1 := ⟨z - 1, by omega⟩
    have hlast := hprev (i - 1) (by omega)
    rw [List.replicate_succ', ← List.append_assoc, List.getLast?_concat] at hlast
    have hpj : g (i - 1) = 0 := (Option.some.inj hlast).symm
    by_cases hx : g i = 0
    · rw [hx, List.append_assoc, ← List.replicate_succ']
      simpa [insertStep, hx] using (Phase.inRun hpre (Nat.succ_pos _) :
        Phase (pre ++ List.replicate (z + 2) 0) _)
    · have hstep : insertStep g (join pre, false) i =
          (join pre ++ ':' :: ':' :: join [g i], true) := by
        simp [insertStep, hx, hi0, hpj]
      rw [hstep]
      exact .after hpre (Nat.succ_pos _) (List.cons_ne_nil _ _)
  | @after pre post z hpre hz hpost =>
    have hi0 : i ≠ 0 := fun h => by simpa [hz.ne'] using hnil.2 h
    have hstep : insertStep g (join pre ++ ':' :: ':' :: join post, true) i =
        (join pre ++ ':' :: ':' :: join (post ++ [g i]), true) := by
      simp [insertStep, hi0, join_append_singleton hpost]
    rw [hstep, List.append_assoc]
    exact .after hpre hz (by simp)

/-- **The loop's phases**: after the first `n` groups, the text and the flag are those of the
phase the groups leave the loop in. -/
theorem phase_run (g : Nat → Nat) (n : Nat) :
    Phase ((List.range n).map g) ((List.range n).foldl (insertStep g) ([], false)) := by
  induction n with
  | zero => exact .before (by simp)
  | succ n ih =>
    rw [List.range_succ, List.foldl_append, List.map_append, List.map_singleton, List.foldl_cons,
      List.foldl_nil]
    exact phase_step ih

/-- Reading back what `::` stands for: the groups around it and the zero groups in between. -/
theorem denote_compressed {pre post : List Nat} {z : Nat} (hz : 0 < z)
    (hlt : ∀ x ∈ pre ++ List.replicate z 0 ++ post, x < 65536)
    (hlen : (pre ++ List.replicate z 0 ++ post).length = 8) :
    denote (join pre ++ ':' :: ':' :: join post) = some (pre ++ List.replicate z 0 ++ post) := by
  have hsplit : splitDoubleColon (join pre ++ ':' :: ':' :: join post) =
      some (join pre, join post) := by
    rw [splitDoubleColon_join]
    simp [splitDoubleColon]
  simp only [List.length_append, List.length_replicate] at hlen
  simp only [List.mem_append] at hlt
  simp only [denote, hsplit, parseGroups_join fun x hx => hlt x (.inl (.inl hx)),
    parseGroups_join fun x hx => hlt x (.inr hx), Option.bind_eq_bind, Option.some_bind,
    show pre.length + post.length < 8 by omega, if_true, show 8 - (pre.length + post.length) = z by
      omega]

/-- **The text between the brackets denotes the groups.** -/
theorem denote_insertAddr {g : Nat → Nat} (hg : ∀ i < 8, g i < 65536) :
    denote (insertAddr g) = some ((List.range 8).map g) := by
  have hlt : ∀ x ∈ (List.range 8).map g, x < 65536 := by simpa using hg
  have h7 : ((List.range 8).map g).getLast? = some (g 7) := by simp [List.range_succ]
  have hlen : ((List.range 8).map g).length = 8 := by simp
  have hrun := phase_run g 8
  unfold insertAddr
  generalize (List.range 8).foldl (insertStep g) ([], false) = st at hrun ⊢
  generalize (List.range 8).map g = gs at hrun hlt h7 hlen ⊢
  cases hrun with
  | before hP =>
    have h7' : g 7 ≠ 0 := hP _ (List.mem_of_getLast?_eq_some h7)
    have hsplit : splitDoubleColon (join gs) = none := by
      simpa [splitDoubleColon] using splitDoubleColon_join gs []
    simp [h7', denote, hsplit, parseGroups_join hlt, hlen]
  | @inRun pre z hpre hz =>
    obtain ⟨z, rfl⟩ : ∃ z', z = z' + 1 := ⟨z - 1, by omega⟩
    rw [List.replicate_succ', ← List.append_assoc, List.getLast?_concat] at h7
    simpa [← Option.some.inj h7] using
      @denote_compressed pre [] (z + 1) hz (by simpa using hlt) (by simpa using hlen)
  | @after pre post z hpre hz hpost => exact denote_compressed hz hlt hlen

theorem not_mem_insertAddr (g : Nat → Nat) : ']' ∉ insertAddr g := by
  have hj := not_mem_join (c := ']') (by decide) (by decide)
  have hrun := phase_run g 8
  unfold insertAddr
  generalize (List.range 8).foldl (insertStep g) ([], false) = st at hrun ⊢
  generalize (List.range 8).map g = gs at hrun
  cases hrun <;> dsimp only <;> split_ifs <;> simp [hj]

/-! ### The address the text denotes -/

/-- The sixteen bytes eight groups stand for, each group's most significant byte first. -/
def bytesOfGroups (gs : List Nat) : List Nat := gs.flatMap fun g => [g / 256, g % 256]

theorem s6_addr_eq (a : IPv6Address) : a.s6_addr = (List.range 16).map a.byte :=
  List.ext_getElem (by simp [a.length_eq]) fun j h _ => by
    simp [IPv6Address.byte, List.getElem?_eq_getElem h]

theorem group_lt (a : IPv6Address) (i : Nat) : group a i < 65536 := by
  have := a.byte_lt (2 * i)
  have := a.byte_lt (2 * i + 1)
  unfold group
  omega

theorem bytesOfGroups_group (a : IPv6Address) :
    bytesOfGroups ((List.range 8).map (group a)) = a.s6_addr := by
  have hdm : ∀ j, group a j / 256 = a.byte (2 * j) ∧ group a j % 256 = a.byte (2 * j + 1) :=
    fun j => by
      have := a.byte_lt (2 * j + 1)
      unfold group
      omega
  rw [s6_addr_eq a]
  simp [bytesOfGroups, List.range_succ, hdm]

/-- **`IPv6Address::insert` is faithful**: for every address and port, the text written between
`[` and `]` is valid RFC 4291 text, and it denotes exactly the address's sixteen bytes. -/
theorem insert_denotes (a : IPv6Address) :
    ∃ text, insert a = '[' :: (text ++ ']' :: ':' :: Nat.toDigits 10 a.port) ∧ ']' ∉ text ∧
      (denote text).map bytesOfGroups = some a.s6_addr :=
  ⟨insertAddr (group a), rfl, not_mem_insertAddr _, by
    rw [denote_insertAddr fun i _ => group_lt a i, Option.map_some', bytesOfGroups_group]⟩

end Sylar.Address.Text
