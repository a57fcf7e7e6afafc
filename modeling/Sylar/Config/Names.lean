import Mathlib.Data.List.Basic

/-! # Config names: `Config::Lookup` and `Config::LoadFromYaml`

`Config::Lookup<T>(name, default_value, description)` returns the variable registered under
`name`, or registers a new one; a fresh name with a character outside the literal
`"abcdefghikjlmnopqrstuvwxyz._012345678"` throws `std::invalid_argument(name)`.
`Config::LoadFromYaml(root)` lists the nodes of a YAML document with `ListAllMember`, which names
each node by the dotted path of its map keys and checks every such name against the same
literal before it descends, and hands each listed node whose lower-cased name is registered to
that variable's `fromString`.

The model keeps a document as a tree of map entries in document order and a registry as the
list of its entries; `fromString`'s conversion to the variable's type is left out, so
`loadFromYaml` returns the `(name, node)` pairs it hands over.

* `mem_nameChars`: the literal is the documented grammar `[0-9a-z_.]` without `'9'`, and
  `lookup_registers_iff`: a fresh name is registered exactly when it is in that set.
* `mem_listAllMember`: `ListAllMember` lists the nodes a key path reaches whose every prefix
  names validly, and `mem_loadFromYaml`: `LoadFromYaml` applies exactly those whose name is
  registered; lower-casing never changes a name that got that far. -/

namespace Sylar.Config.Names

/-! ### YAML documents -/

/-- A YAML node as `ListAllMember` reads it: a map is its entries in document order, each key
read with `Scalar()`. -/
inductive Node where
  | null
  | scalar (s : String)
  | seq (items : List Node)
  | map (entries : List (String × Node))

/-- `Path node keys n`: following the map keys `keys` from `node` reaches `n`. -/
inductive Path : Node → List String → Node → Prop
  | nil (n : Node) : Path n [] n
  | cons {es : List (String × Node)} {k : String} {v n : Node} {ks : List String} :
      (k, v) ∈ es → Path v ks n → Path (.map es) (k :: ks) n

@[simp]
theorem path_nil {node n : Node} : Path node [] n ↔ n = node :=
  ⟨fun | .nil _ => rfl, fun h => h ▸ .nil n⟩

@[simp]
theorem path_cons_map {es : List (String × Node)} {k : String} {ks : List String} {n : Node} :
    Path (.map es) (k :: ks) n ↔ ∃ v, (k, v) ∈ es ∧ Path v ks n :=
  ⟨fun | .cons hk hp => ⟨_, hk, hp⟩, fun ⟨_, hk, hp⟩ => .cons hk hp⟩

theorem not_path_cons {node n : Node} {k : String} {ks : List String}
    (hnode : ∀ es, node ≠ .map es) : ¬Path node (k :: ks) n
  | .cons _ _ => hnode _ rfl

/-! ### Names -/

/-- The literal both checks pass to `find_first_not_of`. -/
def nameChars : List Char := "abcdefghikjlmnopqrstuvwxyz._012345678".toList

/-- `name.find_first_not_of(nameChars) == std::string::npos`. -/
def isValidName (name : String) : Bool := name.toList.all fun c => decide (c ∈ nameChars)

/-- The grammar the documentation gives a name's characters, `[0-9a-z_.]`. -/
def inGrammar (c : Char) : Bool := c.isDigit || c.isLower || c == '_' || c == '.'

theorem char_eq_iff_toNat {c d : Char} : c = d ↔ c.toNat = d.toNat :=
  ⟨congrArg _, fun h => by rw [← Char.ofNat_toNat c, h, Char.ofNat_toNat]⟩

theorem isDigit_eq (c : Char) : c.isDigit = (decide (48 ≤ c.toNat) && decide (c.toNat ≤ 57)) :=
  rfl

theorem isLower_eq (c : Char) : c.isLower = (decide (97 ≤ c.toNat) && decide (c.toNat ≤ 122)) :=
  rfl

/-- The literal is the documented grammar without `'9'`: compared code point by code point. -/
theorem mem_nameChars (c : Char) : c ∈ nameChars ↔ inGrammar c = true ∧ c ≠ '9' := by
  simp only [nameChars, String.toList, List.mem_cons, List.mem_nil_iff, or_false,
    char_eq_iff_toNat, Char.reduceToNat, inGrammar, isDigit_eq, isLower_eq, Bool.or_eq_true,
    Bool.and_eq_true, decide_eq_true_eq, beq_iff_eq, ne_eq]
  omega

theorem isValidName_iff (name : String) :
    isValidName name = true ↔ (∀ c ∈ name.toList, inGrammar c = true) ∧ '9' ∉ name.toList := by
  simp only [isValidName, List.all_eq_true, decide_eq_true_eq, mem_nameChars]
  exact ⟨fun h => ⟨fun c hc => (h c hc).1, fun h9 => (h _ h9).2 rfl⟩,
    fun h c hc => ⟨h.1 c hc, fun h9 => h.2 (h9 ▸ hc)⟩⟩

/-- `std::transform(key.begin(), key.end(), key.begin(), ::tolower)`. -/
def toLower (key : String) : String := ⟨key.toList.map Char.toLower⟩

theorem toLower_of_isValidName {name : String} (h : isValidName name = true) :
    toLower name = name := by
  have hlow : ∀ c ∈ nameChars, c.toLower = c := by decide
  simp only [isValidName, List.all_eq_true, decide_eq_true_eq] at h
  cases name with
  | mk cs =>
    exact congrArg String.mk ((List.map_congr_left fun c hc => hlow c (h c hc)).trans
      (List.map_id cs))

/-! ### `ListAllMember` -/

/-- The name of a child under key `k`: `prefix.empty() ? k : prefix + "." + k`. -/
def childName (pre k : String) : String := if pre = "" then k else pre ++ "." ++ k

mutual

/-- **`ListAllMember(prefix, node, output)`**: what it appends to `output`, in order. A prefix
with a character outside `nameChars` is logged and skipped with everything below it. -/
def listAllMember (pre : String) (node : Node) : List (String × Node) :=
  if isValidName pre then
    (pre, node) :: match node with
      | .map es => listEntries pre es
      | _ => []
  else []

/-- The loop over a map's entries, each listed under its `childName`. -/
def listEntries (pre : String) : List (String × Node) → List (String × Node)
  | [] => []
  | (k, v) :: es => listAllMember (childName pre k) v ++ listEntries pre es

end

/-- The name `ListAllMember` gives the node at the end of key path `ks`, from `pre`. -/
def dotted (pre : String) : List String → String
  | [] => pre
  | k :: ks => dotted (childName pre k) ks

/-- Every name on the way down key path `ks`, from `pre`, passes the check. -/
def validAlong (pre : String) : List String → Bool
  | [] => isValidName pre
  | k :: ks => isValidName pre && validAlong (childName pre k) ks

theorem isValidName_dotted {pre : String} {ks : List String} (h : validAlong pre ks = true) :
    isValidName (dotted pre ks) = true := by
  induction ks generalizing pre with
  | nil => exact h
  | cons k ks ih =>
    simp only [validAlong, Bool.and_eq_true] at h
    exact ih h.2

/-- A key path from `node`, split at its first key. -/
theorem exists_path_iff {pre key : String} {node n : Node} :
    (∃ ks, Path node ks n ∧ validAlong pre ks = true ∧ key = dotted pre ks) ↔
      isValidName pre = true ∧ ((key = pre ∧ n = node) ∨ ∃ es, node = .map es ∧
        ∃ k v ks, (k, v) ∈ es ∧ Path v ks n ∧ validAlong (childName pre k) ks = true ∧
          key = dotted (childName pre k) ks) := by
  constructor
  · rintro ⟨_ | ⟨k, ks⟩, hp, hva, rfl⟩
    · exact ⟨hva, .inl ⟨rfl, path_nil.1 hp⟩⟩
    · simp only [validAlong, Bool.and_eq_true] at hva
      cases hp with
      | cons hk hp => exact ⟨hva.1, .inr ⟨_, rfl, k, _, ks, hk, hp, hva.2, rfl⟩⟩
  · rintro ⟨hv, ⟨rfl, rfl⟩ | ⟨es, rfl, k, v, ks, hk, hp, hva, rfl⟩⟩
    · exact ⟨[], .nil _, hv, rfl⟩
    · exact ⟨k :: ks, .cons hk hp, by simp [validAlong, hv, hva], rfl⟩

mutual

/-- **What `ListAllMember` lists**: the nodes a key path reaches from `node` whose every prefix,
named from `pre`, passes the check, each under the path's name. -/
theorem mem_listAllMember (pre : String) (node : Node) (key : String) (n : Node) :
    (key, n) ∈ listAllMember pre node ↔
      ∃ ks, Path node ks n ∧ validAlong pre ks = true ∧ key = dotted pre ks := by
  rw [exists_path_iff, listAllMember.eq_def]
  by_cases hv : isValidName pre = true
  · simp only [hv, if_true, true_and, List.mem_cons, Prod.mk.injEq]
    cases node with
    | map es => simp only [mem_listEntries pre es key n, Node.map.injEq, exists_eq_left']
    | null => simp
    | scalar _ => simp
    | seq _ => simp
  · simp [hv]

theorem mem_listEntries (pre : String) (es : List (String × Node)) (key : String) (n : Node) :
    (key, n) ∈ listEntries pre es ↔
      ∃ k v ks, (k, v) ∈ es ∧ Path v ks n ∧ validAlong (childName pre k) ks = true ∧
        key = dotted (childName pre k) ks := by
  cases es with
  | nil => simp [listEntries]
  | cons e es =>
    obtain ⟨k, v⟩ := e
    simp only [listEntries, List.mem_append, mem_listAllMember (childName pre k) v key n,
      mem_listEntries pre es key n, List.mem_cons, Prod.mk.injEq]
    constructor
    · rintro (⟨ks, h⟩ | ⟨k', v', ks, hk, h⟩)
      · exact ⟨k, v, ks, .inl ⟨rfl, rfl⟩, h⟩
      · exact ⟨k', v', ks, .inr hk, h⟩
    · rintro ⟨k', v', ks, ⟨rfl, rfl⟩ | hk, h⟩
      · exact .inl ⟨ks, h⟩
      · exact .inr ⟨k', v', ks, hk, h⟩

end

/-! ### The registry -/

/-- A **`ConfigVar<T>`** as the registry holds it: its type `T`, its value as a node, and its
description. -/
structure ConfigVar where
  typeName : String
  value : Node
  description : String

/-- **`Config::LookupBase(name)`**: `GetDatas().find(name)`. -/
def lookupBase (datas : List (String × ConfigVar)) (name : String) : Option ConfigVar :=
  List.lookup name datas

/-- **`Config::Lookup<T>(name, default_value, description)`**: the registry after the call and the
variable returned, `none` for the `nullptr` of a name registered with another type. A fresh name
with a character outside `nameChars` throws. -/
def lookup (datas : List (String × ConfigVar)) (name typeName : String) (dflt : Node)
    (description : String) : Except String (List (String × ConfigVar) × Option ConfigVar) :=
  match lookupBase datas name with
  | some v => .ok (datas, if v.typeName = typeName then some v else none)
  | none =>
    if isValidName name then
      .ok ((name, ⟨typeName, dflt, description⟩) :: datas, some ⟨typeName, dflt, description⟩)
    else .error "std::invalid_argument(name)"

/-- A fresh name is registered exactly when it passes the check. -/
theorem lookup_registers_iff {datas : List (String × ConfigVar)} {name typeName : String}
    {dflt : Node} {description : String} (hfresh : lookupBase datas name = none) :
    (∃ v, lookup datas name typeName dflt description = .ok ((name, v) :: datas, some v)) ↔
      isValidName name = true := by
  by_cases hv : isValidName name = true <;> simp [lookup, hfresh, hv]

/-! ### `LoadFromYaml` -/

/-- **`Config::LoadFromYaml(root)`**: the `(name, node)` pairs it hands to `fromString`, in order.
The root's empty name is skipped, and each other name is lower-cased before `LookupBase`. -/
def loadFromYaml (datas : List (String × ConfigVar)) (root : Node) : List (String × Node) :=
  (listAllMember "" root).filterMap fun (key, node) =>
    if key = "" then none
    else
      let key := toLower key
      (lookupBase datas key).map fun _ => (key, node)

/-- **What `LoadFromYaml` applies**: the node at the end of every key path whose every prefix
names validly, whose name is not empty and is registered as written. -/
theorem mem_loadFromYaml (datas : List (String × ConfigVar)) (root : Node) (key : String)
    (n : Node) :
    (key, n) ∈ loadFromYaml datas root ↔
      ∃ ks, Path root ks n ∧ validAlong "" ks = true ∧ key = dotted "" ks ∧ key ≠ "" ∧
        (lookupBase datas key).isSome := by
  simp only [loadFromYaml, List.mem_filterMap, Prod.exists]
  constructor
  · rintro ⟨key', n', hmem, hf⟩
    obtain ⟨ks, hp, hva, rfl⟩ := (mem_listAllMember _ _ _ _).1 hmem
    rw [toLower_of_isValidName (isValidName_dotted hva)] at hf
    split at hf
    · cases hf
    · obtain ⟨_, hl, hkn⟩ := Option.map_eq_some'.1 hf
      cases hkn
      exact ⟨ks, hp, hva, rfl, ‹_›, by simp [hl]⟩
  · rintro ⟨ks, hp, hva, rfl, hne, hl⟩
    refine ⟨_, n, (mem_listAllMember _ _ _ _).2 ⟨ks, hp, hva, rfl⟩, ?_⟩
    obtain ⟨v, hv⟩ := Option.isSome_iff_exists.1 hl
    simp [toLower_of_isValidName (isValidName_dotted hva), hne, hv]

/-! ### Against the documented grammar -/

/-- Names against `[0-9a-z_.]`: a fresh name is registered exactly when its characters are in
the grammar and none is `'9'`, and `LoadFromYaml` applies a node exactly when every prefix of its
key path, as written, passes that check and its name is registered. So a key with an upper-case
letter or a `'9'` is never applied, nor is anything under it. -/
theorem config_names_vs_grammar :
    (∀ (datas : List (String × ConfigVar)) (name typeName : String) (dflt : Node)
        (description : String), lookupBase datas name = none →
      ((∃ v, lookup datas name typeName dflt description = .ok ((name, v) :: datas, some v)) ↔
        (∀ c ∈ name.toList, inGrammar c = true) ∧ '9' ∉ name.toList)) ∧
    (∀ (datas : List (String × ConfigVar)) (root : Node) (key : String) (n : Node),
      (key, n) ∈ loadFromYaml datas root ↔
        ∃ ks, Path root ks n ∧ validAlong "" ks = true ∧ key = dotted "" ks ∧ key ≠ "" ∧
          (lookupBase datas key).isSome) :=
  ⟨fun _ name _ _ _ hfresh => (lookup_registers_iff hfresh).trans (isValidName_iff name),
    mem_loadFromYaml⟩

/-- `Server: {port: 8080}`. -/
def serverDoc : Node := .map [("Server", .map [("port", .scalar "8080")])]

/-- A registry holding `server.port`. -/
def serverPort : List (String × ConfigVar) := [("server.port", ⟨"int", .scalar "80", ""⟩)]

/-- The lower-cased dotted form `server.port` of a key path of `serverDoc` is registered, yet
`LoadFromYaml` applies nothing: `Server` fails the check. And `Lookup` refuses the fresh name
`x9`, which is in the grammar. -/
theorem config_names_counterexample :
    Path serverDoc ["Server", "port"] (.scalar "8080") ∧
      (lookupBase serverPort (toLower (String.intercalate "." ["Server", "port"]))).isSome ∧
      loadFromYaml serverPort serverDoc = [] ∧
      (∀ c ∈ "x9".toList, inGrammar c = true) ∧
      ¬∃ v, lookup [] "x9" "int" .null "" = .ok ([("x9", v)], some v) :=
  ⟨.cons (List.mem_singleton_self _) (.cons (List.mem_singleton_self _) (.nil _)), rfl, rfl,
    by decide, fun h => ((config_names_vs_grammar.1 [] "x9" "int" .null "" rfl).1 h).2 (by decide)⟩

end Sylar.Config.Names
