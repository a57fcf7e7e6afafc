import Mathlib.Logic.Function.Basic
import Sylar.Config.Names
/-! # `Config::LoadFromConfDir`: reloading the files that changed

`Config::LoadFromConfDir(path, force)` walks the `.yml` files `FSUtil::ListAllFile` lists and
keeps in the static map `s_file2modifytime` the `st_mtime` of each file it has looked at. A file
whose mtime equals the recorded one is skipped unless `force`; any other has its mtime recorded
first, and is then loaded with `YAML::LoadFile` and `LoadFromYaml`, where an exception is caught
and logged. `operator[]` reads `0` for a path never recorded.

The model takes a listing as the files in order, each with its mtime and its document (`none`
where `YAML::LoadFile` throws); a run is the list of calls since the program started.

* `runConfDir_times`: after any run, `s_file2modifytime` holds for each path the mtime the file
  had when a call last listed it, `0` if none did (`lastSeen`).
* `loadFromConfDir_pairs`: a call over a listing without repeated paths loads exactly the files
  it is forced to or whose mtime differs from the recorded one, in order.
* `confDir_reloads_changed`: so the call after any run reloads the files that changed since they
  were last listed. A file whose load threw is not tried again until its mtime changes, and a
  file first listed with mtime `0` is not loaded at all without `force`. -/

namespace Sylar.Config.ConfDir

open Sylar.Config.Names

/-- A `.yml` file as `LoadFromConfDir` sees it: its path as `ListAllFile` lists it, its
`st_mtime` from `lstat`, and its document, `none` where `YAML::LoadFile` throws. -/
structure ConfFile where
  path : String
  mtime : Nat
  doc : Option Node

/-- What `LoadFromYaml` hands to the variables from a file: nothing if it did not parse (the
`catch (...)`). -/
def filePairs (datas : List (String × ConfigVar)) (f : ConfFile) : List (String × Node) :=
  match f.doc with
  | some root => loadFromYaml datas root
  | none => []

/-- **`Config::LoadFromConfDir(path, force)`** over the files listed, in order, with
`s_file2modifytime` as `times`: the times recorded after the call and what it handed to the
variables. -/
def loadFromConfDir (datas : List (String × ConfigVar)) (force : Bool) :
    (String → Nat) → List ConfFile → (String → Nat) × List (String × Node)
  | times, [] => (times, [])
  | times, f :: fs =>
    if !force && times f.path == f.mtime then loadFromConfDir datas force times fs
    else
      let r := loadFromConfDir datas force (Function.update times f.path f.mtime) fs
      (r.1, filePairs datas f ++ r.2)

/-- A run of `LoadFromConfDir` calls since the program started, each with its `force` and its
listing: the times recorded at the end and what each call handed over. -/
def runConfDir (datas : List (String × ConfigVar)) (calls : List (Bool × List ConfFile)) :
    (String → Nat) × List (List (String × Node)) :=
  calls.foldl (fun acc c => let r := loadFromConfDir datas c.1 acc.1 c.2; (r.1, acc.2 ++ [r.2]))
    (fun _ => 0, [])

/-! ## What the map should hold -/

/-- The mtime of the last file of a listing with the path `p`. -/
def lastMtime (fs : List ConfFile) (p : String) : Option Nat :=
  ((fs.filter fun f => f.path == p).getLast?).map ConfFile.mtime

/-- **The mtime a path had when a call last listed it**, `0` if none did. -/
def lastSeen (calls : List (Bool × List ConfFile)) (p : String) : Nat :=
  (lastMtime (calls.map Prod.snd).flatten p).getD 0

theorem getD_lastMtime_cons (f : ConfFile) (fs : List ConfFile) (p : String) (d : Nat) :
    (lastMtime (f :: fs) p).getD d =
      (lastMtime fs p).getD (if f.path = p then f.mtime else d) := by
  unfold lastMtime
  by_cases hp : f.path = p
  · simp only [List.filter_cons, hp, beq_self_eq_true, if_true, List.getLast?_cons,
      Option.map_some', Option.getD_some, Option.getD_map]
  · simp only [List.filter_cons, hp, beq_iff_eq, if_false]

theorem getD_lastMtime_append (l l' : List ConfFile) (p : String) (d : Nat) :
    (lastMtime (l ++ l') p).getD d = (lastMtime l' p).getD ((lastMtime l p).getD d) := by
  unfold lastMtime
  rw [List.filter_append, List.getLast?_append]
  cases (l'.filter fun f => f.path == p).getLast? <;> rfl

/-! ## The cache -/

/-- **One call records the mtime of the last listing of each path** it lists. -/
theorem loadFromConfDir_times (datas : List (String × ConfigVar)) (force : Bool)
    (fs : List ConfFile) : ∀ (times : String → Nat) (p : String),
      (loadFromConfDir datas force times fs).1 p = (lastMtime fs p).getD (times p) := by
  induction fs with
  | nil => intro times p; rfl
  | cons f fs ih =>
    intro times p
    rw [getD_lastMtime_cons, loadFromConfDir]
    split
    · rename_i hskip
      simp only [Bool.and_eq_true, Bool.not_eq_true', beq_iff_eq] at hskip
      rw [ih]
      congr 1
      split
      · rename_i hp; rw [← hp, hskip.2]
      · rfl
    · rw [ih, Function.update_apply]
      congr 1
      by_cases hp : f.path = p
      · rw [if_pos hp.symm, if_pos hp]
      · rw [if_neg (Ne.symm hp), if_neg hp]

/-- **After any run, `s_file2modifytime` holds the mtime each path had when last listed**. -/
theorem runConfDir_times (datas : List (String × ConfigVar))
    (calls : List (Bool × List ConfFile)) : (runConfDir datas calls).1 = lastSeen calls := by
  suffices h : ∀ acc : (String → Nat) × List (List (String × Node)),
      (calls.foldl (fun acc c => let r := loadFromConfDir datas c.1 acc.1 c.2;
        (r.1, acc.2 ++ [r.2])) acc).1 = fun p =>
          (lastMtime (calls.map Prod.snd).flatten p).getD (acc.1 p) from h _
  induction calls with
  | nil => intro acc; rfl
  | cons c cs ih =>
    intro acc
    funext p
    rw [List.foldl_cons, ih]
    dsimp only
    rw [List.map_cons, List.flatten_cons, getD_lastMtime_append, loadFromConfDir_times]

/-- **A call loads exactly the files it is forced to or whose mtime changed**, in listing order,
when no path is listed twice. -/
theorem loadFromConfDir_pairs (datas : List (String × ConfigVar)) (force : Bool)
    (fs : List ConfFile) (hfs : (fs.map ConfFile.path).Nodup) : ∀ times : String → Nat,
      (loadFromConfDir datas force times fs).2 =
        (fs.filter fun f => force || times f.path != f.mtime).flatMap (filePairs datas) := by
  induction fs with
  | nil => intro times; rfl
  | cons f fs ih =>
    intro times
    simp only [List.map_cons, List.nodup_cons, List.mem_map, not_exists, not_and] at hfs
    rw [loadFromConfDir, List.filter_cons]
    split
    · rename_i hskip
      rw [if_neg (by cases force <;> simp_all), ih hfs.2]
    · rename_i hload
      dsimp only
      rw [if_pos (by cases force <;> simp_all), List.flatMap_cons, ih hfs.2]
      congr 2
      refine List.filter_congr fun g hg => ?_
      rw [Function.update_noteq fun h => hfs.1 g hg h]

/-- **The call after any run reloads the files that changed since they were last listed**:
`s_file2modifytime` holds the mtime each path had at its last listing (`0` if none), and a call
over a listing without repeated paths loads exactly the forced files and those whose mtime
differs from it. -/
theorem confDir_reloads_changed (datas : List (String × ConfigVar))
    (calls : List (Bool × List ConfFile)) (force : Bool) (fs : List ConfFile)
    (hfs : (fs.map ConfFile.path).Nodup) :
    (runConfDir datas calls).1 = lastSeen calls ∧
      (loadFromConfDir datas force (runConfDir datas calls).1 fs).2 =
        (fs.filter fun f => force || lastSeen calls f.path != f.mtime).flatMap
          (filePairs datas) :=
  ⟨runConfDir_times datas calls, by
    rw [loadFromConfDir_pairs datas force fs hfs, runConfDir_times]⟩

/-- The listing of the example: `a.yml`, listed by a first call where it did not parse, is
unchanged, and `b.yml` is new with mtime `0`. -/
def staleListing : List ConfFile :=
  [⟨"a.yml", 5, some (.map [])⟩, ⟨"b.yml", 0, some (.map [("port", .scalar "80")])⟩]

/-- After a first call over `a.yml`, which did not parse, a call over `staleListing` loads
neither file. -/
theorem confDir_reloads_changed_stale :
    (staleListing.map ConfFile.path).Nodup ∧
      (loadFromConfDir [] false (runConfDir [] [(false, [⟨"a.yml", 5, none⟩])]).1
        staleListing).2 = [] :=
  have hfs : (staleListing.map ConfFile.path).Nodup := by decide
  ⟨hfs,
    (confDir_reloads_changed [] [(false, [⟨"a.yml", 5, none⟩])] false _ hfs).2.trans rfl⟩

end Sylar.Config.ConfDir
