import TapeMachine.Program.Load
import TapeMachine.Proofs.Outcome
import TapeMachine.Proofs.TreeWalk

namespace TapeMachine.Program

open FileTree (maxPathBytes)
open TapeMachine.Path (IsEntryName)

/-- The name of a program: one of the two extensions, and something before it. -/
def IsProgramName (name : String) : Prop :=
  ∃ ending ∈ [".json", ".tm"], ending.length < name.length ∧ ending.toList <:+ name.toList

instance : DecidablePred IsProgramName := fun name =>
  inferInstanceAs (Decidable (∃ ending ∈ [".json", ".tm"], ending.length < name.length ∧ ending.toList <:+ name.toList))

/-- Whether an entry of a directory is loaded with it. A path that is too long does not tell of a directory
that it is one. -/
def IsLoaded (directory : String) (entry : String × FileTree) : Prop :=
  IsProgramName entry.1 ∧
    (entry.2.isDirectory = false ∨ maxPathBytes < (Path.join directory entry.1).utf8ByteSize)

instance (directory : String) : DecidablePred (IsLoaded directory) := fun _ => inferInstanceAs (Decidable (_ ∧ _))

/-- What the programs among the entries of a directory give, each by itself. -/
def loadEach (tree : FileTree) (directory : String) (entries : List (String × FileTree)) : List Loaded :=
  (entries.filter (IsLoaded directory)).map fun entry => loadAt tree (Path.join directory entry.1)

theorem extension_iff_suffix (name : String) {extension ending : String} (noDot : '.' ∉ extension.toList)
    (dotted : ending.toList = '.' :: extension.toList) :
    (Path.splitName name).2 = some extension ↔ ending.length < name.length ∧ ending.toList <:+ name.toList := by
  rw [Path.splitName_snd_eq_some_iff noDot, ← dotted, ← String.length_toList, ← String.length_toList]
  constructor
  · rintro ⟨stem, nonempty, characters⟩
    refine ⟨?_, stem, characters.symm⟩
    rw [characters, List.length_append]
    exact Nat.lt_add_of_pos_left (List.length_pos_iff.mpr nonempty)
  · rintro ⟨longer, stem, characters⟩
    refine ⟨stem, ?_, characters.symm⟩
    rintro rfl
    rw [← characters] at longer
    exact Nat.lt_irrefl _ longer

theorem isProgramPath_join (directory : String) {name : String} (valid : IsEntryName name) :
    isProgramPath (Path.join directory name) = decide (IsProgramName name) := by
  have json := extension_iff_suffix name (show '.' ∉ "json".toList by decide) (show ".json".toList = _ from rfl)
  have rules := extension_iff_suffix name (show '.' ∉ "tm".toList by decide) (show ".tm".toList = _ from rfl)
  rw [isProgramPath, Path.extension?_join directory valid, ← Bool.decide_or, decide_eq_decide, json, rules, IsProgramName]
  simp only [List.mem_cons, List.not_mem_nil, or_false, exists_eq_or_imp, exists_eq_left]

namespace Loaded

instance : Std.TransCmp compare where
  eq_swap {first second} := by
    cases first <;> cases second
    case ok.ok => exact Path.compare_swap _ _
    all_goals rfl
  isLE_trans {first second third} below above := by
    cases first <;> cases second <;> cases third
    case ok.ok.ok => exact Path.isLE_compare_trans below above
    all_goals first | rfl | (cases below; done) | cases above

/-- Two results that are not programs of the same path. -/
def Apart (first second : Loaded) : Prop :=
  ∀ one other, first = .ok one → second = .ok other → Path.compare one.1 other.1 ≠ .eq

theorem Apart.symm {first second : Loaded} (apart : first.Apart second) : second.Apart first := by
  intro one other atOne atOther same
  refine apart other one atOther atOne ?_
  rw [Path.compare_swap, same]
  rfl

end Loaded

/-- What was loaded without a fault. -/
def programs (results : List Loaded) : List (String × Program) := results.filterMap Except.toOption

def faults (results : List Loaded) : List LoadError :=
  results.filterMap fun
    | .ok _ => none
    | .error fault => some fault

theorem eq_programs_append_faults {results : List Loaded}
    (sorted : results.Pairwise fun first second => (Loaded.compare first second).isLE) :
    results = (programs results).map .ok ++ (faults results).map .error := by
  induction results with
  | nil => rfl
  | cons result results ih =>
    obtain ⟨first, sorted⟩ := List.pairwise_cons.mp sorted
    have rest := ih sorted
    cases result with
    | ok loaded => exact congrArg (Except.ok loaded :: ·) rest
    | error fault =>
      -- nothing but faults follows a fault
      have none : programs results = [] := by
        refine List.filterMap_eq_nil_iff.mpr fun later among => ?_
        cases later with
        | ok loaded => cases first _ among
        | error fault => rfl
      rw [none] at rest
      change Except.error fault :: results = (programs results).map .ok ++ .error fault :: (faults results).map .error
      rw [none]
      exact congrArg (Except.error fault :: ·) rest

theorem loadEntries_sorted (tree : FileTree) (directory : String) (names : List String) :
    (loadEntries tree directory names).Pairwise fun first second => (Loaded.compare first second).isLE := by
  refine List.pairwise_mergeSort (fun _ _ _ => Std.TransCmp.isLE_trans) (fun first second => ?_) _
  have swapped : Loaded.compare second first = (Loaded.compare first second).swap := Std.OrientedCmp.eq_swap
  rw [swapped]
  cases Loaded.compare first second <;> rfl

theorem path_of_loadAt {tree : FileTree} {path : String} {loaded : String × Program}
    (given : loadAt tree path = .ok loaded) : loaded.1 = path := by
  unfold loadAt at given
  cases result : load tree path with
  | error fault => rw [result] at given; cases given
  | ok program => rw [result] at given; cases given; rfl

section

variable {tree : FileTree} {directory : String} {entries : List (String × FileTree)}
  (wellFormed : tree.WellFormed) (found : tree.resolve directory = .ok (.directory entries))
include wellFormed found

theorem isEntryName_of_resolve {entry : String × FileTree} (listed : entry ∈ entries) : IsEntryName entry.1 := by
  cases wellFormed.resolve found with
  | directory valid _ _ => exact valid entry listed

theorem loadNamed?_eq {entry : String × FileTree} (listed : entry ∈ entries) :
    loadNamed? tree directory entry.1 =
      if IsLoaded directory entry then some (loadAt tree (Path.join directory entry.1)) else none := by
  have valid := isEntryName_of_resolve wellFormed found listed
  have atName := (wellFormed.resolve found).lookup listed
  have skipped : (tree.hasDirectory (Path.join directory entry.1) || !isProgramPath (Path.join directory entry.1)) = true ↔
      ¬IsLoaded directory entry := by
    rw [FileTree.hasDirectory_join found valid atName, isProgramPath_join directory valid, IsLoaded]
    simp only [Bool.or_eq_true, Bool.and_eq_true, decide_eq_true_eq, Bool.not_eq_true', decide_eq_false_iff_not, not_and_or,
      not_or, Bool.not_eq_false, Nat.not_lt]
    exact or_comm
  by_cases loaded : IsLoaded directory entry
  · rw [loadNamed?, if_neg (fun skip => skipped.mp skip loaded), if_pos loaded]
  · rw [loadNamed?, if_pos (skipped.mpr loaded), if_neg loaded]

theorem loadEntries_perm {names : List String} (listing : names.Perm (entries.map Prod.fst)) :
    (loadEntries tree directory names).Perm (loadEach tree directory entries) := by
  have one : (entries.map Prod.fst).filterMap (loadNamed? tree directory) = loadEach tree directory entries := by
    rw [loadEach, List.filterMap_map, ← List.filterMap_eq_map, List.filterMap_filter]
    refine List.filterMap_congr fun entry among => ?_
    rw [Function.comp_apply, loadNamed?_eq wellFormed found among]
    simp
  rw [← one]
  exact (List.mergeSort_perm _ _).trans (listing.filterMap _)

/-- What an entry gives depends on the entry alone. -/
theorem load_join {entry : String × FileTree} (listed : entry ∈ entries) :
    load tree (Path.join directory entry.1) =
      ofFile (Path.join directory entry.1)
        (if maxPathBytes < (Path.join directory entry.1).utf8ByteSize then .error .nameTooLong else entry.2.content) := by
  have valid := isEntryName_of_resolve wellFormed found listed
  rw [load, FileTree.read_join found valid ((wellFormed.resolve found).lookup listed)]

/-- No two programs of a directory have the same path. -/
theorem loadEntries_apart {names : List String} (listing : names.Perm (entries.map Prod.fst)) :
    (loadEntries tree directory names).Pairwise Loaded.Apart := by
  rw [(loadEntries_perm wellFormed found listing).pairwise_iff Loaded.Apart.symm, loadEach, List.pairwise_map]
  obtain ⟨_, nonempty, _⟩ := FileTree.resolve_eq_ok_iff.mp found
  have distinct : entries.Pairwise fun first second => first.1 ≠ second.1 := by
    cases wellFormed.resolve found with
    | directory _ distinct _ => exact List.pairwise_map.mp distinct
  refine (distinct.imp_of_mem ?_).filter _
  intro first second inFirst inSecond different one other atOne atOther same
  rw [path_of_loadAt atOne, path_of_loadAt atOther, Path.compare_join nonempty
    (isEntryName_of_resolve wellFormed found inFirst) (isEntryName_of_resolve wellFormed found inSecond)] at same
  exact different (Std.LawfulEqOrd.eq_of_compare same)

theorem programs_ascend {names : List String} (listing : names.Perm (entries.map Prod.fst)) :
    (programs (loadEntries tree directory names)).Pairwise fun first second => Path.compare first.1 second.1 = .lt := by
  refine ((loadEntries_sorted tree directory names).and (loadEntries_apart wellFormed found listing)).filterMap _ ?_
  rintro first second ⟨below, apart⟩ one atOne other atOther
  obtain rfl := eq_ok_of_toOption atOne
  obtain rfl := eq_ok_of_toOption atOther
  exact (Ordering.isLE_iff_eq_lt_or_eq_eq.mp below).resolve_right (apart one other rfl rfl)

/-- The programs do not depend on the order of the entries. -/
theorem programs_eq_of_perm {names others : List String} (listing : names.Perm (entries.map Prod.fst))
    (relisting : others.Perm (entries.map Prod.fst)) :
    programs (loadEntries tree directory names) = programs (loadEntries tree directory others) := by
  have same := (loadEntries_perm wellFormed found listing).trans (loadEntries_perm wellFormed found relisting).symm
  refine List.Perm.eq_of_pairwise ?_ (programs_ascend wellFormed found listing)
    (programs_ascend wellFormed found relisting) (same.filterMap _)
  intro first second _ _ below above
  rw [Path.compare_swap, above] at below
  cases below

omit wellFormed in
theorem loadDirectory_eq : loadDirectory tree directory = loadEntries tree directory (entries.map Prod.fst) := by
  rw [loadDirectory, found]

/-- A directory gives what the path of each program in it gives alone: first the programs by their paths, then
the faults. The order in which its entries are listed tells in the order of the faults at most. -/
theorem loadDirectory_complete :
    ∃ (loaded : List (String × Program)) (failed : List LoadError),
      loadDirectory tree directory = loaded.map .ok ++ failed.map .error ∧
      (loadEach tree directory entries).Perm (loaded.map .ok ++ failed.map .error) ∧
      loaded.Pairwise (fun first second => Path.compare first.1 second.1 = .lt) ∧
      (∀ names : List String, names.Perm (entries.map Prod.fst) → ∃ failures : List LoadError,
        loadEntries tree directory names = loaded.map .ok ++ failures.map .error ∧ failures.Perm failed) ∧
      (∀ entry ∈ entries, load tree (Path.join directory entry.1) = ofFile (Path.join directory entry.1)
        (if maxPathBytes < (Path.join directory entry.1).utf8ByteSize then .error .nameTooLong else entry.2.content)) ∧
      Std.TransCmp Loaded.compare := by
  have stored := List.Perm.refl (entries.map Prod.fst)
  have complete := loadEntries_perm wellFormed found stored
  have parts := eq_programs_append_faults (loadEntries_sorted tree directory (entries.map Prod.fst))
  refine ⟨programs (loadEntries tree directory (entries.map Prod.fst)),
    faults (loadEntries tree directory (entries.map Prod.fst)), ?_, parts ▸ complete.symm,
    programs_ascend wellFormed found stored, fun names listing => ?_, fun entry => load_join wellFormed found, inferInstance⟩
  · rw [loadDirectory_eq found]
    exact parts
  · have relisted := (loadEntries_perm wellFormed found listing).trans complete.symm
    refine ⟨faults (loadEntries tree directory names), ?_, relisted.filterMap _⟩
    rw [← programs_eq_of_perm wellFormed found listing stored]
    exact eq_programs_append_faults (loadEntries_sorted tree directory names)

end

def sampleEntries : List (String × FileTree) :=
  [("b.tm", .file "q 0 1 r q".toUTF8), ("a.tm", .file ByteArray.empty), ("c.json", .directory [])]

theorem loadDirectory_complete_sample :
    (FileTree.directory sampleEntries).WellFormed ∧
      (FileTree.directory sampleEntries).resolve "." = .ok (.directory sampleEntries) ∧
      ∃ (loaded : List (String × Program)) (failed : List LoadError),
        loadDirectory (.directory sampleEntries) "." = loaded.map .ok ++ failed.map .error ∧
        (loadEach (.directory sampleEntries) "." sampleEntries).Perm (loaded.map .ok ++ failed.map .error) ∧
        loaded.Pairwise (fun first second => Path.compare first.1 second.1 = .lt) ∧
        ∃ failures : List LoadError,
          loadEntries (.directory sampleEntries) "." ["c.json", "a.tm", "b.tm"] = loaded.map .ok ++ failures.map .error ∧
          failures.Perm failed := by
  have wellFormed : (FileTree.directory sampleEntries).WellFormed := by
    have written : FileTree.directory sampleEntries =
        ((FileTree.empty.writeFile "b.tm" "q 0 1 r q".toUTF8).writeFile "a.tm" ByteArray.empty).makeDirectory "c.json" := rfl
    rw [written]
    exact ((FileTree.WellFormed.empty.writeFile (by decide) _).writeFile (by decide) _).makeDirectory (by decide)
  have found : (FileTree.directory sampleEntries).resolve "." = .ok (.directory sampleEntries) :=
    FileTree.resolve_eq_ok_iff.mpr ⟨by decide, by decide, by decide, rfl⟩
  obtain ⟨loaded, failed, stored, complete, ascending, anyOrder, _⟩ := loadDirectory_complete wellFormed found
  exact ⟨wellFormed, found, loaded, failed, stored, complete, ascending, anyOrder _ (by decide)⟩

/-- A path that stays where it is. -/
def stay : Nat → String
  | 0 => ""
  | count + 1 => "." ++ "/" ++ stay count

theorem names_stay (count : Nat) : Path.names (stay count) = List.replicate count "." ++ [""] := by
  induction count with
  | zero => rfl
  | succ count ih =>
    rw [stay, Path.names_append_slash, ih]
    rfl

theorem utf8ByteSize_stay (count : Nat) : (stay count).utf8ByteSize = 2 * count := by
  induction count with
  | zero => rfl
  | succ count ih =>
    rw [stay, String.utf8ByteSize_append, String.utf8ByteSize_append, ih, show ".".utf8ByteSize = 1 from rfl,
      show "/".utf8ByteSize = 1 from rfl]
    omega

theorem toList_stay (count : Nat) : (stay count).toList = (List.replicate count ['.', '/']).flatten := by
  induction count with
  | zero => rfl
  | succ count ih => simp [stay, ih, List.replicate_succ]

theorem join_stay (count : Nat) (name : String) : Path.join (stay (count + 1)) name = stay (count + 1) ++ name := by
  have slash : (stay (count + 1)).toList.getLast? = some '/' := by
    rw [toList_stay, List.replicate_succ', List.flatten_append, List.getLast?_append]
    rfl
  rw [Path.join, if_pos slash]

theorem walk_stay (above : List FileTree) (entries : List (String × FileTree)) (count : Nat) :
    FileTree.walk above (.directory entries) (List.replicate count "." ++ [""]) = .ok (.directory entries) := by
  induction count with
  | zero => rfl
  | succ count ih =>
    rw [List.replicate_succ, List.cons_append]
    simp [FileTree.walk, FileTree.isDirectory, ih]

theorem resolve_stay (count : Nat) (entries : List (String × FileTree)) (short : 2 * (count + 1) ≤ maxPathBytes) :
    (FileTree.directory entries).resolve (stay (count + 1)) = .ok (.directory entries) := by
  refine FileTree.resolve_eq_ok_iff.mpr ⟨?_, ?_, utf8ByteSize_stay _ ▸ short, ?_⟩
  · simp [toList_stay]
  · intro empty
    have size := utf8ByteSize_stay (count + 1)
    rw [empty] at size
    cases size
  · rw [names_stay]
    exact walk_stay [] entries _

/-- A directory with the name of a program is read as a file would be, if its path is too long to see what it is. -/
theorem loadDirectory_of_long_path :
    (FileTree.directory [("d.json", .directory [])]).WellFormed ∧
      (FileTree.directory [("d.json", .directory [])]).resolve (stay 2047) = .ok (.directory [("d.json", .directory [])]) ∧
      loadDirectory (.directory [("d.json", .directory [])]) (stay 2047) =
        [.error (.unreadable (stay 2047 ++ "d.json") .nameTooLong)] := by
  have wellFormed : (FileTree.directory [("d.json", .directory [])]).WellFormed := by
    have made : FileTree.directory [("d.json", .directory [])] = FileTree.empty.makeDirectory "d.json" := rfl
    rw [made]
    exact .makeDirectory .empty (by decide)
  have found := resolve_stay 2046 [("d.json", .directory [])] (by decide)
  have listed : ("d.json", FileTree.directory []) ∈ [("d.json", FileTree.directory [])] := List.mem_singleton_self _
  have long : maxPathBytes < (Path.join (stay 2047) "d.json").utf8ByteSize := by
    rw [join_stay 2046, String.utf8ByteSize_append, utf8ByteSize_stay]
    decide
  have unreadable := load_join wellFormed found listed
  rw [if_pos long] at unreadable
  have given : loadNamed? (.directory [("d.json", .directory [])]) (stay 2047) "d.json" =
      some (.error (.unreadable (stay 2047 ++ "d.json") .nameTooLong)) := by
    refine (loadNamed?_eq wellFormed found listed).trans ?_
    rw [if_pos ⟨by decide, .inr long⟩, loadAt, unreadable, join_stay 2046]
    rfl
  refine ⟨wellFormed, found, ?_⟩
  rw [loadDirectory_eq found, loadEntries, List.map_singleton, List.filterMap_cons_some given]
  exact List.mergeSort_singleton _

end TapeMachine.Program
