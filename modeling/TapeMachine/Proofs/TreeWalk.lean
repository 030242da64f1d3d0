import TapeMachine.Proofs.PathNames

namespace TapeMachine.FileTree

open TapeMachine.Path (IsEntryName)

/-- A tree that a file system can hold. -/
inductive WellFormed : FileTree → Prop
  | file (bytes : ByteArray) : WellFormed (file bytes)
  | directory {entries : List (String × FileTree)} (valid : ∀ entry ∈ entries, IsEntryName entry.1)
      (distinct : (entries.map Prod.fst).Nodup) (below : ∀ entry ∈ entries, WellFormed entry.2) :
      WellFormed (directory entries)

theorem mem_setChild {name : String} {child : FileTree} {entries : List (String × FileTree)} {entry : String × FileTree}
    (among : entry ∈ setChild name child entries) : entry = (name, child) ∨ entry ∈ entries := by
  induction entries with
  | nil => exact .inl (List.mem_singleton.mp among)
  | cons first rest ih =>
    rw [setChild] at among
    split at among
    · rcases List.mem_cons.mp among with new | kept
      · exact .inl new
      · exact .inr (List.mem_cons_of_mem first kept)
    · rcases List.mem_cons.mp among with rfl | later
      · exact .inr List.mem_cons_self
      · exact (ih later).imp_right (List.mem_cons_of_mem first)

theorem nodup_setChild (name : String) (child : FileTree) {entries : List (String × FileTree)}
    (distinct : (entries.map Prod.fst).Nodup) : ((setChild name child entries).map Prod.fst).Nodup := by
  induction entries with
  | nil => exact List.nodup_cons.mpr ⟨List.not_mem_nil, List.nodup_nil⟩
  | cons first rest ih =>
    obtain ⟨fresh, others⟩ := List.nodup_cons.mp distinct
    rw [setChild]
    split
    case isTrue same => exact same ▸ distinct
    case isFalse other =>
      refine List.nodup_cons.mpr ⟨fun again => ?_, ih others⟩
      obtain ⟨entry, among, same⟩ := List.mem_map.mp again
      rcases mem_setChild among with rfl | kept
      · exact other same.symm
      · exact fresh (same ▸ List.mem_map_of_mem kept)

namespace WellFormed

theorem empty : FileTree.empty.WellFormed := .directory (List.forall_mem_nil _) List.nodup_nil (List.forall_mem_nil _)

/-- A file stands for a directory without entries, when something is to be put below it. -/
theorem entries {tree : FileTree} (wellFormed : tree.WellFormed) : (FileTree.directory tree.entries).WellFormed := by
  cases wellFormed with
  | file bytes => exact empty
  | directory valid distinct below => exact .directory valid distinct below

theorem child {tree child : FileTree} {name : String} (wellFormed : tree.WellFormed)
    (found : tree.child? name = some child) : child.WellFormed := by
  obtain ⟨before, after, split, _⟩ := List.lookup_eq_some_iff.mp found
  cases wellFormed.entries with
  | directory _ _ below => exact below (name, child) (by rw [split]; simp)

theorem update {change : FileTree → FileTree} (keeps : ∀ tree, tree.WellFormed → (change tree).WellFormed)
    {names : List String} (valid : ∀ name ∈ names, IsEntryName name) {tree : FileTree} (wellFormed : tree.WellFormed) :
    (FileTree.update change names tree).WellFormed := by
  induction names generalizing tree with
  | nil => exact keeps tree wellFormed
  | cons name names ih =>
    obtain ⟨validName, validNames⟩ := List.forall_mem_cons.mp valid
    have started : ((tree.child? name).getD FileTree.empty).WellFormed := by
      cases found : tree.child? name with
      | none => exact empty
      | some child => exact wellFormed.child found
    have grown := ih validNames started
    cases wellFormed.entries with
    | directory validEntries distinct below =>
      refine .directory (fun entry among => ?_) (nodup_setChild name _ distinct) (fun entry among => ?_)
      · rcases mem_setChild among with rfl | kept
        · exact validName
        · exact validEntries entry kept
      · rcases mem_setChild among with rfl | kept
        · exact grown
        · exact below entry kept

/-- Whatever is written into a tree by such names can be held by a file system, as the tree was before. -/
theorem writeFile {tree : FileTree} (wellFormed : tree.WellFormed) {path : String}
    (valid : ∀ name ∈ Path.steps path, IsEntryName name) (bytes : ByteArray) : (tree.writeFile path bytes).WellFormed :=
  wellFormed.update (fun _ _ => .file bytes) valid

theorem makeDirectory {tree : FileTree} (wellFormed : tree.WellFormed) {path : String}
    (valid : ∀ name ∈ Path.steps path, IsEntryName name) : (tree.makeDirectory path).WellFormed :=
  wellFormed.update (fun _ => id) valid

end WellFormed

theorem WellFormed.walk {above : List FileTree} {here found : FileTree} {names : List String}
    (wellFormed : here.WellFormed) (allAbove : ∀ tree ∈ above, tree.WellFormed)
    (reached : FileTree.walk above here names = .ok found) : found.WellFormed := by
  fun_induction FileTree.walk above here names
  case case1 =>
    cases reached
    exact wellFormed
  case case2 | case6 | case7 => cases reached
  case case3 ih => exact ih wellFormed allAbove reached
  case case4 ih => exact ih wellFormed allAbove reached
  case case5 parent above _ ih =>
    exact ih (allAbove parent List.mem_cons_self) (fun tree among => allAbove tree (List.mem_cons_of_mem parent among))
      reached
  case case8 child descends ih =>
    exact ih (wellFormed.child descends) (List.forall_mem_cons.mpr ⟨wellFormed, allAbove⟩) reached

/-- The last names are followed from where the first ones lead, if only that place counts. -/
theorem walk_append {more : List String} {result : FileTree → Except ReadFault FileTree}
    (rest : ∀ above found, walk above found more = result found) (above : List FileTree) (here : FileTree)
    (names : List String) : walk above here (names ++ more) = walk above here names >>= result := by
  fun_induction walk above here names
  case case1 above here => exact rest above here
  case case2 | case6 | case7 =>
    rw [List.cons_append]
    conv_lhs => unfold walk
    simp [*]
    rfl
  case case3 | case4 | case5 | case8 =>
    rw [List.cons_append]
    conv_lhs => unfold walk
    simp [*]

theorem walk_empty (above : List FileTree) (here : FileTree) :
    walk above here [""] = if here.isDirectory then .ok here else .error .notDirectory := by
  cases here <;> simp [walk, isDirectory]

theorem walk_name {name : String} (valid : IsEntryName name) (above : List FileTree) (here : FileTree) :
    walk above here [name] =
      if here.isDirectory then (here.child? name).elim (.error .missing) .ok else .error .notDirectory := by
  have short := Nat.not_lt.mpr valid.short
  cases here with
  | file bytes => simp [walk, isDirectory]
  | directory entries =>
    simp only [walk, isDirectory, valid.nonempty, valid.notHere, valid.notUp, short]
    cases (directory entries).child? name <;> rfl

/-- An empty name at the end leads nowhere else. -/
theorem walk_of_concat_empty {above : List FileTree} {here found : FileTree} {names : List String}
    (reached : walk above here (names ++ [""]) = .ok found) : walk above here names = .ok found := by
  rw [walk_append walk_empty] at reached
  cases before : walk above here names with
  | error fault => rw [before] at reached; cases reached
  | ok place =>
    rw [before] at reached
    change (if place.isDirectory then .ok place else .error ReadFault.notDirectory) = Except.ok found at reached
    split at reached
    · exact reached
    · cases reached

theorem walk_concat {above : List FileTree} {here child : FileTree} {names : List String}
    {entries : List (String × FileTree)} {name : String} (reached : walk above here names = .ok (directory entries))
    (valid : IsEntryName name) (listed : entries.lookup name = some child) :
    walk above here (names ++ [name]) = .ok child := by
  have descends : (directory entries).child? name = some child := listed
  rw [walk_append (walk_name valid), reached]
  change ((directory entries).child? name).elim _ Except.ok = _
  rw [descends]
  rfl

section

variable {tree child : FileTree} {path name : String} {entries : List (String × FileTree)}

theorem resolve_eq_ok_iff :
    tree.resolve path = .ok child ↔
      '\x00' ∉ path.toList ∧ path ≠ "" ∧ path.utf8ByteSize ≤ maxPathBytes ∧
        walk [] tree (Path.names path) = .ok child := by
  unfold resolve
  by_cases nul : '\x00' ∈ path.toList
  · simp [nul]
  by_cases empty : path = ""
  · simp [empty]
  by_cases long : maxPathBytes < path.utf8ByteSize
  · simp [nul, empty, long, Nat.not_le.mpr long]
  · simp [nul, empty, long, Nat.le_of_not_lt long]

theorem WellFormed.resolve (wellFormed : tree.WellFormed) (found : tree.resolve path = .ok child) :
    child.WellFormed := by
  obtain ⟨_, _, _, reached⟩ := resolve_eq_ok_iff.mp found
  exact wellFormed.walk (List.forall_mem_nil _) reached

theorem WellFormed.lookup (wellFormed : (FileTree.directory entries).WellFormed) (listed : (name, child) ∈ entries) :
    entries.lookup name = some child := by
  cases wellFormed with
  | directory valid distinct below =>
    obtain ⟨before, after, rfl⟩ := List.append_of_mem listed
    refine List.lookup_eq_some_iff.mpr ⟨before, after, rfl, fun earlier among => ?_⟩
    rw [List.map_append, List.map_cons] at distinct
    obtain ⟨_, _, apart⟩ := List.nodup_append.mp distinct
    have other := apart earlier.1 (List.mem_map_of_mem among) name List.mem_cons_self
    exact bne_iff_ne.mpr other.symm

/-- An entry of a directory is found by the path of the directory and its own name, unless that path is too long. -/
theorem resolve_join (found : tree.resolve path = .ok (directory entries)) (valid : IsEntryName name)
    (listed : entries.lookup name = some child) :
    tree.resolve (Path.join path name) =
      if maxPathBytes < (Path.join path name).utf8ByteSize then .error .nameTooLong else .ok child := by
  obtain ⟨noNul, nonempty, _, reached⟩ := resolve_eq_ok_iff.mp found
  have reachesEntry : walk [] tree (Path.names (Path.join path name)) = .ok child := by
    rcases Path.names_join path valid with joined | ⟨above, _, names, joined⟩
    · rw [joined]
      exact walk_concat reached valid listed
    · rw [names] at reached
      rw [joined]
      exact walk_concat (walk_of_concat_empty reached) valid listed
  have joinedNul : '\x00' ∉ (Path.join path name).toList := by
    unfold Path.join
    split <;> simp [noNul, valid.noNul]
  have joinedNonempty : Path.join path name ≠ "" := by
    unfold Path.join
    split <;> simp [nonempty]
  rw [resolve, if_neg joinedNul, if_neg joinedNonempty, reachesEntry]

theorem read_join (found : tree.resolve path = .ok (directory entries)) (valid : IsEntryName name)
    (listed : entries.lookup name = some child) :
    tree.read (Path.join path name) =
      if maxPathBytes < (Path.join path name).utf8ByteSize then .error .nameTooLong else child.content := by
  rw [read, resolve_join found valid listed]
  split <;> rfl

theorem hasDirectory_join (found : tree.resolve path = .ok (directory entries)) (valid : IsEntryName name)
    (listed : entries.lookup name = some child) :
    tree.hasDirectory (Path.join path name) =
      (child.isDirectory && decide ((Path.join path name).utf8ByteSize ≤ maxPathBytes)) := by
  rw [hasDirectory, resolve_join found valid listed]
  by_cases long : maxPathBytes < (Path.join path name).utf8ByteSize
  · simp [long, Nat.not_le.mpr long]
  · simp [long, Nat.le_of_not_lt long]

end

end TapeMachine.FileTree
