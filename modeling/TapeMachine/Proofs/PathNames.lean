import Mathlib.Data.List.Basic
import TapeMachine.File.Tree

namespace TapeMachine.Path

/-- What an entry of a directory can be called. -/
@[mk_iff]
structure IsEntryName (name : String) : Prop where
  nonempty : name ≠ ""
  notHere : name ≠ "."
  notUp : name ≠ ".."
  noSlash : '/' ∉ name.toList
  noNul : '\x00' ∉ name.toList
  short : name.utf8ByteSize ≤ FileTree.maxNameBytes

instance : DecidablePred IsEntryName := fun name => decidable_of_iff' _ (isEntryName_iff name)

theorem names_ne_nil (path : String) : names path ≠ [] := by
  rw [names, Ne, List.map_eq_nil_iff]
  exact List.splitOn_ne_nil _ _

theorem names_append_slash (first second : String) : names (first ++ "/" ++ second) = names first ++ names second := by
  have characters : (first ++ "/" ++ second).toList = first.toList ++ '/' :: second.toList := by simp
  rw [names, characters, List.splitOn_append_cons_self, List.map_append]
  rfl

theorem names_of_noSlash {name : String} (noSlash : '/' ∉ name.toList) : names name = [name] := by
  rw [names, List.splitOn_eq_singleton noSlash, List.map_singleton, String.ofList_toList]

theorem names_ne_of_ne_empty {path : String} (nonempty : path ≠ "") : names path ≠ [""] := by
  intro single
  obtain ⟨characters, cut, empty⟩ := List.map_eq_singleton_iff.mp single
  have whole : ['/'].intercalate (path.toList.splitOn '/') = path.toList := List.intercalate_splitOn '/'
  rw [cut, String.ofList_eq_empty_iff.mp empty] at whole
  exact nonempty (String.toList_eq_nil_iff.mp whole.symm)

/-- A path that ends in a slash. -/
theorem exists_of_getLast?_slash {path : String} (slash : path.toList.getLast? = some '/') :
    ∃ above, path = above ++ "/" := by
  obtain ⟨above, characters⟩ := List.getLast?_eq_some_iff.mp slash
  refine ⟨String.ofList above, String.toList_injective ?_⟩
  rw [characters, String.toList_append, String.toList_ofList]
  rfl

/-- The name of an entry follows the names of its directory, or takes the place of the empty one behind the last slash. -/
theorem names_join (directory : String) {name : String} (valid : IsEntryName name) :
    names (join directory name) = names directory ++ [name] ∨
      ∃ above, above ≠ [] ∧ names directory = above ++ [""] ∧ names (join directory name) = above ++ [name] := by
  have own := names_of_noSlash valid.noSlash
  unfold join
  split
  case isTrue slash =>
    obtain ⟨above, rfl⟩ := exists_of_getLast?_slash slash
    refine .inr ⟨names above, names_ne_nil above, ?_, ?_⟩
    · rw [← String.append_empty (s := above ++ "/"), names_append_slash]
      rfl
    · rw [names_append_slash, own]
  case isFalse => exact .inl (by rw [names_append_slash, own])

theorem steps_join (directory : String) {name : String} (valid : IsEntryName name) :
    steps (join directory name) = steps directory ++ [name] := by
  have kept : [name].filter (fun name => name ≠ "" ∧ name ≠ ".") = [name] := by simp [valid.nonempty, valid.notHere]
  unfold steps
  rcases names_join directory valid with joined | ⟨above, _, directory, joined⟩
  · rw [joined, List.filter_append, kept]
  · rw [joined, directory, List.filter_append, List.filter_append, kept, List.append_cancel_right_eq]
    exact (List.append_nil _).symm

theorem fileName?_join (directory : String) {name : String} (valid : IsEntryName name) :
    fileName? (join directory name) = some name := by
  rw [fileName?, steps_join directory valid, List.getLast?_concat]
  simp [valid.notUp]

theorem extension?_join (directory : String) {name : String} (valid : IsEntryName name) :
    extension? (join directory name) = (splitName name).2 := by
  rw [extension?, fileName?_join directory valid]
  rfl

theorem splitName_of_dot {stem extension : List Char} (nonempty : stem ≠ []) (noDot : '.' ∉ extension) :
    splitName (String.ofList (stem ++ '.' :: extension)) = (String.ofList stem, some (String.ofList extension)) := by
  have before : ∀ character ∈ extension.reverse, decide (character ≠ '.') = true := by
    intro character among
    refine decide_eq_true fun dot => noDot ?_
    exact dot ▸ List.mem_reverse.mp among
  have backwards : (String.ofList (stem ++ '.' :: extension)).toList.reverse = extension.reverse ++ '.' :: stem.reverse := by
    simp
  unfold splitName
  simp only [backwards, List.takeWhile_append_of_pos before, List.dropWhile_append_of_pos before]
  simp [nonempty]

theorem splitName_snd_eq_some_iff {name extension : String} (noDot : '.' ∉ extension.toList) :
    (splitName name).2 = some extension ↔ ∃ stem, stem ≠ [] ∧ name.toList = stem ++ '.' :: extension.toList := by
  constructor
  · intro named
    have cut := List.takeWhile_append_dropWhile (p := (· ≠ '.')) (l := name.toList.reverse)
    unfold splitName at named
    dsimp only at named
    split at named
    case h_1 => cases named
    case h_2 stem more =>
      cases named
      cases tail : name.toList.reverse.dropWhile (· ≠ '.') with
      | nil => exact absurd (by rw [tail]; rfl) more
      | cons dot rest =>
        have stops := List.head?_dropWhile_not (· ≠ '.') name.toList.reverse
        rw [tail] at stops cut more
        obtain rfl : dot = '.' := by simpa using stops
        refine ⟨rest.reverse, by simpa using more, ?_⟩
        have forwards := congrArg List.reverse cut
        rw [List.reverse_reverse, List.reverse_append, List.reverse_cons, List.append_assoc] at forwards
        rw [String.toList_ofList]
        exact forwards.symm
  · rintro ⟨stem, nonempty, characters⟩
    rw [← String.ofList_toList (s := name), characters, splitName_of_dot nonempty noDot]
    simp

theorem start_concat_congr {above : List String} (nonempty : above ≠ []) (first second : String) :
    start (above ++ [first]) = start (above ++ [second]) := by
  obtain ⟨name, rest, rfl⟩ := List.exists_cons_of_ne_nil nonempty
  simp [start]

theorem start_concat {names : List String} (nonempty : names ≠ []) (notBlank : names ≠ [""]) (name : String) :
    start (names ++ [name]) = start names := by
  obtain ⟨first, rest, rfl⟩ := List.exists_cons_of_ne_nil nonempty
  have named : ¬(first = "" ∧ rest = []) := by
    rintro ⟨rfl, rfl⟩
    exact notBlank rfl
  by_cases blank : first = ""
  · simp_all [start]
  · simp [start, blank]

theorem components_join {directory name : String} (nonempty : directory ≠ "") (valid : IsEntryName name) :
    components (join directory name) = components directory ++ [.name name] := by
  have begins : start (names (join directory name)) = start (names directory) := by
    rcases names_join directory valid with joined | ⟨above, more, directory, joined⟩
    · rw [joined, start_concat (names_ne_nil directory) (names_ne_of_ne_empty nonempty)]
    · rw [joined, directory, start_concat_congr more]
  rw [components, begins, steps_join directory valid, List.map_append, ← List.append_assoc, List.map_singleton,
    if_neg valid.notUp]
  rfl

namespace Component

theorem compare_name (first second : String) : Ord.compare (name first) (name second) = Ord.compare first second := by
  change (Ord.compare first second).then .eq = Ord.compare first second
  cases Ord.compare first second <;> rfl

instance : Std.TransOrd Component where
  eq_swap {first second} := by
    cases first <;> cases second
    case name.name => rw [compare_name, compare_name]; exact Std.OrientedOrd.eq_swap
    all_goals rfl
  isLE_trans {first second third} below above := by
    cases first <;> cases second <;> cases third
    case name.name.name => rw [compare_name] at *; exact Std.TransOrd.isLE_trans below above
    all_goals first | rfl | (cases below; done) | cases above

end Component

theorem compare_swap (first second : String) : compare first second = (compare second first).swap :=
  Std.OrientedOrd.eq_swap

theorem isLE_compare_trans {first second third : String} (below : (compare first second).isLE)
    (above : (compare second third).isLE) : (compare first third).isLE :=
  Std.TransOrd.isLE_trans (α := List Component) below above

/-- The entries of a directory go by their names. -/
theorem compare_join {directory first second : String} (nonempty : directory ≠ "") (validFirst : IsEntryName first)
    (validSecond : IsEntryName second) :
    compare (join directory first) (join directory second) = Ord.compare first second := by
  rw [compare, components_join nonempty validFirst, components_join nonempty validSecond]
  induction components directory with
  | nil =>
    rw [List.nil_append, List.nil_append, List.compare_cons_cons, Component.compare_name, List.compare_nil_nil]
    exact Ordering.then_eq
  | cons component rest ih =>
    rw [List.cons_append, List.cons_append, List.compare_cons_cons, Std.ReflOrd.compare_self]
    exact ih

end TapeMachine.Path
