import PyBundle.Import.Name
import PyBundle.Proofs.Path.Written

/-!
# Relative imports and directories

A relative import goes up from the directory of its importer, and down along the name that it spells. The resolution
works on the dotted name of the importer, where a package climbs one level less than a plain module, and the search
works on paths, where a package has a file in a directory of its own. The two agree (`resolveRelative_of_locate`): one
level is the directory that the file is in, and each further one is the directory around.
-/

namespace PyBundle

namespace Path

variable {names : List String} {last : String}

/-- Names are joined as their characters are. -/
theorem joinPieces_map (names : List String) : joinPieces (names.map String.toList) = "/".intercalate names := by
  unfold joinPieces
  rw [List.map_map, Text.ofList_comp_toList, List.map_id]

/-- File names are kept where blank pieces are dropped. -/
theorem dropBlankEnd_map (proper : ∀ name ∈ names, IsFileName name) :
    dropBlankEnd (names.map String.toList) = names.map String.toList := by
  rcases List.eq_nil_or_concat names with rfl | ⟨before, last, rfl⟩
  · rfl
  · rw [List.concat_eq_append] at proper ⊢
    rw [List.map_append, List.map_singleton]
    refine dropBlankEnd_concat ?_
    rw [(proper last (by simp)).ofPiece?]
    rfl

/-- **The parent of a path through file names** leads through all but the last one. -/
theorem parent?_ofNames (proper : ∀ name ∈ names ++ [last], IsFileName name) :
    (ofNames (names ++ [last])).parent? = some (ofNames names) := by
  have pieces : (ofNames (names ++ [last])).pieces = names.map String.toList ++ [last.toList] := by
    rw [pieces_ofNames proper (by simp), List.map_append, List.map_singleton]
  have isLast : (Component.ofPiece? last.toList).isNone = false := by
    rw [(proper last (by simp)).ofPiece?]
    rfl
  have before : ∀ name ∈ names, IsFileName name := fun name mem => proper name (List.mem_append_left _ mem)
  obtain ⟨first, rest, split⟩ : ∃ first rest, names.map String.toList ++ [last.toList] = first :: rest :=
    List.exists_cons_of_ne_nil (by simp)
  have notHere : first ≠ ['.'] := by
    have mem : first ∈ (names ++ [last]).map String.toList := by simp [split]
    obtain ⟨name, isName, rfl⟩ := List.mem_map.mp mem
    exact fun here => (proper name isName).notHere (String.toList_inj.mp here)
  unfold parent?
  rw [pieces, split]
  simp only [isAbsolute_ofNames proper, notHere, if_false, Bool.false_eq_true]
  rw [← split, dropBlankEnd_concat isLast, List.reverse_append, List.reverse_singleton, List.singleton_append]
  dsimp only
  rw [List.reverse_reverse, dropBlankEnd_map before, joinPieces_map, String.empty_append]
  rfl

/-- **The path some levels above:** the path itself, its parent, the parent of that, and so on. -/
def above (p : Path) : Nat → Option Path
  | 0 => some p
  | n + 1 => (p.above n).bind parent?

/-- Each level above a path through file names is one name less. -/
theorem above_ofNames (proper : ∀ name ∈ names, IsFileName name) {n : Nat} (short : n ≤ names.length) :
    (ofNames names).above n = some (ofNames (names.take (names.length - n))) := by
  induction n with
  | zero => rw [Nat.sub_zero, List.take_length, above]
  | succ n ih =>
    have dropped : (names.take (names.length - n)).dropLast = names.take (names.length - (n + 1)) := by
      rw [List.dropLast_eq_take, List.length_take, List.take_take]
      congr 1
      omega
    rw [above, ih (by omega), Option.bind_some, ← dropped]
    rcases List.eq_nil_or_concat (names.take (names.length - n)) with none | ⟨before, last, split⟩
    · have lengths := congrArg List.length none
      rw [List.length_take, List.length_nil] at lengths
      omega
    · rw [split, List.concat_eq_append, List.dropLast_concat]
      refine parent?_ofNames fun name mem => proper name ?_
      rw [← List.concat_eq_append, ← split] at mem
      exact List.mem_of_mem_take mem

end Path

namespace LocalModule

variable {fs : FileSystem} {roots : List Path} {name : String} {t : LocalModule} {isPackage : Bool} {level : Nat}
  {inner : Option String} {segs : List String} {segment : String}

/-- **The directories on the way to a module** of a dotted name in one of its forms. -/
def directories (segs : List String) (isPackage : Bool) : List String := (fileNames segs isPackage).dropLast

theorem directories_eq (segs : List String) (isPackage : Bool) :
    directories segs isPackage = if isPackage then segs else segs.dropLast := by
  unfold directories fileNames
  rcases List.eq_nil_or_concat segs with rfl | ⟨before, last, rfl⟩
  · cases isPackage <;> rfl
  · rw [List.concat_eq_append, List.getLast?_concat]
    dsimp only
    split <;> rw [List.dropLast_concat]

/-- The segments that a relative import spells behind its levels. -/
def spelled (inner : Option String) : List String := inner.elim [] DottedName.segments

/-- **The name of a relative import in directories:** there is one if fewer levels lead out than there are directories
around the importer, and it is made of the other directories and of what is spelled. -/
theorem resolveRelative_eq {identity : String} (full : "" ∉ DottedName.segments identity) (some : 1 ≤ level)
    (written : ∀ m ∈ inner, m ≠ "") :
    resolveRelative identity isPackage level inner =
      let around := directories (DottedName.segments identity) isPackage
      if around.length ≤ level - 1 then none
      else
        let package := DottedName.ofSegments (around.take (around.length - (level - 1)))
        Option.some (inner.elim package (DottedName.append package)) := by
  have all : (DottedName.segments identity).filter (· != "") = DottedName.segments identity := by
    refine List.filter_eq_self.mpr fun segment mem => ?_
    exact bne_iff_ne.mpr fun empty => full (empty ▸ mem)
  have given : inner.filter (· != "") = inner := by
    cases inner with
    | none => rfl
    | some m => exact Option.filter_eq_some_iff.mpr ⟨rfl, bne_iff_ne.mpr (written m rfl)⟩
  have many : DottedName.segments identity ≠ [] := DottedName.segments_ne_nil identity
  have long := List.length_pos_iff.mpr many
  unfold resolveRelative
  rw [all, given, directories_eq]
  generalize DottedName.segments identity = segs at long
  dsimp only
  cases isPackage with
  | true =>
    simp only [if_true]
    split
    · rfl
    · cases inner <;> rfl
  | false =>
    have taken : segs.dropLast.take (segs.dropLast.length - (level - 1)) = segs.take (segs.length - level) := by
      rw [List.length_dropLast, List.dropLast_eq_take, List.take_take]
      congr 1
      omega
    simp only [Bool.false_eq_true, if_false, taken]
    rw [List.length_dropLast]
    by_cases out : segs.length ≤ level
    · rw [if_pos out, if_pos (by omega)]
    · rw [if_neg out, if_neg (by omega)]
      cases inner <;> rfl

/-- The file of a module in one of its forms, by the path that its name leads to. -/
def fileAt (p : Path) (isPackage : Bool) : Path := if isPackage then p.push "__init__.py" else ⟨p.text ++ ".py"⟩

theorem candidatePath_eq_fileAt (proper : ∀ segment ∈ segs, IsFileName segment) (some : segs ≠ []) :
    candidatePath segs isPackage = fileAt (.ofNames segs) isPackage := by
  rw [candidatePath_eq proper some]
  unfold fileNames fileAt
  rcases List.eq_nil_or_concat segs with rfl | ⟨before, last, rfl⟩
  · exact absurd rfl some
  rw [List.concat_eq_append] at proper ⊢
  rw [List.getLast?_concat, List.dropLast_concat]
  dsimp only
  split
  · rw [Path.push_ofNames proper isFileName_init]
  · unfold Path.ofNames
    cases before with
    | nil => rw [List.nil_append, List.nil_append, String.intercalate_singleton, String.intercalate_singleton]
    | cons first rest =>
      rw [String.intercalate_append_of_ne_nil (List.cons_ne_nil _ _) (List.cons_ne_nil _ _),
        String.intercalate_append_of_ne_nil (List.cons_ne_nil _ _) (List.cons_ne_nil _ _),
        String.intercalate_singleton, String.intercalate_singleton, ← String.append_assoc]

/-- A located module has directories of its name on its way, and then its file. -/
theorem relativePath_of_located (found : locate fs roots name = some t) (free : SlashFree name) :
    t.moduleName = name ∧ (∀ segment ∈ DottedName.segments name, IsFileName segment) ∧
      ∃ file, IsFileName file ∧
        t.relativePath = .ofNames (directories (DottedName.segments name) t.isPackage ++ [file]) := by
  obtain ⟨full, _, _, _, _, _, isPackage, _, _, rfl⟩ := locate_eq_some.mp found
  have proper : ∀ segment ∈ DottedName.segments name, IsFileName segment := fun segment =>
    isFileName_of_mem_segments full free
  have many : fileNames (DottedName.segments name) isPackage ≠ [] :=
    fileNames_ne_nil (DottedName.segments_ne_nil name)
  have split := List.dropLast_append_getLast many
  refine ⟨rfl, proper, (fileNames (DottedName.segments name) isPackage).getLast many, ?_, ?_⟩
  · exact isFileName_of_mem_fileNames proper (List.getLast_mem many)
  · refine (candidatePath_eq proper (DottedName.segments_ne_nil name)).trans ?_
    unfold below directories
    rw [split]

/-- **The segments of a relative name** are the directories that are left, and what is spelled behind them. -/
theorem segments_elim_append {kept : List String} (some : kept ≠ [])
    (dotFree : ∀ directory ∈ kept, '.' ∉ directory.toList) (inner : Option String) :
    DottedName.segments (inner.elim (DottedName.ofSegments kept) (DottedName.append (DottedName.ofSegments kept))) =
      kept ++ spelled inner := by
  have package := DottedName.segments_ofSegments some dotFree
  cases inner with
  | none => exact package.trans (List.append_nil _).symm
  | some m => exact (DottedName.segments_append _ _).trans (congrArg (· ++ _) package)

/-- What is spelled with identifiers is made of file names. -/
theorem isFileName_of_mem_spelled (proper : ∀ m ∈ inner, "" ∉ DottedName.segments m ∧ SlashFree m)
    (mem : segment ∈ spelled inner) : IsFileName segment := by
  cases inner with
  | none => cases mem
  | some m => exact isFileName_of_mem_segments (proper m rfl).1 (proper m rfl).2 mem

/-- **A relative import agrees with the directory layout.** Let a located module be in some directories. Then its import
of some level has a name if and only if one level less leads out of fewer directories than there are, and the name is
made of the directories that are left and of what is spelled. So in both forms its module is looked for where one gets
that goes up from the directory of the importer, one level less than is written, and then down along what is spelled.
Names of identifiers are free of slashes and have no empty segments. -/
theorem resolveRelative_of_locate (found : locate fs roots name = some t) (free : SlashFree name) (some : 1 ≤ level)
    (proper : ∀ m ∈ inner, "" ∉ DottedName.segments m ∧ SlashFree m) :
    ∃ around : List String, t.relativePath.components.dropLast = around.map .name ∧
      ((resolveRelative t.moduleName t.isPackage level inner).isSome = true ↔ level - 1 < around.length) ∧
      ∀ n, resolveRelative t.moduleName t.isPackage level inner = Option.some n →
        DottedName.segments n = around.take (around.length - (level - 1)) ++ spelled inner ∧
        ∃ own top, t.relativePath.parent? = Option.some own ∧ own.above (level - 1) = Option.some top ∧
          ∀ isPackage, candidatePath (DottedName.segments n) isPackage =
            fileAt ((spelled inner).foldl Path.push top) isPackage := by
  obtain ⟨named, isNames, file, isFile, relative⟩ := relativePath_of_located found free
  have full : "" ∉ DottedName.segments name := fun empty => (isNames "" empty).notEmpty rfl
  have written : ∀ m ∈ inner, m ≠ "" := by
    rintro m given rfl
    exact (proper "" given).1 (by decide)
  have resolved : resolveRelative name t.isPackage level inner = _ := resolveRelative_eq full some written
  rw [named]
  -- The resolution and the path are both told by the directories around, whichever form the module has.
  generalize known : directories (DottedName.segments name) t.isPackage = around at relative resolved
  have inside : ∀ directory ∈ around, directory ∈ DottedName.segments name := by
    intro directory mem
    rw [← known, directories_eq] at mem
    split at mem
    · exact mem
    · exact List.dropLast_subset _ mem
  have areNames : ∀ directory ∈ around, IsFileName directory := fun directory mem => isNames _ (inside _ mem)
  have wayNames : ∀ directory ∈ around ++ [file], IsFileName directory := by
    intro directory mem
    rcases List.mem_append.mp mem with here | last
    · exact areNames directory here
    · rwa [List.mem_singleton.mp last]
  dsimp only at resolved
  refine ⟨around, ?_, ?_, fun n isName => ?_⟩
  · rw [relative, Path.components_ofNames wayNames, List.map_append, List.map_singleton, List.dropLast_concat]
  · rw [resolved]
    split
    · simp; omega
    · simp; omega
  · rw [resolved] at isName
    split at isName
    · cases isName
    rename_i inTree
    cases isName
    have left : around.take (around.length - (level - 1)) ≠ [] := by
      refine List.ne_nil_of_length_pos ?_
      rw [List.length_take]
      omega
    have segments := segments_elim_append left
      (fun directory mem => DottedName.dot_notMem_of_mem_segments (inside _ (List.mem_of_mem_take mem))) inner
    have allNames : ∀ segment ∈ around.take (around.length - (level - 1)) ++ spelled inner, IsFileName segment := by
      intro segment mem
      rcases List.mem_append.mp mem with directory | spelt
      · exact areNames _ (List.mem_of_mem_take directory)
      · exact isFileName_of_mem_spelled proper spelt
    refine ⟨segments, .ofNames around, .ofNames (around.take (around.length - (level - 1))), ?_, ?_,
      fun isPackage => ?_⟩
    · rw [relative, Path.parent?_ofNames wayNames]
    · exact Path.above_ofNames areNames (by omega)
    · rw [segments, candidatePath_eq_fileAt allNames (by simp [left]), Path.foldl_push_ofNames _ allNames]

/-- A package in a package. -/
def packages : FileSystem where
  entries := [("pkg", .directory [("sub", .directory [("__init__.py", .file "".toUTF8 false)])])]

/-- Two levels up from a plain module that is called `__init__`. -/
theorem resolveRelative_of_locate_init :
    ∃ (t : LocalModule) (around : List String) (own top : Path),
      locate packages [⟨"/"⟩] "pkg.sub.__init__" = some t ∧ t.isPackage = false ∧
      resolveRelative t.moduleName t.isPackage 2 (some "util") = some "pkg.util" ∧
      t.relativePath.components.dropLast = around.map .name ∧
      DottedName.segments "pkg.util" = around.take (around.length - 1) ++ spelled (some "util") ∧
      t.relativePath.parent? = some own ∧ own.above 1 = some top ∧ ∀ isPackage,
        candidatePath (DottedName.segments "pkg.util") isPackage =
          fileAt ((spelled (some "util")).foldl Path.push top) isPackage := by
  have found : locate packages [⟨"/"⟩] "pkg.sub.__init__" = some (below ⟨"/"⟩ "pkg.sub.__init__" false) := by
    decide +kernel
  have resolved : resolveRelative "pkg.sub.__init__" false 2 (some "util") = some "pkg.util" := by decide +kernel
  have proper : ∀ m ∈ some "util", "" ∉ DottedName.segments m ∧ SlashFree m := by
    rintro m ⟨⟩
    decide +kernel
  have upwards : 1 ≤ 2 := by decide
  obtain ⟨around, components, -, named⟩ := resolveRelative_of_locate found (by decide) upwards proper
  obtain ⟨segments, own, top, isParent, above, files⟩ := named "pkg.util" resolved
  exact ⟨_, around, own, top, found, rfl, resolved, components, segments, isParent, above, files⟩

end LocalModule

end PyBundle
