import Mathlib.Data.List.Basic
import PyBundle.Proofs.Import.Name
import PyBundle.Proofs.Module.Locate
import PyBundle.Proofs.Path.Components

/-!
# The names on the way to a module

Below its root, a module is reached through names of directories to the name of its file. Where the segments
of its dotted name are names of files, these are the segments themselves, up to the last one, and so the way
and the form tell the dotted name.
-/

namespace PyBundle

/-- **A name that an entry of a directory can have,** apart from its length. -/
structure IsFileName (name : String) : Prop where
  notEmpty : name ≠ ""
  notHere : name ≠ "."
  notUp : name ≠ ".."
  slashFree : SlashFree name

instance (name : String) : Decidable (IsFileName name) :=
  decidable_of_iff (name ≠ "" ∧ name ≠ "." ∧ name ≠ ".." ∧ '/' ∉ name.toList)
    ⟨fun ⟨notEmpty, notHere, notUp, slashFree⟩ => ⟨notEmpty, notHere, notUp, slashFree⟩,
      fun ⟨notEmpty, notHere, notUp, slashFree⟩ => ⟨notEmpty, notHere, notUp, slashFree⟩⟩

/-- The relative path that leads through some names. -/
def Path.ofNames (names : List String) : Path := ⟨"/".intercalate names⟩

/-- Joined names end with the last one. -/
theorem Path.ofNames_concat (names : List String) (last : String) :
    ∃ front, (Path.ofNames (names ++ [last])).text = front ++ last := by
  unfold ofNames
  cases names with
  | nil => exact ⟨"", by rw [List.nil_append, String.intercalate_singleton, String.empty_append]⟩
  | cons first rest =>
    refine ⟨"/".intercalate (first :: rest) ++ "/", ?_⟩
    rw [String.intercalate_append_of_ne_nil (List.cons_ne_nil _ _) (List.cons_ne_nil _ _),
      String.intercalate_singleton]

/-- A text that ends with a file name is not empty and ends with no slash. -/
theorem IsFileName.endsWithSlash {last : String} (isLast : IsFileName last) (front : String) :
    Path.isEmpty ⟨front ++ last⟩ = false ∧ Path.endsWithSlash ⟨front ++ last⟩ = false := by
  obtain ⟨c, atEnd⟩ : ∃ c, last.toList.getLast? = some c :=
    Option.ne_none_iff_exists'.mp fun none =>
      isLast.notEmpty (String.toList_eq_nil_iff.mp (List.getLast?_eq_none_iff.mp none))
  unfold Path.isEmpty Path.endsWithSlash
  constructor
  · refine beq_false_of_ne fun empty => isLast.notEmpty ?_
    exact (String.append_eq_empty_iff.mp empty).2
  · rw [String.toList_append, List.getLast?_append, atEnd, Option.some_or]
    refine beq_false_of_ne fun slash => isLast.slashFree ?_
    rw [← Option.some.inj slash]
    exact List.mem_of_getLast? atEnd

theorem IsFileName.relative {name : String} (isName : IsFileName name) : Path.isAbsolute ⟨name⟩ = false := by
  unfold Path.isAbsolute
  refine beq_false_of_ne fun absolute => isName.slashFree ?_
  exact List.mem_of_head? absolute

/-- A file name behind other file names makes a longer path. -/
theorem Path.push_ofNames {names : List String} (proper : ∀ name ∈ names, IsFileName name) {last : String}
    (isLast : IsFileName last) : (Path.ofNames names).push last = Path.ofNames (names ++ [last]) := by
  unfold push join
  rw [isLast.relative, Bool.false_or]
  rcases List.eq_nil_or_concat names with rfl | ⟨before, name, rfl⟩
  · rfl
  · rw [List.concat_eq_append] at proper ⊢
    have isName := proper name (List.mem_append_right _ (List.mem_singleton_self name))
    obtain ⟨front, text⟩ := ofNames_concat before name
    obtain ⟨written, unclosed⟩ := isName.endsWithSlash front
    have same : Path.ofNames (before ++ [name]) = ⟨front ++ name⟩ := congrArg Path.mk text
    rw [same, written, unclosed, ← text]
    unfold ofNames
    rw [String.intercalate_append_of_ne_nil (List.concat_ne_nil _ _) (List.cons_ne_nil _ _),
      String.intercalate_singleton]
    rfl

theorem Path.foldl_push_ofNames (front : List String) {names : List String}
    (proper : ∀ name ∈ front ++ names, IsFileName name) :
    names.foldl Path.push (ofNames front) = ofNames (front ++ names) := by
  induction names generalizing front with
  | nil => rw [List.foldl_nil, List.append_nil]
  | cons name rest ih =>
    have isName := proper name (List.mem_append_right _ List.mem_cons_self)
    have before : ∀ n ∈ front, IsFileName n := fun n mem => proper n (List.mem_append_left _ mem)
    have split : front ++ name :: rest = (front ++ [name]) ++ rest := by
      rw [List.append_assoc, List.singleton_append]
    rw [split] at proper ⊢
    rw [List.foldl_cons, push_ofNames before isName, ih _ proper]

/-- Joined file names are taken apart at the slashes. -/
theorem Path.pieces_ofNames {names : List String} (proper : ∀ name ∈ names, IsFileName name)
    (some : names ≠ []) : (Path.ofNames names).pieces = names.map String.toList := by
  unfold pieces ofNames
  rw [String.toList_intercalate]
  refine List.splitOn_intercalate '/' (fun piece mem => ?_) fun none => some (List.map_eq_nil_iff.mp none)
  obtain ⟨name, isName, rfl⟩ := List.mem_map.mp mem
  exact (proper name isName).slashFree

/-- **File names and the path that leads through them determine each other.** -/
theorem Path.ofNames_injective {names others : List String} (hn : ∀ name ∈ names, IsFileName name)
    (ho : ∀ name ∈ others, IsFileName name) (some : names ≠ []) (some' : others ≠ [])
    (same : Path.ofNames names = Path.ofNames others) : names = others := by
  have pieces := pieces_ofNames hn some
  rw [same, pieces_ofNames ho some'] at pieces
  exact ((List.map_inj_right fun _ _ => String.toList_inj.mp).mp pieces).symm

/-- A file name is a component of a path. -/
theorem IsFileName.ofPiece? {name : String} (isName : IsFileName name) :
    Path.Component.ofPiece? name.toList = some (.name name) := by
  unfold Path.Component.ofPiece?
  split
  · rename_i empty
    exact absurd (String.toList_eq_nil_iff.mp empty) isName.notEmpty
  · rename_i here
    exact absurd (String.toList_inj.mp here) isName.notHere
  · rename_i up
    exact absurd (String.toList_inj.mp up) isName.notUp
  · rw [String.ofList_toList]

/-- Joined file names are the steps of their path. -/
theorem Path.steps_ofNames {names : List String} (proper : ∀ name ∈ names, IsFileName name)
    (some : names ≠ []) : (Path.ofNames names).steps = names.map Component.name := by
  unfold steps
  rw [pieces_ofNames proper some, List.filterMap_map, ← List.filterMap_eq_map]
  exact List.filterMap_congr fun name mem => (proper name mem).ofPiece?

/-- **Paths that lead through file names say the same only if the names are the same.** -/
theorem Path.eq_of_ofNames_sameAs {names others : List String} (hn : ∀ name ∈ names, IsFileName name)
    (ho : ∀ name ∈ others, IsFileName name) (some : names ≠ []) (some' : others ≠ [])
    (same : (Path.ofNames names).sameAs (Path.ofNames others) = true) : names = others := by
  have steps := (sameAs_iff.mp same).2
  rw [steps_ofNames hn some, steps_ofNames ho some'] at steps
  exact (List.map_inj_right fun _ _ => Component.name.inj).mp steps

/-- **A name among the steps of a path is a file name.** -/
theorem isFileName_of_mem_steps {p : Path} {name : String} (mem : .name name ∈ p.steps) :
    IsFileName name := by
  obtain ⟨piece, isPiece, is⟩ := List.mem_filterMap.mp mem
  have free := Path.slash_notMem_of_mem_pieces isPiece
  unfold Path.Component.ofPiece? at is
  split at is
  · cases is
  · cases is
  · cases is
  · rename_i notEmpty notHere notUp
    cases is
    have text : ∀ t : String, String.ofList piece = t → piece = t.toList := fun t same => by
      rw [← same, String.toList_ofList]
    exact ⟨fun h => notEmpty (text _ h), fun h => notHere (text _ h), fun h => notUp (text _ h), by
      unfold SlashFree
      rwa [String.toList_ofList]⟩

/-- **The name at the end of a path is a file name.** -/
theorem isFileName_of_fileName? {p : Path} {name : String} (fileName : p.fileName? = some name) :
    IsFileName name := by
  unfold Path.fileName? at fileName
  obtain ⟨c, last, isName⟩ := Option.bind_eq_some_iff.mp fileName
  have mem := List.mem_of_getLast? last
  rw [Path.components_eq] at mem
  cases c with
  | name text =>
    cases isName
    rcases List.mem_append.mp mem with lead | step
    · cases Path.not_isStep_of_mem_lead lead
    · exact isFileName_of_mem_steps step
  | root => cases isName
  | here => cases isName
  | up => cases isName

namespace LocalModule

/-- **The names on the way to a module** of a dotted name in one of its forms: directories, then a file. -/
def fileNames (segments : List String) (isPackage : Bool) : List String :=
  match segments.getLast? with
  | none => []
  | some last => if isPackage then segments ++ ["__init__.py"] else segments.dropLast ++ [last ++ ".py"]

variable {name other : String} {isPackage : Bool}

theorem fileNames_ne_nil {segments : List String} (some : segments ≠ []) :
    fileNames segments isPackage ≠ [] := by
  unfold fileNames
  rw [List.getLast?_eq_some_getLast some]
  dsimp only
  split <;> exact List.concat_ne_nil _ _

/-- A segment of a dotted name is a file name, if it is not empty and has no slash. -/
theorem isFileName_of_mem_segments (full : "" ∉ DottedName.segments name) (free : SlashFree name)
    {segment : String} (mem : segment ∈ DottedName.segments name) : IsFileName segment where
  notEmpty empty := full (empty ▸ mem)
  notHere here := DottedName.dot_notMem_of_mem_segments mem (by rw [here]; decide)
  notUp up := DottedName.dot_notMem_of_mem_segments mem (by rw [up]; decide)
  slashFree := DottedName.slashFree_of_mem_segments free mem

theorem isFileName_init : IsFileName "__init__.py" := by
  constructor <;> decide

/-- The file of a plain module has a file name. -/
theorem isFileName_source {segment : String} (isName : IsFileName segment) : IsFileName (segment ++ ".py") where
  notEmpty empty := isName.notEmpty (String.append_eq_empty_iff.mp empty).1
  notHere here := by
    have lengths := congrArg String.length here
    rw [String.length_append] at lengths
    have short : segment.length + 3 = 1 := lengths
    omega
  notUp up := by
    have lengths := congrArg String.length up
    rw [String.length_append] at lengths
    have short : segment.length + 3 = 2 := lengths
    omega
  slashFree := by
    unfold SlashFree
    rw [String.toList_append, List.mem_append, not_or]
    exact ⟨isName.slashFree, by decide⟩

/-- **All names on the way to a module are file names** where the segments of its dotted name are. -/
theorem isFileName_of_mem_fileNames {segments : List String} (proper : ∀ s ∈ segments, IsFileName s)
    {n : String} (mem : n ∈ fileNames segments isPackage) : IsFileName n := by
  unfold fileNames at mem
  rcases List.eq_nil_or_concat segments with rfl | ⟨before, last, rfl⟩
  · cases mem
  · rw [List.concat_eq_append] at proper mem
    rw [List.getLast?_concat, List.dropLast_concat] at mem
    dsimp only at mem
    split at mem
    · rcases List.mem_append.mp mem with directory | file
      · exact proper n directory
      · rw [List.mem_singleton.mp file]
        exact isFileName_init
    · rcases List.mem_append.mp mem with directory | file
      · exact proper n (List.mem_append_left _ directory)
      · rw [List.mem_singleton.mp file]
        exact isFileName_source (proper last (List.mem_append_right _ (List.mem_singleton_self _)))

/-- **The path of a module leads through these names.** -/
theorem candidatePath_eq {segments : List String} (proper : ∀ s ∈ segments, IsFileName s)
    (some : segments ≠ []) : candidatePath segments isPackage = .ofNames (fileNames segments isPackage) := by
  have names : ∀ n ∈ fileNames segments isPackage, IsFileName n := fun n => isFileName_of_mem_fileNames proper
  unfold fileNames at names
  unfold candidatePath fileNames
  rcases List.eq_nil_or_concat segments with rfl | ⟨before, last, rfl⟩
  · exact absurd rfl some
  · rw [List.concat_eq_append] at proper names ⊢
    rw [List.getLast?_concat, List.dropLast_concat] at names ⊢
    have parents : before.foldl Path.push ⟨""⟩ = .ofNames before :=
      Path.foldl_push_ofNames [] fun n mem => proper n (List.mem_append_left _ mem)
    have isLast : IsFileName last := proper last (List.mem_append_right _ (List.mem_singleton_self _))
    dsimp only
    rw [parents]
    cases isPackage with
    | true =>
      rw [if_pos rfl, if_pos rfl, Path.push_ofNames (fun n mem => proper n (List.mem_append_left _ mem)) isLast,
        Path.push_ofNames proper isFileName_init]
    | false =>
      rw [if_neg Bool.false_ne_true, if_neg Bool.false_ne_true,
        Path.push_ofNames (fun n mem => proper n (List.mem_append_left _ mem)) (isFileName_source isLast)]

/-- **The way to a module and its form tell the segments of its name.** -/
theorem fileNames_injective {segments others : List String}
    (same : fileNames segments isPackage = fileNames others isPackage) : segments = others := by
  rcases List.eq_nil_or_concat segments with rfl | ⟨before, last, rfl⟩
  · exact Decidable.byContradiction fun some => fileNames_ne_nil (Ne.symm some) same.symm
  rcases List.eq_nil_or_concat others with rfl | ⟨before', last', rfl⟩
  · exact absurd same (fileNames_ne_nil (by rw [List.concat_eq_append]; exact List.concat_ne_nil _ _))
  unfold fileNames at same
  simp only [List.concat_eq_append, List.getLast?_concat, List.dropLast_concat] at same ⊢
  split at same
  · exact (List.append_inj' same rfl).1
  · obtain ⟨directories, file⟩ := List.append_inj' same rfl
    rw [directories, (String.append_left_inj ".py").mp (List.singleton_inj.mp file)]

variable {segs others : List String} {isPackage' : Bool}

theorem fileNames_package (some : segs ≠ []) : fileNames segs true = segs ++ ["__init__.py"] := by
  unfold fileNames
  rw [List.getLast?_eq_some_getLast some]
  rfl

theorem fileNames_plain (before : List String) (last : String) :
    fileNames (before ++ [last]) false = before ++ [last ++ ".py"] := by
  unfold fileNames
  rw [List.getLast?_concat, List.dropLast_concat]
  rfl

/-- The file of a package is the one of the plain module `__init__` in it, and of no other plain module. -/
theorem fileNames_package_eq_plain (some : segs ≠ []) :
    fileNames segs true = fileNames others false ↔ others = segs ++ ["__init__"] := by
  rw [fileNames_package some]
  constructor
  · intro same
    rcases List.eq_nil_or_concat others with rfl | ⟨before, last, rfl⟩
    · exact absurd same (List.concat_ne_nil _ _)
    · rw [List.concat_eq_append] at same ⊢
      rw [fileNames_plain] at same
      obtain ⟨directories, file⟩ := List.append_inj' same rfl
      have init : "__init__" ++ ".py" = last ++ ".py" := List.singleton_inj.mp file
      rw [directories, (String.append_left_inj ".py").mp init]
  · rintro rfl
    rw [fileNames_plain]
    rfl

/-- **The way to a module tells its form and the segments of its name,** but for a package and the plain module
`__init__` in it. -/
theorem fileNames_eq_iff (some : segs ≠ []) (some' : others ≠ []) :
    fileNames segs isPackage = fileNames others isPackage' ↔
      (segs = others ∧ isPackage = isPackage') ∨
      (isPackage = true ∧ isPackage' = false ∧ others = segs ++ ["__init__"]) ∨
      (isPackage = false ∧ isPackage' = true ∧ segs = others ++ ["__init__"]) := by
  cases isPackage <;> cases isPackage'
  case true.false => simp [fileNames_package_eq_plain some]
  case false.true => rw [eq_comm, fileNames_package_eq_plain some']; simp
  all_goals simpa using ⟨fileNames_injective, fun same => same ▸ rfl⟩

/-- The way to a module tells all where no segment is `__init__`. -/
theorem form_of_fileNames_eq (same : fileNames segs isPackage = fileNames others isPackage')
    (some : segs ≠ []) (some' : others ≠ []) (hs : "__init__" ∉ segs) (ho : "__init__" ∉ others) :
    isPackage = isPackage' ∧ segs = others := by
  rcases (fileNames_eq_iff some some').mp same with ⟨segments, form⟩ | ⟨-, -, rfl⟩ | ⟨-, -, rfl⟩
  · exact ⟨form, segments⟩
  · exact absurd (List.mem_append_right _ List.mem_cons_self) ho
  · exact absurd (List.mem_append_right _ List.mem_cons_self) hs

end LocalModule

end PyBundle
