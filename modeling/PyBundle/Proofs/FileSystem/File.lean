import PyBundle.Proofs.FileSystem.Resolve

/-!
# When a path leads to a file

A path leads to a file only if it ends in a name and is not too long. Apart from that, only its components
count: `isFile_of_sameAs` is about paths that are written in different ways.
-/

namespace PyBundle

namespace FileSystem

variable {fs : FileSystem} {p q : Path}

/-- A piece that is a component leads somewhere. -/
theorem isBlank_of_ofPiece? {piece : List Char} {c : Path.Component}
    (is : Path.Component.ofPiece? piece = some c) : isBlank (String.ofList piece) = false := by
  unfold Path.Component.ofPiece? at is
  split at is
  · cases is
  · cases is
  · decide
  · rename_i notEmpty notHere _
    unfold isBlank
    rw [Bool.or_eq_false_iff]
    constructor
    · refine beq_false_of_ne fun empty => notEmpty ?_
      exact String.ofList_injective empty
    · refine beq_false_of_ne fun here => notHere ?_
      exact String.ofList_injective here

theorem isBlank_of_ofPiece?_eq_none {piece : List Char} (no : Path.Component.ofPiece? piece = none) :
    isBlank (String.ofList piece) = true := by
  unfold Path.Component.ofPiece? at no
  split at no
  · decide
  · decide
  · cases no
  · cases no

/-- The names of the steps of a path are those of its names that lead somewhere. -/
theorem filter_namesOf (p : Path) :
    (namesOf p.text).filter (fun name => !isBlank name) = p.steps.map Path.Component.text := by
  show (p.pieces.map String.ofList).filter _ = (p.pieces.filterMap Path.Component.ofPiece?).map _
  induction p.pieces with
  | nil => rfl
  | cons piece pieces ih =>
    rw [List.map_cons, List.filter_cons, ih]
    cases is : Path.Component.ofPiece? piece with
    | none =>
      rw [isBlank_of_ofPiece?_eq_none is, List.filterMap_cons_none is]
      rfl
    | some c =>
      rw [isBlank_of_ofPiece? is, List.filterMap_cons_some is, List.map_cons,
        Path.Component.text_of_ofPiece? is]
      rfl

/-- Names that end in one that leads somewhere are thinned to those that do. -/
theorem thin_eq_filter {names : List String} {last : String} (ends : names.getLast? = some last)
    (notBlank : isBlank last = false) : thin names = names.filter (fun name => !isBlank name) := by
  have someLeads : ∀ names : List String, names.getLast? = some last → allBlank names = false :=
    fun names ends => List.all_eq_false.mpr ⟨last, List.mem_of_getLast? ends, by rw [notBlank]; decide⟩
  induction names with
  | nil => cases ends
  | cons name rest ih =>
    rw [thin, List.filter_cons]
    cases rest with
    | nil =>
      have same : name = last := Option.some.inj ends
      rw [same, notBlank]
      rfl
    | cons next rest =>
      have ends' : (next :: rest).getLast? = some last := ends
      rw [someLeads _ ends', Bool.not_false, Bool.and_true, ih ends']
      cases isBlank name <;> rfl

/-- **A path that ends in a name is thinned to its steps.** -/
theorem thin_namesOf (ends : p.EndsInName) : thin (namesOf p.text) = p.steps.map Path.Component.text := by
  obtain ⟨piece, name, last, is⟩ := ends
  have ends : (namesOf p.text).getLast? = some (String.ofList piece) := by
    show (p.pieces.map String.ofList).getLast? = _
    rw [List.getLast?_map, last]
    rfl
  rw [← filter_namesOf]
  exact thin_eq_filter ends (isBlank_of_ofPiece? is)

/-- A piece that can be the name of a file is a component that is a name. -/
theorem exists_name_of_isFileEnd {piece : List Char} (is : isFileEnd (String.ofList piece) = true) :
    ∃ name, Path.Component.ofPiece? piece = some (.name name) := by
  obtain ⟨leads, notUp⟩ := Bool.and_eq_true_iff.mp is
  cases component : Path.Component.ofPiece? piece with
  | none =>
    rw [isBlank_of_ofPiece?_eq_none component] at leads
    cases leads
  | some c =>
    have text := Path.Component.text_of_ofPiece? component
    cases c with
    | root => cases Path.Component.isStep_of_ofPiece? component
    | here => cases Path.Component.isStep_of_ofPiece? component
    | up => exact absurd text.symm (bne_iff_ne.mp notUp)
    | name name => exact ⟨name, rfl⟩

/-- **A path that leads to a file ends in a name.** -/
theorem endsInName_of_isFile (file : fs.isFile p = true) : p.EndsInName := by
  obtain ⟨place, content, executable, resolved, entry⟩ := isFile_iff.mp file
  obtain ⟨-, -, -, directory, followed⟩ := resolve_eq_ok.mp resolved
  generalize (if p.isAbsolute = true then [] else fs.workPlace) = start at directory followed
  have holds : fs.HoldsDirectory start := by
    obtain ⟨n, at_, isDirectory⟩ := (Option.any_eq_true _ _).mp directory
    cases n with
    | directory entries => exact ⟨entries, at_⟩
    | file => cases isDirectory
    | link => cases isDirectory
  refine Classical.byContradiction fun noName => ?_
  have unended : EndOpen (namesOf p.text) := by
    intro text atEnd
    have atEnd : (p.pieces.map String.ofList).getLast? = some text := atEnd
    rw [List.getLast?_map] at atEnd
    obtain ⟨piece, last, rfl⟩ := Option.map_eq_some_iff.mp atEnd
    refine Bool.eq_false_iff.mpr fun is => noName ?_
    obtain ⟨name, component⟩ := exists_name_of_isFileEnd is
    exact ⟨piece, name, last, component⟩
  obtain ⟨entries, entry'⟩ := follow_open holds unended followed
  cases entry.symm.trans entry'

/-- Paths with the same steps have the same characters in their names. -/
theorem mem_text_of_steps {c : Char} (steps : p.steps = q.steps) (other : c ≠ '/' ∧ c ≠ '.')
    (mem : c ∈ q.text.toList) : c ∈ p.text.toList := by
  obtain ⟨piece, isPiece, inPiece⟩ := Text.exists_mem_splitOn_of_mem mem other.1
  have component : ∃ step, Path.Component.ofPiece? piece = some step := by
    unfold Path.Component.ofPiece?
    split
    · cases inPiece
    · exact absurd (List.mem_singleton.mp inPiece) other.2
    · exact ⟨_, rfl⟩
    · exact ⟨_, rfl⟩
  obtain ⟨step, is⟩ := component
  have inSteps : step ∈ p.steps := steps ▸ List.mem_filterMap.mpr ⟨piece, isPiece, is⟩
  obtain ⟨piece', isPiece', is'⟩ := List.mem_filterMap.mp inSteps
  have same : piece = piece' :=
    String.ofList_injective ((Path.Component.text_of_ofPiece? is).symm.trans
      (Path.Component.text_of_ofPiece? is'))
  rw [same] at inPiece
  exact Text.mem_of_mem_splitOn isPiece' inPiece

/-- **Of two paths that say the same, one leads to a file where the other one does,** unless it is too long or
has something behind its last name. -/
theorem isFile_of_sameAs (same : p.sameAs q = true) (file : fs.isFile p = true) (ends : q.EndsInName)
    (short : ¬ q.IsTooLong) : fs.isFile q = true := by
  obtain ⟨place, content, executable, resolved, entry⟩ := isFile_iff.mp file
  obtain ⟨noNul, -, -, directory, followed⟩ := resolve_eq_ok.mp resolved
  have steps : p.steps = q.steps := (Path.sameAs_iff.mp same).2
  have thinned : thin (namesOf p.text) = thin (namesOf q.text) := by
    rw [thin_namesOf (endsInName_of_isFile file), thin_namesOf ends, steps]
  refine isFile_iff.mpr ⟨place, content, executable, resolve_eq_ok.mpr ⟨?_, ?_, short, ?_, ?_⟩, entry⟩
  · exact fun nul => noNul (mem_text_of_steps steps (by decide) nul)
  · refine beq_false_of_ne fun empty => ?_
    obtain ⟨piece, name, last, is⟩ := ends
    unfold Path.pieces at last
    rw [empty] at last
    cases last
    cases is
  · rwa [← Path.isAbsolute_eq_of_sameAs same]
  · rw [← Path.isAbsolute_eq_of_sameAs same, ← follow_congr true thinned]
    exact followed

end FileSystem

end PyBundle
