import PyBundle.Distribution.Metadata
import PyBundle.Proofs.Path.Folded

/-!
# Import names from lists of installed files

A distribution that does not say its import names has those of its files. They are the first parts of listed paths
(`Heads`), and a path belongs to the directory that it is relative to (`Provides`), which is the site directory for a
record and the metadata directory for an older list.

`importNames_listed` says which paths these are. A path of a record that goes up at its front gives no name. A path of
an older list gives the name behind its steps up, however many these are, so it is a path in the site directory if
there is one step up, and one outside it gives a name, too, if there are more (`oldTool_outside`).
-/

namespace PyBundle

namespace Path

variable {p : Path}

/-- **No `..` behind the first component of a path leads above it.** -/
def StaysInFirst (p : Path) : Prop := Component.up ∉ p.steps.tail.foldl Component.climb []

instance (p : Path) : Decidable p.StaysInFirst :=
  inferInstanceAs (Decidable (Component.up ∉ p.steps.tail.foldl Component.climb []))

/-- Steps up, as they are written at the front of a path. -/
def stepsUp (k : Nat) : String := String.ofList (List.replicate k ['.', '.', '/']).flatten

theorem toList_stepsUp_succ (k : Nat) : (stepsUp (k + 1)).toList = '.' :: '.' :: '/' :: (stepsUp k).toList := by
  simp [stepsUp, List.replicate_succ]

/-- What stands before a slash is a step of its own. -/
theorem steps_of_slash {text : String} {first rest : List Char} (split : text.toList = first ++ '/' :: rest)
    (free : '/' ∉ first) :
    steps ⟨text⟩ = (Component.ofPiece? first).toList ++ steps ⟨String.ofList rest⟩ := by
  unfold steps pieces
  rw [split, String.toList_ofList, List.splitOn_append_cons_self, List.splitOn_eq_singleton free,
    List.singleton_append, List.filterMap_cons]
  cases Component.ofPiece? first <;> rfl

/-- **Written steps up are steps up.** -/
theorem steps_stepsUp (k : Nat) (file : String) :
    steps ⟨stepsUp k ++ file⟩ = List.replicate k .up ++ steps ⟨file⟩ := by
  induction k with
  | zero => rfl
  | succ k ih =>
    have split : (stepsUp (k + 1) ++ file).toList = ['.', '.'] ++ '/' :: (stepsUp k ++ file).toList := by
      rw [String.toList_append, toList_stepsUp_succ, String.toList_append]
      rfl
    rw [steps_of_slash split (by decide), String.ofList_toList, ih, List.replicate_succ]
    rfl

theorem isAbsolute_stepsUp {file : String} (relative : isAbsolute ⟨file⟩ = false) (k : Nat) :
    isAbsolute ⟨stepsUp k ++ file⟩ = false := by
  cases k with
  | zero => exact relative
  | succ k =>
    unfold isAbsolute
    rw [String.toList_append, toList_stepsUp_succ]
    rfl

/-- Steps up behind a path are taken from its stack. -/
theorem stack_stepsUp (p : Path) (k : Nat) :
    (p.push (stepsUp k)).stack = (List.replicate k .up).foldl Component.climb p.stack := by
  have relative : isAbsolute ⟨stepsUp k⟩ = false := by
    simpa only [String.append_empty] using isAbsolute_stepsUp (rfl : isAbsolute ⟨""⟩ = false) k
  have ups : steps ⟨stepsUp k⟩ = List.replicate k .up := by
    have written := steps_stepsUp k ""
    rwa [String.append_empty, show steps ⟨""⟩ = [] from rfl, List.append_nil] at written
  rw [push, stack_join p relative, ups]

/-- The stack of a path behind steps up goes on with the one of the directory that these lead to. -/
theorem stack_push_stepsUp {file : String} (relative : isAbsolute ⟨file⟩ = false) (k : Nat) :
    (p.push (stepsUp k ++ file)).stack = (steps ⟨file⟩).foldl Component.climb (p.push (stepsUp k)).stack := by
  rw [push, stack_join p (isAbsolute_stepsUp relative k), steps_stepsUp, stack_stepsUp, List.foldl_append]

/-- A file name is put onto the stack. -/
theorem stack_push (p : Path) {name : String} (isName : IsFileName name) :
    (p.push name).stack = .name name :: p.stack := by
  rw [push, stack_join p isName.relative, steps_of_isFileName isName]
  rfl

/-- **One step up from an entry of a directory** leads to the directory. -/
theorem normalComponents_one_up (root : Path) {entry : String} (isName : IsFileName entry) :
    ((root.push entry).push (stepsUp 1)).normalComponents = root.normalComponents := by
  rw [normalComponents_eq, normalComponents_eq, stack_stepsUp, stack_push root isName]
  rfl

end Path

namespace Distribution

variable {fs : FileSystem} {root p directory : Path} {entry file n : String} {d : Distribution} {lines : List String}

/-! ## Names -/

/-- **A name under which something can be imported.** -/
structure IsImportName (n : String) : Prop where
  plain : isPlainIdentifier n = true
  notCache : n ≠ "__pycache__"

/-- An identifier has letters, digits and underscores alone, and at least one of them. -/
theorem IsImportName.chars (is : IsImportName n) :
    n.toList ≠ [] ∧ ∀ c ∈ n.toList, c.isAlphanum = true ∨ c = '_' := by
  have plain := is.plain
  unfold isPlainIdentifier at plain
  split at plain
  · cases plain
  · rename_i first rest chars
    rw [Bool.and_eq_true, Bool.or_eq_true, beq_iff_eq, List.all_eq_true] at plain
    rw [chars]
    refine ⟨List.cons_ne_nil _ _, List.forall_mem_cons.mpr ⟨plain.1.imp_left fun letter => ?_, fun c mem => ?_⟩⟩
    · rw [Char.isAlphanum, letter, Bool.true_or]
    · simpa using plain.2 c mem

theorem IsImportName.slash_notMem (is : IsImportName n) : '/' ∉ n.toList := fun mem =>
  absurd (is.chars.2 _ mem) (by decide)

theorem IsImportName.dot_notMem (is : IsImportName n) : '.' ∉ n.toList := fun mem =>
  absurd (is.chars.2 _ mem) (by decide)

/-- What does not start with a dot is a name. -/
theorem ofPiece?_of_front {cs : List Char} (written : cs ≠ []) (front : cs.head? ≠ some '.') :
    Path.Component.ofPiece? cs = some (.name (String.ofList cs)) := by
  unfold Path.Component.ofPiece?
  split
  · exact absurd rfl written
  · exact absurd rfl front
  · exact absurd rfl front
  · rfl

/-- **What can be imported** of some names. -/
theorem mem_importable {names : List String} : n ∈ importable names ↔ IsImportName n ∧ n ∈ names := by
  unfold importable
  rw [List.mem_eraseDups, List.mem_filter, Bool.and_eq_true, bne_iff_ne]
  exact ⟨fun ⟨mem, notCache, plain⟩ => ⟨⟨plain, notCache⟩, mem⟩, fun ⟨is, mem⟩ => ⟨mem, is.notCache, is.plain⟩⟩

/-! ## Listed files -/

/-- A text without blanks at its ends. -/
def trimmed (text : String) : String := String.ofList (Text.trim text.toList)

/-- **A file that is a module by itself.** -/
def IsModuleFile (name : String) : Prop := ∃ ending ∈ moduleEndings, ending.toList <:+ name.toList

/-- **A name stands at the front of a listed file,** as a directory or as what a module file is called up to the first
dot. -/
def Heads (n file : String) : Prop :=
  (∃ rest, file.toList = n.toList ++ '/' :: rest) ∨
    ('/' ∉ file.toList ∧ IsModuleFile file ∧ n.toList = file.toList.takeWhile (· != '.'))

/-- **A file belongs to a name in a directory:** it is below the directory of this name, or it is the module file of
this name. -/
def Provides (directory file : Path) (n : String) : Prop :=
  (∃ rest, file.normalComponents = directory.normalComponents ++ .name n :: rest) ∨
    ∃ own, file.normalComponents = directory.normalComponents ++ [.name own] ∧ IsModuleFile own ∧
      n.toList = own.toList.takeWhile (· != '.')

/-- **Which name a listed file gives.** -/
theorem importNameOfFile?_eq_some_iff (is : IsImportName n) :
    importNameOfFile? file = some n ↔ Heads n (trimmed file) := by
  unfold importNameOfFile? Heads trimmed IsModuleFile
  rw [String.toList_ofList]
  by_cases slash : '/' ∈ Text.trim file.toList
  · obtain ⟨first, rest, split, free⟩ := List.eq_append_cons_of_mem slash
    obtain ⟨next, others, more⟩ := List.exists_cons_of_ne_nil (List.splitOn_ne_nil '/' rest)
    rw [split, List.splitOn_append_cons_self, List.splitOn_eq_singleton free, more, List.singleton_append]
    simp only [Option.some.injEq]
    constructor
    · rintro rfl
      exact .inl ⟨rest, by rw [String.toList_ofList]⟩
    · rintro (⟨rest', same⟩ | ⟨none, -⟩)
      · have front : first = n.toList := by
          rw [← Text.takeWhile_separator rest free, same, Text.takeWhile_separator rest' is.slash_notMem]
        rw [front, String.ofList_toList]
      · exact absurd (List.mem_append_right _ List.mem_cons_self) none
  · have ending : (moduleEndings.any fun ending => ending.toList.isSuffixOf (Text.trim file.toList)) = true ↔
        ∃ ending ∈ moduleEndings, ending.toList <:+ Text.trim file.toList := by
      simp only [List.any_eq_true, List.isSuffixOf_iff_suffix]
    rw [List.splitOn_eq_singleton slash]
    simp only [Option.ite_none_right_eq_some, Option.some.injEq, ending]
    constructor
    · rintro ⟨isModule, rfl⟩
      exact .inr ⟨slash, isModule, String.toList_ofList⟩
    · rintro (⟨rest, same⟩ | ⟨-, isModule, front⟩)
      · exact absurd (same ▸ List.mem_append_right _ List.mem_cons_self) slash
      · exact ⟨isModule, by rw [← front, String.ofList_toList]⟩

/-- **Where a name at the front of a listed file stands** among its steps. -/
theorem Heads.steps (heads : Heads n file) (is : IsImportName n) :
    Path.isAbsolute ⟨file⟩ = false ∧
      ((∃ rest, Path.steps ⟨file⟩ = .name n :: rest) ∨
        (Path.steps ⟨file⟩ = [.name file] ∧ IsModuleFile file ∧ n.toList = file.toList.takeWhile (· != '.'))) := by
  obtain ⟨written, -⟩ := is.chars
  obtain ⟨c, cs, chars⟩ := List.exists_cons_of_ne_nil written
  have slash : c ≠ '/' := fun same => is.slash_notMem (by rw [chars, same]; exact List.mem_cons_self)
  have dot : c ≠ '.' := fun same => is.dot_notMem (by rw [chars, same]; exact List.mem_cons_self)
  rcases heads with ⟨rest, split⟩ | ⟨free, isModule, front⟩
  · refine ⟨?_, .inl ⟨Path.steps ⟨String.ofList rest⟩, ?_⟩⟩
    · unfold Path.isAbsolute
      rw [split, chars]
      simpa using slash
    · rw [Path.steps_of_slash split is.slash_notMem, ofPiece?_of_front written (by simpa [chars] using dot),
        String.ofList_toList]
      rfl
  · have head : file.toList.head? = some c := by
      have first := congrArg List.head? front
      rw [chars, List.head?_takeWhile, List.head?_cons, eq_comm, Option.filter_eq_some_iff] at first
      exact first.1
    refine ⟨beq_false_of_ne (by simpa [head] using slash), .inr ⟨?_, isModule, front⟩⟩
    have nonempty : file.toList ≠ [] := fun none => by rw [none] at head; cases head
    unfold Path.steps Path.pieces
    rw [List.splitOn_eq_singleton free, List.filterMap_cons,
      ofPiece?_of_front nonempty (by simpa [head] using dot), String.ofList_toList]
    rfl

/-- **A listed file that stays in its first component belongs to the name at its front,** in the directory that it is
relative to. -/
theorem Heads.provides (heads : Heads n file) (is : IsImportName n) (stays : Path.StaysInFirst ⟨file⟩)
    (folded : p.stack = (Path.steps ⟨file⟩).foldl Path.Component.climb directory.stack) : Provides directory p n := by
  unfold Path.StaysInFirst at stays
  unfold Provides
  rw [Path.normalComponents_eq p, folded, Path.normalComponents_eq directory]
  obtain ⟨-, ⟨rest, steps⟩ | ⟨steps, isModule, front⟩⟩ := heads.steps is
  · rw [steps, List.tail_cons] at stays
    rw [steps, List.foldl_cons, Path.foldl_climb_append stays]
    have name : Path.Component.climb directory.stack (.name n) = .name n :: directory.stack := rfl
    exact .inl ⟨_, by rw [name, List.reverse_append, List.reverse_cons, List.append_assoc, List.singleton_append]⟩
  · rw [steps, List.foldl_cons, List.foldl_nil]
    exact .inr ⟨file, List.reverse_cons, isModule, front⟩

/-- What stands behind the directory of a file is a name, or the file alone. -/
theorem Provides.exists_cons (provides : Provides directory p n) :
    ∃ first rest, p.normalComponents = directory.normalComponents ++ first :: rest ∧ (rest ≠ [] → first = .name n) := by
  rcases provides with ⟨rest, same⟩ | ⟨own, same, -⟩
  · exact ⟨_, rest, same, fun _ => rfl⟩
  · exact ⟨_, [], same, fun some => absurd rfl some⟩

/-- **A file belongs to a name in one directory only,** unless the directories themselves have this name among their
components. -/
theorem Provides.directory_eq {other : Path} (one : Provides directory p n) (two : Provides other p n)
    (apart : .name n ∉ directory.normalComponents) (apart' : .name n ∉ other.normalComponents) :
    directory.normalComponents = other.normalComponents := by
  obtain ⟨first, rest, whole, is⟩ := one.exists_cons
  obtain ⟨first', rest', whole', is'⟩ := two.exists_cons
  rw [whole] at whole'
  rcases List.append_eq_append_iff.mp whole' with ⟨between, longer, tail⟩ | ⟨between, longer, tail⟩
  · rcases between with _ | ⟨c, between⟩
    · rw [longer, List.append_nil]
    · obtain ⟨rfl, rfl⟩ := List.cons.inj tail
      exact absurd (by rw [longer, is (by simp)]; simp) apart'
  · rcases between with _ | ⟨c, between⟩
    · rw [longer, List.append_nil]
    · obtain ⟨rfl, rfl⟩ := List.cons.inj tail
      exact absurd (by rw [longer, is' (by simp)]; simp) apart

/-! ## Steps up -/

theorem exists_dropStepsUp (cs : List Char) :
    ∃ k, cs = (Path.stepsUp k).toList ++ dropStepsUp cs ∧ ¬ ['.', '.', '/'] <+: dropStepsUp cs := by
  fun_induction dropStepsUp cs with
  | case1 cs ih =>
    obtain ⟨k, split, front⟩ := ih
    refine ⟨k + 1, ?_, front⟩
    rw [Path.toList_stepsUp_succ, List.cons_append, List.cons_append, List.cons_append, ← split]
  | case2 cs other =>
    refine ⟨0, rfl, fun ⟨rest, same⟩ => other rest same.symm⟩

/-- Steps up at the front do not count, however many there are. -/
theorem dropStepsUp_stepsUp (k : Nat) {cs : List Char} (front : ¬ ['.', '.', '/'] <+: cs) :
    dropStepsUp ((Path.stepsUp k).toList ++ cs) = cs := by
  induction k with
  | zero =>
    show dropStepsUp cs = cs
    unfold dropStepsUp
    split
    · exact absurd ⟨_, rfl⟩ front
    · rfl
  | succ k ih =>
    rw [Path.toList_stepsUp_succ, List.cons_append, List.cons_append, List.cons_append, dropStepsUp, ih]

/-- **Which names an older list gives.** -/
theorem importNameOfFile?_dropStepsUp (is : IsImportName n) (line : String) :
    importNameOfFile? (String.ofList (dropStepsUp line.toList)) = some n ↔
      ∃ k file, line = Path.stepsUp k ++ file ∧ ¬ ['.', '.', '/'] <+: file.toList ∧ Heads n (trimmed file) := by
  rw [importNameOfFile?_eq_some_iff is]
  constructor
  · intro heads
    obtain ⟨k, split, front⟩ := exists_dropStepsUp line.toList
    refine ⟨k, _, ?_, by rwa [String.toList_ofList], heads⟩
    rw [← String.toList_inj, String.toList_append, String.toList_ofList, ← split]
  · rintro ⟨k, file, rfl, front, heads⟩
    rwa [String.toList_append, dropStepsUp_stepsUp k front, String.ofList_toList]

/-- A listed file behind steps up belongs to its name in the directory that these lead to. -/
theorem Heads.provides_stepsUp (heads : Heads n file) (is : IsImportName n) (stays : Path.StaysInFirst ⟨file⟩)
    (k : Nat) :
    Provides (directory.push (Path.stepsUp k)) (directory.push (Path.stepsUp k ++ file)) n :=
  heads.provides is stays (Path.stack_push_stepsUp (heads.steps is).1 k)

/-- Steps up from an entry of a directory lead to no other name. -/
theorem name_notMem_stepsUp (isName : IsFileName entry) (other : entry ≠ n) (apart : .name n ∉ root.normalComponents)
    (k : Nat) : .name n ∉ ((root.push entry).push (Path.stepsUp k)).normalComponents := by
  rw [Path.normalComponents_eq, List.mem_reverse] at apart ⊢
  rw [Path.stack_stepsUp, Path.stack_push root isName]
  intro mem
  rcases Path.mem_of_mem_climb_ups k mem with up | mem
  · cases up
  · rcases List.mem_cons.mp mem with same | mem
    · exact other (Path.Component.name.inj same).symm
    · exact apart mem

/-! ## What a distribution claims -/

theorem suffix_of_endsWith {ending : String} (ends : entry.endsWith ending = true) :
    ending.toList <:+ entry.toList := by
  rw [← String.endsWith_toSlice, String.Slice.endsWith_string_iff, String.copy_toSlice] at ends
  exact ends

/-- The name of a metadata directory has a dot, so it is no import name. -/
theorem ne_of_endsWith {ending : String} (ends : entry.endsWith ending = true) (dot : '.' ∈ ending.toList)
    (is : IsImportName n) : entry ≠ n := by
  rintro rfl
  exact is.dot_notMem ((suffix_of_endsWith ends).subset dot)

/-- What is claimed by the headers of an entry. -/
theorem importNames_of_ofHeaders {text : String} {names : List String}
    (is : Entry.ofHeaders text names = .distribution d) : d.importNames = importable names := by
  unfold Entry.ofHeaders at is
  split at is
  · cases is
    rfl
  · cases is

theorem importNames_of_distInfo (isDirectory : fs.isDirectory (root.push entry) = true)
    (ends : entry.endsWith ".dist-info" = true) (is : ofEntry fs root entry = .distribution d) :
    d.importNames = importable (recordedNames fs (root.push entry)) := by
  simp only [ofEntry, ends, isDirectory, Bool.and_self, if_true] at is
  unfold ofDistInfo at is
  split at is
  · cases is
  · exact importNames_of_ofHeaders is

theorem importNames_of_eggInfo (isDirectory : fs.isDirectory (root.push entry) = true)
    (ends : entry.endsWith ".egg-info" = true) (is : ofEntry fs root entry = .distribution d) :
    d.importNames = importable (listedNames fs (root.push entry)) := by
  have other : entry.endsWith ".dist-info" = false := by
    refine Bool.eq_false_iff.mpr fun both => ?_
    have older : ".egg-info".toList <:+ entry.toList := suffix_of_endsWith ends
    have newer : ".dist-info".toList <:+ entry.toList := suffix_of_endsWith both
    have inside := List.suffix_of_suffix_length_le older newer (by decide)
    exact absurd inside (by decide)
  simp only [ofEntry, other, ends, Bool.false_and, Bool.false_eq_true, if_true, if_false] at is
  unfold ofEggInfo at is
  simp only [isDirectory, if_true] at is
  split at is
  · cases is
  · exact importNames_of_ofHeaders is

/-- **A distribution has the import names of recorded files,** whose paths start in the site directory. -/
structure IsRecorded (d : Distribution) (root : Path) (lines : List String) : Prop where
  names : ∀ n, n ∈ d.importNames ↔ IsImportName n ∧ ∃ line ∈ lines, Heads n (trimmed (firstField line))
  /-- A file that gives a name belongs to it in the site directory. -/
  inside : ∀ n, IsImportName n → ∀ line ∈ lines, ∀ file, file = trimmed (firstField line) → Heads n file →
    Path.StaysInFirst ⟨file⟩ → Provides root (root.push file) n

/-- **A distribution has the import names of files in an older list,** whose paths start in the metadata directory. -/
structure IsInstalled (d : Distribution) (root directory : Path) (lines : List String) : Prop where
  names : ∀ n, n ∈ d.importNames ↔ IsImportName n ∧ ∃ line ∈ lines, ∃ k file,
    line = Path.stepsUp k ++ file ∧ ¬ ['.', '.', '/'] <+: file.toList ∧ Heads n (trimmed file)
  /-- A file that gives a name belongs to it in the directory to which the steps up lead. -/
  above : ∀ n, IsImportName n → ∀ line ∈ lines, ∀ k file, line = Path.stepsUp k ++ file → Heads n file →
    Path.StaysInFirst ⟨file⟩ → Provides (directory.push (Path.stepsUp k)) (directory.push line) n
  /-- One step up leads to the site directory. -/
  inside : ∀ n, IsImportName n → ∀ line ∈ lines, ∀ file, line = Path.stepsUp 1 ++ file → Heads n file →
    Path.StaysInFirst ⟨file⟩ → Provides root (directory.push line) n
  /-- A file belongs to its name in the site directory only if the steps up lead there. -/
  outside : ∀ n, IsImportName n → ∀ line ∈ lines, ∀ k file, line = Path.stepsUp k ++ file → Heads n file →
    Path.StaysInFirst ⟨file⟩ → .name n ∉ root.normalComponents → Provides root (directory.push line) n →
      (directory.push (Path.stepsUp k)).normalComponents = root.normalComponents

/-- What belongs to a name in one directory belongs to it in another one at the same place. -/
theorem Provides.congr {other : Path} (provides : Provides directory p n)
    (same : directory.normalComponents = other.normalComponents) : Provides other p n := by
  unfold Provides at provides ⊢
  rwa [← same]

/-- **The import names of a distribution that does not list them** are names that can be imported, and they stand at the
front of its listed files.

The path of a recorded file belongs to its name in the site directory, as long as it stays in its first component, so
one that leads out of the site directory at its front gives no name. The path of a file in an older list belongs to
its name in the directory to which the steps up at its front lead from the metadata directory. This is the site
directory if there is one of them, and it belongs to its name there only if the steps up lead there, unless the site
directory has a component of this name itself. -/
theorem importNames_listed (isName : IsFileName entry) (isDirectory : fs.isDirectory (root.push entry) = true)
    (unlisted : listedLines? fs ((root.push entry).push "top_level.txt") = none)
    (is : ofEntry fs root entry = .distribution d) :
    (entry.endsWith ".dist-info" = true → ∀ lines,
      listedLines? fs ((root.push entry).push "RECORD") = some lines → d.IsRecorded root lines) ∧
    (entry.endsWith ".egg-info" = true → ∀ lines,
      listedLines? fs ((root.push entry).push "installed-files.txt") = some lines →
        d.IsInstalled root (root.push entry) lines) := by
  constructor
  · refine fun ends lines record => ⟨fun n => ?_, fun n isImport line _ file _ heads stays => ?_⟩
    · have names := importNames_of_distInfo isDirectory ends is
      unfold recordedNames at names
      simp only [unlisted, record] at names
      rw [names, mem_importable]
      refine and_congr_right fun isImport => ?_
      rw [List.mem_filterMap]
      exact exists_congr fun line => and_congr_right fun _ => importNameOfFile?_eq_some_iff isImport
    · exact heads.provides isImport stays (Path.stack_join root (heads.steps isImport).1)
  · intro ends lines installed
    have above : ∀ n, IsImportName n → ∀ line ∈ lines, ∀ k file, line = Path.stepsUp k ++ file → Heads n file →
        Path.StaysInFirst ⟨file⟩ →
        Provides ((root.push entry).push (Path.stepsUp k)) ((root.push entry).push line) n := by
      rintro n isImport line - k file rfl heads stays
      exact heads.provides_stepsUp isImport stays k
    refine ⟨fun n => ?_, above, fun n isImport line mem file split heads stays => ?_,
      fun n isImport line mem k file split heads stays apart inside => ?_⟩
    · have names := importNames_of_eggInfo isDirectory ends is
      unfold listedNames at names
      simp only [unlisted, installed, Option.getD_some] at names
      rw [names, mem_importable]
      refine and_congr_right fun isImport => ?_
      rw [List.mem_filterMap]
      exact exists_congr fun line => and_congr_right fun _ => importNameOfFile?_dropStepsUp isImport line
    · exact (above n isImport line mem 1 file split heads stays).congr (Path.normalComponents_one_up root isName)
    · have other := ne_of_endsWith ends (by decide) isImport
      exact (above n isImport line mem k file split heads stays).directory_eq inside
        (name_notMem_stepsUp isName other apart k) apart

/-! ## A program outside the site directory -/

/-- A distribution with a program beside the site directory. -/
def oldTool : FileSystem where
  entries := [("lib", .directory [("site", .directory [("old.egg-info", .directory [
    ("PKG-INFO", .file "Name: old\n".toUTF8 false),
    ("installed-files.txt", .file "../olda/__init__.py\n../../../bin/tool\n".toUTF8 false)])])])]

/-- What is known about it. -/
def oldDistribution : Distribution := ⟨"old", none, ["olda", "bin"]⟩

/-- The lines of its list. -/
def oldLines : List String := ["../olda/__init__.py", "../../../bin/tool"]

theorem importNames_listed_oldTool :
    let root : Path := ⟨"/lib/site"⟩
    let directory := root.push "old.egg-info"
    (IsFileName "old.egg-info" ∧ oldTool.isDirectory directory = true ∧
      listedLines? oldTool (directory.push "top_level.txt") = none ∧
      ofEntry oldTool root "old.egg-info" = .distribution oldDistribution ∧
      listedLines? oldTool (directory.push "installed-files.txt") = some oldLines) ∧
    oldDistribution.IsInstalled root directory oldLines ∧
    Provides root (directory.push "../olda/__init__.py") "olda" := by
  intro root directory
  have isName : IsFileName "old.egg-info" := by decide
  obtain ⟨isDirectory, unlisted, is, installed⟩ : oldTool.isDirectory directory = true ∧
      listedLines? oldTool (directory.push "top_level.txt") = none ∧
      ofEntry oldTool root "old.egg-info" = .distribution oldDistribution ∧
      listedLines? oldTool (directory.push "installed-files.txt") = some oldLines := by decide +kernel
  have known := (importNames_listed isName isDirectory unlisted is).2 (by decide +kernel) _ installed
  refine ⟨⟨isName, isDirectory, unlisted, is, installed⟩, known, ?_⟩
  exact known.inside "olda" ⟨by decide, by decide⟩ _ List.mem_cons_self "olda/__init__.py" (by decide)
    (.inl ⟨"__init__.py".toList, by decide⟩) (by decide)

/-- **A program outside the site directory gives an import name.** -/
theorem oldTool_outside :
    ofEntry oldTool ⟨"/lib/site"⟩ "old.egg-info" = .distribution oldDistribution ∧
    listedLines? oldTool ⟨"/lib/site/old.egg-info/installed-files.txt"⟩ = some oldLines ∧
    "bin" ∈ oldDistribution.importNames ∧
    ∀ line ∈ oldLines, ¬ Provides ⟨"/lib/site"⟩ (Path.push ⟨"/lib/site/old.egg-info"⟩ line) "bin" := by
  obtain ⟨is, installed⟩ : ofEntry oldTool ⟨"/lib/site"⟩ "old.egg-info" = .distribution oldDistribution ∧
    listedLines? oldTool ⟨"/lib/site/old.egg-info/installed-files.txt"⟩ = some oldLines := by decide +kernel
  refine ⟨is, installed, by decide, fun line mem provides => ?_⟩
  obtain ⟨first, rest, whole, only⟩ := provides.exists_cons
  have root : Path.normalComponents ⟨"/lib/site"⟩ = [.root, .name "lib", .name "site"] := by decide
  rw [root] at whole
  rcases List.mem_pair.mp mem with rfl | rfl
  · have inside : (Path.push ⟨"/lib/site/old.egg-info"⟩ "../olda/__init__.py").normalComponents =
        [.root, .name "lib", .name "site", .name "olda", .name "__init__.py"] := by decide
    simp only [inside, List.cons_append, List.nil_append, List.cons.injEq, true_and] at whole
    obtain ⟨rfl, rfl⟩ := whole
    exact absurd (only (List.cons_ne_nil _ _)) (by decide)
  · have outside : (Path.push ⟨"/lib/site/old.egg-info"⟩ "../../../bin/tool").normalComponents =
        [.root, .name "bin", .name "tool"] := by decide
    simp [outside] at whole

end Distribution

end PyBundle
