import PyBundle.Bundle.Emit
import PyBundle.Proofs.FileSystem.Files
import PyBundle.Proofs.Program.Step

/-!
# What stays while a bundle is written

All that is copied into a bundle is written through paths that go on from its directory. So a property of the file
system stays with whole copies, however they end, if it stays with each directory that is made and each file that is
copied through such a path (`KeptBelow`).
-/

namespace PyBundle

namespace FileSystem

/-- Nothing is copied to the empty path. -/
theorem isEmpty_of_copy {fs fs' : FileSystem} {source target : Path} (copied : fs.copy source target = .ok fs') :
    target.isEmpty = false := by
  unfold copy at copied
  split at copied
  · cases copied
  · split at copied
    · split at copied
      · cases copied
      · rename_i writes
        unfold writable at writes
        split at writes
        · cases writes
        · exact written_of_resolve_dropSlashes ‹_›
        · exact written_of_resolve_dropSlashes ‹_›
    · cases copied

end FileSystem

namespace Bundle

open FileSystem (KeptByDirectories)

variable {b : Bundle} {I : FileSystem → Prop} {names front : List String} {q destination : Path}

theorem keeps_create (kept : KeptByDirectories I) (p : Path) : Step.Keeps I (create p) fun _ => True :=
  Step.keeps_change fun _ before => kept.makeDirectories before p

/-- The directory that a path is in is made, if the path of that says something. -/
theorem keeps_createParent_of {p : Path} (each : ∀ parent, p.parent? = some parent → parent.isEmpty = false →
    Step.Keeps I (create parent) fun _ => True) : Step.Keeps I (createParent p) fun _ => True := by
  unfold createParent
  split
  · rename_i parent isParent
    cases empty : parent.isEmpty with
    | false => exact each parent isParent empty
    | true =>
      refine Step.keeps_change fun fs before => ?_
      rwa [FileSystem.makeDirectories_of_isEmpty empty]
  · exact Step.keeps_pure ⟨⟩

theorem keeps_createParent (kept : KeptByDirectories I) (p : Path) :
    Step.Keeps I (createParent p) fun _ => True := keeps_createParent_of fun parent _ _ => keeps_create kept parent

/-- A copy of a file keeps what it keeps where it comes to its end. -/
theorem keeps_copyFile {source target : Path}
    (kept : ∀ fs fs', I fs → fs.copy source target = .ok fs' → I fs') :
    Step.Keeps I (copyFile source target) fun _ => True := by
  refine Step.keeps_change fun fs before => ?_
  cases copied : fs.copy source target with
  | error fault => exact before
  | ok fs' => exact kept fs fs' before copied

/-- **A property stays with all that is written through paths that go on from the directory of a bundle.** -/
structure KeptBelow (b : Bundle) (I : FileSystem → Prop) : Prop where
  create : ∀ {names q}, b.directory.GoesOn names q → Step.Keeps I (create q) fun _ => True
  createParent : ∀ {names q}, b.directory.GoesOn names q → Step.Keeps I (createParent q) fun _ => True
  copyFile : ∀ {names q}, b.directory.GoesOn names q → ∀ source, Step.Keeps I (copyFile source q) fun _ => True

namespace KeptBelow

/-- Two properties that stay, stay together. -/
theorem and {J : FileSystem → Prop} (kept : KeptBelow b I) (kept' : KeptBelow b J) :
    KeptBelow b fun fs => I fs ∧ J fs where
  create onward := (kept.create onward).and (kept'.create onward)
  createParent onward := (kept.createParent onward).and (kept'.createParent onward)
  copyFile onward source := (kept.copyFile onward source).and (kept'.copyFile onward source)

variable (kept : KeptBelow b I)

include kept

/-- **It stays when a module is copied** whose relative path has names alone. -/
theorem copyModule {m : LocalModule} (plain : ∀ c ∈ m.relativePath.components, ∃ name, c = .name name) :
    Step.Keeps I (b.copyModule m) fun _ => True := by
  obtain ⟨relative, names, steps⟩ := Path.exists_names plain
  unfold Bundle.copyModule
  cases empty : (b.directory.join m.relativePath).isEmpty with
  | false =>
    have onward := Path.goesOn_join_of_written empty relative steps
    exact (kept.createParent onward).bind fun _ _ => (kept.copyFile onward _).bind fun _ _ => Step.keeps_note
  | true =>
    have nothing : b.directory.join m.relativePath = ⟨""⟩ := congrArg Path.mk (eq_of_beq empty)
    rw [nothing]
    have parent : Step.Keeps I (Bundle.createParent ⟨""⟩) fun _ => True := Step.keeps_pure ⟨⟩
    have nowhere : Step.Keeps I (Bundle.copyFile m.absolutePath ⟨""⟩) fun _ => True :=
      keeps_copyFile fun fs fs' _ copied => by cases FileSystem.isEmpty_of_copy copied
    exact parent.bind fun _ _ => nowhere.bind fun _ _ => Step.keeps_note

variable (proper : ∀ {fs}, I fs → fs.Proper)

include proper

/-- **It stays when an entry is copied** with all below it, if it says that entries have file names. -/
theorem copyEntry (onward : b.directory.GoesOn front destination) (fuel : Nat) (ancestors : List Path) (source : Path)
    (names : List String) (isNames : ∀ name ∈ names, IsFileName name) (n : Node) :
    Step.Keeps I (b.copyEntry destination fuel ancestors source (.ofNames names) n) fun _ => True := by
  induction fuel generalizing ancestors source names n with
  | zero => exact Step.keeps_throw
  | succ fuel ih =>
    have target : b.directory.GoesOn (front ++ names) (destination.join (.ofNames names)) :=
      onward.trans (Path.goesOn_join_ofNames onward.written isNames)
    unfold Bundle.copyEntry
    refine Step.keeps_files.bind fun fs before => Step.keeps_demand.bind fun isDirectory _ => ?_
    split
    · exact Step.keeps_pure ⟨⟩
    · dsimp only
      split
      · refine (kept.create target).bind fun _ _ => Step.keeps_files.bind fun fs before => ?_
        refine Step.keeps_demand.bind fun entries listed => Step.keeps_forM fun name _ => ?_
        split
        · rename_i n entry
          have isName : IsFileName name := (proper before).isFileName listed entry
          rw [Path.push_ofNames isNames isName]
          exact ih _ _ _ (Path.forall_isFileName_concat isNames isName) n
        · exact Step.keeps_pure ⟨⟩
      · exact (kept.createParent target).bind fun _ _ => kept.copyFile target _

theorem copyTree (source : Path) (onward : b.directory.GoesOn names q) :
    Step.Keeps I (b.copyTree source q) fun _ => True := by
  unfold Bundle.copyTree
  refine Step.keeps_files.bind fun fs before => ?_
  split
  · exact Step.keeps_throw.bind (fun _ (impossible : False) => impossible.elim)
  · refine Step.keeps_demand.bind fun entry _ => ?_
    have whole := kept.copyEntry proper onward FileSystem.pathLimit [] source [] nofun entry.2
    exact whole.bind fun _ _ => Step.keeps_note

/-- **It stays when an additional directory is copied.** -/
theorem copyAdditional (p : Path) : Step.Keeps I (b.copyAdditional p) fun _ => True := by
  unfold Bundle.copyAdditional
  refine Step.keeps_files.bind fun fs before => ?_
  split
  · exact Step.keeps_note.bind fun _ _ => Step.keeps_pure ⟨⟩
  · refine Step.keeps_demand.bind fun source _ => ?_
    split
    · exact Step.keeps_note.bind fun _ _ => Step.keeps_pure ⟨⟩
    · rename_i name fileName
      have onward := b.directory.goesOn_push (isFileName_of_fileName? fileName)
      exact (kept.copyTree proper source onward).bind fun _ _ => Step.keeps_pure ⟨⟩

/-- **It stays while modules and additional directories are copied.** -/
theorem copies {modules : List LocalModule}
    (plain : ∀ m ∈ modules, ∀ c ∈ m.relativePath.components, ∃ name, c = .name name) (additional : List Path) :
    Step.Keeps I (modules.forM b.copyModule >>= fun _ => additional.filterMapM b.copyAdditional) fun _ => True := by
  have first : Step.Keeps I (modules.forM b.copyModule) fun _ => True :=
    Step.keeps_forM fun m mem => kept.copyModule (plain m mem)
  exact first.bind fun _ _ => Step.keeps_filterMapM fun p _ => kept.copyAdditional proper p

end KeptBelow

end Bundle

end PyBundle
