import PyBundle.Bundle.Emit
import PyBundle.Proofs.FileSystem.Removal
import PyBundle.Proofs.Program.Step

/-!
# The directory of a bundle, made anew

A reset removes what stands at the directory of the bundle and makes the directory. Whether or not it comes to
its end, all that the directory does not name stays, and if it does, the directory holds nothing.
-/

namespace PyBundle

open FileSystem (LeadsToEmpty)

namespace FileSystem

variable {fs fs' : FileSystem} {p q : Path}

theorem IsSettled.within (settled : fs.IsSettled p) (more : fs.Within fs') : fs'.IsSettled p := by
  refine settled.imp_right ?_
  rintro ⟨q, parent, directory⟩
  exact ⟨q, parent, more.isDirectory directory⟩

/-- **A directory is made anew:** what was there is removed, and then the directory is made. -/
def Renews (fs : FileSystem) (p : Path) (fs' : FileSystem) : Prop :=
  ∃ left, fs.clear p = (left, .ok ()) ∧ left.makeDirectories p = (fs', .ok ())

theorem Renews.isDirectory (renews : fs.Renews p fs') (written : p.isEmpty = false) : fs'.isDirectory p = true := by
  obtain ⟨left, -, made⟩ := renews
  exact isDirectory_of_makeDirectories written made

/-- **A directory that is made anew holds nothing,** if its path is settled. It is the root, or it is new to what
was left. -/
theorem Renews.leadsToEmpty (renews : fs.Renews p fs') (written : p.isEmpty = false)
    (settled : (fs.without p).IsSettled p) : ∃ place, fs'.LeadsToEmpty p place := by
  obtain ⟨left, removed, made⟩ := renews
  have spec := fs.clear_spec p
  rw [removed] at spec
  obtain ⟨cleared, gone⟩ := spec
  rcases gone rfl with new | root
  · obtain ⟨place, empty, -⟩ := makeDirectories_fresh written new (settled.within cleared.kept) made
    exact ⟨place, empty⟩
  · obtain ⟨there, empty⟩ := root
    have same := makeDirectories_of_isDirectory there
    cases same.symm.trans made
    exact ⟨[], empty⟩

/-- **What a directory that is made anew does not take away:** all that its path does not name. -/
theorem Renews.within (renews : fs.Renews p fs') : (fs.without p).Within fs' := by
  obtain ⟨left, removed, made⟩ := renews
  have cleared : fs.Cleared p (fs.clear p).1 := (fs.clear_spec p).1
  have more := within_makeDirectories left p
  rw [removed] at cleared
  rw [made] at more
  exact cleared.kept.trans more

end FileSystem

namespace Bundle

variable {b : Bundle} {s t : Session} {u : Unit}

/-- **A reset removes what is there and makes the directory.** -/
theorem outcome_reset (b : Bundle) (s : Session) : b.reset.outcome s =
    (Step.change (.failed .remove b.directory) (·.clear b.directory) >>= fun _ =>
      create b.directory).outcome s := by
  unfold reset
  rw [Step.outcome_bind, Step.outcome_files, Step.outcome_bind, Step.outcome_change]
  unfold FileSystem.clear
  dsimp only
  split
  · rw [Step.outcome_bind, Step.outcome_change]
  · split
    · rw [Step.outcome_bind, Step.outcome_change]
    · rfl

/-- A reset that comes to its end has made the directory anew. -/
theorem runs_reset (run : b.reset.Runs s u t) : s.files.Renews b.directory t.files := by
  unfold Step.Runs at run
  rw [outcome_reset] at run
  obtain ⟨_, m, cleared, created⟩ := Step.runs_bind.mp run
  obtain ⟨left, removed, rfl⟩ := Step.runs_change.mp cleared
  obtain ⟨files, made, rfl⟩ := Step.runs_change.mp created
  exact ⟨left, removed, made⟩

/-- **What holds of all that a removal may leave, and stays when the directory is made, holds after a reset,** however
it ends. -/
theorem reset_keeps_of {I : FileSystem → Prop} (made : ∀ fs, I fs → I (fs.makeDirectories b.directory).1)
    (left : ∀ fs, s.files.Cleared b.directory fs → I fs) : I (b.reset.outcome s).2.files := by
  have cleared := left _ (s.files.clear_spec b.directory).1
  rw [outcome_reset, Step.outcome_bind, Step.outcome_change]
  rcases removed : s.files.clear b.directory with ⟨fs, fault | u⟩
  · rw [removed] at cleared
    exact cleared
  · rw [removed] at cleared
    show I ((create b.directory).outcome _).2.files
    unfold create
    rw [Step.outcome_change]
    exact made fs cleared

/-- So it is with what stays with each directory that is made. -/
theorem reset_keeps {I : FileSystem → Prop} (kept : FileSystem.KeptByDirectories I)
    (left : ∀ fs, s.files.Cleared b.directory fs → I fs) : I (b.reset.outcome s).2.files :=
  reset_keeps_of (fun _ before => kept.makeDirectories before b.directory) left

/-- A reset keeps all that the directory does not name, however it ends. -/
theorem within_reset (b : Bundle) (s : Session) :
    (s.files.without b.directory).Within (b.reset.outcome s).2.files :=
  reset_keeps (FileSystem.keptByDirectories_within _) fun _ cleared => cleared.kept

/-- **A reset on a file system without links,** of a directory whose path does not climb: the directory holds
nothing, what is on the way to it are directories, and nothing else changes. -/
theorem kind?_of_reset (plain : s.files.Plain) (written : b.directory.isEmpty = false)
    (level : .up ∉ b.directory.steps) (run : b.reset.Runs s u t) :
    t.files.LeadsToEmpty b.directory (s.files.named b.directory) ∧
      ∀ q, ¬ s.files.named b.directory <+: q →
        t.files.kind? q = if q <+: s.files.named b.directory then some .directory else s.files.kind? q := by
  obtain ⟨left, removed, made⟩ := runs_reset run
  have spec := s.files.clear_spec b.directory
  rw [removed] at spec
  obtain ⟨cleared, -⟩ := spec
  have plainLeft : left.Plain := plain.of_within cleared.old
  have plainMade : t.files.Plain := by
    have kept := FileSystem.plain_keptByDirectories.makeDirectories plainLeft b.directory
    rwa [made] at kept
  have workPlace : t.files.workPlace = s.files.workPlace := by
    have more := FileSystem.within_makeDirectories left b.directory
    rw [made] at more
    exact more.workPlace.trans cleared.old.workPlace.symm
  constructor
  · obtain ⟨place, empty⟩ := (runs_reset run).leadsToEmpty written (.inl level)
    have same := plainMade.place_eq (FileSystem.leads_of_place empty.found)
    rw [FileSystem.named_congr workPlace] at same
    cases same
    exact empty
  · intro q outside
    have apart : left.kind? q = s.files.kind? q := by
      refine cleared.apart fun place names => ?_
      rwa [plain.names_eq names]
    rw [plainLeft.kind?_makeDirectories written level made, apart,
      FileSystem.named_congr cleared.old.workPlace.symm]

end Bundle

end PyBundle
