import PyBundle.Proofs.Collect.Closure
import PyBundle.Proofs.FileSystem.Paths

/-!
# Walks over more files

A walk reads the modules that it reaches and asks for the files that their imports may load. Where more files are
there, but none that it asks for, the walk is the same.
-/

namespace PyBundle

namespace FileSystem

variable {fs fs' : FileSystem} {p : Path}

theorem Within.isFile (more : fs.Within fs') (file : fs.isFile p = true) : fs'.isFile p = true := by
  obtain ⟨place, content, executable, led, entry⟩ := isFile_iff.mp file
  refine isFile_iff.mpr ⟨place, content, executable, ?_, ?_⟩
  · exact place_eq_ok.mp (more.place_eq (place_eq_ok.mpr led))
  · exact kind?_eq_file.mp (more.kind (kind?_eq_file.mpr entry))

/-- A file reads the same among more entries. -/
theorem Within.readText_eq (more : fs.Within fs') (file : fs.isFile p = true) : fs'.readText p = fs.readText p := by
  obtain ⟨place, content, executable, led, entry⟩ := isFile_iff.mp file
  have before : fs.read p = .ok content :=
    read_eq_ok.mpr ⟨place, executable, place_eq_ok.mpr led, kind?_eq_file.mpr entry⟩
  unfold readText
  rw [before, more.read_eq before]

end FileSystem

theorem LocalModule.locate_congr {fs fs' : FileSystem} {roots : List Path} {name : String}
    (same : ∀ root ∈ roots, ∀ isPackage,
      fs'.isFile (below root name isPackage).absolutePath = fs.isFile (below root name isPackage).absolutePath) :
    locate fs' roots name = locate fs roots name := by
  have each : ∀ root ∈ roots, ∀ isPackage, locateAt fs' root name isPackage = locateAt fs root name isPackage := by
    intro root mem isPackage
    have file := same root mem isPackage
    unfold below at file
    unfold locateAt
    dsimp only at file ⊢
    rw [file]
  unfold locate
  split
  · rfl
  · clear same
    induction roots with
    | nil => rw [List.findSome?_nil, List.findSome?_nil]
    | cons root roots ih =>
      obtain ⟨first, others⟩ := List.forall_mem_cons.mp each
      rw [List.findSome?_cons, List.findSome?_cons, ih others]
      simp only [List.findSome?_cons, List.findSome?_nil, first]

namespace Sources

variable {s : Sources} {entry : Path} {m : LocalModule} {files : FileSystem}

/-- **The same sources over other files.** -/
def withFiles (s : Sources) (files : FileSystem) : Sources := { s with files }

/-- **Other files have nothing new for a walk:** of the files that the imports of the modules that it reaches may
load, they have only those that are there already. -/
def NothingNew (s : Sources) (entry : Path) (files : FileSystem) : Prop :=
  ∀ m, s.Reachable entry m → ∀ l a name, s.HasLine m l → l.absolute? m = some a → name ∈ a.candidates →
    ∀ root ∈ s.roots, ∀ isPackage, files.isFile (LocalModule.below root name isPackage).absolutePath = true →
      s.files.isFile (LocalModule.below root name isPackage).absolutePath = true

/-- A module that is reached from a file is a file. -/
theorem Reachable.isFile (script : s.files.isFile entry = true) (reach : s.Reachable entry m) :
    s.files.isFile m.absolutePath = true := by
  rcases reach.eq_entry_or_located with rfl | ⟨-, located⟩
  · exact script
  · obtain ⟨-, -, root, -, -, -, isPackage, held, -, is⟩ := LocalModule.locate_eq_some.mp located
    rw [is]
    exact held

theorem linesOf_over (more : s.files.Within files) (file : s.files.isFile m.absolutePath = true) :
    (s.withFiles files).linesOf m = s.linesOf m := by
  unfold linesOf
  rw [show (s.withFiles files).files = files from rfl, more.readText_eq file]
  rfl

theorem targets_over (more : s.files.Within files) (nothing : s.NothingNew entry files)
    (reach : s.Reachable entry m) {l a : ImportLine} (line : s.HasLine m l) (absolute : l.absolute? m = some a) :
    (s.withFiles files).targets a = s.targets a := by
  unfold targets
  refine List.filterMap_congr fun name candidate => LocalModule.locate_congr fun root mem isPackage => ?_
  rw [Bool.eq_iff_iff]
  exact ⟨nothing m reach l a name line absolute candidate root mem isPackage, more.isFile⟩

/-- Items are taken in the same way. -/
theorem forM_congr {α : Type} {f g : α → Search Unit} {as : List α} (same : ∀ a ∈ as, f a = g a) :
    as.forM f = as.forM g := by
  induction as with
  | nil => rfl
  | cons a as ih =>
    obtain ⟨first, others⟩ := List.forall_mem_cons.mp same
    show (f a >>= fun _ => as.forM f) = (g a >>= fun _ => as.forM g)
    rw [first, ih others]

/-- What follows an answer matters only where there is one. -/
theorem answered_congr {α β : Type} {answer : Except CollectError α} {f g : α → Search β}
    (same : ∀ a, answer = .ok a → f a = g a) :
    (ExceptT.mk (pure answer) >>= f : Search β) = ExceptT.mk (pure answer) >>= g := by
  cases answer with
  | error e => rfl
  | ok a => exact same a rfl

theorem visitLine_over {discover discover' : LocalModule → Search Unit} (more : s.files.Within files)
    (nothing : s.NothingNew entry files) (reach : s.Reachable entry m) {l : ImportLine} (line : s.HasLine m l)
    (same : ∀ t, s.Reachable entry t → discover' t = discover t) :
    (s.withFiles files).visitLine discover' m l = s.visitLine discover m l := by
  unfold visitLine
  cases absolute : l.absolute? m with
  | none => rfl
  | some a =>
    dsimp only
    rw [targets_over more nothing reach line absolute]
    cases targets : s.targets a with
    | nil => rfl
    | cons first others =>
      have visited :
          (first :: others).forM (visitTarget discover') = (first :: others).forM (visitTarget discover) := by
        refine forM_congr fun t mem => ?_
        unfold visitTarget
        rw [same t (reach.tail (.of_mem_targets line absolute (targets ▸ mem)))]
      dsimp only
      rw [visited]

/-- **A module is discovered in the same way** over files that have nothing new. -/
theorem discover_over (more : s.files.Within files) (script : s.files.isFile entry = true)
    (nothing : s.NothingNew entry files) (fuel : Nat) (reach : s.Reachable entry m) :
    (s.withFiles files).discover fuel m = s.discover fuel m := by
  induction fuel generalizing m with
  | zero => rw [discover, discover]
  | succ fuel ih =>
    rw [discover, discover, linesOf_over more (reach.isFile script)]
    refine congrArg _ (funext fun _ => answered_congr fun lines read => forM_congr fun l mem => ?_)
    exact visitLine_over more nothing reach ⟨lines, read, mem⟩ fun t => ih

/-- **A walk is the same over files that have nothing new for it.** -/
theorem collect_over (more : s.files.Within files) (script : s.files.isFile entry = true)
    (nothing : s.NothingNew entry files) (limit : Nat) :
    (s.withFiles files).collect entry limit = s.collect entry limit := by
  have same := discover_over more script nothing limit .refl
  unfold collect
  extract_lets m walk walk'
  have walks : walk = walk' := by
    unfold walk walk' m
    rw [same]
  rw [walks]

end Sources

end PyBundle
