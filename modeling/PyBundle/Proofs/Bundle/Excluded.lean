import Mathlib.Data.List.Find
import PyBundle.Proofs.Bundle.Copies
import PyBundle.Proofs.Bundle.Reported
import PyBundle.Proofs.FileSystem.Twins
import PyBundle.Proofs.Program.Mirror

/-!
# Entries that are left out

A bundle is written the same with and without the entries of additional directories that are left out
(`emit_ignores_excluded`). The two runs are mirrored step by step on file systems of which one lacks the entries. What
has to be known is that nothing that is kept leads to one of them or through one (`KeepsOff`), and that nothing is
copied onto them (`LandsOff`), which is so in a directory that is new (`landsOff_of_bare`). Without links the first only
says that they are left out (`keepsOff_of_plain`). A link that is kept is followed, and then what is left out elsewhere
is copied where the link stands (`linked_shows`).

A walk looks at an entry before it asks whether the entry is left out, so a link that leads nowhere ends the run even if
it is left out. Of such runs nothing is said.
-/

namespace PyBundle

open FileSystem (Twins Lacks ClearsAlike)

/-- The path at which a walk stops. -/
def WalkFault.path : WalkFault → Path
  | unreadable path _ => path
  | loop link _ => link

namespace Bundle

variable {b : Bundle} {ground fs fs' : FileSystem} {gone : Place → Bool} {source destination p target : Path}
  {names : List String} {name : String} {n n' : Node} {ancestors additional : List Path} {modules : List LocalModule}
  {fuel : Nat} {Void : BundleError → Prop} {s s' : Session}

/-! ## Steps -/

/-- **A directory is made in both** runs, or in neither. -/
theorem mirrors_create (avoids : ground.Avoids gone p) :
    Step.Mirrors (Twins ground gone) Void (create p) (create p) :=
  Step.mirrors_change fun _ _ twins => twins.makeDirectories avoids

theorem mirrors_createParent (avoids : ground.Avoids gone p) :
    Step.Mirrors (Twins ground gone) Void (createParent p) (createParent p) := by
  unfold createParent
  split
  · rename_i parent isParent
    exact mirrors_create (avoids.parent isParent)
  · exact Step.mirrors_pure ()

theorem mirrors_copyFile (reads : ground.Avoids gone source) (writes : ground.Avoids gone target) :
    Step.Mirrors (Twins ground gone) Void (copyFile source target) (copyFile source target) := by
  refine Step.mirrors_change fun fs fs' twins => ?_
  rcases twins.copy_cases reads writes with ⟨f, failed, failed'⟩ | ⟨left, left', copied, copied', twins'⟩
  · rw [failed, failed']
    exact ⟨twins, rfl⟩
  · rw [copied, copied']
    exact ⟨twins', rfl⟩

theorem mirrors_copyModule {m : LocalModule} (reads : ground.Avoids gone m.absolutePath)
    (writes : ground.Avoids gone (b.directory.join m.relativePath)) :
    Step.Mirrors (Twins ground gone) Void (b.copyModule m) (b.copyModule m) :=
  (mirrors_createParent writes).bind fun _ => (mirrors_copyFile reads writes).bind fun _ => Step.mirrors_note _

/-! ## Entries -/

/-- **A walk has stopped at an entry that is left out,** in a directory that is kept. -/
def StopsAtExcluded (b : Bundle) (source : Path) (e : BundleError) : Prop :=
  ∃ names name reason, (∀ other ∈ names ++ [name], IsFileName other) ∧ b.Keeps [] names ∧
    b.excludes (.ofNames (names ++ [name])) = true ∧ e = .walk reason ∧
    reason.path = (names ++ [name]).foldl Path.push source

/-- What an entry leads to is not known because of its own path. -/
theorem path_of_leadsToDirectory {reason : WalkFault} (failed : leadsToDirectory fs ancestors p n = .error reason) :
    reason.path = p := by
  unfold leadsToDirectory at failed
  split at failed
  · cases failed
  · split at failed
    · cases failed
      rfl
    · split at failed
      · cases failed
      · split at failed
        · cases failed
          rfl
        · cases failed

/-- **An entry leads to a directory in both,** or not in either. -/
theorem leadsToDirectory_eq (twins : Twins ground gone fs fs') (avoids : ground.Avoids gone p)
    (around : ∀ a ∈ ancestors, ground.Avoids gone a) (kinds : n'.kind = n.kind) :
    leadsToDirectory fs' ancestors p n' = leadsToDirectory fs ancestors p n := by
  have link : n'.isLink = n.isLink := by cases n <;> cases n' <;> first | rfl | cases kinds
  have directory : n'.isDirectory = n.isDirectory := by cases n <;> cases n' <;> first | rfl | cases kinds
  have places : ∀ place, (ancestors.find? fun a => (fs'.place a).toOption == some place) =
      ancestors.find? fun a => (fs.place a).toOption == some place := fun place =>
    List.find?_congr fun a mem => by rw [twins.lacks.place_eq (around a mem) twins.guides]
  unfold leadsToDirectory
  rw [link, directory, twins.lacks.place_eq avoids twins.guides, twins.lacks.isDirectory_eq avoids twins.guides]
  simp only [places]

/-- **An entry that is left out is not copied.** Either nothing is done, or the walk stops there. -/
theorem isIdle_copyEntry (void : ∀ e, b.StopsAtExcluded source e → Void e)
    (isNames : ∀ other ∈ names ++ [name], IsFileName other) (kept : b.Keeps [] names)
    (leftOut : b.excludes (.ofNames (names ++ [name])) = true) :
    Step.IsIdle Void (b.copyEntry destination fuel ancestors ((names ++ [name]).foldl Path.push source)
      (.ofNames (names ++ [name])) n) := by
  intro s
  cases fuel with
  | zero => exact .inl ⟨_, rfl, void _ ⟨names, name, _, isNames, kept, leftOut, rfl, rfl⟩⟩
  | succ fuel =>
    unfold copyEntry
    rw [Step.outcome_files_bind]
    cases leads : leadsToDirectory s.files ancestors ((names ++ [name]).foldl Path.push source) n with
    | error reason =>
      have stops := path_of_leadsToDirectory leads
      exact .inl ⟨.walk reason, rfl, void _ ⟨names, name, reason, isNames, kept, leftOut, rfl, stops⟩⟩
    | ok isDirectory =>
      refine .inr ?_
      rw [Step.outcome_demand_bind rfl, if_pos ((leftOut_iff isNames).mpr ⟨List.concat_ne_nil _ _, leftOut⟩)]
      rfl

/-- What is behind something that is kept is kept, if it is not left out itself. -/
theorem keeps_concat (kept : b.Keeps [] names) (notLeftOut : b.excludes (.ofNames (names ++ [name])) = false) :
    b.Keeps [] (names ++ [name]) :=
  keeps_of_dropLast (by rwa [List.dropLast_concat]) fun _ => notLeftOut

/-- An entry of a directory is there in another one if the kinds at its place are the same. -/
theorem exists_lookup {place : Place} {entries entries' : Entries} (entry : fs.get? place = some (.directory entries))
    (entry' : fs'.get? place = some (.directory entries')) (child : entries.lookup name = some n)
    (same : fs'.kind? (place ++ [name]) = fs.kind? (place ++ [name])) :
    ∃ n', entries'.lookup name = some n' ∧ n'.kind = n.kind := by
  rw [FileSystem.kind?_of_lookup entry, FileSystem.kind?_of_lookup entry', child] at same
  obtain ⟨m, found, kinds⟩ := Option.map_eq_some_iff.mp (same.trans (Option.map_some ..))
  obtain ⟨n', child', here⟩ := Option.bind_eq_some_iff.mp found
  rw [Node.get?_nil] at here
  exact ⟨n', child', by rw [Option.some.inj here, kinds]⟩

/-- **What a copy of a directory keeps avoids what is gone:** the paths of the entries that are kept, and those that
they are copied to. -/
structure AvoidsKept (b : Bundle) (ground : FileSystem) (gone : Place → Bool) (source destination : Path) : Prop where
  reads : ∀ names, (∀ name ∈ names, IsFileName name) → b.Keeps [] names →
    ground.Avoids gone (names.foldl Path.push source)
  writes : ∀ names, (∀ name ∈ names, IsFileName name) → b.Keeps [] names →
    ground.Avoids gone (destination.join (.ofNames names))

/-- **What is gone in a directory that is kept is left out:** the path of an entry that is kept avoids what is gone. -/
theorem leftOut_of_gone {place : Place} (guides : ground.Guides fs)
    (avoids : b.AvoidsKept ground gone source destination) (isNames : ∀ other ∈ names ++ [name], IsFileName other)
    (kept : b.Keeps [] names) (found : fs.place (names.foldl Path.push source) = .ok place)
    (holds : fs.kind? place = some .directory) (isGone : gone (place ++ [name]) = true) :
    b.excludes (.ofNames (names ++ [name])) = true := by
  by_contra notLeftOut
  have reads := avoids.reads _ isNames (keeps_concat kept (Bool.eq_false_iff.mpr notLeftOut))
  rw [List.foldl_concat] at reads
  have stays := reads.of_push (isNames name (by simp)) guides found holds
  cases stays.not_gone.symm.trans isGone

/-- **The entries of a directory that is kept are copied alike in both runs,** if each of them is that is kept. An entry
is there in both, or it is gone, and then it is left out. -/
theorem mirrors_entries {place : Place} {entries entries' : Entries} (void : ∀ e, b.StopsAtExcluded source e → Void e)
    (avoids : b.AvoidsKept ground gone source destination) (isNames : ∀ name ∈ names, IsFileName name)
    (kept : b.Keeps [] names) (twins : Twins ground gone fs fs')
    (found : fs.place (names.foldl Path.push source) = .ok place) (spared : FileSystem.Spared gone place)
    (listed : fs.list (names.foldl Path.push source) = .ok entries) (entry : fs.get? place = some (.directory entries))
    (entry' : fs'.get? place = some (.directory entries'))
    (each : ∀ name n n', (∀ other ∈ names ++ [name], IsFileName other) → b.Keeps [] (names ++ [name]) →
      n'.kind = n.kind → Step.Mirrors (Twins ground gone) Void
        (b.copyEntry destination fuel ancestors ((names ++ [name]).foldl Path.push source)
          (.ofNames (names ++ [name])) n)
        (b.copyEntry destination fuel ancestors ((names ++ [name]).foldl Path.push source)
          (.ofNames (names ++ [name])) n')) :
    Step.Mirrors (Twins ground gone) Void
      ((Node.namesOf entries).forM fun name =>
        match entries.lookup name with
        | some n =>
          b.copyEntry destination fuel ancestors ((names.foldl Path.push source).push name)
            ((Path.ofNames names).push name) n
        | none => pure ())
      (((Node.namesOf entries).filter fun name => !gone (place ++ [name])).forM fun name =>
        match entries'.lookup name with
        | some n =>
          b.copyEntry destination fuel ancestors ((names.foldl Path.push source).push name)
            ((Path.ofNames names).push name) n
        | none => pure ()) := by
  have holds : fs.kind? place = some .directory := FileSystem.kind?_eq_directory.mpr ⟨entries, entry⟩
  have behind : ∀ name ∈ Node.namesOf entries, ∃ n, entries.lookup name = some n ∧ IsFileName name := by
    intro name mem
    obtain ⟨n, child⟩ := Option.isSome_iff_exists.mp (Node.mem_namesOf.mp mem)
    exact ⟨n, child, twins.proper.isFileName listed child⟩
  refine Step.mirrors_forM_filter (fun name mem present => ?_) fun name mem absent => ?_
  · obtain ⟨n, child, isName⟩ := behind name mem
    have isNames' := Path.forall_isFileName_concat isNames isName
    have stays : FileSystem.Spared gone (place ++ [name]) :=
      FileSystem.spared_concat.mpr ⟨spared, by simpa using present⟩
    obtain ⟨n', child', kinds⟩ := exists_lookup entry entry' child (twins.lacks.kept stays)
    rw [child, child']
    dsimp only
    rw [Path.push_ofNames isNames isName, ← List.foldl_concat Path.push source name names]
    cases leftOut : b.excludes (.ofNames (names ++ [name])) with
    | true => exact (isIdle_copyEntry void isNames' kept leftOut).mirrors (isIdle_copyEntry void isNames' kept leftOut)
    | false => exact each name n n' isNames' (keeps_concat kept leftOut) kinds
  · obtain ⟨n, child, isName⟩ := behind name mem
    have isNames' := Path.forall_isFileName_concat isNames isName
    rw [child]
    dsimp only
    rw [Path.push_ofNames isNames isName, ← List.foldl_concat Path.push source name names]
    exact isIdle_copyEntry void isNames' kept
      (leftOut_of_gone twins.guides avoids isNames' kept found holds (by simpa using absent))

/-- **An entry that is kept is copied alike in both runs.** The induction is on the fuel. -/
theorem mirrors_copyEntry (void : ∀ e, b.StopsAtExcluded source e → Void e)
    (avoids : b.AvoidsKept ground gone source destination) (isNames : ∀ name ∈ names, IsFileName name)
    (kept : b.Keeps [] names) (around : ∀ a ∈ ancestors, ground.Avoids gone a) (kinds : n'.kind = n.kind) :
    Step.Mirrors (Twins ground gone) Void
      (b.copyEntry destination fuel ancestors (names.foldl Path.push source) (.ofNames names) n)
      (b.copyEntry destination fuel ancestors (names.foldl Path.push source) (.ofNames names) n') := by
  induction fuel generalizing ancestors names n n' with
  | zero => exact Step.mirrors_throw _
  | succ fuel ih =>
    have reads := avoids.reads names isNames kept
    have writes := avoids.writes names isNames kept
    unfold copyEntry
    refine Step.mirrors_files_bind fun fs fs' twins => ?_
    rw [leadsToDirectory_eq twins reads around kinds]
    cases leadsToDirectory fs ancestors (names.foldl Path.push source) n with
    | error reason => exact Step.mirrors_throw _
    | ok isDirectory =>
      refine Step.mirrors_demand_bind (.inr ⟨isDirectory, isDirectory, rfl, rfl, ?_⟩)
      rw [if_neg (not_leftOut isNames kept)]
      split
      · refine (mirrors_create writes).bind fun _ => Step.mirrors_files_bind fun fs fs' twins => ?_
        refine Step.mirrors_demand_bind ?_
        rcases twins.lacks.list_cases reads twins.guides with
          ⟨f, failed, failed'⟩ | ⟨place, entries, entries', found, spared, listed, entry, listed', entry', told⟩
        · exact .inl ⟨f, failed, failed'⟩
        · refine .inr ⟨entries, entries', listed, listed', ?_⟩
          rw [told]
          exact mirrors_entries void avoids isNames kept twins found spared listed entry entry'
            fun name n n' isNames' kept' kinds' => ih isNames' kept' (List.forall_mem_cons.mpr ⟨reads, around⟩) kinds'
      · exact (mirrors_createParent writes).bind fun _ => mirrors_copyFile reads writes

/-! ## Directories -/

/-- **A directory is copied alike in both runs.** -/
theorem mirrors_copyTree (void : ∀ e, b.StopsAtExcluded source e → Void e)
    (avoids : b.AvoidsKept ground gone source destination) (onto : ground.Avoids gone destination) :
    Step.Mirrors (Twins ground gone) Void (b.copyTree source destination) (b.copyTree source destination) := by
  have kept : b.Keeps [] [] := fun front before some => absurd (List.prefix_nil.mp before) some
  unfold copyTree
  refine Step.mirrors_files_bind fun fs fs' twins => ?_
  rw [twins.lacks.pathExists_eq onto twins.guides]
  split
  · exact Step.mirrors_throw_bind _
  · refine Step.mirrors_demand_bind ?_
    have reads : ground.Avoids gone source := avoids.reads [] (List.forall_mem_nil _) kept
    rcases twins.lacks.nodeItself_cases reads twins.guides with
      ⟨f, failed, failed'⟩ | ⟨place, n, n', found, found', kinds, -⟩
    · exact .inl ⟨f, failed, failed'⟩
    · refine .inr ⟨_, _, found, found', ?_⟩
      have whole : Step.Mirrors (Twins ground gone) Void
          (b.copyEntry destination FileSystem.pathLimit [] (List.foldl Path.push source []) (.ofNames []) n)
          (b.copyEntry destination FileSystem.pathLimit [] (List.foldl Path.push source []) (.ofNames []) n') :=
        mirrors_copyEntry void avoids (List.forall_mem_nil _) kept (List.forall_mem_nil _) kinds
      exact whole.bind fun _ => Step.mirrors_note _

/-- Paths are made absolute in the directory in which relative paths start. -/
theorem absolute_eq (same : fs'.workPlace = fs.workPlace) (p : Path) : fs'.absolute p = fs.absolute p := by
  unfold FileSystem.absolute FileSystem.workPath
  rw [same]

/-- **An additional directory is copied alike in both runs.** -/
theorem mirrors_copyAdditional (reads : ground.Avoids gone p)
    (void : ∀ source, ground.absolute p = .ok source → ∀ e, b.StopsAtExcluded source e → Void e)
    (avoids : ∀ source name, ground.absolute p = .ok source → source.fileName? = some name →
      b.AvoidsKept ground gone source (b.directory.push name) ∧ ground.Avoids gone (b.directory.push name)) :
    Step.Mirrors (Twins ground gone) Void (b.copyAdditional p) (b.copyAdditional p) := by
  unfold copyAdditional
  refine Step.mirrors_files_bind fun fs fs' twins => ?_
  rw [twins.lacks.isDirectory_eq reads twins.guides, absolute_eq twins.lacks.workPlace,
    absolute_eq twins.guides.workPlace]
  split
  · exact (Step.mirrors_note _).bind fun _ => Step.mirrors_pure _
  · cases located : ground.absolute p with
    | error f => exact Step.mirrors_throw _
    | ok source =>
      refine Step.mirrors_demand_bind (.inr ⟨source, source, rfl, rfl, ?_⟩)
      cases fileName : source.fileName? with
      | none => exact (Step.mirrors_note _).bind fun _ => Step.mirrors_pure _
      | some name =>
        obtain ⟨kept, onto⟩ := avoids source name located fileName
        exact (mirrors_copyTree (void source located) kept onto).bind fun _ => Step.mirrors_pure _

/-- A path that has a name at its end is not empty. -/
theorem isEmpty_of_fileName? (fileName : p.fileName? = some name) : p.isEmpty = false := by
  refine Bool.eq_false_iff.mpr fun empty => ?_
  rw [show p = ⟨""⟩ from congrArg Path.mk (eq_of_beq empty)] at fileName
  cases fileName

/-! ## Whole runs -/

/-- **A bundle keeps off what is gone:** nothing that is gone is touched by the path of its directory, by those of the
modules and of their targets, by those of the additional directories, or by those of their entries that are kept. So
each entry of an additional directory that is gone is left out or below one that is. -/
structure KeepsOff (b : Bundle) (ground : FileSystem) (gone : Place → Bool) (modules : List LocalModule)
    (additional : List Path) : Prop where
  directory : ground.Avoids gone b.directory
  sources : ∀ m ∈ modules, ground.Avoids gone m.absolutePath
  targets : ∀ m ∈ modules, ground.Avoids gone (b.directory.join m.relativePath)
  directories : ∀ p ∈ additional, ground.Avoids gone p
  kept : ∀ p ∈ additional, ∀ source name, ground.absolute p = .ok source → source.fileName? = some name →
    ∀ names, (∀ name ∈ names, IsFileName name) → b.Keeps [] names → ground.Avoids gone (names.foldl Path.push source)

/-- **What is copied lands apart from what is gone:** the entries of additional directories that are kept are copied to
paths that avoid it, and so are the directories themselves. -/
def LandsOff (b : Bundle) (ground : FileSystem) (gone : Place → Bool) (additional : List Path) : Prop :=
  ∀ p ∈ additional, ∀ source name, ground.absolute p = .ok source → source.fileName? = some name →
    ground.Avoids gone (b.directory.push name) ∧
      ∀ names, (∀ name ∈ names, IsFileName name) → b.Keeps [] names →
        ground.Avoids gone ((b.directory.push name).join (.ofNames names))

/-- **In a directory that is new everything lands apart from what is gone.** -/
theorem landsOff_of_bare {place : Place} (avoids : ground.Avoids gone b.directory) (guides : ground.Guides fs)
    (stays : ∀ {q}, fs.kind? q = none → ground.kind? q = none) (empty : fs.LeadsToEmpty b.directory place)
    (bare : ∀ name rest, gone (place ++ name :: rest) = false) : b.LandsOff ground gone additional := by
  have free : ∀ q, place <+: q → ground.NoLink q := by
    intro q below target entry
    cases here : fs.kind? q with
    | none => cases (stays here).symm.trans entry
    | some k =>
      rw [empty.eq_directory below here] at here
      cases guides.unbarred here _ entry
  have onward : ∀ {names q}, b.directory.GoesOn names q → ground.Avoids gone q := fun onward =>
    avoids.goesOn guides empty.found empty.directory free bare onward
  intro p mem source name located fileName
  have named := b.directory.goesOn_push (isFileName_of_fileName? fileName)
  exact ⟨onward named, fun names isNames _ => onward (named.trans (Path.goesOn_join_ofNames named.written isNames))⟩

/-- **A run has failed on the way to an entry that is left out** of an additional directory. -/
def FailsAtExcluded (b : Bundle) (fs : FileSystem) (additional : List Path) (e : BundleError) : Prop :=
  ∃ p ∈ additional, ∃ source, fs.absolute p = .ok source ∧ b.StopsAtExcluded source e

/-- The directory of a bundle is made anew in both runs, or in neither. -/
theorem agree_reset (lacks : s.files.Lacks gone s'.files) (log : s'.log = s.log) (calls : s'.calls = s.calls)
    (proper : s.files.Proper) (alike : s.files.ClearsAlike (s.files.among gone) b.directory)
    (avoids : (s.files.clear b.directory).1.Avoids ((s.files.clear b.directory).1.among gone) b.directory) :
    Step.Agree (Twins (s.files.clear b.directory).1 ((s.files.clear b.directory).1.among gone)) Void
      (b.reset.outcome s) (b.reset.outcome s') := by
  obtain ⟨twins, same⟩ := lacks.twins_of_clear proper alike
  rw [outcome_reset, outcome_reset]
  refine Step.Agree.bind ?_ fun _ t t' _ beside => mirrors_create avoids t t' beside
  rw [Step.outcome_change, Step.outcome_change, same]
  exact .inr (.inr ⟨rfl, log, calls, twins⟩)

/-- **What is copied is copied alike in both runs** if it lands apart from what is gone. -/
theorem mirrors_copies (off : b.KeepsOff ground gone modules additional) (lands : b.LandsOff ground gone additional) :
    Step.Mirrors (Twins ground gone) (b.FailsAtExcluded ground additional)
      (modules.forM b.copyModule >>= fun _ => additional.filterMapM b.copyAdditional)
      (modules.forM b.copyModule >>= fun _ => additional.filterMapM b.copyAdditional) := by
  refine (Step.mirrors_forM fun m mem => mirrors_copyModule (off.sources m mem) (off.targets m mem)).bind fun _ => ?_
  refine Step.mirrors_filterMapM fun p mem => mirrors_copyAdditional (off.directories p mem) ?_ ?_
  · exact fun source located e stops => ⟨p, mem, source, located, stops⟩
  · intro source name located fileName
    obtain ⟨onto, writes⟩ := lands p mem source name located fileName
    exact ⟨⟨off.kept p mem source name located fileName, writes⟩, onto⟩

/-- **The path of a bundle is settled:** it is not empty, and if it climbs, then the directory around what it names is
there without that. -/
structure IsSettled (b : Bundle) (fs : FileSystem) : Prop where
  written : b.directory.isEmpty = false
  around : (fs.without b.directory).IsSettled b.directory

/-- The directory that a reset leaves is one below which nothing was left. -/
theorem exists_bare_of_reset {u : Unit} {m : Session} (settled : b.IsSettled s.files) (run : b.reset.Runs s u m) :
    ∃ place, m.files.LeadsToEmpty b.directory place ∧
      ∀ name rest, (s.files.clear b.directory).1.kind? (place ++ name :: rest) = none := by
  have renews := runs_reset run
  obtain ⟨place, empty⟩ := renews.leadsToEmpty settled.written settled.around
  obtain ⟨left, cleared, made⟩ := renews
  have more := FileSystem.within_makeDirectories left b.directory
  rw [made] at more
  refine ⟨place, empty, fun name rest => ?_⟩
  rw [cleared]
  cases entry : left.kind? (place ++ name :: rest) with
  | none => rfl
  | some k => cases (empty.bare name rest).symm.trans (more.kind entry)

/-- What is below such a directory is not gone. -/
theorem among_eq_false {place : Place} (bare : ∀ name rest, ground.kind? (place ++ name :: rest) = none)
    (gone : Place → Bool) (name : String) (rest : Place) : ground.among gone (place ++ name :: rest) = false := by
  unfold FileSystem.among
  rw [bare, Option.isSome_none, Bool.and_false]

/-- **Two file systems hold the same bundle:** its path leads to the same place, and the same is there and below. -/
def SameBundle (b : Bundle) (fs fs' : FileSystem) : Prop :=
  ∃ place, fs.place b.directory = .ok place ∧ fs'.place b.directory = .ok place ∧
    ∀ q, place <+: q → fs'.kind? q = fs.kind? q

/-- **Entries that are left out have no influence,** whatever they are. Let a file system lack some entries of another
one and all below them. If nothing that a bundle is written from leads to one of these entries or through one, and
nothing that it is written to either, then a run on the one file system ends like a run on the other one: with the same
answer, the same is told, and in the end the one still lacks these entries, of those that were there when the directory
of the bundle was cleared, and nothing else. Nothing is said if one of the runs fails on the way to an entry that is
left out.

Before the clearing the path of the bundle keeps off the entries like all other paths, or it names one that is cleared
away (`alike`). The path is settled if it is not empty and, should it climb, the directory around what it names is there
without that. Then it is made anew: what is copied lands apart from all that was there, and if the runs come to their
ends, they have written the same bundle. -/
theorem emit_ignores_excluded (lacks : s.files.Lacks gone s'.files) (log : s'.log = s.log) (calls : s'.calls = s.calls)
    (proper : s.files.Proper) (alike : s.files.ClearsAlike (s.files.among gone) b.directory)
    (off : b.KeepsOff (s.files.clear b.directory).1 ((s.files.clear b.directory).1.among gone) modules additional)
    (lands : b.IsSettled s.files ∨
      b.LandsOff (s.files.clear b.directory).1 ((s.files.clear b.directory).1.among gone) additional) :
    Step.Agree (fun fs fs' => fs.Lacks ((s.files.clear b.directory).1.among gone) fs')
        (b.FailsAtExcluded s.files additional) ((b.emit modules additional).outcome s)
        ((b.emit modules additional).outcome s') ∧
      (b.IsSettled s.files → ∀ copied copied' t t', (b.emit modules additional).Runs s copied t →
        (b.emit modules additional).Runs s' copied' t' → b.SameBundle t.files t'.files) := by
  have workPlace : (s.files.clear b.directory).1.workPlace = s.files.workPlace :=
    (FileSystem.clear_spec s.files b.directory).1.old.workPlace.symm
  have agree : Step.Agree (Twins (s.files.clear b.directory).1 ((s.files.clear b.directory).1.among gone))
      (b.FailsAtExcluded (s.files.clear b.directory).1 additional) ((b.emit modules additional).outcome s)
      ((b.emit modules additional).outcome s') := by
    unfold emit
    refine (agree_reset lacks log calls proper alike off.directory).bind fun u m m' run beside => ?_
    have twins := beside.files
    refine mirrors_copies off (lands.elim (fun settled => ?_) id) m m' beside
    obtain ⟨place, empty, bare⟩ := exists_bare_of_reset settled run
    exact landsOff_of_bare off.directory twins.guides twins.stays empty (among_eq_false bare gone)
  refine ⟨agree.mono (fun _ _ twins => twins.lacks) ?_, fun settled copied copied' t t' run run' => ?_⟩
  · rintro e ⟨p, mem, source, located, stops⟩
    exact ⟨p, mem, source, absolute_eq workPlace p ▸ located, stops⟩
  · obtain ⟨-, beside⟩ := agree.of_runs run run'
    have twins := beside.files
    obtain ⟨u, m, reset, ways⟩ := exists_keepsWays_of_emit settled.written proper run
    obtain ⟨place, empty, bare⟩ := exists_bare_of_reset settled reset
    obtain ⟨found, -⟩ := ways.place_eq empty.found empty.directory
    have spared := off.directory.of_place twins.guides found
    refine ⟨place, found, ?_, fun q below => twins.lacks.kept (spared.below (among_eq_false bare gone) below)⟩
    rw [twins.lacks.place_eq off.directory twins.guides, found]

/-! ## Directories without links -/

/-- **Without links a bundle keeps off what is gone** if that is left out of the additional directories, and is not on
the trail of any path that is given. -/
theorem keepsOff_of_plain (plain : ground.Plain)
    (directory : ∀ q ∈ ground.trail b.directory, FileSystem.Spared gone q)
    (sources : ∀ m ∈ modules, ∀ q ∈ ground.trail m.absolutePath, FileSystem.Spared gone q)
    (targets : ∀ m ∈ modules, ∀ q ∈ ground.trail (b.directory.join m.relativePath), FileSystem.Spared gone q)
    (directories : ∀ p ∈ additional, ∀ q ∈ ground.trail p, FileSystem.Spared gone q)
    (located : ∀ p ∈ additional, ∀ source, ground.absolute p = .ok source →
      ∀ q ∈ ground.trail source, FileSystem.Spared gone q)
    (leftOut : ∀ p ∈ additional, ∀ source, ground.absolute p = .ok source →
      ∀ names, gone (ground.named source ++ names) = true → ¬ b.Keeps [] names) :
    b.KeepsOff ground gone modules additional := by
  refine ⟨plain.avoids directory, fun m mem => plain.avoids (sources m mem), fun m mem => plain.avoids (targets m mem),
    fun p mem => plain.avoids (directories p mem), fun p mem source last isSource fileName names isNames kept => ?_⟩
  refine plain.avoids fun q onTrail => ?_
  have trail := located p mem source isSource
  have written := isEmpty_of_fileName? fileName
  rcases FileSystem.mem_trail_of_goesOn (Path.goesOn_foldl_push written isNames) onTrail with
    outer | ⟨front, -, before, rfl⟩
  · exact trail q outer
  · intro q' inside
    rcases List.prefix_or_prefix_of_prefix inside (List.prefix_append _ front) with outer | ⟨inner, rfl⟩
    · exact trail _ (ground.named_mem_trail source) q' outer
    · refine Bool.eq_false_iff.mpr fun isGone => leftOut p mem source isSource inner isGone ?_
      exact kept.of_isPrefix (((List.prefix_append_right_inj _).mp inside).trans before)

/-! ## Entries of a name -/

/-- Where entries of a name are left out, none that is kept has the name on its way. -/
theorem notMem_of_keeps (leavesOut : ∀ p : Path, p.fileName? = some name → b.excludes p = true)
    (isNames : ∀ other ∈ names, IsFileName other) (kept : b.Keeps [] names) : name ∉ names := by
  intro mem
  obtain ⟨front, back, rfl⟩ := List.append_of_mem mem
  have before : front ++ [name] <+: front ++ name :: back := ⟨back, by simp⟩
  have isNames' : ∀ other ∈ front ++ [name], IsFileName other := fun other inside =>
    isNames other (before.subset inside)
  have notLeftOut := kept (front ++ [name]) before (List.concat_ne_nil _ _)
  rw [List.nil_append, leavesOut _ (Path.fileName?_ofNames isNames')] at notLeftOut
  cases notLeftOut

/-- **A bundle keeps off entries of a name that it leaves out,** if no path that is given and no link says the name. -/
theorem keepsOff_of_name (leavesOut : ∀ p : Path, p.fileName? = some name → b.excludes p = true)
    (named : ∀ q, gone q = true → name ∈ q) (work : name ∉ ground.workPlace)
    (targets : ∀ place target, ground.kind? place = some (.link target) → name ∉ FileSystem.namesOf target)
    (directory : name ∉ b.directory.way)
    (sources : ∀ m ∈ modules, name ∉ m.absolutePath.way ∧ name ∉ (b.directory.join m.relativePath).way)
    (directories : ∀ p ∈ additional, name ∉ p.way ∧ ∀ source, ground.absolute p = .ok source → name ∉ source.way) :
    b.KeepsOff ground gone modules additional := by
  have avoids : ∀ p : Path, name ∉ p.way → ground.Avoids gone p := by
    intro p unsaid
    refine FileSystem.avoids_of_notMem ?_ unsaid targets named
    unfold FileSystem.startOf
    split
    · exact List.not_mem_nil
    · exact work
  refine ⟨avoids _ directory, fun m mem => avoids _ (sources m mem).1, fun m mem => avoids _ (sources m mem).2,
    fun p mem => avoids _ (directories p mem).1, fun p mem source last located fileName names isNames kept => ?_⟩
  have written := isEmpty_of_fileName? fileName
  refine avoids _ ?_
  rw [FileSystem.way_of_goesOn (Path.goesOn_foldl_push written isNames)]
  intro inside
  rcases List.mem_append.mp inside with start | behind
  · exact (directories p mem).2 source located start
  · exact notMem_of_keeps leavesOut isNames kept behind

/-- A directory with a module, a link to it, and a directory that is left out, in which a link leads back up. -/
def besideCache : FileSystem where
  entries := [("lib", .directory [("a.py", .file "a = 1\n".toUTF8 false), ("b.py", .link "a.py"),
    ("cache", .directory [("a.pyc", .file "".toUTF8 false), ("up", .link "..")])])]

/-- A bundle without what a glob stands for that is written without any signs of its own. -/
def bundleWithout (glob : String) : Bundle := ⟨⟨"/out"⟩, Glob.Filter.excludes ⟨[glob.toList.map .literal]⟩⟩

/-- Whether a link does not lead through a name. -/
def linksPast (name : String) : Kind → Bool
  | .link target => !(FileSystem.namesOf target).contains name
  | _ => true

/-- **A directory that is left out may as well not be there:** the same bundle is written with it and without it. -/
theorem emit_ignores_cache : (bundleWithout "cache").excludes (.ofNames ["cache"]) = true ∧
    ∃ t t', ((bundleWithout "cache").emit [] [⟨"/lib"⟩]).Runs { files := besideCache } [⟨"/lib"⟩] t ∧
      ((bundleWithout "cache").emit [] [⟨"/lib"⟩]).Runs { files := besideCache.erase ["lib", "cache"] } [⟨"/lib"⟩] t' ∧
      (bundleWithout "cache").SameBundle t.files t'.files := by
  have cleared : (besideCache.clear (bundleWithout "cache").directory).1 = besideCache := by
    unfold FileSystem.clear
    rw [if_neg (by decide +kernel), if_neg (by decide +kernel)]
  have checked : besideCache.root.all (fun _ k => linksPast "cache" k) [] = true := by decide +kernel
  have off : (bundleWithout "cache").KeepsOff besideCache (besideCache.among fun q => decide (q = ["lib", "cache"])) []
      [⟨"/lib"⟩] := by
    have leavesOut : ∀ p : Path, p.fileName? = some "cache" → (bundleWithout "cache").excludes p = true := by
      intro p fileName
      refine Bool.or_eq_true_iff.mpr (.inr ?_)
      rw [fileName]
      decide +kernel
    refine keepsOff_of_name leavesOut (fun q isGone => ?_) nofun (fun place target entry => ?_) (by decide +kernel)
      nofun fun p mem => ?_
    · rw [of_decide_eq_true (Bool.and_eq_true_iff.mp isGone).1]
      decide
    · simpa [linksPast] using FileSystem.forall_of_all checked entry
    · obtain rfl := List.mem_singleton.mp mem
      refine ⟨by decide +kernel, fun source located => ?_⟩
      obtain rfl : source = ⟨"/lib"⟩ :=
        Except.ok.inj (located.symm.trans (Sources.eq_ok_of_toOption (by decide +kernel)))
      decide +kernel
  let s : Session := { files := besideCache }
  let s' : Session := { files := besideCache.erase ["lib", "cache"] }
  have lacks : s.files.Lacks (fun q => decide (q = ["lib", "cache"])) s'.files :=
    FileSystem.lacks_erase besideCache (by decide)
  have off' : (bundleWithout "cache").KeepsOff (s.files.clear (bundleWithout "cache").directory).1
      ((s.files.clear (bundleWithout "cache").directory).1.among fun q => decide (q = ["lib", "cache"])) []
      [⟨"/lib"⟩] := by
    rw [cleared]
    exact off
  have settled : (bundleWithout "cache").IsSettled s.files := ⟨by decide, .inl (by decide)⟩
  have same := emit_ignores_excluded lacks rfl rfl (FileSystem.proper_of_all (by decide +kernel)) (.inl off.directory)
    off' (.inl settled)
  have run := Step.runs_of_toOption (x := (bundleWithout "cache").emit [] [⟨"/lib"⟩]) (s := { files := besideCache })
    (a := [⟨"/lib"⟩]) (by decide +kernel)
  have run' := Step.runs_of_toOption (x := (bundleWithout "cache").emit [] [⟨"/lib"⟩])
    (s := { files := besideCache.erase ["lib", "cache"] }) (a := [⟨"/lib"⟩]) (by decide +kernel)
  exact ⟨by decide +kernel, _, _, run, run', same.2 settled _ _ _ _ run run'⟩

/-! ## A link to what is left out -/

/-- A directory with a link to one in it. -/
def besideShelf : FileSystem where
  entries := [("lib", .directory [("shelf", .directory [("a.py", .file "a = 1\n".toUTF8 false)]),
    ("link", .link "shelf")])]

/-- A run that leaves out the entry at its own path, and what it leaves. -/
def runOnShelf (fs : FileSystem) : Except BundleError (List Path) × Session :=
  ((bundleWithout "shelf/a.py").emit [] [⟨"/lib"⟩]).outcome { files := fs }

/-- **What is left out shows where a link leads to it:** a walk goes through links, and behind one the entry has another
path, which is not left out. -/
theorem linked_shows : (bundleWithout "shelf/a.py").excludes (.ofNames ["shelf", "a.py"]) = true ∧
    besideShelf.Lacks (fun q => decide (q = ["lib", "shelf", "a.py"])) (besideShelf.erase ["lib", "shelf", "a.py"]) ∧
    (runOnShelf besideShelf).1.toOption = some [⟨"/lib"⟩] ∧
    (runOnShelf (besideShelf.erase ["lib", "shelf", "a.py"])).1.toOption = some [⟨"/lib"⟩] ∧
    (runOnShelf besideShelf).2.files.kind? ["out", "lib", "link", "a.py"] = some (.file "a = 1\n".toUTF8 false) ∧
    (runOnShelf (besideShelf.erase ["lib", "shelf", "a.py"])).2.files.kind? ["out", "lib", "link", "a.py"] = none :=
  ⟨by decide +kernel, FileSystem.lacks_erase besideShelf (by decide), by decide +kernel, by decide +kernel,
    by decide +kernel, by decide +kernel⟩

end Bundle

end PyBundle
