import PyBundle.Proofs.Bundle.Copies

/-!
# What a bundle consists of

A bundle that is written holds its modules, what is kept of the additional directories, the directories around
these, and nothing else. All else stays as it was (`emit_exact`). The directory of the bundle is made anew, each
module is put at its relative path, and each directory at its name, where nothing has been before.
-/

namespace PyBundle

/-- **The absolute form of a path to a directory,** if that has a name. -/
def FileSystem.namedDirectory? (fs : FileSystem) (p : Path) : Option Path :=
  if fs.isDirectory p then (fs.absolute p).toOption.filter (·.fileName?.isSome) else none

/-- A directory with a name is one, and the path that is answered is absolute and leads there. -/
theorem FileSystem.namedDirectory?_spec {fs : FileSystem} {p root : Path} (plain : fs.Plain) (proper : fs.Proper)
    (isNamed : fs.namedDirectory? p = some root) : fs.isDirectory p = true ∧ fs.absolute p = .ok root ∧
      fs.named root = fs.named p ∧ fs.kind? (fs.named p) = some .directory := by
  unfold namedDirectory? at isNamed
  split at isNamed
  · rename_i directory
    obtain ⟨place, found, holds⟩ := isDirectory_iff.mp directory
    have made : fs.absolute p = .ok root := by
      cases absolute : fs.absolute p with
      | error fault =>
        rw [absolute] at isNamed
        cases isNamed
      | ok q =>
        rw [absolute] at isNamed
        exact congrArg Except.ok (Option.some.inj (Option.filter_eq_some_iff.mp isNamed).1)
    refine ⟨directory, made, named_of_absolute_of (fun relative => ?_) made, plain.place_eq_named found ▸ holds⟩
    obtain ⟨-, start, -⟩ := resolve_iff.mp (place_eq_ok.mp found)
    unfold startOf at start
    rw [relative, if_neg Bool.false_ne_true] at start
    exact proper _ (by simp [start])
  · cases isNamed

/-- **What a filter keeps of a directory:** an entry for which no glob matches its path in the directory or its own
name, and so it is for all directories around it. -/
def Glob.Filter.Keeps (f : Filter) (rest : Place) : Prop :=
  ∀ front name, front ++ [name] <+: rest →
    ∀ glob ∈ f.globs, isMatch glob (Path.ofNames (front ++ [name])).text = false ∧ isMatch glob name = false

namespace Bundle

variable {b : Bundle} {s t u v : Session} {fs fs' fs'' : FileSystem} {place source q : Place} {k : Kind}
  {P P' : Place → Kind → Prop} {kept : Place → Prop} {modules done todo : List LocalModule}
  {copied : List Path} {names : List String} {name : String}

/-! ## Places in a bundle -/

/-- **What stands in a directory that holds some entries:** these, and the directories around them. -/
def Stands (P : Place → Kind → Prop) (q : Place) (k : Kind) : Prop :=
  P q k ∨ k = .directory ∧ (q = [] ∨ ∃ rest inner, rest ≠ [] ∧ P (q ++ rest) inner)

/-- Entries that are put elsewhere do not matter. -/
theorem stands_or_iff {New : Place → Kind → Prop} (here : ∀ k, ¬ New q k)
    (below : q ≠ [] → ∀ rest inner, ¬ New (q ++ rest) inner) :
    Stands (fun q k => P q k ∨ New q k) q k ↔ Stands P q k := by
  constructor
  · rintro ((part | new) | ⟨rfl, around⟩)
    · exact .inl part
    · exact absurd new (here k)
    · refine .inr ⟨rfl, ?_⟩
      rcases around with top | ⟨rest, inner, longer, part | new⟩
      · exact .inl top
      · exact .inr ⟨rest, inner, longer, part⟩
      · exact .inl (by_contra fun deep => below deep rest inner new)
  · rintro (part | ⟨rfl, around⟩)
    · exact .inl (.inl part)
    · exact .inr ⟨rfl, around.imp_right fun ⟨rest, inner, longer, part⟩ => ⟨rest, inner, longer, .inl part⟩⟩

/-- **A bundle is laid out** at a place: its parts stand there with the directories around them and nothing else, the
places on the way to it are directories, and all else is as it was. -/
structure Laid (fs : FileSystem) (place : Place) (P : Place → Kind → Prop) (fs' : FileSystem) : Prop where
  workPlace : fs'.workPlace = fs.workPlace
  aside : ∀ q, ¬ place <+: q → fs'.kind? q = if q <+: place then some .directory else fs.kind? q
  inside : ∀ q k, fs'.kind? (place ++ q) = some k ↔ Stands P q k

theorem Laid.congr (laid : Laid fs place P fs') (same : ∀ q k, P q k ↔ P' q k) : Laid fs place P' fs' := by
  have equal : P = P' := funext fun q => funext fun k => propext (same q k)
  exact equal ▸ laid

theorem Laid.directory (laid : Laid fs place P fs') : fs'.kind? place = some .directory := by
  have top := (laid.inside [] .directory).mpr (.inr ⟨rfl, .inl rfl⟩)
  rwa [List.append_nil] at top

/-- A place that is apart from the bundle is as it was. -/
theorem Laid.apart (laid : Laid fs place P fs') (apart : Apart place source) (rest : Place) :
    fs'.kind? (source ++ rest) = fs.kind? (source ++ rest) := by
  obtain ⟨notBefore, notBelow⟩ := apart.symm.extend rest
  rw [laid.aside _ notBelow, if_neg notBefore]

/-- A bundle has no links if none is put into it. -/
theorem Laid.plain (laid : Laid fs place P fs') (plain : fs.Plain)
    (parts : ∀ q k, P q k → ∃ origin, fs.kind? origin = some k) : fs'.Plain := by
  intro q link entry
  by_cases below : place <+: q
  · obtain ⟨rest, rfl⟩ := below
    rcases (laid.inside rest _).mp entry with part | ⟨impossible, -⟩
    · obtain ⟨origin, holds⟩ := parts rest _ part
      exact plain origin link holds
    · cases impossible
  · rw [laid.aside q below] at entry
    split at entry
    · cases entry
    · exact plain q link entry

/-- What a path leads to that does not lead through a bundle is the same whatever is in the bundle. -/
theorem Laid.namedDirectory?_eq {p : Path} (laid : Laid fs place P fs') (laid' : Laid fs place P' fs'')
    (plain : fs'.Plain) (plain' : fs''.Plain) (avoids : ∀ station ∈ fs.trail p, ¬ place <+: station) :
    fs'.namedDirectory? p = fs''.namedDirectory? p := by
  have same : ∀ station ∈ fs.trail p, fs'.kind? station = fs''.kind? station := fun station mem => by
    rw [laid.aside _ (avoids station mem), laid'.aside _ (avoids station mem)]
  have workPlace : fs'.workPlace = fs''.workPlace := laid.workPlace.trans laid'.workPlace.symm
  have directory : fs'.isDirectory p = fs''.isDirectory p := by
    rw [Bool.eq_iff_iff]
    constructor
    · refine plain.isDirectory_of_same workPlace.symm fun station mem => (same station ?_).symm
      rwa [← FileSystem.trail_congr laid.workPlace]
    · refine plain'.isDirectory_of_same workPlace fun station mem => same station ?_
      rwa [← FileSystem.trail_congr laid'.workPlace]
  unfold FileSystem.namedDirectory? FileSystem.absolute FileSystem.workPath
  rw [directory, workPlace]

/-! ## Putting parts into a bundle -/

/-- **A file is put into a bundle.** -/
theorem Laid.file {content : ByteArray} {executable : Bool} (laid : Laid fs place P fs')
    (copied : Copied fs' fs'' source (place ++ names) content executable) (apart : Apart place source)
    (unique : ∀ k, P names k → fs.kind? source = some k) :
    Laid fs place (fun q k => P q k ∨ q = names ∧ fs.kind? source = some k) fs'' := by
  have read : fs.kind? source = some (.file content executable) := by
    have same := laid.apart apart []
    rw [List.append_nil] at same
    exact same.symm.trans copied.read
  refine ⟨copied.workPlace.trans laid.workPlace, fun q out => ?_, fun q k => ?_⟩
  · have other : q ≠ place ++ names := fun same => out (same ▸ List.prefix_append _ _)
    rw [copied.kinds, if_neg other]
    split
    · rename_i before
      have onWay := (List.prefix_or_prefix_of_prefix before (List.prefix_append place names)).resolve_right out
      rw [if_pos onWay]
    · exact laid.aside q out
  · rw [copied.kinds]
    simp only [List.append_right_inj, List.prefix_append_right_inj]
    by_cases here : q = names
    · -- At the place of the file. It was free or a file, so no other part is below it.
      subst here
      rw [if_pos rfl, ← read]
      refine ⟨fun stands => .inl (.inr ⟨rfl, stands⟩), ?_⟩
      rintro ((part | ⟨-, stands⟩) | ⟨rfl, around⟩)
      · exact unique k part
      · exact stands
      · refine absurd ((laid.inside q _).mpr (.inr ⟨rfl, ?_⟩)) copied.free
        refine around.imp_right ?_
        rintro ⟨rest, inner, longer, part | ⟨same, -⟩⟩
        · exact ⟨rest, inner, longer, part⟩
        · exact absurd (List.append_right_eq_self.mp same) longer
    rw [if_neg here]
    split
    · -- On the way to the file there are directories now. What was there is kept, so it was one.
      rename_i before
      obtain ⟨rest, rfl⟩ := before
      have some : rest ≠ [] := by
        rintro rfl
        exact here (List.append_nil q).symm
      constructor
      · rintro ⟨⟩
        exact .inr ⟨rfl, .inr ⟨rest, _, some, .inr ⟨rfl, read⟩⟩⟩
      · rintro ((part | ⟨same, -⟩) | ⟨rfl, -⟩)
        · have different : place ++ q ≠ place ++ (q ++ rest) := fun same => here (List.append_cancel_left same)
          have stays := copied.kept different ((laid.inside q k).mpr (.inl part))
          rw [copied.kinds, if_neg different, if_pos (by simp)] at stays
          exact stays
        · exact absurd same here
        · rfl
    · rename_i aside
      rw [laid.inside]
      exact (stands_or_iff (fun _ new => here new.1) fun _ rest _ new => aside ⟨rest, new.1⟩).symm

/-- **A tree is put into a bundle** at a name where nothing is. -/
theorem Laid.tree (laid : Laid fs place P fs') (copied : TreeCopied b [] fs' fs'' source (place ++ [name]))
    (missing : fs'.kind? (place ++ [name]) = none) (apart : Apart place source) :
    Laid fs place (fun q k => P q k ∨ ∃ rest, q = name :: rest ∧ fs.kind? (source ++ rest) = some k ∧ b.Keeps [] rest)
      fs'' := by
  have noPart : ∀ rest k, ¬ P (name :: rest) k := by
    intro rest k part
    have stands := (laid.inside _ k).mpr (.inl part)
    rw [List.append_cons, FileSystem.kind?_append_eq_none missing] at stands
    cases stands
  refine ⟨copied.workPlace.trans laid.workPlace, fun q out => ?_, fun q k => ?_⟩
  · rw [copied.aside q fun below => out ((List.prefix_append _ _).trans below), laid.aside q out]
  · by_cases below : [name] <+: q
    · obtain ⟨rest, rfl⟩ := below
      rw [← List.append_assoc, copied.below, laid.apart apart]
      constructor
      · rintro ⟨stands, kept⟩
        exact .inl (.inr ⟨rest, rfl, stands, kept⟩)
      · rintro ((part | ⟨rest', same, stands, kept⟩) | ⟨rfl, impossible | ⟨more, inner, longer, part⟩⟩)
        · exact absurd part (noPart rest k)
        · obtain rfl : rest = rest' := by simpa using same
          exact ⟨stands, kept⟩
        · cases impossible
        · rcases part with part | ⟨rest', same, stands, kept⟩
          · exact absurd part (noPart (rest ++ more) inner)
          · obtain rfl : rest ++ more = rest' := by simpa using same
            obtain ⟨next, more, rfl⟩ := List.exists_cons_of_ne_nil longer
            rw [← List.append_assoc] at stands
            refine ⟨FileSystem.kind?_eq_directory_of_append (by rw [stands]; exact nofun), fun front before => ?_⟩
            exact kept front (before.trans (List.prefix_append _ _))
    · have notBelow : ¬ place ++ [name] <+: place ++ q := by
        rwa [List.prefix_append_right_inj]
      rw [copied.aside _ notBelow, laid.inside]
      refine (stands_or_iff ?_ ?_).symm
      · rintro k ⟨rest, rfl, -⟩
        exact below (List.prefix_append [name] rest)
      · rintro deep rest inner ⟨rest', same, -⟩
        obtain ⟨first, q, rfl⟩ := List.exists_cons_of_ne_nil deep
        cases same
        exact below (List.prefix_append [name] q)

/-! ## The parts of a bundle -/

/-- **The parts of a bundle,** by their names in it and told in the file system before: each module at its relative
path, and what is kept of each copied directory below the name of that. -/
inductive Part (kept : Place → Prop) (fs : FileSystem) (modules : List LocalModule) (copied : List Path) :
    Place → Kind → Prop
  | ofModule {m : LocalModule} {names : List String} {k : Kind} (mem : m ∈ modules)
      (relative : m.relativePath.steps = names.map .name) (source : fs.kind? (fs.named m.absolutePath) = some k) :
      Part kept fs modules copied names k
  | ofDirectory {d : Path} {name : String} {rest : Place} {k : Kind} (mem : d ∈ copied)
      (fileName : d.fileName? = some name) (source : fs.kind? (fs.named d ++ rest) = some k) (isKept : kept rest) :
      Part kept fs modules copied (name :: rest) k

theorem Part.exists_origin (part : Part kept fs modules copied q k) : ∃ origin, fs.kind? origin = some k := by
  cases part with
  | ofModule _ _ source => exact ⟨_, source⟩
  | ofDirectory _ _ source _ => exact ⟨_, source⟩

theorem Part.map {kept' : Place → Prop} {modules' : List LocalModule} {copied' : List Path}
    (part : Part kept fs modules copied q k) (modules_ : modules ⊆ modules') (copied_ : copied ⊆ copied')
    (kept_ : ∀ rest k d, fs.kind? (fs.named d ++ rest) = some k → kept rest → kept' rest) :
    Part kept' fs modules' copied' q k := by
  cases part with
  | ofModule mem relative source => exact .ofModule (modules_ mem) relative source
  | ofDirectory mem fileName source isKept =>
    exact .ofDirectory (copied_ mem) fileName source (kept_ _ _ _ source isKept)

/-- One module more is one file more. -/
theorem part_concat_module {m : LocalModule} (relative : m.relativePath.steps = names.map .name) :
    Part kept fs modules copied q k ∨ q = names ∧ fs.kind? (fs.named m.absolutePath) = some k ↔
      Part kept fs (modules ++ [m]) copied q k := by
  constructor
  · rintro (part | ⟨rfl, source⟩)
    · exact part.map (List.subset_append_left _ _) (List.Subset.refl _) fun _ _ _ _ => id
    · exact .ofModule (by simp) relative source
  · intro part
    cases part with
    | ofModule mem relative' source =>
      rcases List.mem_append.mp mem with before | last
      · exact .inl (.ofModule before relative' source)
      · obtain rfl := List.mem_singleton.mp last
        have same := List.map_injective_iff.mpr (fun _ _ => Path.Component.name.inj) (relative'.symm.trans relative)
        exact .inr ⟨same, source⟩
    | ofDirectory mem fileName source isKept => exact .inl (.ofDirectory mem fileName source isKept)

/-- One directory more is what is kept of it. -/
theorem part_concat_directory {d : Path} (fileName : d.fileName? = some name) :
    (Part kept fs modules copied q k ∨ ∃ rest, q = name :: rest ∧ fs.kind? (fs.named d ++ rest) = some k ∧ kept rest) ↔
      Part kept fs modules (copied ++ [d]) q k := by
  constructor
  · rintro (part | ⟨rest, rfl, source, isKept⟩)
    · exact part.map (List.Subset.refl _) (List.subset_append_left _ _) fun _ _ _ _ => id
    · exact .ofDirectory (by simp) fileName source isKept
  · intro part
    cases part with
    | ofModule mem relative source => exact .inl (.ofModule mem relative source)
    | ofDirectory mem fileName' source isKept =>
      rcases List.mem_append.mp mem with before | last
      · exact .inl (.ofDirectory before fileName' source isKept)
      · obtain rfl := List.mem_singleton.mp last
        cases fileName'.symm.trans fileName
        exact .inr ⟨_, rfl, source, isKept⟩

/-! ## The steps -/

section

variable (plain : fs.Plain) (written : b.directory.isEmpty = false) (level : .up ∉ b.directory.steps)

include plain written level

/-- **A bundle that is made anew has no parts.** -/
theorem laid_reset {answer : Unit} (run : b.reset.Runs s answer t) (same : s.files = fs) :
    Laid fs (fs.named b.directory) (Part kept fs [] []) t.files := by
  subst same
  obtain ⟨empty, aside⟩ := kind?_of_reset plain written level run
  have none : ∀ q k, ¬ Part kept s.files [] [] q k := by
    rintro q k (⟨mem, -, -⟩ | ⟨mem, -, -, -⟩)
    · cases mem
    · cases mem
  refine ⟨?_, aside, fun q k => ?_⟩
  · exact (runs_reset run).within.workPlace.trans (FileSystem.within_without _ _).workPlace.symm
  · cases q with
    | nil =>
      rw [List.append_nil, empty.directory]
      constructor
      · rintro ⟨⟩
        exact .inr ⟨rfl, .inl rfl⟩
      · rintro (part | ⟨rfl, -⟩)
        · exact absurd part (none _ _)
        · rfl
    | cons name rest =>
      rw [empty.bare]
      refine ⟨nofun, ?_⟩
      rintro (part | ⟨-, impossible | ⟨_, _, -, part⟩⟩)
      · exact absurd part (none _ _)
      · cases impossible
      · exact absurd part (none _ _)

/-- **A module is put into a bundle** that has no other one at its path, except for the same source. -/
theorem laid_module {m : LocalModule} (isNames : ∀ c ∈ m.relativePath.components, ∃ name, c = .name name)
    (unique : ∀ m' ∈ done, m'.relativePath.steps = m.relativePath.steps →
      fs.named m'.absolutePath = fs.named m.absolutePath)
    (apart : Apart (fs.named b.directory) (fs.named m.absolutePath))
    (laid : Laid fs (fs.named b.directory) (Part kept fs done []) s.files) (run : (b.copyModule m).Runs s () t) :
    Laid fs (fs.named b.directory) (Part kept fs (done ++ [m]) []) t.files := by
  obtain ⟨relative, names, steps⟩ := Path.exists_names isNames
  have onward : b.directory.GoesOn names (b.directory.join m.relativePath) := Path.goesOn_join written relative steps
  have target : s.files.named (b.directory.join m.relativePath) = fs.named b.directory ++ names := by
    rw [FileSystem.named_of_goesOn onward, FileSystem.named_congr laid.workPlace]
  have source : s.files.named m.absolutePath = fs.named m.absolutePath := FileSystem.named_congr laid.workPlace _
  have level' : .up ∉ (b.directory.join m.relativePath).steps := onward.up_notMem_steps level
  unfold copyModule at run
  obtain ⟨_, m₁, made, run⟩ := Step.runs_bind.mp run
  obtain ⟨_, m₂, copied, noted⟩ := Step.runs_bind.mp run
  cases Step.runs_note.mp noted
  have plain' : s.files.Plain := laid.plain plain fun _ _ => Part.exists_origin
  have different : s.files.named (b.directory.join m.relativePath) ≠ s.files.named m.absolutePath := by
    rw [target, source]
    exact (apart.extend names).ne
  obtain ⟨content, executable, copied⟩ := exists_copied plain' level' different made copied
  rw [target, source] at copied
  refine (laid.file copied apart fun k part => ?_).congr fun q k => part_concat_module steps
  cases part with
  | ofModule mem steps' holds => rwa [← unique _ mem (steps'.trans steps.symm)]
  | ofDirectory mem => cases mem

/-- **Modules are put into a bundle one by one.** -/
theorem laid_modules (isNames : ∀ m ∈ todo, ∀ c ∈ m.relativePath.components, ∃ name, c = .name name)
    (unique : ∀ m ∈ done ++ todo, ∀ m' ∈ done ++ todo, m'.relativePath.steps = m.relativePath.steps →
      fs.named m'.absolutePath = fs.named m.absolutePath)
    (apart : ∀ m ∈ todo, Apart (fs.named b.directory) (fs.named m.absolutePath))
    (laid : Laid fs (fs.named b.directory) (Part kept fs done []) s.files)
    (run : (todo.forM b.copyModule).Runs s () t) :
    Laid fs (fs.named b.directory) (Part kept fs (done ++ todo) []) t.files := by
  induction todo generalizing done s with
  | nil =>
    cases Step.runs_forM_nil.mp run
    rwa [List.append_nil]
  | cons m todo ih =>
    obtain ⟨v, first, later⟩ := Step.runs_forM_cons.mp run
    obtain ⟨isNames₁, isNames'⟩ := List.forall_mem_cons.mp isNames
    obtain ⟨apart₁, apart'⟩ := List.forall_mem_cons.mp apart
    have before : ∀ m' ∈ done, m'.relativePath.steps = m.relativePath.steps →
        fs.named m'.absolutePath = fs.named m.absolutePath := fun m' mem =>
      unique m (by simp) m' (List.mem_append_left _ mem)
    have next := laid_module plain written level isNames₁ before apart₁ laid first
    rw [List.append_cons] at unique ⊢
    exact ih isNames' unique apart' next later

/-- **A directory is put into a bundle** at its name, where nothing has been. -/
theorem laid_copyTree {d : Path} (proper : fs.Proper) (fileName : d.fileName? = some name)
    (absolute : d.isAbsolute = true) (stands : s.files.kind? (s.files.named d) = some .directory)
    (apart : Apart (fs.named b.directory) (fs.named d))
    (laid : Laid fs (fs.named b.directory) (Part (b.Keeps []) fs modules copied) s.files)
    (run : (b.copyTree d (b.directory.push name)).Runs s () t) :
    Laid fs (fs.named b.directory) (Part (b.Keeps []) fs modules (copied ++ [d])) t.files := by
  have isName : IsFileName name := isFileName_of_fileName? fileName
  have target : s.files.named (b.directory.push name) = fs.named b.directory ++ [name] := by
    rw [FileSystem.named_push isName, FileSystem.named_congr laid.workPlace]
  have source : s.files.named d = fs.named d := FileSystem.named_congr laid.workPlace d
  have level' : .up ∉ (b.directory.push name).steps := by
    rw [Path.steps_push written isName]
    simpa using level
  have put := copyTree_spec (Path.endsInName_push _ isName) level'
    (laid.plain plain fun _ _ => Part.exists_origin) ?_ (Path.isEmpty_of_isAbsolute absolute) ?_ stands ?_ run
  · rw [target, source] at put
    obtain ⟨missing, tree⟩ := put
    exact (laid.tree tree missing apart).congr fun q k => part_concat_directory fileName
  · rw [target, List.dropLast_concat]
    exact laid.directory
  · intro r present other mem
    rw [source, laid.apart apart] at present
    exact proper _ present other (List.mem_append_right _ mem)
  · rw [target, source]
    exact apart.extend [name]

/-- **A directory with a name is copied** to its name in a bundle, and anything else is left out. -/
theorem laid_additional {p : Path} {d? : Option Path} (proper : fs.Proper)
    (work : ∀ name ∈ fs.workPlace, IsFileName name) (apart : Apart (fs.named b.directory) (fs.named p))
    (laid : Laid fs (fs.named b.directory) (Part (b.Keeps []) fs modules copied) s.files)
    (run : (b.copyAdditional p).Runs s d? t) : d? = s.files.namedDirectory? p ∧
      Laid fs (fs.named b.directory) (Part (b.Keeps []) fs modules (copied ++ d?.toList)) t.files := by
  unfold copyAdditional at run
  have run := Step.runs_files_bind.mp run
  unfold FileSystem.namedDirectory?
  split at run
  · rename_i other
    obtain ⟨_, m, noted, ended⟩ := Step.runs_bind.mp run
    cases Step.runs_note.mp noted
    obtain ⟨rfl, rfl⟩ := Step.runs_pure.mp ended
    rw [if_neg (by simpa using other), Option.toList_none, List.append_nil]
    exact ⟨rfl, laid⟩
  · rename_i directory
    obtain ⟨source, made, run⟩ := Step.runs_demand_bind.mp run
    have directory : s.files.isDirectory p = true := by simpa using directory
    rw [if_pos directory, made]
    split at run
    · rename_i fileName
      obtain ⟨_, m, noted, ended⟩ := Step.runs_bind.mp run
      cases Step.runs_note.mp noted
      obtain ⟨rfl, rfl⟩ := Step.runs_pure.mp ended
      rw [Option.toList_none, List.append_nil]
      exact ⟨by simp [Except.toOption, Option.filter, fileName], laid⟩
    · rename_i name fileName
      obtain ⟨_, m, run, ended⟩ := Step.runs_bind.mp run
      obtain ⟨rfl, rfl⟩ := Step.runs_pure.mp ended
      refine ⟨by simp [Except.toOption, Option.filter, fileName], ?_⟩
      have same : s.files.named source = s.files.named p := FileSystem.named_of_absolute (laid.workPlace ▸ work) made
      obtain ⟨place, found, holds⟩ := FileSystem.isDirectory_iff.mp directory
      have plain' : s.files.Plain := laid.plain plain fun _ _ => Part.exists_origin
      rw [plain'.place_eq_named found, ← same] at holds
      rw [FileSystem.named_congr laid.workPlace, FileSystem.named_congr laid.workPlace] at same
      exact laid_copyTree plain written level proper fileName (FileSystem.isAbsolute_of_absolute made) holds
        (same ▸ apart) laid run

/-- **Directories are copied one by one.** -/
theorem laid_filterMapM {additional : List Path} (proper : fs.Proper)
    (work : ∀ name ∈ fs.workPlace, IsFileName name)
    (apart : ∀ p ∈ additional, Apart (fs.named b.directory) (fs.named p))
    (avoids : ∀ p ∈ additional, ∀ station ∈ fs.trail p, ¬ fs.named b.directory <+: station) {before : List Path}
    (laid : Laid fs (fs.named b.directory) (Part (b.Keeps []) fs modules before) s.files)
    (run : (additional.filterMapM b.copyAdditional).Runs s copied t) :
    copied = additional.filterMap t.files.namedDirectory? ∧
      Laid fs (fs.named b.directory) (Part (b.Keeps []) fs modules (before ++ copied)) t.files := by
  induction additional generalizing s before copied with
  | nil =>
    obtain ⟨rfl, rfl⟩ := Step.runs_filterMapM_nil.mp run
    exact ⟨rfl, by rwa [List.append_nil]⟩
  | cons p additional ih =>
    obtain ⟨d?, others, v, first, later, rfl⟩ := Step.runs_filterMapM_cons.mp run
    obtain ⟨apart₁, apart'⟩ := List.forall_mem_cons.mp apart
    obtain ⟨avoids₁, avoids'⟩ := List.forall_mem_cons.mp avoids
    obtain ⟨told, next⟩ := laid_additional plain written level proper work apart₁ laid first
    obtain ⟨toldOthers, last⟩ := ih apart' avoids' next later
    have same : s.files.namedDirectory? p = t.files.namedDirectory? p :=
      laid.namedDirectory?_eq last (laid.plain plain fun _ _ => Part.exists_origin)
        (last.plain plain fun _ _ => Part.exists_origin) avoids₁
    rw [List.append_assoc] at last
    refine ⟨?_, last⟩
    rw [List.filterMap_cons, ← same, ← told, ← toldOthers]
    cases d? <;> rfl

end

/-! ## Whole bundles -/

/-- What a bundle with a filter keeps is what the filter keeps. -/
theorem keeps_filter {directory : Path} {filter : Glob.Filter} {rest : Place}
    (proper : ∀ name ∈ rest, IsFileName name) :
    (Bundle.mk directory filter.excludes).Keeps [] rest ↔ filter.Keeps rest := by
  have excludes : ∀ front name, front ++ [name] <+: rest →
      (filter.excludes (.ofNames (front ++ [name])) = false ↔ ∀ glob ∈ filter.globs,
        Glob.isMatch glob (Path.ofNames (front ++ [name])).text = false ∧ Glob.isMatch glob name = false) := by
    intro front name before
    have fileName : (Path.ofNames (front ++ [name])).fileName? = some name :=
      Path.fileName?_ofNames fun other mem => proper other (before.subset mem)
    unfold Glob.Filter.excludes
    rw [fileName]
    simp [forall_and]
  constructor
  · intro kept front name before
    exact (excludes front name before).mp (kept _ before (by simp))
  · intro kept front before some
    rcases List.eq_nil_or_concat front with rfl | ⟨front, name, rfl⟩
    · exact absurd rfl some
    · rw [List.concat_eq_append] at before ⊢
      exact (excludes front name before).mpr (kept front name before)

/-- **A bundle that is written is laid out** with its parts. -/
theorem laid_emit {additional : List Path} (plain : s.files.Plain) (proper : s.files.Proper)
    (work : ∀ name ∈ s.files.workPlace, IsFileName name) (written : b.directory.isEmpty = false)
    (level : .up ∉ b.directory.steps)
    (isNames : ∀ m ∈ modules, ∀ c ∈ m.relativePath.components, ∃ name, c = .name name)
    (unique : ∀ m ∈ modules, ∀ m' ∈ modules, m.relativePath.sameAs m'.relativePath = true →
      m.absolutePath.sameAs m'.absolutePath = true)
    (apart : ∀ m ∈ modules, Apart (s.files.named b.directory) (s.files.named m.absolutePath))
    (beside : ∀ p ∈ additional, Apart (s.files.named b.directory) (s.files.named p))
    (avoids : ∀ p ∈ additional, ∀ station ∈ s.files.trail p, ¬ s.files.named b.directory <+: station)
    (run : (b.emit modules additional).Runs s copied t) :
    copied = additional.filterMap t.files.namedDirectory? ∧
      Laid s.files (s.files.named b.directory) (Part (b.Keeps []) s.files modules copied) t.files := by
  have alone : ∀ m ∈ modules, ∀ m' ∈ modules, m'.relativePath.steps = m.relativePath.steps →
      s.files.named m'.absolutePath = s.files.named m.absolutePath := by
    intro m mem m' mem' steps
    have lead := (Path.lead_eq_nil_of_names (isNames m' mem')).trans (Path.lead_eq_nil_of_names (isNames m mem)).symm
    exact FileSystem.named_of_sameAs (unique m' mem' m mem (Path.sameAs_iff.mpr ⟨lead, steps⟩))
  unfold emit at run
  obtain ⟨_, m₁, renewed, run⟩ := Step.runs_bind.mp run
  obtain ⟨_, m₂, put, run⟩ := Step.runs_bind.mp run
  have empty : Laid s.files (s.files.named b.directory) (Part (b.Keeps []) s.files [] []) m₁.files :=
    laid_reset plain written level renewed rfl
  have filled := laid_modules plain written level isNames alone apart empty put
  exact laid_filterMapM plain written level proper work beside avoids filled run

/-- **A bundle that is written is exactly its parts.** Without links, and if what is put into it lies apart from it and
no path of an additional directory leads through it, its directory holds each module at its relative path, and of each
additional directory that has a name what the filter keeps. All else stays, but for the directories on the way. -/
theorem emit_exact {directory : Path} {filter : Glob.Filter} {modules : List LocalModule} {additional : List Path}
    (plain : s.files.Plain) (proper : s.files.Proper) (work : ∀ name ∈ s.files.workPlace, IsFileName name)
    (written : directory.isEmpty = false) (level : .up ∉ directory.steps)
    (isNames : ∀ m ∈ modules, ∀ c ∈ m.relativePath.components, ∃ name, c = .name name)
    (unique : ∀ m ∈ modules, ∀ m' ∈ modules, m.relativePath.sameAs m'.relativePath = true →
      m.absolutePath.sameAs m'.absolutePath = true)
    (apart : ∀ m ∈ modules, Apart (s.files.named directory) (s.files.named m.absolutePath))
    (beside : ∀ p ∈ additional, Apart (s.files.named directory) (s.files.named p))
    (avoids : ∀ p ∈ additional, ∀ station ∈ s.files.trail p, ¬ s.files.named directory <+: station)
    (run : (emit ⟨directory, filter.excludes⟩ modules additional).Runs s copied t) :
    copied = additional.filterMap t.files.namedDirectory? ∧
      Laid s.files (s.files.named directory) (Part filter.Keeps s.files modules copied) t.files := by
  obtain ⟨told, laid⟩ := laid_emit (b := ⟨directory, filter.excludes⟩) plain proper work written level isNames unique
    apart beside avoids run
  refine ⟨told, laid.congr fun q k => ?_⟩
  have keeps : ∀ rest k d, s.files.kind? (s.files.named d ++ rest) = some k →
      ((Bundle.mk directory filter.excludes).Keeps [] rest ↔ filter.Keeps rest) := by
    intro rest k d stands
    have present : s.files.kind? (s.files.named d ++ rest) ≠ none := by simp [stands]
    exact keeps_filter fun name mem => proper _ present name (List.mem_append_right _ mem)
  constructor
  · exact fun part => part.map (List.Subset.refl _) (List.Subset.refl _) fun rest k d stands =>
      (keeps rest k d stands).mp
  · exact fun part => part.map (List.Subset.refl _) (List.Subset.refl _) fun rest k d stands =>
      (keeps rest k d stands).mpr

/-! ## Bundles that hold more or less -/

instance (p q : Place) : Decidable (Apart p q) := inferInstanceAs (Decidable (_ ∧ _))

/-- A file, a directory and the bundle of an earlier run. -/
def keptFiles : FileSystem where
  entries := [("keep.txt", .file "old\n".toUTF8 false), ("assets", .directory [("y.txt", .file "y\n".toUTF8 false)]),
    ("out", .directory [("lib", .directory [("z.txt", .file "z\n".toUTF8 false)])])]

/-- The bundle of additional directories alone, from which nothing is left out. -/
def written (directory : String) (additional : List Path) : Except BundleError (List Path) × Session :=
  (emit ⟨⟨directory⟩, fun _ => false⟩ [] additional).outcome { files := keptFiles }

/-- **A bundle may hold more than its parts or less.** A bundle at the empty path is not made anew, so a file stays
in the directory that the path names. A directory is left out if its path leads through what a reset takes away, and a
path that has led nowhere is copied if it leads through what a reset makes. -/
theorem emit_notExact :
    ((written "" []).1.toOption = some [] ∧
        (written "" []).2.files.kind? (keptFiles.named ⟨""⟩ ++ ["keep.txt"]) = keptFiles.kind? ["keep.txt"] ∧
        keptFiles.kind? ["keep.txt"] ≠ none) ∧
      (keptFiles.isDirectory ⟨"/out/lib/../../assets"⟩ = true ∧
        Apart (keptFiles.named ⟨"/out"⟩) (keptFiles.named ⟨"/out/lib/../../assets"⟩) ∧
        (written "/out" [⟨"/out/lib/../../assets"⟩]).1.toOption = some []) ∧
      keptFiles.isDirectory ⟨"/new/../assets"⟩ = false ∧
        Apart (keptFiles.named ⟨"/new/out"⟩) (keptFiles.named ⟨"/new/../assets"⟩) ∧
        (written "/new/out" [⟨"/new/../assets"⟩]).1.toOption = some [⟨"/new/../assets"⟩] := by
  decide +kernel

/-- A script and a directory, and what an earlier run has left. -/
def scriptAndLibrary : FileSystem where
  entries := [("main.py", .file "x = 1\n".toUTF8 false),
    ("lib", .directory [("a.py", .file "a = 1\n".toUTF8 false), ("a.pyc", .file "".toUTF8 false)]),
    ("out", .directory [("stale.py", .file "".toUTF8 false)])]

/-- A filter that leaves out what ends in `.pyc`. -/
def compiledFilter : Glob.Filter := ⟨[[.many, .literal '.', .literal 'p', .literal 'y', .literal 'c']]⟩

/-- The bundle of the script and the directory. -/
def bundled : Except BundleError (List Path) × Session :=
  (emit ⟨⟨"/out"⟩, compiledFilter.excludes⟩ [.entry ⟨"/main.py"⟩] [⟨"/lib"⟩]).outcome { files := scriptAndLibrary }

/-- A script and a directory are put into a bundle without what a filter leaves out. -/
theorem emit_exact_script :
    [⟨"/lib"⟩] = List.filterMap bundled.2.files.namedDirectory? [⟨"/lib"⟩] ∧
      Laid scriptAndLibrary ["out"] (Part compiledFilter.Keeps scriptAndLibrary [.entry ⟨"/main.py"⟩] [⟨"/lib"⟩])
        bundled.2.files := by
  have answered : bundled.1.toOption = some [⟨"/lib"⟩] := by decide +kernel
  have isNames : ∀ m ∈ [LocalModule.entry ⟨"/main.py"⟩], ∀ c ∈ m.relativePath.components, ∃ name, c = .name name := by
    intro m mem c inside
    obtain rfl := List.mem_singleton.mp mem
    have components : (LocalModule.entry ⟨"/main.py"⟩).relativePath.components = [.name "main.py"] := by decide
    rw [components] at inside
    exact ⟨"main.py", List.mem_singleton.mp inside⟩
  have unique : ∀ m ∈ [LocalModule.entry ⟨"/main.py"⟩], ∀ m' ∈ [LocalModule.entry ⟨"/main.py"⟩],
      m.relativePath.sameAs m'.relativePath = true → m.absolutePath.sameAs m'.absolutePath = true := by
    intro m mem m' mem' _
    obtain rfl := List.mem_singleton.mp mem
    obtain rfl := List.mem_singleton.mp mem'
    exact Path.sameAs_refl _
  have run := Step.runs_of_toOption (x := emit ⟨⟨"/out"⟩, compiledFilter.excludes⟩ [.entry ⟨"/main.py"⟩] [⟨"/lib"⟩])
    (s := { files := scriptAndLibrary }) answered
  have place : scriptAndLibrary.named ⟨"/out"⟩ = ["out"] := by decide +kernel
  rw [← place]
  exact emit_exact (s := { files := scriptAndLibrary }) (t := bundled.2)
    (FileSystem.plain_of_all (by decide +kernel)) (FileSystem.proper_of_all (by decide +kernel)) nofun
    (by decide) (by decide +kernel) isNames unique (by decide +kernel) (by decide +kernel) (by decide +kernel) run

end Bundle

end PyBundle
