import PyBundle.Proofs.Bundle.Snapshot

/-!
# Bundles in directories that they are made of

No path of an additional directory is compared with the directory of the bundle, so the one may hold the other. A bundle
is written to its end or to a failure wherever they lie, and the copy of a directory takes what stood there when it
began, if the directory is shut against the place of the copy (`emit_snapshot`). If it is not, then a copy that comes to
its end has its own place in it.
-/

namespace PyBundle.Bundle

open FileSystem (Adds Passes IsPaved pathLimit)

variable {b : Bundle} {s t u v : Session} {ground fs fs' : FileSystem} {source target q : Place} {p root : Path}
  {name : String} {names : List String} {copied : List Path}

/-! ## Places that are taken -/

/-- All stands as it stood. -/
def Same (ground fs : FileSystem) : Prop := ground.Adds (fun _ => False) fs

theorem Same.refl (ground : FileSystem) : Same ground ground := Adds.refl ground _

theorem Same.kind?_eq (same : Same ground fs) (q : Place) : fs.kind? q = ground.kind? q :=
  (same.kinds q).resolve_right And.left

theorem Same.plain (same : Same ground fs) (plain : ground.Plain) : fs.Plain := fun q link entry =>
  plain q link ((same.kind?_eq q).symm.trans entry)

theorem Same.pathExists_eq_false (same : Same ground fs) (plain : ground.Plain) (free : ground.pathExists p = false) :
    fs.pathExists p = false := by
  refine Bool.eq_false_iff.mpr fun there => ?_
  obtain ⟨place, found⟩ := FileSystem.pathExists_iff.mp there
  have before := (same.plain plain).place_of_same same.workPlace.symm (fun q _ => (same.kind?_eq q).symm) found
  cases free.symm.trans (FileSystem.pathExists_iff.mpr ⟨place, before⟩)

/-- A directory is not made at a place that is taken, nor are any around it. -/
theorem not_create_of_taken (plain : ground.Plain) (paved : ground.IsPaved b.directory) (isName : IsFileName name)
    (taken : ground.kind? (ground.named b.directory ++ [name]) ≠ none) (same : Same ground fs)
    (free : fs.pathExists (b.directory.push name) = false) :
    Step.Keeps (Same ground) (create ((b.directory.push name).push "")) fun _ => False := by
  have ends := Path.endsInName_push b.directory isName
  have first := b.directory.goesOn_push isName
  have onward : b.directory.GoesOn ([name] ++ []) ((b.directory.push name).push "") :=
    first.trans (Path.goesOn_join_ofNames first.written nofun)
  intro s start
  have adds := (start.plain plain).adds_makeDirectories ((b.directory.push name).push "")
  have nothing : Same s.files (s.files.makeDirectories ((b.directory.push name).push "")).1 := by
    refine ⟨adds.workPlace, fun q => .inl ((adds.kinds q).resolve_right ?_)⟩
    rintro ⟨passes, missing, -⟩
    obtain ⟨mem, notStart⟩ := (FileSystem.passes_congr start.workPlace).mp passes
    rw [FileSystem.startOf_of_goesOn onward] at notStart
    rw [start.kind?_eq] at missing
    rcases FileSystem.mem_trail_of_goesOn onward mem with around | ⟨front, some, before, rfl⟩
    · cases missing.symm.trans (paved q around notStart)
    · obtain ⟨last, rest, rfl⟩ := List.exists_cons_of_ne_nil some
      obtain ⟨rfl, none⟩ := List.cons_prefix_cons.mp before
      rw [List.prefix_nil.mp none] at missing
      exact taken missing
  refine ⟨?_, fun made ended => ?_⟩
  · unfold create
    rw [Step.outcome_change]
    exact start.trans nothing
  · have back : Same fs s.files := ⟨start.workPlace.trans same.workPlace.symm, fun q =>
      .inl ((start.kind?_eq q).trans (same.kind?_eq q).symm)⟩
    have run : (create ((b.directory.push name).push "")).Runs s () _ := Prod.ext ended rfl
    refine not_same_of_create (start.plain plain) ends (back.pathExists_eq_false (same.plain plain) free) run ?_ ?_
    · unfold create
      rw [Step.outcome_change]
      exact nothing.workPlace
    · unfold create
      rw [Step.outcome_change]
      exact nothing.kind?_eq

/-- **A copy fails and changes nothing if something stands at its place,** whether or not a path leads there. -/
theorem not_copyTree_of_taken (plain : ground.Plain) (paved : ground.IsPaved b.directory) (isName : IsFileName name)
    (stands : ground.kind? (ground.named root) = some .directory)
    (taken : ground.kind? (ground.named b.directory ++ [name]) ≠ none) :
    Step.Keeps (Same ground) (b.copyTree root (b.directory.push name)) fun _ => False := by
  unfold copyTree
  refine Step.keeps_files.bind fun fs before => ?_
  split
  · exact Step.keeps_throw.bind (fun _ (impossible : False) => impossible.elim)
  · rename_i free
    refine Step.keeps_demand.bind fun found itself => ?_
    obtain ⟨place, n⟩ := found
    have stands' : fs.kind? (fs.named root) = some .directory := by
      rw [FileSystem.named_congr before.workPlace, before.kind?_eq, stands]
    obtain ⟨directory, noLink⟩ := isDirectory_of_nodeItself (before.plain plain) stands' itself
    have failed : Step.Keeps (Same ground) (b.copyEntry (b.directory.push name) pathLimit [] root ⟨""⟩ n)
        fun _ => False := by
      obtain ⟨fuel, limit⟩ : ∃ fuel, pathLimit = fuel + 1 := ⟨_, rfl⟩
      rw [limit]
      unfold copyEntry
      refine Step.keeps_files.bind fun _ _ => Step.keeps_demand.bind fun isDirectory led => ?_
      unfold leadsToDirectory at led
      rw [noLink, directory] at led
      cases led
      split
      · rename_i excluded
        cases excluded
      · exact (not_create_of_taken plain paved isName taken before (Bool.eq_false_iff.mpr free)).bind
          fun _ (impossible : False) => impossible.elim
    exact failed.bind fun _ (impossible : False) => impossible.elim

/-! ## Copies that meet themselves -/

/-- **No directory goes.** -/
structure Grows (ground fs : FileSystem) : Prop where
  workPlace : fs.workPlace = ground.workPlace
  plain : fs.Plain
  proper : fs.Proper
  stays : ∀ q, ground.kind? q = some .directory → fs.kind? q = some .directory

theorem grows_keptByDirectories (ground : FileSystem) : FileSystem.KeptByDirectories (Grows ground) :=
  fun fs directory name grows holds missing isName =>
    have more : fs.Within (fs.put (directory ++ [name]) (.directory [])) := FileSystem.within_put missing
    ⟨more.workPlace.trans grows.workPlace,
      FileSystem.plain_keptByDirectories fs directory name grows.plain holds missing isName,
      FileSystem.proper_keptByDirectories fs directory name grows.proper holds missing isName,
      fun q stood => more.kind (grows.stays q stood)⟩

theorem keeps_grows_copyFile (ground : FileSystem) (source target : Path) :
    Step.Keeps (Grows ground) (copyFile source target) fun _ => True := by
  refine keeps_copyFile fun fs fs' grows copied => ?_
  obtain ⟨_, place, content, executable, -, -, writes, rfl⟩ := FileSystem.copy_eq_ok copied
  have notDirectory : fs.kind? place ≠ some .directory := by
    obtain ⟨-, -, -, -, notDirectory⟩ := writes
    exact notDirectory
  refine ⟨(FileSystem.workPlace_put ..).trans grows.workPlace, fun q link entry => ?_, grows.proper.put writes,
    fun q stood => ?_⟩
  · rw [writes.kind?_put] at entry
    split at entry
    · cases entry
    · exact grows.plain q link entry
  · have stays := grows.stays q stood
    rw [writes.kind?_put, if_neg, stays]
    rintro rfl
    exact notDirectory stays

theorem keptBelow_grows (b : Bundle) (ground : FileSystem) : KeptBelow b (Grows ground) where
  create _ := keeps_create (grows_keptByDirectories ground) _
  createParent _ := keeps_createParent (grows_keptByDirectories ground) _
  copyFile _ source := keeps_grows_copyFile ground source _

theorem Grows.refl (plain : ground.Plain) (proper : ground.Proper) : Grows ground ground :=
  ⟨rfl, plain, proper, fun _ => id⟩

/-- What is made is a directory at the place that its path names. -/
theorem kind?_named_of_create (plain : s.files.Plain) (written : p.isEmpty = false) (made : (create p).Runs s () t) :
    t.files.kind? (s.files.named p) = some .directory := by
  obtain ⟨files, changed, rfl⟩ := Step.runs_change.mp made
  obtain ⟨place, found, holds⟩ :=
    FileSystem.isDirectory_iff.mp (FileSystem.isDirectory_of_makeDirectories written changed)
  have plain' := FileSystem.plain_keptByDirectories.makeDirectories plain p
  have more := FileSystem.within_makeDirectories s.files p
  rw [changed] at plain' more
  rwa [← FileSystem.named_congr more.workPlace, ← plain'.place_eq_named found]

/-- **What the copy of a directory does** that is kept: it makes the directory, and then it goes through what is listed
there, while no directory goes. -/
theorem runs_copyEntry_directory {fuel : Nat} {ancestors : List Path} {path : Path} {n : Node}
    (isName : IsFileName name) (proper : s.files.Proper) (plain : s.files.Plain)
    (isNames : ∀ name ∈ names, IsFileName name) (directory : n.isDirectory = true) (kept : b.Keeps [] names)
    (run : (b.copyEntry (b.directory.push name) fuel ancestors path (.ofNames names) n).Runs s () t) :
    ∃ m entries fuel', ∃ each : String → Step BundleError Unit, Grows s.files m.files ∧
      m.files.kind? (s.files.named b.directory ++ [name] ++ names) = some .directory ∧
      m.files.list path = .ok entries ∧ ((Node.namesOf entries).forM each).Runs m () t ∧
      (∀ ground, ∀ todo : List String, Step.Keeps (Grows ground) (todo.forM each) fun _ => True) ∧
      ∀ child n', entries.lookup child = some n' → each child =
        b.copyEntry (b.directory.push name) fuel' (path :: ancestors) (path.push child)
          (.ofNames (names ++ [child])) n' := by
  cases fuel with
  | zero => exact absurd run Step.not_runs_throw
  | succ fuel =>
    have first := b.directory.goesOn_push isName
    have onward := first.trans (Path.goesOn_join_ofNames first.written isNames)
    rcases runs_copyEntry (Node.isLink_of_isDirectory directory) run with
      ⟨excluded, -⟩ | ⟨-, ⟨other, -⟩ | ⟨-, m, entries, made, listed, loop⟩⟩
    · exact absurd excluded (not_leftOut isNames kept)
    · cases other.symm.trans directory
    · have grows : Grows s.files m.files :=
        (keeps_create (grows_keptByDirectories s.files) _).of_runs (.refl plain proper) made
      have there := kind?_named_of_create plain onward.written made
      rw [FileSystem.named_of_goesOn onward, ← List.append_assoc] at there
      refine ⟨m, entries, fuel, _, grows, there, listed, loop, fun ground todo => Step.keeps_forM fun child _ => ?_, ?_⟩
      · split
        · rename_i n' inside
          have isChild : IsFileName child := grows.proper.isFileName listed inside
          rw [Path.push_ofNames isNames isChild]
          exact (keptBelow_grows b ground).copyEntry Grows.proper first _ _ _ _
            (Path.forall_isFileName_concat isNames isChild) n'
        · exact Step.keeps_pure ⟨⟩
      · intro child n' inside
        rw [inside, Path.push_ofNames isNames (grows.proper.isFileName listed inside)]

/-- **A copy that is made below a directory has itself in it,** if all on the way is kept. The induction is on what is
left of the way. -/
theorem meets_copyEntry {fuel : Nat} {ancestors : List Path} {path : Path} {n : Node} {rest : List String}
    (isName : IsFileName name) (proper : s.files.Proper) (plain : s.files.Plain)
    (isNames : ∀ name ∈ names, IsFileName name) (origin : root.GoesOn names path) (directory : n.isDirectory = true)
    (here : names = [] ∨ s.files.kind? (s.files.named b.directory ++ [name]) = some .directory)
    (way : s.files.named b.directory ++ [name] = s.files.named root ++ (names ++ rest))
    (kept : b.Keeps [] (names ++ rest))
    (run : (b.copyEntry (b.directory.push name) fuel ancestors path (.ofNames names) n).Runs s () t) :
    t.files.kind? (s.files.named b.directory ++ [name] ++ (names ++ rest)) = some .directory := by
  induction rest generalizing fuel s t ancestors path names n with
  | nil =>
    rw [List.append_nil] at kept ⊢
    obtain ⟨m, entries, fuel', each, grows, made, listed, loop, stay, -⟩ :=
      runs_copyEntry_directory isName proper plain isNames directory kept run
    exact ((stay _ _).of_runs (.refl grows.plain grows.proper) loop).stays _ made
  | cons child rest ih =>
    obtain ⟨m, entries, fuel', each, grows, made, listed, loop, stay, enters⟩ :=
      runs_copyEntry_directory isName proper plain isNames directory (kept.of_isPrefix (List.prefix_append _ _)) run
    have copy : m.files.kind? (s.files.named b.directory ++ [name]) = some .directory := by
      rcases here with rfl | there
      · rwa [List.append_nil] at made
      · exact grows.stays _ there
    -- The next entry on the way to the copy is a directory now, so it is listed.
    have next : m.files.kind? (s.files.named root ++ names ++ child :: []) = some .directory := by
      refine FileSystem.kind?_eq_directory_of_isPrefix copy ?_
      rw [way]
      exact ⟨rest, by simp⟩
    have stands := grows.plain.kind?_of_list listed
    rw [FileSystem.named_congr grows.workPlace, FileSystem.named_of_goesOn origin] at stands
    rw [FileSystem.kind?_of_lookup stands] at next
    obtain ⟨n', inside, kind⟩ : ∃ n', entries.lookup child = some n' ∧ n'.kind = .directory := by
      cases inside : entries.lookup child with
      | none => rw [inside] at next; cases next
      | some n' =>
        rw [inside] at next
        exact ⟨n', rfl, by simpa using next⟩
    have isChild : IsFileName child := grows.proper.isFileName listed inside
    obtain ⟨before, after, u, v, -, first, entered, last⟩ :=
      Step.exists_split_of_runs loop (Node.mem_namesOf.mpr (by rw [inside]; rfl))
    have reached : Grows m.files u.files := (stay _ before).of_runs (.refl grows.plain grows.proper) first
    have alone : ([child].forM each).Runs u () v := Step.runs_forM_cons.mpr ⟨v, entered, Step.runs_forM_nil.mpr rfl⟩
    have passed : Grows u.files v.files := (stay _ _).of_runs (.refl reached.plain reached.proper) alone
    have workPlace : u.files.workPlace = s.files.workPlace := reached.workPlace.trans grows.workPlace
    rw [enters child n' inside] at entered
    rw [List.append_cons names] at way kept ⊢
    have met := ih reached.proper reached.plain
      (Path.forall_isFileName_concat isNames isChild)
      (origin.trans (path.goesOn_push isChild)) (Node.isDirectory_iff.mpr kind) ?_ ?_ kept entered
    · rw [FileSystem.named_congr workPlace] at met
      exact ((stay _ after).of_runs (.refl passed.plain passed.proper) last).stays _ met
    · rw [FileSystem.named_congr workPlace]
      exact .inr (reached.stays _ copy)
    · rw [FileSystem.named_congr workPlace, FileSystem.named_congr workPlace, way]

/-- **A copy that comes to its end meets itself** if its directory is not shut against its place. Before it, nothing was
there. -/
theorem meets_copyTree {way : Place} (isName : IsFileName name) (proper : s.files.Proper) (plain : s.files.Plain)
    (paved : s.files.IsPaved b.directory) (written : root.isEmpty = false)
    (stands : s.files.kind? (s.files.named root) = some .directory)
    (inside : s.files.named b.directory ++ [name] = s.files.named root ++ way) (kept : b.Keeps [] way)
    (run : (b.copyTree root (b.directory.push name)).Runs s () t) :
    s.files.kind? (s.files.named b.directory ++ [name]) = none ∧
      t.files.kind? (s.files.named b.directory ++ [name] ++ way) = some .directory := by
  constructor
  · by_contra taken
    exact (not_copyTree_of_taken plain paved isName stands taken s (.refl _)).2 () (congrArg Prod.fst run)
  · obtain ⟨-, place, n, v, itself, copied, same⟩ := runs_copyTree run
    obtain ⟨directory, -⟩ := isDirectory_of_nodeItself plain stands itself
    have origin : root.GoesOn [] root := ⟨written, rfl, by simp, nofun⟩
    rw [same]
    exact meets_copyEntry isName proper plain (List.forall_mem_nil _) origin directory (.inl rfl) inside kept copied

/-! ## Where what is copied comes from -/

/-- **What stands has stood before, or is in a directory or on the way to it.** -/
structure Springs (ground : FileSystem) (p : Path) (fs : FileSystem) : Prop where
  workPlace : fs.workPlace = ground.workPlace
  plain : fs.Plain
  old : ∀ q k, fs.kind? q = some k → ground.kind? q = some k ∨ ground.named p <+: q ∨ q ∈ ground.trail p

/-- It stays so when a directory is made on the trail or below. -/
theorem Springs.makeDirectories {p' : Path} (springs : Springs ground p fs)
    (near : ∀ q, q ∈ ground.trail p' → ground.named p <+: q ∨ q ∈ ground.trail p) :
    Springs ground p (fs.makeDirectories p').1 := by
  have adds := springs.plain.adds_makeDirectories p'
  refine ⟨adds.workPlace.trans springs.workPlace,
    FileSystem.plain_keptByDirectories.makeDirectories springs.plain p', fun q k entry => ?_⟩
  rcases adds.kinds q with same | ⟨⟨mem, -⟩, -⟩
  · exact springs.old q k (same.symm.trans entry)
  · rw [FileSystem.trail_congr springs.workPlace] at mem
    exact .inr (near q mem)

theorem keptBelow_springs (ground : FileSystem) (b : Bundle) : KeptBelow b (Springs ground b.directory) := by
  have near {names : List String} {p q} (onward : b.directory.GoesOn names p) (mem : q ∈ ground.trail p) :
      ground.named b.directory <+: q ∨ q ∈ ground.trail b.directory := by
    rcases FileSystem.mem_trail_of_goesOn onward mem with around | ⟨front, -, -, rfl⟩
    · exact .inr around
    · exact .inl (List.prefix_append _ _)
  constructor
  · exact fun onward => Step.keeps_change fun fs springs => springs.makeDirectories fun q => near onward
  · exact fun onward => keeps_createParent_of fun parent isParent _ => Step.keeps_change fun fs springs =>
      springs.makeDirectories fun q mem => near onward (FileSystem.mem_trail_of_parent? isParent mem)
  · intro names p onward source
    refine keeps_copyFile fun fs fs' springs copied => ?_
    obtain ⟨content, executable, -, -, -, workPlace, kinds⟩ := springs.plain.copy_eq_ok copied
    rw [FileSystem.named_congr springs.workPlace] at kinds
    refine ⟨workPlace.trans springs.workPlace, fun q link entry => ?_, fun q k entry => ?_⟩
    · rw [kinds] at entry
      split at entry
      · cases entry
      · exact springs.plain q link entry
    · rw [kinds] at entry
      split at entry
      · rename_i here
        rw [here, FileSystem.named_of_goesOn onward]
        exact .inr (.inl (List.prefix_append _ _))
      · exact springs.old q k entry

/-! ## When a copy begins -/

theorem keeps_grows_copyModule (ground : FileSystem) (m : LocalModule) :
    Step.Keeps (Grows ground) (b.copyModule m) fun _ => True :=
  (keeps_createParent (grows_keptByDirectories ground) _).bind fun _ _ =>
    (keeps_grows_copyFile ground _ _).bind fun _ _ => Step.keeps_note

/-- **After a reset there are directories along the way to the one of the bundle,** and no links. -/
theorem underway_of_reset (plain : s.files.Plain) (proper : s.files.Proper) (run : b.reset.Runs s () t) :
    t.files.workPlace = s.files.workPlace ∧ t.files.Plain ∧ t.files.Proper ∧ t.files.IsPaved b.directory := by
  have more := within_reset b s
  have plain' : (b.reset.outcome s).2.files.Plain :=
    reset_keeps FileSystem.plain_keptByDirectories fun _ cleared => plain.of_within cleared.old
  have proper' : (b.reset.outcome s).2.files.Proper :=
    reset_keeps FileSystem.proper_keptByDirectories fun _ cleared => proper.of_within cleared.old
  rw [show b.reset.outcome s = _ from run] at more plain' proper'
  refine ⟨more.workPlace.trans (FileSystem.within_without _ _).workPlace.symm, plain', proper', ?_⟩
  cases empty : b.directory.isEmpty with
  | true => exact FileSystem.isPaved_of_isEmpty empty
  | false => exact plain'.isPaved_of_isDirectory ((runs_reset run).isDirectory empty)

/-- **While a bundle is written there are directories along the way to its own,** and no links. -/
theorem underway_of_emit {modules : List LocalModule} {before : List Path} (plain : s.files.Plain)
    (proper : s.files.Proper) (run : (b.emit modules before).Runs s copied u) :
    u.files.workPlace = s.files.workPlace ∧ u.files.Plain ∧ u.files.Proper ∧ u.files.IsPaved b.directory := by
  unfold emit at run
  obtain ⟨_, m, renewed, run⟩ := Step.runs_bind.mp run
  obtain ⟨workPlace, plain', proper', paved⟩ := underway_of_reset plain proper renewed
  have modulesKept : Step.Keeps (Grows m.files) (modules.forM b.copyModule) fun _ => True :=
    Step.keeps_forM fun m' _ => keeps_grows_copyModule m.files m'
  have additionalKept : Step.Keeps (Grows m.files) (before.filterMapM b.copyAdditional) fun _ => True :=
    Step.keeps_filterMapM fun p _ => (keptBelow_grows b m.files).copyAdditional Grows.proper p
  have grows := (modulesKept.bind fun _ _ => additionalKept).of_runs (.refl plain' proper') run
  exact ⟨grows.workPlace.trans workPlace, grows.plain, grows.proper, paved.of_directories grows.workPlace grows.stays⟩

/-- **What stands when a copy begins** has stood before the run, or is in the directory of the bundle or on the way to
it. -/
theorem springs_of_emit {modules : List LocalModule} {before : List Path} (plain : s.files.Plain)
    (proper : s.files.Proper) (isNames : ∀ m ∈ modules, ∀ c ∈ m.relativePath.components, ∃ name, c = .name name)
    (run : (b.emit modules before).Runs s copied u) : Springs s.files b.directory u.files := by
  have kept := (keptBelow_springs s.files b).and (keptBelow_proper b)
  unfold emit at run
  obtain ⟨_, m, renewed, run⟩ := Step.runs_bind.mp run
  obtain ⟨workPlace, plain', proper', paved⟩ := underway_of_reset plain proper renewed
  have start : Springs s.files b.directory (b.reset.outcome s).2.files := by
    refine reset_keeps_of (fun fs springs => springs.makeDirectories fun q => .inr) fun fs cleared => ?_
    exact ⟨cleared.old.workPlace.symm, plain.of_within cleared.old, fun q k entry => .inl (cleared.old.kind entry)⟩
  rw [show b.reset.outcome s = _ from renewed] at start
  exact ((kept.copies And.right isNames before).of_runs ⟨start, proper'⟩ run).1

/-- The state in which a copy leaves is the one of the last additional directory. -/
theorem outcome_emit_concat {modules : List LocalModule} {before : List Path}
    (run : (b.emit modules before).Runs s copied u) :
    (b.emit modules (before ++ [p])).outcome s =
      (b.copyAdditional p >>= fun d? => pure (copied ++ d?.toList)).outcome u := by
  unfold emit at run ⊢
  obtain ⟨_, m, renewed, run⟩ := Step.runs_bind.mp run
  obtain ⟨_, m', filled, run⟩ := Step.runs_bind.mp run
  rw [Step.outcome_bind_ok renewed, Step.outcome_bind_ok filled, Step.outcome_filterMapM_concat run]

/-- What the copy of an additional directory leaves is what the copy of its tree leaves. -/
theorem outcome_copyAdditional (directory : s.files.isDirectory p = true) (made : s.files.absolute p = .ok root)
    (fileName : root.fileName? = some name) :
    (b.copyAdditional p).outcome s =
      (b.copyTree root (b.directory.push name) >>= fun _ => pure (some root)).outcome s := by
  unfold copyAdditional
  rw [Step.outcome_files_bind]
  simp only [directory, Bool.not_true, Bool.false_eq_true, if_false]
  rw [Step.outcome_demand_bind made]
  simp only [fileName]

/-- **What a bundle takes from a directory that holds it.** However directories lie, a bundle is written in the same way
with any bound on the depth from a limit on. A copy of a directory that is shut against its place changes nothing, or
takes what is kept of what stood there when it began. A copy of one that is not shut has its own place in it, if it
comes to its end. And what stood there when a copy began stood there before the run, or is in the directory of the
bundle or on the way to it. -/
theorem emit_snapshot {modules : List LocalModule} (plain : s.files.Plain) (proper : s.files.Proper) :
    (∀ additional depth, pathLimit ≤ depth →
      (b.emitWithin depth modules additional).outcome s = (b.emit modules additional).outcome s) ∧
    ∀ before p copied u root name, (b.emit modules before).Runs s copied u → u.files.namedDirectory? p = some root →
      root.fileName? = some name → ∀ answer t, (b.emit modules (before ++ [p])).outcome s = (answer, t) →
      ∀ source target, source = s.files.named p → target = s.files.named b.directory ++ [name] →
        (b.Shut source target → Same u.files t.files ∨
          u.files.kind? target = none ∧ Snapshot b u.files source target t.files) ∧
        (∀ way, target = source ++ way → b.Keeps [] way → ∀ copied', answer = .ok copied' →
          u.files.kind? target = none ∧ t.files.kind? (target ++ way) = some .directory) ∧
        ((∀ m ∈ modules, ∀ c ∈ m.relativePath.components, ∃ name, c = .name name) →
          ∀ q k, source <+: q → u.files.kind? q = some k → s.files.kind? q = some k ∨
            s.files.named b.directory <+: q ∨ q ∈ s.files.trail b.directory) := by
  refine ⟨fun additional depth deep => (sameWhere_emit deep modules additional s proper).symm, ?_⟩
  intro before p copied u root name run isNamed fileName answer t ended source target isSource isTarget
  obtain ⟨workPlace, plain', proper', paved⟩ := underway_of_emit plain proper run
  obtain ⟨directory, made, same, stands⟩ := FileSystem.namedDirectory?_spec plain' proper' isNamed
  have isName : IsFileName name := isFileName_of_fileName? fileName
  have written : root.isEmpty = false := Path.isEmpty_of_isAbsolute (FileSystem.isAbsolute_of_absolute made)
  rw [← FileSystem.named_congr workPlace, ← same] at isSource
  rw [← FileSystem.named_congr workPlace] at isTarget
  rw [← same] at stands
  rw [outcome_emit_concat run, Step.outcome_bind, outcome_copyAdditional directory made fileName,
    Step.outcome_bind] at ended
  have tree : ((b.copyTree root (b.directory.push name)).outcome u).2 = t ∧
      ∀ copied', answer = .ok copied' → (b.copyTree root (b.directory.push name)).Runs u () t := by
    unfold Step.Runs
    generalize (b.copyTree root (b.directory.push name)).outcome u = left at ended ⊢
    obtain ⟨e | _, m⟩ := left
    · cases ended
      exact ⟨rfl, nofun⟩
    · cases ended
      exact ⟨rfl, fun _ _ => rfl⟩
  obtain ⟨rfl, comes⟩ := tree
  subst isSource isTarget
  refine ⟨fun shut => ?_, fun way inside kept copied' answered => ?_, fun isNames q k _ entry => ?_⟩
  · by_cases missing : u.files.kind? (u.files.named b.directory ++ [name]) = none
    · have ready : Ready b u.files root name := ⟨plain', proper', paved, isName, written, stands, missing, shut⟩
      exact .inr ⟨missing, ready.keeps_copyTree.left ready.start⟩
    · exact .inl ((not_copyTree_of_taken plain' paved isName stands missing).left (.refl _))
  · exact meets_copyTree isName proper' plain' paved written stands inside kept (comes copied' answered)
  · exact (springs_of_emit plain proper isNames run).old q k entry

/-! ## A project that is bundled into itself -/

/-- A project. -/
def project : FileSystem where
  entries := [("proj", .directory [("a.py", .file "a = 1\n".toUTF8 false)])]

/-- A bundle in the project, with one path that is left out. -/
def within (excluded : String) : Bundle := ⟨⟨"/proj/out"⟩, fun p => p.text == excluded⟩

/-- The bundle after the reset, before anything is copied. -/
def begun (excluded : String) : Session := (((within excluded).emit [] []).outcome { files := project }).2

/-- What comes of the copy of the project into its own bundle. -/
def selfCopy (excluded : String) : Except BundleError (List Path) × Session :=
  ((within excluded).emit [] [⟨"/proj"⟩]).outcome { files := project }

/-- **A copy may take what it makes itself.** The bundle is not left out, so the copy goes into the directory that is
made for it. -/
theorem selfCopy_meets :
    (selfCopy "out/proj/out").1.toOption = some [⟨"/proj"⟩] ∧
      (begun "out/proj/out").files.kind? (["proj"] ++ ["out", "proj"]) = none ∧
      (selfCopy "out/proj/out").2.files.kind? (["proj", "out", "proj"] ++ ["out", "proj"]) = some .directory := by
  decide +kernel

/-- Where the bundle is left out, the copy takes the rest of the project. -/
theorem emit_snapshot_project :
    ((within "out").emitWithin 5000 [] [⟨"/proj"⟩]).outcome { files := project } = selfCopy "out" ∧
      Snapshot (within "out") (begun "out").files ["proj"] ["proj", "out", "proj"] (selfCopy "out").2.files := by
  have plain : project.Plain := FileSystem.plain_of_all (by decide +kernel)
  have proper : project.Proper := FileSystem.proper_of_all (by decide +kernel)
  obtain ⟨ends, copies⟩ := @emit_snapshot (within "out") { files := project } [] plain proper
  have reset : ((within "out").emit [] []).Runs { files := project } [] (begun "out") :=
    Step.runs_of_toOption (by decide +kernel)
  have shut : (within "out").Shut ["proj"] ["proj", "out", "proj"] := by
    rintro way same kept
    cases same
    exact absurd (kept ["out"] (by simp) (by simp)) (by decide +kernel)
  have taken := (copies [] ⟨"/proj"⟩ [] (begun "out") ⟨"/proj"⟩ "proj" reset (by decide +kernel) (by decide +kernel)
    (selfCopy "out").1 (selfCopy "out").2 rfl ["proj"] ["proj", "out", "proj"] (by decide +kernel)
    (by decide +kernel)).1 shut
  refine ⟨ends [⟨"/proj"⟩] 5000 (by decide), (taken.resolve_left fun same => ?_).2⟩
  have unchanged := same.kind?_eq ["proj", "out", "proj"]
  revert unchanged
  decide +kernel

end PyBundle.Bundle
