import PyBundle.Proofs.Bundle.Reset
import PyBundle.Proofs.FileSystem.Plain

/-!
# Copies without links

Without links each copy is told by what stands where before it: a file is put at its target, whose directories are
made, and of a directory all is put that is kept. Nothing else changes.
-/

namespace PyBundle.Bundle

variable {b : Bundle} {s m t : Session} {p source target destination : Path} {names : List String}

/-! ## Directories and files -/

/-- **Without links the places on the way to a directory that is made become directories,** and nothing else
changes. -/
theorem kind?_of_create (plain : s.files.Plain) (written : p.isEmpty = false) (level : .up ∉ p.steps)
    (run : (create p).Runs s () t) : s.files.Within t.files ∧
      ∀ q, t.files.kind? q = if q <+: s.files.named p then some .directory else s.files.kind? q := by
  obtain ⟨files, made, rfl⟩ := Step.runs_change.mp run
  have more := FileSystem.within_makeDirectories s.files p
  rw [made] at more
  exact ⟨more, fun q => plain.kind?_makeDirectories written level made q⟩

/-- The directories around a path are made. -/
theorem kind?_of_createParent (plain : s.files.Plain) (level : .up ∉ target.steps)
    (run : (createParent target).Runs s () t) : s.files.Within t.files ∧
      ∀ q, t.files.kind? q = s.files.kind? q ∨
        q <+: (s.files.named target).dropLast ∧ t.files.kind? q = some .directory := by
  unfold createParent at run
  split at run
  · rename_i parent isParent
    cases empty : parent.isEmpty with
    | true =>
      obtain ⟨files, made, rfl⟩ := Step.runs_change.mp run
      cases (FileSystem.makeDirectories_of_isEmpty empty).symm.trans made
      exact ⟨.refl _, fun _ => .inl rfl⟩
    | false =>
      obtain ⟨level', start, name, -, steps⟩ := Path.exists_name_of_parent? isParent empty level
      have named : (s.files.named target).dropLast = s.files.named parent := by
        rw [FileSystem.named_of_steps_concat level' start steps, List.dropLast_concat]
      obtain ⟨more, kinds⟩ := kind?_of_create plain empty level' run
      refine ⟨more, fun q => ?_⟩
      rw [kinds, named]
      split
      · rename_i before
        exact .inr ⟨before, rfl⟩
      · exact .inl rfl
  · obtain ⟨-, rfl⟩ := Step.runs_pure.mp run
    exact ⟨.refl _, fun _ => .inl rfl⟩

/-- The places on the way to a place in a directory are directories already. -/
theorem kind?_of_inside {fs : FileSystem} {place q : Place} (inside : fs.kind? place.dropLast = some .directory) :
    (if q <+: place then some .directory else fs.kind? q) = if q = place then some .directory else fs.kind? q := by
  by_cases here : q = place
  · rw [if_pos here, if_pos (here ▸ List.prefix_refl _)]
  · rw [if_neg here]
    split
    · rename_i onWay
      rcases List.eq_nil_or_concat place with rfl | ⟨front, last, rfl⟩
      · exact absurd (List.prefix_nil.mp onWay) here
      · rw [List.concat_eq_append] at here onWay inside
        rw [List.dropLast_concat] at inside
        exact (FileSystem.kind?_eq_directory_of_isPrefix inside
          ((List.prefix_concat_iff.mp onWay).resolve_left here)).symm
    · rfl

/-- **A file that is copied without links,** and where: the places on the way to its target are directories then, and
nothing else changes. No directory was at the target. -/
structure Copied (fs fs' : FileSystem) (source target : Place) (content : ByteArray) (executable : Bool) : Prop where
  workPlace : fs'.workPlace = fs.workPlace
  read : fs.kind? source = some (.file content executable)
  free : fs.kind? target ≠ some .directory
  kinds : ∀ q, fs'.kind? q = if q = target then some (.file content executable)
    else if q <+: target then some .directory else fs.kind? q
  kept : ∀ {q k}, q ≠ target → fs.kind? q = some k → fs'.kind? q = some k

theorem exists_copied (plain : s.files.Plain) (level : .up ∉ target.steps)
    (apart : s.files.named target ≠ s.files.named source) (made : (createParent target).Runs s () m)
    (run : (copyFile source target).Runs m () t) :
    ∃ content executable,
      Copied s.files t.files (s.files.named source) (s.files.named target) content executable := by
  obtain ⟨more, before⟩ := kind?_of_createParent plain level made
  obtain ⟨files, copied, rfl⟩ := Step.runs_change.mp run
  have plain' : m.files.Plain := by
    intro q link entry
    rcases before q with same | ⟨-, directory⟩
    · exact plain q link (same.symm.trans entry)
    · cases directory.symm.trans entry
  have done : m.files.copy source target = .ok files := by
    unfold FileSystem.settle at copied
    split at copied
    · rename_i changed copied'
      cases copied
      exact copied'
    · cases copied
  obtain ⟨content, executable, entry, notDirectory, around, workPlace, kinds⟩ := plain'.copy_eq_ok done
  rw [FileSystem.named_congr more.workPlace, FileSystem.named_congr more.workPlace] at kinds
  rw [FileSystem.named_congr more.workPlace] at entry notDirectory around
  simp only [apart, if_false] at kinds
  have kept : ∀ {q k}, q ≠ s.files.named target → s.files.kind? q = some k → files.kind? q = some k := by
    intro q k other here
    rw [kinds, if_neg other, more.kind here]
  have free : s.files.kind? (s.files.named target) ≠ some .directory := fun holds => notDirectory (more.kind holds)
  refine ⟨content, executable, workPlace.trans more.workPlace, ?_, free, ?_, kept⟩
  · rcases before (s.files.named source) with same | ⟨-, directory⟩
    · exact same.symm.trans entry
    · cases directory.symm.trans entry
  · intro q
    rw [kinds]
    by_cases here : q = s.files.named target
    · rw [if_pos here, if_pos here]
    · have onWay := kind?_of_inside (q := q) around
      rw [if_neg here] at onWay
      rw [if_neg here, if_neg here, ← onWay]
      split
      · rfl
      · rename_i aside
        rcases before q with same | ⟨inner, -⟩
        · exact same
        · exact absurd (inner.trans (List.dropLast_prefix _)) aside

/-! ## Trees -/

/-- Two places are apart if neither is on the way to the other. -/
def Apart (p q : Place) : Prop := ¬ p <+: q ∧ ¬ q <+: p

theorem Apart.symm {p q : Place} (apart : Apart p q) : Apart q p := ⟨apart.2, apart.1⟩

theorem Apart.ne {p q : Place} (apart : Apart p q) : p ≠ q := fun same => apart.1 (same ▸ List.prefix_refl q)

/-- What is below one of two places that are apart is apart from the other. -/
theorem Apart.extend {p q : Place} (apart : Apart p q) (rest : Place) : Apart (p ++ rest) q := by
  refine ⟨fun below => apart.1 ((List.prefix_append p rest).trans below), fun below => ?_⟩
  exact (List.prefix_or_prefix_of_prefix below (List.prefix_append p rest)).elim apart.2 apart.1

/-- **What is kept behind some names:** neither the entry of these names nor any on the way from there is left
out. -/
def Keeps (b : Bundle) (names : List String) (rest : Place) : Prop :=
  ∀ front, front <+: rest → names ++ front ≠ [] → b.excludes (.ofNames (names ++ front)) = false

/-- What is kept on a way is kept on the front of it. -/
theorem Keeps.of_isPrefix {front rest : Place} (kept : b.Keeps names rest) (before : front <+: rest) :
    b.Keeps names front := fun front' before' => kept front' (before'.trans before)

/-- **A way with an entry more is kept** if the entry is. -/
theorem keeps_of_dropLast (kept : b.Keeps [] names.dropLast)
    (last : names ≠ [] → b.excludes (.ofNames names) = false) : b.Keeps [] names := by
  intro front before some
  rcases List.eq_nil_or_concat names with rfl | ⟨around, name, rfl⟩
  · exact absurd (List.prefix_nil.mp before) some
  · rw [List.concat_eq_append] at before kept last
    rcases List.prefix_concat_iff.mp before with rfl | inside
    · exact last (by simp)
    · rw [List.dropLast_concat] at kept
      exact kept front inside some

theorem keeps_cons {name : String} {rest : Place} (kept : names ≠ [] → b.excludes (.ofNames names) = false) :
    b.Keeps names (name :: rest) ↔ b.Keeps (names ++ [name]) rest := by
  constructor
  · intro all front before _
    have inside := all (name :: front) (List.cons_prefix_cons.mpr ⟨rfl, before⟩) (by simp)
    simpa using inside
  · intro all front before some
    cases front with
    | nil => simpa using kept (by simpa using some)
    | cons first front =>
      obtain ⟨rfl, inside⟩ := List.cons_prefix_cons.mp before
      simpa using all front inside (by simp)

theorem leftOut_iff (isNames : ∀ name ∈ names, IsFileName name) :
    (!(Path.ofNames names).isEmpty && b.excludes (.ofNames names)) = true ↔
      names ≠ [] ∧ b.excludes (.ofNames names) = true := by
  rw [Path.isEmpty_ofNames isNames]
  simp

theorem leftOut_eq_false_iff (isNames : ∀ name ∈ names, IsFileName name) :
    (!(Path.ofNames names).isEmpty && b.excludes (.ofNames names)) = false ↔
      (names ≠ [] → b.excludes (.ofNames names) = false) := by
  rw [Path.isEmpty_ofNames isNames]
  simp

/-- Nothing that is kept is left out. -/
theorem not_leftOut (isNames : ∀ name ∈ names, IsFileName name) (kept : b.Keeps [] names) :
    ¬ (!(Path.ofNames names).isEmpty && b.excludes (.ofNames names)) = true := by
  intro excluded
  obtain ⟨some, leftOut⟩ := (leftOut_iff isNames).mp excluded
  have notLeftOut := kept names (List.prefix_refl _) some
  rw [List.nil_append] at notLeftOut
  cases leftOut.symm.trans notLeftOut

/-- **A tree is copied without links:** at the target stands what stands at the source and is kept, and nothing else
changes. -/
structure TreeCopied (b : Bundle) (names : List String) (fs fs' : FileSystem) (source target : Place) : Prop where
  workPlace : fs'.workPlace = fs.workPlace
  aside : ∀ q, ¬ target <+: q → fs'.kind? q = fs.kind? q
  below : ∀ r k, fs'.kind? (target ++ r) = some k ↔ fs.kind? (source ++ r) = some k ∧ b.Keeps names r

/-- Nothing that is no link becomes one. -/
theorem TreeCopied.plain {fs fs' : FileSystem} {source target : Place}
    (copied : TreeCopied b names fs fs' source target) (plain : fs.Plain) : fs'.Plain := by
  intro q link entry
  by_cases below : target <+: q
  · obtain ⟨r, rfl⟩ := below
    exact plain _ link ((copied.below r _).mp entry).1
  · rw [copied.aside q below] at entry
    exact plain q link entry

/-- **Some entries of a directory are copied** into a directory, and nothing else changes. -/
structure EntriesCopied (b : Bundle) (names : List String) (fs fs' : FileSystem) (source target : Place)
    (todo : List String) : Prop where
  workPlace : fs'.workPlace = fs.workPlace
  aside : ∀ q, ¬ target <+: q → fs'.kind? q = fs.kind? q
  top : fs'.kind? target = some .directory
  others : ∀ name, name ∉ todo → ∀ r, fs'.kind? (target ++ name :: r) = fs.kind? (target ++ name :: r)
  entries : ∀ name ∈ todo, ∀ r k, fs'.kind? (target ++ name :: r) = some k ↔
    fs.kind? (source ++ name :: r) = some k ∧ b.Keeps (names ++ [name]) r

/-- **The entries of a directory are copied one by one,** if each copy does its part. -/
theorem entriesCopied {f : String → Step BundleError Unit} {origin place : Place} {todo : List String}
    (each : ∀ name ∈ todo, ∀ u v : Session, u.files.workPlace = s.files.workPlace →
      (∀ q, ¬ place <+: q → u.files.kind? q = s.files.kind? q) → u.files.Plain →
      u.files.kind? place = some .directory → u.files.kind? (place ++ [name]) = none → (f name).Runs u () v →
        TreeCopied b (names ++ [name]) u.files v.files (origin ++ [name]) (place ++ [name]))
    (apart : Apart place origin) (distinct : todo.Nodup) (plain : s.files.Plain)
    (top : s.files.kind? place = some .directory) (missing : ∀ name ∈ todo, s.files.kind? (place ++ [name]) = none)
    (run : (todo.forM f).Runs s () t) : EntriesCopied b names s.files t.files origin place todo := by
  induction todo generalizing s with
  | nil =>
    cases Step.runs_forM_nil.mp run
    exact ⟨rfl, fun _ _ => rfl, top, fun _ _ _ => rfl, nofun⟩
  | cons name todo ih =>
    obtain ⟨u, first, later⟩ := Step.runs_forM_cons.mp run
    obtain ⟨new, distinct'⟩ := List.nodup_cons.mp distinct
    have copied := each name List.mem_cons_self s u rfl (fun _ _ => rfl) plain top
      (missing name List.mem_cons_self) first
    have outside : ∀ q, ¬ place <+: q → u.files.kind? q = s.files.kind? q := fun q out =>
      copied.aside q fun below => out ((List.prefix_append _ _).trans below)
    have beside : ∀ other, other ≠ name → ∀ r,
        u.files.kind? (place ++ other :: r) = s.files.kind? (place ++ other :: r) := by
      intro other different r
      refine copied.aside _ fun below => different ?_
      rw [List.prefix_append_right_inj, List.cons_prefix_cons] at below
      exact below.1.symm
    have top' : u.files.kind? place = some .directory := by
      have notBelow : ¬ place ++ [name] <+: place := by
        intro below
        have short := below.length_le
        rw [List.length_append, List.length_singleton] at short
        omega
      exact (copied.aside place notBelow).trans top
    have different : ∀ other ∈ todo, other ≠ name := fun other mem same => new (same ▸ mem)
    have rest := ih
      (fun other mem v w same out => each other (List.mem_cons_of_mem _ mem) v w (same.trans copied.workPlace)
        fun q below => (out q below).trans (outside q below))
      distinct' (copied.plain plain) top'
      (fun other mem => (beside other (different other mem) []).trans (missing other (List.mem_cons_of_mem _ mem)))
      later
    refine ⟨rest.workPlace.trans copied.workPlace, fun q out => (rest.aside q out).trans (outside q out), rest.top,
      ?_, ?_⟩
    · intro other absent r
      obtain ⟨notFirst, notLater⟩ := List.ne_and_not_mem_of_not_mem_cons absent
      rw [rest.others other notLater, beside other notFirst]
    · intro other mem r k
      rcases List.mem_cons.mp mem with rfl | mem'
      · rw [rest.others other new, List.append_cons place, copied.below, ← List.append_cons]
      · rw [rest.entries other mem', outside]
        exact (apart.symm.extend _).2

/-- A copied directory is a tree that is copied, if all its entries are. -/
theorem EntriesCopied.tree {fs mid fs' : FileSystem} {source target : Place} {entries : Entries}
    (copied : EntriesCopied b names mid fs' source target (Node.namesOf entries))
    (listed : mid.get? source = some (.directory entries)) (workPlace : mid.workPlace = fs.workPlace)
    (made : ∀ q, mid.kind? q = if q = target then some .directory else fs.kind? q)
    (apart : Apart target source) (missing : fs.kind? target = none)
    (kept : names ≠ [] → b.excludes (.ofNames names) = false) : TreeCopied b names fs fs' source target := by
  have sourceKept : ∀ r, mid.kind? (source ++ r) = fs.kind? (source ++ r) := by
    intro r
    rw [made, if_neg (apart.symm.extend r).ne]
  refine ⟨copied.workPlace.trans workPlace, fun q out => ?_, fun r k => ?_⟩
  · rw [copied.aside q out, made, if_neg]
    rintro rfl
    exact out (List.prefix_refl _)
  · cases r with
    | nil =>
      have directory : fs.kind? source = some .directory := by
        have here := sourceKept []
        rw [List.append_nil] at here
        rw [← here]
        exact FileSystem.kind?_eq_directory.mpr ⟨entries, listed⟩
      rw [List.append_nil, List.append_nil, copied.top, directory]
      refine ⟨fun same => ⟨same, fun front before some => ?_⟩, And.left⟩
      cases List.prefix_nil.mp before
      simpa using kept (by simpa using some)
    | cons name r =>
      rw [keeps_cons kept, ← sourceKept]
      by_cases mem : name ∈ Node.namesOf entries
      · exact copied.entries name mem r k
      · have absent : entries.lookup name = none := by
          rwa [Node.mem_namesOf, Option.not_isSome_iff_eq_none] at mem
        have fresh : mid.kind? (target ++ name :: r) = none := by
          rw [made, if_neg (by simp)]
          exact FileSystem.kind?_append_eq_none missing _
        rw [copied.others name mem, fresh, FileSystem.kind?_of_lookup listed, absent]
        simp

/-- A copied file is a tree that is copied. -/
theorem Copied.tree {fs fs' : FileSystem} {source target : Place} {content : ByteArray} {executable : Bool}
    (copied : Copied fs fs' source target content executable) (missing : fs.kind? target = none)
    (inside : fs.kind? target.dropLast = some .directory)
    (kept : names ≠ [] → b.excludes (.ofNames names) = false) : TreeCopied b names fs fs' source target := by
  have kinds : ∀ q, q ≠ target → fs'.kind? q = fs.kind? q := by
    intro q other
    rw [copied.kinds, if_neg other, kind?_of_inside inside, if_neg other]
  refine ⟨copied.workPlace, fun q out => kinds q fun same => out (same ▸ List.prefix_refl _), fun r k => ?_⟩
  cases r with
  | nil =>
    rw [List.append_nil, List.append_nil, copied.kinds, if_pos rfl, copied.read]
    refine ⟨fun same => ⟨same, fun front before some => ?_⟩, And.left⟩
    cases List.prefix_nil.mp before
    simpa using kept (by simpa using some)
  | cons name r =>
    have none : fs.kind? (source ++ name :: r) = none :=
      FileSystem.kind?_append_eq_none_of_ne (by simp [copied.read]) (List.cons_ne_nil _ _)
    rw [kinds _ (by simp), FileSystem.kind?_append_eq_none missing, none]
    simp

/-- **What the copy of an entry that is no link does:** nothing if it is left out, and else it copies a file, or makes
a directory and copies its entries. -/
theorem runs_copyEntry {fuel : Nat} {ancestors : List Path} {relative : Path} {n : Node} (noLink : n.isLink = false)
    (run : (b.copyEntry destination (fuel + 1) ancestors source relative n).Runs s () t) :
    (!relative.isEmpty && b.excludes relative) = true ∧ t = s ∨
      (!relative.isEmpty && b.excludes relative) = false ∧
        ((n.isDirectory = false ∧ ∃ m, (createParent (destination.join relative)).Runs s () m ∧
            (copyFile source (destination.join relative)).Runs m () t) ∨
          n.isDirectory = true ∧ ∃ m entries, (create (destination.join relative)).Runs s () m ∧
            m.files.list source = .ok entries ∧
            ((Node.namesOf entries).forM fun name =>
              match entries.lookup name with
              | some n => b.copyEntry destination fuel (source :: ancestors) (source.push name) (relative.push name) n
              | none => pure ()).Runs m () t) := by
  unfold copyEntry at run
  obtain ⟨isDirectory, led, run⟩ := Step.runs_demand_bind.mp (Step.runs_files_bind.mp run)
  unfold leadsToDirectory at led
  rw [noLink] at led
  cases led
  split at run
  · rename_i excluded
    exact .inl ⟨excluded, (Step.runs_pure.mp run).2⟩
  · rename_i kept
    refine .inr ⟨Bool.eq_false_iff.mpr kept, ?_⟩
    split at run
    · rename_i directory
      obtain ⟨_, m, made, run⟩ := Step.runs_bind.mp run
      obtain ⟨entries, listed, run⟩ := Step.runs_demand_bind.mp (Step.runs_files_bind.mp run)
      exact .inr ⟨directory, m, entries, made, listed, run⟩
    · rename_i other
      obtain ⟨_, m, made, copied⟩ := Step.runs_bind.mp run
      exact .inl ⟨Bool.eq_false_iff.mpr other, m, made, copied⟩

/-- Nothing is put where nothing stands if the entry itself is left out. -/
theorem treeCopied_of_excluded {fs : FileSystem} {source target : Place} (missing : fs.kind? target = none)
    (some : names ≠ []) (leftOut : b.excludes (.ofNames names) = true) :
    TreeCopied b names fs fs source target := by
  refine ⟨rfl, fun _ _ => rfl, fun r k => ?_⟩
  rw [FileSystem.kind?_append_eq_none missing]
  refine ⟨nofun, fun ⟨_, kept⟩ => ?_⟩
  have here := kept [] List.nil_prefix (by simpa using some)
  rw [List.append_nil] at here
  cases here.symm.trans leftOut

/-- **A copy is due** of the entry `n` behind some names of a tree: it stands at the source, no link is anywhere, and
where the names lead in the destination nothing is, in a directory that is there. -/
structure IsDue (fs : FileSystem) (destination source : Path) (names : List String) (n : Node) : Prop where
  plain : fs.Plain
  written : source.isEmpty = false
  proper : ∀ r, fs.kind? (fs.named source ++ r) ≠ none → ∀ name ∈ r, IsFileName name
  isNames : ∀ name ∈ names, IsFileName name
  stands : fs.kind? (fs.named source) = some n.kind
  apart : Apart (fs.named destination) (fs.named source)
  missing : fs.kind? (fs.named destination ++ names) = none
  inside : fs.kind? (fs.named destination ++ names).dropLast = some .directory

/-- **The copy of each entry of a directory is due** while its directory is copied: the directory has been made, the
entry is not there yet, and nothing has changed at the source. -/
theorem IsDue.child {fs fs' : FileSystem} {n child : Node} {name : String}
    (due : IsDue fs destination source names n) (plain : fs'.Plain) (workPlace : fs'.workPlace = fs.workPlace)
    (same : ∀ r, fs'.kind? (fs.named source ++ r) = fs.kind? (fs.named source ++ r))
    (stands : fs.kind? (fs.named source ++ [name]) = some child.kind)
    (top : fs'.kind? (fs.named destination ++ names) = some .directory)
    (free : fs'.kind? (fs.named destination ++ names ++ [name]) = none) :
    fs'.named (source.push name) = fs.named source ++ [name] ∧
      IsDue fs' destination (source.push name) (names ++ [name]) child := by
  have isName : IsFileName name := due.proper [name] (by simp [stands]) name List.mem_cons_self
  have named : fs'.named (source.push name) = fs.named source ++ [name] := by
    rw [FileSystem.named_congr workPlace, FileSystem.named_push isName]
  have destinationNamed : fs'.named destination = fs.named destination := FileSystem.named_congr workPlace _
  refine ⟨named, ⟨plain, Path.isEmpty_join due.written isName.relative, ?_,
    Path.forall_isFileName_concat due.isNames isName, ?_, ?_, ?_, ?_⟩⟩
  · intro r present
    rw [named, List.append_assoc, same] at present
    exact (List.forall_mem_append.mp (due.proper ([name] ++ r) present)).2
  · rw [named, same, stands]
  · rw [named, destinationNamed]
    exact (due.apart.symm.extend [name]).symm
  · rw [destinationNamed, ← List.append_assoc]
    exact free
  · rw [destinationNamed, ← List.append_assoc, List.dropLast_concat]
    exact top

/-- **A directory is copied** if each of its entries is whose copy is due. -/
theorem IsDue.directory {f : String → Node → Step BundleError Unit} {n : Node} {entries : Entries}
    (due : IsDue s.files destination source names n) (written : destination.isEmpty = false)
    (level : .up ∉ destination.steps) (kept : names ≠ [] → b.excludes (.ofNames names) = false)
    (each : ∀ name child (u v : Session), IsFileName name →
      IsDue u.files destination (source.push name) (names ++ [name]) child → (f name child).Runs u () v →
        TreeCopied b (names ++ [name]) u.files v.files (u.files.named (source.push name))
          (u.files.named destination ++ (names ++ [name])))
    (made : (create (destination.join (.ofNames names))).Runs s () m) (listed : m.files.list source = .ok entries)
    (run : ((Node.namesOf entries).forM fun name =>
      match entries.lookup name with
      | some child => f name child
      | none => pure ()).Runs m () t) :
    TreeCopied b names s.files t.files (s.files.named source) (s.files.named destination ++ names) := by
  have onward : destination.GoesOn names (destination.join (.ofNames names)) :=
    Path.goesOn_join_ofNames written due.isNames
  have apart : Apart (s.files.named destination ++ names) (s.files.named source) := due.apart.extend names
  obtain ⟨more, kinds⟩ := kind?_of_create due.plain onward.written (onward.up_notMem_steps level) made
  rw [FileSystem.named_of_goesOn onward] at kinds
  have made' : ∀ q, m.files.kind? q =
      if q = s.files.named destination ++ names then some .directory else s.files.kind? q := by
    intro q
    rw [kinds, kind?_of_inside due.inside]
  have plain : m.files.Plain := by
    intro q link entry
    rw [made'] at entry
    split at entry
    · cases entry
    · exact due.plain q link entry
  have there := plain.kind?_of_list listed
  rw [FileSystem.named_congr more.workPlace] at there
  have sourceKept : ∀ r, m.files.kind? (s.files.named source ++ r) = s.files.kind? (s.files.named source ++ r) :=
    fun r => by rw [made', if_neg (apart.symm.extend r).ne]
  refine EntriesCopied.tree ?_ there more.workPlace made' apart due.missing kept
  refine entriesCopied ?_ apart (Node.nodup_namesOf entries) plain (by rw [made', if_pos rfl]) ?_ run
  · intro name mem u v workPlace outside plain' top free copied
    obtain ⟨child, entry⟩ := Option.isSome_iff_exists.mp (Node.mem_namesOf.mp mem)
    rw [entry] at copied
    have stands : s.files.kind? (s.files.named source ++ [name]) = some child.kind := by
      rw [← sourceKept, FileSystem.kind?_of_lookup there, entry]
      rfl
    have workPlace' : u.files.workPlace = s.files.workPlace := workPlace.trans more.workPlace
    obtain ⟨named, due'⟩ := due.child plain' workPlace'
      (fun r => (outside _ (apart.symm.extend r).2).trans (sourceKept r)) stands top free
    have done := each name child u v (due.proper [name] (by simp [stands]) name List.mem_cons_self) due' copied
    rwa [named, FileSystem.named_congr workPlace', ← List.append_assoc] at done
  · intro name _
    rw [made', if_neg (by simp)]
    exact FileSystem.kind?_append_eq_none due.missing _

/-- **An entry is copied without links** with all below it that is kept, if its copy is due. The induction is on the
fuel. -/
theorem copyEntry_spec {fuel : Nat} {ancestors : List Path} {n : Node} (written : destination.isEmpty = false)
    (level : .up ∉ destination.steps) (due : IsDue s.files destination source names n)
    (run : (b.copyEntry destination fuel ancestors source (.ofNames names) n).Runs s () t) :
    TreeCopied b names s.files t.files (s.files.named source) (s.files.named destination ++ names) := by
  induction fuel generalizing s t ancestors source names n with
  | zero => exact absurd run Step.not_runs_throw
  | succ fuel ih =>
    have noLink : n.isLink = false := due.plain.isLink_of_kind? due.stands
    rcases runs_copyEntry noLink run with ⟨excluded, rfl⟩ | ⟨kept, copies⟩
    · obtain ⟨some, leftOut⟩ := (leftOut_iff due.isNames).mp excluded
      exact treeCopied_of_excluded due.missing some leftOut
    have told := (leftOut_eq_false_iff due.isNames).mp kept
    rcases copies with ⟨-, m, made, copied⟩ | ⟨-, m, entries, made, listed, run⟩
    · have onward : destination.GoesOn names (destination.join (.ofNames names)) :=
        Path.goesOn_join_ofNames written due.isNames
      have target : s.files.named (destination.join (.ofNames names)) = s.files.named destination ++ names :=
        FileSystem.named_of_goesOn onward
      have different : s.files.named (destination.join (.ofNames names)) ≠ s.files.named source := by
        rw [target]
        exact (due.apart.extend names).ne
      have level' : .up ∉ (destination.join (.ofNames names)).steps := onward.up_notMem_steps level
      obtain ⟨content, executable, copied⟩ := exists_copied due.plain level' different made copied
      rw [target] at copied
      exact copied.tree due.missing due.inside told
    · refine due.directory written level told (fun name child u v isName due' copied => ?_) made listed run
      rw [Path.push_ofNames due.isNames isName] at copied
      exact ih due' copied

/-- What is made to which a path has not led before changes something. -/
theorem not_same_of_create (plain : s.files.Plain) (ends : destination.EndsInName)
    (free : s.files.pathExists destination = false) (made : (create (destination.push "")).Runs s () m)
    (workPlace : m.files.workPlace = s.files.workPlace) : ¬ ∀ q, m.files.kind? q = s.files.kind? q := by
  intro same
  have onward : destination.GoesOn [] (destination.push "") := Path.goesOn_join_ofNames ends.unclosed.1 nofun
  have plain' : m.files.Plain := fun q link entry => plain q link ((same q).symm.trans entry)
  obtain ⟨files, changed, rfl⟩ := Step.runs_change.mp made
  have there := plain'.isDirectory_of_same workPlace.symm (fun q _ => (same q).symm)
    (FileSystem.isDirectory_of_makeDirectories onward.written changed)
  obtain ⟨place, found, holds⟩ := FileSystem.isDirectory_iff.mp there
  have leads := FileSystem.place_dropSlashes found holds
  rw [Path.dropSlashes_push_empty ends] at leads
  cases free.symm.trans (FileSystem.pathExists_iff.mpr ⟨place, leads⟩)

/-- Where a directory is made to which its path has not led before, nothing has stood. -/
theorem kind?_eq_none_of_create (plain : s.files.Plain) (ends : destination.EndsInName)
    (level : .up ∉ destination.steps) (free : s.files.pathExists destination = false)
    (made : (create (destination.push "")).Runs s () m) : s.files.kind? (s.files.named destination) = none := by
  have onward : destination.GoesOn [] (destination.push "") := Path.goesOn_join_ofNames ends.unclosed.1 nofun
  have named : s.files.named (destination.push "") = s.files.named destination := by
    rw [FileSystem.named_of_goesOn onward, List.append_nil]
  obtain ⟨more, kinds⟩ := kind?_of_create plain onward.written (onward.up_notMem_steps level) made
  rw [named] at kinds
  by_contra present
  obtain ⟨k, entry⟩ := Option.ne_none_iff_exists'.mp present
  have directory : s.files.kind? (s.files.named destination) = some .directory := by
    rw [entry, ← more.kind entry, kinds, if_pos (List.prefix_refl _)]
  refine not_same_of_create plain ends free made more.workPlace fun q => ?_
  rw [kinds]
  split
  · rename_i before
    exact (FileSystem.kind?_eq_directory_of_isPrefix directory before).symm
  · rfl

/-- The entry itself to which a path to a directory leads is the directory. -/
theorem isDirectory_of_nodeItself {fs : FileSystem} {place : Place} {n : Node} (plain : fs.Plain)
    (stands : fs.kind? (fs.named p) = some .directory) (itself : fs.nodeItself p = .ok (place, n)) :
    n.isDirectory = true ∧ n.isLink = false := by
  obtain ⟨names, entry⟩ := FileSystem.nodeItself_eq_ok.mp itself
  rw [plain.names_eq names] at entry
  unfold FileSystem.kind? at stands
  rw [entry] at stands
  have directory : n.isDirectory = true := Node.isDirectory_iff.mpr (Option.some.inj stands)
  exact ⟨directory, Node.isLink_of_isDirectory directory⟩

/-- **What the copy of a directory does** that comes to its end: at its target nothing was, and it has copied the entry
that its source names. -/
theorem runs_copyTree (run : (b.copyTree source destination).Runs s () t) :
    s.files.pathExists destination = false ∧ ∃ place n v, s.files.nodeItself source = .ok (place, n) ∧
      (b.copyEntry destination FileSystem.pathLimit [] source (.ofNames []) n).Runs s () v ∧ t.files = v.files := by
  unfold copyTree at run
  have run := Step.runs_files_bind.mp run
  dsimp only at run
  split at run
  · obtain ⟨_, _, thrown, -⟩ := Step.runs_bind.mp run
    exact absurd thrown Step.not_runs_throw
  · rename_i free
    obtain ⟨⟨place, n⟩, itself, run⟩ := Step.runs_demand_bind.mp run
    obtain ⟨_, v, copied, noted⟩ := Step.runs_bind.mp run
    cases Step.runs_note.mp noted
    exact ⟨Bool.eq_false_iff.mpr free, place, n, v, itself, copied, rfl⟩

/-- **A directory is copied without links** to a path at which nothing is. -/
theorem copyTree_spec (ends : destination.EndsInName) (level : .up ∉ destination.steps) (plain : s.files.Plain)
    (inside : s.files.kind? (s.files.named destination).dropLast = some .directory)
    (sourceWritten : source.isEmpty = false)
    (proper : ∀ r, s.files.kind? (s.files.named source ++ r) ≠ none → ∀ name ∈ r, IsFileName name)
    (stands : s.files.kind? (s.files.named source) = some .directory)
    (apart : Apart (s.files.named destination) (s.files.named source))
    (run : (b.copyTree source destination).Runs s () t) :
    s.files.kind? (s.files.named destination) = none ∧
      TreeCopied b [] s.files t.files (s.files.named source) (s.files.named destination) := by
  obtain ⟨free, place, n, v, itself, copied, same⟩ := runs_copyTree run
  obtain ⟨directory, noLink⟩ := isDirectory_of_nodeItself plain stands itself
  have kind : n.kind = .directory := Node.isDirectory_iff.mp directory
  have made : ∃ m, (create (destination.push "")).Runs s () m := by
    obtain ⟨fuel, limit⟩ : ∃ fuel, FileSystem.pathLimit = fuel + 1 := ⟨_, rfl⟩
    rw [limit] at copied
    rcases runs_copyEntry noLink copied with ⟨excluded, -⟩ | ⟨-, ⟨other, -⟩ | ⟨-, m, -, made, -⟩⟩
    · exact absurd rfl ((leftOut_iff (List.forall_mem_nil _)).mp excluded).1
    · cases other.symm.trans directory
    · exact ⟨m, made⟩
  obtain ⟨m, made⟩ := made
  have missing := kind?_eq_none_of_create plain ends level free made
  have due : IsDue s.files destination source [] n :=
    ⟨plain, sourceWritten, proper, nofun, stands.trans (congrArg some kind.symm), apart,
      by rwa [List.append_nil], by rwa [List.append_nil]⟩
  have copied' := copyEntry_spec ends.unclosed.1 level due copied
  rw [List.append_nil] at copied'
  exact ⟨missing, same ▸ copied'⟩

end PyBundle.Bundle
