import Mathlib.Data.Finset.Card
import PyBundle.Distribution.Index
import PyBundle.Proofs.FileSystem.Plain
import PyBundle.Proofs.Text.Order

/-!
# The first distribution counts

The index has two tables, and each of them keeps what it is told first about a key (`lookup_insertNew`). So what the
index says is told by the distributions in the order in which they are read (`providerOf_foldl_add`,
`versionOf_foldl_add`, `size_foldl_add`), and what it says stays when more of them are read (`keeps_foldl_add`).

A site directory is read in the order of the names in it, and each name stands for what it leads to, so the order in
which its entries are listed does not count (`entriesOf_eq`).
-/

namespace PyBundle.Distribution

variable {table : List (String × String)} {key value other : String} {d : Distribution} {ds added : List Distribution}
  {fs fs' : FileSystem} {p root : Path} {roots : List Path}

/-! ## Tables -/

/-- **A table says what it is told first about a key.** -/
theorem lookup_insertNew (table : List (String × String)) (key value other : String) :
    (insertNew table key value).lookup other = (table.lookup other).or (if other = key then some value else none) := by
  unfold insertNew
  split
  · rename_i known
    obtain ⟨old, known⟩ := Option.isSome_iff_exists.mp known
    by_cases same : other = key
    · subst same
      rw [known, Option.some_or]
    · rw [if_neg same, Option.or_none]
  · rw [List.lookup_append, List.lookup_cons, List.lookup_nil]
    by_cases same : other = key
    · rw [if_pos same, beq_iff_eq.mpr same]
    · rw [if_neg same, beq_eq_false_iff_ne.mpr same]

/-- The keys of a table with an entry for a key that has none yet. -/
theorem mem_keys_insertNew :
    other ∈ (insertNew table key value).map Prod.fst ↔ other ∈ table.map Prod.fst ∨ other = key := by
  unfold insertNew
  split
  · rename_i known
    obtain ⟨entry, mem, same⟩ := List.lookup_isSome_iff.mp known
    refine ⟨.inl, fun either => either.elim id ?_⟩
    rintro rfl
    exact List.mem_map.mpr ⟨entry, mem, (beq_iff_eq.mp same).symm⟩
  · simp

/-- Each key stands once in a table. -/
theorem nodup_keys_insertNew (nodup : (table.map Prod.fst).Nodup) :
    ((insertNew table key value).map Prod.fst).Nodup := by
  unfold insertNew
  split
  · exact nodup
  · rename_i unknown
    rw [List.map_append, List.map_singleton]
    refine List.nodup_append'.mpr ⟨nodup, List.nodup_singleton _, ?_⟩
    rw [List.disjoint_singleton]
    intro mem
    obtain ⟨entry, mem, same⟩ := List.mem_map.mp mem
    exact unknown (List.lookup_isSome_iff.mpr ⟨entry, mem, beq_iff_eq.mpr same.symm⟩)

/-! ## The index -/

namespace Index

variable {index : Index}

theorem providerOf_add (index : Index) (d : Distribution) (n : String) :
    (index.add d).providerOf n = (index.providerOf n).or (if n ∈ d.importNames then some d.name else none) := by
  unfold providerOf add
  dsimp only
  generalize index.providers = table
  induction d.importNames generalizing table with
  | nil => rw [List.foldl_nil, if_neg List.not_mem_nil, Option.or_none]
  | cons first names ih =>
    rw [List.foldl_cons, ih, lookup_insertNew, Option.or_assoc]
    by_cases here : n = first
    · simp [here]
    · simp [here]

/-- **Whether a distribution has a version for a name,** however both spell it. -/
def hasVersionFor (name : String) (d : Distribution) : Bool :=
  d.version.isSome && normalizeName d.name == normalizeName name

theorem versionOf_add (index : Index) (d : Distribution) (name : String) :
    (index.add d).versionOf name = (index.versionOf name).or (if hasVersionFor name d then d.version else none) := by
  unfold versionOf add hasVersionFor
  cases d.version with
  | none => rw [ite_self, Option.or_none]
  | some version =>
    dsimp only
    rw [lookup_insertNew, Option.isSome_some, Bool.true_and]
    simp only [beq_iff_eq]
    rw [if_congr eq_comm rfl rfl]

/-- **Who provides an import is the first one to claim it,** if nobody has before. -/
theorem providerOf_foldl_add (index : Index) (ds : List Distribution) (n : String) :
    (ds.foldl add index).providerOf n =
      (index.providerOf n).or ((ds.find? fun d => d.importNames.contains n).map (·.name)) := by
  induction ds generalizing index with
  | nil => rw [List.foldl_nil, List.find?_nil, Option.map_none, Option.or_none]
  | cons d ds ih =>
    rw [List.foldl_cons, ih, providerOf_add, Option.or_assoc, List.find?_cons]
    by_cases claims : n ∈ d.importNames
    · rw [if_pos claims, Option.some_or, List.contains_iff_mem.mpr claims]
      rfl
    · rw [if_neg claims, Option.none_or, Bool.eq_false_iff.mpr (mt List.contains_iff_mem.mp claims)]

/-- **The version that counts is the first one for the name,** if there has been none before. -/
theorem versionOf_foldl_add (index : Index) (ds : List Distribution) (name : String) :
    (ds.foldl add index).versionOf name =
      (index.versionOf name).or ((ds.find? (hasVersionFor name)).bind (·.version)) := by
  induction ds generalizing index with
  | nil => rw [List.foldl_nil, List.find?_nil, Option.bind_none, Option.or_none]
  | cons d ds ih =>
    rw [List.foldl_cons, ih, versionOf_add, Option.or_assoc, List.find?_cons]
    cases has : hasVersionFor name d with
    | false => rw [if_neg Bool.false_ne_true, Option.none_or]
    | true =>
      unfold hasVersionFor at has
      obtain ⟨version, is⟩ := Option.isSome_iff_exists.mp (Bool.and_eq_true_iff.mp has).1
      rw [if_pos rfl, Option.bind_some, is, Option.some_or]

/-! ## How many versions there are -/

/-- The keys under which versions are known. -/
def keys (index : Index) : List String := index.versions.map Prod.fst

/-- The key of a distribution that has a version. -/
def key? (d : Distribution) : Option String := d.version.map fun _ => normalizeName d.name

theorem mem_keys_add {key : String} : key ∈ (index.add d).keys ↔ key ∈ index.keys ∨ key? d = some key := by
  unfold keys add key?
  cases d.version with
  | none => simp
  | some version =>
    dsimp only
    rw [mem_keys_insertNew, Option.map_some, Option.some_inj, eq_comm]

theorem nodup_keys_add (nodup : index.keys.Nodup) : (index.add d).keys.Nodup := by
  unfold keys add
  cases d.version with
  | none => exact nodup
  | some version => exact nodup_keys_insertNew nodup

/-- **As many versions are known as there are different names with a version.** -/
theorem size_foldl_add (ds : List Distribution) : (ds.foldl add {}).size = (ds.filterMap key?).toFinset.card := by
  have each (index : Index) (nodup : index.keys.Nodup) : (ds.foldl add index).keys.Nodup ∧
      ∀ key, key ∈ (ds.foldl add index).keys ↔ key ∈ index.keys ∨ key ∈ ds.filterMap key? := by
    induction ds generalizing index with
    | nil => exact ⟨nodup, fun key => by simp⟩
    | cons d ds ih =>
      obtain ⟨nodup, mem⟩ := ih (index.add d) (nodup_keys_add nodup)
      refine ⟨nodup, fun key => ?_⟩
      rw [List.foldl_cons, mem, mem_keys_add, or_assoc, List.mem_filterMap, List.mem_filterMap]
      simp only [List.exists_mem_cons_iff]
  obtain ⟨nodup, mem⟩ := each {} List.nodup_nil
  have same : (ds.foldl add {}).keys.toFinset = (ds.filterMap key?).toFinset := by
    ext key
    rw [List.mem_toFinset, List.mem_toFinset, mem]
    exact or_iff_right List.not_mem_nil
  rw [← same, List.toFinset_card_of_nodup nodup]
  exact (List.length_map _).symm

/-! ## What stays -/

/-- **An index says all that another one says.** -/
structure Keeps (index later : Index) : Prop where
  provider : ∀ {n name : String}, index.providerOf n = some name → later.providerOf n = some name
  version : ∀ {name version : String}, index.versionOf name = some version → later.versionOf name = some version

/-- **Further distributions change nothing that is known.** -/
theorem keeps_foldl_add (index : Index) (ds : List Distribution) : index.Keeps (ds.foldl add index) where
  provider known := by rw [providerOf_foldl_add, known, Option.some_or]
  version known := by rw [versionOf_foldl_add, known, Option.some_or]

end Index

/-! ## Site directories -/

/-- What an entry says of a distribution. -/
def Entry.distribution? : Entry → Option Distribution
  | .distribution d => some d
  | _ => none

/-- **The distributions of a site directory,** in the order in which they are read. -/
def recordsOf (fs : FileSystem) (root : Path) : List Distribution := (entriesOf fs root).filterMap Entry.distribution?

theorem foldl_addEntry (entries : List Entry) (index : Index) :
    entries.foldl Index.addEntry index = (entries.filterMap Entry.distribution?).foldl Index.add index := by
  induction entries generalizing index with
  | nil => rfl
  | cons entry entries ih =>
    rw [List.foldl_cons, ih]
    cases entry <;> rfl

/-- **The index of some site directories** is the one of their distributions. -/
theorem ofRoots_index (fs : FileSystem) (roots : List Path) :
    (Index.ofRoots fs roots).1 = (roots.flatMap (recordsOf fs)).foldl Index.add {} := by
  unfold Index.ofRoots
  dsimp only
  rw [foldl_addEntry, List.filterMap_flatMap]
  rfl

/-- **The names in a site directory are read in order.** -/
theorem entriesOf_sorted {entries : Entries} (listed : fs.list root = .ok entries) :
    ∃ names : List String, entriesOf fs root = names.map (ofEntry fs root) ∧ names.Pairwise (· < ·) ∧
      ∀ name, name ∈ names ↔ (entries.lookup name).isSome := by
  refine ⟨(Node.namesOf entries).mergeSort (Text.keyBefore id), ?_, ?_, fun name => ?_⟩
  · unfold entriesOf
    rw [listed]
    rfl
  · have nodup := (List.mergeSort_perm (Node.namesOf entries) (Text.keyBefore id)).nodup_iff.mpr
      (Node.nodup_namesOf entries)
    exact ((Text.pairwise_mergeSort id _).and nodup).imp fun ⟨before, other⟩ => lt_of_le_of_ne before other
  · rw [(List.mergeSort_perm _ _).mem_iff, Node.mem_namesOf]

/-! ## The order of listing -/

theorem listedLines?_eq (more : fs.Within fs') (fewer : fs'.Within fs) (p : Path) :
    listedLines? fs' p = listedLines? fs p := by
  rw [listedLines?, listedLines?, more.toOption_readText fewer]

/-- What an entry says is the same where there are the same entries. -/
theorem ofEntry_eq (more : fs.Within fs') (fewer : fs'.Within fs) (root : Path) (name : String) :
    ofEntry fs' root name = ofEntry fs root name := by
  have distInfo (p : Path) : ofDistInfo fs' p = ofDistInfo fs p := by
    have text := more.toOption_readText fewer (p.push "METADATA")
    unfold ofDistInfo recordedNames
    simp only [listedLines?_eq more fewer]
    generalize fs.readText (p.push "METADATA") = old at text ⊢
    generalize fs'.readText (p.push "METADATA") = new at text ⊢
    cases old <;> cases new <;> cases text <;> rfl
  have eggInfo (p : Path) : ofEggInfo fs' p = ofEggInfo fs p := by
    unfold ofEggInfo listedNames
    simp only [listedLines?_eq more fewer, more.isDirectory_eq fewer]
    have text := more.toOption_readText fewer (if fs.isDirectory p then p.push "PKG-INFO" else p)
    generalize fs.readText (if fs.isDirectory p then p.push "PKG-INFO" else p) = old at text ⊢
    generalize fs'.readText (if fs.isDirectory p then p.push "PKG-INFO" else p) = new at text ⊢
    cases old <;> cases new <;> cases text <;> rfl
  unfold ofEntry
  simp only [distInfo, eggInfo, more.isDirectory_eq fewer]

/-- **A site directory says the same where there are the same entries,** in whatever order they are listed. -/
theorem entriesOf_eq (more : fs.Within fs') (fewer : fs'.Within fs) (root : Path) :
    entriesOf fs' root = entriesOf fs root := by
  unfold entriesOf
  cases listed : fs.list root with
  | error =>
    cases listed' : fs'.list root with
    | error => rfl
    | ok =>
      obtain ⟨_, again, -⟩ := fewer.exists_list listed'
      cases listed.symm.trans again
  | ok entries =>
    obtain ⟨entries', listed', there⟩ := more.exists_list listed
    obtain ⟨_, again, back⟩ := fewer.exists_list listed'
    cases Except.ok.inj (listed.symm.trans again)
    rw [listed']
    dsimp only
    have names : (Node.namesOf entries').mergeSort nameBefore = (Node.namesOf entries).mergeSort nameBefore :=
      Text.mergeSort_eq id (Node.nodup_namesOf entries) (Node.nodup_namesOf entries')
        (fun name => ⟨back name, there name⟩) fun _ _ _ _ => id
    rw [names]
    exact List.map_congr_left fun name _ => ofEntry_eq more fewer root name

/-! ## What the index says -/

/-- **The index is told by the distributions in the order in which they are read.** These are the ones of the site
directories, in the order of the directories and of the names in each of them, and then the added ones. The first one
that claims an import provides it, and the first one that has a version for a name tells it, so further distributions
change nothing that is known. The order in which directories are listed does not count. -/
theorem Index.first_wins (fs : FileSystem) (roots : List Path) (added : List Distribution) :
    let index := added.foldl Index.add (Index.ofRoots fs roots).1
    let records := roots.flatMap (recordsOf fs) ++ added
    ((∀ n, index.providerOf n = (records.find? fun d => d.importNames.contains n).map (·.name)) ∧
      (∀ name, index.versionOf name = (records.find? (Index.hasVersionFor name)).bind (·.version)) ∧
      index.size = (records.filterMap Index.key?).toFinset.card) ∧
    (∀ root, (∀ entries, fs.list root = .ok entries → ∃ names : List String,
        recordsOf fs root = names.filterMap (fun name => (ofEntry fs root name).distribution?) ∧
        names.Pairwise (· < ·) ∧ ∀ name, name ∈ names ↔ (entries.lookup name).isSome) ∧
      ∀ f, fs.list root = .error f → recordsOf fs root = []) ∧
    (∀ more, (Index.ofRoots fs roots).1.Keeps (Index.ofRoots fs (roots ++ more)).1) ∧
    (∀ more : List Distribution, index.Keeps (more.foldl Index.add index)) ∧
    ∀ other : FileSystem, other.workPlace = fs.workPlace → (∀ place, other.kind? place = fs.kind? place) →
      Index.ofRoots other roots = Index.ofRoots fs roots := by
  intro index records
  have whole : index = records.foldl Index.add {} := by
    show added.foldl Index.add (Index.ofRoots fs roots).1 = _
    rw [ofRoots_index, ← List.foldl_append]
  refine ⟨⟨fun n => ?_, fun name => ?_, ?_⟩, fun root => ⟨fun entries listed => ?_, fun f failed => ?_⟩, fun more => ?_,
    fun more => Index.keeps_foldl_add index more, fun other workPlace same => ?_⟩
  · rw [whole, Index.providerOf_foldl_add]
    exact Option.none_or
  · rw [whole, Index.versionOf_foldl_add]
    exact Option.none_or
  · rw [whole, Index.size_foldl_add]
  · obtain ⟨names, entries, sorted, mem⟩ := entriesOf_sorted listed
    exact ⟨names, by rw [recordsOf, entries, List.filterMap_map]; rfl, sorted, mem⟩
  · rw [recordsOf, entriesOf, failed]
    rfl
  · rw [ofRoots_index, ofRoots_index, List.flatMap_append, List.foldl_append]
    exact Index.keeps_foldl_add _ _
  · have more : fs.Within other := ⟨workPlace, fun entry => (same _).trans entry⟩
    have fewer : other.Within fs := ⟨workPlace.symm, fun entry => (same _).symm.trans entry⟩
    rw [Index.ofRoots, Index.ofRoots, funext (entriesOf_eq more fewer)]

/-- Two site directories with a distribution in each, which is spelled in two ways. -/
def twoSpellings : FileSystem where
  entries := [
    ("first", .directory [("yaml.dist-info", .directory [
      ("METADATA", .file "Name: Py.Yaml\nVersion: 6.0\n".toUTF8 false),
      ("top_level.txt", .file "yaml\n".toUTF8 false)])]),
    ("second", .directory [("yaml.egg-info", .directory [
      ("PKG-INFO", .file "Name: py_yaml\nVersion: 5.4\n".toUTF8 false),
      ("top_level.txt", .file "yaml\n_yaml\n".toUTF8 false)])])]

/-- A site directory with one entry. -/
theorem recordsOf_of_list {name : String} {n : Node} (listed : fs.list root = .ok [(name, n)]) :
    recordsOf fs root = (ofEntry fs root name).distribution?.toList := by
  unfold recordsOf entriesOf
  rw [listed]
  have names : Node.namesOf [(name, n)] = [name] := by simp [Node.namesOf, List.eraseDups_cons]
  simp only [names, List.mergeSort_singleton, List.map_singleton]
  cases ofEntry fs root name <;> rfl

/-- The first spelling counts, with its version, and the second one provides what the first one does not. -/
theorem Index.first_wins_spellings :
    let index := Index.add (Index.ofRoots twoSpellings [⟨"/first"⟩, ⟨"/second"⟩]).1 ⟨"added", none, ["yaml", "more"]⟩
    index.providerOf "yaml" = some "Py.Yaml" ∧ index.providerOf "_yaml" = some "py_yaml" ∧
      index.providerOf "more" = some "added" ∧ index.versionOf "PY-YAML" = some "6.0" ∧ index.size = 1 := by
  obtain ⟨⟨provider, version, size⟩, -⟩ := Index.first_wins twoSpellings [⟨"/first"⟩, ⟨"/second"⟩]
    [⟨"added", none, ["yaml", "more"]⟩]
  have first : recordsOf twoSpellings ⟨"/first"⟩ = [⟨"Py.Yaml", some "6.0", ["yaml"]⟩] :=
    (recordsOf_of_list rfl).trans (by decide +kernel)
  have second : recordsOf twoSpellings ⟨"/second"⟩ = [⟨"py_yaml", some "5.4", ["yaml", "_yaml"]⟩] :=
    (recordsOf_of_list rfl).trans (by decide +kernel)
  simp only [List.flatMap_cons, List.flatMap_nil, first, second] at provider version size
  refine ⟨(provider _).trans ?_, (provider _).trans ?_, (provider _).trans ?_, (version _).trans ?_, size.trans ?_⟩
  all_goals decide +kernel

end PyBundle.Distribution
