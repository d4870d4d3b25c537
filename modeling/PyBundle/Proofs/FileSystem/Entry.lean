import PyBundle.FileSystem.Node

/-!
# Changing one entry

What an operation does to a file system is said by the kinds of its entries: `FileSystem.kind?` tells what
stands at a place, apart from what a directory holds. A change at a place leaves the kind of every entry that
is not at or below it, and puts there what it says, if the place is in a directory.
-/

namespace PyBundle

/-- **What an entry is,** apart from what a directory holds. -/
inductive Kind where
  | file (content : ByteArray) (executable : Bool)
  | link (target : String)
  | directory
  deriving Inhabited

/-- Kinds are compared by what they say. -/
instance : DecidableEq Kind
  | .file content executable, .file content' executable' =>
    decidable_of_iff (content.data = content'.data ∧ executable = executable')
      (by rw [Kind.file.injEq, ByteArray.ext_iff])
  | .link target, .link target' => decidable_of_iff (target = target') (by rw [Kind.link.injEq])
  | .directory, .directory => isTrue rfl
  | .file _ _, .link _ => isFalse nofun
  | .file _ _, .directory => isFalse nofun
  | .link _, .file _ _ => isFalse nofun
  | .link _, .directory => isFalse nofun
  | .directory, .file _ _ => isFalse nofun
  | .directory, .link _ => isFalse nofun

/-- Whether an entry is a link. -/
def Kind.isLink : Kind → Bool
  | link _ => true
  | _ => false

namespace Node

/-- The kind of an entry. -/
def kind : Node → Kind
  | file content executable => .file content executable
  | link target => .link target
  | directory _ => .directory

@[simp] theorem kind_file (content : ByteArray) (executable : Bool) :
    (file content executable).kind = .file content executable := rfl

@[simp] theorem kind_link (target : String) : (link target).kind = .link target := rfl

@[simp] theorem kind_directory (entries : Entries) : (directory entries).kind = .directory := rfl

theorem isDirectory_iff {n : Node} : n.isDirectory = true ↔ n.kind = .directory := by
  cases n <;> simp [isDirectory]

theorem kind_eq_directory {n : Node} : n.kind = .directory ↔ ∃ entries, n = directory entries := by
  cases n <;> simp

theorem isLink_of_isDirectory {n : Node} (directory : n.isDirectory = true) : n.isLink = false := by
  obtain ⟨entries, rfl⟩ := kind_eq_directory.mp (isDirectory_iff.mp directory)
  rfl

/-! ## Entries of a directory -/

variable {name other : String} {entries : Entries} {n? : Option Node}

theorem lookup_entry_cons (other first : String) (n : Node) (entries : Entries) :
    ((first, n) :: entries).lookup other = if other = first then some n else entries.lookup other := by
  by_cases same : other = first <;> simp [List.lookup_cons, same, beq_false_of_ne]

theorem lookup_filter_ne (name other : String) (entries : Entries) :
    (entries.filter (·.1 != name)).lookup other = if other = name then none else entries.lookup other := by
  induction entries with
  | nil => simp
  | cons entry entries ih =>
    obtain ⟨first, n⟩ := entry
    by_cases isName : first = name
    · rw [List.filter_cons_of_neg (by simp [isName]), ih, lookup_entry_cons]
      grind
    · rw [List.filter_cons_of_pos (by simpa using isName), lookup_entry_cons, lookup_entry_cons, ih]
      grind

theorem lookup_replace (name other : String) (n : Node) (entries : Entries) :
    (entries.map fun e => if e.1 == name then (name, n) else e).lookup other =
      if other = name then (entries.lookup name).map fun _ => n else entries.lookup other := by
  induction entries with
  | nil => simp
  | cons entry entries ih =>
    obtain ⟨first, m⟩ := entry
    by_cases isName : first = name
    · rw [List.map_cons, if_pos (by simp [isName]), lookup_entry_cons, lookup_entry_cons, lookup_entry_cons, ih]
      grind
    · rw [List.map_cons, if_neg (by simpa using isName), lookup_entry_cons, lookup_entry_cons, lookup_entry_cons,
        ih]
      grind

/-- **Setting an entry** changes what its name leads to, and nothing else. -/
theorem lookup_setEntry (name other : String) (n? : Option Node) (entries : Entries) :
    (setEntry name n? entries).lookup other = if other = name then n? else entries.lookup other := by
  unfold setEntry
  cases n? with
  | none => exact lookup_filter_ne name other entries
  | some n =>
    cases present : entries.lookup name with
    | some m =>
      dsimp only
      rw [if_pos Option.isSome_some, lookup_replace, present]
      rfl
    | none =>
      dsimp only
      rw [if_neg (by simp), List.lookup_append, lookup_entry_cons]
      by_cases same : other = name
      · simp [same, present]
      · simp [same]

/-! ## Places -/

@[simp] theorem get?_nil (n : Node) : n.get? [] = some n := by cases n <;> rfl

@[simp] theorem get?_directory_cons (entries : Entries) (name : String) (rest : Place) :
    (directory entries).get? (name :: rest) = (entries.lookup name).bind (·.get? rest) := by
  rw [get?]
  cases entries.lookup name <;> rfl

theorem get?_cons_of_kind_ne {n : Node} (no : n.kind ≠ .directory) (name : String) (rest : Place) :
    n.get? (name :: rest) = none := by
  cases n with
  | file => rfl
  | link => rfl
  | directory => exact absurd rfl no

theorem get?_append (n : Node) (front back : Place) :
    n.get? (front ++ back) = (n.get? front).bind (·.get? back) := by
  induction front generalizing n with
  | nil => simp
  | cons name front ih =>
    cases n with
    | file => rfl
    | link => rfl
    | directory entries =>
      cases found : entries.lookup name <;> simp [found, ih]

/-- What is at a place of an entry that may be missing. -/
def at? (n? : Option Node) (place : Place) : Option Node := n?.bind (·.get? place)

@[simp] theorem at?_none (place : Place) : at? none place = none := rfl

@[simp] theorem at?_some (n : Node) (place : Place) : at? (some n) place = n.get? place := rfl

@[simp] theorem at?_nil (n? : Option Node) : at? n? [] = n? := by cases n? <;> simp [at?]

variable {change : Option Node → Option Node} {place q : Place}

/-- A change is seen through the first name of its place. -/
theorem at?_alter_cons (entries : Entries) (name other : String) (rest q : Place) :
    at? (alter change (some (directory entries)) (name :: rest)) (other :: q) =
      if other = name then at? (alter change (entries.lookup name) rest) q
      else at? (some (directory entries)) (other :: q) := by
  by_cases same : other = name
  · simp [alter, lookup_setEntry, same, at?]
  · simp [alter, lookup_setEntry, same]

/-- **A change at a place keeps the kinds of all entries that are not at or below it.** -/
theorem kind_at?_alter (apart : ¬ place <+: q) :
    (at? (alter change n? place) q).map kind = (at? n? q).map kind := by
  induction place generalizing n? q with
  | nil => exact absurd List.nil_prefix apart
  | cons name rest ih =>
    match n? with
    | none => rfl
    | some (file ..) => rfl
    | some (link _) => rfl
    | some (directory entries) =>
      cases q with
      | nil => simp [alter]
      | cons other q =>
        rw [at?_alter_cons]
        split
        · rename_i same
          subst same
          have inside : ¬ rest <+: q := fun before => apart (List.cons_prefix_cons.mpr ⟨rfl, before⟩)
          rw [ih inside]
          simp [at?]
        · rfl

/-- **A change at a place in a directory puts there what it says.** -/
theorem at?_alter_append {front : Place} (directory : (at? n? front).map kind = some .directory)
    (name : String) (q : Place) :
    at? (alter change n? (front ++ [name])) (front ++ name :: q) =
      at? (change (at? n? (front ++ [name]))) q := by
  induction front generalizing n? with
  | nil =>
    match n? with
    | none => simp at directory
    | some (file ..) => simp at directory
    | some (link _) => simp at directory
    | some (.directory entries) =>
      rw [List.nil_append, List.nil_append, at?_alter_cons, if_pos rfl]
      cases found : entries.lookup name <;> simp [alter, found]
  | cons first front ih =>
    match n? with
    | none => simp at directory
    | some (file ..) => simp [get?] at directory
    | some (link _) => simp [get?] at directory
    | some (.directory entries) =>
      rw [List.cons_append, List.cons_append, at?_alter_cons, if_pos rfl]
      have inside : (at? (entries.lookup first) front).map kind = some .directory := by
        simpa [at?] using directory
      rw [ih inside]
      simp [at?]

/-- Where an entry is removed, nothing is. -/
theorem at?_erased (below : place <+: q) : at? (alter (fun _ => none) n? place) q = none := by
  induction place generalizing n? q with
  | nil => cases n? <;> rfl
  | cons name rest ih =>
    cases q with
    | nil => simp at below
    | cons other q =>
      obtain ⟨rfl, inside⟩ := List.cons_prefix_cons.mp below
      match n? with
      | none => rfl
      | some (file ..) => rfl
      | some (link _) => rfl
      | some (directory entries) =>
        rw [at?_alter_cons, if_pos rfl]
        exact ih inside

/-! ## All entries -/

mutual

/-- **Whether an entry and all below it are as they should be.** -/
def all (check : Place → Kind → Bool) (place : Place) : Node → Bool
  | file content executable => check place (.file content executable)
  | link target => check place (.link target)
  | directory entries => check place .directory && allEntries check place entries

/-- Whether the entries of a directory and all below them are as they should be. -/
def allEntries (check : Place → Kind → Bool) (place : Place) : Entries → Bool
  | [] => true
  | (name, n) :: entries => n.all check (place ++ [name]) && allEntries check place entries

end

variable {check : Place → Kind → Bool} {place : Place}

theorem all_of_lookup {entries : Entries} {name : String} {n : Node}
    (checked : allEntries check place entries = true) (entry : entries.lookup name = some n) :
    n.all check (place ++ [name]) = true := by
  induction entries with
  | nil => cases entry
  | cons first entries ih =>
    obtain ⟨other, m⟩ := first
    unfold allEntries at checked
    obtain ⟨here, others⟩ := Bool.and_eq_true_iff.mp checked
    rw [lookup_entry_cons] at entry
    split at entry
    · rename_i same
      cases entry
      rwa [same]
    · exact ih others entry

/-- What is checked everywhere holds wherever something is. -/
theorem check_of_all {n m : Node} {q : Place} (checked : n.all check place = true) (entry : n.get? q = some m) :
    check (place ++ q) m.kind = true := by
  induction q generalizing n place with
  | nil =>
    rw [get?_nil] at entry
    cases entry
    rw [List.append_nil]
    unfold all at checked
    cases m with
    | file => exact checked
    | link => exact checked
    | directory => exact (Bool.and_eq_true_iff.mp checked).1
  | cons name q ih =>
    cases n with
    | file => cases entry
    | link => cases entry
    | directory entries =>
      rw [get?_directory_cons] at entry
      obtain ⟨next, found, below⟩ := Option.bind_eq_some_iff.mp entry
      unfold all at checked
      have inside := all_of_lookup (Bool.and_eq_true_iff.mp checked).2 found
      simpa using ih inside below

end Node

namespace FileSystem

variable {fs : FileSystem} {place q : Place} {change : Option Node → Option Node} {n : Node}

/-- **The kind of the entry at a place.** -/
def kind? (fs : FileSystem) (place : Place) : Option Kind := (fs.get? place).map Node.kind

@[simp] theorem kind?_nil (fs : FileSystem) : fs.kind? [] = some .directory := by
  simp [kind?, get?, root]

theorem get?_append (fs : FileSystem) (front back : Place) :
    fs.get? (front ++ back) = (fs.get? front).bind (·.get? back) := Node.get?_append fs.root front back

theorem kind?_eq_none : fs.kind? place = none ↔ fs.get? place = none := by simp [kind?]

theorem kind?_eq_directory :
    fs.kind? place = some .directory ↔ ∃ entries, fs.get? place = some (.directory entries) := by
  unfold kind?
  cases fs.get? place with
  | none => simp
  | some n => simp [Node.kind_eq_directory]

theorem kind?_eq_file {content : ByteArray} {executable : Bool} :
    fs.kind? place = some (.file content executable) ↔ fs.get? place = some (.file content executable) := by
  unfold kind?
  cases fs.get? place with
  | none => simp
  | some n => cases n <;> simp

theorem kind?_eq_link {target : String} :
    fs.kind? place = some (.link target) ↔ fs.get? place = some (.link target) := by
  unfold kind?
  cases fs.get? place with
  | none => simp
  | some n => cases n <;> simp

/-- **What holds an entry is a directory.** -/
theorem kind?_eq_directory_of_append {front : Place} {name : String} {rest : Place}
    (present : fs.kind? (front ++ name :: rest) ≠ none) : fs.kind? front = some .directory := by
  have entry : (fs.get? front).bind (·.get? (name :: rest)) ≠ none := by
    rw [← get?_append]
    exact fun missing => present (kind?_eq_none.mpr missing)
  unfold kind?
  cases here : fs.get? front with
  | none => simp [here] at entry
  | some n =>
    by_cases directory : n.kind = .directory
    · simp [directory]
    · simp [here, Node.get?_cons_of_kind_ne directory] at entry

/-- Where nothing is, nothing is below. -/
theorem kind?_append_eq_none (missing : fs.kind? place = none) (rest : Place) :
    fs.kind? (place ++ rest) = none := by
  rw [kind?_eq_none] at missing ⊢
  simp [get?_append, missing]

/-- An entry that is no directory has nothing below it. -/
theorem kind?_append_eq_none_of_ne (no : fs.kind? place ≠ some .directory) {rest : Place}
    (below : rest ≠ []) : fs.kind? (place ++ rest) = none := by
  cases rest with
  | nil => exact absurd rfl below
  | cons name rest =>
    refine Classical.byContradiction fun entry => no ?_
    exact kind?_eq_directory_of_append entry

/-! ## Changes -/

theorem get?_eq_at? (fs : FileSystem) (q : Place) : fs.get? q = Node.at? (some fs.root) q := rfl

/-- A change below the root is a change of the root. -/
theorem root_alter (below : place ≠ []) :
    some (fs.alter place change).root = Node.alter change (some fs.root) place := by
  cases place with
  | nil => exact absurd rfl below
  | cons name rest => simp [alter, root, Node.alter]

@[simp] theorem workPlace_alter (fs : FileSystem) (place : Place) (change : Option Node → Option Node) :
    (fs.alter place change).workPlace = fs.workPlace := by
  unfold alter
  split <;> rfl

@[simp] theorem workPlace_put (fs : FileSystem) (place : Place) (n : Node) :
    (fs.put place n).workPlace = fs.workPlace := workPlace_alter fs place _

@[simp] theorem workPlace_erase (fs : FileSystem) (place : Place) :
    (fs.erase place).workPlace = fs.workPlace := workPlace_alter fs place _

/-- **A change keeps the kinds of all entries that are not at or below its place.** -/
theorem kind?_alter (apart : ¬ place <+: q) : (fs.alter place change).kind? q = fs.kind? q := by
  have below : place ≠ [] := by
    rintro rfl
    exact apart List.nil_prefix
  unfold kind?
  rw [get?_eq_at?, root_alter below, Node.kind_at?_alter apart]
  rfl

theorem kind?_put (apart : ¬ place <+: q) : (fs.put place n).kind? q = fs.kind? q := kind?_alter apart

theorem kind?_erase (apart : ¬ place <+: q) : (fs.erase place).kind? q = fs.kind? q := kind?_alter apart

/-- **What is put into a directory is there.** -/
theorem get?_put_append {front : Place} (directory : fs.kind? front = some .directory) (name : String)
    (rest : Place) : (fs.put (front ++ [name]) n).get? (front ++ name :: rest) = n.get? rest := by
  have below : front ++ [name] ≠ [] := List.concat_ne_nil _ _
  have inside : (Node.at? (some fs.root) front).map Node.kind = some .directory := directory
  rw [get?_eq_at?, put, root_alter below, Node.at?_alter_append inside]
  rfl

theorem get?_put_self {front : Place} (directory : fs.kind? front = some .directory) (name : String) :
    (fs.put (front ++ [name]) n).get? (front ++ [name]) = some n := by
  rw [get?_put_append directory, Node.get?_nil]

/-- **What is put at a place where nothing is below** is all that changes, if it holds nothing itself. -/
theorem kind?_put_leaf {front : Place} {name : String} (directory : fs.kind? front = some .directory)
    (bare : fs.kind? (front ++ [name]) ≠ some .directory) (leaf : ∀ first rest, n.get? (first :: rest) = none) :
    (fs.put (front ++ [name]) n).kind? q = if q = front ++ [name] then some n.kind else fs.kind? q := by
  by_cases below : front ++ [name] <+: q
  · obtain ⟨rest, rfl⟩ := below
    cases rest with
    | nil => simp [kind?, get?_put_self directory]
    | cons first rest =>
      have before := kind?_append_eq_none_of_ne bare (List.cons_ne_nil first rest)
      have put := get?_put_append (n := n) directory name (first :: rest)
      rw [leaf] at put
      rw [if_neg (by simp), before, kind?_eq_none]
      simpa using put
  · rw [kind?_put below, if_neg]
    rintro rfl
    exact below (List.prefix_refl _)

/-- **Where an entry is removed, nothing is.** -/
theorem kind?_erase_of_isPrefix (below : place ≠ []) (isBelow : place <+: q) :
    (fs.erase place).kind? q = none := by
  rw [kind?_eq_none, get?_eq_at?, erase, root_alter below]
  exact Node.at?_erased isBelow

/-- **What can be checked of all entries.** -/
theorem forall_of_all {check : Place → Kind → Bool} (checked : fs.root.all check [] = true) {k : Kind}
    (entry : fs.kind? place = some k) : check place k = true := by
  unfold kind? get? at entry
  obtain ⟨n, found, rfl⟩ := Option.map_eq_some_iff.mp entry
  simpa using Node.check_of_all checked found

end FileSystem

end PyBundle
