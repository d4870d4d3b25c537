import Mathlib.Data.Nat.Init
import PyBundle.Proofs.FileSystem.Absolute
import PyBundle.Proofs.FileSystem.Files

/-!
# File systems without links

Without links a path leads to the place that it names or nowhere, so each operation is told by the kinds of entries
before and after it. A path leads to the same in two such file systems that have the same kinds at all places on its
way. Where all kinds are the same, links or not, everything is read as it is, in whatever order directories list it.
-/

namespace PyBundle

namespace Node

variable {name : String} {entries : Entries}

/-- A directory has an entry under each of its names. -/
theorem mem_namesOf : name ∈ namesOf entries ↔ (entries.lookup name).isSome := by
  unfold namesOf
  rw [List.mem_eraseDups, List.mem_map, List.lookup_isSome_iff]
  constructor
  · rintro ⟨entry, mem, rfl⟩
    exact ⟨entry, mem, by simp⟩
  · rintro ⟨entry, mem, same⟩
    exact ⟨entry, mem, (beq_iff_eq.mp same).symm⟩

theorem nodup_eraseDups (names : List String) : names.eraseDups.Nodup := by
  induction length : names.length using Nat.strong_induction_on generalizing names with
  | _ n ih =>
    cases names with
    | nil => exact List.nodup_nil
    | cons name rest =>
      rw [List.eraseDups_cons]
      have shorter : (rest.filter fun other => !other == name).length < n := by
        rw [← length]
        exact Nat.lt_succ_of_le (List.length_filter_le _ _)
      refine List.nodup_cons.mpr ⟨fun mem => ?_, ih _ shorter _ rfl⟩
      rw [List.mem_eraseDups, List.mem_filter] at mem
      simpa using mem.2

/-- Each name of a directory is told once. -/
theorem nodup_namesOf (entries : Entries) : (namesOf entries).Nodup := nodup_eraseDups _

end Node

namespace FileSystem

variable {fs fs' : FileSystem} {followLast : Bool} {links : Nat} {here place q : Place} {p source target : Path}
  {names : List String} {name : String} {spot : Spot} {entries : Entries}

/-- A path that goes on from another one names what is there under its names. -/
theorem named_of_goesOn (onward : p.GoesOn names target) : fs.named target = fs.named p ++ names := by
  rw [named_eq, named_eq, way_of_goesOn onward, startOf_of_goesOn onward, after_append]
  exact after_of_forall fun name mem => isBlank_of_isFileName (onward.proper name mem)

/-- A path with a name more names what is there under the name. -/
theorem named_push (isName : IsFileName name) : fs.named (p.push name) = fs.named p ++ [name] :=
  named_of_goesOn (p.goesOn_push isName)

/-! ## Reading -/

theorem Plain.place_eq_named (plain : fs.Plain) (found : fs.place p = .ok place) : place = fs.named p :=
  plain.place_eq (leads_of_place found)

theorem Plain.isLink_of_kind? {n : Node} (plain : fs.Plain) (stands : fs.kind? place = some n.kind) :
    n.isLink = false := by
  cases n with
  | file => rfl
  | directory => rfl
  | link target => exact absurd stands (plain place target)

/-- **A path leads to a directory at the place that it names.** -/
theorem Plain.kind?_of_list (plain : fs.Plain) (listed : fs.list p = .ok entries) :
    fs.get? (fs.named p) = some (.directory entries) := by
  obtain ⟨place, found, directory⟩ := list_eq_ok.mp listed
  rwa [← plain.place_eq_named found]

/-- What a directory lists is what stands in it. -/
theorem kind?_of_lookup (directory : fs.get? place = some (.directory entries)) (name : String) (rest : Place) :
    fs.kind? (place ++ name :: rest) = ((entries.lookup name).bind (·.get? rest)).map Node.kind := by
  unfold kind?
  rw [get?_append, directory, Option.bind_some, Node.get?_directory_cons]

/-! ## Writing -/

/-- **A copy without links** puts the bytes of the one place at the other one, which is in a directory and is none.
A file that is copied to itself is emptied. -/
theorem Plain.copy_eq_ok (plain : fs.Plain) (copied : fs.copy source target = .ok fs') :
    ∃ content executable, fs.kind? (fs.named source) = some (.file content executable) ∧
      fs.kind? (fs.named target) ≠ some .directory ∧ fs.kind? (fs.named target).dropLast = some .directory ∧
      fs'.workPlace = fs.workPlace ∧
      ∀ q, fs'.kind? q = if q = fs.named target then
        some (.file (if fs.named target = fs.named source then ByteArray.empty else content) executable)
      else fs.kind? q := by
  obtain ⟨from_, place, content, executable, found, entry, writes, rfl⟩ := FileSystem.copy_eq_ok copied
  have source_eq := plain.place_eq_named found
  have target_eq : place = fs.named target := by
    obtain ⟨spot, leads, -, here, -⟩ := writes
    rw [← here]
    exact plain.place_eq leads
  obtain ⟨front, name, split, directory⟩ := writes.exists_directory
  subst source_eq target_eq
  refine ⟨content, executable, entry, ?_, ?_, by simp, fun q => writes.kind?_put q⟩
  · obtain ⟨-, -, -, -, notDirectory⟩ := writes
    exact notDirectory
  · rw [split, List.dropLast_concat]
    exact directory

/-! ## The same way -/

/-- **Without links, names lead to the same where the same stands on their way.** -/
theorem Leads.of_same (plain : fs.Plain) (leads : fs.Leads followLast links here names spot)
    (same : ∀ station ∈ stations here names, fs'.kind? station = fs.kind? station) :
    fs'.Leads followLast links here names spot := by
  induction leads with
  | done => exact .done
  | blank silent _ ih =>
    simp only [stations, stepTo, silent, if_true, List.forall_mem_cons] at same
    exact .blank silent (ih same.2)
  | up _ ih =>
    have notBlank : isBlank ".." = false := by decide
    simp only [stations, stepTo, notBlank, Bool.false_eq_true, if_false, if_true, List.forall_mem_cons] at same
    exact .up (ih same.2)
  | vacant isName missing =>
    simp only [stations, isName.stepTo, List.forall_mem_cons] at same
    exact .vacant isName (same.1.trans missing)
  | into isName inside _ ih =>
    simp only [stations, isName.stepTo, List.forall_mem_cons] at same
    exact .into isName (same.1.trans inside) (ih same.2)
  | file isName entry =>
    simp only [stations, isName.stepTo, List.forall_mem_cons] at same
    exact .file isName (same.1.trans entry)
  | linkItself _ entry _ => exact absurd entry (plain _ _)
  | through _ entry _ _ => exact absurd entry (plain _ _)

/-- **The places on the way of a path,** and where it starts. -/
def trail (fs : FileSystem) (p : Path) : List Place := fs.startOf p :: stations (fs.startOf p) (namesOf p.text)

/-- A path leads to the same where the same stands on its way. -/
theorem Plain.place_of_same (plain : fs.Plain) (workPlace : fs'.workPlace = fs.workPlace)
    (same : ∀ station ∈ fs.trail p, fs'.kind? station = fs.kind? station) (found : fs.place p = .ok place) :
    fs'.place p = .ok place := by
  obtain ⟨start, others⟩ := List.forall_mem_cons.mp same
  obtain ⟨usable, root, leads⟩ := resolve_iff.mp (place_eq_ok.mp found)
  have start_eq : fs'.startOf p = fs.startOf p := by
    unfold startOf
    rw [workPlace]
  refine place_eq_ok.mpr (resolve_iff.mpr ⟨usable, ?_, ?_⟩)
  · rw [start_eq]
    exact start.trans root
  · rw [start_eq]
    exact leads.of_same plain others

/-- Where a path leads is on its trail. -/
theorem named_mem_trail (fs : FileSystem) (p : Path) : fs.named p ∈ fs.trail p := by
  have last : ∀ names (here : Place), after here names ∈ here :: stations here names := by
    intro names
    induction names with
    | nil => exact fun here => List.mem_cons_self
    | cons name names ih =>
      intro here
      exact List.mem_cons_of_mem _ (ih (stepTo here name))
  exact last _ _

theorem trail_congr (same : fs'.workPlace = fs.workPlace) (p : Path) : fs'.trail p = fs.trail p := by
  unfold trail startOf
  rw [same]

theorem Plain.isDirectory_of_same (plain : fs.Plain) (workPlace : fs'.workPlace = fs.workPlace)
    (same : ∀ station ∈ fs.trail p, fs'.kind? station = fs.kind? station) (directory : fs.isDirectory p = true) :
    fs'.isDirectory p = true := by
  obtain ⟨place, found, holds⟩ := isDirectory_iff.mp directory
  have here : place ∈ fs.trail p := by
    rw [plain.place_eq_named found]
    exact fs.named_mem_trail p
  exact isDirectory_iff.mpr ⟨place, plain.place_of_same workPlace same found, (same place here).trans holds⟩

/-! ## The same entries -/

/-- Two searches find the same if one of them finds what the other one does. -/
theorem toOption_eq {ε α : Type} {x y : Except ε α} (same : ∀ a, x = .ok a ↔ y = .ok a) : x.toOption = y.toOption := by
  cases x with
  | ok a => rw [(same a).mp rfl]
  | error =>
    cases y with
    | ok a => cases (same a).mpr rfl
    | error => rfl

/-- The text of a file is the same where there are the same entries. -/
theorem Within.toOption_readText (more : fs.Within fs') (fewer : fs'.Within fs) (p : Path) :
    (fs'.readText p).toOption = (fs.readText p).toOption := by
  have same : (fs'.read p).toOption = (fs.read p).toOption := toOption_eq fun _ => ⟨fewer.read_eq, more.read_eq⟩
  unfold readText
  generalize fs.read p = old at same ⊢
  generalize fs'.read p = new at same ⊢
  cases old <;> cases new <;> cases same <;> rfl

theorem Within.isDirectory_eq (more : fs.Within fs') (fewer : fs'.Within fs) (p : Path) :
    fs'.isDirectory p = fs.isDirectory p :=
  Bool.eq_iff_iff.mpr ⟨fewer.isDirectory, more.isDirectory⟩

/-- A directory names what stands in it. -/
theorem mem_namesOf_iff (directory : fs.get? place = some (.directory entries)) :
    name ∈ Node.namesOf entries ↔ fs.kind? (place ++ [name]) ≠ none := by
  rw [Node.mem_namesOf, kind?_of_lookup directory]
  cases entries.lookup name <;> simp

/-- **A directory is listed where there are more entries, too,** and all its names are told there. -/
theorem Within.exists_list (more : fs.Within fs') (listed : fs.list p = .ok entries) :
    ∃ entries', fs'.list p = .ok entries' ∧ ∀ name ∈ Node.namesOf entries, name ∈ Node.namesOf entries' := by
  obtain ⟨place, found, directory⟩ := list_eq_ok.mp listed
  have holds : fs.kind? place = some .directory := kind?_eq_directory.mpr ⟨entries, directory⟩
  obtain ⟨entries', directory'⟩ := kind?_eq_directory.mp (more.kind holds)
  refine ⟨entries', list_eq_ok.mpr ⟨place, more.place_eq found, directory'⟩, fun name mem => ?_⟩
  obtain ⟨k, entry⟩ := Option.ne_none_iff_exists'.mp ((mem_namesOf_iff directory).mp mem)
  rw [mem_namesOf_iff directory', more.kind entry]
  exact Option.some_ne_none k

end FileSystem

end PyBundle
