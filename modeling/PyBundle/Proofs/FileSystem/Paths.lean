import PyBundle.Proofs.FileSystem.File
import PyBundle.Proofs.FileSystem.Leads
import PyBundle.Proofs.Path.Written

/-!
# Where paths lead

A path leads where its steps lead, from the root or from the directory in which relative paths start. What is
written between the steps and behind them only matters for whether the path leads anywhere. So an operation
that succeeds is told here by the steps of its path: where it finds a directory, where it makes one and where
it writes.
-/

namespace PyBundle

/-- **The names of the steps of a path.** -/
def Path.way (p : Path) : List String := p.steps.map Path.Component.text

theorem Path.Component.text_comp_name : Path.Component.text ∘ Path.Component.name = id := rfl

theorem Path.way_of_steps {p : Path} {names : List String} (steps : p.steps = names.map .name) : p.way = names := by
  unfold Path.way
  rw [steps, List.map_map, Path.Component.text_comp_name, List.map_id]

/-- **What a path has to be like to lead anywhere.** -/
structure Path.IsUsable (p : Path) : Prop where
  noNul : '\x00' ∉ p.text.toList
  written : p.isEmpty = false
  short : ¬ p.IsTooLong

namespace FileSystem

variable {fs fs' : FileSystem} {followLast : Bool} {links : Nat} {here place : Place} {p q : Path}
  {names others : List String} {spot : Spot}

/-- **The place where a path starts.** -/
def startOf (fs : FileSystem) (p : Path) : Place := if p.isAbsolute then [] else fs.workPlace

/-- A path leads to a spot if it can lead anywhere, starts in a directory, and its names lead there. -/
theorem resolve_iff : fs.resolve followLast p = .ok spot ↔
    p.IsUsable ∧ fs.kind? (fs.startOf p) = some .directory ∧
      fs.Leads followLast linkLimit (fs.startOf p) (namesOf p.text) spot := by
  have start : fs.kind? (fs.startOf p) = some .directory ↔
      (fs.get? (if p.isAbsolute then [] else fs.workPlace)).any (·.isDirectory) = true := by
    unfold kind? startOf
    cases fs.get? (if p.isAbsolute then [] else fs.workPlace) with
    | none => simp
    | some n => simp [Node.isDirectory_iff]
  rw [resolve_eq_ok, ← start, ← follow_eq_ok]
  constructor
  · rintro ⟨noNul, written, short, directory, followed⟩
    exact ⟨⟨noNul, written, short⟩, directory, followed⟩
  · rintro ⟨⟨noNul, written, short⟩, directory, followed⟩
    exact ⟨noNul, written, short, directory, followed⟩

/-! ## Steps -/

/-- Thinned names are those that lead somewhere, and some at the end that do not. -/
theorem exists_thin (names : List String) : ∃ blank, allBlank blank = true ∧
    thin names = names.filter (fun name => !isBlank name) ++ blank := by
  induction names with
  | nil => exact ⟨[], rfl, rfl⟩
  | cons name rest ih =>
    obtain ⟨blank, isAll, split⟩ := ih
    rw [thin]
    by_cases silent : isBlank name = true
    · by_cases all : allBlank rest = true
      · have none : rest.filter (fun name => !isBlank name) = [] := by
          simpa [List.filter_eq_nil_iff, allBlank] using all
        refine ⟨name :: rest, Bool.and_eq_true_iff.mpr ⟨silent, all⟩, ?_⟩
        simp [silent, all, none, thin_of_allBlank all]
      · exact ⟨blank, isAll, by simp [silent, all, split]⟩
    · exact ⟨blank, isAll, by simp [silent, split]⟩

/-- Names that are thinned to the same lead to the same. -/
theorem leads_congr (same : thin names = thin others) :
    fs.Leads followLast links here names spot ↔ fs.Leads followLast links here others spot := by
  rw [← follow_eq_ok, ← follow_eq_ok, follow_congr followLast same]

/-- **The names of a path lead where its steps do,** with nothing behind them that leads on. -/
theorem exists_leads_way (p : Path) : ∃ blank, allBlank blank = true ∧
    ∀ (fs : FileSystem) followLast links here spot,
      fs.Leads followLast links here (namesOf p.text) spot ↔
        fs.Leads followLast links here (p.way ++ blank) spot := by
  obtain ⟨blank, isAll, split⟩ := exists_thin (namesOf p.text)
  rw [filter_namesOf] at split
  refine ⟨blank, isAll, fun _ _ _ _ _ => leads_congr ?_⟩
  show thin (namesOf p.text) = thin (p.steps.map Path.Component.text ++ blank)
  rw [← split, thin_thin]

/-- **A path that is followed to its end leads where its steps do.** -/
theorem leads_of_resolve (led : fs.resolve true p = .ok spot) :
    fs.Leads true linkLimit (fs.startOf p) p.way spot := by
  obtain ⟨-, -, leads⟩ := resolve_iff.mp led
  obtain ⟨blank, isAll, same⟩ := exists_leads_way p
  rw [same] at leads
  exact leads.dropBlank isAll fun _ => rfl

/-- A path that leads to a missing entry has nothing behind its steps. -/
theorem leads_of_resolve_vacant {directory : Place} {name : String}
    (led : fs.resolve followLast p = .ok (.vacant directory name)) :
    fs.Leads followLast linkLimit (fs.startOf p) p.way (.vacant directory name) := by
  obtain ⟨-, -, leads⟩ := resolve_iff.mp led
  obtain ⟨blank, isAll, same⟩ := exists_leads_way p
  rw [same] at leads
  rcases List.eq_nil_or_concat blank with rfl | ⟨before, last, rfl⟩
  · simpa using leads
  · have silent : isBlank last = true := List.all_eq_true.mp isAll last (by simp)
    have final : (p.way ++ before.concat last).getLast? = some last := by simp
    have said := leads.notBlank_of_vacant final
    cases silent.symm.trans said

theorem place_eq_ok : fs.place p = .ok place ↔ fs.resolve true p = .ok (.taken place) := by
  unfold FileSystem.place
  cases fs.resolve true p with
  | error fault => simp
  | ok spot => cases spot <;> simp

/-- **The place of an entry that a path leads to** is where its steps lead. -/
theorem leads_of_place (found : fs.place p = .ok place) :
    fs.Leads true linkLimit (fs.startOf p) p.way (.taken place) := leads_of_resolve (place_eq_ok.mp found)

theorem kind?_ne_none_of_place (found : fs.place p = .ok place) : fs.kind? place ≠ none := by
  obtain ⟨-, start, leads⟩ := resolve_iff.mp (place_eq_ok.mp found)
  exact leads.holds start

theorem isDirectory_iff : fs.isDirectory p = true ↔
    ∃ place, fs.place p = .ok place ∧ fs.kind? place = some .directory := by
  unfold isDirectory node
  cases fs.place p with
  | error fault => simp [Except.toOption]
  | ok place =>
    cases entry : fs.get? place with
    | none => simp [kind?, entry, Except.toOption]
    | some n => simp [kind?, entry, Except.toOption, Node.isDirectory_iff]

theorem pathExists_iff : fs.pathExists p = true ↔ ∃ place, fs.place p = .ok place := by
  unfold pathExists node
  cases found : fs.place p with
  | error fault => simp [Except.toOption]
  | ok place =>
    cases entry : fs.get? place with
    | none => exact absurd (kind?_eq_none.mpr entry) (kind?_ne_none_of_place found)
    | some n => simp [entry, Except.toOption]

theorem pathExists_of_isDirectory (directory : fs.isDirectory p = true) : fs.pathExists p = true := by
  obtain ⟨place, found, -⟩ := isDirectory_iff.mp directory
  exact pathExists_iff.mpr ⟨place, found⟩

theorem isDirectory_of_not_pathExists (vacant : fs.pathExists p = false) : fs.isDirectory p = false :=
  Bool.eq_false_iff.mpr fun directory => Bool.eq_false_iff.mp vacant (pathExists_of_isDirectory directory)

theorem pathExists_eq_false (nowhere : ∀ place, fs.place p ≠ .ok place) : fs.pathExists p = false := by
  refine Bool.eq_false_iff.mpr fun there => ?_
  obtain ⟨place, found⟩ := pathExists_iff.mp there
  exact nowhere place found

/-! ## More entries -/

/-- **A file system has all that another one has, but for files at some places.** -/
structure Spares (fs fs' : FileSystem) (lost : Place → Prop) : Prop where
  workPlace : fs'.workPlace = fs.workPlace
  kind : ∀ {place : Place} {k : Kind}, fs.kind? place = some k →
    (∀ content executable, k = .file content executable → ¬ lost place) → fs'.kind? place = some k

variable {lost : Place → Prop}

theorem Within.spares (more : fs.Within fs') : fs.Spares fs' lost := ⟨more.workPlace, fun entry _ => more.kind entry⟩

theorem Within.trans_spares {fs'' : FileSystem} (more : fs.Within fs') (spares : fs'.Spares fs'' lost) :
    fs.Spares fs'' lost :=
  ⟨spares.workPlace.trans more.workPlace, fun entry kept => spares.kind (more.kind entry) kept⟩

/-- A path leads to the entry that it has led to, unless that is a file at one of these places. -/
theorem Spares.place_eq (spares : fs.Spares fs' lost) (found : fs.place p = .ok place)
    (kept : ∀ content executable, fs.kind? place = some (.file content executable) → ¬ lost place) :
    fs'.place p = .ok place := by
  obtain ⟨usable, start, leads⟩ := resolve_iff.mp (place_eq_ok.mp found)
  have same : fs'.startOf p = fs.startOf p := by
    unfold startOf
    rw [spares.workPlace]
  refine place_eq_ok.mpr (resolve_iff.mpr ⟨usable, ?_, ?_⟩)
  · rw [same]
    exact spares.kind start nofun
  · rw [same]
    refine leads.of_kept fun entry file => spares.kind entry fun content executable isFile => ?_
    have here := file content executable isFile
    subst here
    exact kept content executable (entry.trans (congrArg some isFile))

/-- **More entries do not change which entry a path leads to.** -/
theorem Within.place_eq (more : fs.Within fs') (found : fs.place p = .ok place) : fs'.place p = .ok place :=
  Spares.place_eq (more.spares : fs.Spares fs' fun _ => False) found fun _ _ _ => id

theorem Within.isDirectory (more : fs.Within fs') (directory : fs.isDirectory p = true) :
    fs'.isDirectory p = true := by
  obtain ⟨place, found, holds⟩ := isDirectory_iff.mp directory
  exact isDirectory_iff.mpr ⟨place, more.place_eq found, more.kind holds⟩

theorem read_eq_ok {content : ByteArray} : fs.read p = .ok content ↔
    ∃ place executable, fs.place p = .ok place ∧ fs.kind? place = some (.file content executable) := by
  unfold read node
  cases fs.place p with
  | error fault => simp
  | ok place =>
    cases entry : fs.get? place with
    | none => simp [kind?, entry]
    | some n =>
      cases n with
      | file content' executable => cases executable <;> simp [kind?, entry]
      | link target => simp [kind?, entry]
      | directory entries => simp [kind?, entry]

/-- **What a directory lists** is what stands at its place. -/
theorem list_eq_ok {entries : Entries} :
    fs.list p = .ok entries ↔ ∃ place, fs.place p = .ok place ∧ fs.get? place = some (.directory entries) := by
  unfold list node
  cases fs.place p with
  | error => simp
  | ok place =>
    cases entry : fs.get? place with
    | none => simp [entry]
    | some n => cases n <;> simp [entry]

/-- More entries do not change what is read from a file. -/
theorem Within.read_eq {content : ByteArray} (more : fs.Within fs') (read : fs.read p = .ok content) :
    fs'.read p = .ok content := by
  obtain ⟨place, executable, found, entry⟩ := read_eq_ok.mp read
  exact read_eq_ok.mpr ⟨place, executable, more.place_eq found, more.kind entry⟩

/-- A file that is there in fewer entries is read as it is in more. -/
theorem Within.read_of_place {content : ByteArray} (more : fs.Within fs') (found : fs.place p = .ok place)
    (read : fs'.read p = .ok content) : fs.read p = .ok content := by
  obtain ⟨place', executable, found', entry⟩ := read_eq_ok.mp read
  cases Except.ok.inj ((more.place_eq found).symm.trans found')
  obtain ⟨k, entry'⟩ := Option.ne_none_iff_exists'.mp (kind?_ne_none_of_place found)
  refine read_eq_ok.mpr ⟨place, executable, found, ?_⟩
  rw [← entry, more.kind entry', entry']

/-- **A file that is spared is read as before.** -/
theorem Spares.read {content : ByteArray} (spares : fs.Spares fs' lost) (found : fs.place p = .ok place)
    (kept : ¬ lost place) (read : fs.read p = .ok content) : fs'.read p = .ok content := by
  obtain ⟨place', executable, found', entry⟩ := read_eq_ok.mp read
  cases Except.ok.inj (found.symm.trans found')
  exact read_eq_ok.mpr ⟨place, executable, spares.place_eq found fun _ _ _ => kept, spares.kind entry fun _ _ _ => kept⟩

/-! ## Directories and files -/

theorem IsUsable.dropSlashes (usable : p.IsUsable) : (dropSlashes p).IsUsable := by
  obtain ⟨n, text, written⟩ := Path.exists_dropSlashes usable.written
  have joined : p.text = (FileSystem.dropSlashes p).text ++ String.ofList (List.replicate n '/') := by
    rw [← String.toList_inj, text, String.toList_append, String.toList_ofList]
  refine ⟨fun nul => usable.noNul ?_, written, fun long => usable.short ?_⟩
  · rw [text]
    exact List.mem_append_left _ nul
  · unfold Path.IsTooLong at long ⊢
    rw [joined, String.utf8ByteSize_append]
    omega

theorem startOf_dropSlashes (written : p.isEmpty = false) : fs.startOf (dropSlashes p) = fs.startOf p := by
  unfold startOf
  rw [Path.isAbsolute_dropSlashes written]

theorem way_dropSlashes (written : p.isEmpty = false) : (dropSlashes p).way = p.way := by
  unfold Path.way
  rw [Path.steps_dropSlashes written]

/-- A path that leads somewhere without its slashes at the end is not empty. -/
theorem written_of_resolve_dropSlashes (led : fs.resolve followLast (dropSlashes p) = .ok spot) :
    p.isEmpty = false := by
  refine Bool.eq_false_iff.mpr fun empty => ?_
  have same : dropSlashes p = p := by
    have text : p.text = "" := eq_of_beq empty
    unfold dropSlashes
    rw [text]
    rfl
  rw [same] at led
  exact absurd empty (Bool.eq_false_iff.mp (resolve_iff.mp led).1.written)

/-- **A path leads to a directory that its steps lead to,** whatever is written behind them. -/
theorem place_of_leads (usable : p.IsUsable) (start : fs.kind? (fs.startOf p) = some .directory)
    (leads : fs.Leads true linkLimit (fs.startOf p) p.way (.taken place))
    (directory : fs.kind? place = some .directory) : fs.place p = .ok place := by
  obtain ⟨blank, isAll, same⟩ := exists_leads_way p
  refine place_eq_ok.mpr (resolve_iff.mpr ⟨usable, start, (same ..).mpr ?_⟩)
  cases blank with
  | nil => simpa using leads
  | cons first blank =>
    obtain ⟨left, split⟩ := leads.exists_split directory (List.cons_ne_nil first blank)
    exact (split ..).mpr ((leads_allBlank isAll).mpr rfl)

/-- A path to a directory leads there without the slashes at its end. -/
theorem place_dropSlashes (found : fs.place p = .ok place) (directory : fs.kind? place = some .directory) :
    fs.place (dropSlashes p) = .ok place := by
  obtain ⟨usable, start, -⟩ := resolve_iff.mp (place_eq_ok.mp found)
  have leads := leads_of_place found
  rw [← startOf_dropSlashes usable.written] at start leads
  rw [← way_dropSlashes usable.written] at leads
  exact place_of_leads (IsUsable.dropSlashes usable) start leads directory

/-- **A directory is made** where the steps of its path lead to a missing entry of a directory. -/
theorem makeDirectory_eq_ok (made : fs.makeDirectory p = .ok fs') :
    p.IsUsable ∧ fs.kind? (fs.startOf p) = some .directory ∧
      ∃ directory name, fs.Leads false linkLimit (fs.startOf p) p.way (.vacant directory name) ∧
        fs.kind? directory = some .directory ∧ fs.kind? (directory ++ [name]) = none ∧ IsFileName name ∧
        fs' = fs.put (directory ++ [name]) (.directory []) := by
  unfold makeDirectory at made
  split at made
  · cases made
  · rename_i short
    split at made
    · cases made
    · cases made
    · rename_i directory name led
      cases made
      have written := written_of_resolve_dropSlashes led
      have leads := leads_of_resolve_vacant led
      obtain ⟨usable, start, whole⟩ := resolve_iff.mp led
      obtain ⟨holds, missing, -⟩ := whole.holds start
      rw [startOf_dropSlashes written] at leads start
      rw [way_dropSlashes written] at leads
      have isName := whole.isFileName_of_vacant fun _ mem => slashFree_of_mem_namesOf mem
      have noNul : '\x00' ∉ p.text.toList := by
        obtain ⟨n, text, -⟩ := Path.exists_dropSlashes written
        rw [text, List.mem_append, List.mem_replicate]
        exact fun either => either.elim usable.noNul fun slash => absurd slash.2 (by decide)
      exact ⟨⟨noNul, written, short⟩, start, directory, name, leads, holds, missing, isName, rfl⟩

/-- **A directory is not made again,** and that is not because something is missing on its way. -/
theorem makeDirectory_of_isDirectory (directory : fs.isDirectory p = true) :
    ∃ fault, fs.makeDirectory p = .error fault ∧ fault ≠ .noSuchEntry := by
  obtain ⟨place, found, holds⟩ := isDirectory_iff.mp directory
  have leads := leads_of_place found
  obtain ⟨usable, start, -⟩ := resolve_iff.mp (place_eq_ok.mp found)
  have itself : ∃ place', fs.resolve false (dropSlashes p) = .ok (.taken place') := by
    obtain ⟨blank, isAll, same⟩ := exists_leads_way (dropSlashes p)
    have onward : ∃ place', fs.Leads false linkLimit (fs.startOf p) (p.way ++ blank) (.taken place') := by
      cases blank with
      | nil => simpa using leads.exists_itself
      | cons first blank =>
        obtain ⟨left, split⟩ := leads.exists_split holds (List.cons_ne_nil first blank)
        exact ⟨place, (split ..).mpr ((leads_allBlank isAll).mpr rfl)⟩
    obtain ⟨place', onward⟩ := onward
    refine ⟨place', resolve_iff.mpr ⟨IsUsable.dropSlashes usable, ?_, ?_⟩⟩
    · rwa [startOf_dropSlashes usable.written]
    · rwa [same, startOf_dropSlashes usable.written, way_dropSlashes usable.written]
  obtain ⟨place', led⟩ := itself
  unfold makeDirectory
  split
  · exact ⟨_, rfl, nofun⟩
  · rw [led]
    exact ⟨_, rfl, nofun⟩

/-- **The place of a file that is about to be written** is where the steps of its path lead. -/
theorem writable_eq_ok {n? : Option Node} (found : fs.writable p = .ok (place, n?)) :
    ∃ spot, fs.Leads true linkLimit (fs.startOf p) p.way spot ∧ fs.Holds spot ∧ spot.place = place ∧
      fs.kind? place ≠ some .directory := by
  unfold writable at found
  split at found
  · cases found
  · rename_i directory name led
    split at found
    · cases found
    · cases found
      have written := written_of_resolve_dropSlashes led
      obtain ⟨-, start, whole⟩ := resolve_iff.mp led
      have holds := whole.holds start
      have leads := leads_of_resolve led
      rw [startOf_dropSlashes written, way_dropSlashes written] at leads
      refine ⟨_, leads, holds, rfl, ?_⟩
      rw [holds.2.1]
      exact nofun
  · rename_i place' led
    split at found
    · cases found
    · have written := written_of_resolve_dropSlashes led
      obtain ⟨-, start, whole⟩ := resolve_iff.mp led
      have leads := leads_of_resolve led
      rw [startOf_dropSlashes written, way_dropSlashes written] at leads
      split at found
      · cases found
      · rename_i n? notDirectory
        cases found
        refine ⟨_, leads, whole.holds start, rfl, fun directory => ?_⟩
        obtain ⟨entries, entry⟩ := kind?_eq_directory.mp directory
        exact notDirectory entries entry

/-! ## Without links -/

/-- **The place that a path names,** without a look at what is there. -/
def named (fs : FileSystem) (p : Path) : Place := after (fs.startOf p) (namesOf p.text)

/-- **No entry is a link.** -/
def Plain (fs : FileSystem) : Prop := ∀ place, fs.NoLink place

theorem plain_of_all (checked : fs.root.all (fun _ k => !k.isLink) [] = true) : fs.Plain := by
  intro place target entry
  cases forall_of_all checked entry

/-- Names that say nothing are not on the way. -/
theorem after_filter (here : Place) (names : List String) :
    after here (names.filter fun name => !isBlank name) = after here names := by
  induction names generalizing here with
  | nil => rfl
  | cons name rest ih =>
    by_cases silent : isBlank name = true
    · have next := ih here
      simpa [after, stepTo, silent] using next
    · have next := ih (stepTo here name)
      simpa [after, silent] using next

theorem named_eq (fs : FileSystem) (p : Path) : fs.named p = after (fs.startOf p) p.way := by
  unfold named Path.way
  rw [← after_filter, filter_namesOf]

/-- A file name says something and does not lead up. -/
theorem isBlank_of_isFileName {name : String} (isName : IsFileName name) :
    isBlank name = false ∧ name ≠ ".." := by
  have said : ¬ (name = "" ∨ name = ".") := fun either => either.elim isName.notEmpty isName.notHere
  exact ⟨by simpa [isBlank] using said, isName.notUp⟩

/-- The steps of a path that does not climb are names of entries. -/
theorem forall_way (level : .up ∉ p.steps) : ∀ name ∈ p.way, isBlank name = false ∧ name ≠ ".." := by
  intro text mem
  obtain ⟨c, step, rfl⟩ := List.mem_map.mp mem
  rcases Path.eq_up_or_name step with rfl | ⟨name, rfl, isName⟩
  · exact absurd step level
  · exact isBlank_of_isFileName isName

/-- **A path that does not climb names the place below its start that its steps lead to.** -/
theorem named_of_level (level : .up ∉ p.steps) : fs.named p = fs.startOf p ++ p.way := by
  rw [named_eq, after_of_forall (forall_way level)]

/-- **Without links a path leads to the place that it names.** -/
theorem Plain.place_eq (plain : fs.Plain) (leads : fs.Leads followLast links (fs.startOf p) p.way spot) :
    spot.place = fs.named p := by
  rw [named_eq, leads.place_eq fun station _ => plain station]

/-- Fewer entries have no more links. -/
theorem Plain.of_within (plain : fs'.Plain) (fewer : fs.Within fs') : fs.Plain := fun place target entry =>
  plain place target (fewer.kind entry)

theorem named_congr (same : fs'.workPlace = fs.workPlace) (p : Path) : fs'.named p = fs.named p := by
  unfold named startOf
  rw [same]

/-- A path that does not climb and has a name more names what is there under the name. -/
theorem named_of_steps_concat {name : String} (level : .up ∉ q.steps) (start : q.isAbsolute = p.isAbsolute)
    (steps : p.steps = q.steps ++ [.name name]) : fs.named p = fs.named q ++ [name] := by
  have level' : .up ∉ p.steps := by simpa [steps] using level
  rw [named_of_level level, named_of_level level']
  simp [startOf, start, Path.way, steps, Path.Component.text]

/-- Paths that are the same name the same place. -/
theorem named_of_sameAs (same : p.sameAs q = true) : fs.named p = fs.named q := by
  rw [named_eq, named_eq]
  unfold startOf Path.way
  rw [Path.isAbsolute_eq_of_sameAs same, (Path.sameAs_iff.mp same).2]

end FileSystem

end PyBundle
