import PyBundle.Proofs.FileSystem.Absolute
import PyBundle.Proofs.FileSystem.Removal

/-!
# What stood where a path leads

`FileSystem.Leftover` says of a file system that it is another one with an entry more, which a path names. Clearing
the path takes that entry away and leaves the other file system as it was (`Leftover.clear_eq`), whatever the entry
is: a file, a directory with all below it, or a link.
-/

namespace PyBundle.FileSystem

variable {fs fs' ground : FileSystem} {p q parent : Path} {place top : Place} {name : String}

/-- **A file system is another one, except for an entry that a path names.** The directory of that entry is there
without it; a path with a slash at its end names a directory; and a link there leads to something. -/
inductive Leftover (ground : FileSystem) (p : Path) : FileSystem → Prop where
  | nothing : Leftover ground p ground
  | entry {fs : FileSystem} {parent : Path} (rest : fs.erase p.normalPlace = ground)
      (present : fs.kind? p.normalPlace ≠ none) (isParent : p.parent? = some parent)
      (inside : ground.isDirectory parent = true)
      (closed : p.endsWithSlash = true → fs.kind? p.normalPlace = some .directory)
      (leads : fs.pathExists p = true) : Leftover ground p fs

/-- All else is there with what was left. -/
theorem Leftover.within (leftover : Leftover ground p fs) : ground.Within fs := by
  cases leftover with
  | nothing => exact Within.refl fs
  | entry rest => exact rest ▸ within_erase fs p.normalPlace

/-- A path whose directory is there and which names a place where nothing is ends in a name. -/
theorem Plain.exists_name (plain : ground.Plain) (absolute : p.isAbsolute = true)
    (vacant : ground.kind? p.normalPlace = none) (isParent : p.parent? = some parent)
    (inside : ground.isDirectory parent = true) :
    ∃ top name, ground.place parent = .ok top ∧ ground.kind? top = some .directory ∧
      p.normalPlace = top ++ [name] ∧ IsFileName name ∧ p.steps = parent.steps ++ [.name name] ∧
      parent.isAbsolute = true := by
  obtain ⟨top, found, directory⟩ := isDirectory_iff.mp inside
  have written := (resolve_iff.mp (place_eq_ok.mp found)).1.written
  rcases Path.parent_spec isParent with ⟨-, empty⟩ | ⟨c, steps, start⟩
  · cases written.symm.trans empty
  · have root : ground.startOf parent = [] := by
      unfold startOf
      rw [start, absolute, if_pos rfl]
    have top_eq : top = after [] parent.way := by
      have named := plain.place_eq (leads_of_place found)
      rwa [named_eq, root] at named
    have normal : p.normalPlace = stepTo top c.text := by
      rw [Path.normalPlace_eq absolute, top_eq]
      unfold Path.way
      rw [steps, List.map_append, after_append]
      rfl
    have mem : c ∈ p.steps := by simp [steps]
    rcases Path.eq_up_or_name mem with rfl | ⟨name, rfl, isName⟩
    · -- The place that a climb ends at is on the way to a directory.
      have above : stepTo top ".." = top.dropLast := by simp [stepTo, isBlank]
      rw [normal, show Path.Component.text .up = ".." from rfl, above] at vacant
      cases vacant.symm.trans (kind?_eq_directory_of_isPrefix directory (List.dropLast_prefix top))
    · obtain ⟨notBlank, notUp⟩ := isBlank_of_isFileName isName
      refine ⟨top, name, found, directory, ?_, isName, steps, start.trans absolute⟩
      rw [normal, show Path.Component.text (.name name) = name from rfl]
      simp [stepTo, notBlank, notUp]

/-- **A path that ends in one name more than another one leads from where that one leads to.** Behind the name
stands nothing, or the path ends with a slash. -/
theorem exists_split_way (found : fs.place parent = .ok top) (directory : fs.kind? top = some .directory)
    (steps : p.steps = parent.steps ++ [.name name]) (start : p.isAbsolute = parent.isAbsolute)
    (ended : p.endsWithSlash = false → p.EndsInName) :
    ∃ left blank, allBlank blank = true ∧ (p.endsWithSlash = false → blank = []) ∧
      ∀ followLast spot, fs.Leads followLast linkLimit (fs.startOf p) (namesOf p.text) spot ↔
        fs.Leads followLast left top (name :: blank) spot := by
  have way : p.way = parent.way ++ [name] := by
    unfold Path.way
    rw [steps, List.map_append]
    rfl
  have same : fs.startOf p = fs.startOf parent := by
    unfold startOf
    rw [start]
  have leads := leads_of_place found
  cases closed : p.endsWithSlash with
  | true =>
    obtain ⟨blank, isAll, whole⟩ := exists_leads_way p
    obtain ⟨left, split⟩ := leads.exists_split directory (List.cons_ne_nil name blank)
    refine ⟨left, blank, isAll, nofun, fun followLast spot => ?_⟩
    rw [whole, way, same, List.append_assoc, List.singleton_append, split]
  | false =>
    have thinned : thin (namesOf p.text) = p.way := thin_namesOf (ended closed)
    have again : thin (namesOf p.text) = thin p.way := by rw [← thinned, thin_thin]
    obtain ⟨left, split⟩ := leads.exists_split directory (List.cons_ne_nil name [])
    refine ⟨left, [], rfl, fun _ => rfl, fun followLast spot => ?_⟩
    rw [leads_congr again, way, same, split]

section

variable (found : fs.place parent = .ok top) (directory : fs.kind? top = some .directory)
  (isName : IsFileName name) (steps : p.steps = parent.steps ++ [.name name])
  (start : p.isAbsolute = parent.isAbsolute) (ended : p.endsWithSlash = false → p.EndsInName)

include found directory isName steps start ended

/-- **A path that leads to an entry names the one of its last name,** unless a slash leads on from a link. -/
theorem names_of_leads (leads : fs.pathExists p = true)
    (closed : p.endsWithSlash = true → fs.kind? (top ++ [name]) = some .directory) :
    fs.Names p (top ++ [name]) ∧ IsEntryName name := by
  obtain ⟨place, there⟩ := pathExists_iff.mp leads
  obtain ⟨itself, names⟩ := exists_names there
  obtain ⟨usable, root, led⟩ := resolve_iff.mp names
  obtain ⟨left, blank, isAll, unclosed, split⟩ := exists_split_way found directory steps start ended
  have last := (split ..).mp led
  obtain ⟨notBlank, notUp⟩ := isBlank_of_isFileName isName
  cases last with
  | blank silent _ => cases silent.symm.trans notBlank
  | up => exact absurd rfl notUp
  | into isEntry inside onward =>
    cases (leads_allBlank isAll).mp onward
    exact ⟨names, isEntry⟩
  | file isEntry entry => exact ⟨names, isEntry⟩
  | linkItself isEntry entry _ => exact ⟨names, isEntry⟩
  | through isEntry entry more _ =>
    cases slash : p.endsWithSlash with
    | true => cases entry.symm.trans (closed slash)
    | false => exact absurd (unclosed slash) (more.resolve_right Bool.false_ne_true)

omit isName in
/-- A path names a directory that stands at its last name. -/
theorem names_of_directory (usable : p.IsUsable) (root : fs.kind? (fs.startOf p) = some .directory)
    (isEntry : IsEntryName name) (stands : fs.kind? (top ++ [name]) = some .directory) :
    fs.Names p (top ++ [name]) := by
  obtain ⟨left, blank, isAll, -, split⟩ := exists_split_way found directory steps start ended
  refine resolve_iff.mpr ⟨usable, root, (split ..).mpr ?_⟩
  exact .into isEntry stands ((leads_allBlank isAll).mpr rfl)

end

/-- Where a path names what is no link, it leads there. -/
theorem Names.place_eq (names : fs.Names p place) (free : ∀ target, fs.kind? place ≠ some (.link target)) :
    fs.place p = .ok place := by
  obtain ⟨usable, start, leads⟩ := resolve_iff.mp names
  exact place_eq_ok.mpr (resolve_iff.mpr ⟨usable, start, leads.followed free⟩)

/-- A directory whose path ends in its name is removed without a fault. -/
theorem removalFault_eq_none (ends : (dropSlashes p).EndsInName)
    (free : ∀ place target, fs.nodeItself (dropSlashes p) ≠ .ok (place, .link target)) : fs.removalFault p = none := by
  obtain ⟨piece, name, last, is⟩ := ends
  have final : (namesOf (dropSlashes p).text).getLast? = some name := by
    show ((dropSlashes p).pieces.map String.ofList).getLast? = _
    rw [List.getLast?_map, last, Option.map_some, ← Path.Component.text_of_ofPiece? is]
    rfl
  have isName : IsFileName name := isFileName_of_mem_steps (p := dropSlashes p) <|
    List.mem_filterMap.mpr ⟨piece, List.mem_of_getLast? last, is⟩
  unfold removalFault
  rw [final]
  split
  · rename_i same
    exact absurd (Option.some.inj same) isName.notHere
  · rename_i same
    exact absurd (Option.some.inj same) isName.notUp
  · split
    · rename_i place target itself
      exact absurd itself (free place target)
    · rfl

/-- **A directory that stands at the last name of its path is removed** with all that it holds. What leads to it is
there without it. -/
theorem removeTree_directory (found : (fs.erase (top ++ [name])).place parent = .ok top)
    (directory : (fs.erase (top ++ [name])).kind? top = some .directory)
    (steps : p.steps = parent.steps ++ [.name name]) (start : p.isAbsolute = parent.isAbsolute)
    (absolute : p.isAbsolute = true) (ends : (dropSlashes p).EndsInName) (isEntry : IsEntryName name)
    (names : fs.Names p (top ++ [name])) (holds : fs.kind? (top ++ [name]) = some .directory) :
    fs.removeTree p = (fs.erase (top ++ [name]), .ok ()) := by
  let emptied := fs.put (top ++ [name]) (.directory [])
  have below : top ++ [name] ≠ [] := List.concat_ne_nil _ _
  have written := Path.isEmpty_of_isAbsolute absolute
  have kept : (fs.erase (top ++ [name])).Within emptied := by
    rw [← erase_put below]
    exact within_erase _ _
  have inside : emptied.kind? (top ++ [name]) = some .directory := by
    rw [kind?_emptied holds, if_pos rfl]
  obtain ⟨bare, entry⟩ := kind?_eq_directory.mp inside
  have named : ∀ q : Path, q.IsUsable → q.isAbsolute = true → q.steps = p.steps →
      (q.endsWithSlash = false → q.EndsInName) →
        emptied.nodeItself q = .ok (top ++ [name], .directory bare) := by
    intro q usable absolute' same ended
    have root : emptied.kind? (emptied.startOf q) = some .directory := by
      unfold startOf
      rw [absolute', if_pos rfl, kind?_nil]
    refine nodeItself_eq_ok.mpr ⟨?_, entry⟩
    exact names_of_directory (kept.place_eq found) (kept.kind directory) (same.trans steps)
      (absolute'.trans (absolute.symm.trans start)) ended usable root isEntry inside
  obtain ⟨usable, -, -⟩ := resolve_iff.mp names
  have again : emptied.nodeItself p = .ok (top ++ [name], .directory bare) :=
    named p usable absolute rfl fun unclosed => Path.endsInName_of_dropSlashes written unclosed ends
  have dropped : emptied.nodeItself (dropSlashes p) = .ok (top ++ [name], .directory bare) :=
    named _ (IsUsable.dropSlashes usable) ((Path.isAbsolute_dropSlashes written).trans absolute)
      (Path.steps_dropSlashes written) fun _ => ends
  have noFault : emptied.removalFault p = none := by
    refine removalFault_eq_none ends fun place target link => ?_
    cases dropped.symm.trans link
  obtain ⟨entries, before⟩ := kind?_eq_directory.mp holds
  unfold removeTree
  rw [nodeItself_eq_ok.mpr ⟨names, before⟩]
  dsimp only
  rw [show (fs.put (top ++ [name]) (.directory [])).removalFault p = none from noFault,
    show (fs.put (top ++ [name]) (.directory [])).nodeItself p = _ from again, erase_put below]

/-! ## Clearing a path -/

/-- A path without links leads nowhere if nothing is at its normal place. -/
theorem Plain.not_pathExists (plain : ground.Plain) (absolute : p.isAbsolute = true)
    (vacant : ground.kind? p.normalPlace = none) : ground.pathExists p = false := by
  refine pathExists_eq_false fun place found => ?_
  have named : place = p.normalPlace :=
    (plain.place_eq (leads_of_place found)).trans (named_eq_normalPlace ground absolute)
  exact kind?_ne_none_of_place found (named ▸ vacant)

/-- Of a link only the link is cleared. -/
theorem clear_link {target : String} (leads : fs.pathExists p = true)
    (itself : fs.nodeItself p = .ok (place, .link target)) : fs.clear p = (fs.erase place, .ok ()) := by
  unfold clear removeTree removeFile
  rw [leads, if_pos rfl, itself]
  split
  · rfl
  · rfl

theorem clear_file {content : ByteArray} {executable : Bool} (leads : fs.pathExists p = true)
    (itself : fs.nodeItself p = .ok (place, .file content executable)) :
    fs.clear p = (fs.erase place, .ok ()) := by
  obtain ⟨names, entry⟩ := nodeItself_eq_ok.mp itself
  have file : fs.kind? place = some (.file content executable) := kind?_eq_file.mpr entry
  have noDirectory : fs.isDirectory p = false := Bool.eq_false_iff.mpr fun there => by
    obtain ⟨other, found, holds⟩ := isDirectory_iff.mp there
    cases Except.ok.inj (found.symm.trans (names.place_eq (by simp [file])))
    cases holds.symm.trans file
  unfold clear removeFile
  rw [noDirectory, if_neg Bool.false_ne_true, leads, if_pos rfl, itself]
  rfl

/-- **Clearing a path takes away what was left there,** and nothing else. -/
theorem Leftover.clear_eq (leftover : Leftover ground p fs) (plain : ground.Plain) (absolute : p.isAbsolute = true)
    (vacant : ground.kind? p.normalPlace = none)
    (ends : ∀ name, p.steps.getLast? = some (.name name) → (dropSlashes p).EndsInName) :
    fs.clear p = (ground, .ok ()) := by
  cases leftover with
  | nothing => exact clear_of_not_pathExists (plain.not_pathExists absolute vacant)
  | @entry _ parent rest present isParent inside closed leads =>
    obtain ⟨top, name, found, directory, normal, isName, steps, parentAbsolute⟩ :=
      plain.exists_name absolute vacant isParent inside
    have ends : (dropSlashes p).EndsInName := ends name (by rw [steps, List.getLast?_concat])
    rw [normal] at rest present closed
    have start : p.isAbsolute = parent.isAbsolute := absolute.trans parentAbsolute.symm
    have ended : p.endsWithSlash = false → p.EndsInName := fun unclosed =>
      Path.endsInName_of_dropSlashes (Path.isEmpty_of_isAbsolute absolute) unclosed ends
    have more : ground.Within fs := rest ▸ within_erase fs (top ++ [name])
    obtain ⟨names, isEntry⟩ := names_of_leads (more.place_eq found) (more.kind directory) isName steps start ended
      leads closed
    obtain ⟨n, entry⟩ := Option.ne_none_iff_exists'.mp fun missing => present (kind?_eq_none.mpr missing)
    have itself : fs.nodeItself p = .ok (top ++ [name], n) := nodeItself_eq_ok.mpr ⟨names, entry⟩
    cases n with
    | file content executable => rw [clear_file leads itself, rest]
    | link target => rw [clear_link leads itself, rest]
    | directory entries =>
      have holds : fs.kind? (top ++ [name]) = some .directory := kind?_eq_directory.mpr ⟨entries, entry⟩
      have there : fs.isDirectory p = true :=
        isDirectory_iff.mpr ⟨_, names.place_eq (by simp [holds]), holds⟩
      rw [← rest] at found directory
      unfold clear
      rw [there, if_pos rfl, removeTree_directory found directory steps start absolute ends isEntry names holds, rest]

end PyBundle.FileSystem
