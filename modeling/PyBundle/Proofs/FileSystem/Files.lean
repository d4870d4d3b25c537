import PyBundle.Proofs.FileSystem.Absolute
import PyBundle.Proofs.FileSystem.Directories

/-!
# Writing and copying files

A file is written at one place and nothing else changes. What is written through a path that goes on from one to a
directory without links is written below the directory, at the names that the path goes on through.
-/

namespace PyBundle.FileSystem

variable {fs fs' : FileSystem} {place place' : Place} {p q : Path} {names : List String} {content : ByteArray}
  {executable : Bool} {spot : Spot}

/-- **A path leads to a place where a file can be written.** -/
def Writes (fs : FileSystem) (p : Path) (place : Place) : Prop :=
  ∃ spot : Spot, fs.Leads true linkLimit (fs.startOf p) p.way spot ∧ fs.Holds spot ∧ spot.place = place ∧
    fs.kind? place ≠ some .directory

theorem write_eq_ok (written : fs.write p content = .ok fs') :
    ∃ place executable, fs.Writes p place ∧ fs' = fs.put place (.file content executable) := by
  unfold write at written
  split at written
  · cases written
  · rename_i place n? found
    cases written
    exact ⟨place, isExecutable n?, writable_eq_ok found, rfl⟩

/-- **A file is copied** from the place of one to a place where one can be written. -/
theorem copy_eq_ok (copied : fs.copy p q = .ok fs') :
    ∃ source place content executable, fs.place p = .ok source ∧
      fs.kind? source = some (.file content executable) ∧ fs.Writes q place ∧
      fs' = fs.put place (.file (if place = source then ByteArray.empty else content) executable) := by
  unfold copy at copied
  split at copied
  · cases copied
  · rename_i source found
    split at copied
    · rename_i content executable entry
      split at copied
      · cases copied
      · rename_i place n? writes
        cases copied
        exact ⟨source, place, content, executable, found, kind?_eq_file.mpr entry, writable_eq_ok writes, rfl⟩
    · cases copied

/-- A place where a file can be written is a name in a directory. -/
theorem Writes.exists_directory (writes : fs.Writes p place) :
    ∃ front name, place = front ++ [name] ∧ fs.kind? front = some .directory := by
  obtain ⟨spot, -, holds, rfl, notDirectory⟩ := writes
  cases spot with
  | vacant directory name => exact ⟨directory, name, rfl, holds.1⟩
  | taken place =>
    rcases List.eq_nil_or_concat place with rfl | ⟨front, name, rfl⟩
    · exact absurd (kind?_nil fs) notDirectory
    · rw [List.concat_eq_append] at holds ⊢
      have present : fs.kind? (front ++ name :: []) ≠ none := holds
      exact ⟨front, name, rfl, kind?_eq_directory_of_append present⟩

/-- **A file that is written is all that changes.** -/
theorem Writes.kind?_put (writes : fs.Writes p place) (place' : Place) :
    (fs.put place (.file content executable)).kind? place' =
      if place' = place then some (.file content executable) else fs.kind? place' := by
  obtain ⟨front, name, rfl, directory⟩ := writes.exists_directory
  obtain ⟨-, -, -, -, notDirectory⟩ := writes
  exact kind?_put_leaf directory notDirectory fun _ _ => rfl

/-! ## Writing over a file -/

/-- **Names lead where they led before a file is written over.** -/
theorem Leads.of_file {followLast : Bool} {links : Nat} {here : Place} {content' : ByteArray} {executable' : Bool}
    (leads : fs.Leads followLast links here names spot) (before : fs.kind? place = some (.file content executable))
    (after : fs'.kind? place = some (.file content' executable'))
    (kept : ∀ q, q ≠ place → fs'.kind? q = fs.kind? q) : fs'.Leads followLast links here names spot := by
  have other : ∀ {q k?}, fs.kind? q = k? → k? ≠ some (.file content executable) → fs'.kind? q = k? := by
    intro q k? entry differs
    rw [kept, entry]
    rintro rfl
    exact differs (entry.symm.trans before)
  induction leads with
  | done => exact .done
  | blank silent _ ih => exact .blank silent ih
  | up _ ih => exact .up ih
  | vacant isName missing => exact .vacant isName (other missing nofun)
  | into isName inside _ ih => exact .into isName (other inside nofun) ih
  | @file links here name content executable isName entry =>
    by_cases itself : here ++ [name] = place
    · exact .file isName (itself ▸ after)
    · exact .file isName ((kept _ itself).trans entry)
  | linkItself isName entry last => exact .linkItself isName (other entry nofun) last
  | through isName entry more _ ih => exact .through isName (other entry nofun) more ih

/-- **A path leads to the entry that it has led to** before a file is written over. -/
theorem place_of_file {content' : ByteArray} {executable' : Bool} (found : fs.place p = .ok place')
    (workPlace : fs'.workPlace = fs.workPlace) (before : fs.kind? place = some (.file content executable))
    (after : fs'.kind? place = some (.file content' executable'))
    (kept : ∀ q, q ≠ place → fs'.kind? q = fs.kind? q) : fs'.place p = .ok place' := by
  obtain ⟨usable, start, leads⟩ := resolve_iff.mp (place_eq_ok.mp found)
  have startOf_eq : fs'.startOf p = fs.startOf p := by
    unfold startOf
    rw [workPlace]
  refine place_eq_ok.mpr (resolve_iff.mpr ⟨usable, ?_, ?_⟩)
  · rw [startOf_eq, kept, start]
    intro here
    rw [here, before] at start
    cases start
  · rw [startOf_eq]
    exact leads.of_file before after kept

/-- A path to a place where a file can be written leads there itself. -/
theorem exists_resolve_of_writable {n? : Option Node} (found : fs.writable p = .ok (place, n?)) :
    ∃ spot, fs.resolve true p = .ok spot ∧ spot.place = place := by
  have unclosed {spot : Spot} (led : fs.resolve true (dropSlashes p) = .ok spot) (closed : ¬ p.endsWithSlash = true) :
      fs.resolve true p = .ok spot := by
    have written := written_of_resolve_dropSlashes led
    rwa [Path.dropSlashes_of_text ⟨written, Bool.eq_false_iff.mpr closed⟩ 0 (List.append_nil _).symm] at led
  unfold writable at found
  split at found
  · cases found
  · rename_i led
    split at found
    · cases found
    · cases found
      exact ⟨_, unclosed led ‹_›, rfl⟩
  · rename_i led
    split at found
    · cases found
    · have resolved := unclosed led ‹_›
      split at found
      · cases found
      · cases found
        exact ⟨_, resolved, rfl⟩

/-- **A path leads to the file that is written through it.** -/
theorem place_of_writable {n? : Option Node} (found : fs.writable p = .ok (place, n?)) :
    (fs.put place (.file content executable)).place p = .ok place := by
  have writes : fs.Writes p place := writable_eq_ok found
  obtain ⟨spot, resolved, rfl⟩ := exists_resolve_of_writable found
  obtain ⟨usable, start, leads⟩ := resolve_iff.mp resolved
  have made : (fs.put spot.place (.file content executable)).kind? spot.place = some (.file content executable) := by
    rw [writes.kind?_put, if_pos rfl]
  cases spot with
  | vacant directory name =>
    have more : fs.Within (fs.put (directory ++ [name]) (.file content executable)) :=
      within_put (leads.holds start).2.1
    have same : (fs.put (directory ++ [name]) (.file content executable)).startOf p = fs.startOf p := by
      unfold startOf
      rw [more.workPlace]
    refine place_eq_ok.mpr (resolve_iff.mpr ⟨usable, ?_, ?_⟩)
    · exact same ▸ more.kind start
    · exact same ▸ leads.to_vacant more id fun isName _ => .file isName made
  | taken place =>
    have others : ∀ q, q ≠ place → (fs.put place (.file content executable)).kind? q = fs.kind? q := fun q other =>
      (writes.kind?_put q).trans (if_neg other)
    obtain ⟨-, -, -, -, notDirectory⟩ := writes
    obtain ⟨k, entry⟩ := Option.ne_none_iff_exists'.mp (leads.holds start)
    cases k with
    | file => exact place_of_file (place_eq_ok.mpr resolved) (workPlace_put ..) entry made others
    | link target => exact absurd entry (leads.noLink start target)
    | directory => exact absurd entry notDirectory

/-- **A file that is written is read as it is written.** -/
theorem read_of_write (written : fs.write p content = .ok fs') : fs'.read p = .ok content := by
  unfold write at written
  split at written
  · cases written
  · rename_i place n? found
    cases written
    have writes : fs.Writes p place := writable_eq_ok found
    exact read_eq_ok.mpr ⟨place, isExecutable n?, place_of_writable found, by rw [writes.kind?_put, if_pos rfl]⟩

/-- **A file that is copied to itself is empty.** -/
theorem read_of_copy_self (copied : fs.copy p p = .ok fs') : fs'.read p = .ok ByteArray.empty := by
  obtain ⟨source, place, content, executable, found, entry, writes, rfl⟩ := copy_eq_ok copied
  have same : place = source := by
    obtain ⟨spot, leads, -, rfl, -⟩ := writes
    cases leads.unique (leads_of_place found)
    rfl
  subst same
  rw [if_pos rfl]
  have kinds : ∀ q, (fs.put place (.file ByteArray.empty executable)).kind? q =
      if q = place then some (.file ByteArray.empty executable) else fs.kind? q := fun q => writes.kind?_put q
  have emptied := (kinds place).trans (if_pos rfl)
  have others : ∀ q, q ≠ place → _ := fun q elsewhere => (kinds q).trans (if_neg elsewhere)
  exact read_eq_ok.mpr ⟨place, executable, place_of_file found (workPlace_put ..) entry emptied others, emptied⟩

/-- A path to a file leads to a file when one is written over. -/
theorem isFile_of_file {content' : ByteArray} {executable' : Bool} (file : fs.isFile p = true)
    (workPlace : fs'.workPlace = fs.workPlace) (before : fs.kind? place = some (.file content executable))
    (after : fs'.kind? place = some (.file content' executable'))
    (kept : ∀ q, q ≠ place → fs'.kind? q = fs.kind? q) : fs'.isFile p = true := by
  obtain ⟨place', old, mode, led, entry⟩ := isFile_iff.mp file
  have found := place_of_file (place_eq_ok.mpr led) workPlace before after kept
  by_cases itself : place' = place
  · exact isFile_iff.mpr ⟨place', content', executable', place_eq_ok.mp found, kind?_eq_file.mp (itself ▸ after)⟩
  · have entry' := (kept place' itself).trans (kind?_eq_file.mpr entry)
    exact isFile_iff.mpr ⟨place', old, mode, place_eq_ok.mp found, kind?_eq_file.mp entry'⟩

/-- **Which paths lead to files does not change** where a file is written over. -/
theorem isFile_put (entry : fs.kind? place = some (.file content executable)) (content' : ByteArray)
    (executable' : Bool) (p : Path) : (fs.put place (.file content' executable')).isFile p = fs.isFile p := by
  obtain ⟨front, name, rfl, directory⟩ : ∃ front name, place = front ++ [name] ∧ fs.kind? front = some .directory := by
    rcases List.eq_nil_or_concat place with rfl | ⟨front, name, rfl⟩
    · cases entry.symm.trans (kind?_nil fs)
    · rw [List.concat_eq_append] at entry ⊢
      have present : fs.kind? (front ++ name :: []) ≠ none := by simp [entry]
      exact ⟨front, name, rfl, kind?_eq_directory_of_append present⟩
  have kinds : ∀ q, (fs.put (front ++ [name]) (.file content' executable')).kind? q =
      if q = front ++ [name] then some (.file content' executable') else fs.kind? q := fun q =>
    kind?_put_leaf directory (by simp [entry]) fun _ _ => rfl
  have written := (kinds (front ++ [name])).trans (if_pos rfl)
  have others : ∀ q, q ≠ front ++ [name] → _ := fun q elsewhere => (kinds q).trans (if_neg elsewhere)
  rw [Bool.eq_iff_iff]
  constructor
  · exact fun file => isFile_of_file file (workPlace_put ..).symm written entry fun q elsewhere =>
      (others q elsewhere).symm
  · exact fun file => isFile_of_file file (workPlace_put ..) entry written others

/-! ## Below a directory -/

/-- The names that a path goes on through are behind its way. -/
theorem way_of_goesOn (onward : p.GoesOn names q) : q.way = p.way ++ names := by
  unfold Path.way
  rw [onward.steps, List.map_append, List.map_map, Path.Component.text_comp_name, List.map_id]

theorem startOf_of_goesOn (onward : p.GoesOn names q) : fs.startOf q = fs.startOf p := by
  unfold startOf
  rw [onward.start]

/-- **A path that goes on from one to a directory without links leads below the directory,** to the names that
it goes on through. -/
theorem Leads.place_of_goesOn {followLast : Bool} (found : fs.place p = .ok place)
    (directory : fs.kind? place = some .directory) (free : ∀ place', place <+: place' → fs.NoLink place')
    (onward : p.GoesOn names q) (some : names ≠ [])
    (leads : fs.Leads followLast linkLimit (fs.startOf q) q.way spot) : spot.place = place ++ names := by
  rw [way_of_goesOn onward, startOf_of_goesOn onward] at leads
  obtain ⟨left, split⟩ := (leads_of_place found).exists_split directory some
  have rest := (split ..).mp leads
  have entries : ∀ name ∈ names, isBlank name = false ∧ name ≠ ".." := fun name mem =>
    isBlank_of_isFileName (onward.proper name mem)
  rw [rest.place_eq fun station mem => free station (prefix_of_mem_stations entries mem),
    after_of_forall entries]

/-- What is written through such a path is written at those names, of which there are some. -/
theorem Writes.place_of_goesOn (found : fs.place p = .ok place) (directory : fs.kind? place = some .directory)
    (free : ∀ place', place <+: place' → fs.NoLink place') (onward : p.GoesOn names q)
    (writes : fs.Writes q place') : place' = place ++ names ∧ names ≠ [] := by
  obtain ⟨spot, leads, -, rfl, notDirectory⟩ := writes
  by_cases none : names = []
  · subst none
    rw [way_of_goesOn onward, startOf_of_goesOn onward, List.append_nil] at leads
    cases leads.unique (leads_of_place found)
    exact absurd directory notDirectory
  · exact ⟨leads.place_of_goesOn found directory free onward none, none⟩

/-! ## Names -/

/-- **All entries have file names.** -/
def Proper (fs : FileSystem) : Prop := ∀ place, fs.kind? place ≠ none → ∀ name ∈ place, IsFileName name

theorem proper_of_all (checked : fs.root.all (fun place _ => place.all (decide <| IsFileName ·)) [] = true) :
    fs.Proper := by
  intro place present name mem
  obtain ⟨k, entry⟩ := Option.ne_none_iff_exists'.mp present
  exact of_decide_eq_true (List.all_eq_true.mp (forall_of_all checked entry) name mem)

theorem Proper.of_within (proper : fs'.Proper) (fewer : fs.Within fs') : fs.Proper := by
  intro place present
  obtain ⟨k, entry⟩ := Option.ne_none_iff_exists'.mp present
  exact proper place (by simp [fewer.kind entry])

theorem proper_keptByDirectories : KeptByDirectories Proper := by
  intro fs directory name proper holds missing isName place present
  rw [kind?_put_directory holds missing] at present
  split at present
  · rename_i before
    intro other mem
    rcases List.mem_append.mp (before.subset mem) with inside | last
    · exact proper directory (by simp [holds]) other inside
    · rwa [List.mem_singleton.mp last]
  · exact proper place present

/-- **A file that is written has a file name,** and so have all entries then. -/
theorem Proper.put (proper : fs.Proper) (writes : fs.Writes p place) :
    (fs.put place (.file content executable)).Proper := by
  intro q present
  rw [writes.kind?_put] at present
  split at present
  · rename_i here
    subst here
    obtain ⟨spot, leads, holds, rfl, -⟩ := writes
    cases spot with
    | taken place => exact proper place holds
    | vacant directory name =>
      have free : ∀ other ∈ p.way, SlashFree other := by
        intro other mem
        obtain ⟨c, step, rfl⟩ := List.mem_map.mp mem
        rcases Path.eq_up_or_name step with rfl | ⟨name, rfl, isName⟩
        · decide
        · exact isName.slashFree
      exact List.forall_mem_append.mpr
        ⟨proper directory (by simp [holds.1]), List.forall_mem_singleton.mpr (leads.isFileName_of_vacant free)⟩
  · exact proper q present

/-- The names in a directory are file names. -/
theorem Proper.isFileName {entries : Entries} {name : String} {n : Node} (proper : fs.Proper)
    (listed : fs.list p = .ok entries) (entry : entries.lookup name = some n) : IsFileName name := by
  obtain ⟨place, -, holds⟩ := list_eq_ok.mp listed
  have present : fs.kind? (place ++ [name]) ≠ none := by
    rw [Ne, kind?_eq_none, get?_append, holds]
    simp [entry]
  exact proper _ present name (by simp)

end PyBundle.FileSystem
