import PyBundle.Proofs.FileSystem.Plain

/-!
# Directories along a trail

Without links the directories that are made for a path are on its trail, whether or not all of them are made
(`adds_makeDirectories`). The trail of a path that goes on from another one has the trail of that one and the places
below its end.
-/

namespace PyBundle.FileSystem

variable {fs fs' fs'' : FileSystem} {here place q : Place} {p parent target : Path} {names front back : List String}
  {P P' : Place → Prop} {fuel : Nat}

/-! ## Trails -/

/-- Names that say nothing lead past no other places. -/
theorem mem_stations_filter : q ∈ here :: stations here (names.filter fun name => !isBlank name) ↔
    q ∈ here :: stations here names := by
  induction names generalizing here with
  | nil => rfl
  | cons name rest ih =>
    cases silent : isBlank name with
    | true => simpa [stations, stepTo, silent] using @ih here
    | false =>
      have onward := @ih (stepTo here name)
      rw [List.filter_cons_of_pos (by simp [silent]), stations, stations, List.mem_cons (a := q) (b := here), onward,
        List.mem_cons (a := q) (b := here)]

theorem stations_append : stations here (front ++ back) = stations here front ++ stations (after here front) back := by
  induction front generalizing here with
  | nil => rfl
  | cons name rest ih => exact congrArg (stepTo here name :: ·) ih

/-- The places behind file names are below where they start. -/
theorem mem_stations_of_isFileName (isNames : ∀ name ∈ names, IsFileName name) (mem : q ∈ stations here names) :
    ∃ front, front ≠ [] ∧ front <+: names ∧ q = here ++ front := by
  induction names generalizing here with
  | nil => cases mem
  | cons name rest ih =>
    obtain ⟨isName, isNames'⟩ := List.forall_mem_cons.mp isNames
    have step : stepTo here name = here ++ [name] := by
      obtain ⟨silent, notUp⟩ := isBlank_of_isFileName isName
      simp [stepTo, silent, notUp]
    rw [stations, step, List.mem_cons] at mem
    rcases mem with rfl | later
    · exact ⟨[name], List.cons_ne_nil _ _, by simp, rfl⟩
    · obtain ⟨front, -, before, rfl⟩ := ih isNames' later
      exact ⟨name :: front, List.cons_ne_nil _ _, List.cons_prefix_cons.mpr ⟨rfl, before⟩, by simp⟩

/-- **The trail of a path is told by its steps.** -/
theorem mem_trail : q ∈ fs.trail p ↔ q ∈ fs.startOf p :: stations (fs.startOf p) p.way := by
  unfold trail Path.way
  rw [← mem_stations_filter, filter_namesOf]

theorem startOf_of_parent? (isParent : p.parent? = some parent) : fs.startOf parent = fs.startOf p := by
  unfold startOf
  rcases Path.parent_spec isParent with ⟨-, empty⟩ | ⟨c, -, start⟩
  · have relative : p.isAbsolute = false := by
      refine Bool.eq_false_iff.mpr fun absolute => ?_
      cases (Path.isEmpty_of_isAbsolute (Path.isAbsolute_of_parent? absolute isParent)).symm.trans empty
    have nothing : parent = ⟨""⟩ := congrArg Path.mk (eq_of_beq empty)
    rw [relative, nothing, show (Path.mk "").isAbsolute = false by decide]
  · rw [start]

/-- **The trail of a path goes on past the end of its parent.** -/
theorem mem_trail_of_parent? (isParent : p.parent? = some parent) (mem : q ∈ fs.trail parent) : q ∈ fs.trail p := by
  have onward : ∃ back, p.way = parent.way ++ back := by
    rcases Path.parent_spec isParent with ⟨-, empty⟩ | ⟨c, steps, -⟩
    · have nothing : parent = ⟨""⟩ := congrArg Path.mk (eq_of_beq empty)
      exact ⟨p.way, by rw [nothing]; rfl⟩
    · refine ⟨[c.text], ?_⟩
      unfold Path.way
      rw [steps, List.map_append]
      rfl
  obtain ⟨back, way⟩ := onward
  rw [mem_trail, startOf_of_parent? isParent] at mem
  rw [mem_trail, way, stations_append]
  exact (List.mem_cons.mp mem).elim (fun start => start ▸ List.mem_cons_self) fun inner =>
    List.mem_cons_of_mem _ (List.mem_append_left _ inner)

/-- **The trail of a path that goes on from another one** is the trail of that one and what is below its end. -/
theorem mem_trail_of_goesOn (onward : p.GoesOn names target) (mem : q ∈ fs.trail target) :
    q ∈ fs.trail p ∨ ∃ front, front ≠ [] ∧ front <+: names ∧ q = fs.named p ++ front := by
  rw [mem_trail, startOf_of_goesOn onward, way_of_goesOn onward, stations_append, ← List.cons_append,
    List.mem_append, ← named_eq] at mem
  exact mem.imp mem_trail.mpr (mem_stations_of_isFileName onward.proper)

/-- The places on the way behind names that lead to a directory are ones of directories. -/
theorem Leads.kind?_station {followLast : Bool} {links : Nat} (plain : fs.Plain)
    (leads : fs.Leads followLast links here names (.taken place)) (start : fs.kind? here = some .directory)
    (ends : fs.kind? place = some .directory) :
    ∀ station ∈ stations here names, fs.kind? station = some .directory := by
  generalize taken : Spot.taken place = spot at leads
  induction leads with
  | done => exact nofun
  | @blank links here name rest spot silent _ ih =>
    simp only [stations, stepTo, silent, if_true, List.forall_mem_cons]
    exact ⟨start, ih start taken⟩
  | @up links here rest spot _ ih =>
    have around : fs.kind? here.dropLast = some .directory :=
      kind?_eq_directory_of_isPrefix start (List.dropLast_prefix here)
    have notBlank : isBlank ".." = false := by decide
    simp only [stations, stepTo, notBlank, Bool.false_eq_true, if_false, if_true, List.forall_mem_cons]
    exact ⟨around, ih around taken⟩
  | vacant => cases taken
  | into isName inside _ ih =>
    simp only [stations, isName.stepTo, List.forall_mem_cons]
    exact ⟨inside, ih inside taken⟩
  | file isName entry =>
    cases taken
    cases ends.symm.trans entry
  | linkItself _ entry _ => exact absurd entry (plain _ _)
  | through _ entry _ _ => exact absurd entry (plain _ _)

/-- **The trail of a path is paved** if there are directories all along it, but perhaps not where it starts. -/
def IsPaved (fs : FileSystem) (p : Path) : Prop := ∀ q ∈ fs.trail p, q ≠ fs.startOf p → fs.kind? q = some .directory

/-- The trail of a path that leads to a directory is paved. -/
theorem Plain.isPaved_of_isDirectory (plain : fs.Plain) (directory : fs.isDirectory p = true) : fs.IsPaved p := by
  intro q mem notStart
  obtain ⟨place, found, holds⟩ := isDirectory_iff.mp directory
  obtain ⟨-, start, -⟩ := resolve_iff.mp (place_eq_ok.mp found)
  have inner := (List.mem_cons.mp (mem_trail.mp mem)).resolve_left notStart
  exact (leads_of_place found).kind?_station plain start holds q inner

theorem isPaved_of_isEmpty (empty : p.isEmpty = true) : fs.IsPaved p := by
  have nothing : p = ⟨""⟩ := congrArg Path.mk (eq_of_beq empty)
  intro q mem notStart
  rw [mem_trail, nothing] at mem
  rw [nothing] at notStart
  exact absurd (List.mem_singleton.mp mem) notStart

/-- The trail stays paved where no directory goes. -/
theorem IsPaved.of_directories (paved : fs.IsPaved p) (workPlace : fs'.workPlace = fs.workPlace)
    (stays : ∀ q, fs.kind? q = some .directory → fs'.kind? q = some .directory) : fs'.IsPaved p := by
  intro q mem notStart
  unfold startOf at notStart
  rw [trail_congr workPlace] at mem
  rw [workPlace] at notStart
  exact stays q (paved q mem notStart)

/-! ## What is made on a trail -/

/-- **Directories have been added at some places** where nothing was, and nothing else has changed. -/
structure Adds (fs : FileSystem) (P : Place → Prop) (fs' : FileSystem) : Prop where
  workPlace : fs'.workPlace = fs.workPlace
  kinds : ∀ q, fs'.kind? q = fs.kind? q ∨ P q ∧ fs.kind? q = none ∧ fs'.kind? q = some .directory

theorem Adds.refl (fs : FileSystem) (P : Place → Prop) : fs.Adds P fs := ⟨rfl, fun _ => .inl rfl⟩

theorem Adds.mono (adds : fs.Adds P fs') (more : ∀ q, P q → P' q) : fs.Adds P' fs' :=
  ⟨adds.workPlace, fun q => (adds.kinds q).imp_right (And.imp_left (more q))⟩

theorem Adds.trans (first : fs.Adds P fs') (second : fs'.Adds P fs'') : fs.Adds P fs'' := by
  refine ⟨second.workPlace.trans first.workPlace, fun q => ?_⟩
  rcases second.kinds q with same | ⟨here, missing, made⟩
  · exact (first.kinds q).imp same.trans fun ⟨here, missing, made⟩ => ⟨here, missing, same.trans made⟩
  · rcases first.kinds q with same | ⟨-, -, present⟩
    · exact .inr ⟨here, same.symm.trans missing, made⟩
    · cases missing.symm.trans present

/-- The places on the trail of a path behind the one where it starts. -/
def Passes (fs : FileSystem) (p : Path) (q : Place) : Prop := q ∈ fs.trail p ∧ q ≠ fs.startOf p

theorem passes_congr (same : fs'.workPlace = fs.workPlace) : fs'.Passes p q ↔ fs.Passes p q := by
  unfold Passes startOf
  rw [trail_congr same, same]

theorem Plain.adds_makeDirectory (plain : fs.Plain) (made : fs.makeDirectory p = .ok fs') :
    fs.Adds (fs.Passes p) fs' := by
  obtain ⟨-, start, directory, name, leads, holds, missing, -, rfl⟩ := makeDirectory_eq_ok made
  have place : directory ++ [name] = fs.named p := plain.place_eq leads
  refine ⟨workPlace_put .., fun q => ?_⟩
  rw [kind?_put_directory holds missing]
  split
  · rename_i before
    rcases List.prefix_concat_iff.mp before with here | inside
    · refine .inr ⟨⟨?_, ?_⟩, here ▸ missing, rfl⟩
      · rw [here, place]
        exact fs.named_mem_trail p
      · rintro rfl
        cases (here ▸ start).symm.trans missing
    · exact .inl (kind?_eq_directory_of_isPrefix holds inside).symm
  · exact .inl rfl

/-- **Without links directories are made on the trail of the path,** and nothing else changes. The induction is on the
fuel, and the trail of a parent is part of the trail. -/
theorem Plain.adds_makeDirectoriesAux (plain : fs.Plain) :
    fs.Adds (fs.Passes p) (makeDirectoriesAux fuel fs p).1 := by
  induction fuel generalizing fs p with
  | zero =>
    unfold makeDirectoriesAux
    split
    · exact .refl ..
    · split
      · exact plain.adds_makeDirectory ‹_›
      · exact .refl ..
      · exact .refl ..
  | succ fuel ih =>
    unfold makeDirectoriesAux
    split
    · exact .refl ..
    · split
      · exact plain.adds_makeDirectory ‹_›
      · split
        · rename_i fuel' parent same isParent
          cases same
          have plain' : (makeDirectoriesAux fuel fs parent).1.Plain := plain_keptByDirectories.aux plain
          have around : fs.Adds (fs.Passes p) (makeDirectoriesAux fuel fs parent).1 := by
            refine (ih plain).mono fun q passes => ⟨mem_trail_of_parent? isParent passes.1, ?_⟩
            rw [← startOf_of_parent? isParent]
            exact passes.2
          rcases run : makeDirectoriesAux fuel fs parent with ⟨middle, fault | u⟩
          · rw [run] at around
            exact around
          · rw [run] at around plain'
            dsimp only
            split
            · rename_i made
              exact around.trans ((plain'.adds_makeDirectory made).mono fun q => (passes_congr around.workPlace).mp)
            · exact around
        · exact .refl ..
      · exact .refl ..

theorem Plain.adds_makeDirectories (plain : fs.Plain) (p : Path) :
    fs.Adds (fs.Passes p) (fs.makeDirectories p).1 := plain.adds_makeDirectoriesAux

end PyBundle.FileSystem
