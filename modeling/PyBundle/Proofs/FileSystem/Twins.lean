import PyBundle.Proofs.FileSystem.Touching

/-!
# Changing two file systems alike

Two file systems are twins where one of them lacks entries of the other one. What is changed through paths that avoid
the entries that are gone is changed in both alike: the operations answer the same, and what they leave are twins again.
-/

namespace PyBundle.FileSystem

variable {ground fs fs' : FileSystem} {front place : Place} {name : String} {p source target : Path}
  {gone : Place → Bool} {fuel : Nat} {content : ByteArray} {executable : Bool}

/-- **Two file systems that come of a ground,** one of them without entries of the other one. The ground tells what
paths touch in them, and all places that are taken in the ground are taken in the one that lacks nothing. -/
structure Twins (ground : FileSystem) (gone : Place → Bool) (fs fs' : FileSystem) : Prop where
  guides : ground.Guides fs
  stays : ∀ {q : Place}, fs.kind? q = none → ground.kind? q = none
  proper : fs.Proper
  lacks : fs.Lacks gone fs'

/-! ## Removing what a path leads to -/

/-- Removing an empty directory fails alike. -/
theorem Lacks.removalFault_eq (lacks : fs.Lacks gone fs') (guides : ground.Guides fs) (avoids : ground.Avoids gone p) :
    fs'.removalFault p = fs.removalFault p := by
  unfold removalFault
  rw [lacks.pathExists_eq avoids guides]
  split
  · rfl
  · rfl
  · rcases lacks.nodeItself_cases avoids.dropSlashes guides with
      ⟨f, failed, failed'⟩ | ⟨place, n, n', found, found', kinds, -⟩
    · rw [failed, failed']
    · rw [found, found']
      cases n <;> cases n' <;> first | rfl | cases kinds

/-- **A directory is removed alike** whose path avoids what is gone. -/
theorem Lacks.removeTree (lacks : fs.Lacks gone fs') (avoids : fs.Avoids gone p) :
    (fs.removeTree p).1.Lacks gone (fs'.removeTree p).1 ∧ (fs'.removeTree p).2 = (fs.removeTree p).2 := by
  have guides : fs.Guides fs := (Within.refl fs).guides
  unfold FileSystem.removeTree
  rcases lacks.nodeItself_cases avoids guides with ⟨f, failed, failed'⟩ | ⟨place, n, n', found, found', kinds, spared⟩
  · rw [failed, failed']
    exact ⟨lacks, rfl⟩
  rw [found, found']
  cases n with
  | file content executable =>
    cases n' <;> cases kinds
    exact ⟨lacks, rfl⟩
  | link target =>
    cases n' <;> cases kinds
    exact ⟨lacks.erase spared, rfl⟩
  | directory entries =>
    obtain ⟨entries', rfl⟩ := Node.kind_eq_directory.mp kinds
    obtain ⟨names, entry⟩ := nodeItself_eq_ok.mp found
    have holds : fs.kind? place = some .directory := kind?_eq_directory.mpr ⟨entries, entry⟩
    have emptied := lacks.empty spared holds
    have guides' : fs.Guides (fs.put place (.directory [])) := (within_emptied holds).guides
    dsimp only
    rw [emptied.removalFault_eq guides' avoids]
    split
    · exact ⟨emptied, rfl⟩
    · rcases emptied.nodeItself_cases avoids guides' with ⟨f, failed, failed'⟩ | ⟨_, _, _, again, again', -, -⟩
      · rw [failed, failed']
        exact ⟨emptied, rfl⟩
      · rw [again, again']
        exact ⟨emptied.erase spared, rfl⟩

/-- **A file is removed alike** whose path avoids what is gone. -/
theorem Lacks.removeFile (lacks : fs.Lacks gone fs') (avoids : fs.Avoids gone p) :
    (fs.settle (fs.removeFile p)).1.Lacks gone (fs'.settle (fs'.removeFile p)).1 ∧
      (fs'.settle (fs'.removeFile p)).2 = (fs.settle (fs.removeFile p)).2 := by
  have guides : fs.Guides fs := (Within.refl fs).guides
  unfold FileSystem.removeFile
  rcases lacks.nodeItself_cases avoids guides with ⟨f, failed, failed'⟩ | ⟨place, n, n', found, found', kinds, spared⟩
  · rw [failed, failed']
    exact ⟨lacks, rfl⟩
  rw [found, found']
  cases n <;> cases n' <;> cases kinds
  · exact ⟨lacks.erase spared, rfl⟩
  · exact ⟨lacks.erase spared, rfl⟩
  · exact ⟨lacks, rfl⟩

/-- **A path that avoids what is gone is cleared alike.** -/
theorem Lacks.clear (lacks : fs.Lacks gone fs') (avoids : fs.Avoids gone p) :
    (fs.clear p).1.Lacks gone (fs'.clear p).1 ∧ (fs'.clear p).2 = (fs.clear p).2 := by
  have guides : fs.Guides fs := (Within.refl fs).guides
  unfold FileSystem.clear
  rw [lacks.isDirectory_eq avoids guides, lacks.pathExists_eq avoids guides]
  split
  · exact lacks.removeTree avoids
  · split
    · exact lacks.removeFile avoids
    · exact ⟨lacks, rfl⟩

/-- Nothing is cleared where what the path names is gone. -/
theorem Lacks.clear_of_gone (lacks : fs.Lacks gone fs') (names : fs.Names p place) (isGone : ¬ Spared gone place) :
    fs'.clear p = (fs', .ok ()) := by
  have nowhere : ∀ other, fs'.place p ≠ .ok other := by
    intro other found
    obtain ⟨itself, named⟩ := exists_names found
    cases (named.within lacks.within).unique names
    exact named.kind?_ne_none (lacks.dropped isGone)
  exact clear_of_not_pathExists (pathExists_eq_false nowhere)

/-- **What is gone does not matter when a path is cleared:** the path avoids it, or the path names an entry that is gone
and that the clearing takes away. -/
def ClearsAlike (fs : FileSystem) (gone : Place → Bool) (p : Path) : Prop :=
  fs.Avoids gone p ∨
    ∃ place, fs.Names p place ∧ ¬ Spared gone place ∧ fs.clear p = (fs.erase place, .ok ())

theorem Lacks.clear_of_clearsAlike (lacks : fs.Lacks gone fs') (alike : fs.ClearsAlike gone p) :
    (fs.clear p).1.Lacks gone (fs'.clear p).1 ∧ (fs'.clear p).2 = (fs.clear p).2 := by
  rcases alike with avoids | ⟨place, names, isGone, cleared⟩
  · exact lacks.clear avoids
  · rw [cleared, lacks.clear_of_gone names isGone]
    exact ⟨lacks.erase_left isGone, rfl⟩

/-- **A path is cleared, and twins are left.** What is left is the ground from then on. -/
theorem Lacks.twins_of_clear (lacks : fs.Lacks gone fs') (proper : fs.Proper)
    (alike : fs.ClearsAlike (fs.among gone) p) :
    Twins (fs.clear p).1 ((fs.clear p).1.among gone) (fs.clear p).1 (fs'.clear p).1 ∧
      (fs'.clear p).2 = (fs.clear p).2 := by
  have fewer : (fs.clear p).1.Within fs := (clear_spec fs p).1.old
  obtain ⟨left, same⟩ := lacks.among.clear_of_clearsAlike alike
  have left' := left.among
  rw [fewer.among_among] at left'
  exact ⟨⟨(Within.refl _).guides, id, proper.of_within fewer, left'⟩, same⟩

/-! ## Making directories -/

variable (twins : Twins ground gone fs fs')

include twins

/-- **The same entry is put into both,** a file or an empty directory. A directory is put where the ground has
nothing. -/
theorem Twins.put_leaf {n : Node} (noLink : n.isLink = false)
    (kinds : ∀ q, (fs.put place n).kind? q = if q = place then some n.kind else fs.kind? q)
    (bare : n.kind = .directory → ground.kind? place = none) (proper : (fs.put place n).Proper)
    (lacks : (fs.put place n).Lacks gone (fs'.put place n)) : Twins ground gone (fs.put place n) (fs'.put place n) := by
  refine ⟨⟨?_, fun {q target} entry => ?_, fun {q} directory k entry => ?_⟩, fun {q} vacant => ?_, proper, lacks⟩
  · rw [workPlace_put, twins.guides.workPlace]
  · rw [kinds] at entry
    split at entry
    · cases n with
      | file => cases entry
      | directory => cases entry
      | link => cases noLink
    · exact twins.guides.link entry
  · rw [kinds] at directory
    split at directory
    · rename_i here
      subst here
      cases (bare (Option.some.inj directory)).symm.trans entry
    · exact twins.guides.unbarred directory k entry
  · rw [kinds] at vacant
    split at vacant
    · cases vacant
    · exact twins.stays vacant

theorem Twins.put_directory (spared : Spared gone (front ++ [name])) (holds : fs.kind? front = some .directory)
    (missing : fs.kind? (front ++ [name]) = none) (isName : IsFileName name) :
    Twins ground gone (fs.put (front ++ [name]) (.directory [])) (fs'.put (front ++ [name]) (.directory [])) := by
  have leaf : ∀ first rest, (Node.directory []).get? (first :: rest) = none := fun _ _ => rfl
  have bare : fs.kind? (front ++ [name]) ≠ some .directory := by simp [missing]
  exact twins.put_leaf rfl (fun q => kind?_put_leaf holds bare leaf) (fun _ => twins.stays missing)
    (proper_keptByDirectories fs front name twins.proper holds missing isName)
    (twins.lacks.put spared holds bare leaf)

/-- **A directory is made in both,** or fails alike. -/
theorem Twins.makeDirectory_cases (avoids : ground.Avoids gone p) :
    (∃ f, fs.makeDirectory p = .error f ∧ fs'.makeDirectory p = .error f) ∨
      ∃ left left', fs.makeDirectory p = .ok left ∧ fs'.makeDirectory p = .ok left' ∧ Twins ground gone left left' := by
  have same : fs'.resolve false (dropSlashes p) = fs.resolve false (dropSlashes p) :=
    twins.lacks.resolve_eq avoids.dropSlashes twins.guides
  unfold makeDirectory
  rw [same]
  split
  · exact .inl ⟨_, rfl, rfl⟩
  · cases led : fs.resolve false (dropSlashes p) with
    | error f => exact .inl ⟨f, rfl, rfl⟩
    | ok spot =>
      cases spot with
      | taken place => exact .inl ⟨_, rfl, rfl⟩
      | vacant directory name =>
        obtain ⟨-, start, leads⟩ := resolve_iff.mp led
        obtain ⟨holds, missing, -⟩ := leads.holds start
        have isName := leads.isFileName_of_vacant fun _ mem => slashFree_of_mem_namesOf mem
        have spared : Spared gone (directory ++ [name]) := avoids.dropSlashes.of_resolve twins.guides led
        exact .inr ⟨_, _, rfl, rfl, twins.put_directory spared holds missing isName⟩

/-- A directory is made with its parents in both, or fails alike. The induction is on the fuel, and a parent avoids what
its path does. -/
theorem Twins.makeDirectoriesAux (avoids : ground.Avoids gone p) :
    Twins ground gone (makeDirectoriesAux fuel fs p).1 (makeDirectoriesAux fuel fs' p).1 ∧
      (FileSystem.makeDirectoriesAux fuel fs' p).2 = (FileSystem.makeDirectoriesAux fuel fs p).2 := by
  -- A directory that could not be made may be there already.
  have checked : ∀ {p : Path} {fs fs' : FileSystem} (f : Fault), ground.Avoids gone p → Twins ground gone fs fs' →
      (if fs'.isDirectory p then Except.ok () else .error f) = if fs.isDirectory p then Except.ok () else .error f :=
    fun f avoids twins => by rw [twins.lacks.isDirectory_eq avoids twins.guides]
  induction fuel generalizing fs fs' p with
  | zero =>
    unfold FileSystem.makeDirectoriesAux
    split
    · exact ⟨twins, rfl⟩
    · rcases twins.makeDirectory_cases avoids with ⟨f, made, made'⟩ | ⟨left, left', made, made', next⟩
      · rw [made, made']
        by_cases missing : f = .noSuchEntry
        · subst missing
          exact ⟨twins, rfl⟩
        · cases f <;> first | exact absurd rfl missing | exact ⟨twins, checked _ avoids twins⟩
      · rw [made, made']
        exact ⟨next, rfl⟩
  | succ fuel ih =>
    unfold FileSystem.makeDirectoriesAux
    split
    · exact ⟨twins, rfl⟩
    · rcases twins.makeDirectory_cases avoids with ⟨f, made, made'⟩ | ⟨left, left', made, made', next⟩
      · rw [made, made']
        by_cases missing : f = .noSuchEntry
        · subst missing
          cases isParent : p.parent? with
          | none => exact ⟨twins, rfl⟩
          | some parent =>
            obtain ⟨middle, same⟩ := ih twins (avoids.parent isParent)
            dsimp only
            rcases run : FileSystem.makeDirectoriesAux fuel fs parent with ⟨left, answer⟩
            rcases run' : FileSystem.makeDirectoriesAux fuel fs' parent with ⟨left', answer'⟩
            rw [run, run'] at middle same
            obtain rfl : answer' = answer := same
            cases answer' with
            | error f => exact ⟨middle, rfl⟩
            | ok u =>
              dsimp only
              rcases middle.makeDirectory_cases avoids with ⟨f, made, made'⟩ | ⟨left, left', made, made', next⟩
              · rw [made, made']
                exact ⟨middle, checked f avoids middle⟩
              · rw [made, made']
                exact ⟨next, rfl⟩
        · cases f <;> first | exact absurd rfl missing | exact ⟨twins, checked _ avoids twins⟩
      · rw [made, made']
        exact ⟨next, rfl⟩

/-- **A directory is made with its parents in both,** or fails alike. -/
theorem Twins.makeDirectories (avoids : ground.Avoids gone p) :
    Twins ground gone (fs.makeDirectories p).1 (fs'.makeDirectories p).1 ∧
      (fs'.makeDirectories p).2 = (fs.makeDirectories p).2 := twins.makeDirectoriesAux avoids

/-! ## Copying files -/

theorem Twins.put_file (spared : Spared gone place) (writes : fs.Writes p place) :
    Twins ground gone (fs.put place (.file content executable)) (fs'.put place (.file content executable)) := by
  refine twins.put_leaf rfl writes.kind?_put nofun (twins.proper.put writes) ?_
  obtain ⟨front, name, rfl, directory⟩ := writes.exists_directory
  obtain ⟨-, -, -, -, notDirectory⟩ := writes
  exact twins.lacks.put spared directory notDirectory fun _ _ => rfl

/-- **A file may be written at the same place in both,** or not in either. -/
theorem Twins.writable_cases (avoids : ground.Avoids gone p) :
    (∃ f, fs.writable p = .error f ∧ fs'.writable p = .error f) ∨
      ∃ place n? n'?, fs.writable p = .ok (place, n?) ∧ fs'.writable p = .ok (place, n'?) ∧ Spared gone place := by
  have same : fs'.resolve true (dropSlashes p) = fs.resolve true (dropSlashes p) :=
    twins.lacks.resolve_eq avoids.dropSlashes twins.guides
  unfold writable
  rw [same]
  cases led : fs.resolve true (dropSlashes p) with
  | error f => exact .inl ⟨f, rfl, rfl⟩
  | ok spot =>
    have spared := avoids.dropSlashes.of_resolve twins.guides led
    cases spot with
    | vacant directory name =>
      dsimp only
      split
      · exact .inl ⟨_, rfl, rfl⟩
      · exact .inr ⟨_, _, _, rfl, rfl, spared⟩
    | taken place =>
      have kinds : fs'.kind? place = fs.kind? place := twins.lacks.kept spared
      dsimp only
      split
      · exact .inl ⟨_, rfl, rfl⟩
      · unfold kind? at kinds
        generalize fs.get? place = n? at kinds ⊢
        generalize fs'.get? place = n'? at kinds ⊢
        rcases n? with _ | (_ | _ | _) <;> rcases n'? with _ | (_ | _ | _) <;> cases kinds <;>
          first
          | exact .inl ⟨_, rfl, rfl⟩
          | exact .inr ⟨_, _, _, rfl, rfl, spared⟩

/-- **A file is copied in both,** or the copy fails alike. -/
theorem Twins.copy_cases (reads : ground.Avoids gone source) (writes : ground.Avoids gone target) :
    (∃ f, fs.copy source target = .error f ∧ fs'.copy source target = .error f) ∨
      ∃ left left', fs.copy source target = .ok left ∧ fs'.copy source target = .ok left' ∧
        Twins ground gone left left' := by
  unfold copy
  rw [twins.lacks.place_eq reads twins.guides]
  cases found : fs.place source with
  | error f => exact .inl ⟨f, rfl, rfl⟩
  | ok sourcePlace =>
    have kinds : fs'.kind? sourcePlace = fs.kind? sourcePlace := twins.lacks.kind?_eq reads twins.guides found
    dsimp only
    by_cases file : ∃ content executable, fs.get? sourcePlace = some (.file content executable)
    · obtain ⟨content, executable, entry⟩ := file
      rw [kind?_eq_file.mpr entry] at kinds
      rw [entry, kind?_eq_file.mp kinds]
      dsimp only
      rcases twins.writable_cases writes with
        ⟨f, failed, failed'⟩ | ⟨place, n?, n'?, written, written', spared⟩
      · rw [failed, failed']
        exact .inl ⟨f, rfl, rfl⟩
      · rw [written, written']
        exact .inr ⟨_, _, rfl, rfl, twins.put_file spared (writable_eq_ok written)⟩
    · have file' : ∀ content executable, fs'.get? sourcePlace ≠ some (.file content executable) := by
        intro content executable entry
        rw [kind?_eq_file.mpr entry, eq_comm, kind?_eq_file] at kinds
        exact file ⟨content, executable, kinds⟩
      refine .inl ⟨.notFile, ?_, ?_⟩ <;> split
      · exact absurd ⟨_, _, ‹_›⟩ file
      · rfl
      · exact absurd ‹_› (file' _ _)
      · rfl

end PyBundle.FileSystem
