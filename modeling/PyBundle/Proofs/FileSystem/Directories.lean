import PyBundle.FileSystem.Writing
import PyBundle.Proofs.FileSystem.Paths

/-!
# Making directories

`makeDirectories` puts directories at places where nothing was, and does nothing else, whether or not it comes
to its end. If it does, then it leads to a directory that is new and holds nothing, unless there was one
before (`makeDirectories_fresh`). Without links the directories are the places on the way to the path
(`kind?_makeDirectories`).
-/

namespace PyBundle.FileSystem

variable {fs fs' ground : FileSystem} {place directory : Place} {name : String} {n : Node} {p q : Path}
  {fuel : Nat} {q' : Place}

/-! ## What is put where nothing is -/

/-- What is put at a place where some entries have none keeps all of them. -/
theorem Within.put (more : ground.Within fs) (free : ground.kind? place = none) :
    ground.Within (fs.put place n) where
  workPlace := by simp [more.workPlace]
  kind := by
    intro q k entry
    rw [kind?_put, more.kind entry]
    rintro ⟨rest, rfl⟩
    cases entry.symm.trans (kind?_append_eq_none free rest)

theorem within_put (free : fs.kind? place = none) : fs.Within (fs.put place n) := (Within.refl fs).put free

/-- A property that stays when an empty directory is put where nothing is. -/
def KeptByDirectories (P : FileSystem → Prop) : Prop :=
  ∀ fs directory name, P fs → fs.kind? directory = some .directory → fs.kind? (directory ++ [name]) = none →
    IsFileName name → P (fs.put (directory ++ [name]) (.directory []))

theorem KeptByDirectories.makeDirectory {P : FileSystem → Prop} (kept : KeptByDirectories P)
    (before : P fs) (made : fs.makeDirectory p = .ok fs') : P fs' := by
  obtain ⟨-, -, directory, name, -, holds, missing, isName, rfl⟩ := makeDirectory_eq_ok made
  exact kept fs directory name before holds missing isName

theorem KeptByDirectories.aux {P : FileSystem → Prop} (kept : KeptByDirectories P) (before : P fs) :
    P (makeDirectoriesAux fuel fs p).1 := by
  induction fuel generalizing fs p with
  | zero =>
    unfold makeDirectoriesAux
    split
    · exact before
    · split
      · rename_i made
        exact kept.makeDirectory before made
      · exact before
      · exact before
  | succ fuel ih =>
    unfold makeDirectoriesAux
    split
    · exact before
    · split
      · rename_i made
        exact kept.makeDirectory before made
      · split
        · rename_i fuel' parent same _
          cases same
          have parents := ih (p := parent) before
          split
          · rename_i run
            rw [run] at parents
            exact parents
          · rename_i run
            rw [run] at parents
            split
            · rename_i made
              exact kept.makeDirectory parents made
            · exact parents
        · exact before
      · exact before

/-- **Whatever stays with each directory that is made stays with all of them.** -/
theorem KeptByDirectories.makeDirectories {P : FileSystem → Prop} (kept : KeptByDirectories P)
    (before : P fs) (p : Path) : P (fs.makeDirectories p).1 := kept.aux before

/-- Making directories keeps all entries. -/
theorem keptByDirectories_within (ground : FileSystem) : KeptByDirectories ground.Within := by
  intro fs directory name more _ missing _
  exact more.trans (within_put missing)

theorem within_makeDirectories (fs : FileSystem) (p : Path) : fs.Within (fs.makeDirectories p).1 :=
  (keptByDirectories_within fs).makeDirectories (Within.refl fs) p

/-- For the empty path nothing is made. -/
theorem makeDirectories_of_isEmpty (empty : p.isEmpty = true) : fs.makeDirectories p = (fs, .ok ()) := by
  unfold makeDirectories makeDirectoriesAux
  rw [empty, if_pos rfl]

/-- A directory and its parents are not made again. -/
theorem makeDirectoriesAux_of_isDirectory (directory : fs.isDirectory p = true) :
    makeDirectoriesAux fuel fs p = (fs, .ok ()) := by
  obtain ⟨fault, made, other⟩ := makeDirectory_of_isDirectory directory
  cases fuel <;>
  · unfold makeDirectoriesAux
    split
    · rfl
    · split
      · rename_i made'
        cases made.symm.trans made'
      · rename_i made'
        cases made.symm.trans made'
        exact absurd rfl other
      · rfl

theorem makeDirectories_of_isDirectory (directory : fs.isDirectory p = true) :
    fs.makeDirectories p = (fs, .ok ()) := makeDirectoriesAux_of_isDirectory directory

/-! ## What is made -/

/-- **A directory is ensured:** it is made, or it is there already and nothing changes. -/
def Ensures (fs : FileSystem) (p : Path) (fs' : FileSystem) : Prop :=
  fs.makeDirectory p = .ok fs' ∨ fs.isDirectory p = true ∧ fs' = fs

/-- Nothing is ensured where something is missing on the way. -/
theorem not_ensures_of_missing (missing : fs.makeDirectory p = .error .noSuchEntry) : ¬ fs.Ensures p fs' := by
  rintro (made | ⟨there, -⟩)
  · cases missing.symm.trans made
  · obtain ⟨fault, failed, other⟩ := makeDirectory_of_isDirectory there
    cases missing.symm.trans failed
    exact other rfl

/-- **What is made when a directory and its parents are made:** the directory is ensured, at once or behind its
parent. -/
theorem makeDirectoriesAux_cases (written : p.isEmpty = false)
    (made : makeDirectoriesAux fuel fs p = (fs', .ok ())) :
    fs.Ensures p fs' ∨
      ∃ fuel' parent middle, fuel = fuel' + 1 ∧ p.parent? = some parent ∧ parent.isEmpty = false ∧
        ¬ fs.Ensures p fs' ∧ makeDirectoriesAux fuel' fs parent = (middle, .ok ()) ∧ middle.Ensures p fs' := by
  have checked : ∀ {before : FileSystem} {fault : Fault},
      (before, if before.isDirectory p then .ok () else .error fault) = (fs', Except.ok ()) →
        before.Ensures p fs' := by
    intro before fault ended
    obtain ⟨rfl, there⟩ := Prod.mk.inj ended
    split at there
    · exact .inr ⟨‹_›, rfl⟩
    · cases there
  unfold makeDirectoriesAux at made
  rw [if_neg (by simp [written])] at made
  split at made
  · rename_i once
    cases made
    exact .inl (.inl once)
  · rename_i missing
    split at made
    · rename_i fuel' parent isParent
      split at made
      · cases made
      · rename_i middle run
        have last : middle.Ensures p fs' := by
          split at made
          · rename_i once
            cases made
            exact .inl once
          · exact checked made
        refine .inr ⟨fuel', parent, middle, rfl, isParent, ?_, not_ensures_of_missing missing, run, last⟩
        -- The empty path makes nothing, and so the directory cannot be made behind it either.
        refine Bool.eq_false_iff.mpr fun empty => ?_
        unfold makeDirectoriesAux at run
        rw [if_pos empty] at run
        cases run
        exact not_ensures_of_missing missing last
    · cases made
  · exact .inl (checked made)

/-! ## A directory that is new -/

/-- **A path leads to a directory that holds nothing.** -/
structure LeadsToEmpty (fs : FileSystem) (p : Path) (place : Place) : Prop where
  found : fs.place p = .ok place
  directory : fs.kind? place = some .directory
  bare : ∀ name rest, fs.kind? (place ++ name :: rest) = none

/-- All that stands at such a directory is the directory itself. -/
theorem LeadsToEmpty.eq_directory {k : Kind} (empty : fs.LeadsToEmpty p place) (below : place <+: q')
    (entry : fs.kind? q' = some k) : k = .directory := by
  obtain ⟨rest, rfl⟩ := below
  cases rest with
  | nil =>
    rw [List.append_nil, empty.directory] at entry
    exact (Option.some.inj entry).symm
  | cons name rest => cases (empty.bare name rest).symm.trans entry

/-- What is made at once is new and holds nothing. -/
theorem leadsToEmpty_of_makeDirectory (made : fs.makeDirectory p = .ok fs') :
    ∃ place, fs'.LeadsToEmpty p place ∧ fs.kind? place = none := by
  obtain ⟨usable, start, directory, name, leads, holds, missing, -, rfl⟩ := makeDirectory_eq_ok made
  have leaf : ∀ first rest, (Node.directory []).get? (first :: rest) = none := fun _ _ => rfl
  have bare : fs.kind? (directory ++ [name]) ≠ some .directory := by simp [missing]
  have here : (fs.put (directory ++ [name]) (.directory [])).kind? (directory ++ [name]) = some .directory := by
    rw [kind?_put_leaf holds bare leaf, if_pos rfl]
    rfl
  refine ⟨directory ++ [name], ⟨?_, here, fun first rest => ?_⟩, missing⟩
  · have same : (fs.put (directory ++ [name]) (.directory [])).startOf p = fs.startOf p := by simp [startOf]
    have more : fs.Within (fs.put (directory ++ [name]) (.directory [])) := within_put missing
    refine place_of_leads usable ?_ ?_ here
    · rw [same]
      exact more.kind start
    · rw [same]
      exact leads.of_vacant more here
  · rw [kind?_put_leaf holds bare leaf, if_neg (by simp), kind?_append_eq_none missing]

/-- A directory that is ensured is there. -/
theorem Ensures.isDirectory (ensures : fs.Ensures p fs') : fs'.isDirectory p = true := by
  rcases ensures with made | ⟨there, rfl⟩
  · obtain ⟨place, empty, -⟩ := leadsToEmpty_of_makeDirectory made
    exact isDirectory_iff.mpr ⟨place, empty.found, empty.directory⟩
  · exact there

/-- **A directory that is made is there.** -/
theorem isDirectory_of_makeDirectories (written : p.isEmpty = false)
    (made : fs.makeDirectories p = (fs', .ok ())) : fs'.isDirectory p = true := by
  rcases makeDirectoriesAux_cases written made with ensures | ⟨_, _, _, -, -, -, -, -, ensures⟩
  · exact ensures.isDirectory
  · exact ensures.isDirectory

/-- A path whose parent leads to a directory that holds nothing leads to no entry, if it ends in a name. -/
theorem LeadsToEmpty.not_isDirectory (empty : fs.LeadsToEmpty q place) (isName : IsFileName name)
    (steps : p.steps = q.steps ++ [.name name]) (start : p.isAbsolute = q.isAbsolute) :
    fs.isDirectory p = false := by
  refine Bool.eq_false_iff.mpr fun directory => ?_
  obtain ⟨place', found, -⟩ := isDirectory_iff.mp directory
  have leads := leads_of_place found
  have way : p.way = q.way ++ [name] := by
    unfold Path.way
    rw [steps, List.map_append]
    rfl
  have same : fs.startOf p = fs.startOf q := by
    unfold startOf
    rw [start]
  rw [way, same] at leads
  obtain ⟨left, split⟩ := (leads_of_place empty.found).exists_split empty.directory (List.cons_ne_nil name [])
  have last := (split ..).mp leads
  have missing : fs.kind? (place ++ [name]) = none := empty.bare name []
  cases last with
  | blank silent _ => cases silent.symm.trans (isBlank_of_isFileName isName).1
  | up => exact isName.notUp rfl
  | into _ inside _ => cases missing.symm.trans inside
  | file _ entry => cases missing.symm.trans entry
  | linkItself _ entry _ => cases missing.symm.trans entry
  | through _ entry _ _ => cases missing.symm.trans entry

/-- A path does not climb, or the directory that it is in is there already. -/
def IsSettled (fs : FileSystem) (p : Path) : Prop :=
  .up ∉ p.steps ∨ ∃ q, p.parent? = some q ∧ fs.isDirectory q = true

/-- A directory that is ensured where none has been is new. -/
theorem Ensures.fresh (ensures : fs.Ensures p fs') (new : fs.isDirectory p = false) :
    ∃ place, fs'.LeadsToEmpty p place ∧ fs.kind? place = none := by
  rcases ensures with made | ⟨there, -⟩
  · exact leadsToEmpty_of_makeDirectory made
  · cases new.symm.trans there

/-- **A directory that is made with its parents is new and holds nothing,** unless the path climbs through
one of them. -/
theorem makeDirectoriesAux_fresh (written : p.isEmpty = false) (new : fs.isDirectory p = false)
    (settled : fs.IsSettled p) (made : makeDirectoriesAux fuel fs p = (fs', .ok ())) :
    ∃ place, fs'.LeadsToEmpty p place ∧ fs.kind? place = none := by
  induction fuel generalizing fs fs' p with
  | zero =>
    rcases makeDirectoriesAux_cases written made with ensures | ⟨_, _, _, impossible, -⟩
    · exact ensures.fresh new
    · cases impossible
  | succ fuel ih =>
    rcases makeDirectoriesAux_cases written made with
      ensures | ⟨fuel', parent, middle, same, isParent, written', notYet, run, ensures⟩
    · exact ensures.fresh new
    · cases same
      have missing : fs.isDirectory parent = false := by
        refine Bool.eq_false_iff.mpr fun there => ?_
        rw [makeDirectoriesAux_of_isDirectory there] at run
        cases run
        exact notYet ensures
      have level : .up ∉ p.steps := by
        refine settled.resolve_right ?_
        rintro ⟨q, isParent', directory⟩
        cases isParent.symm.trans isParent'
        cases missing.symm.trans directory
      obtain ⟨level', start, name, isName, steps⟩ := Path.exists_name_of_parent? isParent written' level
      obtain ⟨place, bare, -⟩ := ih written' missing (.inl level') run
      obtain ⟨place', empty, free⟩ := ensures.fresh (bare.not_isDirectory isName steps start.symm)
      refine ⟨place', empty, ?_⟩
      have more : fs.Within middle := by
        have kept : fs.Within (makeDirectoriesAux fuel fs parent).1 :=
          (keptByDirectories_within fs).aux (Within.refl fs)
        rwa [run] at kept
      cases before : fs.kind? place' with
      | none => rfl
      | some k => cases free.symm.trans (more.kind before)

theorem makeDirectories_fresh (written : p.isEmpty = false) (new : fs.isDirectory p = false)
    (settled : fs.IsSettled p) (made : fs.makeDirectories p = (fs', .ok ())) :
    ∃ place, fs'.LeadsToEmpty p place ∧ fs.kind? place = none := makeDirectoriesAux_fresh written new settled made

/-! ## Which directories are made -/

/-- A place on the way to a directory is one of a directory. -/
theorem kind?_eq_directory_of_isPrefix (holds : fs.kind? place = some .directory) (before : q' <+: place) :
    fs.kind? q' = some .directory := by
  obtain ⟨rest, rfl⟩ := before
  cases rest with
  | nil => simpa using holds
  | cons name rest =>
    have present : fs.kind? (q' ++ name :: rest) ≠ none := by simp [holds]
    exact kind?_eq_directory_of_append present

/-- An empty directory that is put where nothing is joins those on the way to it. -/
theorem kind?_put_directory (holds : fs.kind? directory = some .directory)
    (missing : fs.kind? (directory ++ [name]) = none) (q' : Place) :
    (fs.put (directory ++ [name]) (.directory [])).kind? q' =
      if q' <+: directory ++ [name] then some .directory else fs.kind? q' := by
  have leaf : ∀ first rest, (Node.directory []).get? (first :: rest) = none := fun _ _ => rfl
  rw [kind?_put_leaf holds (by simp [missing]) leaf]
  by_cases here : q' = directory ++ [name]
  · simp [here]
  · rw [if_neg here]
    by_cases before : q' <+: directory ++ [name]
    · rw [if_pos before]
      rcases List.prefix_concat_iff.mp before with same | inside
      · exact absurd same here
      · exact kind?_eq_directory_of_isPrefix holds inside
    · rw [if_neg before]

/-- A directory that is there already is one with all on the way to it. -/
theorem Plain.kind?_of_isDirectory (plain : fs.Plain) (there : fs.isDirectory p = true) (q' : Place) :
    fs.kind? q' = if q' <+: fs.named p then some .directory else fs.kind? q' := by
  obtain ⟨place, found, holds⟩ := isDirectory_iff.mp there
  have same : place = fs.named p := plain.place_eq (leads_of_place found)
  split
  · rename_i before
    exact kind?_eq_directory_of_isPrefix holds (same ▸ before)
  · rfl

theorem Plain.kind?_makeDirectory (plain : fs.Plain) (made : fs.makeDirectory p = .ok fs') (q' : Place) :
    fs'.kind? q' = if q' <+: fs.named p then some .directory else fs.kind? q' := by
  obtain ⟨-, -, directory, name, leads, holds, missing, -, rfl⟩ := makeDirectory_eq_ok made
  have place : directory ++ [name] = fs.named p := plain.place_eq leads
  rw [kind?_put_directory holds missing, place]

theorem plain_keptByDirectories : KeptByDirectories Plain := by
  intro fs directory name plain holds missing _ place target entry
  rw [kind?_put_directory holds missing] at entry
  split at entry
  · cases entry
  · exact plain place target entry

theorem Plain.kind?_of_ensures (plain : fs.Plain) (ensures : fs.Ensures p fs') (q' : Place) :
    fs'.kind? q' = if q' <+: fs.named p then some .directory else fs.kind? q' := by
  rcases ensures with made | ⟨there, rfl⟩
  · exact plain.kind?_makeDirectory made q'
  · exact plain.kind?_of_isDirectory there q'

/-- **Without links, the places on the way to the path become directories,** and nothing else changes. -/
theorem Plain.kind?_makeDirectoriesAux (plain : fs.Plain) (written : p.isEmpty = false)
    (level : .up ∉ p.steps) (made : makeDirectoriesAux fuel fs p = (fs', .ok ())) (q' : Place) :
    fs'.kind? q' = if q' <+: fs.named p then some .directory else fs.kind? q' := by
  induction fuel generalizing fs fs' p q' with
  | zero =>
    rcases makeDirectoriesAux_cases written made with ensures | ⟨_, _, _, impossible, -⟩
    · exact plain.kind?_of_ensures ensures q'
    · cases impossible
  | succ fuel ih =>
    rcases makeDirectoriesAux_cases written made with
      ensures | ⟨fuel', parent, middle, same, isParent, written', -, run, ensures⟩
    · exact plain.kind?_of_ensures ensures q'
    · cases same
      obtain ⟨level', start, name, -, steps⟩ := Path.exists_name_of_parent? isParent written' level
      have parents := ih plain written' level' run
      have more : fs.Within (makeDirectoriesAux fuel fs parent).1 := (keptByDirectories_within fs).aux (Within.refl fs)
      have plain' : (makeDirectoriesAux fuel fs parent).1.Plain := plain_keptByDirectories.aux plain
      rw [run] at more plain'
      have place : fs.named p = fs.named parent ++ [name] := named_of_steps_concat level' start steps
      rw [plain'.kind?_of_ensures ensures, named_congr more.workPlace, parents, place]
      by_cases before : q' <+: fs.named parent
      · have longer : q' <+: fs.named parent ++ [name] := before.trans (List.prefix_append _ _)
        simp [longer]
      · rw [if_neg before]

theorem Plain.kind?_makeDirectories (plain : fs.Plain) (written : p.isEmpty = false) (level : .up ∉ p.steps)
    (made : fs.makeDirectories p = (fs', .ok ())) (q' : Place) :
    fs'.kind? q' = if q' <+: fs.named p then some .directory else fs.kind? q' :=
  plain.kind?_makeDirectoriesAux written level made q'

end PyBundle.FileSystem
