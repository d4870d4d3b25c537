import Mathlib.Data.Nat.Init
import PyBundle.Proofs.FileSystem.Entry
import PyBundle.Proofs.FileSystem.Resolve
import PyBundle.Proofs.Module.FileNames

/-!
# Following names, step by step

`FileSystem.follow` goes up to a link and starts again. `FileSystem.Leads` says the same name by name, in
terms of the kinds of entries alone, and only of names that lead somewhere; `follow_eq_ok` ties the two. What
is known of following names is shown by induction on its steps: what more entries change, what names behind
others do, and where names lead that meet no link.
-/

namespace PyBundle

/-- The place that names lead to, taken or not. -/
def Spot.place : Spot → Place
  | taken place => place
  | vacant directory name => directory ++ [name]

namespace FileSystem

variable {fs fs' : FileSystem} {followLast : Bool} {links : Nat} {here place : Place} {name : String}
  {names rest front back : List String} {spot : Spot}

/-- **A name that is looked up in a directory:** it says something, it does not lead up, and it is not too
long. -/
structure IsEntryName (name : String) : Prop where
  notBlank : isBlank name = false
  notUp : name ≠ ".."
  short : ¬ longestName < name.utf8ByteSize

/-- The directory in which the target of a link starts. -/
def targetStart (here : Place) (target : String) : Place := if target.startsWith "/" then [] else here

/-- **Where names lead,** from a directory and through as many links as are left. -/
inductive Leads (fs : FileSystem) (followLast : Bool) : Nat → Place → List String → Spot → Prop where
  | done {links : Nat} {here : Place} : Leads fs followLast links here [] (.taken here)
  | blank {links : Nat} {here : Place} {name : String} {rest : List String} {spot : Spot}
      (silent : isBlank name = true) (onward : Leads fs followLast links here rest spot) :
      Leads fs followLast links here (name :: rest) spot
  | up {links : Nat} {here : Place} {rest : List String} {spot : Spot}
      (onward : Leads fs followLast links here.dropLast rest spot) :
      Leads fs followLast links here (".." :: rest) spot
  | vacant {links : Nat} {here : Place} {name : String} (isName : IsEntryName name)
      (missing : fs.kind? (here ++ [name]) = none) :
      Leads fs followLast links here [name] (.vacant here name)
  | into {links : Nat} {here : Place} {name : String} {rest : List String} {spot : Spot}
      (isName : IsEntryName name)
      (inside : fs.kind? (here ++ [name]) = some .directory)
      (onward : Leads fs followLast links (here ++ [name]) rest spot) :
      Leads fs followLast links here (name :: rest) spot
  | file {links : Nat} {here : Place} {name : String} {content : ByteArray} {executable : Bool}
      (isName : IsEntryName name)
      (entry : fs.kind? (here ++ [name]) = some (.file content executable)) :
      Leads fs followLast links here [name] (.taken (here ++ [name]))
  | linkItself {links : Nat} {here : Place} {name target : String} (isName : IsEntryName name)
      (entry : fs.kind? (here ++ [name]) = some (.link target)) (last : followLast = false) :
      Leads fs followLast links here [name] (.taken (here ++ [name]))
  | through {links : Nat} {here : Place} {name target : String} {rest : List String} {spot : Spot}
      (isName : IsEntryName name)
      (entry : fs.kind? (here ++ [name]) = some (.link target)) (more : rest ≠ [] ∨ followLast = true)
      (onward : Leads fs followLast links (targetStart here target) (namesOf target ++ rest) spot) :
      Leads fs followLast (links + 1) here (name :: rest) spot

theorem follow_eq (fs : FileSystem) (followLast : Bool) (links : Nat) (here : Place) (names : List String) :
    fs.follow followLast links here names =
      match fs.advance followLast here names with
      | .error f => .error f
      | .ok (.arrived spot) => .ok spot
      | .ok (.atLink from_ names) =>
        match links with
        | 0 => .error .tooManyLinks
        | links + 1 => follow fs followLast links from_ names := follow.eq_def ..

/-- What follows a first name, in terms of the kind of the entry that it is the name of. -/
theorem follow_cons : fs.follow followLast links here (name :: rest) =
    if isBlank name then fs.follow followLast links here rest
    else if name = ".." then fs.follow followLast links here.dropLast rest
    else if longestName < name.utf8ByteSize then .error .nameTooLong
    else
      match fs.kind? (here ++ [name]) with
      | none => if rest = [] then .ok (.vacant here name) else .error .noSuchEntry
      | some .directory => fs.follow followLast links (here ++ [name]) rest
      | some (.file _ _) => if rest = [] then .ok (.taken (here ++ [name])) else .error .notDirectory
      | some (.link target) =>
        if rest = [] ∧ followLast = false then .ok (.taken (here ++ [name]))
        else
          match links with
          | 0 => .error .tooManyLinks
          | links + 1 => fs.follow followLast links (targetStart here target) (namesOf target ++ rest) := by
  rw [follow_eq, advance]
  unfold isBlank
  by_cases blank : (name == "" || name == ".") = true
  · rw [if_pos blank, if_pos blank, ← follow_eq]
  · rw [if_neg blank, if_neg blank]
    by_cases up : name = ".."
    · rw [if_pos up, if_pos (by simpa using up), ← follow_eq]
    · rw [if_neg up, if_neg (by simpa using up)]
      by_cases long : longestName < name.utf8ByteSize
      · rw [if_pos long, if_pos long]
      · rw [if_neg long, if_neg long]
        unfold kind?
        cases fs.get? (here ++ [name]) with
        | none => cases rest <;> rfl
        | some n =>
          cases n with
          | file content executable => cases rest <;> rfl
          | directory entries => exact (follow_eq ..).symm
          | link target => cases rest <;> cases followLast <;> rfl

theorem follow_nil : fs.follow followLast links here [] = .ok (.taken here) := by cases links <;> rfl

/-- What follows the name of an entry is told by its kind alone. -/
theorem follow_entry (isName : IsEntryName name) : fs.follow followLast links here (name :: rest) =
    match fs.kind? (here ++ [name]) with
    | none => if rest = [] then .ok (.vacant here name) else .error .noSuchEntry
    | some .directory => fs.follow followLast links (here ++ [name]) rest
    | some (.file _ _) => if rest = [] then .ok (.taken (here ++ [name])) else .error .notDirectory
    | some (.link target) =>
      if rest = [] ∧ followLast = false then .ok (.taken (here ++ [name]))
      else
        match links with
        | 0 => .error .tooManyLinks
        | links + 1 => fs.follow followLast links (targetStart here target) (namesOf target ++ rest) := by
  rw [follow_cons, isName.notBlank, if_neg Bool.false_ne_true, if_neg isName.notUp, if_neg isName.short]

/-- **The name of an entry is followed to where it leads,** if what is behind it is, in the directory and through the
link. -/
theorem leads_of_follow_entry (isName : IsEntryName name)
    (inside : fs.follow followLast links (here ++ [name]) rest = .ok spot →
      fs.Leads followLast links (here ++ [name]) rest spot)
    (throughLink : ∀ {less target}, links = less + 1 →
      fs.follow followLast less (targetStart here target) (namesOf target ++ rest) = .ok spot →
        fs.Leads followLast less (targetStart here target) (namesOf target ++ rest) spot)
    (followed : fs.follow followLast links here (name :: rest) = .ok spot) :
    fs.Leads followLast links here (name :: rest) spot := by
  rw [follow_entry isName] at followed
  split at followed
  · split at followed
    · rename_i missing last
      subst last
      cases followed
      exact .vacant isName missing
    · cases followed
  · exact .into isName ‹_› (inside followed)
  · split at followed
    · rename_i entry last
      subst last
      cases followed
      exact .file isName entry
    · cases followed
  · split at followed
    · rename_i entry last
      obtain ⟨rfl, last⟩ := last
      cases followed
      exact .linkItself isName entry last
    · rename_i entry onward
      have more : rest ≠ [] ∨ followLast = true := by
        by_cases last : rest = []
        · exact .inr (by simpa [last] using onward)
        · exact .inl last
      cases links with
      | zero => cases followed
      | succ links => exact .through isName entry more (throughLink rfl followed)

/-- **Names that are followed to a spot lead there.** The names shrink, except where a link is gone through, and then
the links do. -/
theorem leads_of_follow (followed : fs.follow followLast links here names = .ok spot) :
    fs.Leads followLast links here names spot := by
  induction links using Nat.strong_induction_on generalizing here names with
  | _ links throughLink =>
    induction names generalizing here with
    | nil =>
      cases follow_nil.symm.trans followed
      exact .done
    | cons name rest ih =>
      cases silent : isBlank name with
      | true =>
        rw [follow_cons, silent, if_pos rfl] at followed
        exact .blank silent (ih followed)
      | false =>
        by_cases up : name = ".."
        · subst up
          rw [follow_cons, silent, if_neg Bool.false_ne_true, if_pos rfl] at followed
          exact .up (ih followed)
        · by_cases long : longestName < name.utf8ByteSize
          · rw [follow_cons, silent, if_neg Bool.false_ne_true, if_neg up, if_pos long] at followed
            cases followed
          · exact leads_of_follow_entry ⟨silent, up, long⟩ ih
              (fun fewer => throughLink _ (fewer ▸ Nat.lt_succ_self _)) followed

/-- **Names that lead to a spot are followed there.** -/
theorem Leads.follow (leads : fs.Leads followLast links here names spot) :
    fs.follow followLast links here names = .ok spot := by
  induction leads with
  | done => exact follow_nil
  | blank silent _ ih => simpa only [follow_cons, silent, if_true] using ih
  | up _ ih => simpa [follow_cons, isBlank] using ih
  | vacant isName missing => simp [follow_entry isName, missing]
  | into isName inside _ ih => simpa [follow_entry isName, inside] using ih
  | file isName entry => simp [follow_entry isName, entry]
  | linkItself isName entry last => simp [follow_entry isName, entry, last]
  | through isName entry more _ ih =>
    have onward : ¬ (_ = [] ∧ followLast = false) := fun both =>
      more.elim (· both.1) fun follows => Bool.false_ne_true (both.2.symm.trans follows)
    simpa [follow_entry isName, entry, onward] using ih

/-- **Names are followed to a spot if and only if they lead there.** -/
theorem follow_eq_ok :
    fs.follow followLast links here names = .ok spot ↔ fs.Leads followLast links here names spot :=
  ⟨leads_of_follow, Leads.follow⟩

variable {followLast' : Bool} {spot' : Spot} {directory : Place}

/-- Names lead to one spot at most. -/
theorem Leads.unique (first : fs.Leads followLast links here names spot)
    (second : fs.Leads followLast links here names spot') : spot = spot' := by
  rw [← follow_eq_ok] at first second
  exact Except.ok.inj (first.symm.trans second)

/-! ## Names that say nothing -/

theorem leads_blank (silent : isBlank name = true) :
    fs.Leads followLast links here (name :: rest) spot ↔ fs.Leads followLast links here rest spot := by
  rw [← follow_eq_ok, ← follow_eq_ok, follow_cons, if_pos silent]

/-- Names that say nothing lead nowhere else. -/
theorem leads_allBlank (blank : allBlank names = true) :
    fs.Leads followLast links here names spot ↔ spot = .taken here := by
  induction names with
  | nil => rw [← follow_eq_ok, follow_nil, Except.ok.injEq, eq_comm]
  | cons name rest ih =>
    have both : isBlank name = true ∧ allBlank rest = true := Bool.and_eq_true_iff.mp blank
    rw [leads_blank both.1, ih both.2]

/-! ## More entries -/

/-- **A file system has all that another one has,** each entry as it is there. -/
structure Within (fs fs' : FileSystem) : Prop where
  workPlace : fs'.workPlace = fs.workPlace
  kind : ∀ {place : Place} {k : Kind}, fs.kind? place = some k → fs'.kind? place = some k

theorem Within.refl (fs : FileSystem) : fs.Within fs := ⟨rfl, id⟩

theorem Within.trans {fs'' : FileSystem} (first : fs.Within fs') (second : fs'.Within fs'') : fs.Within fs'' :=
  ⟨second.workPlace.trans first.workPlace, fun entry => second.kind (first.kind entry)⟩

/-- **Where names lead to an entry, only the entry itself and what is no file is on the way.** -/
theorem Leads.of_kept (leads : fs.Leads followLast links here names (.taken place))
    (kept : ∀ {q k}, fs.kind? q = some k →
      (∀ content executable, k = .file content executable → q = place) → fs'.kind? q = some k) :
    fs'.Leads followLast links here names (.taken place) := by
  generalize taken : Spot.taken place = spot at leads
  induction leads with
  | done => exact .done
  | blank silent _ ih => exact .blank silent (ih taken)
  | up _ ih => exact .up (ih taken)
  | vacant => cases taken
  | into isName inside _ ih => exact .into isName (kept inside nofun) (ih taken)
  | file isName entry =>
    cases taken
    exact .file isName (kept entry fun _ _ _ => rfl)
  | linkItself isName entry last => exact .linkItself isName (kept entry nofun) last
  | through isName entry onward _ ih => exact .through isName (kept entry nofun) onward (ih taken)

/-- **More entries do not change where names lead that lead to an entry.** -/
theorem Leads.within (more : fs.Within fs') (leads : fs.Leads followLast links here names (.taken place)) :
    fs'.Leads followLast links here names (.taken place) := leads.of_kept fun entry _ => more.kind entry

/-- **What is put where nothing was is where the names lead,** if its own name leads to it. -/
theorem Leads.to_vacant {followLast' : Bool} (more : fs.Within fs') (follows : followLast = true → followLast' = true)
    (arrives : IsEntryName name → ∀ links,
      fs'.Leads followLast' links directory [name] (.taken (directory ++ [name])))
    (leads : fs.Leads followLast links here names (.vacant directory name)) :
    fs'.Leads followLast' links here names (.taken (directory ++ [name])) := by
  generalize missing : Spot.vacant directory name = spot at leads
  induction leads with
  | done => cases missing
  | blank silent _ ih => exact .blank silent (ih missing)
  | up _ ih => exact .up (ih missing)
  | vacant isName _ =>
    cases missing
    exact arrives isName _
  | into isName inside _ ih => exact .into isName (more.kind inside) (ih missing)
  | file => cases missing
  | linkItself => cases missing
  | through isName entry onward _ ih => exact .through isName (more.kind entry) (onward.imp_right follows) (ih missing)

/-- **A directory that is put where nothing was is where the names lead.** -/
theorem Leads.of_vacant (more : fs.Within fs') (made : fs'.kind? (directory ++ [name]) = some .directory)
    (leads : fs.Leads false links here names (.vacant directory name)) :
    fs'.Leads followLast links here names (.taken (directory ++ [name])) :=
  leads.to_vacant more (absurd · Bool.false_ne_true) fun isName _ => .into isName made .done

/-- The names on the way to an entry lead to an entry, whether or not a link at their end is followed. -/
theorem Leads.exists_itself (leads : fs.Leads true links here names (.taken place)) :
    ∃ itself, fs.Leads false links here names (.taken itself) := by
  generalize taken : Spot.taken place = spot at leads
  induction leads with
  | done => exact ⟨_, .done⟩
  | blank silent _ ih =>
    obtain ⟨itself, onward⟩ := ih taken
    exact ⟨itself, .blank silent onward⟩
  | up _ ih =>
    obtain ⟨itself, onward⟩ := ih taken
    exact ⟨itself, .up onward⟩
  | vacant => cases taken
  | into isName inside _ ih =>
    obtain ⟨itself, onward⟩ := ih taken
    exact ⟨itself, .into isName inside onward⟩
  | file isName entry => exact ⟨_, .file isName entry⟩
  | linkItself _ _ last => cases last
  | @through links here name target rest spot isName entry _ _ ih =>
    by_cases last : rest = []
    · subst last
      exact ⟨_, .linkItself isName entry rfl⟩
    · obtain ⟨itself, onward⟩ := ih taken
      exact ⟨itself, .through isName entry (.inl last) onward⟩

/-- Where a link at the end is not followed, and there is none, nothing is different. -/
theorem Leads.followed (free : ∀ target, fs.kind? place ≠ some (.link target))
    (leads : fs.Leads false links here names (.taken place)) : fs.Leads true links here names (.taken place) := by
  generalize taken : Spot.taken place = spot at leads
  induction leads with
  | done => exact .done
  | blank silent _ ih => exact .blank silent (ih taken)
  | up _ ih => exact .up (ih taken)
  | vacant => cases taken
  | into isName inside _ ih => exact .into isName inside (ih taken)
  | file isName entry => exact .file isName entry
  | linkItself _ entry _ =>
    cases taken
    exact absurd entry (free _)
  | through isName entry _ _ ih => exact .through isName entry (.inr rfl) (ih taken)

/-! ## The spot -/

/-- What a spot says of a file system: an entry is there, or a directory has none of the name. -/
def Holds (fs : FileSystem) : Spot → Prop
  | .taken place => fs.kind? place ≠ none
  | .vacant directory name =>
    fs.kind? directory = some .directory ∧ fs.kind? (directory ++ [name]) = none ∧ IsEntryName name

/-- A directory is in a directory, and the root is in itself. -/
theorem kind?_dropLast (directory : fs.kind? here = some .directory) : fs.kind? here.dropLast = some .directory :=
  kind?_eq_directory.mpr (HoldsDirectory.dropLast (kind?_eq_directory.mp directory))

/-- **Names that start at a directory lead to a spot that is as it says.** -/
theorem Leads.holds (start : fs.kind? here = some .directory)
    (leads : fs.Leads followLast links here names spot) : fs.Holds spot := by
  induction leads with
  | done => simp [Holds, start]
  | blank _ _ ih => exact ih start
  | up _ ih => exact ih (kind?_dropLast start)
  | vacant isName missing => exact ⟨start, missing, isName⟩
  | into _ inside _ ih => exact ih inside
  | file _ entry => simp [Holds, entry]
  | linkItself _ entry _ => simp [Holds, entry]
  | @through links here name target rest spot _ _ _ _ ih =>
    apply ih
    unfold targetStart
    split
    · exact kind?_nil fs
    · exact start

/-! ## Names behind names -/

/-- **Names behind names that lead to a directory are followed from there,** also where they lead nowhere. -/
theorem Leads.exists_follow (leads : fs.Leads true links here front (.taken directory))
    (holds : fs.kind? directory = some .directory) (more : back ≠ []) :
    ∃ left, ∀ followLast,
      fs.follow followLast links here (front ++ back) = fs.follow followLast left directory back := by
  -- The front goes through some links, and what is left of them does not depend on what is behind.
  generalize taken : Spot.taken directory = spot at leads
  induction leads with
  | @done links here =>
    cases taken
    exact ⟨links, fun _ => rfl⟩
  | blank silent _ ih =>
    obtain ⟨left, onward⟩ := ih taken
    refine ⟨left, fun _ => ?_⟩
    rw [List.cons_append, follow_cons, if_pos silent, onward]
  | up _ ih =>
    obtain ⟨left, onward⟩ := ih taken
    refine ⟨left, fun _ => ?_⟩
    rw [List.cons_append, follow_cons, if_neg (by decide), if_pos rfl, onward]
  | vacant => cases taken
  | into isName inside _ ih =>
    obtain ⟨left, onward⟩ := ih taken
    refine ⟨left, fun _ => ?_⟩
    rw [List.cons_append, follow_cons, ← onward]
    simp [isName.notBlank, isName.notUp, isName.short, inside]
  | file _ entry =>
    cases taken
    cases holds.symm.trans entry
  | linkItself _ _ last => cases last
  | through isName entry _ _ ih =>
    obtain ⟨left, onward⟩ := ih taken
    refine ⟨left, fun _ => ?_⟩
    rw [List.cons_append, follow_cons, ← onward, List.append_assoc]
    simp [isName.notBlank, isName.notUp, isName.short, entry, more]

/-- **Names behind names that lead to a directory lead on from there.** -/
theorem Leads.exists_split (leads : fs.Leads true links here front (.taken directory))
    (holds : fs.kind? directory = some .directory) (more : back ≠ []) :
    ∃ left, ∀ followLast spot,
      fs.Leads followLast links here (front ++ back) spot ↔ fs.Leads followLast left directory back spot := by
  obtain ⟨left, onward⟩ := leads.exists_follow holds more
  refine ⟨left, fun followLast spot => ?_⟩
  rw [← follow_eq_ok, ← follow_eq_ok, onward]

/-- A name that says something stands before names that say nothing. -/
theorem exists_cons_of_allBlank (blank : allBlank back = true) (said : isBlank name = false)
    (split : front ++ back = name :: rest) : ∃ later, front = name :: later ∧ later ++ back = rest := by
  cases front with
  | nil =>
    rw [List.nil_append] at split
    simp [split, allBlank, said] at blank
  | cons first later =>
    obtain ⟨rfl, behind⟩ := List.cons.inj split
    exact ⟨later, rfl, behind⟩

/-- **Names that say nothing do not matter at the end** of names that lead somewhere, except that they lead
into what stands before them. -/
theorem Leads.dropBlank (blank : allBlank back = true) (into : back = [] → followLast = true)
    (leads : fs.Leads followLast links here (front ++ back) spot) : fs.Leads true links here front spot := by
  generalize split : front ++ back = names at leads
  induction leads generalizing front with
  | done =>
    obtain ⟨rfl, -⟩ := List.append_eq_nil_iff.mp split
    exact .done
  | blank silent onward ih =>
    cases front with
    | nil =>
      have whole := Leads.blank silent onward
      rw [← split, List.nil_append, leads_allBlank blank] at whole
      rw [whole]
      exact .done
    | cons first front =>
      obtain ⟨rfl, behind⟩ := List.cons.inj split
      exact .blank silent (ih behind)
  | up onward ih =>
    obtain ⟨later, rfl, behind⟩ := exists_cons_of_allBlank blank (by decide) split
    exact .up (ih behind)
  | vacant isName missing =>
    obtain ⟨later, rfl, behind⟩ := exists_cons_of_allBlank blank isName.notBlank split
    obtain ⟨rfl, -⟩ := List.append_eq_nil_iff.mp behind
    exact .vacant isName missing
  | into isName inside onward ih =>
    obtain ⟨later, rfl, behind⟩ := exists_cons_of_allBlank blank isName.notBlank split
    exact .into isName inside (ih behind)
  | file isName entry =>
    obtain ⟨later, rfl, behind⟩ := exists_cons_of_allBlank blank isName.notBlank split
    obtain ⟨rfl, -⟩ := List.append_eq_nil_iff.mp behind
    exact .file isName entry
  | linkItself isName entry last =>
    obtain ⟨later, rfl, behind⟩ := exists_cons_of_allBlank blank isName.notBlank split
    obtain ⟨-, rfl⟩ := List.append_eq_nil_iff.mp behind
    cases last.symm.trans (into rfl)
  | through isName entry _ onward ih =>
    obtain ⟨later, rfl, behind⟩ := exists_cons_of_allBlank blank isName.notBlank split
    exact .through isName entry (.inr rfl) (ih (by simp [← behind]))

/-- **Names that lead to a missing entry end with a name that says something.** -/
theorem Leads.notBlank_of_vacant {last : String} (atEnd : names.getLast? = some last)
    (leads : fs.Leads followLast links here names (.vacant directory name)) : isBlank last = false := by
  generalize missing : Spot.vacant directory name = spot at leads
  induction leads with
  | done => cases missing
  | @blank links here first rest spot _ onward ih =>
    cases rest with
    | nil =>
      cases onward
      cases missing
    | cons next rest => exact ih (by rwa [List.getLast?_cons_cons] at atEnd) missing
  | @up links here rest spot onward ih =>
    cases rest with
    | nil =>
      cases onward
      cases missing
    | cons next rest => exact ih (by rwa [List.getLast?_cons_cons] at atEnd) missing
  | vacant isName _ =>
    cases atEnd
    exact isName.notBlank
  | @into links here first rest spot _ _ onward ih =>
    cases rest with
    | nil =>
      cases onward
      cases missing
    | cons next rest => exact ih (by rwa [List.getLast?_cons_cons] at atEnd) missing
  | file => cases missing
  | linkItself => cases missing
  | @through links here first target rest spot isName _ _ _ ih =>
    cases rest with
    | nil =>
      cases atEnd
      exact isName.notBlank
    | cons next rest =>
      refine ih ?_ missing
      rw [List.getLast?_cons_cons] at atEnd
      rw [List.getLast?_append, atEnd, Option.some_or]

/-- What stands between the slashes of a text has none. -/
theorem slashFree_of_mem_namesOf {text : String} (mem : name ∈ namesOf text) : SlashFree name := by
  obtain ⟨piece, isPiece, rfl⟩ := List.mem_map.mp mem
  unfold SlashFree
  rw [String.toList_ofList]
  exact Text.separator_notMem_of_mem_splitOn isPiece

/-- A missing entry has a name that is a file name, whether a path or a link names it. -/
theorem Leads.isFileName_of_vacant (free : ∀ name ∈ names, SlashFree name)
    (leads : fs.Leads followLast links here names (.vacant directory name)) : IsFileName name := by
  generalize missing : Spot.vacant directory name = spot at leads
  induction leads with
  | done => cases missing
  | blank _ _ ih => exact ih (List.forall_mem_cons.mp free).2 missing
  | up _ ih => exact ih (List.forall_mem_cons.mp free).2 missing
  | vacant isName _ =>
    cases missing
    have said : ¬ (name = "" ∨ name = ".") := by simpa [isBlank] using isName.notBlank
    exact ⟨fun empty => said (.inl empty), fun dot => said (.inr dot), isName.notUp,
      (List.forall_mem_cons.mp free).1⟩
  | into _ _ _ ih => exact ih (List.forall_mem_cons.mp free).2 missing
  | file => cases missing
  | linkItself => cases missing
  | through _ _ _ _ ih =>
    refine ih (fun name mem => ?_) missing
    rcases List.mem_append.mp mem with inTarget | later
    · exact slashFree_of_mem_namesOf inTarget
    · exact (List.forall_mem_cons.mp free).2 name later

/-! ## Where names lead without links -/

/-- The place behind a name, without a look at any file system. -/
def stepTo (here : Place) (name : String) : Place :=
  if isBlank name then here else if name = ".." then here.dropLast else here ++ [name]

/-- **The place behind names.** Each `..` takes back the name before it. -/
def after (here : Place) (names : List String) : Place := names.foldl stepTo here

/-- The places on the way behind names. -/
def stations : Place → List String → List Place
  | _, [] => []
  | here, name :: rest => stepTo here name :: stations (stepTo here name) rest

/-- A place is not the one of a link. -/
def NoLink (fs : FileSystem) (place : Place) : Prop := ∀ target, fs.kind? place ≠ some (.link target)

/-- A path that is followed to its end leads to no link. -/
theorem Leads.noLink (start : fs.kind? here = some .directory) (leads : fs.Leads true links here names (.taken place)) :
    fs.NoLink place := by
  generalize taken : Spot.taken place = spot at leads
  induction leads with
  | done =>
    cases taken
    intro target entry
    cases start.symm.trans entry
  | blank _ _ ih => exact ih start taken
  | up _ ih => exact ih (kind?_dropLast start) taken
  | vacant => cases taken
  | into _ inside _ ih => exact ih inside taken
  | file _ entry =>
    cases taken
    intro target entry'
    cases entry.symm.trans entry'
  | linkItself _ _ last => cases last
  | through _ _ _ _ ih =>
    refine ih ?_ taken
    unfold targetStart
    split
    · exact kind?_nil fs
    · exact start

theorem IsEntryName.stepTo (isName : IsEntryName name) (here : Place) :
    stepTo here name = here ++ [name] := by
  simp [FileSystem.stepTo, isName.notBlank, isName.notUp]

/-- **Names that meet no link lead to the place behind them.** -/
theorem Leads.place_eq (free : ∀ station ∈ stations here names, fs.NoLink station)
    (leads : fs.Leads followLast links here names spot) : spot.place = after here names := by
  induction leads with
  | done => rfl
  | blank silent _ ih =>
    simp only [stations, stepTo, silent, if_true, List.forall_mem_cons] at free
    simpa [after, stepTo, silent] using ih free.2
  | up _ ih =>
    have notBlank : isBlank ".." = false := by decide
    simp only [stations, stepTo, notBlank, Bool.false_eq_true, if_false, if_true, List.forall_mem_cons] at free
    simpa [after, stepTo, notBlank] using ih free.2
  | vacant isName _ => simp [Spot.place, after, isName.stepTo]
  | into isName _ _ ih =>
    simp only [stations, isName.stepTo, List.forall_mem_cons] at free
    simpa [after, isName.stepTo] using ih free.2
  | file isName _ => simp [Spot.place, after, isName.stepTo]
  | linkItself isName _ _ => simp [Spot.place, after, isName.stepTo]
  | through isName entry _ _ _ =>
    simp only [stations, isName.stepTo, List.forall_mem_cons] at free
    exact absurd entry (free.1 _)

theorem after_append (here : Place) (front back : List String) :
    after here (front ++ back) = after (after here front) back := List.foldl_append

/-- Names of entries are put behind one another. -/
theorem after_of_forall (names_ : ∀ name ∈ names, isBlank name = false ∧ name ≠ "..") :
    after here names = here ++ names := by
  induction names generalizing here with
  | nil => simp [after]
  | cons name rest ih =>
    obtain ⟨⟨notBlank, notUp⟩, others⟩ := List.forall_mem_cons.mp names_
    have next : after (here ++ [name]) rest = here ++ [name] ++ rest := ih others
    simpa [after, stepTo, notBlank, notUp] using next

/-- The places on the way behind names of entries are below where they start. -/
theorem prefix_of_mem_stations (names_ : ∀ name ∈ names, isBlank name = false ∧ name ≠ "..")
    (station : place ∈ stations here names) : here <+: place := by
  induction names generalizing here with
  | nil => cases station
  | cons name rest ih =>
    obtain ⟨⟨notBlank, notUp⟩, others⟩ := List.forall_mem_cons.mp names_
    simp only [stations, stepTo, notBlank, notUp, Bool.false_eq_true, if_false, List.mem_cons] at station
    rcases station with rfl | later
    · exact List.prefix_append _ _
    · exact (List.prefix_append _ _).trans (ih others later)

end FileSystem

end PyBundle
