import PyBundle.FileSystem.Resolve
import PyBundle.Proofs.Path.Components

/-!
# Where names lead

A path may lead through links, and what a link stands for is put before the names that are still to go. So
`thin` takes out the names that say nothing where another one follows that does, and leaves those at the end
of a path, where a slash says that a directory stands before it. `follow_congr` says that thin names lead
where all names do, and `follow_open` that names do not lead to a file unless they end in a name of their own.
-/

namespace PyBundle

/-- **A path is too long to lead anywhere.** -/
def Path.IsTooLong (p : Path) : Prop := FileSystem.pathLimit ≤ p.text.utf8ByteSize

instance (p : Path) : Decidable p.IsTooLong := inferInstanceAs (Decidable (_ ≤ _))

/-- The entries on the way to an entry are directories. -/
theorem Node.exists_directory_of_get?_append {n x : Node} {place : Place} {name : String}
    (entry : n.get? (place ++ [name]) = some x) : ∃ entries, n.get? place = some (.directory entries) := by
  induction place generalizing n with
  | nil =>
    cases n with
    | directory entries => exact ⟨entries, rfl⟩
    | file content executable => cases entry
    | link target => cases entry
  | cons first place ih =>
    cases n with
    | file content executable => cases entry
    | link target => cases entry
    | directory entries =>
      rw [List.cons_append, Node.get?] at entry
      rw [Node.get?]
      split at entry
      · exact ih entry
      · cases entry

namespace FileSystem

variable {fs : FileSystem} {p q : Path} {links : Nat} {here : Place} {names rest : List String}

/-- A path leads to a file if and only if it leads to the place of one. -/
theorem isFile_iff : fs.isFile p = true ↔
    ∃ place content executable, fs.resolve true p = .ok (.taken place) ∧
      fs.get? place = some (.file content executable) := by
  unfold isFile node place
  cases resolved : fs.resolve true p with
  | error fault =>
    constructor
    · exact nofun
    · rintro ⟨_, _, _, ⟨⟩, _⟩
  | ok spot =>
    cases spot with
    | vacant directory name =>
      constructor
      · exact nofun
      · rintro ⟨_, _, _, ⟨⟩, _⟩
    | taken place =>
      dsimp only
      cases entry : fs.get? place with
      | none =>
        constructor
        · exact nofun
        · rintro ⟨_, _, _, ⟨⟩, entry'⟩
          cases entry.symm.trans entry'
      | some n =>
        constructor
        · intro file
          cases n with
          | file content executable => exact ⟨place, content, executable, rfl, entry⟩
          | link target => cases file
          | directory entries => cases file
        · rintro ⟨_, _, _, ⟨⟩, entry'⟩
          cases entry.symm.trans entry'
          rfl

/-- **What a path has to be like to lead anywhere,** and how its names are followed then. -/
theorem resolve_eq_ok {followLast : Bool} {spot : Spot} : fs.resolve followLast p = .ok spot ↔
    '\x00' ∉ p.text.toList ∧ p.isEmpty = false ∧ ¬ p.IsTooLong ∧
      (fs.get? (if p.isAbsolute then [] else fs.workPlace)).any (·.isDirectory) = true ∧
      fs.follow followLast linkLimit (if p.isAbsolute then [] else fs.workPlace) (namesOf p.text) = .ok spot := by
  unfold resolve Path.IsTooLong
  simp only [List.contains_iff_mem]
  generalize (if p.isAbsolute = true then [] else fs.workPlace) = start
  constructor
  · intro resolved
    split at resolved
    · cases resolved
    · split at resolved
      · cases resolved
      · split at resolved
        · cases resolved
        · split at resolved
          · rename_i noNul written short directory
            exact ⟨noNul, Bool.eq_false_iff.mpr written, short, directory, resolved⟩
          · cases resolved
  · rintro ⟨noNul, written, short, directory, followed⟩
    rw [if_neg noNul, if_neg (Bool.eq_false_iff.mp written), if_neg short, if_pos directory]
    exact followed

/-- **A path that leads to a file is not too long.** -/
theorem not_isTooLong_of_isFile (file : fs.isFile p = true) : ¬ p.IsTooLong := by
  obtain ⟨place, _, _, resolved, -⟩ := isFile_iff.mp file
  exact (resolve_eq_ok.mp resolved).2.2.1

/-! ## Names that say nothing -/

/-- Whether a name leads nowhere. -/
def isBlank (name : String) : Bool := name == "" || name == "."

/-- Whether all names lead nowhere. -/
def allBlank (names : List String) : Bool := names.all isBlank

/-- Names without those that lead nowhere and have one behind them that does not. -/
def thin : List String → List String
  | [] => []
  | name :: rest => if isBlank name && !allBlank rest then thin rest else name :: thin rest

theorem thin_of_allBlank (blank : allBlank names = true) : thin names = names := by
  induction names with
  | nil => rfl
  | cons name rest ih =>
    have restBlank : allBlank rest = true := (Bool.and_eq_true_iff.mp blank).2
    rw [thin, restBlank, ih restBlank, Bool.not_true, Bool.and_false, if_neg Bool.false_ne_true]

theorem allBlank_thin (names : List String) : allBlank (thin names) = allBlank names := by
  induction names with
  | nil => rfl
  | cons name rest ih =>
    unfold thin
    split
    · rename_i dropped
      simp only [Bool.and_eq_true, Bool.not_eq_true'] at dropped
      rw [ih, dropped.2]
      show false = (isBlank name && allBlank rest)
      rw [dropped.2, Bool.and_false]
    · show (isBlank name && allBlank (thin rest)) = (isBlank name && allBlank rest)
      rw [ih]

theorem thin_eq_nil_iff : thin names = [] ↔ names = [] := by
  constructor
  · intro none
    have blank : allBlank names = true := by
      rw [← allBlank_thin, none]
      rfl
    rwa [thin_of_allBlank blank] at none
  · rintro rfl
    rfl

/-- Thin names are thin. -/
theorem thin_thin (names : List String) : thin (thin names) = thin names := by
  induction names with
  | nil => rfl
  | cons name rest ih =>
    rw [thin]
    split
    · exact ih
    · rename_i kept
      rw [thin, allBlank_thin, if_neg kept, ih]

/-- **What is put before names does not tell names apart that are thinned to the same.** -/
theorem thin_append_congr {others : List String} (front : List String) (same : thin names = thin others) :
    thin (front ++ names) = thin (front ++ others) := by
  have blank : allBlank names = allBlank others := by rw [← allBlank_thin, same, allBlank_thin]
  induction front with
  | nil => exact same
  | cons name front ih =>
    have blank' : allBlank (front ++ names) = allBlank (front ++ others) := by
      unfold allBlank at blank ⊢
      rw [List.all_append, List.all_append, blank]
    rw [List.cons_append, List.cons_append, thin, thin, blank', ih]

/-- What is still to go behind a link, thinned. -/
def thinned : Advance → Advance
  | .arrived spot => .arrived spot
  | .atLink from_ names => .atLink from_ (thin names)

/-- **Thin names lead as far as all names do,** up to a link. -/
theorem advance_thin (followLast : Bool) : (fs.advance followLast here (thin names)).map thinned =
    (fs.advance followLast here names).map thinned := by
  induction names generalizing here with
  | nil => rfl
  | cons name rest ih =>
    have empty : (thin rest).isEmpty = rest.isEmpty := by
      rw [Bool.eq_iff_iff, List.isEmpty_iff, List.isEmpty_iff, thin_eq_nil_iff]
    rw [thin]
    split
    · rename_i dropped
      have blank : (name == "" || name == ".") = true := (Bool.and_eq_true_iff.mp dropped).1
      rw [ih, advance, if_pos blank]
    · unfold advance
      split
      · exact ih
      · split
        · exact ih
        · split
          · rfl
          · cases fs.get? (here ++ [name]) with
            | none => dsimp only; rw [empty]
            | some entry =>
              cases entry with
              | file content executable => dsimp only; rw [empty]
              | directory entries => exact ih
              | link target =>
                dsimp only
                rw [empty]
                split
                · rfl
                · show Except.ok (Advance.atLink _ (thin _)) = Except.ok (Advance.atLink _ (thin _))
                  rw [thin_append_congr _ (thin_thin rest)]

/-- Names that are thinned to the same fail alike, or arrive at the same, or meet the same link. -/
theorem advance_congr {others : List String} (followLast : Bool) (here : Place)
    (same : thin names = thin others) :
    (∃ fault, fs.advance followLast here names = .error fault ∧
      fs.advance followLast here others = .error fault) ∨
    (∃ spot, fs.advance followLast here names = .ok (.arrived spot) ∧
      fs.advance followLast here others = .ok (.arrived spot)) ∨
    ∃ from_ left right, fs.advance followLast here names = .ok (.atLink from_ left) ∧
      fs.advance followLast here others = .ok (.atLink from_ right) ∧ thin left = thin right := by
  have steps : (fs.advance followLast here names).map thinned =
      (fs.advance followLast here others).map thinned := by
    rw [← advance_thin, same, advance_thin]
  generalize fs.advance followLast here names = x at steps ⊢
  generalize fs.advance followLast here others = y at steps ⊢
  cases x with
  | error fault =>
    cases y with
    | error fault' =>
      cases steps
      exact .inl ⟨fault, rfl, rfl⟩
    | ok => cases steps
  | ok x =>
    cases y with
    | error => cases steps
    | ok y =>
      have steps : thinned x = thinned y := Except.ok.inj steps
      cases x with
      | arrived spot =>
        cases y with
        | arrived spot' =>
          cases steps
          exact .inr (.inl ⟨spot, rfl, rfl⟩)
        | atLink => cases steps
      | atLink from_ left =>
        cases y with
        | arrived => cases steps
        | atLink from' right =>
          obtain ⟨rfl, same⟩ := Advance.atLink.inj steps
          exact .inr (.inr ⟨from_, left, right, rfl, rfl, same⟩)

/-- **Names that are thinned to the same lead to the same.** -/
theorem follow_congr {others : List String} (followLast : Bool) (same : thin names = thin others) :
    fs.follow followLast links here names = fs.follow followLast links here others := by
  induction links generalizing here names others with
  | zero =>
    unfold follow
    rcases fs.advance_congr followLast here same with ⟨_, x, y⟩ | ⟨_, x, y⟩ | ⟨_, _, _, x, y, -⟩ <;> rw [x, y]
  | succ links ih =>
    unfold follow
    rcases fs.advance_congr followLast here same with ⟨_, x, y⟩ | ⟨_, x, y⟩ | ⟨_, _, _, x, y, same'⟩
    · rw [x, y]
    · rw [x, y]
    · rw [x, y]
      exact ih same'

/-! ## Ends of paths -/

/-- Whether a name can be the one of a file: it leads somewhere, and not up. -/
def isFileEnd (name : String) : Bool := !isBlank name && name != ".."

/-- A place is the one of a directory. -/
def HoldsDirectory (fs : FileSystem) (place : Place) : Prop :=
  ∃ entries, fs.get? place = some (.directory entries)

theorem HoldsDirectory.dropLast {place : Place} (holds : fs.HoldsDirectory place) :
    fs.HoldsDirectory place.dropLast := by
  rcases List.eq_nil_or_concat place with rfl | ⟨before, name, rfl⟩
  · exact holds
  · rw [List.concat_eq_append] at holds ⊢
    obtain ⟨entries, entry⟩ := holds
    rw [List.dropLast_concat]
    exact Node.exists_directory_of_get?_append entry

/-- Names do not end in one that can be the one of a file. -/
def EndOpen (names : List String) : Prop := ∀ name ∈ names.getLast?, isFileEnd name = false

theorem EndOpen.tail {name : String} (unended : EndOpen (name :: rest)) : EndOpen rest := by
  cases rest with
  | nil => exact nofun
  | cons next rest => exact unended

theorem EndOpen.append (unended : EndOpen rest) (some : rest ≠ []) (front : List String) :
    EndOpen (front ++ rest) := by
  intro name last
  rw [List.getLast?_append, List.getLast?_eq_some_getLast some, Option.some_or] at last
  exact unended name (by rwa [List.getLast?_eq_some_getLast some])

/-- If a name that can be the one of a file does not end names, then another one is behind it. -/
theorem EndOpen.ne_nil {name : String} (unended : EndOpen (name :: rest)) (is : isFileEnd name = true) :
    rest ≠ [] := by
  rintro rfl
  cases is.symm.trans (unended name rfl)

/-- Where names with an open end lead to: to a directory or to names with an open end, but to no file. -/
def LeadsOpen (fs : FileSystem) : Advance → Prop
  | .arrived (.taken place) => fs.HoldsDirectory place
  | .arrived (.vacant _ _) => True
  | .atLink from_ names => fs.HoldsDirectory from_ ∧ EndOpen names

theorem advance_open {a : Advance} (holds : fs.HoldsDirectory here) (unended : EndOpen names)
    (led : fs.advance true here names = .ok a) : fs.LeadsOpen a := by
  induction names generalizing here with
  | nil =>
    cases led
    exact holds
  | cons name rest ih =>
    unfold advance at led
    split at led
    · exact ih holds unended.tail led
    · split at led
      · exact ih holds.dropLast unended.tail led
      · rename_i notBlank notUp
        have is : isFileEnd name = true := by
          unfold isFileEnd isBlank
          rw [Bool.eq_false_iff.mpr notBlank, Bool.not_false, Bool.true_and]
          exact bne_iff_ne.mpr fun same => notUp (beq_iff_eq.mpr same)
        have more : rest.isEmpty = false := List.isEmpty_eq_false_iff.mpr (unended.ne_nil is)
        split at led
        · cases led
        · split at led
          · rw [more] at led
            cases led
          · rename_i entries entry
            exact ih ⟨entries, entry⟩ unended.tail led
          · rw [more] at led
            cases led
          · rw [more] at led
            cases led
            refine ⟨?_, unended.tail.append (unended.ne_nil is) _⟩
            split
            · exact ⟨fs.entries, rfl⟩
            · exact holds

/-- **Names with an open end do not lead to a file.** -/
theorem follow_open {place : Place} (holds : fs.HoldsDirectory here) (unended : EndOpen names)
    (led : fs.follow true links here names = .ok (.taken place)) : fs.HoldsDirectory place := by
  induction links generalizing here names with
  | zero =>
    unfold follow at led
    split at led
    · cases led
    · rename_i spot advanced
      cases led
      exact advance_open holds unended advanced
    · cases led
  | succ links ih =>
    unfold follow at led
    split at led
    · cases led
    · rename_i spot advanced
      cases led
      exact advance_open holds unended advanced
    · rename_i from_ names' advanced
      obtain ⟨holds', unended'⟩ := advance_open holds unended advanced
      exact ih holds' unended' led

end FileSystem

end PyBundle
