import PyBundle.Proofs.FileSystem.Absolute
import PyBundle.Proofs.FileSystem.Files

/-!
# When directories are made and files are copied

An operation fails if something is in its way. Behind a path to a directory nothing is, as far as each place on the way
is one of a directory or nothing is there: then the directories on the way are made, nothing else changes
(`makeDirectories_of_clear`), and a file can be copied to the end of the way (`copy_of_extends`).
-/

namespace PyBundle

namespace Path

variable {p q : Path} {names : List String}

/-- What is made of pieces that end with a name ends in a name. -/
theorem endsInName_parentOf {pieces : List (List Char)} {front : List Component} {name : String}
    (free : ∀ piece ∈ pieces, '/' ∉ piece)
    (steps : pieces.filterMap Component.ofPiece? = front ++ [.name name]) : (parentOf pieces).EndsInName := by
  cases reversed : (dropBlankEnd pieces).reverse with
  | nil =>
    rw [← filterMap_dropBlankEnd, List.reverse_eq_nil_iff.mp reversed] at steps
    exact absurd steps.symm (List.concat_ne_nil _ _)
  | cons piece before =>
    obtain ⟨c, is, split⟩ := exists_concat_of_dropBlankEnd reversed
    obtain ⟨-, last⟩ := List.append_inj' (split.symm.trans steps) rfl
    cases List.singleton_inj.mp last
    have kept : dropBlankEnd pieces = before.reverse ++ [piece] := by
      rw [← List.reverse_reverse (dropBlankEnd pieces), reversed, List.reverse_cons]
    have free' : ∀ b ∈ dropBlankEnd pieces, '/' ∉ b := by
      obtain ⟨blank, all, -⟩ := exists_dropBlankEnd_append pieces
      exact fun b mem => free b (all ▸ List.mem_append_left blank mem)
    refine ⟨piece, name, ?_, is⟩
    have text : (parentOf pieces).text.toList = [] ++ '/' :: (joinPieces (dropBlankEnd pieces)).toList := by
      unfold parentOf
      rw [String.toList_append]
      rfl
    have inner : (joinPieces (dropBlankEnd pieces)).toList.splitOn '/' = dropBlankEnd pieces :=
      pieces_joinPieces free' (by simp [kept])
    unfold Path.pieces
    rw [text, List.splitOn_append_cons_self, inner, kept, ← List.append_assoc, List.getLast?_concat]

/-- **The parent of an absolute path that ends in a name,** by its steps. It has no other characters than the path, it
is not longer, and it ends in a name if its last step is one. -/
theorem exists_parent (absolute : p.isAbsolute = true) (ends : p.EndsInName) :
    ∃ parent, p.parent? = some parent ∧ parent.isAbsolute = true ∧
      (∃ name, p.steps = parent.steps ++ [.name name]) ∧
      parent.text.utf8ByteSize ≤ p.text.utf8ByteSize ∧
      (∀ c, c ≠ '/' ∧ c ≠ '.' → c ∈ parent.text.toList → c ∈ p.text.toList) ∧
      ∀ front name, parent.steps = front ++ [.name name] → parent.EndsInName := by
  obtain ⟨before, piece, split, is, free⟩ := exists_pieces_of_endsInName absolute ends
  have split' : p.pieces = ([] :: before) ++ [piece] := split
  have slashFree : ∀ b ∈ before, '/' ∉ b := fun b mem =>
    slash_notMem_of_mem_pieces (p := p) (by rw [split']; simp [mem])
  have text : p.text = "/" ++ joinPieces (before ++ [piece]) := text_eq_of_pieces_eq split (List.concat_ne_nil _ _)
  have joined := utf8ByteSize_parentOf_join_le text free
  have same := parentOf_join_sameAs absolute split' is free
  obtain ⟨between, -, whole⟩ := exists_text_join (parentOf before) (isAbsolute_ofList free)
  refine ⟨parentOf before, parent?_eq absolute split (by rw [is]; rfl), isAbsolute_parentOf before,
    ⟨String.ofList piece, ?_⟩, ?_, fun c other mem => ?_, fun front name steps => ?_⟩
  · rw [steps_parentOf split']
    unfold steps
    rw [split', List.filterMap_append, List.filterMap_cons_none rfl, List.filterMap_cons_some is, List.filterMap_nil]
  · rw [whole, String.utf8ByteSize_append, String.utf8ByteSize_append] at joined
    omega
  · refine FileSystem.mem_text_of_steps (sameAs_iff.mp same).2.symm other ?_
    rw [whole, String.toList_append, String.toList_append]
    exact List.mem_append_left _ (List.mem_append_left _ mem)
  · rw [steps_parentOf split'] at steps
    exact endsInName_parentOf slashFree steps

/-- **A path goes on from another one and can be made:** it leads somewhere and ends in a name, which all names on the
way can be. -/
structure Extends (p : Path) (names : List String) (q : Path) : Prop where
  onward : p.GoesOn names q
  absolute : q.isAbsolute = true
  usable : q.IsUsable
  ends : names ≠ [] → q.EndsInName
  short : ∀ name ∈ names, ¬ FileSystem.longestName < name.utf8ByteSize

/-- The parent of such a path is one with a name less. -/
theorem Extends.parent {front : List String} {last : String} (extends_ : p.Extends (front ++ [last]) q) :
    ∃ parent, q.parent? = some parent ∧ p.Extends front parent := by
  obtain ⟨onward, absolute, usable, ends, short⟩ := extends_
  obtain ⟨parent, isParent, absolute', ⟨name, steps⟩, shorter, characters, ends'⟩ :=
    exists_parent absolute (ends (List.concat_ne_nil _ _))
  have steps' : parent.steps = p.steps ++ front.map .name := by
    have both := steps.symm.trans onward.steps
    rw [List.map_append, List.map_singleton, ← List.append_assoc] at both
    exact (List.append_inj' both rfl).1
  refine ⟨parent, isParent, ⟨isEmpty_of_isAbsolute absolute', ?_, steps', fun name mem =>
    onward.proper name (List.mem_append_left _ mem)⟩, absolute', ⟨fun nul => ?_, isEmpty_of_isAbsolute absolute', ?_⟩,
    fun some => ?_, fun name mem => short name (List.mem_append_left _ mem)⟩
  · rw [absolute', ← absolute, onward.start]
  · exact usable.noNul (characters _ (by decide) nul)
  · exact fun long => usable.short (Nat.le_trans long shorter)
  · rcases List.eq_nil_or_concat front with rfl | ⟨before, name, rfl⟩
    · exact absurd rfl some
    · rw [List.concat_eq_append, List.map_append, List.map_singleton, ← List.append_assoc] at steps'
      exact ends' _ name steps'

theorem Extends.isEntryName (extends_ : p.Extends names q) :
    ∀ name ∈ names, FileSystem.IsEntryName name := fun name mem =>
  have isName := FileSystem.isBlank_of_isFileName (extends_.onward.proper name mem)
  ⟨isName.1, isName.2, extends_.short name mem⟩

end Path

namespace FileSystem

variable {fs fs' : FileSystem} {followLast : Bool} {links fuel : Nat} {here place directory : Place} {p q : Path}
  {name last : String} {names front back : List String}

/-! ## Names along directories -/

/-- Names of directories are followed into them. -/
theorem follow_directories (isNames : ∀ name ∈ front, IsEntryName name)
    (holds : fs.kind? (here ++ front) = some .directory) :
    fs.follow followLast links here (front ++ back) = fs.follow followLast links (here ++ front) back := by
  induction front generalizing here with
  | nil => rw [List.nil_append, List.append_nil]
  | cons name front ih =>
    obtain ⟨isName, others⟩ := List.forall_mem_cons.mp isNames
    rw [List.append_cons] at holds ⊢
    have inside : fs.kind? (here ++ [name]) = some .directory :=
      kind?_eq_directory_of_isPrefix holds (List.prefix_append _ _)
    rw [← ih others holds, List.cons_append, follow_entry isName, inside]

/-- A name that a directory does not have is a vacant one at the end, and on the way it leads nowhere. -/
theorem follow_missing (isName : IsEntryName name) (missing : fs.kind? (here ++ [name]) = none) :
    fs.follow followLast links here (name :: back) =
      if back = [] then .ok (.vacant here name) else .error .noSuchEntry := by
  rw [follow_entry isName, missing]

/-- A name of something that is no link leads to it at the end. -/
theorem follow_taken (isName : IsEntryName name) (present : fs.kind? (here ++ [name]) ≠ none)
    (noLink : fs.NoLink (here ++ [name])) :
    fs.follow followLast links here [name] = .ok (.taken (here ++ [name])) := by
  rw [follow_entry isName]
  cases entry : fs.kind? (here ++ [name]) with
  | none => exact absurd entry present
  | some k =>
    cases k with
    | directory => exact follow_nil
    | file => rfl
    | link target => exact absurd entry (noLink target)

/-- **A path that goes on from one to a directory is followed from there.** -/
theorem exists_resolve_eq (found : fs.place p = .ok place) (holds : fs.kind? place = some .directory)
    (extends_ : p.Extends names q) (some : names ≠ []) :
    ∃ left, ∀ followLast, fs.resolve followLast q = fs.follow followLast left place names := by
  obtain ⟨usable, start, -⟩ := resolve_iff.mp (place_eq_ok.mp found)
  obtain ⟨left, onward⟩ := (leads_of_place found).exists_follow holds some
  refine ⟨left, fun followLast => ?_⟩
  rw [← onward]
  have same : fs.startOf q = fs.startOf p := startOf_of_goesOn extends_.onward
  have way : thin (namesOf q.text) = thin (p.way ++ names) := by
    rw [← way_of_goesOn extends_.onward, Path.way, ← thin_namesOf (extends_.ends some), thin_thin]
  rw [← follow_congr followLast way, ← same]
  unfold resolve startOf
  have directory : (fs.get? (if q.isAbsolute then [] else fs.workPlace)).any (·.isDirectory) = true := by
    rw [← same] at start
    obtain ⟨entries, entry⟩ := kind?_eq_directory.mp start
    rw [show fs.get? (if q.isAbsolute then [] else fs.workPlace) = _ from entry]
    rfl
  have short : ¬ pathLimit ≤ q.text.utf8ByteSize := extends_.usable.short
  rw [if_neg (by simpa using extends_.usable.noNul), if_neg (by simp [extends_.usable.written]), if_neg short]
  exact if_pos directory

/-- Names that lead somewhere are not too long. -/
theorem Leads.short {spot : Spot} (leads : fs.Leads followLast links here names spot) :
    ∀ name ∈ names, ¬ longestName < name.utf8ByteSize := by
  have tiny : ∀ name : String, isBlank name = true ∨ name = ".." → ¬ longestName < name.utf8ByteSize := by
    rintro name (blank | rfl)
    · rcases Bool.or_eq_true_iff.mp blank with empty | here
      · rw [eq_of_beq empty]
        decide
      · rw [eq_of_beq here]
        decide
    · decide
  induction leads with
  | done => nofun
  | blank silent _ ih => exact List.forall_mem_cons.mpr ⟨tiny _ (.inl silent), ih⟩
  | up _ ih => exact List.forall_mem_cons.mpr ⟨tiny _ (.inr rfl), ih⟩
  | vacant isName => exact List.forall_mem_singleton.mpr isName.short
  | into isName _ _ ih => exact List.forall_mem_cons.mpr ⟨isName.short, ih⟩
  | file isName => exact List.forall_mem_singleton.mpr isName.short
  | linkItself isName => exact List.forall_mem_singleton.mpr isName.short
  | through isName _ _ _ ih =>
    exact List.forall_mem_cons.mpr ⟨isName.short, fun name mem => ih name (List.mem_append_right _ mem)⟩

/-- **Where a file is found by a relative path,** other paths can go on by the same way. -/
theorem extends_join {root r : Path} (file : fs.isFile (root.join r) = true) (isRoot : root.isAbsolute = true)
    (usable : p.IsUsable) (absolute : p.isAbsolute = true) (relative : r.isAbsolute = false)
    (steps : r.steps = names.map .name) (short : ¬ (p.join r).IsTooLong) : p.Extends names (p.join r) := by
  obtain ⟨_, _, _, resolved, -⟩ := isFile_iff.mp file
  have usable' := (resolve_iff.mp resolved).1
  have leads := leads_of_place (place_eq_ok.mpr resolved)
  have written : (p.join r).isEmpty = false := Path.isEmpty_join usable.written relative
  obtain ⟨front, text, -⟩ := Path.join_text root r
  have noNul : '\x00' ∉ r.text.toList := fun nul => usable'.noNul (by simp [text, nul])
  have onward : root.GoesOn names (root.join r) :=
    Path.goesOn_join (Path.isEmpty_of_isAbsolute isRoot) relative steps
  rw [way_of_goesOn onward] at leads
  refine ⟨Path.goesOn_join usable.written relative steps, Path.isAbsolute_join absolute,
    ⟨fun nul => ?_, written, short⟩, fun _ => ?_, fun name mem => leads.short name (List.mem_append_right _ mem)⟩
  · rcases Path.mem_text_join nul with before | slash | behind
    · exact usable.noNul before
    · exact absurd slash (by decide)
    · exact noNul behind
  · exact (Path.endsInName_join absolute).mpr ((Path.endsInName_join isRoot).mp (endsInName_of_isFile file))

/-! ## Directories on a clear way -/

/-- **A way is clear:** it starts in a directory, and each place on it is one of a directory, or nothing is there. -/
structure IsClear (fs : FileSystem) (p : Path) (place : Place) (names : List String) : Prop where
  found : fs.place p = .ok place
  clear : ∀ front, front <+: names →
    fs.kind? (place ++ front) = some .directory ∨ fs.kind? (place ++ front) = none

theorem IsClear.holds (clear : fs.IsClear p place names) : fs.kind? place = some .directory := by
  rcases clear.clear [] List.nil_prefix with holds | missing
  · rwa [List.append_nil] at holds
  · rw [List.append_nil] at missing
    exact absurd missing (kind?_ne_none_of_place clear.found)

theorem IsClear.of_isPrefix (clear : fs.IsClear p place names) (before : front <+: names) : fs.IsClear p place front :=
  ⟨clear.found, fun front' before' => clear.clear front' (before'.trans before)⟩

/-- On a clear way something is missing first. -/
theorem exists_first_missing (start : fs.kind? place = some .directory)
    (clear : ∀ front, front <+: names →
      fs.kind? (place ++ front) = some .directory ∨ fs.kind? (place ++ front) = none)
    (missing : fs.kind? (place ++ names) = none) :
    ∃ front name rest, names = front ++ name :: rest ∧ fs.kind? (place ++ front) = some .directory ∧
      fs.kind? (place ++ front ++ [name]) = none := by
  induction names generalizing place with
  | nil =>
    rw [List.append_nil] at missing
    cases missing.symm.trans start
  | cons name names ih =>
    rcases clear [name] (List.prefix_append [name] names) with inside | here
    · rw [List.append_cons] at missing
      have onward : ∀ front, front <+: names → fs.kind? (place ++ [name] ++ front) = some .directory ∨
          fs.kind? (place ++ [name] ++ front) = none := by
        intro front before
        rw [← List.append_cons]
        exact clear (name :: front) (List.cons_prefix_cons.mpr ⟨rfl, before⟩)
      obtain ⟨front, name', rest, rfl, holds, absent⟩ := ih inside onward missing
      refine ⟨name :: front, name', rest, rfl, ?_, ?_⟩
      · rwa [List.append_cons]
      · rwa [List.append_cons place name front]
    · refine ⟨[], name, names, rfl, by rwa [List.append_nil], by rwa [List.append_nil]⟩

/-- A path that goes on through directories leads to one. -/
theorem isDirectory_of_extends (found : fs.place p = .ok place) (extends_ : p.Extends names q)
    (holds : fs.kind? (place ++ names) = some .directory) : fs.isDirectory q = true := by
  have start : fs.kind? place = some .directory := kind?_eq_directory_of_isPrefix holds (List.prefix_append _ _)
  have leads : fs.Leads true linkLimit (fs.startOf q) q.way (.taken (place ++ names)) := by
    rw [way_of_goesOn extends_.onward, startOf_of_goesOn extends_.onward]
    cases names with
    | nil =>
      rw [List.append_nil, List.append_nil]
      exact leads_of_place found
    | cons name names =>
      obtain ⟨left, onward⟩ := (leads_of_place found).exists_follow start (List.cons_ne_nil name names)
      have along : fs.follow true left place ((name :: names) ++ []) =
          fs.follow true left (place ++ name :: names) [] := follow_directories extends_.isEntryName holds
      rw [List.append_nil] at along
      exact follow_eq_ok.mp ((onward true).trans (along.trans follow_nil))
  obtain ⟨-, directory, -⟩ := resolve_iff.mp (place_eq_ok.mp found)
  rw [← startOf_of_goesOn extends_.onward] at directory
  exact isDirectory_iff.mpr ⟨_, place_of_leads extends_.usable directory leads holds, holds⟩

/-- A directory is made in one that is there, where nothing has been. -/
theorem makeDirectory_of_vacant (found : fs.place p = .ok place) (extends_ : p.Extends (front ++ [last]) q)
    (holds : fs.kind? (place ++ front) = some .directory) (missing : fs.kind? (place ++ front ++ [last]) = none) :
    fs.makeDirectory q = .ok (fs.put (place ++ front ++ [last]) (.directory [])) := by
  have start : fs.kind? place = some .directory := kind?_eq_directory_of_isPrefix holds (List.prefix_append _ _)
  have isNames := extends_.isEntryName
  obtain ⟨left, resolved⟩ := exists_resolve_eq found start extends_ (List.concat_ne_nil _ _)
  have vacant : fs.resolve false q = .ok (.vacant (place ++ front) last) := by
    rw [resolved, follow_directories (fun name mem => isNames name (List.mem_append_left _ mem)) holds,
      follow_missing (isNames last (by simp)) missing, if_pos rfl]
  have short : ¬ pathLimit ≤ q.text.utf8ByteSize := extends_.usable.short
  unfold makeDirectory
  rw [if_neg short, Path.dropSlashes_of_endsInName (extends_.ends (List.concat_ne_nil _ _)), vacant]

/-- A directory is not made in one that is missing on a clear way. -/
theorem makeDirectory_of_missing (clear : fs.IsClear p place front) (extends_ : p.Extends (front ++ [last]) q)
    (missing : fs.kind? (place ++ front) = none) : fs.makeDirectory q = .error .noSuchEntry := by
  have isNames := extends_.isEntryName
  obtain ⟨left, resolved⟩ := exists_resolve_eq clear.found clear.holds extends_ (List.concat_ne_nil _ _)
  obtain ⟨way, name, rest, rfl, holds, absent⟩ := exists_first_missing clear.holds clear.clear missing
  have nowhere : fs.resolve false q = .error .noSuchEntry := by
    rw [resolved, List.append_assoc, List.cons_append,
      follow_directories (fun other mem => isNames other (by simp [mem])) holds,
      follow_missing (isNames name (by simp)) absent, if_neg (List.concat_ne_nil _ _)]
  have short : ¬ pathLimit ≤ q.text.utf8ByteSize := extends_.usable.short
  unfold makeDirectory
  rw [if_neg short, Path.dropSlashes_of_endsInName (extends_.ends (List.concat_ne_nil _ _)), nowhere]

/-- Where the directories are already, none is made. -/
theorem makeDirectoriesAux_of_holds (found : fs.place p = .ok place) (extends_ : p.Extends names q)
    (holds : fs.kind? (place ++ names) = some .directory) (fuel : Nat) :
    ∃ fs', makeDirectoriesAux fuel fs q = (fs', .ok ()) ∧
      ∀ q', fs'.kind? q' = if q' <+: place ++ names then some .directory else fs.kind? q' := by
  refine ⟨fs, makeDirectoriesAux_of_isDirectory (isDirectory_of_extends found extends_ holds), fun q' => ?_⟩
  split
  · exact kind?_eq_directory_of_isPrefix holds ‹_›
  · rfl

/-- One directory more is made behind those that were made. -/
theorem exists_makeDirectory {made : FileSystem} {front : List String} {last : String}
    (extends_ : p.Extends (front ++ [last]) q) (absent : fs.kind? (place ++ front ++ [last]) = none)
    (found : made.place p = .ok place)
    (kinds : ∀ q', made.kind? q' = if q' <+: place ++ front then some .directory else fs.kind? q') :
    ∃ fs', made.makeDirectory q = .ok fs' ∧
      ∀ q', fs'.kind? q' = if q' <+: place ++ (front ++ [last]) then some .directory else fs.kind? q' := by
  have around : made.kind? (place ++ front) = some .directory := by rw [kinds, if_pos (List.prefix_refl _)]
  have absent' : made.kind? (place ++ front ++ [last]) = none := by
    rw [kinds, if_neg, absent]
    intro before
    have short := before.length_le
    rw [List.length_append, List.length_singleton] at short
    omega
  refine ⟨_, makeDirectory_of_vacant found extends_ around absent', fun q' => ?_⟩
  rw [kind?_put_directory around absent', kinds, List.append_assoc]
  by_cases before : q' <+: place ++ front
  · have longer : q' <+: place ++ (front ++ [last]) := before.trans (by simp)
    rw [if_pos before, if_pos longer, if_pos longer]
  · rw [if_neg before]

/-- **On a clear way the directories are made,** and nothing else changes. -/
theorem makeDirectoriesAux_of_clear (clear : fs.IsClear p place names) (extends_ : p.Extends names q)
    (enough : names.length ≤ fuel) :
    ∃ fs', makeDirectoriesAux fuel fs q = (fs', .ok ()) ∧
      ∀ q', fs'.kind? q' = if q' <+: place ++ names then some .directory else fs.kind? q' := by
  induction fuel generalizing names q with
  | zero =>
    cases List.length_eq_zero_iff.mp (Nat.le_zero.mp enough)
    exact makeDirectoriesAux_of_holds clear.found extends_ (by rw [List.append_nil]; exact clear.holds) 0
  | succ fuel ih =>
    rcases clear.clear names (List.prefix_refl _) with holds | missing
    · exact makeDirectoriesAux_of_holds clear.found extends_ holds _
    rcases List.eq_nil_or_concat names with rfl | ⟨front, last, rfl⟩
    · rw [List.append_nil, clear.holds] at missing
      cases missing
    rw [List.concat_eq_append] at *
    have absent : fs.kind? (place ++ front ++ [last]) = none := by rwa [List.append_assoc]
    have written : ¬ q.isEmpty = true := by simp [extends_.usable.written]
    have clear' : fs.IsClear p place front := clear.of_isPrefix (List.prefix_append _ _)
    rcases clear'.clear front (List.prefix_refl _) with around | away
    · have kinds : ∀ q', fs.kind? q' = if q' <+: place ++ front then some .directory else fs.kind? q' := by
        intro q'
        split
        · exact kind?_eq_directory_of_isPrefix around ‹_›
        · rfl
      obtain ⟨fs', made, kinds'⟩ := exists_makeDirectory extends_ absent clear.found kinds
      refine ⟨fs', ?_, kinds'⟩
      unfold makeDirectoriesAux
      rw [if_neg written, made]
    · -- The parents are made first, and then there is a directory to make the last one in.
      obtain ⟨parent, isParent, extends'⟩ := extends_.parent
      obtain ⟨middle, run, kinds⟩ := ih clear' extends' (by simp at enough; omega)
      have more : fs.Within middle := by
        have kept : fs.Within (makeDirectoriesAux fuel fs parent).1 :=
          (keptByDirectories_within fs).aux (Within.refl fs)
        rwa [run] at kept
      obtain ⟨fs', made, kinds'⟩ := exists_makeDirectory extends_ absent (more.place_eq clear.found) kinds
      refine ⟨fs', ?_, kinds'⟩
      unfold makeDirectoriesAux
      rw [if_neg written, makeDirectory_of_missing clear' extends_ away]
      dsimp only
      rw [isParent]
      dsimp only
      rw [run]
      dsimp only
      rw [made]

theorem makeDirectories_of_clear (clear : fs.IsClear p place names) (extends_ : p.Extends names q) :
    ∃ fs', fs.makeDirectories q = (fs', .ok ()) ∧
      ∀ q', fs'.kind? q' = if q' <+: place ++ names then some .directory else fs.kind? q' := by
  refine makeDirectoriesAux_of_clear clear extends_ ?_
  rw [Path.components_eq, extends_.onward.steps]
  simp
  omega

/-! ## Files at the end of a way -/

/-- **A path that goes on to a file** leads to it. -/
theorem place_of_extends {content : ByteArray} {executable : Bool} (found : fs.place p = .ok place)
    (holds : fs.kind? place = some .directory) (extends_ : p.Extends names q)
    (entry : fs.kind? (place ++ names) = some (.file content executable)) : fs.place q = .ok (place ++ names) := by
  rcases List.eq_nil_or_concat names with rfl | ⟨front, last, rfl⟩
  · rw [List.append_nil, holds] at entry
    cases entry
  rw [List.concat_eq_append] at extends_ entry ⊢
  have isNames := extends_.isEntryName
  have present : fs.kind? (place ++ front ++ [last]) = some (.file content executable) := by rwa [List.append_assoc]
  have directory : fs.kind? (place ++ front) = some .directory :=
    kind?_eq_directory_of_append (by rw [present]; exact nofun)
  have noLink : fs.NoLink (place ++ front ++ [last]) := by
    intro target link
    cases present.symm.trans link
  obtain ⟨left, resolved⟩ := exists_resolve_eq found holds extends_ (List.concat_ne_nil _ _)
  refine place_eq_ok.mpr ?_
  rw [resolved, follow_directories (fun name mem => isNames name (List.mem_append_left _ mem)) directory,
    follow_taken (isNames last (by simp)) (by rw [present]; exact nofun) noLink, List.append_assoc]

/-- **A file is copied to the end of a way** that leads through directories, if neither a directory nor a link is
there. -/
theorem copy_of_extends {source : Path} (file : fs.isFile source = true) (found : fs.place p = .ok place)
    (extends_ : p.Extends (front ++ [last]) q) (holds : fs.kind? (place ++ front) = some .directory)
    (noDirectory : fs.kind? (place ++ front ++ [last]) ≠ some .directory)
    (noLink : fs.NoLink (place ++ front ++ [last])) : ∃ fs', fs.copy source q = .ok fs' := by
  obtain ⟨from_, content, executable, leads, entry⟩ := isFile_iff.mp file
  have start : fs.kind? place = some .directory := kind?_eq_directory_of_isPrefix holds (List.prefix_append _ _)
  have isNames := extends_.isEntryName
  have ends := extends_.ends (List.concat_ne_nil _ _)
  obtain ⟨left, resolved⟩ := exists_resolve_eq found start extends_ (List.concat_ne_nil _ _)
  have followed : fs.resolve true q = fs.follow true left (place ++ front) [last] := by
    rw [resolved, follow_directories (fun name mem => isNames name (List.mem_append_left _ mem)) holds]
  have unclosed : q.endsWithSlash = false := ends.unclosed.2
  have writes : ∃ place' n?, fs.writable q = .ok (place', n?) := by
    unfold writable
    rw [Path.dropSlashes_of_endsInName ends, followed]
    by_cases missing : fs.kind? (place ++ front ++ [last]) = none
    · rw [follow_missing (isNames last (by simp)) missing, if_pos rfl]
      simp only [unclosed, Bool.false_eq_true, if_false]
      exact ⟨_, _, rfl⟩
    · rw [follow_taken (isNames last (by simp)) missing noLink]
      simp only [unclosed, Bool.false_eq_true, if_false]
      split
      · rename_i entries directory
        exact absurd (kind?_eq_directory.mpr ⟨entries, directory⟩) noDirectory
      · exact ⟨_, _, rfl⟩
  obtain ⟨place', n?, writes⟩ := writes
  unfold copy
  rw [place_eq_ok.mpr leads]
  dsimp only
  rw [entry]
  dsimp only
  rw [writes]
  exact ⟨_, rfl⟩

/-- What a file is copied to can be the path of something. -/
theorem isUsable_of_copy {source : Path} (copied : fs.copy source q = .ok fs') (ends : q.EndsInName) :
    q.IsUsable := by
  unfold copy at copied
  split at copied
  · cases copied
  split at copied
  · split at copied
    · cases copied
    · rename_i place' n? writes
      unfold writable at writes
      rw [Path.dropSlashes_of_endsInName ends] at writes
      cases resolved : fs.resolve true q with
      | error f =>
        rw [resolved] at writes
        cases writes
      | ok spot => exact (resolve_iff.mp resolved).1
  · cases copied

end FileSystem

end PyBundle
