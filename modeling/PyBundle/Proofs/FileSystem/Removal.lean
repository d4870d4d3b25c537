import PyBundle.Proofs.FileSystem.Directories

/-!
# Removing what a path names

`FileSystem.without` is a file system without the entry that a path names. A removal that stops half way has
all of it left, and after one that comes to its end the path leads to no directory any more, unless it leads to
the root, which is only emptied.
-/

namespace PyBundle

namespace Node

/-- The last of two entries that are set under one name counts. -/
theorem setEntry_setEntry (name : String) (n : Node) (n? : Option Node) (entries : Entries) :
    setEntry name n? (setEntry name (some n) entries) = setEntry name n? entries := by
  have filtered : ∀ entries : Entries,
      (entries.map fun e => if e.1 == name then (name, n) else e).filter (·.1 != name) =
        entries.filter (·.1 != name) := by
    intro entries
    induction entries with
    | nil => rfl
    | cons entry entries ih =>
      by_cases same : entry.1 = name
      · rw [List.map_cons, if_pos (by simp [same]), List.filter_cons_of_neg (by simp),
          List.filter_cons_of_neg (by simp [same]), ih]
      · rw [List.map_cons, if_neg (by simp [same]), List.filter_cons_of_pos (by simp [same]),
          List.filter_cons_of_pos (by simp [same]), ih]
  cases n? with
  | none =>
    unfold setEntry
    dsimp only
    split
    · exact filtered entries
    · simp
  | some m =>
    by_cases present : (entries.lookup name).isSome
    · have found := lookup_setEntry name name (some n) entries
      simp only [setEntry, present, if_true] at found ⊢
      simp only [found, if_true, Option.isSome_some, List.map_map]
      refine List.map_congr_left fun entry _ => ?_
      by_cases same : entry.1 = name <;> simp [same]
    · have found := lookup_setEntry name name (some n) entries
      have missing : ∀ entry ∈ entries, entry.1 ≠ name := by
        intro entry mem same
        apply present
        rw [List.lookup_isSome_iff]
        exact ⟨entry, mem, by simp [same]⟩
      simp only [setEntry, present, Bool.false_eq_true, if_false] at found ⊢
      simp only [found, if_true, Option.isSome_some, List.map_append, List.map_cons, List.map_nil, BEq.rfl]
      congr 1
      refine (List.map_congr_left fun entry mem => ?_).trans entries.map_id
      simp [missing entry mem]

theorem setEntry_none_none (name : String) (entries : Entries) :
    setEntry name none (setEntry name none entries) = setEntry name none entries := by
  simp [setEntry]

/-- A change that leaves an entry leaves one wherever there is one. -/
theorem alter_eq_none {change : Option Node → Option Node} {n? : Option Node} {place : Place}
    (leaves : ∀ n?, change n? ≠ none) (gone : alter change n? place = none) : n? = none ∧ place ≠ [] := by
  cases place with
  | nil => exact absurd gone (leaves n?)
  | cons name rest =>
    match n? with
    | none => exact ⟨rfl, List.cons_ne_nil _ _⟩
    | some (file ..) => cases gone
    | some (link _) => cases gone
    | some (directory _) => cases gone

/-- **Of two changes at one place the second one counts,** if the first one leaves an entry there. -/
theorem alter_alter {first second : Option Node → Option Node} (leaves : ∀ n?, first n? ≠ none)
    (n? : Option Node) (place : Place) :
    alter second (alter first n? place) place = alter (fun n? => second (first n?)) n? place := by
  induction place generalizing n? with
  | nil => rfl
  | cons name rest ih =>
    match n? with
    | none => rfl
    | some (file ..) => rfl
    | some (link _) => rfl
    | some (directory entries) =>
      have inner := ih (entries.lookup name)
      simp only [alter, lookup_setEntry, if_true]
      rw [inner]
      cases changed : alter first (entries.lookup name) rest with
      | some m => rw [setEntry_setEntry]
      | none =>
        obtain ⟨missing, below⟩ := alter_eq_none leaves changed
        obtain ⟨next, rest, rfl⟩ := List.exists_cons_of_ne_nil below
        rw [missing]
        simp only [alter, setEntry_none_none]

end Node

namespace FileSystem

variable {fs fs' : FileSystem} {place : Place} {n : Node} {p : Path} {q : Place}

theorem erase_nil (fs : FileSystem) : fs.erase [] = fs := rfl

/-- File systems are told apart by what they hold and by where relative paths start. -/
theorem eq_of_root (root : fs.root = fs'.root) (workPlace : fs.workPlace = fs'.workPlace) : fs = fs' := by
  obtain ⟨entries, workPlace'⟩ := fs
  obtain ⟨entries', workPlace''⟩ := fs'
  cases Node.directory.inj root
  cases workPlace
  rfl

/-- **What is put somewhere goes when the entry there is removed.** -/
theorem erase_put (below : place ≠ []) : (fs.put place n).erase place = fs.erase place := by
  refine eq_of_root (Option.some.inj ?_) (by simp)
  have leaves : ∀ n? : Option Node, (fun _ => some n : Option Node → Option Node) n? ≠ none := fun _ => nofun
  calc some ((fs.put place n).erase place).root
    _ = Node.alter (fun _ => none) (some (fs.put place n).root) place := root_alter below
    _ = Node.alter (fun _ => none) (Node.alter (fun _ => some n) (some fs.root) place) place := by
      rw [put, root_alter below]
    _ = Node.alter (fun _ => none) (some fs.root) place := Node.alter_alter leaves _ _
    _ = some (fs.erase place).root := (root_alter below).symm

/-- **A file system without the entry that a path names,** and without all below it. Of the root only what is
below it goes. -/
def without (fs : FileSystem) (p : Path) : FileSystem :=
  match fs.resolve false p with
  | .ok (.taken place) => (fs.put place (.directory [])).erase place
  | _ => fs

/-- **Removing an entry leaves nothing new.** -/
theorem within_erase (fs : FileSystem) (place : Place) : (fs.erase place).Within fs where
  workPlace := by simp
  kind := by
    intro q k entry
    by_cases root : place = []
    · rwa [root, erase_nil] at entry
    · by_cases below : place <+: q
      · cases (kind?_erase_of_isPrefix root below).symm.trans entry
      · rwa [kind?_erase below] at entry

/-- The kinds of entries when a directory is emptied. -/
theorem kind?_emptied (holds : fs.kind? place = some .directory) :
    (fs.put place (.directory [])).kind? q =
      if q = place then some .directory else if place <+: q then none else fs.kind? q := by
  rcases List.eq_nil_or_concat place with rfl | ⟨front, name, rfl⟩
  · cases q with
    | nil => simp
    | cons first rest => simp [kind?, get?, put, alter, Node.alter, root]
  · rw [List.concat_eq_append] at holds ⊢
    have present : fs.kind? (front ++ name :: []) ≠ none := by simp [holds]
    have inside := kind?_eq_directory_of_append present
    by_cases below : front ++ [name] <+: q
    · obtain ⟨rest, rfl⟩ := below
      have put := get?_put_append (n := .directory []) inside name rest
      cases rest with
      | nil => simp [kind?, get?_put_self inside]
      | cons first rest =>
        rw [if_neg (by simp), if_pos (List.prefix_append _ _), kind?_eq_none]
        simpa using put
    · rw [kind?_put below, if_neg below, if_neg]
      rintro rfl
      exact below (List.prefix_refl _)

/-- **Emptying a directory leaves nothing new.** -/
theorem within_emptied (holds : fs.kind? place = some .directory) :
    (fs.put place (.directory [])).Within fs where
  workPlace := by simp
  kind := by
    intro q k entry
    rw [kind?_emptied holds] at entry
    split at entry
    · rename_i here
      rw [here, holds]
      exact entry
    · split at entry
      · cases entry
      · exact entry

/-- A path names an entry: it leads there if a link at its end is not followed. -/
def Names (fs : FileSystem) (p : Path) (place : Place) : Prop := fs.resolve false p = .ok (.taken place)

theorem Names.kind?_ne_none (names : fs.Names p place) : fs.kind? place ≠ none := by
  obtain ⟨-, start, leads⟩ := resolve_iff.mp names
  exact leads.holds start

theorem nodeItself_eq_ok {place : Place} {n : Node} :
    fs.nodeItself p = .ok (place, n) ↔ fs.Names p place ∧ fs.get? place = some n := by
  unfold nodeItself Names
  cases fs.resolve false p with
  | error fault => simp
  | ok spot =>
    cases spot with
    | vacant directory name => simp
    | taken place' =>
      dsimp only
      cases entry : fs.get? place' with
      | none =>
        simp only [reduceCtorEq, Except.ok.injEq, Spot.taken.injEq, false_iff, not_and]
        rintro rfl entry'
        cases entry.symm.trans entry'
      | some m =>
        simp only [Except.ok.injEq, Prod.mk.injEq, Spot.taken.injEq]
        constructor
        · rintro ⟨rfl, rfl⟩
          exact ⟨rfl, entry⟩
        · rintro ⟨rfl, entry'⟩
          exact ⟨rfl, Option.some.inj (entry.symm.trans entry')⟩

/-- A path that leads to an entry names one. -/
theorem exists_names (found : fs.place p = .ok place) : ∃ itself, fs.Names p itself := by
  obtain ⟨usable, start, leads⟩ := resolve_iff.mp (place_eq_ok.mp found)
  obtain ⟨itself, onward⟩ := leads.exists_itself
  exact ⟨itself, resolve_iff.mpr ⟨usable, start, onward⟩⟩

/-- More entries do not change which entry a path names. -/
theorem Names.within (more : fs.Within fs') (names : fs.Names p place) : fs'.Names p place := by
  obtain ⟨usable, start, leads⟩ := resolve_iff.mp names
  have same : fs'.startOf p = fs.startOf p := by
    unfold startOf
    rw [more.workPlace]
  refine resolve_iff.mpr ⟨usable, ?_, ?_⟩
  · rw [same]
    exact more.kind start
  · rw [same]
    exact leads.within more

theorem Names.unique {other : Place} (names : fs.Names p place) (names' : fs.Names p other) : place = other := by
  cases Except.ok.inj (names.symm.trans names')
  rfl

theorem without_of_names (names : fs.Names p place) (below : place ≠ []) : fs.without p = fs.erase place := by
  unfold without
  rw [show fs.resolve false p = .ok (.taken place) from names]
  exact erase_put below

theorem without_of_names_root (names : fs.Names p []) : fs.without p = fs.put [] (.directory []) := by
  unfold without
  rw [show fs.resolve false p = .ok (.taken []) from names]
  rfl

/-- **Where an entry is removed, its path leads nowhere.** -/
theorem place_erase (names : fs.Names p place) (below : place ≠ []) (q : Place) :
    (fs.erase place).place p ≠ .ok q := by
  intro found
  obtain ⟨itself, onward⟩ := exists_names found
  have same : itself = place := (onward.within (within_erase fs place)).unique names
  rw [same] at onward
  exact onward.kind?_ne_none (kind?_erase_of_isPrefix below (List.prefix_refl _))

/-- Without links a path names the entry at the place that it names. -/
theorem Plain.names_eq (plain : fs.Plain) (names : fs.Names p place) : place = fs.named p := by
  obtain ⟨-, -, leads⟩ := resolve_iff.mp names
  exact leads.place_eq fun station _ => plain station

/-! ## What a removal leaves -/

/-- **What is left by a removal that may have stopped half way:** all that the path does not name, and nothing
new. -/
structure Cleared (fs : FileSystem) (p : Path) (left : FileSystem) : Prop where
  kept : (fs.without p).Within left
  old : left.Within fs
  apart : ∀ {q : Place}, (∀ place, fs.Names p place → ¬ place <+: q) → left.kind? q = fs.kind? q

theorem within_without (fs : FileSystem) (p : Path) : (fs.without p).Within fs := by
  cases led : fs.resolve false p with
  | error fault =>
    unfold without
    rw [led]
    exact Within.refl fs
  | ok spot =>
    cases spot with
    | vacant directory name =>
      unfold without
      rw [led]
      exact Within.refl fs
    | taken place =>
      by_cases root : place = []
      · subst root
        rw [without_of_names_root led]
        exact within_emptied (kind?_nil fs)
      · rw [without_of_names led root]
        exact within_erase fs place

/-- Nothing is removed. -/
theorem cleared_refl (fs : FileSystem) (p : Path) : fs.Cleared p fs :=
  ⟨within_without fs p, Within.refl fs, fun _ => rfl⟩

theorem cleared_erase (names : fs.Names p place) (below : place ≠ []) : fs.Cleared p (fs.erase place) where
  kept := by
    rw [without_of_names names below]
    exact Within.refl _
  old := within_erase fs place
  apart := fun apart => kind?_erase (apart place names)

theorem cleared_emptied (names : fs.Names p place) (holds : fs.kind? place = some .directory) :
    fs.Cleared p (fs.put place (.directory [])) where
  kept := by
    by_cases root : place = []
    · subst root
      rw [without_of_names_root names]
      exact Within.refl _
    · rw [without_of_names names root, ← erase_put root]
      exact within_erase _ _
  old := within_emptied holds
  apart := fun apart => kind?_put (apart place names)

/-- A path that names an entry of an empty root leads to the root. -/
theorem place_root {itself : Place} (names : fs.Names p itself)
    (bare : ∀ first rest, fs.kind? (first :: rest) = none) : fs.place p = .ok [] := by
  have root : itself = [] := by
    cases itself with
    | nil => rfl
    | cons first rest => exact absurd (bare first rest) names.kind?_ne_none
  subst root
  obtain ⟨usable, start, leads⟩ := resolve_iff.mp names
  exact place_eq_ok.mpr (resolve_iff.mpr ⟨usable, start, leads.followed (by simp)⟩)

/-- **A tree that is removed is gone,** and if it is the root it is empty. -/
theorem removeTree_spec (fs : FileSystem) (p : Path) :
    fs.Cleared p (fs.removeTree p).1 ∧
      ((fs.removeTree p).2 = .ok () →
        (∀ place, (fs.removeTree p).1.place p ≠ .ok place) ∨
          (fs.removeTree p).1.place p = .ok [] ∧ (fs.removeTree p).1.LeadsToEmpty p []) := by
  unfold removeTree
  cases itself : fs.nodeItself p with
  | error fault => exact ⟨cleared_refl fs p, nofun⟩
  | ok entry =>
    obtain ⟨place, n⟩ := entry
    obtain ⟨names, entry⟩ := nodeItself_eq_ok.mp itself
    cases n with
    | file content executable => exact ⟨cleared_refl fs p, nofun⟩
    | link target =>
      have below : place ≠ [] := by
        rintro rfl
        have link := kind?_eq_link.mpr entry
        cases (kind?_nil fs).symm.trans link
      exact ⟨cleared_erase names below, fun _ => .inl (place_erase names below)⟩
    | directory entries =>
      have holds : fs.kind? place = some .directory := kind?_eq_directory.mpr ⟨entries, entry⟩
      dsimp only
      split
      · exact ⟨cleared_emptied names holds, nofun⟩
      · split
        · rename_i found
          obtain ⟨again, -⟩ := nodeItself_eq_ok.mp found
          by_cases root : place = []
          · subst root
            have bare : ∀ first rest, (fs.put [] (.directory [])).kind? (first :: rest) = none := by
              intro first rest
              rw [kind?_emptied (kind?_nil fs), if_neg (by simp), if_pos List.nil_prefix]
            have root := place_root again bare
            exact ⟨cleared_emptied names holds, fun _ =>
              .inr ⟨root, root, kind?_nil _, bare⟩⟩
          · rw [erase_put root]
            exact ⟨cleared_erase names root, fun _ => .inl (place_erase names root)⟩
        · rename_i fault unnamed
          refine ⟨cleared_emptied names holds, fun _ => .inl fun q found => ?_⟩
          obtain ⟨itself', names'⟩ := exists_names found
          obtain ⟨n, entry'⟩ := Option.ne_none_iff_exists'.mp fun missing =>
            names'.kind?_ne_none (kind?_eq_none.mpr missing)
          cases unnamed.symm.trans (nodeItself_eq_ok.mpr ⟨names', entry'⟩)

/-- **A file that is removed is gone.** -/
theorem removeFile_spec (removed : fs.removeFile p = .ok fs') :
    fs.Cleared p fs' ∧ ∀ place, fs'.place p ≠ .ok place := by
  unfold removeFile at removed
  split at removed
  · cases removed
  · cases removed
  · rename_i place n notDirectory itself
    obtain ⟨names, entry⟩ := nodeItself_eq_ok.mp itself
    have below : place ≠ [] := by
      rintro rfl
      cases entry
      exact notDirectory fs.entries rfl
    cases removed
    exact ⟨cleared_erase names below, place_erase names below⟩

/-- **Removes whatever a path leads to.** -/
def clear (fs : FileSystem) (p : Path) : FileSystem × Except Fault Unit :=
  if fs.isDirectory p then fs.removeTree p
  else if fs.pathExists p then fs.settle (fs.removeFile p)
  else (fs, .ok ())

/-- Where nothing is, nothing is removed. -/
theorem clear_of_not_pathExists (vacant : fs.pathExists p = false) : fs.clear p = (fs, .ok ()) := by
  unfold clear
  rw [isDirectory_of_not_pathExists vacant, vacant]
  rfl

/-- **Where all is removed that a path leads to, it leads to no directory,** unless it leads to the root. -/
theorem clear_spec (fs : FileSystem) (p : Path) :
    fs.Cleared p (fs.clear p).1 ∧
      ((fs.clear p).2 = .ok () →
        (fs.clear p).1.isDirectory p = false ∨
          (fs.clear p).1.isDirectory p = true ∧ (fs.clear p).1.LeadsToEmpty p []) := by
  have nowhere : ∀ left : FileSystem, (∀ place, left.place p ≠ .ok place) → left.isDirectory p = false :=
    fun left gone => isDirectory_of_not_pathExists (pathExists_eq_false gone)
  unfold clear
  split
  · obtain ⟨cleared, gone⟩ := removeTree_spec fs p
    refine ⟨cleared, fun ended => (gone ended).imp (nowhere _) ?_⟩
    rintro ⟨root, empty⟩
    exact ⟨isDirectory_iff.mpr ⟨[], root, kind?_nil _⟩, empty⟩
  · rename_i notDirectory
    split
    · cases removed : fs.removeFile p with
      | error fault => exact ⟨cleared_refl fs p, nofun⟩
      | ok left =>
        obtain ⟨cleared, gone⟩ := removeFile_spec removed
        exact ⟨cleared, fun _ => .inl (nowhere _ gone)⟩
    · exact ⟨cleared_refl fs p, fun _ => .inl (Bool.eq_false_iff.mpr notDirectory)⟩

end FileSystem

end PyBundle
