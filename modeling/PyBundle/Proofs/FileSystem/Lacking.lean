import Mathlib.Data.Nat.Init
import PyBundle.Proofs.FileSystem.Plain
import PyBundle.Proofs.FileSystem.Removal

/-!
# File systems without some entries

`FileSystem.Lacks` says that one file system is another one without some entries and all that is below them. Besides
the kinds of entries it tells the names in each directory, in their order, because a directory is gone through as it
is listed. The two stay so where both are changed in the same way apart from the entries that the one lacks, and where
such an entry goes in the other one, too.
-/

namespace PyBundle

namespace Node

variable {name : String} {entries : Entries} {n? : Option Node} {place q : Place} {change : Option Node → Option Node}

/-- The names in an entry. Only a directory has some. -/
def entryNames : Node → List String
  | directory entries => namesOf entries
  | _ => []

/-- Names that are left out are left out before or after those that are told twice. -/
theorem eraseDups_filter (keep : String → Bool) (names : List String) :
    (names.filter keep).eraseDups = names.eraseDups.filter keep := by
  induction length : names.length using Nat.strong_induction_on generalizing names with
  | _ n ih =>
    cases names with
    | nil => rfl
    | cons name rest =>
      have shorter : (rest.filter fun other => !other == name).length < n := by
        rw [← length]
        exact Nat.lt_succ_of_le (List.length_filter_le _ _)
      have others := ih _ shorter (rest.filter fun other => !other == name) rfl
      rw [List.eraseDups_cons]
      by_cases kept : keep name = true
      · rw [List.filter_cons_of_pos kept, List.filter_cons_of_pos kept, List.eraseDups_cons, ← others,
          List.filter_comm]
      · rw [List.filter_cons_of_neg kept, List.filter_cons_of_neg kept, ← others, List.filter_filter]
        congr 1
        refine List.filter_congr fun other _ => ?_
        by_cases same : other = name
        · simp [same, kept]
        · simp [same]

theorem namesOf_filter (name : String) (entries : Entries) :
    namesOf (entries.filter (·.1 != name)) = (namesOf entries).filter (· != name) := by
  unfold namesOf
  rw [← eraseDups_filter, List.filter_map]
  rfl

/-- A name of an entry that is changed stays where it is, and a new one comes last. -/
theorem namesOf_setEntry_some (name : String) (n : Node) (entries : Entries) :
    namesOf (setEntry name (some n) entries) =
      if name ∈ namesOf entries then namesOf entries else namesOf entries ++ [name] := by
  unfold setEntry
  dsimp only
  by_cases present : (entries.lookup name).isSome
  · rw [if_pos present, if_pos (mem_namesOf.mpr present)]
    unfold namesOf
    rw [List.map_map]
    congr 1
    refine List.map_congr_left fun entry _ => ?_
    by_cases same : entry.1 = name <;> simp [same]
  · have missing : name ∉ namesOf entries := fun mem => present (mem_namesOf.mp mem)
    rw [if_neg present, if_neg missing]
    unfold namesOf at missing ⊢
    rw [List.mem_eraseDups] at missing
    rw [List.map_append, List.eraseDups_append]
    simp [List.removeAll, missing, List.eraseDups_cons]

theorem namesOf_setEntry_none (name : String) (entries : Entries) :
    namesOf (setEntry name none entries) = (namesOf entries).filter (· != name) := namesOf_filter name entries

/-- A change of an entry that is there before and after keeps the names, and so does one that is not. -/
theorem namesOf_setEntry_of_isSome {n? : Option Node} (same : n?.isSome = (entries.lookup name).isSome) :
    namesOf (setEntry name n? entries) = namesOf entries := by
  cases n? with
  | some n => rw [namesOf_setEntry_some, if_pos (mem_namesOf.mpr same.symm)]
  | none =>
    rw [namesOf_setEntry_none, List.filter_eq_self]
    rintro other mem
    refine bne_iff_ne.mpr ?_
    rintro rfl
    cases same.trans (mem_namesOf.mp mem)

/-- A change below an entry keeps the entry. -/
theorem isSome_alter_cons (first : String) (rest : Place) :
    (alter change n? (first :: rest)).isSome = n?.isSome := by
  match n? with
  | none => rfl
  | some (file ..) => rfl
  | some (link _) => rfl
  | some (directory _) => rfl

/-- **A change at a place keeps the names in all entries** that are not at or below it, except for the one that it is
in. -/
theorem entryNames_at?_alter (apart : ¬ place <+: q) (notAround : q ≠ place.dropLast) :
    (at? (alter change n? place) q).map entryNames = (at? n? q).map entryNames := by
  induction place generalizing n? q with
  | nil => exact absurd List.nil_prefix apart
  | cons name rest ih =>
    match n? with
    | none => rfl
    | some (file ..) => rfl
    | some (link _) => rfl
    | some (directory entries) =>
      obtain ⟨next, rest, rfl⟩ | rfl : (∃ next rest', rest = next :: rest') ∨ rest = [] := by
        cases rest <;> simp
      · cases q with
        | nil =>
          have names : namesOf (setEntry name (alter change (entries.lookup name) (next :: rest)) entries) =
              namesOf entries := namesOf_setEntry_of_isSome (isSome_alter_cons next rest)
          simpa [alter, entryNames] using names
        | cons other q =>
          rw [at?_alter_cons]
          split
          · rename_i same
            subst same
            have inside : ¬ next :: rest <+: q := fun before => apart (List.cons_prefix_cons.mpr ⟨rfl, before⟩)
            have notAround' : q ≠ (next :: rest).dropLast := by
              rintro rfl
              exact notAround rfl
            rw [ih inside notAround']
            simp [at?]
          · rfl
      · cases q with
        | nil => exact absurd rfl notAround
        | cons other q =>
          rw [at?_alter_cons, if_neg]
          rintro rfl
          exact apart (List.cons_prefix_cons.mpr ⟨rfl, List.nil_prefix⟩)

/-- **A change at a place sets an entry in the directory that it is in.** -/
theorem at?_alter_around {front : Place} (inside : at? n? front = some (directory entries)) :
    at? (alter change n? (front ++ [name])) front =
      some (directory (setEntry name (change (entries.lookup name)) entries)) := by
  induction front generalizing n? with
  | nil =>
    rw [at?_nil] at inside
    subst inside
    simp [alter]
  | cons first front ih =>
    cases n? with
    | none => cases inside
    | some n =>
      cases n with
      | file => cases inside
      | link => cases inside
      | directory outer =>
        rw [List.cons_append, at?_alter_cons, if_pos rfl]
        refine ih ?_
        simpa [at?] using inside

end Node

namespace FileSystem

variable {fs fs' : FileSystem} {front place q : Place} {name : String} {n : Node} {gone : Place → Bool}
  {change : Option Node → Option Node} {entries : Entries}

/-! ## Names in a directory -/

/-- **The names in the directory at a place,** in their order. -/
def names (fs : FileSystem) (place : Place) : List String := ((fs.get? place).map Node.entryNames).getD []

theorem names_eq_namesOf (directory : fs.get? place = some (.directory entries)) :
    fs.names place = Node.namesOf entries := by
  unfold names
  rw [directory]
  rfl

/-- What is no directory has no names in it. -/
theorem names_of_ne_directory (no : fs.kind? place ≠ some .directory) : fs.names place = [] := by
  unfold names
  cases entry : fs.get? place with
  | none => rfl
  | some n =>
    cases n with
    | file => rfl
    | link => rfl
    | directory entries => exact absurd (kind?_eq_directory.mpr ⟨entries, entry⟩) no

theorem mem_names : name ∈ fs.names place ↔ fs.kind? (place ++ [name]) ≠ none := by
  by_cases directory : fs.kind? place = some .directory
  · obtain ⟨entries, entry⟩ := kind?_eq_directory.mp directory
    rw [names_eq_namesOf entry, mem_namesOf_iff entry]
  · rw [names_of_ne_directory directory, kind?_append_eq_none_of_ne directory (List.cons_ne_nil name [])]
    simp

/-- A directory has no names in it if nothing is there. -/
theorem names_eq_nil (bare : ∀ name, fs.kind? (place ++ [name]) = none) : fs.names place = [] :=
  List.eq_nil_iff_forall_not_mem.mpr fun name mem => mem_names.mp mem (bare name)

theorem names_alter (apart : ¬ place <+: q) (notAround : q ≠ place.dropLast) :
    (fs.alter place change).names q = fs.names q := by
  have below : place ≠ [] := by
    rintro rfl
    exact apart List.nil_prefix
  unfold names
  rw [get?_eq_at?, root_alter below, Node.entryNames_at?_alter apart notAround]
  rfl

theorem get?_alter_around (inside : fs.get? front = some (.directory entries)) :
    (fs.alter (front ++ [name]) change).get? front =
      some (.directory (Node.setEntry name (change (entries.lookup name)) entries)) := by
  rw [get?_eq_at?, root_alter (List.concat_ne_nil _ _)]
  exact Node.at?_alter_around inside

/-- The names in a directory when something is put there. -/
theorem names_put_around (directory : fs.kind? front = some .directory) :
    (fs.put (front ++ [name]) n).names front =
      if name ∈ fs.names front then fs.names front else fs.names front ++ [name] := by
  obtain ⟨entries, inside⟩ := kind?_eq_directory.mp directory
  rw [put, names_eq_namesOf inside, names_eq_namesOf (get?_alter_around inside), Node.namesOf_setEntry_some]

/-- **The names when an entry that holds nothing is put at a place where nothing is below.** -/
theorem names_put_leaf (directory : fs.kind? front = some .directory)
    (bare : fs.kind? (front ++ [name]) ≠ some .directory) (leaf : ∀ first rest, n.get? (first :: rest) = none) :
    (fs.put (front ++ [name]) n).names q =
      if q = front then if name ∈ fs.names front then fs.names front else fs.names front ++ [name]
      else fs.names q := by
  by_cases around : q = front
  · rw [if_pos around, around, names_put_around directory]
  · rw [if_neg around]
    by_cases below : front ++ [name] <+: q
    · have nothing : ∀ other, fs.kind? (q ++ [other]) = none := by
        obtain ⟨rest, rfl⟩ := below
        intro other
        rw [List.append_assoc]
        exact kind?_append_eq_none_of_ne bare (List.concat_ne_nil _ _)
      rw [names_eq_nil nothing]
      refine names_eq_nil fun other => ?_
      rw [kind?_put_leaf directory bare leaf, if_neg, nothing]
      intro here
      have longer := congrArg List.length here
      have shorter := below.length_le
      simp only [List.length_append, List.length_singleton] at longer shorter
      omega
    · exact names_alter below (by rwa [List.dropLast_concat])

/-- **The names when an entry is removed.** -/
theorem names_erase : (fs.erase (front ++ [name])).names q =
    if front ++ [name] <+: q then [] else if q = front then (fs.names front).filter (· != name) else fs.names q := by
  by_cases below : front ++ [name] <+: q
  · rw [if_pos below]
    refine names_eq_nil fun other => ?_
    exact kind?_erase_of_isPrefix (List.concat_ne_nil _ _) (below.trans (List.prefix_append _ _))
  · rw [if_neg below]
    by_cases around : q = front
    · rw [if_pos around, around]
      by_cases directory : fs.kind? front = some .directory
      · obtain ⟨entries, inside⟩ := kind?_eq_directory.mp directory
        rw [erase, names_eq_namesOf inside, names_eq_namesOf (get?_alter_around inside),
          Node.namesOf_setEntry_none]
      · have still : (fs.erase (front ++ [name])).kind? front ≠ some .directory := by
          rwa [kind?_erase (around ▸ below)]
        rw [names_of_ne_directory directory, names_of_ne_directory still, List.filter_nil]
    · rw [if_neg around]
      exact names_alter below (by rwa [List.dropLast_concat])

/-- The names when a directory is emptied. -/
theorem names_emptied (holds : fs.kind? place = some .directory) :
    (fs.put place (.directory [])).names q = if place <+: q then [] else fs.names q := by
  by_cases below : place <+: q
  · rw [if_pos below]
    refine names_eq_nil fun other => ?_
    rw [kind?_emptied holds, if_neg, if_pos (below.trans (List.prefix_append _ _))]
    intro here
    have longer := congrArg List.length here
    have shorter := below.length_le
    simp only [List.length_append, List.length_singleton] at longer
    omega
  · rw [if_neg below]
    by_cases around : q = place.dropLast
    · rcases List.eq_nil_or_concat place with rfl | ⟨front, name, rfl⟩
      · exact absurd List.nil_prefix below
      · rw [List.concat_eq_append] at holds around ⊢
        rw [List.dropLast_concat] at around
        subst around
        have present : fs.kind? (q ++ name :: []) ≠ none := by simp [holds]
        rw [names_put_around (kind?_eq_directory_of_append present), if_pos (mem_names.mpr present)]
    · exact names_alter below around

/-! ## Without some entries -/

/-- **A place is spared** if neither the entry there is gone nor one on the way to it. -/
def Spared (gone : Place → Bool) (place : Place) : Prop := ∀ q, q <+: place → gone q = false

theorem Spared.of_isPrefix (spared : Spared gone place) (before : q <+: place) : Spared gone q := fun _ inner =>
  spared _ (inner.trans before)

theorem Spared.not_gone (spared : Spared gone place) : gone place = false := spared place (List.prefix_refl _)

theorem spared_concat : Spared gone (front ++ [name]) ↔ Spared gone front ∧ gone (front ++ [name]) = false := by
  constructor
  · exact fun spared => ⟨spared.of_isPrefix (List.prefix_append _ _), spared.not_gone⟩
  · rintro ⟨spared, last⟩ q before
    rcases List.prefix_concat_iff.mp before with rfl | inside
    · exact last
    · exact spared q inside

/-- What is below a place that is spared is spared if nothing there is gone. -/
theorem Spared.below (spared : Spared gone place) (bare : ∀ name rest, gone (place ++ name :: rest) = false)
    (below : place <+: q) : Spared gone q := by
  intro q' before
  rcases List.prefix_or_prefix_of_prefix before below with outer | ⟨rest, rfl⟩
  · exact spared q' outer
  · cases rest with
    | nil => simpa using spared.not_gone
    | cons name rest => exact bare name rest

/-- **A file system lacks entries of another one** with all that is below them, and nothing else is different. -/
structure Lacks (fs : FileSystem) (gone : Place → Bool) (fs' : FileSystem) : Prop where
  workPlace : fs'.workPlace = fs.workPlace
  kept : ∀ {q : Place}, Spared gone q → fs'.kind? q = fs.kind? q
  dropped : ∀ {q : Place}, ¬ Spared gone q → fs'.kind? q = none
  told : ∀ {q : Place}, Spared gone q → fs'.names q = (fs.names q).filter fun name => !gone (q ++ [name])

/-- There are no more entries where some are lacking. -/
theorem Lacks.within (lacks : fs.Lacks gone fs') : fs'.Within fs where
  workPlace := lacks.workPlace.symm
  kind := by
    intro q k entry
    by_cases spared : Spared gone q
    · rw [← lacks.kept spared, entry]
    · cases (lacks.dropped spared).symm.trans entry

/-- **Where an entry is removed, it is lacking.** -/
theorem lacks_erase (fs : FileSystem) (below : place ≠ []) :
    fs.Lacks (fun q => decide (q = place)) (fs.erase place) := by
  have spared : ∀ {q}, Spared (fun q => decide (q = place)) q ↔ ¬ place <+: q := by
    intro q
    constructor
    · exact fun spared before => absurd (spared place before) (by simp)
    · intro apart q' before
      refine decide_eq_false fun here => ?_
      exact apart (here ▸ before)
  obtain ⟨front, name, rfl⟩ : ∃ front name, place = front ++ [name] := by
    rcases List.eq_nil_or_concat place with nil | ⟨front, name, split⟩
    · exact absurd nil below
    · exact ⟨front, name, split.trans List.concat_eq_append⟩
  refine ⟨workPlace_erase .., fun kept => kind?_erase (spared.mp kept), fun dropped => ?_, fun {q} kept => ?_⟩
  · exact kind?_erase_of_isPrefix below (Classical.not_not.mp fun apart => dropped (spared.mpr apart))
  · rw [names_erase, if_neg (spared.mp kept)]
    split
    · rename_i around
      subst around
      refine List.filter_congr fun other _ => ?_
      by_cases same : other = name <;> simp [same]
    · rename_i notAround
      refine (List.filter_eq_self.mpr fun other _ => ?_).symm
      refine Bool.not_eq_true' _ ▸ decide_eq_false fun here => notAround ?_
      exact (List.append_inj' here rfl).1

/-- The entries of a file system that are gone. -/
def among (fs : FileSystem) (gone : Place → Bool) (place : Place) : Bool := gone place && (fs.kind? place).isSome

/-- **What is not there is not lacking.** -/
theorem Lacks.among (lacks : fs.Lacks gone fs') : fs.Lacks (fs.among gone) fs' := by
  have fewer : ∀ {q}, Spared gone q → Spared (fs.among gone) q := fun spared q before => by
    unfold FileSystem.among
    rw [spared q before, Bool.false_and]
  -- What is spared now, but was not before, is not there.
  have missing : ∀ {q}, Spared (fs.among gone) q → ¬ Spared gone q → fs.kind? q = none := by
    intro q spared notBefore
    obtain ⟨front, before, isGone⟩ : ∃ front, front <+: q ∧ gone front = true := by
      unfold Spared at notBefore
      simpa using notBefore
    have absent := spared front before
    unfold FileSystem.among at absent
    rw [isGone, Bool.true_and, Option.isSome_eq_false_iff, Option.isNone_iff_eq_none] at absent
    obtain ⟨rest, rfl⟩ := before
    exact kind?_append_eq_none absent rest
  refine ⟨lacks.workPlace, fun {q} spared => ?_, fun {q} dropped => ?_, fun {q} spared => ?_⟩
  · by_cases before : Spared gone q
    · exact lacks.kept before
    · rw [lacks.dropped before, missing spared before]
  · exact lacks.dropped fun before => dropped (fewer before)
  · by_cases before : Spared gone q
    · rw [lacks.told before]
      refine List.filter_congr fun name mem => ?_
      unfold FileSystem.among
      rw [Option.isSome_iff_ne_none.mpr (mem_names.mp mem), Bool.and_true]
    · have none : fs.names q = [] := names_of_ne_directory (by simp [missing spared before])
      have none' : fs'.names q = [] := names_of_ne_directory (by simp [lacks.dropped before])
      rw [none, none', List.filter_nil]

/-- What is gone of fewer entries is gone of more. -/
theorem Within.among_among (fewer : fs'.Within fs) : fs'.among (fs.among gone) = fs'.among gone := by
  funext place
  unfold FileSystem.among
  cases entry : fs'.kind? place with
  | none => simp
  | some k => simp [fewer.kind entry]

/-! ## Changes in both -/

variable (lacks : fs.Lacks gone fs')

include lacks

/-- **An entry that holds nothing is put into both.** -/
theorem Lacks.put (spared : Spared gone (front ++ [name])) (directory : fs.kind? front = some .directory)
    (bare : fs.kind? (front ++ [name]) ≠ some .directory) (leaf : ∀ first rest, n.get? (first :: rest) = none) :
    (fs.put (front ++ [name]) n).Lacks gone (fs'.put (front ++ [name]) n) := by
  obtain ⟨around, last⟩ := spared_concat.mp spared
  have directory' : fs'.kind? front = some .directory := (lacks.kept around).trans directory
  have bare' : fs'.kind? (front ++ [name]) ≠ some .directory := by rwa [lacks.kept spared]
  refine ⟨?_, fun {q} kept => ?_, fun {q} dropped => ?_, fun {q} kept => ?_⟩
  · simp [lacks.workPlace]
  · rw [kind?_put_leaf directory bare leaf, kind?_put_leaf directory' bare' leaf, lacks.kept kept]
  · rw [kind?_put_leaf directory' bare' leaf, if_neg, lacks.dropped dropped]
    rintro rfl
    exact dropped spared
  · rw [names_put_leaf directory bare leaf, names_put_leaf directory' bare' leaf]
    split
    · rename_i here
      subst here
      have same : name ∈ fs'.names q ↔ name ∈ fs.names q := by rw [mem_names, mem_names, lacks.kept spared]
      rw [lacks.told around]
      rw [lacks.told around] at same
      by_cases present : name ∈ fs.names q
      · rw [if_pos present, if_pos (same.mpr present)]
      · rw [if_neg present, if_neg fun mem => present (same.mp mem), List.filter_append,
          List.filter_cons_of_pos (by simp [last]), List.filter_nil]
    · exact lacks.told kept

/-- **An entry that is spared is removed from both.** -/
theorem Lacks.erase (spared : Spared gone place) : (fs.erase place).Lacks gone (fs'.erase place) := by
  rcases List.eq_nil_or_concat place with rfl | ⟨front, name, rfl⟩
  · rwa [erase_nil, erase_nil]
  · rw [List.concat_eq_append] at spared ⊢
    obtain ⟨around, last⟩ := spared_concat.mp spared
    refine ⟨by simp [lacks.workPlace], fun {q} kept => ?_, fun {q} dropped => ?_, fun {q} kept => ?_⟩
    · by_cases below : front ++ [name] <+: q
      · rw [kind?_erase_of_isPrefix (List.concat_ne_nil _ _) below,
          kind?_erase_of_isPrefix (List.concat_ne_nil _ _) below]
      · rw [kind?_erase below, kind?_erase below, lacks.kept kept]
    · cases entry : (fs'.erase (front ++ [name])).kind? q with
      | none => rfl
      | some k => cases (lacks.dropped dropped).symm.trans ((within_erase fs' _).kind entry)
    · rw [names_erase, names_erase]
      split
      · rfl
      · split
        · rw [lacks.told around, List.filter_comm]
          rename_i here
          rw [here]
        · exact lacks.told kept

/-- **A directory that is spared is emptied in both.** -/
theorem Lacks.empty (spared : Spared gone place) (holds : fs.kind? place = some .directory) :
    (fs.put place (.directory [])).Lacks gone (fs'.put place (.directory [])) := by
  have holds' : fs'.kind? place = some .directory := (lacks.kept spared).trans holds
  refine ⟨by simp [lacks.workPlace], fun {q} kept => ?_, fun {q} dropped => ?_, fun {q} kept => ?_⟩
  · rw [kind?_emptied holds, kind?_emptied holds', lacks.kept kept]
  · cases entry : (fs'.put place (.directory [])).kind? q with
    | none => rfl
    | some k => cases (lacks.dropped dropped).symm.trans ((within_emptied holds').kind entry)
  · rw [names_emptied holds, names_emptied holds']
    split
    · rfl
    · exact lacks.told kept

/-- **An entry that is not spared is removed** from the file system that has it. -/
theorem Lacks.erase_left (notSpared : ¬ Spared gone place) : (fs.erase place).Lacks gone fs' := by
  rcases List.eq_nil_or_concat place with rfl | ⟨front, name, rfl⟩
  · rwa [erase_nil]
  · rw [List.concat_eq_append] at notSpared ⊢
    have apart : ∀ {q}, Spared gone q → ¬ front ++ [name] <+: q := fun kept below =>
      notSpared (kept.of_isPrefix below)
    refine ⟨by simp [lacks.workPlace], fun kept => ?_, fun dropped => lacks.dropped dropped, fun {q} kept => ?_⟩
    · rw [kind?_erase (apart kept), lacks.kept kept]
    · rw [names_erase, if_neg (apart kept), lacks.told kept]
      split
      · rename_i around
        subst around
        have last : gone (q ++ [name]) = true := by
          refine Bool.not_eq_false _ ▸ fun last => notSpared ?_
          exact spared_concat.mpr ⟨kept, last⟩
        rw [List.filter_filter]
        refine List.filter_congr fun other _ => ?_
        by_cases same : other = name
        · simp [same, last]
        · simp [same]
      · rfl

end FileSystem

end PyBundle
