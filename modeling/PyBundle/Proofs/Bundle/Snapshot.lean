import PyBundle.Proofs.Bundle.Depth
import PyBundle.Proofs.Bundle.Exact
import PyBundle.Proofs.FileSystem.Trail

/-!
# What the copy of a directory takes

The copy of a directory goes through it while it is written. If what is kept of the directory does not lead to the place
of the copy, then the copy takes only what stood there when it began (`Snapshot`). Otherwise it meets itself.
-/

namespace PyBundle.Bundle

open FileSystem (Adds Passes IsPaved pathLimit)

variable {b : Bundle} {s t u v : Session} {ground fs fs' : FileSystem} {source target : Place} {root : Path}
  {name : String} {names front : List String}

/-! ## Shut directories -/

/-- **A directory is shut against a place:** the place is not in it, or an entry on the way there is left out. -/
def Shut (b : Bundle) (source target : Place) : Prop := ∀ way, target = source ++ way → ¬ b.Keeps [] way

/-! ## Snapshots -/

/-- **A copy of what has stood somewhere:** all at the target is kept and stood at the source, and nothing else has
changed. -/
structure Snapshot (b : Bundle) (ground : FileSystem) (source target : Place) (fs : FileSystem) : Prop where
  workPlace : fs.workPlace = ground.workPlace
  aside : ∀ q, ¬ target <+: q → fs.kind? q = ground.kind? q
  copied : ∀ r k, fs.kind? (target ++ r) = some k → ground.kind? (source ++ r) = some k ∧ b.Keeps [] r

/-- **A directory may be copied:** it is there and shut against the place of the copy, which is a name that nothing has
in the directory of the bundle. -/
structure Ready (b : Bundle) (ground : FileSystem) (root : Path) (name : String) : Prop where
  plain : ground.Plain
  proper : ground.Proper
  paved : ground.IsPaved b.directory
  isName : IsFileName name
  written : root.isEmpty = false
  stands : ground.kind? (ground.named root) = some .directory
  missing : ground.kind? (ground.named b.directory ++ [name]) = none
  shut : b.Shut (ground.named root) (ground.named b.directory ++ [name])

namespace Snapshot

theorem plain (snapshot : Snapshot b ground source target fs) (plain : ground.Plain) : fs.Plain := by
  intro q link entry
  by_cases below : target <+: q
  · obtain ⟨r, rfl⟩ := below
    exact plain _ link (snapshot.copied r _ entry).1
  · rw [snapshot.aside q below] at entry
    exact plain q link entry

/-- The entries of a copy are named as those that it is a copy of. -/
theorem proper {place : Place} (snapshot : Snapshot b ground source (place ++ [name]) fs) (proper : ground.Proper)
    (isName : IsFileName name) : fs.Proper := by
  intro q present
  by_cases below : place ++ [name] <+: q
  · obtain ⟨r, rfl⟩ := below
    obtain ⟨k, entry⟩ := Option.ne_none_iff_exists'.mp present
    have outside : ¬ place ++ [name] <+: place := fun inside => absurd inside.length_le (by simp)
    have around : ground.kind? place = some .directory := by
      rw [List.append_assoc, List.singleton_append] at present
      rw [← snapshot.aside place outside]
      exact FileSystem.kind?_eq_directory_of_append present
    have inside : ground.kind? (source ++ r) ≠ none := by simp [(snapshot.copied r k entry).1]
    refine List.forall_mem_append.mpr ⟨List.forall_mem_append.mpr ⟨proper place (by simp [around]), ?_⟩, ?_⟩
    · exact List.forall_mem_singleton.mpr isName
    · exact fun other mem => proper _ inside other (List.mem_append_right _ mem)
  · rw [snapshot.aside q below] at present
    exact proper q present

end Snapshot

namespace Ready

variable (ready : Ready b ground root name)

include ready

/-- Before anything is copied there is nothing that could not be in the copy. -/
theorem start : Snapshot b ground (ground.named root) (ground.named b.directory ++ [name]) ground where
  workPlace := rfl
  aside _ _ := rfl
  copied r k entry := by cases (FileSystem.kind?_append_eq_none ready.missing r).symm.trans entry

/-- **What is kept of the directory lies outside the copy.** -/
theorem outside (kept : b.Keeps [] names) : ¬ ground.named b.directory ++ [name] <+: ground.named root ++ names := by
  intro inside
  rcases List.prefix_or_prefix_of_prefix inside (List.prefix_append _ names) with around | ⟨way, same⟩
  · obtain ⟨rest, same⟩ := around
    have missing := FileSystem.kind?_append_eq_none ready.missing rest
    rw [same, ready.stands] at missing
    cases missing
  · rw [← same, List.prefix_append_right_inj] at inside
    exact ready.shut way same.symm (kept.of_isPrefix inside)

/-- What is made through a path that goes on from the place of the copy is made in the copy. -/
theorem exists_of_passes {q : Place} {p : Path} (onward : b.directory.GoesOn (name :: names) p)
    (snapshot : Snapshot b ground (ground.named root) (ground.named b.directory ++ [name]) fs)
    (passes : fs.Passes p q) (missing : fs.kind? q = none) :
    ∃ r, r <+: names ∧ q = ground.named b.directory ++ [name] ++ r := by
  obtain ⟨mem, notStart⟩ := (FileSystem.passes_congr snapshot.workPlace).mp passes
  rw [FileSystem.startOf_of_goesOn onward] at notStart
  rcases FileSystem.mem_trail_of_goesOn onward mem with around | ⟨front, some, before, rfl⟩
  · -- Directories stand on the trail of the bundle's directory, and so they did before.
    have stood := ready.paved q around notStart
    by_cases below : ground.named b.directory ++ [name] <+: q
    · obtain ⟨r, rfl⟩ := below
      cases (FileSystem.kind?_append_eq_none ready.missing r).symm.trans stood
    · cases ((snapshot.aside q below).symm.trans missing).symm.trans stood
  · obtain ⟨first, r, rfl⟩ := List.exists_cons_of_ne_nil some
    obtain ⟨rfl, inner⟩ := List.cons_prefix_cons.mp before
    exact ⟨r, inner, by simp⟩

/-- **A directory is made in the copy** that stands in the directory that is copied. -/
theorem keeps_create {p : Path} (onward : b.directory.GoesOn (name :: names) p)
    (directory : ground.kind? (ground.named root ++ names) = some .directory) (kept : b.Keeps [] names) :
    Step.Keeps (Snapshot b ground (ground.named root) (ground.named b.directory ++ [name])) (create p)
      fun _ => True := by
  refine Step.keeps_change fun fs snapshot => ?_
  have adds := (snapshot.plain ready.plain).adds_makeDirectories p
  refine ⟨adds.workPlace.trans snapshot.workPlace, fun q out => ?_, fun r k entry => ?_⟩
  · rcases adds.kinds q with same | ⟨passes, missing, -⟩
    · exact same.trans (snapshot.aside q out)
    · obtain ⟨r, -, rfl⟩ := ready.exists_of_passes onward snapshot passes missing
      exact absurd (List.prefix_append _ r) out
  · rcases adds.kinds (ground.named b.directory ++ [name] ++ r) with same | ⟨passes, missing, made⟩
    · exact snapshot.copied r k (same.symm.trans entry)
    · obtain ⟨r', before, same⟩ := ready.exists_of_passes onward snapshot passes missing
      obtain rfl := List.append_cancel_left same
      cases made.symm.trans entry
      exact ⟨FileSystem.kind?_eq_directory_of_isPrefix directory ((List.prefix_append_right_inj _).mpr before),
        kept.of_isPrefix before⟩

/-- **A file is put into the copy** that stands in the directory that is copied. -/
theorem keeps_copyFile {source p : Path} (origin : root.GoesOn names source)
    (onward : b.directory.GoesOn (name :: names) p) (kept : b.Keeps [] names) :
    Step.Keeps (Snapshot b ground (ground.named root) (ground.named b.directory ++ [name])) (copyFile source p)
      fun _ => True := by
  refine Bundle.keeps_copyFile fun fs fs' snapshot copied => ?_
  obtain ⟨content, executable, read, -, -, workPlace, kinds⟩ := (snapshot.plain ready.plain).copy_eq_ok copied
  have origin_ : fs.named source = ground.named root ++ names := by
    rw [FileSystem.named_congr snapshot.workPlace, FileSystem.named_of_goesOn origin]
  have place : fs.named p = ground.named b.directory ++ [name] ++ names := by
    rw [FileSystem.named_congr snapshot.workPlace, FileSystem.named_of_goesOn onward, List.append_assoc,
      List.singleton_append]
  have outside := ready.outside kept
  have apart : fs.named p ≠ fs.named source := by
    rw [origin_, place]
    exact fun same => outside (same ▸ List.prefix_append _ names)
  rw [if_neg apart, place] at kinds
  rw [origin_, snapshot.aside _ outside] at read
  refine ⟨workPlace.trans snapshot.workPlace, fun q out => ?_, fun r k entry => ?_⟩
  · have elsewhere : q ≠ ground.named b.directory ++ [name] ++ names := by
      rintro rfl
      exact out (List.prefix_append _ names)
    rw [kinds, if_neg elsewhere, snapshot.aside q out]
  · rw [kinds] at entry
    split at entry
    · rename_i same
      obtain rfl := List.append_cancel_left same
      exact ⟨read.trans entry, kept⟩
    · exact snapshot.copied r k entry

/-- The directories around a file are made in the copy, as they stand around the file that is copied. -/
theorem keeps_createParent {p : Path} (onward : b.directory.GoesOn (name :: names) p) (inner : names ≠ [])
    (present : ground.kind? (ground.named root ++ names) ≠ none) (kept : b.Keeps [] names) :
    Step.Keeps (Snapshot b ground (ground.named root) (ground.named b.directory ++ [name])) (createParent p)
      fun _ => True := by
  refine keeps_createParent_of fun parent isParent written => ?_
  rcases List.eq_nil_or_concat names with rfl | ⟨around, last, rfl⟩
  · exact absurd rfl inner
  · rw [List.concat_eq_append] at present kept onward
    rw [← List.append_assoc] at present
    rw [← List.cons_append] at onward
    exact ready.keeps_create (onward.parent? isParent written) (FileSystem.kind?_eq_directory_of_append present)
      (kept.of_isPrefix (List.prefix_append _ _))

/-- **An entry is copied as it stood when the copy began,** or left out. The induction is on the fuel. An entry that is
kept lies outside the copy, so what is listed there stood there. -/
theorem keeps_copyEntry {fuel : Nat} {ancestors : List Path} {path : Path} {n : Node}
    (isNames : ∀ name ∈ names, IsFileName name) (origin : root.GoesOn names path) (noLink : n.isLink = false)
    (top : names = [] → n.isDirectory = true) (around : b.Keeps [] names.dropLast)
    (entry : b.Keeps [] names → ground.kind? (ground.named root ++ names) = some n.kind) :
    Step.Keeps (Snapshot b ground (ground.named root) (ground.named b.directory ++ [name]))
      (b.copyEntry (b.directory.push name) fuel ancestors path (.ofNames names) n) fun _ => True := by
  induction fuel generalizing ancestors path names n with
  | zero => exact Step.keeps_throw
  | succ fuel ih =>
    have onward : b.directory.GoesOn (name :: names) ((b.directory.push name).join (.ofNames names)) :=
      have first := b.directory.goesOn_push ready.isName
      first.trans (Path.goesOn_join_ofNames first.written isNames)
    unfold copyEntry
    refine Step.keeps_files.bind fun fs before => Step.keeps_demand.bind fun isDirectory led => ?_
    unfold leadsToDirectory at led
    rw [noLink] at led
    cases led
    split
    · exact Step.keeps_pure ⟨⟩
    · rename_i notExcluded
      have kept : b.Keeps [] names :=
        keeps_of_dropLast around ((leftOut_eq_false_iff isNames).mp (Bool.eq_false_iff.mpr notExcluded))
      have stood := entry kept
      dsimp only
      split
      · rename_i directory
        rw [Node.isDirectory_iff.mp directory] at stood
        refine (ready.keeps_create onward stood kept).bind fun _ _ => Step.keeps_files.bind fun fs before => ?_
        refine Step.keeps_demand.bind fun entries listed => Step.keeps_forM fun child _ => ?_
        split
        · rename_i m inside
          have plain := before.plain ready.plain
          have isName : IsFileName child := (before.proper ready.proper ready.isName).isFileName listed inside
          have here := FileSystem.kind?_of_lookup (plain.kind?_of_list listed) child []
          rw [FileSystem.named_congr before.workPlace, FileSystem.named_of_goesOn origin, inside] at here
          rw [Path.push_ofNames isNames isName]
          refine ih (Path.forall_isFileName_concat isNames isName) (origin.trans (path.goesOn_push isName))
            (plain.isLink_of_kind? here) (by simp) (by rwa [List.dropLast_concat]) fun kept' => ?_
          rw [← before.aside _ (ready.outside kept'), ← List.append_assoc]
          exact here
        · exact Step.keeps_pure ⟨⟩
      · rename_i file
        have inner : names ≠ [] := fun none => file (top none)
        have present : ground.kind? (ground.named root ++ names) ≠ none := fun missing => by
          cases stood.symm.trans missing
        exact (ready.keeps_createParent onward inner present kept).bind fun _ _ =>
          ready.keeps_copyFile origin onward kept

/-- **A directory is copied as it stood when the copy began.** -/
theorem keeps_copyTree :
    Step.Keeps (Snapshot b ground (ground.named root) (ground.named b.directory ++ [name]))
      (b.copyTree root (b.directory.push name)) fun _ => True := by
  have nothing : b.Keeps [] [] := fun front before some => absurd (List.prefix_nil.mp before) some
  unfold copyTree
  refine Step.keeps_files.bind fun fs before => ?_
  split
  · exact Step.keeps_throw.bind (fun _ (impossible : False) => impossible.elim)
  · refine Step.keeps_demand.bind fun found itself => ?_
    obtain ⟨place, n⟩ := found
    have outside := ready.outside nothing
    rw [List.append_nil] at outside
    have stands : fs.kind? (fs.named root) = some .directory := by
      rw [FileSystem.named_congr before.workPlace, before.aside _ outside, ready.stands]
    obtain ⟨directory, noLink⟩ := isDirectory_of_nodeItself (before.plain ready.plain) stands itself
    have kind : n.kind = .directory := Node.isDirectory_iff.mp directory
    have origin : root.GoesOn [] root := ⟨ready.written, rfl, by simp, nofun⟩
    have whole : Step.Keeps (Snapshot b ground (ground.named root) (ground.named b.directory ++ [name]))
        (b.copyEntry (b.directory.push name) pathLimit [] root (.ofNames []) n) fun _ => True :=
      ready.keeps_copyEntry nofun origin noLink (fun _ => directory) nothing fun _ => by
        rw [List.append_nil, ready.stands, kind]
    exact whole.bind fun _ _ => Step.keeps_note

end Ready

end PyBundle.Bundle
