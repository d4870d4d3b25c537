import PyBundle.Bundle.Config
import PyBundle.Proofs.Path.Parent

/-!
# Search roots

The search roots of a configuration are absolute, no two of them say the same, and the first one is the
directory of the entry.
-/

namespace PyBundle

namespace Path

variable {p q directory : Path}

theorem isAbsolute_foldl_push (steps : List Component) (absolute : p.isAbsolute = true) :
    (steps.foldl (fun made c => made.push c.text) p).isAbsolute = true := by
  induction steps generalizing p with
  | nil => exact absolute
  | cons c steps ih => exact ih (isAbsolute_join absolute)

/-- **An absolute form is absolute.** -/
theorem isAbsolute_of_absolute? (start : directory.isAbsolute = true)
    (made : p.absolute? directory = some q) : q.isAbsolute = true := by
  unfold absolute? at made
  split at made
  · cases made
  · extract_lets steps doubled written at made
    have absolute : written.isAbsolute = true := by
      unfold written
      split
      · exact isAbsolute_foldl_push _ (by decide)
      · split
        · rename_i fromRoot
          have lead : p.lead = [.root] := isAbsolute_iff_lead.mp fromRoot
          have rootFirst : steps = .root :: p.steps.filter (· != .here) := by
            unfold steps
            rw [components_eq, lead]
            rfl
          rw [rootFirst, ofComponents, List.foldl_cons]
          exact isAbsolute_foldl_push _ (by decide)
        · exact isAbsolute_foldl_push _ start
    cases made
    split
    · exact isAbsolute_join absolute
    · exact absolute

/-- The parent of an absolute path is absolute. -/
theorem isAbsolute_of_parent? (absolute : p.isAbsolute = true) (parent : p.parent? = some q) :
    q.isAbsolute = true := by
  unfold parent? at parent
  split at parent
  · cases parent
  · rw [absolute] at parent
    dsimp only at parent
    split at parent
    · cases parent
      unfold isAbsolute
      rw [if_pos rfl, String.toList_append]
      rfl
    · cases parent

end Path

namespace FileSystem

variable {fs : FileSystem} {p q : Path}

theorem isAbsolute_workPath (fs : FileSystem) : fs.workPath.isAbsolute = true := by
  unfold workPath Path.isAbsolute
  rw [String.toList_append]
  rfl

theorem isAbsolute_of_absolute (made : fs.absolute p = .ok q) : q.isAbsolute = true := by
  unfold absolute at made
  split at made
  · rename_i made'
    cases made
    exact Path.isAbsolute_of_absolute? fs.isAbsolute_workPath made'
  · cases made

end FileSystem

/-! ## Paths without repeats -/

/-- What `distinctPaths` keeps, when some paths are kept already. -/
theorem distinctPaths_spec (paths kept : List Path)
    (distinct : kept.Pairwise fun p q => p.sameAs q = false) :
    ∃ more, paths.foldl (fun kept p => if kept.any p.sameAs then kept else kept ++ [p]) kept = kept ++ more ∧
      (∀ p ∈ more, p ∈ paths) ∧ (kept ++ more).Pairwise fun p q => p.sameAs q = false := by
  induction paths generalizing kept with
  | nil => exact ⟨[], (List.append_nil _).symm, nofun, by rwa [List.append_nil]⟩
  | cons p paths ih =>
    rw [List.foldl_cons]
    split
    · obtain ⟨more, folded, from_, distinct'⟩ := ih kept distinct
      exact ⟨more, folded, fun q mem => List.mem_cons_of_mem _ (from_ q mem), distinct'⟩
    · rename_i new
      have next : (kept ++ [p]).Pairwise fun p q => p.sameAs q = false := by
        refine List.pairwise_append.mpr ⟨distinct, List.pairwise_singleton _ _, fun q mem r single => ?_⟩
        cases List.mem_singleton.mp single
        rw [Path.sameAs_comm]
        exact Bool.eq_false_iff.mpr fun same => new (List.any_eq_true.mpr ⟨q, mem, same⟩)
      obtain ⟨more, folded, from_, distinct'⟩ := ih (kept ++ [p]) next
      refine ⟨p :: more, by rw [folded, List.append_assoc, List.singleton_append], ?_, ?_⟩
      · intro q mem
        rcases List.mem_cons.mp mem with rfl | mem
        · exact List.mem_cons_self
        · exact List.mem_cons_of_mem _ (from_ q mem)
      · rwa [List.append_assoc, List.singleton_append] at distinct'

namespace Config

variable {c : Config} {fs : FileSystem} {p q : Path} {roots : List Path} {entry : Path}

theorem absolute_eq_ok (made : Config.absolute fs p = .ok q) : fs.absolute p = .ok q := by
  unfold Config.absolute at made
  cases found : fs.absolute p with
  | error fault =>
    rw [found] at made
    cases made
  | ok r =>
    rw [found] at made
    cases made
    rfl

theorem isAbsolute_of_absolute (made : Config.absolute fs p = .ok q) : q.isAbsolute = true :=
  FileSystem.isAbsolute_of_absolute (absolute_eq_ok made)

/-- Paths that are made absolute one by one. -/
theorem isAbsolute_of_mapM {paths made : List Path} (run : paths.mapM (Config.absolute fs) = .ok made) :
    ∀ q ∈ made, q.isAbsolute = true := by
  induction paths generalizing made with
  | nil =>
    cases run
    exact nofun
  | cons p paths ih =>
    rw [List.mapM_cons] at run
    cases first : Config.absolute fs p with
    | error e =>
      rw [first] at run
      cases run
    | ok q =>
      cases rest : paths.mapM (Config.absolute fs) with
      | error e =>
        rw [first, rest] at run
        cases run
      | ok made' =>
        rw [first, rest] at run
        cases run
        exact List.forall_mem_cons.mpr ⟨isAbsolute_of_absolute first, ih rest⟩

/-- **The search roots** are the directory of the entry and other absolute paths, without repeats. -/
theorem searchRoots_spec (found : c.searchRoots fs = .ok roots)
    (located : Config.absolute fs c.entryFile = .ok entry) :
    (∀ root ∈ roots, root.isAbsolute = true) ∧ roots.Pairwise (fun p q => p.sameAs q = false) ∧
      ∃ others, roots = entry.parent?.getD ⟨"/"⟩ :: others := by
  unfold searchRoots at found
  rw [located] at found
  cases search : c.searchPaths.mapM (Config.absolute fs) with
  | error e =>
    rw [search] at found
    cases found
  | ok paths =>
    rw [search] at found
    have made : roots = distinctPaths (entry.parent?.getD ⟨"/"⟩ :: paths) := (Except.ok.inj found).symm
    have first : (entry.parent?.getD ⟨"/"⟩).isAbsolute = true := by
      cases parent : entry.parent? with
      | none => rfl
      | some directory => exact Path.isAbsolute_of_parent? (isAbsolute_of_absolute located) parent
    obtain ⟨others, folded, from_, distinct⟩ :=
      distinctPaths_spec paths [entry.parent?.getD ⟨"/"⟩] (List.pairwise_singleton _ _)
    have split : roots = entry.parent?.getD ⟨"/"⟩ :: others := by
      rw [made]
      exact folded
    refine ⟨?_, split ▸ distinct, others, split⟩
    rw [split]
    exact List.forall_mem_cons.mpr ⟨first, fun root mem => isAbsolute_of_mapM search root (from_ root mem)⟩

end Config

end PyBundle
