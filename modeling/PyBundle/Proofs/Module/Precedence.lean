import Mathlib.Data.List.Pairwise
import PyBundle.Proofs.FileSystem.File
import PyBundle.Proofs.Path.Written
import PyBundle.Proofs.Text.Size

/-!
# Which of several files a name leads to

A name is looked up in the roots in order, and in each root as a package first, so what is found is the least of the
pairs of a root and a form that have a file (`locate_iff`). Roots behind the others only add to what is found. Roots
that are repeated add nothing, with one exception: a path that is too long leads nowhere, and a root may be written
longer than its repetition (`IsLost`). The path of a name tells the name and the form, but for a package and the module
`__init__` in it.
-/

namespace PyBundle

namespace Path

variable {p q r : Path}

/-! ## Roots that say the same -/

/-- A path says nothing if and only if nothing is written. -/
theorem components_eq_nil_iff : p.components = [] ↔ p.isEmpty = true := by
  constructor
  · intro none
    rw [components_eq, List.append_eq_nil_iff] at none
    obtain ⟨lead, steps⟩ := none
    have relative : p.isAbsolute = false := Bool.eq_false_iff.mpr fun absolute => by
      cases lead.symm.trans (isAbsolute_iff_lead.mp absolute)
    obtain ⟨first, rest, split⟩ := List.exists_cons_of_ne_nil p.pieces_ne_nil
    have blank : Component.ofPiece? first = none :=
      List.filterMap_eq_nil_iff.mp steps first (split ▸ List.mem_cons_self)
    have notHere : first ≠ ['.'] := by
      rintro rfl
      unfold Path.lead at lead
      rw [relative, split] at lead
      cases lead
    have firstBlank : first = [] := by
      unfold Component.ofPiece? at blank
      split at blank
      · rfl
      · exact absurd rfl notHere
      · cases blank
      · cases blank
    subst firstBlank
    have single : rest = [] := Decidable.byContradiction fun more => by
      cases relative.symm.trans (isAbsolute_of_pieces split more)
    have text : p.text.toList = [] := by rw [← p.intercalate_pieces, split, single, List.intercalate_singleton]
    exact beq_iff_eq.mpr (String.toList_eq_nil_iff.mp text)
  · intro empty
    have same : p = ⟨""⟩ := congrArg Path.mk (eq_of_beq empty)
    rw [same]
    decide

theorem isEmpty_eq_of_sameAs (same : p.sameAs q = true) : p.isEmpty = q.isEmpty := by
  rw [Bool.eq_iff_iff, ← components_eq_nil_iff, ← components_eq_nil_iff, show p.components = q.components from
    eq_of_beq same]

/-- **What is joined to paths that say the same** says the same. -/
theorem join_sameAs_join_left (same : p.sameAs q = true) (r : Path) : (p.join r).sameAs (q.join r) = true := by
  cases relative : r.isAbsolute with
  | true =>
    rw [join_of_isAbsolute relative, join_of_isAbsolute relative]
    exact sameAs_refl r
  | false =>
    have empty := isEmpty_eq_of_sameAs same
    cases written : p.isEmpty with
    | true =>
      rw [join_of_isEmpty written, join_of_isEmpty (empty ▸ written)]
      exact sameAs_refl r
    | false =>
      have written' : q.isEmpty = false := empty ▸ written
      obtain ⟨leads, steps⟩ := sameAs_iff.mp same
      refine sameAs_iff.mpr ⟨?_, ?_⟩
      · rw [lead_join_of_written written relative, lead_join_of_written written' relative, leads]
      · rw [steps_join written relative, steps_join written' relative, steps]

/-- What a path puts before a relative path that is joined to it. -/
def front (p : Path) : String := if p.isEmpty || p.endsWithSlash then p.text else p.text ++ "/"

theorem text_join (p : Path) (relative : r.isAbsolute = false) : (p.join r).text = p.front ++ r.text := by
  unfold join front
  rw [relative, Bool.false_or]
  split
  · rename_i empty
    have text : p.text = "" := eq_of_beq empty
    rw [empty, Bool.true_or, if_pos rfl, text, String.empty_append]
  · rename_i written
    rw [Bool.eq_false_iff.mpr written, Bool.false_or]
    split <;> rfl

/-- A slash at the end of a path says nothing. -/
theorem front_sameAs (p : Path) : (Path.mk p.front).sameAs p = true := by
  unfold front
  split
  · exact sameAs_refl p
  · rename_i open_
    obtain ⟨written, unclosed⟩ := Bool.or_eq_false_iff.mp (Bool.eq_false_iff.mpr open_)
    have joined : Path.mk (p.text ++ "/") = p.push "" := by
      unfold push join
      rw [written, unclosed]
      simp [isAbsolute]
    have blank : steps ⟨""⟩ = [] := by decide
    rw [joined]
    refine sameAs_iff.mpr ⟨lead_join_of_written written (by decide), ?_⟩
    rw [push, steps_join written (by decide), blank, List.append_nil]

/-- **Roots below which a relative path is written the same** say the same. -/
theorem sameAs_of_join_eq (relative : r.isAbsolute = false) (same : p.join r = q.join r) : p.sameAs q = true := by
  have texts := congrArg Path.text same
  rw [text_join p relative, text_join q relative] at texts
  have fronts : p.front = q.front := (String.append_left_inj r.text).mp texts
  have here := p.front_sameAs
  rw [sameAs_comm, fronts] at here
  exact sameAs_trans here q.front_sameAs

end Path

/-! ## Paths without repeats -/

variable {paths : List Path} {p : Path}

theorem distinctPaths_concat (paths : List Path) (p : Path) :
    distinctPaths (paths ++ [p]) =
      if (distinctPaths paths).any p.sameAs then distinctPaths paths else distinctPaths paths ++ [p] := by
  unfold distinctPaths
  rw [List.foldl_append]
  rfl

theorem distinctPaths_distinct (paths : List Path) : (distinctPaths paths).Pairwise fun p q => p.sameAs q = false := by
  obtain ⟨more, folded, -, distinct⟩ := distinctPaths_spec paths [] List.Pairwise.nil
  unfold distinctPaths
  rwa [folded]

/-- What is kept of a list stays at the front of what is kept of a longer one. -/
theorem exists_distinctPaths_append (paths after : List Path) :
    ∃ more, distinctPaths (paths ++ after) = distinctPaths paths ++ more ∧ ∀ q ∈ more, q ∈ after := by
  obtain ⟨more, folded, from_, -⟩ := distinctPaths_spec after _ (distinctPaths_distinct paths)
  refine ⟨more, ?_, from_⟩
  unfold distinctPaths at folded ⊢
  rw [List.foldl_append, folded]

theorem mem_of_mem_distinctPaths (mem : p ∈ distinctPaths paths) : p ∈ paths := by
  obtain ⟨more, kept, from_⟩ := exists_distinctPaths_append [] paths
  rw [List.nil_append] at kept
  rw [kept] at mem
  exact from_ p mem

/-- **Of each path one that says the same is kept.** -/
theorem exists_mem_distinctPaths (mem : p ∈ paths) : ∃ q ∈ distinctPaths paths, q.sameAs p = true := by
  obtain ⟨before, after, rfl⟩ := List.append_of_mem mem
  obtain ⟨more, kept, -⟩ := exists_distinctPaths_append (before ++ [p]) after
  rw [List.append_assoc, List.singleton_append] at kept
  suffices here : ∃ q ∈ distinctPaths (before ++ [p]), q.sameAs p = true by
    obtain ⟨q, mem', same⟩ := here
    exact ⟨q, kept ▸ List.mem_append_left _ mem', same⟩
  rw [distinctPaths_concat]
  split
  · rename_i repeated
    obtain ⟨q, mem', same⟩ := List.any_eq_true.mp repeated
    exact ⟨q, mem', by rwa [Path.sameAs_comm]⟩
  · exact ⟨p, List.mem_append_right _ List.mem_cons_self, Path.sameAs_refl p⟩

/-- Paths that are kept and say the same are one. -/
theorem eq_of_mem_distinctPaths {q : Path} (mem : p ∈ distinctPaths paths) (mem' : q ∈ distinctPaths paths)
    (same : p.sameAs q = true) : p = q := by
  refine Classical.byContradiction fun differ => ?_
  have symmetric : Std.Symm fun p q : Path => p.sameAs q = false := ⟨fun p q apart => by rwa [Path.sameAs_comm]⟩
  have apart := (distinctPaths_distinct paths).forall mem mem' differ
  rw [same] at apart
  cases apart

namespace LocalModule

variable {fs : FileSystem} {roots : List Path} {root kept : Path} {name other : String} {isPackage isPackage' : Bool}
  {m : LocalModule}

/-- **Of two roots that say the same, one holds a name where the other one does,** unless its path is too long. -/
theorem Holds.of_sameAs (same : kept.sameAs root = true) (held : Holds fs name isPackage root)
    (short : ¬ (below kept name isPackage).absolutePath.IsTooLong) : Holds fs name isPackage kept := by
  have ends : (below kept name isPackage).absolutePath.EndsInName := by
    have ends : (below root name isPackage).absolutePath.EndsInName := FileSystem.endsInName_of_isFile held
    unfold below at ends ⊢
    have empty := Path.isEmpty_eq_of_sameAs same
    cases written : kept.isEmpty with
    | true =>
      rw [Path.join_of_isEmpty (empty ▸ written)] at ends
      rwa [Path.join_of_isEmpty written]
    | false =>
      rw [Path.endsInName_join_of_written (empty ▸ written)] at ends
      exact (Path.endsInName_join_of_written written).mpr ends
  rw [Path.sameAs_comm] at same
  exact FileSystem.isFile_of_sameAs (Path.join_sameAs_join_left same _) held ends short

/-- **A file is lost with a repeated root:** the first root that holds a name says the same as a root before, which is
the one that is kept. -/
def IsLost (fs : FileSystem) (roots : List Path) (name : String) : Prop :=
  ∃ before root after, roots = before ++ root :: after ∧
    (∀ r ∈ before, ∀ isPackage, ¬ Holds fs name isPackage r) ∧ (∃ isPackage, Holds fs name isPackage root) ∧
    ∃ kept ∈ before, kept.sameAs root = true

/-- A file is lost only because its path is too long below the root that is kept. -/
theorem IsLost.isTooLong (lost : IsLost fs roots name) :
    ∃ kept ∈ roots, ∃ root ∈ roots, ∃ isPackage, kept.sameAs root = true ∧ Holds fs name isPackage root ∧
      (below kept name isPackage).absolutePath.IsTooLong := by
  obtain ⟨before, root, after, rfl, unheld, ⟨isPackage, held⟩, kept, mem, same⟩ := lost
  refine ⟨kept, List.mem_append_left _ mem, root, List.mem_append_right _ List.mem_cons_self, isPackage, same, held, ?_⟩
  exact Classical.byContradiction fun short => unheld kept mem isPackage (held.of_sameAs same short)

/-- What is found below a root is found below no other one, unless that says the same or all roots hold the name. -/
theorem sameAs_of_below_eq (same : below kept name isPackage = below root name isPackage')
    (held : Holds fs name isPackage' root) (unheld : ∃ r, ∀ isPackage, ¬ Holds fs name isPackage r) :
    kept.sameAs root = true := by
  have forms : isPackage = isPackage' := congrArg LocalModule.isPackage same
  subst forms
  have paths : kept.join _ = root.join _ := congrArg LocalModule.absolutePath same
  cases relative : (candidatePath (DottedName.segments name) isPackage).isAbsolute with
  | false => exact Path.sameAs_of_join_eq relative paths
  | true =>
    obtain ⟨r, unheld⟩ := unheld
    refine absurd ?_ (unheld isPackage)
    unfold Holds below at held ⊢
    dsimp only at held ⊢
    rwa [Path.join_of_isAbsolute relative] at held ⊢

/-- A name is found below the first root that holds it. -/
theorem exists_locate_eq_below {before after : List Path} (full : "" ∉ DottedName.segments name)
    (unheld : ∀ r ∈ before, ∀ isPackage, ¬ Holds fs name isPackage r) (held : Holds fs name isPackage root) :
    ∃ isPackage, Holds fs name isPackage root ∧
      locate fs (before ++ root :: after) name = some (below root name isPackage) := by
  by_cases package : Holds fs name true root
  · exact ⟨true, package, locate_eq_some.mpr ⟨full, before, root, after, rfl, unheld, true, package, nofun, rfl⟩⟩
  · cases isPackage with
    | true => exact absurd held package
    | false =>
      exact ⟨false, held, locate_eq_some.mpr
        ⟨full, before, root, after, rfl, unheld, false, held, fun _ => package, rfl⟩⟩

/-- **Without repeated roots a name leads to the same file, unless it is lost.** -/
theorem locate_distinctPaths_iff (full : "" ∉ DottedName.segments name) :
    locate fs (distinctPaths roots) name = locate fs roots name ↔ ¬ IsLost fs roots name := by
  constructor
  · rintro same ⟨before, root, after, rfl, unheld, ⟨_, held⟩, kept, mem, alike⟩
    obtain ⟨isPackage, holds, found⟩ : ∃ isPackage, Holds fs name isPackage root ∧
        locate fs (before ++ root :: after) name = some (below root name isPackage) :=
      exists_locate_eq_below full unheld held
    rw [found] at same
    obtain ⟨-, front, first, back, split, -, isPackage', holds', -, is⟩ := locate_eq_some.mp same
    have isKept : first ∈ distinctPaths (before ++ root :: after) := split ▸ by simp
    have first_sameAs : first.sameAs root = true := sameAs_of_below_eq is.symm holds ⟨kept, unheld kept mem⟩
    obtain ⟨kept', mem', same'⟩ := exists_mem_distinctPaths mem
    obtain ⟨more, split', -⟩ := exists_distinctPaths_append before (root :: after)
    have isKept' : kept' ∈ distinctPaths (before ++ root :: after) := split' ▸ List.mem_append_left _ mem'
    have one : kept' = first := by
      refine eq_of_mem_distinctPaths isKept' isKept (Path.sameAs_trans same' (Path.sameAs_trans alike ?_))
      rwa [Path.sameAs_comm]
    exact unheld kept' (mem_of_mem_distinctPaths mem') isPackage' (one ▸ holds')
  · intro safe
    cases found : locate fs roots name with
    | none =>
      refine locate_eq_none.mpr (.inr fun root mem => ?_)
      exact (locate_eq_none.mp found).resolve_left full root (mem_of_mem_distinctPaths mem)
    | some m =>
      obtain ⟨-, before, root, after, rfl, unheld, isPackage, holds, plain, rfl⟩ := locate_eq_some.mp found
      have new : ¬ (distinctPaths before).any root.sameAs = true := by
        intro repeated
        obtain ⟨kept, mem, same⟩ := List.any_eq_true.mp repeated
        rw [Path.sameAs_comm] at same
        exact safe ⟨before, root, after, rfl, unheld, ⟨isPackage, holds⟩, kept, mem_of_mem_distinctPaths mem, same⟩
      obtain ⟨more, split, -⟩ := exists_distinctPaths_append (before ++ [root]) after
      rw [List.append_assoc, List.singleton_append, distinctPaths_concat, if_neg new, List.append_assoc,
        List.singleton_append] at split
      exact locate_eq_some.mpr ⟨full, distinctPaths before, root, more, split,
        fun r mem => unheld r (mem_of_mem_distinctPaths mem), isPackage, holds, plain, rfl⟩

/-- **What is found is the least of the pairs of a root and a form that have a file,** by the place of the root, and
with the package before the plain module. -/
theorem locate_iff_least (full : "" ∉ DottedName.segments name) :
    locate fs roots name = some m ↔
      ∃ (n : Nat) (root : Path) (isPackage : Bool), roots[n]? = some root ∧ Holds fs name isPackage root ∧
        m = below root name isPackage ∧ ∀ (n' : Nat) (root' : Path) (isPackage' : Bool),
          roots[n']? = some root' → Holds fs name isPackage' root' →
          n < n' ∨ n = n' ∧ (isPackage' = true → isPackage = true) := by
  rw [locate_eq_some, and_iff_right full]
  constructor
  · rintro ⟨before, root, after, rfl, unheld, isPackage, holds, plain, rfl⟩
    refine ⟨before.length, root, isPackage, by simp, holds, rfl, fun n' root' isPackage' at_ holds' => ?_⟩
    rcases Nat.lt_trichotomy n' before.length with earlier | rfl | later
    · rw [List.getElem?_append_left earlier] at at_
      exact absurd holds' (unheld root' (List.mem_of_getElem? at_) isPackage')
    · rw [List.getElem?_append_right (Nat.le_refl _), Nat.sub_self, List.getElem?_cons_zero] at at_
      cases at_
      refine .inr ⟨rfl, ?_⟩
      rintro rfl
      exact Bool.not_eq_false _ ▸ fun unpacked => plain unpacked holds'
    · exact .inl later
  · rintro ⟨n, root, isPackage, at_, holds, rfl, least⟩
    obtain ⟨inside, here⟩ := List.getElem?_eq_some_iff.mp at_
    refine ⟨roots.take n, root, roots.drop (n + 1), ?_, fun r mem isPackage' holds' => ?_, isPackage, holds,
      fun unpacked package => ?_, rfl⟩
    · rw [← here, List.getElem_cons_drop, List.take_append_drop]
    · obtain ⟨n', shorter, rfl⟩ := List.mem_take_iff_getElem.mp mem
      have at_' : roots[n']? = some roots[n'] := List.getElem?_eq_getElem (by omega)
      rcases least n' _ isPackage' at_' holds' with later | ⟨same, -⟩ <;> omega
    · rcases least n root true at_ package with later | ⟨-, packed⟩
      · omega
      · cases unpacked.symm.trans (packed rfl)

/-- **The path of a name tells the name and the form,** but for a package and the module `__init__` in it. -/
theorem candidatePath_sameAs_iff (full : "" ∉ DottedName.segments name) (free : SlashFree name)
    (full' : "" ∉ DottedName.segments other) (free' : SlashFree other) :
    (candidatePath (DottedName.segments name) isPackage).sameAs
        (candidatePath (DottedName.segments other) isPackage') = true ↔
      (name = other ∧ isPackage = isPackage') ∨
      (isPackage = true ∧ isPackage' = false ∧ other = DottedName.append name "__init__") ∨
      (isPackage = false ∧ isPackage' = true ∧ name = DottedName.append other "__init__") := by
  have proper : ∀ segment ∈ DottedName.segments name, IsFileName segment := fun _ =>
    isFileName_of_mem_segments full free
  have proper' : ∀ segment ∈ DottedName.segments other, IsFileName segment := fun _ =>
    isFileName_of_mem_segments full' free'
  have some : DottedName.segments name ≠ [] := DottedName.segments_ne_nil name
  have some' : DottedName.segments other ≠ [] := DottedName.segments_ne_nil other
  have appended : ∀ a b : String, DottedName.segments a = DottedName.segments b ++ ["__init__"] ↔
      a = DottedName.append b "__init__" := by
    intro a b
    have init : DottedName.segments (DottedName.append b "__init__") = DottedName.segments b ++ ["__init__"] := by
      rw [DottedName.segments_append]
      congr 1
    rw [← init]
    exact DottedName.segments_injective.eq_iff
  rw [candidatePath_eq proper some, candidatePath_eq proper' some', ← appended, ← appended,
    ← DottedName.segments_injective.eq_iff, ← fileNames_eq_iff some some']
  constructor
  · exact Path.eq_of_ofNames_sameAs (fun _ => isFileName_of_mem_fileNames proper)
      (fun _ => isFileName_of_mem_fileNames proper') (fileNames_ne_nil some) (fileNames_ne_nil some')
  · intro same
    rw [same]
    exact Path.sameAs_refl _

/-- **The first match:** a name is not located if and only if a segment of it is empty or no root holds it in any form,
and what is located is for the first root and there for the package before the plain module. So roots behind the others
change nothing that was found. Dropping repeated roots changes what is found if and only if a file is lost with one, and
then its path is too long below the root that is kept, where it is written longer than below the repeated one. For names
of identifiers, whose segments are not empty and have no slash, the path tells the name and the form, but for a package
and the module `__init__` in it. -/
theorem locate_first (fs : FileSystem) (roots : List Path) (name : String) :
    (locate fs roots name = none ↔
      "" ∈ DottedName.segments name ∨ ∀ root ∈ roots, ∀ isPackage, ¬ Holds fs name isPackage root) ∧
    (∀ m, locate fs roots name = some m ↔ "" ∉ DottedName.segments name ∧
      ∃ (n : Nat) (root : Path) (isPackage : Bool), roots[n]? = some root ∧ Holds fs name isPackage root ∧
        m = below root name isPackage ∧ ∀ (n' : Nat) (root' : Path) (isPackage' : Bool),
          roots[n']? = some root' → Holds fs name isPackage' root' →
            n < n' ∨ n = n' ∧ (isPackage' = true → isPackage = true)) ∧
    (∀ more m, locate fs roots name = some m → locate fs (roots ++ more) name = some m) ∧
    (locate fs (distinctPaths roots) name = locate fs roots name ↔
      ("" ∉ DottedName.segments name → ¬ IsLost fs roots name)) ∧
    (IsLost fs roots name → ∃ kept ∈ roots, ∃ root ∈ roots, ∃ isPackage, kept.sameAs root = true ∧
      Holds fs name isPackage root ∧ (below kept name isPackage).absolutePath.IsTooLong) ∧
    ∀ other, "" ∉ DottedName.segments name → SlashFree name → "" ∉ DottedName.segments other → SlashFree other →
      ∀ isPackage isPackage',
        (candidatePath (DottedName.segments name) isPackage).sameAs
            (candidatePath (DottedName.segments other) isPackage') = true ↔
          (name = other ∧ isPackage = isPackage') ∨
          (isPackage = true ∧ isPackage' = false ∧ other = DottedName.append name "__init__") ∨
          (isPackage = false ∧ isPackage' = true ∧ name = DottedName.append other "__init__") := by
  refine ⟨locate_eq_none, fun m => ?_, fun more m found => ?_, ?_, IsLost.isTooLong,
    fun other full free full' free' isPackage isPackage' => candidatePath_sameAs_iff full free full' free'⟩
  · by_cases full : "" ∉ DottedName.segments name
    · rw [locate_iff_least full, and_iff_right full]
    · constructor
      · intro found
        exact absurd (locate_eq_some.mp found).1 full
      · rintro ⟨full', -⟩
        exact absurd full' full
  · obtain ⟨full, before, root, after, rfl, first⟩ := locate_eq_some.mp found
    exact locate_eq_some.mpr ⟨full, before, root, after ++ more, by simp, first⟩
  · by_cases full : "" ∉ DottedName.segments name
    · rw [locate_distinctPaths_iff full, forall_prop_of_true full]
    · have nowhere : ∀ roots, locate fs roots name = none := fun roots =>
        locate_eq_none.mpr (.inl (Classical.not_not.mp full))
      rw [nowhere, nowhere]
      exact ⟨fun _ full' => absurd full' full, fun _ => rfl⟩

/-- A module in a directory. -/
def lib : FileSystem where
  entries := [("lib", .directory [("m.py", .file "".toUTF8 false)])]

/-- The directory with some slashes behind it. -/
def libSlashes (n : Nat) : Path := ⟨"/lib" ++ String.ofList (List.replicate n '/')⟩

/-- Slashes behind a name say nothing. -/
theorem libSlashes_sameAs (n : Nat) : (libSlashes n).sameAs ⟨"/lib"⟩ = true := by
  have absolute : (libSlashes n).isAbsolute = true := by
    unfold libSlashes Path.isAbsolute
    rw [String.toList_append]
    rfl
  refine Path.sameAs_iff.mpr ⟨?_, ?_⟩
  · rw [Path.isAbsolute_iff_lead.mp absolute, Path.isAbsolute_iff_lead.mp (by decide)]
  · cases n with
    | zero => decide
    | succ n =>
      have pieces : (libSlashes (n + 1)).pieces = (Path.mk "/lib").pieces ++ (List.replicate n '/').splitOn '/' := by
        have text : (libSlashes (n + 1)).text.toList = "/lib".toList ++ '/' :: List.replicate n '/' :=
          String.toList_append.trans (congrArg ("/lib".toList ++ ·) String.toList_ofList)
        unfold Path.pieces
        rw [text]
        exact List.splitOn_append_cons_self _ _
      have blank : ((List.replicate n '/').splitOn '/').filterMap Path.Component.ofPiece? = [] := by
        refine List.filterMap_eq_nil_iff.mpr fun piece mem => ?_
        suffices none : piece = [] by rw [none]; rfl
        refine List.eq_nil_iff_forall_not_mem.mpr fun c inside => ?_
        obtain ⟨-, rfl⟩ := List.mem_replicate.mp (Text.mem_of_mem_splitOn mem inside)
        exact Text.separator_notMem_of_mem_splitOn mem inside
      unfold Path.steps
      rw [pieces, List.filterMap_append, blank, List.append_nil]

/-- Below the directory with many slashes no path leads to a file, because it is too long. -/
theorem not_holds_libSlashes {n : Nat} (many : FileSystem.pathLimit ≤ n) (full : "" ∉ DottedName.segments name)
    (free : SlashFree name) : ¬ Holds fs name isPackage (libSlashes n) := by
  intro held
  refine FileSystem.not_isTooLong_of_isFile held ?_
  have relative : (candidatePath (DottedName.segments name) isPackage).isAbsolute = false := by
    have proper : ∀ segment ∈ DottedName.segments name, IsFileName segment := fun _ =>
      isFileName_of_mem_segments full free
    rw [candidatePath_eq proper (DottedName.segments_ne_nil name)]
    exact Path.isAbsolute_ofNames fun _ => isFileName_of_mem_fileNames proper
  obtain ⟨between, -, text⟩ := Path.exists_text_join (libSlashes n) relative
  have long : n ≤ (libSlashes n).text.utf8ByteSize := by
    refine Nat.le_trans ?_ (Text.length_le_utf8ByteSize _)
    have slashes : (String.ofList (List.replicate n '/')).toList.length = n := by
      rw [String.toList_ofList, List.length_replicate]
    unfold libSlashes
    rw [String.toList_append, List.length_append, slashes]
    exact Nat.le_add_left _ _
  unfold Path.IsTooLong below
  dsimp only
  rw [text, String.utf8ByteSize_append, String.utf8ByteSize_append]
  omega

/-- Two roots say the same, so the second one is dropped, and a module is found below the second one alone. -/
theorem locate_libSlashes_of_le {n : Nat} (many : FileSystem.pathLimit ≤ n) :
    distinctPaths [libSlashes n, ⟨"/lib"⟩] = [libSlashes n] ∧
      locate lib [libSlashes n, ⟨"/lib"⟩] "m" = some (below ⟨"/lib"⟩ "m" false) ∧
      locate lib [libSlashes n] "m" = none := by
  have unheld : ∀ r ∈ [libSlashes n], ∀ isPackage, ¬ Holds lib "m" isPackage r := by
    intro r mem isPackage
    rw [List.mem_singleton.mp mem]
    exact not_holds_libSlashes many (by decide) (by decide)
  have same : (Path.mk "/lib").sameAs (libSlashes n) = true := by
    rw [Path.sameAs_comm]
    exact libSlashes_sameAs n
  have held : Holds lib "m" false ⟨"/lib"⟩ := by
    unfold Holds
    decide +kernel
  have plain : ¬ Holds lib "m" true ⟨"/lib"⟩ := by
    unfold Holds
    decide +kernel
  refine ⟨by simp [distinctPaths, same], ?_, locate_eq_none.mpr (.inr unheld)⟩
  exact locate_eq_some.mpr
    ⟨by decide, [libSlashes n], ⟨"/lib"⟩, [], rfl, unheld, false, held, fun _ => plain, rfl⟩

/-- Dropping the repeated root loses the module. -/
theorem locate_libSlashes :
    locate lib (distinctPaths [libSlashes 4096, ⟨"/lib"⟩]) "m" = none ∧
      locate lib [libSlashes 4096, ⟨"/lib"⟩] "m" = some (below ⟨"/lib"⟩ "m" false) := by
  obtain ⟨kept, found, lost⟩ := locate_libSlashes_of_le (Nat.le_refl FileSystem.pathLimit)
  unfold FileSystem.pathLimit at kept found lost
  rw [kept]
  exact ⟨lost, found⟩

/-- A package shadows a module, and a root that is repeated in another spelling changes nothing. -/
theorem locate_first_repeated :
    let fs : FileSystem := { entries := [
      ("one", .directory [("x.py", .file "".toUTF8 false), ("x", .directory [("__init__.py", .file "".toUTF8 false)])]),
      ("two", .directory [("x.py", .file "".toUTF8 false)])] }
    ¬ IsLost fs [⟨"/one"⟩, ⟨"/two"⟩, ⟨"/one/"⟩] "x" ∧
      locate fs (distinctPaths [⟨"/one"⟩, ⟨"/two"⟩, ⟨"/one/"⟩]) "x" = some (below ⟨"/one"⟩ "x" true) ∧
      (candidatePath ["x"] true).sameAs (candidatePath ["x", "__init__"] false) = true := by
  intro fs
  obtain ⟨-, -, -, repeated, -, encoding⟩ := locate_first fs [⟨"/one"⟩, ⟨"/two"⟩, ⟨"/one/"⟩] "x"
  have safe : ¬ IsLost fs [⟨"/one"⟩, ⟨"/two"⟩, ⟨"/one/"⟩] "x" := repeated.mp (by decide +kernel) (by decide)
  have init := (encoding "x.__init__" (by decide) (by decide) (by decide) (by decide) true false).mpr
    (.inr (.inl ⟨rfl, rfl, by decide⟩))
  refine ⟨safe, ?_, init⟩
  rw [repeated.mpr fun _ => safe]
  decide +kernel

end LocalModule

end PyBundle
