import Mathlib.Data.List.DropRight
import PyBundle.Proofs.Import.Name

/-!
# Climbing out of packages

What a relative import means is told by the package around its importer: the module itself if it is a package, and the
module without its last segment otherwise. One level is this package, and each further one leads out of a package. The
resolution counts from the importer instead, and a package climbs one level less (`resolveRelative_ofSegments`). The two
rules agree at every depth (`resolveRelative_package`), and the counters of a machine are enough for it
(`resolveCounted_eq`).
-/

namespace PyBundle

open DottedName (ofSegments segments)

variable {segs : List String} {isPackage : Bool} {level : Nat} {inner : Option String} {package name : String}

namespace DottedName

/-- **A segment of a name:** it is written, and without a dot. -/
def IsSegment (segment : String) : Prop := segment ≠ "" ∧ '.' ∉ segment.toList

instance (segment : String) : Decidable (IsSegment segment) :=
  inferInstanceAs (Decidable (segment ≠ "" ∧ '.' ∉ segment.toList))

/-- What is written of the segments of a name is what it was made of. The empty name has one empty segment. -/
theorem filter_segments_ofSegments (proper : ∀ segment ∈ segs, IsSegment segment) :
    (segments (ofSegments segs)).filter (· != "") = segs := by
  by_cases none : segs = []
  · rw [none]
    rfl
  · rw [segments_ofSegments none fun segment mem => (proper segment mem).2]
    exact List.filter_eq_self.mpr fun segment mem => bne_iff_ne.mpr (proper segment mem).1

end DottedName

/-- The package around a module, by its segments. -/
def packageOf (segs : List String) (isPackage : Bool) : List String := if isPackage then segs else segs.dropLast

/-- **A name inside a package,** or the package itself if no name is spelled. -/
def nameInside (package : String) (inner : Option String) : String :=
  (inner.filter (· != "")).elim package (DottedName.append package)

/-! ## Counting from the importer and from its package -/

/-- **The resolution counts segments of the importer.** -/
theorem resolveRelative_ofSegments (proper : ∀ segment ∈ segs, DottedName.IsSegment segment) :
    resolveRelative (ofSegments segs) isPackage level inner =
      let climb := if isPackage then level - 1 else level
      if segs.length ≤ climb then none
      else some (nameInside (ofSegments (segs.take (segs.length - climb))) inner) := by
  unfold resolveRelative nameInside
  rw [DottedName.filter_segments_ofSegments proper]
  dsimp only
  generalize (if isPackage then level - 1 else level) = climb
  by_cases out : segs.length ≤ climb
  · rw [if_pos out, if_pos out]
  · rw [if_neg out, if_neg out]
    cases inner.filter (· != "") <;> rfl

/-- **The resolution counts levels out of the package.** -/
theorem resolveRelative_package (proper : ∀ segment ∈ segs, DottedName.IsSegment segment) (up : 1 ≤ level) :
    resolveRelative (ofSegments segs) isPackage level inner =
      if (packageOf segs isPackage).length < level then none
      else some (nameInside (ofSegments ((packageOf segs isPackage).rdrop (level - 1))) inner) := by
  rw [resolveRelative_ofSegments proper]
  unfold packageOf List.rdrop
  cases isPackage with
  | true =>
    have bound : segs.length ≤ level - 1 ↔ segs.length < level := by omega
    simp only [if_true, bound]
  | false =>
    have bound : segs.length ≤ level ↔ segs.dropLast.length < level := by
      rw [List.length_dropLast]
      omega
    have kept : segs.dropLast.take (segs.dropLast.length - (level - 1)) = segs.take (segs.length - level) := by
      rw [List.length_dropLast, List.dropLast_eq_take, List.take_take]
      congr 1
      omega
    simp only [Bool.false_eq_true, if_false, bound, kept]

/-- A plain module climbs as its package does. -/
theorem resolveRelative_plain (proper : ∀ segment ∈ segs, DottedName.IsSegment segment) (up : 1 ≤ level) :
    resolveRelative (ofSegments segs) false level inner = resolveRelative (ofSegments segs.dropLast) true level inner := by
  have around : ∀ segment ∈ segs.dropLast, DottedName.IsSegment segment := fun segment mem =>
    proper segment (List.dropLast_subset _ mem)
  rw [resolveRelative_package proper up, resolveRelative_package around up]
  rfl

/-- **A package climbs one level more than its parent does.** -/
theorem resolveRelative_parent (proper : ∀ segment ∈ segs, DottedName.IsSegment segment) (up : 1 ≤ level) :
    resolveRelative (ofSegments segs) true (level + 1) inner =
      resolveRelative (ofSegments segs.dropLast) true level inner := by
  -- both climb `level` segments from the importer
  rw [← resolveRelative_plain proper up, resolveRelative_ofSegments proper, resolveRelative_ofSegments proper]
  rfl

/-- The name has an empty segment only if one is spelled. -/
theorem full_nameInside (kept : "" ∉ segments package) (spelled : ∀ m ∈ inner, m ≠ "" → "" ∉ segments m) :
    "" ∉ segments (nameInside package inner) := by
  unfold nameInside
  cases given : inner.filter (· != "") with
  | none => exact kept
  | some m =>
    obtain ⟨isInner, written⟩ := Option.filter_eq_some_iff.mp given
    rw [Option.elim_some, DottedName.segments_append, List.mem_append, not_or]
    exact ⟨kept, spelled m isInner (bne_iff_ne.mp written)⟩

/-- What is left of a package has no empty segment, as long as something is left. -/
theorem full_ofSegments (proper : ∀ segment ∈ segs, DottedName.IsSegment segment) (some : segs ≠ []) :
    "" ∉ segments (ofSegments segs) := by
  rw [DottedName.segments_ofSegments some fun segment mem => (proper segment mem).2]
  exact fun mem => (proper "" mem).1 rfl

/-! ## The counters of a machine -/

/-- The difference of two counters. There is none below zero. -/
def difference? (m n : UInt64) : Option UInt64 := if n ≤ m then some (m - n) else none

/-- A counter less one, where zero stays. -/
def oneLess (n : UInt64) : UInt64 := if n = 0 then 0 else n - 1

/-- The first segments of a list up to a counter. There are none beyond its end. -/
def upTo? (segs : List String) (n : UInt64) : Option (List String) :=
  if n.toNat ≤ segs.length then some (segs.take n.toNat) else none

/-- **The resolution on the counters of a machine.** There is no answer if a difference is below zero, or if segments
beyond the end are taken. -/
def resolveCounted (identity : String) (isPackage : Bool) (level : UInt64) (inner : Option String) :
    Option (Option String) := do
  let climb := if isPackage then oneLess level else level
  let segs := (segments identity).filter (· != "")
  let count := UInt64.ofNat segs.length
  if count ≤ climb then return none
  let kept ← upTo? segs (← difference? count climb)
  return some (nameInside (ofSegments kept) inner)

theorem toNat_oneLess (n : UInt64) : (oneLess n).toNat = n.toNat - 1 := by
  unfold oneLess
  split
  · rename_i zero
    rw [zero]
    rfl
  · rename_i nonzero
    have one : 1 ≤ n := by
      rw [UInt64.le_iff_toNat_le]
      exact Nat.one_le_iff_ne_zero.mpr fun zero => nonzero (UInt64.toNat_inj.mp zero)
    rw [UInt64.toNat_sub_of_le n 1 one]
    rfl

/-- **The counters of a machine are enough.** No difference is below zero, no segment beyond the end is taken, and the
answer is the one that unbounded numbers give. -/
theorem resolveCounted_eq {level : UInt64} (proper : ∀ segment ∈ segs, DottedName.IsSegment segment)
    (fits : segs.length < UInt64.size) :
    resolveCounted (ofSegments segs) isPackage level inner =
      some (resolveRelative (ofSegments segs) isPackage level.toNat inner) := by
  have climbs : (if isPackage then oneLess level else level).toNat =
      if isPackage then level.toNat - 1 else level.toNat := by
    cases isPackage with
    | true => exact toNat_oneLess level
    | false => rfl
  have counts : (UInt64.ofNat segs.length).toNat = segs.length := UInt64.toNat_ofNat_of_lt' fits
  unfold resolveCounted
  rw [resolveRelative_ofSegments proper, DottedName.filter_segments_ofSegments proper]
  dsimp only
  rw [← climbs]
  generalize (if isPackage then oneLess level else level) = climb
  have bound : UInt64.ofNat segs.length ≤ climb ↔ segs.length ≤ climb.toNat := by
    rw [UInt64.le_iff_toNat_le, counts]
  by_cases out : segs.length ≤ climb.toNat
  · rw [if_pos (bound.mpr out), if_pos out]
    rfl
  · have under : climb ≤ UInt64.ofNat segs.length := by
      rw [UInt64.le_iff_toNat_le, counts]
      omega
    have kept : (UInt64.ofNat segs.length - climb).toNat = segs.length - climb.toNat := by
      rw [UInt64.toNat_sub_of_le _ _ under, counts]
    have inRange : (UInt64.ofNat segs.length - climb).toNat ≤ segs.length := by omega
    rw [if_neg (bound.not.mpr out), if_neg out, difference?, if_pos under]
    simp only [Option.bind_eq_bind, Option.bind_some]
    rw [upTo?, if_pos inRange, kept]
    rfl

/-! ## The rule of relative imports -/

/-- **The rule of relative imports.** Let an importer have a name of written segments without dots, or the empty name.
Its import of some level has no name if and only if there is no package around it or the package has fewer segments
than levels are written. Otherwise the name is the package without one segment for each further level, and behind it
what is spelled. The counters of a machine are enough to find it; it has no empty segment unless one is spelled; a
plain module climbs as its package does, and a package one level more than its parent. -/
theorem resolveRelative_climbs (isPackage : Bool) (inner : Option String)
    (proper : ∀ segment ∈ segs, DottedName.IsSegment segment) (up : 1 ≤ level) :
    (resolveRelative (ofSegments segs) isPackage level inner = none ↔
      packageOf segs isPackage = [] ∨ (packageOf segs isPackage).length < level) ∧
    (∀ name, resolveRelative (ofSegments segs) isPackage level inner = some name →
      name = nameInside (ofSegments ((packageOf segs isPackage).rdrop (level - 1))) inner ∧
      ((∀ m ∈ inner, m ≠ "" → "" ∉ segments m) → "" ∉ segments name)) ∧
    (segs.length < UInt64.size → ∀ counter : UInt64, counter.toNat = level →
      resolveCounted (ofSegments segs) isPackage counter inner =
        some (resolveRelative (ofSegments segs) isPackage level inner)) ∧
    resolveRelative (ofSegments segs) false level inner =
      resolveRelative (ofSegments segs.dropLast) true level inner ∧
    resolveRelative (ofSegments segs) true (level + 1) inner =
      resolveRelative (ofSegments segs.dropLast) true level inner := by
  refine ⟨?_, fun name resolved => ?_, ?_, resolveRelative_plain proper up, resolveRelative_parent proper up⟩
  · rw [resolveRelative_package proper up, ite_eq_left_iff, not_lt]
    refine ⟨fun beyond => .inr ?_, ?_⟩
    · by_contra inside
      cases beyond (not_lt.mp inside)
    · rintro (none | short) enough
      · rw [none, List.length_nil] at enough
        omega
      · omega
  · rw [resolveRelative_package proper up] at resolved
    split at resolved
    · cases resolved
    · rename_i enough
      cases resolved
      refine ⟨rfl, full_nameInside (full_ofSegments (fun segment mem => proper segment ?_) ?_)⟩
      · have inPackage : segment ∈ packageOf segs isPackage := List.mem_of_mem_take mem
        unfold packageOf at inPackage
        split at inPackage
        · exact inPackage
        · exact List.dropLast_subset _ inPackage
      · refine List.ne_nil_of_length_pos ?_
        rw [List.rdrop, List.length_take]
        omega
  · rintro fits counter rfl
    exact resolveCounted_eq proper fits

/-- A plain module three levels deep, whose import climbs as far as it can. -/
theorem resolveRelative_climbs_top :
    resolveRelative "a.b.c" false 2 (some "util") = some "a.util" ∧
      resolveCounted "a.b.c" false 2 (some "util") = some (some "a.util") ∧
      resolveRelative "a.b" true 2 (some "util") = some "a.util" ∧
      "" ∉ segments "a.util" ∧ resolveRelative "a.b.c" false 3 (some "util") = none := by
  have proper : ∀ segment ∈ ["a", "b", "c"], DottedName.IsSegment segment := by decide
  have identity : ofSegments ["a", "b", "c"] = "a.b.c" := by decide +kernel
  have around : ofSegments ["a", "b"] = "a.b" := by decide +kernel
  have resolved : resolveRelative "a.b.c" false 2 (some "util") = some "a.util" := by decide +kernel
  obtain ⟨-, named, counted, plain, -⟩ :=
    resolveRelative_climbs false (some "util") proper (show 1 ≤ 2 by decide)
  obtain ⟨beyond, -⟩ :=
    resolveRelative_climbs false (some "util") proper (show 1 ≤ 3 by decide)
  rw [identity] at named counted plain beyond
  refine ⟨resolved, ?_, ?_, (named "a.util" resolved).2 ?_, beyond.mpr (.inr (by decide))⟩
  · rw [counted (by decide) 2 rfl, resolved]
  · rw [← resolved, plain]
    rw [show ["a", "b", "c"].dropLast = ["a", "b"] from rfl, around]
  · rintro m ⟨⟩ -
    decide +kernel

end PyBundle
