import PyBundle.Proofs.Bundle.Manifest
import PyBundle.Proofs.Text.Size

/-!
# The manifest and the order in which distributions are found

Distributions are sorted by their names in lower case before they are printed. Those whose names are the same then
stay as they were found, so the manifest tells which of them was found first, unless their lines may change places
(`orderFree_iff`). For texts of one line `render_order` says what this comes to: the manifest does not depend on the
order if and only if no two of the distributions have the same name in lower case.
-/

namespace PyBundle

namespace Manifest

variable {p q : Pin} {pins : List Pin}

/-- The line of a distribution. -/
def line (p : Pin) : String := p.requirement ++ "\n"

/-- **Whether the manifest is the same for every order in which the distributions are found.** -/
def OrderFree (pins : List Pin) : Prop :=
  ∀ first second : List Pin, first.Perm pins → second.Perm pins →
    ∀ extra, render first extra = render second extra

/-- The lines of the distributions come first. -/
theorem render_eq (pins : List Pin) (extra : List String) :
    render pins extra = String.join ((Pin.sorted pins).map line) ++ ofLines extra := by
  unfold render
  rw [ofLines_append]
  unfold ofLines
  rw [List.map_map]
  rfl

/-- **The manifest depends on the order only through distributions whose names are the same in lower case:** it is
the same for every order if and only if the lines of any two of these may change places. -/
theorem orderFree_iff (pins : List Pin) :
    OrderFree pins ↔ ∀ p ∈ pins, ∀ q ∈ pins, p.key = q.key → line p ++ line q = line q ++ line p := by
  constructor
  · intro free p mem q mem' alike
    by_cases same : q = p
    · rw [same]
    -- The two are given behind one another, in either order.
    · have front : pins.Perm (p :: q :: (pins.erase p).erase q) :=
        (List.perm_cons_erase mem).trans
          ((List.perm_cons_erase ((List.mem_erase_of_ne same).mpr mem')).cons p)
      obtain ⟨before, after, first, second⟩ :=
        Text.exists_mergeSort_swap Pin.key alike ((pins.erase p).erase q)
      have told := free _ _ front.symm ((List.Perm.swap p q _).trans front.symm) []
      have first : Pin.sorted (p :: q :: (pins.erase p).erase q) = before ++ p :: q :: after := first
      have second : Pin.sorted (q :: p :: (pins.erase p).erase q) = before ++ q :: p :: after := second
      rw [render_eq, render_eq, String.append_left_inj, first, second] at told
      simp only [List.map_append, List.map_cons, String.join_append, String.join_cons,
        String.append_right_inj] at told
      rwa [← String.append_assoc, ← String.append_assoc, String.append_left_inj] at told
  · intro comm first second perm perm' extra
    rw [render_eq, render_eq]
    refine congrArg (· ++ ofLines extra) ?_
    refine Text.join_eq_of_perm Pin.key line ?_ (Pin.sorted_pairwise first) (Pin.sorted_pairwise second) ?_
    · exact (Pin.sorted_perm first).trans (perm.trans (perm'.symm.trans (Pin.sorted_perm second).symm))
    · intro p mem q mem'
      exact comm p (perm.mem_iff.mp ((Pin.sorted_perm first).mem_iff.mp mem)) q
        (perm.mem_iff.mp ((Pin.sorted_perm first).mem_iff.mp mem'))

/-- Whether the name and the version of a distribution are of one line. -/
def OneLine (p : Pin) : Prop := '\n' ∉ p.name.toList ∧ '\n' ∉ p.version.toList

theorem OneLine.requirement (whole : OneLine p) : '\n' ∉ p.requirement.toList := by
  have chars : p.requirement.toList = p.name.toList ++ ("==".toList ++ p.version.toList) := by
    rw [← String.toList_append, ← String.toList_append, ← String.append_assoc]
    rfl
  rw [chars, List.mem_append, List.mem_append]
  rintro (inName | inSign | inVersion)
  · exact whole.1 inName
  · exact absurd inSign (by decide)
  · exact whole.2 inVersion

/-- Lines that may change places are the same. -/
theorem requirement_eq (whole : OneLine p) (whole' : OneLine q) (comm : line p ++ line q = line q ++ line p) :
    p.requirement = q.requirement := by
  have chars := congrArg String.toList comm
  unfold line at chars
  simp only [String.toList_append, List.append_assoc] at chars
  have first : p.requirement.toList ++ '\n' :: (q.requirement.toList ++ ['\n']) =
      q.requirement.toList ++ '\n' :: (p.requirement.toList ++ ['\n']) := chars
  rw [← String.toList_inj, ← Text.takeWhile_separator _ whole.requirement, first,
    Text.takeWhile_separator _ whole'.requirement]

/-- **A line tells the distribution** to one who knows its name in lower case. -/
theorem eq_of_requirement_eq (alike : p.key = q.key) (same : p.requirement = q.requirement) : p = q := by
  have chars : p.name.toList ++ ("==".toList ++ p.version.toList) =
      q.name.toList ++ ("==".toList ++ q.version.toList) := by
    rw [← String.toList_append, ← String.toList_append, ← String.toList_append, ← String.toList_append,
      ← String.append_assoc, ← String.append_assoc]
    exact congrArg String.toList same
  have names : p.name = q.name := by
    unfold Pin.key at alike
    rcases List.append_eq_append_iff.mp chars with ⟨more, longer, -⟩ | ⟨more, longer, -⟩
    · have longer : q.name = p.name ++ String.ofList more :=
        String.toList_inj.mp (by rw [longer, String.toList_append, String.toList_ofList])
      have none := Text.eq_nil_of_lower_append (longer ▸ alike.symm)
      rw [longer, String.toList_eq_nil_iff.mp none, String.append_empty]
    · have longer : p.name = q.name ++ String.ofList more :=
        String.toList_inj.mp (by rw [longer, String.toList_append, String.toList_ofList])
      have none := Text.eq_nil_of_lower_append (longer ▸ alike)
      rw [longer, String.toList_eq_nil_iff.mp none, String.append_empty]
  cases p
  cases q
  cases names
  simp only [List.append_cancel_left_eq, String.toList_inj] at chars
  rw [chars]

/-- **When the manifest does not depend on the order in which distributions are found.** It does so only through
those whose names are the same in lower case, and only if their lines may not change places. Among distributions that
are all different, with names and versions of one line, there are no others, so the manifest is the same for every
order if and only if no two of the names are the same in lower case. -/
theorem render_order (pins : List Pin) :
    (OrderFree pins ↔ ∀ p ∈ pins, ∀ q ∈ pins, Text.lower p.name = Text.lower q.name →
      line p ++ line q = line q ++ line p) ∧
    (pins.Nodup → (∀ p ∈ pins, OneLine p) →
      (OrderFree pins ↔ (pins.map fun p => Text.lower p.name).Nodup)) := by
  refine ⟨orderFree_iff pins, fun nodup whole => (orderFree_iff pins).trans ?_⟩
  rw [List.nodup_map_iff_inj_on nodup]
  refine forall₂_congr fun p mem => forall₂_congr fun q mem' => forall_congr' fun alike => ?_
  constructor
  · intro comm
    exact eq_of_requirement_eq alike (requirement_eq (whole p mem) (whole q mem') comm)
  · intro same
    rw [same]

/-- Distributions with different names are printed in one order. -/
theorem render_order_different :
    ∀ extra, render [⟨"zlib", "1"⟩, ⟨"Foo", "2"⟩] extra = render [⟨"Foo", "2"⟩, ⟨"zlib", "1"⟩] extra :=
  ((render_order [⟨"zlib", "1"⟩, ⟨"Foo", "2"⟩]).2 (by decide) (by unfold OneLine; decide)).mpr (by decide)
    _ _ (.refl _) (.swap _ _ _)

/-- Distributions whose names differ in case alone are printed in the order in which they are found. -/
theorem render_eitherCase_order :
    ([⟨"Foo", "1"⟩, ⟨"foo", "2"⟩] : List Pin).Nodup ∧
      render [⟨"Foo", "1"⟩, ⟨"foo", "2"⟩] [] = "Foo==1\nfoo==2\n" ∧
      render [⟨"foo", "2"⟩, ⟨"Foo", "1"⟩] [] = "foo==2\nFoo==1\n" := by
  have level : Pin.precedes ⟨"Foo", "1"⟩ ⟨"foo", "2"⟩ = true ∧ Pin.precedes ⟨"foo", "2"⟩ ⟨"Foo", "1"⟩ = true := by
    decide +kernel
  refine ⟨by decide, ?_, ?_⟩
  · simp [render, Pin.sorted, List.mergeSort, List.MergeSort.Internal.splitInTwo, level]
    decide
  · simp [render, Pin.sorted, List.mergeSort, List.MergeSort.Internal.splitInTwo, level]
    decide

end Manifest

end PyBundle
