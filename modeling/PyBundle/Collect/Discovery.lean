import PyBundle.Classify.Basic
import PyBundle.Import.Line
import PyBundle.Log.Record
import PyBundle.Module.Local

/-!
# What a walk over imports finds

A walk finds local modules, and names that belong to no local module. Each name is classified once, the
first time it is met.
-/

namespace PyBundle

/-- **What a walk has found so far,** all of it in the order in which it was found. -/
structure Discovery where
  /-- The local modules, the entry first. -/
  modules : List LocalModule := []
  /-- The modules of the standard library. -/
  stdlib : List String := []
  /-- The installed distributions. -/
  external : List Pin := []
  /-- The names of nothing that is known. -/
  unknown : List String := []
  /-- How many import lines were met. -/
  importLines : Nat := 0
  /-- The names that are classified. -/
  classified : List String := []
  log : Log := []
  deriving Inhabited

/-- A list with an item at its end, unless it has the item. -/
def appendNew {α : Type} [BEq α] (xs : List α) (x : α) : List α := if xs.contains x then xs else xs ++ [x]

namespace Discovery

/-- Tells something. -/
def note (d : Discovery) (r : LogRecord) : Discovery := { d with log := d.log ++ [r] }

/-- Counts an import line. -/
def countLine (d : Discovery) : Discovery := { d with importLines := d.importLines + 1 }

/-- Whether a module is found. -/
def hasModule (d : Discovery) (m : LocalModule) : Bool := d.modules.any m.sameAs

/-- Adds a module. -/
def addModule (d : Discovery) (m : LocalModule) : Discovery := { d with modules := d.modules ++ [m] }

/-- **Adds a relative import that leads out of all packages.** It is unknown as it is spelled. -/
def refuse (d : Discovery) (importer : LocalModule) (l : ImportLine) : Discovery :=
  let path := importer.relativePath.text
  let d := d.note (.warning
    s!"Cannot resolve relative import '{l.spelled}' in {path} (line {l.line}): no parent package")
  if d.classified.contains l.spelled then d
  else
    { d with
      classified := d.classified ++ [l.spelled]
      unknown := appendNew d.unknown l.spelled }

/-- **Adds a top-level name under what it belongs to.** Only the first time counts. -/
def place (d : Discovery) (classify : String → Classification) (topLevel : String) : Discovery :=
  if d.classified.contains topLevel then d
  else
    let d := { d with classified := d.classified ++ [topLevel] }
    match classify topLevel with
    | .stdlib => { d with stdlib := appendNew d.stdlib topLevel }
    | .external pin =>
      let d := d.note (.debug s!"{topLevel} is provided by {pin.display}")
      { d with external := appendNew d.external pin }
    | .unknown =>
      let d := d.note (.warning s!"Module '{topLevel}' is not local, stdlib or installed")
      { d with unknown := appendNew d.unknown topLevel }

/-- The installed distributions in the order of their names. -/
def sortedExternal (d : Discovery) : List Pin := Pin.sorted d.external

/-- What is told at the end of a walk. -/
def summary (d : Discovery) : String :=
  s!"Collected {d.modules.length} local modules, {d.stdlib.length} stdlib, " ++
    s!"{d.external.length} external, {d.unknown.length} unknown"

end Discovery

/-! ## What an operation does -/

theorem mem_appendNew {α : Type} [BEq α] [LawfulBEq α] {xs : List α} {x y : α} :
    y ∈ appendNew xs x ↔ y ∈ xs ∨ y = x := by
  unfold appendNew
  split
  · rename_i known
    rw [List.contains_iff_mem] at known
    exact ⟨.inl, fun h => h.elim id fun same => same ▸ known⟩
  · rw [List.mem_append, List.mem_singleton]

namespace Discovery

variable (d : Discovery) (importer : LocalModule) (l : ImportLine)
variable (classify : String → Classification) (topLevel : String)

/-- A refused line is told and counts as classified. It is unknown unless it counts already. -/
theorem refuse_eq : ∃ log, d.refuse importer l =
    { d with
      log
      classified := if l.spelled ∈ d.classified then d.classified else d.classified ++ [l.spelled]
      unknown := if l.spelled ∈ d.classified then d.unknown else appendNew d.unknown l.spelled } := by
  unfold refuse
  by_cases known : l.spelled ∈ d.classified
  · exact ⟨_, by simp only [note, List.contains_iff_mem, known, if_true]; rfl⟩
  · exact ⟨_, by simp only [note, List.contains_iff_mem, known, if_false]; rfl⟩

@[simp] theorem refuse_modules : (d.refuse importer l).modules = d.modules := by
  obtain ⟨log, refused⟩ := d.refuse_eq importer l
  rw [refused]

@[simp] theorem refuse_importLines : (d.refuse importer l).importLines = d.importLines := by
  obtain ⟨log, refused⟩ := d.refuse_eq importer l
  rw [refused]

@[simp] theorem refuse_stdlib : (d.refuse importer l).stdlib = d.stdlib := by
  obtain ⟨log, refused⟩ := d.refuse_eq importer l
  rw [refused]

@[simp] theorem refuse_external : (d.refuse importer l).external = d.external := by
  obtain ⟨log, refused⟩ := d.refuse_eq importer l
  rw [refused]

theorem mem_refuse_classified {x : String} :
    x ∈ (d.refuse importer l).classified ↔ x ∈ d.classified ∨ x = l.spelled := by
  obtain ⟨log, refused⟩ := d.refuse_eq importer l
  rw [refused]
  by_cases known : l.spelled ∈ d.classified
  · simp only [known, if_true]
    exact ⟨.inl, fun h => h.elim id fun same => same ▸ known⟩
  · simp only [known, if_false, List.mem_append, List.mem_singleton]

theorem mem_refuse_unknown {x : String} :
    x ∈ (d.refuse importer l).unknown ↔
      x ∈ d.unknown ∨ l.spelled ∉ d.classified ∧ x = l.spelled := by
  obtain ⟨log, refused⟩ := d.refuse_eq importer l
  rw [refused]
  by_cases known : l.spelled ∈ d.classified
  · simp only [known, if_true, not_true_eq_false, false_and, or_false]
  · simp only [known, if_false, mem_appendNew, not_false_eq_true, true_and]

/-- A top-level name that is classified already changes nothing. -/
theorem place_of_mem (known : topLevel ∈ d.classified) : d.place classify topLevel = d := by
  unfold place
  rw [if_pos (List.contains_iff_mem.mpr known)]

@[simp] theorem place_modules : (d.place classify topLevel).modules = d.modules := by
  unfold place; dsimp only; split
  · rfl
  · split <;> rfl

@[simp] theorem place_importLines : (d.place classify topLevel).importLines = d.importLines := by
  unfold place; dsimp only; split
  · rfl
  · split <;> rfl

/-- A top-level name that is new counts as classified, and it is filed under what it belongs to. -/
theorem place_eq (new : topLevel ∉ d.classified) : ∃ log, d.place classify topLevel =
    { d with
      log
      classified := d.classified ++ [topLevel]
      stdlib := if classify topLevel = .stdlib then appendNew d.stdlib topLevel else d.stdlib
      external :=
        match classify topLevel with
        | .external pin => appendNew d.external pin
        | _ => d.external
      unknown := if classify topLevel = .unknown then appendNew d.unknown topLevel else d.unknown } := by
  unfold place
  rw [if_neg (by rwa [List.contains_iff_mem])]
  cases classify topLevel with
  | stdlib => exact ⟨d.log, rfl⟩
  | external pin => exact ⟨_, rfl⟩
  | unknown => exact ⟨_, rfl⟩

theorem mem_place_classified {x : String} :
    x ∈ (d.place classify topLevel).classified ↔ x ∈ d.classified ∨ x = topLevel := by
  by_cases known : topLevel ∈ d.classified
  · rw [d.place_of_mem classify topLevel known]
    exact ⟨.inl, fun h => h.elim id fun same => same ▸ known⟩
  · obtain ⟨log, placed⟩ := d.place_eq classify topLevel known
    rw [placed, List.mem_append, List.mem_singleton]

theorem mem_place_stdlib (new : topLevel ∉ d.classified) {x : String} :
    x ∈ (d.place classify topLevel).stdlib ↔
      x ∈ d.stdlib ∨ classify topLevel = .stdlib ∧ x = topLevel := by
  obtain ⟨log, placed⟩ := d.place_eq classify topLevel new
  rw [placed]
  by_cases same : classify topLevel = .stdlib
  · simp only [same, if_true, mem_appendNew, true_and]
  · simp only [same, if_false, false_and, or_false]

theorem mem_place_external (new : topLevel ∉ d.classified) {pin : Pin} :
    pin ∈ (d.place classify topLevel).external ↔
      pin ∈ d.external ∨ classify topLevel = .external pin := by
  obtain ⟨log, placed⟩ := d.place_eq classify topLevel new
  rw [placed]
  cases classify topLevel with
  | stdlib => simp only [reduceCtorEq, or_false]
  | external other => simp only [mem_appendNew, Classification.external.injEq, eq_comm]
  | unknown => simp only [reduceCtorEq, or_false]

theorem mem_place_unknown (new : topLevel ∉ d.classified) {x : String} :
    x ∈ (d.place classify topLevel).unknown ↔
      x ∈ d.unknown ∨ classify topLevel = .unknown ∧ x = topLevel := by
  obtain ⟨log, placed⟩ := d.place_eq classify topLevel new
  rw [placed]
  by_cases same : classify topLevel = .unknown
  · simp only [same, if_true, mem_appendNew, true_and]
  · simp only [same, if_false, false_and, or_false]

end Discovery

end PyBundle
