import PyBundle.Collect.Walk
import PyBundle.Proofs.Text.Split
import PyBundle.Text.Identifier

/-!
# What dotted names are made of

A dotted name and its segments determine each other. The names that an import may load are built from the
name of its importer and from what it spells, so what holds of all segments of these holds of theirs
(`ImportLine.Spells.candidates`). In particular no slash gets into them on the way, and then segments are names
of files.
-/

namespace PyBundle

/-- **A text has no slash,** so it does not lead into a directory. -/
def SlashFree (text : String) : Prop := '/' ∉ text.toList

instance (text : String) : Decidable (SlashFree text) := inferInstanceAs (Decidable ('/' ∉ text.toList))

namespace DottedName

variable {name inner segment : String} {segs : List String}

/-- A dotted name is what its segments make up. -/
theorem ofSegments_segments (name : String) : ofSegments (segments name) = name := by
  unfold ofSegments segments
  rw [← String.toList_inj, String.toList_intercalate, List.map_map, Text.toList_comp_ofList, List.map_id]
  exact List.intercalate_splitOn '.'

theorem segments_injective : Function.Injective segments := fun a b same => by
  rw [← ofSegments_segments a, same, ofSegments_segments]

theorem segments_ne_nil (name : String) : segments name ≠ [] := fun none =>
  List.splitOn_ne_nil '.' name.toList (List.map_eq_nil_iff.mp none)

/-- The segments of what segments make up are these. -/
theorem segments_ofSegments (some : segs ≠ []) (dotFree : ∀ segment ∈ segs, '.' ∉ segment.toList) :
    segments (ofSegments segs) = segs := by
  have pieces : (['.'].intercalate (segs.map String.toList)).splitOn '.' = segs.map String.toList := by
    refine List.splitOn_intercalate '.' (fun piece mem => ?_) (by simpa using some)
    obtain ⟨segment, isSegment, rfl⟩ := List.mem_map.mp mem
    exact dotFree segment isSegment
  unfold segments ofSegments
  rw [String.toList_intercalate]
  rw [show ".".toList = ['.'] from rfl, pieces, List.map_map, Text.ofList_comp_toList, List.map_id]

/-- A name behind another one has its segments behind those of that. -/
theorem segments_append (name inner : String) : segments (append name inner) = segments name ++ segments inner := by
  have text : (append name inner).toList = name.toList ++ '.' :: inner.toList := by
    unfold append
    rw [String.toList_append, String.toList_append, List.append_assoc]
    rfl
  unfold segments
  rw [text, List.splitOn_append_cons_self, List.map_append]

/-- A segment has no dot. -/
theorem dot_notMem_of_mem_segments (mem : segment ∈ segments name) : '.' ∉ segment.toList := by
  obtain ⟨piece, isPiece, rfl⟩ := List.mem_map.mp mem
  rw [String.toList_ofList]
  exact Text.separator_notMem_of_mem_splitOn isPiece

theorem slashFree_of_mem_segments (free : SlashFree name) (mem : segment ∈ segments name) :
    SlashFree segment := by
  obtain ⟨piece, isPiece, rfl⟩ := List.mem_map.mp mem
  unfold SlashFree
  rw [String.toList_ofList]
  exact fun slash => free (Text.mem_of_mem_splitOn isPiece slash)

theorem slashFree_ofSegments (free : ∀ segment ∈ segs, SlashFree segment) :
    SlashFree (ofSegments segs) := by
  unfold SlashFree ofSegments
  rw [String.toList_intercalate]
  intro slash
  rcases Text.mem_intercalate slash with dot | ⟨piece, isPiece, inPiece⟩
  · exact absurd dot (by decide)
  · obtain ⟨segment, mem, rfl⟩ := List.mem_map.mp isPiece
    exact free segment mem inPiece

/-- A name has no slash if and only if its segments have none. -/
theorem slashFree_iff : SlashFree name ↔ ∀ segment ∈ segments name, SlashFree segment := by
  refine ⟨fun free _ => slashFree_of_mem_segments free, fun each => ?_⟩
  have free := slashFree_ofSegments each
  rwa [ofSegments_segments] at free

/-! ## Names built from names -/

/-- **All segments of a name** have some property. -/
def Each (P : String → Prop) (name : String) : Prop := ∀ segment ∈ segments name, P segment

variable {P : String → Prop}

theorem each_ofSegments (blank : P "") (dotFree : ∀ segment ∈ segs, '.' ∉ segment.toList)
    (each : ∀ segment ∈ segs, P segment) : Each P (ofSegments segs) := by
  intro segment mem
  by_cases none : segs = []
  · rw [none] at mem
    rwa [List.mem_singleton.mp mem]
  · rw [segments_ofSegments none dotFree] at mem
    exact each segment mem

theorem Each.append (hn : Each P name) (hi : Each P inner) : Each P (append name inner) := by
  intro segment mem
  rw [segments_append] at mem
  exact (List.mem_append.mp mem).elim (hn segment) (hi segment)

theorem Each.ancestor {ancestor : String} (blank : P "") (each : Each P name) (mem : ancestor ∈ ancestry name) :
    Each P ancestor := by
  obtain ⟨n, -, rfl⟩ := List.mem_map.mp mem
  exact each_ofSegments blank (fun _ taken => dot_notMem_of_mem_segments (List.mem_of_mem_take taken))
    fun segment taken => each segment (List.mem_of_mem_take taken)

end DottedName

open DottedName (Each)

variable {P : String → Prop}

/-- **A relative import brings no segment** that was not in the importer's name or spelled. -/
theorem each_resolveRelative {identity name : String} {isPackage : Bool} {level : Nat} {inner : Option String}
    (blank : P "") (hi : Each P identity) (hs : ∀ spelled ∈ inner, Each P spelled)
    (resolved : resolveRelative identity isPackage level inner = some name) : Each P name := by
  unfold resolveRelative at resolved
  extract_lets climb segments package at resolved
  have taken : ∀ n, ∀ segment ∈ segments.take n, segment ∈ DottedName.segments identity := fun n segment mem =>
    (List.mem_filter.mp (List.mem_of_mem_take mem)).1
  have around : Each P package := DottedName.each_ofSegments blank
    (fun segment mem => DottedName.dot_notMem_of_mem_segments (taken _ segment mem))
    fun segment mem => hi segment (taken _ segment mem)
  split at resolved
  · cases resolved
  · split at resolved
    · rwa [← Option.some.inj resolved]
    · rename_i spelled given
      rw [← Option.some.inj resolved]
      exact around.append (hs spelled (Option.filter_eq_some_iff.mp given).1)

namespace ImportLine

variable {m : LocalModule} {l a : ImportLine}

/-- **Nothing that an import line spells has a slash.** -/
structure IsSlashFree (l : ImportLine) : Prop where
  name : SlashFree l.moduleName
  items : ∀ item ∈ l.items, SlashFree item

/-- Identifiers with dots between them are free of slashes. -/
theorem slashFree_of_identifiers {text : String}
    (spelled : ∀ c ∈ text.toList, c = '.' ∨ Text.isIdentifierContinue c = true) : SlashFree text := by
  intro slash
  rcases spelled '/' slash with dot | continues
  · exact absurd dot (by decide)
  · exact absurd continues (by decide)

/-- **An import line that spells identifiers has no slash.** An item may be `*` as well. -/
theorem IsSlashFree.of_identifiers
    (name : ∀ c ∈ l.moduleName.toList, c = '.' ∨ Text.isIdentifierContinue c = true)
    (items : ∀ item ∈ l.items,
      item = "*" ∨ ∀ c ∈ item.toList, c = '.' ∨ Text.isIdentifierContinue c = true) : l.IsSlashFree where
  name := slashFree_of_identifiers name
  items item mem := by
    rcases items item mem with rfl | spelled
    · decide
    · exact slashFree_of_identifiers spelled

/-- **All segments that an import line spells** have some property. -/
structure Spells (P : String → Prop) (l : ImportLine) : Prop where
  name : Each P l.moduleName
  items : ∀ item ∈ l.items, Each P item

theorem Spells.absolute (blank : P "") (spells : l.Spells P) (importer : Each P m.moduleName)
    (absolute : l.absolute? m = some a) : a.Spells P := by
  unfold absolute? at absolute
  split at absolute
  · obtain ⟨name, resolved, rfl⟩ := Option.map_eq_some_iff.mp absolute
    refine ⟨each_resolveRelative blank importer (fun spelled same => ?_) resolved, spells.items⟩
    cases same
    exact spells.name
  · cases absolute
    exact spells

/-- **The names that an import line may load have no other segments** than it spells. -/
theorem Spells.candidates (blank : P "") (spells : a.Spells P) {name : String} (mem : name ∈ a.candidates) :
    Each P name := by
  rcases List.mem_append.mp mem with ancestor | withItem
  · exact spells.name.ancestor blank ancestor
  · obtain ⟨item, taken, rfl⟩ := List.mem_map.mp withItem
    exact spells.name.append (spells.items item (List.mem_filter.mp taken).1)

/-- An import line has no slash if and only if the segments that it spells have none. -/
theorem isSlashFree_iff : l.IsSlashFree ↔ l.Spells SlashFree where
  mp free := ⟨DottedName.slashFree_iff.mp free.name, fun item mem => DottedName.slashFree_iff.mp (free.items item mem)⟩
  mpr spells := ⟨DottedName.slashFree_iff.mpr spells.name, fun item mem =>
    DottedName.slashFree_iff.mpr (spells.items item mem)⟩

end ImportLine

end PyBundle
