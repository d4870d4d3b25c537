import Mathlib.Logic.ExistsUnique
import PyBundle.Proofs.Collect.Closure

/-!
# What a walk files

An import line that loads no module is filed: under what its top level belongs to, or as unknown, as it is
spelled, if it leads out of all packages. Both kinds of names go through one memory of what is classified,
and only the first time counts. No name is of both kinds, since a relative import is spelled with a dot and
a top level has none, so the memory never hides a name that is still to be filed.

`Filed` ties the memory and the three buckets to the lines that are taken, and a walk that comes to its end
has taken the lines of all its modules.
-/

namespace PyBundle

/-- **An import line of a module is refused:** it is relative and leads out of all packages. -/
def ImportLine.Refused (m : LocalModule) (l : ImportLine) : Prop :=
  l.isRelative = true ∧
    resolveRelative m.moduleName m.isPackage l.level (some l.moduleName) = none

/-- What is refused has no absolute name, and nothing else has none. -/
theorem ImportLine.absolute?_eq_none {m : LocalModule} {l : ImportLine} :
    l.absolute? m = none ↔ l.Refused m := by
  unfold absolute? Refused
  cases relative : l.isRelative with
  | true => simp only [if_true, Option.map_eq_none_iff, true_and]
  | false => simp only [Bool.false_eq_true, if_false, reduceCtorEq, false_and]

namespace Sources

variable {s : Sources} {entry : Path} {m : LocalModule} {l a : ImportLine}

/-- **An import line of a module loads nothing** under any of its names, and this is its top level. -/
def Unlocated (s : Sources) (m : LocalModule) (l : ImportLine) (topLevel : String) : Prop :=
  ∃ a, l.absolute? m = some a ∧ a.topLevel = topLevel ∧
    ∀ name ∈ a.candidates, LocalModule.locate s.files s.roots name = none

theorem targets_eq_nil :
    s.targets a = [] ↔ ∀ name ∈ a.candidates, LocalModule.locate s.files s.roots name = none :=
  List.filterMap_eq_nil_iff

/-- Where an import line has an absolute name, that name has the top level under which it is filed. -/
theorem unlocated_iff (absolute : l.absolute? m = some a) {x : String} :
    s.Unlocated m l x ↔ a.topLevel = x ∧ s.targets a = [] := by
  rw [targets_eq_nil]
  constructor
  · rintro ⟨b, absolute', top, nowhere⟩
    cases absolute.symm.trans absolute'
    exact ⟨top, nowhere⟩
  · rintro ⟨top, nowhere⟩
    exact ⟨a, absolute, top, nowhere⟩

theorem Unlocated.not_refused {x : String} (unlocated : s.Unlocated m l x) : ¬ l.Refused m := by
  obtain ⟨a, absolute, -⟩ := unlocated
  intro refused
  rw [ImportLine.absolute?_eq_none.mpr refused] at absolute
  cases absolute

theorem Unlocated.dot_notMem {x : String} (unlocated : s.Unlocated m l x) : '.' ∉ x.toList := by
  obtain ⟨a, -, rfl, -⟩ := unlocated
  exact a.dot_notMem_topLevel

/-! ## The memory and the buckets -/

/-- **The memory and the buckets say of some top levels and of some refused spellings what they are.** -/
structure Filed (s : Sources) (names spellings : String → Prop) (d : Discovery) : Prop where
  classified : ∀ x, x ∈ d.classified ↔ names x ∨ spellings x
  stdlib : ∀ x, x ∈ d.stdlib ↔ names x ∧ s.classify x = .stdlib
  external : ∀ pin, pin ∈ d.external ↔ ∃ x, names x ∧ s.classify x = .external pin
  unknown : ∀ x, x ∈ d.unknown ↔ names x ∧ s.classify x = .unknown ∨ spellings x

variable {names spellings : String → Prop} {d e : Discovery}

theorem filed_empty (s : Sources) : s.Filed (fun _ => False) (fun _ => False) {} where
  classified x := by simp only [List.not_mem_nil, or_self]
  stdlib x := by simp only [List.not_mem_nil, false_and]
  external pin := by simp only [List.not_mem_nil, false_and, exists_false]
  unknown x := by simp only [List.not_mem_nil, false_and, or_self]

/-- Names are filed in whatever way they are told apart. -/
theorem Filed.congr {names' spellings' : String → Prop} (filed : s.Filed names spellings d)
    (hn : ∀ x, names' x ↔ names x) (hs : ∀ x, spellings' x ↔ spellings x) :
    s.Filed names' spellings' d := by
  obtain rfl : names' = names := funext fun x => propext (hn x)
  obtain rfl : spellings' = spellings := funext fun x => propext (hs x)
  exact filed

/-- What leaves the memory and the buckets as they are keeps what is filed. -/
theorem Filed.withBuckets (filed : s.Filed names spellings d) (classified : e.classified = d.classified)
    (stdlib : e.stdlib = d.stdlib) (external : e.external = d.external)
    (unknown : e.unknown = d.unknown) : s.Filed names spellings e where
  classified := classified ▸ filed.classified
  stdlib := stdlib ▸ filed.stdlib
  external := external ▸ filed.external
  unknown := unknown ▸ filed.unknown

/-- **A refused line is filed as it is spelled.** Had the memory its spelling as a top level, then it would
stay out of the unknown names. -/
theorem Filed.refuse (filed : s.Filed names spellings d) (m : LocalModule) (l : ImportLine)
    (other : ¬ names l.spelled) :
    s.Filed names (fun x => spellings x ∨ x = l.spelled) (d.refuse m l) where
  classified x := by rw [Discovery.mem_refuse_classified, filed.classified, or_assoc]
  stdlib := by rw [Discovery.refuse_stdlib]; exact filed.stdlib
  external := by rw [Discovery.refuse_external]; exact filed.external
  unknown x := by
    rw [Discovery.mem_refuse_unknown, filed.unknown, or_assoc, filed.classified]
    constructor
    · rintro (known | known | ⟨-, same⟩)
      · exact .inl known
      · exact .inr (.inl known)
      · exact .inr (.inr same)
    · rintro (known | known | rfl)
      · exact .inl known
      · exact .inr (.inl known)
      · by_cases before : spellings l.spelled
        · exact .inr (.inl before)
        · exact .inr (.inr ⟨fun h => h.elim other before, rfl⟩)

/-- **A top level is filed under what it belongs to,** if it is new. Were it remembered as a spelling, then
it would stay out of its bucket. -/
theorem Filed.place (filed : s.Filed names spellings d) (topLevel : String)
    (other : ¬ spellings topLevel) :
    s.Filed (fun x => names x ∨ x = topLevel) spellings (d.place s.classify topLevel) := by
  by_cases known : topLevel ∈ d.classified
  · -- The name was met before, so nothing is new on either side.
    have named : names topLevel := ((filed.classified topLevel).mp known).resolve_right other
    rw [d.place_of_mem s.classify topLevel known]
    exact filed.congr (fun x => ⟨fun h => h.elim id fun same => same ▸ named, .inl⟩) fun _ => .rfl
  · constructor
    · intro x
      rw [Discovery.mem_place_classified, filed.classified, or_right_comm]
    · intro x
      rw [d.mem_place_stdlib s.classify topLevel known, filed.stdlib, or_and_right]
      exact or_congr_right ⟨fun ⟨h, same⟩ => ⟨same, same ▸ h⟩, fun ⟨same, h⟩ => ⟨same ▸ h, same⟩⟩
    · intro pin
      rw [d.mem_place_external s.classify topLevel known, filed.external]
      simp only [or_and_right, exists_or, exists_eq_left]
    · intro x
      rw [d.mem_place_unknown s.classify topLevel known, filed.unknown, or_and_right, or_right_comm]
      exact or_congr_left (or_congr_right
        ⟨fun ⟨h, same⟩ => ⟨same, same ▸ h⟩, fun ⟨same, h⟩ => ⟨same ▸ h, same⟩⟩)

/-! ## The lines that are taken -/

/-- The top levels of some import lines that load nothing. -/
def TopLevels (s : Sources) (lines : List (LocalModule × ImportLine)) (x : String) : Prop :=
  ∃ line ∈ lines, s.Unlocated line.1 line.2 x

/-- The spellings of some import lines that are refused. -/
def RefusedSpellings (lines : List (LocalModule × ImportLine)) (x : String) : Prop :=
  ∃ line ∈ lines, line.2.Refused line.1 ∧ line.2.spelled = x

theorem TopLevels.dot_notMem {lines : List (LocalModule × ImportLine)} {x : String}
    (named : s.TopLevels lines x) : '.' ∉ x.toList := by
  obtain ⟨_, _, unlocated⟩ := named
  exact unlocated.dot_notMem

theorem RefusedSpellings.dot_mem {lines : List (LocalModule × ImportLine)} {x : String}
    (spelled : RefusedSpellings lines x) : '.' ∈ x.toList := by
  obtain ⟨_, _, refused, rfl⟩ := spelled
  exact ImportLine.dot_mem_spelled refused.1

variable {taken : List (LocalModule × ImportLine)} {x : String}

/-- One more line brings its top level, if it loads nothing. -/
theorem topLevels_concat : s.TopLevels (taken ++ [(m, l)]) x ↔
    s.TopLevels taken x ∨ s.Unlocated m l x := by
  simp only [TopLevels, List.mem_append, List.mem_singleton, or_and_right, exists_or, exists_eq_left]

/-- One more line brings its spelling, if it is refused. -/
theorem refusedSpellings_concat : RefusedSpellings (taken ++ [(m, l)]) x ↔
    RefusedSpellings taken x ∨ l.Refused m ∧ l.spelled = x := by
  simp only [RefusedSpellings, List.mem_append, List.mem_singleton, or_and_right, exists_or,
    exists_eq_left]

/-- The name of an import line that is refused or loads nothing is filed, and a line that loads something
leaves what is filed. -/
theorem Filed.advance {g h : Stage} (step : s.Advances g h)
    (filed : s.Filed (s.TopLevels g.taken) (RefusedSpellings g.taken) g.found) :
    s.Filed (s.TopLevels h.taken) (RefusedSpellings h.taken) h.found := by
  cases step with
  | scan => exact filed.withBuckets rfl rfl rfl rfl
  | @refuse m l rest d taken refused =>
    have refused := ImportLine.absolute?_eq_none.mp refused
    have counted := filed.withBuckets (e := d.countLine) rfl rfl rfl rfl
    refine (counted.refuse m l fun named => ?_).congr (fun x => ?_) fun x => ?_
    · exact named.dot_notMem (ImportLine.dot_mem_spelled refused.1)
    · rw [topLevels_concat]
      exact or_iff_left fun unlocated => unlocated.not_refused refused
    · rw [refusedSpellings_concat]
      exact or_congr_right ⟨fun h => h.2.symm, fun h => ⟨refused, h.symm⟩⟩
  | @place m l a rest d taken absolute unlocated =>
    have counted := filed.withBuckets (e := d.countLine) rfl rfl rfl rfl
    have here : ∀ x, s.Unlocated m l x ↔ x = a.topLevel := fun x => by
      rw [unlocated_iff absolute, and_iff_left unlocated, eq_comm]
    refine (counted.place a.topLevel fun spelled => ?_).congr (fun x => ?_) fun x => ?_
    · exact a.dot_notMem_topLevel spelled.dot_mem
    · rw [topLevels_concat, here]
    · rw [refusedSpellings_concat]
      exact or_iff_left fun h => ((here _).mpr rfl).not_refused h.1
  | @load m l a rest d taken absolute located =>
    obtain ⟨log, told⟩ := tellTargets_eq m a (s.targets a) d.countLine
    rw [told]
    have kept := filed.withBuckets (e := { d.countLine with log }) rfl rfl rfl rfl
    refine kept.congr (fun x => ?_) fun x => ?_
    · rw [topLevels_concat, unlocated_iff absolute]
      exact or_iff_left fun h => located h.2
    · rw [refusedSpellings_concat, ← ImportLine.absolute?_eq_none, absolute]
      exact or_iff_left fun h => nomatch h.1
  | skip => exact filed
  | add => exact filed.withBuckets rfl rfl rfl rfl

/-- At every stage, the memory and the buckets say what the lines are that are taken. -/
theorem Reaches.filed {g : Stage} (reach : s.Reaches (start entry) g) :
    s.Filed (s.TopLevels g.taken) (RefusedSpellings g.taken) g.found := by
  refine reach.keeps (P := fun g => s.Filed (s.TopLevels g.taken)
    (RefusedSpellings g.taken) g.found) ?_ fun _ _ _ step filed => filed.advance step
  have empty : s.Filed (fun _ => False) (fun _ => False) (start entry).found :=
    (filed_empty s).withBuckets rfl rfl rfl rfl
  exact empty.congr (fun x => iff_false_intro fun ⟨_, mem, _⟩ => List.not_mem_nil mem)
    fun x => iff_false_intro fun ⟨_, mem, _⟩ => List.not_mem_nil mem

/-! ## The end of a walk -/

/-- **Where a name can be filed.** -/
inductive Bucket where
  | stdlib
  | external
  | unknown
  deriving DecidableEq, Repr

/-- The bucket of the names that belong to something. -/
def Bucket.ofKind : Classification → Bucket
  | .stdlib => .stdlib
  | .external _ => .external
  | .unknown => .unknown

/-- **A bucket has an import line of a module:** its top level or what provides that, or its spelling. -/
inductive Represents (s : Sources) (found : Discovery) (m : LocalModule) (l : ImportLine) :
    Bucket → Prop where
  | stdlib {x : String} (filed : s.Unlocated m l x ∨ l.Refused m ∧ l.spelled = x)
      (mem : x ∈ found.stdlib) : Represents s found m l .stdlib
  | external {x : String} {pin : Pin} (filed : s.Unlocated m l x)
      (provided : s.classify x = .external pin) (mem : pin ∈ found.external) :
      Represents s found m l .external
  | unknown {x : String} (filed : s.Unlocated m l x ∨ l.Refused m ∧ l.spelled = x)
      (mem : x ∈ found.unknown) : Represents s found m l .unknown

/-- The top levels of the import lines that load nothing, of all modules that are found. -/
def UnlocatedIn (s : Sources) (found : Discovery) (x : String) : Prop :=
  ∃ m ∈ found.modules, ∃ l, s.HasLine m l ∧ s.Unlocated m l x

/-- The spellings of the import lines that are refused, of all modules that are found. -/
def RefusedIn (s : Sources) (found : Discovery) (x : String) : Prop :=
  ∃ m ∈ found.modules, ∃ l, s.HasLine m l ∧ l.Refused m ∧ l.spelled = x

/-- **What is found files all import lines that load nothing:** each bucket has exactly what the lines of
the modules put there, and each line loads modules, all of them found, or is in one bucket. -/
structure Buckets (s : Sources) (found : Discovery) : Prop where
  filed : s.Filed (s.UnlocatedIn found) (s.RefusedIn found) found
  disjoint : ∀ x ∈ found.stdlib, x ∉ found.unknown
  accounted : ∀ m ∈ found.modules, ∀ l, s.HasLine m l →
    (∃ a, l.absolute? m = some a ∧ s.targets a ≠ [] ∧ ∀ t ∈ s.targets a, t ∈ found.modules) ∨
      ∃! bucket, s.Represents found m l bucket

/-- Where no task is left, the lines that are taken are the lines of the modules that are found. -/
theorem Reaches.mem_taken_iff (reach : s.Reaches (start entry) ⟨[], d, taken⟩) :
    (m, l) ∈ taken ↔ m ∈ d.modules ∧ s.HasLine m l := by
  have accounted := reach.accounted
  constructor
  · exact accounted.taken m l
  · rintro ⟨mem, standing⟩
    rcases accounted.lines m mem l standing with before | task | scan
    · exact before
    · cases task
    · cases scan

theorem Reaches.unlocatedIn_iff (reach : s.Reaches (start entry) ⟨[], d, taken⟩) :
    s.UnlocatedIn d x ↔ s.TopLevels taken x := by
  constructor
  · rintro ⟨m, mem, l, standing, unlocated⟩
    exact ⟨(m, l), reach.mem_taken_iff.mpr ⟨mem, standing⟩, unlocated⟩
  · rintro ⟨⟨m, l⟩, took, unlocated⟩
    obtain ⟨mem, standing⟩ := reach.mem_taken_iff.mp took
    exact ⟨m, mem, l, standing, unlocated⟩

theorem Reaches.refusedIn_iff (reach : s.Reaches (start entry) ⟨[], d, taken⟩) :
    s.RefusedIn d x ↔ RefusedSpellings taken x := by
  constructor
  · rintro ⟨m, mem, l, standing, refused⟩
    exact ⟨(m, l), reach.mem_taken_iff.mpr ⟨mem, standing⟩, refused⟩
  · rintro ⟨⟨m, l⟩, took, refused⟩
    obtain ⟨mem, standing⟩ := reach.mem_taken_iff.mp took
    exact ⟨m, mem, l, standing, refused⟩

/-- No top level is standard and unknown, and none is a refused spelling. -/
theorem Filed.disjoint {lines : List (LocalModule × ImportLine)}
    (filed : s.Filed (s.TopLevels lines) (RefusedSpellings lines) d) (standard : x ∈ d.stdlib) :
    x ∉ d.unknown := by
  obtain ⟨named, kind⟩ := (filed.stdlib x).mp standard
  intro unknown
  rcases (filed.unknown x).mp unknown with ⟨-, kind'⟩ | spelled
  · cases kind.symm.trans kind'
  · exact named.dot_notMem spelled.dot_mem

/-- **A line that loads nothing is in the bucket of what its top level belongs to,** and in no other. -/
theorem Filed.represents_iff {lines : List (LocalModule × ImportLine)}
    (filed : s.Filed (s.TopLevels lines) (RefusedSpellings lines) d) (took : (m, l) ∈ lines)
    (unlocated : s.Unlocated m l x) (bucket : Bucket) :
    s.Represents d m l bucket ↔ bucket = .ofKind (s.classify x) := by
  have named : s.TopLevels lines x := ⟨(m, l), took, unlocated⟩
  constructor
  · -- Whatever name the line has in a bucket is this one.
    have only : ∀ y, s.Unlocated m l y ∨ l.Refused m ∧ l.spelled = y → y = x := by
      rintro y (⟨a, absolute, rfl, -⟩ | ⟨refused, -⟩)
      · exact ((unlocated_iff absolute).mp unlocated).1
      · exact absurd refused unlocated.not_refused
    intro represents
    cases represents with
    | stdlib filed' mem =>
      cases only _ filed'
      rw [((filed.stdlib x).mp mem).2]
      rfl
    | external filed' provided =>
      cases only _ (.inl filed')
      rw [provided]
      rfl
    | unknown filed' mem =>
      cases only _ filed'
      rcases (filed.unknown x).mp mem with ⟨-, kind⟩ | spelled
      · rw [kind]
        rfl
      · exact absurd spelled.dot_mem named.dot_notMem
  · rintro rfl
    cases kind : s.classify x with
    | stdlib => exact .stdlib (.inl unlocated) ((filed.stdlib x).mpr ⟨named, kind⟩)
    | external pin => exact .external unlocated kind ((filed.external pin).mpr ⟨x, named, kind⟩)
    | unknown => exact .unknown (.inl unlocated) ((filed.unknown x).mpr (.inl ⟨named, kind⟩))

/-- **A refused line is unknown** and in no other bucket. -/
theorem Filed.represents_refused {lines : List (LocalModule × ImportLine)}
    (filed : s.Filed (s.TopLevels lines) (RefusedSpellings lines) d) (took : (m, l) ∈ lines)
    (refused : l.Refused m) : ∃! bucket, s.Represents d m l bucket := by
  have spelled : RefusedSpellings lines l.spelled := ⟨(m, l), took, refused, rfl⟩
  have unknown : l.spelled ∈ d.unknown := (filed.unknown l.spelled).mpr (.inr spelled)
  refine ⟨.unknown, .unknown (.inr ⟨refused, rfl⟩) unknown, fun bucket other => ?_⟩
  cases other with
  | stdlib filed' mem =>
    rcases filed' with unlocated | ⟨-, rfl⟩
    · exact absurd refused unlocated.not_refused
    · exact absurd unknown (filed.disjoint mem)
  | external unlocated => exact absurd refused unlocated.not_refused
  | unknown => rfl

/-- **A walk that comes to its end files all that it has to file,** and nothing else. -/
theorem Reaches.buckets (reach : s.Reaches (start entry) ⟨[], d, taken⟩) (r : LogRecord) :
    s.Buckets (d.note r) := by
  have filed : s.Filed (s.TopLevels taken) (RefusedSpellings taken) (d.note r) :=
    reach.filed.withBuckets rfl rfl rfl rfl
  refine ⟨filed.congr (fun _ => reach.unlocatedIn_iff) fun _ => reach.refusedIn_iff,
    fun x => filed.disjoint, fun m mem l standing => ?_⟩
  have took : (m, l) ∈ taken := reach.mem_taken_iff.mpr ⟨mem, standing⟩
  cases absolute : l.absolute? m with
  | none => exact .inr (filed.represents_refused took (ImportLine.absolute?_eq_none.mp absolute))
  | some a =>
    by_cases nowhere : s.targets a = []
    · have unlocated : s.Unlocated m l a.topLevel := (unlocated_iff absolute).mpr ⟨rfl, nowhere⟩
      have represents := filed.represents_iff took unlocated
      exact .inr ⟨_, (represents _).mpr rfl, fun bucket => (represents bucket).mp⟩
    · refine .inl ⟨a, rfl, nowhere, fun t target => ?_⟩
      rcases reach.accounted.loaded m l a t took absolute target with found | visit
      · exact found
      · cases visit

end Sources

end PyBundle
