import PyBundle.Bundle.Manifest
import PyBundle.Proofs.Collect.Local
import PyBundle.Proofs.Collect.Same
import PyBundle.Proofs.FileSystem.Files
import PyBundle.Proofs.Module.Relative
import PyBundle.Proofs.Text.Order

/-!
# What brings a name that is not local

An import line that loads nothing is filed under its top level, and a relative line is seen as an absolute one by then.
Its top level is that of its importer, so it is filed under the name of a directory that holds a local module: this
happens where the directory is no package and something standard or installed has its name.

A walk does not see the difference otherwise. Without the relative lines that load nothing it finds the same modules in
the same order (`follows_discover`), and it files what the absolute lines bring. `collect_causes` says what each entry
comes from, and that nothing else goes with these lines.
-/

namespace PyBundle

/-! ## Import lines -/

/-- **A relative import stays in the top level of its importer.** -/
theorem topLevelOf_resolveRelative {identity name : String} {isPackage : Bool} {level : Nat} {inner : Option String}
    (full : "" ∉ DottedName.segments identity)
    (resolved : resolveRelative identity isPackage level inner = some name) :
    ImportLine.topLevelOf name = ImportLine.topLevelOf identity := by
  have all : (DottedName.segments identity).filter (· != "") = DottedName.segments identity :=
    List.filter_eq_self.mpr fun segment mem => bne_iff_ne.mpr fun empty => full (empty ▸ mem)
  have dotFree : ∀ segment ∈ DottedName.segments identity, '.' ∉ segment.toList := fun _ =>
    DottedName.dot_notMem_of_mem_segments
  have named : ∀ kept inner', kept ≠ [] → kept <+: DottedName.segments identity →
      ImportLine.topLevelOf (Option.elim inner' (DottedName.ofSegments kept)
        (DottedName.append (DottedName.ofSegments kept))) = ImportLine.topLevelOf identity := by
    intro kept inner' some front
    have free : ∀ segment ∈ kept, '.' ∉ segment.toList := fun segment mem => dotFree segment (front.subset mem)
    apply Option.some.inj
    obtain ⟨others, split⟩ := front
    rw [← DottedName.head?_segments, ← DottedName.head?_segments, LocalModule.segments_elim_append some free, ← split,
      List.head?_append_of_ne_nil _ some, List.head?_append_of_ne_nil _ some]
  unfold resolveRelative at resolved
  rw [all] at resolved
  generalize (if isPackage then level - 1 else level) = climb at resolved
  dsimp only at resolved
  split at resolved
  · cases resolved
  · rename_i inside
    have some : (DottedName.segments identity).take ((DottedName.segments identity).length - climb) ≠ [] := by
      intro none
      have lengths := congrArg List.length none
      rw [List.length_take, List.length_nil] at lengths
      omega
    have name_eq := named _ (inner.filter (· != "")) some (List.take_prefix _ _)
    split at resolved <;> rename_i given <;> rw [given] at name_eq <;> cases resolved <;> exact name_eq

namespace ImportLine

variable {l a : ImportLine} {m : LocalModule}

/-- **What an import line says,** wherever it stands. -/
def unnumbered (l : ImportLine) : ImportLine := { l with line := 0 }

theorem isRelative_unnumbered (l : ImportLine) : l.unnumbered.isRelative = l.isRelative := rfl

theorem absolute?_unnumbered (m : LocalModule) (l : ImportLine) :
    l.unnumbered.absolute? m = (l.absolute? m).map unnumbered := by
  unfold absolute?
  rw [isRelative_unnumbered]
  split
  · rw [Option.map_map]
    rfl
  · rfl

end ImportLine

namespace Sources

variable {s s' : Sources} {entry : Path} {m t : LocalModule} {l k a : ImportLine} {x : String}
  {found d d' e : Discovery}

/-- **The modules that an import line of a module loads.** -/
def goals (s : Sources) (m : LocalModule) (l : ImportLine) : List LocalModule := (l.absolute? m).elim [] s.targets

theorem goals_unnumbered (s : Sources) (m : LocalModule) (l : ImportLine) :
    s.goals m l.unnumbered = s.goals m l := by
  unfold goals
  rw [ImportLine.absolute?_unnumbered]
  cases l.absolute? m <;> rfl

theorem unlocated_unnumbered : s.Unlocated m l.unnumbered x ↔ s.Unlocated m l x := by
  unfold Unlocated
  rw [ImportLine.absolute?_unnumbered]
  cases l.absolute? m with
  | none => simp only [Option.map_none, reduceCtorEq, false_and, exists_false]
  | some a =>
    simp only [Option.map_some, Option.some.injEq, exists_eq_left']
    rfl

/-- A line with a top level that is filed loads nothing. -/
theorem Unlocated.goals_eq_nil (unlocated : s.Unlocated m l x) : s.goals m l = [] := by
  obtain ⟨a, absolute, -, nowhere⟩ := unlocated
  unfold goals
  rw [absolute]
  exact targets_eq_nil.mpr nowhere

/-! ## What a relative line is filed under -/

/-- **A relative line that is filed is in a module whose top level it has,** and this is no module. -/
theorem Reachable.topLevel_of_relative (reach : s.Reachable entry m) (relative : l.isRelative = true)
    (unlocated : s.Unlocated m l x) :
    m.moduleName ≠ "" ∧ x = ImportLine.topLevelOf m.moduleName ∧ LocalModule.locate s.files s.roots x = none := by
  have nowhere := unlocated.locate_eq_none
  obtain ⟨a, absolute, top, -⟩ := unlocated
  unfold ImportLine.absolute? at absolute
  rw [if_pos relative] at absolute
  obtain ⟨name, resolved, rfl⟩ := Option.map_eq_some_iff.mp absolute
  rcases reach.eq_entry_or_located with rfl | ⟨named, located⟩
  · -- The entry has no name, so there is no package to climb from.
    cases resolved
  · obtain ⟨full, -⟩ := LocalModule.locate_eq_some.mp located
    exact ⟨named, top.symm.trans (topLevelOf_resolveRelative full resolved), nowhere⟩

/-! ## Searches that find the same modules -/

/-- **A search ends** with what it has found. -/
def Finds (search : Search Unit) (d e : Discovery) : Prop := search.run.run d = (.ok (), e)

theorem finds_bind {first : Search Unit} {next : Unit → Search Unit} :
    Finds (first >>= next) d e ↔ ∃ between, Finds first d between ∧ Finds (next ()) between e := by
  unfold Finds
  rw [run_bind]
  generalize first.run.run d = answer
  obtain ⟨_ | _, between⟩ := answer
  · exact ⟨nofun, fun ⟨_, failed, _⟩ => nomatch failed⟩
  · refine ⟨fun ended => ⟨between, rfl, ended⟩, fun ⟨_, begun, ended⟩ => ?_⟩
    cases begun
    exact ended

theorem finds_modify (change : Discovery → Discovery) : Finds (modify change) d e ↔ e = change d := by
  unfold Finds
  constructor
  · intro run
    cases run
    rfl
  · rintro rfl
    rfl

/-- **A search follows another one:** where that ends, it ends too, and it has found the same modules. -/
def Follows (search search' : Search Unit) : Prop :=
  ∀ d d' e, d'.modules = d.modules → Finds search d e → ∃ e', Finds search' d' e' ∧ e'.modules = e.modules

variable {first first' : Search Unit} {next next' : Unit → Search Unit}

theorem Follows.bind (starts : Follows first first') (goesOn : Follows (next ()) (next' ())) :
    Follows (first >>= next) (first' >>= next') := by
  intro d d' e same finds
  obtain ⟨between, begun, ended⟩ := finds_bind.mp finds
  obtain ⟨between', begun', same'⟩ := starts d d' between same begun
  obtain ⟨e', ended', modules⟩ := goesOn between between' e same' ended
  exact ⟨e', finds_bind.mpr ⟨between', begun', ended'⟩, modules⟩

theorem follows_forM {α : Type} {search search' : α → Search Unit} {items : List α}
    (each : ∀ item ∈ items, Follows (search item) (search' item)) :
    Follows (items.forM search) (items.forM search') := by
  induction items with
  | nil =>
    intro d d' e same finds
    cases finds
    exact ⟨d', rfl, same⟩
  | cons item items ih =>
    obtain ⟨head, others⟩ := List.forall_mem_cons.mp each
    exact head.bind (ih others)

theorem follows_modify {change change' : Discovery → Discovery}
    (same : ∀ d d', d'.modules = d.modules → (change' d').modules = (change d).modules) :
    Follows (modify change) (modify change') := by
  intro d d' e modules finds
  refine ⟨change' d', (finds_modify change').mpr rfl, ?_⟩
  rw [(finds_modify change).mp finds]
  exact same d d' modules

/-- A target is visited or skipped on both sides. -/
theorem follows_visitTarget {discover discover' : LocalModule → Search Unit}
    (follows : Follows (discover t) (discover' t)) : Follows (visitTarget discover t) (visitTarget discover' t) := by
  have unfolded : ∀ (discover : LocalModule → Search Unit) d e, Finds (visitTarget discover t) d e ↔
      if d.hasModule t then e = d else Finds (discover t) (d.addModule t) e := by
    intro discover d e
    show ((if d.hasModule t then (pure () : Search Unit) else
      (modify (·.addModule t) >>= fun _ => discover t)).run.run d = (.ok (), e)) ↔ _
    split
    · exact ⟨fun run => by cases run; rfl, fun same => by rw [same]; rfl⟩
    · exact Iff.rfl
  intro d d' e same finds
  have known : d'.hasModule t = d.hasModule t := by
    unfold Discovery.hasModule
    rw [same]
  rw [unfolded] at finds
  simp only [unfolded, known]
  split at finds
  · rename_i found
    simp only [found, if_true]
    exact ⟨d', rfl, by rw [same, finds]⟩
  · rename_i new
    simp only [new]
    refine follows _ _ e ?_ finds
    show d'.modules ++ [t] = d.modules ++ [t]
    rw [same]

/-- **Taking an import line is visiting what it loads,** and noting something. -/
theorem exists_visitLine (s : Sources) (discover : LocalModule → Search Unit) (m : LocalModule) (l : ImportLine)
    (d : Discovery) : ∃ noted : Discovery, noted.modules = d.modules ∧
      (s.visitLine discover m l).run.run d = ((s.goals m l).forM (visitTarget discover)).run.run noted := by
  unfold visitLine goals
  cases absolute : l.absolute? m with
  | none =>
    refine ⟨d.countLine.refuse m l, Discovery.refuse_modules .., ?_⟩
    rw [run_bind]
    rfl
  | some a =>
    dsimp only [Option.elim_some]
    cases targets : s.targets a with
    | nil =>
      refine ⟨d.countLine.place s.classify a.topLevel, Discovery.place_modules .., ?_⟩
      rw [run_bind]
      rfl
    | cons first others =>
      obtain ⟨log, told⟩ := tellTargets_eq m a (first :: others) d.countLine
      refine ⟨tellTargets m a (first :: others) d.countLine, by rw [told]; rfl, ?_⟩
      rw [run_bind]
      rfl

/-! ## Without the relative lines that load nothing -/

/-- **An import line may go:** it is relative and loads nothing. -/
def isIdle (s : Sources) (m : LocalModule) (l : ImportLine) : Bool := l.isRelative && (s.goals m l).isEmpty

/-- **Sources without the relative lines that load nothing:** the files that are there and what names belong to are the
same, and so are the other lines of each module that is reached, wherever they stand now. -/
structure Strips (s : Sources) (entry : Path) (s' : Sources) : Prop where
  roots : s'.roots = s.roots
  classify : s'.classify = s.classify
  isFile : ∀ p, s'.files.isFile p = s.files.isFile p
  lines : ∀ m lines, s.Reachable entry m → s.linesOf m = .ok lines →
    ∃ others, s'.linesOf m = .ok others ∧
      others.map ImportLine.unnumbered = (lines.filter (!s.isIdle m ·)).map ImportLine.unnumbered

theorem Strips.locate (strips : s.Strips entry s') (name : String) :
    LocalModule.locate s'.files s'.roots name = LocalModule.locate s.files s.roots name := by
  rw [strips.roots]
  exact LocalModule.locate_congr fun root _ isPackage => strips.isFile _

theorem Strips.goals (strips : s.Strips entry s') (m : LocalModule) (l : ImportLine) : s'.goals m l = s.goals m l := by
  unfold Sources.goals targets
  rw [funext strips.locate]

theorem Strips.unlocated_iff (strips : s.Strips entry s') : s'.Unlocated m l x ↔ s.Unlocated m l x := by
  unfold Unlocated
  simp only [strips.locate]

/-- **The lines of a module are followed without those that load nothing.** -/
theorem follows_lines {discover discover' : LocalModule → Search Unit} (strips : s.Strips entry s')
    {lines others : List ImportLine}
    (same : others.map ImportLine.unnumbered = (lines.filter (!s.isIdle m ·)).map ImportLine.unnumbered)
    (follows : ∀ l ∈ lines, ∀ t ∈ s.goals m l, Follows (discover t) (discover' t)) :
    Follows (lines.forM (s.visitLine discover m)) (others.forM (s'.visitLine discover' m)) := by
  induction lines generalizing others with
  | nil =>
    obtain rfl : others = [] := List.map_eq_nil_iff.mp same
    intro d d' e modules finds
    cases finds
    exact ⟨d', rfl, modules⟩
  | cons l lines ih =>
    obtain ⟨first, rest⟩ := List.forall_mem_cons.mp follows
    cases idle : s.isIdle m l with
    | true =>
      rw [List.filter_cons_of_neg (by simp [idle])] at same
      intro d d' e modules finds
      obtain ⟨between, begun, ended⟩ := finds_bind.mp finds
      obtain ⟨noted, kept, run⟩ := s.exists_visitLine discover m l d
      have nothing : s.goals m l = [] := List.isEmpty_iff.mp (Bool.and_eq_true_iff.mp idle).2
      unfold Finds at begun
      rw [run, nothing] at begun
      cases begun
      exact ih same rest between d' e (modules.trans kept.symm) ended
    | false =>
      rw [List.filter_cons_of_pos (by simp [idle]), List.map_cons, List.map_eq_cons_iff] at same
      obtain ⟨k, others, rfl, sameLine, same⟩ := same
      refine Follows.bind (fun d d' e modules finds => ?_) (ih same rest)
      obtain ⟨noted, kept, run⟩ := s.exists_visitLine discover m l d
      obtain ⟨noted', kept', run'⟩ := s'.exists_visitLine discover' m k d'
      have loads : s'.goals m k = s.goals m l := by
        rw [strips.goals, ← goals_unnumbered, sameLine, goals_unnumbered]
      unfold Finds at finds ⊢
      rw [run] at finds
      rw [run', loads]
      exact follows_forM (fun t mem => follows_visitTarget (first t mem)) noted noted' e
        (kept'.trans (modules.trans kept.symm)) finds

/-- **A module is discovered without these lines** as it is with them. -/
theorem follows_discover (strips : s.Strips entry s') (fuel : Nat) (reach : s.Reachable entry m) :
    Follows (s.discover fuel m) (s'.discover fuel m) := by
  induction fuel generalizing m with
  | zero =>
    intro d d' e modules finds
    cases finds
  | succ fuel ih =>
    unfold discover
    refine Follows.bind (follows_modify fun d d' modules => modules) ?_
    cases read : s.linesOf m with
    | error e =>
      intro d d' e modules finds
      cases finds
    | ok lines =>
      obtain ⟨others, read', same⟩ := strips.lines m lines reach read
      rw [read']
      show Follows (lines.forM _) (others.forM _)
      refine follows_lines strips same fun l mem t goal => ih ?_
      unfold Sources.goals at goal
      cases absolute : l.absolute? m with
      | none =>
        rw [absolute] at goal
        cases goal
      | some a =>
        rw [absolute] at goal
        exact reach.tail (.of_mem_targets ⟨lines, read, mem⟩ absolute goal)

/-- **A walk that succeeds does so without these lines,** and it finds the same modules in the same order. -/
theorem collect_stripped (strips : s.Strips entry s') {limit : Nat} (success : (s.collect entry limit).1 = .ok ()) :
    (s'.collect entry limit).1 = .ok () ∧
      (s'.collect entry limit).2.modules = (s.collect entry limit).2.modules := by
  have walks : Follows (s.discover limit (.entry entry) >>= fun _ => modify fun d => d.note (.debug d.summary))
      (s'.discover limit (.entry entry) >>= fun _ => modify fun d => d.note (.debug d.summary)) :=
    (follows_discover strips limit .refl).bind (follows_modify fun d d' modules => modules)
  obtain ⟨found', ended, same⟩ := walks (Discovery.addModule {} (.entry entry)) _ (s.collect entry limit).2 rfl
    (Prod.ext success rfl)
  have run : s'.collect entry limit = (.ok (), found') := ended
  rw [run]
  exact ⟨rfl, same⟩

/-! ## What the entries come from -/

/-- The top levels of the import lines that load nothing and are absolute in their source. -/
def AbsoluteIn (s : Sources) (found : Discovery) (x : String) : Prop :=
  ∃ m ∈ found.modules, ∃ l, s.HasLine m l ∧ l.isRelative = false ∧ s.Unlocated m l x

/-- **The top levels of the relative lines that load nothing:** each is the one of a module that is found and has a
name, and it is no module itself. -/
def RelativeIn (s : Sources) (found : Discovery) (x : String) : Prop :=
  ∃ m ∈ found.modules, m.moduleName ≠ "" ∧ x = ImportLine.topLevelOf m.moduleName ∧
    LocalModule.locate s.files s.roots x = none ∧ ∃ l, s.HasLine m l ∧ l.isRelative = true ∧ s.Unlocated m l x

/-- A top level that is filed comes from an absolute line or from a relative one. -/
theorem unlocatedIn_iff (reach : ∀ m ∈ found.modules, s.Reachable entry m) :
    s.UnlocatedIn found x ↔ s.AbsoluteIn found x ∨ s.RelativeIn found x := by
  constructor
  · rintro ⟨m, mem, l, line, unlocated⟩
    cases relative : l.isRelative with
    | false => exact .inl ⟨m, mem, l, line, relative, unlocated⟩
    | true =>
      obtain ⟨named, top, nowhere⟩ := (reach m mem).topLevel_of_relative relative unlocated
      exact .inr ⟨m, mem, named, top, nowhere, l, line, relative, unlocated⟩
  · rintro (⟨m, mem, l, line, -, unlocated⟩ | ⟨m, mem, -, -, -, l, line, -, unlocated⟩)
    · exact ⟨m, mem, l, line, unlocated⟩
    · exact ⟨m, mem, l, line, unlocated⟩

/-- **Without these lines** the top levels that are filed are those of the absolute ones. -/
theorem unlocatedIn_stripped (strips : s.Strips entry s') (same : d'.modules = d.modules)
    (reach : ∀ m ∈ d.modules, s.Reachable entry m ∧ ∃ lines, s.linesOf m = .ok lines) :
    s'.UnlocatedIn d' x ↔ s.AbsoluteIn d x := by
  unfold UnlocatedIn AbsoluteIn
  rw [same]
  refine exists_congr fun m => and_congr_right fun mem => ?_
  obtain ⟨reachable, lines, read⟩ := reach m mem
  obtain ⟨others, read', kept⟩ := strips.lines m lines reachable read
  constructor
  · rintro ⟨k, ⟨lines', readk, memk⟩, unlocated⟩
    cases read'.symm.trans readk
    have image : k.unnumbered ∈ (lines.filter (!s.isIdle m ·)).map ImportLine.unnumbered :=
      kept ▸ List.mem_map_of_mem memk
    obtain ⟨l, isKept, sameLine⟩ := List.mem_map.mp image
    obtain ⟨isLine, stays⟩ := List.mem_filter.mp isKept
    have unlocated' : s.Unlocated m l x := by
      rw [← unlocated_unnumbered, sameLine, unlocated_unnumbered]
      exact strips.unlocated_iff.mp unlocated
    refine ⟨l, ⟨lines, read, isLine⟩, ?_, unlocated'⟩
    simpa [isIdle, unlocated'.goals_eq_nil] using stays
  · rintro ⟨l, ⟨lines', readl, isLine⟩, absolute, unlocated⟩
    cases read.symm.trans readl
    have isKept : l ∈ lines.filter (!s.isIdle m ·) := List.mem_filter.mpr ⟨isLine, by simp [isIdle, absolute]⟩
    have image : l.unnumbered ∈ others.map ImportLine.unnumbered := kept ▸ List.mem_map_of_mem isKept
    obtain ⟨k, memk, sameLine⟩ := List.mem_map.mp image
    refine ⟨k, ⟨others, read', memk⟩, strips.unlocated_iff.mpr ?_⟩
    rw [← unlocated_unnumbered, sameLine, unlocated_unnumbered]
    exact unlocated

theorem nodup_appendNew {α : Type} [BEq α] [LawfulBEq α] {xs : List α} (nodup : xs.Nodup) (x : α) :
    (appendNew xs x).Nodup := by
  unfold appendNew
  split
  · exact nodup
  · rename_i new
    rw [List.contains_iff_mem] at new
    refine List.nodup_append.mpr ⟨nodup, List.pairwise_singleton _ x, fun y mem z single same => new ?_⟩
    rwa [← List.mem_singleton.mp single, ← same]

/-- No distribution is told twice. -/
theorem Reaches.nodup_external {g : Stage} (reach : s.Reaches (start entry) g) : g.found.external.Nodup := by
  refine reach.keeps (P := fun g => g.found.external.Nodup) List.nodup_nil fun g h _ step nodup => ?_
  cases step with
  | scan => exact nodup
  | refuse =>
    rw [Discovery.refuse_external]
    exact nodup
  | @place m l a rest d taken absolute unlocated =>
    by_cases known : a.topLevel ∈ d.countLine.classified
    · rw [d.countLine.place_of_mem s.classify a.topLevel known]
      exact nodup
    · obtain ⟨log, placed⟩ := d.countLine.place_eq s.classify a.topLevel known
      rw [placed]
      dsimp only
      split
      · exact nodup_appendNew nodup _
      · exact nodup
  | @load m l a rest d taken =>
    obtain ⟨log, told⟩ := tellTargets_eq m a (s.targets a) d.countLine
    rw [told]
    exact nodup
  | skip => exact nodup
  | add => exact nodup

/-- **A walk that succeeds has filed what it has to file,** its modules are what the program reaches, it has read them,
and no distribution is told twice. -/
theorem filed_of_collect {limit : Nat} (success : (s.collect entry limit).1 = .ok ()) :
    s.Filed (s.UnlocatedIn (s.collect entry limit).2) (s.RefusedIn (s.collect entry limit).2)
        (s.collect entry limit).2 ∧
      (∀ m, m ∈ (s.collect entry limit).2.modules ↔ s.Reachable entry m) ∧
      (∀ m ∈ (s.collect entry limit).2.modules, ∃ lines, s.linesOf m = .ok lines) ∧
      (s.collect entry limit).2.external.Nodup := by
  obtain ⟨d, taken, reach, left⟩ := exists_reaches_of_collect success
  obtain ⟨closed, read⟩ := reach.closed
  rw [left]
  exact ⟨(reach.buckets _).filed, closed.mem_iff, read, reach.nodup_external⟩

end Sources

/-! ## The order of distributions -/

namespace Pin

variable {pins others : List Pin}

/-- **Distributions are in one order,** however they are given, if no two of them differ in case alone. -/
theorem sorted_eq (nodup : pins.Nodup) (nodup' : others.Nodup) (same : ∀ p, p ∈ others ↔ p ∈ pins)
    (apart : ∀ p ∈ pins, ∀ q ∈ pins, Text.lower p.name = Text.lower q.name → p = q) : sorted others = sorted pins :=
  Text.mergeSort_eq (fun p : Pin => Text.lower p.name) nodup nodup' same apart

end Pin

namespace Sources

variable {s : Sources} {entry : Path}

/-- **No directory is taken for something else:** where the top level of a module that is found is no module, nothing
standard or installed has its name. -/
def NamesakeFree (s : Sources) (found : Discovery) : Prop :=
  ∀ m ∈ found.modules, m.moduleName ≠ "" →
    LocalModule.locate s.files s.roots (ImportLine.topLevelOf m.moduleName) = none →
      s.classify (ImportLine.topLevelOf m.moduleName) = .unknown

/-- **What the standard and the installed modules come from:** absolute lines that load nothing, and relative ones in a
module whose top level is no module and has the name of something standard or installed. Without the relative lines that
load nothing the walk finds the same modules, and of the standard and the installed ones those that come from absolute
lines. So nothing is lost where no directory has such a name, and the manifest stays as it is then, unless names of
distributions differ in case alone. -/
theorem collect_causes (s : Sources) (entry : Path) (limit : Nat)
    (success : (s.collect entry limit).1 = .ok ()) :
    let found := (s.collect entry limit).2
    (∀ x, x ∈ found.stdlib ↔ s.classify x = .stdlib ∧ (s.AbsoluteIn found x ∨ s.RelativeIn found x)) ∧
    (∀ pin, pin ∈ found.external ↔
      ∃ x, s.classify x = .external pin ∧ (s.AbsoluteIn found x ∨ s.RelativeIn found x)) ∧
    ∀ s', s.Strips entry s' →
      let stripped := (s'.collect entry limit).2
      (s'.collect entry limit).1 = .ok () ∧ stripped.modules = found.modules ∧
      (∀ x, x ∈ stripped.stdlib ↔ s.classify x = .stdlib ∧ s.AbsoluteIn found x) ∧
      (∀ pin, pin ∈ stripped.external ↔ ∃ x, s.classify x = .external pin ∧ s.AbsoluteIn found x) ∧
      (s.NamesakeFree found →
        (∀ x, x ∈ stripped.stdlib ↔ x ∈ found.stdlib) ∧ (∀ pin, pin ∈ stripped.external ↔ pin ∈ found.external) ∧
        ((∀ p ∈ found.external, ∀ q ∈ found.external, Text.lower p.name = Text.lower q.name → p = q) →
          ∀ extra, Manifest.render stripped.sortedExternal extra = Manifest.render found.sortedExternal extra)) := by
  obtain ⟨filed, reached, read, nodup⟩ := filed_of_collect success
  intro found
  have reach : ∀ m ∈ found.modules, s.Reachable entry m := fun m => (reached m).mp
  have stdlib : ∀ x, x ∈ found.stdlib ↔ s.classify x = .stdlib ∧ (s.AbsoluteIn found x ∨ s.RelativeIn found x) := by
    intro x
    rw [filed.stdlib, unlocatedIn_iff reach, and_comm]
  have external : ∀ pin, pin ∈ found.external ↔
      ∃ x, s.classify x = .external pin ∧ (s.AbsoluteIn found x ∨ s.RelativeIn found x) := by
    intro pin
    rw [filed.external]
    exact exists_congr fun x => and_comm.trans (and_congr_right fun _ => unlocatedIn_iff reach)
  refine ⟨stdlib, external, fun s' strips => ?_⟩
  intro stripped
  obtain ⟨success', modules⟩ := collect_stripped strips success
  obtain ⟨filed', -, -, nodup'⟩ := filed_of_collect success'
  have absolute : ∀ x, s'.UnlocatedIn stripped x ↔ s.AbsoluteIn found x := fun x =>
    unlocatedIn_stripped strips modules fun m mem => ⟨reach m mem, read m mem⟩
  have stdlib' : ∀ x, x ∈ stripped.stdlib ↔ s.classify x = .stdlib ∧ s.AbsoluteIn found x := by
    intro x
    rw [filed'.stdlib, absolute, strips.classify, and_comm]
  have external' : ∀ pin, pin ∈ stripped.external ↔ ∃ x, s.classify x = .external pin ∧ s.AbsoluteIn found x := by
    intro pin
    rw [filed'.external, strips.classify]
    exact exists_congr fun x => and_comm.trans (and_congr_right fun _ => absolute x)
  refine ⟨success', modules, stdlib', external', fun free => ?_⟩
  have unknown : ∀ x, s.RelativeIn found x → s.classify x = .unknown := by
    rintro x ⟨m, mem, named, rfl, nowhere, -⟩
    exact free m mem named nowhere
  have sameStdlib : ∀ x, x ∈ stripped.stdlib ↔ x ∈ found.stdlib := by
    intro x
    rw [stdlib', stdlib]
    refine and_congr_right fun standard => ⟨.inl, fun cause => cause.resolve_right fun relative => ?_⟩
    cases standard.symm.trans (unknown x relative)
  have sameExternal : ∀ pin, pin ∈ stripped.external ↔ pin ∈ found.external := by
    intro pin
    rw [external', external]
    refine exists_congr fun x => and_congr_right fun installed =>
      ⟨.inl, fun cause => cause.resolve_right fun relative => ?_⟩
    cases installed.symm.trans (unknown x relative)
  refine ⟨sameStdlib, sameExternal, fun apart extra => ?_⟩
  have sorted : stripped.sortedExternal = found.sortedExternal := Pin.sorted_eq nodup nodup' sameExternal apart
  rw [sorted]

/-! ## A directory with the name of a standard module -/

/-- A program with a module in a directory `json` that is no package. The module imports something relative that is not
there. -/
def localJson : Sources where
  files := {
    entries := [
      ("main.py", .file "import json.local\n".toUTF8 false),
      ("json", .directory [("local.py", .file "from . import missing\n".toUTF8 false)])] }
  roots := [⟨"/"⟩]
  parse source :=
    if source = "import json.local\n" then .ok [{ moduleName := "json.local", line := 1 }]
    else if source = "from . import missing\n" then
      .ok [{ moduleName := "", items := ["missing"], level := 1, line := 1 }]
    else .ok []
  classify name := if name = "json" then .stdlib else .unknown

/-- The program without the relative import. -/
def localJsonStripped : Sources :=
  { localJson with files := localJson.files.put ["json", "local.py"] (.file "".toUTF8 false) }

theorem localJson_strips : localJson.Strips ⟨"/main.py"⟩ localJsonStripped where
  roots := rfl
  classify := rfl
  isFile p := by
    have entry : localJson.files.kind? ["json", "local.py"] =
        some (.file "from . import missing\n".toUTF8 false) := by decide +kernel
    exact FileSystem.isFile_put entry "".toUTF8 false p
  lines m lines reach read := by
    obtain ⟨ended, modules⟩ : (localJson.collect ⟨"/main.py"⟩).1.toOption = some () ∧
        (localJson.collect ⟨"/main.py"⟩).2.modules =
          [.entry ⟨"/main.py"⟩, ⟨⟨"/json/local.py"⟩, ⟨"json/local.py"⟩, false, "json.local"⟩] := by decide +kernel
    obtain ⟨-, reached, -⟩ := filed_of_collect (eq_ok_of_toOption ended)
    have mem := (reached m).mpr reach
    rw [modules, List.mem_cons, List.mem_singleton] at mem
    rcases mem with rfl | rfl
    · have known : (localJson.linesOf (.entry ⟨"/main.py"⟩)).toOption =
          some [{ moduleName := "json.local", line := 1 }] := by decide +kernel
      cases read.symm.trans (eq_ok_of_toOption known)
      exact ⟨_, eq_ok_of_toOption known, by decide +kernel⟩
    · have known : (localJson.linesOf ⟨⟨"/json/local.py"⟩, ⟨"json/local.py"⟩, false, "json.local"⟩).toOption =
          some [{ moduleName := "", items := ["missing"], level := 1, line := 1 }] := by decide +kernel
      have emptied : (localJsonStripped.linesOf ⟨⟨"/json/local.py"⟩, ⟨"json/local.py"⟩, false, "json.local"⟩).toOption =
          some [] := by decide +kernel
      cases read.symm.trans (eq_ok_of_toOption known)
      exact ⟨_, eq_ok_of_toOption emptied, by decide +kernel⟩

/-- The directory is taken for the standard module because of the relative import. -/
theorem localJson_standard :
    (localJson.collect ⟨"/main.py"⟩).1 = .ok () ∧ (localJson.collect ⟨"/main.py"⟩).2.stdlib = ["json"] ∧
      localJson.Strips ⟨"/main.py"⟩ localJsonStripped ∧
      (localJsonStripped.collect ⟨"/main.py"⟩).1 = .ok () ∧
      (localJsonStripped.collect ⟨"/main.py"⟩).2.stdlib = [] := by
  obtain ⟨ended, stdlib, ended', none⟩ : (localJson.collect ⟨"/main.py"⟩).1.toOption = some () ∧
      (localJson.collect ⟨"/main.py"⟩).2.stdlib = ["json"] ∧
      (localJsonStripped.collect ⟨"/main.py"⟩).1.toOption = some () ∧
      (localJsonStripped.collect ⟨"/main.py"⟩).2.stdlib = [] := by decide +kernel
  exact ⟨eq_ok_of_toOption ended, stdlib, localJson_strips, eq_ok_of_toOption ended', none⟩

/-- No absolute line has brought it, and the walk is the same without the relative one. -/
theorem collect_causes_localJson :
    (localJson.collect ⟨"/main.py"⟩).1 = .ok () ∧ "json" ∈ (localJson.collect ⟨"/main.py"⟩).2.stdlib ∧
      ¬ localJson.AbsoluteIn (localJson.collect ⟨"/main.py"⟩).2 "json" ∧
      localJson.RelativeIn (localJson.collect ⟨"/main.py"⟩).2 "json" ∧
      (localJsonStripped.collect ⟨"/main.py"⟩ localJson.depthLimit).2.modules =
        (localJson.collect ⟨"/main.py"⟩).2.modules := by
  obtain ⟨ended, mem, gone⟩ : (localJson.collect ⟨"/main.py"⟩).1.toOption = some () ∧
      "json" ∈ (localJson.collect ⟨"/main.py"⟩).2.stdlib ∧
      "json" ∉ (localJsonStripped.collect ⟨"/main.py"⟩ localJson.depthLimit).2.stdlib := by decide +kernel
  have success : (localJson.collect ⟨"/main.py"⟩).1 = .ok () := eq_ok_of_toOption ended
  obtain ⟨stdlib, -, stripped⟩ := collect_causes localJson ⟨"/main.py"⟩ localJson.depthLimit success
  obtain ⟨-, modules, kept, -⟩ := stripped _ localJson_strips
  obtain ⟨standard, cause⟩ := (stdlib "json").mp mem
  have notAbsolute : ¬ localJson.AbsoluteIn (localJson.collect ⟨"/main.py"⟩).2 "json" := fun absolute =>
    gone ((kept "json").mpr ⟨standard, absolute⟩)
  exact ⟨success, mem, notAbsolute, cause.resolve_left notAbsolute, modules⟩

end Sources

end PyBundle
