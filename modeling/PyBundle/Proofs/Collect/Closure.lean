import Mathlib.Algebra.GroupWithZero.Nat
import PyBundle.Proofs.Collect.Stage
import PyBundle.Proofs.Module.Locate
import PyBundle.Proofs.Path.Components

/-!
# What a walk reaches

The modules that a program reaches are the entry and all that imports lead to from there. A walk that
comes to its end finds exactly these, each of them once, and it fails only at one of them.

Two invariants carry this. `Sound` says that whatever is found or to be done comes from imports, and
`Accounted` says where each import line of a module is: taken, or a task, or behind the scan of its
module. A module is found before it is scanned, so imports may go round in a circle: what counts at the
end is that no task is left.
-/

namespace PyBundle

theorem LocalModule.sameAs_comm (m n : LocalModule) : m.sameAs n = n.sameAs m := by
  unfold LocalModule.sameAs
  rw [m.absolutePath.sameAs_comm, m.relativePath.sameAs_comm, Bool.beq_comm (a := m.isPackage),
    Bool.beq_comm (a := m.moduleName)]

theorem LocalModule.sameAs_refl (m : LocalModule) : m.sameAs m = true := by
  simp only [sameAs, Path.sameAs_refl, beq_self_eq_true, Bool.and_self]

/-- Modules that are the same have one name. -/
theorem LocalModule.moduleName_eq_of_sameAs {m n : LocalModule} (same : m.sameAs n = true) :
    m.moduleName = n.moduleName := by
  unfold LocalModule.sameAs at same
  simp only [Bool.and_eq_true, beq_iff_eq] at same
  exact same.2

namespace Sources

variable {s : Sources} {entry : Path} {m n t : LocalModule} {l a : ImportLine}

/-! ## Imports -/

/-- **An import line stands in the file of a module.** -/
def HasLine (s : Sources) (m : LocalModule) (l : ImportLine) : Prop :=
  ∃ lines, s.linesOf m = .ok lines ∧ l ∈ lines

/-- **A module imports another:** one of its import lines, as seen from it, may load a name under which
the other is located. -/
def Imports (s : Sources) (m t : LocalModule) : Prop :=
  ∃ l a name, s.HasLine m l ∧ l.absolute? m = some a ∧ name ∈ a.candidates ∧
    LocalModule.locate s.files s.roots name = some t

/-- **The modules that a program reaches:** its entry, and what these modules import. -/
def Reachable (s : Sources) (entry : Path) : LocalModule → Prop :=
  Relation.ReflTransGen s.Imports (.entry entry)

theorem mem_targets :
    t ∈ s.targets a ↔ ∃ name ∈ a.candidates, LocalModule.locate s.files s.roots name = some t :=
  List.mem_filterMap

theorem Imports.of_mem_targets (line : s.HasLine m l) (absolute : l.absolute? m = some a)
    (mem : t ∈ s.targets a) : s.Imports m t := by
  obtain ⟨name, candidate, located⟩ := mem_targets.mp mem
  exact ⟨l, a, name, line, absolute, candidate, located⟩

/-- A module that is imported is located under its own name. -/
theorem Imports.located (imports : s.Imports m t) :
    t.moduleName ≠ "" ∧ LocalModule.locate s.files s.roots t.moduleName = some t := by
  obtain ⟨_, _, name, _, _, _, located⟩ := imports
  obtain ⟨rfl, named⟩ := LocalModule.moduleName_of_locate located
  exact ⟨named, located⟩

/-- Every module but the entry is located under its own name. -/
theorem Reachable.eq_entry_or_located (reach : s.Reachable entry m) :
    m = .entry entry ∨
      m.moduleName ≠ "" ∧ LocalModule.locate s.files s.roots m.moduleName = some m := by
  cases reach with
  | refl => exact .inl rfl
  | tail _ imports => exact .inr imports.located

/-- **A name tells the module,** so of the modules that a program reaches no two are the same. -/
theorem Reachable.eq_of_moduleName_eq (hm : s.Reachable entry m) (hn : s.Reachable entry n)
    (same : m.moduleName = n.moduleName) : m = n := by
  have entryUnnamed : (LocalModule.entry entry).moduleName = "" := rfl
  rcases hm.eq_entry_or_located with rfl | ⟨named, located⟩
  · rcases hn.eq_entry_or_located with rfl | ⟨named, -⟩
    · rfl
    · exact absurd (same.symm.trans entryUnnamed) named
  · rcases hn.eq_entry_or_located with rfl | ⟨-, located'⟩
    · exact absurd (same.trans entryUnnamed) named
    · rw [same, located'] at located
      exact (Option.some.inj located).symm

/-! ## Whatever is found comes from imports -/

/-- Every module but the first one stands behind a module that imports it. -/
def ImporterFirst (s : Sources) (modules : List LocalModule) : Prop :=
  ∀ before m after, modules = before ++ m :: after → before ≠ [] → ∃ n ∈ before, s.Imports n m

theorem ImporterFirst.concat {modules : List LocalModule} (ordered : s.ImporterFirst modules)
    (mem : m ∈ modules) (imports : s.Imports m t) : s.ImporterFirst (modules ++ [t]) := by
  intro before x after split nonempty
  rcases List.eq_nil_or_concat after with rfl | ⟨after, last, rfl⟩
  · obtain ⟨rfl, equal⟩ := List.append_inj' split rfl
    cases equal
    exact ⟨m, mem, imports⟩
  · rw [List.concat_eq_append, ← List.cons_append, ← List.append_assoc] at split
    exact ordered before x after (List.append_inj' split rfl).1 nonempty

/-- What is to be done is about modules that are found, and about what they import. -/
def Founded (s : Sources) (modules : List LocalModule) : Task → Prop
  | .scan m => m ∈ modules
  | .line m l => m ∈ modules ∧ s.HasLine m l
  | .visit m t => m ∈ modules ∧ s.Imports m t

theorem Founded.mono {modules more : List LocalModule} (grows : modules ⊆ more) {task : Task}
    (founded : s.Founded modules task) : s.Founded more task := by
  cases task with
  | scan => exact grows founded
  | line => exact ⟨grows founded.1, founded.2⟩
  | visit => exact ⟨grows founded.1, founded.2⟩

/-- **Whatever is found or to be done comes from imports.** -/
structure Sound (s : Sources) (entry : Path) (g : Stage) : Prop where
  entryFirst : g.found.modules.head? = some (.entry entry)
  reachable : ∀ m ∈ g.found.modules, s.Reachable entry m
  importerFirst : s.ImporterFirst g.found.modules
  founded : ∀ task ∈ g.tasks, s.Founded g.found.modules task

theorem sound_start (s : Sources) (entry : Path) : s.Sound entry (start entry) where
  entryFirst := rfl
  reachable := by
    intro m mem
    cases List.mem_singleton.mp mem
    exact .refl
  importerFirst := by
    intro before m after split nonempty
    have lengths := congrArg List.length split
    rw [List.length_append, List.length_cons] at lengths
    have short : before.length + (after.length + 1) = 1 := lengths.symm
    exact absurd (List.length_eq_zero_iff.mp (by omega)) nonempty
  founded := by
    intro task mem
    cases List.mem_singleton.mp mem
    exact List.mem_singleton_self _

/-- A task that is not about modules that are found keeps what is sound. -/
theorem Sound.withTasks {g h : Stage} (sound : s.Sound entry g)
    (modules : h.found.modules = g.found.modules)
    (founded : ∀ task ∈ h.tasks, s.Founded g.found.modules task) : s.Sound entry h where
  entryFirst := modules ▸ sound.entryFirst
  reachable := modules ▸ sound.reachable
  importerFirst := modules ▸ sound.importerFirst
  founded := modules ▸ founded

theorem Sound.advance {g h : Stage} (sound : s.Sound entry g) (step : s.Advances g h) :
    s.Sound entry h := by
  have founded := sound.founded
  cases step with
  | @scan m lines rest d taken read =>
    refine sound.withTasks rfl fun task mem => ?_
    rcases List.mem_append.mp mem with mem | mem
    · obtain ⟨l, line, rfl⟩ := List.mem_map.mp mem
      exact ⟨founded (.scan m) List.mem_cons_self, lines, read, line⟩
    · exact founded task (List.mem_cons_of_mem _ mem)
  | refuse =>
    exact sound.withTasks (Discovery.refuse_modules ..)
      fun task mem => founded task (List.mem_cons_of_mem _ mem)
  | place =>
    exact sound.withTasks (Discovery.place_modules ..)
      fun task mem => founded task (List.mem_cons_of_mem _ mem)
  | @load m l a rest d taken absolute =>
    obtain ⟨log, told⟩ := tellTargets_eq m a (s.targets a) d.countLine
    refine sound.withTasks (by rw [told]; rfl) fun task mem => ?_
    rcases List.mem_append.mp mem with mem | mem
    · obtain ⟨t, target, rfl⟩ := List.mem_map.mp mem
      obtain ⟨importer, line⟩ := founded (.line m l) List.mem_cons_self
      exact ⟨importer, .of_mem_targets line absolute target⟩
    · exact founded task (List.mem_cons_of_mem _ mem)
  | skip => exact sound.withTasks rfl fun task mem => founded task (List.mem_cons_of_mem _ mem)
  | @add m t rest d taken new =>
    obtain ⟨importer, imports⟩ := founded (.visit m t) List.mem_cons_self
    constructor
    · show (d.modules ++ [t]).head? = _
      rw [List.head?_append, sound.entryFirst]
      rfl
    · intro n mem
      rcases List.mem_append.mp mem with mem | mem
      · exact sound.reachable n mem
      · cases List.mem_singleton.mp mem
        exact (sound.reachable m importer).tail imports
    · exact sound.importerFirst.concat importer imports
    · intro task mem
      rcases List.mem_cons.mp mem with rfl | mem
      · exact List.mem_append_right _ (List.mem_singleton_self t)
      · exact (founded task (List.mem_cons_of_mem _ mem)).mono (List.subset_append_left ..)

/-- At every stage of a walk, whatever is found or to be done comes from imports. -/
theorem Reaches.sound {g : Stage} (reach : s.Reaches (start entry) g) : s.Sound entry g :=
  reach.keeps (sound_start s entry) fun _ _ _ step sound => sound.advance step

/-! ## Each module is found once -/

/-- Of a module that is reached, the check for the same module tells whether it is found. -/
theorem Sound.hasModule_iff {g : Stage} (sound : s.Sound entry g) (reach : s.Reachable entry t) :
    g.found.hasModule t = true ↔ t ∈ g.found.modules := by
  unfold Discovery.hasModule
  rw [List.any_eq_true]
  constructor
  · rintro ⟨n, mem, same⟩
    have named := LocalModule.moduleName_eq_of_sameAs same
    rwa [reach.eq_of_moduleName_eq (sound.reachable n mem) named]
  · exact fun mem => ⟨t, mem, t.sameAs_refl⟩

/-- No two modules that are found are the same. -/
theorem Reaches.distinct {g : Stage} (reach : s.Reaches (start entry) g) :
    g.found.modules.Pairwise fun m n => m.sameAs n = false := by
  refine reach.keeps (P := fun g => g.found.modules.Pairwise fun m n => m.sameAs n = false)
    (List.pairwise_singleton _ _) fun g h before step distinct => ?_
  rcases step.modules with same | ⟨_, t, _, _, _, new, added⟩
  · rwa [same]
  · rw [added]
    refine List.pairwise_append.mpr ⟨distinct, List.pairwise_singleton _ _, fun n mem u single => ?_⟩
    cases List.mem_singleton.mp single
    rw [LocalModule.sameAs_comm]
    exact Bool.eq_false_iff.mpr (List.any_eq_false.mp new n mem)

/-! ## Where the import lines are -/

/-- **Where each import line of a module is.** A module that is found is to be scanned or was read. A line
of it is taken, or it is a task, or its module is to be scanned. What a line loads that was taken is
found, or it is to be visited. -/
structure Accounted (s : Sources) (g : Stage) : Prop where
  read : ∀ m ∈ g.found.modules, .scan m ∈ g.tasks ∨ ∃ lines, s.linesOf m = .ok lines
  lines : ∀ m ∈ g.found.modules, ∀ l, s.HasLine m l →
    (m, l) ∈ g.taken ∨ .line m l ∈ g.tasks ∨ .scan m ∈ g.tasks
  taken : ∀ m l, (m, l) ∈ g.taken → m ∈ g.found.modules ∧ s.HasLine m l
  loaded : ∀ m l a t, (m, l) ∈ g.taken → l.absolute? m = some a → t ∈ s.targets a →
    t ∈ g.found.modules ∨ .visit m t ∈ g.tasks

theorem accounted_start (s : Sources) (entry : Path) : s.Accounted (start entry) where
  read := by
    intro m mem
    cases List.mem_singleton.mp mem
    exact .inl List.mem_cons_self
  lines := by
    intro m mem l _
    cases List.mem_singleton.mp mem
    exact .inr (.inr List.mem_cons_self)
  taken := fun _ _ mem => absurd mem List.not_mem_nil
  loaded := fun _ _ _ _ mem => absurd mem List.not_mem_nil

/-- A line that is taken leaves the tasks, and the visits that it calls for take its place. -/
theorem Accounted.take {rest : List Task} {d e : Discovery}
    {taken : List (LocalModule × ImportLine)}
    (accounted : s.Accounted ⟨.line m l :: rest, d, taken⟩) (visits : List Task) (modules : e.modules = d.modules)
    (line : m ∈ d.modules ∧ s.HasLine m l)
    (visited : ∀ a t, l.absolute? m = some a → t ∈ s.targets a → .visit m t ∈ visits) :
    s.Accounted ⟨visits ++ rest, e, taken ++ [(m, l)]⟩ := by
  constructor
  · intro n mem
    rcases accounted.read n (modules ▸ mem) with scan | read
    · exact .inl (List.mem_append_right _ ((List.mem_cons.mp scan).resolve_left nofun))
    · exact .inr read
  · intro n mem k standing
    rcases accounted.lines n (modules ▸ mem) k standing with before | task | scan
    · exact .inl (List.mem_append_left _ before)
    · rcases List.mem_cons.mp task with same | later
      · cases same
        exact .inl (List.mem_append_right _ (List.mem_singleton_self _))
      · exact .inr (.inl (List.mem_append_right _ later))
    · exact .inr (.inr (List.mem_append_right _ ((List.mem_cons.mp scan).resolve_left nofun)))
  · intro n k mem
    rw [modules]
    rcases List.mem_append.mp mem with before | now
    · exact accounted.taken n k before
    · cases List.mem_singleton.mp now
      exact line
  · intro n k a t mem absolute target
    rw [modules]
    rcases List.mem_append.mp mem with before | now
    · rcases accounted.loaded n k a t before absolute target with known | visit
      · exact .inl known
      · exact .inr (List.mem_append_right _ ((List.mem_cons.mp visit).resolve_left nofun))
    · cases List.mem_singleton.mp now
      exact .inr (List.mem_append_left _ (visited a t absolute target))

/-- A module that is read leaves the tasks, and its lines take its place. -/
theorem Accounted.scan {rest : List Task} {d e : Discovery} {taken : List (LocalModule × ImportLine)}
    {lines : List ImportLine} (accounted : s.Accounted ⟨.scan m :: rest, d, taken⟩)
    (modules : e.modules = d.modules) (read : s.linesOf m = .ok lines) :
    s.Accounted ⟨lines.map (.line m) ++ rest, e, taken⟩ := by
  constructor
  · intro n mem
    rcases accounted.read n (modules ▸ mem) with scan | read
    · rcases List.mem_cons.mp scan with same | later
      · cases same
        exact .inr ⟨lines, read⟩
      · exact .inl (List.mem_append_right _ later)
    · exact .inr read
  · intro n mem k standing
    rcases accounted.lines n (modules ▸ mem) k standing with before | task | scan
    · exact .inl before
    · exact .inr (.inl (List.mem_append_right _ ((List.mem_cons.mp task).resolve_left nofun)))
    · rcases List.mem_cons.mp scan with same | later
      · cases same
        obtain ⟨lines', read', line⟩ := standing
        cases read.symm.trans read'
        exact .inr (.inl (List.mem_append_left _ (List.mem_map_of_mem line)))
      · exact .inr (.inr (List.mem_append_right _ later))
  · intro n k mem
    rw [modules]
    exact accounted.taken n k mem
  · intro n k a t mem absolute target
    rw [modules]
    rcases accounted.loaded n k a t mem absolute target with known | visit
    · exact .inl known
    · exact .inr (List.mem_append_right _ ((List.mem_cons.mp visit).resolve_left nofun))

/-- A visit leaves the tasks when its module is found. A module that is found by it is to be scanned. -/
theorem Accounted.visit {rest tasks : List Task} {d e : Discovery}
    {taken : List (LocalModule × ImportLine)} (accounted : s.Accounted ⟨.visit m t :: rest, d, taken⟩)
    (later : rest ⊆ tasks) (kept : d.modules ⊆ e.modules) (found : t ∈ e.modules)
    (new : ∀ n ∈ e.modules, n ∈ d.modules ∨ .scan n ∈ tasks) : s.Accounted ⟨tasks, e, taken⟩ := by
  constructor
  · intro n mem
    rcases new n mem with before | now
    · rcases accounted.read n before with scan | read
      · exact .inl (later ((List.mem_cons.mp scan).resolve_left nofun))
      · exact .inr read
    · exact .inl now
  · intro n mem k standing
    rcases new n mem with before | now
    · rcases accounted.lines n before k standing with before | task | scan
      · exact .inl before
      · exact .inr (.inl (later ((List.mem_cons.mp task).resolve_left nofun)))
      · exact .inr (.inr (later ((List.mem_cons.mp scan).resolve_left nofun)))
    · exact .inr (.inr now)
  · intro n k mem
    obtain ⟨before, standing⟩ := accounted.taken n k mem
    exact ⟨kept before, standing⟩
  · intro n k a u mem absolute target
    rcases accounted.loaded n k a u mem absolute target with known | visit
    · exact .inl (kept known)
    · rcases List.mem_cons.mp visit with same | behind
      · cases same
        exact .inl found
      · exact .inr (later behind)

theorem Accounted.advance {g h : Stage} (accounted : s.Accounted g) (sound : s.Sound entry g)
    (step : s.Advances g h) : s.Accounted h := by
  have founded := sound.founded
  cases step with
  | scan read => exact accounted.scan rfl read
  | @refuse m l rest d taken refused =>
    refine accounted.take [] (Discovery.refuse_modules ..)
      (founded (.line m l) List.mem_cons_self) fun a t absolute _ => ?_
    rw [refused] at absolute
    cases absolute
  | @place m l a rest d taken absolute unlocated =>
    refine accounted.take [] (Discovery.place_modules ..)
      (founded (.line m l) List.mem_cons_self) fun b t absolute' target => ?_
    cases absolute.symm.trans absolute'
    rw [unlocated] at target
    cases target
  | @load m l a rest d taken absolute =>
    obtain ⟨log, told⟩ := tellTargets_eq m a (s.targets a) d.countLine
    refine accounted.take _ (by rw [told]; rfl) (founded (.line m l) List.mem_cons_self)
      fun b t absolute' target => ?_
    cases absolute.symm.trans absolute'
    exact List.mem_map_of_mem target
  | @skip m t rest d taken known =>
    obtain ⟨importer, imports⟩ := founded (.visit m t) List.mem_cons_self
    exact accounted.visit (List.Subset.refl _) (List.Subset.refl _)
      ((sound.hasModule_iff ((sound.reachable m importer).tail imports)).mp known) fun n mem => .inl mem
  | @add m t rest d taken new =>
    refine accounted.visit (List.subset_cons_self _ _) (List.subset_append_left _ _)
      (List.mem_append_right _ (List.mem_singleton_self t)) fun n mem => ?_
    rcases List.mem_append.mp mem with before | now
    · exact .inl before
    · cases List.mem_singleton.mp now
      exact .inr List.mem_cons_self

/-- At every stage of a walk, each import line is somewhere. -/
theorem Reaches.accounted {g : Stage} (reach : s.Reaches (start entry) g) : s.Accounted g :=
  reach.keeps (accounted_start s entry) fun _ _ before step accounted =>
    accounted.advance (Reaches.sound before) step

/-! ## How many import lines are counted -/

/-- The number of import lines of a module, none if it cannot be read. -/
def lineCount (s : Sources) (m : LocalModule) : Nat :=
  match s.linesOf m with
  | .ok lines => lines.length
  | .error _ => 0

/-- The import lines that a task will count. -/
def linesLeft (s : Sources) : Task → Nat
  | .scan m => s.lineCount m
  | .line _ _ => 1
  | .visit _ _ => 0

/-- **The lines of all modules that are found are counted or left.** So each module is scanned once. -/
theorem Reaches.counted {g : Stage} (reach : s.Reaches (start entry) g) :
    g.found.importLines + (g.tasks.map s.linesLeft).sum =
      (g.found.modules.map s.lineCount).sum := by
  refine reach.keeps (P := fun g => g.found.importLines + (g.tasks.map s.linesLeft).sum =
    (g.found.modules.map s.lineCount).sum) ?_ fun g h _ step counted => ?_
  · show 0 + (s.lineCount (.entry entry) + 0) = s.lineCount (.entry entry) + 0
    exact Nat.zero_add _
  · cases step with
    | @scan m lines rest d taken read =>
      have count : s.lineCount m = lines.length := by
        unfold lineCount
        rw [read]
      have ones : ((lines.map (Task.line m)).map s.linesLeft).sum = lines.length := by
        simp only [List.map_map, Function.comp_def, linesLeft, List.map_const', List.sum_replicate_nat,
          Nat.mul_one]
      simp only [List.map_cons, List.sum_cons, linesLeft, List.map_append, List.sum_append] at counted ⊢
      rw [ones, ← count]
      exact counted
    | refuse =>
      simp only [List.map_cons, List.sum_cons, linesLeft] at counted
      simp only [Discovery.refuse_importLines, Discovery.refuse_modules, Discovery.countLine]
      omega
    | place =>
      simp only [List.map_cons, List.sum_cons, linesLeft] at counted
      simp only [Discovery.place_importLines, Discovery.place_modules, Discovery.countLine]
      omega
    | @load m l a rest d taken =>
      obtain ⟨log, told⟩ := tellTargets_eq m a (s.targets a) d.countLine
      have zeros : (((s.targets a).map (Task.visit m)).map s.linesLeft).sum = 0 := by
        simp only [List.map_map, Function.comp_def, linesLeft, List.map_const', List.sum_replicate_nat,
          Nat.mul_zero]
      simp only [List.map_cons, List.sum_cons, linesLeft] at counted
      simp only [told, List.map_append, List.sum_append, zeros]
      simp only [Discovery.countLine]
      omega
    | skip =>
      simp only [List.map_cons, List.sum_cons, linesLeft, Nat.zero_add] at counted
      exact counted
    | add =>
      simp only [List.map_cons, List.sum_cons, linesLeft] at counted
      simp only [Discovery.addModule, List.map_cons, List.sum_cons, linesLeft, List.map_append,
        List.sum_append, List.map_nil, List.sum_nil]
      omega

/-! ## The closure -/

/-- **What is found is closed under imports:** it is exactly what the program reaches, without repeats,
from the entry on, each other module behind one that imports it, and every import line of it is counted
once. -/
structure Closed (s : Sources) (entry : Path) (found : Discovery) : Prop where
  mem_iff : ∀ m, m ∈ found.modules ↔ s.Reachable entry m
  distinct : found.modules.Pairwise fun m n => m.sameAs n = false
  entryFirst : found.modules.head? = some (.entry entry)
  importerFirst : s.ImporterFirst found.modules
  importLines : found.importLines = (found.modules.map s.lineCount).sum

/-- An answer that has a value. -/
theorem eq_ok_of_toOption {ε α : Type} {x : Except ε α} {a : α} (value : x.toOption = some a) : x = .ok a := by
  cases x with
  | error => cases value
  | ok b => exact congrArg Except.ok (Option.some.inj value)

/-- **Where no task is left, what is found is closed under imports,** and all of it was read. -/
theorem Reaches.closed {d : Discovery} {taken : List (LocalModule × ImportLine)}
    (reach : s.Reaches (start entry) ⟨[], d, taken⟩) :
    s.Closed entry d ∧ ∀ m ∈ d.modules, ∃ lines, s.linesOf m = .ok lines := by
  have sound := reach.sound
  have accounted := reach.accounted
  have complete : ∀ m, s.Reachable entry m → m ∈ d.modules := by
    intro m reachable
    induction reachable with
    | refl => exact List.mem_of_mem_head? (by rw [sound.entryFirst]; rfl)
    | @tail m t _ imports mem =>
      obtain ⟨l, a, name, line, absolute, candidate, located⟩ := imports
      have took : (m, l) ∈ taken := by
        rcases accounted.lines m mem l line with took | task | scan
        · exact took
        · cases task
        · cases scan
      have target := mem_targets.mpr ⟨name, candidate, located⟩
      rcases accounted.loaded m l a t took absolute target with found | visit
      · exact found
      · cases visit
  refine ⟨⟨fun m => ⟨sound.reachable m, complete m⟩, reach.distinct, sound.entryFirst,
    sound.importerFirst, reach.counted⟩, fun m mem => ?_⟩
  rcases accounted.read m mem with scan | read
  · cases scan
  · exact read

/-- **A walk that succeeds finds the closure of its entry under imports,** and it has read all of it. -/
theorem closed_of_collect {limit : Nat} (success : (s.collect entry limit).1 = .ok ()) :
    s.Closed entry (s.collect entry limit).2 ∧
      ∀ m ∈ (s.collect entry limit).2.modules, ∃ lines, s.linesOf m = .ok lines := by
  obtain ⟨d, taken, reach, left⟩ := exists_reaches_of_collect success
  obtain ⟨closed, read⟩ := reach.closed
  rw [left]
  exact ⟨⟨closed.mem_iff, closed.distinct, closed.entryFirst, closed.importerFirst, closed.importLines⟩, read⟩

/-- **A walk that comes to its end finds the closure of its entry under imports.** It succeeds if and only
if every module that the program reaches can be read, and then it finds exactly these. It fails because
of one of them that cannot be read. -/
theorem collect_closure (s : Sources) (entry : Path) (limit : Nat)
    (ends : ∀ p, (s.collect entry limit).1 ≠ .error (.tooDeep p)) :
    ((s.collect entry limit).1 = .ok () ↔
      ∀ m, s.Reachable entry m → ∃ lines, s.linesOf m = .ok lines) ∧
    ((s.collect entry limit).1 = .ok () → s.Closed entry (s.collect entry limit).2) ∧
    ∀ e, (s.collect entry limit).1 = .error e → ∃ m, s.Reachable entry m ∧ s.linesOf m = .error e := by
  have walk := collect_walks s entry limit
  generalize s.collect entry limit = answer at ends walk ⊢
  cases walk with
  | done reach =>
    obtain ⟨closed, read⟩ := reach.closed
    refine ⟨⟨fun _ m reachable => read m ((closed.mem_iff m).mpr reachable), fun _ => rfl⟩,
      fun _ => ?_, fun e => nofun⟩
    exact ⟨closed.mem_iff, closed.distinct, closed.entryFirst, closed.importerFirst,
      closed.importLines⟩
  | @failed m tasks d taken e reach unread =>
    have reachable : s.Reachable entry m :=
      reach.sound.reachable m (reach.sound.founded (.scan m) List.mem_cons_self)
    refine ⟨⟨nofun, fun read => ?_⟩, nofun, ?_⟩
    · obtain ⟨lines, read⟩ := read m reachable
      cases unread.symm.trans read
    · rintro _ ⟨⟩
      exact ⟨m, reachable, unread⟩
  | spent => exact absurd rfl (ends _)

/-- Two modules that import each other, and one of them imports the entry under its name. -/
def circle : Sources where
  files := {
    entries := [
      ("main.py", .file "import a\n".toUTF8 false),
      ("a.py", .file "import b\n".toUTF8 false),
      ("b.py", .file "import a\nimport main\n".toUTF8 false)] }
  roots := [⟨"/"⟩]
  parse source :=
    if source = "import a\n" then .ok [{ moduleName := "a", line := 1 }]
    else if source = "import b\n" then .ok [{ moduleName := "b", line := 1 }]
    else .ok [{ moduleName := "a", line := 1 }, { moduleName := "main", line := 2 }]
  classify _ := .unknown

theorem collect_closure_circle :
    (∀ p, (circle.collect ⟨"/main.py"⟩).1 ≠ .error (.tooDeep p)) ∧
      circle.Closed ⟨"/main.py"⟩ (circle.collect ⟨"/main.py"⟩).2 ∧
      (circle.collect ⟨"/main.py"⟩).2.modules.map (·.moduleName) = ["", "a", "b", "main"] := by
  have success : (circle.collect ⟨"/main.py"⟩).1 = .ok () := eq_ok_of_toOption (by decide +kernel)
  have ends : ∀ p, (circle.collect ⟨"/main.py"⟩).1 ≠ .error (.tooDeep p) := by
    intro p deep
    cases success.symm.trans deep
  exact ⟨ends, (collect_closure circle ⟨"/main.py"⟩ circle.depthLimit ends).2.1 success,
    by decide +kernel⟩

end Sources

end PyBundle
