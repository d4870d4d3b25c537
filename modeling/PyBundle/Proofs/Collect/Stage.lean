import Mathlib.Logic.Relation
import PyBundle.Collect.Walk

/-!
# A walk as a list of tasks

`Sources.discover` is a recursion, and what is still to do hangs in its calls. Here it is a list of
tasks beside what is found, and `Sources.Advances` is what the first task does. A module is in one of
three states at any stage: its scan is a task, or it is scanned and some of its lines are tasks, or all
its lines are taken. What a walk promises is shown for one task, and so for every stage.

`performs_discover` ties the two: the recursion does what the tasks do, and it fails where a scan fails
or where it runs out of fuel, each time at a stage that the tasks reach.
-/

namespace PyBundle

/-- **What is left to do in a walk.** -/
inductive Task where
  /-- The import lines of a module are to be read. -/
  | scan (m : LocalModule)
  /-- An import line is to be taken. -/
  | line (importer : LocalModule) (l : ImportLine)
  /-- A module that an import line loads is to be added, if it is new. -/
  | visit (importer target : LocalModule)

/-- **How far a walk is.** -/
structure Stage where
  tasks : List Task
  found : Discovery
  /-- The import lines that were taken, each with its importer. -/
  taken : List (LocalModule × ImportLine)

namespace Sources

/-- **What the first task does.** A scan that fails does nothing, and neither does an empty list of
tasks. -/
inductive Advances (s : Sources) : Stage → Stage → Prop where
  | scan {m : LocalModule} {lines : List ImportLine} {rest : List Task} {d : Discovery}
      {taken : List (LocalModule × ImportLine)} (read : s.linesOf m = .ok lines) :
      Advances s ⟨.scan m :: rest, d, taken⟩
        ⟨lines.map (.line m) ++ rest, d.note (scanNote m), taken⟩
  | refuse {m : LocalModule} {l : ImportLine} {rest : List Task} {d : Discovery}
      {taken : List (LocalModule × ImportLine)} (refused : l.absolute? m = none) :
      Advances s ⟨.line m l :: rest, d, taken⟩
        ⟨rest, d.countLine.refuse m l, taken ++ [(m, l)]⟩
  | place {m : LocalModule} {l a : ImportLine} {rest : List Task} {d : Discovery}
      {taken : List (LocalModule × ImportLine)} (absolute : l.absolute? m = some a)
      (unlocated : s.targets a = []) :
      Advances s ⟨.line m l :: rest, d, taken⟩
        ⟨rest, d.countLine.place s.classify a.topLevel, taken ++ [(m, l)]⟩
  | load {m : LocalModule} {l a : ImportLine} {rest : List Task} {d : Discovery}
      {taken : List (LocalModule × ImportLine)} (absolute : l.absolute? m = some a)
      (located : s.targets a ≠ []) :
      Advances s ⟨.line m l :: rest, d, taken⟩
        ⟨(s.targets a).map (.visit m) ++ rest, tellTargets m a (s.targets a) d.countLine,
          taken ++ [(m, l)]⟩
  | skip {m t : LocalModule} {rest : List Task} {d : Discovery}
      {taken : List (LocalModule × ImportLine)} (known : d.hasModule t = true) :
      Advances s ⟨.visit m t :: rest, d, taken⟩ ⟨rest, d, taken⟩
  | add {m t : LocalModule} {rest : List Task} {d : Discovery}
      {taken : List (LocalModule × ImportLine)} (new : d.hasModule t = false) :
      Advances s ⟨.visit m t :: rest, d, taken⟩ ⟨.scan t :: rest, d.addModule t, taken⟩

/-- **The stages that tasks lead to.** -/
abbrev Reaches (s : Sources) : Stage → Stage → Prop := Relation.ReflTransGen s.Advances

/-- What holds at a stage, and stays with each task that is done behind it, holds at every stage that is
reached from there. -/
theorem Reaches.keeps {s : Sources} {P : Stage → Prop} {a b : Stage} (reach : s.Reaches a b)
    (start : P a) (step : ∀ c d, s.Reaches a c → s.Advances c d → P c → P d) : P b := by
  induction reach with
  | refl => exact start
  | tail before last ih => exact step _ _ before last ih

/-- **A task leaves the modules as they are, or it adds one that is new.** -/
theorem Advances.modules {s : Sources} {g h : Stage} (step : s.Advances g h) :
    h.found.modules = g.found.modules ∨
      ∃ m t rest, g.tasks = .visit m t :: rest ∧ h.tasks = .scan t :: rest ∧
        g.found.hasModule t = false ∧ h.found.modules = g.found.modules ++ [t] := by
  cases step with
  | scan => exact .inl rfl
  | refuse => exact .inl (Discovery.refuse_modules ..)
  | place => exact .inl (Discovery.place_modules ..)
  | @load m l a rest d taken =>
    obtain ⟨log, told⟩ := tellTargets_eq m a (s.targets a) d.countLine
    exact .inl (by rw [told]; rfl)
  | skip => exact .inl rfl
  | @add m t rest d taken new => exact .inr ⟨m, t, rest, rfl, rfl, new, rfl⟩

/-- No task removes a module. -/
theorem Advances.length_le {s : Sources} {g h : Stage} (step : s.Advances g h) :
    g.found.modules.length ≤ h.found.modules.length := by
  rcases step.modules with same | ⟨_, t, _, _, _, _, added⟩
  · exact Nat.le_of_eq (congrArg List.length same.symm)
  · rw [added, List.length_append]
    exact Nat.le_add_right _ _

theorem Reaches.length_le {s : Sources} {a b : Stage} (reach : s.Reaches a b) :
    a.found.modules.length ≤ b.found.modules.length :=
  reach.keeps (P := fun c => a.found.modules.length ≤ c.found.modules.length) (Nat.le_refl _)
    fun _ _ _ step before => Nat.le_trans before step.length_le

/-! ## The recursion does what the tasks do -/

/-- **How a part of a walk ends** that starts at a stage and has some tasks behind it: its own tasks are
done, or a scan fails, or the fuel is spent. Fuel is spent on modules that are added on the way. -/
inductive Concludes (s : Sources) (fuel : Nat) (start : Stage) (rest : List Task) :
    Except CollectError Unit × Discovery → Prop where
  | done {d : Discovery} {taken : List (LocalModule × ImportLine)}
      (reach : s.Reaches start ⟨rest, d, taken⟩) : Concludes s fuel start rest (.ok (), d)
  | failed {m : LocalModule} {tasks : List Task} {d : Discovery}
      {taken : List (LocalModule × ImportLine)} {e : CollectError}
      (reach : s.Reaches start ⟨.scan m :: tasks, d, taken⟩) (unread : s.linesOf m = .error e) :
      Concludes s fuel start rest (.error e, d.note (scanNote m))
  | spent {m : LocalModule} {tasks : List Task} {d : Discovery}
      {taken : List (LocalModule × ImportLine)}
      (reach : s.Reaches start ⟨.scan m :: tasks, d, taken⟩)
      (added : start.found.modules.length + fuel ≤ d.modules.length) :
      Concludes s fuel start rest (.error (.tooDeep m.absolutePath), d)

/-- **A search does some tasks,** whatever else is to do and whatever is found before. -/
def Performs (s : Sources) (fuel : Nat) (x : Search Unit) (tasks : List Task) : Prop :=
  ∀ rest d taken, s.Concludes fuel ⟨tasks ++ rest, d, taken⟩ rest (x.run.run d)

/-- What is done before a part of a walk belongs to its way. -/
theorem Concludes.after {s : Sources} {fuel : Nat} {start mid : Stage} {rest : List Task}
    {answer : Except CollectError Unit × Discovery} (reach : s.Reaches start mid)
    (ends : s.Concludes fuel mid rest answer) : s.Concludes fuel start rest answer := by
  cases ends with
  | done onward => exact .done (reach.trans onward)
  | failed onward unread => exact .failed (reach.trans onward) unread
  | spent onward added =>
    exact .spent (reach.trans onward) (Nat.le_trans (Nat.add_le_add_right reach.length_le _) added)

/-- A search behind another one runs where that one has come to its end. -/
theorem run_bind (x : Search Unit) (f : Unit → Search Unit) (d : Discovery) :
    (x >>= f).run.run d =
      match x.run.run d with
      | (.ok (), found) => (f ()).run.run found
      | (.error e, found) => (.error e, found) := by
  show (match x d with
    | (answer, found) => ExceptT.bindCont f answer found) = _
  show ExceptT.bindCont f (x d).1 (x d).2 = _
  show _ = (match x d with
      | (.ok (), found) => (f ()) found
      | (.error e, found) => (.error e, found))
  obtain ⟨answer, found⟩ := x d
  cases answer <;> rfl

/-- One search after another does the tasks of both. -/
theorem Performs.andThen {s : Sources} {fuel : Nat} {x y : Search Unit} {first second : List Task}
    (hx : s.Performs fuel x first) (hy : s.Performs fuel y second) :
    s.Performs fuel (x >>= fun _ => y) (first ++ second) := by
  intro rest d taken
  rw [run_bind, List.append_assoc]
  have ends := hx (second ++ rest) d taken
  generalize x.run.run d = answer at ends ⊢
  cases ends with
  | done reach => exact .after reach (hy rest _ _)
  | failed reach unread => exact .failed reach unread
  | spent reach added => exact .spent reach added

/-- Searches in turn do the tasks of all. -/
theorem Performs.forM {α : Type} {s : Sources} {fuel : Nat} {search : α → Search Unit}
    {task : α → Task} {items : List α} (each : ∀ a ∈ items, s.Performs fuel (search a) [task a]) :
    s.Performs fuel (items.forM search) (items.map task) := by
  induction items with
  | nil => exact fun rest d taken => .done .refl
  | cons a items ih =>
    have first := each a List.mem_cons_self
    exact first.andThen (ih fun b mem => each b (List.mem_cons_of_mem a mem))

/-- A module that is new is added and discovered, and its addition is worth a unit of fuel. -/
theorem performs_visitTarget {s : Sources} {fuel : Nat} {discover : LocalModule → Search Unit}
    (m t : LocalModule) (scans : s.Performs fuel (discover t) [.scan t]) :
    s.Performs (fuel + 1) (visitTarget discover t) [.visit m t] := by
  intro rest d taken
  cases known : d.hasModule t with
  | true =>
    have run : (visitTarget discover t).run.run d = (.ok (), d) := by
      show (if d.hasModule t then (pure () : Search Unit) else _).run.run d = _
      rw [if_pos known]
      rfl
    rw [run]
    exact .done (.single (.skip known))
  | false =>
    have run : (visitTarget discover t).run.run d = (discover t).run.run (d.addModule t) := by
      show (if d.hasModule t then (pure () : Search Unit) else
        (modify (·.addModule t) >>= fun _ => discover t)).run.run d = _
      rw [if_neg (by rw [known]; exact Bool.false_ne_true)]
      rfl
    rw [run]
    have step : s.Reaches ⟨[.visit m t] ++ rest, d, taken⟩
        ⟨[.scan t] ++ rest, d.addModule t, taken⟩ := .single (.add known)
    have ends := scans rest (d.addModule t) taken
    generalize (discover t).run.run (d.addModule t) = answer at ends ⊢
    cases ends with
    | done reach => exact .done (step.trans reach)
    | failed reach unread => exact .failed (step.trans reach) unread
    | spent reach added =>
      refine .spent (step.trans reach) ?_
      simp only [Discovery.addModule, List.length_append, List.length_singleton] at added ⊢
      omega

/-- An import line is refused, or placed, or it loads its targets in turn. -/
theorem performs_visitLine {s : Sources} {fuel : Nat} {discover : LocalModule → Search Unit}
    (scans : ∀ t, s.Performs fuel (discover t) [.scan t]) (m : LocalModule) (l : ImportLine) :
    s.Performs (fuel + 1) (s.visitLine discover m l) [.line m l] := by
  intro rest d taken
  cases absolute : l.absolute? m with
  | none =>
    have run : (s.visitLine discover m l).run.run d = (.ok (), d.countLine.refuse m l) := by
      unfold visitLine
      rw [run_bind]
      simp only [absolute]
      rfl
    rw [run]
    exact .done (.single (.refuse absolute))
  | some a =>
    cases located : s.targets a with
    | nil =>
      have run : (s.visitLine discover m l).run.run d =
          (.ok (), d.countLine.place s.classify a.topLevel) := by
        unfold visitLine
        rw [run_bind]
        simp only [absolute, located]
        rfl
      rw [run]
      exact .done (.single (.place absolute located))
    | cons t ts =>
      have run : (s.visitLine discover m l).run.run d =
          ((s.targets a).forM (visitTarget discover)).run.run
            (tellTargets m a (s.targets a) d.countLine) := by
        unfold visitLine
        rw [run_bind]
        simp only [absolute, located]
        rfl
      rw [run]
      have step : s.Reaches ⟨[.line m l] ++ rest, d, taken⟩
          ⟨(s.targets a).map (.visit m) ++ rest, tellTargets m a (s.targets a) d.countLine,
            taken ++ [(m, l)]⟩ :=
        .single (.load absolute (by rw [located]; exact List.cons_ne_nil t ts))
      have visits : s.Performs (fuel + 1) ((s.targets a).forM (visitTarget discover))
          ((s.targets a).map (.visit m)) :=
        .forM fun u _ => performs_visitTarget m u (scans u)
      exact .after step (visits rest _ _)

/-- **The recursion does what the tasks do.** -/
theorem performs_discover (s : Sources) (fuel : Nat) (m : LocalModule) :
    s.Performs fuel (s.discover fuel m) [.scan m] := by
  induction fuel generalizing m with
  | zero => exact fun rest d taken => .spent .refl (Nat.le_refl _)
  | succ fuel ih =>
    intro rest d taken
    cases read : s.linesOf m with
    | error e =>
      have run : (s.discover (fuel + 1) m).run.run d = (.error e, d.note (scanNote m)) := by
        unfold discover
        rw [run_bind]
        simp only [read]
        rfl
      rw [run]
      exact .failed .refl read
    | ok lines =>
      have run : (s.discover (fuel + 1) m).run.run d =
          (lines.forM (s.visitLine (s.discover fuel) m)).run.run (d.note (scanNote m)) := by
        unfold discover
        rw [run_bind]
        simp only [read]
        rfl
      rw [run]
      have visits : s.Performs (fuel + 1) (lines.forM (s.visitLine (s.discover fuel) m))
          (lines.map (.line m)) :=
        .forM fun l _ => performs_visitLine ih m l
      exact .after (.single (.scan read)) (visits rest _ _)

/-! ## A whole walk -/

/-- **Where a walk starts:** the entry is found, and it is to be scanned. -/
def start (entry : Path) : Stage :=
  ⟨[.scan (.entry entry)], Discovery.addModule {} (.entry entry), []⟩

/-- **How a walk ends,** with what it has found. -/
inductive Walks (s : Sources) (entry : Path) (limit : Nat) :
    Except CollectError Unit × Discovery → Prop where
  | done {d : Discovery} {taken : List (LocalModule × ImportLine)}
      (reach : s.Reaches (start entry) ⟨[], d, taken⟩) :
      Walks s entry limit (.ok (), d.note (.debug d.summary))
  | failed {m : LocalModule} {tasks : List Task} {d : Discovery}
      {taken : List (LocalModule × ImportLine)} {e : CollectError}
      (reach : s.Reaches (start entry) ⟨.scan m :: tasks, d, taken⟩)
      (unread : s.linesOf m = .error e) : Walks s entry limit (.error e, d.note (scanNote m))
  | spent {m : LocalModule} {tasks : List Task} {d : Discovery}
      {taken : List (LocalModule × ImportLine)}
      (reach : s.Reaches (start entry) ⟨.scan m :: tasks, d, taken⟩)
      (added : limit < d.modules.length) :
      Walks s entry limit (.error (.tooDeep m.absolutePath), d)

/-- **Each walk ends in one of three ways.** -/
theorem collect_walks (s : Sources) (entry : Path) (limit : Nat) :
    s.Walks entry limit (s.collect entry limit) := by
  have ends := performs_discover s limit (.entry entry) [] (Discovery.addModule {} (.entry entry)) []
  have run : s.collect entry limit =
      match (s.discover limit (.entry entry)).run.run (Discovery.addModule {} (.entry entry)) with
      | (.ok (), d) => (.ok (), d.note (.debug d.summary))
      | (.error e, d) => (.error e, d) := by
    unfold collect
    dsimp only
    rw [run_bind]
    rfl
  rw [run]
  generalize (s.discover limit (.entry entry)).run.run (Discovery.addModule {} (.entry entry)) =
    answer at ends ⊢
  cases ends with
  | done reach => exact .done reach
  | failed reach unread => exact .failed reach unread
  | spent reach added =>
    refine .spent reach ?_
    simp only [Discovery.addModule, List.length_append, List.length_singleton] at added
    omega

/-- **A walk that succeeds has done all that there was to do.** -/
theorem exists_reaches_of_collect {s : Sources} {entry : Path} {limit : Nat}
    (success : (s.collect entry limit).1 = .ok ()) :
    ∃ d taken, s.Reaches (start entry) ⟨[], d, taken⟩ ∧ (s.collect entry limit).2 = d.note (.debug d.summary) := by
  have walk := collect_walks s entry limit
  generalize s.collect entry limit = answer at success walk ⊢
  cases walk with
  | done reach => exact ⟨_, _, reach, rfl⟩
  | failed => cases success
  | spent => cases success

/-- A module that cannot be read is told by its reason, which never is the length of a chain. -/
theorem linesOf_ne_tooDeep (s : Sources) (m : LocalModule) (p : Path) :
    s.linesOf m ≠ .error (.tooDeep p) := by
  unfold linesOf
  cases s.files.readText m.absolutePath with
  | error fault => exact nofun
  | ok source =>
    show (s.parse source).mapError (CollectError.unparsable m.absolutePath) ≠ _
    cases s.parse source <;> exact nofun

end Sources

end PyBundle
