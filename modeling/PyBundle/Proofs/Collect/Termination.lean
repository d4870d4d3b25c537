import Mathlib.Data.Set.Card
import PyBundle.Proofs.Collect.Place
import PyBundle.Proofs.Text.Size

/-!
# A walk ends

As long as nothing that is spelled has a slash, a module that is found is told by the names on the way from a
root to its file, and by its form. There are only finitely many such ways, since the path of a file is not too
long, so a walk is finite without any limit, and the limit of `Sources.collect` never shows.
-/

namespace PyBundle.Sources

variable {s : Sources} {entry : Path} {m n t : LocalModule}

/-! ## Files below the roots -/

/-- **The regular files below the roots,** each with its root, the names on the way to it from there and one
of the two forms of a module. -/
def FileForms (s : Sources) : Set (Path × List String × Bool) :=
  {way | way.1 ∈ s.roots ∧ (way.2.1 ≠ [] ∧ ∀ name ∈ way.2.1, IsFileName name) ∧
    s.files.isFile (way.1.join (.ofNames way.2.1)) = true}

/-- The roots, the texts that are shorter than the longest path, and both forms. -/
def ShortForms (s : Sources) : Set (Path × String × Bool) :=
  {root | root ∈ s.roots} ×ˢ Text.shortTexts FileSystem.pathLimit ×ˢ Set.univ

/-- A way with its names joined. -/
def joinNames (way : Path × List String × Bool) : Path × String × Bool :=
  (way.1, (Path.ofNames way.2.1).text, way.2.2)

theorem joinNames_mapsTo (s : Sources) : Set.MapsTo joinNames s.FileForms s.ShortForms := by
  rintro ⟨root, names, isPackage⟩ ⟨isRoot, -, file⟩
  refine ⟨isRoot, ?_, Set.mem_univ _⟩
  have short := Nat.lt_of_not_le (FileSystem.not_isTooLong_of_isFile file)
  obtain ⟨front, text, -⟩ := root.join_text (.ofNames names)
  rw [text, String.utf8ByteSize_append] at short
  exact Nat.lt_of_le_of_lt (Nat.le_add_left _ _) short

theorem joinNames_injOn (s : Sources) : Set.InjOn joinNames s.FileForms := by
  rintro ⟨root, names, isPackage⟩ ⟨-, ⟨some, proper⟩, -⟩ ⟨root', names', isPackage'⟩
    ⟨-, ⟨some', proper'⟩, -⟩ same
  simp only [joinNames, Prod.mk.injEq] at same
  obtain ⟨rfl, text, rfl⟩ := same
  obtain rfl : names = names' := Path.ofNames_injective proper proper' some some' (congrArg Path.mk text)
  rfl

theorem shortForms_finite (s : Sources) : s.ShortForms.Finite :=
  (List.finite_toSet s.roots).prod ((Text.shortTexts_finite _).prod Set.finite_univ)

theorem ncard_shortForms_le (s : Sources) :
    s.ShortForms.ncard ≤ s.roots.length * 2 * textsBelow FileSystem.pathLimit := by
  unfold ShortForms
  rw [Set.ncard_prod, Set.ncard_prod, Set.ncard_univ, Nat.card_eq_fintype_card, Fintype.card_bool,
    Nat.mul_comm _ 2, ← Nat.mul_assoc]
  refine Nat.mul_le_mul (Nat.mul_le_mul_right 2 ?_) (Text.ncard_shortTexts_le _)
  classical
  rw [← List.coe_toFinset, Set.ncard_coe_finset]
  exact List.toFinset_card_le s.roots

/-- **There are only finitely many files below the roots.** -/
theorem fileForms_finite (s : Sources) : s.FileForms.Finite :=
  Set.Finite.of_injOn s.joinNames_mapsTo s.joinNames_injOn s.shortForms_finite

/-- The limit of a walk is more than there are such files. -/
theorem ncard_fileForms_lt (s : Sources) : s.FileForms.ncard < s.depthLimit := by
  have fewer : s.FileForms.ncard ≤ s.ShortForms.ncard :=
    Set.ncard_le_ncard_of_injOn joinNames s.joinNames_mapsTo s.joinNames_injOn s.shortForms_finite
  have bound := s.ncard_shortForms_le
  unfold depthLimit
  omega

/-! ## Modules and their files -/

/-- **The way of a module** from a root, with its form. -/
def wayFrom (root : Path) (m : LocalModule) : Path × List String × Bool := (root, wayTo m, m.isPackage)

/-- **A module that is located is a file below a root.** -/
theorem exists_fileForm (located : LocalModule.locate s.files s.roots m.moduleName = some m)
    (free : SlashFree m.moduleName) : ∃ root, wayFrom root m ∈ s.FileForms := by
  obtain ⟨proper, relative⟩ := relativePath_of_locate located free
  obtain ⟨root, stands⟩ := exists_standsBelow_of_locate located
  have file := stands.file
  rw [relative] at file
  exact ⟨root, stands.mem, proper, file⟩

/-- **Modules that are reached have ways of their own,** whatever the roots are. -/
theorem Reachable.eq_of_wayFrom_eq {root root' : Path} (reachable : s.Reachable entry m)
    (other : s.Reachable entry n) (same : wayFrom root m = wayFrom root' n) : m = n := by
  obtain ⟨-, way, form⟩ : root = root' ∧ wayTo m = wayTo n ∧ m.isPackage = n.isPackage := by
    simpa only [wayFrom, Prod.mk.injEq] using same
  exact reachable.eq_of_moduleName_eq other (moduleName_eq_of_wayTo_eq form way)

/-- **At no stage are there more modules than files below the roots,** the entry apart. -/
theorem Reaches.length_le_ncard {g : Stage}
    (spelled : ∀ m, s.Reachable entry m → ∀ l, s.HasLine m l → l.IsSlashFree)
    (reach : s.Reaches (start entry) g) : g.found.modules.length ≤ 1 + s.FileForms.ncard := by
  have sound := reach.sound
  have nodup : g.found.modules.Nodup := reach.distinct.imp fun other same => by
    rw [same, LocalModule.sameAs_refl] at other
    cases other
  obtain ⟨rest, modules⟩ : ∃ rest, g.found.modules = .entry entry :: rest :=
    List.head?_eq_some_iff.mp sound.entryFirst
  rw [modules] at nodup ⊢
  have reachable : ∀ m ∈ rest, s.Reachable entry m := fun m mem =>
    sound.reachable m (modules ▸ List.mem_cons_of_mem _ mem)
  have located : ∀ m ∈ rest, ∃ root, wayFrom root m ∈ s.FileForms := fun m mem => by
    rcases (reachable m mem).eq_entry_or_located with rfl | ⟨-, located⟩
    · exact absurd mem (List.nodup_cons.mp nodup).1
    · exact exists_fileForm located ((reachable m mem).slashFree spelled)
  -- Each module but the entry takes a way of its own.
  choose! root isWay using located
  have own : ∀ m ∈ rest, ∀ n ∈ rest, wayFrom (root m) m = wayFrom (root n) n → m = n := fun m mem n other =>
    (reachable m mem).eq_of_wayFrom_eq (reachable n other)
  have ways : (rest.map fun m => wayFrom (root m) m).Nodup := (List.nodup_cons.mp nodup).2.map_on own
  classical
  have fewer : (rest.map fun m => wayFrom (root m) m).toFinset.card ≤ s.FileForms.ncard := by
    rw [← Set.ncard_coe_finset, List.coe_toFinset]
    refine Set.ncard_le_ncard (fun w mem => ?_) s.fileForms_finite
    obtain ⟨m, inRest, rfl⟩ := List.mem_map.mp mem
    exact isWay m inRest
  rw [List.toFinset_card_of_nodup ways, List.length_map] at fewer
  rw [List.length_cons]
  omega

/-! ## The limit does not count -/

/-- **A task does one thing.** -/
theorem advances_rightUnique (s : Sources) : Relator.RightUnique s.Advances := by
  intro a b c first second
  cases first with
  | scan read =>
    cases second with
    | scan read' =>
      cases read.symm.trans read'
      rfl
  | refuse refused =>
    cases second with
    | refuse => rfl
    | place absolute => cases refused.symm.trans absolute
    | load absolute => cases refused.symm.trans absolute
  | place absolute unlocated =>
    cases second with
    | refuse refused => cases refused.symm.trans absolute
    | place absolute' =>
      cases absolute.symm.trans absolute'
      rfl
    | load absolute' located =>
      cases absolute.symm.trans absolute'
      exact absurd unlocated located
  | load absolute located =>
    cases second with
    | refuse refused => cases refused.symm.trans absolute
    | place absolute' unlocated =>
      cases absolute.symm.trans absolute'
      exact absurd unlocated located
    | load absolute' =>
      cases absolute.symm.trans absolute'
      rfl
  | skip known =>
    cases second with
    | skip => rfl
    | add new => cases known.symm.trans new
  | add new =>
    cases second with
    | skip known => cases known.symm.trans new
    | add => rfl

/-- No task can be done at a stage. -/
def Stuck (s : Sources) (g : Stage) : Prop := ∀ h, ¬ s.Advances g h

/-- A walk has one end. -/
theorem Reaches.eq_of_stuck {a b c : Stage} (hb : s.Reaches a b) (hc : s.Reaches a c)
    (stuckB : s.Stuck b) (stuckC : s.Stuck c) : b = c := by
  rcases hb.total_of_right_unique s.advances_rightUnique hc with onward | onward
  · rcases onward.cases_head with same | ⟨next, step, -⟩
    · exact same
    · exact absurd step (stuckB next)
  · rcases onward.cases_head with same | ⟨next, step, -⟩
    · exact same.symm
    · exact absurd step (stuckC next)

theorem stuck_nil {d : Discovery} {taken : List (LocalModule × ImportLine)} : s.Stuck ⟨[], d, taken⟩ :=
  fun _ => nofun

theorem stuck_scan {tasks : List Task} {d : Discovery} {taken : List (LocalModule × ImportLine)}
    {e : CollectError} (unread : s.linesOf m = .error e) : s.Stuck ⟨.scan m :: tasks, d, taken⟩ := by
  intro next step
  cases step with
  | scan read => cases unread.symm.trans read

/-- **Limits that are not reached give the same answer.** -/
theorem Walks.unique {limit limit' : Nat} {x y : Except CollectError Unit × Discovery}
    (hx : s.Walks entry limit x) (hy : s.Walks entry limit' y)
    (endsX : ∀ p, x.1 ≠ .error (.tooDeep p)) (endsY : ∀ p, y.1 ≠ .error (.tooDeep p)) : x = y := by
  cases hx with
  | done reach =>
    cases hy with
    | done reach' =>
      cases reach.eq_of_stuck reach' stuck_nil stuck_nil
      rfl
    | failed reach' unread => cases reach.eq_of_stuck reach' stuck_nil (stuck_scan unread)
    | spent => exact absurd rfl (endsY _)
  | failed reach unread =>
    cases hy with
    | done reach' => cases reach.eq_of_stuck reach' (stuck_scan unread) stuck_nil
    | failed reach' unread' =>
      cases reach.eq_of_stuck reach' (stuck_scan unread) (stuck_scan unread')
      cases unread.symm.trans unread'
      rfl
    | spent => exact absurd rfl (endsY _)
  | spent => exact absurd rfl (endsX _)

/-- **A walk ends.** If no import spells a slash, then a limit of the chains of imports does not count as soon
as it is more than there are files below the roots: the walk comes to its end, and always to the same. At any
limit it finds the entry and at most one module for each of these files and each form. -/
theorem collect_terminates (s : Sources) (entry : Path)
    (spelled : ∀ m, s.Reachable entry m → ∀ l, s.HasLine m l → l.IsSlashFree) :
    s.FileForms.Finite ∧ s.FileForms.ncard < s.depthLimit ∧
    (∀ limit, s.FileForms.ncard < limit →
      (∀ p, (s.collect entry limit).1 ≠ .error (.tooDeep p)) ∧
        s.collect entry limit = s.collect entry) ∧
    ∀ limit, (s.collect entry limit).2.modules.length ≤ 1 + s.FileForms.ncard := by
  have ends : ∀ limit, s.FileForms.ncard < limit →
      ∀ p, (s.collect entry limit).1 ≠ .error (.tooDeep p) := by
    intro limit enough p
    have walk := collect_walks s entry limit
    generalize s.collect entry limit = answer at walk ⊢
    cases walk with
    | done => exact nofun
    | @failed m tasks d taken e reach unread =>
      rintro ⟨⟩
      exact s.linesOf_ne_tooDeep m p unread
    | spent reach added =>
      have fewer := reach.length_le_ncard spelled
      dsimp only at fewer
      omega
  refine ⟨s.fileForms_finite, s.ncard_fileForms_lt, fun limit enough => ⟨ends limit enough, ?_⟩, ?_⟩
  · exact (collect_walks s entry limit).unique (collect_walks s entry s.depthLimit) (ends limit enough)
      (ends s.depthLimit s.ncard_fileForms_lt)
  · intro limit
    have walk := collect_walks s entry limit
    generalize s.collect entry limit = answer at walk ⊢
    cases walk with
    | done reach => exact reach.length_le_ncard spelled
    | failed reach => exact reach.length_le_ncard spelled
    | spent reach => exact reach.length_le_ncard spelled

/-- What stands in a file is parsed from a text. -/
theorem HasLine.parsed {l : ImportLine} (line : s.HasLine m l) :
    ∃ source lines, s.parse source = .ok lines ∧ l ∈ lines := by
  obtain ⟨lines, read, mem⟩ := line
  unfold linesOf at read
  split at read
  · cases read
  · rename_i source _
    cases parsed : s.parse source with
    | error reason =>
      rw [parsed] at read
      cases read
    | ok lines' =>
      rw [parsed] at read
      cases read
      exact ⟨source, lines, parsed, mem⟩

theorem collect_terminates_circle :
    (∀ m, circle.Reachable ⟨"/main.py"⟩ m → ∀ l, circle.HasLine m l → l.IsSlashFree) ∧
      ∀ p, (circle.collect ⟨"/main.py"⟩).1 ≠ .error (.tooDeep p) := by
  have spelled : ∀ m, circle.Reachable ⟨"/main.py"⟩ m → ∀ l, circle.HasLine m l → l.IsSlashFree := by
    intro m _ l line
    obtain ⟨source, lines, parsed, mem⟩ := line.parsed
    have free : ∀ l ∈ lines, l.IsSlashFree := by
      unfold circle at parsed
      dsimp only at parsed
      split at parsed
      · cases parsed
        exact List.forall_mem_singleton.mpr ⟨by decide, by decide⟩
      · split at parsed
        · cases parsed
          exact List.forall_mem_singleton.mpr ⟨by decide, by decide⟩
        · cases parsed
          exact List.forall_mem_cons.mpr ⟨⟨by decide, by decide⟩,
            List.forall_mem_singleton.mpr ⟨by decide, by decide⟩⟩
    exact free l mem
  obtain ⟨-, fewer, ends, -⟩ := collect_terminates circle ⟨"/main.py"⟩ spelled
  exact ⟨spelled, (ends circle.depthLimit fewer).1⟩

end PyBundle.Sources
