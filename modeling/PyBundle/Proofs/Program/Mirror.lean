import PyBundle.Proofs.Program.Step

/-!
# Two runs side by side

A step that is run from a state, and another one from a state beside it, mirror each other if they answer the same and
leave states beside one another again (`Step.Mirrors`). Which file systems are beside one another is up to the caller,
and so is which errors count for nothing: where one of the two runs ends with such an error, nothing is said of the
other one. Steps mirror each other if their parts do.
-/

namespace PyBundle

/-- **A state is beside another one:** the same was told and started, and the file systems are related. -/
structure Session.Beside (R : FileSystem → FileSystem → Prop) (s s' : Session) : Prop where
  log : s'.log = s.log
  calls : s'.calls = s.calls
  files : R s.files s'.files

namespace Step

variable {ε δ α β : Type} {R : FileSystem → FileSystem → Prop} {Void : ε → Prop} {s s' : Session}

/-- **Two ends of runs agree:** with the same answer and states beside one another, unless one of the runs has ended
with an error that counts for nothing. -/
def Agree (R : FileSystem → FileSystem → Prop) (Void : ε → Prop) (ended ended' : Except ε α × Session) : Prop :=
  (∃ e, ended.1 = .error e ∧ Void e) ∨ (∃ e, ended'.1 = .error e ∧ Void e) ∨
    ended'.1 = ended.1 ∧ ended.2.Beside R ended'.2

/-- What is less in demand of file systems and of errors is agreed on, too. -/
theorem Agree.mono {R' : FileSystem → FileSystem → Prop} {Void' : ε → Prop} {ended ended' : Except ε α × Session}
    (agree : Agree R Void ended ended') (fewer : ∀ fs fs', R fs fs' → R' fs fs') (more : ∀ e, Void e → Void' e) :
    Agree R' Void' ended ended' := by
  rcases agree with ⟨e, failed, void⟩ | ⟨e, failed, void⟩ | ⟨same, beside⟩
  · exact .inl ⟨e, failed, more e void⟩
  · exact .inr (.inl ⟨e, failed, more e void⟩)
  · exact .inr (.inr ⟨same, beside.log, beside.calls, fewer _ _ beside.files⟩)

/-- Runs that come to their end have the same answer if their ends agree. -/
theorem Agree.of_runs {x y : Step ε α} {a a' : α} {t t' : Session} (agree : Agree R Void (x.outcome s) (y.outcome s'))
    (run : x.Runs s a t) (run' : y.Runs s' a' t') : a' = a ∧ t.Beside R t' := by
  unfold Runs at run run'
  rw [run, run'] at agree
  rcases agree with ⟨e, failed, -⟩ | ⟨e, failed, -⟩ | ⟨same, beside⟩
  · cases failed
  · cases failed
  · exact ⟨Except.ok.inj same, beside⟩

/-- **Two steps mirror each other** if their ends agree wherever they start beside one another. -/
def Mirrors (R : FileSystem → FileSystem → Prop) (Void : ε → Prop) (x y : Step ε α) : Prop :=
  ∀ s s' : Session, s.Beside R s' → Agree R Void (x.outcome s) (y.outcome s')

theorem mirrors_pure (a : α) : Mirrors R Void (pure a : Step ε α) (pure a) := fun _ _ beside =>
  .inr (.inr ⟨rfl, beside⟩)

theorem mirrors_throw (e : ε) : Mirrors R Void (throw e : Step ε α) (throw e) := fun _ _ beside =>
  .inr (.inr ⟨rfl, beside⟩)

/-- A failure ends both runs, whatever is behind it. -/
theorem mirrors_throw_bind {f g : α → Step ε β} (e : ε) : Mirrors R Void (throw e >>= f) (throw e >>= g) :=
  fun _ _ beside => .inr (.inr ⟨rfl, beside⟩)

/-- **Ends that agree are followed by ends that agree,** if they do where both runs have come to the same answer. -/
theorem Agree.bind {x y : Step ε α} {f g : α → Step ε β} (first : Agree R Void (x.outcome s) (y.outcome s'))
    (next : ∀ a t t', x.outcome s = (.ok a, t) → t.Beside R t' → Agree R Void ((f a).outcome t) ((g a).outcome t')) :
    Agree R Void ((x >>= f).outcome s) ((y >>= g).outcome s') := by
  rw [outcome_bind, outcome_bind]
  generalize x.outcome s = ended at first next ⊢
  generalize y.outcome s' = ended' at first ⊢
  obtain ⟨answer, t⟩ := ended
  obtain ⟨answer', t'⟩ := ended'
  rcases first with ⟨e, failed, void⟩ | ⟨e, failed, void⟩ | ⟨same, beside⟩
  · obtain rfl : answer = .error e := failed
    exact .inl ⟨e, rfl, void⟩
  · obtain rfl : answer' = .error e := failed
    exact .inr (.inl ⟨e, rfl, void⟩)
  · obtain rfl : answer' = answer := same
    cases answer' with
    | error e => exact .inr (.inr ⟨rfl, beside⟩)
    | ok a => exact next a t t' rfl beside

theorem Mirrors.bind {x y : Step ε α} {f g : α → Step ε β} (first : Mirrors R Void x y)
    (next : ∀ a, Mirrors R Void (f a) (g a)) : Mirrors R Void (x >>= f) (y >>= g) := fun s s' beside =>
  (first s s' beside).bind fun a t t' _ => next a t t'

theorem mirrors_note (r : LogRecord) : Mirrors R Void (note r : Step ε Unit) (note r) := by
  intro s s' beside
  rw [outcome_note, outcome_note]
  exact .inr (.inr ⟨rfl, by rw [beside.log], beside.calls, beside.files⟩)

/-- Each of two steps may go on with its own file system. -/
theorem mirrors_files_bind {f g : FileSystem → Step ε α} (next : ∀ fs fs', R fs fs' → Mirrors R Void (f fs) (g fs')) :
    Mirrors R Void (files >>= f) (files >>= g) := by
  intro s s' beside
  rw [outcome_files_bind, outcome_files_bind]
  exact next s.files s'.files beside.files s s' beside

/-- Answers that steps cannot do without are given to both, or to neither for the same reason. -/
theorem mirrors_demand_bind {failure : δ → ε} {answer answer' : Except δ α} {f g : α → Step ε β}
    (given : (∃ d, answer = .error d ∧ answer' = .error d) ∨
      ∃ a a', answer = .ok a ∧ answer' = .ok a' ∧ Mirrors R Void (f a) (g a')) :
    Mirrors R Void (demand failure answer >>= f) (demand failure answer' >>= g) := by
  rcases given with ⟨d, rfl, rfl⟩ | ⟨a, a', rfl, rfl, next⟩
  · exact mirrors_throw (failure d)
  · exact next

/-- **Changes mirror each other** if they answer the same and keep file systems related. -/
theorem mirrors_change {failure : Fault → ε} {operation : FileSystem → FileSystem × Except Fault Unit}
    (alike : ∀ fs fs', R fs fs' →
      R (operation fs).1 (operation fs').1 ∧ (operation fs').2 = (operation fs).2) :
    Mirrors R Void (change failure operation) (change failure operation) := by
  intro s s' beside
  obtain ⟨related, same⟩ := alike s.files s'.files beside.files
  rw [outcome_change, outcome_change, same]
  exact .inr (.inr ⟨rfl, beside.log, beside.calls, related⟩)

/-! ## Steps that do nothing -/

/-- **A step does nothing:** it leaves all as it is, and if it fails, then with an error that counts for nothing. -/
def IsIdle (Void : ε → Prop) (x : Step ε Unit) : Prop :=
  ∀ s, (∃ e, x.outcome s = (.error e, s) ∧ Void e) ∨ x.outcome s = (.ok (), s)

theorem isIdle_pure : IsIdle Void (pure () : Step ε Unit) := fun _ => .inr rfl

theorem IsIdle.mirrors {x y : Step ε Unit} (idle : IsIdle Void x) (idle' : IsIdle Void y) : Mirrors R Void x y := by
  intro s s' beside
  rcases idle s with ⟨e, failed, void⟩ | ended
  · rw [failed]
    exact .inl ⟨e, rfl, void⟩
  · rcases idle' s' with ⟨e, failed, void⟩ | ended'
    · rw [failed]
      exact .inr (.inl ⟨e, rfl, void⟩)
    · rw [ended, ended']
      exact .inr (.inr ⟨rfl, beside⟩)

/-! ## Loops -/

/-- **Loops mirror each other** if the one goes through the items of the other one and leaves out some that do
nothing. -/
theorem mirrors_forM_filter {f g : α → Step ε Unit} {keep : α → Bool} {as : List α}
    (each : ∀ a ∈ as, keep a = true → Mirrors R Void (f a) (g a))
    (others : ∀ a ∈ as, keep a = false → IsIdle Void (f a)) :
    Mirrors R Void (as.forM f) ((as.filter keep).forM g) := by
  induction as with
  | nil => exact mirrors_pure ()
  | cons a as ih =>
    obtain ⟨here, each'⟩ := List.forall_mem_cons.mp each
    obtain ⟨idle, others'⟩ := List.forall_mem_cons.mp others
    have later := ih each' others'
    by_cases kept : keep a = true
    · rw [List.filter_cons_of_pos kept]
      exact (here kept).bind fun _ => later
    · rw [List.filter_cons_of_neg kept]
      exact ((idle (Bool.eq_false_iff.mpr kept)).mirrors isIdle_pure).bind fun _ => later

theorem mirrors_forM {f g : α → Step ε Unit} {as : List α} (each : ∀ a ∈ as, Mirrors R Void (f a) (g a)) :
    Mirrors R Void (as.forM f) (as.forM g) := by
  induction as with
  | nil => exact mirrors_pure ()
  | cons a as ih =>
    obtain ⟨here, each'⟩ := List.forall_mem_cons.mp each
    exact here.bind fun _ => ih each'

theorem mirrors_filterMapM {f g : α → Step ε (Option β)} {as : List α}
    (each : ∀ a ∈ as, Mirrors R Void (f a) (g a)) : Mirrors R Void (as.filterMapM f) (as.filterMapM g) := by
  induction as with
  | nil => exact mirrors_pure []
  | cons a as ih =>
    obtain ⟨here, each'⟩ := List.forall_mem_cons.mp each
    have later := ih each'
    rw [List.filterMapM_cons, List.filterMapM_cons]
    refine here.bind fun b? => ?_
    cases b? with
    | none => exact later
    | some b => exact later.bind fun bs => mirrors_pure (b :: bs)

end Step

end PyBundle
