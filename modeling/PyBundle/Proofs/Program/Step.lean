import PyBundle.Program.Session

/-!
# What steps do

The run of a step is told by the runs of its parts. Two things are said of steps here. `Step.Runs` is a run that
comes to its end, taken apart into the runs that it is made of. `Step.Keeps` is a property of the file system that
stays, however the run ends.
-/

namespace PyBundle.Step

variable {ε δ α β : Type} {s t : Session} {a : α} {b : β}

/-- **What a step answers and what it leaves.** -/
def outcome (x : Step ε α) (s : Session) : Except ε α × Session := x.run.run s

/-! ## Outcomes -/

@[simp] theorem mapError_ok (failure : δ → ε) (a : α) :
    (Except.ok a : Except δ α).mapError failure = .ok a := rfl

@[simp] theorem mapError_error (failure : δ → ε) (d : δ) :
    (Except.error d : Except δ α).mapError failure = .error (failure d) := rfl

theorem outcome_pure (a : α) (s : Session) : (pure a : Step ε α).outcome s = (.ok a, s) := rfl

theorem outcome_throw (e : ε) (s : Session) : (throw e : Step ε α).outcome s = (.error e, s) := rfl

theorem outcome_bind (x : Step ε α) (f : α → Step ε β) (s : Session) :
    (x >>= f).outcome s =
      match x.outcome s with
      | (.ok a, t) => (f a).outcome t
      | (.error e, t) => (.error e, t) := by
  show (match x.outcome s with | (answer, t) => (ExceptT.bindCont f answer).run t) = _
  rcases x.outcome s with ⟨_ | _, _⟩ <;> rfl

theorem outcome_note (r : LogRecord) (s : Session) :
    (note r : Step ε Unit).outcome s = (.ok (), { s with log := s.log ++ [r] }) := rfl

theorem outcome_files (s : Session) : (files : Step ε FileSystem).outcome s = (.ok s.files, s) := rfl

theorem outcome_files_bind (f : FileSystem → Step ε α) (s : Session) :
    (files >>= f).outcome s = (f s.files).outcome s := rfl

/-- The state that is asked for is the one that a step starts in. -/
theorem outcome_get_bind (f : Session → Step ε α) (s : Session) : (get >>= f).outcome s = (f s).outcome s :=
  rfl

theorem outcome_demand (failure : δ → ε) (answer : Except δ α) (s : Session) :
    (demand failure answer : Step ε α).outcome s = (answer.mapError failure, s) := by
  cases answer <;> rfl

theorem outcome_change (failure : Fault → ε) (operation : FileSystem → FileSystem × Except Fault Unit)
    (s : Session) : (change failure operation).outcome s =
      ((operation s.files).2.mapError failure, { s with files := (operation s.files).1 }) := by
  unfold change
  rw [outcome_get_bind]
  rcases operation s.files with ⟨files, _ | _⟩ <;> rfl

theorem outcome_start (host : Host) (failure : Fault → ε) (call : Call) (s : Session) :
    (start host failure call).outcome s =
      ((host.run s.files call).2.mapError failure,
        { s with files := (host.run s.files call).1, calls := s.calls ++ [call] }) := by
  unfold start
  rw [outcome_get_bind]
  rcases host.run s.files call with ⟨files, _ | _⟩ <;> rfl

theorem outcome_adapt (f : δ → ε) (x : Step δ α) (s : Session) :
    outcome (ExceptT.adapt f x : Step ε α) s = ((x.outcome s).1.mapError f, (x.outcome s).2) := rfl

/-- A step that comes to its end is followed by the next one. -/
theorem outcome_bind_ok {x : Step ε α} {f : α → Step ε β} (run : x.outcome s = (.ok a, t)) :
    (x >>= f).outcome s = (f a).outcome t := by
  rw [outcome_bind, run]

/-- A step that fails ends the run. -/
theorem outcome_bind_error {x : Step ε α} {f : α → Step ε β} {e : ε} (run : x.outcome s = (.error e, t)) :
    (x >>= f).outcome s = (.error e, t) := by
  rw [outcome_bind, run]

/-- What a step does from two states alike, it does alike with another one behind it. -/
theorem outcome_bind_congr {x : Step ε α} {f : α → Step ε β} (same : x.outcome s = x.outcome t) :
    (x >>= f).outcome s = (x >>= f).outcome t := by
  rw [outcome_bind, outcome_bind, same]

theorem outcome_adapt_congr {f : δ → ε} {x : Step δ α} (same : x.outcome s = x.outcome t) :
    outcome (ExceptT.adapt f x : Step ε α) s = outcome (ExceptT.adapt f x : Step ε α) t := by
  rw [outcome_adapt, outcome_adapt, same]

theorem outcome_demand_bind {failure : δ → ε} {answer : Except δ α} {f : α → Step ε β} (given : answer = .ok a) :
    (demand failure answer >>= f).outcome s = (f a).outcome s := by
  rw [given]
  rfl

/-- An answer that a step cannot do without changes nothing. -/
theorem left_demand {P : FileSystem → Prop} {failure : δ → ε} {answer : Except δ α} {f : α → Step ε β}
    (before : P s.files) (onward : ∀ a, answer = .ok a → P ((f a).outcome s).2.files) :
    P ((demand failure answer >>= f).outcome s).2.files := by
  rw [outcome_bind, outcome_demand]
  cases answer with
  | error d => exact before
  | ok a => exact onward a rfl

/-! ## Runs that come to their end -/

/-- **A step comes to its end** with an answer and a state. -/
def Runs (x : Step ε α) (s : Session) (a : α) (t : Session) : Prop := x.outcome s = (.ok a, t)

theorem runs_of_toOption {x : Step ε α} (answered : (x.outcome s).1.toOption = some a) :
    x.Runs s a (x.outcome s).2 := by
  unfold Runs
  generalize x.outcome s = ended at answered ⊢
  obtain ⟨e | b, t⟩ := ended
  · cases answered
  · cases answered
    rfl

theorem runs_pure {a' : α} : (pure a : Step ε α).Runs s a' t ↔ a' = a ∧ t = s := by
  unfold Runs
  rw [outcome_pure]
  simp [eq_comm]

theorem not_runs_throw {e : ε} : ¬ (throw e : Step ε α).Runs s a t := by
  unfold Runs
  rw [outcome_throw]
  simp

theorem runs_bind {x : Step ε α} {f : α → Step ε β} :
    (x >>= f).Runs s b t ↔ ∃ a m, x.Runs s a m ∧ (f a).Runs m b t := by
  unfold Runs
  rw [outcome_bind]
  rcases x.outcome s with ⟨e | a, m⟩
  · simp
  · constructor
    · exact fun next => ⟨a, m, rfl, next⟩
    · rintro ⟨_, _, ⟨⟩, next⟩
      exact next

theorem runs_note {r : LogRecord} {u : Unit} :
    (note r : Step ε Unit).Runs s u t ↔ t = { s with log := s.log ++ [r] } := by
  unfold Runs
  rw [outcome_note]
  simp [eq_comm]

theorem runs_demand {failure : δ → ε} {answer : Except δ α} :
    (demand failure answer).Runs s a t ↔ answer = .ok a ∧ t = s := by
  unfold Runs
  rw [outcome_demand]
  cases answer <;> simp [eq_comm]

theorem runs_files_bind {f : FileSystem → Step ε β} :
    (files >>= f).Runs s b t ↔ (f s.files).Runs s b t := by
  unfold Runs
  rw [outcome_files_bind]

theorem exists_runs_demand {failure : δ → ε} {answer : Except δ α} {Q : α → Session → Prop} :
    (∃ a m, (demand failure answer).Runs s a m ∧ Q a m) ↔ ∃ a, answer = .ok a ∧ Q a s := by
  constructor
  · rintro ⟨a, m, demanded, next⟩
    obtain ⟨given, rfl⟩ := runs_demand.mp demanded
    exact ⟨a, given, next⟩
  · rintro ⟨a, given, next⟩
    exact ⟨a, s, runs_demand.mpr ⟨given, rfl⟩, next⟩

theorem runs_demand_bind {failure : δ → ε} {answer : Except δ α} {f : α → Step ε β} :
    (demand failure answer >>= f).Runs s b t ↔ ∃ a, answer = .ok a ∧ (f a).Runs s b t := by
  rw [runs_bind, exists_runs_demand]

theorem runs_change {failure : Fault → ε} {operation : FileSystem → FileSystem × Except Fault Unit} {u : Unit} :
    (change failure operation).Runs s u t ↔
      ∃ fs, operation s.files = (fs, .ok ()) ∧ t = { s with files := fs } := by
  unfold Runs
  rw [outcome_change]
  rcases operation s.files with ⟨fs, f | u⟩ <;> simp [eq_comm]

theorem runs_start {host : Host} {failure : Fault → ε} {call : Call} {finished : Finished} :
    (start host failure call).Runs s finished t ↔ (host.run s.files call).2 = .ok finished ∧
      t = { s with files := (host.run s.files call).1, calls := s.calls ++ [call] } := by
  unfold Runs
  rw [outcome_start]
  cases (host.run s.files call).2 <;> simp [eq_comm]

/-- Items are taken in turn. -/
theorem runs_forM_cons {f : α → Step ε Unit} {a : α} {as : List α} {u : Unit} :
    ((a :: as).forM f).Runs s u t ↔ ∃ m, (f a).Runs s () m ∧ (as.forM f).Runs m () t := by
  show (f a >>= fun _ => as.forM f).Runs s u t ↔ _
  rw [runs_bind]
  exact ⟨fun ⟨_, m, first, next⟩ => ⟨m, first, next⟩, fun ⟨m, first, next⟩ => ⟨(), m, first, next⟩⟩

theorem runs_forM_nil {f : α → Step ε Unit} {u : Unit} : (([] : List α).forM f).Runs s u t ↔ t = s := by
  show (pure () : Step ε Unit).Runs s u t ↔ _
  rw [runs_pure]
  simp

/-- **A loop that comes to its end** has come to the end of each item, of those before it and of those behind it. -/
theorem exists_split_of_runs {f : α → Step ε Unit} {as : List α} (run : (as.forM f).Runs s () t) (mem : a ∈ as) :
    ∃ before after m m', as = before ++ a :: after ∧ (before.forM f).Runs s () m ∧ (f a).Runs m () m' ∧
      (after.forM f).Runs m' () t := by
  induction as generalizing s with
  | nil => cases mem
  | cons b as ih =>
    obtain ⟨m, first, later⟩ := runs_forM_cons.mp run
    rcases List.mem_cons.mp mem with rfl | mem
    · exact ⟨[], as, s, m, rfl, runs_forM_nil.mpr rfl, first, later⟩
    · obtain ⟨before, after, m', m'', rfl, ended, here, behind⟩ := ih later mem
      exact ⟨b :: before, after, m', m'', rfl, runs_forM_cons.mpr ⟨m, first, ended⟩, here, behind⟩

theorem exists_runs_of_mem {f : α → Step ε Unit} {as : List α} (run : (as.forM f).Runs s () t) (mem : a ∈ as) :
    ∃ m m', (f a).Runs m () m' := by
  obtain ⟨-, -, m, m', -, -, here, -⟩ := exists_split_of_runs run mem
  exact ⟨m, m', here⟩

theorem runs_filterMapM_nil {f : α → Step ε (Option β)} {bs : List β} :
    (([] : List α).filterMapM f).Runs s bs t ↔ bs = [] ∧ t = s := by
  rw [List.filterMapM_nil, runs_pure]

/-- Items are taken in turn, and their answers are kept. -/
theorem runs_filterMapM_cons {f : α → Step ε (Option β)} {a : α} {as : List α} {bs : List β} :
    ((a :: as).filterMapM f).Runs s bs t ↔
      ∃ b? rest m, (f a).Runs s b? m ∧ (as.filterMapM f).Runs m rest t ∧ bs = b?.toList ++ rest := by
  rw [List.filterMapM_cons, runs_bind]
  constructor
  · rintro ⟨b?, m, first, next⟩
    cases b? with
    | none => exact ⟨none, bs, m, first, next, rfl⟩
    | some b =>
      obtain ⟨rest, m', others, last⟩ := runs_bind.mp next
      obtain ⟨rfl, rfl⟩ := runs_pure.mp last
      exact ⟨some b, rest, m, first, others, rfl⟩
  · rintro ⟨b?, rest, m, first, others, rfl⟩
    refine ⟨b?, m, first, ?_⟩
    cases b? with
    | none => exact others
    | some b => exact runs_bind.mpr ⟨rest, t, others, runs_pure.mpr ⟨rfl, rfl⟩⟩

/-- **An item behind others is taken from the state that they leave.** -/
theorem outcome_filterMapM_concat {f : α → Step ε (Option β)} {a : α} {as : List α} {bs : List β}
    (run : (as.filterMapM f).Runs s bs t) :
    ((as ++ [a]).filterMapM f).outcome s = (f a >>= fun b? => pure (bs ++ b?.toList)).outcome t := by
  induction as generalizing s bs with
  | nil =>
    obtain ⟨rfl, rfl⟩ := runs_filterMapM_nil.mp run
    rw [List.nil_append, List.filterMapM_cons, outcome_bind, outcome_bind]
    rcases (f a).outcome t with ⟨e | (none | b), m⟩ <;> rfl
  | cons first as ih =>
    obtain ⟨b?, rest, m, here, later, rfl⟩ := runs_filterMapM_cons.mp run
    rw [List.cons_append, List.filterMapM_cons, outcome_bind_ok here]
    cases b? with
    | none => exact ih later
    | some b =>
      show ((as ++ [a]).filterMapM f >>= fun bs => pure (b :: bs)).outcome m = _
      rw [outcome_bind, ih later, outcome_bind, outcome_bind]
      rcases (f a).outcome t with ⟨e | b?, m'⟩ <;> rfl

/-! ## Runs that fail -/

/-- **A step fails** with an error, and leaves a state. -/
def Fails (x : Step ε α) (s : Session) (e : ε) (t : Session) : Prop := x.outcome s = (.error e, t)

section

variable {e : ε}

theorem not_fails_pure : ¬ (pure a : Step ε α).Fails s e t := by
  unfold Fails
  rw [outcome_pure]
  simp

theorem fails_throw {e' : ε} : (throw e' : Step ε α).Fails s e t ↔ e = e' ∧ t = s := by
  unfold Fails
  rw [outcome_throw]
  simp [eq_comm]

/-- The first of two steps fails, or it comes to its end and the other one fails. -/
theorem fails_bind {x : Step ε α} {f : α → Step ε β} :
    (x >>= f).Fails s e t ↔ x.Fails s e t ∨ ∃ a m, x.Runs s a m ∧ (f a).Fails m e t := by
  unfold Fails Runs
  rw [outcome_bind]
  rcases x.outcome s with ⟨e' | a, m⟩
  · simp
  · constructor
    · exact fun next => .inr ⟨a, m, rfl, next⟩
    · rintro (⟨⟨⟩⟩ | ⟨_, _, ⟨⟩, next⟩)
      exact next

theorem fails_files_bind {f : FileSystem → Step ε β} :
    (files >>= f).Fails s e t ↔ (f s.files).Fails s e t := by
  unfold Fails
  rw [outcome_files_bind]

theorem fails_demand {failure : δ → ε} {answer : Except δ α} :
    (demand failure answer).Fails s e t ↔ ∃ d, answer = .error d ∧ e = failure d ∧ t = s := by
  unfold Fails
  rw [outcome_demand]
  cases answer <;> simp [eq_comm]

theorem fails_demand_bind {failure : δ → ε} {answer : Except δ α} {f : α → Step ε β} :
    (demand failure answer >>= f).Fails s e t ↔
      (∃ d, answer = .error d ∧ e = failure d ∧ t = s) ∨ ∃ a, answer = .ok a ∧ (f a).Fails s e t := by
  rw [fails_bind, fails_demand, exists_runs_demand]

theorem fails_adapt {failure : δ → ε} {x : Step δ α} :
    Fails (ExceptT.adapt failure x : Step ε α) s e t ↔ ∃ d, x.Fails s d t ∧ e = failure d := by
  unfold Fails
  rw [outcome_adapt]
  rcases x.outcome s with ⟨d | a, m⟩
  · constructor
    · rintro ⟨⟩
      exact ⟨d, rfl, rfl⟩
    · rintro ⟨_, ⟨⟩, rfl⟩
      rfl
  · simp

theorem runs_adapt {failure : δ → ε} {x : Step δ α} :
    Runs (ExceptT.adapt failure x : Step ε α) s a t ↔ x.Runs s a t := by
  unfold Runs
  rw [outcome_adapt]
  rcases x.outcome s with ⟨d | a, m⟩ <;> simp

theorem fails_start {host : Host} {failure : Fault → ε} {call : Call} :
    (start host failure call).Fails s e t ↔ ∃ f, (host.run s.files call).2 = .error f ∧ e = failure f ∧
      t = { s with files := (host.run s.files call).1, calls := s.calls ++ [call] } := by
  unfold Fails
  rw [outcome_start]
  cases (host.run s.files call).2 <;> simp [eq_comm]

/-- **A loop that fails** has come to the end of each item before the one that it fails at, and goes no further. -/
theorem exists_of_fails_forM {f : α → Step ε Unit} {as : List α} (fails : (as.forM f).Fails s e t) :
    ∃ before a after m, as = before ++ a :: after ∧ (before.forM f).Runs s () m ∧ (f a).Fails m e t := by
  induction as generalizing s with
  | nil => exact absurd fails not_fails_pure
  | cons a as ih =>
    rcases fails_bind.mp fails with first | ⟨_, m, first, later⟩
    · exact ⟨[], a, as, s, rfl, runs_forM_nil.mpr rfl, first⟩
    · obtain ⟨before, a', after, m', rfl, ended, failed⟩ := ih later
      exact ⟨a :: before, a', after, m', rfl, runs_forM_cons.mpr ⟨m, first, ended⟩, failed⟩

end

/-! ## What stays -/

/-- **A property of the file system stays,** however a step ends, and its answer is as it should be. -/
def Keeps (I : FileSystem → Prop) (x : Step ε α) (Q : α → Prop) : Prop :=
  ∀ s, I s.files → I (x.outcome s).2.files ∧ ∀ a, (x.outcome s).1 = .ok a → Q a

section

variable {I : FileSystem → Prop} {Q R : α → Prop} {S : β → Prop}

theorem Keeps.left {x : Step ε α} (keeps : Keeps I x Q) (start : I s.files) : I (x.outcome s).2.files :=
  (keeps s start).1

theorem Keeps.of_runs {x : Step ε α} (keeps : Keeps I x Q) (start : I s.files) (run : x.Runs s a t) : I t.files := by
  have left := keeps.left start
  rwa [show x.outcome s = _ from run] at left

/-- Two properties that stay with a step stay together. -/
theorem Keeps.and {J : FileSystem → Prop} {x : Step ε α} (keeps : Keeps I x Q) (keeps' : Keeps J x R) :
    Keeps (fun fs => I fs ∧ J fs) x Q := fun s ⟨start, start'⟩ =>
  ⟨⟨keeps.left start, keeps'.left start'⟩, (keeps s start).2⟩

/-- What holds behind a step stays with the next one. -/
theorem Keeps.left_bind {x : Step ε α} {f : α → Step ε β} (next : ∀ a, Keeps I (f a) S)
    (after : I (x.outcome s).2.files) : I ((x >>= f).outcome s).2.files := by
  rw [outcome_bind]
  rcases run : x.outcome s with ⟨e | a, t⟩
  · rw [run] at after
    exact after
  · rw [run] at after
    exact (next a).left after

theorem keeps_pure (holds : Q a) : Keeps I (pure a : Step ε α) Q := fun _ start =>
  ⟨start, fun _ ended => Except.ok.inj ended ▸ holds⟩

theorem keeps_throw {e : ε} : Keeps I (throw e : Step ε α) Q := fun _ start => ⟨start, nofun⟩

theorem Keeps.bind {x : Step ε α} {f : α → Step ε β} (first : Keeps I x Q) (next : ∀ a, Q a → Keeps I (f a) S) :
    Keeps I (x >>= f) S := by
  intro s start
  rw [outcome_bind]
  have ends := first s start
  rcases run : x.outcome s with ⟨e | a, t⟩
  · rw [run] at ends
    exact ⟨ends.1, nofun⟩
  · rw [run] at ends
    exact next a (ends.2 a rfl) t ends.1

theorem keeps_note {r : LogRecord} : Keeps I (note r : Step ε Unit) fun _ => True := fun _ start =>
  ⟨start, fun _ _ => ⟨⟩⟩

/-- The file system that is asked for is as all are. -/
theorem keeps_files : Keeps I (files : Step ε FileSystem) I := fun _ start =>
  ⟨start, fun _ ended => Except.ok.inj ended ▸ start⟩

theorem keeps_demand {failure : δ → ε} {answer : Except δ α} :
    Keeps I (demand failure answer) fun a => answer = .ok a := by
  intro s start
  rw [outcome_demand]
  refine ⟨start, fun a ended => ?_⟩
  cases answer with
  | error => cases ended
  | ok => exact congrArg Except.ok (Except.ok.inj ended)

theorem keeps_change {failure : Fault → ε} {operation : FileSystem → FileSystem × Except Fault Unit}
    (kept : ∀ fs, I fs → I (operation fs).1) : Keeps I (change failure operation) fun _ => True := by
  intro s start
  rw [outcome_change]
  exact ⟨kept s.files start, fun _ _ => ⟨⟩⟩

theorem keeps_start {host : Host} {failure : Fault → ε} {call : Call} (kept : ∀ fs, I fs → I (host.run fs call).1) :
    Keeps I (start host failure call) fun _ => True := by
  intro s start
  rw [outcome_start]
  exact ⟨kept s.files start, fun _ _ => ⟨⟩⟩

theorem keeps_adapt {f : δ → ε} {x : Step δ α} (keeps : Keeps I x Q) : Keeps I (ExceptT.adapt f x : Step ε α) Q := by
  intro s start
  rw [outcome_adapt]
  have ends := keeps s start
  rcases run : x.outcome s with ⟨e | a, t⟩
  · rw [run] at ends
    exact ⟨ends.1, nofun⟩
  · rw [run] at ends
    exact ⟨ends.1, fun a' ended => ends.2 a' (congrArg Except.ok (Except.ok.inj ended))⟩

theorem Keeps.map {x : Step ε α} {f : α → β} (keeps : Keeps I x fun _ => True) :
    Keeps I (f <$> x) fun _ => True := by
  rw [map_eq_pure_bind]
  exact keeps.bind fun _ _ => keeps_pure ⟨⟩

theorem keeps_forM {f : α → Step ε Unit} {as : List α} (each : ∀ a ∈ as, Keeps I (f a) fun _ => True) :
    Keeps I (as.forM f) fun _ => True := by
  induction as with
  | nil => exact keeps_pure ⟨⟩
  | cons a as ih =>
    have first := each a List.mem_cons_self
    exact first.bind fun _ _ => ih fun b mem => each b (List.mem_cons_of_mem a mem)

theorem keeps_filterMapM {f : α → Step ε (Option β)} {as : List α}
    (each : ∀ a ∈ as, Keeps I (f a) fun _ => True) : Keeps I (as.filterMapM f) fun _ => True := by
  induction as with
  | nil => exact keeps_pure ⟨⟩
  | cons a as ih =>
    have first := each a List.mem_cons_self
    have others := ih fun b mem => each b (List.mem_cons_of_mem a mem)
    rw [List.filterMapM_cons]
    refine first.bind fun b? _ => ?_
    cases b? with
    | none => exact others
    | some b => exact others.bind fun _ _ => keeps_pure ⟨⟩

end

/-! ## Steps that do the same -/

/-- **Two steps do the same** wherever a property of the file system holds. -/
def SameWhere (I : FileSystem → Prop) (x y : Step ε α) : Prop := ∀ s, I s.files → x.outcome s = y.outcome s

section

variable {I : FileSystem → Prop} {Q : α → Prop}

theorem sameWhere_refl (x : Step ε α) : SameWhere I x x := fun _ _ => rfl

/-- What is done alike behind a step that keeps the property is done alike with it. -/
theorem Keeps.sameWhere {x : Step ε α} {f g : α → Step ε β} (keeps : Keeps I x Q)
    (next : ∀ a, Q a → SameWhere I (f a) (g a)) : SameWhere I (x >>= f) (x >>= g) := by
  intro s start
  rw [outcome_bind, outcome_bind]
  have ends := keeps s start
  rcases run : x.outcome s with ⟨e | a, t⟩
  · rfl
  · rw [run] at ends
    exact next a (ends.2 a rfl) t ends.1

/-- What is done alike before the same is done alike with it. -/
theorem SameWhere.left_bind {x y : Step ε α} {f : α → Step ε β} (same : SameWhere I x y) :
    SameWhere I (x >>= f) (y >>= f) := by
  intro s start
  rw [outcome_bind, outcome_bind, same s start]

theorem sameWhere_forM {f g : α → Step ε Unit} {as : List α} (keeps : ∀ a ∈ as, Keeps I (f a) fun _ => True)
    (each : ∀ a ∈ as, SameWhere I (f a) (g a)) : SameWhere I (as.forM f) (as.forM g) := by
  induction as with
  | nil => exact sameWhere_refl _
  | cons a as ih =>
    obtain ⟨keeps₁, keeps'⟩ := List.forall_mem_cons.mp keeps
    obtain ⟨same, each'⟩ := List.forall_mem_cons.mp each
    have others := ih keeps' each'
    intro s start
    show (f a >>= fun _ => as.forM f).outcome s = (g a >>= fun _ => as.forM g).outcome s
    rw [← same.left_bind s start]
    exact keeps₁.sameWhere (fun _ _ => others) s start

theorem sameWhere_filterMapM {f g : α → Step ε (Option β)} {as : List α}
    (keeps : ∀ a ∈ as, Keeps I (f a) fun _ => True) (each : ∀ a ∈ as, SameWhere I (f a) (g a)) :
    SameWhere I (as.filterMapM f) (as.filterMapM g) := by
  induction as with
  | nil => exact sameWhere_refl _
  | cons a as ih =>
    obtain ⟨keeps₁, keeps'⟩ := List.forall_mem_cons.mp keeps
    obtain ⟨same, each'⟩ := List.forall_mem_cons.mp each
    have others := ih keeps' each'
    intro s start
    rw [List.filterMapM_cons, List.filterMapM_cons, ← same.left_bind s start]
    refine keeps₁.sameWhere (fun b? _ => ?_) s start
    cases b? with
    | none => exact others
    | some b => exact others.left_bind

end

/-! ## Steps that start nothing -/

/-- **A step starts no program,** however it ends. -/
def StartsNothing (x : Step ε α) : Prop := ∀ s, (x.outcome s).2.calls = s.calls

theorem startsNothing_pure : (pure a : Step ε α).StartsNothing := fun _ => rfl

theorem startsNothing_throw {e : ε} : (throw e : Step ε α).StartsNothing := fun _ => rfl

/-- What stands behind a failure is not run. -/
theorem startsNothing_throw_bind {e : ε} {f : α → Step ε β} : (throw e >>= f : Step ε β).StartsNothing := fun _ => rfl

theorem startsNothing_note {r : LogRecord} : (note r : Step ε Unit).StartsNothing := fun _ => rfl

theorem startsNothing_files : (files : Step ε FileSystem).StartsNothing := fun _ => rfl

theorem startsNothing_demand {failure : δ → ε} {answer : Except δ α} :
    (demand failure answer : Step ε α).StartsNothing := fun s => by rw [outcome_demand]

theorem startsNothing_change {failure : Fault → ε} {operation : FileSystem → FileSystem × Except Fault Unit} :
    (change failure operation).StartsNothing := fun s => by rw [outcome_change]

theorem StartsNothing.bind {x : Step ε α} {f : α → Step ε β} (first : x.StartsNothing)
    (next : ∀ a, (f a).StartsNothing) : (x >>= f).StartsNothing := by
  intro s
  rw [outcome_bind]
  have same := first s
  rcases run : x.outcome s with ⟨e | a, t⟩
  · rwa [run] at same
  · rw [run] at same
    exact (next a t).trans same

theorem startsNothing_forM {f : α → Step ε Unit} {as : List α} (each : ∀ a ∈ as, (f a).StartsNothing) :
    (as.forM f).StartsNothing := by
  induction as with
  | nil => exact startsNothing_pure
  | cons a as ih =>
    have first := each a List.mem_cons_self
    exact first.bind fun _ => ih fun b mem => each b (List.mem_cons_of_mem a mem)

theorem startsNothing_filterMapM {f : α → Step ε (Option β)} {as : List α}
    (each : ∀ a ∈ as, (f a).StartsNothing) : (as.filterMapM f).StartsNothing := by
  induction as with
  | nil => exact startsNothing_pure
  | cons a as ih =>
    have first := each a List.mem_cons_self
    have others := ih fun b mem => each b (List.mem_cons_of_mem a mem)
    rw [List.filterMapM_cons]
    refine first.bind fun b? => ?_
    cases b? with
    | none => exact others
    | some b => exact others.bind fun _ => startsNothing_pure

theorem StartsNothing.calls_of_runs {x : Step ε α} (quiet : x.StartsNothing) (run : x.Runs s a t) :
    t.calls = s.calls := by
  have same := quiet s
  rwa [show x.outcome s = _ from run] at same

theorem StartsNothing.calls_of_fails {x : Step ε α} {e : ε} (quiet : x.StartsNothing) (failed : x.Fails s e t) :
    t.calls = s.calls := by
  have same := quiet s
  rwa [show x.outcome s = _ from failed] at same

end PyBundle.Step
