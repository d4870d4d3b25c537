import PyBundle.Command.Run
import PyBundle.Proofs.Bundle.Stages
import PyBundle.Proofs.Json.RoundTrip

/-!
# The data model comes back from its texts

Each type of the data model is written as an exact JSON value and read from it (`Json.Codes`), so each of its values
comes back from the texts of that value, and the compact text is one line (`dataModel_roundTrips`). Members that are
left out have to come back from what stands for a missing field, and counters have to have 64 bits.
-/

namespace PyBundle

/-! ## Codes -/

namespace Json

variable {α β : Type} {toJson : α → Json} {ofJson? : Json → Option α} {a : α} {as : List α}

/-- What is read is handed on. The kernel takes this step by name: computing it would compare numbers with 64 bits. -/
theorem bind_of_eq_some {x : Option α} (read : x = some a) (f : α → Option β) : (x >>= f) = f a := by
  rw [read, Option.bind_eq_bind, Option.bind_some]

/-- **A value is coded:** it is written as an exact JSON value, from which it is read. -/
structure Codes (toJson : α → Json) (ofJson? : Json → Option α) (a : α) : Prop where
  exact : (toJson a).isExact = true
  read : ofJson? (toJson a) = some a

/-- **A value comes back from its texts,** and its compact text is one line. -/
structure RoundTrips (toJson : α → Json) (ofJson? : Json → Option α) (a : α) : Prop where
  compact : (parse? (toJson a).compact).bind ofJson? = some a
  pretty : (parse? (toJson a).pretty).bind ofJson? = some a
  oneLine : '\n' ∉ (toJson a).compact.toList

theorem Codes.roundTrips (codes : Codes toJson ofJson? a) : RoundTrips toJson ofJson? a where
  compact := by rw [parse?_compact codes.exact, Option.bind_some, codes.read]
  pretty := by rw [parse?_pretty codes.exact, Option.bind_some, codes.read]
  oneLine := newline_notMem_compact codes.exact

/-- A text codes itself. -/
theorem codes_string (s : String) : Codes string string? s := ⟨rfl, rfl⟩

/-- **A number of 64 bits is coded as a counter.** -/
theorem codes_nat {n : Nat} (counted : n < 2 ^ 64) : Codes nat counter? n := by
  refine ⟨rfl, ?_⟩
  have inRange : (0 ≤ (n : Int) && (n : Int) < 0x10000000000000000) = true := by
    rw [Bool.and_eq_true, decide_eq_true_iff, decide_eq_true_iff]
    omega
  unfold nat counter?
  dsimp only
  rw [if_pos inRange, Int.toNat_natCast]

/-- **A list is coded by its items.** -/
theorem codes_list (each : ∀ a ∈ as, Codes toJson ofJson? a) :
    Codes (fun as => array (as.map toJson)) (list? ofJson?) as := by
  induction as with
  | nil => exact ⟨rfl, rfl⟩
  | cons a as ih =>
    obtain ⟨first, others⟩ := List.forall_mem_cons.mp each
    obtain ⟨exact, read⟩ := ih others
    refine ⟨Bool.and_eq_true_iff.mpr ⟨first.exact, exact⟩, ?_⟩
    dsimp only [list?] at read ⊢
    rw [List.map_cons, List.mapM_cons, first.read, read]
    rfl

/-! ## Members -/

theorem haveExact_append (ms ns : List (String × Json)) : haveExact (ms ++ ns) = (haveExact ms && haveExact ns) := by
  induction ms with
  | nil => rfl
  | cons m ms ih => rw [List.cons_append, haveExact, haveExact, ih, Bool.and_assoc]

theorem haveExact_cons {m : String × Json} {ms : List (String × Json)} (exact : m.2.isExact = true)
    (others : haveExact ms = true) : haveExact (m :: ms) = true :=
  Bool.and_eq_true_iff.mpr ⟨exact, others⟩

/-- A field that is there is read. -/
theorem Codes.required (codes : Codes toJson ofJson? a) : required ofJson? (some (toJson a)) = some a := codes.read

/-- A field that may be missing is read if it is there. -/
theorem Codes.optional_some (codes : Codes toJson ofJson? a) (default : α) :
    Json.optional ofJson? default (some (toJson a)) = some a := codes.read

/-- **A list that is left out when it is empty is read,** since an empty list stands for one that is missing. -/
theorem Codes.optional (codes : Codes (fun as : List α => array (as.map toJson)) (list? ofJson?) as) :
    optional (list? ofJson?) [] (if as.isEmpty then none else some (array (as.map toJson))) = some as := by
  cases as with
  | nil => rfl
  | cons a as => exact codes.read

end Json

open Json (Codes RoundTrips)

/-! ## Parts -/

theorem Path.codes (p : Path) : Codes Path.toJson Path.ofJson? p := ⟨rfl, rfl⟩

theorem LocalModule.codes (m : LocalModule) : Codes LocalModule.toJson LocalModule.ofJson? m := ⟨rfl, rfl⟩

theorem Pin.codes (p : Pin) : Codes Pin.toJson Pin.ofJson? p := ⟨rfl, rfl⟩

theorem BuildResult.codes (r : BuildResult) : Codes BuildResult.toJson BuildResult.ofJson? r := ⟨rfl, rfl⟩

/-- A machine is told by its name. -/
theorem Architecture.codes (a : Architecture) : Codes Architecture.toJson Architecture.ofJson? a := by
  cases a <;> exact ⟨rfl, rfl⟩

/-- A classification is told by its kind, and a distribution by the members beside it. -/
theorem Classification.codes (c : Classification) : Codes Classification.toJson Classification.ofJson? c := by
  cases c <;> exact ⟨rfl, rfl⟩

/-- Whether the numbers of an import line are counters. -/
structure ImportLine.IsCounted (l : ImportLine) : Prop where
  level : l.level < 2 ^ 64
  line : l.line < 2 ^ 64

/-- Whether the numbers of a report are counters. -/
structure Stats.IsCounted (s : Stats) : Prop where
  importLines : s.importLines < 2 ^ 64
  localModules : s.localModules < 2 ^ 64
  stdlibModules : s.stdlibModules < 2 ^ 64
  externalModules : s.externalModules < 2 ^ 64
  unknownModules : s.unknownModules < 2 ^ 64
  installedDependencies : s.installedDependencies < 2 ^ 64

/-- Whether all numbers in a report are counters. -/
structure Report.IsCounted (r : Report) : Prop where
  stats : r.stats.IsCounted
  durationMs : r.metadata.durationMs < 2 ^ 64

namespace ImportLine

variable {l : ImportLine}

/-- The fields of an import line, of which the items may be missing. -/
theorem fields?_toJson (l : ImportLine) :
    l.toJson.fields? ["module_name", "items", "level", "line"] =
      some [some (.string l.moduleName), if l.items.isEmpty then none else some (.array (l.items.map Json.string)),
        some (.nat l.level), some (.nat l.line)] := by
  unfold toJson
  cases l.items <;> rfl

theorem codes (counted : l.IsCounted) : Codes toJson ofJson? l := by
  have items : Codes _ _ l.items := Json.codes_list fun s _ => Json.codes_string s
  constructor
  · unfold toJson
    show Json.haveExact _ = true
    split
    · rfl
    · exact Json.haveExact_cons (m := (_, .string _)) rfl (Json.haveExact_cons (m := (_, _)) items.exact rfl)
  · have moduleName := (Json.codes_string l.moduleName).required
    have level := (Json.codes_nat counted.level).optional_some 0
    have line := (Json.codes_nat counted.line).required
    simp only [ofJson?, Json.bind_of_eq_some l.fields?_toJson, Json.bind_of_eq_some moduleName,
      Json.bind_of_eq_some items.optional, Json.bind_of_eq_some level, Json.bind_of_eq_some line]
    rfl

end ImportLine

theorem Stats.fields?_toJson (s : Stats) :
    s.toJson.fields? ["import_lines", "local_modules", "stdlib_modules", "external_modules", "unknown_modules",
        "installed_dependencies"] =
      some [some (.nat s.importLines), some (.nat s.localModules), some (.nat s.stdlibModules),
        some (.nat s.externalModules), some (.nat s.unknownModules), some (.nat s.installedDependencies)] := rfl

theorem Stats.codes {s : Stats} (counted : s.IsCounted) : Codes Stats.toJson Stats.ofJson? s := by
  refine ⟨rfl, ?_⟩
  have importLines := (Json.codes_nat counted.importLines).required
  have localModules := (Json.codes_nat counted.localModules).required
  have stdlibModules := (Json.codes_nat counted.stdlibModules).required
  have externalModules := (Json.codes_nat counted.externalModules).required
  have unknownModules := (Json.codes_nat counted.unknownModules).required
  have installedDependencies := (Json.codes_nat counted.installedDependencies).required
  simp only [ofJson?, Json.bind_of_eq_some s.fields?_toJson, Json.bind_of_eq_some importLines,
    Json.bind_of_eq_some localModules, Json.bind_of_eq_some stdlibModules, Json.bind_of_eq_some externalModules,
    Json.bind_of_eq_some unknownModules, Json.bind_of_eq_some installedDependencies]
  rfl

theorem RunMetadata.fields?_toJson (m : RunMetadata) :
    m.toJson.fields? ["duration_ms", "timestamp", "tool_version"] =
      some [some (.nat m.durationMs), some (.string m.timestamp), some (.string m.toolVersion)] := rfl

theorem RunMetadata.codes {m : RunMetadata} (counted : m.durationMs < 2 ^ 64) :
    Codes RunMetadata.toJson RunMetadata.ofJson? m := by
  refine ⟨rfl, ?_⟩
  have durationMs := (Json.codes_nat counted).required
  have timestamp := (Json.codes_string m.timestamp).required
  have toolVersion := (Json.codes_string m.toolVersion).required
  simp only [ofJson?, Json.bind_of_eq_some m.fields?_toJson, Json.bind_of_eq_some durationMs,
    Json.bind_of_eq_some timestamp, Json.bind_of_eq_some toolVersion]
  rfl

/-! ## Reports -/

namespace Report

variable {r : Report}

/-- **The fields of a report,** of which three may be missing. -/
theorem fields?_toJson (r : Report) :
    r.toJson.fields? fieldNames =
      some [some r.entryFile.toJson, some r.exportDirectory.toJson, some (.array (r.searchRoots.map Path.toJson)),
        some (.array (r.modules.map LocalModule.toJson)), some (.array (r.stdlibModules.map Json.string)),
        some (.array (r.externalModules.map Pin.toJson)),
        if r.unknownModules.isEmpty then none else some (.array (r.unknownModules.map Json.string)),
        if r.additionalModules.isEmpty then none else some (.array (r.additionalModules.map Path.toJson)),
        r.manifest.map Path.toJson, some r.stats.toJson, some r.metadata.toJson] := by
  unfold toJson
  cases r.unknownModules <;> cases r.additionalModules <;> cases r.manifest <;> rfl

theorem haveExact_listMember {name : String} {items : List Json} (exact : Json.areExact items = true) :
    Json.haveExact (listMember name items) = true := by
  unfold listMember
  split
  · rfl
  · exact Json.haveExact_cons exact rfl

theorem optional_manifest (manifest : Option Path) :
    Json.optional (Json.nullable? Path.ofJson?) none (manifest.map Path.toJson) = some manifest := by
  cases manifest <;> rfl

/-- **A report is coded,** whichever of its members are left out. -/
theorem codes (counted : r.IsCounted) : Codes toJson ofJson? r := by
  have searchRoots : Codes _ _ r.searchRoots := Json.codes_list fun p _ => p.codes
  have modules : Codes _ _ r.modules := Json.codes_list fun m _ => m.codes
  have stdlibModules : Codes _ _ r.stdlibModules := Json.codes_list fun s _ => Json.codes_string s
  have externalModules : Codes _ _ r.externalModules := Json.codes_list fun p _ => p.codes
  have unknownModules : Codes _ _ r.unknownModules := Json.codes_list fun s _ => Json.codes_string s
  have additionalModules : Codes _ _ r.additionalModules := Json.codes_list fun p _ => p.codes
  have stats := Stats.codes counted.stats
  have metadata := RunMetadata.codes counted.durationMs
  constructor
  · have manifest : Json.haveExact ((r.manifest.map fun p => ("manifest", p.toJson)).toList) = true := by
      cases r.manifest <;> rfl
    show Json.haveExact _ = true
    simp only [Json.haveExact_append, Bool.and_eq_true]
    refine ⟨⟨⟨⟨?_, haveExact_listMember unknownModules.exact⟩, haveExact_listMember additionalModules.exact⟩, manifest⟩,
      Json.haveExact_cons stats.exact (Json.haveExact_cons metadata.exact rfl)⟩
    exact Json.haveExact_cons r.entryFile.codes.exact <| Json.haveExact_cons r.exportDirectory.codes.exact <|
      Json.haveExact_cons searchRoots.exact <| Json.haveExact_cons modules.exact <|
        Json.haveExact_cons stdlibModules.exact <| Json.haveExact_cons externalModules.exact rfl
  · simp only [ofJson?, Json.bind_of_eq_some r.fields?_toJson, Json.bind_of_eq_some r.entryFile.codes.required,
      Json.bind_of_eq_some r.exportDirectory.codes.required, Json.bind_of_eq_some searchRoots.required,
      Json.bind_of_eq_some modules.required, Json.bind_of_eq_some stdlibModules.required,
      Json.bind_of_eq_some externalModules.required, Json.bind_of_eq_some unknownModules.optional,
      Json.bind_of_eq_some additionalModules.optional, Json.bind_of_eq_some (optional_manifest r.manifest),
      Json.bind_of_eq_some stats.required, Json.bind_of_eq_some metadata.required]
    rfl

end Report

/-! ## The printed line -/

/-- **What a run prints** is the result as a line of its own. -/
theorem Command.printed_of_execute {host : Host} {parse : String → Except Syntax.ParseError (List ImportLine)}
    {metadata : RunMetadata} {a : Arguments} {s t : Session} {printed : String}
    (run : (execute host parse metadata a).Runs s printed t) :
    printed = (BuildResult.succeeded a.config.exportDirectory.normalize.text).render ++ "\n" := by
  obtain ⟨packager, m, started, run⟩ := Step.runs_bind.mp run
  obtain ⟨outcome, m', packed, run⟩ := Step.runs_bind.mp run
  have config : packager.config = a.config := by
    obtain ⟨u, -, indexed⟩ := Step.runs_demand_bind.mp (Step.runs_files_bind.mp (Step.runs_adapt.mp started))
    obtain ⟨index, n, -, ended⟩ := Step.runs_bind.mp indexed
    obtain ⟨rfl, -⟩ := Step.runs_pure.mp ended
    rfl
  obtain ⟨-, -, -, -, -, -, -, result⟩ := Packager.exists_ready_of_runs (Step.runs_adapt.mp packed)
  rw [config] at result
  -- The report is written or not, and the result is printed behind it.
  have last : printed = outcome.result.render ++ "\n" := by
    dsimp only at run
    split at run
    · obtain ⟨_, _, -, ended⟩ := Step.runs_bind.mp run
      exact (Step.runs_pure.mp ended).1
    · exact (Step.runs_pure.mp run).1
  rw [last, result]

/-- **Each value of the data model comes back from its JSON texts,** the compact one and the one on several lines,
whatever its texts and paths are, whichever lists in it are empty, and whether or not there is a manifest, if its
counters have 64 bits. The compact text is one line. So is what a run of the command prints if it comes to its end: one
line, from which its result comes back. -/
theorem dataModel_roundTrips :
    (∀ m, RoundTrips LocalModule.toJson LocalModule.ofJson? m) ∧
    (∀ l : ImportLine, l.IsCounted → RoundTrips ImportLine.toJson ImportLine.ofJson? l) ∧
    (∀ p, RoundTrips Pin.toJson Pin.ofJson? p) ∧
    (∀ c, RoundTrips Classification.toJson Classification.ofJson? c) ∧
    (∀ a, RoundTrips Architecture.toJson Architecture.ofJson? a) ∧
    (∀ r, RoundTrips BuildResult.toJson BuildResult.ofJson? r) ∧
    (∀ s : Stats, s.IsCounted → RoundTrips Stats.toJson Stats.ofJson? s) ∧
    (∀ r : Report, r.IsCounted → RoundTrips Report.toJson Report.ofJson? r) ∧
    ∀ host parse metadata (a : Command.Arguments) s printed t,
      (Command.execute host parse metadata a).Runs s printed t →
        ∃ line, printed = line ++ "\n" ∧ '\n' ∉ line.toList ∧
          (Json.parse? line).bind BuildResult.ofJson? =
            some (.succeeded a.config.exportDirectory.normalize.text) := by
  refine ⟨fun m => m.codes.roundTrips, fun l counted => (l.codes counted).roundTrips, fun p => p.codes.roundTrips,
    fun c => c.codes.roundTrips, fun a => a.codes.roundTrips, fun r => r.codes.roundTrips,
    fun s counted => (Stats.codes counted).roundTrips, fun r counted => (r.codes counted).roundTrips, ?_⟩
  intro host parse metadata a s printed t run
  have result := (BuildResult.succeeded a.config.exportDirectory.normalize.text).codes.roundTrips
  exact ⟨_, Command.printed_of_execute run, result.oneLine, result.compact⟩

/-- A report with the largest counters, in which lists are empty, texts need escapes and there is no manifest. -/
def largestReport : Report where
  entryFile := ⟨"/app/main.py"⟩
  exportDirectory := ⟨"/out\n\"here\""⟩
  searchRoots := [⟨"/app"⟩, ⟨"/lib\\"⟩]
  modules := [{ absolutePath := ⟨"/app/main.py"⟩, relativePath := ⟨"main.py"⟩, isPackage := false, moduleName := "" }]
  stdlibModules := []
  externalModules := [⟨"numpy", "1.0\x01"⟩]
  stats := ⟨2 ^ 64 - 1, 2 ^ 64 - 1, 0, 2 ^ 64 - 1, 0, 1⟩
  metadata := ⟨2 ^ 64 - 1, "T", "0.1.0"⟩

/-- What is asked for a script whose bundle has a path of two lines. -/
def ofTwoLines : Command.Arguments where
  script := some ⟨"/app/main.py"⟩
  exportDirectory := some ⟨"/o\nut"⟩

/-- The report with the largest counters comes back, and a path of two lines is printed on one. -/
theorem dataModel_roundTrips_largest :
    largestReport.IsCounted ∧ RoundTrips Report.toJson Report.ofJson? largestReport ∧
      ∃ printed t line, (Command.execute (Packager.hasOnly "numpy") (fun _ => .ok []) default ofTwoLines).Runs
        { files := Packager.scriptAlone } printed t ∧ printed = line ++ "\n" ∧ '\n' ∉ line.toList := by
  have counted : largestReport.IsCounted := by
    refine ⟨⟨?_, ?_, ?_, ?_, ?_, ?_⟩, ?_⟩ <;> decide
  have ends : ((Command.execute (Packager.hasOnly "numpy") (fun _ => .ok []) default ofTwoLines).outcome
      { files := Packager.scriptAlone }).1.toOption.isSome = true := by decide +kernel
  obtain ⟨printed, answered⟩ := Option.isSome_iff_exists.mp ends
  have run := Step.runs_of_toOption answered
  obtain ⟨-, -, -, -, -, -, -, reports, prints⟩ := dataModel_roundTrips
  obtain ⟨line, split, oneLine, -⟩ := prints _ _ _ _ _ _ _ run
  exact ⟨counted, reports largestReport counted, printed, _, line, run, split, oneLine⟩

end PyBundle
