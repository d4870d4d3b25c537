import PyBundle.Proofs.Bundle.Stages
import PyBundle.Proofs.Collect.Causes

/-!
# The manifest and the report

The distributions that a run has found are sorted for the report, and once more when the manifest is printed. The
order is the one of their names in lower case, so several of them may come at one place of it. These stay in the order
in which they were found, and what is sorted stays as it is, so both tell the same list (`render_sorted`).

`package_manifest` says what is read from the manifest after a run that comes to its end.
-/

namespace PyBundle

open Syntax (ParseError)

/-! ## Sorting -/

namespace Pin

/-- The name that counts for the order. -/
def key (p : Pin) : String := Text.lower p.name

theorem sorted_perm (pins : List Pin) : (sorted pins).Perm pins := List.mergeSort_perm pins precedes

theorem sorted_pairwise (pins : List Pin) : (sorted pins).Pairwise fun p q => p.key ≤ q.key :=
  Text.pairwise_mergeSort key pins

/-- Distributions whose names differ in case alone stay in order. -/
theorem sorted_filter (pins : List Pin) (name : String) :
    ((sorted pins).filter fun p => p.key == name) = pins.filter fun p => p.key == name :=
  Text.filter_mergeSort key pins name

theorem sorted_sorted (pins : List Pin) : sorted (sorted pins) = sorted pins := Text.mergeSort_mergeSort key pins

end Pin

/-! ## Printing -/

namespace Manifest

/-- Lines behind lines. -/
theorem ofLines_append (lines others : List String) : ofLines (lines ++ others) = ofLines lines ++ ofLines others := by
  unfold ofLines
  rw [List.map_append, String.join_append]

/-- **What has been sorted is printed as it is:** a line for each distribution, and then the further lines. -/
theorem render_sorted (pins : List Pin) (extra : List String) :
    render (Pin.sorted pins) extra =
      String.join ((Pin.sorted pins).map fun p => p.name ++ "==" ++ p.version ++ "\n") ++
        String.join (extra.map (· ++ "\n")) := by
  unfold render
  rw [Pin.sorted_sorted, ofLines_append]
  unfold ofLines
  rw [List.map_map]
  rfl

/-- A text is read back from its bytes. -/
theorem fromUTF8?_toUTF8 (text : String) : String.fromUTF8? text.toUTF8 = some text := by
  unfold String.fromUTF8?
  exact dif_pos text.isValidUTF8

/-- **A manifest is read as it is printed.** -/
theorem readText_of_runs_write {b : Bundle} {pins : List Pin} {extra : List String} {s t : Session} {path : Path}
    (run : (write b pins extra).Runs s path t) :
    path = b.directory.push fileName ∧ t.files.readText path = .ok (render pins extra) := by
  unfold write at run
  obtain ⟨_, m, -, run⟩ := Step.runs_bind.mp run
  obtain ⟨_, n, written, ended⟩ := Step.runs_bind.mp run
  obtain ⟨fs, settled, rfl⟩ := Step.runs_change.mp written
  obtain ⟨rfl, rfl⟩ := Step.runs_pure.mp ended
  refine ⟨rfl, ?_⟩
  cases wrote : m.files.write (b.directory.push fileName) (render pins extra).toUTF8 with
  | error fault =>
    rw [wrote] at settled
    cases settled
  | ok fs' =>
    rw [wrote] at settled
    cases settled
    unfold FileSystem.readText
    rw [FileSystem.read_of_write wrote]
    dsimp only
    rw [fromUTF8?_toUTF8]

end Manifest

/-! ## The run -/

namespace Packager

variable {host : Host} {parse : String → Except ParseError (List ImportLine)} {metadata : RunMetadata} {p : Packager}
  {s t : Session} {b : Bundle} {found : Discovery}

/-- A manifest that is asked for is written. -/
theorem runs_list? {manifest : Option Path} (asked : p.config.generateManifest = true)
    (run : (p.list? b found).Runs s manifest t) :
    ∃ path, manifest = some path ∧
      (Manifest.write b found.sortedExternal p.config.extraRequirements).Runs s path t := by
  unfold list? at run
  rw [if_pos asked, map_eq_pure_bind] at run
  obtain ⟨path, n, written, ended⟩ := Step.runs_bind.mp run
  obtain ⟨rfl, rfl⟩ := Step.runs_pure.mp ended
  exact ⟨path, rfl, Step.runs_adapt.mp written⟩

/-- What is ready to be written has been found by a walk that has come to its end, so no distribution is told twice. -/
theorem Ready.nodup_external {m : Session} (ready : p.Ready parse s b found m) : found.external.Nodup := by
  cases ready with
  | @intro entry target roots found filter located exported rooted collected filtered =>
    have ended : (Sources.collect ⟨s.files, roots, parse, p.classify⟩ entry).1 = .ok () := congrArg Prod.fst collected
    obtain ⟨-, -, -, nodup⟩ := Sources.filed_of_collect ended
    rwa [collected] at nodup

/-- **The manifest and the report tell the same distributions.** The report has all that were found, each of them
once, in the order of their names in lower case, and those with the same name in lower case in the order in which they
were found. After the run the manifest has a line for each of them, in the order of the report, and then the further
lines as they are given. -/
theorem package_manifest (host : Host) (parse : String → Except ParseError (List ImportLine)) (metadata : RunMetadata)
    (p : Packager) (s : Session) {outcome : Outcome} {t : Session}
    (run : (p.package host parse metadata).Runs s outcome t) (asked : p.config.generateManifest = true) :
    ∃ b found m, p.Ready parse s b found m ∧
      found.external.Nodup ∧ outcome.report.externalModules.Perm found.external ∧
      outcome.report.externalModules.Pairwise (fun x y => Text.lower x.name ≤ Text.lower y.name) ∧
      (∀ name, (outcome.report.externalModules.filter fun x => Text.lower x.name == name) =
        found.external.filter fun x => Text.lower x.name == name) ∧
      outcome.report.manifest = some (b.directory.push "requirements.txt") ∧
      t.files.readText (b.directory.push "requirements.txt") = .ok
        (String.join (outcome.report.externalModules.map fun x => x.name ++ "==" ++ x.version ++ "\n") ++
          String.join (p.config.extraRequirements.map (· ++ "\n"))) := by
  obtain ⟨b, found, m, copied, m', installed, n, ready, -, -, listed, -, external⟩ := exists_stages_of_runs run
  obtain ⟨path, manifest, written⟩ := runs_list? asked listed
  obtain ⟨rfl, text⟩ := Manifest.readText_of_runs_write written
  refine ⟨b, found, m, ready, ready.nodup_external, ?_, ?_, fun name => ?_, manifest, ?_⟩
  · rw [external]
    exact Pin.sorted_perm found.external
  · rw [external]
    exact Pin.sorted_pairwise found.external
  · rw [external]
    exact Pin.sorted_filter found.external name
  · rw [external]
    exact text.trans (congrArg Except.ok (Manifest.render_sorted found.external _))

/-! ## Names in either case -/

/-- A script that imports distributions whose names differ in case alone. -/
def threeImports (_ : String) : Except ParseError (List ImportLine) :=
  .ok [{ moduleName := "late", line := 1 }, { moduleName := "lower", line := 2 }, { moduleName := "upper", line := 3 }]

/-- A run for the script, with a further requirement. -/
def eitherCase : Packager where
  config := { entryFile := ⟨"/app/main.py"⟩, exportDirectory := ⟨"/out"⟩, extraRequirements := ["extra>=1"] }
  classify
    | "late" => .external ⟨"zlib", "1"⟩
    | "lower" => .external ⟨"foo", "2"⟩
    | "upper" => .external ⟨"Foo", "1"⟩
    | _ => .unknown

/-- What the run for the script finds. -/
theorem external_of_ready {m : Session} (ready : eitherCase.Ready threeImports { files := scriptAlone } b found m) :
    found.external = [⟨"zlib", "1"⟩, ⟨"foo", "2"⟩, ⟨"Foo", "1"⟩] := by
  cases ready with
  | intro located _ rooted collected _ =>
    obtain rfl := Except.ok.inj (located.symm.trans (Sources.eq_ok_of_toOption
      (by decide +kernel : (Config.absolute scriptAlone ⟨"/app/main.py"⟩).toOption = some ⟨"/app/main.py"⟩)))
    obtain rfl := Except.ok.inj (rooted.symm.trans (Sources.eq_ok_of_toOption
      (by decide +kernel : (eitherCase.config.searchRoots scriptAlone).toOption = some [⟨"/app"⟩])))
    have same := congrArg (·.2.external) collected
    exact same.symm.trans (by decide +kernel)

/-- The distributions whose names differ in case alone stay in the order in which they are found. -/
theorem package_manifest_eitherCase :
    ∃ outcome t, (eitherCase.package idle threeImports default).Runs { files := scriptAlone } outcome t ∧
      outcome.report.externalModules = [⟨"foo", "2"⟩, ⟨"Foo", "1"⟩, ⟨"zlib", "1"⟩] ∧
      t.files.readText ⟨"/out/requirements.txt"⟩ = .ok "foo==2\nFoo==1\nzlib==1\nextra>=1\n" := by
  have told : ((eitherCase.package idle threeImports default).outcome { files := scriptAlone }).1.toOption.map
      (·.report.manifest) = some (some ⟨"/out/requirements.txt"⟩) := by decide +kernel
  obtain ⟨outcome, answered, manifest⟩ := Option.map_eq_some_iff.mp told
  have run := Step.runs_of_toOption answered
  obtain ⟨_, _, _, _, _, _, _, ready, -, -, -, -, external⟩ := exists_stages_of_runs run
  have before : Pin.precedes ⟨"zlib", "1"⟩ ⟨"foo", "2"⟩ = false ∧ Pin.precedes ⟨"foo", "2"⟩ ⟨"Foo", "1"⟩ = true ∧
      Pin.precedes ⟨"zlib", "1"⟩ ⟨"Foo", "1"⟩ = false := by decide +kernel
  have sorted : Pin.sorted [⟨"zlib", "1"⟩, ⟨"foo", "2"⟩, ⟨"Foo", "1"⟩] =
      [⟨"foo", "2"⟩, ⟨"Foo", "1"⟩, ⟨"zlib", "1"⟩] := by
    simp [Pin.sorted, List.mergeSort, List.MergeSort.Internal.splitInTwo, before]
  rw [Discovery.sortedExternal, external_of_ready ready, sorted] at external
  obtain ⟨b, found, m, -, -, -, -, -, listed, text⟩ := package_manifest idle threeImports default eitherCase
    { files := scriptAlone } run rfl
  have path : b.directory.push "requirements.txt" = ⟨"/out/requirements.txt"⟩ :=
    Option.some.inj (listed.symm.trans manifest)
  rw [path, external] at text
  exact ⟨outcome, _, run, external, text.trans (congrArg Except.ok (by decide))⟩

end Packager

end PyBundle
