import PyBundle.Proofs.Collect.Destination
import PyBundle.Proofs.FileSystem.Paths
import PyBundle.Proofs.Path.Written

/-!
# What relative paths look like

The file of a module that is located has a name with a dot in it, and the directories on its way have none, because a
dot ends a segment. So the way to one located module does not lead through another one. The entry alone may have a name
without a dot, and then it is in the way of what lies in a directory of this name (`relativePath_isPrefix`).
-/

namespace PyBundle

namespace Path

variable {p : Path} {s : String} {names : List String}

/-- What starts at the root is absolute. -/
theorem isAbsolute_of_root (root : .root ∈ p.components) : p.isAbsolute = true := by
  rw [components_eq] at root
  rcases List.mem_append.mp root with atLead | step
  · unfold lead at atLead
    split at atLead
    · assumption
    · split at atLead
      · cases List.mem_singleton.mp atLead
      · cases atLead
  · cases isStep_of_mem_steps step

/-- The components of a path of names alone are the names on its way. -/
theorem components_eq_way (plain : ∀ c ∈ p.components, ∃ name, c = .name name) :
    p.components = p.way.map .name ∧ p.steps = p.way.map .name := by
  obtain ⟨-, names, steps⟩ := exists_names plain
  rw [components_eq, lead_eq_nil_of_names plain, way_of_steps steps, List.nil_append]
  exact ⟨steps, steps⟩

/-- Where a text without dots is pushed to a path without dots, there are none. -/
theorem dot_notMem_push (free : '.' ∉ p.text.toList) (free' : '.' ∉ s.toList) : '.' ∉ (p.push s).text.toList := by
  intro dot
  rcases mem_text_join dot with before | slash | behind
  · exact free before
  · cases slash
  · exact free' behind

theorem dot_notMem_foldl_push (free : '.' ∉ p.text.toList) (each : ∀ name ∈ names, '.' ∉ name.toList) :
    '.' ∉ (names.foldl push p).text.toList := by
  induction names generalizing p with
  | nil => exact free
  | cons name names ih =>
    obtain ⟨first, others⟩ := List.forall_mem_cons.mp each
    exact ih (dot_notMem_push free first) others

/-- **A suffix that is pushed** is the only part of the path with a dot. -/
theorem exists_text_push {suffix : String} (free : '.' ∉ p.text.toList) (free' : '.' ∉ s.toList) :
    ∃ front, '.' ∉ front.toList ∧ (p.push (s ++ suffix)).text = front ++ suffix := by
  obtain ⟨front, text, inFront⟩ := join_text p ⟨s ++ suffix⟩
  refine ⟨front ++ s, fun dot => ?_, text.trans String.append_assoc.symm⟩
  rw [String.toList_append] at dot
  rcases List.mem_append.mp dot with before | behind
  · rcases inFront _ before with inPath | slash
    · exact free inPath
    · cases slash
  · exact free' behind

/-- A piece of three characters or more is a name. -/
theorem ofPiece?_of_length {piece : List Char} (long : 2 < piece.length) :
    Component.ofPiece? piece = some (.name (String.ofList piece)) := by
  unfold Component.ofPiece?
  split
  · cases long
  · simp at long
  · simp at long
  · rfl

/-- Where a path starts there is no dot, unless it says that it starts here. -/
theorem dot_notMem_of_mem_lead {c : Component} (notHere : p.pieces.head? ≠ some ['.']) (mem : c ∈ p.lead) :
    '.' ∉ c.text.toList := by
  unfold lead at mem
  rw [if_neg notHere] at mem
  split at mem
  · rw [List.mem_singleton.mp mem]
    decide
  · cases mem

/-- **A path whose only dot is that of `.py` at its end** ends in a name with a dot, and no component before that has
one. -/
theorem components_of_suffix {front : String} (free : '.' ∉ front.toList) (text : p.text = front ++ ".py") :
    p.EndsInName ∧ ∃ before last, p.components = before ++ [.name last] ∧ '.' ∈ last.toList ∧
      ∀ c ∈ before, '.' ∉ c.text.toList := by
  have inLast : '/' ∉ ".py".toList := by decide
  obtain ⟨before, last, split, pieces⟩ : ∃ before last, front.toList.splitOn '/' = before ++ [last] ∧
      (front.toList ++ ".py".toList).splitOn '/' = before ++ [last ++ ".py".toList] :=
    Text.splitOn_append_of_notMem inLast
  have pieces : p.pieces = before ++ [last ++ ".py".toList] := by
    unfold Path.pieces
    rw [text, String.toList_append, pieces]
  have long : 2 < (last ++ ".py".toList).length := by
    rw [List.length_append]
    exact Nat.lt_add_left _ (by decide)
  have is := ofPiece?_of_length long
  have dotFree : ∀ piece ∈ before, '.' ∉ piece := by
    intro piece mem dot
    have isPiece : piece ∈ front.toList.splitOn '/' := by simp [split, mem]
    exact free (Text.mem_of_mem_splitOn isPiece dot)
  have notHere : p.pieces.head? ≠ some ['.'] := by
    intro here
    rw [pieces] at here
    cases before with
    | nil =>
      rw [Option.some.inj here] at long
      simp at long
    | cons first before =>
      rw [Option.some.inj here] at dotFree
      exact dotFree _ List.mem_cons_self List.mem_cons_self
  refine ⟨⟨_, _, by rw [pieces, List.getLast?_concat], is⟩, p.lead ++ before.filterMap Component.ofPiece?,
    String.ofList (last ++ ".py".toList), ?_, ?_, fun c mem => ?_⟩
  · rw [components_eq, List.append_assoc]
    congr 1
    unfold steps
    rw [pieces, List.filterMap_append, List.filterMap_cons_some is, List.filterMap_nil]
  · rw [String.toList_ofList]
    exact List.mem_append_right _ (by decide)
  · rcases List.mem_append.mp mem with atLead | step
    · exact dot_notMem_of_mem_lead notHere atLead
    · obtain ⟨piece, isPiece, same⟩ := List.mem_filterMap.mp step
      rw [Component.text_of_ofPiece? same, String.toList_ofList]
      exact dotFree piece isPiece

end Path

namespace LocalModule

/-- **The text of the path of a module** is `.py` behind a text without dots. -/
theorem exists_text_candidatePath {segs : List String} (some : segs ≠ [])
    (free : ∀ segment ∈ segs, '.' ∉ segment.toList) (isPackage : Bool) :
    ∃ front, '.' ∉ front.toList ∧ (candidatePath segs isPackage).text = front ++ ".py" := by
  rcases List.eq_nil_or_concat segs with rfl | ⟨before, last, rfl⟩
  · exact absurd rfl some
  rw [List.concat_eq_append] at free ⊢
  have lastFree : '.' ∉ last.toList := free last (by simp)
  have parents : '.' ∉ (before.foldl Path.push ⟨""⟩).text.toList :=
    Path.dot_notMem_foldl_push (by decide) fun name mem => free name (List.mem_append_left _ mem)
  unfold candidatePath
  rw [List.getLast?_concat, List.dropLast_concat]
  dsimp only
  split
  · have initFree : '.' ∉ "__init__".toList := by decide
    rw [show "__init__.py" = "__init__" ++ ".py" from rfl]
    exact Path.exists_text_push (Path.dot_notMem_push parents lastFree) initFree
  · exact Path.exists_text_push parents lastFree

end LocalModule

namespace Sources

variable {s : Sources} {entry root : Path} {m n : LocalModule}

/-- **The relative path of a located module** ends in a name with a dot, and no component before that has one. -/
theorem components_of_located (located : LocalModule.locate s.files s.roots m.moduleName = some m) :
    m.relativePath.EndsInName ∧ ∃ before last, m.relativePath.components = before ++ [.name last] ∧
      '.' ∈ last.toList ∧ ∀ c ∈ before, '.' ∉ c.text.toList := by
  obtain ⟨-, _, _, _, -, -, isPackage, -, -, below⟩ := LocalModule.locate_eq_some.mp located
  obtain ⟨front, free, text⟩ := LocalModule.exists_text_candidatePath (DottedName.segments_ne_nil m.moduleName)
    (fun segment => DottedName.dot_notMem_of_mem_segments) isPackage
  refine Path.components_of_suffix free ?_
  rw [below]
  exact text

/-- The relative path of the entry is its name, if it is a file. -/
theorem exists_entry_name (file : s.files.isFile entry = true) :
    ∃ name, entry.fileName? = some name ∧ IsFileName name ∧ (LocalModule.entry entry).relativePath = ⟨name⟩ ∧
      (LocalModule.entry entry).relativePath.components = [.name name] := by
  obtain ⟨name, fileName⟩ := Path.exists_fileName? (FileSystem.endsInName_of_isFile file)
  have isName : IsFileName name := isFileName_of_fileName? fileName
  have relative : (LocalModule.entry entry).relativePath = ⟨name⟩ := by
    unfold LocalModule.entry
    rw [fileName]
    rfl
  have single : (⟨name⟩ : Path) = .ofNames [name] := by
    unfold Path.ofNames
    rw [String.intercalate_singleton]
  refine ⟨name, fileName, isName, relative, ?_⟩
  rw [relative, single, Path.components_ofNames (by simpa using isName)]
  rfl

/-- **A relative path that is relative has names alone,** of which there are some. -/
theorem Reachable.exists_way (file : s.files.isFile entry = true) (reach : s.Reachable entry m)
    (relative : m.relativePath.isAbsolute = false) :
    m.relativePath.components = m.relativePath.way.map .name ∧
      m.relativePath.steps = m.relativePath.way.map .name ∧ m.relativePath.way ≠ [] := by
  have plain : m.relativePath.components ≠ [] ∧ ∀ c ∈ m.relativePath.components, ∃ name, c = .name name := by
    rcases reach.eq_entry_or_located with rfl | ⟨-, located⟩
    · obtain ⟨name, -, -, -, components⟩ := exists_entry_name file
      rw [components]
      exact ⟨List.cons_ne_nil _ _, fun c mem => ⟨name, List.mem_singleton.mp mem⟩⟩
    · obtain ⟨-, before, last, split, -, dotFree⟩ := components_of_located located
      rw [split]
      refine ⟨List.concat_ne_nil _ _, fun c mem => ?_⟩
      rcases List.mem_append.mp mem with inside | end_
      · cases c with
        | root =>
          have absolute := Path.isAbsolute_of_root (split ▸ List.mem_append_left _ inside)
          exact absurd (relative.symm.trans absolute) Bool.false_ne_true
        | here => exact absurd (List.mem_singleton_self _) (dotFree _ inside)
        | up => exact absurd List.mem_cons_self (dotFree _ inside)
        | name name => exact ⟨name, rfl⟩
      · exact ⟨last, List.mem_singleton.mp end_⟩
  obtain ⟨components, steps⟩ := Path.components_eq_way plain.2
  refine ⟨components, steps, fun none => ?_⟩
  rw [none] at components
  exact plain.1 components

/-- **The entry is in the way of a module:** its name has no dot, and the module lies in a directory of that name. -/
def InTheWay (entry : Path) (m : LocalModule) : Prop :=
  ∃ name rest, entry.fileName? = some name ∧ '.' ∉ name.toList ∧ rest ≠ [] ∧
    m.relativePath.components = .name name :: rest

/-- **No relative path leads through another one,** unless the entry is in the way. -/
theorem relativePath_isPrefix (file : s.files.isFile entry = true) (hm : s.Reachable entry m)
    (hn : s.Reachable entry n) (before : m.relativePath.components <+: n.relativePath.components)
    (proper : m.relativePath.components ≠ n.relativePath.components) :
    m = .entry entry ∧ InTheWay entry n := by
  obtain ⟨name, fileName, -, -, components⟩ := exists_entry_name file
  obtain ⟨rest, longer⟩ := before
  have some : rest ≠ [] := by
    rintro rfl
    exact proper (by rw [← longer, List.append_nil])
  rcases hn.eq_entry_or_located with rfl | ⟨-, located⟩
  · -- Before the name of the entry is nothing, and a module is something.
    rw [components] at longer
    have none : m.relativePath.components = [] := by
      obtain ⟨c, rest, rfl⟩ := List.exists_cons_of_ne_nil some
      exact (List.append_eq_singleton_iff.mp longer).elim (·.1) fun impossible => nomatch impossible.2
    rcases hm.eq_entry_or_located with rfl | ⟨-, located⟩
    · exact absurd rfl proper
    · obtain ⟨-, front, last, split, -⟩ := components_of_located located
      exact absurd (none.symm.trans split).symm (List.concat_ne_nil _ _)
  · obtain ⟨-, front, last, split, -, dotFree⟩ := components_of_located located
    have inside : ∀ c ∈ m.relativePath.components, '.' ∉ c.text.toList := by
      intro c mem
      obtain ⟨between, last', rfl⟩ := List.eq_nil_or_concat rest |>.resolve_left some
      rw [List.concat_eq_append, ← List.append_assoc, split] at longer
      refine dotFree c ?_
      rw [← (List.append_inj' longer rfl).1]
      exact List.mem_append_left _ mem
    rcases hm.eq_entry_or_located with rfl | ⟨-, located'⟩
    · refine ⟨rfl, name, rest, fileName, ?_, some, ?_⟩
      · rw [components] at inside
        exact inside _ List.mem_cons_self
      · rw [← longer, components]
        rfl
    · obtain ⟨-, front', last', split', dot, -⟩ := components_of_located located'
      exact absurd dot (inside (.name last') (by simp [split']))

end Sources

end PyBundle
