import Mathlib.Data.List.DropRight
import Mathlib.Logic.Relation
import PyBundle.Distribution.Index
import PyBundle.Proofs.Text.Lowercase

/-!
# Spellings of a distribution

The separators of a name are folded into hyphens from left to right, so what they become is told by the characters
before them, and by whether the last of these is a separator (`foldSeparators_append`). What is folded stays as it is
when it is folded again, also in lower case.

`normalizeName_spellings` says what follows: a normalized name is a normal form, which all spellings of a distribution
share, so they have one version. For names of ASCII characters it is shared by them only.
-/

namespace PyBundle

namespace Text

variable {c d : Char} {cs front middle back : List Char}

/-! ## White space at the ends -/

/-- What does not start with a blank is kept, and only blanks before it are not. -/
theorem dropWhile_isBlank_append (some : middle ≠ []) (solid : ∀ c ∈ middle, isBlank c = false) :
    (front ++ (middle ++ back)).dropWhile isBlank = front.dropWhile isBlank ++ (middle ++ back) := by
  obtain ⟨c, cs, rfl⟩ := List.exists_cons_of_ne_nil some
  have first : isBlank c = false := solid c List.mem_cons_self
  rw [List.dropWhile_append]
  split
  · rename_i gone
    rw [List.isEmpty_iff.mp gone, List.cons_append, List.dropWhile_cons_of_neg (Bool.eq_false_iff.mp first)]
    rfl
  · rfl

/-- **What stands around characters that are not blank** loses the blanks at its outer ends. -/
theorem trim_append (some : middle ≠ []) (solid : ∀ c ∈ middle, isBlank c = false) :
    trim (front ++ (middle ++ back)) =
      front.dropWhile isBlank ++ (middle ++ (back.reverse.dropWhile isBlank).reverse) := by
  have solid' : ∀ c ∈ middle.reverse, isBlank c = false := fun c mem => solid c (List.mem_reverse.mp mem)
  rw [trim, dropWhile_isBlank_append some solid, List.reverse_append, List.reverse_append, List.append_assoc,
    dropWhile_isBlank_append (List.reverse_ne_nil_iff.mpr some) solid']
  simp

/-- **What has no blank at either end stays as it is.** -/
theorem trim_eq_self (first : ∀ c ∈ cs.head?, isBlank c = false) (last : ∀ c ∈ cs.getLast?, isBlank c = false) :
    trim cs = cs := by
  have drop {l : List Char} (start : ∀ c ∈ l.head?, isBlank c = false) : l.dropWhile isBlank = l := by
    cases l with
    | nil => rfl
    | cons c l => exact List.dropWhile_cons_of_neg (Bool.eq_false_iff.mp (start c rfl))
  rw [trim, drop first, drop (fun c mem => last c (List.head?_reverse ▸ mem)), List.reverse_reverse]

/-- What is left of a text does not start with a blank. -/
theorem head?_dropWhile_isBlank (cs : List Char) (mem : c ∈ (cs.dropWhile isBlank).head?) : isBlank c = false := by
  have stops := List.head?_dropWhile_not isBlank cs
  rw [mem] at stops
  exact stops

/-- **There is no blank at either end of what is trimmed.** -/
theorem ends_trim (cs : List Char) :
    (∀ c ∈ (trim cs).head?, isBlank c = false) ∧ ∀ c ∈ (trim cs).getLast?, isBlank c = false := by
  constructor
  · intro c mem
    have before : trim cs <+: cs.dropWhile isBlank := List.rdropWhile_prefix isBlank _
    obtain ⟨rest, split⟩ := before
    refine head?_dropWhile_isBlank cs ?_
    rw [← split]
    exact List.mem_head?_append_of_mem_head? mem
  · intro c mem
    rw [trim, List.getLast?_reverse] at mem
    exact head?_dropWhile_isBlank _ mem

theorem mem_of_mem_trim (mem : c ∈ trim cs) : c ∈ cs := by
  rw [trim, List.mem_reverse] at mem
  have inside := (List.dropWhile_suffix isBlank).subset mem
  exact (List.dropWhile_suffix isBlank).subset (List.mem_reverse.mp inside)

theorem trim_map_toLower (cs : List Char) : trim (cs.map Char.toLower) = (trim cs).map Char.toLower := by
  have blank : isBlank ∘ Char.toLower = isBlank := funext isBlank_toLower
  simp only [trim, List.dropWhile_map, ← List.map_reverse, blank]

end Text

namespace Distribution

open Text (IsLower IsSmallLetter isBlank lower lowerAfter lowered trim)

variable {c d : Char} {b : Bool} {before cs ds run : List Char} {name : String}

/-! ## Folding separators -/

/-- The separators one by one. -/
theorem eq_of_isSeparator (separator : isSeparator c = true) : c = '-' ∨ c = '_' ∨ c = '.' := by
  simpa [isSeparator, or_assoc] using separator

theorem foldSeparators_cons (b : Bool) (c : Char) (cs : List Char) :
    foldSeparators b (c :: cs) =
      if isSeparator c then (if b then [] else ['-']) ++ foldSeparators true cs else c :: foldSeparators false cs := by
  cases b <;> rfl

/-- **What follows some characters is folded as behind a run** if the last of them is a separator. -/
theorem foldSeparators_append (b : Bool) (cs ds : List Char) :
    foldSeparators b (cs ++ ds) = foldSeparators b cs ++ foldSeparators (cs.getLast?.elim b isSeparator) ds := by
  induction cs generalizing b with
  | nil => rfl
  | cons c cs ih =>
    have last : (c :: cs).getLast?.elim b isSeparator = cs.getLast?.elim (isSeparator c) isSeparator := by
      rw [List.getLast?_cons]
      cases cs.getLast? <;> rfl
    rw [List.cons_append, foldSeparators_cons, foldSeparators_cons, ih, ih, last]
    cases isSeparator c with
    | true => simp
    | false => simp

/-- Characters that separate nothing stay as they are. -/
theorem foldSeparators_of_forall (plain : ∀ c ∈ cs, isSeparator c = false) (b : Bool) : foldSeparators b cs = cs := by
  induction cs generalizing b with
  | nil => rfl
  | cons c cs ih =>
    obtain ⟨first, others⟩ := List.forall_mem_cons.mp plain
    rw [foldSeparators_cons, first, if_neg Bool.false_ne_true, ih others]

/-- **A run is folded into one hyphen,** or into none behind another run. -/
theorem foldSeparators_run (some : run ≠ []) (separators : ∀ c ∈ run, isSeparator c = true) (b : Bool) :
    foldSeparators b run = if b then [] else ['-'] := by
  have behind : ∀ cs : List Char, (∀ c ∈ cs, isSeparator c = true) → foldSeparators true cs = [] := by
    intro cs separators
    induction cs with
    | nil => rfl
    | cons c cs ih =>
      obtain ⟨first, others⟩ := List.forall_mem_cons.mp separators
      rw [foldSeparators_cons, first, if_pos rfl, ih others]
      rfl
  obtain ⟨c, cs, rfl⟩ := List.exists_cons_of_ne_nil some
  obtain ⟨first, others⟩ := List.forall_mem_cons.mp separators
  rw [foldSeparators_cons, first, if_pos rfl, behind cs others, List.append_nil]

/-- The last of some characters that are all alike. -/
theorem elim_getLast? (some : cs ≠ []) (alike : ∀ c ∈ cs, isSeparator c = b) (otherwise : Bool) :
    cs.getLast?.elim otherwise isSeparator = b := by
  rw [List.getLast?_eq_some_getLast some]
  exact alike _ (List.getLast_mem some)

/-- **All runs are folded alike** between the same characters. -/
theorem foldSeparators_between (some : run ≠ []) (separators : ∀ c ∈ run, isSeparator c = true) :
    foldSeparators b (before ++ (run ++ cs)) =
      foldSeparators b before ++
        ((if before.getLast?.elim b isSeparator then [] else ['-']) ++ foldSeparators true cs) := by
  rw [foldSeparators_append, foldSeparators_append, foldSeparators_run some separators, elim_getLast? some separators]

/-- What is folded has no separators but hyphens. -/
theorem eq_hyphen_of_mem (mem : c ∈ foldSeparators b cs) (separator : isSeparator c = true) : c = '-' := by
  induction cs generalizing b with
  | nil => cases mem
  | cons d cs ih =>
    rw [foldSeparators_cons] at mem
    split at mem
    · rcases List.mem_append.mp mem with here | later
      · split at here
        · cases here
        · exact List.mem_singleton.mp here
      · exact ih later
    · rename_i plain
      rcases List.mem_cons.mp mem with rfl | later
      · exact absurd separator plain
      · exact ih later

/-- What is folded is hyphens and characters from before. -/
theorem mem_of_mem_foldSeparators (mem : c ∈ foldSeparators b cs) : c = '-' ∨ c ∈ cs := by
  induction cs generalizing b with
  | nil => cases mem
  | cons d cs ih =>
    rw [foldSeparators_cons] at mem
    split at mem
    · rcases List.mem_append.mp mem with here | later
      · split at here
        · cases here
        · exact .inl (List.mem_singleton.mp here)
      · exact (ih later).imp_right (List.mem_cons_of_mem d)
    · rcases List.mem_cons.mp mem with rfl | later
      · exact .inr List.mem_cons_self
      · exact (ih later).imp_right (List.mem_cons_of_mem d)

/-- The first character of what is folded. -/
theorem head?_foldSeparators (first : c ∈ (foldSeparators false cs).head?) : c = '-' ∨ c ∈ cs.head? := by
  cases cs with
  | nil => cases first
  | cons d cs =>
    rw [foldSeparators_cons] at first
    split at first
    · exact .inl (Option.some.inj first).symm
    · exact .inr first

/-- A text that is not behind a run does not vanish. -/
theorem eq_nil_of_foldSeparators (nothing : foldSeparators false cs = []) : cs = [] := by
  cases cs with
  | nil => rfl
  | cons c cs =>
    rw [foldSeparators_cons] at nothing
    split at nothing <;> cases nothing

/-- The last character of what is folded. -/
theorem getLast?_foldSeparators (last : c ∈ (foldSeparators b cs).getLast?) : c = '-' ∨ c ∈ cs.getLast? := by
  induction cs generalizing b with
  | nil => cases last
  | cons d cs ih =>
    rw [foldSeparators_cons] at last
    split at last
    · by_cases nothing : foldSeparators true cs = []
      · rw [nothing, List.append_nil] at last
        split at last
        · cases last
        · exact .inl (Option.some.inj last).symm
      · rw [List.getLast?_append_of_ne_nil _ nothing] at last
        exact (ih last).imp_right List.mem_getLast?_cons
    · by_cases nothing : foldSeparators false cs = []
      · rw [nothing] at last
        exact .inr (eq_nil_of_foldSeparators nothing ▸ last)
      · rw [← List.singleton_append, List.getLast?_append_of_ne_nil _ nothing] at last
        exact (ih last).imp_right List.mem_getLast?_cons

theorem length_foldSeparators_le (b : Bool) (cs : List Char) : (foldSeparators b cs).length ≤ cs.length := by
  induction cs generalizing b with
  | nil => exact Nat.le_refl 0
  | cons c cs ih =>
    rw [foldSeparators_cons]
    have first := ih true
    have second := ih false
    split
    · cases b <;> simp <;> omega
    · simp; omega

/-- **What is folded stays as it is** when it is folded again. -/
theorem foldSeparators_foldSeparators (b : Bool) (cs : List Char) :
    foldSeparators b (foldSeparators b cs) = foldSeparators b cs := by
  induction cs generalizing b with
  | nil => rfl
  | cons c cs ih =>
    rw [foldSeparators_cons]
    cases isSep : isSeparator c with
    | false => rw [if_neg Bool.false_ne_true, foldSeparators_cons, isSep, if_neg Bool.false_ne_true, ih]
    | true =>
      have hyphen : isSeparator '-' = true := rfl
      cases b with
      | true => exact ih true
      | false =>
        show foldSeparators false ('-' :: foldSeparators true cs) = '-' :: foldSeparators true cs
        rw [foldSeparators_cons, hyphen, if_pos rfl, ih]
        rfl

/-- **What is folded has no two hyphens in a row.** -/
theorem not_infix_of_folded (folded : foldSeparators b cs = cs) : ¬ ['-', '-'] <:+: cs := by
  rintro ⟨front, back, rfl⟩
  have shorter := congrArg List.length folded
  have run : ∀ c ∈ ['-', '-'], isSeparator c = true :=
    List.forall_mem_cons.mpr ⟨rfl, List.forall_mem_singleton.mpr rfl⟩
  rw [List.append_assoc, foldSeparators_between (List.cons_ne_nil _ _) run] at shorter
  have left := length_foldSeparators_le b front
  have right := length_foldSeparators_le true back
  simp only [List.length_append, List.length_cons, List.length_nil] at shorter
  split at shorter <;> simp only [List.length_cons, List.length_nil] at shorter <;> omega

/-! ## Folding and lower case -/

theorem isSeparator_of_isSmallLetter (small : IsSmallLetter c) : isSeparator c = false := by
  refine Bool.eq_false_iff.mpr fun separator => ?_
  have letter := small.letter
  rcases eq_of_isSeparator separator with rfl | rfl | rfl <;> exact absurd letter (by decide)

/-- **In lower case what is folded stays folded.** -/
theorem foldSeparators_lowerAfter (before : List Char) (folded : foldSeparators b cs = cs) :
    foldSeparators b (lowerAfter before cs) = lowerAfter before cs := by
  induction cs generalizing b before with
  | nil => rfl
  | cons c cs ih =>
    rw [foldSeparators_cons] at folded
    rw [Text.lowerAfter_cons]
    cases isSep : isSeparator c with
    | true =>
      rw [isSep, if_pos rfl] at folded
      have shorter := length_foldSeparators_le true cs
      cases b with
      | true =>
        rw [if_pos rfl, List.nil_append] at folded
        rw [folded] at shorter
        exact absurd shorter (Nat.not_succ_le_self _)
      | false =>
        obtain ⟨rfl, others⟩ := List.cons.inj folded
        have stays : lowered before '-' cs = ['-'] := rfl
        rw [stays, List.singleton_append, foldSeparators_cons, isSep, if_pos rfl, ih _ others]
        rfl
    | false =>
      rw [isSep, if_neg Bool.false_ne_true] at folded
      have others := (List.cons.inj folded).2
      obtain ⟨some, plain⟩ : lowered before c cs ≠ [] ∧ ∀ d ∈ lowered before c cs, isSeparator d = false := by
        rcases Text.lowered_spec before c cs with ⟨-, stays⟩ | ⟨some, small⟩
        · exact stays ▸ ⟨List.cons_ne_nil _ _, List.forall_mem_singleton.mpr isSep⟩
        · exact ⟨some, fun d mem => isSeparator_of_isSmallLetter (small d mem)⟩
      rw [foldSeparators_append, foldSeparators_of_forall plain, elim_getLast? some plain, ih _ others]

/-- The case of ASCII letters does not count. -/
theorem foldSeparators_map_toLower (b : Bool) (cs : List Char) :
    foldSeparators b (cs.map Char.toLower) = (foldSeparators b cs).map Char.toLower := by
  have same (c : Char) : isSeparator c.toLower = isSeparator c :=
    Text.toLower_cases (P := fun c d => isSeparator d = isSeparator c) (fun _ => rfl) (by decide) c
  induction cs generalizing b with
  | nil => rfl
  | cons c cs ih =>
    rw [List.map_cons, foldSeparators_cons, foldSeparators_cons, same, ih, ih]
    cases b <;> cases isSeparator c <;> rfl

/-! ## Normal forms -/

theorem toList_normalizeName (name : String) :
    (normalizeName name).toList = lowerAfter [] (foldSeparators false (trim name.toList)) := by
  rw [normalizeName, lower, String.toList_ofList, String.toList_ofList]

/-- **A normalized name is folded.** -/
theorem foldSeparators_normalizeName (name : String) :
    foldSeparators false (normalizeName name).toList = (normalizeName name).toList := by
  rw [toList_normalizeName]
  exact foldSeparators_lowerAfter [] (foldSeparators_foldSeparators false _)

/-- **A normal form of names:** hyphens are the only separators, there are no two of them in a row, and there is no
white space at either end. -/
structure IsNormalName (name : String) : Prop where
  noUnderscore : '_' ∉ name.toList
  noDot : '.' ∉ name.toList
  noPair : ¬ ['-', '-'] <:+: name.toList
  first : ∀ c ∈ name.toList.head?, isBlank c = false
  last : ∀ c ∈ name.toList.getLast?, isBlank c = false

theorem isNormalName_normalizeName (name : String) : IsNormalName (normalizeName name) := by
  have folded := foldSeparators_normalizeName name
  have onlyHyphens {c : Char} (separator : isSeparator c = true) (mem : c ∈ (normalizeName name).toList) : c = '-' :=
    eq_hyphen_of_mem (folded.symm ▸ mem) separator
  obtain ⟨first, last⟩ := Text.ends_trim name.toList
  refine ⟨fun mem => ?_, fun mem => ?_, not_infix_of_folded folded, fun c mem => ?_, fun c mem => ?_⟩
  · exact absurd (onlyHyphens rfl mem) (by decide)
  · exact absurd (onlyHyphens rfl mem) (by decide)
  · rw [toList_normalizeName] at mem
    rcases Text.head?_lowerAfter mem with here | small
    · rcases head?_foldSeparators here with rfl | here
      · decide
      · exact first c here
    · exact small.notBlank
  · rw [toList_normalizeName] at mem
    rcases Text.getLast?_lowerAfter mem with here | small
    · rcases getLast?_foldSeparators here with rfl | here
      · decide
      · exact last c here
    · exact small.notBlank

/-- **A normalized name stays as it is** when it is normalized again. -/
theorem normalizeName_normalizeName (name : String) : normalizeName (normalizeName name) = normalizeName name := by
  have normal := isNormalName_normalizeName name
  have isLower : ∀ c ∈ (normalizeName name).toList, IsLower c := fun c mem =>
    Text.isLower_of_mem_lowerAfter (toList_normalizeName name ▸ mem)
  rw [← String.toList_inj, toList_normalizeName, Text.trim_eq_self normal.first normal.last,
    foldSeparators_normalizeName, Text.lowerAfter_eq_self isLower]

/-! ## Spellings -/

/-- **A run of separators.** -/
structure IsRun (run : String) : Prop where
  some : run ≠ ""
  separators : ∀ c ∈ run.toList, isSeparator c = true

/-- **Two names that differ in one run of separators, in the case of ASCII letters or in the white space at their
ends.** -/
inductive Respelled : String → String → Prop
  | run (before after : String) {run run' : String} (isRun : IsRun run) (isRun' : IsRun run') :
    Respelled (before ++ run ++ after) (before ++ run' ++ after)
  | letters {name name' : String} (same : name.toList.map Char.toLower = name'.toList.map Char.toLower) :
    Respelled name name'
  | ends {name name' : String} (same : trim name.toList = trim name'.toList) : Respelled name name'

/-- **Spellings of one distribution:** one is made of the other by such differences. -/
def SameDistribution : String → String → Prop := Relation.EqvGen Respelled

theorem normalizeName_run (before after : String) {run run' : String} (isRun : IsRun run) (isRun' : IsRun run') :
    normalizeName (before ++ run ++ after) = normalizeName (before ++ run' ++ after) := by
  have between {run : String} (isRun : IsRun run) :
      foldSeparators false (trim (before ++ run ++ after).toList) =
        foldSeparators false (before.toList.dropWhile isBlank) ++
          ((if (before.toList.dropWhile isBlank).getLast?.elim false isSeparator then [] else ['-']) ++
            foldSeparators true (after.toList.reverse.dropWhile isBlank).reverse) := by
    have some : run.toList ≠ [] := fun nothing => isRun.some (String.toList_inj.mp nothing)
    have solid : ∀ c ∈ run.toList, isBlank c = false := fun c mem => by
      rcases eq_of_isSeparator (isRun.separators c mem) with rfl | rfl | rfl <;> decide
    rw [String.toList_append, String.toList_append, List.append_assoc, Text.trim_append some solid,
      foldSeparators_between some isRun.separators]
  rw [normalizeName, normalizeName, between isRun, between isRun']

theorem normalizeName_letters {name name' : String}
    (same : name.toList.map Char.toLower = name'.toList.map Char.toLower) :
    normalizeName name = normalizeName name' := by
  have folded (name : String) : (normalizeName name).toList =
      lowerAfter [] (foldSeparators false (trim (name.toList.map Char.toLower))) := by
    rw [toList_normalizeName, Text.trim_map_toLower, foldSeparators_map_toLower, ← List.map_nil,
      Text.lowerAfter_toLower, List.map_nil]
  rw [← String.toList_inj, folded, folded, same]

/-- **Spellings of one distribution have one normal form.** -/
theorem normalizeName_eq {name name' : String} (same : SameDistribution name name') :
    normalizeName name = normalizeName name' := by
  induction same with
  | rel _ _ respelled =>
    cases respelled with
    | run before after isRun isRun' => exact normalizeName_run before after isRun isRun'
    | letters same => exact normalizeName_letters same
    | ends same => rw [normalizeName, normalizeName, same]
  | refl => rfl
  | symm _ _ _ ih => exact ih.symm
  | trans _ _ _ _ _ ih ih' => exact ih.trans ih'

/-! ## Names of ASCII characters -/

/-- **A name of ASCII characters.** -/
def IsAscii (name : String) : Prop := ∀ c ∈ name.toList, c.toNat < 128

/-- In lower case only the case of ASCII letters is gone. -/
theorem lowerAfter_ascii (ascii : ∀ c ∈ cs, c.toNat < 128) (before : List Char) :
    lowerAfter before cs = cs.map Char.toLower := by
  induction cs generalizing before with
  | nil => rfl
  | cons c cs ih =>
    obtain ⟨first, others⟩ := List.forall_mem_cons.mp ascii
    have notSigma : ¬ (c == 'Σ') = true := fun same => absurd (eq_of_beq same ▸ first) (by decide)
    have notDotted : ¬ (c == 'İ') = true := fun same => absurd (eq_of_beq same ▸ first) (by decide)
    rw [Text.lowerAfter_cons, ih others, lowered, if_neg notSigma, if_neg notDotted, Text.lowerChar, if_pos first]
    rfl

theorem SameDistribution.trans {a b c : String} (first : SameDistribution a b) (second : SameDistribution b c) :
    SameDistribution a c := Relation.EqvGen.trans _ _ _ first second

/-- **Folding separators makes another spelling.** Behind a run, the characters before end with the hyphen that the run
has become. -/
theorem sameDistribution_foldSeparators (front cs : List Char) (b : Bool)
    (behind : b = true → ∃ before, front = before ++ ['-']) :
    SameDistribution (String.ofList (front ++ cs)) (String.ofList (front ++ foldSeparators b cs)) := by
  have isRun {run : List Char} (some : run ≠ []) (separators : ∀ c ∈ run, isSeparator c = true) :
      IsRun (String.ofList run) := ⟨fun nothing => some (by simpa using congrArg String.toList nothing), by simpa⟩
  have respell (before after : List Char) {run : List Char} (some : run ≠ [])
      (separators : ∀ c ∈ run, isSeparator c = true) : SameDistribution (String.ofList (before ++ (run ++ after)))
        (String.ofList (before ++ '-' :: after)) := by
    have step := Respelled.run (String.ofList before) (String.ofList after) (isRun some separators)
      (isRun (List.cons_ne_nil '-' []) (List.forall_mem_singleton.mpr rfl))
    simp only [← String.ofList_append, List.append_assoc] at step
    exact .rel _ _ step
  induction cs generalizing front b with
  | nil => exact .refl _
  | cons c cs ih =>
    rw [foldSeparators_cons]
    cases isSep : isSeparator c with
    | false =>
      have later := ih (front ++ [c]) false nofun
      rw [List.append_assoc, List.append_assoc] at later
      exact later
    | true =>
      cases b with
      | false =>
        have here := respell front cs (List.cons_ne_nil c []) (List.forall_mem_singleton.mpr isSep)
        have later := ih (front ++ ['-']) true fun _ => ⟨front, rfl⟩
        rw [List.append_assoc, List.append_assoc] at later
        exact here.trans later
      | true =>
        obtain ⟨before, rfl⟩ := behind rfl
        have here := respell before cs (List.cons_ne_nil '-' [c])
          (List.forall_mem_cons.mpr ⟨rfl, List.forall_mem_singleton.mpr isSep⟩)
        have later := ih (before ++ ['-']) true fun _ => ⟨before, rfl⟩
        rw [List.append_assoc] at later ⊢
        exact here.trans later

/-- **The normal form of a name of ASCII characters is one of its spellings.** -/
theorem sameDistribution_normalizeName (ascii : IsAscii name) : SameDistribution name (normalizeName name) := by
  have trimmed : SameDistribution name (String.ofList (trim name.toList)) := by
    obtain ⟨first, last⟩ := Text.ends_trim name.toList
    refine .rel _ _ (.ends ?_)
    rw [String.toList_ofList, Text.trim_eq_self first last]
  have folded := sameDistribution_foldSeparators [] (trim name.toList) false nofun
  have isAscii : ∀ c ∈ foldSeparators false (trim name.toList), c.toNat < 128 := by
    intro c mem
    rcases mem_of_mem_foldSeparators mem with rfl | mem
    · decide
    · exact ascii c (Text.mem_of_mem_trim mem)
  have lowered : SameDistribution (String.ofList (foldSeparators false (trim name.toList))) (normalizeName name) := by
    have twice : Char.toLower ∘ Char.toLower = Char.toLower := funext <|
      Text.toLower_cases (P := fun c d => d.toLower = c.toLower) (fun _ => rfl) (by decide)
    refine .rel _ _ (.letters ?_)
    rw [toList_normalizeName, lowerAfter_ascii isAscii, List.map_map, twice, String.toList_ofList]
  exact trimmed.trans (folded.trans lowered)

/-- **All spellings of a distribution have one normal form,** which is one, so they have one version. For any name the
normal form has single hyphens for runs of separators and no white space at its ends, and it stays as it is when it is
normalized again. It does not depend on which run of separators stands between two texts, nor on the case of ASCII
letters. Names of ASCII characters have it in common only if they are spellings of one distribution. -/
theorem normalizeName_spellings :
    (∀ name, IsNormalName (normalizeName name) ∧ normalizeName (normalizeName name) = normalizeName name) ∧
    (∀ before after run run', IsRun run → IsRun run' →
      normalizeName (before ++ run ++ after) = normalizeName (before ++ run' ++ after)) ∧
    (∀ name name' : String, name.toList.map Char.toLower = name'.toList.map Char.toLower →
      normalizeName name = normalizeName name') ∧
    (∀ (index : Index) (name name' : String), SameDistribution name name' →
      index.versionOf name = index.versionOf name') ∧
    ∀ name name', IsAscii name → IsAscii name' →
      (normalizeName name = normalizeName name' ↔ SameDistribution name name') := by
  refine ⟨fun name => ⟨isNormalName_normalizeName name, normalizeName_normalizeName name⟩,
    fun before after _ _ isRun isRun' => normalizeName_run before after isRun isRun',
    fun _ _ same => normalizeName_letters same, fun index _ _ same => ?_,
    fun name name' ascii ascii' => ⟨fun same => ?_, normalizeName_eq⟩⟩
  · rw [Index.versionOf, Index.versionOf, normalizeName_eq same]
  · have there := sameDistribution_normalizeName ascii
    have back := Relation.EqvGen.symm _ _ (sameDistribution_normalizeName ascii')
    rw [same] at there
    exact there.trans back

/-- Names that differ in a run of separators or in their case, the version of one that is told by the other, and a name
that is another one. -/
theorem normalizeName_spellings_runs :
    IsRun "__" ∧ IsRun "." ∧ normalizeName ("Foo" ++ "__" ++ "-bar") = normalizeName ("Foo" ++ "." ++ "-bar") ∧
      "FOO".toList.map Char.toLower = "foo".toList.map Char.toLower ∧ normalizeName "FOO" = normalizeName "foo" ∧
      SameDistribution "Foo__-bar" "Foo.-bar" ∧
      (Index.add {} ⟨"Foo.-bar", some "1.0", []⟩).versionOf "Foo__-bar" = some "1.0" ∧
      IsAscii "Foo" ∧ IsAscii "Fo.o" ∧ ¬ SameDistribution "Foo" "Fo.o" := by
  obtain ⟨-, run, letters, version, only⟩ := normalizeName_spellings
  have two : IsRun "__" := ⟨by decide, List.all_eq_true.mp (by decide)⟩
  have one : IsRun "." := ⟨by decide, List.all_eq_true.mp (by decide)⟩
  have alike : "FOO".toList.map Char.toLower = "foo".toList.map Char.toLower := by decide
  have same : SameDistribution "Foo__-bar" "Foo.-bar" := .rel _ _ (.run "Foo" "-bar" two one)
  have isAscii {name : String} (each : name.toList.all (·.toNat < 128) = true) : IsAscii name := fun c mem =>
    of_decide_eq_true (List.all_eq_true.mp each c mem)
  have ascii : IsAscii "Foo" := isAscii (by decide)
  have ascii' : IsAscii "Fo.o" := isAscii (by decide)
  refine ⟨two, one, run _ _ _ _ two one, alike, letters _ _ alike, same, ?_, ascii, ascii', fun other => ?_⟩
  · exact (version _ _ _ same).trans (by decide +kernel)
  · exact absurd ((only _ _ ascii ascii').mpr other) (by decide +kernel)

end Distribution

end PyBundle
