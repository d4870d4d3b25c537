import PyBundle.Import.Line
import PyBundle.Proofs.Import.Name
import PyBundle.Proofs.Lexer.Identifier

/-!
# Dotted names as they are written

Between the identifiers and the dots of a dotted name there may be layout: blanks, joined lines and comments
(`Gap`). What is written there is part of the name as it stands in the source (`Spelled`), and it is gone from the name
without its layout (`DottedName.bare`). Only a name that has none is what its identifiers make up: it is its own bare
name, its segments are its identifiers, and its top level is the first of them (`Spelled.isCanonical_iff`,
`Spelled.segments_iff`, `Spelled.topLevelOf_iff`).
-/

namespace PyBundle

open Text (isIdentifier isIdentifierStart isIdentifierContinue)
open Lexer (CharClass CharSet exists_of_isIdentifier)

/-! ## Names without layout -/

namespace DottedName

/-- **A canonical name:** identifiers with a dot between any two. -/
def IsCanonical (name : String) : Prop := ∀ segment ∈ segments name, isIdentifier segment = true

instance (name : String) : Decidable (IsCanonical name) :=
  inferInstanceAs (Decidable (∀ segment ∈ segments name, isIdentifier segment = true))

/-- The characters of a text that are part of a name. The flag says whether a comment has begun, which goes on to the
end of the line. -/
def bareChars : Bool → List Char → List Char
  | _, [] => []
  | inComment, c :: cs =>
    if c == '\n' then bareChars false cs
    else if inComment || c == '#' then bareChars true cs
    else if c == '.' || isIdentifierContinue c then c :: bareChars false cs
    else bareChars false cs

/-- **A name without the layout in it.** -/
def bare (name : String) : String := String.ofList (bareChars false name.toList)

end DottedName

namespace Syntax

open DottedName (IsCanonical bare bareChars ofSegments segments)
open ImportLine (topLevelOf)

variable {words : List String} {word name : String} {cs gap rest : List Char} {c : Char}

/-! ## Layout -/

/-- Whether a character separates tokens. -/
def isSeparator (c : Char) : Bool := CharSet.separators.contains (CharClass.of c)

/-- **What may stand between two tokens:** blanks and line breaks, lines that are joined, and comments. -/
inductive Gap : List Char → Prop
  | none : Gap []
  | blank {c : Char} {cs : List Char} (separates : isSeparator c = true) (rest : Gap cs) : Gap (c :: cs)
  | joined {lineEnd cs : List Char} (ends : lineEnd ∈ [['\n'], ['\r', '\n'], ['\x00']]) (rest : Gap cs) :
      Gap ('\\' :: (lineEnd ++ cs))
  | comment {text cs : List Char} (sameLine : '\n' ∉ text) (rest : Gap ('\n' :: cs)) :
      Gap ('#' :: (text ++ '\n' :: cs))

/-- **A dotted name as it is written:** identifiers with a dot between any two, and layout around the dots. -/
inductive Spelled : List String → List Char → Prop
  | word {word : String} (identifier : isIdentifier word = true) : Spelled [word] word.toList
  | dot {word : String} {words : List String} {before after rest : List Char}
      (identifier : isIdentifier word = true) (gapBefore : Gap before) (gapAfter : Gap after)
      (more : Spelled words rest) : Spelled (word :: words) (word.toList ++ (before ++ '.' :: (after ++ rest)))

/-! ## Characters of names and of layout -/

/-- A character that starts an identifier continues one. -/
theorem isIdentifierContinue_of_start (starts : isIdentifierStart c = true) : isIdentifierContinue c = true := by
  unfold isIdentifierStart at starts
  unfold isIdentifierContinue
  split at starts
  · rename_i ascii
    rw [if_pos ascii]
    rcases Bool.or_eq_true_iff.mp starts with letter | line
    · simp [Char.isAlphanum, letter]
    · simp [line]
  · rename_i other
    rw [if_neg other, starts, Bool.true_or]

theorem isIdentifierContinue_of_mem (identifier : isIdentifier word = true) (mem : c ∈ word.toList) :
    isIdentifierContinue c = true := by
  obtain ⟨first, more, split, starts, continues⟩ := exists_of_isIdentifier identifier
  rw [split] at mem
  rcases List.mem_cons.mp mem with rfl | later
  · exact isIdentifierContinue_of_start starts
  · exact continues c later

/-- The ASCII characters that are no part of an identifier. -/
theorem not_isIdentifierContinue (mem : c ∈ ['.', '#', '\\', '\n', '\r', '\x00']) : isIdentifierContinue c = false := by
  have all : ['.', '#', '\\', '\n', '\r', '\x00'].all (!isIdentifierContinue ·) = true := by decide +kernel
  simpa using List.all_eq_true.mp all c mem

theorem ascii_separators : ∀ n < 128, CharSet.separators.contains n = true →
    ((Char.ofNat n).isAlphanum || Char.ofNat n == '_') = false ∧ Char.ofNat n ≠ '.' ∧ Char.ofNat n ≠ '#' := by
  decide +kernel

/-- A character that separates tokens is no part of a name, and it begins no comment. -/
theorem not_isIdentifierContinue_of_isSeparator (separates : isSeparator c = true) :
    isIdentifierContinue c = false ∧ c ≠ '.' ∧ c ≠ '#' := by
  unfold isSeparator CharClass.of at separates
  split at separates
  · rename_i ascii
    have facts := ascii_separators _ ascii separates
    rw [Char.ofNat_toNat] at facts
    unfold isIdentifierContinue
    rwa [if_pos ascii]
  · rename_i other
    have notAscii : c ≠ '.' ∧ c ≠ '#' := by
      constructor <;> rintro rfl <;> exact other (by decide)
    split at separates
    · exact absurd separates (by decide)
    · split at separates
      · exact absurd separates (by decide)
      · rename_i noContinue
        exact ⟨by simpa using noContinue, notAscii⟩

/-- Layout begins with a character that is no part of a name. -/
theorem Gap.head_not_isIdentifierContinue (layout : Gap (c :: cs)) : isIdentifierContinue c = false ∧ c ≠ '.' := by
  cases layout with
  | blank separates =>
    have facts := not_isIdentifierContinue_of_isSeparator separates
    exact ⟨facts.1, facts.2.1⟩
  | joined => exact ⟨not_isIdentifierContinue (by simp), by decide⟩
  | comment => exact ⟨not_isIdentifierContinue (by simp), by decide⟩

/-! ## Names without their layout -/

/-- Characters of names stay. -/
theorem bareChars_names (names : ∀ c ∈ cs, c = '.' ∨ isIdentifierContinue c = true) :
    bareChars false (cs ++ rest) = cs ++ bareChars false rest := by
  induction cs with
  | nil => rfl
  | cons c cs ih =>
    obtain ⟨first, others⟩ := List.forall_mem_cons.mp names
    have noBreak : (c == '\n') = false := by
      refine beq_eq_false_iff_ne.mpr fun same => ?_
      subst same
      exact absurd first (by decide +kernel)
    have noComment : (c == '#') = false := by
      refine beq_eq_false_iff_ne.mpr fun same => ?_
      subst same
      exact absurd first (by decide +kernel)
    have isName : (c == '.' || isIdentifierContinue c) = true := by simpa using first
    rw [List.cons_append, bareChars, noBreak, noComment, isName, ih others]
    rfl

theorem bareChars_of_names (names : ∀ c ∈ cs, c = '.' ∨ isIdentifierContinue c = true) : bareChars false cs = cs := by
  have whole : bareChars false (cs ++ []) = cs ++ bareChars false [] := bareChars_names names
  rwa [List.append_nil, bareChars, List.append_nil] at whole

/-- A comment is gone up to the end of its line. -/
theorem bareChars_comment {text : List Char} (sameLine : '\n' ∉ text) :
    bareChars true (text ++ '\n' :: rest) = bareChars false rest := by
  induction text with
  | nil => rfl
  | cons c text ih =>
    have noBreak : (c == '\n') = false := beq_eq_false_iff_ne.mpr fun same => sameLine (by simp [same])
    have others : '\n' ∉ text := fun mem => sameLine (List.mem_cons_of_mem _ mem)
    rw [List.cons_append, bareChars, noBreak]
    exact ih others

/-- A character that is no part of a name is gone. -/
theorem bareChars_cons_of_other (other : isIdentifierContinue c = false) (noDot : c ≠ '.') (noComment : c ≠ '#') :
    bareChars false (c :: rest) = bareChars false rest := by
  simp [bareChars, other, noDot, noComment]

/-- **Layout is gone.** -/
theorem bareChars_gap (layout : Gap gap) : bareChars false (gap ++ rest) = bareChars false rest := by
  induction layout with
  | none => rfl
  | blank separates _ ih =>
    obtain ⟨other, noDot, noComment⟩ := not_isIdentifierContinue_of_isSeparator separates
    rw [List.cons_append, bareChars_cons_of_other other noDot noComment, ih]
  | joined ends _ ih =>
    have joining : isIdentifierContinue '\\' = false := not_isIdentifierContinue (by simp)
    have back : isIdentifierContinue '\r' = false := not_isIdentifierContinue (by simp)
    have none : isIdentifierContinue '\x00' = false := not_isIdentifierContinue (by simp)
    rw [List.cons_append, bareChars_cons_of_other joining (by decide) (by decide), List.append_assoc]
    simp only [List.mem_cons, List.not_mem_nil, or_false] at ends
    rcases ends with rfl | rfl | rfl
    · exact ih
    · rw [List.cons_append, bareChars_cons_of_other back (by decide) (by decide)]
      exact ih
    · rw [List.cons_append, bareChars_cons_of_other none (by decide) (by decide)]
      exact ih
  | comment sameLine _ ih =>
    have start : ∀ more, bareChars false ('#' :: more) = bareChars true more := fun _ => rfl
    rw [List.cons_append, start, List.append_assoc, List.cons_append, bareChars_comment sameLine]
    exact ih

namespace Spelled

theorem exists_cons (spelled : Spelled words cs) : ∃ first others, words = first :: others := by
  cases spelled <;> exact ⟨_, _, rfl⟩

theorem isIdentifier_of_mem (spelled : Spelled words cs) (mem : word ∈ words) : isIdentifier word = true := by
  induction spelled with
  | word identifier => exact List.mem_singleton.mp mem ▸ identifier
  | dot identifier _ _ _ ih =>
    rcases List.mem_cons.mp mem with rfl | later
    · exact identifier
    · exact ih later

theorem ne_nil (spelled : Spelled words cs) : cs ≠ [] := by
  have some {word : String} (identifier : isIdentifier word = true) : word.toList ≠ [] := by
    obtain ⟨first, more, split, -⟩ := exists_of_isIdentifier identifier
    exact split ▸ List.cons_ne_nil first more
  cases spelled with
  | word identifier => exact some identifier
  | dot identifier => exact List.append_ne_nil_of_left_ne_nil (some identifier) _

theorem ne_empty (spelled : Spelled words name.toList) : name ≠ "" :=
  fun empty => spelled.ne_nil (String.toList_eq_nil_iff.mpr empty)

/-- A name begins with a character of an identifier, and so it is no star. -/
theorem ne_star (spelled : Spelled words name.toList) : name ≠ "*" := by
  have noStar {word : String} {rest : List Char} (identifier : isIdentifier word = true) :
      word.toList ++ rest ≠ "*".toList := by
    obtain ⟨first, more, split, starts, -⟩ := exists_of_isIdentifier identifier
    intro same
    rw [split, List.cons_append] at same
    obtain rfl : first = '*' := (List.cons.inj same).1
    exact absurd starts (by decide +kernel)
  rintro rfl
  generalize star : "*".toList = cs at spelled
  cases spelled with
  | @word word identifier =>
    have short : word.toList ++ [] ≠ "*".toList := noStar identifier
    exact short (by rw [List.append_nil, star])
  | dot identifier => exact noStar identifier star.symm

theorem bareChars_eq (spelled : Spelled words cs) : bareChars false cs = (ofSegments words).toList := by
  unfold ofSegments
  rw [String.toList_intercalate]
  induction spelled with
  | @word word identifier =>
    rw [bareChars_of_names fun c mem => .inr (isIdentifierContinue_of_mem identifier mem)]
    simp
  | @dot word words before after rest identifier gapBefore gapAfter more ih =>
    have dot : ∀ more, bareChars false ('.' :: more) = '.' :: bareChars false more := fun _ => rfl
    rw [bareChars_names fun c mem => .inr (isIdentifierContinue_of_mem identifier mem), bareChars_gap gapBefore, dot,
      bareChars_gap gapAfter, ih]
    obtain ⟨next, others, rfl⟩ := more.exists_cons
    rfl

/-- **Without its layout a name is what its identifiers make up.** -/
theorem bare_eq (spelled : Spelled words name.toList) : bare name = ofSegments words := by
  unfold bare
  rw [spelled.bareChars_eq, String.ofList_toList]

/-- The identifiers are the segments of the bare name. -/
theorem segments_bare (spelled : Spelled words name.toList) : segments (bare name) = words := by
  obtain ⟨first, others, split⟩ := spelled.exists_cons
  rw [spelled.bare_eq]
  refine DottedName.segments_ofSegments (split ▸ List.cons_ne_nil first others) fun word mem inside => ?_
  have other := isIdentifierContinue_of_mem (spelled.isIdentifier_of_mem mem) inside
  exact absurd other (by decide +kernel)

/-- **A name has the identifiers as its segments only if there is no layout in it.** -/
theorem segments_iff (spelled : Spelled words name.toList) : segments name = words ↔ bare name = name := by
  constructor
  · intro same
    rw [spelled.bare_eq, ← same, DottedName.ofSegments_segments]
  · intro same
    rw [← same, spelled.segments_bare]

/-- **A name is canonical only if there is no layout in it.** -/
theorem isCanonical_iff (spelled : Spelled words name.toList) : IsCanonical name ↔ bare name = name := by
  constructor
  · intro canonical
    have names : ∀ c ∈ name.toList, c = '.' ∨ isIdentifierContinue c = true := by
      intro c mem
      by_cases dot : c = '.'
      · exact .inl dot
      · obtain ⟨piece, isPiece, inside⟩ := Text.exists_mem_splitOn_of_mem mem dot
        refine .inr (isIdentifierContinue_of_mem (canonical _ (List.mem_map_of_mem isPiece)) ?_)
        rwa [String.toList_ofList]
    unfold bare
    rw [bareChars_of_names names, String.ofList_toList]
  · intro same segment mem
    rw [spelled.segments_iff.mpr same] at mem
    exact spelled.isIdentifier_of_mem mem

/-- **The top level of a name is its first identifier only if there is no layout before the first dot.** -/
theorem topLevelOf_iff (spelled : Spelled (word :: words) name.toList) :
    topLevelOf name = word ↔ words = [] ∨ word.toList ++ ['.'] <+: name.toList := by
  have upTo : ∀ behind, (word.toList ++ behind).takeWhile (· != '.') = word.toList ++ behind.takeWhile (· != '.') :=
    fun behind => List.takeWhile_append_of_pos fun c mem => by
      have name := isIdentifierContinue_of_mem (spelled.isIdentifier_of_mem List.mem_cons_self) mem
      refine bne_iff_ne.mpr fun dot => ?_
      subst dot
      exact absurd name (by decide +kernel)
  have same : topLevelOf name = word ↔ name.toList.takeWhile (· != '.') = word.toList := by
    unfold topLevelOf
    rw [← String.toList_inj, String.toList_ofList]
  rw [same]
  generalize name.toList = written at spelled
  generalize whole : word :: words = all at spelled
  cases spelled with
  | word =>
    cases whole
    have none := upTo []
    rw [List.append_nil] at none
    simp [none]
  | @dot _ _ before after rest _ gapBefore _ more =>
    cases whole
    obtain ⟨first, others, rfl⟩ := more.exists_cons
    rw [upTo, List.prefix_append_right_inj]
    cases before with
    | nil => simp
    | cons c before =>
      have noDot : c ≠ '.' := gapBefore.head_not_isIdentifierContinue.2
      simp [noDot, Ne.symm noDot]

end Spelled

end Syntax

end PyBundle
