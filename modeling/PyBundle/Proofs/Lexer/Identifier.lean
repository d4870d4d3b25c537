import PyBundle.Lexer.Leaf

/-!
# Identifiers

A text in the form of an identifier is one token for the lexer (`matchToken?_identifier`). The first character begins a
word and the others go on with it, so no match ends before the last one.
-/

namespace PyBundle

/-- **A text in the form of an identifier.** -/
def Text.isIdentifier (text : String) : Bool :=
  match text.toList with
  | [] => false
  | c :: cs => isIdentifierStart c && cs.all isIdentifierContinue

namespace Lexer

open Text (isIdentifier isIdentifierStart isIdentifierContinue)

variable {c : Char} {text : String}

/-- An identifier has a character that starts it, and then only such as continue it. -/
theorem exists_of_isIdentifier (form : isIdentifier text = true) : ∃ c cs, text.toList = c :: cs ∧
    isIdentifierStart c = true ∧ ∀ d ∈ cs, isIdentifierContinue d = true := by
  unfold isIdentifier at form
  split at form
  · cases form
  · rename_i c cs split
    obtain ⟨start, more⟩ := Bool.and_eq_true_iff.mp form
    exact ⟨c, cs, split, start, List.all_eq_true.mp more⟩

/-! ## The sets of characters -/

theorem ascii_wordStart : ∀ n < 128, ((Char.ofNat n).isAlpha || Char.ofNat n == '_') = true →
    CharSet.wordStart.contains n = true := by
  decide +kernel

theorem ascii_wordContinue : ∀ n < 128, ((Char.ofNat n).isAlphanum || Char.ofNat n == '_') = true →
    CharSet.wordContinue.contains n = true := by
  decide +kernel

/-- The class of a character that starts an identifier begins a word. -/
theorem contains_wordStart (starts : isIdentifierStart c = true) :
    CharSet.wordStart.contains (CharClass.of c) = true := by
  unfold CharClass.of
  split
  · rename_i ascii
    rw [isIdentifierStart, if_pos ascii] at starts
    exact ascii_wordStart _ ascii (by rwa [Char.ofNat_toNat])
  · decide

/-- The class of a character that continues an identifier goes on with a word. -/
theorem contains_wordContinue (continues : isIdentifierContinue c = true) :
    CharSet.wordContinue.contains (CharClass.of c) = true := by
  unfold CharClass.of
  split
  · rename_i ascii
    rw [isIdentifierContinue, if_pos ascii] at continues
    exact ascii_wordContinue _ ascii (by rwa [Char.ofNat_toNat])
  · split
    · decide
    · decide

/-! ## The longest match -/

/-- What is left of the pattern of an identifier after its first character. -/
abbrev restOfWord : Pattern := .star (.chars .wordContinue)

theorem step_restOfWord (k : CharClass) :
    Pattern.step [restOfWord] k = if CharSet.wordContinue.contains k then [restOfWord] else [] := by
  cases inside : CharSet.wordContinue.contains k <;> simp [Pattern.step, Pattern.heads, Pattern.before, inside]

/-- **A word goes on to the end of the text,** if all characters that are left continue it. -/
theorem go_restOfWord {ks : Array CharClass} {i left : Nat} (size : i + left = ks.size)
    (more : ∀ k ∈ ks.toList.drop i, CharSet.wordContinue.contains k = true) :
    Pattern.longest?.go ks (left + 1) [restOfWord] i (some i) = some ks.size := by
  induction left generalizing i with
  | zero =>
    have none : ks[i]? = none := Array.getElem?_eq_none (by omega)
    have stops : CharSet.wordContinue.contains 0 = false := by decide
    rw [Pattern.longest?.go, none]
    simp [step_restOfWord, stops, ← size]
  | succ left ih =>
    have within : i < ks.toList.length := by rw [Array.length_toList]; omega
    have here : ks[i]? = some ks.toList[i] := by
      rw [← Array.getElem?_toList, List.getElem?_eq_getElem within]
    rw [List.drop_eq_getElem_cons within] at more
    obtain ⟨now, later⟩ := List.forall_mem_cons.mp more
    rw [Pattern.longest?.go, here]
    simp only [step_restOfWord, now, if_true]
    exact ih (by omega) later

theorem step_identifier {k : CharClass} (begins : CharSet.wordStart.contains k = true) :
    Pattern.step [Pattern.ofClass .identifier] k = [restOfWord] := by
  simp [Pattern.step, Pattern.ofClass, Pattern.heads, Pattern.before, Pattern.nullable, begins]

/-- **An identifier is one token.** -/
theorem matchToken?_identifier (form : isIdentifier text = true) :
    matchToken? (.ofString text) (.pattern .identifier) 0 = some text.toList.length := by
  obtain ⟨c, cs, split, start, more⟩ := exists_of_isIdentifier form
  have classes : (Source.ofString text).classes = (CharClass.of c :: cs.map CharClass.of).toArray := by
    rw [Source.ofString, split, List.map_cons]
  have rest : Pattern.longest?.go (CharClass.of c :: cs.map CharClass.of).toArray (cs.length + 1) [restOfWord] 1
      (some 1) = some (cs.length + 1) := by
    rw [go_restOfWord (by simp [Nat.add_comm]) fun k mem => ?_]
    · simp
    · obtain ⟨d, isRest, rfl⟩ := List.mem_map.mp mem
      exact contains_wordContinue (more d isRest)
  have first := step_identifier (contains_wordStart start)
  rw [matchToken?, Pattern.longest?, classes, split, List.length_cons, List.size_toArray, List.length_cons,
    List.length_map, Nat.sub_zero, Pattern.longest?.go]
  have ends : restOfWord.nullable = true := rfl
  simpa [first, ends] using rest

/-! ## What is found as an identifier -/

theorem ascii_of_wordStart : ∀ n < 128, CharSet.wordStart.contains n = true →
    ((Char.ofNat n).isAlpha || Char.ofNat n == '_') = true := by
  decide +kernel

theorem ascii_of_wordContinue : ∀ n < 128, CharSet.wordContinue.contains n = true →
    ((Char.ofNat n).isAlphanum || Char.ofNat n == '_') = true := by
  decide +kernel

/-- A character whose class begins a word starts an identifier. -/
theorem isIdentifierStart_of_contains (begins : CharSet.wordStart.contains (CharClass.of c) = true) :
    isIdentifierStart c = true := by
  unfold CharClass.of at begins
  split at begins
  · rename_i ascii
    have letter := ascii_of_wordStart _ ascii begins
    rw [Char.ofNat_toNat] at letter
    rwa [isIdentifierStart, if_pos ascii]
  · split at begins
    · rename_i starts
      exact starts
    · split at begins
      · exact absurd begins (by decide)
      · split at begins <;> exact absurd begins (by decide)

/-- A character whose class goes on with a word continues an identifier. -/
theorem isIdentifierContinue_of_contains (more : CharSet.wordContinue.contains (CharClass.of c) = true) :
    isIdentifierContinue c = true := by
  unfold CharClass.of at more
  split at more
  · rename_i ascii
    have letter := ascii_of_wordContinue _ ascii more
    rw [Char.ofNat_toNat] at letter
    rwa [isIdentifierContinue, if_pos ascii]
  · rename_i other
    split at more
    · rename_i starts
      rw [isIdentifierStart, if_neg other] at starts
      rw [isIdentifierContinue, if_neg other, starts, Bool.true_or]
    · split at more
      · rename_i continues
        exact continues
      · split at more <;> exact absurd more (by decide)

/-- A word that is found goes on with characters that continue it. -/
theorem exists_of_go_restOfWord {ks : Array CharClass} {fuel i j : Nat}
    (found : Pattern.longest?.go ks fuel [restOfWord] i (some i) = some j) :
    ∃ more, j = i + more ∧ ∀ k ∈ (ks.toList.drop i).take more, CharSet.wordContinue.contains k = true := by
  induction fuel generalizing i with
  | zero => exact ⟨0, (Option.some.inj found).symm, by simp⟩
  | succ fuel ih =>
    rw [Pattern.longest?.go] at found
    cases here : ks[i]? with
    | none =>
      rw [here] at found
      simp only [ite_self, Option.some.injEq] at found
      exact ⟨0, found.symm, by simp⟩
    | some k =>
      rw [here] at found
      simp only [step_restOfWord] at found
      cases goesOn : CharSet.wordContinue.contains k with
      | false =>
        rw [goesOn] at found
        exact ⟨0, (Option.some.inj found).symm, by simp⟩
      | true =>
        rw [goesOn] at found
        obtain ⟨more, rfl, later⟩ := ih found
        obtain ⟨within, entry⟩ := Array.getElem?_eq_some_iff.mp here
        refine ⟨more + 1, by omega, ?_⟩
        rw [List.drop_eq_getElem_cons (by rwa [Array.length_toList]), List.take_succ_cons]
        refine List.forall_mem_cons.mpr ⟨?_, later⟩
        rwa [Array.getElem_toList, entry]

/-- **What is found as an identifier has its form.** -/
theorem isIdentifier_of_matchToken? {i j : Nat}
    (found : matchToken? (.ofString text) (.pattern .identifier) i = some j) :
    isIdentifier (String.ofList ((text.toList.take j).drop i)) = true := by
  have classes : (Source.ofString text).classes = (text.toList.map CharClass.of).toArray := rfl
  rw [matchToken?, Pattern.longest?, classes] at found
  generalize (text.toList.map CharClass.of).toArray.size + 1 - i = fuel at found
  cases fuel with
  | zero => cases found
  | succ fuel =>
    rw [Pattern.longest?.go] at found
    have begin (k : CharClass) : Pattern.step [Pattern.ofClass .identifier] k =
        if CharSet.wordStart.contains k then [restOfWord] else [] := by
      cases begins : CharSet.wordStart.contains k with
      | true => exact step_identifier begins
      | false => simp [Pattern.step, Pattern.ofClass, Pattern.heads, Pattern.before, Pattern.nullable, begins]
    rw [List.getElem?_toArray, List.getElem?_map] at found
    cases here : text.toList[i]? with
    | none =>
      have stops : CharSet.wordStart.contains 0 = false := by decide
      rw [here] at found
      simp [begin, stops] at found
    | some c =>
      rw [here] at found
      simp only [Option.map_some, begin] at found
      cases begins : CharSet.wordStart.contains (CharClass.of c) with
      | false =>
        rw [begins] at found
        cases found
      | true =>
        rw [begins] at found
        obtain ⟨more, rfl, later⟩ := exists_of_go_restOfWord found
        obtain ⟨within, entry⟩ := List.getElem?_eq_some_iff.mp here
        have word : (text.toList.take (i + 1 + more)).drop i = c :: (text.toList.drop (i + 1)).take more := by
          rw [List.drop_take, List.drop_eq_getElem_cons within, entry]
          have count : i + 1 + more - i = more + 1 := by omega
          rw [count, List.take_succ_cons]
        rw [word, isIdentifier, String.toList_ofList]
        refine Bool.and_eq_true_iff.mpr ⟨isIdentifierStart_of_contains begins, List.all_eq_true.mpr fun d mem => ?_⟩
        refine isIdentifierContinue_of_contains (later _ ?_)
        rw [← List.map_drop, ← List.map_take]
        exact List.mem_map_of_mem mem

end Lexer

end PyBundle
