import Mathlib.Data.List.TakeWhile
import PyBundle.Json.Printer
import PyBundle.Json.Reader

/-!
# Values that are written are read back

A value is written compactly or on several lines, which differ in the blanks between its parts alone (`Layout`). The
reader passes blanks over, so it reads the value that was written in any layout (`parse?_laid`), as long as all
numbers in it are integers: a number with a fraction is kept as a text, which may be no number. The compact form of
such a value is one line (`newline_notMem_compact`), since a new line in a string is escaped.
-/

namespace PyBundle.Json

variable {cs tail blanks : List Char} {fuel : Nat}

/-! ## Numbers -/

theorem natChars_eq (n : Nat) : natChars n = Nat.toDigits 10 n := by
  unfold natChars
  rw [Nat.toString_eq_ofList_toDigits, String.toList_ofList]

theorem isDigit_of_mem_natChars {n : Nat} {c : Char} (mem : c ∈ natChars n) : c.isDigit = true := by
  rw [natChars_eq] at mem
  exact Nat.isDigit_of_mem_toDigits (by decide) (by decide) mem

theorem natChars_ne_nil (n : Nat) : natChars n ≠ [] := by
  rw [natChars_eq]
  exact Nat.toDigits_ne_nil

/-- A number above zero starts with no zero. -/
theorem head?_toDigits {n : Nat} (some : 0 < n) : (Nat.toDigits 10 n).head? ≠ Option.some '0' := by
  induction n using Nat.strongRecOn with
  | ind n ih =>
    by_cases small : n < 10
    · rw [Nat.toDigits_of_lt_base small, List.head?_cons]
      intro zero
      have isZero := Nat.digitChar_eq_zero.mp (Option.some.inj zero)
      omega
    · have before := ih (n / 10) (by omega) (by omega)
      obtain ⟨d, ds, split⟩ := List.exists_cons_of_ne_nil (Nat.toDigits_ne_nil (n := n / 10) (b := 10))
      rw [split] at before
      rwa [Nat.toDigits_of_base_le (by decide) (by omega), split]

/-- **The digits of a number are read as the number.** -/
theorem wholeNumber?_natChars (n : Nat) : wholeNumber? (natChars n) = some n := by
  have digits : (natChars n).all (·.isDigit) = true := List.all_eq_true.mpr fun c => isDigit_of_mem_natChars
  have noZero : ((natChars n).length != 1 && (natChars n).head? == some '0') = false := by
    rw [natChars_eq]
    by_cases some : 0 < n
    · rw [beq_eq_false_iff_ne.mpr (head?_toDigits some), Bool.and_false]
    · rw [Nat.eq_zero_of_not_pos some]
      rfl
  have value : (natChars n).foldl (fun n c => 10 * n + (c.toNat - 48)) 0 = n := by
    have known := Nat.ofDigitChars_ten_toDigits (n := n)
    rwa [← natChars_eq, Nat.ofDigitChars_eq_foldl] at known
  unfold wholeNumber?
  rw [List.isEmpty_eq_false_iff.mpr (natChars_ne_nil n), digits, noZero, value]
  rfl

theorem isNumberChar_of_mem_intChars {n : Int} {c : Char} (mem : c ∈ intChars n) : isNumberChar c = true := by
  have ofDigit : ∀ m, c ∈ natChars m → isNumberChar c = true := fun m digit => by
    unfold isNumberChar
    rw [isDigit_of_mem_natChars digit]
    rfl
  cases n with
  | ofNat m => exact ofDigit m mem
  | negSucc m =>
    rcases List.mem_cons.mp mem with rfl | digit
    · decide
    · exact ofDigit _ digit

/-- **An integer is read as it is written.** -/
theorem number?_intChars (n : Int) : number? (intChars n) = some (int n) := by
  have taken (m : Nat) : (natChars m).takeWhile (·.isDigit) = natChars m :=
    List.takeWhile_eq_self_iff.mpr fun c => isDigit_of_mem_natChars
  have dropped (m : Nat) : (natChars m).dropWhile (·.isDigit) = [] :=
    List.dropWhile_eq_nil_iff.mpr fun c => isDigit_of_mem_natChars
  cases n with
  | ofNat m =>
    have positive : ((natChars m).head? == some '-') = false := by
      refine beq_eq_false_iff_ne.mpr fun minus => ?_
      exact absurd (isDigit_of_mem_natChars (List.mem_of_mem_head? minus)) (by decide)
    unfold number? intChars
    simp only [positive, Bool.false_eq_true, if_false, taken, dropped, wholeNumber?_natChars]
    rfl
  | negSucc m =>
    unfold number? intChars
    simp only [List.head?_cons, BEq.rfl, if_true, List.drop_succ_cons, List.drop_zero, taken, dropped,
      wholeNumber?_natChars]
    rfl

/-! ## Strings -/

theorem hexValue?_hexDigit : ∀ n < 16, hexValue? (hexDigit n) = some n := by decide

/-- **A character is read as it is written,** escaped or not. -/
theorem readString_escapeChar (c : Char) (taken rest : List Char) :
    readString none taken (escapeChar c ++ rest) = readString none (c :: taken) rest := by
  fun_cases escapeChar c with
  | case8 c quotes slashes _ _ _ _ _ control =>
    have halves : unit? '0' '0' (hexDigit (c.toNat / 16)) (hexDigit (c.toNat % 16)) = some c.toNat := by
      have sum : 16 * (c.toNat / 16) + c.toNat % 16 = c.toNat := Nat.div_add_mod c.toNat 16
      have zero : hexValue? '0' = some 0 := by decide
      unfold unit?
      rw [hexValue?_hexDigit _ (by omega), hexValue?_hexDigit _ (by omega), zero]
      simp [sum]
    have unit : joinUnit? none c.toNat = some (.inl c) := by
      have notSecond : ¬ 0xDC00 ≤ c.toNat := by omega
      have notFirst : ¬ 0xD800 ≤ c.toNat := by omega
      simp [joinUnit?, notSecond, notFirst, Char.ofNat_toNat]
    simp only [List.cons_append, List.nil_append]
    rw [readString, halves, Option.bind_some, unit]
  | case9 c quotes slashes _ _ _ _ _ plain =>
    rw [List.singleton_append, readString]
    · rw [if_neg (by simpa using plain)]
    · exact quotes
    · exact fun _ _ _ _ _ same => absurd same slashes
    · exact fun _ _ same => absurd same slashes
  | _ => rfl

/-- **A string is read as it is written.** -/
theorem readString_flatMap (taken s rest : List Char) :
    readString none taken (s.flatMap escapeChar ++ '"' :: rest) = some (String.ofList (taken.reverse ++ s), rest) := by
  induction s generalizing taken with
  | nil =>
    rw [List.flatMap_nil, List.nil_append, readString, List.append_nil]
    rfl
  | cons c s ih =>
    rw [List.flatMap_cons, List.append_assoc, readString_escapeChar, ih, List.reverse_cons, List.append_assoc]
    rfl

theorem readString_quote (s : String) (rest : List Char) :
    readString none [] ((quote s).tail ++ rest) = some (s, rest) := by
  unfold quote
  rw [List.cons_append, List.tail_cons, List.append_assoc, List.singleton_append, readString_flatMap, List.reverse_nil,
    List.nil_append, String.ofList_toList]

/-! ## Blanks -/

/-- Whether a character says nothing between the parts of a value. -/
def isBlank (c : Char) : Bool := c == ' ' || c == '\n' || c == '\t' || c == '\x0d'

theorem skipBlanks_append (blank : ∀ c ∈ blanks, isBlank c = true) (cs : List Char) :
    skipBlanks (blanks ++ cs) = skipBlanks cs :=
  List.dropWhile_append_of_pos blank

theorem skipBlanks_cons {c : Char} (mark : isBlank c = false) : skipBlanks (c :: cs) = c :: cs :=
  List.dropWhile_cons_of_neg (by simpa [isBlank] using mark)

theorem not_isBlank_of_isNumberChar {c : Char} (number : isNumberChar c = true) : isBlank c = false := by
  by_contra blank
  simp only [Bool.not_eq_false, isBlank, Bool.or_eq_true, beq_iff_eq] at blank
  obtain ((rfl | rfl) | rfl) | rfl := blank <;> exact absurd number (by decide)

/-- Blanks before a value are passed over. -/
theorem readValue_append (blank : ∀ c ∈ blanks, isBlank c = true) (fuel : Nat) (cs : List Char) :
    readValue fuel (blanks ++ cs) = readValue fuel cs := by
  cases fuel with
  | zero => rw [readValue, readValue]
  | succ fuel => rw [readValue, readValue, skipBlanks_append blank]

/-- Blanks before items are passed over. -/
theorem readItems_append (blank : ∀ c ∈ blanks, isBlank c = true) (fuel : Nat) (cs : List Char) :
    readItems fuel (blanks ++ cs) = readItems fuel cs := by
  cases fuel with
  | zero => rw [readItems, readItems]
  | succ fuel => rw [readItems, readItems, readValue_append blank]

/-- Blanks before members are passed over. -/
theorem readMembers_append (blank : ∀ c ∈ blanks, isBlank c = true) (fuel : Nat) (cs : List Char) :
    readMembers fuel (blanks ++ cs) = readMembers fuel cs := by
  cases fuel with
  | zero => rw [readMembers, readMembers]
  | succ fuel => rw [readMembers, readMembers, skipBlanks_append blank]

/-! ## Layouts -/

/-- **How a value is laid out:** the blanks before a part at some level, and those behind a colon. -/
structure Layout where
  gap : Nat → List Char
  afterColon : List Char
  isBlank_gap : ∀ level, ∀ c ∈ gap level, isBlank c = true
  isBlank_afterColon : ∀ c ∈ afterColon, isBlank c = true

namespace Layout

/-- No blanks at all. -/
def compact : Layout := ⟨fun _ => [], [], by simp, by simp⟩

/-- A line for each part. -/
def pretty : Layout where
  gap := newLine
  afterColon := [' ']
  isBlank_gap level c mem := by
    rcases List.mem_cons.mp mem with rfl | space
    · decide
    · rw [List.eq_of_mem_replicate space]
      decide
  isBlank_afterColon c mem := by
    obtain rfl := List.mem_singleton.mp mem
    decide

end Layout

variable {l : Layout} {level : Nat} {v : Json}

mutual
/-- A value in a layout, before a text. -/
def laidChars (l : Layout) (level : Nat) : Json → List Char → List Char
  | array (v :: vs), tail =>
    '[' :: (l.gap (level + 1) ++ laidChars l (level + 1) v (laidItems l (level + 1) vs (l.gap level ++ ']' :: tail)))
  | object ((name, v) :: ms), tail =>
    '\x7b' :: (l.gap (level + 1) ++ (quote name ++ ':' :: (l.afterColon ++
      laidChars l (level + 1) v (laidMembers l (level + 1) ms (l.gap level ++ '\x7d' :: tail)))))
  | v, tail => atomChars v ++ tail
/-- Further items in a layout, before a text. -/
def laidItems (l : Layout) (level : Nat) : List Json → List Char → List Char
  | [], tail => tail
  | v :: vs, tail => ',' :: (l.gap level ++ laidChars l level v (laidItems l level vs tail))
/-- Further members in a layout, before a text. -/
def laidMembers (l : Layout) (level : Nat) : List (String × Json) → List Char → List Char
  | [], tail => tail
  | (name, v) :: ms, tail =>
    ',' :: (l.gap level ++ (quote name ++ ':' :: (l.afterColon ++ laidChars l level v (laidMembers l level ms tail))))
end

mutual
/-- **The compact form is a layout.** -/
theorem compactChars_eq (level : Nat) :
    (v : Json) → (tail : List Char) → compactChars v tail = laidChars .compact level v tail
  | null, _ | bool _, _ | int _, _ | decimal _, _ | string _, _ | array [], _ | object [], _ => rfl
  | array (v :: vs), tail => by
    rw [compactChars, laidChars, compactItems_eq (level + 1) vs, compactChars_eq (level + 1) v]
    rfl
  | object ((name, v) :: ms), tail => by
    rw [compactChars, laidChars, compactMembers_eq (level + 1) ms, compactChars_eq (level + 1) v]
    simp [Layout.compact]
theorem compactItems_eq (level : Nat) :
    (vs : List Json) → (tail : List Char) → compactItems vs tail = laidItems .compact level vs tail
  | [], _ => rfl
  | v :: vs, tail => by
    rw [compactItems, laidItems, compactItems_eq level vs, compactChars_eq level v]
    rfl
theorem compactMembers_eq (level : Nat) :
    (ms : List (String × Json)) → (tail : List Char) → compactMembers ms tail = laidMembers .compact level ms tail
  | [], _ => rfl
  | (name, v) :: ms, tail => by
    rw [compactMembers, laidMembers, compactMembers_eq level ms, compactChars_eq level v]
    simp [Layout.compact]
end

mutual
/-- **The form on several lines is a layout.** -/
theorem prettyChars_eq (level : Nat) :
    (v : Json) → (tail : List Char) → prettyChars level v tail = laidChars .pretty level v tail
  | null, _ | bool _, _ | int _, _ | decimal _, _ | string _, _ | array [], _ | object [], _ => rfl
  | array (v :: vs), tail => by
    rw [prettyChars, laidChars, prettyItems_eq (level + 1) vs, prettyChars_eq (level + 1) v]
    rfl
  | object ((name, v) :: ms), tail => by
    rw [prettyChars, laidChars, prettyMembers_eq (level + 1) ms, prettyChars_eq (level + 1) v]
    simp [Layout.pretty]
theorem prettyItems_eq (level : Nat) :
    (vs : List Json) → (tail : List Char) → prettyItems level vs tail = laidItems .pretty level vs tail
  | [], _ => rfl
  | v :: vs, tail => by
    rw [prettyItems, laidItems, prettyItems_eq level vs, prettyChars_eq level v]
    rfl
theorem prettyMembers_eq (level : Nat) :
    (ms : List (String × Json)) → (tail : List Char) → prettyMembers level ms tail = laidMembers .pretty level ms tail
  | [], _ => rfl
  | (name, v) :: ms, tail => by
    rw [prettyMembers, laidMembers, prettyMembers_eq level ms, prettyChars_eq level v]
    simp [Layout.pretty]
end

/-! ## Values -/

mutual
/-- **Whether all numbers of a value are integers.** -/
def isExact : Json → Bool
  | decimal _ => false
  | array vs => areExact vs
  | object ms => haveExact ms
  | _ => true
def areExact : List Json → Bool
  | [] => true
  | v :: vs => isExact v && areExact vs
def haveExact : List (String × Json) → Bool
  | [] => true
  | (_, v) :: ms => isExact v && haveExact ms
end

/-- Whether a number before a text ends there. -/
def Ends (tail : List Char) : Prop := ∀ c ∈ tail.head?, isNumberChar c = false

theorem exists_intChars (n : Int) : ∃ c cs, intChars n = c :: cs := by
  cases n with
  | ofNat n => exact List.exists_cons_of_ne_nil (natChars_ne_nil n)
  | negSucc n => exact ⟨_, _, rfl⟩

/-- A written value starts with a mark of its own. -/
theorem exists_laidChars (exact : v.isExact = true) (tail : List Char) :
    ∃ c cs, laidChars l level v tail = c :: cs ∧ isBlank c = false ∧ c ≠ ']' := by
  match v with
  | null => exact ⟨'n', _, rfl, by decide, by decide⟩
  | bool true => exact ⟨'t', _, rfl, by decide, by decide⟩
  | bool false => exact ⟨'f', _, rfl, by decide, by decide⟩
  | string s => exact ⟨'"', _, rfl, by decide, by decide⟩
  | array [] => exact ⟨'[', _, rfl, by decide, by decide⟩
  | array (v :: vs) => exact ⟨'[', _, by rw [laidChars], by decide, by decide⟩
  | object [] => exact ⟨'\x7b', _, rfl, by decide, by decide⟩
  | object ((name, v) :: ms) => exact ⟨'\x7b', _, by rw [laidChars], by decide, by decide⟩
  | decimal _ => cases exact
  | int n =>
    obtain ⟨c, cs, split⟩ := exists_intChars n
    have number : isNumberChar c = true := isNumberChar_of_mem_intChars (n := n) (by simp [split])
    have written : laidChars l level (int n) tail = intChars n ++ tail := rfl
    refine ⟨c, cs ++ tail, by rw [written, split, List.cons_append], not_isBlank_of_isNumberChar number, ?_⟩
    rintro rfl
    exact absurd number (by decide)

/-- **An integer before a text is read,** if it ends there. -/
theorem readValue_int (n : Int) (ends : Ends tail) : readValue (fuel + 1) (intChars n ++ tail) = some (int n, tail) := by
  have taken : (intChars n ++ tail).takeWhile isNumberChar = intChars n := by
    rw [List.takeWhile_append_of_pos fun c => isNumberChar_of_mem_intChars]
    cases tail with
    | nil => exact List.append_nil _
    | cons c tail => rw [List.takeWhile_cons_of_neg (by simp [ends c rfl]), List.append_nil]
  have dropped : (intChars n ++ tail).dropWhile isNumberChar = tail := by
    rw [List.dropWhile_append_of_pos fun c => isNumberChar_of_mem_intChars]
    cases tail with
    | nil => rfl
    | cons c tail => rw [List.dropWhile_cons_of_neg (by simp [ends c rfl])]
  obtain ⟨c, cs, split⟩ := exists_intChars n
  have number : isNumberChar c = true := isNumberChar_of_mem_intChars (n := n) (by simp [split])
  have here : skipBlanks (intChars n ++ tail) = intChars n ++ tail := by
    rw [split, List.cons_append, skipBlanks_cons (not_isBlank_of_isNumberChar number)]
  have other (mark : Char) (rest : List Char) (marked : isNumberChar mark = false) :
      intChars n ++ tail ≠ mark :: rest := by
    rw [split, List.cons_append]
    rintro ⟨rfl, -⟩
    exact absurd number (by simp [marked])
  rw [readValue, here]
  split
  case h_7 => rw [taken, dropped, number?_intChars, Option.map_some]
  all_goals
    rename_i same
    exact absurd same (other _ _ (by decide))

/-- A string before a text is read. -/
theorem readValue_string (s : String) (tail : List Char) :
    readValue (fuel + 1) (quote s ++ tail) = some (string s, tail) := by
  have read := readString_quote s tail
  have opened : quote s ++ tail = '"' :: ((quote s).tail ++ tail) := rfl
  rw [opened, readValue, skipBlanks_cons (by decide)]
  simp only [read, Option.map_some]

/-- **An array is read by its items.** -/
theorem readValue_array {c : Char} {vs : List Json} (blank : ∀ c ∈ blanks, isBlank c = true)
    (mark : isBlank c = false) (inside : c ≠ ']') (read : readItems fuel (c :: cs) = some (vs, tail)) :
    readValue (fuel + 1) ('[' :: (blanks ++ c :: cs)) = some (array vs, tail) := by
  rw [readValue, skipBlanks_cons (by decide)]
  simp only [skipBlanks_append blank, skipBlanks_cons mark]
  split
  · rename_i same
    cases same
    exact absurd rfl inside
  · rw [read, Option.map_some]

/-- An item with another one behind it. -/
theorem readItems_more {rest : List Char} {vs : List Json} (read : readValue fuel cs = some (v, ',' :: rest))
    (more : readItems fuel rest = some (vs, tail)) : readItems (fuel + 1) cs = some (v :: vs, tail) := by
  rw [readItems, read]
  simp only [skipBlanks_cons (show isBlank ',' = false by decide), more, Option.map_some]

/-- The last item of an array. -/
theorem readItems_last (blank : ∀ c ∈ blanks, isBlank c = true)
    (read : readValue fuel cs = some (v, blanks ++ ']' :: tail)) : readItems (fuel + 1) cs = some ([v], tail) := by
  rw [readItems, read]
  simp only [skipBlanks_append blank, skipBlanks_cons (show isBlank ']' = false by decide)]

/-- **An object is read by its members.** -/
theorem readValue_object {name : String} {ms : List (String × Json)} (blank : ∀ c ∈ blanks, isBlank c = true)
    (read : readMembers fuel (quote name ++ cs) = some (ms, tail)) :
    readValue (fuel + 1) ('\x7b' :: (blanks ++ (quote name ++ cs))) = some (object ms, tail) := by
  have opened : quote name ++ cs = '"' :: ((quote name).tail ++ cs) := rfl
  rw [readValue, skipBlanks_cons (by decide)]
  rw [opened] at read ⊢
  simp only [skipBlanks_append blank, skipBlanks_cons (show isBlank '"' = false by decide)]
  change (readMembers fuel _).map _ = _
  rw [read, Option.map_some]

/-- A member is read as what stands behind its value says. -/
theorem readMembers_of_value {name : String} {rest : List Char} {said : Option (List (String × Json) × List Char)}
    (read : readValue fuel cs = some (v, rest))
    (behind : (match skipBlanks rest with
      | ',' :: rest => (readMembers fuel rest).map fun (ms, rest) => ((name, v) :: ms, rest)
      | '\x7d' :: rest => some ([(name, v)], rest)
      | _ => none) = said) :
    readMembers (fuel + 1) (quote name ++ ':' :: cs) = said := by
  have named := readString_quote name (':' :: cs)
  have opened : quote name ++ ':' :: cs = '"' :: ((quote name).tail ++ ':' :: cs) := rfl
  rw [opened, readMembers, skipBlanks_cons (by decide)]
  simp only [named, skipBlanks_cons (show isBlank ':' = false by decide), read]
  exact behind

/-- A member with another one behind it. -/
theorem readMembers_more {name : String} {rest : List Char} {ms : List (String × Json)}
    (read : readValue fuel cs = some (v, ',' :: rest)) (more : readMembers fuel rest = some (ms, tail)) :
    readMembers (fuel + 1) (quote name ++ ':' :: cs) = some ((name, v) :: ms, tail) := by
  refine readMembers_of_value read ?_
  simp only [skipBlanks_cons (show isBlank ',' = false by decide), more, Option.map_some]

/-- The last member of an object. -/
theorem readMembers_last {name : String} (blank : ∀ c ∈ blanks, isBlank c = true)
    (read : readValue fuel cs = some (v, blanks ++ '\x7d' :: tail)) :
    readMembers (fuel + 1) (quote name ++ ':' :: cs) = some ([(name, v)], tail) := by
  refine readMembers_of_value read ?_
  simp only [skipBlanks_append blank, skipBlanks_cons (show isBlank '\x7d' = false by decide)]

/-- A number ends before blanks with a mark behind them. -/
theorem ends_append {c : Char} (blank : ∀ c ∈ blanks, isBlank c = true) (mark : isNumberChar c = false) :
    Ends (blanks ++ c :: tail) := by
  intro d first
  cases blanks with
  | nil =>
    cases first
    exact mark
  | cons b blanks =>
    cases first
    have isBlank := blank d List.mem_cons_self
    by_contra number
    rw [not_isBlank_of_isNumberChar (eq_true_of_ne_false number)] at isBlank
    cases isBlank

/-- A number ends before further items. -/
theorem ends_laidItems {vs : List Json} (ends : Ends tail) : Ends (laidItems l level vs tail) := by
  cases vs with
  | nil => exact ends
  | cons v vs =>
    rw [laidItems]
    rintro _ ⟨⟩
    decide

/-- A number ends before further members. -/
theorem ends_laidMembers {ms : List (String × Json)} (ends : Ends tail) : Ends (laidMembers l level ms tail) := by
  cases ms with
  | nil => exact ends
  | cons m ms =>
    rw [laidMembers]
    rintro _ ⟨⟩
    decide

mutual
/-- A value is written before a text, which stays whole. -/
theorem length_le_laidChars (l : Layout) (level : Nat) :
    (v : Json) → (tail : List Char) → tail.length ≤ (laidChars l level v tail).length
  | null, _ | bool _, _ | int _, _ | decimal _, _ | string _, _ | array [], _ | object [], _ => by simp [laidChars]
  | array (v :: vs), tail => by
    have first := length_le_laidChars l (level + 1) v (laidItems l (level + 1) vs (l.gap level ++ ']' :: tail))
    have others := length_le_laidItems l (level + 1) vs (l.gap level ++ ']' :: tail)
    rw [laidChars]
    simp only [List.length_append, List.length_cons] at others ⊢
    omega
  | object ((name, v) :: ms), tail => by
    have first := length_le_laidChars l (level + 1) v (laidMembers l (level + 1) ms (l.gap level ++ '\x7d' :: tail))
    have others := length_le_laidMembers l (level + 1) ms (l.gap level ++ '\x7d' :: tail)
    rw [laidChars]
    simp only [List.length_append, List.length_cons] at others ⊢
    omega
theorem length_le_laidItems (l : Layout) (level : Nat) :
    (vs : List Json) → (tail : List Char) → tail.length ≤ (laidItems l level vs tail).length
  | [], _ => Nat.le_refl _
  | v :: vs, tail => by
    have first := length_le_laidChars l level v (laidItems l level vs tail)
    have others := length_le_laidItems l level vs tail
    rw [laidItems, List.length_cons, List.length_append]
    omega
theorem length_le_laidMembers (l : Layout) (level : Nat) :
    (ms : List (String × Json)) → (tail : List Char) → tail.length ≤ (laidMembers l level ms tail).length
  | [], _ => Nat.le_refl _
  | (name, v) :: ms, tail => by
    have first := length_le_laidChars l level v (laidMembers l level ms tail)
    have others := length_le_laidMembers l level ms tail
    rw [laidMembers]
    simp only [List.length_cons, List.length_append]
    omega
end

mutual
/-- **A value is read as it is written,** in any layout. The fuel counts two rounds for each character, one for the
value that starts there and one for the part of a list that it is. -/
theorem readValue_laid (l : Layout) (level : Nat) : (v : Json) → v.isExact = true → (tail : List Char) → (fuel : Nat) →
    Ends tail → 2 * (laidChars l level v tail).length + 2 ≤ fuel →
    readValue fuel (laidChars l level v tail) = some (v, tail)
  | null, _, tail, fuel + 1, _, _ => rfl
  | bool true, _, tail, fuel + 1, _, _ => rfl
  | bool false, _, tail, fuel + 1, _, _ => rfl
  | array [], _, tail, fuel + 1, _, _ => rfl
  | object [], _, tail, fuel + 1, _, _ => rfl
  | int n, _, tail, fuel + 1, ends, _ => readValue_int n ends
  | string s, _, tail, fuel + 1, _, _ => readValue_string s tail
  | array (v :: vs), exact, tail, fuel + 1, _, enough => by
    obtain ⟨first, others⟩ := Bool.and_eq_true_iff.mp exact
    have marked : ∃ c cs, laidChars l (level + 1) v (laidItems l (level + 1) vs (l.gap level ++ ']' :: tail)) = c :: cs ∧
        isBlank c = false ∧ c ≠ ']' := exists_laidChars first _
    obtain ⟨c, cs, split, mark, inside⟩ := marked
    rw [laidChars] at enough ⊢
    rw [List.length_cons, List.length_append] at enough
    have read := readItems_laid l (level + 1) level v vs first others tail fuel (by omega)
    rw [split] at read ⊢
    exact readValue_array (l.isBlank_gap _) mark inside read
  | object ((name, v) :: ms), exact, tail, fuel + 1, _, enough => by
    obtain ⟨first, others⟩ := Bool.and_eq_true_iff.mp exact
    rw [laidChars] at enough ⊢
    simp only [List.length_cons, List.length_append] at enough
    exact readValue_object (l.isBlank_gap _)
      (readMembers_laid l (level + 1) level name v ms first others tail fuel (by omega))
termination_by v => sizeOf v
/-- Items are read up to the end of their array. -/
theorem readItems_laid (l : Layout) (level around : Nat) : (v : Json) → (vs : List Json) → v.isExact = true →
    areExact vs = true → (tail : List Char) → (fuel : Nat) →
    2 * (laidChars l level v (laidItems l level vs (l.gap around ++ ']' :: tail))).length + 3 ≤ fuel →
    readItems fuel (laidChars l level v (laidItems l level vs (l.gap around ++ ']' :: tail))) = some (v :: vs, tail)
  | v, [], first, _, tail, fuel + 1, enough => by
    have ends : Ends (l.gap around ++ ']' :: tail) := ends_append (l.isBlank_gap _) (by decide)
    rw [laidItems] at enough ⊢
    exact readItems_last (l.isBlank_gap _) (readValue_laid l level v first _ fuel ends (by omega))
  | v, w :: ws, first, others, tail, fuel + 1, enough => by
    obtain ⟨second, later⟩ := Bool.and_eq_true_iff.mp others
    have whole := length_le_laidChars l level v (laidItems l level (w :: ws) (l.gap around ++ ']' :: tail))
    have ends : Ends (laidItems l level (w :: ws) (l.gap around ++ ']' :: tail)) :=
      ends_laidItems (ends_append (l.isBlank_gap around) (by decide))
    have here := readValue_laid l level v first _ fuel ends (by omega)
    rw [laidItems] at here whole enough ⊢
    rw [List.length_cons, List.length_append] at whole
    refine readItems_more here ?_
    rw [readItems_append (l.isBlank_gap level)]
    exact readItems_laid l level around w ws second later tail fuel (by omega)
termination_by v vs => 1 + sizeOf v + sizeOf vs
/-- Members are read up to the end of their object. -/
theorem readMembers_laid (l : Layout) (level around : Nat) : (name : String) → (v : Json) →
    (ms : List (String × Json)) → v.isExact = true → haveExact ms = true → (tail : List Char) → (fuel : Nat) →
    2 * (laidChars l level v (laidMembers l level ms (l.gap around ++ '\x7d' :: tail))).length + 3 ≤ fuel →
    readMembers fuel (quote name ++ ':' :: (l.afterColon ++
      laidChars l level v (laidMembers l level ms (l.gap around ++ '\x7d' :: tail)))) = some ((name, v) :: ms, tail)
  | name, v, [], first, _, tail, fuel + 1, enough => by
    have ends : Ends (l.gap around ++ '\x7d' :: tail) := ends_append (l.isBlank_gap _) (by decide)
    rw [laidMembers] at enough ⊢
    have here := readValue_laid l level v first _ fuel ends (by omega)
    rw [← readValue_append l.isBlank_afterColon] at here
    exact readMembers_last (l.isBlank_gap around) here
  | name, v, (other, w) :: ms, first, others, tail, fuel + 1, enough => by
    obtain ⟨second, later⟩ := Bool.and_eq_true_iff.mp others
    have whole := length_le_laidChars l level v (laidMembers l level ((other, w) :: ms) (l.gap around ++ '\x7d' :: tail))
    have ends : Ends (laidMembers l level ((other, w) :: ms) (l.gap around ++ '\x7d' :: tail)) :=
      ends_laidMembers (ends_append (l.isBlank_gap around) (by decide))
    have here := readValue_laid l level v first _ fuel ends (by omega)
    rw [← readValue_append l.isBlank_afterColon, laidMembers] at here
    rw [laidMembers] at whole enough ⊢
    simp only [List.length_cons, List.length_append] at whole
    refine readMembers_more here ?_
    rw [readMembers_append (l.isBlank_gap level)]
    exact readMembers_laid l level around other w ms second later tail fuel (by omega)
termination_by _ v ms => 1 + sizeOf v + sizeOf ms
end

/-- **What is written in a layout is read back.** -/
theorem parse?_laid (l : Layout) (level : Nat) (exact : v.isExact = true) :
    parse? (String.ofList (laidChars l level v [])) = some v := by
  have read := readValue_laid l level v exact [] (2 * (laidChars l level v []).length + 2) (by rintro _ ⟨⟩) (Nat.le_refl _)
  unfold parse?
  rw [String.toList_ofList, String.length_ofList, read]
  rfl

/-- **A value that is written compactly is read back.** -/
theorem parse?_compact (exact : v.isExact = true) : parse? v.compact = some v := by
  unfold compact
  rw [compactChars_eq 0]
  exact parse?_laid _ _ exact

/-- **A value that is written on several lines is read back.** -/
theorem parse?_pretty (exact : v.isExact = true) : parse? v.pretty = some v := by
  unfold pretty
  rw [prettyChars_eq]
  exact parse?_laid _ _ exact

/-! ## One line -/

/-- **A new line in a string is escaped.** -/
theorem newline_notMem_escapeChar (c : Char) : '\n' ∉ escapeChar c := by
  have digit : ∀ n < 16, '\n' ≠ hexDigit n := by decide
  unfold escapeChar
  split
  case h_8 _ _ _ _ notNewline _ _ =>
    split
    · rename_i control
      simp [digit (c.toNat / 16) (by omega), digit (c.toNat % 16) (by omega)]
    · exact fun mem => notNewline (List.mem_singleton.mp mem).symm
  all_goals decide

theorem newline_notMem_quote (s : String) : '\n' ∉ quote s := by
  have inside : '\n' ∉ s.toList.flatMap escapeChar := fun mem => by
    obtain ⟨c, -, escaped⟩ := List.mem_flatMap.mp mem
    exact newline_notMem_escapeChar c escaped
  simpa [quote] using inside

theorem newline_notMem_intChars (n : Int) : '\n' ∉ intChars n := fun mem =>
  absurd (isNumberChar_of_mem_intChars mem) (by decide)

theorem newline_mem_of_named {name : String} (mem : '\n' ∈ quote name ++ ':' :: tail) : '\n' ∈ tail :=
  List.mem_of_ne_of_mem (by decide) ((List.mem_append.mp mem).resolve_left (newline_notMem_quote name))

mutual
/-- A value that is written compactly adds no new line to what follows it. -/
theorem newline_mem_of_compactChars : (v : Json) → v.isExact = true → (tail : List Char) →
    '\n' ∈ compactChars v tail → '\n' ∈ tail
  | null, _, _, mem | bool true, _, _, mem | bool false, _, _, mem | array [], _, _, mem | object [], _, _, mem => by
    simpa [compactChars, atomChars] using mem
  | int n, _, _, mem => (List.mem_append.mp mem).resolve_left (newline_notMem_intChars n)
  | string s, _, _, mem => (List.mem_append.mp mem).resolve_left (newline_notMem_quote s)
  | array (v :: vs), exact, tail, mem => by
    obtain ⟨first, others⟩ := Bool.and_eq_true_iff.mp exact
    rw [compactChars] at mem
    have inside := newline_mem_of_compactItems vs others _
      (newline_mem_of_compactChars v first _ (List.mem_of_ne_of_mem (by decide) mem))
    exact List.mem_of_ne_of_mem (by decide) inside
  | object ((name, v) :: ms), exact, tail, mem => by
    obtain ⟨first, others⟩ := Bool.and_eq_true_iff.mp exact
    rw [compactChars] at mem
    have inside := newline_mem_of_compactMembers ms others _
      (newline_mem_of_compactChars v first _ (newline_mem_of_named (List.mem_of_ne_of_mem (by decide) mem)))
    exact List.mem_of_ne_of_mem (by decide) inside
theorem newline_mem_of_compactItems : (vs : List Json) → areExact vs = true → (tail : List Char) →
    '\n' ∈ compactItems vs tail → '\n' ∈ tail
  | [], _, _, mem => mem
  | v :: vs, exact, tail, mem => by
    obtain ⟨first, others⟩ := Bool.and_eq_true_iff.mp exact
    rw [compactItems] at mem
    exact newline_mem_of_compactItems vs others _
      (newline_mem_of_compactChars v first _ (List.mem_of_ne_of_mem (by decide) mem))
theorem newline_mem_of_compactMembers : (ms : List (String × Json)) → haveExact ms = true → (tail : List Char) →
    '\n' ∈ compactMembers ms tail → '\n' ∈ tail
  | [], _, _, mem => mem
  | (name, v) :: ms, exact, tail, mem => by
    obtain ⟨first, others⟩ := Bool.and_eq_true_iff.mp exact
    rw [compactMembers] at mem
    exact newline_mem_of_compactMembers ms others _
      (newline_mem_of_compactChars v first _ (newline_mem_of_named (List.mem_of_ne_of_mem (by decide) mem)))
end

/-- **A value that is written compactly is one line.** -/
theorem newline_notMem_compact (exact : v.isExact = true) : '\n' ∉ v.compact.toList := fun mem => by
  unfold compact at mem
  rw [String.toList_ofList] at mem
  exact List.not_mem_nil (newline_mem_of_compactChars v exact [] mem)

end PyBundle.Json
