import Mathlib.Data.List.Basic
import PyBundle.Text.Line
import PyBundle.Text.Lowercase

/-!
# What lower case leaves

A character stays as it is in lower case, or it becomes letters that stay as they are (`lowered_spec`). So a text in
lower case stays as it is when it is put into lower case again (`lower_lower`), and there is no punctuation of ASCII and
no white space in it that was not there before. The case of ASCII letters makes no difference (`lowerAfter_toLower`),
also not to the capital sigma next to them.
-/

namespace PyBundle.Text

variable {c d : Char} {before rest cs : List Char} {low high m : Nat} {everySecond : Bool}
  {run : Nat × Nat × Nat × Nat} {runs : List (Nat × Nat × Nat × Nat)}

/-! ## The table of capitals -/

/-- Whether a code point is a capital of a run. -/
def isCapitalOf (n : Nat) : Nat × Nat × Nat × Nat → Bool
  | (first, last, step, _) => first ≤ n && n ≤ last && (n - first) % step == 0

/-- **Whether there are no capitals of some runs among code points** from a low one to a high one, or among every second
one of these. The runs are in order, so those behind the high one do not count. -/
def areFreeOf (low high : Nat) (everySecond : Bool) : List (Nat × Nat × Nat × Nat) → Bool
  | [] => true
  | (first, last, step, _) :: runs =>
    high.blt first ||
      (last.blt low || step == 2 && everySecond && (low + first) % 2 == 1) && areFreeOf low high everySecond runs

theorem isCapitalOf_of_areFreeOf (inOrder : runs.Pairwise fun a b => a.1 < b.1)
    (free : areFreeOf low high everySecond runs = true) (above : low ≤ m) (below : m ≤ high)
    (second : everySecond = true → (m - low) % 2 = 0) : ∀ run ∈ runs, isCapitalOf m run = false := by
  induction runs with
  | nil => exact List.forall_mem_nil _
  | cons run runs ih =>
    obtain ⟨first, last, step, small⟩ := run
    obtain ⟨least, inOrder⟩ := List.pairwise_cons.mp inOrder
    rw [areFreeOf, Bool.or_eq_true, Bool.and_eq_true, Nat.blt_eq] at free
    rcases free with behind | ⟨here, others⟩
    · -- All runs from here on start behind the code point.
      refine fun run mem => ?_
      have start : m < run.1 := by
        rcases List.mem_cons.mp mem with rfl | later
        · exact Nat.lt_of_le_of_lt below behind
        · exact Nat.lt_trans (Nat.lt_of_le_of_lt below behind) (least run later)
      simp [isCapitalOf, Nat.not_le.mpr start]
    · refine List.forall_mem_cons.mpr ⟨?_, ih inOrder others⟩
      simp only [Bool.or_eq_true, Bool.and_eq_true, beq_iff_eq, Nat.blt_eq] at here
      simp only [isCapitalOf, Bool.and_eq_false_iff, decide_eq_false_iff_not, beq_eq_false_iff_ne]
      rcases here with before | ⟨⟨rfl, isSecond⟩, odd⟩
      · omega
      · have even := second isSecond
        omega

/-- Code points that no small letter of the table has: those of ASCII but for the `k` of the Kelvin sign, white space,
surrogates, the dotted capital I and the capital sigma. -/
def besides : List (Nat × Nat) :=
  [(0, 106), (108, 160), (0x130, 0x130), (0x3A3, 0x3A3), (0x1680, 0x1680), (0x2000, 0x205F), (0x3000, 0x3000),
    (0xD800, 0xDFFF)]

/-- The table is in order. -/
theorem inOrder_lowerRuns : lowerRuns.toList.Pairwise fun a b => a.1 < b.1 := by
  rw [← List.isChain_iff_pairwise]
  decide +kernel

/-- **No small letter of the table is a capital.** -/
theorem areFreeOf_lowerRuns : ∀ run ∈ lowerRuns.toList,
    areFreeOf run.2.2.2 (run.2.2.2 + (run.2.1 - run.1)) (run.2.2.1 == 2 || run.1 == run.2.1) lowerRuns.toList = true ∧
      (run.2.2.1 = 1 ∨ run.2.2.1 = 2) := by
  decide +kernel

theorem notBeside_lowerRuns : ∀ run ∈ lowerRuns.toList, run.2.2.2 + (run.2.1 - run.1) < 0x110000 ∧
    ∀ range ∈ besides, run.2.2.2 + (run.2.1 - run.1) < range.1 ∨ range.2 < run.2.2.2 := by
  decide +kernel

/-! ## Characters in lower case -/

/-- **A character that stays as it is in lower case,** wherever it stands. -/
structure IsLower (c : Char) : Prop where
  notSigma : c ≠ 'Σ'
  notDotted : c ≠ 'İ'
  same : lowerChar c = c

/-- **A small letter:** it stays as it is, and it is no punctuation of ASCII and no white space. -/
structure IsSmallLetter (c : Char) : Prop extends IsLower c where
  letter : c.isAlpha = true ∨ 128 ≤ c.toNat
  notBlank : isBlank c = false

/-- The small letters of ASCII. -/
theorem isSmallLetter_ascii (n : Nat) (within : n < 26) : IsSmallLetter (Char.ofNat (97 + n)) := by
  have each : ∀ n < 26, Char.ofNat (97 + n) ≠ 'Σ' ∧ Char.ofNat (97 + n) ≠ 'İ' ∧
      lowerChar (Char.ofNat (97 + n)) = Char.ofNat (97 + n) ∧ (Char.ofNat (97 + n)).isAlpha = true ∧
      isBlank (Char.ofNat (97 + n)) = false := by decide
  obtain ⟨notSigma, notDotted, same, letter, notBlank⟩ := each n within
  exact ⟨⟨notSigma, notDotted, same⟩, .inl letter, notBlank⟩

/-- **What holds of a character and itself, and of the capitals of ASCII and their small letters,** holds of a character
and what it is without the case of ASCII. -/
theorem toLower_cases {P : Char → Char → Prop} (same : ∀ c, P c c)
    (capital : ∀ n < 26, P (Char.ofNat (65 + n)) (Char.ofNat (97 + n))) (c : Char) : P c c.toLower := by
  by_cases isUpper : 65 ≤ c.toNat ∧ c.toNat ≤ 90
  · have here := capital (c.toNat - 65) (by omega)
    have lower : ∀ n < 26, (Char.ofNat (65 + n)).toLower = Char.ofNat (97 + n) := by decide
    rwa [← lower _ (by omega), Nat.add_sub_cancel' isUpper.1, Char.ofNat_toNat] at here
  · have stays : c.toLower = c := dif_neg isUpper
    rw [stays]
    exact same c

/-- The small letter of a character beyond ASCII, by the table. -/
theorem lowerChar_of_table (beyond : ¬ c.toNat < 128) : lowerChar c =
    match lowerRuns.toList.find? (isCapitalOf c.toNat) with
    | some (first, _, _, small) => Char.ofNat (small + (c.toNat - first))
    | none => c := by
  rw [lowerChar, if_neg beyond, ← Array.find?_toList]
  rfl

/-- A character that is not in the table stays as it is. -/
theorem lowerChar_eq_self (beyond : ¬ c.toNat < 128)
    (none : ∀ run ∈ lowerRuns.toList, isCapitalOf c.toNat run = false) : lowerChar c = c := by
  rw [lowerChar_of_table beyond, List.find?_eq_none.mpr fun run mem => Bool.eq_false_iff.mp (none run mem)]

/-- A code point beyond ASCII that is no capital and none of those beside the small letters. -/
theorem isSmallLetter_of_code {code : Nat} (beyond : 128 ≤ code) (bounded : code < 0x110000)
    (none : ∀ run ∈ lowerRuns.toList, isCapitalOf code run = false)
    (notBeside : ∀ range ∈ besides, code < range.1 ∨ range.2 < code) : IsSmallLetter (Char.ofNat code) := by
  simp only [besides, List.forall_mem_cons] at notBeside
  have valid : code.isValidChar := by
    unfold Nat.isValidChar
    omega
  have toNat : (Char.ofNat code).toNat = code := by
    rw [Char.ofNat, dif_pos valid]
    rfl
  refine ⟨⟨fun same => ?_, fun same => ?_, lowerChar_eq_self (by omega) (toNat.symm ▸ none)⟩, .inr (by omega), ?_⟩
  · have sigma : code = 0x3A3 := toNat.symm.trans (congrArg Char.toNat same)
    omega
  · have dotted : code = 0x130 := toNat.symm.trans (congrArg Char.toNat same)
    omega
  · simp only [isBlank, toNat, Bool.or_eq_false_iff, Bool.and_eq_false_iff, decide_eq_false_iff_not,
      beq_eq_false_iff_ne]
    omega

/-- **What the table gives for a capital is a small letter.** -/
theorem isSmallLetter_of_mem (mem : run ∈ lowerRuns.toList) (isCapital : isCapitalOf m run = true) :
    IsSmallLetter (Char.ofNat (run.2.2.2 + (m - run.1))) := by
  obtain ⟨free, step⟩ := areFreeOf_lowerRuns run mem
  obtain ⟨bounded, besides⟩ := notBeside_lowerRuns run mem
  obtain ⟨first, last, stride, small⟩ := run
  simp only [isCapitalOf, Bool.and_eq_true, decide_eq_true_eq, beq_iff_eq] at isCapital step bounded besides free
  obtain ⟨⟨above, below⟩, onStride⟩ := isCapital
  change IsSmallLetter (Char.ofNat (small + (m - first)))
  have none := isCapitalOf_of_areFreeOf inOrder_lowerRuns free (m := small + (m - first)) (by omega) (by omega) <| by
    simp only [Bool.or_eq_true, beq_iff_eq]
    rintro (rfl | rfl) <;> omega
  by_cases beyond : 128 ≤ small + (m - first)
  · refine isSmallLetter_of_code beyond (by omega) none fun range isRange => ?_
    have outside := besides range isRange
    omega
  · have kelvin : small + (m - first) = 97 + 10 := by
      have low := besides (0, 106) (by decide)
      have high := besides (108, 160) (by decide)
      omega
    rw [kelvin]
    exact isSmallLetter_ascii 10 (by decide)

/-- **A character stays as it is, or its small letter is one.** -/
theorem lowerChar_spec (c : Char) : lowerChar c = c ∨ IsSmallLetter (lowerChar c) := by
  by_cases ascii : c.toNat < 128
  · rw [lowerChar, if_pos ascii]
    refine toLower_cases (P := fun c d => d = c ∨ IsSmallLetter d) (fun _ => .inl rfl) (fun n within => ?_) c
    exact .inr (isSmallLetter_ascii n within)
  · rw [lowerChar_of_table ascii]
    cases found : lowerRuns.toList.find? (isCapitalOf c.toNat) with
    | none => exact .inl rfl
    | some run => exact .inr (isSmallLetter_of_mem (List.mem_of_find?_eq_some found) (List.find?_some found))

/-! ## Texts in lower case -/

/-- **What a character becomes in lower case** between two texts. -/
def lowered (before : List Char) (c : Char) (rest : List Char) : List Char :=
  if c == 'Σ' then (if meetsLetter before && !meetsLetter rest then ['ς'] else ['σ'])
  else if c == 'İ' then ['i', '\u0307']
  else [lowerChar c]

theorem lowerAfter_cons (before : List Char) (c : Char) (rest : List Char) :
    lowerAfter before (c :: rest) = lowered before c rest ++ lowerAfter (c :: before) rest := rfl

/-- The small letters of the two capitals that the table does not tell, and the dot over one of them. -/
theorem isSmallLetter_special : IsSmallLetter 'ς' ∧ IsSmallLetter 'σ' ∧ IsSmallLetter '\u0307' := by
  have small {code : Nat} (mem : code ∈ [0x3C2, 0x3C3, 0x307]) : IsSmallLetter (Char.ofNat code) := by
    have each : ∀ code ∈ [0x3C2, 0x3C3, 0x307], 128 ≤ code ∧ code < 0x110000 ∧
        areFreeOf code code false lowerRuns.toList = true ∧ ∀ range ∈ besides, code < range.1 ∨ range.2 < code := by
      decide +kernel
    obtain ⟨beyond, bounded, free, notBeside⟩ := each code mem
    refine isSmallLetter_of_code beyond bounded ?_ notBeside
    exact isCapitalOf_of_areFreeOf inOrder_lowerRuns free (Nat.le_refl _) (Nat.le_refl _) nofun
  exact ⟨small (by decide), small (by decide), small (by decide)⟩

/-- **A character stays as it is in lower case, or it becomes small letters.** -/
theorem lowered_spec (before : List Char) (c : Char) (rest : List Char) :
    IsLower c ∧ lowered before c rest = [c] ∨
      lowered before c rest ≠ [] ∧ ∀ d ∈ lowered before c rest, IsSmallLetter d := by
  obtain ⟨final, sigma, dot⟩ := isSmallLetter_special
  unfold lowered
  by_cases isSigma : c = 'Σ'
  · rw [if_pos (beq_iff_eq.mpr isSigma)]
    split
    · exact .inr ⟨List.cons_ne_nil _ _, List.forall_mem_singleton.mpr final⟩
    · exact .inr ⟨List.cons_ne_nil _ _, List.forall_mem_singleton.mpr sigma⟩
  · rw [if_neg fun same => isSigma (beq_iff_eq.mp same)]
    by_cases isDotted : c = 'İ'
    · rw [if_pos (beq_iff_eq.mpr isDotted)]
      refine .inr ⟨List.cons_ne_nil _ _, List.forall_mem_cons.mpr ⟨?_, List.forall_mem_singleton.mpr dot⟩⟩
      exact isSmallLetter_ascii 8 (by decide)
    · rw [if_neg fun same => isDotted (beq_iff_eq.mp same)]
      rcases lowerChar_spec c with same | small
      · exact .inl ⟨⟨isSigma, isDotted, same⟩, by rw [same]⟩
      · exact .inr ⟨List.cons_ne_nil _ _, List.forall_mem_singleton.mpr small⟩

/-- What stays as it is in lower case makes a text that does. -/
theorem lowerAfter_eq_self (lower : ∀ c ∈ cs, IsLower c) (before : List Char) : lowerAfter before cs = cs := by
  induction cs generalizing before with
  | nil => rfl
  | cons c cs ih =>
    obtain ⟨first, others⟩ := List.forall_mem_cons.mp lower
    rw [lowerAfter_cons, ih others, lowered, if_neg (by simpa using first.notSigma),
      if_neg (by simpa using first.notDotted), first.same]
    rfl

theorem isLower_of_mem_lowerAfter (mem : d ∈ lowerAfter before cs) : IsLower d := by
  induction cs generalizing before with
  | nil => cases mem
  | cons c cs ih =>
    rw [lowerAfter_cons] at mem
    rcases List.mem_append.mp mem with here | later
    · rcases lowered_spec before c cs with ⟨lower, stays⟩ | ⟨-, small⟩
      · rw [stays, List.mem_singleton] at here
        exact here ▸ lower
      · exact (small d here).toIsLower
    · exact ih later

/-- **A text in lower case stays as it is** when it is put into lower case again. -/
theorem lower_lower (s : String) : lower (lower s) = lower s := by
  unfold lower
  rw [String.toList_ofList, lowerAfter_eq_self fun _ => isLower_of_mem_lowerAfter]

/-- **The first character in lower case** is the one of the text or a small letter. -/
theorem head?_lowerAfter (first : d ∈ (lowerAfter before cs).head?) : d ∈ cs.head? ∨ IsSmallLetter d := by
  cases cs with
  | nil => cases first
  | cons c cs =>
    rw [lowerAfter_cons] at first
    rcases lowered_spec before c cs with ⟨-, stays⟩ | ⟨some, small⟩
    · rw [stays] at first
      exact .inl first
    · rw [List.head?_append_of_ne_nil _ some] at first
      exact .inr (small d (List.mem_of_mem_head? first))

/-- A text does not vanish in lower case. -/
theorem lowerAfter_ne_nil (some : cs ≠ []) (before : List Char) : lowerAfter before cs ≠ [] := by
  cases cs with
  | nil => exact absurd rfl some
  | cons c cs =>
    have here : lowered before c cs ≠ [] := by
      rcases lowered_spec before c cs with ⟨-, stays⟩ | ⟨some, -⟩
      · exact stays ▸ List.cons_ne_nil _ _
      · exact some
    rw [lowerAfter_cons]
    exact List.append_ne_nil_of_left_ne_nil here _

/-- **The last character in lower case** is the one of the text or a small letter. -/
theorem getLast?_lowerAfter (last : d ∈ (lowerAfter before cs).getLast?) : d ∈ cs.getLast? ∨ IsSmallLetter d := by
  induction cs generalizing before with
  | nil => cases last
  | cons c cs ih =>
    rw [lowerAfter_cons] at last
    by_cases more : cs = []
    · rw [more, lowerAfter, List.append_nil] at last
      rcases lowered_spec before c [] with ⟨-, stays⟩ | ⟨-, small⟩
      · exact .inl (more ▸ stays ▸ last)
      · exact .inr (small d (List.mem_of_getLast? last))
    · rw [List.getLast?_append_of_ne_nil _ (lowerAfter_ne_nil more _)] at last
      exact (ih last).imp_left List.mem_getLast?_cons

/-! ## The case of ASCII letters -/

theorem isCased_toLower (c : Char) : isCased c.toLower = isCased c :=
  toLower_cases (P := fun c d => isCased d = isCased c) (fun _ => rfl) (by decide) c

theorem isCaseIgnorable_toLower (c : Char) : isCaseIgnorable c.toLower = isCaseIgnorable c :=
  toLower_cases (P := fun c d => isCaseIgnorable d = isCaseIgnorable c) (fun _ => rfl) (by decide) c

theorem isBlank_toLower (c : Char) : isBlank c.toLower = isBlank c :=
  toLower_cases (P := fun c d => isBlank d = isBlank c) (fun _ => rfl) (by decide) c

theorem meetsLetter_toLower (cs : List Char) : meetsLetter (cs.map Char.toLower) = meetsLetter cs := by
  unfold meetsLetter
  have ignorable : isCaseIgnorable ∘ Char.toLower = isCaseIgnorable := funext isCaseIgnorable_toLower
  have cased : isCased ∘ Char.toLower = isCased := funext isCased_toLower
  rw [List.dropWhile_map, List.head?_map, Option.map_map, ignorable, cased]

theorem lowered_toLower (before : List Char) (c : Char) (rest : List Char) :
    lowered (before.map Char.toLower) c.toLower (rest.map Char.toLower) = lowered before c rest := by
  unfold lowered
  rw [meetsLetter_toLower, meetsLetter_toLower]
  generalize (meetsLetter before && !meetsLetter rest) = final
  exact toLower_cases (P := fun c d => (if d == 'Σ' then (if final then ['ς'] else ['σ'])
    else if d == 'İ' then ['i', '\u0307'] else [lowerChar d]) = if c == 'Σ' then (if final then ['ς'] else ['σ'])
    else if c == 'İ' then ['i', '\u0307'] else [lowerChar c]) (fun _ => rfl) (by decide +revert) c

/-- **The case of ASCII letters makes no difference.** -/
theorem lowerAfter_toLower (before cs : List Char) :
    lowerAfter (before.map Char.toLower) (cs.map Char.toLower) = lowerAfter before cs := by
  induction cs generalizing before with
  | nil => rfl
  | cons c cs ih =>
    rw [List.map_cons, lowerAfter_cons, lowerAfter_cons, lowered_toLower, ← List.map_cons, ih]

end PyBundle.Text
