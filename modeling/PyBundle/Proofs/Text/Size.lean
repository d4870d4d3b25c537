import Mathlib.Data.Set.Card
import Mathlib.SetTheory.Cardinal.Finite
import PyBundle.Collect.Walk

/-!
# How long texts are

The length of a text in bytes is the sum of those of its characters. So there are only finitely many texts
that are shorter than a limit, and `Sources.textsBelow` bounds how many.

In lower case every character of a text is still told by one or two, so a text that is continued is not the same
in lower case (`eq_nil_of_lower_append`).
-/

namespace PyBundle.Text

/-- **The bytes of a text are those of its characters.** -/
theorem utf8ByteSize_eq_sum (text : String) : text.utf8ByteSize = (text.toList.map Char.utf8Size).sum := by
  obtain ⟨cs, rfl⟩ : ∃ cs, text = String.ofList cs := ⟨text.toList, String.ofList_toList.symm⟩
  rw [String.toList_ofList]
  induction cs with
  | nil => exact String.utf8ByteSize_empty
  | cons c cs ih =>
    have split : String.ofList (c :: cs) = String.singleton c ++ String.ofList cs := by
      rw [← String.toList_inj, String.toList_append, String.toList_ofList, String.toList_ofList,
        String.toList_singleton, List.singleton_append]
    rw [split, String.utf8ByteSize_append, String.utf8ByteSize_singleton, ih, List.map_cons, List.sum_cons]

/-- A character takes one byte at least. -/
theorem length_le_utf8ByteSize (text : String) : text.toList.length ≤ text.utf8ByteSize := by
  rw [utf8ByteSize_eq_sum]
  induction text.toList with
  | nil => exact Nat.le_refl 0
  | cons c cs ih =>
    rw [List.map_cons, List.sum_cons, List.length_cons]
    have positive := c.utf8Size_pos
    omega

/-- The code point of a character is in range and no surrogate. -/
theorem toNat_lt_and_ne (c : Char) : c.toNat < 0x110000 ∧ c.toNat ≠ 0xD800 := by
  have valid : c.toNat < 0xD800 ∨ 0xDFFF < c.toNat ∧ c.toNat < 0x110000 := c.valid
  omega

/-- What stands at a place of a text. A surrogate, which is no character, stands behind its end. -/
def codeAt (text : String) (i : Nat) : Nat := (text.toList[i]?.map Char.toNat).getD 0xD800

theorem codeAt_lt (text : String) (i : Nat) : codeAt text i < 0x110000 := by
  unfold codeAt
  cases text.toList[i]? with
  | none =>
    show 0xD800 < 0x110000
    decide
  | some c => exact (toNat_lt_and_ne c).1

/-- What stands at a place tells the character there. -/
theorem getElem?_eq_of_codeAt_eq {t u : String} {i : Nat} (same : codeAt t i = codeAt u i) :
    t.toList[i]? = u.toList[i]? := by
  unfold codeAt at same
  cases atT : t.toList[i]? with
  | none =>
    cases atU : u.toList[i]? with
    | none => rfl
    | some d =>
      rw [atT, atU] at same
      exact absurd same.symm (toNat_lt_and_ne d).2
  | some c =>
    cases atU : u.toList[i]? with
    | none =>
      rw [atT, atU] at same
      exact absurd same (toNat_lt_and_ne c).2
    | some d =>
      rw [atT, atU] at same
      exact congrArg some (Char.toNat_inj.mp same)

/-- What stands at the places of a text below a limit. -/
def padded (limit : Nat) (text : String) (i : Fin limit) : Fin 0x110000 := Fin.ofNat 0x110000 (codeAt text i.val)

/-- Texts that are not longer than a limit are told apart by what stands below it. -/
theorem padded_injective {limit : Nat} {t u : String} (ht : t.toList.length ≤ limit)
    (hu : u.toList.length ≤ limit) (same : padded limit t = padded limit u) : t = u := by
  refine String.toList_inj.mp (List.ext_getElem? fun i => ?_)
  by_cases below : i < limit
  · have here : codeAt t i % 0x110000 = codeAt u i % 0x110000 :=
      congrArg Fin.val (congrFun same ⟨i, below⟩)
    rw [Nat.mod_eq_of_lt (codeAt_lt t i), Nat.mod_eq_of_lt (codeAt_lt u i)] at here
    exact getElem?_eq_of_codeAt_eq here
  · rw [List.getElem?_eq_none (by omega), List.getElem?_eq_none (by omega)]

/-- **The texts that are shorter than a limit.** -/
def shortTexts (limit : Nat) : Set String := {text | text.utf8ByteSize < limit}

theorem padded_injOn (limit : Nat) : Set.InjOn (padded limit) (shortTexts limit) := by
  intro t ht u hu same
  have lengths : ∀ v, v ∈ shortTexts limit → v.toList.length ≤ limit := fun v short =>
    Nat.le_trans (length_le_utf8ByteSize v) (Nat.le_of_lt short)
  exact padded_injective (lengths t ht) (lengths u hu) same

theorem shortTexts_finite (limit : Nat) : (shortTexts limit).Finite :=
  Set.Finite.of_injOn (Set.mapsTo_univ _ _) (padded_injOn limit) Set.finite_univ

/-- **There are no more texts below a limit than the bound says.** -/
theorem ncard_shortTexts_le (limit : Nat) : (shortTexts limit).ncard ≤ Sources.textsBelow limit := by
  have target : (Set.univ : Set (Fin limit → Fin 0x110000)).ncard = Sources.textsBelow limit := by
    rw [Set.ncard_univ, Nat.card_fun, Nat.card_fin, Nat.card_fin]
    rfl
  rw [← target]
  exact Set.ncard_le_ncard_of_injOn (padded limit) (fun _ _ => Set.mem_univ _) (padded_injOn limit)
    Set.finite_univ

/-- How many characters a character takes in lower case. -/
def lowerWidth (c : Char) : Nat := if c == 'İ' then 2 else 1

/-- **The length of a text in lower case is the sum over its characters,** wherever they stand. -/
theorem length_lowerAfter (before cs : List Char) : (lowerAfter before cs).length = (cs.map lowerWidth).sum := by
  induction cs generalizing before with
  | nil => rfl
  | cons c cs ih =>
    unfold lowerAfter
    rw [List.length_append, ih, List.map_cons, List.sum_cons]
    refine congrArg (· + (cs.map lowerWidth).sum) ?_
    unfold lowerWidth
    split
    · rename_i sigma
      rw [beq_iff_eq.mp sigma]
      split <;> rfl
    · split <;> rfl

/-- **What makes a text longer makes it longer in lower case.** -/
theorem eq_nil_of_lower_append {text more : String} (same : lower (text ++ more) = lower text) : more.toList = [] := by
  have lengths := congrArg (fun t => t.toList.length) same
  simp only [lower, String.toList_ofList, length_lowerAfter, String.toList_append, List.map_append,
    List.sum_append] at lengths
  cases chars : more.toList with
  | nil => rfl
  | cons c cs =>
    have positive : 0 < lowerWidth c := by
      unfold lowerWidth
      split <;> decide
    rw [chars, List.map_cons, List.sum_cons] at lengths
    omega

end PyBundle.Text
