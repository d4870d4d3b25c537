/-!
# Splitting and joining

What stands between the separators of a text has no separator, and no character is lost or added on either
way.
-/

namespace PyBundle.Text

variable {c separator : Char} {text piece : List Char} {pieces : List (List Char)}

/-- A text that is made of characters has these. -/
theorem toList_comp_ofList : String.toList ∘ String.ofList = id := funext fun _ => String.toList_ofList

/-- The characters of a text make it up. -/
theorem ofList_comp_toList : String.ofList ∘ String.toList = id := funext fun _ => String.ofList_toList

/-- **What stands between separators has none.** -/
theorem separator_notMem_of_mem_splitOn (mem : piece ∈ text.splitOn separator) : separator ∉ piece := by
  induction text generalizing piece with
  | nil =>
    rw [List.splitOn_nil, List.mem_singleton] at mem
    rw [mem]
    exact List.not_mem_nil
  | cons d text ih =>
    rw [List.splitOn_cons_eq_if_modifyHead] at mem
    split at mem
    · rcases List.mem_cons.mp mem with rfl | later
      · exact List.not_mem_nil
      · exact ih later
    · rename_i other
      obtain ⟨first, rest, split⟩ := List.exists_cons_of_ne_nil (List.splitOn_ne_nil separator text)
      rw [split] at mem ih
      rcases List.mem_cons.mp mem with rfl | later
      · intro inside
        rcases List.mem_cons.mp inside with rfl | inside
        · exact other (beq_self_eq_true _)
        · exact ih List.mem_cons_self inside
      · exact ih (List.mem_cons_of_mem _ later)

/-- A character of joined pieces is one of a piece, or it separates them. -/
theorem mem_intercalate (mem : c ∈ [separator].intercalate pieces) :
    c = separator ∨ ∃ piece ∈ pieces, c ∈ piece := by
  induction pieces with
  | nil => cases mem
  | cons piece rest ih =>
    cases rest with
    | nil =>
      rw [List.intercalate_singleton] at mem
      exact .inr ⟨piece, List.mem_singleton_self _, mem⟩
    | cons next rest =>
      rw [List.intercalate_cons_cons, List.append_assoc] at mem
      rcases List.mem_append.mp mem with here | later
      · exact .inr ⟨piece, List.mem_cons_self, here⟩
      · rcases List.mem_append.mp later with sep | later
        · exact .inl (List.mem_singleton.mp sep)
        · rcases ih later with sep | ⟨other, isPiece, inPiece⟩
          · exact .inl sep
          · exact .inr ⟨other, List.mem_cons_of_mem _ isPiece, inPiece⟩

/-- Whatever stands in a piece stands in the pieces joined. -/
theorem mem_intercalate_of_mem (isPiece : piece ∈ pieces) (inPiece : c ∈ piece) :
    c ∈ [separator].intercalate pieces := by
  induction pieces with
  | nil => cases isPiece
  | cons first rest ih =>
    cases rest with
    | nil =>
      cases List.mem_singleton.mp isPiece
      rwa [List.intercalate_singleton]
    | cons next rest =>
      rw [List.intercalate_cons_cons, List.append_assoc]
      rcases List.mem_cons.mp isPiece with rfl | later
      · exact List.mem_append_left _ inPiece
      · exact List.mem_append_right _ (List.mem_append_right _ (ih later))

/-- What stands between separators is from the text. -/
theorem mem_of_mem_splitOn (isPiece : piece ∈ text.splitOn separator) (inPiece : c ∈ piece) :
    c ∈ text := by
  have joined : [separator].intercalate (text.splitOn separator) = text := List.intercalate_splitOn separator
  rw [← joined]
  exact mem_intercalate_of_mem isPiece inPiece

/-- What is in a text and separates nothing stands between separators. -/
theorem exists_mem_splitOn_of_mem (mem : c ∈ text) (other : c ≠ separator) :
    ∃ piece ∈ text.splitOn separator, c ∈ piece := by
  have joined : [separator].intercalate (text.splitOn separator) = text := List.intercalate_splitOn separator
  rw [← joined] at mem
  exact (mem_intercalate mem).resolve_left other

/-- What has no separator is put behind the last piece. -/
theorem splitOn_append_of_notMem {back : List Char} (free : separator ∉ back) :
    ∃ before last, text.splitOn separator = before ++ [last] ∧
      (text ++ back).splitOn separator = before ++ [last ++ back] := by
  induction text with
  | nil => exact ⟨[], [], List.splitOn_nil _, List.splitOn_eq_singleton free⟩
  | cons d text ih =>
    obtain ⟨before, last, split, longer⟩ := ih
    rw [List.cons_append, List.splitOn_cons_eq_if_modifyHead, List.splitOn_cons_eq_if_modifyHead, split, longer]
    by_cases here : (d == separator) = true
    · rw [if_pos here, if_pos here]
      exact ⟨[] :: before, last, rfl, rfl⟩
    · rw [if_neg here, if_neg here]
      cases before with
      | nil => exact ⟨[], d :: last, rfl, rfl⟩
      | cons first before => exact ⟨(d :: first) :: before, last, rfl, rfl⟩

/-- **What stands before the first separator.** -/
theorem takeWhile_separator (rest : List Char) (free : separator ∉ piece) :
    (piece ++ separator :: rest).takeWhile (· != separator) = piece := by
  have before : ∀ c ∈ piece, (c != separator) = true := fun c mem => bne_iff_ne.mpr fun same => free (same ▸ mem)
  rw [List.takeWhile_append_of_pos before, List.takeWhile_cons, bne_self_eq_false, if_neg Bool.false_ne_true,
    List.append_nil]

end PyBundle.Text
