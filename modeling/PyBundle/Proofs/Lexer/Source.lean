import Mathlib.Data.List.DropRight
import PyBundle.Lexer.Source

/-!
# Stretches of a source

The text, the line and the column of a position are told by the characters before it (`slice_ofString`,
`line_ofString`, `column_ofString`). A stretch that stands at a position on a line (`StandsAt`) has its parts on that
line too, each where the parts before it end.
-/

namespace PyBundle.Lexer

open Source (ofString sums)

variable {text : String} {line n i j : Nat} {cs ds : List Char}

namespace Source

/-- The sums that are added to those already there, of which the last one is `total`. -/
theorem getD_foldl_sums (measure : Char → Nat) (cs : List Char) (out : Array Nat) (total i : Nat)
    (within : i < out.size + cs.length) :
    (cs.foldl (fun (acc : Array Nat × Nat) c => (acc.1.push (acc.2 + measure c), acc.2 + measure c))
      (out, total)).1.getD i 0 =
      if i < out.size then out.getD i 0 else (cs.take (i + 1 - out.size)).foldl (fun n c => n + measure c) total := by
  induction cs generalizing out total with
  | nil => exact (if_pos within).symm
  | cons c cs ih =>
    rw [List.foldl_cons, ih _ _ (by simp only [Array.size_push, List.length_cons] at within ⊢; omega), Array.size_push]
    rcases Nat.lt_trichotomy i out.size with old | rfl | new
    · simp [old, Nat.lt_succ_of_lt old, Array.getElem_push]
    · simp
    · have pastNew : ¬ i < out.size + 1 := by omega
      have count : i + 1 - out.size = (i + 1 - (out.size + 1)) + 1 := by omega
      rw [if_neg pastNew, if_neg (by omega), count, List.take_succ_cons, List.foldl_cons]

/-- **A sum before a position is over the characters before it.** -/
theorem getD_sums (measure : Char → Nat) (within : i ≤ cs.length) :
    (sums measure cs).getD i 0 = (cs.take i).foldl (fun n c => n + measure c) 0 := by
  unfold sums
  rw [getD_foldl_sums measure cs #[0] 0 i (by simp; omega)]
  cases i with
  | zero => simp
  | succ i => simp

/-- The line breaks of a text are counted one by one. -/
theorem foldl_breaks (cs : List Char) (total : Nat) :
    cs.foldl (fun n c => n + if c == '\n' then 1 else 0) total = total + cs.count '\n' := by
  induction cs generalizing total with
  | nil => rfl
  | cons c cs ih => rw [List.foldl_cons, ih, List.count_cons, Nat.add_assoc, Nat.add_comm (List.count ..)]

theorem line_ofString (within : i ≤ text.toList.length) :
    (ofString text).line i = (text.toList.take i).count '\n' + 1 := by
  unfold line ofString
  rw [getD_sums _ within, foldl_breaks, Nat.zero_add]

/-- **Lines do not decrease** along a text. -/
theorem line_mono (first : i ≤ j) (within : j ≤ text.toList.length) :
    (ofString text).line i ≤ (ofString text).line j := by
  rw [line_ofString (Nat.le_trans first within), line_ofString within]
  exact Nat.succ_le_succ ((List.take_prefix_take_left first).sublist.count_le '\n')

/-- The bytes of a text are counted character by character. -/
theorem foldl_bytes (cs : List Char) (total : Nat) :
    cs.foldl (fun n c => n + c.utf8Size) total = total + (String.ofList cs).utf8ByteSize := by
  induction cs generalizing total with
  | nil => rfl
  | cons c cs ih =>
    rw [List.foldl_cons, ih, String.ofList_cons, String.utf8ByteSize_append, String.utf8ByteSize_singleton,
      Nat.add_assoc]

theorem getD_bytesBefore (within : i ≤ text.toList.length) :
    (ofString text).bytesBefore.getD i 0 = (String.ofList (text.toList.take i)).utf8ByteSize := by
  unfold ofString
  rw [getD_sums _ within, foldl_bytes, Nat.zero_add]

theorem lineStart_le (s : Source) (i : Nat) : s.lineStart i ≤ i := by
  induction i with
  | zero => exact Nat.le_refl 0
  | succ i ih =>
    unfold lineStart
    split
    · exact Nat.le_refl _
    · exact Nat.le_succ_of_le ih

/-- **The characters before a position** are those before its line and those before it in its line. -/
theorem take_eq_append_rtakeWhile (within : i ≤ text.toList.length) :
    text.toList.take i =
      text.toList.take ((ofString text).lineStart i) ++ (text.toList.take i).rtakeWhile (· != '\n') := by
  induction i with
  | zero => rfl
  | succ i ih =>
    have here : i < text.toList.length := within
    have peek : (ofString text).peek i = text.toList[i] := by
      unfold peek ofString
      simp [here]
    have last : text.toList.take (i + 1) = text.toList.take i ++ [text.toList[i]] := by
      rw [List.take_add_one, List.getElem?_eq_getElem here]
      rfl
    unfold lineStart
    rw [peek]
    cases isBreak : text.toList[i] == '\n' with
    | true => rw [if_pos rfl, last, List.rtakeWhile_concat_neg _ _ _ (by simpa using isBreak), List.append_nil]
    | false =>
      rw [if_neg Bool.false_ne_true, last, List.rtakeWhile_concat_pos _ _ _ (by simpa using isBreak),
        ← List.append_assoc, ← ih (Nat.le_of_lt here)]

/-- **The column of a position** is the bytes before it in its line. -/
theorem column_ofString (within : i ≤ text.toList.length) : (ofString text).column i =
    (String.ofList ((text.toList.take i).rtakeWhile (· != '\n'))).utf8ByteSize := by
  have start : (ofString text).lineStart i ≤ text.toList.length := Nat.le_trans (lineStart_le _ i) within
  have parts := congrArg (fun cs => (String.ofList cs).utf8ByteSize) (take_eq_append_rtakeWhile within)
  simp only [String.ofList_append, String.utf8ByteSize_append] at parts
  unfold column bytes
  rw [getD_bytesBefore within, getD_bytesBefore start, parts, Nat.add_sub_cancel_left]

theorem slice_ofString (i j : Nat) :
    (ofString text).slice i j = String.ofList ((text.toList.take j).drop i) := by
  unfold slice ofString
  rw [Array.toList_extract, List.extract_eq_take_drop, List.drop_take]

end Source

/-- **A stretch of one line:** it has no line break, and it stands at position `n` of a text, on line `line`. -/
structure StandsAt (text : String) (line n : Nat) (cs : List Char) : Prop where
  noBreak : '\n' ∉ cs
  within : ∃ front back, text.toList = front ++ cs ++ back ∧ front.length = n ∧ front.count '\n' + 1 = line

namespace StandsAt

theorem left (stands : StandsAt text line n (cs ++ ds)) : StandsAt text line n cs := by
  obtain ⟨front, back, split, length, breaks⟩ := stands.within
  refine ⟨fun mem => stands.noBreak (List.mem_append_left _ mem), front, ds ++ back, ?_, length, breaks⟩
  simp only [split, List.append_assoc]

theorem right (stands : StandsAt text line n (cs ++ ds)) : StandsAt text line (n + cs.length) ds := by
  obtain ⟨front, back, split, length, breaks⟩ := stands.within
  refine ⟨fun mem => stands.noBreak (List.mem_append_right _ mem), front ++ cs, back, ?_, ?_, ?_⟩
  · simp only [split, List.append_assoc]
  · rw [List.length_append, length]
  · have none : cs.count '\n' = 0 := List.count_eq_zero.mpr fun mem => stands.noBreak (List.mem_append_left _ mem)
    rw [List.count_append, none, breaks]

/-- **A slice that ends with the stretch** is what is left of it. -/
theorem slice (stands : StandsAt text line n cs) (i : Nat) :
    (ofString text).slice (n + i) (n + cs.length) = String.ofList (cs.drop i) := by
  obtain ⟨front, back, split, rfl, -⟩ := stands.within
  rw [Source.slice_ofString, split, ← List.length_append, List.take_left, List.drop_append]
  simp

/-- **All positions of a stretch are on its line.** -/
theorem line_eq (stands : StandsAt text line n cs) (inside : i ≤ cs.length) : (ofString text).line (n + i) = line := by
  obtain ⟨front, back, split, rfl, breaks⟩ := stands.within
  have before : text.toList.take (front.length + i) = front ++ cs.take i := by
    rw [split, List.append_assoc, List.take_length_add_append, List.take_append_of_le_length inside]
  have none : (cs.take i).count '\n' = 0 :=
    List.count_eq_zero.mpr fun mem => stands.noBreak (List.mem_of_mem_take mem)
  rw [Source.line_ofString (by simp [split]; omega), before, List.count_append, none, Nat.add_zero, breaks]

end StandsAt

end PyBundle.Lexer
