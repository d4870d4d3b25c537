import Mathlib.Data.List.Nodup
import Mathlib.Data.List.Perm.Basic
import Mathlib.Data.List.Sublists
import Mathlib.Data.String.Basic

/-!
# Sorting by a text

Things are put into the order of a text that belongs to each of them. Those whose texts are the same stay in the order
in which they are given, so what is sorted stays as it is when it is sorted again (`mergeSort_mergeSort`), and the
order in which they are given does not count where no two of them have the same text (`mergeSort_eq`). Two that have
the same text change places when they are given the other way round, and nothing else does
(`exists_mergeSort_swap`).
-/

namespace PyBundle.Text

variable {α : Type} (key : α → String) {a b c : α} {l others : List α}

/-- **Whether the text of one thing comes before that of another or with it.** -/
def keyBefore (a b : α) : Bool := !decide (key b < key a)

theorem keyBefore_iff : keyBefore key a b = true ↔ key a ≤ key b := by
  unfold keyBefore
  rw [Bool.not_eq_true', decide_eq_false_iff_not, String.not_lt]

theorem keyBefore_trans (a b c : α) (first : keyBefore key a b = true) (second : keyBefore key b c = true) :
    keyBefore key a c = true :=
  (keyBefore_iff key).mpr (String.le_trans ((keyBefore_iff key).mp first) ((keyBefore_iff key).mp second))

theorem keyBefore_total (a b : α) : (keyBefore key a b || keyBefore key b a) = true := by
  rw [Bool.or_eq_true, keyBefore_iff, keyBefore_iff]
  exact String.le_total _ _

/-- **What is sorted is in order.** -/
theorem pairwise_mergeSort (l : List α) : (l.mergeSort (keyBefore key)).Pairwise fun a b => key a ≤ key b :=
  (List.pairwise_mergeSort (keyBefore_trans key) (keyBefore_total key) l).imp (keyBefore_iff key).mp

/-- Sorting what is sorted changes nothing. -/
theorem mergeSort_mergeSort (l : List α) :
    (l.mergeSort (keyBefore key)).mergeSort (keyBefore key) = l.mergeSort (keyBefore key) :=
  List.mergeSort_of_pairwise ((pairwise_mergeSort key l).imp (keyBefore_iff key).mpr)

/-- **Things with the same text stay in the order in which they are given.** -/
theorem filter_mergeSort (l : List α) (text : String) :
    ((l.mergeSort (keyBefore key)).filter fun a => key a == text) = l.filter fun a => key a == text := by
  have alike : (l.filter fun a => key a == text).Pairwise fun a b => keyBefore key a b = true := by
    refine List.pairwise_of_forall_mem_list fun a mem b mem' => (keyBefore_iff key).mpr ?_
    rw [beq_iff_eq.mp (List.mem_filter.mp mem).2, beq_iff_eq.mp (List.mem_filter.mp mem').2]
  have inside := List.sublist_mergeSort (keyBefore_trans key) (keyBefore_total key) alike List.filter_sublist
  have kept := inside.filter fun a => key a == text
  simp only [List.filter_filter, Bool.and_self] at kept
  refine (kept.eq_of_length ?_).symm
  exact ((List.mergeSort_perm l (keyBefore key)).filter _).length_eq.symm

/-- **The order in which things are given does not count** where no two of them have the same text. -/
theorem mergeSort_eq (nodup : l.Nodup) (nodup' : others.Nodup) (same : ∀ a, a ∈ others ↔ a ∈ l)
    (apart : ∀ a ∈ l, ∀ b ∈ l, key a = key b → a = b) :
    others.mergeSort (keyBefore key) = l.mergeSort (keyBefore key) := by
  refine List.Perm.eq_of_pairwise ?_ (pairwise_mergeSort key others) (pairwise_mergeSort key l) ?_
  · intro a b mem mem' first second
    have inside := (same a).mp ((List.mergeSort_perm others _).mem_iff.mp mem)
    have inside' := (List.mergeSort_perm l _).mem_iff.mp mem'
    exact apart a inside b inside' (String.le_antisymm first second)
  · exact (List.mergeSort_perm others _).trans
      (((List.perm_ext_iff_of_nodup nodup' nodup).mpr same).trans (List.mergeSort_perm l _).symm)

/-- Whether the text of a thing comes before a text. -/
def below (text : String) (a : α) : Bool := decide (key a < text)

/-- Where the texts that come before a text end. -/
theorem span_below (text : String) (before after : List α) (less : ∀ a ∈ before, below key text a = true)
    (level : ∀ a ∈ after.head?, below key text a = false) :
    (before ++ after).takeWhile (below key text) = before ∧ (before ++ after).dropWhile (below key text) = after := by
  rw [List.takeWhile_append_of_pos less, List.dropWhile_append_of_pos less]
  cases after with
  | nil => exact ⟨List.append_nil before, rfl⟩
  | cons a after =>
    have stop : ¬below key text a = true := Bool.not_eq_true _ ▸ level a rfl
    rw [List.takeWhile_cons_of_neg stop, List.dropWhile_cons_of_neg stop]
    exact ⟨List.append_nil before, rfl⟩

/-- **A thing is put behind those whose texts come before its own,** and before all others. -/
theorem mergeSort_cons (a : α) (l : List α) :
    (a :: l).mergeSort (keyBefore key) =
      (l.mergeSort (keyBefore key)).takeWhile (below key (key a)) ++
        a :: (l.mergeSort (keyBefore key)).dropWhile (below key (key a)) := by
  obtain ⟨before, after, put, rest, less⟩ := List.mergeSort_cons (keyBefore_trans key) (keyBefore_total key) a l
  have inOrder := pairwise_mergeSort key (a :: l)
  rw [put, List.pairwise_append, List.pairwise_cons] at inOrder
  obtain ⟨first, second⟩ := span_below key (key a) before after
    (fun b mem => Bool.not_not (below key (key a) b) ▸ less b mem)
    (fun b mem => decide_eq_false (String.not_lt.mpr (inOrder.2.1.1 b (List.mem_of_mem_head? mem))))
  rw [put, rest, first, second]

/-- **Two things with the same text change places when they are given the other way round,** and all others stay. -/
theorem exists_mergeSort_swap (alike : key a = key b) (l : List α) :
    ∃ before after, (a :: b :: l).mergeSort (keyBefore key) = before ++ a :: b :: after ∧
      (b :: a :: l).mergeSort (keyBefore key) = before ++ b :: a :: after := by
  let front := (l.mergeSort (keyBefore key)).takeWhile (below key (key a))
  let back := (l.mergeSort (keyBefore key)).dropWhile (below key (key a))
  have span (c : α) (same : key c = key a) := span_below key (key a) front (c :: back)
    (fun d mem => List.all_eq_true.mp List.all_takeWhile d mem)
    (fun d mem => decide_eq_false (Option.some.inj mem ▸ same ▸ String.lt_irrefl _))
  refine ⟨front, back, ?_, ?_⟩
  · rw [mergeSort_cons key a, mergeSort_cons key b, ← alike, (span b alike.symm).1, (span b alike.symm).2]
  · rw [mergeSort_cons key b, mergeSort_cons key a, ← alike, (span a rfl).1, (span a rfl).2]

/-- A text that may change places with each of several ones may be moved over all of them. -/
theorem join_append_comm {text : String} {texts : List String} (comm : ∀ t ∈ texts, t ++ text = text ++ t) :
    String.join texts ++ text = text ++ String.join texts := by
  induction texts with
  | nil => rw [String.join_nil, String.empty_append, String.append_empty]
  | cons t texts ih =>
    rw [String.join_cons, String.append_assoc, ih fun u mem => comm u (List.mem_cons_of_mem t mem),
      ← String.append_assoc, comm t List.mem_cons_self, String.append_assoc]

/-- **Texts of things in order are joined to one text,** in whatever order those stand that have the same place, if
their texts may change places. -/
theorem join_eq_of_perm (text : α → String) (perm : l.Perm others) (inOrder : l.Pairwise fun a b => key a ≤ key b)
    (inOrder' : others.Pairwise fun a b => key a ≤ key b)
    (comm : ∀ a ∈ l, ∀ b ∈ l, key a = key b → text a ++ text b = text b ++ text a) :
    String.join (l.map text) = String.join (others.map text) := by
  induction l generalizing others with
  | nil => rw [List.nil_perm.mp perm]
  | cons a l ih =>
    obtain ⟨before, after, rfl⟩ := List.append_of_mem (perm.subset List.mem_cons_self)
    have rest : l.Perm (before ++ after) := (perm.trans List.perm_middle).cons_inv
    have moved : String.join (before.map text) ++ text a = text a ++ String.join (before.map text) := by
      refine join_append_comm fun t mem => ?_
      obtain ⟨b, placed, rfl⟩ := List.mem_map.mp mem
      have inside : b ∈ l := rest.mem_iff.mpr (List.mem_append_left after placed)
      have least : key a ≤ key b := (List.pairwise_cons.mp inOrder).1 b inside
      have most : key b ≤ key a := (List.pairwise_append.mp inOrder').2.2 b placed a List.mem_cons_self
      exact comm b (List.mem_cons_of_mem a inside) a List.mem_cons_self (String.le_antisymm most least)
    have left := ih rest (List.pairwise_cons.mp inOrder).2
      (inOrder'.sublist ((List.sublist_cons_self a after).append_left before))
      fun b mem c mem' => comm b (List.mem_cons_of_mem a mem) c (List.mem_cons_of_mem a mem')
    rw [List.map_cons, String.join_cons, left, List.map_append, List.map_append, List.map_cons, String.join_append,
      String.join_append, String.join_cons, ← String.append_assoc, ← moved, String.append_assoc]

end PyBundle.Text
