import PyBundle.Proofs.Path.Components

/-!
# The parent and the name of a path

A path that ends in a name is its parent with that name behind it. The parent drops what says nothing, so
joined again it says the same and is not longer.
-/

namespace PyBundle.Path

variable {p q : Path} {pieces : List (List Char)} {piece : List Char}

/-- What is dropped at the end is no component. -/
theorem exists_dropBlankEnd_append (pieces : List (List Char)) :
    ∃ blank, pieces = dropBlankEnd pieces ++ blank ∧ ∀ b ∈ blank, Component.ofPiece? b = none := by
  unfold dropBlankEnd
  let isBlank (b : List Char) : Bool := (Component.ofPiece? b).isNone
  refine ⟨(pieces.reverse.takeWhile isBlank).reverse, ?_, fun b mem => ?_⟩
  · rw [← List.reverse_append, List.takeWhile_append_dropWhile, List.reverse_reverse]
  · have blank := List.all_eq_true.mp (List.all_takeWhile (p := isBlank)) b (List.mem_reverse.mp mem)
    exact Option.isNone_iff_eq_none.mp blank

/-- Nothing is dropped behind a component. -/
theorem dropBlankEnd_concat (is : (Component.ofPiece? piece).isNone = false) :
    dropBlankEnd (pieces ++ [piece]) = pieces ++ [piece] := by
  unfold dropBlankEnd
  rw [List.reverse_append, List.reverse_singleton, List.singleton_append,
    List.dropWhile_cons_of_neg (by rw [is]; exact Bool.false_ne_true), List.reverse_cons,
    List.reverse_reverse]

/-- What is dropped has no steps. -/
theorem filterMap_dropBlankEnd (pieces : List (List Char)) :
    (dropBlankEnd pieces).filterMap Component.ofPiece? = pieces.filterMap Component.ofPiece? := by
  obtain ⟨blank, split, none⟩ := exists_dropBlankEnd_append pieces
  conv => rhs; rw [split]
  rw [List.filterMap_append, List.filterMap_eq_nil_iff.mpr none, List.append_nil]

/-- **An absolute path that ends in a name, taken apart:** pieces after the first slash, and the name. -/
theorem exists_pieces_of_endsInName (absolute : p.isAbsolute = true) (ends : p.EndsInName) :
    ∃ before piece, p.pieces = [] :: (before ++ [piece]) ∧
      Component.ofPiece? piece = some (.name (String.ofList piece)) ∧ '/' ∉ piece := by
  obtain ⟨piece, name, last, is⟩ := ends
  obtain ⟨rest, pieces⟩ := exists_pieces_of_isAbsolute absolute
  rw [pieces] at last
  rcases List.eq_nil_or_concat rest with rfl | ⟨before, piece', rfl⟩
  · cases last
    cases is
  · rw [List.concat_eq_append] at last pieces
    rw [← List.cons_append, List.getLast?_concat] at last
    cases last
    have text : name = String.ofList piece := Component.text_of_ofPiece? is
    refine ⟨before, piece, pieces, text ▸ is, ?_⟩
    refine slash_notMem_of_mem_pieces (p := p) ?_
    rw [pieces]
    exact List.mem_cons_of_mem _ (List.mem_append_right _ (List.mem_singleton_self _))

/-- Such a path is written as its pieces. -/
theorem text_eq_of_pieces_eq (split : p.pieces = [] :: pieces) (some : pieces ≠ []) :
    p.text = "/" ++ joinPieces pieces := by
  unfold joinPieces
  rw [← String.toList_inj, String.toList_append, String.toList_intercalate, List.map_map, Text.toList_comp_ofList,
    List.map_id, ← intercalate_pieces, split, List.intercalate_cons_of_ne_nil some]
  rfl

/-- The path that the pieces before a name make up. -/
def parentOf (before : List (List Char)) : Path := ⟨"/" ++ joinPieces (dropBlankEnd before)⟩

/-- **The parent of such a path** is made of the pieces before the name. -/
theorem parent?_eq {before : List (List Char)} (absolute : p.isAbsolute = true)
    (split : p.pieces = [] :: (before ++ [piece])) (is : (Component.ofPiece? piece).isNone = false) :
    p.parent? = some (parentOf before) := by
  unfold parent? parentOf
  rw [split]
  dsimp only
  rw [absolute, if_pos rfl, if_pos rfl, dropBlankEnd_concat is, List.reverse_append,
    List.reverse_singleton, List.singleton_append]
  dsimp only
  rw [List.reverse_reverse]

/-- The name of such a path is its last piece. -/
theorem fileName?_eq {front : List (List Char)} {name : String} (split : p.pieces = front ++ [piece])
    (is : Component.ofPiece? piece = some (.name name)) : p.fileName? = some name := by
  have steps : p.steps = front.filterMap Component.ofPiece? ++ [.name name] := by
    unfold steps
    rw [split, List.filterMap_append, List.filterMap_cons_some is, List.filterMap_nil]
  unfold fileName?
  rw [components_eq, steps, ← List.append_assoc, List.getLast?_concat]
  rfl

theorem exists_fileName? (ends : p.EndsInName) : ∃ name, p.fileName? = some name := by
  obtain ⟨piece, name, last, is⟩ := ends
  obtain ⟨front, split⟩ := List.getLast?_eq_some_iff.mp last
  exact ⟨name, fileName?_eq split is⟩

/-- A path whose pieces are no components has no steps, and pieces that have no slash are its own. -/
theorem steps_of_text {pieces : List (List Char)} (free : ∀ piece ∈ pieces, '/' ∉ piece) :
    steps ⟨"/" ++ joinPieces pieces⟩ = pieces.filterMap Component.ofPiece? := by
  unfold steps Path.pieces joinPieces
  rw [String.toList_append, String.toList_intercalate, List.map_map, Text.toList_comp_ofList, List.map_id]
  show (('/' :: ['/'].intercalate pieces).splitOn '/').filterMap _ = _
  rw [List.splitOn_cons_eq_if_modifyHead, if_pos (beq_self_eq_true '/'), List.filterMap_cons_none rfl]
  cases pieces with
  | nil => rfl
  | cons first rest => rw [List.splitOn_intercalate '/' free (List.cons_ne_nil _ _)]

/-- Pieces without some at their end are not written longer. -/
theorem utf8ByteSize_joinPieces_le (front back : List (List Char)) :
    (joinPieces front).utf8ByteSize ≤ (joinPieces (front ++ back)).utf8ByteSize := by
  unfold joinPieces
  rw [List.map_append]
  rcases List.eq_nil_or_concat front with rfl | ⟨_, _, rfl⟩
  · rw [List.map_nil, String.intercalate_nil, String.utf8ByteSize_empty]
    exact Nat.zero_le _
  · cases back with
    | nil => exact Nat.le_of_eq (by rw [List.map_nil, List.append_nil])
    | cons piece back =>
      rw [String.intercalate_append_of_ne_nil (by simp) (by simp), String.utf8ByteSize_append,
        String.utf8ByteSize_append, Nat.add_assoc]
      exact Nat.le_add_right _ _

/-- A joined path is at most a slash longer than what is joined. -/
theorem utf8ByteSize_join_le (p q : Path) :
    (p.join q).text.utf8ByteSize ≤ p.text.utf8ByteSize + 1 + q.text.utf8ByteSize := by
  cases absolute : q.isAbsolute with
  | true =>
    rw [join_of_isAbsolute absolute]
    exact Nat.le_add_left _ _
  | false =>
    obtain ⟨between, slash, text⟩ := exists_text_join p absolute
    have short : between.utf8ByteSize ≤ 1 := by rcases slash with rfl | rfl <;> decide
    rw [text, String.utf8ByteSize_append, String.utf8ByteSize_append]
    omega

/-- A piece behind others is written behind a slash. -/
theorem utf8ByteSize_joinPieces_concat {front : List (List Char)} (some : front ≠ []) (piece : List Char) :
    (joinPieces (front ++ [piece])).utf8ByteSize =
      (joinPieces front).utf8ByteSize + 1 + (String.ofList piece).utf8ByteSize := by
  unfold joinPieces
  rw [List.map_append, String.intercalate_append_of_ne_nil (by simpa using some) (by simp),
    List.map_singleton, String.intercalate_singleton, String.utf8ByteSize_append, String.utf8ByteSize_append]
  rfl

theorem isAbsolute_parentOf (before : List (List Char)) : (parentOf before).isAbsolute = true := by
  unfold isAbsolute parentOf
  rw [String.toList_append]
  rfl

/-- What has no slash is a relative path. -/
theorem isAbsolute_ofList (free : '/' ∉ piece) : isAbsolute ⟨String.ofList piece⟩ = false := by
  unfold isAbsolute
  rw [String.toList_ofList]
  exact beq_false_of_ne fun head => free (List.mem_of_head? head)

/-- What has no slash is one piece. -/
theorem pieces_ofList (free : '/' ∉ piece) : Path.pieces ⟨String.ofList piece⟩ = [piece] := by
  unfold Path.pieces
  rw [String.toList_ofList, List.splitOn_eq_singleton free]

/-- The parent has the steps of its path but the last one. -/
theorem steps_parentOf {before : List (List Char)} (split : p.pieces = ([] :: before) ++ [piece]) :
    (parentOf before).steps = before.filterMap Component.ofPiece? := by
  have free : ∀ b ∈ dropBlankEnd before, '/' ∉ b := by
    intro b mem
    obtain ⟨blank, all, -⟩ := exists_dropBlankEnd_append before
    refine slash_notMem_of_mem_pieces (p := p) ?_
    rw [split, all]
    exact List.mem_append_left _ (List.mem_cons_of_mem _ (List.mem_append_left _ mem))
  unfold parentOf
  rw [steps_of_text free, filterMap_dropBlankEnd]

/-- The parent and the name say the same as the path. -/
theorem parentOf_join_sameAs {before : List (List Char)} (absolute : p.isAbsolute = true)
    (split : p.pieces = ([] :: before) ++ [piece])
    (is : Component.ofPiece? piece = some (.name (String.ofList piece))) (free : '/' ∉ piece) :
    ((parentOf before).join ⟨String.ofList piece⟩).sameAs p = true := by
  have rootAbsolute := isAbsolute_parentOf before
  have relative := isAbsolute_ofList free
  have name : steps ⟨String.ofList piece⟩ = [.name (String.ofList piece)] := by
    unfold steps
    rw [pieces_ofList free, List.filterMap_cons_some is, List.filterMap_nil]
  refine sameAs_iff.mpr ⟨(lead_join rootAbsolute).trans (isAbsolute_iff_lead.mp absolute).symm, ?_⟩
  rw [steps_join (isEmpty_of_isAbsolute rootAbsolute) relative, steps_parentOf split, name]
  unfold steps
  rw [split, List.filterMap_append, List.filterMap_cons_none rfl, List.filterMap_cons_some is,
    List.filterMap_nil]

/-- The parent and the name are not longer than the path. -/
theorem utf8ByteSize_parentOf_join_le {before : List (List Char)}
    (text : p.text = "/" ++ joinPieces (before ++ [piece])) (free : '/' ∉ piece) :
    ((parentOf before).join ⟨String.ofList piece⟩).text.utf8ByteSize ≤ p.text.utf8ByteSize := by
  obtain ⟨blank, all, -⟩ := exists_dropBlankEnd_append before
  rw [text, String.utf8ByteSize_append]
  unfold parentOf
  by_cases kept : dropBlankEnd before = []
  · -- The parent is the root, whose slash is not written twice.
    have joined : (join ⟨"/" ++ joinPieces []⟩ ⟨String.ofList piece⟩).text =
        "/" ++ joinPieces [] ++ String.ofList piece := by
      unfold join
      rw [isAbsolute_ofList free, if_neg (by decide), if_pos (by decide)]
    rw [kept, joined, String.utf8ByteSize_append]
    refine Nat.add_le_add_left ?_ _
    by_cases none : before = []
    · rw [none]
      exact Nat.le_refl _
    · rw [utf8ByteSize_joinPieces_concat none]
      exact Nat.le_add_left _ _
  · have some : before ≠ [] := fun none => kept (by rw [none]; rfl)
    have shorter := utf8ByteSize_joinPieces_le (dropBlankEnd before) blank
    rw [← all] at shorter
    have joined := utf8ByteSize_join_le ⟨"/" ++ joinPieces (dropBlankEnd before)⟩ ⟨String.ofList piece⟩
    rw [utf8ByteSize_joinPieces_concat some]
    dsimp only at joined
    rw [String.utf8ByteSize_append] at joined
    omega

/-- **An absolute path that ends in a name is its parent with that name behind it,** written no longer. -/
theorem exists_parent_join (absolute : p.isAbsolute = true) (ends : p.EndsInName) :
    ∃ root name, p.parent? = some root ∧ p.fileName? = some name ∧
      (root.join ⟨name⟩).EndsInName ∧ (root.join ⟨name⟩).sameAs p = true ∧
      (root.join ⟨name⟩).text.utf8ByteSize ≤ p.text.utf8ByteSize := by
  obtain ⟨before, piece, split, is, free⟩ := exists_pieces_of_endsInName absolute ends
  have split' : p.pieces = ([] :: before) ++ [piece] := split
  have text : p.text = "/" ++ joinPieces (before ++ [piece]) :=
    text_eq_of_pieces_eq split (List.concat_ne_nil _ _)
  exact ⟨parentOf before, String.ofList piece, parent?_eq absolute split (by rw [is]; rfl), fileName?_eq split' is,
    (endsInName_join (isAbsolute_parentOf before)).mpr ⟨piece, _, by rw [pieces_ofList free]; rfl, is⟩,
    parentOf_join_sameAs absolute split' is free, utf8ByteSize_parentOf_join_le text free⟩

end PyBundle.Path
