import PyBundle.Proofs.FileSystem.Directories
import PyBundle.Proofs.Path.Folded

/-!
# Where the normal form of a path leads

A `..` leads up from where the name before it leads to, which is another directory than the one in which the name
stands if the name is the one of a link. The normal form of a path leads where the path does as long as each `..` that
is folded leads back (`place_normalize`), and it does where no link is folded (`foldsBack_of_noLink`).
-/

namespace PyBundle

open PyBundle.Path (Component bottom ofStack)

namespace FileSystem

variable {fs : FileSystem} {p q : Path} {here place : Place} {links more : Nat} {followLast : Bool}
  {names rest : List String} {spot : Spot} {kept below : List Component} {name : String}

/-! ## Names one after the other -/

/-- More links may be left than are gone through. -/
theorem Leads.of_le (enough : links ≤ more) (leads : fs.Leads followLast links here names spot) :
    fs.Leads followLast more here names spot := by
  induction leads generalizing more with
  | done => exact .done
  | blank silent _ ih => exact .blank silent (ih enough)
  | up _ ih => exact .up (ih enough)
  | vacant isName missing => exact .vacant isName missing
  | into isName inside _ ih => exact .into isName inside (ih enough)
  | file isName entry => exact .file isName entry
  | linkItself isName entry last => exact .linkItself isName entry last
  | through isName entry goesOn _ ih =>
    obtain ⟨more, rfl⟩ := Nat.exists_eq_add_of_lt (Nat.lt_of_succ_le enough)
    exact .through isName entry goesOn (ih (by omega))

/-- **Names on the way to a directory lead to a directory,** and whatever leads on from there leads on from the
names. -/
theorem Leads.exists_onward (start : fs.kind? here = some .directory) (directory : fs.kind? place = some .directory)
    (leads : fs.Leads true links here (names ++ rest) (.taken place)) :
    ∃ station left, left ≤ links ∧ fs.kind? station = some .directory ∧
      fs.Leads true left station rest (.taken place) ∧
      ∀ onward spot, fs.Leads true left station onward spot → fs.Leads true links here (names ++ onward) spot := by
  generalize whole : names ++ rest = all at leads
  generalize taken : Spot.taken place = spot at leads
  induction leads generalizing names with
  | @done links here =>
    obtain ⟨rfl, rfl⟩ := List.append_eq_nil_iff.mp whole
    exact ⟨here, links, Nat.le_refl _, start, .done, fun _ _ => id⟩
  | @blank links here name rest' spot silent onward ih =>
    cases names with
    | nil =>
      cases whole
      exact ⟨here, links, Nat.le_refl _, start, .blank silent onward, fun _ _ => id⟩
    | cons first names =>
      obtain ⟨rfl, behind⟩ := List.cons.inj whole
      obtain ⟨station, left, fewer, holds, later, goesOn⟩ := ih start behind taken
      exact ⟨station, left, fewer, holds, later, fun _ _ next => .blank silent (goesOn _ _ next)⟩
  | @up links here rest' spot onward ih =>
    cases names with
    | nil =>
      cases whole
      exact ⟨here, links, Nat.le_refl _, start, .up onward, fun _ _ => id⟩
    | cons first names =>
      obtain ⟨rfl, behind⟩ := List.cons.inj whole
      obtain ⟨station, left, fewer, holds, later, goesOn⟩ := ih (kind?_dropLast start) behind taken
      exact ⟨station, left, fewer, holds, later, fun _ _ next => .up (goesOn _ _ next)⟩
  | vacant => cases taken
  | @into links here name rest' spot isName inside onward ih =>
    cases names with
    | nil =>
      cases whole
      exact ⟨here, links, Nat.le_refl _, start, .into isName inside onward, fun _ _ => id⟩
    | cons first names =>
      obtain ⟨rfl, behind⟩ := List.cons.inj whole
      obtain ⟨station, left, fewer, holds, later, goesOn⟩ := ih inside behind taken
      exact ⟨station, left, fewer, holds, later, fun _ _ next => .into isName inside (goesOn _ _ next)⟩
  | file _ entry =>
    cases taken
    cases directory.symm.trans entry
  | linkItself _ _ last => cases last
  | @through links here name target rest' spot isName entry goesOn' onward ih =>
    cases names with
    | nil =>
      cases whole
      exact ⟨here, links + 1, Nat.le_refl _, start, .through isName entry goesOn' onward, fun _ _ => id⟩
    | cons first names =>
      obtain ⟨rfl, behind⟩ := List.cons.inj whole
      have start' : fs.kind? (targetStart here target) = some .directory := by
        unfold targetStart
        split
        · exact kind?_nil fs
        · exact start
      have split : (namesOf target ++ names) ++ rest = namesOf target ++ rest' := by
        rw [List.append_assoc, ← behind]
        rfl
      obtain ⟨station, left, fewer, holds, later, goesOn⟩ := ih start' split taken
      refine ⟨station, left, Nat.le_succ_of_le fewer, holds, later, fun onward spot next => ?_⟩
      exact .through isName entry (.inr rfl) (by simpa using goesOn _ _ next)

/-- A `..` leads on from the directory around. -/
theorem leads_up : fs.Leads followLast links here (".." :: rest) spot ↔
    fs.Leads followLast links here.dropLast rest spot := by
  have notBlank : isBlank ".." = false := by decide
  rw [← follow_eq_ok, ← follow_eq_ok, follow_cons, notBlank, if_neg Bool.false_ne_true, if_pos rfl]

/-- Names of directories are gone through without links. -/
theorem Leads.of_directories (proper : ∀ name ∈ names, IsFileName name)
    (inside : fs.kind? (here ++ names) = some .directory)
    (leads : fs.Leads followLast links here (names ++ rest) spot) :
    fs.Leads followLast links (here ++ names) rest spot := by
  induction names generalizing here with
  | nil => simpa using leads
  | cons name names ih =>
    obtain ⟨isName, others⟩ := List.forall_mem_cons.mp proper
    obtain ⟨notBlank, notUp⟩ := isBlank_of_isFileName isName
    have first := kind?_eq_directory_of_isPrefix inside ⟨names, List.append_assoc here [name] names⟩
    have split : here ++ name :: names = here ++ [name] ++ names := by simp
    rw [split] at inside ⊢
    rw [List.cons_append] at leads
    generalize behind : names ++ rest = later at leads
    cases leads with
    | blank silent _ => cases silent.symm.trans notBlank
    | up => exact absurd rfl notUp
    | vacant _ missing => cases first.symm.trans missing
    | into _ _ onward => exact ih others inside (behind ▸ onward)
    | file _ entry => cases first.symm.trans entry
    | linkItself _ entry _ => cases first.symm.trans entry
    | through _ entry _ _ => cases first.symm.trans entry

/-! ## Folding -/

/-- **Each `..` that is folded leads back:** a name that is taken back and the `..` behind it lead to where the name
stands. -/
def FoldsBack (fs : FileSystem) (p : Path) : Prop :=
  ∀ front rest name below, p.components = front ++ .up :: rest → front.foldl Component.climb [] = .name name :: below →
    ∀ place, fs.place (ofStack (.up :: .name name :: below)) = .ok place → fs.place (ofStack below) = .ok place

/-- **Steps lead somewhere in place of others:** what leads on from a place, leads on from these steps of a path. -/
def Trails (fs : FileSystem) (start : Place) (kept : List Component) (here : Place) (links : Nat) : Prop :=
  ∀ onward spot, fs.Leads true links here onward spot →
    fs.Leads true linkLimit start (kept.map Component.text ++ onward) spot

/-- Steps that lead somewhere lead there. -/
theorem Trails.leads {start : Place} (trails : fs.Trails start kept here links) :
    fs.Leads true linkLimit start (kept.map Component.text) (.taken here) := by
  simpa using trails [] _ .done

theorem Trails.of_le {start : Place} (trails : fs.Trails start kept here links) (enough : more ≤ links) :
    fs.Trails start kept here more := fun onward spot leads => trails onward spot (leads.of_le enough)

/-- **Where the steps of a path have led so far,** and where what is on the stack leads: to the same directory. All that
was on the stack below leads somewhere, too. -/
structure Follows (fs : FileSystem) (p : Path) (kept : List Component) (here : Place) (links : Nat) : Prop where
  directory : fs.kind? here = some .directory
  top : fs.Trails (fs.startOf p) kept here links
  inner : ∀ below, below <+: kept → ∃ station, fs.Trails (fs.startOf p) below station links

/-- A step that is put onto the stack leads where it leads from where the others have led. -/
theorem Follows.put {c : Component} {left : Nat} (follows : fs.Follows p kept here links) (fewer : left ≤ links)
    (directory : fs.kind? place = some .directory)
    (goesOn : ∀ onward spot, fs.Leads true left place onward spot →
      fs.Leads true links here ([c.text] ++ onward) spot) : fs.Follows p (kept ++ [c]) place left := by
  have top : fs.Trails (fs.startOf p) (kept ++ [c]) place left := fun onward spot leads => by
    simpa using follows.top _ spot (goesOn onward spot leads)
  refine ⟨directory, top, fun below before => ?_⟩
  rcases List.prefix_concat_iff.mp before with rfl | inside
  · exact ⟨place, top⟩
  · obtain ⟨station, trails⟩ := follows.inner below inside
    exact ⟨station, trails.of_le fewer⟩

/-- A name is taken back by the `..` behind it, if that leads back. -/
theorem Follows.pop {c : Component} (follows : fs.Follows p (below ++ [c]) here links)
    (back : fs.Leads true linkLimit (fs.startOf p) (below.map Component.text) (.taken here.dropLast)) :
    fs.Follows p below here.dropLast links := by
  obtain ⟨station, trails⟩ := follows.inner below (List.prefix_append _ _)
  cases back.unique trails.leads
  exact ⟨kind?_dropLast follows.directory, trails, fun inner before =>
    follows.inner inner (before.trans (List.prefix_append _ _))⟩

/-- **The path of a stack leads where its steps lead.** -/
theorem place_ofStack (usable : (ofStack (kept.reverse ++ bottom p.isAbsolute)).IsUsable)
    (inside : ∀ c ∈ kept, c ∈ p.steps) (start : fs.kind? (fs.startOf p) = some .directory)
    (directory : fs.kind? place = some .directory) :
    fs.place (ofStack (kept.reverse ++ bottom p.isAbsolute)) = .ok place ↔
      fs.Leads true linkLimit (fs.startOf p) (kept.map Component.text) (.taken place) := by
  obtain ⟨steps, -, absolute, -⟩ := Path.ofStack_spec inside p.isAbsolute
  have starts : fs.startOf (ofStack (kept.reverse ++ bottom p.isAbsolute)) = fs.startOf p := by
    unfold startOf
    rw [absolute]
  have way : (ofStack (kept.reverse ++ bottom p.isAbsolute)).way = kept.map Component.text := by
    unfold Path.way
    rw [steps]
  constructor
  · intro found
    have leads := leads_of_place found
    rwa [starts, way] at leads
  · intro leads
    refine place_of_leads usable ?_ ?_ directory
    · rwa [starts]
    · rwa [starts, way]

/-- What the fold of a `..` says of where steps lead. -/
theorem FoldsBack.leads {before later : List Component} (folds : fs.FoldsBack p) (usable : q.IsUsable)
    (absolute : q.isAbsolute = true) (sub : p.steps.Sublist q.steps)
    (start : fs.kind? (fs.startOf p) = some .directory) (steps : p.steps = before ++ .up :: later)
    (stack : before.foldl Component.climb (bottom p.isAbsolute) =
      (below ++ [Component.name name]).reverse ++ bottom p.isAbsolute)
    (fewer : (below ++ [Component.name name]).Sublist before) (directory : fs.kind? place = some .directory)
    (up : fs.Leads true linkLimit (fs.startOf p) ((below ++ [Component.name name] ++ [Component.up]).map Component.text)
      (.taken place)) :
    fs.Leads true linkLimit (fs.startOf p) (below.map Component.text) (.taken place) := by
  have whole : (below ++ [Component.name name] ++ [Component.up]).Sublist p.steps := by
    rw [steps]
    exact fewer.append (List.Sublist.cons_cons _ (List.nil_sublist _))
  have inner : below.Sublist p.steps := by
    rw [List.append_assoc] at whole
    exact (List.sublist_append_left _ _).trans whole
  have front : (p.lead ++ before).foldl Component.climb [] = .name name :: (below.reverse ++ bottom p.isAbsolute) := by
    rw [List.foldl_append, Path.foldl_lead, stack]
    simp
  have components : p.components = (p.lead ++ before) ++ .up :: later := by
    rw [Path.components_eq, steps, List.append_assoc]
  have twice : (below ++ [Component.name name] ++ [Component.up]).reverse ++ bottom p.isAbsolute =
      .up :: .name name :: (below.reverse ++ bottom p.isAbsolute) := by simp
  have found := (place_ofStack (Path.isUsable_ofStack usable (whole.trans sub) (.inl absolute))
    (fun c mem => whole.subset mem) start directory).mpr up
  rw [twice] at found
  have back := folds _ _ _ _ components front place found
  exact (place_ofStack (Path.isUsable_ofStack usable (inner.trans sub) (.inl absolute))
    (fun c mem => inner.subset mem) start directory).mp back

/-- **Steps lead where they are folded to.** The induction is on the steps that are to come, with the stack of those
before. -/
theorem exists_folded (usable : q.IsUsable) (absolute : q.isAbsolute = true) (sub : p.steps.Sublist q.steps)
    (start : fs.kind? (fs.startOf p) = some .directory) (folds : fs.FoldsBack p)
    (directory : fs.kind? place = some .directory) {before later : List Component} (steps : p.steps = before ++ later)
    (stack : before.foldl Component.climb (bottom p.isAbsolute) = kept.reverse ++ bottom p.isAbsolute)
    (fewer : kept.Sublist before) (follows : fs.Follows p kept here links)
    (leads : fs.Leads true links here (later.map Component.text) (.taken place)) :
    ∃ final : List Component,
      p.steps.foldl Component.climb (bottom p.isAbsolute) = final.reverse ++ bottom p.isAbsolute ∧
      final.Sublist p.steps ∧
      fs.Leads true linkLimit (fs.startOf p) (final.map Component.text) (.taken place) := by
  induction later generalizing before kept here links with
  | nil =>
    rw [List.append_nil] at steps
    rw [steps]
    exact ⟨kept, stack, fewer, by simpa using follows.top _ _ leads⟩
  | cons c later ih =>
    have mem : c ∈ p.steps := by simp [steps]
    have steps' : p.steps = (before ++ [c]) ++ later := by rw [steps, List.append_assoc, List.singleton_append]
    have areSteps : ∀ c ∈ kept, c.isStep = true := fun c mem =>
      Path.isStep_of_mem_steps (p := p) (by simp [steps, fewer.subset mem])
    have isStep : c = .up ∨ ∃ name, c = .name name :=
      (Path.eq_up_or_name mem).imp_right fun ⟨name, is, _⟩ => ⟨name, is⟩
    have folded : (before ++ [c]).foldl Component.climb (bottom p.isAbsolute) =
        Component.climb (kept.reverse ++ bottom p.isAbsolute) c := by
      rw [List.foldl_append, stack]
      rfl
    rcases Path.climb_cases kept p.isAbsolute areSteps isStep with
      put | ⟨rfl, isAbsolute, rfl, same⟩ | ⟨below, name, rfl, rfl, popped⟩
    · have leads : fs.Leads true links here ([c.text] ++ later.map Component.text) (.taken place) := leads
      obtain ⟨station, left, few, holds, onward, goesOn⟩ := leads.exists_onward follows.directory directory
      exact ih steps' (folded.trans put) (fewer.append (List.Sublist.refl [c])) (follows.put few holds goesOn) onward
    · have onward := leads_up.mp leads
      have root : here = [] := by
        have led := follows.top.leads
        unfold startOf at led
        rw [isAbsolute] at led
        cases led
        rfl
      subst root
      exact ih steps' (folded.trans same) (List.nil_sublist _) follows onward
    · have up : fs.Leads true linkLimit (fs.startOf p)
          ((below ++ [Component.name name] ++ [Component.up]).map Component.text) (.taken here.dropLast) := by
        rw [List.map_append]
        exact follows.top [".."] _ (leads_up.mpr .done)
      have back := folds.leads usable absolute sub start steps stack fewer (kind?_dropLast follows.directory) up
      have inner : below.Sublist (before ++ [.up]) :=
        ((List.sublist_append_left _ _).trans fewer).trans (List.sublist_append_left _ _)
      exact ih steps' (folded.trans popped) inner (follows.pop back) (leads_up.mp leads)

/-- **The normal form of a path leads where the path does,** as its absolute form says it, if each `..` that is folded
leads back. A relative path starts in a directory. -/
theorem place_normalize (proper : p.isAbsolute = false → ∀ name ∈ fs.workPlace, IsFileName name)
    (works : p.isAbsolute = false → fs.kind? fs.workPlace = some .directory) (made : fs.absolute p = .ok q)
    (folds : fs.FoldsBack p) (found : fs.place q = .ok place) (directory : fs.kind? place = some .directory) :
    fs.place p.normalize = .ok place := by
  have absolute : q.isAbsolute = true := isAbsolute_of_absolute made
  obtain ⟨usable, -, -⟩ := resolve_iff.mp (place_eq_ok.mp found)
  have told : q.steps = (if p.isAbsolute then [] else fs.workPath.steps) ++ p.steps := by
    unfold FileSystem.absolute at made
    split at made
    · rename_i made'
      cases made
      exact (Path.absolute?_spec (Path.isEmpty_of_isAbsolute fs.isAbsolute_workPath) made').1
    · cases made
  have leads := leads_of_place found
  have fromStart : fs.kind? (fs.startOf p) = some .directory ∧
      fs.Leads true linkLimit (fs.startOf p) p.way (.taken place) := by
    unfold startOf Path.way at leads ⊢
    rw [absolute, if_pos rfl, told] at leads
    cases start : p.isAbsolute with
    | true =>
      rw [start, if_pos rfl] at leads
      exact ⟨kind?_nil fs, leads⟩
    | false =>
      rw [start, if_neg Bool.false_ne_true, steps_workPath (proper start), List.map_append, List.map_map,
        Path.Component.text_comp_name, List.map_id] at leads
      rw [if_neg Bool.false_ne_true]
      exact ⟨works start, Leads.of_directories (proper start) (works start) leads⟩
  obtain ⟨start, leads⟩ := fromStart
  have sub : p.steps.Sublist q.steps := told ▸ List.sublist_append_right _ _
  have first : fs.Trails (fs.startOf p) [] (fs.startOf p) linkLimit := fun _ _ => id
  have follows : fs.Follows p [] (fs.startOf p) linkLimit := by
    refine ⟨start, first, fun below before => ?_⟩
    rw [List.prefix_nil.mp before]
    exact ⟨_, first⟩
  obtain ⟨final, stack, inner, led⟩ :=
    exists_folded usable absolute sub start folds directory (List.nil_append _).symm rfl (List.nil_sublist _) follows leads
  rw [Path.normalize_eq, stack]
  exact (place_ofStack (Path.isUsable_ofStack usable (inner.trans sub) (.inl absolute)) (fun c mem => inner.subset mem)
    start directory).mpr led

/-! ## Links -/

/-- Names with a `..` at their end lead to a directory, if they lead anywhere. -/
theorem Leads.directory_of_up (start : fs.kind? here = some .directory)
    (leads : fs.Leads true links here (names ++ [name, ".."]) (.taken place)) :
    fs.kind? place = some .directory := by
  have unended : EndOpen (names ++ [name, ".."]) := by
    intro last atEnd
    rw [List.getLast?_append] at atEnd
    cases atEnd
    rfl
  exact kind?_eq_directory.mpr (follow_open (kind?_eq_directory.mp start) unended (follow_eq_ok.mpr leads))

/-- From a name that is no link a `..` leads back. -/
theorem Leads.eq_of_noLink (isName : IsFileName name) (noLink : fs.NoLink (here ++ [name]))
    (leads : fs.Leads followLast links here [name, ".."] (.taken place)) : place = here := by
  obtain ⟨notBlank, notUp⟩ := isBlank_of_isFileName isName
  cases leads with
  | blank silent _ => cases silent.symm.trans notBlank
  | up => exact absurd rfl notUp
  | into _ _ up =>
    cases leads_up.mp up
    rw [List.dropLast_concat]
  | through _ entry _ _ => exact absurd entry (noLink _)

/-- **Where no link is folded, each `..` that is folded leads back.** -/
theorem foldsBack_of_noLink (free : ∀ front rest name below, p.components = front ++ .up :: rest →
    front.foldl Component.climb [] = .name name :: below →
      ∀ here, fs.place (ofStack below) = .ok here → fs.NoLink (here ++ [name])) : fs.FoldsBack p := by
  intro front rest name stack components folded place found
  obtain ⟨below, rfl, whole⟩ := Path.exists_below components folded
  have twice : (below ++ [Component.name name] ++ [Component.up]).reverse ++ bottom p.isAbsolute =
      .up :: .name name :: (below.reverse ++ bottom p.isAbsolute) := by simp
  have inner : below.Sublist p.steps := by
    rw [List.append_assoc] at whole
    exact (List.sublist_append_left _ _).trans whole
  obtain ⟨steps, -, absolute, -⟩ :=
    Path.ofStack_spec (fun c mem => whole.subset mem : ∀ c ∈ below ++ [Component.name name] ++ [Component.up], c ∈ p.steps)
      p.isAbsolute
  rw [twice] at steps absolute
  obtain ⟨usable, start, -⟩ := resolve_iff.mp (place_eq_ok.mp found)
  have starts : fs.startOf (ofStack (.up :: .name name :: (below.reverse ++ bottom p.isAbsolute))) = fs.startOf p := by
    unfold startOf
    rw [absolute]
  have leads := leads_of_place found
  unfold Path.way at leads
  rw [starts, steps, List.append_assoc, List.map_append] at leads
  rw [starts] at start
  obtain ⟨here, left, -, holds, onward, goesOn⟩ := leads.exists_onward start (leads.directory_of_up start)
  have led : fs.Leads true linkLimit (fs.startOf p) (below.map Component.text) (.taken here) := by
    simpa using goesOn [] _ .done
  have usable' : (ofStack (below.reverse ++ bottom p.isAbsolute)).IsUsable := by
    refine Path.isUsable_ofStack usable ?_ ?_
    · rw [steps, List.append_assoc]
      exact List.sublist_append_left _ _
    · rw [absolute]
      cases p.isAbsolute <;> simp
  have back := (place_ofStack usable' (fun c mem => inner.subset mem) start holds).mpr led
  have isName : IsFileName name := isFileName_of_mem_steps (p := p) (whole.subset (by simp))
  have same : place = here := onward.eq_of_noLink isName (free front rest name _ components folded here back)
  rwa [same]

end FileSystem

end PyBundle
