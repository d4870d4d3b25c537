import PyBundle.Proofs.FileSystem.Lacking
import PyBundle.Proofs.FileSystem.Trail

/-!
# What the names of a path may touch

`FileSystem.Touches` says at which places names may be looked up, through whatever links are on their way. It is told by
one file system, the ground, and holds for all that a run makes of the ground, as long as no links come to it and
no directories where it has something else (`FileSystem.Guides`): names that are followed there are looked up at places
that they touch (`Leads.touches`). So a path that touches no entry that is gone leads to the same spot whether or not
entries are gone (`Lacks.resolve_eq`).
-/

namespace PyBundle.FileSystem

variable {ground fs fs' : FileSystem} {here place q : Place} {name target : String}
  {names others rest front back : List String} {p around : Path} {gone : Place → Bool} {followLast : Bool} {links : Nat}
  {spot : Spot}

/-- **A place that names may touch** from a directory on: the directory itself, the entries that are looked up, and what
the names behind them touch, in a directory or where nothing is, and behind the target of a link. -/
inductive Touches (ground : FileSystem) : Place → List String → Place → Prop where
  | here {here : Place} {names : List String} : Touches ground here names here
  | blank {here q : Place} {name : String} {rest : List String} (silent : isBlank name = true)
      (onward : Touches ground here rest q) : Touches ground here (name :: rest) q
  | up {here q : Place} {rest : List String} (onward : Touches ground here.dropLast rest q) :
      Touches ground here (".." :: rest) q
  | entry {here : Place} {name : String} {rest : List String} (said : isBlank name = false) (notUp : name ≠ "..") :
      Touches ground here (name :: rest) (here ++ [name])
  | into {here q : Place} {name : String} {rest : List String} (said : isBlank name = false) (notUp : name ≠ "..")
      (unbarred : ∀ k, ground.kind? (here ++ [name]) = some k → k = .directory)
      (onward : Touches ground (here ++ [name]) rest q) : Touches ground here (name :: rest) q
  | through {here q : Place} {name target : String} {rest : List String} (said : isBlank name = false)
      (notUp : name ≠ "..") (entry : ground.kind? (here ++ [name]) = some (.link target))
      (onward : Touches ground (targetStart here target) (namesOf target ++ rest) q) :
      Touches ground here (name :: rest) q

/-- Names that say nothing touch nothing. -/
theorem Touches.behind_blank (blank : ∀ name ∈ front, isBlank name = true) (touches : ground.Touches here names q) :
    ground.Touches here (front ++ names) q := by
  induction front with
  | nil => exact touches
  | cons name rest ih =>
    obtain ⟨silent, others⟩ := List.forall_mem_cons.mp blank
    exact .blank silent (ih others)

/-- Names start with some that say nothing if those that say something start with a name. -/
theorem exists_blank_of_filter (said : isBlank name = false)
    (same : others.filter (fun name => !isBlank name) = (name :: rest).filter fun name => !isBlank name) :
    ∃ front back, others = front ++ name :: back ∧ (∀ name ∈ front, isBlank name = true) ∧
      back.filter (fun name => !isBlank name) = rest.filter fun name => !isBlank name := by
  rw [List.filter_cons_of_pos (by simp [said])] at same
  obtain ⟨front, back, split, blank, -, behind⟩ := List.filter_eq_cons_iff.mp same
  exact ⟨front, back, split, fun name mem => by simpa using blank name mem, behind⟩

/-- **Names touch what other names do that say the same.** -/
theorem Touches.of_filter (touches : ground.Touches here names q)
    (same : others.filter (fun name => !isBlank name) = names.filter fun name => !isBlank name) :
    ground.Touches here others q := by
  induction touches generalizing others with
  | here => exact .here
  | blank silent _ ih => exact ih (same.trans (List.filter_cons_of_neg (by simp [silent])))
  | up _ ih =>
    obtain ⟨front, back, rfl, blank, behind⟩ := exists_blank_of_filter (by decide) same
    exact .behind_blank blank (.up (ih behind))
  | entry said notUp =>
    obtain ⟨front, back, rfl, blank, -⟩ := exists_blank_of_filter said same
    exact .behind_blank blank (.entry said notUp)
  | into said notUp unbarred _ ih =>
    obtain ⟨front, back, rfl, blank, behind⟩ := exists_blank_of_filter said same
    exact .behind_blank blank (.into said notUp unbarred (ih behind))
  | through said notUp entry _ ih =>
    obtain ⟨front, back, rfl, blank, behind⟩ := exists_blank_of_filter said same
    refine .behind_blank blank (.through said notUp entry (ih ?_))
    rw [List.filter_append, List.filter_append, behind]

/-- Names touch what those at their front touch. -/
theorem Touches.append (touches : ground.Touches here front q) (back : List String) :
    ground.Touches here (front ++ back) q := by
  induction touches with
  | here => exact .here
  | blank silent _ ih => exact .blank silent ih
  | up _ ih => exact .up ih
  | entry said notUp => exact .entry said notUp
  | into said notUp unbarred _ ih => exact .into said notUp unbarred ih
  | through said notUp entry _ ih =>
    rw [List.append_assoc] at ih
    exact .through said notUp entry ih

/-- **A name that nobody says is at no place that is touched:** it is not among the names, nor on the way to where they
start, nor among those that a link leads through. -/
theorem Touches.notMem (touches : ground.Touches here names q) (start : name ∉ here) (unsaid : name ∉ names)
    (targets : ∀ place target, ground.kind? place = some (.link target) → name ∉ namesOf target) : name ∉ q := by
  have further : ∀ {here : Place} {other rest}, name ∉ here → name ∉ other :: rest → name ∉ here ++ [other] := by
    intro here other rest start unsaid mem
    rcases List.mem_append.mp mem with inside | last
    · exact start inside
    · exact unsaid (List.mem_singleton.mp last ▸ List.mem_cons_self)
  have behind : ∀ {other : String} {rest}, name ∉ other :: rest → name ∉ rest := fun unsaid mem =>
    unsaid (List.mem_cons_of_mem _ mem)
  induction touches with
  | here => exact start
  | blank _ _ ih => exact ih start (behind unsaid)
  | up _ ih => exact ih (fun mem => start ((List.dropLast_sublist _).subset mem)) (behind unsaid)
  | entry _ _ => exact further start unsaid
  | into _ _ _ _ ih => exact ih (further start unsaid) (behind unsaid)
  | through _ _ entry _ ih =>
    refine ih ?_ fun mem => ?_
    · unfold targetStart
      split
      · exact List.not_mem_nil
      · exact start
    · exact (List.mem_append.mp mem).elim (targets _ _ entry) (behind unsaid)

/-! ## What the ground tells -/

/-- **What names touch in the ground is what they may be looked up at in a file system:** the ground has all of its
links, and where it has a directory, the ground has one or nothing. -/
structure Guides (ground fs : FileSystem) : Prop where
  workPlace : fs.workPlace = ground.workPlace
  link : ∀ {q : Place} {target : String}, fs.kind? q = some (.link target) → ground.kind? q = some (.link target)
  unbarred : ∀ {q : Place}, fs.kind? q = some .directory → ∀ k, ground.kind? q = some k → k = .directory

theorem Within.guides (fewer : fs.Within ground) : ground.Guides fs where
  workPlace := fewer.workPlace.symm
  link := fewer.kind
  unbarred := by
    intro q directory k entry
    exact Option.some.inj (entry.symm.trans (fewer.kind directory))

theorem Guides.startOf_eq (guides : ground.Guides fs) (p : Path) : fs.startOf p = ground.startOf p := by
  unfold startOf
  rw [guides.workPlace]

/-- **Names lead to a place that they touch.** -/
theorem Leads.touches (guides : ground.Guides fs) (leads : fs.Leads followLast links here names spot) :
    ground.Touches here names spot.place := by
  induction leads with
  | done => exact .here
  | blank silent _ ih => exact .blank silent ih
  | up _ ih => exact .up ih
  | vacant isName _ => exact .entry isName.notBlank isName.notUp
  | into isName inside _ ih => exact .into isName.notBlank isName.notUp (guides.unbarred inside) ih
  | file isName _ => exact .entry isName.notBlank isName.notUp
  | linkItself isName _ _ => exact .entry isName.notBlank isName.notUp
  | through isName entry _ _ ih => exact .through isName.notBlank isName.notUp (guides.link entry) ih

/-! ## Names that touch nothing that is gone -/

/-- **Names are followed alike where entries are gone that they do not touch.** -/
theorem Lacks.follow_eq (lacks : fs.Lacks gone fs') (guides : ground.Guides fs)
    (spared : ∀ q, ground.Touches here names q → Spared gone q) :
    fs'.follow followLast links here names = fs.follow followLast links here names := by
  -- The names shrink, except where a link is gone through, and then the links do.
  induction links using Nat.strong_induction_on generalizing here names with
  | _ links throughLink =>
    induction names generalizing here with
    | nil => rw [follow_nil, follow_nil]
    | cons name rest ih =>
      rw [follow_cons, follow_cons]
      by_cases silent : isBlank name = true
      · rw [if_pos silent, if_pos silent]
        exact ih fun q touches => spared q (.blank silent touches)
      · rw [if_neg silent, if_neg silent]
        by_cases up : name = ".."
        · rw [if_pos up, if_pos up]
          subst up
          exact ih fun q touches => spared q (.up touches)
        · rw [if_neg up, if_neg up]
          have said : isBlank name = false := Bool.eq_false_iff.mpr silent
          rw [lacks.kept (spared _ (.entry said up))]
          split
          · rfl
          · split
            · rfl
            · rename_i directory
              exact ih fun q touches => spared q (.into said up (guides.unbarred directory) touches)
            · rfl
            · rename_i target entry
              split
              · rfl
              · cases links with
                | zero => rfl
                | succ links =>
                  exact throughLink links (Nat.lt_succ_self _) fun q touches =>
                    spared q (.through said up (guides.link entry) touches)

/-- **A path avoids what is gone** if no entry that it touches is gone or below one that is. -/
def Avoids (ground : FileSystem) (gone : Place → Bool) (p : Path) : Prop :=
  ∀ q, ground.Touches (ground.startOf p) p.way q → Spared gone q

/-- **A path avoids what is gone at places with a name that nobody says,** neither the path nor any link. -/
theorem avoids_of_notMem (start : name ∉ ground.startOf p) (unsaid : name ∉ p.way)
    (targets : ∀ place target, ground.kind? place = some (.link target) → name ∉ namesOf target)
    (named : ∀ q, gone q = true → name ∈ q) : ground.Avoids gone p := by
  intro q touches q' before
  refine Bool.eq_false_iff.mpr fun isGone => ?_
  exact touches.notMem start unsaid targets (before.subset (named q' isGone))

/-- Without links names touch nothing but the places on their way. -/
theorem Touches.mem_stations (plain : ground.Plain) (touches : ground.Touches here names q) :
    q ∈ here :: stations here names := by
  induction touches with
  | here => exact List.mem_cons_self
  | blank silent _ ih =>
    simp only [stations, stepTo, silent, if_true]
    exact List.mem_cons_of_mem _ ih
  | up _ ih =>
    have said : isBlank ".." = false := by decide
    simp only [stations, stepTo, said, Bool.false_eq_true, if_false, if_true]
    exact List.mem_cons_of_mem _ ih
  | entry said notUp =>
    simp only [stations, stepTo, said, notUp, Bool.false_eq_true, if_false]
    exact List.mem_cons_of_mem _ List.mem_cons_self
  | into said notUp _ _ ih =>
    simp only [stations, stepTo, said, notUp, Bool.false_eq_true, if_false]
    exact List.mem_cons_of_mem _ ih
  | through _ _ entry _ _ => exact absurd entry (plain _ _)

/-- **Without links a path avoids what is gone** if its trail is spared. -/
theorem Plain.avoids (plain : ground.Plain) (spared : ∀ q ∈ ground.trail p, Spared gone q) : ground.Avoids gone p :=
  fun q touches => spared q (mem_trail.mpr (touches.mem_stations plain))

/-- A path avoids what another one does that starts there and has the same steps at its front. -/
theorem Avoids.of_append (avoids : ground.Avoids gone p) (back : List String)
    (start : ground.startOf around = ground.startOf p) (way : p.way = around.way ++ back) :
    ground.Avoids gone around := by
  intro q touches
  rw [start] at touches
  refine avoids q ?_
  rw [way]
  exact touches.append back

theorem Avoids.parent (avoids : ground.Avoids gone p) (isParent : p.parent? = some around) :
    ground.Avoids gone around := by
  have start : ground.startOf around = ground.startOf p := startOf_of_parent? isParent
  rcases Path.parent_spec isParent with ⟨-, empty⟩ | ⟨c, steps, -⟩
  · have nothing : around = ⟨""⟩ := congrArg Path.mk (eq_of_beq empty)
    refine avoids.of_append p.way start ?_
    rw [nothing]
    rfl
  · refine avoids.of_append [c.text] start ?_
    unfold Path.way
    rw [steps, List.map_append]
    rfl

/-- The slashes at the end of a path do not matter. -/
theorem Avoids.dropSlashes (avoids : ground.Avoids gone p) : ground.Avoids gone (dropSlashes p) := by
  cases written : p.isEmpty with
  | false =>
    refine avoids.of_append [] (startOf_dropSlashes written) ?_
    rw [way_dropSlashes written, List.append_nil]
  | true =>
    have nothing : p = ⟨""⟩ := congrArg Path.mk (eq_of_beq written)
    have same : FileSystem.dropSlashes p = p := by
      rw [nothing]
      rfl
    rwa [same]

/-- What the names of a path touch is spared, whatever is written between its steps. -/
theorem Avoids.spared (avoids : ground.Avoids gone p) (touches : ground.Touches (ground.startOf p) (namesOf p.text) q) :
    Spared gone q := by
  refine avoids q (touches.of_filter ?_)
  have way : (namesOf p.text).filter (fun name => !isBlank name) = p.way := filter_namesOf p
  rw [← way, List.filter_filter]
  simp only [Bool.and_self]

section

variable (avoids : ground.Avoids gone p)

include avoids

theorem Avoids.startOf : Spared gone (ground.startOf p) := avoids _ .here

/-- **A path that avoids what is gone leads to a spot that is spared.** -/
theorem Avoids.of_resolve (guides : ground.Guides fs) (led : fs.resolve followLast p = .ok spot) :
    Spared gone spot.place := by
  obtain ⟨-, -, leads⟩ := resolve_iff.mp led
  rw [guides.startOf_eq] at leads
  exact avoids.spared (leads.touches guides)

theorem Avoids.of_place (guides : ground.Guides fs) (found : fs.place p = .ok place) : Spared gone place :=
  avoids.of_resolve guides (place_eq_ok.mp found)

variable (lacks : fs.Lacks gone fs') (guides : ground.Guides fs)

include lacks guides

/-- **A path that avoids what is gone leads to the same spot where it is gone.** -/
theorem Lacks.resolve_eq : fs'.resolve followLast p = fs.resolve followLast p := by
  have start : (fs'.get? (ground.startOf p)).any (·.isDirectory) =
      (fs.get? (ground.startOf p)).any (·.isDirectory) := by
    have same := lacks.kept avoids.startOf
    unfold kind? at same
    generalize fs.get? (ground.startOf p) = n? at same ⊢
    generalize fs'.get? (ground.startOf p) = n'? at same ⊢
    cases n? with
    | none => rw [Option.map_eq_none_iff.mp same]
    | some n =>
      obtain ⟨n', rfl, kinds⟩ := Option.map_eq_some_iff.mp same
      exact Bool.eq_iff_iff.mpr (by simp [Node.isDirectory_iff, kinds])
  have followed : fs'.follow followLast linkLimit (ground.startOf p) (namesOf p.text) =
      fs.follow followLast linkLimit (ground.startOf p) (namesOf p.text) :=
    lacks.follow_eq guides fun q touches => avoids.spared touches
  unfold FileSystem.startOf at start followed
  unfold resolve
  rw [lacks.workPlace, guides.workPlace]
  simp only [start, followed]

theorem Lacks.place_eq : fs'.place p = fs.place p := by
  unfold place
  rw [lacks.resolve_eq avoids guides]

/-- What a path leads to is of the same kind in both. -/
theorem Lacks.kind?_eq (found : fs.place p = .ok place) : fs'.kind? place = fs.kind? place :=
  lacks.kept (avoids.of_place guides found)

theorem Lacks.isDirectory_eq : fs'.isDirectory p = fs.isDirectory p := by
  rw [Bool.eq_iff_iff, isDirectory_iff, isDirectory_iff]
  refine exists_congr fun place => ?_
  rw [lacks.place_eq avoids guides]
  refine and_congr_right fun found => ?_
  rw [lacks.kind?_eq avoids guides found]

theorem Lacks.pathExists_eq : fs'.pathExists p = fs.pathExists p := by
  rw [Bool.eq_iff_iff, pathExists_iff, pathExists_iff, lacks.place_eq avoids guides]

/-- **A path names an entry of the same kind in both,** or nothing in either. -/
theorem Lacks.nodeItself_cases :
    (∃ f, fs.nodeItself p = .error f ∧ fs'.nodeItself p = .error f) ∨
      ∃ place n n', fs.nodeItself p = .ok (place, n) ∧ fs'.nodeItself p = .ok (place, n') ∧ n'.kind = n.kind ∧
        Spared gone place := by
  have same : fs'.resolve false p = fs.resolve false p := lacks.resolve_eq avoids guides
  cases led : fs.resolve false p with
  | error f =>
    refine .inl ⟨f, ?_, ?_⟩ <;> unfold nodeItself
    · rw [led]
    · rw [same, led]
  | ok spot =>
    have spared := avoids.of_resolve guides led
    cases spot with
    | vacant directory name =>
      refine .inl ⟨.noSuchEntry, ?_, ?_⟩ <;> unfold nodeItself
      · rw [led]
      · rw [same, led]
    | taken place =>
      have kinds : fs'.kind? place = fs.kind? place := lacks.kept spared
      have present : fs.kind? place ≠ none := Names.kind?_ne_none led
      obtain ⟨n, entry⟩ := Option.ne_none_iff_exists'.mp fun missing => present (kind?_eq_none.mpr missing)
      have kind : fs'.kind? place = some n.kind := kinds.trans (by simp [kind?, entry])
      obtain ⟨n', entry', same'⟩ := Option.map_eq_some_iff.mp kind
      exact .inr ⟨place, n, n', nodeItself_eq_ok.mpr ⟨led, entry⟩, nodeItself_eq_ok.mpr ⟨same.trans led, entry'⟩,
        same', spared⟩

/-- **A directory lists what it does in the other one,** except for what is gone, or cannot be listed in either. -/
theorem Lacks.list_cases :
    (∃ f, fs.list p = .error f ∧ fs'.list p = .error f) ∨
      ∃ place entries entries', fs.place p = .ok place ∧ Spared gone place ∧
        fs.list p = .ok entries ∧ fs.get? place = some (.directory entries) ∧
        fs'.list p = .ok entries' ∧ fs'.get? place = some (.directory entries') ∧
        Node.namesOf entries' = (Node.namesOf entries).filter fun name => !gone (place ++ [name]) := by
  have same : fs'.place p = fs.place p := lacks.place_eq avoids guides
  cases found : fs.place p with
  | error f =>
    refine .inl ⟨f, ?_, ?_⟩ <;> unfold list node
    · rw [found]
    · rw [same, found]
  | ok place =>
    have spared := avoids.of_place guides found
    obtain ⟨n, entry⟩ := Option.ne_none_iff_exists'.mp fun missing =>
      kind?_ne_none_of_place found (kind?_eq_none.mpr missing)
    have kind : fs'.kind? place = some n.kind := (lacks.kept spared).trans (by simp [kind?, entry])
    obtain ⟨n', entry', kinds⟩ := Option.map_eq_some_iff.mp kind
    by_cases directory : n.kind = .directory
    · obtain ⟨entries, rfl⟩ := Node.kind_eq_directory.mp directory
      obtain ⟨entries', rfl⟩ := Node.kind_eq_directory.mp (kinds.trans directory)
      have told := lacks.told spared
      rw [names_eq_namesOf entry, names_eq_namesOf entry'] at told
      exact .inr ⟨place, entries, entries', rfl, spared, list_eq_ok.mpr ⟨place, found, entry⟩, entry,
        list_eq_ok.mpr ⟨place, same.trans found, entry'⟩, entry', told⟩
    · refine .inl ⟨.notDirectory, ?_, ?_⟩ <;> unfold list node
      · rw [found]
        dsimp only
        rw [entry]
        cases n <;> simp_all
      · rw [same, found]
        dsimp only
        rw [entry']
        cases n' <;> simp_all

end

/-! ## Names behind names -/

/-- **Names behind names that lead to a directory touch what they do from there.** -/
theorem Leads.touches_behind (guides : ground.Guides fs) (leads : fs.Leads true links here front (.taken place))
    (holds : fs.kind? place = some .directory) (touches : ground.Touches place back q) :
    ground.Touches here (front ++ back) q := by
  generalize taken : Spot.taken place = spot at leads
  induction leads with
  | done =>
    cases taken
    exact touches
  | blank silent _ ih => exact .blank silent (ih taken)
  | up _ ih => exact .up (ih taken)
  | vacant => cases taken
  | into isName inside _ ih => exact .into isName.notBlank isName.notUp (guides.unbarred inside) (ih taken)
  | file _ entry =>
    cases taken
    cases holds.symm.trans entry
  | linkItself _ _ last => cases last
  | through isName entry _ _ ih =>
    have onward := ih taken
    rw [List.append_assoc] at onward
    exact .through isName.notBlank isName.notUp (guides.link entry) onward

/-- **What names touch behind names that lead to a directory** is touched on the way there or from there on. -/
theorem Leads.touches_split (guides : ground.Guides fs) (leads : fs.Leads true links here front (.taken place))
    (holds : fs.kind? place = some .directory) (touches : ground.Touches here (front ++ back) q) :
    ground.Touches here front q ∨ ground.Touches place back q := by
  generalize taken : Spot.taken place = spot at leads
  induction leads with
  | done =>
    cases taken
    exact .inr touches
  | blank silent _ ih =>
    cases touches with
    | here => exact .inl .here
    | blank _ onward => exact (ih onward taken).imp_left (.blank silent)
    | up _ => exact absurd silent (by decide)
    | entry said _ => cases silent.symm.trans said
    | into said _ _ _ => cases silent.symm.trans said
    | through said _ _ _ => cases silent.symm.trans said
  | up _ ih =>
    cases touches with
    | here => exact .inl .here
    | blank silent _ => exact absurd silent (by decide)
    | up onward => exact (ih onward taken).imp_left .up
    | entry _ notUp => exact absurd rfl notUp
    | into _ notUp _ _ => exact absurd rfl notUp
    | through _ notUp _ _ => exact absurd rfl notUp
  | vacant => cases taken
  | into isName inside _ ih =>
    cases touches with
    | here => exact .inl .here
    | blank silent _ => cases silent.symm.trans isName.notBlank
    | up _ => exact absurd rfl isName.notUp
    | entry said notUp => exact .inl (.entry said notUp)
    | into said notUp unbarred onward => exact (ih onward taken).imp_left (.into said notUp unbarred)
    | through _ _ entry _ => cases guides.unbarred inside _ entry
  | file _ entry =>
    cases taken
    cases holds.symm.trans entry
  | linkItself _ _ last => cases last
  | @through links here name target rest spot isName entry _ _ ih =>
    have linked := guides.link entry
    cases touches with
    | here => exact .inl .here
    | blank silent _ => cases silent.symm.trans isName.notBlank
    | up _ => exact absurd rfl isName.notUp
    | entry said notUp => exact .inl (.entry said notUp)
    | into _ _ unbarred _ => cases unbarred _ linked
    | through said notUp entry' onward =>
      cases linked.symm.trans entry'
      have behind : ground.Touches (targetStart here target) (namesOf target ++ rest ++ back) q := by
        rw [List.append_assoc]
        exact onward
      exact (ih behind taken).imp_left (.through said notUp linked)

/-- File names touch nothing but what is below where they start, if no links are there. -/
theorem Touches.isPrefix (isNames : ∀ name ∈ names, IsFileName name) (free : ∀ q, place <+: q → ground.NoLink q)
    (touches : ground.Touches place names q) : place <+: q := by
  induction touches with
  | here => exact List.prefix_refl _
  | blank _ _ ih => exact ih (List.forall_mem_cons.mp isNames).2 free
  | up _ _ => exact absurd rfl (List.forall_mem_cons.mp isNames).1.notUp
  | entry _ _ => exact List.prefix_append _ _
  | @into here q name rest _ _ _ _ ih =>
    have below : here <+: here ++ [name] := List.prefix_append _ _
    exact below.trans (ih (List.forall_mem_cons.mp isNames).2 fun q inner => free q (below.trans inner))
  | through _ _ entry _ _ => exact absurd entry (free _ (List.prefix_append _ _) _)

/-- **A path that goes on from one to a directory avoids what is gone,** if nothing below the directory is gone and no
link is there. -/
theorem Avoids.goesOn (avoids : ground.Avoids gone p) (guides : ground.Guides fs) (found : fs.place p = .ok place)
    (holds : fs.kind? place = some .directory) (free : ∀ q, place <+: q → ground.NoLink q)
    (bare : ∀ name rest, gone (place ++ name :: rest) = false) (onward : p.GoesOn names around) :
    ground.Avoids gone around := by
  intro q touches
  rw [way_of_goesOn onward, startOf_of_goesOn onward] at touches
  have leads := leads_of_place found
  rw [guides.startOf_eq] at leads
  rcases leads.touches_split guides holds touches with onWay | inside
  · exact avoids q onWay
  · have spared : Spared gone place := avoids _ (leads.touches guides)
    exact spared.below bare (inside.isPrefix onward.proper free)

/-- **A path avoids what is gone and goes on from a directory by a name,** and so the entry of this name is spared. -/
theorem Avoids.of_push (avoids : ground.Avoids gone (p.push name)) (isName : IsFileName name)
    (guides : ground.Guides fs) (found : fs.place p = .ok place) (holds : fs.kind? place = some .directory) :
    Spared gone (place ++ [name]) := by
  have onward := p.goesOn_push isName
  obtain ⟨said, notUp⟩ := isBlank_of_isFileName isName
  have leads := leads_of_place found
  rw [guides.startOf_eq] at leads
  refine avoids _ ?_
  rw [way_of_goesOn onward, startOf_of_goesOn onward]
  exact leads.touches_behind guides holds (.entry said notUp)

end PyBundle.FileSystem
