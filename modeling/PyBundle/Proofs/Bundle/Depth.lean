import PyBundle.Proofs.Bundle.Below
import PyBundle.Proofs.Bundle.Reset

/-!
# How deep directories are gone through

The path of an entry is longer than that of the directory around it, and a directory is only gone through if its path
is not too long. So no copy goes deeper than paths may be long, and no bound on the depth from there on is ever met
(`sameWhere_emit`): a bundle is written to its end, or to a failure, also where it is copied into itself.
-/

namespace PyBundle

open FileSystem (pathLimit)

/-- A path with a name more is longer. -/
theorem Path.lt_utf8ByteSize_push {p : Path} {name : String} (isName : IsFileName name) :
    p.text.utf8ByteSize < (p.push name).text.utf8ByteSize := by
  obtain ⟨between, -, text⟩ := Path.exists_text_join p isName.relative
  have some : 0 < name.utf8ByteSize :=
    Nat.pos_of_ne_zero fun none => isName.notEmpty (String.utf8ByteSize_eq_zero_iff.mp none)
  have size : (p.push name).text.utf8ByteSize = p.text.utf8ByteSize + between.utf8ByteSize + name.utf8ByteSize := by
    rw [push, text, String.utf8ByteSize_append, String.utf8ByteSize_append]
  omega

/-- A path that leads to an entry is not too long and not empty. -/
theorem FileSystem.utf8ByteSize_of_resolve {fs : FileSystem} {p : Path} {followLast : Bool} {spot : Spot}
    (led : fs.resolve followLast p = .ok spot) : 0 < p.text.utf8ByteSize ∧ p.text.utf8ByteSize < pathLimit := by
  obtain ⟨⟨-, written, short⟩, -, -⟩ := resolve_iff.mp led
  refine ⟨Nat.pos_of_ne_zero fun none => ?_, Nat.lt_of_not_le short⟩
  have empty : p.isEmpty = true := beq_iff_eq.mpr (String.utf8ByteSize_eq_zero_iff.mp none)
  cases written.symm.trans empty

namespace Bundle

variable {b : Bundle} {destination : Path} {names front : List String}

theorem keeps_proper_copyFile (source target : Path) :
    Step.Keeps FileSystem.Proper (copyFile source target) fun _ => True :=
  keeps_copyFile fun _ _ before copied => by
    obtain ⟨_, place, content, executable, -, -, writes, rfl⟩ := FileSystem.copy_eq_ok copied
    exact before.put writes

/-- Entries have file names also after something is copied. -/
theorem keptBelow_proper (b : Bundle) : KeptBelow b FileSystem.Proper where
  create _ := keeps_create FileSystem.proper_keptByDirectories _
  createParent _ := keeps_createParent FileSystem.proper_keptByDirectories _
  copyFile _ source := keeps_proper_copyFile source _

/-- **An entry is copied in the same way with any two bounds on the depth** that its path cannot reach. The induction is
on the one bound: the path of an entry in a directory is longer, and the bound for it is less by one. -/
theorem sameWhere_copyEntry {fuel fuel' : Nat} {ancestors : List Path} {source : Path} {n : Node}
    (onward : b.directory.GoesOn front destination) (isNames : ∀ name ∈ names, IsFileName name)
    (enough : pathLimit ≤ source.text.utf8ByteSize + fuel) (enough' : pathLimit ≤ source.text.utf8ByteSize + fuel') :
    Step.SameWhere FileSystem.Proper (b.copyEntry destination (fuel + 1) ancestors source (.ofNames names) n)
      (b.copyEntry destination (fuel' + 1) ancestors source (.ofNames names) n) := by
  induction fuel using Nat.strong_induction_on generalizing fuel' ancestors source names n with
  | _ fuel ih =>
    have kept := keptBelow_proper b
    have target : b.directory.GoesOn (front ++ names) (destination.join (.ofNames names)) :=
      onward.trans (Path.goesOn_join_ofNames onward.written isNames)
    unfold copyEntry
    refine Step.keeps_files.sameWhere fun fs before => Step.keeps_demand.sameWhere fun isDirectory _ => ?_
    split
    · exact Step.sameWhere_refl _
    · dsimp only
      split
      · refine (kept.create target).sameWhere fun _ _ => Step.keeps_files.sameWhere fun fs before => ?_
        refine Step.keeps_demand.sameWhere fun entries listed => ?_
        have short : source.text.utf8ByteSize < pathLimit := by
          obtain ⟨place, found, -⟩ := FileSystem.list_eq_ok.mp listed
          exact (FileSystem.utf8ByteSize_of_resolve (FileSystem.place_eq_ok.mp found)).2
        obtain ⟨less, rfl⟩ : ∃ less, fuel = less + 1 := Nat.exists_eq_add_one.mpr (by omega)
        obtain ⟨less', rfl⟩ : ∃ less', fuel' = less' + 1 := Nat.exists_eq_add_one.mpr (by omega)
        refine Step.sameWhere_forM (fun name _ => ?_) fun name _ => ?_
        · split
          · rename_i n entry
            have isName : IsFileName name := before.isFileName listed entry
            rw [Path.push_ofNames isNames isName]
            exact kept.copyEntry id onward _ _ _ _
              (Path.forall_isFileName_concat isNames isName) n
          · exact Step.keeps_pure ⟨⟩
        · split
          · rename_i n entry
            have isName : IsFileName name := before.isFileName listed entry
            have longer := source.lt_utf8ByteSize_push isName
            rw [Path.push_ofNames isNames isName]
            refine ih less (Nat.lt_succ_self less) (Path.forall_isFileName_concat isNames isName) ?_ ?_
            · omega
            · omega
          · exact Step.sameWhere_refl _
      · exact Step.sameWhere_refl _

/-! ## Bundles with a bound on the depth -/

/-- Copies a directory, and goes through directories only so deep. -/
def copyTreeWithin (b : Bundle) (depth : Nat) (source destination : Path) : Step BundleError Unit := do
  let fs ← Step.files
  if fs.pathExists destination then throw (.destinationExists destination)
  let (_, n) ← Step.demand (fun f => .walk (.unreadable source f)) (fs.nodeItself source)
  copyEntry b destination depth [] source ⟨""⟩ n
  Step.note (copiedNote source destination)

/-- Copies an additional directory, and goes through directories only so deep. -/
def copyAdditionalWithin (b : Bundle) (depth : Nat) (p : Path) : Step BundleError (Option Path) := do
  let fs ← Step.files
  if !fs.isDirectory p then
    Step.note (.warning s!"Skipping additional module {p.text}: not a directory")
    return none
  let source ← Step.demand (.failed .resolve p) (fs.absolute p)
  match source.fileName? with
  | none =>
    Step.note (.warning s!"Skipping additional module {p.text}: no directory name")
    return none
  | some name =>
    copyTreeWithin b depth source (b.directory.push name)
    return some source

/-- **Writes a bundle, and goes through directories only so deep.** -/
def emitWithin (b : Bundle) (depth : Nat) (modules : List LocalModule) (additional : List Path) :
    Step BundleError (List Path) := do
  b.reset
  modules.forM b.copyModule
  additional.filterMapM (b.copyAdditionalWithin depth)

/-- The bound that is set is how long paths may be. -/
theorem copyAdditionalWithin_pathLimit (b : Bundle) : b.copyAdditionalWithin pathLimit = b.copyAdditional := rfl

theorem sameWhere_copyTreeWithin {depth depth' : Nat} (deep : pathLimit ≤ depth) (deep' : pathLimit ≤ depth')
    (source : Path) (onward : b.directory.GoesOn front destination) :
    Step.SameWhere FileSystem.Proper (b.copyTreeWithin depth source destination)
      (b.copyTreeWithin depth' source destination) := by
  unfold copyTreeWithin
  refine Step.keeps_files.sameWhere fun fs before => ?_
  split
  · exact Step.sameWhere_refl _
  · refine Step.keeps_demand.sameWhere fun entry itself => Step.SameWhere.left_bind ?_
    obtain ⟨place, n⟩ := entry
    have some := (FileSystem.utf8ByteSize_of_resolve (FileSystem.nodeItself_eq_ok.mp itself).1).1
    obtain ⟨fuel, rfl⟩ : ∃ fuel, depth = fuel + 1 := Nat.exists_eq_add_one.mpr (Nat.lt_of_lt_of_le (by decide) deep)
    obtain ⟨fuel', rfl⟩ : ∃ fuel', depth' = fuel' + 1 :=
      Nat.exists_eq_add_one.mpr (Nat.lt_of_lt_of_le (by decide) deep')
    have whole : (⟨""⟩ : Path) = .ofNames [] := rfl
    rw [whole]
    exact sameWhere_copyEntry onward nofun (by omega) (by omega)

theorem sameWhere_copyAdditionalWithin {depth depth' : Nat} (deep : pathLimit ≤ depth) (deep' : pathLimit ≤ depth')
    (p : Path) :
    Step.SameWhere FileSystem.Proper (b.copyAdditionalWithin depth p) (b.copyAdditionalWithin depth' p) := by
  unfold copyAdditionalWithin
  refine Step.keeps_files.sameWhere fun fs before => ?_
  split
  · exact Step.sameWhere_refl _
  · refine Step.keeps_demand.sameWhere fun source _ => ?_
    split
    · exact Step.sameWhere_refl _
    · rename_i name fileName
      have onward := b.directory.goesOn_push (isFileName_of_fileName? fileName)
      exact (sameWhere_copyTreeWithin deep deep' source onward).left_bind

/-- **A bundle is written in the same way with any bound on the depth that paths cannot reach.** So directories are gone
through to their end, or to a path that is too long. -/
theorem sameWhere_emit {depth : Nat} (deep : pathLimit ≤ depth) (modules : List LocalModule) (additional : List Path) :
    Step.SameWhere FileSystem.Proper (b.emit modules additional) (b.emitWithin depth modules additional) := by
  have kept := keptBelow_proper b
  have reset : Step.Keeps FileSystem.Proper b.reset fun _ => True := fun s proper =>
    ⟨reset_keeps FileSystem.proper_keptByDirectories fun _ cleared => proper.of_within cleared.old, fun _ _ => ⟨⟩⟩
  have copies : Step.Keeps FileSystem.Proper (modules.forM b.copyModule) fun _ => True :=
    Step.keeps_forM fun m _ => (keeps_createParent FileSystem.proper_keptByDirectories _).bind fun _ _ =>
      (keeps_proper_copyFile _ _).bind fun _ _ => Step.keeps_note
  refine reset.sameWhere fun _ _ => copies.sameWhere fun _ _ => ?_
  refine Step.sameWhere_filterMapM (fun p _ => kept.copyAdditional id p) fun p _ => ?_
  rw [← copyAdditionalWithin_pathLimit]
  exact sameWhere_copyAdditionalWithin (Nat.le_refl _) deep p

end Bundle

end PyBundle
