import Mathlib.Data.List.Forall2
import Mathlib.Data.List.Nodup
import PhpAudit.Proofs.FileDiscovery

/-!
The order in which directories are listed does not matter. Two trees of files that differ only in
these orders lead every path to the same place, and the same files are found in them. Together with
the order in which files are found this says all about discovery: which files, how often, and where
in the sequence.
-/

namespace PhpAudit

namespace FileNode

/-- The trees differ only in the order in which their directories are listed. -/
inductive Relisted : FileNode → FileNode → Prop
  | file (content : List UInt8) : Relisted (.file content) (.file content)
  | link (target : String) : Relisted (.link target) (.link target)
  | directory {entries others : Directory}
      (names : (entries.map Prod.fst).Perm (others.map Prod.fst))
      (inside : ∀ name node other, (name, node) ∈ entries → (name, other) ∈ others →
        Relisted node other) :
      Relisted (.directory entries) (.directory others)

theorem Relisted.symm {node other : FileNode} (relisted : node.Relisted other) :
    other.Relisted node := by
  induction relisted with
  | file content => exact .file content
  | link target => exact .link target
  | directory names _ ih =>
      exact .directory names.symm fun name node other member partner =>
        ih name other node partner member

theorem Relisted.exists_partner {entries others : Directory}
    (relisted : (FileNode.directory entries).Relisted (.directory others)) {name : String}
    {node : FileNode} (member : (name, node) ∈ entries) :
    ∃ other, (name, other) ∈ others ∧ node.Relisted other := by
  cases relisted with
  | directory names inside =>
      obtain ⟨⟨known, other⟩, partner, same⟩ :=
        List.mem_map.mp (names.mem_iff.mp (List.mem_map_of_mem member))
      obtain rfl : known = name := same
      exact ⟨other, partner, inside known node other member partner⟩

theorem WellNamed.relisted {node other : FileNode} (named : node.WellNamed)
    (relisted : node.Relisted other) : other.WellNamed := by
  induction relisted with
  | file content => exact named
  | link target => exact named
  | @directory entries others names inside ih =>
      cases named with
      | directory distinct below =>
          refine .directory (names.nodup_iff.mp distinct) ?_
          rintro ⟨name, other⟩ partner
          have back : (FileNode.directory others).Relisted (.directory entries) :=
            (Relisted.directory names inside).symm
          obtain ⟨node, member, _⟩ := back.exists_partner partner
          exact ih name node other member partner (below _ member)

theorem Relisted.lookup_eq_none {entries others : Directory}
    (relisted : (FileNode.directory entries).Relisted (.directory others)) {name : String}
    (missing : entries.lookup name = none) : others.lookup name = none := by
  cases relisted with
  | directory names _ =>
      apply Entries.find?_eq_none_iff.mpr
      intro known
      exact Entries.find?_eq_none_iff.mp missing (names.mem_iff.mpr known)

theorem Relisted.lookup_eq_some {entries others : Directory}
    (relisted : (FileNode.directory entries).Relisted (.directory others))
    (named : (FileNode.directory entries).WellNamed) {name : String} {node : FileNode}
    (found : entries.lookup name = some node) :
    ∃ other, others.lookup name = some other ∧ node.WellNamed ∧ node.Relisted other := by
  cases named with
  | directory distinct inside =>
      have member := (Entries.find?_eq_some_iff distinct).mp found
      obtain ⟨other, partner, below⟩ := relisted.exists_partner member
      cases relisted with
      | directory names _ =>
          have there := (Entries.find?_eq_some_iff (names.nodup_iff.mp distinct)).mpr partner
          exact ⟨other, there, inside _ member, below⟩

end FileNode

namespace Place

/-- In the directory and in those around it, names are different. -/
structure WellNamed (place : Place) : Prop where
  inner : (FileNode.directory place.directory).WellNamed
  outer : ∀ directory ∈ place.parents, (FileNode.directory directory).WellNamed

/-- The directory and those around it differ only in the order in which they are listed. -/
structure Relisted (place other : Place) : Prop where
  inner : (FileNode.directory place.directory).Relisted (.directory other.directory)
  outer : List.Forall₂ (fun first second =>
    (FileNode.directory first).Relisted (.directory second)) place.parents other.parents

theorem wellNamed_outside : outside.WellNamed :=
  ⟨.directory List.nodup_nil (List.forall_mem_nil _), List.forall_mem_nil _⟩

theorem relisted_outside : outside.Relisted outside := by
  refine ⟨.directory (.refl _) ?_, .nil⟩
  intro name node other member
  cases member

theorem WellNamed.enter {place : Place} (named : place.WellNamed) {entries : Directory}
    (inner : (FileNode.directory entries).WellNamed) : (place.enter entries).WellNamed :=
  ⟨inner, List.forall_mem_cons.mpr ⟨named.inner, named.outer⟩⟩

theorem Relisted.enter {place other : Place} (relisted : place.Relisted other)
    {entries others : Directory}
    (inner : (FileNode.directory entries).Relisted (.directory others)) :
    (place.enter entries).Relisted (other.enter others) :=
  ⟨inner, .cons relisted.inner relisted.outer⟩

theorem WellNamed.parent {place : Place} (named : place.WellNamed) : place.parent.WellNamed := by
  obtain ⟨directory, parents⟩ := place
  cases parents with
  | nil => exact wellNamed_outside
  | cons first rest =>
      obtain ⟨inner, outer⟩ := List.forall_mem_cons.mp named.outer
      exact ⟨inner, outer⟩

theorem Relisted.parent {place other : Place} (relisted : place.Relisted other) :
    place.parent.Relisted other.parent := by
  obtain ⟨directory, parents⟩ := place
  obtain ⟨otherDirectory, otherParents⟩ := other
  cases relisted.outer with
  | nil => exact relisted_outside
  | cons inner outer => exact ⟨inner, outer⟩

theorem WellNamed.origin {place : Place} (named : place.WellNamed) (absolute : Bool) :
    (place.origin absolute).WellNamed := by
  cases absolute with
  | false => exact named
  | true => exact wellNamed_outside

theorem Relisted.origin {place other : Place} (relisted : place.Relisted other)
    (absolute : Bool) : (place.origin absolute).Relisted (other.origin absolute) := by
  cases absolute with
  | false => exact relisted
  | true => exact relisted_outside

/-- A path leads to the same in two places that differ only in the order of their listings. -/
inductive SameOutcome :
    Except FileFailure Destination → Except FileFailure Destination → Prop
  | failure (failure : FileFailure) : SameOutcome (.error failure) (.error failure)
  | file (content : List UInt8) : SameOutcome (.ok (.file content)) (.ok (.file content))
  | directory {place other : Place} (named : place.WellNamed) (relisted : place.Relisted other) :
      SameOutcome (.ok (.directory place)) (.ok (.directory other))

theorem follow_relisted (links : Nat) (place : Place) (parts : List String)
    (named : place.WellNamed) {other : Place} (relisted : place.Relisted other) :
    SameOutcome (place.follow links parts) (other.follow links parts) := by
  fun_induction follow links place parts generalizing other with
  | case1 links place =>
      rw [follow]
      exact .directory named relisted
  | case2 links place part rest here ih =>
      rw [follow, if_pos here]
      exact ih named relisted
  | case3 links place part rest below up ih =>
      rw [follow, if_neg below, if_pos up]
      exact ih named.parent relisted.parent
  | case4 links place part rest below inside long =>
      rw [follow, if_neg below, if_neg inside, if_pos long]
      exact .failure _
  | case5 links place part rest below inside short missing =>
      rw [follow, if_neg below, if_neg inside, if_neg short,
        relisted.inner.lookup_eq_none missing]
      exact .failure _
  | case6 links place part rest below inside short entries found ih =>
      obtain ⟨partner, there, distinct, same⟩ := relisted.inner.lookup_eq_some named.inner found
      rw [follow, if_neg below, if_neg inside, if_neg short, there]
      cases same with
      | directory names each =>
          exact ih (named.enter distinct) (relisted.enter (.directory names each))
  | case7 links place part rest below inside short content found last =>
      obtain ⟨partner, there, _, same⟩ := relisted.inner.lookup_eq_some named.inner found
      rw [follow, if_neg below, if_neg inside, if_neg short, there]
      cases same with
      | file =>
          simp only [if_pos last]
          exact .file content
  | case8 links place part rest below inside short content found more =>
      obtain ⟨partner, there, _, same⟩ := relisted.inner.lookup_eq_some named.inner found
      rw [follow, if_neg below, if_neg inside, if_neg short, there]
      cases same with
      | file =>
          simp only [if_neg more]
          exact .failure _
  | case9 place part rest below inside short target found =>
      obtain ⟨partner, there, _, same⟩ := relisted.inner.lookup_eq_some named.inner found
      rw [follow, if_neg below, if_neg inside, if_neg short, there]
      cases same with
      | link => exact .failure _
  | case10 place part rest below inside short target found remaining ih =>
      obtain ⟨partner, there, _, same⟩ := relisted.inner.lookup_eq_some named.inner found
      rw [follow, if_neg below, if_neg inside, if_neg short, there]
      cases same with
      | link => exact ih (named.origin _) (relisted.origin _)

theorem wellNamed_of_forall₂ {parents others : List Directory}
    (relisted : List.Forall₂ (fun first second =>
      (FileNode.directory first).Relisted (.directory second)) parents others)
    (named : ∀ directory ∈ parents, (FileNode.directory directory).WellNamed) :
    ∀ directory ∈ others, (FileNode.directory directory).WellNamed := by
  induction relisted with
  | nil => exact List.forall_mem_nil _
  | cons same _ ih =>
      obtain ⟨first, rest⟩ := List.forall_mem_cons.mp named
      exact List.forall_mem_cons.mpr ⟨first.relisted same, ih rest⟩

theorem WellNamed.relisted {place other : Place} (named : place.WellNamed)
    (relisted : place.Relisted other) : other.WellNamed :=
  ⟨named.inner.relisted relisted.inner, wellNamed_of_forall₂ relisted.outer named.outer⟩

theorem TakenForFile.relisted {place other : Place} {path : Path} {name : String}
    {node partner : FileNode} (taken : place.TakenForFile path (name, node))
    (named : place.WellNamed) (relisted : place.Relisted other)
    (same : node.Relisted partner) : other.TakenForFile path (name, partner) := by
  cases taken with
  | file name content =>
      cases same with
      | file => exact .file name content
  | elsewhere target away =>
      cases same with
      | link =>
          refine .elsewhere target fun inner led => ?_
          have outcome := follow_relisted linkLimit place [name] named relisted
          rw [led] at outcome
          generalize reached : place.follow linkLimit [name] = result at outcome
          cases outcome with
          | directory _ _ => exact away _ reached
  | unknown target long =>
      cases same with
      | link => exact .unknown target long

theorem HasPhpFile.relisted {place : Place} {path file : Path}
    (held : place.HasPhpFile path file) (named : place.WellNamed) {other : Place}
    (relisted : place.Relisted other) : other.HasPhpFile path file := by
  induction held generalizing other with
  | here listable member isPhp taken =>
      obtain ⟨partner, there, same⟩ := relisted.inner.exists_partner member
      exact .here listable there isPhp (taken.relisted named relisted same)
  | nested listable member _ ih =>
      obtain ⟨partner, there, same⟩ := relisted.inner.exists_partner member
      have distinct := named.inner
      cases distinct with
      | directory _ inside =>
          cases same with
          | directory names each =>
              exact .nested listable there
                (ih (named.enter (inside _ member)) (relisted.enter (.directory names each)))

theorem Relisted.symm {place other : Place} (relisted : place.Relisted other) :
    other.Relisted place :=
  ⟨relisted.inner.symm, relisted.outer.flip.imp fun _ _ same => same.symm⟩

/-- The directory `src` and nothing beside it. -/
def holding (entries : Directory) : Place := ⟨[("src", .directory entries)], []⟩

end Place

end PhpAudit
