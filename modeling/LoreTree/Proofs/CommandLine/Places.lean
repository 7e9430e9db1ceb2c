import LoreTree.CommandLine.Files
import LoreTree.Proofs.Success
/-!
Where paths lead. A path leads through directories and links to a place above which there are only
directories, and it goes on leading there if something new is put at a place that it does not pass.
-/

namespace LoreTree

def Node.isDirectory : Node → Bool
  | .directory => true
  | _ => false

namespace Files

def Plain (fs : Files) (place : Place) : Prop :=
  ∀ t, fs.node? place ≠ some (.link t)

/-- From a place, names and at most so many links lead to another one; `last` says whether to go on
from a link under the last name. -/
inductive Leads (fs : Files) (last : Bool) : (links : Nat) → Place → List String → Place → Prop
  | here {links : Nat} : Leads fs last links place [] place
  | name {links : Nat} (directory : fs.node? place = some .directory)
      (short : ¬longestName < name.utf8ByteSize)
      (plain : fs.Plain (next place name)) (rest : Leads fs last links (next place name) names target) :
      Leads fs last links place (name :: names) target
  | link {links : Nat} {t : Path} (directory : fs.node? place = some .directory)
      (short : ¬longestName < name.utf8ByteSize) (found : fs.node? (next place name) = some (.link t))
      (through : ¬(names.isEmpty && !last) = true)
      (rest : Leads fs last links (origin (next place name).dropLast t) (t.parts ++ names) target) :
      Leads fs last (links + 1) place (name :: names) target
  | stop {links : Nat} {t : Path} (directory : fs.node? place = some .directory)
      (short : ¬longestName < name.utf8ByteSize) (found : fs.node? (next place name) = some (.link t))
      (stops : (names.isEmpty && !last) = true) :
      Leads fs last links place (name :: names) (next place name)

variable {fs after : Files} {place other target : Place} {node : Node}

def Reached (fs : Files) (place : Place) : Prop :=
  ∀ above, above <+: place → above ≠ place → fs.node? above = some .directory

/-- One tree of files is another one with a node set at a place. -/
structure Sets (before : Files) (place : Place) (node : Node) (after : Files) : Prop where
  held : after.node? place = some node
  others : ∀ other, other ≠ place → after.node? other = before.node? other

section Put

theorem node?_of_isPrefix (above : place <+: fs.workPlace) : fs.node? place = some .directory := by
  rw [node?, if_pos (List.isPrefixOf_iff_prefix.2 above)]

theorem node?_nil (fs : Files) : fs.node? [] = some .directory :=
  node?_of_isPrefix List.nil_prefix

end Put

section Leads

variable {last : Bool} {links : Nat} {name : String} {names : List String}

theorem plain_of_directory (directory : fs.node? place = some .directory) : fs.Plain place := by
  intro t linked
  cases directory.symm.trans linked

theorem Reached.of_isPrefix (reached : fs.Reached place) (above : other <+: place) :
    fs.Reached other := by
  intro first before ne
  refine reached first (before.trans above) ?_
  rintro rfl
  exact ne (before.eq_of_length_le above.length_le)

theorem Reached.node?_dropLast (reached : fs.Reached place) :
    fs.node? place.dropLast = some .directory := by
  rcases List.eq_nil_or_concat place with rfl | ⟨above, name, rfl⟩
  · exact node?_nil fs
  · refine reached _ (List.dropLast_prefix _) ?_
    rw [List.concat_eq_append, List.dropLast_concat]
    exact fun same => List.cons_ne_nil name [] (List.self_eq_append_right.1 same)

theorem Reached.next (reached : fs.Reached place) (directory : fs.node? place = some .directory)
    (name : String) : fs.Reached (next place name) := by
  unfold Files.next
  split
  · exact reached.of_isPrefix (List.dropLast_prefix place)
  · intro above before ne
    rcases List.prefix_concat_iff.1 before with same | before
    · exact absurd same ne
    · by_cases here : above = place
      · rw [here, directory]
      · exact reached above before here

theorem Reached.origin (reached : fs.Reached place) (p : Path) : fs.Reached (origin place p) := by
  unfold Files.origin
  split
  · exact reached
  · exact reached.of_isPrefix List.nil_prefix

theorem directory_origin (directory : fs.node? place = some .directory) (p : Path) :
    fs.node? (origin place p) = some .directory := by
  unfold origin
  split
  · exact directory
  · exact node?_nil fs

theorem Leads.reached (leads : fs.Leads last links place names target)
    (start : fs.Reached place) : fs.Reached target := by
  induction leads with
  | here => exact start
  | name directory _ _ _ ih => exact ih (start.next directory _)
  | link directory _ _ _ _ ih =>
    exact ih (((start.next directory _).of_isPrefix (List.dropLast_prefix _)).origin _)
  | stop directory => exact start.next directory _

/-- Links are followed to the end if those under last names are followed. -/
theorem Leads.plain (leads : fs.Leads true links place names target) (start : fs.Reached place)
    (plain : fs.Plain place) : fs.Plain target := by
  induction leads with
  | here => exact plain
  | name directory _ bare _ ih => exact ih (start.next directory _) bare
  | @link _ name _ _ _ _ directory _ _ _ _ ih =>
    have reached := start.next directory name
    exact ih ((reached.of_isPrefix (List.dropLast_prefix _)).origin _)
      (plain_of_directory (directory_origin reached.node?_dropLast _))
  | stop _ _ _ stops => simp at stops

/-- On the way to a place there are only directories and links, so what is put at a place that is
neither changes no way. -/
theorem Leads.sets (leads : fs.Leads last links other names target)
    (sets : fs.Sets place node after) (free : fs.node? place ≠ some .directory)
    (plain : fs.Plain place) (unlinked : ∀ t, node ≠ .link t) :
    after.Leads last links other names target := by
  have directories {p : Place} (directory : fs.node? p = some .directory) :
      after.node? p = some .directory := by
    rw [sets.others p (fun same => free (same ▸ directory)), directory]
  have links {p : Place} {t : Path} (linked : fs.node? p = some (.link t)) :
      after.node? p = some (.link t) := by
    rw [sets.others p (fun same => plain t (same ▸ linked)), linked]
  have plains {p : Place} (h : fs.Plain p) : after.Plain p := by
    intro t linked
    by_cases same : p = place
    · rw [same, sets.held] at linked
      exact unlinked t (Option.some.inj linked)
    · exact h t ((sets.others p same).symm.trans linked)
  induction leads with
  | here => exact .here
  | name directory short plain _ ih => exact .name (directories directory) short (plains plain) ih
  | link directory short found through _ ih =>
    exact .link (directories directory) short (links found) through ih
  | stop directory short found stops =>
    exact .stop (directories directory) short (links found) stops

end Leads

section Locate

variable {last : Bool} {p : Path}

end Locate

end Files

end LoreTree
