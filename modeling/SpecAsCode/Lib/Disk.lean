import Mathlib.Data.List.Infix

/-!
# Disks

A disk holds files, directories and links.  Names are followed through the links; files are
written, directories made and entries removed where the names lead.
-/

namespace SpecAsCode.Lib

/-- The names that lead from the root directory to an entry, none of which is a link. -/
abbrev Place (Name : Type) := List Name

inductive Entry (Name Content : Type) where
  | file (content : Content)
  | directory
  | link (target : List Name)

/-- The entries of a disk by their places; of two for one place, the first. -/
abbrev Disk (Name Content : Type) := List (Place Name × Entry Name Content)

namespace Disk

variable {Name Content : Type} [DecidableEq Name]

/-- What is at a place.  The root directory is always there. -/
def look (disk : Disk Name Content) (place : Place Name) : Option (Entry Name Content) :=
  if place = [] then
    some .directory
  else
    (disk.find? fun entry => entry.1 = place).map Prod.snd

def isDirectory (disk : Disk Name Content) (place : Place Name) : Bool :=
  match disk.look place with
  | some .directory => true
  | _ => false

/-- What is at a place, unless it is a directory. -/
def item (disk : Disk Name Content) (place : Place Name) : Option (Entry Name Content) :=
  match disk.look place with
  | some .directory => none
  | other => other

/-! ## Names -/

/-- Where names lead from a place.  The last of them may be new; a link is followed `again` from
the root directory. -/
def walkFrom (disk : Disk Name Content) (again : List Name → Option (Place Name)) :
    Place Name → List Name → Option (Place Name)
  | place, [] => some place
  | place, name :: rest =>
      match disk.look (place ++ [name]) with
      | some .directory => walkFrom disk again (place ++ [name]) rest
      | some (.link target) => again (target ++ rest)
      | _ => if rest = [] then some (place ++ [name]) else none

/-- Where names lead when no more than so many links are followed. -/
def walk (disk : Disk Name Content) : Nat → List Name → Option (Place Name)
  | 0 => walkFrom disk (fun _ => none) []
  | links + 1 => walkFrom disk (walk disk links) []

/-- The number of links that a system follows. -/
def linkLimit : Nat := 40

def locate (disk : Disk Name Content) (names : List Name) : Option (Place Name) :=
  disk.walk linkLimit names

/-- The entry that names lead to. -/
def stat (disk : Disk Name Content) (names : List Name) : Option (Entry Name Content) :=
  (disk.locate names).bind disk.look

def read (disk : Disk Name Content) (names : List Name) : Option Content :=
  match disk.stat names with
  | some (.file content) => some content
  | _ => none

/-- The names of the entries of a directory; nothing when there is none. -/
def list (disk : Disk Name Content) (names : List Name) : Option (List Name) :=
  match disk.locate names with
  | none => none
  | some place =>
      if disk.isDirectory place then
        some ((disk.filterMap fun entry =>
          if entry.1.dropLast = place then entry.1.getLast? else none).dedup)
      else
        none

/-! ## Changes -/

/-- Makes the directories that are missing along names from a place, and says where they lead;
nothing when something else is in the way. -/
def makeFrom : Place Name → List Name → Disk Name Content → Option (Disk Name Content × Place Name)
  | place, [], disk => some (disk, place)
  | place, name :: rest, disk =>
      match disk.look (place ++ [name]) with
      | some .directory => makeFrom (place ++ [name]) rest disk
      | some (.link target) =>
          match disk.locate target with
          | none => none
          | some other => if disk.isDirectory other then makeFrom other rest disk else none
      | some (.file _) => none
      | none => makeFrom (place ++ [name]) rest ((place ++ [name], .directory) :: disk)

def make (disk : Disk Name Content) (names : List Name) : Option (Disk Name Content) :=
  (makeFrom [] names disk).map Prod.fst

/-- Where a directory is, or is made. -/
def reach (disk : Disk Name Content) (names : List Name) : Option (Place Name) :=
  (makeFrom [] names disk).map Prod.snd

/-- Writes a file where names lead; nothing when there is a directory. -/
def write (disk : Disk Name Content) (names : List Name) (content : Content) :
    Option (Disk Name Content × Place Name) :=
  match disk.locate names with
  | none => none
  | some place =>
      if disk.isDirectory place then none else some ((place, .file content) :: disk, place)

/-- What becomes of the removal of an entry. -/
inductive Removal (Name Content : Type) where
  /-- There is no such entry. -/
  | absent
  /-- The entry is a directory. -/
  | refused
  | removed (place : Place Name) (disk : Disk Name Content)

/-- Removes the entry itself, also when it is a link. -/
def remove (disk : Disk Name Content) (names : List Name) : Removal Name Content :=
  match names.getLast? with
  | none => .refused
  | some name =>
      match disk.locate names.dropLast with
      | none => .absent
      | some parent =>
          match disk.look (parent ++ [name]) with
          | none => .absent
          | some .directory => .refused
          | some _ =>
              .removed (parent ++ [name]) (disk.filter fun entry => entry.1 ≠ parent ++ [name])

/-! ## What a change leaves as it was -/

@[simp]
theorem look_nil (disk : Disk Name Content) : disk.look [] = some .directory := by
  rw [look, if_pos rfl]

theorem look_cons_ne (disk : Disk Name Content) {place other : Place Name}
    (different : place ≠ other) (entry : Entry Name Content) :
    look ((other, entry) :: disk) place = disk.look place := by
  rw [look, look, List.find?_cons_of_neg (by simpa using Ne.symm different)]

theorem look_cons_self (disk : Disk Name Content) {place : Place Name} (named : place ≠ [])
    (entry : Entry Name Content) : look ((place, entry) :: disk) place = some entry := by
  rw [look, if_neg named, List.find?_cons_of_pos (by simp)]
  rfl

theorem look_filter_ne (disk : Disk Name Content) {place other : Place Name}
    (different : place ≠ other) :
    look (disk.filter fun entry => entry.1 ≠ other) place = disk.look place := by
  have same : (fun entry : Place Name × Entry Name Content =>
      decide (decide (entry.1 ≠ other) = true ∧ decide (entry.1 = place) = true)) =
        fun entry => decide (entry.1 = place) := by
    funext entry
    by_cases here : entry.1 = place
    · simp [here, different]
    · simp [here]
  rw [look, look, List.find?_filter, same]

theorem item_of_look {disk other : Disk Name Content} {place : Place Name}
    (same : disk.look place = other.look place) : disk.item place = other.item place := by
  rw [item, item, same]

/-- Only directories are made. -/
theorem item_makeFrom {start : Place Name} {names : List Name} {disk : Disk Name Content}
    {made : Disk Name Content × Place Name} (makes : makeFrom start names disk = some made)
    (place : Place Name) : made.1.item place = disk.item place := by
  induction names generalizing start disk with
  | nil =>
      cases makes
      rfl
  | cons name rest inductionHypothesis =>
      rw [makeFrom] at makes
      cases found : disk.look (start ++ [name]) with
      | none =>
          rw [found] at makes
          rw [inductionHypothesis makes]
          by_cases here : place = start ++ [name]
          · subst here
            rw [item, item, found, look_cons_self _ (by simp)]
          · exact item_of_look (look_cons_ne _ here _)
      | some entry =>
          cases entry with
          | file content =>
              rw [found] at makes
              cases makes
          | directory =>
              rw [found] at makes
              exact inductionHypothesis makes
          | link target =>
              rw [found] at makes
              dsimp only at makes
              cases located : disk.locate target with
              | none =>
                  rw [located] at makes
                  cases makes
              | some other =>
                  rw [located] at makes
                  dsimp only at makes
                  split_ifs at makes
                  exact inductionHypothesis makes

theorem item_make {disk made : Disk Name Content} {names : List Name}
    (makes : disk.make names = some made) (place : Place Name) :
    made.item place = disk.item place := by
  obtain ⟨result, built, rfl⟩ := Option.map_eq_some_iff.mp makes
  exact item_makeFrom built place

theorem write_eq_some {disk : Disk Name Content} {names : List Name} {content : Content}
    {written : Disk Name Content × Place Name} :
    disk.write names content = some written ↔
      ∃ place, disk.locate names = some place ∧ disk.isDirectory place = false ∧
        written = ((place, .file content) :: disk, place) := by
  rw [write]
  cases disk.locate names with
  | none => exact iff_of_false nofun (by rintro ⟨place, located, -⟩; cases located)
  | some place =>
      dsimp only
      split_ifs with isDirectory
      · refine iff_of_false nofun ?_
        rintro ⟨there, located, isFile, -⟩
        cases located
        exact Bool.eq_false_iff.mp isFile isDirectory
      · constructor
        · intro same
          cases same
          exact ⟨place, rfl, Bool.eq_false_iff.mpr isDirectory, rfl⟩
        · rintro ⟨there, located, -, rfl⟩
          cases located
          rfl

theorem item_write {disk : Disk Name Content} {names : List Name} {content : Content}
    {written : Disk Name Content × Place Name} (writes : disk.write names content = some written)
    {place : Place Name} (other : place ≠ written.2) :
    written.1.item place = disk.item place := by
  obtain ⟨there, -, -, rfl⟩ := write_eq_some.mp writes
  exact item_of_look (look_cons_ne _ other _)

theorem item_remove {disk after : Disk Name Content} {names : List Name} {removed : Place Name}
    (removes : disk.remove names = .removed removed after) {place : Place Name}
    (other : place ≠ removed) : after.item place = disk.item place := by
  rw [remove] at removes
  split at removes
  · cases removes
  · split at removes
    · cases removes
    · split at removes
      · cases removes
      · cases removes
      · cases removes
        exact item_of_look (look_filter_ne _ other)

end Disk

end SpecAsCode.Lib
