import SignatureIndex.Source.Scan

/-!
# Worlds that are alike

Two worlds are alike if the same things stand in the same places, though files may hold other bytes.
In worlds that are alike every path leads to the same place, and the same names stand in every
directory.  How the world keeps track of what stands where has no part in this.
-/

namespace SignatureIndex

/-- Whether two nodes are the same, or two files, or two programs that start in the same way,
whatever they hold. -/
inductive Node.Alike : Node → Node → Prop
  | file {bytes other : List UInt8} : Alike (.file bytes) (.file other)
  | program {bytes other : List UInt8} {start : Except FileError Program} :
      Alike (.program ⟨bytes, start⟩) (.program ⟨other, start⟩)
  | same {node : Node} : Alike node node

theorem Node.Alike.isDirectory_eq {node other : Node} (alike : node.Alike other) :
    other.isDirectory = node.isDirectory := by
  cases alike <;> rfl

theorem Node.Alike.isFile_eq {node other : Node} (alike : node.Alike other) :
    other.isFile = node.isFile := by
  cases alike <;> rfl

namespace World

/-! ## What stands in a directory -/

section Names

variable {w : World} {location : Location} {name : String}

/-- Whether something has a name in the directory at a location, and a path can name it. -/
def StandsIn (w : World) (location : Location) (name : String) : Prop :=
  (w.node? (location ++ [name])).isSome = true ∧ isLost (location ++ [name]) = false

private theorem isSome_node?_iff (below : location ≠ []) : (w.node? location).isSome = true ↔
    location ∈ w.locations := by
  constructor
  · intro present
    obtain ⟨node, here⟩ := Option.isSome_iff_exists.mp present
    exact mem_locations_of_node? here below
  · intro listed
    obtain ⟨⟨place, node⟩, among, rfl⟩ := List.mem_map.mp listed
    have filled : place.isEmpty = false := by simpa using below
    unfold node?
    rw [if_neg (Bool.eq_false_iff.mp filled), Option.isSome_iff_ne_none, ne_eq,
      List.lookup_eq_none_iff]
    intro none
    simpa using none _ among

private theorem standsIn_iff_mem : w.StandsIn location name ↔
    location ++ [name] ∈ w.locations ∧ isLost (location ++ [name]) = false := by
  rw [StandsIn, isSome_node?_iff (by simp)]

/-- The names in a directory are those that stand in it. -/
theorem mem_namesAt_iff : name ∈ w.namesAt location ↔ w.StandsIn location name := by
  rw [namesAt, standsIn_iff_mem, List.mem_filterMap]
  constructor
  · rintro ⟨place, listed, last⟩
    split at last
    next here =>
      obtain ⟨directory, rfl⟩ := List.getLast?_eq_some_iff.mp last
      obtain ⟨rfl, nameable⟩ := here
      rw [List.dropLast_concat]
      exact ⟨listed, by simpa using nameable⟩
    · cases last
  · rintro ⟨listed, nameable⟩
    exact ⟨_, listed, by simp [nameable]⟩

end Names

/-! ## The same things in the same places -/

/-- Whether the same things stand in the same places of two worlds, apart from what files hold. -/
structure Alike (w w' : World) : Prop where
  stands : ∀ location, Option.Rel Node.Alike (w.node? location) (w'.node? location)
  system_eq : w'.system = w.system
  workingDirectory_eq : w'.workingDirectory = w.workingDirectory

namespace Alike

variable {w w' : World} (alike : Alike w w')
include alike

/-! ## Where paths lead -/

theorem any_node?_eq {asks : Node → Bool}
    (same : ∀ node other, node.Alike other → asks other = asks node)
    (location : Location) : (w'.node? location).any asks = (w.node? location).any asks := by
  have nodes := alike.stands location
  generalize w.node? location = here, w'.node? location = there at nodes ⊢
  cases nodes with
  | none => rfl
  | some nodes => exact same _ _ nodes

theorem hasDirectory_eq (location : Location) :
    w'.hasDirectory location = w.hasDirectory location :=
  alike.any_node?_eq (fun _ _ nodes => nodes.isDirectory_eq) location

theorem step_eq (place : Location) (name : String) : w'.step place name = w.step place name := by
  simp only [step, alike.hasDirectory_eq, alike.system_eq]
  have nodes := alike.stands (place ++ [name])
  generalize w.node? (place ++ [name]) = here, w'.node? (place ++ [name]) = there at nodes ⊢
  -- a link stays a link to the same target, and nothing else becomes one
  cases nodes with
  | none => rfl
  | some nodes => cases nodes <;> rfl

private theorem walkWith_eq (follow : Location → List String → Except FileError Location) :
    w'.walkWith follow = w.walkWith follow := by
  funext place names
  induction names generalizing place with
  | nil => rfl
  | cons name names ih => simp only [walkWith, alike.step_eq, ih]

theorem walk_eq (links : Nat) : w'.walk links = w.walk links := by
  induction links with
  | zero => exact alike.walkWith_eq _
  | succ links ih =>
    unfold walk
    rw [ih]
    exact alike.walkWith_eq _

theorem startOf_eq (path : Path) : w'.startOf path = w.startOf path := by
  rw [startOf, startOf, alike.workingDirectory_eq]

theorem locate_eq (path : Path) : w'.locate path = w.locate path := by
  unfold locate
  rw [alike.walk_eq, alike.startOf_eq, alike.system_eq]

private theorem resolveWith_eq (follow : Path → String → Except Impasse Path) :
    w'.resolveWith follow = w.resolveWith follow := by
  funext path names
  induction names generalizing path with
  | nil => rfl
  | cons name names ih =>
    have same : w'.linkAt? path name = w.linkAt? path name := by
      simp only [linkAt?, alike.walk_eq, alike.startOf_eq, alike.step_eq]
    simp only [resolveWith, same, ih]

theorem resolveNames_eq (depth : Nat) : w'.resolveNames depth = w.resolveNames depth := by
  induction depth with
  | zero =>
    funext within
    exact alike.resolveWith_eq _
  | succ depth ih =>
    funext within
    unfold resolveNames
    rw [ih]
    exact alike.resolveWith_eq _

theorem resolve_eq (path : Path) : w'.resolve path = w.resolve path := by
  have sameEnd : w'.endOf path = w.endOf path := by rw [endOf, endOf, alike.resolveNames_eq]
  have sameRoot : w'.fromRoot = w.fromRoot := by
    funext path
    simp only [fromRoot, spot, alike.startOf_eq, alike.workingDirectory_eq]
  simp only [resolve, goalOf, sameEnd, sameRoot, alike.locate_eq]

/-! ## What is asked about a path -/

theorem reach_eq (path : Path) : w'.reach path = w.reach path := by
  unfold reach
  rw [alike.locate_eq]

theorem fileAt_eq (path : Path) : w'.fileAt path = w.fileAt path := by
  have same := alike.any_node?_eq fun _ _ nodes => nodes.isFile_eq
  unfold fileAt
  simp only [alike.reach_eq, same]

theorem isDirectory_eq (path : Path) : w'.isDirectory path = w.isDirectory path := by
  have same : w'.hasDirectory = w.hasDirectory := funext alike.hasDirectory_eq
  unfold isDirectory
  rw [alike.reach_eq, same]

theorem knownFileAt_eq (path : Path) : w'.knownFileAt path = w.knownFileAt path := by
  unfold knownFileAt
  rw [alike.fileAt_eq, alike.resolve_eq]

theorem firstFile_eq (paths : List Path) : w'.firstFile paths = w.firstFile paths := by
  unfold firstFile
  simp only [alike.knownFileAt_eq]

/-! ## What is listed -/

theorem standsIn_congr (location : Location) (name : String) :
    w'.StandsIn location name ↔ w.StandsIn location name := by
  have same := @any_node?_eq w w' alike (fun _ => true) (fun _ _ _ => rfl) (location ++ [name])
  unfold StandsIn
  rw [← Option.any_true, ← Option.any_true, same]

end Alike

/-! ## Orders of enumeration -/

/-- Where each key has one value, the order of the entries does not matter. -/
theorem lookup_eq_of_perm {entries others : List (Location × Node)} (perm : entries.Perm others)
    (once : (entries.map (·.1)).Nodup) (location : Location) :
    others.lookup location = entries.lookup location := by
  induction perm with
  | nil => rfl
  | cons entry _ ih =>
    rw [List.lookup_cons, List.lookup_cons, ih (List.nodup_cons.mp once).2]
  | swap first second rest =>
    obtain ⟨place, node⟩ := first
    obtain ⟨other, otherNode⟩ := second
    have apart : other ≠ place := by
      rintro rfl
      exact (List.nodup_cons.mp once).1 List.mem_cons_self
    -- the place can be that of one of the two entries only
    by_cases here : location = place
    · have missed : (location == other) = false := by simpa [here] using apart.symm
      simp only [List.lookup_cons, missed]
    · have missed : (location == place) = false := by simpa using here
      simp only [List.lookup_cons, missed]
  | trans before _ ihBefore ihAfter =>
    exact (ihAfter ((before.map _).nodup once)).trans (ihBefore once)

/-- A world that keeps its entries in another order is the same world. -/
theorem alike_of_perm {w w' : World} (perm : w.entries.Perm w'.entries) (once : w.locations.Nodup)
    (sameSystem : w'.system = w.system) (same : w'.workingDirectory = w.workingDirectory) :
    Alike w w' where
  stands location := by
    have here : w'.node? location = w.node? location := by
      unfold node?
      rw [lookup_eq_of_perm perm once]
    rw [here]
    cases w.node? location with
    | none => exact .none
    | some node => exact .some .same
  system_eq := sameSystem
  workingDirectory_eq := same

end World

end SignatureIndex
