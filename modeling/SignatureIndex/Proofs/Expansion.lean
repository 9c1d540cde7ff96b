import SignatureIndex.Source.Item
import SignatureIndex.World.Basic

/-!
# What a scan reads, and where

A scan goes through the items of a file and enters a file at the first form that asks for it.  Its
course is an *expansion*: the items one by one, with the expansion of the file in the place of each
form that was entered.  Which forms those are is not a matter of the forms themselves.  Of all forms
that ask for the same file, the one that comes first, depth first, is entered, and the others are
passed over; the file that the scan starts from counts as entered before them all.
-/

namespace SignatureIndex

/-- The attribute that an item is. -/
def Item.kept? : Item → Option Attribute
  | .kept content => some content
  | _ => none

/-- The attributes that stand in a file itself, in order. -/
def Sheet.ownAttributes (sheet : Sheet) : List Attribute := sheet.items.filterMap Item.kept?

/-- A form that asks for a file, and whether the file was entered there. -/
structure Visit where
  target : Path
  location : Location
  isEntered : Bool

/-- The items of a file from some item on, with what became of each. -/
inductive Expansion where
  | done
  | kept (content : Attribute) (rest : Expansion)
  | entered (target : Path) (location : Location) (inner rest : Expansion)
  | passed (target : Path) (location : Location) (rest : Expansion)

namespace Expansion

/-- The attributes in the order in which they are met, each with the file it stands in, where `here`
is the file that the items belong to. -/
def contributions (here : Location) : Expansion → List (Location × Attribute)
  | done => []
  | kept content rest => (here, content) :: rest.contributions here
  | entered _ location inner rest => inner.contributions location ++ rest.contributions here
  | passed _ _ rest => rest.contributions here

/-- The forms that ask for files, depth first. -/
def visits : Expansion → List Visit
  | done => []
  | kept _ rest => rest.visits
  | entered target location inner rest => ⟨target, location, true⟩ :: (inner.visits ++ rest.visits)
  | passed target location rest => ⟨target, location, false⟩ :: rest.visits

/-- The files that are entered, and the paths by which they are. -/
def files : Expansion → List (Path × Location)
  | done => []
  | kept _ rest => rest.files
  | entered target location inner rest => (target, location) :: (inner.files ++ rest.files)
  | passed _ _ rest => rest.files

/-- The locations of the files that are entered. -/
def reached (expansion : Expansion) : List Location := expansion.files.map Prod.snd

/-- A file is entered exactly where it has not been seen, given the files seen so far. -/
def Fresh : List Location → Expansion → Prop
  | _, done => True
  | seen, kept _ rest => rest.Fresh seen
  | seen, entered _ location inner rest =>
    location ∉ seen ∧ inner.Fresh (location :: seen) ∧
    rest.Fresh (seen ++ location :: inner.reached)
  | seen, passed _ location rest => location ∈ seen ∧ rest.Fresh seen

@[simp] theorem reached_done : done.reached = [] := rfl

@[simp] theorem reached_kept (content : Attribute) (rest : Expansion) :
    (kept content rest).reached = rest.reached := rfl

@[simp] theorem reached_entered (target : Path) (location : Location) (inner rest : Expansion) :
    (entered target location inner rest).reached = location :: (inner.reached ++ rest.reached) := by
  simp [reached, files]

@[simp] theorem reached_passed (target : Path) (location : Location) (rest : Expansion) :
    (passed target location rest).reached = rest.reached := rfl

/-! ### Every file once -/

/-- No file is entered twice, and none that was seen before. -/
theorem nodup_reached {seen : List Location} {expansion : Expansion}
    (fresh : expansion.Fresh seen) : expansion.reached.Nodup ∧ ∀ location ∈ expansion.reached,
    location ∉ seen := by
  induction expansion generalizing seen with
  | done => simp
  | kept content rest ih => exact ih fresh
  | passed target location rest ih => exact ih fresh.2
  | entered target location inner rest ihInner ihRest =>
    obtain ⟨unseen, freshInner, freshRest⟩ := fresh
    obtain ⟨onceInner, newInner⟩ := ihInner freshInner
    obtain ⟨onceRest, newRest⟩ := ihRest freshRest
    simp only [List.mem_append, List.mem_cons, not_or] at newInner newRest
    simp only [reached_entered, List.nodup_cons, List.nodup_append, List.mem_append, List.mem_cons]
    refine ⟨⟨?_, onceInner, onceRest, ?_⟩, ?_⟩
    · -- the file itself counts as seen from here on
      rintro (among | among)
      · exact (newInner _ among).1 rfl
      · exact (newRest _ among).2.1 rfl
    · -- and so does what it includes, for the items after it
      rintro a amongInner b amongRest rfl
      exact (newRest _ amongRest).2.2 amongInner
    · rintro other (rfl | among | among)
      · exact unseen
      · exact (newInner _ among).2
      · exact (newRest _ among).1

/-- An attribute stands in the file at hand or in one that is entered. -/
theorem mem_of_mem_contributions {here : Location} {expansion : Expansion}
    {entry : Location × Attribute} (among : entry ∈ expansion.contributions here) :
    entry.1 = here ∨ entry.1 ∈ expansion.reached := by
  induction expansion generalizing here with
  | done => cases among
  | kept content rest ih =>
    rcases List.mem_cons.mp among with rfl | among
    · exact .inl rfl
    · exact ih among
  | passed target location rest ih => exact ih among
  | entered target location inner rest ihInner ihRest =>
    rw [reached_entered, List.mem_cons, List.mem_append]
    rcases List.mem_append.mp among with among | among
    · rcases ihInner among with same | within
      · exact .inr (.inl same)
      · exact .inr (.inr (.inl within))
    · exact (ihRest among).imp_right fun within => .inr (.inr within)

/-- What a file contributes to an expansion. -/
def contributed (location : Location) (entries : List (Location × Attribute)) : List Attribute :=
  (entries.filter fun entry => entry.1 = location).map Prod.snd

theorem contributed_append (location : Location) (first second : List (Location × Attribute)) :
    contributed location (first ++ second) =
      contributed location first ++ contributed location second := by
  simp [contributed]

theorem contributed_cons_self (here : Location) (content : Attribute)
    (entries : List (Location × Attribute)) :
    contributed here ((here, content) :: entries) = content :: contributed here entries := by
  simp [contributed]

theorem contributed_cons_of_ne {location here : Location} (other : location ≠ here)
    (content : Attribute) (entries : List (Location × Attribute)) :
    contributed location ((here, content) :: entries) = contributed location entries := by
  simp [contributed, Ne.symm other]

theorem contributed_of_not_reached {location here : Location} {expansion : Expansion}
    (elsewhere : location ≠ here) (unreached : location ∉ expansion.reached) :
    contributed location (expansion.contributions here) = [] := by
  have none : (expansion.contributions here).filter (fun entry => entry.1 = location) = [] := by
    rw [List.filter_eq_nil_iff]
    intro entry among same
    obtain rfl : entry.1 = location := by simpa using same
    rcases mem_of_mem_contributions among with rfl | within
    · exact elsewhere rfl
    · exact unreached within
  rw [contributed, none, List.map_nil]

/-! ### First come, first entered -/

/-- A file asked for has been seen before or is entered somewhere. -/
theorem mem_visits_iff_mem_reached {seen : List Location} {expansion : Expansion}
    (fresh : expansion.Fresh seen) (location : Location) :
    location ∈ seen ++ expansion.visits.map Visit.location ↔
    location ∈ seen ++ expansion.reached := by
  induction expansion generalizing seen with
  | done => rfl
  | kept content rest ih => exact ih fresh
  | passed target other rest ih =>
    have deeper := ih fresh.2
    have old := fresh.1
    simp only [visits, List.map_cons, List.mem_append, List.mem_cons, reached_passed] at deeper ⊢
    by_cases same : location = other
    · simp [same, old]
    · simpa [same] using deeper
  | entered target other inner rest ihInner ihRest =>
    have inside := ihInner fresh.2.1
    have after := ihRest fresh.2.2
    simp only [visits, List.map_cons, List.map_append, List.mem_append, List.mem_cons,
      reached_entered] at inside after ⊢
    grind

/-- Depth first, a form is entered exactly if no form before it asks for the same file. -/
theorem isEntered_iff {seen : List Location} {expansion : Expansion} (fresh : expansion.Fresh seen)
    {before after : List Visit} {visit : Visit}
    (parts : expansion.visits = before ++ visit :: after) :
    visit.isEntered = true ↔ visit.location ∉ seen ++ before.map Visit.location := by
  induction expansion generalizing seen before after with
  | done => simp [visits] at parts
  | kept content rest ih => exact ih fresh parts
  | passed target location rest ih =>
    obtain ⟨old, freshRest⟩ := fresh
    rw [visits] at parts
    cases before with
    | nil =>
      -- the form that is passed over
      obtain ⟨rfl, -⟩ := List.cons.inj parts
      simpa using old
    | cons first before =>
      obtain ⟨rfl, tail⟩ := List.cons.inj parts
      rw [ih freshRest tail]
      grind
  | entered target location inner rest ihInner ihRest =>
    obtain ⟨unseen, freshInner, freshRest⟩ := fresh
    rw [visits] at parts
    cases before with
    | nil =>
      -- the form that enters the file
      obtain ⟨rfl, -⟩ := List.cons.inj parts
      simpa using unseen
    | cons first before =>
      obtain ⟨rfl, tail⟩ := List.cons.inj parts
      have same := mem_visits_iff_mem_reached freshInner visit.location
      simp only [List.mem_append, List.mem_cons] at same
      rcases List.append_eq_append_iff.mp tail with ⟨others, rfl, later⟩ | ⟨others, whole, later⟩
      · -- the form comes after the file that was entered
        rw [ihRest freshRest later]
        grind
      · cases others with
        | nil =>
          -- the form is the first after the file that was entered
          obtain rfl : inner.visits = before := by simpa using whole
          have entered := ihRest freshRest (Eq.trans later.symm (List.nil_append _).symm)
          grind
        | cons head others =>
          -- the form stands in the file that was entered
          obtain ⟨rfl, -⟩ := List.cons.inj later
          rw [ihInner freshInner whole]
          grind

end Expansion

end SignatureIndex
