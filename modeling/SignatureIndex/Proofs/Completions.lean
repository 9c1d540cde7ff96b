import SignatureIndex.Proofs.Unfolding

/-!
# The order in which files are completed

A scan comes to the end of a file after it has come to the end of all files that it has entered from
there.  Each of these was entered by the first form that asked for it, in the file that opened it.
So a file comes after all files that it has opened, and it comes to its own attributes together with
those that the files it has opened came to.
-/

namespace SignatureIndex

/-- A file that a scan has come to the end of: the file that opened it, unless the scan started from
it, the path by which it was asked for, where it stands, and what its items unfolded to. -/
structure Completion where
  opener : Option Location
  path : Path
  location : Location
  held : Expansion

/-- To how many attributes a file came, with those of all files that were entered from it. -/
def Completion.count (completion : Completion) : Nat := completion.held.attributes.length

/-- To how many attributes some files came together. -/
def Completion.total : List Completion → Nat
  | [] => 0
  | record :: records => record.count + total records

/-- How it is reported that a file is complete. -/
def Completion.event (completion : Completion) : Event :=
  .report .info .scanner s!"scanned {completion.path}: {completion.count} attribute(s)"

namespace Expansion

/-- The files that are entered, in the order in which they are completed. -/
def completions (here : Location) : Expansion → List Completion
  | done => []
  | kept _ rest => rest.completions here
  | entered target location inner rest =>
    inner.completions location ++ ⟨some here, target, location, inner⟩ :: rest.completions here
  | passed _ _ rest => rest.completions here

/-- The files that a scan completes which starts from the file at `path`, that one last. -/
def completionsFrom (path : Path) (root : Location) (expansion : Expansion) : List Completion :=
  expansion.completions root ++ [⟨none, path, root, expansion⟩]

/-- The files that are entered by forms of the file at hand. -/
def opened (here : Location) : Expansion → List Completion
  | done => []
  | kept _ rest => rest.opened here
  | entered target location inner rest => ⟨some here, target, location, inner⟩ :: rest.opened here
  | passed _ _ rest => rest.opened here

/-- The forms of the file at hand that ask for files. -/
def asks : Expansion → List Visit
  | done => []
  | kept _ rest => rest.asks
  | entered target location _ rest => ⟨target, location, true⟩ :: rest.asks
  | passed target location rest => ⟨target, location, false⟩ :: rest.asks

/-- The forms that ask for files, depth first, each with the file that it stands in. -/
def forms (here : Location) : Expansion → List (Location × Visit)
  | done => []
  | kept _ rest => rest.forms here
  | entered target location inner rest =>
    (here, ⟨target, location, true⟩) :: (inner.forms location ++ rest.forms here)
  | passed target location rest => (here, ⟨target, location, false⟩) :: rest.forms here

/-- The completions of files that the file at a location has opened. -/
def openedBy (location : Location) (records : List Completion) : List Completion :=
  records.filter fun record => record.opener = some location

variable {here location outer : Location} {expansion : Expansion} {record : Completion}
    {visit : Visit}

@[simp] theorem openedBy_append (first second : List Completion) :
    openedBy location (first ++ second) = openedBy location first ++ openedBy location second :=
  List.filter_append ..

private theorem openedBy_cons_self (target : Path) (place : Location) (held : Expansion)
    (records : List Completion) :
    openedBy location (⟨some location, target, place, held⟩ :: records) =
      ⟨some location, target, place, held⟩ :: openedBy location records :=
  List.filter_cons_of_pos (by simp)

theorem openedBy_cons_of_ne {records : List Completion} (other : record.opener ≠ some location) :
    openedBy location (record :: records) = openedBy location records :=
  List.filter_cons_of_neg (by simpa using other)

/-- An expansion gives its attributes in the order in which they are met. -/
theorem map_snd_contributions (here : Location) (expansion : Expansion) :
    (expansion.contributions here).map Prod.snd = expansion.attributes := by
  induction expansion generalizing here with
  | done => rfl
  | kept content rest ih => exact congrArg (content :: ·) (ih here)
  | passed target location rest ih => exact ih here
  | entered target location inner rest ihInner ihRest =>
    rw [contributions, List.map_append, ihInner, ihRest, attributes]

/-! ## Where files are opened -/

theorem perm_completions (here : Location) (expansion : Expansion) :
    ((expansion.completions here).map Completion.location).Perm expansion.reached := by
  induction expansion generalizing here with
  | done => exact .nil
  | kept content rest ih => exact ih here
  | passed target location rest ih => exact ih here
  | entered target location inner rest ihInner ihRest =>
    -- what is reached names the file before all that is entered from it, and the completions name
    -- it after that
    rw [completions, List.map_append, List.map_cons, reached_entered]
    exact List.perm_middle.trans (((ihInner location).append (ihRest here)).cons _)

@[simp] theorem mem_completionsFrom {path : Path} : record ∈ expansion.completionsFrom path here ↔
    record ∈ expansion.completions here ∨ record = ⟨none, path, here, expansion⟩ := by
  rw [completionsFrom, List.mem_append, List.mem_singleton]

theorem mem_reached_of_mem_completions (among : record ∈ expansion.completions here) :
    record.location ∈ expansion.reached :=
  (perm_completions here expansion).mem_iff.mp (List.mem_map_of_mem among)

/-- A file is opened by the file at hand or by one that has been entered. -/
theorem exists_opener_of_mem_completions (among : record ∈ expansion.completions here) :
    ∃ outer ∈ here :: expansion.reached, record.opener = some outer := by
  induction expansion generalizing here with
  | done => cases among
  | kept content rest ih => exact ih among
  | passed target location rest ih => exact ih among
  | entered target location inner rest ihInner ihRest =>
    rw [reached_entered]
    rcases List.mem_append.mp among with among | among
    · obtain ⟨outer, within, opens⟩ := ihInner among
      refine ⟨outer, ?_, opens⟩
      rcases List.mem_cons.mp within with rfl | within
      · simp
      · simp [within]
    rcases List.mem_cons.mp among with rfl | among
    · exact ⟨here, List.mem_cons_self, rfl⟩
    · obtain ⟨outer, within, opens⟩ := ihRest among
      refine ⟨outer, ?_, opens⟩
      rcases List.mem_cons.mp within with rfl | within
      · simp
      · simp [within]

theorem opener_ne_of_elsewhere (elsewhere : location ∉ here :: expansion.reached)
    (among : record ∈ expansion.completions here) : record.opener ≠ some location := by
  obtain ⟨outer, within, opens⟩ := exists_opener_of_mem_completions among
  rw [opens]
  rintro ⟨⟩
  exact elsewhere within

theorem openedBy_of_elsewhere (elsewhere : location ∉ here :: expansion.reached) :
    openedBy location (expansion.completions here) = [] := by
  apply List.filter_eq_nil_iff.mpr
  intro record among
  simpa using opener_ne_of_elsewhere elsewhere among

/-- The file at hand, which is not entered again, opens what its own forms enter. -/
theorem openedBy_here (unreached : here ∉ expansion.reached) :
    openedBy here (expansion.completions here) = expansion.opened here := by
  induction expansion with
  | done => rfl
  | kept content rest ih => exact ih unreached
  | passed target location rest ih => exact ih unreached
  | entered target location inner rest _ ihRest =>
    rw [reached_entered, List.mem_cons, List.mem_append, not_or, not_or] at unreached
    obtain ⟨other, notInner, notRest⟩ := unreached
    have elsewhere : here ∉ location :: inner.reached := by simp [other, notInner]
    rw [completions, openedBy_append, openedBy_of_elsewhere elsewhere, List.nil_append,
      openedBy_cons_self, ihRest notRest, opened]

/-- What has been entered by a form, by the forms of that file, and by the forms after it stands
apart. -/
theorem apart_of_nodup_entered {target : Path} {inner rest : Expansion}
    (once : (here :: (entered target location inner rest).reached).Nodup) :
    (location :: inner.reached).Nodup ∧ (here :: rest.reached).Nodup ∧
      (∀ place ∈ location :: inner.reached, place ∉ here :: rest.reached) := by
  simp only [reached_entered, List.nodup_cons, List.nodup_append, List.mem_cons, List.mem_append,
    not_or] at once ⊢
  obtain ⟨⟨notTarget, notInner, notRest⟩, ⟨targetNotInner, targetNotRest⟩, onceInner, onceRest,
      apart⟩ := once
  refine ⟨⟨targetNotInner, onceInner⟩, ⟨notRest, onceRest⟩, ?_⟩
  rintro place (rfl | within)
  · exact ⟨Ne.symm notTarget, targetNotRest⟩
  · exact ⟨fun same => notInner (same ▸ within), fun later => apart place within place later rfl⟩

/-- Every file that is entered opens what its own forms enter. -/
theorem openedBy_of_mem (once : (here :: expansion.reached).Nodup)
    (among : record ∈ expansion.completions here) :
    openedBy record.location (expansion.completions here) = record.held.opened record.location := by
  induction expansion generalizing here with
  | done => cases among
  | kept content rest ih => exact ih once among
  | passed target location rest ih => exact ih once among
  | entered target location inner rest ihInner ihRest =>
    obtain ⟨onceInner, onceRest, apart⟩ := apart_of_nodup_entered once
    have atHand (other : record.location ≠ here) :
        (some here : Option Location) ≠ some record.location :=
      fun same => other (Option.some.inj same).symm
    rw [completions, openedBy_append]
    rcases List.mem_append.mp among with among | among
    · -- a file that is entered from the one that is entered here
      have elsewhere := apart _ (List.mem_cons_of_mem _ (mem_reached_of_mem_completions among))
      have other : record.location ≠ here := fun same => elsewhere (same ▸ List.mem_cons_self)
      rw [ihInner onceInner among, openedBy_cons_of_ne (atHand other),
        openedBy_of_elsewhere elsewhere, List.append_nil]
    rcases List.mem_cons.mp among with rfl | among
    · -- the file that is entered here
      have elsewhere := apart _ List.mem_cons_self
      have other : location ≠ here := fun same => elsewhere (same ▸ List.mem_cons_self)
      rw [openedBy_here (List.nodup_cons.mp onceInner).1, openedBy_cons_of_ne (atHand other),
        openedBy_of_elsewhere elsewhere, List.append_nil]
    · -- a file that is entered later
      have within := mem_reached_of_mem_completions among
      have other : record.location ≠ here :=
        fun same => (List.nodup_cons.mp onceRest).1 (same ▸ within)
      have elsewhere : record.location ∉ location :: inner.reached :=
        fun earlier => apart _ earlier (List.mem_cons_of_mem _ within)
      rw [openedBy_of_elsewhere elsewhere, List.nil_append, openedBy_cons_of_ne (atHand other),
        ihRest onceRest among]

/-- No file is completed before one that it has opened, nor does it open itself. -/
theorem pairwise_completions (once : (here :: expansion.reached).Nodup) :
    (expansion.completions here).Pairwise
      (fun earlier later => later.opener ≠ some earlier.location) ∧
      ∀ record ∈ expansion.completions here, record.opener ≠ some record.location := by
  induction expansion generalizing here with
  | done => exact ⟨.nil, nofun⟩
  | kept content rest ih => exact ih once
  | passed target location rest ih => exact ih once
  | entered target location inner rest ihInner ihRest =>
    obtain ⟨onceInner, onceRest, apart⟩ := apart_of_nodup_entered once
    obtain ⟨orderInner, strictInner⟩ := ihInner onceInner
    obtain ⟨orderRest, strictRest⟩ := ihRest onceRest
    have target_ne : (some here : Option Location) ≠ some location := by
      rintro ⟨⟩
      exact apart _ List.mem_cons_self List.mem_cons_self
    constructor
    · -- a file is opened by one of the same part, or it is the one that is entered here, which the
      -- file at hand opens
      rw [completions, List.pairwise_append, List.pairwise_cons]
      refine ⟨orderInner, ⟨fun later among => ?_, orderRest⟩,
        fun earlier amongInner later among => ?_⟩
      · exact opener_ne_of_elsewhere (apart _ List.mem_cons_self) among
      · have elsewhere :=
          apart _ (List.mem_cons_of_mem _ (mem_reached_of_mem_completions amongInner))
        rcases List.mem_cons.mp among with rfl | among
        · rintro ⟨⟩
          exact elsewhere List.mem_cons_self
        · exact opener_ne_of_elsewhere elsewhere among
    · intro record among
      rcases List.mem_append.mp among with among | among
      · exact strictInner record among
      rcases List.mem_cons.mp among with rfl | among
      · exact target_ne
      · exact strictRest record among

/-! ## Which form opens a file -/

theorem map_snd_forms (here : Location) (expansion : Expansion) :
    (expansion.forms here).map Prod.snd = expansion.visits := by
  induction expansion generalizing here with
  | done => rfl
  | kept content rest ih => exact ih here
  | passed target location rest ih => rw [forms, List.map_cons, ih, visits]
  | entered target location inner rest ihInner ihRest =>
    rw [forms, List.map_cons, List.map_append, ihInner, ihRest, visits]

/-- A form asks for the file at hand or for one that is entered somewhere. -/
theorem mem_of_mem_forms (fresh : expansion.Fresh [here])
    (among : (outer, visit) ∈ expansion.forms here) :
    visit.location ∈ here :: expansion.reached := by
  have visited : visit ∈ expansion.visits := by
    rw [← map_snd_forms here]
    exact List.mem_map_of_mem among
  exact (mem_visits_iff_mem_reached fresh visit.location).mp
    (List.mem_append_right [here] (List.mem_map_of_mem visited))

/-- The files that are completed are those that forms enter. -/
theorem mem_forms_iff_exists_completion {target : Path} :
    (outer, ⟨target, location, true⟩) ∈ expansion.forms here ↔
      ∃ record ∈ expansion.completions here, record.opener = some outer ∧ record.path = target ∧
      record.location = location := by
  induction expansion generalizing here with
  | done => simp [forms, completions]
  | kept content rest ih => exact ih
  | passed other place rest ih => simp [forms, completions, ih]
  | entered other place inner rest ihInner ihRest =>
    simp only [forms, completions, List.mem_cons, List.mem_append, ihInner, ihRest, Prod.mk.injEq,
      Visit.mk.injEq, and_true, or_and_right, exists_or, exists_eq_left, Option.some.injEq]
    grind

/-- A form stands in the file at hand or in one that is entered. -/
theorem mem_forms_iff : (outer, visit) ∈ expansion.forms here ↔
    outer = here ∧ visit ∈ expansion.asks ∨ ∃ record ∈ expansion.completions here,
    outer = record.location ∧ visit ∈ record.held.asks := by
  induction expansion generalizing here with
  | done => simp [forms, asks, completions]
  | kept content rest ih => exact ih
  | passed other place rest ih =>
    simp only [forms, asks, completions, List.mem_cons, ih, Prod.mk.injEq]
    grind
  | entered other place inner rest ihInner ihRest =>
    simp only [forms, asks, completions, List.mem_cons, List.mem_append, ihInner, ihRest,
      Prod.mk.injEq, or_and_right, exists_or, exists_eq_left]
    grind

/-! ## With the file that the scan starts from -/

section Root

variable {path : Path} {root : Location}

theorem perm_completionsFrom (path : Path) (root : Location) (expansion : Expansion) :
    ((expansion.completionsFrom path root).map Completion.location).Perm
      (root :: expansion.reached) := by
  rw [completionsFrom, List.map_append]
  exact List.perm_append_comm.trans ((perm_completions root expansion).cons root)

theorem openedBy_completionsFrom (once : (root :: expansion.reached).Nodup)
    (among : record ∈ expansion.completionsFrom path root) :
    openedBy record.location (expansion.completionsFrom path root) =
      record.held.opened record.location := by
  have dropped : openedBy record.location [⟨none, path, root, expansion⟩] = [] :=
    openedBy_cons_of_ne (Option.some_ne_none _).symm
  rw [completionsFrom, openedBy_append, dropped, List.append_nil]
  rcases mem_completionsFrom.mp among with among | rfl
  · exact openedBy_of_mem once among
  · exact openedBy_here (List.nodup_cons.mp once).1

/-- A file comes after the files that it has opened. -/
theorem mem_before_of_opener (once : (root :: expansion.reached).Nodup)
    {before later : List Completion}
    (parts : expansion.completionsFrom path root = before ++ record :: later) {inner : Completion}
    (among : inner ∈ expansion.completionsFrom path root)
    (opens : inner.opener = some record.location) :
    inner ∈ before := by
  obtain ⟨order, strict⟩ := pairwise_completions once
  have orderAll : (expansion.completionsFrom path root).Pairwise
      fun earlier later => later.opener ≠ some earlier.location := by
    refine List.pairwise_append.mpr ⟨order, List.pairwise_singleton _ _,
      fun earlier _ later isRoot => ?_⟩
    obtain rfl := List.mem_singleton.mp isRoot
    exact (Option.some_ne_none _).symm
  have strictAll : inner.opener ≠ some inner.location := by
    rcases mem_completionsFrom.mp among with among | rfl
    · exact strict inner among
    · exact (Option.some_ne_none _).symm
  rw [parts, List.pairwise_append, List.pairwise_cons] at orderAll
  rw [parts] at among
  rcases List.mem_append.mp among with among | among
  · exact among
  rcases List.mem_cons.mp among with rfl | among
  · exact absurd opens strictAll
  · exact absurd opens (orderAll.2.1.1 inner among)

/-- A form stands in one of the files that are completed. -/
theorem mem_forms_iff_exists_asks : (outer, visit) ∈ expansion.forms root ↔
    ∃ record ∈ expansion.completionsFrom path root, outer = record.location ∧
    visit ∈ record.held.asks := by
  rw [mem_forms_iff]
  simp only [mem_completionsFrom, or_and_right, exists_or, exists_eq_left]
  exact or_comm

end Root

end Expansion

namespace World

variable {w : World} {options : ScanOptions} {path : Path} {items : List Item}
    {expansion : Expansion} {here : Location} {record : Completion} {visit : Visit}

/-- A file that is completed has been read, and its items have unfolded. -/
theorem exists_sheet_of_mem_completions (unfolds : Unfolds w options path items expansion)
    (among : record ∈ expansion.completions here) :
    ∃ sheet, (w.sheet record.path).outcome = .ok (some record.location, sheet) ∧
      sheet.unfinished = none ∧ Unfolds w options record.path sheet.items record.held := by
  induction unfolds generalizing here with
  | done => cases among
  | kept _ ih => exact ih among
  | passed _ _ ih => exact ih among
  | entered found read finished unfoldsInner _ ihInner ihRest =>
    rcases List.mem_append.mp among with among | among
    · exact ihInner among
    rcases List.mem_cons.mp among with rfl | among
    · exact ⟨_, read, finished, unfoldsInner⟩
    · exact ihRest among

/-- A file comes to its own attributes and to those that the files it opens come to. -/
theorem length_attributes_of_unfolds (unfolds : Unfolds w options path items expansion)
    (here : Location) : expansion.attributes.length =
      (items.filterMap Item.kept?).length + Completion.total (expansion.opened here) := by
  induction unfolds with
  | done => rfl
  | kept _ ih =>
    rw [Expansion.attributes, List.length_cons, ih, Expansion.opened, List.filterMap_cons]
    simp only [Item.kept?, List.length_cons]
    omega
  | passed _ _ ih =>
    rw [Expansion.attributes, ih, Expansion.opened, List.filterMap_cons]
    rfl
  | entered _ _ _ _ _ _ ih =>
    -- the attributes of a file that is opened come to its count, which is not taken apart further
    rw [Expansion.attributes, List.length_append, ih, Expansion.opened, List.filterMap_cons,
      Completion.total]
    simp only [Item.kept?, Completion.count]
    omega

/-- The forms that ask for files are the inclusions among the items, and each leads to the file that
is found for it. -/
theorem exists_inclusion_of_mem_asks (unfolds : Unfolds w options path items expansion)
    (among : visit ∈ expansion.asks) : ∃ kind name span, .inclusion kind name span ∈ items ∧
      w.firstFile (options.candidates kind name path) =
        .ok (some (visit.target, visit.location)) := by
  induction unfolds with
  | done => cases among
  | kept _ ih =>
    obtain ⟨kind, name, span, listed, found⟩ := ih among
    exact ⟨kind, name, span, List.mem_cons_of_mem _ listed, found⟩
  | passed found _ ih =>
    rcases List.mem_cons.mp among with rfl | among
    · exact ⟨_, _, _, List.mem_cons_self, found⟩
    · obtain ⟨kind, name, span, listed, found⟩ := ih among
      exact ⟨kind, name, span, List.mem_cons_of_mem _ listed, found⟩
  | entered found _ _ _ _ _ ih =>
    rcases List.mem_cons.mp among with rfl | among
    · exact ⟨_, _, _, List.mem_cons_self, found⟩
    · obtain ⟨kind, name, span, listed, found⟩ := ih among
      exact ⟨kind, name, span, List.mem_cons_of_mem _ listed, found⟩

theorem exists_mem_asks_of_inclusion {kind : IncludeKind} {name : String} {span : Span}
    (unfolds : Unfolds w options path items expansion)
    (listed : .inclusion kind name span ∈ items) :
    ∃ visit ∈ expansion.asks,
      w.firstFile (options.candidates kind name path) =
        .ok (some (visit.target, visit.location)) := by
  induction unfolds with
  | done => cases listed
  | kept _ ih =>
    rcases List.mem_cons.mp listed with same | later
    · cases same
    · exact ih later
  | passed found _ ih =>
    rcases List.mem_cons.mp listed with same | listed
    · cases same
      exact ⟨_, List.mem_cons_self, found⟩
    · obtain ⟨visit, among, found⟩ := ih listed
      exact ⟨visit, List.mem_cons_of_mem _ among, found⟩
  | entered found _ _ _ _ _ ih =>
    rcases List.mem_cons.mp listed with same | listed
    · cases same
      exact ⟨_, List.mem_cons_self, found⟩
    · obtain ⟨visit, among, found⟩ := ih listed
      exact ⟨visit, List.mem_cons_of_mem _ among, found⟩

end World

end SignatureIndex
