import SignatureIndex.Source.Scan
import SignatureIndex.Proofs.Outcomes

/-!
# The two ways of following a path agree

`locate` asks that every place on the way is there and counts the links it follows; `resolve` asks
for nothing and follows a link unless this happens within the target of the same link.  Where the
first arrives, so does the second: whatever path or link leads to a file, the location that tells
files apart is the one its resolved path names.

A way on which every link has been followed to its end is a derivation of `Leads`.  In such a way no
link is met again while its own target is being followed, because following a link from its place
has one end only and would never come to it (`Avoids`).  So resolving meets no circle on it, and
links are nested at most as deep as they are many.
-/

namespace SignatureIndex.World

variable {w : World}

/-- A name that leads to a link is a name of its own in a directory, and the link stands there. -/
theorem node?_of_step {place : Location} {name target : String}
    (stepped : w.step place name = .ok (.link target)) :
    Path.isIdle name = false ∧ name ≠ ".." ∧ w.node? (place ++ [name]) = some (.link target) := by
  unfold step at stepped
  split at stepped
  · cases stepped
  split at stepped
  · cases stepped
  next filled =>
  split at stepped
  · cases stepped
  split at stepped
  · cases stepped
  next going =>
  split at stepped
  · cases stepped
  next down =>
  split at stepped
  · cases stepped
  split at stepped
  · cases stepped
  next other there =>
    cases stepped
    exact ⟨by simp [Path.isIdle, filled, going], down, there⟩
  · cases stepped

/-- A name that leads on leads nowhere else, up, or down. -/
theorem eq_of_step {place next : Location} {name : String}
    (stepped : w.step place name = .ok (.to next)) :
    (Path.isIdle name = true ∧ next = place) ∨ (name = ".." ∧ next = place.dropLast) ∨
      (Path.isIdle name = false ∧ name ≠ ".." ∧ next = place ++ [name]) := by
  unfold step at stepped
  -- one case for each answer, in the order in which they are looked for
  split at stepped
  · cases stepped
  split at stepped
  next empty =>
    cases stepped
    exact .inl ⟨by simp [Path.isIdle, empty], rfl⟩
  next filled =>
  split at stepped
  · cases stepped
  split at stepped
  next dot =>
    cases stepped
    exact .inl ⟨by simp [Path.isIdle, dot], rfl⟩
  next going =>
  split at stepped
  next dots =>
    cases stepped
    exact .inr (.inl ⟨dots, rfl⟩)
  next down =>
  split at stepped
  · cases stepped
  split at stepped
  · cases stepped
  · cases stepped
  · cases stepped
    exact .inr (.inr ⟨by simp [Path.isIdle, filled, going], down, rfl⟩)

/-- Where names lead from a location, through so many links. -/
inductive Leads (w : World) : Nat → Location → List String → Location → Prop
  | arrive (place) : Leads w 0 place [] place
  | step {links place name names next goal} : w.step place name = .ok (.to next) →
      Leads w links next names goal → Leads w links place (name :: names) goal
  | link {inner outer place name target names middle goal} :
      w.step place name = .ok (.link target) →
      Leads w inner (targetStart place target) (Path.namesIn target) middle →
      Leads w outer middle names goal → Leads w (inner + outer + 1) place (name :: names) goal

/-- A way along two rows of names passes the place between them. -/
theorem exists_middle_of_leads {links : Nat} {place goal : Location} {first second : List String}
    (leads : Leads w links place (first ++ second) goal) :
    ∃ inner outer middle, links = inner + outer ∧ Leads w inner place first middle ∧
      Leads w outer middle second goal := by
  induction first generalizing links place with
  | nil => exact ⟨0, links, place, (Nat.zero_add links).symm, .arrive place, leads⟩
  | cons name first ih =>
    cases leads with
    | step stepped deeper =>
      obtain ⟨inner, outer, middle, parts, before, after⟩ := ih deeper
      exact ⟨inner, outer, middle, parts, .step stepped before, after⟩
    | @link within _ _ _ _ _ _ _ stepped nested deeper =>
      obtain ⟨inner, outer, middle, rfl, before, after⟩ := ih deeper
      exact ⟨within + inner + 1, outer, middle, by omega, .link stepped nested before, after⟩

/-- Names lead to one place only, and through the same links. -/
theorem leads_unique {links others : Nat} {place goal other : Location} {names : List String}
    (leads : Leads w links place names goal) (leadsOther : Leads w others place names other) :
    goal = other ∧ links = others := by
  -- the first name decides the step
  induction leads generalizing others other with
  | arrive => cases leadsOther; exact ⟨rfl, rfl⟩
  | step stepped _ ih =>
    cases leadsOther with
    | step stepped' deeper =>
      cases stepped.symm.trans stepped'
      exact ih deeper
    | link stepped' => cases stepped.symm.trans stepped'
  | link stepped _ _ ihNested ih =>
    cases leadsOther with
    | step stepped' => cases stepped.symm.trans stepped'
    | link stepped' nested deeper =>
      cases stepped.symm.trans stepped'
      obtain ⟨rfl, rfl⟩ := ihNested nested
      obtain ⟨rfl, rfl⟩ := ih deeper
      exact ⟨rfl, rfl⟩

/-- Walking with some rule for links is a way, if that rule gives ways. -/
theorem exists_leads_of_walkWith {follow : Location → List String → Except FileError Location}
    {most : Nat} (follows : ∀ {place goal : Location} {names : List String},
      follow place names = .ok goal → ∃ links < most, Leads w links place names goal)
    {place goal : Location} {names : List String}
    (walked : w.walkWith follow place names = .ok goal) :
    ∃ links ≤ most, Leads w links place names goal := by
  induction names generalizing place with
  | nil =>
    cases walked
    exact ⟨0, Nat.zero_le _, .arrive _⟩
  | cons name names ih =>
    -- a walk that stops with an error is none
    unfold walkWith at walked
    split at walked
    · cases walked
    next next stepped =>
      obtain ⟨links, few, deeper⟩ := ih walked
      exact ⟨links, few, .step stepped deeper⟩
    next target stepped =>
      obtain ⟨links, few, whole⟩ := follows walked
      obtain ⟨inner, outer, middle, rfl, nested, deeper⟩ := exists_middle_of_leads whole
      exact ⟨inner + outer + 1, few, .link stepped nested deeper⟩

private theorem exists_leads_of_walk {most : Nat} {place goal : Location} {names : List String}
    (walked : w.walk most place names = .ok goal) :
    ∃ links ≤ most, Leads w links place names goal := by
  induction most generalizing place names goal with
  | zero => exact exists_leads_of_walkWith (fun never => by cases never) walked
  | succ most ih =>
    refine exists_leads_of_walkWith (fun followed => ?_) walked
    obtain ⟨links, few, leads⟩ := ih followed
    exact ⟨links, Nat.lt_succ_of_le few, leads⟩

/-- Where names lead if some links may not be followed, and none while its own target is
followed. -/
inductive Avoids (w : World) : List Location → Nat → Location → List String → Location → Prop
  | arrive (avoided place) : Avoids w avoided 0 place [] place
  | step {avoided links place name names next goal} : w.step place name = .ok (.to next) →
      Avoids w avoided links next names goal → Avoids w avoided links place (name :: names) goal
  | link {avoided inner outer place name target names middle goal} :
      w.step place name = .ok (.link target) → place ++ [name] ∉ avoided →
      Avoids w ((place ++ [name]) :: avoided) inner (targetStart place target)
        (Path.namesIn target) middle →
      Avoids w avoided outer middle names goal →
      Avoids w avoided (inner + outer + 1) place (name :: names) goal

theorem Avoids.leads {avoided : List Location} {links : Nat} {place goal : Location}
    {names : List String} (avoids : Avoids w avoided links place names goal) :
    Leads w links place names goal := by
  induction avoids with
  | arrive => exact .arrive _
  | step stepped _ ih => exact .step stepped ih
  | link stepped _ _ _ ihNested ih => exact .link stepped ihNested ih

private theorem Avoids.weaken {avoided fewer : List Location} {links : Nat} {place goal : Location}
    {names : List String} (avoids : Avoids w avoided links place names goal)
    (sub : fewer ⊆ avoided) :
    Avoids w fewer links place names goal := by
  induction avoids generalizing fewer with
  | arrive => exact .arrive _ _
  | step stepped _ ih => exact .step stepped (ih sub)
  | link stepped allowed _ _ ihNested ih =>
    exact .link stepped (fun among => allowed (sub among))
      (ihNested (List.cons_subset_cons _ sub)) (ih sub)

/-- A way either leaves a given link alone, or follows it, and then there is a way to the end of
that link which leaves it alone. -/
theorem Avoids.without {avoided : List Location} {links : Nat} {place goal : Location}
    {names : List String} (avoids : Avoids w avoided links place names goal) (directory : Location)
    (last : String) :
    Avoids w ((directory ++ [last]) :: avoided) links place names goal ∨
      ∃ target inner finish, w.step directory last = .ok (.link target) ∧
        Avoids w ((directory ++ [last]) :: avoided) inner (targetStart directory target)
          (Path.namesIn target) finish := by
  induction avoids with
  | arrive => exact .inl (.arrive _ _)
  | step stepped _ ih => exact ih.imp_left (.step stepped)
  | @link avoided inner outer place name target names middle goal stepped allowed nested
      _ ihNested ih =>
    by_cases same : place ++ [name] = directory ++ [last]
    · -- the link itself: its nested way leaves it alone by definition
      obtain ⟨rfl, same⟩ := List.append_inj' same rfl
      obtain rfl : name = last := by simpa using same
      exact .inr ⟨target, inner, middle, stepped, nested⟩
    · rcases ihNested with within | ⟨other, inner', finish, there, way⟩
      · refine ih.imp_left fun after => .link stepped ?_ ?_ after
        · simpa [same] using allowed
        · exact within.weaken (by simp)
      · exact .inr ⟨other, inner', finish, there, way.weaken (by simp)⟩

/-- Following a link to its end never meets the link again. -/
theorem avoids_of_leads {links : Nat} {place goal : Location} {names : List String}
    (leads : Leads w links place names goal) : Avoids w [] links place names goal := by
  induction leads with
  | arrive => exact .arrive _ _
  | step stepped _ ih => exact .step stepped ih
  | @link inner outer place name target names middle goal stepped nested _ ihNested ih =>
    refine .link stepped (by simp) ?_ ih
    rcases ihNested.without place name with way | ⟨other, inner', finish, there, way⟩
    · exact way
    · -- the link would have led to its own end already
      cases stepped.symm.trans there
      obtain ⟨rfl, rfl⟩ := leads_unique nested way.leads
      exact way

/-! ## Resolving along a way -/

/-- What happens at a link while names are followed up to a depth. -/
def followLink (w : World) : Nat → List Path → Path → String → Except Impasse Path
  | 0, _, _, _ => .error .depth
  | depth + 1, within, link, target =>
    if within.contains link then .error (.circle link)
    else w.resolveNames depth (link :: within) (turn link.parent target) (Path.namesIn target)

theorem resolveNames_eq (depth : Nat) (within : List Path) :
    w.resolveNames depth within = w.resolveWith (w.followLink depth within) := by
  cases depth <;> rfl

theorem walk_zero_append (place : Location) (first second : List String) :
    w.walk 0 place (first ++ second) = w.walk 0 place first >>= fun middle =>
    w.walk 0 middle second := by
  induction first generalizing place with
  | nil => rfl
  | cons name first ih =>
    simp only [walk, List.cons_append, walkWith] at ih ⊢
    split
    · rfl
    · exact ih _
    · rfl

theorem walk_zero_singleton {place next : Location} {name : String}
    (stepped : w.step place name = .ok (.to next)) : w.walk 0 place [name] = .ok next := by
  rw [walk, walkWith, stepped]
  rfl

/-- Whether a path that has neither links nor idle names leads to a place. -/
structure Stands (w : World) (path : Path) (place : Location) : Prop where
  walked : w.walk 0 (w.startOf path) path.parts = .ok place
  busy : ∀ name ∈ path.parts, Path.isIdle name = false
  anchor_ne : path.anchor ≠ .doubleRoot

theorem foldl_climb_of_walk {place goal : Location} {names : List String}
    (busy : ∀ name ∈ names, Path.isIdle name = false) (walked : w.walk 0 place names = .ok goal) :
    names.foldl climb place = goal := by
  induction names generalizing place with
  | nil =>
    cases walked
    rfl
  | cons name names ih =>
    obtain ⟨here, rest⟩ := List.forall_mem_cons.mp busy
    rw [walk, walkWith] at walked
    split at walked
    · cases walked
    next next stepped =>
      rw [List.foldl_cons, climb]
      rcases eq_of_step stepped with ⟨idle, -⟩ | ⟨dots, rfl⟩ | ⟨-, down, rfl⟩
      · exact absurd idle (Bool.eq_false_iff.mp here)
      · rw [if_pos dots]
        exact ih rest walked
      · rw [if_neg down]
        exact ih rest walked
    · cases walked

theorem spot_down (path : Path) (name : String) :
    w.spot (path.down name) = climb (w.spot path) name := by
  simp [spot, Path.down, startOf, Path.isAbsolute]

namespace Stands

variable {path : Path} {place next : Location} {name : String}

theorem spot_eq (stands : Stands w path place) : w.spot path = place :=
  foldl_climb_of_walk stands.busy stands.walked

theorem down (stands : Stands w path place) (stepped : w.step place name = .ok (.to next))
    (busy : Path.isIdle name = false) : Stands w (path.down name) next where
  walked := by
    have walked := stands.walked
    rw [startOf, Path.isAbsolute] at walked
    rw [Path.down, startOf, Path.isAbsolute, walk_zero_append, walked]
    exact walk_zero_singleton stepped
  busy := List.forall_mem_append.mpr ⟨stands.busy, List.forall_mem_singleton.mpr busy⟩
  anchor_ne := stands.anchor_ne

/-- Going up from the end of a path is going up from the place that it leads to. -/
theorem above (stands : Stands w path place)
    (stepped : w.step place ".." = .ok (.to place.dropLast)) :
    Stands w path.above place.dropLast := by
  have higher : Stands w (path.down "..") place.dropLast := stands.down stepped (by decide)
  have spot := stands.spot_eq
  unfold Path.above
  split
  next none =>
    split
    next absolute =>
      -- above the root is the root
      rw [World.spot, List.getLast?_eq_none_iff.mp none, startOf, if_pos absolute] at spot
      subst spot
      exact stands
    · exact higher
  next last ends =>
    split
    · exact higher
    next down =>
      -- the place before the last name
      obtain ⟨front, parts⟩ := List.getLast?_eq_some_iff.mp ends
      have shorter : path.parent.parts = front := by simp [Path.parent, parts]
      have busy : ∀ name ∈ front, Path.isIdle name = false :=
        fun name among => stands.busy name (by simp [parts, among])
      have walked := stands.walked
      rw [parts, walk_zero_append] at walked
      obtain ⟨middle, before, -⟩ := bind_eq_ok_iff.mp walked
      rw [World.spot, parts, List.foldl_append, foldl_climb_of_walk busy before, List.foldl_cons,
        List.foldl_nil, climb, if_neg down] at spot
      rw [← spot, List.dropLast_concat]
      exact ⟨by rw [shorter]; exact before, by rw [shorter]; exact busy, stands.anchor_ne⟩

theorem turn (stands : Stands w path place) (target : String) :
    Stands w (turn path target) (targetStart place target) := by
  unfold World.turn targetStart
  split
  · exact stands
  · exact ⟨rfl, nofun, nofun⟩

private theorem linkAt?_eq (stands : Stands w path place) (name : String) :
    w.linkAt? path name = match w.step place name with
      | .ok (.link target) => some target
      | _ => none := by
  rw [linkAt?, stands.walked]
  rfl

end Stands

/-- Resolving arrives where the way does, unless one of the names holds a null character. -/
theorem resolveNames_of_avoids {avoided : List Location} {links : Nat} {place goal : Location}
    {names : List String} (avoids : Avoids w avoided links place names goal) {depth : Nat}
    (enough : links ≤ depth) {within : List Path} (outside : ∀ link ∈ within, w.spot link ∈ avoided)
    {path : Path} (stands : Stands w path place) :
    (∃ reached, w.resolveNames depth within path names = .ok reached ∧ Stands w reached goal) ∨
      w.resolveNames depth within path names = .error .null := by
  induction avoids generalizing depth within path with
  | arrive => exact .inl ⟨path, by rw [resolveNames_eq]; rfl, stands⟩
  | @step avoided links place name names next goal stepped _ ih =>
    rw [resolveNames_eq, resolveWith, ← resolveNames_eq]
    rcases eq_of_step stepped with ⟨idle, rfl⟩ | ⟨rfl, rfl⟩ | ⟨busy, down, rfl⟩
    · rw [if_pos idle]
      exact ih enough outside stands
    · rw [if_neg (by decide), if_pos rfl]
      exact ih enough outside (stands.above stepped)
    · rw [if_neg (Bool.eq_false_iff.mp busy), if_neg down]
      split
      · exact .inr rfl
      rw [stands.linkAt?_eq, stepped]
      exact ih enough outside (stands.down stepped busy)
  | @link avoided inner outer place name target names middle goal stepped allowed _ _ ihNested ih =>
    obtain ⟨busy, down, -⟩ := node?_of_step stepped
    obtain ⟨depth, rfl⟩ : ∃ shallower, depth = shallower + 1 := ⟨depth - 1, by omega⟩
    have fresh : within.contains (path.down name) = false := by
      refine Bool.eq_false_iff.mpr fun among => allowed ?_
      -- the link would be one of those that are avoided
      have spot : w.spot (path.down name) = place ++ [name] := by
        rw [spot_down, stands.spot_eq, climb, if_neg down]
      exact spot ▸ outside _ (List.contains_iff_mem.mp among)
    have outside' : ∀ link ∈ path.down name :: within,
        w.spot link ∈ (place ++ [name]) :: avoided := by
      refine List.forall_mem_cons.mpr ⟨?_, fun link among =>
        List.mem_cons_of_mem _ (outside link among)⟩
      rw [spot_down, stands.spot_eq, climb, if_neg down]
      exact List.mem_cons_self
    have seen : w.linkAt? path name = some target := by rw [stands.linkAt?_eq, stepped]
    rw [resolveNames_eq, resolveWith, if_neg (Bool.eq_false_iff.mp busy), if_neg down]
    split
    · exact .inr rfl
    simp only [seen, followLink, fresh, Bool.false_eq_true, if_false, Path.parent_down]
    have nested : inner ≤ depth := by omega
    have rest : outer ≤ depth + 1 := by omega
    rcases ihNested nested outside' (stands.turn target) with ⟨middle, arrived, standsThere⟩ | null
    · rw [arrived, ← resolveNames_eq]
      exact ih rest outside standsThere
    · rw [null]
      exact .inr rfl

private theorem stands_originOf (path : Path) : Stands w (originOf path) (w.startOf path) := by
  cases absolute : path.isAbsolute with
  | true =>
    rw [originOf, startOf, if_pos absolute, if_pos absolute]
    exact ⟨rfl, nofun, nofun⟩
  | false =>
    rw [originOf, startOf, if_neg (Bool.eq_false_iff.mp absolute),
      if_neg (Bool.eq_false_iff.mp absolute)]
    exact ⟨rfl, List.forall_mem_nil _, by decide⟩

/-- A path that leads somewhere ends there when it is resolved, unless a name on the way holds a
null character. -/
theorem endOf_of_locate {path : Path} {location : Location}
    (located : w.locate path = .ok location) :
    (∃ reached, w.endOf path = .ok reached ∧ Stands w reached location) ∨
    w.endOf path = .error .null := by
  unfold locate at located
  split at located
  · cases located
  split at located
  · cases located
  obtain ⟨links, few, leads⟩ := exists_leads_of_walk located
  have enough : links ≤ deepestLink := Nat.le_trans few (by decide)
  exact resolveNames_of_avoids (avoids_of_leads leads) enough (List.forall_mem_nil _)
    (stands_originOf path)

theorem Stands.fromRoot {path goal : Path} {place : Location} (stands : Stands w path place)
    (told : w.fromRoot path = .ok goal) : goal = Path.ofLocation place := by
  rw [World.fromRoot, stands.spot_eq] at told
  split at told
  next absolute =>
    cases told
    -- it starts at the root, written with one slash
    cases anchor : path.anchor with
    | here => simp [Path.isAbsolute, anchor] at absolute
    | root => rfl
    | doubleRoot => exact absurd anchor stands.anchor_ne
  · split at told
    · cases told
    · cases told
      rfl

/-- A path that leads somewhere resolves to the place it leads to, if it resolves. -/
theorem resolve_of_locate {path goal : Path} {location : Location}
    (located : w.locate path = .ok location) (resolved : w.resolve path = .ok goal) :
    goal = Path.ofLocation location := by
  obtain ⟨told, ends, resolved⟩ := bind_eq_ok_iff.mp resolved
  have same : told = goal := by
    split at resolved
    · cases resolved
    · cases resolved
    · exact Except.ok.inj resolved
  rw [goalOf] at ends
  rcases endOf_of_locate located with ⟨reached, arrived, stands⟩ | null
  · rw [arrived] at ends
    exact same ▸ stands.fromRoot ends
  · rw [null] at ends
    cases ends

/-! ## Files that are found -/

theorem fileAt_eq_ok_some {path : Path} {location : Location}
    (found : w.fileAt path = .ok (some location)) :
    w.locate path = .ok location ∧ ∃ node, w.node? location = some node ∧ node.isFile = true := by
  unfold fileAt reach at found
  split at found
  · next place located =>
    obtain ⟨rfl, file⟩ : place = location ∧ (w.node? location).any Node.isFile = true := by
      simpa [Except.map, Option.filter_eq_some_iff] using found
    exact ⟨located, by simpa [Option.any_eq_true] using file⟩
  · split at found <;> cases found

theorem fileAt_of_knownFileAt {path : Path} {place? : Option Location}
    (known : w.knownFileAt path = .ok place?) :
    w.fileAt path = .ok place? ∧ (place?.isSome = true → ∃ goal, w.resolve path = .ok goal) := by
  unfold knownFileAt at known
  cases found : w.fileAt path with
  | error e => rw [found] at known; cases known
  | ok here? =>
    rw [found] at known
    cases here? with
    | none =>
      cases known
      exact ⟨rfl, by simp⟩
    | some here =>
      -- the path from the root must exist, although only the location is kept
      cases resolved : w.resolve path with
      | error e => rw [resolved] at known; cases known
      | ok goal =>
        rw [resolved] at known
        cases known
        exact ⟨rfl, fun _ => ⟨goal, rfl⟩⟩

/-- What tells files apart is their resolved path: the location of a file that a path leads to is
the one that the path resolves to, and it is listed in the world. -/
theorem resolve_of_knownFileAt {path : Path} {location : Location}
    (known : w.knownFileAt path = .ok (some location)) :
    w.resolve path = .ok (Path.ofLocation location) ∧ location ∈ w.locations := by
  obtain ⟨found, resolves⟩ := fileAt_of_knownFileAt known
  obtain ⟨goal, resolved⟩ := resolves rfl
  obtain ⟨located, node, present, file⟩ := fileAt_eq_ok_some found
  constructor
  · rw [resolved, resolve_of_locate located resolved]
  · -- the root is not listed, but it is no file either
    refine mem_locations_of_node? present ?_
    rintro rfl
    cases present
    cases file

end SignatureIndex.World
