import SignatureIndex.Proofs.AlikeWorlds
import SignatureIndex.Proofs.Stops

/-!
# Files with other contents

A world can be changed in its files alone: everything stands where it stood, and some files hold
other bytes.  Then every path leads where it led, so all that a scan can notice is what it reads.
If each file that it may read comes to the same sheet as before, a scan comes to the same, what it
tells included.
-/

namespace SignatureIndex

/-- A file with other bytes; all else that can stand at a place stays. -/
def Node.rewrite (change : List UInt8 → List UInt8) : Node → Node
  | .file bytes => .file (change bytes)
  | node => node

private theorem Node.alike_rewrite (change : List UInt8 → List UInt8) (node : Node) :
    node.Alike (node.rewrite change) := by
  cases node with
  | file => exact .file
  | directory | link _ | program _ => exact .same

/-- Whether bytes hold a text: they are decoded to it, with the pairs at the ends of its lines
joined. -/
def Source.Holds (bytes : List UInt8) (content : List Char) : Prop :=
  ∃ text, (Encoding.ofBytes bytes).decode bytes = .ok text ∧ Text.joinCrLf text = content

instance (bytes : List UInt8) (content : List Char) : Decidable (Source.Holds bytes content) :=
  decidable_of_iff
    (((Encoding.ofBytes bytes).decode bytes).toOption.map Text.joinCrLf = some content) <| by
    unfold Source.Holds
    cases (Encoding.ofBytes bytes).decode bytes <;> simp [Except.toOption]

theorem Source.read_of_holds {bytes : List UInt8} {content : List Char} (path : Path)
    (holds : Source.Holds bytes content) :
    Source.read path bytes = .ok ⟨path, Encoding.ofBytes bytes, content⟩ := by
  obtain ⟨text, decoded, rfl⟩ := holds
  exact Source.read_of_decode decoded

namespace World

/-- The world in which every file holds other bytes, depending on where it is and what it held. -/
def rewrite (w : World) (change : Location → List UInt8 → List UInt8) : World :=
  { w with entries := w.entries.map fun entry => (entry.1, entry.2.rewrite (change entry.1)) }

variable {w : World} {change : Location → List UInt8 → List UInt8}

/-! ## Where paths lead -/

theorem node?_rewrite (location : Location) :
    (w.rewrite change).node? location =
      (w.node? location).map (Node.rewrite (change location)) := by
  unfold node? rewrite
  split
  · rfl
  · dsimp only
    generalize w.entries = entries
    induction entries with
    | nil => rfl
    | cons entry entries ih =>
      obtain ⟨place, node⟩ := entry
      rw [List.map_cons, List.lookup_cons, List.lookup_cons]
      by_cases same : location = place
      · subst same
        simp
      · have other : (location == place) = false := by simpa using same
        rw [other]
        exact ih

/-- What files hold has no part in where they stand. -/
theorem alike_rewrite : Alike w (w.rewrite change) where
  stands location := by
    rw [node?_rewrite]
    cases w.node? location with
    | none => exact .none
    | some node => exact .some (node.alike_rewrite _)
  system_eq := rfl
  workingDirectory_eq := rfl

@[simp] theorem locate_rewrite (path : Path) : (w.rewrite change).locate path = w.locate path :=
  alike_rewrite.locate_eq path

@[simp] theorem knownFileAt_rewrite (path : Path) :
    (w.rewrite change).knownFileAt path = w.knownFileAt path := alike_rewrite.knownFileAt_eq path

@[simp] theorem firstFile_rewrite (paths : List Path) :
    (w.rewrite change).firstFile paths = w.firstFile paths := alike_rewrite.firstFile_eq paths

/-! ## What is read -/

/-- What a path leads to is read as before, unless it is a file; then the other bytes are read. -/
theorem readBytes_rewrite (path : Path) :
    (w.rewrite change).readBytes path = w.readBytes path ∨
      ∃ location bytes, w.locate path = .ok location ∧ w.node? location = some (.file bytes) ∧
        w.readBytes path = .ok bytes ∧
        (w.rewrite change).readBytes path = .ok (change location bytes) := by
  have sameSystem : (w.rewrite change).system = w.system := rfl
  unfold readBytes readable
  rw [locate_rewrite]
  cases located : w.locate path with
  | error e => exact .inl rfl
  | ok location =>
    simp only [bind, Except.bind, node?_rewrite, sameSystem]
    cases here : w.node? location with
    | none => exact .inl rfl
    | some node =>
      cases refused : w.system.refuses .read location with
      | true => exact .inl rfl
      | false =>
        cases node with
        | file bytes => exact .inr ⟨location, bytes, rfl, here, rfl, rfl⟩
        | directory | link _ | program _ => exact .inl rfl

/-- A file whose other bytes come to the same sheet is read as before. -/
theorem sheet_rewrite {path : Path}
    (same : ∀ location bytes, w.locate path = .ok location → w.node? location = some (.file bytes) →
      (Source.read path (change location bytes)).map Sheet.ofSource =
        (Source.read path bytes).map Sheet.ofSource) :
    (w.rewrite change).sheet path = w.sheet path := by
  unfold sheet
  rcases @readBytes_rewrite w change path with
    unchanged | ⟨location, bytes, located, here, before, after⟩
  · simp only [unchanged, knownFileAt_rewrite]
  · simp only [before, after, knownFileAt_rewrite]
    have sheets := same location bytes located here
    cases first : Source.read path bytes <;>
      cases second : Source.read path (change location bytes) <;>
      simp_all [Except.map, Traced.ofSource]

/-! ## How a scan goes -/

section Scanning

variable {w w' : World} {options : ScanOptions} {root : Path}

/-- The files that a scan may read: its root, and the files that these include. -/
inductive ScanReads (w : World) (options : ScanOptions) (root : Path) : Path → Prop
  | root : ScanReads w options root root
  | included {including kind name target location} : ScanReads w options root including →
      w.HasInclusion including kind name →
      w.firstFile (options.candidates kind name including) = .ok (some (target, location)) →
      ScanReads w options root target

variable (searched : ∀ paths, w'.firstFile paths = w.firstFile paths)
  (sheets : ∀ path, w.ScanReads options root path → w'.sheet path = w.sheet path)
include searched sheets

private theorem scanItems_congr {depth : Option Nat} {path : Path} {seen : List Location}
    {items : List Item} (reads : w.ScanReads options root path)
    (listed : ∃ location? sheet, (w.sheet path).outcome = .ok (location?, sheet) ∧
      ∀ item ∈ items, item ∈ sheet.items) :
    w'.scanItems options depth path seen items = w.scanItems options depth path seen items := by
  -- the files that are entered are among those that the scan may read
  induction depth, path, seen, items using scanItems_induction w options with
  | done => rw [scanItems_nil, scanItems_nil]
  | kept depth path seen content items ih =>
    obtain ⟨location?, sheet, read, all⟩ := listed
    rw [scanItems_kept, scanItems_kept,
      ih reads ⟨location?, sheet, read, (List.forall_mem_cons.mp all).2⟩]
  | malformed => rw [scanItems_malformed, scanItems_malformed]
  | unanswered depth path seen kind name span items e failed =>
    rw [scanItems_of_error failed, scanItems_of_error ((searched _).trans failed)]
  | absent depth path seen kind name span items absent =>
    rw [scanItems_of_none absent, scanItems_of_none ((searched _).trans absent)]
  | deep depth path seen kind name span items target location found new deep =>
    rw [scanItems_of_deep found new deep, scanItems_of_deep ((searched _).trans found) new deep]
  | entered depth path seen kind name span items target location inside found new deeper ihInner
      ihRest =>
    obtain ⟨location?, sheet, read, all⟩ := listed
    have enters : w.ScanReads options root target :=
      .included reads ⟨location?, sheet, span, read, all _ List.mem_cons_self⟩ found
    rw [scanItems_of_new found new deeper, scanItems_of_new ((searched _).trans found) new deeper,
      sheets target enters]
    refine Traced.bind_congr_of_outcome fun ⟨inner?, inner⟩ entered => ?_
    dsimp only
    rw [ihInner inner enters ⟨inner?, inner, entered, fun _ among => among⟩]
    refine bind_congr fun done => bind_congr fun _ => ?_
    rw [ihRest done reads ⟨location?, sheet, read, (List.forall_mem_cons.mp all).2⟩]
  | passed depth path seen kind name span items target location found old ih =>
    obtain ⟨location?, sheet, read, all⟩ := listed
    rw [scanItems_of_seen found old, scanItems_of_seen ((searched _).trans found) old,
      ih reads ⟨location?, sheet, read, (List.forall_mem_cons.mp all).2⟩]

/-- A scan goes the same way in another world if files are found as in the first, and those that it
may read come to the same sheets. -/
theorem scan_congr : w'.scan options root = w.scan options root := by
  unfold scan
  rw [sheets root .root]
  refine Traced.bind_congr_of_outcome fun ⟨location?, sheet⟩ read => ?_
  dsimp only
  rw [scanItems_congr searched sheets .root ⟨location?, sheet, read, fun _ among => among⟩]

end Scanning

/-- A scan goes as before if every file comes to the same sheet. -/
theorem scan_rewrite {options : ScanOptions}
    (sheets : ∀ path, (w.rewrite change).sheet path = w.sheet path) (path : Path) :
    (w.rewrite change).scan options path = w.scan options path :=
  scan_congr firstFile_rewrite fun path _ => sheets path

end World

end SignatureIndex
