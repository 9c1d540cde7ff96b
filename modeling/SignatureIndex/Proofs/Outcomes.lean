import Mathlib.Data.List.Forall2

/-!
# Operations that can fail

An operation on a row of values asks about one value after another, and the first question that
fails is what it fails with.  What it gives, if it gives anything, comes from values that were asked
about.
-/

namespace SignatureIndex

variable {α β ε : Type} {e : ε}

section Steps

variable {first : Except ε α} {next : α → Except ε β}

theorem bind_eq_ok_iff {result : β} :
    first >>= next = .ok result ↔ ∃ value, first = .ok value ∧ next value = .ok result := by
  cases first <;> simp [bind, Except.bind]

theorem bind_eq_error_iff :
    first >>= next = .error e ↔ first = .error e ∨ ∃ value, first = .ok value ∧
      next value = .error e := by
  cases first <;> simp [bind, Except.bind]

theorem map_eq_ok_iff {f : α → β} {result : β} :
    first.map f = .ok result ↔ ∃ value, first = .ok value ∧ f value = result := by
  cases first <;> simp [Except.map]

theorem map_eq_error_iff {f : α → β} : first.map f = .error e ↔ first = .error e := by
  cases first <;> simp [Except.map]

/-- Whether an operation fails with an error can be computed, whatever it would give. -/
instance decidableEqError [DecidableEq ε] (outcome : Except ε α) (e : ε) :
    Decidable (outcome = .error e) :=
  match outcome with
  | .ok _ => .isFalse nofun
  | .error other => decidable_of_iff (other = e) ⟨congrArg _, Except.error.inj⟩

end Steps

/-! ## Rows of values -/

/-- The first value of a row that stops is its first value, or it is the first of the others that
stops, if the first value passes. -/
theorem exists_first_cons_iff {passes stops : α → Prop} {first : α} {values : List α} :
    (∃ before value after, first :: values = before ++ value :: after ∧
      (∀ other ∈ before, passes other) ∧ stops value) ↔
      stops first ∨ passes first ∧ ∃ before value after, values = before ++ value :: after ∧
        (∀ other ∈ before, passes other) ∧ stops value := by
  constructor
  · rintro ⟨_ | ⟨other, before⟩, value, after, parts, passed, stopped⟩
    · obtain ⟨rfl, -⟩ := List.cons.inj parts
      exact .inl stopped
    · obtain ⟨rfl, rfl⟩ := List.cons.inj parts
      obtain ⟨here, passed⟩ := List.forall_mem_cons.mp passed
      exact .inr ⟨here, before, value, after, rfl, passed, stopped⟩
  · rintro (stopped | ⟨here, before, value, after, rfl, passed, stopped⟩)
    · exact ⟨[], first, values, rfl, nofun, stopped⟩
    · exact ⟨first :: before, value, after, rfl, List.forall_mem_cons.mpr ⟨here, passed⟩, stopped⟩

theorem not_exists_first_nil {passes stops : α → Prop} :
    ¬∃ before value after, [] = before ++ value :: after ∧ (∀ other ∈ before, passes other) ∧
    stops value := by
  rintro ⟨before, value, after, parts, -⟩
  simp at parts

section Mapping

variable {f : α → Except ε β} {values : List α} {results : List β}

theorem mapM_eq_ok_iff :
    values.mapM f = .ok results ↔
    List.Forall₂ (fun value result => f value = .ok result) values results := by
  induction values generalizing results with
  | nil => cases results <;> simp [pure, Except.pure]
  | cons value values ih =>
    simp only [List.mapM_cons, bind_eq_ok_iff]
    constructor
    · rintro ⟨here, made, others, madeLater, same⟩
      cases same
      exact .cons made (ih.mp madeLater)
    · rintro (_ | ⟨made, madeLater⟩)
      exact ⟨_, made, _, ih.mpr madeLater, rfl⟩

theorem mapM_eq_error_iff : values.mapM f = .error e ↔
    ∃ before value after, values = before ++ value :: after ∧
    (∀ other ∈ before, ∃ result, f other = .ok result) ∧ f value = .error e := by
  induction values with
  | nil => exact iff_of_false nofun not_exists_first_nil
  | cons value values ih =>
    simp only [exists_first_cons_iff, ← ih, List.mapM_cons, bind_eq_error_iff]
    constructor
    · rintro (stopped | ⟨here, made, stopped | ⟨others, -, never⟩⟩)
      · exact .inl stopped
      · exact .inr ⟨⟨here, made⟩, stopped⟩
      · cases never
    · rintro (stopped | ⟨⟨here, made⟩, stopped⟩)
      · exact .inl stopped
      · exact .inr ⟨here, made, .inl stopped⟩

theorem exists_of_mem_mapM (mapped : values.mapM f = .ok results) {result : β}
    (among : result ∈ results) : ∃ value ∈ values, f value = .ok result := by
  have pointwise := mapM_eq_ok_iff.mp mapped
  clear mapped
  induction pointwise with
  | nil => cases among
  | cons made _ ih =>
    rcases List.mem_cons.mp among with rfl | later
    · exact ⟨_, List.mem_cons_self, made⟩
    · obtain ⟨value, listed, madeLater⟩ := ih later
      exact ⟨value, List.mem_cons_of_mem _ listed, madeLater⟩

/-- A row of results goes with a row of values if each value has a result. -/
theorem exists_forall₂_iff {related : α → β → Prop} :
    (∃ results, List.Forall₂ related values results) ↔
    ∀ value ∈ values, ∃ result, related value result := by
  induction values with
  | nil => exact iff_of_true ⟨[], .nil⟩ nofun
  | cons value values ih =>
    rw [List.forall_mem_cons, ← ih]
    constructor
    · rintro ⟨_, _ | ⟨here, later⟩⟩
      exact ⟨⟨_, here⟩, _, later⟩
    · rintro ⟨⟨result, here⟩, results, later⟩
      exact ⟨result :: results, .cons here later⟩

end Mapping

section Search

variable {search : α → Except ε (Option β)} {values : List α}

theorem exists_of_findSomeM?_eq_some {result : β}
    (found : values.findSomeM? search = .ok (some result)) :
    ∃ value ∈ values, search value = .ok (some result) := by
  induction values with
  | nil => cases found
  | cons value values ih =>
    rw [List.findSomeM?_cons, bind_eq_ok_iff] at found
    obtain ⟨here?, searched, found⟩ := found
    cases here? with
    | none =>
      obtain ⟨other, among, searchedLater⟩ := ih found
      exact ⟨other, List.mem_cons_of_mem _ among, searchedLater⟩
    | some here =>
      cases found
      exact ⟨value, List.mem_cons_self, searched⟩

theorem findSomeM?_eq_none_iff :
    values.findSomeM? search = .ok none ↔ ∀ value ∈ values, search value = .ok none := by
  induction values with
  | nil => exact iff_of_true rfl nofun
  | cons value values ih =>
    rw [List.findSomeM?_cons, bind_eq_ok_iff, List.forall_mem_cons]
    constructor
    · rintro ⟨here?, searched, later⟩
      cases here? with
      | none => exact ⟨searched, ih.mp later⟩
      | some here => cases later
    · rintro ⟨searched, later⟩
      exact ⟨none, searched, ih.mpr later⟩

/-- A search fails with the first question that fails, if nothing is found before it. -/
theorem findSomeM?_eq_error_iff : values.findSomeM? search = .error e ↔ ∃ before value after,
    values = before ++ value :: after ∧ (∀ other ∈ before, search other = .ok none) ∧
      search value = .error e := by
  induction values with
  | nil => exact iff_of_false nofun not_exists_first_nil
  | cons value values ih =>
    rw [List.findSomeM?_cons, bind_eq_error_iff, exists_first_cons_iff, ← ih]
    constructor
    · rintro (stopped | ⟨here?, searched, failed⟩)
      · exact .inl stopped
      · cases here? with
        | none => exact .inr ⟨searched, failed⟩
        | some here => cases failed
    · rintro (stopped | ⟨searched, failed⟩)
      · exact .inl stopped
      · exact .inr ⟨none, searched, failed⟩

theorem exists_of_findSomeM?_eq_error (failed : values.findSomeM? search = .error e) :
    ∃ value ∈ values, search value = .error e := by
  obtain ⟨before, value, after, rfl, -, stopped⟩ := findSomeM?_eq_error_iff.mp failed
  exact ⟨value, List.mem_append_right _ List.mem_cons_self, stopped⟩

end Search

section Checking

variable {check : α → Except ε Unit} {values : List α}

theorem forM_eq_ok_iff : values.forM check = .ok () ↔ ∀ value ∈ values, check value = .ok () := by
  induction values with
  | nil => exact iff_of_true rfl nofun
  | cons value values ih =>
    rw [List.forM_eq_forM, List.forM_cons, bind_eq_ok_iff, List.forall_mem_cons, ← ih]
    constructor
    · rintro ⟨⟨⟩, passed, later⟩
      exact ⟨passed, later⟩
    · rintro ⟨passed, later⟩
      exact ⟨(), passed, later⟩

/-- A check of a row of values fails as the check of the first one does that is not passed. -/
theorem forM_eq_error_iff : values.forM check = .error e ↔ ∃ before value after,
    values = before ++ value :: after ∧ (∀ other ∈ before, check other = .ok ()) ∧
    check value = .error e := by
  induction values with
  | nil => exact iff_of_false nofun not_exists_first_nil
  | cons value values ih =>
    rw [List.forM_eq_forM, List.forM_cons, bind_eq_error_iff, exists_first_cons_iff, ← ih]
    constructor
    · rintro (stopped | ⟨⟨⟩, passed, failed⟩)
      · exact .inl stopped
      · exact .inr ⟨passed, failed⟩
    · rintro (stopped | ⟨passed, failed⟩)
      · exact .inl stopped
      · exact .inr ⟨(), passed, failed⟩

theorem exists_of_forM_eq_error (failed : values.forM check = .error e) :
    ∃ value ∈ values, check value = .error e := by
  obtain ⟨before, value, after, rfl, -, stopped⟩ := forM_eq_error_iff.mp failed
  exact ⟨value, List.mem_append_right _ List.mem_cons_self, stopped⟩

end Checking

section Asking

variable {ask : α → Except ε Bool} {values : List α}

/-- A search finds the first value with the answer yes, if all before it are answered with no. -/
theorem findM?_eq_some_iff {found : α} : values.findM? ask = .ok (some found) ↔
    ∃ before value after, values = before ++ value :: after ∧
      (∀ other ∈ before, ask other = .ok false) ∧ (ask value = .ok true ∧ value = found) := by
  induction values with
  | nil => exact iff_of_false nofun not_exists_first_nil
  | cons value values ih =>
    rw [List.findM?, bind_eq_ok_iff, exists_first_cons_iff, ← ih]
    constructor
    · rintro ⟨here, asked, later⟩
      cases here with
      | true =>
        cases later
        exact .inl ⟨asked, rfl⟩
      | false => exact .inr ⟨asked, later⟩
    · rintro (⟨asked, rfl⟩ | ⟨asked, later⟩)
      · exact ⟨true, asked, rfl⟩
      · exact ⟨false, asked, later⟩

theorem findM?_eq_none_iff : values.findM? ask = .ok none ↔
    ∀ value ∈ values, ask value = .ok false := by
  induction values with
  | nil => exact iff_of_true rfl nofun
  | cons value values ih =>
    rw [List.findM?, bind_eq_ok_iff, List.forall_mem_cons, ← ih]
    constructor
    · rintro ⟨here, asked, later⟩
      cases here with
      | true => cases later
      | false => exact ⟨asked, later⟩
    · rintro ⟨asked, later⟩
      exact ⟨false, asked, later⟩

/-- A search fails with the first question that has no answer, if all before it are answered with
no. -/
theorem findM?_eq_error_iff : values.findM? ask = .error e ↔ ∃ before value after,
    values = before ++ value :: after ∧ (∀ other ∈ before, ask other = .ok false) ∧
    ask value = .error e := by
  induction values with
  | nil => exact iff_of_false nofun not_exists_first_nil
  | cons value values ih =>
    rw [List.findM?, bind_eq_error_iff, exists_first_cons_iff, ← ih]
    constructor
    · rintro (stopped | ⟨here, asked, failed⟩)
      · exact .inl stopped
      · cases here with
        | true => cases failed
        | false => exact .inr ⟨asked, failed⟩
    · rintro (stopped | ⟨asked, failed⟩)
      · exact .inl stopped
      · exact .inr ⟨false, asked, failed⟩

/-- If a search finds something, nothing that comes later has a part in it. -/
theorem findM?_append_of_exists (found : ∃ value ∈ values, ask value = .ok true) (later : List α) :
    (values ++ later).findM? ask = values.findM? ask := by
  induction values with
  | nil =>
    obtain ⟨value, among, -⟩ := found
    cases among
  | cons value values ih =>
    rw [List.cons_append, List.findM?, List.findM?]
    cases asked : ask value with
    | error reason => rfl
    | ok here =>
      cases here with
      | true => rfl
      | false =>
        obtain ⟨other, among, yes⟩ := found
        rcases List.mem_cons.mp among with rfl | among
        · cases asked.symm.trans yes
        · exact ih ⟨other, among, yes⟩

theorem findM?_congr {other : α → Except ε Bool}
    (same : ∀ value ∈ values, other value = ask value) :
    values.findM? other = values.findM? ask := by
  induction values with
  | nil => rfl
  | cons value values ih =>
    obtain ⟨here, later⟩ := List.forall_mem_cons.mp same
    rw [List.findM?, List.findM?, here, ih later]

theorem findM?_map {β : Type} (f : β → α) (values : List β) :
    (values.map f).findM? ask = (values.findM? fun value => ask (f value)).map (Option.map f) := by
  induction values with
  | nil => rfl
  | cons value values ih =>
    rw [List.map_cons, List.findM?, List.findM?]
    cases ask (f value) with
    | error reason => rfl
    | ok here =>
      cases here with
      | true => rfl
      | false => exact ih

theorem exists_of_findM?_eq_error (failed : values.findM? ask = .error e) :
    ∃ value ∈ values, ask value = .error e := by
  obtain ⟨before, value, after, rfl, -, stopped⟩ := findM?_eq_error_iff.mp failed
  exact ⟨value, List.mem_append_right _ List.mem_cons_self, stopped⟩

theorem mem_of_findM?_eq_some {value : α} (found : values.findM? ask = .ok (some value)) :
    value ∈ values ∧ ask value = .ok true := by
  obtain ⟨before, _, after, rfl, -, asked, rfl⟩ := findM?_eq_some_iff.mp found
  exact ⟨List.mem_append_right _ List.mem_cons_self, asked⟩

/-- Whether a question is answered with yes. -/
def affirms (answer : Except ε Bool) : Bool :=
  match answer with
  | .ok yes => yes
  | .error _ => false

theorem affirms_eq_true_iff {answer : Except ε Bool} : affirms answer = true ↔
    answer = .ok true := by
  cases answer <;> simp [affirms]

private theorem filterAuxM_eq_ok_iff {kept result : List α} :
    values.filterAuxM ask kept = .ok result ↔ (∀ value ∈ values, ∃ answer, ask value = .ok answer) ∧
      result = (values.filter fun value => affirms (ask value)).reverse ++ kept := by
  induction values generalizing kept with
  | nil => simp [List.filterAuxM, pure, Except.pure, eq_comm]
  | cons value values ih =>
    rw [List.filterAuxM, bind_eq_ok_iff, List.forall_mem_cons]
    constructor
    · rintro ⟨here, asked, filtered⟩
      obtain ⟨answered, rfl⟩ := ih.mp filtered
      refine ⟨⟨⟨here, asked⟩, answered⟩, ?_⟩
      cases here <;> simp [asked, affirms]
    · rintro ⟨⟨⟨here, asked⟩, answered⟩, rfl⟩
      refine ⟨here, asked, ih.mpr ⟨answered, ?_⟩⟩
      cases here <;> simp [asked, affirms]

/-- Values are picked out of a row if there is an answer about each of them, and then those are
picked out whose answer is yes. -/
theorem filterM_eq_ok_iff {result : List α} : values.filterM ask = .ok result ↔
    (∀ value ∈ values, ∃ answer, ask value = .ok answer) ∧
      result = values.filter fun value => affirms (ask value) := by
  rw [List.filterM, bind_eq_ok_iff]
  simp only [filterAuxM_eq_ok_iff, List.append_nil]
  constructor
  · rintro ⟨_, ⟨answered, rfl⟩, same⟩
    cases same
    exact ⟨answered, by rw [List.reverse_reverse]⟩
  · rintro ⟨answered, rfl⟩
    refine ⟨_, ⟨answered, rfl⟩, ?_⟩
    rw [List.reverse_reverse]
    rfl

private theorem filterAuxM_eq_error_iff {kept : List α} : values.filterAuxM ask kept = .error e ↔
    ∃ before value after, values = before ++ value :: after ∧
      (∀ other ∈ before, ∃ answer, ask other = .ok answer) ∧ ask value = .error e := by
  induction values generalizing kept with
  | nil => exact iff_of_false nofun not_exists_first_nil
  | cons value values ih =>
    rw [List.filterAuxM, bind_eq_error_iff, exists_first_cons_iff]
    simp only [ih]
    constructor
    · rintro (stopped | ⟨here, asked, failed⟩)
      · exact .inl stopped
      · exact .inr ⟨⟨here, asked⟩, failed⟩
    · rintro (stopped | ⟨⟨here, asked⟩, failed⟩)
      · exact .inl stopped
      · exact .inr ⟨here, asked, failed⟩

/-- Picking values out of a row fails with the first question that has no answer. -/
theorem filterM_eq_error_iff : values.filterM ask = .error e ↔ ∃ before value after,
    values = before ++ value :: after ∧ (∀ other ∈ before, ∃ answer, ask other = .ok answer) ∧
      ask value = .error e := by
  rw [List.filterM, bind_eq_error_iff, filterAuxM_eq_error_iff]
  apply or_iff_left
  rintro ⟨result, -, failed⟩
  cases failed

end Asking

end SignatureIndex
