import Mathlib.Data.List.SplitBy
import Mathlib.Data.List.TakeWhile
import SignatureIndex.Proofs.Quotations
import SignatureIndex.Proofs.Stillness

/-!
# Variables as runs of characters

Variables are found by a search that starts over after each of them and looks back one character.
Told without a search, the text with its quoted parts blanked out is cut into runs of characters
that can stand in a name.  The variables are the runs that start like one and follow neither a
question mark nor a hash, except for the lone underscore, each taken where it appears first.
-/

namespace SignatureIndex

/-- A text cut between any two characters that do not both belong to names, so that its names are
runs as long as they can be. -/
def runs (text : List Char) : List (List Char) :=
  text.splitBy fun c d => isNameChar c && isNameChar d

/-- Whether a run is a variable, given the one before it. -/
def isVariableRun (before run : List Char) : Bool :=
  run.head?.any startsVariable &&
  !before.getLast?.any (fun c => c == '?' || c == '#') && run != ['_']

/-- The runs of some that are variables, given the one before them. -/
def variablesAmong (before : List Char) (runs : List (List Char)) : List (List Char) :=
  (((before :: runs).zip runs).filter fun pair => isVariableRun pair.1 pair.2).map Prod.snd

/-- The variables of a text whose quoted parts are blanked out, as often as they appear. -/
def variableRuns (marks : List Char) : List (List Char) := variablesAmong [] (runs marks)

variable {c : Char} {before run rest : List Char}

/-! ## First appearances -/

/-- What stands first among the values that are kept stands first among all. -/
theorem idxOf_lt_of_idxOf_filter_lt {α : Type} [BEq α] [LawfulBEq α] {p : α → Bool}
    {values : List α} {first second : α} (keptSecond : p second = true)
    (earlier : (values.filter p).idxOf first < (values.filter p).idxOf second) :
    values.idxOf first < values.idxOf second := by
  have differ : first ≠ second := by
    rintro rfl
    exact Nat.lt_irrefl _ earlier
  induction values with
  | nil => exact absurd earlier (Nat.lt_irrefl _)
  | cons value values ih =>
    by_cases atFirst : value = first
    · rw [List.idxOf_cons_eq _ atFirst, List.idxOf_cons_ne _ (atFirst ▸ differ)]
      exact Nat.succ_pos _
    · by_cases atSecond : value = second
      · rw [List.filter_cons_of_pos (atSecond ▸ keptSecond),
          List.idxOf_cons_eq _ atSecond] at earlier
        exact absurd earlier (Nat.not_lt_zero _)
      · rw [List.idxOf_cons_ne _ atFirst, List.idxOf_cons_ne _ atSecond]
        refine Nat.succ_lt_succ (ih ?_)
        rw [List.filter_cons] at earlier
        split at earlier
        · rw [List.idxOf_cons_ne _ atFirst, List.idxOf_cons_ne _ atSecond] at earlier
          exact Nat.lt_of_succ_lt_succ earlier
        · exact earlier

/-- Dropping repetitions leaves the values in the order of their first appearances. -/
theorem pairwise_idxOf_eraseDups {α : Type} [BEq α] [LawfulBEq α] (values : List α) :
    values.eraseDups.Pairwise fun first second => values.idxOf first < values.idxOf second := by
  cases values with
  | nil => exact .nil
  | cons value values =>
    have kept {other : α} (among : other ∈ (values.filter fun other => !other == value).eraseDups) :
        (!other == value) = true ∧ value ≠ other := by
      have among := (List.mem_filter.mp (List.mem_eraseDups.mp among)).2
      refine ⟨among, ?_⟩
      rintro rfl
      simp at among
    -- the rest is free of the first value, which so comes before all of it
    rw [List.eraseDups_cons, List.pairwise_cons]
    constructor
    · intro other among
      rw [List.idxOf_cons_self, List.idxOf_cons_ne _ (kept among).2]
      exact Nat.succ_pos _
    · refine (pairwise_idxOf_eraseDups _).imp_of_mem fun amongFirst amongSecond earlier => ?_
      rw [List.idxOf_cons_ne _ (kept amongFirst).2, List.idxOf_cons_ne _ (kept amongSecond).2]
      exact Nat.succ_lt_succ (idxOf_lt_of_idxOf_filter_lt (kept amongSecond).1 earlier)
termination_by values.length
decreasing_by exact Nat.lt_succ_of_le (List.length_filter_le _ _)

/-! ## Runs -/

private theorem variablesAmong_cons (before run : List Char) (runs : List (List Char)) :
    variablesAmong before (run :: runs) =
      if isVariableRun before run then run :: variablesAmong run runs else variablesAmong
        run runs := by
  unfold variablesAmong
  rw [List.zip_cons_cons, List.filter_cons]
  split <;> rfl

/-- A name is a run of its own if no name goes on after it. -/
theorem runs_append (named : ∀ d ∈ run, isNameChar d = true) (nonempty : run ≠ [])
    (stops : ∀ d ∈ rest.head?, isNameChar d = false) : runs (run ++ rest) = run :: runs rest := by
  have whole : runs run = [run] := by
    refine List.splitBy_of_isChain nonempty ((List.isChain_isInfix run).imp fun c d within => ?_)
    rw [named c (within.subset (by simp)), named d (within.subset (by simp))]
    rfl
  rw [← List.singleton_append, ← whole]
  refine List.splitBy_append fun c _ d head => ?_
  rw [stops d head, Bool.and_false]

private theorem runs_cons (other : isNameChar c = false) (rest : List Char) :
    runs (c :: rest) = [c] :: runs rest := by
  have apart : ∀ x ∈ [c].getLast?, ∀ y ∈ rest.head?, (isNameChar x && isNameChar y) = false := by
    intro x last y _
    obtain rfl : c = x := Option.some.inj last
    rw [other, Bool.false_and]
  exact List.splitBy_append apart

/-- A text that starts with a name starts with a run that is as long as the name. -/
theorem exists_run (named : isNameChar c = true) (text : List Char) :
    ∃ run rest, text = run ++ rest ∧ (∀ d ∈ c :: run, isNameChar d = true) ∧
      ∀ d ∈ rest.head?, isNameChar d = false := by
  refine ⟨text.takeWhile isNameChar, text.dropWhile isNameChar,
    List.takeWhile_append_dropWhile.symm, ?_, ?_⟩
  · intro d among
    rcases List.mem_cons.mp among with rfl | among
    · exact named
    · exact List.mem_takeWhile_imp among
  · intro d head
    have stopped := List.head?_dropWhile_not isNameChar text
    rw [Option.mem_def.mp head] at stopped
    exact stopped

/-! ## The search -/

/-- No variable starts inside a name. -/
theorem variablesAfter_name (named : ∀ d ∈ c :: run, isNameChar d = true) (rest : List Char) :
    variablesAfter (some c) (run ++ rest) = variablesAfter (c :: run).getLast? rest := by
  induction run generalizing c with
  | nil => rfl
  | cons d run ih =>
    have barred : bars c = true := by rw [bars, named c (by simp), Bool.true_or, Bool.true_or]
    have noStart : ¬(startsVariable d && !(some c).any bars) = true := by simp [barred]
    rw [List.cons_append, variablesAfter, if_neg noStart, List.getLast?_cons_cons]
    exact ih fun e among => named e (List.mem_cons_of_mem c among)

/-- The search takes a run as a whole or passes over it. -/
theorem namesAfter_run (named : ∀ d ∈ c :: run, isNameChar d = true)
    (stops : ∀ d ∈ rest.head?, isNameChar d = false)
    (apart : ∀ d ∈ before.getLast?, isNameChar d = false) :
    namesAfter before.getLast? (c :: run ++ rest) =
      if isVariableRun before (c :: run) then (c :: run) :: namesAfter (c :: run).getLast? rest
      else namesAfter (c :: run).getLast? rest := by
  have taken : (run ++ rest).takeWhile isNameChar = run ∧
      (run ++ rest).dropWhile isNameChar = rest := by
    have inRun : ∀ d ∈ run, isNameChar d = true :=
      fun d among => named d (List.mem_cons_of_mem c among)
    rw [List.takeWhile_append_of_pos inRun, List.dropWhile_append_of_pos inRun]
    cases rest with
    | nil => simp
    | cons d rest => simp [stops d rfl]
  -- no name ends right before the run
  have bar : before.getLast?.any bars = before.getLast?.any fun d => d == '?' || d == '#' := by
    cases last : before.getLast? with
    | none => rfl
    | some d => simp [bars, apart d last]
  have kept : isVariableRun before (c :: run) =
      ((startsVariable c && !before.getLast?.any bars) && c :: run != ['_']) := by
    rw [isVariableRun, bar]
    rfl
  rw [namesAfter, List.cons_append, variablesAfter, taken.1, taken.2, kept]
  by_cases starts : (startsVariable c && !before.getLast?.any bars) = true
  · rw [if_pos starts, starts, Bool.true_and, List.filter_cons]
    simp only [namesAfter, bne_iff_ne, decide_eq_true_eq]
  · -- the search goes on with the next character, and passes over the rest of the run
    rw [if_neg starts, if_neg (by simp [starts]), variablesAfter_name named]
    rfl

/-- The search finds the runs that are variables. -/
theorem namesAfter_eq_variablesAmong (text : List Char)
    (apart : ∀ c ∈ before.getLast?, isNameChar c = true → ∀ d ∈ text.head?, isNameChar d = false) :
    namesAfter before.getLast? text = variablesAmong before (runs text) := by
  -- a run is taken at once, so the induction is on the length
  induction length : text.length using Nat.strongRecOn generalizing text before with
  | ind n ih =>
    subst length
    cases text with
    | nil =>
      rw [namesAfter, variablesAfter]
      rfl
    | cons c text =>
      by_cases named : isNameChar c = true
      · obtain ⟨run, rest, rfl, inRun, stops⟩ := exists_run named text
        have shorter : rest.length < (c :: (run ++ rest)).length := by
          simp only [List.length_cons, List.length_append]
          omega
        have later : namesAfter (c :: run).getLast? rest = variablesAmong (c :: run) (runs rest) :=
          ih rest.length shorter rest (fun _ _ _ => stops) rfl
        have noName (d : Char) (last : d ∈ before.getLast?) : isNameChar d = false := by
          by_contra isName
          rw [Bool.not_eq_false] at isName
          rw [apart d last isName c rfl] at named
          cases named
        rw [← List.cons_append, runs_append inRun (List.cons_ne_nil c run) stops,
          variablesAmong_cons, ← later, namesAfter_run inRun stops noName]
      · -- a character that belongs to no name
        rw [Bool.not_eq_true] at named
        have noStart : startsVariable c = false := by
          by_contra starts
          rw [Bool.not_eq_false] at starts
          rw [isNameChar_of_startsVariable starts] at named
          cases named
        have later : namesAfter [c].getLast? text = variablesAmong [c] (runs text) :=
          ih text.length (by simp) text (by simp [named]) rfl
        have dropped : ¬isVariableRun before [c] = true := by simp [isVariableRun, noStart]
        rw [runs_cons named, variablesAmong_cons, if_neg dropped, ← later, namesAfter,
          variablesAfter_cons noStart]
        rfl

/-- The type variables of a text are the variables among the runs of what is left when its quoted
parts are blanked out, each once, in the order in which they appear first. -/
theorem typeVariables_eq_eraseDups (text : List Char) :
    ∃ marks, IsBlanked text marks ∧ (∀ other, IsBlanked text other → other = marks) ∧
      typeVariables text = (variableRuns marks).eraseDups ∧
      (typeVariables text).Nodup ∧
      (typeVariables text).Pairwise fun first second =>
        (variableRuns marks).idxOf first < (variableRuns marks).idxOf second := by
  have same : typeVariables text = (variableRuns (blankQuoted text)).eraseDups := by
    rw [typeVariables_eq, variableRuns, ← namesAfter_eq_variablesAmong _ (by simp)]
    rfl
  have ordered := pairwise_idxOf_eraseDups (variableRuns (blankQuoted text))
  rw [← same] at ordered
  refine ⟨blankQuoted text, isBlanked_blankQuoted text, fun other blanked =>
    blanked.eq_blankQuoted, same, ?_, ordered⟩
  refine ordered.imp fun earlier equal => ?_
  rw [equal] at earlier
  exact Nat.lt_irrefl _ earlier

example : variableRuns "A?B#C _ aD A D1".toList = [['A'], ['A'], ['D', '1']] := by decide

end SignatureIndex
