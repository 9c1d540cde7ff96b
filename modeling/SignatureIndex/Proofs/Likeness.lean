import SignatureIndex.Proofs.Stillness

/-!
# Texts that differ only inside their tokens

Two texts are alike if one comes from the other by writing over what stands inside strings, quoted
atoms and some character literals.  Everything that is read off a text on the way to a declaration
respects this: where atoms end, how brackets and commas divide a group, which variables there are.

Blanks are put in place of quoted parts anew for every piece of a text that is looked at, so it is
the texts themselves that are compared, and not the texts with the blanks.
-/

namespace SignatureIndex

open Text (isBlank isAllBlank trim trimStart trimEnd)
open Blanking (payload?)

/-- The characters after the first one of a token whose payload does not matter.  Atoms are read by
themselves, so they must be closed; of a string only what is left of it counts. -/
inductive Hidden : Char → List Char → Prop where
  | atom {body : List Char} :
      (∀ rest, payload? Text.apostrophe (body ++ Text.apostrophe :: rest) = some body.length) →
      Hidden Text.apostrophe (body ++ [Text.apostrophe])
  | string {body : List Char} : isStill (Text.doubleMark :: (body ++ [Text.doubleMark])) = true →
      Hidden Text.doubleMark (body ++ [Text.doubleMark])
  | literal {payload : List Char} : isInertPayload payload = true → Hidden '$' payload

/-- Texts that differ only in what their tokens hold.  A mark that opens no token must stay
unmatched in both texts. -/
inductive Alike : List Char → List Char → Prop where
  | nil : Alike [] []
  | same {c : Char} {s t : List Char} :
      (Lexeme.isMark c = true → payload? c s = none ∧ payload? c t = none) →
      Alike s t → Alike (c :: s) (c :: t)
  | token {c : Char} {p q s t : List Char} :
      Hidden c p → Hidden c q → Alike s t → Alike (c :: (p ++ s)) (c :: (q ++ t))

variable {c : Char} {p q s t : List Char}

/-! ## Hidden payloads -/

/-- What is between two marks that match is hidden. -/
theorem Hidden.quoted {body : List Char} (mark : Lexeme.isMark c = true)
    (closes : ∀ rest, payload? c (body ++ c :: rest) = some body.length) :
    Hidden c (body ++ [c]) := by
  rcases eq_of_isMark mark with rfl | rfl
  · exact .string (isStill_quoted mark (closes []))
  · exact .atom closes

theorem Hidden.isStill (hidden : Hidden c p) : isStill (c :: p) = true := by
  cases hidden with
  | atom closes => exact isStill_quoted rfl (closes [])
  | string still => exact still
  | literal inert => exact isStill_literal inert

/-- How a token is blanked does not depend on what comes after it. -/
theorem Hidden.blankQuoted (hidden : Hidden c p) (s : List Char) :
    blankQuoted (c :: (p ++ s)) = blankQuoted (c :: p) ++ blankQuoted s :=
  blankFrom_append_of_isSettledFrom (isStill_iff.mp hidden.isStill).1 s

/-- What a token starts with. -/
theorem Hidden.eq_dollar_or_isMark (hidden : Hidden c p) : c = '$' ∨ Lexeme.isMark c = true := by
  cases hidden with
  | atom _ => exact .inr rfl
  | string _ => exact .inr rfl
  | literal _ => exact .inl rfl

/-- An atom ends where the token does. -/
theorem Hidden.payload? (hidden : Hidden c p) (quote : c = Text.apostrophe) (s : List Char) :
    payload? c (p ++ s) = some (p.length - 1) ∧ 0 < p.length := by
  cases hidden with
  | atom closes => simpa using closes s
  | string _ => cases quote
  | literal _ => cases quote

/-- What a token ends with. -/
theorem Hidden.getLast (hidden : Hidden c p) : ∃ front last, p = front ++ [last] ∧
    (bars last = true ∨ Lexeme.isMark last = true) := by
  cases hidden with
  | @atom body _ => exact ⟨body, _, rfl, .inr rfl⟩
  | @string body _ => exact ⟨body, _, rfl, .inr rfl⟩
  | literal inert =>
    obtain ⟨d, inert, rfl | rfl⟩ := exists_of_isInertPayload inert
    · exact ⟨[], d, rfl, .inl (bars_of_isInert inert)⟩
    · exact ⟨['\\'], d, rfl, .inl (bars_of_isInert inert)⟩

/-- No token ends in a half of a double bracket. -/
theorem Hidden.getLast_ne (hidden : Hidden c p) {m : Char}
    (last : (SignatureIndex.blankQuoted (c :: p)).getLast? = some m) : m ≠ '<' ∧ m ≠ '>' := by
  obtain ⟨front, d, rfl, ends⟩ := hidden.getLast
  have kept := getLast?_blankFrom (isStill_iff.mp hidden.isStill).1
  rw [← List.cons_append, List.getLast?_concat] at kept
  obtain rfl : d = m := Option.some.inj (kept.symm.trans last)
  constructor <;>
  · rintro rfl
    revert ends
    decide

/-- There are no variables in a token.  One may start right after a quoted part, but not after a
literal. -/
theorem Hidden.namesAfter (hidden : Hidden c p) (before : Option Char) (rest : List Char) :
    ∃ last, bars last = (c == '$') ∧
      namesAfter before (SignatureIndex.blankQuoted (c :: p) ++ rest) =
        namesAfter (some last) rest := by
  cases hidden with
  | atom closes =>
    exact ⟨_, rfl, namesAfter_append_of_isStill rfl (isStill_quoted rfl (closes [])) before rest⟩
  | string still => exact ⟨_, rfl, namesAfter_append_of_isStill rfl still before rest⟩
  | literal inert =>
    have plain (d : Char) (among : d ∈ '$' :: p) := of_mem_literal inert among
    obtain ⟨front, last, rfl, ends⟩ := (Hidden.literal inert).getLast
    have barring : bars last = true := by
      rcases ends with barring | mark
      · exact barring
      · rw [(plain last (by simp)).1] at mark
        cases mark
    refine ⟨last, barring, ?_⟩
    rw [blankQuoted_eq_self fun d among => (plain d among).1, ← List.cons_append, List.append_assoc,
      List.singleton_append]
    refine congrArg (List.filter _) (variablesAfter_append (fun d among => ?_) rest)
    exact startsVariable_of_isNeutral (plain d among).2

/-! ## Names, step by step -/

/-- The rest of a text that starts with a character. -/
def afterChar? (d : Char) : List Char → Option (List Char)
  | [] => none
  | c :: s => if c = d then some s else none

theorem atom?_cons (c : Char) (s : List Char) :
    atom? (c :: s) =
      if c.isLower then some (c :: s.takeWhile isNameChar, s.dropWhile isNameChar)
      else if c = Text.apostrophe then
        (payload? c s).map fun count => (c :: s.take (count + 1), s.drop (count + 1))
      else none := rfl

theorem afterChar?_eq_none {d : Char} (other : ∀ after, s ≠ d :: after) :
    afterChar? d s = none := by
  cases s with
  | nil => rfl
  | cons c after =>
    rw [afterChar?, if_neg]
    rintro rfl
    exact other after rfl

theorem headAtom?_eq (s : List Char) :
    headAtom? s = (atom? s).bind fun (atom, rest) =>
      (afterChar? '(' (trimStart rest)).bind fun after => some (atom, '(' :: after) := by
  unfold headAtom?
  cases atom? s with
  | none => rfl
  | some found =>
    obtain ⟨atom, rest⟩ := found
    dsimp only [Option.bind_some]
    split
    · next after opened => simp [opened, afterChar?]
    · next closed =>
      rw [afterChar?_eq_none closed]
      rfl

theorem afterModule?_eq (s : List Char) :
    afterModule? s = (atom? s).bind fun (_, rest) =>
      (afterChar? ':' (trimStart rest)).bind fun after => some (trimStart after) := by
  unfold afterModule?
  cases atom? s with
  | none => rfl
  | some found =>
    obtain ⟨atom, rest⟩ := found
    dsimp only [Option.bind_some]
    split
    · next after opened => simp [opened, afterChar?]
    · next closed =>
      rw [afterChar?_eq_none closed]
      rfl

theorem rel_bind {α β : Type} {r : α → α → Prop} {r' : β → β → Prop} {x y : Option α}
    {f g : α → Option β} (start : Option.Rel r x y)
    (next : ∀ a b, r a b → Option.Rel r' (f a) (g b)) : Option.Rel r' (x.bind f) (y.bind g) := by
  cases start with
  | none => exact .none
  | some related => exact next _ _ related

theorem trimEnd_append (s : List Char) (c : Char) :
    trimEnd (s ++ [c]) = if isBlank c then trimEnd s else s ++ [c] := by
  unfold trimEnd
  rw [List.reverse_append, List.reverse_singleton, List.singleton_append, List.dropWhile_cons]
  split <;> simp

/-! ## Likeness and the ends of texts -/

namespace Alike

theorem symm (alike : Alike s t) : Alike t s := by
  induction alike with
  | nil => exact .nil
  | same unmatched _ ih => exact .same (fun mark => (unmatched mark).symm) ih
  | token first second _ ih => exact .token second first ih

/-- Every text is like itself. -/
theorem refl (s : List Char) : Alike s s := by
  -- a quoted part is taken at once, so the induction is on the length
  generalize length : s.length = n
  induction n using Nat.strongRecOn generalizing s with
  | ind n ih =>
    subst length
    cases s with
    | nil => exact .nil
    | cons c s =>
      cases mark : Lexeme.isMark c with
      | false => exact .same (by simp [mark]) (ih s.length (by simp) s rfl)
      | true =>
        cases closed : payload? c s with
        | none => exact .same (fun _ => ⟨closed, closed⟩) (ih s.length (by simp) s rfl)
        | some count =>
          obtain ⟨body, rest, rfl, rfl, stays⟩ := payload?_eq_some closed
          have hidden : Hidden c (body ++ [c]) := .quoted mark stays
          have shorter : rest.length < (c :: (body ++ c :: rest)).length := by
            simp only [List.length_cons, List.length_append]
            omega
          have after : Alike rest rest := ih rest.length shorter rest rfl
          simpa using Alike.token hidden hidden after

theorem eq_nil_iff (alike : Alike s t) : s = [] ↔ t = [] := by
  cases alike <;> simp

/-- A character that ends no token can be taken from the end of both texts. -/
theorem exists_of_append {d : Char} (alike : Alike (s ++ [d]) t) (free : bars d = false)
    (notMark : Lexeme.isMark d = false) : ∃ u, t = u ++ [d] ∧ Alike s u := by
  generalize whole : s ++ [d] = text at alike
  -- the induction is on how the texts are alike, token by token
  induction alike generalizing s with
  | nil => simp at whole
  | @same c first second unmatched rest ih =>
    cases s with
    | nil =>
      obtain ⟨rfl, rfl⟩ : d = c ∧ [] = first := by simpa using whole
      cases rest
      exact ⟨[], rfl, .nil⟩
    | cons e s =>
      obtain ⟨rfl, rfl⟩ : e = c ∧ s ++ [d] = first := by simpa using whole
      obtain ⟨u, rfl, alike⟩ := ih rfl
      refine ⟨e :: u, rfl, .same (fun mark => ?_) alike⟩
      obtain ⟨left, right⟩ := unmatched mark
      exact ⟨payload?_of_append left, payload?_of_append right⟩
  | @token c p q first second hiddenFirst hiddenSecond rest ih =>
    rcases List.eq_nil_or_concat first with rfl | ⟨front, last, rfl⟩
    · -- the text ends in the token, but not in a character of this kind
      obtain ⟨front, last, rfl, ends⟩ := hiddenFirst.getLast
      rw [List.append_nil, ← List.cons_append] at whole
      obtain ⟨-, same⟩ := List.append_inj' whole rfl
      obtain rfl : d = last := by simpa using same
      simp [free, notMark] at ends
    · rw [List.concat_eq_append, ← List.append_assoc, ← List.cons_append] at whole
      obtain ⟨rfl, same⟩ := List.append_inj' whole rfl
      obtain rfl : d = last := by simpa using same
      obtain ⟨u, rfl, alike⟩ := ih (List.concat_eq_append).symm
      exact ⟨c :: (q ++ u), by simp, .token hiddenFirst hiddenSecond alike⟩

/-- Texts that are alike agree on what they start with, as long as no token is in the way. -/
theorem takeWhile (alike : Alike s t) {ok : Char → Bool}
    (stops : ∀ c, c = '$' ∨ Lexeme.isMark c = true → ok c = false) :
    s.takeWhile ok = t.takeWhile ok ∧ Alike (s.dropWhile ok) (t.dropWhile ok) := by
  induction alike with
  | nil => exact ⟨rfl, .nil⟩
  | @same c first second unmatched rest ih =>
    by_cases goes : ok c = true
    · simpa [goes] using ih
    · -- both stop at the same character
      simpa [goes] using Alike.same unmatched rest
  | @token c p q first second hiddenFirst hiddenSecond rest ih =>
    have stop := stops c hiddenFirst.eq_dollar_or_isMark
    simpa [stop] using Alike.token hiddenFirst hiddenSecond rest

theorem trimStart (alike : Alike s t) : Alike (Text.trimStart s) (Text.trimStart t) :=
  (alike.takeWhile fun _ => isBlank_of_dollar_or_isMark).2

theorem trimEnd (alike : Alike s t) : Alike (Text.trimEnd s) (Text.trimEnd t) := by
  generalize length : s.length = n
  -- the blanks are taken from the ends one by one
  induction n generalizing s t with
  | zero =>
    obtain rfl := List.length_eq_zero_iff.mp length
    obtain rfl := alike.eq_nil_iff.mp rfl
    exact .nil
  | succ n ih =>
    rcases List.eq_nil_or_concat s with rfl | ⟨front, c, rfl⟩
    · cases length
    rw [List.concat_eq_append] at alike length ⊢
    by_cases blank : isBlank c = true
    · obtain ⟨u, rfl, shorter⟩ :=
        alike.exists_of_append (not_bars_of_isBlank blank) (not_isMark_of_isBlank blank)
      rw [trimEnd_append, trimEnd_append, if_pos blank, if_pos blank]
      exact ih shorter (by simpa using length)
    · -- the first text does not end in a blank, so neither does the second
      have kept : Text.trimEnd t = t := by
        rcases List.eq_nil_or_concat t with rfl | ⟨last, d, rfl⟩
        · rfl
        rw [List.concat_eq_append] at alike ⊢
        rw [trimEnd_append, if_neg]
        intro other
        obtain ⟨u, same, -⟩ :=
          alike.symm.exists_of_append (not_bars_of_isBlank other) (not_isMark_of_isBlank other)
        obtain ⟨-, same⟩ := List.append_inj' same rfl
        obtain rfl : c = d := by simpa using same
        exact blank other
      rw [trimEnd_append, if_neg blank, kept]
      exact alike

theorem trim (alike : Alike s t) : Alike (Text.trim s) (Text.trim t) := alike.trimStart.trimEnd

/-! ## Names -/

/-- The atoms at the start of two texts end together, although they may be written differently. -/
theorem atom? (alike : Alike s t) :
    Option.Rel (fun first second => Alike first.2 second.2) (atom? s) (atom? t) := by
  cases alike with
  | nil => exact .none
  | @same c first second unmatched rest =>
    rw [atom?_cons, atom?_cons]
    by_cases lower : c.isLower = true
    · rw [if_pos lower, if_pos lower]
      exact .some (rest.takeWhile fun _ => isNameChar_of_dollar_or_isMark).2
    · rw [if_neg lower, if_neg lower]
      by_cases quote : c = Text.apostrophe
      · obtain ⟨left, right⟩ := unmatched (by simp [Lexeme.isMark, quote])
        rw [if_pos quote, if_pos quote, left, right]
        exact .none
      · rw [if_neg quote, if_neg quote]
        exact .none
  -- a token is an atom only if it is a quoted one
  | @token c p q first second hiddenFirst hiddenSecond rest =>
    rw [atom?_cons, atom?_cons]
    have notLower : ¬c.isLower = true := by
      rcases hiddenFirst.eq_dollar_or_isMark with rfl | mark
      · decide
      · rcases eq_of_isMark mark with rfl | rfl <;> decide
    rw [if_neg notLower, if_neg notLower]
    by_cases quote : c = Text.apostrophe
    · -- each atom ends with its token, so the rests are those after the tokens
      obtain ⟨closesFirst, someFirst⟩ := hiddenFirst.payload? quote first
      obtain ⟨closesSecond, someSecond⟩ := hiddenSecond.payload? quote second
      rw [if_pos quote, if_pos quote, closesFirst, closesSecond]
      refine .some ?_
      simpa [Nat.sub_add_cancel someFirst, Nat.sub_add_cancel someSecond] using rest
    · rw [if_neg quote, if_neg quote]
      exact .none

/-- A character that starts no token starts both texts. -/
theorem exists_of_cons {d : Char} (alike : Alike (d :: s) t)
    (free : ¬(d = '$' ∨ Lexeme.isMark d = true)) : ∃ u, t = d :: u ∧ Alike s u := by
  cases alike with
  | same _ rest => exact ⟨_, rfl, rest⟩
  | token hidden _ _ => exact absurd hidden.eq_dollar_or_isMark free

theorem afterChar? (alike : Alike s t) {d : Char} (free : ¬(d = '$' ∨ Lexeme.isMark d = true)) :
    Option.Rel Alike (afterChar? d s) (afterChar? d t) := by
  cases alike with
  | nil => exact .none
  | @same c first second _ rest =>
    rw [SignatureIndex.afterChar?, SignatureIndex.afterChar?]
    by_cases here : c = d
    · rw [if_pos here, if_pos here]
      exact .some rest
    · rw [if_neg here, if_neg here]
      exact .none
  | @token c p q first second hidden _ _ =>
    have other : c ≠ d := by
      rintro rfl
      exact free hidden.eq_dollar_or_isMark
    rw [SignatureIndex.afterChar?, SignatureIndex.afterChar?, if_neg other, if_neg other]
    exact .none

theorem headAtom? (alike : Alike s t) :
    Option.Rel (fun first second => Alike first.2 second.2) (headAtom? s) (headAtom? t) := by
  rw [headAtom?_eq, headAtom?_eq]
  refine rel_bind alike.atom? fun a b rests => ?_
  refine rel_bind (rests.trimStart.afterChar? (by decide)) fun after others rest => ?_
  exact .some (.same (fun mark => absurd mark (by decide)) rest)

theorem afterModule? (alike : Alike s t) : Option.Rel Alike (afterModule? s) (afterModule? t) := by
  rw [afterModule?_eq, afterModule?_eq]
  refine rel_bind alike.atom? fun a b rests => ?_
  refine rel_bind (rests.trimStart.afterChar? (by decide)) fun after others rest => ?_
  exact .some rest.trimStart

theorem functionHead? (alike : Alike s t) :
    Option.Rel (fun first second => Alike first.2 second.2) (functionHead? s)
      (functionHead? t) := by
  have qualified := rel_bind alike.afterModule? fun _ _ rest => rest.headAtom?
  have unqualified := alike.headAtom?
  unfold SignatureIndex.functionHead?
  generalize (SignatureIndex.afterModule? s).bind SignatureIndex.headAtom? = first at qualified ⊢
  generalize (SignatureIndex.afterModule? t).bind SignatureIndex.headAtom? = second at qualified ⊢
  cases qualified with
  | some heads => exact .some heads
  | none => exact unqualified

end Alike

end SignatureIndex
