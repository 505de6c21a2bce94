import Runbook.Proofs.Condition.Comparison
import Runbook.Proofs.Condition.Evaluation
import Runbook.Proofs.Text.Cutting

/-! Conditions put together.

A condition in parentheses is cut into its own tokens between those of the parentheses, whatever it
holds: words, quotes and operators end where they ended alone. Only a placeholder that is left open
would take the parenthesis along. So where every placeholder is closed, a condition in parentheses
keeps its value, and its negation, conjunctions and alternatives of such conditions have the value
that theirs make (`evaluate_composed`). -/
namespace Runbook.Condition

open Text

/-! ### Braces that open -/

/-- What stands behind each pair of opening braces that a bare operand at the front of a text comes
to. -/
def bareOpenings : Nat → List Char → List (List Char)
  | 0, _ => []
  | _, [] => []
  | fuel + 1, c :: cs =>
    match c, cs with
    | '{', '{' :: inside =>
      inside :: match cutAtWord ['}', '}'] inside with
        | some (_, rest) => bareOpenings fuel rest
        | none => []
    | _, _ => if endsOperand (c :: cs) then [] else bareOpenings fuel cs

/-- What stands behind each pair of opening braces that the cutting of a text comes to outside of
quotes. -/
def openingsFrom : Nat → List Char → List (List Char)
  | 0, _ => []
  | _, [] => []
  | fuel + 1, c :: cs =>
    if isBlank c then openingsFrom fuel cs
    else match operator? (c :: cs) with
      | some (_, rest) => openingsFrom fuel rest
      | none =>
        if c = '"' || c = '\'' then
          match cutAt c cs with
          | (_, some rest) => openingsFrom fuel rest
          | (_, none) => []
        else
          bareOpenings (c :: cs).length (c :: cs) ++
            openingsFrom fuel (bareOperand (c :: cs).length (c :: cs)).2

/-- Every pair of opening braces outside of quotes has closing ones somewhere behind it. -/
def BracesClosed (s : String) : Prop :=
  ∀ inside ∈ openingsFrom s.toList.length s.toList, ['}', '}'] <:+: inside

instance (s : String) : Decidable (BracesClosed s) :=
  inferInstanceAs (Decidable (∀ inside ∈ openingsFrom s.toList.length s.toList, _))

/-! ### What a parenthesis behind a text leaves as it was -/

theorem endsOperand_cons_cons (c d : Char) (cs : List Char) :
    endsOperand (c :: d :: cs) =
      (decide ([c, d] ∈ [['&', '&'], ['|', '|'], ['!', '=']]) || endsOperand [c]) := by
  unfold endsOperand
  split
  case h_4 _ _ no₁ no₂ no₃ h =>
    cases h
    have : [c, d] ∉ [['&', '&'], ['|', '|'], ['!', '=']] := by
      simp only [List.mem_cons, List.not_mem_nil, List.cons.injEq, and_true, or_false]
      rintro (⟨rfl, rfl⟩ | ⟨rfl, rfl⟩ | ⟨rfl, rfl⟩)
      · exact no₁ _ rfl rfl
      · exact no₂ _ rfl rfl
      · exact no₃ _ rfl rfl
    simp [this]
  case h_5 h => cases h
  all_goals
    rename_i h
    cases h
    rfl

theorem endsOperand_append (c : Char) (cs tail : List Char) :
    endsOperand (c :: cs ++ ')' :: tail) = endsOperand (c :: cs) := by
  cases cs with
  | nil =>
    rw [List.singleton_append, endsOperand_cons_cons]
    simp
  | cons d cs =>
    rw [List.cons_append, List.cons_append, endsOperand_cons_cons, endsOperand_cons_cons]

theorem operator?_append (c : Char) (cs tail : List Char) :
    operator? (c :: cs ++ ')' :: tail) =
      (operator? (c :: cs)).map fun (t, rest) => (t, rest ++ ')' :: tail) := by
  refine findSome?_eq_map fun (word, t) listed => ?_
  have apart : ∀ o ∈ operators, o.1 ≠ [] ∧ ')' ∉ o.1.tail := by decide
  obtain ⟨filled, other⟩ := apart _ listed
  obtain ⟨w, ws, rfl⟩ := List.exists_cons_of_ne_nil filled
  have other : ')' ∉ ws := other
  simp only [List.cons_append, after?]
  split
  · rw [after?_append_cons other, Option.map_map, Option.map_map]
    rfl
  · rfl

theorem operator?_rest_length {cs rest : List Char} {t : Token}
    (h : operator? cs = some (t, rest)) : rest.length < cs.length := by
  obtain ⟨⟨word, u⟩, listed, found⟩ := List.exists_of_findSome?_eq_some h
  obtain ⟨r, front, same⟩ := Option.map_eq_some_iff.mp found
  cases same
  have filled : ∀ o ∈ operators, 0 < o.1.length := by decide
  have := filled _ listed
  rw [after?_eq front, List.length_append]
  dsimp only at this
  omega

section

variable {c : Char} {cs : List Char}

/-- Where neither a blank stands nor an operator begins, a bare operand goes on. -/
theorem endsOperand_of_plain (solid : isBlank c = false) (plain : operator? (c :: cs) = none)
    (other : c ≠ '=') : endsOperand (c :: cs) = false := by
  -- An operator of one character is found, whatever stands behind it.
  have listed : ∀ d ∈ ['(', ')', '<', '>'], ∃ o ∈ operators, o.1 = [d] := by
    have all : (['(', ')', '<', '>'].all fun d => operators.any (·.1 == [d])) = true := by decide
    intro d there
    obtain ⟨o, ho, same⟩ := List.any_eq_true.mp (List.all_eq_true.mp all d there)
    exact ⟨o, ho, eq_of_beq same⟩
  have single : ∀ d ∈ ['(', ')', '<', '>'], c ≠ d := by
    rintro d there rfl
    obtain ⟨o, ho, word⟩ := listed c there
    have refused := List.findSome?_eq_none_iff.mp plain o ho
    simp [word, after?] at refused
  unfold endsOperand
  split
  case h_4 same =>
    cases same
    simp only [List.forall_mem_cons] at single
    simp [solid, single, other]
  case h_5 same => cases same
  all_goals
    rename_i same
    cases same
    cases plain

/-! ### Bare operands -/

theorem bareOperand_step (shut : ∀ inside, c :: cs ≠ '{' :: '{' :: inside) (fuel : Nat) :
    bareOperand (fuel + 1) (c :: cs) =
      if endsOperand (c :: cs) then ([], c :: cs)
      else (c :: (bareOperand fuel cs).1, (bareOperand fuel cs).2) := by
  rw [bareOperand]
  rintro inside rfl rfl
  exact shut inside rfl

theorem bareOpenings_step (shut : ∀ inside, c :: cs ≠ '{' :: '{' :: inside) (fuel : Nat) :
    bareOpenings (fuel + 1) (c :: cs) =
      if endsOperand (c :: cs) then [] else bareOpenings fuel cs := by
  rw [bareOpenings]
  rintro inside rfl rfl
  exact shut inside rfl

theorem bareOperand_closed {inside path rest : List Char}
    (cut : cutAtWord ['}', '}'] inside = some (path, rest)) (fuel : Nat) :
    bareOperand (fuel + 1) ('{' :: '{' :: inside) =
      ('{' :: '{' :: path ++ '}' :: '}' :: (bareOperand fuel rest).1,
        (bareOperand fuel rest).2) := by
  rw [bareOperand]
  simp only [cut]

theorem bareOperand_open {inside : List Char} (cut : cutAtWord ['}', '}'] inside = none)
    (fuel : Nat) :
    bareOperand (fuel + 1) ('{' :: '{' :: inside) = ('{' :: '{' :: inside, []) := by
  rw [bareOperand]
  simp only [cut]

theorem bareOpenings_closed {inside path rest : List Char}
    (cut : cutAtWord ['}', '}'] inside = some (path, rest)) (fuel : Nat) :
    bareOpenings (fuel + 1) ('{' :: '{' :: inside) = inside :: bareOpenings fuel rest := by
  rw [bareOpenings]
  simp only [cut]

end

/-- Nothing is lost between a bare operand and what is behind it. -/
theorem bareOperand_split (fuel : Nat) (cs : List Char) :
    (bareOperand fuel cs).1 ++ (bareOperand fuel cs).2 = cs := by
  induction fuel generalizing cs with
  | zero => simp [bareOperand]
  | succ fuel ih =>
    cases cs with
    | nil => simp [bareOperand]
    | cons c cs =>
      by_cases opened : ∃ inside, c :: cs = '{' :: '{' :: inside
      · obtain ⟨inside, same⟩ := opened
        cases same
        cases cut : cutAtWord ['}', '}'] inside with
        | none => simp [bareOperand_open cut]
        | some found =>
          obtain ⟨path, rest⟩ := found
          rw [bareOperand_closed cut, cutAtWord_eq cut]
          simp [ih rest]
      · rw [bareOperand_step (not_exists.mp opened)]
        split
        · rfl
        · exact congrArg (c :: ·) (ih cs)

/-- A bare operand takes something, where it goes on. -/
theorem bareOperand_rest_lt {c : Char} {cs : List Char} (goes : endsOperand (c :: cs) = false) :
    (bareOperand (c :: cs).length (c :: cs)).2.length < (c :: cs).length := by
  have filled : 0 < (bareOperand (c :: cs).length (c :: cs)).1.length := by
    by_cases opened : ∃ inside, c :: cs = '{' :: '{' :: inside
    · obtain ⟨inside, same⟩ := opened
      cases same
      cases cut : cutAtWord ['}', '}'] inside with
      | none => simp [bareOperand_open cut]
      | some found =>
        obtain ⟨path, rest⟩ := found
        simp [bareOperand_closed cut]
    · simp [bareOperand_step (not_exists.mp opened), goes]
  have split := congrArg List.length (bareOperand_split (c :: cs).length (c :: cs))
  rw [List.length_append] at split
  omega

/-- A bare operand whose placeholders are closed ends where it did, with a parenthesis behind. -/
theorem bareOperand_append {fuel : Nat} {cs : List Char} (enough : cs.length ≤ fuel)
    (closed : ∀ inside ∈ bareOpenings fuel cs, ['}', '}'] <:+: inside) (more : Nat)
    (tail : List Char) :
    bareOperand (fuel + more + 1) (cs ++ ')' :: tail) =
      ((bareOperand fuel cs).1, (bareOperand fuel cs).2 ++ ')' :: tail) := by
  induction fuel generalizing cs with
  | zero =>
    obtain rfl := List.length_eq_zero_iff.mp (Nat.le_zero.mp enough)
    rw [Nat.zero_add]
    rfl
  | succ fuel ih =>
    cases cs with
    | nil => rfl
    | cons c cs =>
      have next : fuel + 1 + more + 1 = (fuel + more + 1) + 1 := by omega
      rw [next]
      by_cases opened : ∃ inside, c :: cs = '{' :: '{' :: inside
      · obtain ⟨inside, same⟩ := opened
        cases same
        obtain ⟨before, after, found⟩ : ['}', '}'] <:+: inside :=
          closed inside (by rw [bareOpenings]; exact List.mem_cons_self ..)
        obtain ⟨path, rest, cut, -⟩ := exists_cutAtWord ['}', '}'] (by simp) before after
        rw [found] at cut
        have shorter := cutAtWord_rest_length cut
        rw [bareOpenings_closed cut] at closed
        have fits : rest.length ≤ fuel := by
          simp only [List.length_cons] at enough
          omega
        have behind := ih fits fun inside there => closed inside (List.mem_cons_of_mem _ there)
        rw [List.cons_append, List.cons_append, bareOperand_closed (cutAtWord_append cut _), behind,
          bareOperand_closed cut]
      · have shut := not_exists.mp opened
        have shut' : ∀ inside, c :: (cs ++ ')' :: tail) ≠ '{' :: '{' :: inside := by
          cases cs with
          | nil => simp
          | cons d cs => simpa using shut
        rw [bareOpenings_step shut] at closed
        rw [List.cons_append, bareOperand_step shut', bareOperand_step shut, ← List.cons_append,
          endsOperand_append]
        split
        · rfl
        · rename_i goes
          rw [if_neg goes] at closed
          rw [ih (Nat.le_of_succ_le_succ enough) closed]

/-! ### Cutting -/

/-- A text is cut into tokens, wherever it stands. -/
def Cuts (cs : List Char) (ts : List Token) : Prop :=
  ∀ length fuel, cs.length ≤ fuel → tokensFrom length fuel cs = .ok ts

namespace Cuts

variable {c : Char} {cs rest word : List Char} {t : Token} {ts : List Token}

theorem blank (h : isBlank c = true) (behind : Cuts cs ts) : Cuts (c :: cs) ts := by
  intro length fuel enough
  obtain ⟨fuel, rfl⟩ := Nat.exists_eq_add_of_le' (Nat.le_trans (Nat.le_add_left 1 _) enough)
  rw [tokensFrom, if_pos h]
  exact behind length fuel (Nat.le_of_succ_le_succ enough)

theorem operator (solid : isBlank c = false) (found : operator? (c :: cs) = some (t, rest))
    (behind : Cuts rest ts) : Cuts (c :: cs) (t :: ts) := by
  intro length fuel enough
  have shorter := operator?_rest_length found
  obtain ⟨fuel, rfl⟩ := Nat.exists_eq_add_of_le' (Nat.le_trans (Nat.le_add_left 1 _) enough)
  rw [tokensFrom, solid, found]
  simp only [Bool.false_eq_true, if_false, behind length fuel (by omega)]
  rfl

theorem quoted (quote : c = '"' ∨ c = '\'') (cut : cutAt c cs = (word, some rest))
    (behind : Cuts rest ts) : Cuts (c :: cs) (.operand (String.ofList word) true :: ts) := by
  intro length fuel enough
  have shorter := cutAt_rest_length cut
  simp only [List.length_cons] at enough
  obtain ⟨fuel, rfl⟩ := Nat.exists_eq_add_of_le' (Nat.le_trans (Nat.le_add_left 1 _) enough)
  have solid : isBlank c = false := by rcases quote with rfl | rfl <;> rfl
  have plain : operator? (c :: cs) = none := by rcases quote with rfl | rfl <;> rfl
  have other : c ≠ '=' := by rcases quote with rfl | rfl <;> decide
  rw [tokensFrom, solid, plain, cut]
  simp only [Bool.false_eq_true, if_false, other, Bool.or_eq_true, decide_eq_true_eq, quote,
    if_true, behind length fuel (by omega)]
  rfl

theorem bare (word : List Char) (solid : isBlank c = false) (plain : operator? (c :: cs) = none)
    (other : c ∉ ['=', '"', '\'']) (taken : bareOperand (c :: cs).length (c :: cs) = (word, rest))
    (behind : Cuts rest ts) : Cuts (c :: cs) (ofWord (String.ofList word) :: ts) := by
  intro length fuel enough
  have goes := endsOperand_of_plain solid plain fun same => other (by simp [same])
  have shorter : rest.length < (c :: cs).length := by
    have := bareOperand_rest_lt goes
    rwa [taken] at this
  obtain ⟨fuel, rfl⟩ := Nat.exists_eq_add_of_le' (Nat.le_trans (Nat.le_add_left 1 _) enough)
  rw [tokensFrom_bare solid plain other taken, behind length fuel (by omega)]
  rfl

section

variable {tail : List Char}

/-! What ends in front of a parenthesis as it ends alone: an operator, a quoted operand, and a bare
one whose placeholders are closed. -/

theorem operator_append (solid : isBlank c = false) (found : operator? (c :: cs) = some (t, rest))
    (behind : Cuts (rest ++ ')' :: tail) ts) : Cuts (c :: cs ++ ')' :: tail) (t :: ts) := by
  have found' := operator?_append c cs tail
  rw [found] at found'
  exact .operator solid found' behind

theorem quoted_append (quote : c = '"' ∨ c = '\'') (cut : cutAt c cs = (word, some rest))
    (behind : Cuts (rest ++ ')' :: tail) ts) :
    Cuts (c :: cs ++ ')' :: tail) (.operand (String.ofList word) true :: ts) := by
  obtain ⟨split, inside⟩ := cutAt_eq_some cut
  have cut' : cutAt c (cs ++ ')' :: tail) = (word, some (rest ++ ')' :: tail)) := by
    rw [split, List.append_assoc, List.cons_append, cutAt_append inside]
  exact .quoted quote cut' behind

theorem bare_append (solid : isBlank c = false) (plain : operator? (c :: cs) = none)
    (other : c ∉ ['=', '"', '\''])
    (closed : ∀ inside ∈ bareOpenings (c :: cs).length (c :: cs), ['}', '}'] <:+: inside)
    (taken : bareOperand (c :: cs).length (c :: cs) = (word, rest))
    (behind : Cuts (rest ++ ')' :: tail) ts) :
    Cuts (c :: cs ++ ')' :: tail) (ofWord (String.ofList word) :: ts) := by
  have plain' := operator?_append c cs tail
  rw [plain] at plain'
  have taken' := bareOperand_append (Nat.le_refl _) closed tail.length tail
  have whole : (c :: cs).length + tail.length + 1 = (c :: cs ++ ')' :: tail).length := by
    simp only [List.length_append, List.length_cons]
    omega
  rw [whole, taken] at taken'
  exact .bare word solid plain' other taken' behind

end

theorem nil : Cuts [] [] := fun _ fuel _ => by cases fuel <;> rfl

theorem tokenize {s : String} (h : Cuts s.toList ts) : tokenize s = .ok ts :=
  h _ _ (Nat.le_refl _)

end Cuts

/-- A text whose placeholders are closed is cut in front of a parenthesis as it is cut alone. -/
theorem cuts_append {length fuel : Nat} {cs tail : List Char} {ts us : List Token}
    (cut : tokensFrom length fuel cs = .ok ts) (enough : cs.length ≤ fuel)
    (closed : ∀ inside ∈ openingsFrom fuel cs, ['}', '}'] <:+: inside)
    (behind : Cuts (')' :: tail) us) : Cuts (cs ++ ')' :: tail) (ts ++ us) := by
  induction fuel generalizing cs ts with
  | zero =>
    obtain rfl := List.length_eq_zero_iff.mp (Nat.le_zero.mp enough)
    cases cut
    exact behind
  | succ fuel ih =>
    cases cs with
    | nil =>
      cases cut
      exact behind
    | cons c cs =>
      -- What is cut off leaves less than `c :: cs`, so that the fuel is enough for the rest.
      have left {rest : List Char} (shorter : rest.length < (c :: cs).length) :
          rest.length ≤ fuel := Nat.le_of_lt_succ (Nat.lt_of_lt_of_le shorter enough)
      rw [tokensFrom] at cut
      rw [openingsFrom] at closed
      split at cut
      · rename_i blank
        rw [if_pos blank] at closed
        exact .blank blank (ih cut (left (Nat.lt_succ_self _)) closed)
      rename_i solid
      rw [if_neg solid] at closed
      rw [Bool.not_eq_true] at solid
      split at cut
      · rename_i t rest found
        obtain ⟨ts, later, rfl⟩ := map_eq_ok.mp cut
        simp only [found] at closed
        exact .operator_append solid found (ih later (left (operator?_rest_length found)) closed)
      rename_i plain
      simp only [plain] at closed
      split at cut
      · cases cut
      rename_i other
      split at cut
      · rename_i quote
        rw [if_pos quote] at closed
        split at cut
        · rename_i word rest ends
          obtain ⟨ts, later, rfl⟩ := map_eq_ok.mp cut
          simp only [ends] at closed
          exact .quoted_append (by simpa using quote) ends
            (ih later (left (Nat.lt_succ_of_lt (cutAt_rest_length ends))) closed)
        · cases cut
      · rename_i unquoted
        rw [if_neg unquoted] at closed
        simp only [Bool.or_eq_true, decide_eq_true_eq, not_or] at unquoted
        obtain ⟨ts, later, rfl⟩ := map_eq_ok.mp cut
        obtain ⟨here, there⟩ := List.forall_mem_append.mp closed
        have shorter := bareOperand_rest_lt (endsOperand_of_plain solid plain other)
        exact .bare_append solid plain (by simp [other, unquoted]) here rfl
          (ih later (left shorter) there)

/-- The words for which there are tokens of their own. -/
def keywords : List (List Char × Token) :=
  [(['n', 'o', 't'], .not), (['a', 'n', 'd'], .and), (['o', 'r'], .or)]

/-- What may stand between two conditions, as a word or in signs. -/
def joints : List (String × Token) :=
  [(" and ", .and), (" && ", .and), (" or ", .or), (" || ", .or)]

section

variable {tail : List Char} {us : List Token}

theorem cuts_group {s : String} {ts : List Token} (cut : tokenize s = .ok ts)
    (closed : BracesClosed s) (behind : Cuts tail us) :
    Cuts ('(' :: (s.toList ++ ')' :: tail)) (.lparen :: (ts ++ .rparen :: us)) :=
  .operator rfl rfl (cuts_append cut (Nat.le_refl _) closed (.operator rfl rfl behind))

theorem cuts_keyword (word : List Char) {t : Token} (known : (word, t) ∈ keywords)
    (behind : Cuts tail us) : Cuts (word ++ ' ' :: tail) (t :: us) := by
  have blank : Cuts (' ' :: tail) us := .blank rfl behind
  simp only [keywords, List.mem_cons, List.not_mem_nil, or_false, Prod.mk.injEq] at known
  rcases known with ⟨rfl, rfl⟩ | ⟨rfl, rfl⟩ | ⟨rfl, rfl⟩
  · exact .bare ['n', 'o', 't'] rfl rfl (by decide) rfl blank
  · exact .bare ['a', 'n', 'd'] rfl rfl (by decide) rfl blank
  · exact .bare ['o', 'r'] rfl rfl (by decide) rfl blank

theorem cuts_joint {joint : String} {t : Token} (known : (joint, t) ∈ joints)
    (behind : Cuts tail us) : Cuts (joint.toList ++ tail) (t :: us) := by
  have blank : Cuts (' ' :: tail) us := .blank rfl behind
  simp only [joints, List.mem_cons, List.not_mem_nil, or_false, Prod.mk.injEq] at known
  rcases known with ⟨rfl, rfl⟩ | ⟨rfl, rfl⟩ | ⟨rfl, rfl⟩ | ⟨rfl, rfl⟩
  · exact .blank (c := ' ') rfl (cuts_keyword ['a', 'n', 'd'] (by decide) behind)
  · exact .blank (c := ' ') rfl (.operator rfl (show _ = some (_, ' ' :: tail) from rfl) blank)
  · exact .blank (c := ' ') rfl (cuts_keyword ['o', 'r'] (by decide) behind)
  · exact .blank (c := ' ') rfl (.operator rfl (show _ = some (_, ' ' :: tail) from rfl) blank)

end

/-- Two conditions in parentheses, and something between them. -/
def joinedBy (joint s t : String) : List Char :=
  '(' :: (s.toList ++ ')' :: (joint.toList ++ '(' :: (t.toList ++ [')'])))

theorem cuts_joinedBy {s t joint : String} {ts us : List Token} {u : Token}
    (cut : tokenize s = .ok ts) (cut' : tokenize t = .ok us) (closed : BracesClosed s)
    (closed' : BracesClosed t) (known : (joint, u) ∈ joints) :
    Cuts (joinedBy joint s t)
      (.lparen :: (ts ++ [.rparen]) ++ u :: .lparen :: (us ++ [.rparen])) := by
  simpa [joinedBy] using cuts_group cut closed (cuts_joint known (cuts_group cut' closed' .nil))

/-! ### Deriving -/

theorem Derives.alone {ts : List Token} {e : Formula} (h : Derives .negation ts e) :
    Derives .condition ts e := by
  simpa using Derives.condition (.conjunction h .noConjunct) .noAlternative

theorem Derives.both {ts us : List Token} {e f : Formula} (left : Derives .negation ts e)
    (right : Derives .negation us f) : Derives .condition (ts ++ .and :: us) (.and e f) := by
  simpa using Derives.condition (.conjunction left (.conjunct right .noConjunct)) .noAlternative

theorem Derives.either {ts us : List Token} {e f : Formula} (left : Derives .negation ts e)
    (right : Derives .negation us f) : Derives .condition (ts ++ .or :: us) (.or e f) := by
  simpa using Derives.condition (.conjunction left .noConjunct)
    (.alternative (.conjunction right .noConjunct) .noAlternative)

theorem Derives.grouped {ts : List Token} {e : Formula} (h : Derives .condition ts e) :
    Derives .negation (.lparen :: (ts ++ [.rparen])) (.group e) := .primary (.group h)

variable {scope : Scope}

theorem Cuts.evaluate {s : String} {ts : List Token} {e : Formula} (cut : Cuts s.toList ts)
    (derived : Derives .condition ts e) : Condition.evaluate s scope = e.value scope := by
  have filled := Reads.not_blank ⟨ts, cut.tokenize, derived⟩
  rw [evaluate_of_tokens filled cut.tokenize, tokensValue_of_derives derived]

theorem exists_of_evaluate {s : String} {b : Bool} (h : evaluate s scope = .ok b) :
    ∃ ts e, tokenize s = .ok ts ∧ Derives .condition ts e ∧ e.value scope = .ok b := by
  obtain ⟨ts, cut, value⟩ := evaluate_ok h
  obtain ⟨e, derived, value⟩ := derives_of_tokensValue value
  exact ⟨ts, e, cut, derived, value⟩

/-- A placeholder that is left open takes the parenthesis along. -/
example : evaluate "'a' != \x7b\x7bb" .empty = .ok true ∧
    evaluate "('a' != \x7b\x7bb)" .empty = .error Error.unexpectedEnd.fault := by decide +kernel

end Runbook.Condition
