import Runbook.Condition.Token

/-! The grammar of conditions.

    condition   = conjunction (or conjunction)*
    conjunction = negation (and negation)*
    negation    = not negation | primary
    primary     = ( condition ) | operand [comparison operand]

A `Formula` is a derivation in it: it keeps the parentheses, and alternatives and conjunctions
lean to the left. `Derives.unique` says that a list of tokens has one derivation at most. No
scope takes part in any of this, so neither can the value of a variable. -/
namespace Runbook.Condition

/-- A condition that is not put together: one operand, or two compared. -/
inductive Atom
  | bare (text : String)
  | compared (left : String) (op : Comparison) (right : String)
deriving DecidableEq, Repr

/-- The derivation of a condition. -/
inductive Formula
  | atom (a : Atom)
  | group (e : Formula)
  | not (e : Formula)
  | and (e f : Formula)
  | or (e f : Formula)
deriving DecidableEq, Repr

/-- What tokens can be derived from. The two repetitions know what stands in front of them. -/
inductive Symbol
  | condition
  | alternatives (before : Formula)
  | conjunction
  | conjuncts (before : Formula)
  | negation
  | primary

/-- What stands in front of a repetition. -/
def Symbol.before? : Symbol → Option Formula
  | alternatives e | conjuncts e => some e
  | _ => none

/-- The tokens that derive from a symbol, with their derivation. -/
inductive Derives : Symbol → List Token → Formula → Prop
  | condition {ts us : List Token} {e f : Formula} (first : Derives .conjunction ts e)
    (behind : Derives (.alternatives e) us f) : Derives .condition (ts ++ us) f
  | noAlternative {e : Formula} : Derives (.alternatives e) [] e
  | alternative {ts us : List Token} {e f g : Formula} (next : Derives .conjunction ts f)
    (behind : Derives (.alternatives (.or e f)) us g) :
    Derives (.alternatives e) (.or :: (ts ++ us)) g
  | conjunction {ts us : List Token} {e f : Formula} (first : Derives .negation ts e)
    (behind : Derives (.conjuncts e) us f) : Derives .conjunction (ts ++ us) f
  | noConjunct {e : Formula} : Derives (.conjuncts e) [] e
  | conjunct {ts us : List Token} {e f g : Formula} (next : Derives .negation ts f)
    (behind : Derives (.conjuncts (.and e f)) us g) :
    Derives (.conjuncts e) (.and :: (ts ++ us)) g
  | not {ts : List Token} {e : Formula} (inner : Derives .negation ts e) :
    Derives .negation (.not :: ts) (.not e)
  | primary {ts : List Token} {e : Formula} (inner : Derives .primary ts e) :
    Derives .negation ts e
  | group {ts : List Token} {e : Formula} (inner : Derives .condition ts e) :
    Derives .primary (.lparen :: (ts ++ [.rparen])) (.group e)
  | bare (text : String) (quoted : Bool) :
    Derives .primary [.operand text quoted] (.atom (.bare text))
  | compared (left : String) (leftQuoted : Bool) (op : Comparison) (right : String)
    (rightQuoted : Bool) :
    Derives .primary [.operand left leftQuoted, .op op, .operand right rightQuoted]
      (.atom (.compared left op right))

/-! ### Where a symbol ends -/

/-- How tight a symbol is: a condition is loosest, an operand tightest. -/
@[simp] def Symbol.level : Symbol → Nat
  | .condition | .alternatives _ => 0
  | .conjunction | .conjuncts _ => 1
  | .negation | .primary => 2

/-- A token can go on with the symbols below its reach. -/
@[simp] def Token.reach : Token → Nat
  | .or => 1
  | .and => 2
  | .op _ => 3
  | _ => 0

/-- Whether a symbol ends in front of `rest`, whatever was derived from it. -/
def Symbol.EndsBefore (x : Symbol) (rest : List Token) : Prop :=
  ∀ t ∈ rest.head?, t.reach ≤ x.level

theorem Symbol.endsBefore_nil (x : Symbol) : x.EndsBefore [] := nofun

theorem Symbol.endsBefore_cons {x : Symbol} {t : Token} {rest : List Token} :
    x.EndsBefore (t :: rest) ↔ t.reach ≤ x.level := by simp [EndsBefore]

/-- A tighter symbol ends before the looser one that it stands in. -/
theorem Symbol.EndsBefore.mono {x y : Symbol} {rest : List Token} (h : x.EndsBefore rest)
    (tighter : x.level ≤ y.level) : y.EndsBefore rest :=
  fun t ht => Nat.le_trans (h t ht) tighter

theorem Derives.alternatives_front {e f : Formula} {us rest : List Token}
    (h : Derives (.alternatives e) us f) (ends : Symbol.condition.EndsBefore rest) :
    Symbol.conjunction.EndsBefore (us ++ rest) := by
  cases h with
  | noAlternative => exact ends.mono (by simp)
  | alternative => exact Symbol.endsBefore_cons.mpr (by simp)

theorem Derives.conjuncts_front {e f : Formula} {us rest : List Token}
    (h : Derives (.conjuncts e) us f) (ends : Symbol.conjunction.EndsBefore rest) :
    Symbol.negation.EndsBefore (us ++ rest) := by
  cases h with
  | noConjunct => exact ends.mono (by simp)
  | conjunct => exact Symbol.endsBefore_cons.mpr (by simp)

/-! ### One derivation at most -/

/-- Whether `ts` is all that can be taken for the symbol from the front of a list of tokens, and
`e` its one derivation, where the symbol ends in front of what is left over. -/
def Symbol.Settles (x : Symbol) (ts : List Token) (e : Formula) : Prop :=
  ∀ (us rest rest' : List Token) (f : Formula), Derives x us f → x.EndsBefore rest →
    x.EndsBefore rest' → ts ++ rest = us ++ rest' → ts = us ∧ e = f

namespace Symbol.Settles

/-- A symbol and the repetition behind it. -/
theorem append {x : Symbol} {ts us ts' us' rest rest' : List Token} {e f e' f' : Formula}
    (again : Formula → Symbol) (first : x.Settles ts e) (behind : (again e).Settles us f)
    (first' : Derives x ts' e') (behind' : Derives (again e') us' f')
    (between : x.EndsBefore (us ++ rest)) (between' : x.EndsBefore (us' ++ rest'))
    (ends : (again e).EndsBefore rest) (ends' : (again e).EndsBefore rest')
    (same : ts ++ us ++ rest = ts' ++ us' ++ rest') : ts ++ us = ts' ++ us' ∧ f = f' := by
  rw [List.append_assoc, List.append_assoc] at same
  obtain ⟨rfl, rfl⟩ := first _ _ _ _ first' between between' same
  obtain ⟨rfl, rfl⟩ := behind _ _ _ _ behind' ends ends' (List.append_cancel_left same)
  exact ⟨rfl, rfl⟩

theorem not {ts : List Token} {e : Formula} (inner : Settles .negation ts e) :
    Settles .negation (.not :: ts) (.not e) := by
  intro us rest rest' f h' ends ends' same
  cases h' with
  | not inner' =>
    obtain ⟨rfl, rfl⟩ := inner _ _ _ _ inner' ends ends' (List.cons.inj same).2
    exact ⟨rfl, rfl⟩
  | primary inner' => cases inner' <;> cases same

theorem primary {ts : List Token} {e : Formula} (h : Derives .primary ts e)
    (inner : Settles .primary ts e) : Settles .negation ts e := by
  intro us rest rest' f h' ends ends' same
  cases h' with
  | not inner' => cases h <;> cases same
  | primary inner' => exact inner _ _ _ _ inner' ends ends' same

theorem group {ts : List Token} {e : Formula} (inner : Settles .condition ts e) :
    Settles .primary (.lparen :: (ts ++ [.rparen])) (.group e) := by
  intro us rest rest' f h' _ _ same
  cases h' with
  | group inner' =>
    simp only [List.cons_append, List.cons.injEq, true_and, List.append_assoc] at same
    obtain ⟨rfl, rfl⟩ := inner _ _ _ _ inner' (Symbol.endsBefore_cons.mpr (by simp))
      (Symbol.endsBefore_cons.mpr (by simp)) same
    exact ⟨rfl, rfl⟩
  | bare => cases same
  | compared => cases same

theorem bare (text : String) (quoted : Bool) :
    Settles .primary [.operand text quoted] (.atom (.bare text)) := by
  intro us rest rest' f h' ends _ same
  cases h' with
  | group => cases same
  | bare => cases same; exact ⟨rfl, rfl⟩
  | compared =>
    cases (List.cons.inj same).2
    exact absurd (Symbol.endsBefore_cons.mp ends) (by simp)

theorem compared (left : String) (leftQuoted : Bool) (op : Comparison) (right : String)
    (rightQuoted : Bool) :
    Settles .primary [.operand left leftQuoted, .op op, .operand right rightQuoted]
      (.atom (.compared left op right)) := by
  intro us rest rest' f h' _ ends' same
  cases h' with
  | group => cases same
  | bare =>
    cases (List.cons.inj same).2
    exact absurd (Symbol.endsBefore_cons.mp ends') (by simp)
  | compared => cases same; exact ⟨rfl, rfl⟩

end Symbol.Settles

/-- Where a symbol ends on both sides, the same tokens are taken and in the same way. -/
theorem Derives.settles {x : Symbol} {ts : List Token} {e : Formula} (h : Derives x ts e) :
    x.Settles ts e := by
  induction h with
  | condition first behind ihFirst ihBehind =>
    intro us rest rest' f h' ends ends' same
    cases h' with
    | condition first' behind' =>
      exact ihFirst.append .alternatives ihBehind first' behind' (behind.alternatives_front ends)
        (behind'.alternatives_front ends') ends ends' same
  | noAlternative =>
    intro us rest rest' f h' ends ends' same
    cases h' with
    | noAlternative => exact ⟨rfl, rfl⟩
    | alternative => subst same; exact absurd (Symbol.endsBefore_cons.mp ends) (by simp)
  | alternative next behind ihNext ihBehind =>
    intro us rest rest' f h' ends ends' same
    cases h' with
    | noAlternative => subst same; exact absurd (Symbol.endsBefore_cons.mp ends') (by simp)
    | alternative next' behind' =>
      obtain ⟨taken, rfl⟩ := ihNext.append (.alternatives <| .or _ ·) ihBehind next' behind'
        (behind.alternatives_front ends) (behind'.alternatives_front ends') ends ends' (List.cons.inj same).2
      exact ⟨congrArg (Token.or :: ·) taken, rfl⟩
  | conjunction first behind ihFirst ihBehind =>
    intro us rest rest' f h' ends ends' same
    cases h' with
    | conjunction first' behind' =>
      exact ihFirst.append .conjuncts ihBehind first' behind' (behind.conjuncts_front ends)
        (behind'.conjuncts_front ends') ends ends' same
  | noConjunct =>
    intro us rest rest' f h' ends ends' same
    cases h' with
    | noConjunct => exact ⟨rfl, rfl⟩
    | conjunct => subst same; exact absurd (Symbol.endsBefore_cons.mp ends) (by simp)
  | conjunct next behind ihNext ihBehind =>
    intro us rest rest' f h' ends ends' same
    cases h' with
    | noConjunct => subst same; exact absurd (Symbol.endsBefore_cons.mp ends') (by simp)
    | conjunct next' behind' =>
      obtain ⟨taken, rfl⟩ := ihNext.append (.conjuncts <| .and _ ·) ihBehind next' behind'
        (behind.conjuncts_front ends) (behind'.conjuncts_front ends') ends ends' (List.cons.inj same).2
      exact ⟨congrArg (Token.and :: ·) taken, rfl⟩
  | not inner ih => exact ih.not
  | primary inner ih => exact .primary inner ih
  | group inner ih => exact ih.group
  | bare text quoted => exact .bare text quoted
  | compared left leftQuoted op right rightQuoted =>
    exact .compared left leftQuoted op right rightQuoted

/-- A list of tokens is a condition in one way at most. -/
theorem Derives.unique {ts : List Token} {e f : Formula} (h : Derives .condition ts e)
    (h' : Derives .condition ts f) : e = f :=
  (h.settles _ _ _ _ h' (Symbol.endsBefore_nil _) (Symbol.endsBefore_nil _) rfl).2

/-- Nothing but a repetition derives from no tokens. -/
theorem Derives.length_pos {x : Symbol} {ts : List Token} {e : Formula} (h : Derives x ts e)
    (whole : x.before? = none) : 0 < ts.length := by
  induction h with
  | condition first behind ih _ | conjunction first behind ih _ =>
    have := ih rfl
    rw [List.length_append]
    omega
  | noAlternative | noConjunct => cases whole
  | primary inner ih => exact ih rfl
  | _ => simp

/-! ### Operands -/

def Atom.operands : Atom → List String
  | bare text => [text]
  | compared left _ right => [left, right]

/-- The operands and comparisons of a derivation, from the left. -/
def Formula.atoms : Formula → List Atom
  | atom a => [a]
  | group e | not e => e.atoms
  | and e f | or e f => e.atoms ++ f.atoms

/-- Whether the operands of an atom stand among the tokens. -/
def Atom.StandsIn (ts : List Token) (a : Atom) : Prop :=
  ∀ text ∈ a.operands, ∃ quoted, .operand text quoted ∈ ts

theorem Atom.StandsIn.mono {ts us : List Token} {a : Atom} (h : a.StandsIn us) (part : us ⊆ ts) :
    a.StandsIn ts := fun text ht => (h text ht).imp fun _ there => part there

/-- The operands of a derivation stand among its tokens, those in front of a repetition aside. -/
theorem Derives.standsIn {x : Symbol} {ts : List Token} {e : Formula} (h : Derives x ts e) :
    ∀ a ∈ e.atoms, (∃ b ∈ x.before?, a ∈ b.atoms) ∨ a.StandsIn ts := by
  induction h with
  | condition first behind ihFirst ihBehind | conjunction first behind ihFirst ihBehind =>
    intro a ha
    rcases ihBehind a ha with ⟨_, ⟨⟩, before⟩ | within
    · rcases ihFirst a before with ⟨_, ⟨⟩, _⟩ | within
      exact .inr (within.mono (List.subset_append_left ..))
    · exact .inr (within.mono (List.subset_append_right ..))
  | noAlternative | noConjunct => exact fun a ha => .inl ⟨_, rfl, ha⟩
  | @alternative ts us e f g next behind ihNext ihBehind
  | @conjunct ts us e f g next behind ihNext ihBehind =>
    intro a ha
    rcases ihBehind a ha with ⟨_, ⟨⟩, before⟩ | within
    · rcases List.mem_append.mp before with before | here
      · exact .inl ⟨_, rfl, before⟩
      · rcases ihNext a here with ⟨_, ⟨⟩, _⟩ | within
        exact .inr (within.mono (List.subset_cons_of_subset _ (List.subset_append_left ..)))
    · exact .inr (within.mono (List.subset_cons_of_subset _ (List.subset_append_right ..)))
  | not inner ih =>
    intro a ha
    rcases ih a ha with ⟨_, ⟨⟩, _⟩ | within
    exact .inr (within.mono (List.subset_cons_self ..))
  | primary inner ih => exact ih
  | group inner ih =>
    intro a ha
    rcases ih a ha with ⟨_, ⟨⟩, _⟩ | within
    exact .inr (within.mono (List.subset_cons_of_subset _ (List.subset_append_left ..)))
  | bare text quoted =>
    intro a ha
    obtain rfl := List.mem_singleton.mp ha
    refine .inr fun t ht => ⟨quoted, ?_⟩
    rw [List.mem_singleton.mp ht]
    exact List.mem_singleton_self _
  | compared left leftQuoted op right rightQuoted =>
    intro a ha
    obtain rfl := List.mem_singleton.mp ha
    refine .inr fun t ht => ?_
    rcases List.mem_cons.mp ht with rfl | ht
    · exact ⟨leftQuoted, by simp⟩
    · exact ⟨rightQuoted, by simp [List.mem_singleton.mp ht]⟩

/-- All operands of a condition stand among its tokens. -/
theorem Derives.atom_standsIn {ts : List Token} {e : Formula} (h : Derives .condition ts e)
    {a : Atom} (ha : a ∈ e.atoms) : a.StandsIn ts :=
  (h.standsIn a ha).resolve_left fun ⟨_, before, _⟩ => nomatch before

end Runbook.Condition
