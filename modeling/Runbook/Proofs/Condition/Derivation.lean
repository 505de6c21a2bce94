import Runbook.Condition.Evaluation
import Runbook.Proofs.Condition.Grammar
import Runbook.Proofs.Results

/-! The value of a derivation.

Evaluation follows the tokens once, from the left, and keeps no derivation. It comes to the same
as finding the derivation first and evaluating that: `Derives.evaluates` and `Symbol.readsDerive`
say so for every symbol of the grammar, with tokens left over behind it. -/
namespace Runbook.Condition

/-! ### The value of a derivation -/

def Atom.value (scope : Scope) : Atom → Except Fault Bool
  | bare text => do
    let s ← Template.resolve text scope
    match truth? s with
    | some b => return b
    | none => throw (Error.notBoolean s).fault
  | compared left op right => do
    let left ← Template.resolve left scope
    let right ← Template.resolve right scope
    compareTexts left op right

/-- The value of a derivation. Both sides of a conjunction and of alternatives are evaluated, also
where the left one has settled the value. -/
def Formula.value (scope : Scope) : Formula → Except Fault Bool
  | atom a => a.value scope
  | group e => e.value scope
  | not e => do return !(← e.value scope)
  | and e f => do
    let b ← e.value scope
    let c ← f.value scope
    return b && c
  | or e f => do
    let b ← e.value scope
    let c ← f.value scope
    return b || c

/-- A failure of a derivation is the failure of an operand or comparison in it. -/
theorem Formula.value_error {scope : Scope} {e : Formula} {f : Fault}
    (h : e.value scope = .error f) : ∃ a ∈ e.atoms, a.value scope = .error f := by
  induction e with
  | atom a => exact ⟨a, List.mem_singleton_self a, h⟩
  | group e ih => exact ih h
  | not e ih =>
    rcases bind_eq_error.mp h with h | ⟨_, -, h⟩
    · exact ih h
    · cases h
  | and e g ihe ihg | or e g ihe ihg =>
    rcases bind_eq_error.mp h with h | ⟨_, -, h⟩
    · obtain ⟨a, ha, failed⟩ := ihe h
      exact ⟨a, List.mem_append_left _ ha, failed⟩
    rcases bind_eq_error.mp h with h | ⟨_, -, h⟩
    · obtain ⟨a, ha, failed⟩ := ihg h
      exact ⟨a, List.mem_append_right _ ha, failed⟩
    · cases h

/-- Every part is evaluated: a derivation with a value has one in every operand and comparison. -/
theorem Formula.value_ok {scope : Scope} {e : Formula} {b : Bool} (h : e.value scope = .ok b) :
    ∀ a ∈ e.atoms, ∃ c, a.value scope = .ok c := by
  induction e generalizing b with
  | atom a => exact List.forall_mem_singleton.mpr ⟨b, h⟩
  | group e ih => exact ih h
  | not e ih =>
    obtain ⟨c, h, -⟩ := bind_eq_ok.mp h
    exact ih h
  | and e g ihe ihg | or e g ihe ihg =>
    obtain ⟨c, he, h⟩ := bind_eq_ok.mp h
    obtain ⟨d, hg, -⟩ := bind_eq_ok.mp h
    exact fun a ha => (List.mem_append.mp ha).elim (ihe he a) (ihg hg a)

/-! ### Reading a symbol -/

/-- The evaluation of what derives from a symbol, with what it leaves over. A repetition starts
with the value of what stands in front of it. -/
def Symbol.read (scope : Scope) : Symbol → Nat → List Token → Except Fault (Bool × List Token)
  | condition, fuel, ts => orValue scope fuel ts
  | alternatives e, fuel, ts => do orRest scope fuel (← e.value scope) ts
  | conjunction, fuel, ts => andValue scope fuel ts
  | conjuncts e, fuel, ts => do andRest scope fuel (← e.value scope) ts
  | negation, fuel, ts => notValue scope fuel ts
  | primary, fuel, ts => primaryValue scope fuel ts

/-- How many calls stand between a symbol and the first token that it takes. -/
def Symbol.calls : Symbol → Nat
  | condition => 3
  | conjunction => 2
  | negation => 1
  | _ => 0

variable {scope : Scope}

theorem orRest_ends {rest : List Token} (ends : Symbol.condition.EndsBefore rest) (fuel : Nat)
    (b : Bool) : orRest scope fuel b rest = .ok (b, rest) := by
  cases fuel with
  | zero => rfl
  | succ fuel =>
    rw [orRest]
    rintro _ ts - rfl
    exact absurd (Symbol.endsBefore_cons.mp ends) (by simp)

theorem andRest_ends {rest : List Token} (ends : Symbol.conjunction.EndsBefore rest) (fuel : Nat)
    (b : Bool) : andRest scope fuel b rest = .ok (b, rest) := by
  cases fuel with
  | zero => rfl
  | succ fuel =>
    rw [andRest]
    rintro _ ts - rfl
    exact absurd (Symbol.endsBefore_cons.mp ends) (by simp)

theorem operandValue_ends {rest : List Token} (ends : Symbol.primary.EndsBefore rest)
    (text : String) :
    operandValue scope text rest = ((Atom.bare text).value scope).map (·, rest) := by
  simp only [operandValue, Atom.value]
  cases Template.resolve text scope with
  | error f => rfl
  | ok left =>
    simp only [bind, Except.bind]
    split
    · exact absurd (Symbol.endsBefore_cons.mp ends) (by simp)
    · cases truth? left <;> rfl

theorem operandValue_compared (left : String) (op : Comparison) (right : String) (quoted : Bool)
    (rest : List Token) :
    operandValue scope left (.op op :: .operand right quoted :: rest) =
      ((Atom.compared left op right).value scope).map (·, rest) := by
  simp only [operandValue, Atom.value]
  cases Template.resolve left scope with
  | error f => rfl
  | ok left =>
    cases Template.resolve right scope with
    | error f => rfl
    | ok right =>
      simp only [bind, Except.bind]
      cases compareTexts left op right <;> rfl

theorem notValue_primary {ts rest : List Token} {e : Formula} (h : Derives .primary ts e)
    (fuel : Nat) :
    notValue scope (fuel + 1) (ts ++ rest) = primaryValue scope fuel (ts ++ rest) := by
  cases h <;> rfl

/-- Whether `ts` is read for the symbol as the value of `e`, up to where the symbol ends. -/
def Symbol.Evaluates (scope : Scope) (x : Symbol) (ts : List Token) (e : Formula) : Prop :=
  ∀ (fuel : Nat) (rest : List Token), x.EndsBefore rest → 4 * ts.length + x.calls ≤ fuel →
    x.read scope fuel (ts ++ rest) = (e.value scope).map (·, rest)

namespace Symbol.Evaluates

variable {ts us : List Token} {e f g : Formula}

/-- A symbol and the repetition behind it, read one after the other by `onward`, with what came
before them both. -/
theorem append {α : Type} {x y : Symbol} {fuel : Nat} {rest : List Token} (before : Except Fault α)
    (onward : α → Bool → List Token → Except Fault (Bool × List Token))
    (first : x.Evaluates scope ts e) (behind : y.Evaluates scope us f)
    (between : x.EndsBefore (us ++ rest)) (ends : y.EndsBefore rest)
    (enough : 4 * ts.length + x.calls ≤ fuel) (enough' : 4 * us.length + y.calls ≤ fuel)
    (on : y.read scope fuel (us ++ rest) =
      before >>= fun a => e.value scope >>= fun b => onward a b (us ++ rest)) :
    (before >>= fun a => x.read scope fuel (ts ++ us ++ rest) >>= fun b => onward a b.1 b.2) =
      (f.value scope).map (·, rest) := by
  rw [List.append_assoc, first fuel _ between enough, ← behind fuel _ ends enough', on]
  cases before <;> cases e.value scope <;> rfl

theorem condition (first : Evaluates scope .conjunction ts e)
    (behind : Evaluates scope (.alternatives e) us f) (derived : Derives (.alternatives e) us f) :
    Evaluates scope .condition (ts ++ us) f := by
  intro fuel rest ends enough
  simp only [List.length_append, calls] at enough
  obtain ⟨fuel, rfl⟩ : ∃ n, fuel = n + 1 := ⟨fuel - 1, by omega⟩
  exact first.append (pure ()) (fun _ => orRest scope fuel) behind
    (derived.alternatives_front ends) ends (by simp only [calls]; omega)
    (by simp only [calls]; omega) rfl

theorem noAlternative : Evaluates scope (.alternatives e) [] e := by
  intro fuel rest ends _
  simp only [read, List.nil_append, orRest_ends ends]
  cases e.value scope <;> rfl

theorem alternative (next : Evaluates scope .conjunction ts f)
    (behind : Evaluates scope (.alternatives (.or e f)) us g)
    (derived : Derives (.alternatives (.or e f)) us g) :
    Evaluates scope (.alternatives e) (.or :: (ts ++ us)) g := by
  intro fuel rest ends enough
  simp only [List.length_cons, List.length_append, calls] at enough
  obtain ⟨fuel, rfl⟩ : ∃ n, fuel = n + 1 := ⟨fuel - 1, by omega⟩
  refine next.append (e.value scope) (fun b c => orRest scope fuel (b || c)) behind
    (derived.alternatives_front ends) ends (by simp only [calls]; omega)
    (by simp only [calls]; omega) ?_
  simp only [read, Formula.value]
  cases e.value scope <;> cases f.value scope <;> rfl

theorem conjunction (first : Evaluates scope .negation ts e)
    (behind : Evaluates scope (.conjuncts e) us f) (derived : Derives (.conjuncts e) us f) :
    Evaluates scope .conjunction (ts ++ us) f := by
  intro fuel rest ends enough
  simp only [List.length_append, calls] at enough
  obtain ⟨fuel, rfl⟩ : ∃ n, fuel = n + 1 := ⟨fuel - 1, by omega⟩
  exact first.append (pure ()) (fun _ => andRest scope fuel) behind
    (derived.conjuncts_front ends) ends (by simp only [calls]; omega)
    (by simp only [calls]; omega) rfl

theorem noConjunct : Evaluates scope (.conjuncts e) [] e := by
  intro fuel rest ends _
  simp only [read, List.nil_append, andRest_ends ends]
  cases e.value scope <;> rfl

theorem conjunct (next : Evaluates scope .negation ts f)
    (behind : Evaluates scope (.conjuncts (.and e f)) us g)
    (derived : Derives (.conjuncts (.and e f)) us g) :
    Evaluates scope (.conjuncts e) (.and :: (ts ++ us)) g := by
  intro fuel rest ends enough
  simp only [List.length_cons, List.length_append, calls] at enough
  obtain ⟨fuel, rfl⟩ : ∃ n, fuel = n + 1 := ⟨fuel - 1, by omega⟩
  refine next.append (e.value scope) (fun b c => andRest scope fuel (b && c)) behind
    (derived.conjuncts_front ends) ends (by simp only [calls]; omega)
    (by simp only [calls]; omega) ?_
  simp only [read, Formula.value]
  cases e.value scope <;> cases f.value scope <;> rfl

theorem not (inner : Evaluates scope .negation ts e) :
    Evaluates scope .negation (.not :: ts) (.not e) := by
  intro fuel rest ends enough
  simp only [List.length_cons, calls] at enough
  obtain ⟨fuel, rfl⟩ : ∃ n, fuel = n + 1 := ⟨fuel - 1, by omega⟩
  have within := inner fuel rest ends (by simp only [calls]; omega)
  simp only [read, Formula.value] at within ⊢
  rw [List.cons_append, notValue, within]
  cases e.value scope <;> rfl

theorem primary (derived : Derives .primary ts e) (inner : Evaluates scope .primary ts e) :
    Evaluates scope .negation ts e := by
  intro fuel rest ends enough
  simp only [calls] at enough
  obtain ⟨fuel, rfl⟩ : ∃ n, fuel = n + 1 := ⟨fuel - 1, by omega⟩
  simp only [read, notValue_primary derived]
  exact inner fuel rest ends (by simp only [calls]; omega)

theorem group (inner : Evaluates scope .condition ts e) :
    Evaluates scope .primary (.lparen :: (ts ++ [.rparen])) (.group e) := by
  intro fuel rest _ enough
  simp only [List.length_cons, List.length_append, calls] at enough
  obtain ⟨fuel, rfl⟩ : ∃ n, fuel = n + 1 := ⟨fuel - 1, by omega⟩
  have within := inner fuel (.rparen :: rest) (Symbol.endsBefore_cons.mpr (by simp))
    (by simp only [calls]; omega)
  simp only [read, Formula.value] at within ⊢
  rw [List.cons_append, List.append_assoc, List.singleton_append, primaryValue, within]
  cases e.value scope <;> rfl

theorem bare (text : String) (quoted : Bool) :
    Evaluates scope .primary [.operand text quoted] (.atom (.bare text)) := by
  intro fuel rest ends enough
  simp only [List.length_cons] at enough
  obtain ⟨fuel, rfl⟩ : ∃ n, fuel = n + 1 := ⟨fuel - 1, by omega⟩
  exact operandValue_ends ends text

theorem compared (left : String) (leftQuoted : Bool) (op : Comparison) (right : String)
    (rightQuoted : Bool) :
    Evaluates scope .primary [.operand left leftQuoted, .op op, .operand right rightQuoted]
      (.atom (.compared left op right)) := by
  intro fuel rest _ enough
  simp only [List.length_cons] at enough
  obtain ⟨fuel, rfl⟩ : ∃ n, fuel = n + 1 := ⟨fuel - 1, by omega⟩
  exact operandValue_compared left op right rightQuoted rest

end Symbol.Evaluates

/-- What derives from a symbol is read as its derivation's value, up to where the symbol ends. -/
theorem Derives.evaluates {x : Symbol} {ts : List Token} {e : Formula} (h : Derives x ts e) :
    x.Evaluates scope ts e := by
  induction h with
  | condition _ behind ihFirst ihBehind => exact ihFirst.condition ihBehind behind
  | noAlternative => exact .noAlternative
  | alternative _ behind ihNext ihBehind => exact ihNext.alternative ihBehind behind
  | conjunction _ behind ihFirst ihBehind => exact ihFirst.conjunction ihBehind behind
  | noConjunct => exact .noConjunct
  | conjunct _ behind ihNext ihBehind => exact ihNext.conjunct ihBehind behind
  | not _ ih => exact ih.not
  | primary inner ih => exact .primary inner ih
  | group _ ih => exact ih.group
  | bare text quoted => exact .bare text quoted
  | compared left leftQuoted op right rightQuoted =>
    exact .compared left leftQuoted op right rightQuoted

/-- What is read as an operand, or as two compared, derives from an operand or a comparison. -/
theorem operandValue_derives {text : String} (quoted : Bool) {ts rest : List Token} {b : Bool}
    (h : operandValue scope text ts = .ok (b, rest)) :
    ∃ us a, .operand text quoted :: ts = us ++ rest ∧ Derives .primary us (.atom a) ∧
      a.value scope = .ok b := by
  unfold operandValue at h
  obtain ⟨left, hleft, h⟩ := bind_eq_ok.mp h
  split at h
  · split at h
    · obtain ⟨right, hright, h⟩ := bind_eq_ok.mp h
      obtain ⟨c, compared, h⟩ := bind_eq_ok.mp h
      cases h
      refine ⟨_, _, rfl, .compared .., ?_⟩
      simp only [Atom.value, hleft, hright]
      exact compared
    · cases h
    · cases h
  · split at h
    · rename_i truth
      cases h
      refine ⟨_, _, rfl, .bare text quoted, ?_⟩
      simp only [Atom.value, hleft]
      simp only [bind, Except.bind, truth]
      rfl
    · cases h

/-! ### What is read derives -/

/-- Where no more than `fuel` calls are left, what is read from the front of a list of tokens
derives from the symbol, and its value is the value of that derivation. -/
def Symbol.ReadsDerive (scope : Scope) (fuel : Nat) : Prop :=
  ∀ (x : Symbol) (ts rest : List Token) (b : Bool), x.read scope fuel ts = .ok (b, rest) →
    ∃ us e, ts = us ++ rest ∧ Derives x us e ∧ e.value scope = .ok b

/-- Whether what stands in front of a repetition has a value; no other symbol has anything in
front of it. -/
def Symbol.Ready (scope : Scope) (x : Symbol) : Prop :=
  ∀ e ∈ x.before?, ∃ b, e.value scope = .ok b

theorem Symbol.ready_of_fresh {x : Symbol} (fresh : x.before? = none) : x.Ready scope := by
  intro e front
  rw [fresh] at front
  cases front

/-- Whether `onward` reads the repetition that `again` makes of a derivation, knowing nothing of
that derivation but its value. -/
def Symbol.GoesOn (scope : Scope) (fuel : Nat) (again : Formula → Symbol)
    (onward : Bool → List Token → Except Fault (Bool × List Token)) : Prop :=
  ∀ e b, e.value scope = .ok b →
    (again e).Ready scope ∧ ∀ ts, (again e).read scope fuel ts = onward b ts

theorem Symbol.goesOn_condition (fuel : Nat) :
    GoesOn scope fuel .alternatives (orRest scope fuel) := by
  intro e b value
  constructor
  · rintro _ ⟨⟩
    exact ⟨b, value⟩
  · intro ts
    rw [read, value]
    rfl

theorem Symbol.goesOn_alternatives {e : Formula} {b : Bool} (before : e.value scope = .ok b)
    (fuel : Nat) :
    GoesOn scope fuel (fun f => .alternatives (.or e f)) fun c => orRest scope fuel (b || c) := by
  intro f c value
  have both : (Formula.or e f).value scope = .ok (b || c) := by
    rw [Formula.value, before, value]
    rfl
  exact goesOn_condition fuel (.or e f) (b || c) both

theorem Symbol.goesOn_conjunction (fuel : Nat) :
    GoesOn scope fuel .conjuncts (andRest scope fuel) := by
  intro e b value
  constructor
  · rintro _ ⟨⟩
    exact ⟨b, value⟩
  · intro ts
    rw [read, value]
    rfl

theorem Symbol.goesOn_conjuncts {e : Formula} {b : Bool} (before : e.value scope = .ok b)
    (fuel : Nat) :
    GoesOn scope fuel (fun f => .conjuncts (.and e f)) fun c => andRest scope fuel (b && c) := by
  intro f c value
  have both : (Formula.and e f).value scope = .ok (b && c) := by
    rw [Formula.value, before, value]
    rfl
  exact goesOn_conjunction fuel (.and e f) (b && c) both

/-- A symbol and the repetition behind it, read one after the other. -/
theorem Symbol.ReadsDerive.front {x : Symbol} {fuel : Nat} {again : Formula → Symbol}
    {onward : Bool → List Token → Except Fault (Bool × List Token)} {ts rest : List Token}
    {b : Bool} (sound : ReadsDerive scope fuel) (on : GoesOn scope fuel again onward)
    (h : (x.read scope fuel ts >>= fun first => onward first.1 first.2) = .ok (b, rest)) :
    ∃ us e us' e', ts = us ++ (us' ++ rest) ∧ Derives x us e ∧ Derives (again e) us' e' ∧
      e'.value scope = .ok b := by
  obtain ⟨⟨c, mid⟩, first, others⟩ := bind_eq_ok.mp h
  obtain ⟨us, e, rfl, derived, value⟩ := sound x _ _ _ first
  obtain ⟨us', e', rfl, behind, value'⟩ := sound (again e) mid rest b
    (((on e c value).2 mid).trans others)
  exact ⟨us, e, us', e', rfl, derived, behind, value'⟩

/-- Whether what stands in front of `rest` derives from the symbol, with a derivation of value
`b`. -/
def Symbol.Takes (scope : Scope) (x : Symbol) (ts rest : List Token) (b : Bool) : Prop :=
  ∃ us e, ts = us ++ rest ∧ Derives x us e ∧ e.value scope = .ok b

namespace Symbol.ReadsDerive

variable {fuel : Nat} {ts rest : List Token} {b : Bool}

/-- With no calls left, only a repetition reads anything: it ends at once. -/
theorem zero (scope : Scope) : ReadsDerive scope 0 := by
  intro x ts rest b h
  cases x with
  | alternatives e =>
    obtain ⟨c, value, h⟩ := bind_eq_ok.mp h
    cases h
    exact ⟨[], e, rfl, .noAlternative, value⟩
  | conjuncts e =>
    obtain ⟨c, value, h⟩ := bind_eq_ok.mp h
    cases h
    exact ⟨[], e, rfl, .noConjunct, value⟩
  | _ => cases h

theorem alternatives (sound : ReadsDerive scope fuel) {e : Formula} {c : Bool}
    (before : e.value scope = .ok c) (h : orRest scope (fuel + 1) c ts = .ok (b, rest)) :
    Takes scope (.alternatives e) ts rest b := by
  unfold orRest at h
  split at h
  · rename_i same
    cases same
    obtain ⟨us, f, us', g, rfl, next, behind, value⟩ :=
      sound.front (x := .conjunction) (goesOn_alternatives before fuel) h
    exact ⟨.or :: (us ++ us'), g, by simp, .alternative next behind, value⟩
  · cases h
    exact ⟨[], e, rfl, .noAlternative, before⟩

theorem conjuncts (sound : ReadsDerive scope fuel) {e : Formula} {c : Bool}
    (before : e.value scope = .ok c) (h : andRest scope (fuel + 1) c ts = .ok (b, rest)) :
    Takes scope (.conjuncts e) ts rest b := by
  unfold andRest at h
  split at h
  · rename_i same
    cases same
    obtain ⟨us, f, us', g, rfl, next, behind, value⟩ :=
      sound.front (x := .negation) (goesOn_conjuncts before fuel) h
    exact ⟨.and :: (us ++ us'), g, by simp, .conjunct next behind, value⟩
  · cases h
    exact ⟨[], e, rfl, .noConjunct, before⟩

theorem negation (sound : ReadsDerive scope fuel)
    (h : notValue scope (fuel + 1) ts = .ok (b, rest)) : Takes scope .negation ts rest b := by
  unfold notValue at h
  split at h
  · cases ‹_ + 1 = 0›
  · rename_i same
    cases same
    obtain ⟨⟨c, mid⟩, inner, same⟩ := bind_eq_ok.mp h
    obtain ⟨us, e, rfl, derived, value⟩ := sound .negation _ _ _ inner
    cases same
    exact ⟨.not :: us, .not e, rfl, .not derived, by rw [Formula.value, value]; rfl⟩
  · rename_i same _
    cases same
    obtain ⟨us, e, split, derived, value⟩ := sound .primary _ _ _ h
    exact ⟨us, e, split, .primary derived, value⟩

theorem group (sound : ReadsDerive scope fuel)
    (h : primaryValue scope (fuel + 1) (.lparen :: ts) = .ok (b, rest)) :
    Takes scope .primary (.lparen :: ts) rest b := by
  rw [primaryValue] at h
  obtain ⟨⟨c, mid⟩, inner, close⟩ := bind_eq_ok.mp h
  obtain ⟨us, e, rfl, derived, value⟩ := sound .condition _ _ _ inner
  dsimp only at close
  split at close
  · cases close
    exact ⟨.lparen :: (us ++ [.rparen]), .group e, by simp, .group derived, value⟩
  · cases close
  · cases close

theorem primary (sound : ReadsDerive scope fuel)
    (h : primaryValue scope (fuel + 1) ts = .ok (b, rest)) : Takes scope .primary ts rest b := by
  unfold primaryValue at h
  split at h
  · cases h
  · cases h
  · rename_i same
    cases same
    exact sound.group (by rw [primaryValue]; exact h)
  · obtain ⟨us, a, split, derived, value⟩ := operandValue_derives _ h
    exact ⟨us, .atom a, split, derived, value⟩
  · cases h

theorem succ (sound : ReadsDerive scope fuel) : ReadsDerive scope (fuel + 1) := by
  intro x ts rest b h
  cases x with
  | condition =>
    rw [read, orValue] at h
    obtain ⟨us, e, us', e', rfl, first, behind, value⟩ :=
      sound.front (x := .conjunction) (goesOn_condition fuel) h
    exact ⟨us ++ us', e', (List.append_assoc ..).symm, .condition first behind, value⟩
  | alternatives e =>
    obtain ⟨c, before, step⟩ := bind_eq_ok.mp h
    exact sound.alternatives before step
  | conjunction =>
    rw [read, andValue] at h
    obtain ⟨us, e, us', e', rfl, first, behind, value⟩ :=
      sound.front (x := .negation) (goesOn_conjunction fuel) h
    exact ⟨us ++ us', e', (List.append_assoc ..).symm, .conjunction first behind, value⟩
  | conjuncts e =>
    obtain ⟨c, before, step⟩ := bind_eq_ok.mp h
    exact sound.conjuncts before step
  | negation => exact sound.negation h
  | primary => exact sound.primary h

end Symbol.ReadsDerive

/-- What any symbol takes from the front of a list of tokens derives from it. -/
theorem Symbol.readsDerive (scope : Scope) (fuel : Nat) : ReadsDerive scope fuel := by
  induction fuel with
  | zero => exact .zero scope
  | succ fuel ih => exact ih.succ

end Runbook.Condition
