import Runbook.Proofs.Condition.Derivation
import Runbook.Proofs.Json.Reading
import Runbook.Proofs.Template

/-! What a condition evaluates to.

A condition whose operands have texts evaluates to the value of its one derivation, and fails
where it has none. One comparison can also fail for a reason of its own: membership in a text
that starts like a list and is nested too deeply to be read. -/
namespace Runbook.Condition

variable {scope : Scope}

/-! ### Comparisons that fail -/

/-- Whether a text is taken for a list and has its containers nested too deeply to be read. -/
def NestsTooDeep (s : String) : Prop :=
  ∃ cs, Text.trim s.toList = '[' :: cs ∧ Json.parse (String.ofList ('[' :: cs)) = .error .tooDeep

theorem listItems?_error {s : String} {f : Fault} (h : listItems? s = .error f) :
    f = .tooDeep ∧ NestsTooDeep s := by
  unfold listItems? at h
  split at h
  · rename_i cs list
    split at h
    · cases h
    · cases h
    · rename_i refused
      split at h
      · cases h
      · rename_i unread
        cases h
        obtain rfl := (Json.parse_error refused).resolve_left unread
        exact ⟨rfl, cs, list, refused⟩
  · cases h

/-- The items of a list that was read have texts. -/
theorem listItems?_hasText {s : String} {items : List Value} (h : listItems? s = .ok (some items)) :
    ∀ v ∈ items, v.HasText := by
  unfold listItems? at h
  split at h
  · split at h
    · rename_i read
      cases h
      obtain _ | h | _ := Json.writable_of_parse read
      exact fun v hv => (h v hv).hasText
    · cases h
    · split at h <;> cases h
  · cases h

theorem mapM_stringify_isOk {items : List Value} (h : ∀ v ∈ items, v.HasText) :
    ∃ texts, items.mapM Literal.stringify = .ok texts := by
  induction items with
  | nil => exact ⟨[], rfl⟩
  | cons v rest ih =>
    obtain ⟨here, behind⟩ := List.forall_mem_cons.mp h
    obtain ⟨text, written⟩ := (Literal.stringify_isOk v).mpr here
    obtain ⟨texts, others⟩ := ih behind
    exact ⟨text :: texts, by rw [List.mapM_cons, written, others]; rfl⟩

/-- Two texts can be compared, unless membership is asked of a list nested too deeply. -/
theorem compareTexts_error {left right : String} {op : Comparison} {f : Fault}
    (h : compareTexts left op right = .error f) :
    op = .contains ∧ f = .tooDeep ∧ NestsTooDeep left := by
  cases op with
  | contains =>
    rcases bind_eq_error.mp h with refused | ⟨found, list, h⟩
    · exact ⟨rfl, listItems?_error refused⟩
    · split at h
      · obtain ⟨texts, written⟩ := mapM_stringify_isOk (listItems?_hasText list)
        rw [written] at h
        cases h
      · cases h
  | _ => cases h

/-! ### Evaluations that fail -/

/-- Every operand among the tokens has a text. -/
def Resolves (scope : Scope) (ts : List Token) : Prop :=
  ∀ text quoted, .operand text quoted ∈ ts → ∃ s, Template.resolve text scope = .ok s

/-- Somewhere among the tokens, membership is asked of a list nested too deeply. -/
def Oversized (scope : Scope) (ts : List Token) : Prop :=
  ∃ left quoted right quoted',
    [.operand left quoted, .op .contains, .operand right quoted'] <:+: ts ∧
      ∃ s, Template.resolve left scope = .ok s ∧ NestsTooDeep s

/-- The failures of an evaluation whose operands have texts. -/
def Refusal (scope : Scope) (ts : List Token) (f : Fault) : Prop :=
  (∃ message, f = .condition message) ∨ f = .tooDeep ∧ Oversized scope ts

theorem Resolves.mono {ts us : List Token} (h : Resolves scope ts) (part : us <:+: ts) :
    Resolves scope us :=
  fun text quoted there => h text quoted (part.subset there)

theorem Refusal.mono {ts us : List Token} {f : Fault} (h : Refusal scope us f) (part : us <:+: ts) :
    Refusal scope ts f :=
  h.imp_right fun ⟨deep, left, quoted, right, quoted', there, found⟩ =>
    ⟨deep, left, quoted, right, quoted', there.trans part, found⟩

theorem Refusal.ofError {ts : List Token} (e : Error) : Refusal scope ts e.fault := .inl ⟨_, rfl⟩

theorem operandValue_error {text : String} {quoted : Bool} {ts : List Token} {f : Fault}
    (resolves : Resolves scope (.operand text quoted :: ts))
    (h : operandValue scope text ts = .error f) : Refusal scope (.operand text quoted :: ts) f := by
  obtain ⟨left, hleft⟩ := resolves text quoted (List.mem_cons_self ..)
  unfold operandValue at h
  rw [hleft] at h
  simp only [bind, Except.bind] at h
  split at h
  · rename_i op ts
    split at h
    · rename_i text' quoted' ts
      obtain ⟨right, hright⟩ := resolves text' quoted' (by simp)
      rw [hright] at h
      dsimp only at h
      split at h
      · rename_i refused
        cases h
        obtain ⟨rfl, rfl, deep⟩ := compareTexts_error refused
        exact .inr ⟨rfl, text, quoted, text', quoted', ⟨[], ts, by simp⟩, left, hleft, deep⟩
      · cases h
    · cases h; exact .ofError _
    · cases h; exact .ofError _
  · split at h
    · cases h
    · cases h; exact .ofError _

/-- Where no more than `fuel` calls are left, a symbol fails with a refusal only, if what stands in
front of it has a value. -/
def Symbol.FailsRefused (scope : Scope) (fuel : Nat) : Prop :=
  ∀ (x : Symbol) (ts : List Token) (f : Fault), Resolves scope ts → x.Ready scope →
    x.read scope fuel ts = .error f → Refusal scope ts f

/-- The refusal of a symbol, or of the repetition behind it. -/
theorem Symbol.FailsRefused.front {x : Symbol} {fuel : Nat} {again : Formula → Symbol}
    {onward : Bool → List Token → Except Fault (Bool × List Token)} {ts : List Token} {f : Fault}
    (refuses : FailsRefused scope fuel) (fresh : x.before? = none)
    (on : GoesOn scope fuel again onward) (resolves : Resolves scope ts)
    (h : (x.read scope fuel ts >>= fun first => onward first.1 first.2) = .error f) :
    Refusal scope ts f := by
  rcases bind_eq_error.mp h with first | ⟨⟨b, mid⟩, first, others⟩
  · exact refuses x ts f resolves (ready_of_fresh fresh) first
  · obtain ⟨us, e, rfl, -, value⟩ := readsDerive scope fuel x _ _ _ first
    obtain ⟨ready, reads⟩ := on e b value
    have part : mid <:+: us ++ mid := (List.suffix_append ..).isInfix
    exact (refuses (again e) mid f (resolves.mono part) ready ((reads mid).trans others)).mono part

namespace Symbol.FailsRefused

variable {fuel : Nat} {ts : List Token} {f : Fault}

theorem zero (scope : Scope) : FailsRefused scope 0 := by
  intro x ts f resolves ready h
  cases x with
  | alternatives e | conjuncts e =>
    obtain ⟨b, value⟩ := ready e rfl
    rw [read, value] at h
    cases h
  | _ => cases h; exact .ofError _

/-- The refusal of a symbol that stands behind a token. -/
theorem behind {x : Symbol} {t : Token} (refuses : FailsRefused scope fuel)
    (fresh : x.before? = none) (resolves : Resolves scope (t :: ts))
    (h : x.read scope fuel ts = .error f) : Refusal scope (t :: ts) f := by
  have part : ts <:+: t :: ts := (List.suffix_cons ..).isInfix
  exact (refuses x ts f (resolves.mono part) (ready_of_fresh fresh) h).mono part

theorem alternatives (refuses : FailsRefused scope fuel) {e : Formula} {b : Bool}
    (before : e.value scope = .ok b) (resolves : Resolves scope ts)
    (h : orRest scope (fuel + 1) b ts = .error f) : Refusal scope ts f := by
  unfold orRest at h
  split at h
  · rename_i ts same
    cases same
    have part : ts <:+: .or :: ts := (List.suffix_cons ..).isInfix
    exact (refuses.front (x := .conjunction) rfl (goesOn_alternatives before fuel)
      (resolves.mono part) h).mono part
  · cases h

theorem conjuncts (refuses : FailsRefused scope fuel) {e : Formula} {b : Bool}
    (before : e.value scope = .ok b) (resolves : Resolves scope ts)
    (h : andRest scope (fuel + 1) b ts = .error f) : Refusal scope ts f := by
  unfold andRest at h
  split at h
  · rename_i ts same
    cases same
    have part : ts <:+: .and :: ts := (List.suffix_cons ..).isInfix
    exact (refuses.front (x := .negation) rfl (goesOn_conjuncts before fuel)
      (resolves.mono part) h).mono part
  · cases h

theorem negation (refuses : FailsRefused scope fuel) (resolves : Resolves scope ts)
    (h : notValue scope (fuel + 1) ts = .error f) : Refusal scope ts f := by
  unfold notValue at h
  split at h
  · cases ‹_ + 1 = 0›
  · rename_i same
    cases same
    rcases bind_eq_error.mp h with inner | ⟨_, -, h⟩
    · exact refuses.behind (x := .negation) rfl resolves inner
    · cases h
  · rename_i same _
    cases same
    exact refuses .primary _ f resolves (ready_of_fresh rfl) h

theorem primary (refuses : FailsRefused scope fuel) (resolves : Resolves scope ts)
    (h : primaryValue scope (fuel + 1) ts = .error f) : Refusal scope ts f := by
  unfold primaryValue at h
  split at h
  · cases h; exact .ofError _
  · cases h; exact .ofError _
  · rename_i same
    cases same
    rcases bind_eq_error.mp h with inner | ⟨⟨c, mid⟩, -, close⟩
    · exact refuses.behind (x := .condition) rfl resolves inner
    · dsimp only at close
      split at close
      · cases close
      · cases close; exact .ofError _
      · cases close; exact .ofError _
  · exact operandValue_error resolves h
  · cases h; exact .ofError _

theorem succ (refuses : FailsRefused scope fuel) : FailsRefused scope (fuel + 1) := by
  intro x ts f resolves ready h
  cases x with
  | condition =>
    rw [read, orValue] at h
    exact refuses.front (x := .conjunction) rfl (goesOn_condition fuel) resolves h
  | alternatives e =>
    obtain ⟨b, before⟩ := ready e rfl
    rw [read, before] at h
    exact refuses.alternatives before resolves h
  | conjunction =>
    rw [read, andValue] at h
    exact refuses.front (x := .negation) rfl (goesOn_conjunction fuel) resolves h
  | conjuncts e =>
    obtain ⟨b, before⟩ := ready e rfl
    rw [read, before] at h
    exact refuses.conjuncts before resolves h
  | negation => exact refuses.negation resolves h
  | primary => exact refuses.primary resolves h

end Symbol.FailsRefused

theorem Symbol.failsRefused (scope : Scope) (fuel : Nat) : FailsRefused scope fuel := by
  induction fuel with
  | zero => exact .zero scope
  | succ fuel ih => exact ih.succ

/-! ### Whole conditions -/

/-- The derivation of a condition: that of its tokens. -/
def Reads (s : String) (e : Formula) : Prop := ∃ ts, tokenize s = .ok ts ∧ Derives .condition ts e

theorem Reads.unique {s : String} {e f : Formula} (h : Reads s e) (h' : Reads s f) : e = f := by
  obtain ⟨ts, cut, derived⟩ := h
  obtain ⟨us, cut', derived'⟩ := h'
  cases cut.symm.trans cut'
  exact derived.unique derived'

theorem tokensFrom_blank {length fuel : Nat} {cs : List Char} (h : Text.blank cs = true) :
    tokensFrom length fuel cs = .ok [] := by
  induction fuel generalizing cs with
  | zero => simp only [tokensFrom]
  | succ fuel ih =>
    cases cs with
    | nil => simp only [tokensFrom]
    | cons c cs =>
      simp only [Text.blank, List.all_cons, Bool.and_eq_true] at h
      rw [tokensFrom]
      simp only [h.1, if_true]
      exact ih h.2

theorem Reads.not_blank {s : String} {e : Formula} (h : Reads s e) :
    Text.blank s.toList = false := by
  obtain ⟨ts, cut, derived⟩ := h
  cases blank : Text.blank s.toList with
  | false => rfl
  | true =>
    cases (tokensFrom_blank blank).symm.trans cut
    exact absurd (derived.length_pos rfl) (Nat.lt_irrefl 0)

theorem evaluate_of_tokens {s : String} {ts : List Token} (filled : Text.blank s.toList = false)
    (cut : tokenize s = .ok ts) : evaluate s scope = tokensValue scope ts := by
  simp [evaluate, filled, cut]

theorem tokensValue_of_derives {ts : List Token} {e : Formula} (h : Derives .condition ts e) :
    tokensValue scope ts = e.value scope := by
  have read : Symbol.read scope .condition (fuelFor ts) (ts ++ []) = _ :=
    h.evaluates _ _ (Symbol.endsBefore_nil _) (by simp only [fuelFor, Symbol.calls]; omega)
  rw [List.append_nil, Symbol.read] at read
  rw [tokensValue, read]
  cases e.value scope <;> rfl

theorem derives_of_tokensValue {ts : List Token} {b : Bool} (h : tokensValue scope ts = .ok b) :
    ∃ e, Derives .condition ts e ∧ e.value scope = .ok b := by
  obtain ⟨⟨c, rest⟩, read, left⟩ := bind_eq_ok.mp h
  have read : Symbol.read scope .condition (fuelFor ts) ts = _ := read
  obtain ⟨us, e, split, derived, value⟩ := Symbol.readsDerive scope _ _ _ _ _ read
  cases rest with
  | nil =>
    cases left
    rw [List.append_nil] at split
    exact ⟨e, split ▸ derived, value⟩
  | cons => cases left

theorem tokensValue_error {ts : List Token} {f : Fault} (resolves : Resolves scope ts)
    (h : tokensValue scope ts = .error f) : Refusal scope ts f := by
  rcases bind_eq_error.mp h with read | ⟨⟨b, rest⟩, -, left⟩
  · have read : Symbol.read scope .condition (fuelFor ts) ts = _ := read
    exact Symbol.failsRefused scope _ _ _ _ resolves (Symbol.ready_of_fresh rfl) read
  · cases rest with
    | nil => cases left
    | cons => cases left; exact .ofError _

theorem evaluate_ok {s : String} {b : Bool} (h : evaluate s scope = .ok b) :
    ∃ ts, tokenize s = .ok ts ∧ tokensValue scope ts = .ok b := by
  unfold evaluate at h
  split at h
  · cases h
  · split at h
    · exact ⟨_, ‹_›, h⟩
    · cases h

theorem evaluate_error {s : String} {f : Fault}
    (resolves : ∀ ts, tokenize s = .ok ts → Resolves scope ts) (h : evaluate s scope = .error f) :
    (∃ message, f = .condition message) ∨
      f = .tooDeep ∧ ∃ ts, tokenize s = .ok ts ∧ Oversized scope ts := by
  unfold evaluate at h
  split at h
  · cases h; exact .inl ⟨_, rfl⟩
  · split at h
    · rename_i ts cut
      exact (tokensValue_error (resolves ts cut) h).imp_right fun ⟨deep, there⟩ =>
        ⟨deep, ts, cut, there⟩
    · cases h; exact .inl ⟨_, rfl⟩

/-- A bare operand among the atoms that is no truth value refuses the whole. -/
theorem Formula.value_notBoolean {e : Formula} {text s : String} (bare : .bare text ∈ e.atoms)
    (resolved : Template.resolve text scope = .ok s) (h : truth? s = none) (b : Bool) :
    e.value scope ≠ .ok b := by
  intro value
  obtain ⟨c, here⟩ := value_ok value _ bare
  simp only [Atom.value, resolved, bind, Except.bind, h] at here
  cases here

/-- The atom that a derivation is refused for is a bare operand that is no truth value. -/
theorem Atom.value_condition {a : Atom} {message : String}
    (resolves : ∀ text ∈ a.operands, ∃ s, Template.resolve text scope = .ok s)
    (h : a.value scope = .error (.condition message)) :
    ∃ text s, a = .bare text ∧ Template.resolve text scope = .ok s ∧ truth? s = none := by
  cases a with
  | bare text =>
    obtain ⟨s, resolved⟩ := resolves text (List.mem_singleton_self _)
    refine ⟨text, s, rfl, resolved, ?_⟩
    simp only [value, resolved, bind, Except.bind] at h
    split at h
    · cases h
    · assumption
  | compared left op right =>
    obtain ⟨l, hl⟩ := resolves left (by simp [operands])
    obtain ⟨r, hr⟩ := resolves right (by simp [operands])
    simp only [value, hl, hr, bind, Except.bind] at h
    obtain ⟨-, other, -⟩ := compareTexts_error h
    cases other

theorem tokensFrom_quoted (length fuel : Nat) {word : List Char} (inside : '\'' ∉ word)
    (rest : List Char) :
    tokensFrom length (fuel + 1) ('\'' :: (word ++ '\'' :: rest)) =
      (tokensFrom length fuel rest).map (.operand (String.ofList word) true :: ·) := by
  have cut := Text.cutAt_append inside rest
  have operand : operator? ('\'' :: (word ++ '\'' :: rest)) = none := rfl
  rw [tokensFrom, operand, cut]
  rfl

/-- Membership in opening brackets, and behind it an operand that is no truth value. -/
def bracketed (n : Nat) : String :=
  String.ofList ('\'' :: (List.replicate n '[' ++ '\'' :: " contains 'x' and maybe".toList))

theorem tokenize_bracketed (n : Nat) :
    tokenize (bracketed n) =
      .ok [.operand (String.ofList (List.replicate n '[')) true, .op .contains, .operand "x" true,
        .and, .operand "maybe" false] := by
  have behind (length fuel : Nat) :
      tokensFrom length (fuel + 24) " contains 'x' and maybe".toList =
        .ok [.op .contains, .operand "x" true, .and, .operand "maybe" false] := rfl
  rw [tokenize, bracketed, String.toList_ofList, List.length_cons, tokensFrom_quoted _ _ (by simp),
    List.length_append, List.length_replicate]
  show (tokensFrom _ (n + 24) " contains 'x' and maybe".toList).map _ = _
  rw [behind]
  rfl

theorem nestsTooDeep_brackets {n : Nat} (h : Json.depthLimit < n) :
    NestsTooDeep (String.ofList (List.replicate n '[')) := by
  have deep := Json.parse_tooDeep h
  obtain ⟨n, rfl⟩ := Nat.exists_eq_add_of_le' (Nat.le_trans (by decide : 2 ≤ _) h)
  have trimmed : Text.trim (List.replicate (n + 2) '[') = List.replicate (n + 2) '[' := by
    have := Text.trim_eq_self (show Text.isBlank '[' = false by decide)
      (show Text.isBlank '[' = false by decide) (List.replicate n '[')
    rwa [← List.replicate_succ', ← List.replicate_succ] at this
  exact ⟨List.replicate (n + 1) '[', by rw [String.toList_ofList, trimmed, List.replicate_succ],
    by rw [← List.replicate_succ]; exact deep⟩

/-- The list is read, and given up, in front of the operand that refuses the condition. -/
theorem bracketed_value {n : Nat} (h : Json.depthLimit < n) (scope : Scope) :
    (Atom.compared (String.ofList (List.replicate n '[')) .contains "x").value scope =
      .error .tooDeep := by
  obtain ⟨cs, list, deep⟩ := nestsTooDeep_brackets h
  have left : Template.resolve (String.ofList (List.replicate n '[')) scope =
      .ok (String.ofList (List.replicate n '[')) := Template.resolve_plain (by simp) scope
  have right : Template.resolve "x" scope = .ok "x" := Template.resolve_plain (by decide) scope
  simp only [Atom.value, left, right]
  simp only [bind, Except.bind, compareTexts, contains, listItems?, list, deep]
  rfl

theorem resolves_bracketed (n : Nat) (scope : Scope) :
    Resolves scope [.operand (String.ofList (List.replicate n '[')) true, .op .contains,
      .operand "x" true, .and, .operand "maybe" false] := by
  intro text quoted there
  simp only [List.mem_cons, List.not_mem_nil, or_false, reduceCtorEq, false_or,
    Token.operand.injEq] at there
  refine ⟨text, Template.resolve_plain ?_ _⟩
  rcases there with ⟨rfl, -⟩ | ⟨rfl, -⟩ | ⟨rfl, -⟩
  · simp
  · decide
  · decide

/-- The derivation of membership in opening brackets, and behind it the operand. -/
theorem reads_bracketed (n : Nat) :
    Reads (bracketed n) (.and
      (.atom (.compared (String.ofList (List.replicate n '[')) .contains "x"))
      (.atom (.bare "maybe"))) :=
  ⟨_, tokenize_bracketed n, .condition (.conjunction
    (.primary (.compared _ true .contains "x" true))
    (.conjunct (.primary (.bare "maybe" false)) .noConjunct)) .noAlternative⟩

theorem evaluate_of_brackets {n : Nat} (h : Json.depthLimit < n) (scope : Scope) :
    evaluate (bracketed n) scope = .error .tooDeep := by
  have reads := reads_bracketed n
  obtain ⟨ts, cut, derived⟩ := reads_bracketed n
  rw [evaluate_of_tokens (Reads.not_blank reads) cut, tokensValue_of_derives derived, Formula.value,
    Formula.value, bracketed_value h]
  rfl

end Runbook.Condition
