import Runbook.Interaction.Console
import Runbook.Proofs.Number.Numeral
import Runbook.Proofs.Results

/-! Dialogs on a terminal.

An answer counts off options by their numbers, in decimal digits of any script, and what is no
number or out of range is passed over. But a part of an answer that is digits alone may still be no
numeral, for a digit that has no place in one or for its length. Such a part is not passed over: it
breaks the dialog (`Misread`), and so do defaults of a form that is of no use where they are needed
(`Breaks`). Every other dialog is dismissed at the end of the input, if that comes before its last
question, and else has a response, with the options that were counted off or the default ones
(`answer_dialog`). -/
namespace Runbook.Interaction.Dialogue

open Text Number

variable {α β : Type}

/-! ### What an answer counts off -/

/-- The number that a part of an answer is in decimal digits. -/
def ordinal? (part : List Char) : Option Nat :=
  if trim part ≠ [] ∧ (trim part).all isDecimal = true then
    some (ofDigits ((trim part).filterMap decimal?))
  else none

/-- The option at a place that is counted from one. -/
def optionAt? (options : List String) (n : Nat) : Option String :=
  if 1 ≤ n then options[n - 1]? else none

/-- The options whose numbers are among the parts of an answer, in the order of the answer. -/
def countedOff (options : List String) (answer : String) : List String :=
  (splitAt ',' answer.toList).filterMap fun part => (ordinal? part).bind (optionAt? options)

/-- A part of an answer that is digits alone, where one of them has no place in a numeral or where
there are too many. -/
def Misread (part : List Char) : Prop :=
  trim part ≠ [] ∧ (∀ c ∈ trim part, isDigit c = true) ∧
    ((∃ c ∈ trim part, isDecimal c = false) ∨ digitLimit < (trim part).length)

instance (part : List Char) : Decidable (Misread part) :=
  decidable_of_iff (trim part ≠ [] ∧ (trim part).all isDigit = true ∧
    ((trim part).any (!isDecimal ·) = true ∨ digitLimit < (trim part).length)) (by
      simp only [Misread, List.all_eq_true, List.any_eq_true, Bool.not_eq_true'])

theorem isDigit_of_isDecimal {c : Char} (h : isDecimal c = true) : isDigit c = true := by
  rw [isDigit, h, Bool.true_or]

variable {part : List Char} (options : List String) {answer : String}

theorem counted_passed (other : ¬ (trim part ≠ [] ∧ ∀ c ∈ trim part, isDigit c = true)) :
    counted options part = .ok none ∧ ordinal? part = none := by
  have passed : ((trim part).isEmpty || !(trim part).all isDigit) = true := by
    by_contra digits
    simp only [Bool.or_eq_true, Bool.not_eq_true', not_or, Bool.not_eq_true, Bool.not_eq_false,
      List.isEmpty_eq_false_iff, List.all_eq_true] at digits
    exact other digits
  refine ⟨if_pos passed, if_neg fun decimal => other ⟨decimal.1, fun c there => ?_⟩⟩
  exact isDigit_of_isDecimal (List.all_eq_true.mp decimal.2 c there)

/-- What is digits alone, as digits without a sign. -/
def unsigned (digits : trim part ≠ [] ∧ ∀ c ∈ trim part, isDigit c = true) : Signed :=
  ⟨0, trim part, digits.1, digits.2⟩

theorem counted_digits (digits : trim part ≠ [] ∧ ∀ c ∈ trim part, isDigit c = true) :
    counted options part = (whole (unsigned digits).text).map fun n =>
      if 1 ≤ n then options[n.toNat - 1]? else none := by
  have taken : ((trim part).isEmpty || !(trim part).all isDigit) = false := by
    rw [List.isEmpty_eq_false_iff.mpr digits.1, List.all_eq_true.mpr digits.2]
    rfl
  unfold counted
  dsimp only
  rw [if_neg (by rw [taken]; exact Bool.false_ne_true)]
  show (whole (trim part) >>= _) = (whole (trim part)).map _
  cases whole (trim part) <;> rfl

theorem counted_eq (read : ¬ Misread part) :
    counted options part = .ok ((ordinal? part).bind (optionAt? options)) := by
  by_cases digits : trim part ≠ [] ∧ ∀ c ∈ trim part, isDigit c = true
  · have numeral : (unsigned digits).IsNumeral := by
      have other := fun bad => read ⟨digits.1, digits.2, bad⟩
      refine ⟨Nat.zero_le 1, fun d there => ?_, ?_⟩
      · by_contra bad
        exact other (.inl ⟨d, there, Bool.not_eq_true _ ▸ bad⟩)
      · exact Nat.not_lt.mp fun long => other (.inr long)
    have number : ordinal? part = some (ofDigits ((trim part).filterMap decimal?)) :=
      if_pos ⟨digits.1, List.all_eq_true.mpr numeral.2.1⟩
    have value : (unsigned digits).value = (ofDigits ((trim part).filterMap decimal?) : Nat) := rfl
    have counts : (1 : Int) ≤ (ofDigits ((trim part).filterMap decimal?) : Nat) ↔
        1 ≤ ofDigits ((trim part).filterMap decimal?) := Int.ofNat_le
    rw [counted_digits options digits, Signed.whole_eq numeral, number, value]
    simp only [Except.map, Option.bind_some, optionAt?, Int.toNat_natCast, counts]
  · obtain ⟨passed, none⟩ := counted_passed options digits
    rw [passed, none]
    rfl

theorem whole_badValue {cs : List Char} {f : Fault} (h : whole cs = .error f) :
    ∃ message, f = .badValue message := by
  unfold whole at h
  split at h
  · dsimp only at h
    split at h
    · cases h
      exact ⟨_, rfl⟩
    · cases h
  · cases h
    exact ⟨_, rfl⟩

theorem counted_error (misread : Misread part) :
    ∃ message, counted options part = .error (.badValue message) := by
  obtain ⟨some_digit, digits, bad⟩ := misread
  have other : ¬ (unsigned ⟨some_digit, digits⟩).IsNumeral := by
    rintro ⟨-, decimal, short⟩
    rcases bad with ⟨c, there, bad⟩ | long
    · exact Bool.false_ne_true (bad.symm.trans (decimal c there))
    · exact absurd short (Nat.not_le.mpr long)
  obtain ⟨f, refused⟩ := Signed.whole_error other
  obtain ⟨message, rfl⟩ := whole_badValue refused
  exact ⟨message, by rw [counted_digits options ⟨some_digit, digits⟩, refused]; rfl⟩

/-- Whether an answer has a part that is misread. -/
def IsMisread (answer : String) : Prop := ∃ part ∈ splitAt ',' answer.toList, Misread part

instance (answer : String) : Decidable (IsMisread answer) :=
  inferInstanceAs (Decidable (∃ part ∈ _, _))

theorem selection_eq (read : ¬ IsMisread answer) :
    selection options answer = .ok (countedOff options answer) := by
  have each : ∀ part ∈ splitAt ',' answer.toList, counted options (id part) =
      .ok ((ordinal? part).bind (optionAt? options)) := fun part there =>
    counted_eq options fun misread => read ⟨part, there, misread⟩
  have all := mapM_map_eq_ok each
  rw [List.map_id] at all
  unfold selection
  rw [all]
  show Except.ok _ = _
  rw [List.filterMap_map]
  rfl

theorem selection_error (misread : IsMisread answer) :
    ∃ message, selection options answer = .error (.badValue message) := by
  obtain ⟨part, there, misread⟩ := misread
  obtain ⟨message, refused⟩ := counted_error options misread
  obtain ⟨f, failed⟩ := exists_mapM_eq_error there refused
  obtain ⟨part, -, first⟩ := mapM_eq_error failed
  have bad : Misread part := by
    by_contra read
    rw [counted_eq options read] at first
    cases first
  obtain ⟨message, same⟩ := counted_error options bad
  refine ⟨message, ?_⟩
  unfold selection
  rw [failed, Except.error.inj (first.symm.trans same)]
  rfl

/-! ### What is selected -/

variable {r : Request}

/-- The default selection of a dialog, if its defaults have the form for one. -/
def preset (r : Request) : Except Fault (List Value) := default r "selected" >>= membersOf

/-- No more than one option, unless the dialog allows several. -/
def allowed (r : Request) (chosen : List Value) : List Value :=
  if (r.field "multiSelect").truthy then chosen else chosen.take 1

/-- What an answer selects: the options that it counts off, or the default ones if there are none. -/
inductive Selects (r : Request) (answer : String) : List Value → Prop
  | counted (some_option : countedOff r.options answer ≠ []) :
    Selects r answer (allowed r ((countedOff r.options answer).map .str))
  | preset {chosen : List Value} (none : countedOff r.options answer = [])
    (given : preset r = .ok chosen) : Selects r answer (allowed r chosen)

theorem Selects.of_counted {chosen : List Value} (h : Selects r answer chosen)
    (some_option : countedOff r.options answer ≠ []) :
    chosen = allowed r ((countedOff r.options answer).map .str) := by
  cases h with
  | counted => rfl
  | preset none => exact absurd none some_option

/-- Whether an answer breaks a dialog: a part of it is misread, or the default selection is needed
and has no form for one. -/
def Unusable (r : Request) (answer : String) : Prop :=
  IsMisread answer ∨ countedOff r.options answer = [] ∧ ∃ f, preset r = .error f

theorem selected_of_misread (misread : IsMisread answer) : ∃ f, selected r answer = .error f := by
  obtain ⟨message, refused⟩ := selection_error r.options misread
  exact ⟨_, by unfold selected; rw [refused]; rfl⟩

theorem selected_eq (read : ¬ IsMisread answer) : selected r answer =
    (if countedOff r.options answer = [] then preset r
      else .ok ((countedOff r.options answer).map .str)).map (allowed r) := by
  unfold selected
  rw [selection_eq r.options read]
  show (if ((countedOff r.options answer).map Value.str).isEmpty then
      default r "selected" >>= fun v => membersOf v >>= fun chosen => .ok (allowed r chosen)
    else .ok (allowed r ((countedOff r.options answer).map Value.str)) : Except Fault _) = _
  cases found : countedOff r.options answer with
  | nil =>
    rw [if_pos rfl, preset]
    cases default r "selected" with
    | error f => rfl
    | ok v => cases membersOf v <;> rfl
  | cons o rest => rfl

theorem selects_of_selected {chosen : List Value} (h : selected r answer = .ok chosen) :
    ¬ Unusable r answer ∧ Selects r answer chosen := by
  have read : ¬ IsMisread answer := fun misread => by
    obtain ⟨f, refused⟩ := selected_of_misread (r := r) misread
    cases h.symm.trans refused
  rw [selected_eq read] at h
  obtain ⟨all, found, rfl⟩ := map_eq_ok.mp h
  by_cases none : countedOff r.options answer = []
  · rw [if_pos none] at found
    refine ⟨?_, .preset none found⟩
    rintro (misread | ⟨-, f, refused⟩)
    · exact read misread
    · cases found.symm.trans refused
  · rw [if_neg none, Except.ok.injEq] at found
    exact ⟨fun bad => bad.elim read fun needed => none needed.1, found ▸ .counted none⟩

theorem unusable_of_selected {f : Fault} (h : selected r answer = .error f) :
    Unusable r answer := by
  by_cases misread : IsMisread answer
  · exact .inl misread
  · rw [selected_eq misread] at h
    have failed := map_eq_error.mp h
    by_cases none : countedOff r.options answer = []
    · rw [if_pos none] at failed
      exact .inr ⟨none, f, failed⟩
    · rw [if_neg none] at failed
      cases failed

/-! ### Questions and lines -/

/-- What a part of a conversation comes to where certain lines will be typed, and which of them it
leaves. -/
def Ends (d : Dialogue α) (typed : List String) (result : Except Fault α) (left : List String) :
    Prop := ∀ t : Terminal, t.typed = typed → ∃ t', d.run t = (result, t') ∧ t'.typed = left

theorem Ends.bind {d : Dialogue α} {next : α → Dialogue β} {typed mid left : List String} {a : α}
    {result : Except Fault β} (first : Ends d typed (.ok a) mid)
    (second : Ends (next a) mid result left) : Ends (d >>= next) typed result left := by
  intro t here
  obtain ⟨t₁, first, here⟩ := first t here
  obtain ⟨t₂, second, here⟩ := second t₁ here
  refine ⟨t₂, ?_, here⟩
  show ExceptT.bindCont next (d.run t).1 (d.run t).2 = _
  rw [first]
  exact second

theorem Ends.bind_error {d : Dialogue α} (next : α → Dialogue β) {typed left : List String}
    {f : Fault} (first : Ends d typed (.error f) left) :
    Ends (d >>= next) typed (.error f) left := by
  intro t here
  obtain ⟨t₁, first, here⟩ := first t here
  refine ⟨t₁, ?_, here⟩
  show ExceptT.bindCont next (d.run t).1 (d.run t).2 = _
  rw [first]
  rfl

theorem ends_pure (a : α) (typed : List String) : Ends (pure a) typed (.ok a) typed :=
  fun t here => ⟨t, rfl, here⟩

theorem ends_say (s : String) (typed : List String) : Ends (say s) typed (.ok ()) typed :=
  fun _ here => ⟨_, rfl, here⟩

theorem ends_ask (s : String) (typed : List String) :
    Ends (ask s) typed (.ok typed.head?) typed.tail := fun t here => by
  subst here
  exact ⟨_, rfl, rfl⟩

/-- A result that is at hand takes no line. -/
theorem ends_ofExcept (x : Except Fault α) (f : α → β) (typed : List String) :
    Ends (ofExcept x >>= fun a => pure (f a)) typed (x.map f) typed := fun t here => by
  cases x with
  | ok a => exact ⟨t, rfl, here⟩
  | error f => exact ⟨t, rfl, here⟩

theorem ends_sayOptions (position : Nat) (options typed : List String) :
    Ends (sayOptions position options) typed (.ok ()) typed := by
  induction options generalizing position with
  | nil => exact ends_pure () typed
  | cons o rest ih => exact (ends_say _ typed).bind (ih (position + 1))

/-! ### Dialogs -/

/-- How many lines a question takes that is asked only on a condition. -/
def lines (asks : Value) : Nat := if asks.truthy then 1 else 0

/-- How many questions a dialog with options asks: for its options, for its input if it has a title,
and for its button if there are two. -/
def questions (r : Request) : Nat := 1 + lines (r.field "inputTitle") + lines (r.field "button2")

/-- Whether the line that is typed for the input breaks a dialog: it leaves the input to the
defaults, and these have no form for one. -/
def InputUnusable (r : Request) (typed : List String) : Prop :=
  (r.field "inputTitle").truthy = true ∧ typed.head? = some "" ∧ ∃ f, default r "input" = .error f

/-- What breaks a dialog with options. -/
def Breaks (r : Request) : List String → Prop
  | [] => False
  | answer :: rest => Unusable r answer ∨ InputUnusable r rest

/-- What a question comes to that takes so many lines: it breaks the dialog, it meets the end of the
input, or it has an answer. -/
inductive Asks (d : Dialogue (Option α)) (unusable : Prop) (typed : List String) (lines : Nat) : Prop
  | broken {f : Fault} {left : List String} (bad : unusable) (ends : Ends d typed (.error f) left)
  | dismissed (usable : ¬ unusable) (short : typed.length < lines)
    (ends : Ends d typed (.ok none) [])
  | answered {a : α} {left : List String} (usable : ¬ unusable)
    (enough : typed.length = left.length + lines) (ends : Ends d typed (.ok (some a)) left)

theorem ends_askOptions_none (offered : r.options ≠ []) :
    Ends (askOptions r) [] (.ok none) [] := by
  unfold askOptions
  rw [if_neg (by simpa using offered)]
  exact (ends_sayOptions 1 r.options []).bind ((ends_ask _ []).bind (ends_pure none []))

theorem ends_askOptions (offered : r.options ≠ []) (answer : String) (rest : List String) :
    Ends (askOptions r) (answer :: rest) ((selected r answer).map some) rest := by
  unfold askOptions
  rw [if_neg (by simpa using offered)]
  exact (ends_sayOptions 1 r.options _).bind
    ((ends_ask _ _).bind (ends_ofExcept (selected r answer) some rest))

theorem ends_askInput_default (titled : (r.field "inputTitle").truthy = true) (rest : List String) :
    Ends (askInput r) ("" :: rest)
      ((default r "input").map fun v => some (orElse v (.str ""))) rest := by
  unfold askInput
  dsimp only
  rw [if_neg (by rw [titled]; decide)]
  exact (ends_ask _ _).bind (ends_ofExcept (default r "input") _ rest)

theorem ends_askInput_typed (titled : (r.field "inputTitle").truthy = true) {line : String}
    (some_line : line ≠ "") (rest : List String) :
    Ends (askInput r) (line :: rest) (.ok (some (.str line))) rest := by
  unfold askInput
  dsimp only
  rw [if_neg (by rw [titled]; decide)]
  refine (ends_ask _ _).bind ?_
  dsimp only [List.head?_cons]
  split
  · rename_i same
    exact absurd (Option.some.inj same) some_line
  · rename_i same
    cases same
    exact ends_pure _ rest
  · rename_i same
    cases same

theorem asks_input (r : Request) (typed : List String) :
    Asks (askInput r) (InputUnusable r typed) typed (lines (r.field "inputTitle")) := by
  unfold lines
  cases titled : (r.field "inputTitle").truthy with
  | false =>
    refine .answered (a := .null) (fun bad => by cases titled.symm.trans bad.1) rfl ?_
    unfold askInput
    dsimp only
    rw [if_pos (by rw [titled]; rfl)]
    exact ends_pure _ typed
  | true =>
    cases typed with
    | nil =>
      refine .dismissed (fun bad => nomatch bad.2.1) Nat.one_pos ?_
      unfold askInput
      dsimp only
      rw [if_neg (by rw [titled]; decide)]
      exact (ends_ask _ []).bind (ends_pure none [])
    | cons line rest =>
      by_cases empty : line = ""
      · subst empty
        have ends := ends_askInput_default titled rest
        cases given : default r "input" with
        | error f =>
          rw [given] at ends
          exact .broken ⟨titled, rfl, f, given⟩ ends
        | ok v =>
          rw [given] at ends
          exact .answered (fun ⟨_, _, f, bad⟩ => by cases given.symm.trans bad) rfl ends
      · exact .answered (fun bad => empty (Option.some.inj bad.2.1)) rfl
          (ends_askInput_typed titled empty rest)

theorem asks_button (r : Request) (typed : List String) :
    Asks (askButton r) False typed (lines (r.field "button2")) := by
  unfold lines askButton
  dsimp only
  cases (r.field "button2").truthy with
  | false => exact .answered id rfl (ends_pure _ typed)
  | true =>
    cases typed with
    | nil => exact .dismissed id Nat.one_pos ((ends_ask _ []).bind (ends_pure none []))
    | cons line rest => exact .answered id rfl ((ends_ask _ _).bind (ends_pure _ rest))

/-- What a dialog with options comes to. -/
inductive Concludes (r : Request) (typed : List String) : Except Fault (Option Response) → Prop
  | broken {f : Fault} (bad : Breaks r typed) : Concludes r typed (.error f)
  | dismissed (usable : ¬ Breaks r typed) (short : typed.length < questions r) :
    Concludes r typed (.ok none)
  | answered {answer : String} {rest : List String} {response : Response} (usable : ¬ Breaks r typed)
    (enough : questions r ≤ typed.length) (first : typed = answer :: rest)
    (selects : Selects r answer response.selected) : Concludes r typed (.ok (some response))

theorem ends_dialog (offered : r.options ≠ []) (typed : List String) :
    ∃ result left, Ends (dialog r) typed result left ∧ Concludes r typed result := by
  unfold dialog
  cases typed with
  | nil =>
    refine ⟨_, _, (ends_askOptions_none offered).bind (ends_pure none []), .dismissed id ?_⟩
    show 0 < 1 + _ + _
    omega
  | cons answer rest =>
    have first := ends_askOptions offered answer rest
    cases found : selected r answer with
    | error f =>
      rw [found] at first
      exact ⟨_, _, .bind_error _ first, .broken (.inl (unusable_of_selected found))⟩
    | ok chosen =>
      rw [found] at first
      obtain ⟨usable, selects⟩ := selects_of_selected found
      cases asks_input r rest with
      | broken bad input => exact ⟨_, _, first.bind (.bind_error _ input), .broken (.inr bad)⟩
      | dismissed fine short input =>
        refine ⟨_, _, first.bind (input.bind (ends_pure none [])),
          .dismissed (not_or.mpr ⟨usable, fine⟩) ?_⟩
        rw [questions, List.length_cons]
        omega
      | answered fine enough input =>
        cases asks_button r _ with
        | broken bad => exact bad.elim
        | dismissed _ short button =>
          refine ⟨_, _, first.bind (input.bind (button.bind (ends_pure none []))),
            .dismissed (not_or.mpr ⟨usable, fine⟩) ?_⟩
          rw [questions, List.length_cons]
          omega
        | answered _ more button =>
          refine ⟨_, _, first.bind (input.bind (button.bind (ends_pure _ _))),
            .answered (not_or.mpr ⟨usable, fine⟩) ?_ rfl selects⟩
          rw [questions, List.length_cons]
          omega

/-- What is shown ahead of a dialog takes no line. -/
theorem ends_answer (dialog : r.kind = .dialog) {typed left : List String}
    {result : Except Fault (Option Response)} (ends : Ends (Dialogue.dialog r) typed result left) :
    Ends (Dialogue.answer r) typed result left := by
  have shown (asked : Bool) (s : String) {rest : Dialogue (Option Response)}
      (ends : Ends rest typed result left) :
      Ends (if asked then say s >>= fun _ => rest else rest) typed result left := by
    cases asked with
    | false => exact ends
    | true => exact (ends_say s typed).bind ends
  unfold Dialogue.answer
  rw [dialog]
  exact shown _ _ (shown _ _ ends)

/-- Defaults of the form that is of use: a mapping, where the selection is a list if there is one. -/
def HasDefaults (r : Request) : Prop :=
  ∃ entries, orElse (r.field "defaults") (.map []) = .map entries ∧
    ∀ v, Entries.get? (.str "selected") entries = some v → ∃ items, v = .list items

/-- With such defaults only an answer breaks a dialog, by a part that is misread. -/
theorem HasDefaults.breaks_iff (h : HasDefaults r) {typed : List String} :
    Breaks r typed ↔ ∃ answer ∈ typed.head?, IsMisread answer := by
  obtain ⟨entries, mapping, listed⟩ := h
  have given (name : String) :
      default r name = .ok ((Entries.get? (.str name) entries).getD .null) := by
    unfold default
    rw [mapping]
  have chosen : ∃ items, preset r = .ok items := by
    unfold preset
    rw [given]
    cases found : Entries.get? (Scalar.str "selected") entries with
    | none => exact ⟨[], rfl⟩
    | some v =>
      obtain ⟨items, rfl⟩ := listed v found
      exact ⟨items, rfl⟩
  cases typed with
  | nil => simp [Breaks]
  | cons answer rest =>
    have input : ¬ InputUnusable r rest := fun ⟨_, _, f, bad⟩ => by cases (given _).symm.trans bad
    have options : Unusable r answer ↔ IsMisread answer := by
      obtain ⟨items, usable⟩ := chosen
      exact or_iff_left fun ⟨_, f, bad⟩ => by cases usable.symm.trans bad
    simp [Breaks, input, options]

/-- A dialog with options breaks by an answer with a part that is misread, or by defaults of no form
where they are needed. Any other one is dismissed just where a question meets the end of the input,
and else has a response: with the options that the answer counts off, or the default ones if there
are none, and no more than one of them unless the dialog allows several. -/
theorem answer_dialog (dialog : r.kind = .dialog) (offered : r.options ≠ []) (t : Terminal) :
    ∃ result t', (Dialogue.answer r).run t = (result, t') ∧
      ((∃ f, result = .error f) ↔ Breaks r t.typed) ∧
      (result = .ok none ↔ ¬ Breaks r t.typed ∧ t.typed.length < questions r) ∧
      (∀ response, result = .ok (some response) →
        ∃ answer rest, t.typed = answer :: rest ∧ Selects r answer response.selected) ∧
      (HasDefaults r → (Breaks r t.typed ↔ ∃ answer ∈ t.typed.head?, IsMisread answer)) := by
  obtain ⟨result, left, ends, concludes⟩ := ends_dialog offered t.typed
  obtain ⟨t', run, -⟩ := ends_answer dialog ends t rfl
  refine ⟨result, t', run, ?_, ?_, ?_, fun defaults => defaults.breaks_iff⟩
  · cases concludes with
    | broken bad => exact iff_of_true ⟨_, rfl⟩ bad
    | dismissed usable | answered usable => exact iff_of_false (fun ⟨_, h⟩ => nomatch h) usable
  · cases concludes with
    | broken bad => exact iff_of_false (fun h => nomatch h) fun h => h.1 bad
    | dismissed usable short => exact iff_of_true rfl ⟨usable, short⟩
    | answered usable enough =>
      exact iff_of_false (fun h => nomatch h) fun h => absurd enough (Nat.not_le.mpr h.2)
  · rintro response rfl
    cases concludes with
    | answered _ _ first selects => exact ⟨_, _, first, selects⟩

/-- A dialog with three options that allows several, asks for an input and has two buttons. -/
def ordering : Request :=
  { kind := .dialog
    options := ["a", "b", "c"]
    payload := [("multiSelect", .bool true), ("inputTitle", .str "Note"), ("button2", .str "Skip"),
      ("defaults", .record [("selected", .strs ["b"])])] }

/-- Digits of another script count, and what is no number or out of range is passed over. -/
theorem answer_dialog_ordering :
    ordering.kind = .dialog ∧ ordering.options ≠ [] ∧
      ∃ response t', (Dialogue.answer ordering).run { typed := ["3, x, ١, 9", "", "2"] } =
        (.ok (some response), t') ∧ response.selected = [.str "c", .str "a"] := by
  have offered : ordering.options ≠ [] := by decide
  have counted : countedOff ordering.options "3, x, ١, 9" = ["c", "a"] := by decide +kernel
  obtain ⟨result, t', run, breaks, dismissed, selects, usable⟩ :=
    answer_dialog (r := ordering) rfl offered { typed := ["3, x, ١, 9", "", "2"] }
  have sound : ¬ Breaks ordering ["3, x, ١, 9", "", "2"] := by
    rw [usable ⟨_, rfl, fun v found => ⟨[.str "b"], (Option.some.inj found).symm⟩⟩]
    decide +kernel
  rcases result with f | _ | response
  · exact absurd (breaks.mp ⟨f, rfl⟩) sound
  · exact absurd (dismissed.mp rfl).2 (by decide)
  · obtain ⟨answer, rest, first, selected⟩ := selects response rfl
    cases first
    have chosen := selected.of_counted (by rw [counted]; exact List.cons_ne_nil _ _)
    exact ⟨rfl, offered, response, t', run, by rw [chosen, counted]; rfl⟩

/-- A superscript is a digit that no number is written with, and breaks a dialog. -/
theorem answer_dialog_superscript :
    IsMisread "²" ∧ ∃ t', (Dialogue.answer ordering).run { typed := ["²", "", "2"] } =
      (.error (.badValue "invalid literal for int() with base 10: '²'"), t') := by
  have refused : selection ordering.options "²" =
      .error (.badValue "invalid literal for int() with base 10: '²'") := by decide +kernel
  have first := ends_askOptions (r := ordering) (by decide) "²" ["", "2"]
  unfold selected at first
  rw [refused] at first
  obtain ⟨t', run, -⟩ :=
    ends_answer rfl (.bind_error _ first) { typed := ["²", "", "2"] } rfl
  exact ⟨by decide +kernel, t', run⟩

end Runbook.Interaction.Dialogue
