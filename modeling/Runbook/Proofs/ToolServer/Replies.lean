import Runbook.Proofs.ToolServer.Conversation

/-! Replies that cannot be read.

A call of a tool comes to what the tool gave or to a failure that is told as the server's: that it was
not reached, that it refused, or that it answered with an error. It comes to any other failure exactly
where a message cannot be written or a reply cannot be read (`callTool_told`): where a body is no data
text, or the data is not laid out as a message, or a result not as that of a tool. -/
namespace Runbook.ToolServer

variable {σ α β : Type}

/-! ### Failures and what they depend on -/

/-- What something comes to depends on a condition: it fails at most as the server does where the
condition holds, and in a way of its own where it does not. -/
def Tells (p : Prop) (x : Except Fault α) : Prop :=
  p ∧ (∀ f, x = .error f → isTold f = true) ∨ ¬ p ∧ ∃ f, x = .error f ∧ isTold f = false

namespace Tells

variable {p q : Prop} {x : Except Fault α}

theorem congr (h : Tells p x) (same : p ↔ q) : Tells q x :=
  h.imp (And.imp_left same.mp) (And.imp_left (mt same.mpr))

theorem holds (h : p) (told : ∀ f, x = .error f → isTold f = true) : Tells p x := .inl ⟨h, told⟩

theorem fails (h : ¬ p) {f : Fault} (stopped : x = .error f) (own : isTold f = false) : Tells p x :=
  .inr ⟨h, f, stopped, own⟩

theorem ok (a : α) : Tells True (.ok a) := holds trivial nofun

theorem bind {q : α → Prop} {next : α → Except Fault β} (first : Tells p x)
    (rest : ∀ a, x = .ok a → Tells (q a) (next a)) :
    Tells (p ∧ ∀ a, x = .ok a → q a) (x >>= next) := by
  cases x with
  | ok a =>
    rcases first with ⟨here, -⟩ | ⟨-, f, stopped, -⟩
    · refine (rest a rfl).congr ⟨fun there => ⟨here, ?_⟩, fun both => both.2 a rfl⟩
      rintro _ ⟨⟩
      exact there
    · cases stopped
  | error f =>
    rcases first with ⟨here, told⟩ | ⟨absent, _, ⟨⟩, own⟩
    · refine holds ⟨here, nofun⟩ ?_
      rintro _ ⟨⟩
      exact told f rfl
    · exact fails (fun both => absent both.1) rfl own

end Tells

/-! ### Replies -/

/-- A message as the client reads it: a mapping, in which an error that counts is a mapping too. -/
def IsMessage (v : Value) : Prop :=
  ∃ entries, v = .map entries ∧ ∀ error, Entries.get? (.str "error") entries = some error →
    error.truthy = true → ∃ fields, error = .map fields

/-- A reply of success that can be read: its body is a stream without data or a data text, and what
the data text stands for is a message. -/
structure Readable (r : Http.Response) : Prop where
  body : isStream r = true ∧ lastData r.declaredText = [] ∨ ∃ v, message r = .ok v
  shape : ∀ v, message r = .ok v → IsMessage v

/-- A result as a tool has it: nothing that counts, or a mapping in which the content, if there is any, is
a list or something else that can be gone through. -/
def IsToolResult (v : Value) : Prop :=
  v.truthy = true → ∃ entries, v = .map entries ∧
    ∀ content, Entries.get? (.str "content") entries = some content →
      (∃ items, content = .list items) ∨ (∃ es, content = .map es) ∨ ∃ s, content = .str s

theorem resultOf_tells (v : Value) : Tells (IsMessage v) (resultOf v) := by
  cases v with
  | scalar s => exact .fails (fun ⟨_, same, _⟩ => nomatch same) rfl rfl
  | list items => exact .fails (fun ⟨_, same, _⟩ => nomatch same) rfl rfl
  | map entries =>
    have opened : resultOf (.map entries) =
        if ((Entries.get? (.str "error") entries).getD .null).truthy then do
          let code ← fieldOf ((Entries.get? (.str "error") entries).getD .null) "code"
          let text ← fieldOf ((Entries.get? (.str "error") entries).getD .null) "message"
          throw (.toolServer ("MCP Error " ++ code.display ++ ": " ++ text.display))
        else fieldOf (.map entries) "result" := rfl
    rw [opened]
    cases given : Entries.get? (.str "error") entries with
    | none => exact .holds ⟨entries, rfl, by simp [given]⟩ nofun
    | some error =>
      rw [Option.getD_some]
      cases counts : error.truthy with
      | false =>
        refine .holds ⟨entries, rfl, ?_⟩ nofun
        rintro _ same truthy
        cases given.symm.trans same
        cases counts.symm.trans truthy
      | true =>
        rw [if_pos rfl]
        have only (m : IsMessage (.map entries)) : ∃ fields, error = .map fields := by
          obtain ⟨_, ⟨⟩, shape⟩ := m
          exact shape error given counts
        cases error with
        | map fields =>
          refine .holds ⟨entries, rfl, ?_⟩ ?_
          · rintro _ same -
            cases given.symm.trans same
            exact ⟨fields, rfl⟩
          · rintro _ ⟨⟩
            rfl
        | scalar s => exact .fails (fun m => nomatch only m) rfl rfl
        | list items => exact .fails (fun m => nomatch only m) rfl rfl

theorem parse_untold {s : String} {f : Fault} (h : Json.parse s = .error f) : isTold f = false := by
  unfold Json.parse at h
  split at h
  · cases h
  · rename_i failure _
    cases h
    cases failure <;> rfl

theorem ofBytes_untold {bytes : List UInt8} {f : Fault} (h : Json.ofBytes bytes = .error f) :
    isTold f = false := by
  unfold Json.ofBytes at h
  split at h
  · cases h
    rfl
  · split at h
    · cases h
      rfl
    · exact parse_untold h

/-- A body is read, or is a stream without data, which is told. -/
theorem message_tells (r : Http.Response) :
    Tells (isStream r = true ∧ lastData r.declaredText = [] ∨ ∃ v, message r = .ok v) (message r) := by
  cases read : message r with
  | ok v => exact .holds (.inr ⟨v, rfl⟩) nofun
  | error f =>
    unfold message at read
    cases streamed : isStream r with
    | false =>
      rw [streamed, if_neg Bool.false_ne_true] at read
      exact .fails (by simp) rfl (ofBytes_untold read)
    | true =>
      rw [streamed, if_pos rfl, ofStream] at read
      cases data : lastData r.declaredText with
      | nil =>
        rw [data] at read
        cases read
        refine .holds (.inl ⟨rfl, rfl⟩) ?_
        rintro _ ⟨⟩
        rfl
      | cons c cs =>
        rw [data] at read
        exact .fails (by simp) rfl (parse_untold read)

theorem checkStatus_tells (r : Http.Response) : Tells True (Talk.checkStatus r) := by
  refine .holds trivial fun f failed => ?_
  unfold Talk.checkStatus at failed
  split at failed <;> cases failed
  rfl

/-- What is read of a reply: nothing of one without success. -/
theorem reply_tells (r : Http.Response) :
    Tells (Talk.checkStatus r = .ok () → Readable r)
      (do Talk.checkStatus r; resultOf (← message r)) := by
  refine ((checkStatus_tells r).bind fun _ _ =>
    (message_tells r).bind fun v _ => resultOf_tells v).congr ?_
  constructor
  · rintro ⟨-, read⟩ success
    obtain ⟨body, shape⟩ := read () success
    exact ⟨body, shape⟩
  · exact fun read => ⟨trivial, fun _ success => ⟨(read success).body, (read success).shape⟩⟩

/-- Whether the content of a result can be gone through. -/
theorem blocks_tells (content : Option Value) :
    Tells (∀ v, content = some v →
        (∃ items, v = .list items) ∨ (∃ es, v = .map es) ∨ ∃ s, v = .str s) (blocks content) := by
  unfold blocks
  split
  · exact .holds nofun nofun
  · refine .holds ?_ nofun
    rintro _ ⟨⟩
    exact .inl ⟨_, rfl⟩
  · refine .holds ?_ nofun
    rintro _ ⟨⟩
    exact .inr (.inl ⟨_, rfl⟩)
  · refine .holds ?_ nofun
    rintro _ ⟨⟩
    exact .inr (.inr ⟨_, rfl⟩)
  · rename_i v noList noMap noText
    refine .fails (fun shape => ?_) rfl rfl
    rcases shape v rfl with ⟨items, rfl⟩ | ⟨es, rfl⟩ | ⟨s, rfl⟩
    · exact noList items rfl
    · exact noMap es rfl
    · exact noText s rfl

theorem toolResult_tells (v : Value) : Tells (IsToolResult v) (toolResult v) := by
  unfold toolResult
  cases counts : v.truthy with
  | false =>
    refine .holds (fun truthy => ?_) (fun f failed => ?_)
    · cases counts.symm.trans truthy
    · cases failed
  | true =>
    dsimp only
    rw [if_pos rfl]
    cases v with
    | map entries =>
      refine ((blocks_tells _).bind (q := fun _ => True) fun _ _ => .ok _).congr ?_
      constructor
      · exact fun both _ => ⟨entries, rfl, both.1⟩
      · intro shape
        obtain ⟨_, ⟨⟩, content⟩ := shape counts
        exact ⟨content, fun _ _ => trivial⟩
    | _ =>
      refine .fails (fun shape => ?_) rfl rfl
      obtain ⟨_, same, _⟩ := shape counts
      cases same

theorem blocks_untold {content : Option Value} {f : Fault} (h : blocks content = .error f) :
    isTold f = false := by
  unfold blocks at h
  split at h <;> cases h
  rfl

theorem toolResult_untold {v : Value} {f : Fault} (h : toolResult v = .error f) :
    isTold f = false := by
  unfold toolResult at h
  dsimp only at h
  split at h
  · rcases bind_eq_error.mp h with stopped | ⟨_, -, behind⟩
    · exact blocks_untold stopped
    · cases behind
  · cases h
    rfl

/-! ### Exchanges -/

namespace Exchange

/-- An exchange in which the server replies, or is known not to be reached. -/
def Answered (e : Exchange) : Prop :=
  (∃ r, e.result = .returned r) ∨ ∃ m, e.result = .raised (.transport m)

/-- An exchange of whose reply everything can be read. -/
def Readable (e : Exchange) : Prop :=
  ∀ r, e.result = .returned r → Talk.checkStatus r = .ok () → ToolServer.Readable r

instance (e : Exchange) : Decidable e.Answered :=
  decidable_of_iff ((match e.result with
      | .returned _ | .raised (.transport _) => true
      | _ => false) = true) <| by
    rcases e with ⟨_, r | f | _ | _⟩
    · exact ⟨fun _ => .inl ⟨r, rfl⟩, fun _ => rfl⟩
    · cases f with
      | transport m => exact ⟨fun _ => .inr ⟨m, rfl⟩, fun _ => rfl⟩
      | _ => simp [Answered]
    all_goals simp [Answered]

theorem answer_tells {e : Exchange} (h : e.Answered) :
    ∃ x, e.answer = x.mapError .fault ∧ Tells e.Readable x := by
  rcases h with ⟨r, returned⟩ | ⟨m, failed⟩
  · refine ⟨_, by rw [answer, returned], (reply_tells r).congr ⟨fun read _ same => ?_, (· r returned)⟩⟩
    cases returned.symm.trans same
    exact read
  · refine ⟨.error (.transport m), by rw [answer, failed]; rfl, .holds (fun r same => ?_) ?_⟩
    · cases failed.symm.trans same
    · rintro _ ⟨⟩
      rfl

end Exchange

theorem Succeeded.readable {p : Value × Exchange} (h : Succeeded p) (answered : p.2.Answered)
    (request : isRequest p.1 = true) : p.2.Readable := by
  rw [Succeeded, if_pos request] at h
  obtain ⟨v, ok⟩ := h
  obtain ⟨x, same, ⟨read, -⟩ | ⟨-, f, rfl, -⟩⟩ := Exchange.answer_tells answered
  · exact read
  · cases ok.symm.trans same

/-! ### Whole conversations -/

section
variable {url : String} {fields : List (String × String)} {tool : String} {args m : Value}
  {posts : List (Value × Exchange)} {last : Value × Exchange} {outcome : Except Break Value}

theorem not_due_of_said (all : posts.map (·.1) = script tool args) : ¬ Due tool args posts m := by
  intro due
  have short := due.next.length_le
  rw [all, List.length_append] at short
  simp [script] at short

theorem not_due_of_failed (failed : ¬ Succeeded last) : ¬ Due tool args (posts ++ [last]) m :=
  fun due => failed ((due last.2).succeeded (List.mem_append_right _ (List.mem_singleton_self last)))

/-- Of all replies but the last everything could be read, or nothing would have been said behind them. -/
theorem InTurn.readable_concat (h : InTurn tool args (posts ++ [last]))
    (answered : ∀ p ∈ posts ++ [last], p.2.Answered) :
    (∀ p ∈ posts ++ [last], isRequest p.1 = true → p.2.Readable) ↔
      (isRequest last.1 = true → last.2.Readable) := by
  constructor
  · exact fun all => all last (List.mem_append_right _ (List.mem_singleton_self last))
  · intro read p there
    rcases List.mem_append.mp there with earlier | here
    · exact (h.succeeded earlier).readable (answered p there)
    · exact List.mem_singleton.mp here ▸ read

/-- What a conversation comes to depends on whether what is due can be written and what was replied
can be read. -/
theorem Comes.tells (h : Comes url fields tool args posts outcome) (inTurn : InTurn tool args posts)
    (answered : ∀ p ∈ posts, p.2.Answered) :
    ∃ x, outcome = x.mapError .fault ∧
      Tells ((∀ m, Due tool args posts m → ∃ q, IsPost url fields (sessionAfter posts) m q) ∧
        ∀ p ∈ posts, isRequest p.1 = true → p.2.Readable) x := by
  cases h with
  | @answered before e v all answer =>
    rw [inTurn.readable_concat answered]
    refine ⟨.ok v, rfl, .holds ⟨fun m due => absurd due (not_due_of_said all), ?_⟩ nofun⟩
    exact Succeeded.readable ⟨v, answer⟩ (answered _ (by simp))
  | @unanswered before m e b request answer =>
    rw [inTurn.readable_concat answered]
    have silent : ∀ n, ¬ Due tool args (before ++ [(m, e)]) n :=
      fun _ => not_due_of_failed (not_succeeded_of_answer request answer)
    obtain ⟨x, same, tells⟩ := Exchange.answer_tells (answered (m, e) (by simp))
    exact ⟨x, answer ▸ same, tells.congr
      ⟨fun read => ⟨fun n due => absurd due (silent n), fun _ => read⟩, fun both => both.2 request⟩⟩
  | @unheard before m e b notice failure =>
    rw [inTurn.readable_concat answered]
    have silent : ∀ n, ¬ Due tool args (before ++ [(m, e)]) n :=
      fun _ => not_due_of_failed (not_succeeded_of_result notice failure)
    rcases answered (m, e) (by simp) with ⟨r, returned⟩ | ⟨text, failed⟩
    · cases failure.symm.trans (outcomeOf_eq_ok.mpr returned)
    · rw [failed] at failure
      cases failure
      refine ⟨.error (.transport text), rfl, .holds ⟨fun n due => absurd due (silent n), ?_⟩ ?_⟩
      · exact fun request => nomatch notice.symm.trans request
      · rintro _ ⟨⟩
        rfl
  | unsaid due unwritten own =>
    refine ⟨_, rfl, .fails (fun both => ?_) rfl own⟩
    obtain ⟨q, isPost⟩ := both.1 _ due
    exact unwritten q isPost

/-! ### What can be written -/

/-- A value that can be sent: it has a data text, and its numbers are finite. -/
structure Sendable (v : Value) : Prop where
  writable : v.Writable
  finite : hasNoText v = false

theorem bytesOf_isOk (m : Value) : (∃ b, bytesOf m = .ok b) ↔ Sendable m := by
  have writable := Json.render_isOk Json.compact m
  unfold bytesOf
  cases rendered : Json.render Json.compact m with
  | error f =>
    rw [rendered] at writable
    exact ⟨fun ⟨_, ok⟩ => (nomatch ok), fun h => nomatch writable.mpr h.writable⟩
  | ok text =>
    cases numbers : hasNoText m with
    | false => exact ⟨fun _ => ⟨writable.mp ⟨text, rendered⟩, numbers⟩, fun _ => ⟨_, rfl⟩⟩
    | true => exact ⟨fun ⟨_, ok⟩ => (nomatch ok), fun h => nomatch numbers.symm.trans h.finite⟩

theorem sendable_str (s : String) : Sendable (.str s) where
  writable := .scalar trivial
  finite := by
    rw [Value.str, hasNoText]
    intro x same
    cases same

theorem sendable_int {n : Int} (h : (numeral? n).isSome = true) : Sendable (.int n) where
  writable := .scalar h
  finite := by
    rw [Value.int, hasNoText]
    intro x same
    cases same

theorem hasNoText_record (fields : List (String × Value)) :
    hasNoText (.record fields) = fields.any fun f => hasNoText f.2 := by
  rw [Value.record, hasNoText]
  induction fields with
  | nil => rw [List.map_nil, entriesHaveNoText, List.any_nil]
  | cons f rest ih =>
    have key : hasNoText (.scalar (.str f.1)) = false := (sendable_str f.1).finite
    rw [List.map_cons, entriesHaveNoText, ih, List.any_cons, key, Bool.false_or]

theorem sendable_record (fields : List (String × Value)) :
    Sendable (.record fields) ↔ ∀ f ∈ fields, Sendable f.2 := by
  constructor
  · intro ⟨writable, finite⟩ f there
    rw [hasNoText_record, List.any_eq_false] at finite
    cases writable with
    | map keys values =>
      exact ⟨values (.str f.1, f.2) (List.mem_map.mpr ⟨f, there, rfl⟩),
        Bool.not_eq_true _ ▸ finite f there⟩
  · intro each
    refine ⟨.map ?_ ?_, ?_⟩
    · intro e there
      obtain ⟨f, -, rfl⟩ := List.mem_map.mp there
      trivial
    · intro e there
      obtain ⟨f, held, rfl⟩ := List.mem_map.mp there
      exact (each f held).writable
    · rw [hasNoText_record, List.any_eq_false]
      exact fun f there => Bool.not_eq_true _ ▸ (each f there).finite

theorem sendable_requestMessage {id : Nat} (short : (numeral? id).isSome = true) (method : String)
    (params : Value) : Sendable (requestMessage id method params) ↔ Sendable params := by
  rw [requestMessage, sendable_record]
  simp [sendable_str, sendable_int short]

/-- What is said can be sent, but for the arguments of the call. -/
theorem sendable_of_script (there : m ∈ script tool args)
    (call : m = callMessage tool args → Sendable args) : Sendable m := by
  simp only [script, List.mem_cons, List.not_mem_nil, or_false] at there
  rcases there with rfl | rfl | rfl
  · have none : Sendable (.map []) := (sendable_record []).mpr nofun
    rw [sendable_requestMessage rfl, openingParams, clientInfo]
    simp [sendable_record, sendable_str, none]
  · rw [noticeMessage, sendable_record]
    simp [sendable_str]
  · rw [sendable_requestMessage rfl, sendable_record]
    simp [sendable_str, call rfl]

theorem isAscii_postFields (header : ∀ f ∈ fields, Http.IsAscii f.1 ∧ Http.IsAscii f.2) :
    ∀ f ∈ postFields fields, Http.IsAscii f.1 ∧ Http.IsAscii f.2 := by
  intro f there
  rcases Entries.mem_merge there with own | given
  · have fixed : ∀ f ∈ [("Content-Type", "application/json"),
        ("Accept", "application/json, text/event-stream")], Http.IsAscii f.1 ∧ Http.IsAscii f.2 := by
      decide +kernel
    exact fixed f own
  · exact header f given

theorem exists_isPost {session : Option String}
    (header : ∀ f ∈ fields, Http.IsAscii f.1 ∧ Http.IsAscii f.2)
    (named : ∀ name, session = some name → Http.IsAscii name) (sendable : Sendable m) :
    ∃ q, IsPost url fields session m q := by
  obtain ⟨b, written⟩ := (bytesOf_isOk m).mpr sendable
  obtain ⟨sent, ok⟩ : ∃ sent,
      Http.sentFields (Talk.withSession session (postFields fields)) = .ok sent := by
    cases session with
    | none => exact (Http.sentFields_isOk _).mpr (isAscii_postFields header)
    | some name => exact sentFields_insert (isAscii_postFields header) (named name rfl)
  exact ⟨{ url, method := "POST", headers := sent, content := some b }, rfl, rfl, ⟨b, written, rfl⟩, ok⟩

/-! ### Legible conversations -/

/-- A conversation in which everything that is to be said can be written, and everything that is
replied can be read. -/
structure Legible (fields : List (String × String)) (tool : String) (args : Value)
    (posts : List (Value × Exchange)) : Prop where
  header : ∀ f ∈ fields, Http.IsAscii f.1 ∧ Http.IsAscii f.2
  session : ∀ name, sessionAfter posts = some name → Http.IsAscii name
  arguments : Due tool args posts (callMessage tool args) → Sendable args
  replies : ∀ p ∈ posts, isRequest p.1 = true → p.2.Readable
  result : ∀ before e v, posts = before ++ [(callMessage tool args, e)] → e.answer = .ok v →
    IsToolResult v

theorem callMessage_not_mem : callMessage tool args ∉
    [requestMessage 1 "initialize" openingParams, noticeMessage "notifications/initialized"] := by
  intro there
  simp [callMessage, requestMessage, noticeMessage, Value.record, Value.int] at there

/-- Nothing is due behind the call of the tool. -/
theorem Due.not_called (h : Due tool args posts m) : ∀ p ∈ posts, p.1 ≠ callMessage tool args := by
  intro p there same
  have before : posts.map (·.1) <+: [requestMessage 1 "initialize" openingParams,
      noticeMessage "notifications/initialized"] := by
    rcases List.prefix_concat_iff.mp (show _ <+: [requestMessage 1 "initialize" openingParams,
        noticeMessage "notifications/initialized"] ++ [callMessage tool args] from h.next) with
      whole | earlier
    · exact (List.append_inj' whole rfl).1 ▸ List.prefix_rfl
    · exact (List.prefix_append _ _).trans earlier
  exact callMessage_not_mem (same ▸ before.subset (List.mem_map_of_mem there))

/-- A conversation comes to a result exactly where the call of the tool is answered with it. -/
theorem Comes.eq_ok (h : Comes url fields tool args posts outcome) {v : Value} :
    outcome = .ok v ↔ ∃ before e, posts = before ++ [(callMessage tool args, e)] ∧ e.answer = .ok v := by
  cases h with
  | @answered before e w all answer =>
    constructor
    · rintro ⟨⟩
      exact ⟨before, e, rfl, answer⟩
    · rintro ⟨_, f, same, ok⟩
      cases (List.append_inj' same rfl).2
      exact answer.symm.trans ok
  | unanswered request answer =>
    refine ⟨nofun, fun ⟨_, f, same, ok⟩ => ?_⟩
    cases (List.append_inj' same rfl).2
    cases answer.symm.trans ok
  | unheard notice failure =>
    refine ⟨nofun, fun ⟨_, f, same, ok⟩ => ?_⟩
    cases (List.append_inj' same rfl).2
    cases notice
  | unsaid due unwritten own =>
    refine ⟨nofun, fun ⟨before, f, same, ok⟩ => ?_⟩
    subst same
    exact absurd rfl (due.not_called _ (List.mem_append_right _ (List.mem_singleton_self _)))

/-- Whether the last message of a session can be written. -/
def Closable (fields : List (String × String)) (session : Option String) : Prop :=
  ∀ name, session = some name →
    ∃ sent, Http.sentFields (Entries.insert Talk.sessionField name fields) = .ok sent

/-- A conversation is legible exactly where all that is due can be written, the session can be closed,
and every reply and the result can be read. -/
theorem Comes.legible_iff (h : Comes url fields tool args posts outcome)
    (posted : Posted url fields posts) (distinct : (Entries.keys fields).Nodup) :
    Legible fields tool args posts ↔
      ((∀ m, Due tool args posts m → ∃ q, IsPost url fields (sessionAfter posts) m q) ∧
        ∀ p ∈ posts, isRequest p.1 = true → p.2.Readable) ∧
      Closable fields (sessionAfter posts) ∧ ∀ v, outcome = .ok v → IsToolResult v := by
  constructor
  · intro legible
    refine ⟨⟨fun m due => ?_, legible.replies⟩, fun name named => ?_, fun v same => ?_⟩
    · have said : m ∈ script tool args :=
        due.next.subset (List.mem_append_right _ (List.mem_singleton_self m))
      exact exists_isPost legible.header legible.session
        (sendable_of_script said fun same => legible.arguments (same ▸ due))
    · exact sentFields_insert legible.header (legible.session name named)
    · obtain ⟨before, e, last, answer⟩ := h.eq_ok.mp same
      exact legible.result before e v last answer
  · rintro ⟨⟨written, read⟩, closes, result⟩
    refine ⟨?_, fun name named => ?_, fun due => ?_, read, fun before e v last answer => ?_⟩
    · -- The caller's fields went out with the opening, or could not.
      cases posts with
      | nil =>
        have opens : Due tool args [] (requestMessage 1 "initialize" openingParams) :=
          .single ⟨_, rfl⟩
        obtain ⟨q, isPost⟩ := written _ opens
        exact isPost.isAscii distinct
      | cons p rest => exact (posted [] p.1 p.2 ⟨rest, rfl⟩).isAscii distinct
    · refine (close_isOk posted ?_ distinct).mp (closes name named)
      rintro rfl
      cases named
    · obtain ⟨q, isPost⟩ := written _ due
      obtain ⟨b, ok, -⟩ := isPost.content
      have whole := (bytesOf_isOk _).mp ⟨b, ok⟩
      rw [callMessage, sendable_requestMessage rfl, sendable_record] at whole
      exact whole ("arguments", args) (by simp)
    · exact result v (h.eq_ok.mpr ⟨before, e, last, answer⟩)

end

/-! ### Whole calls -/

/-- A session is closed without a failure that counts, unless its name cannot be sent. -/
theorem closing_tells {server : Server σ} {line : Line (σ × List Exchange)}
    (answered : ∀ e ∈ (Talk.closing server.noted line).2.world.2, e.Answered) :
    Closable server.headers line.session ∧ (Talk.closing server.noted line).1 = .ok () ∨
      ¬ Closable server.headers line.session ∧
        ∃ f, (Talk.closing server.noted line).1 = .error (.fault f) ∧ isTold f = false := by
  rcases closing_cases server.noted line with
    ⟨free, same⟩ | ⟨name, f, named, refused, own, same⟩ | ⟨name, q, named, isClose, sent⟩
  · refine .inl ⟨fun name named => ?_, by rw [same]⟩
    cases free.symm.trans named
  · exact .inr ⟨fun closes => refused (closes name named), f, by rw [same], own⟩
  · refine .inl ⟨fun other known => ?_, ?_⟩
    · cases named.symm.trans known
      exact ⟨_, isClose.headers⟩
    · rw [sent, Line.after, server.noted_log] at answered
      rw [sent]
      rcases answered _ (List.mem_append_right _ (List.mem_singleton_self _)) with
        ⟨r, returned⟩ | ⟨m, failed⟩
      · dsimp only at returned
        rw [returned]
        rfl
      · dsimp only at failed
        rw [failed]
        rfl

/-- A call that is settled: the tool gave something, or the server's failure is told as that. -/
def Settled (result : Result ToolResult) : Prop :=
  (∃ t, result = .returned t) ∨ ∃ m, result = .raised (.toolServer m)

instance (result : Result ToolResult) : Decidable (Settled result) :=
  decidable_of_iff ((match result with
      | .returned _ | .raised (.toolServer _) => true
      | _ => false) = true) <| by
    rcases result with t | f | _ | _
    · exact ⟨fun _ => .inl ⟨t, rfl⟩, fun _ => rfl⟩
    · cases f with
      | toolServer m => exact ⟨fun _ => .inr ⟨m, rfl⟩, fun _ => rfl⟩
      | _ => simp [Settled]
    all_goals simp [Settled]

/-- A call out of which any other failure comes. -/
def Escapes (result : Result ToolResult) : Prop :=
  ∃ f, result = .raised f ∧ ∀ m, f ≠ .toolServer m

theorem Settled.not_escapes {result : Result ToolResult} (h : Settled result) : ¬ Escapes result := by
  rintro ⟨f, raised, other⟩
  rcases h with ⟨t, returned⟩ | ⟨m, told⟩
  · cases raised.symm.trans returned
  · cases raised.symm.trans told
    exact other m rfl

/-- What the caller is handed of a conversation. -/
def handed : Except Break Value → Result ToolResult
  | .ok v =>
    match toolResult v with
    | .ok t => .returned t
    | .error f => .raised f
  | .error (.fault f) => .raised f
  | .error .hung => .hung
  | .error .cancelled => .cancelled

theorem callTool_result (send : Http.Request → Call σ Http.Response) {url tool : String} {args : Value}
    {headers : Option Value} {fields : List (String × String)} (world : σ)
    (given : headerFields headers = .ok fields) :
    (callTool send url tool args headers world).result =
      handed (Talk.about ⟨url, fields, send⟩ tool args { world }).1 := by
  unfold callTool
  rw [given]
  rfl

theorem headerFields_untold {headers : Option Value} {f : Fault} (h : headerFields headers = .error f) :
    isTold f = false := by
  unfold headerFields at h
  split at h
  · obtain ⟨e, -, failed⟩ := mapM_eq_error h
    split at failed <;> cases failed
    rfl
  · cases h

theorem explained_of_isTold {f : Fault} (told : isTold f = true) :
    ∃ m, Talk.explained (.fault f) = .fault (.toolServer m) := by
  cases f with
  | toolServer m => exact ⟨m, rfl⟩
  | transport m => exact ⟨_, rfl⟩
  | _ => cases told

theorem explained_of_untold {f : Fault} (own : isTold f = false) :
    Talk.explained (.fault f) = .fault f ∧ ∀ m, f ≠ .toolServer m := by
  cases f with
  | toolServer m | transport m => cases own
  | _ => exact ⟨rfl, nofun⟩

/-- What the caller is handed of a conversation that was closed. -/
theorem handed_tells {p : Prop} {x : Except Fault Value} (tells : Tells p x) :
    (p ∧ ∀ v, x = .ok v → IsToolResult v) ∧
        Settled (handed ((x.mapError .fault).mapError Talk.explained)) ∨
      ¬ (p ∧ ∀ v, x = .ok v → IsToolResult v) ∧
        Escapes (handed ((x.mapError .fault).mapError Talk.explained)) := by
  rcases tells with ⟨here, told⟩ | ⟨absent, f, rfl, own⟩
  · cases x with
    | error f =>
      obtain ⟨m, same⟩ := explained_of_isTold (told f rfl)
      refine .inl ⟨⟨here, nofun⟩, .inr ⟨m, ?_⟩⟩
      simp only [mapError_error, same, handed]
    | ok v =>
      rcases toolResult_tells v with ⟨fits, told⟩ | ⟨unfit, f, failed, own⟩
      · refine .inl ⟨⟨here, by rintro _ ⟨⟩; exact fits⟩, .inl ?_⟩
        cases given : toolResult v with
        | ok t =>
          refine ⟨t, ?_⟩
          simp only [mapError_ok, handed, given]
        | error f => cases (toolResult_untold given).symm.trans (told f given)
      · refine .inr ⟨fun both => unfit (both.2 v rfl), f, ?_, (explained_of_untold own).2⟩
        simp only [mapError_ok, handed, failed]
  · obtain ⟨same, own⟩ := explained_of_untold own
    refine .inr ⟨fun both => absent both.1, f, ?_, own⟩
    simp only [mapError_error, same, handed]

/-- A conversation in which the server replies, or is known not to be reached, is settled exactly where
it is legible. -/
theorem about_told (server : Server σ) (tool : String) (args : Value)
    (distinct : (Entries.keys server.headers).Nodup) {line : Line (σ × List Exchange)}
    (fresh : Held server [] line) (first : line.nextId = 1)
    (answered : ∀ e ∈ (Talk.about server.noted tool args line).2.world.2, e.Answered) :
    ∃ posts closing, Conversation server.url server.headers tool args posts closing ∧
      (Talk.about server.noted tool args line).2.world.2 = posts.map (·.2) ++ closing ∧
      (Legible server.headers tool args posts ∧
          Settled (handed (Talk.about server.noted tool args line).1) ∨
        ¬ Legible server.headers tool args posts ∧
          Escapes (handed (Talk.about server.noted tool args line).1)) := by
  obtain ⟨posts, held, inTurn, comes⟩ := call_comes server tool args fresh first
  rcases came : call server.noted tool args line with ⟨outcome, last⟩
  rw [came] at held comes
  obtain ⟨closing, conversation, log⟩ := about_comes server tool args distinct came held inTurn comes
  refine ⟨posts, closing, conversation, log, ?_⟩
  have replied : ∀ p ∈ posts, p.2.Answered := fun p there =>
    answered p.2 (log ▸ List.mem_append_left _ (List.mem_map_of_mem there))
  obtain ⟨x, rfl, tells⟩ := comes.tells inTurn replied
  have goes : x.mapError Break.fault ≠ .error .hung := by cases x <;> nofun
  -- The log is the one behind the last message, whatever that comes to.
  have logged : (Talk.about server.noted tool args line).2 = (Talk.closing server.noted last).2 := by
    rw [about_closed came goes]
    rcases Talk.closing server.noted last with ⟨_ | _, _⟩ <;> rfl
  have closes := closing_tells (logged ▸ answered)
  rw [held.session] at closes
  rw [about_closed came goes, comes.legible_iff held.posted distinct]
  rcases closes with ⟨closable, done⟩ | ⟨stuck, f, failed, own⟩
  · rcases ended : Talk.closing server.noted last with ⟨_, final⟩
    rw [ended] at done
    cases done
    simp only [mapError_eq_ok]
    rcases handed_tells tells with ⟨⟨here, fits⟩, settled⟩ | ⟨absent, escapes⟩
    · exact .inl ⟨⟨here, closable, fits⟩, settled⟩
    · exact .inr ⟨fun both => absent ⟨both.1, both.2.2⟩, escapes⟩
  · rcases ended : Talk.closing server.noted last with ⟨_, final⟩
    rw [ended] at failed
    cases failed
    exact .inr ⟨fun both => stuck both.2.1, f, rfl, (explained_of_untold own).2⟩

/-- Where the server replies to everything, or is known not to be reached, a call of a tool is settled
exactly where the conversation is legible, and fails of itself otherwise. So does one whose header fields
are not texts. -/
theorem callTool_told (send : Http.Request → Call σ Http.Response) (world : σ)
    (url tool : String) (args : Value) (headers : Option Value)
    (distinct : ∀ fields, headerFields headers = .ok fields → (Entries.keys fields).Nodup)
    (answered : ∀ e ∈ exchanged send url tool args headers world, e.Answered) :
    match headerFields headers with
    | .ok fields => ∃ posts closing, Conversation url fields tool args posts closing ∧
        exchanged send url tool args headers world = posts.map (·.2) ++ closing ∧
        (Legible fields tool args posts ∧
            Settled (callTool send url tool args headers world).result ∨
          ¬ Legible fields tool args posts ∧
            Escapes (callTool send url tool args headers world).result)
    | .error _ => Escapes (callTool send url tool args headers world).result := by
  cases given : headerFields headers with
  | error f =>
    unfold callTool
    rw [given]
    exact ⟨f, rfl, (explained_of_untold (headerFields_untold given)).2⟩
  | ok fields =>
    rw [callTool_noted send url tool args headers world [], callTool_result (noted send) _ given]
    have same : exchanged send url tool args headers world =
        (Talk.about (Server.noted ⟨url, fields, send⟩) tool args { world := (world, []) }).2.world.2 := by
      unfold exchanged callTool
      rw [given]
      rfl
    rw [same] at answered ⊢
    exact about_told ⟨url, fields, send⟩ tool args (distinct fields given) (.fresh _ world) rfl answered

theorem callTool_told_named :
    let call := callTool (naming "sess-1") "https://mcp.test/mcp" "answer" (.map []) none ()
    let log := exchanged (naming "sess-1") "https://mcp.test/mcp" "answer" (.map []) none ()
    (∀ fields, headerFields none = .ok fields → (Entries.keys fields).Nodup) ∧
      (∀ e ∈ log, e.Answered) ∧
      ∃ posts closing, Conversation "https://mcp.test/mcp" [] "answer" (.map []) posts closing ∧
        log = posts.map (·.2) ++ closing ∧ Legible [] "answer" (.map []) posts ∧
        Settled call.result := by
  intro call log
  have distinct : ∀ fields, headerFields none = .ok fields → (Entries.keys fields).Nodup := by
    rintro _ ⟨⟩
    decide
  have answered : ∀ e ∈ log, e.Answered := by
    show ∀ e ∈ exchanged (naming "sess-1") "https://mcp.test/mcp" "answer" (.map []) none (), e.Answered
    decide +kernel
  have settled : Settled call.result := by
    show Settled (callTool (naming "sess-1") "https://mcp.test/mcp" "answer" (.map []) none ()).result
    decide +kernel
  refine ⟨distinct, answered, ?_⟩
  obtain ⟨posts, closing, conversation, exchanges, told⟩ :=
    callTool_told (naming "sess-1") () "https://mcp.test/mcp" "answer" (.map []) none distinct answered
  rcases told with legible | escapes
  · exact ⟨posts, closing, conversation, exchanges, legible⟩
  · exact absurd escapes.2 settled.not_escapes

/-- A server whose replies are no data texts. -/
def garbling : Http.Request → Call Unit Http.Response := fun _ =>
  Call.pure { status := 200, content := Text.encode "not json" }

/-- A reply that is no data text is not told as the server's failure: the reader's own comes out. -/
theorem callTool_garbled :
    (∀ e ∈ exchanged garbling "https://mcp.test/mcp" "answer" (.map []) none (), e.Answered) ∧
      ¬ Settled (callTool garbling "https://mcp.test/mcp" "answer" (.map []) none ()).result := by
  have answered : ∀ e ∈ exchanged garbling "https://mcp.test/mcp" "answer" (.map []) none (),
      e.Answered := by
    decide +kernel
  exact ⟨answered, by decide +kernel⟩

end Runbook.ToolServer
