import Mathlib.Data.List.Induction
import Runbook.Proofs.Http.Fields
import Runbook.Proofs.ToolServer.Talk

/-! Conversations with servers of tools.

The messages that were exchanged so far determine the session (`sessionAfter`), each exchange adds one
to them (`Held`), and they determine what the conversation comes to (`call_comes`). So, whatever the
server does, the messages are sent in turn, each of them carries the session, and the conversation is
closed once if there is a session (`about_conversation`). A session whose name has characters beyond
ASCII can be neither carried nor closed. -/
namespace Runbook.ToolServer

variable {σ : Type}

/-! ### Posts -/

/-- A message with a number is a request. -/
def isRequest (m : Value) : Bool := (m.field? "id").isSome

/-- The session after some messages: the one that the latest reply to name one named, where only
replies to requests count. -/
def sessionAfter (posts : List (Value × Exchange)) : Option String :=
  posts.foldl (fun session p => if isRequest p.1 then p.2.session?.or session else session) none

theorem sessionAfter_concat (posts : List (Value × Exchange)) (p : Value × Exchange) :
    sessionAfter (posts ++ [p]) =
      if isRequest p.1 then p.2.session?.or (sessionAfter posts) else sessionAfter posts := by
  rw [sessionAfter, List.foldl_append]
  rfl

/-- Messages as they are sent, each with the session that those before it led to. -/
def Posted (url : String) (fields : List (String × String)) (posts : List (Value × Exchange)) : Prop :=
  ∀ before m e, before ++ [(m, e)] <+: posts → IsPost url fields (sessionAfter before) m e.sent

theorem Posted.concat {url : String} {fields : List (String × String)}
    {posts : List (Value × Exchange)} {m : Value} {e : Exchange} (h : Posted url fields posts)
    (last : IsPost url fields (sessionAfter posts) m e.sent) :
    Posted url fields (posts ++ [(m, e)]) := by
  intro before n f there
  rcases List.prefix_concat_iff.mp there with whole | earlier
  · obtain ⟨rfl, same⟩ := List.append_inj' whole rfl
    cases same
    exact last
  · exact h before n f earlier

/-- A conversation in which these messages were exchanged, and nothing else yet. -/
structure Held (server : Server σ) (posts : List (Value × Exchange))
    (line : Line (σ × List Exchange)) : Prop where
  log : line.world.2 = posts.map (·.2)
  session : line.session = sessionAfter posts
  posted : Posted server.url server.headers posts

section
variable {server : Server σ} {posts : List (Value × Exchange)} {line later : Line (σ × List Exchange)}

theorem Held.concat (h : Held server posts line) {m : Value} {e : Exchange}
    (isPost : IsPost server.url server.headers line.session m e.sent)
    (log : later.world.2 = line.world.2 ++ [e])
    (session : later.session = sessionAfter (posts ++ [(m, e)])) :
    Held server (posts ++ [(m, e)]) later where
  log := by
    rw [log, List.map_append, ← h.log]
    rfl
  session := session
  posted := h.posted.concat (h.session ▸ isPost)

/-- Nothing was exchanged yet. -/
theorem Held.fresh (server : Server σ) (world : σ) : Held server [] { world := (world, []) } where
  log := rfl
  session := rfl
  posted before m e there := by simp at there

/-- A notice is exchanged, or it cannot be written. -/
theorem Held.post (h : Held server posts line) {m : Value} (notice : isRequest m = false) :
    (∀ q, ¬ IsPost server.url server.headers (sessionAfter posts) m q) ∧
        (∃ f, isTold f = false ∧ Talk.post server.noted m line = (.error (.fault f), line)) ∨
      ∃ e later, Talk.post server.noted m line = (outcomeOf e.result, later) ∧
        Held server (posts ++ [(m, e)]) later ∧ later.nextId = line.nextId := by
  rw [← h.session]
  rcases post_cases server.noted m line with refused | ⟨q, isPost, sent⟩
  · exact .inl refused
  · refine .inr ⟨⟨q, _⟩, _, sent, h.concat isPost (server.noted_log q line.world) ?_, rfl⟩
    rw [sessionAfter_concat, notice, if_neg Bool.false_ne_true]
    exact h.session

/-- A request is exchanged, or it cannot be written. -/
theorem Held.request (h : Held server posts line) (method : String) (params : Value) :
    ∃ later, later.nextId = line.nextId + 1 ∧
      ((∀ q, ¬ IsPost server.url server.headers (sessionAfter posts)
            (requestMessage line.nextId method params) q) ∧
          (∃ f, isTold f = false ∧
            Talk.request server.noted method params line = (.error (.fault f), later)) ∧
          Held server posts later ∨
        ∃ e, Talk.request server.noted method params line = (e.answer, later) ∧
          Held server (posts ++ [(requestMessage line.nextId method params, e)]) later) := by
  rw [← h.session]
  rcases request_cases server.noted method params line with
    ⟨none, f, own, refused⟩ | ⟨q, isPost, sent⟩
  · exact ⟨_, rfl, .inl ⟨none, ⟨f, own, refused⟩, h.log, h.session, h.posted⟩⟩
  · refine ⟨_, rfl, .inr ⟨_, sent, h.concat isPost (server.noted_log q line.world) ?_⟩⟩
    have request : isRequest (requestMessage line.nextId method params) = true := rfl
    rw [sessionAfter_concat, request, if_pos rfl, ← h.session]

end

/-! ### What is said -/

/-- What the client has to say, in order. -/
def script (tool : String) (args : Value) : List Value :=
  [requestMessage 1 "initialize" openingParams, noticeMessage "notifications/initialized",
    requestMessage 2 "tools/call" (.record [("name", .str tool), ("arguments", args)])]

/-- A message that does not end the conversation: a request that is answered without an error, or a
notice that is replied to at all. -/
def Succeeded (p : Value × Exchange) : Prop :=
  if isRequest p.1 then ∃ v, p.2.answer = .ok v else ∃ r, p.2.result = .returned r

/-- Messages that are sent in turn: as the script has them, and each after the success of the one
before it. -/
structure InTurn (tool : String) (args : Value) (posts : List (Value × Exchange)) : Prop where
  messages : posts.map (·.1) <+: script tool args
  going : ∀ before p next, before ++ [p, next] <+: posts → Succeeded p

theorem InTurn.nil (tool : String) (args : Value) : InTurn tool args [] where
  messages := List.nil_prefix
  going before p next there := by simp at there

theorem InTurn.single {tool : String} {args m : Value} (next : [m] <+: script tool args)
    (e : Exchange) : InTurn tool args [(m, e)] where
  messages := next
  going before p next there := by
    have short := there.length_le
    simp at short

theorem InTurn.concat {tool : String} {args m : Value} {posts : List (Value × Exchange)}
    {p : Value × Exchange} (h : InTurn tool args (posts ++ [p])) (goes : Succeeded p)
    (next : (posts ++ [p]).map (·.1) ++ [m] <+: script tool args) (e : Exchange) :
    InTurn tool args (posts ++ [p] ++ [(m, e)]) where
  messages := by
    rw [List.map_append]
    exact next
  going before q next there := by
    rcases List.prefix_concat_iff.mp there with whole | earlier
    · rw [List.append_cons] at whole
      have same := (List.append_inj' (List.append_inj' whole rfl).1 rfl).2
      rw [List.singleton_inj.mp same]
      exact goes
    · exact h.going before q next earlier

/-- Why nothing more is said: everything was, the last message had no success, or the next one cannot
be written. -/
inductive Ended (url : String) (fields : List (String × String)) (tool : String) (args : Value)
    (posts : List (Value × Exchange)) : Prop
  | said (all : posts.map (·.1) = script tool args)
  | failed (before : List (Value × Exchange)) (p : Value × Exchange) (last : posts = before ++ [p])
      (failure : ¬ Succeeded p)
  | refused (m : Value) (next : posts.map (·.1) ++ [m] <+: script tool args)
      (unwritten : ∀ q, ¬ IsPost url fields (sessionAfter posts) m q)

def Hung (posts : List (Value × Exchange)) : Prop := ∃ p ∈ posts, p.2.result = .hung

/-- The message that calls a tool. -/
def callMessage (tool : String) (args : Value) : Value :=
  requestMessage 2 "tools/call" (.record [("name", .str tool), ("arguments", args)])

/-- A message that it is time for. -/
def Due (tool : String) (args : Value) (posts : List (Value × Exchange)) (m : Value) : Prop :=
  ∀ e, InTurn tool args (posts ++ [(m, e)])

theorem Due.next {tool : String} {args m : Value} {posts : List (Value × Exchange)}
    (h : Due tool args posts m) : posts.map (·.1) ++ [m] <+: script tool args := by
  have messages := (h ⟨{ url := "" }, .hung⟩).messages
  rwa [List.map_append] at messages

/-- What the conversation comes to by the messages that were exchanged: the answer to the last message,
or else the failure of the one that was not answered, or not even sent. -/
inductive Comes (url : String) (fields : List (String × String)) (tool : String) (args : Value) :
    List (Value × Exchange) → Except Break Value → Prop
  | answered {before : List (Value × Exchange)} {e : Exchange} {v : Value}
    (all : (before ++ [(callMessage tool args, e)]).map (·.1) = script tool args)
    (answer : e.answer = .ok v) :
    Comes url fields tool args (before ++ [(callMessage tool args, e)]) (.ok v)
  | unanswered {before : List (Value × Exchange)} {m : Value} {e : Exchange} {b : Break}
    (request : isRequest m = true) (answer : e.answer = .error b) :
    Comes url fields tool args (before ++ [(m, e)]) (.error b)
  | unheard {before : List (Value × Exchange)} {m : Value} {e : Exchange} {b : Break}
    (notice : isRequest m = false) (failure : outcomeOf e.result = .error b) :
    Comes url fields tool args (before ++ [(m, e)]) (.error b)
  | unsaid {posts : List (Value × Exchange)} {m : Value} {f : Fault}
    (due : Due tool args posts m) (unwritten : ∀ q, ¬ IsPost url fields (sessionAfter posts) m q)
    (own : isTold f = false) : Comes url fields tool args posts (.error (.fault f))

/-- However far the conversation comes, its messages are sent in turn. -/
theorem call_comes (server : Server σ) (tool : String) (args : Value)
    {line : Line (σ × List Exchange)} (fresh : Held server [] line) (first : line.nextId = 1) :
    ∃ posts, Held server posts (call server.noted tool args line).2 ∧ InTurn tool args posts ∧
      Comes server.url server.headers tool args posts (call server.noted tool args line).1 := by
  rw [call_apply]
  obtain ⟨line₁, next₁, opens⟩ := fresh.request "initialize" openingParams
  rw [first] at next₁ opens
  have due₁ : Due tool args [] (requestMessage 1 "initialize" openingParams) := .single ⟨_, rfl⟩
  rcases opens with ⟨unwritten, ⟨f, own, refused⟩, held⟩ | ⟨e₁, asked, held₁⟩
  · rw [refused]
    exact ⟨[], held, .nil tool args, .unsaid due₁ unwritten own⟩
  -- The opening was sent. Its answer decides whether anything else is.
  rw [asked]
  cases answered : e₁.answer with
  | error b => exact ⟨_, held₁, due₁ e₁, .unanswered rfl answered⟩
  | ok v =>
    have due₂ : Due tool args _ (noticeMessage "notifications/initialized") :=
      (due₁ e₁).concat ⟨v, answered⟩ ⟨_, rfl⟩
    dsimp only
    rcases held₁.post (m := noticeMessage "notifications/initialized") rfl with
      ⟨unwritten, f, own, refused⟩ | ⟨e₂, line₂, noticed, held₂, next₂⟩
    · rw [refused]
      exact ⟨_, held₁, due₁ e₁, .unsaid due₂ unwritten own⟩
    rw [noticed]
    cases acknowledged : outcomeOf e₂.result with
    | error b => exact ⟨_, held₂, due₂ e₂, .unheard rfl acknowledged⟩
    | ok r =>
      have due₃ : Due tool args _ (callMessage tool args) :=
        (due₂ e₂).concat ⟨r, outcomeOf_eq_ok.mp acknowledged⟩ ⟨_, rfl⟩
      dsimp only
      obtain ⟨line₃, -, calls⟩ :=
        held₂.request "tools/call" (.record [("name", .str tool), ("arguments", args)])
      rw [next₂, next₁] at calls
      rcases calls with ⟨unwritten, ⟨f, own, refused⟩, held⟩ | ⟨e₃, called, held₃⟩
      · rw [refused]
        exact ⟨_, held, due₂ e₂, .unsaid due₃ unwritten own⟩
      · rw [called]
        refine ⟨_, held₃, due₃ e₃, ?_⟩
        cases done : e₃.answer with
        | error b => exact .unanswered rfl done
        | ok v => exact .answered rfl done

section
variable {url : String} {fields : List (String × String)} {tool : String} {args m : Value}
  {posts : List (Value × Exchange)} {p last : Value × Exchange} {outcome : Except Break Value}

theorem not_succeeded_of_answer {e : Exchange} {b : Break} (request : isRequest m = true)
    (answer : e.answer = .error b) : ¬ Succeeded (m, e) := by
  rw [Succeeded, if_pos request]
  rintro ⟨v, ok⟩
  cases answer.symm.trans ok

theorem not_succeeded_of_result {e : Exchange} {b : Break} (notice : isRequest m = false)
    (failure : outcomeOf e.result = .error b) : ¬ Succeeded (m, e) := by
  rw [Succeeded, notice, if_neg Bool.false_ne_true]
  rintro ⟨r, returned⟩
  cases failure.symm.trans (outcomeOf_eq_ok.mpr returned)

/-- What the conversation comes to is why nothing more is said. -/
theorem Comes.ended (h : Comes url fields tool args posts outcome) :
    Ended url fields tool args posts := by
  cases h with
  | answered all _ => exact .said all
  | unanswered request answer => exact .failed _ _ rfl (not_succeeded_of_answer request answer)
  | unheard notice failure => exact .failed _ _ rfl (not_succeeded_of_result notice failure)
  | unsaid due unwritten _ => exact .refused _ due.next unwritten

/-- What does not end a conversation does not hang. -/
theorem Succeeded.not_hung (h : Succeeded p) : p.2.result ≠ .hung := by
  intro hung
  unfold Succeeded at h
  split at h
  · obtain ⟨v, ok⟩ := h
    cases ok.symm.trans (Exchange.answer_eq_hung.mpr hung)
  · obtain ⟨r, returned⟩ := h
    cases hung.symm.trans returned

/-- All messages but the last had success. -/
theorem InTurn.succeeded (h : InTurn tool args (posts ++ [last])) (there : p ∈ posts) :
    Succeeded p := by
  obtain ⟨before, rest, rfl⟩ := List.append_of_mem there
  cases rest with
  | nil => exact h.going before p last ⟨[], by simp⟩
  | cons next rest => exact h.going before p next ⟨rest ++ [last], by simp⟩

theorem InTurn.hung_concat (h : InTurn tool args (posts ++ [last])) :
    Hung (posts ++ [last]) ↔ last.2.result = .hung := by
  constructor
  · rintro ⟨p, there, hung⟩
    rcases List.mem_append.mp there with earlier | here
    · exact absurd hung (h.succeeded earlier).not_hung
    · exact List.mem_singleton.mp here ▸ hung
  · exact fun hung => ⟨last, List.mem_append_right _ (List.mem_singleton_self last), hung⟩

/-- A conversation comes to nothing exactly where an exchange does not come to an end. -/
theorem Comes.eq_hung (h : Comes url fields tool args posts outcome)
    (inTurn : InTurn tool args posts) : outcome = .error .hung ↔ Hung posts := by
  cases h with
  | answered _ answer =>
    rw [inTurn.hung_concat, ← Exchange.answer_eq_hung, answer]
  | unanswered _ answer =>
    rw [inTurn.hung_concat, ← Exchange.answer_eq_hung, answer]
  | unheard _ failure =>
    rw [inTurn.hung_concat, ← outcomeOf_eq_hung, failure, Except.error.injEq, Except.error.injEq]
  | unsaid due _ _ =>
    exact ⟨nofun, fun ⟨p, there, hung⟩ => absurd hung ((due p.2).succeeded there).not_hung⟩

end

/-! ### The name of the session -/

/-- The name under which the session is sent. -/
def sentName : String := "mcp-session-id"

theorem lowered_sessionField : Text.lowered Talk.sessionField = sentName := by decide +kernel

theorem isAscii_sessionField : Http.IsAscii Talk.sessionField := fun c there =>
  of_decide_eq_true (List.all_eq_true.mp
    (show Talk.sessionField.toList.all (fun c => decide (c.toNat < 128)) = true by decide) c there)

/-- Header fields of which none is the session's in another spelling. -/
def Unclaimed (fields : List (String × String)) : Prop :=
  ∀ f ∈ fields, Text.lowered f.1 = sentName → f.1 = Talk.sessionField

/-- A message that carries the name of a session: among what its session field holds, and alone
where the caller has no such field in another spelling. -/
structure Carries (fields : List (String × String)) (name : String) (q : Http.Request) : Prop where
  among : ∃ values, Entries.get? sentName q.headers = some (", ".intercalate values) ∧ name ∈ values
  alone : Unclaimed fields → Entries.get? sentName q.headers = some name

theorem mem_insert_self (name : String) (fields : List (String × String)) :
    (Talk.sessionField, name) ∈ Entries.insert Talk.sessionField name fields :=
  Entries.mem_of_get? (Entries.get?_insert_self ..)

theorem carries_of_sent {fields others : List (String × String)} {name : String} {q : Http.Request}
    (distinct : (Entries.keys others).Nodup) (claims : Unclaimed fields → Unclaimed others)
    (sent : Http.sentFields (Entries.insert Talk.sessionField name others) = .ok q.headers) :
    Carries fields name q := by
  have there := mem_insert_self name others
  have among : name ∈ Http.valuesOf sentName (Entries.insert Talk.sessionField name others) :=
    List.mem_map.mpr ⟨_, List.mem_filter.mpr ⟨there, by rw [lowered_sessionField]; rfl⟩, rfl⟩
  obtain ⟨v, vs, values⟩ := List.exists_cons_of_ne_nil (List.ne_nil_of_mem among)
  have shown := Http.get?_of_sentFields sent values
  refine ⟨⟨v :: vs, shown, values ▸ among⟩, fun unclaimed => ?_⟩
  have spelled : ∀ f ∈ Entries.insert Talk.sessionField name others,
      (Text.lowered f.1 == sentName) = (f.1 == Talk.sessionField) := by
    intro f held
    have only : Text.lowered f.1 = sentName → f.1 = Talk.sessionField := by
      rcases Entries.mem_insert held with rfl | held
      · exact fun _ => rfl
      · exact claims unclaimed f held
    by_cases same : f.1 = Talk.sessionField
    · simp [same, lowered_sessionField]
    · rw [beq_eq_false_iff_ne.mpr same, beq_eq_false_iff_ne.mpr (mt only same)]
  have single : Http.valuesOf sentName (Entries.insert Talk.sessionField name others) = [name] := by
    rw [Http.valuesOf, List.filter_congr spelled,
      Entries.filter_key (Entries.keys_nodup_insert distinct), Entries.get?_insert_self]
    rfl
  obtain ⟨rfl, rfl⟩ := List.cons.inj (values.symm.trans single)
  exact shown

theorem postFields_distinct (fields : List (String × String)) :
    (Entries.keys (postFields fields)).Nodup := Entries.keys_nodup_merge (by decide)

theorem Unclaimed.postFields {fields : List (String × String)} (h : Unclaimed fields) :
    Unclaimed (postFields fields) := by
  intro f there claims
  rcases Entries.mem_merge there with own | held
  · exfalso
    revert claims
    rcases List.mem_cons.mp own with rfl | own
    · decide +kernel
    · rw [List.mem_singleton.mp own]
      decide +kernel
  · exact h f held claims

theorem IsPost.carries {url name : String} {fields : List (String × String)} {m : Value}
    {q : Http.Request} (h : IsPost url fields (some name) m q) : Carries fields name q :=
  carries_of_sent (postFields_distinct fields) Unclaimed.postFields h.headers

theorem IsClose.carries {url name : String} {fields : List (String × String)} {q : Http.Request}
    (distinct : (Entries.keys fields).Nodup) (h : IsClose url fields name q) :
    Carries fields name q :=
  carries_of_sent distinct id h.headers

/-- The first message is sent with the caller's header fields as they are. -/
theorem IsPost.isAscii {url : String} {fields : List (String × String)} {m : Value} {q : Http.Request}
    (h : IsPost url fields none m q) (distinct : (Entries.keys fields).Nodup) :
    ∀ f ∈ fields, Http.IsAscii f.1 ∧ Http.IsAscii f.2 := fun f held =>
  (Http.sentFields_isOk _).mp ⟨_, h.headers⟩ f
    (Entries.mem_of_get? (Entries.get?_merge_of_mem distinct held))

theorem sentFields_insert {name : String} {fields : List (String × String)}
    (header : ∀ f ∈ fields, Http.IsAscii f.1 ∧ Http.IsAscii f.2) (ascii : Http.IsAscii name) :
    ∃ sent, Http.sentFields (Entries.insert Talk.sessionField name fields) = .ok sent := by
  refine (Http.sentFields_isOk _).mpr fun f there => ?_
  rcases Entries.mem_insert there with rfl | held
  · exact ⟨isAscii_sessionField, ascii⟩
  · exact header f held

/-- Where a message was sent, only the name of the session can keep the last one from being sent. -/
theorem close_isOk {url name : String} {fields : List (String × String)}
    {posts : List (Value × Exchange)} (posted : Posted url fields posts) (some_post : posts ≠ [])
    (distinct : (Entries.keys fields).Nodup) :
    (∃ sent, Http.sentFields (Entries.insert Talk.sessionField name fields) = .ok sent) ↔
      Http.IsAscii name := by
  obtain ⟨⟨m, e⟩, rest, rfl⟩ := List.exists_cons_of_ne_nil some_post
  have header := (posted [] m e ⟨rest, rfl⟩).isAscii distinct
  exact ⟨fun sent => ((Http.sentFields_isOk _).mp sent _ (mem_insert_self name fields)).2,
    sentFields_insert header⟩

/-! ### Whole conversations -/

/-- A session is known exactly when a reply to a request has named one. -/
theorem sessionAfter_isSome {posts : List (Value × Exchange)} :
    (∃ name, sessionAfter posts = some name) ↔
      ∃ p ∈ posts, isRequest p.1 = true ∧ ∃ name, p.2.session? = some name := by
  induction posts using List.reverseRecOn with
  | nil => simp [sessionAfter]
  | append_singleton posts p ih =>
    simp only [List.mem_append, List.mem_singleton, or_and_right, exists_or, exists_eq_left, ← ih]
    rw [sessionAfter_concat]
    cases isRequest p.1 with
    | false => simp
    | true => cases p.2.session? <;> simp

/-- A conversation as it should be. Its messages are sent in turn, and each of them carries the session
that those before it led to. It is closed at most once, in the session that all of them led to, and
it is closed exactly when there is one whose name can be sent, unless an exchange hangs. -/
structure Conversation (url : String) (fields : List (String × String)) (tool : String) (args : Value)
    (posts : List (Value × Exchange)) (closing : List Exchange) : Prop where
  inTurn : InTurn tool args posts
  ended : Ended url fields tool args posts
  posted : Posted url fields posts
  carried : ∀ before m e name, before ++ [(m, e)] <+: posts → sessionAfter before = some name →
    Carries fields name e.sent
  named : (∃ name, sessionAfter posts = some name) ↔
    ∃ p ∈ posts, isRequest p.1 = true ∧ ∃ name, p.2.session? = some name
  closes : ∀ e ∈ closing, ∃ name, sessionAfter posts = some name ∧ IsClose url fields name e.sent ∧
    Carries fields name e.sent
  once : closing.length ≤ 1
  closed : closing ≠ [] ↔
    (∃ name, sessionAfter posts = some name ∧ Http.IsAscii name) ∧ ¬ Hung posts

/-- Every message carries the session that those before it led to. -/
theorem Posted.carries {url : String} {fields : List (String × String)}
    {posts before : List (Value × Exchange)} (h : Posted url fields posts) {m : Value} {e : Exchange}
    {name : String} (there : before ++ [(m, e)] <+: posts)
    (named : sessionAfter before = some name) : Carries fields name e.sent := by
  have isPost := h before m e there
  rw [named] at isPost
  exact isPost.carries

/-- What is exchanged to close a conversation: nothing, or the message that closes the session that
its messages led to, where the name of it can be sent. -/
theorem Held.closing {server : Server σ} {posts : List (Value × Exchange)}
    {line : Line (σ × List Exchange)} (h : Held server posts line)
    (distinct : (Entries.keys server.headers).Nodup) :
    ∃ closing, (Talk.closing server.noted line).2.world.2 = posts.map (·.2) ++ closing ∧
      (∀ e ∈ closing, ∃ name, sessionAfter posts = some name ∧
        IsClose server.url server.headers name e.sent ∧ Carries server.headers name e.sent) ∧
      closing.length ≤ 1 ∧
      (closing ≠ [] ↔ ∃ name, sessionAfter posts = some name ∧ Http.IsAscii name) := by
  -- A session was named by a reply, so some message was sent with the caller's header fields.
  have writable {name : String} (named : sessionAfter posts = some name) :
      (∃ sent, Http.sentFields (Entries.insert Talk.sessionField name server.headers) = .ok sent) ↔
        Http.IsAscii name := by
    refine close_isOk h.posted ?_ distinct
    rintro rfl
    cases named
  rcases closing_cases server.noted line with
    ⟨none, same⟩ | ⟨name, f, named, refused, -, same⟩ | ⟨name, q, named, isClose, sent⟩
  · refine ⟨[], ?_, List.forall_mem_nil _, Nat.zero_le _, fun none => absurd rfl none, ?_⟩
    · rw [same, h.log, List.append_nil]
    · rintro ⟨name, named, -⟩
      cases none.symm.trans (h.session.trans named)
  · refine ⟨[], ?_, List.forall_mem_nil _, Nat.zero_le _, fun none => absurd rfl none, ?_⟩
    · rw [same, h.log, List.append_nil]
    · rintro ⟨other, known, ascii⟩
      cases named.symm.trans (h.session.trans known)
      exact absurd ((writable known).mpr ascii) refused
  · have known : sessionAfter posts = some name := h.session.symm.trans named
    refine ⟨[⟨q, (server.noted.send q line.world).result⟩], ?_, ?_, Nat.le_refl _,
      fun _ => ⟨name, known, (writable known).mp ⟨_, isClose.headers⟩⟩,
      fun _ => List.cons_ne_nil _ _⟩
    · rw [sent, Line.after, server.noted_log, h.log]
    · exact List.forall_mem_singleton.mpr ⟨name, known, isClose, isClose.carries distinct⟩

/-- Whatever a conversation comes to, the whole of it is as it should be. -/
theorem about_comes (server : Server σ) (tool : String) (args : Value)
    (distinct : (Entries.keys server.headers).Nodup) {line last : Line (σ × List Exchange)}
    {outcome : Except Break Value} {posts : List (Value × Exchange)}
    (came : call server.noted tool args line = (outcome, last)) (held : Held server posts last)
    (inTurn : InTurn tool args posts)
    (comes : Comes server.url server.headers tool args posts outcome) :
    ∃ closing, Conversation server.url server.headers tool args posts closing ∧
      (Talk.about server.noted tool args line).2.world.2 = posts.map (·.2) ++ closing := by
  have hung := comes.eq_hung inTurn
  have carried : ∀ before m e name, before ++ [(m, e)] <+: posts →
      sessionAfter before = some name → Carries server.headers name e.sent :=
    fun _ _ _ _ => held.posted.carries
  -- Where the conversation hangs nothing more is sent; else it is closed, if it can be.
  by_cases hangs : Hung posts
  · have stays : outcome = .error .hung := hung.mpr hangs
    subst stays
    refine ⟨[], ⟨inTurn, comes.ended, held.posted, carried, sessionAfter_isSome,
      List.forall_mem_nil _, Nat.zero_le _, ?_⟩, ?_⟩
    · simp [hangs]
    · rw [about_hung came, held.log, List.append_nil]
  · obtain ⟨closing, log, closes, once, closed⟩ := held.closing distinct
    refine ⟨closing, ⟨inTurn, comes.ended, held.posted, carried, sessionAfter_isSome, closes, once,
      closed.trans (and_iff_left hangs).symm⟩, ?_⟩
    rw [about_closed came (mt hung.mp hangs), ← log]
    rcases Talk.closing server.noted last with ⟨_ | _, _⟩ <;> rfl

/-- A whole conversation is as it should be. -/
theorem about_conversation (server : Server σ) (tool : String) (args : Value)
    (distinct : (Entries.keys server.headers).Nodup) {line : Line (σ × List Exchange)}
    (fresh : Held server [] line) (first : line.nextId = 1) :
    ∃ posts closing, Conversation server.url server.headers tool args posts closing ∧
      (Talk.about server.noted tool args line).2.world.2 = posts.map (·.2) ++ closing := by
  obtain ⟨posts, held, inTurn, comes⟩ := call_comes server tool args fresh first
  exact ⟨posts, about_comes server tool args distinct rfl held inTurn comes⟩

/-- What is exchanged when a tool is called, in order. -/
def exchanged (send : Http.Request → Call σ Http.Response) (url tool : String) (args : Value)
    (headers : Option Value) (world : σ) : List Exchange :=
  (callTool (noted send) url tool args headers (world, [])).world.2

/-- Whatever the server does, a tool is called in a conversation as it should be; where the caller's
header fields are not texts, nothing is sent. -/
theorem callTool_conversation (send : Http.Request → Call σ Http.Response) (world : σ)
    (url tool : String) (args : Value) (headers : Option Value)
    (distinct : ∀ fields, headerFields headers = .ok fields → (Entries.keys fields).Nodup) :
    match headerFields headers with
    | .ok fields => ∃ posts closing, Conversation url fields tool args posts closing ∧
        exchanged send url tool args headers world = posts.map (·.2) ++ closing
    | .error _ => exchanged send url tool args headers world = [] := by
  unfold exchanged callTool
  cases given : headerFields headers with
  | error f => rfl
  | ok fields =>
    exact about_conversation ⟨url, fields, send⟩ tool args (distinct fields given) (.fresh _ world) rfl

/-- A server that names every session alike. -/
def naming (session : String) : Http.Request → Call Unit Http.Response := fun _ =>
  Call.pure { status := 200, headers := [("Mcp-Session-Id", session)], content := [0x7B, 0x7D] }

theorem callTool_conversation_named :
    let headers : Value := .record [("Authorization", .str "Bearer t")]
    (∀ fields, headerFields (some headers) = .ok fields → (Entries.keys fields).Nodup) ∧
      ∃ posts closing, Conversation "https://mcp.test/mcp" [("Authorization", "Bearer t")] "answer"
          (.map []) posts closing ∧
        exchanged (naming "sess-1") "https://mcp.test/mcp" "answer" (.map []) (some headers) () =
          posts.map (·.2) ++ closing := by
  intro headers
  have distinct : ∀ fields, headerFields (some headers) = .ok fields →
      (Entries.keys fields).Nodup := by
    rintro _ ⟨⟩
    decide
  exact ⟨distinct, callTool_conversation (naming "sess-1") () "https://mcp.test/mcp" "answer"
    (.map []) (some headers) distinct⟩

example : (exchanged (naming "sess-1") "https://mcp.test/mcp" "answer" (.map []) none ()).map
    (fun e => (e.sent.method, Entries.get? sentName e.sent.headers)) =
      [("POST", none), ("POST", some "sess-1"), ("POST", some "sess-1"), ("DELETE", some "sess-1")] := by
  decide +kernel

/-- The opening is answered and names a session, but its name cannot be sent: nothing follows, and the
session stays open. -/
theorem callTool_left_open :
    (exchanged (naming "é") "https://mcp.test/mcp" "answer" (.map []) none ()).map
      (fun e => (e.sent.method, e.session?, Except.isOk e.answer)) = [("POST", some "é", true)] := by
  decide +kernel

end Runbook.ToolServer
