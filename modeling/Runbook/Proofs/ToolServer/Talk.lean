import Runbook.Proofs.Json.Writing
import Runbook.Proofs.Results
import Runbook.ToolServer

/-! Steps of conversations with servers of tools.

A message is exchanged or cannot be written, and then nothing happens (`post_cases`). A request also
keeps the session that a reply of success names (`request_cases`), and a session is closed by a
last message (`closing_cases`). Every exchange can be put at the end of a log, and whoever does not
look at the log sees the same conversation (`callTool_noted`). -/
namespace Runbook.ToolServer

variable {σ α β : Type}

/-! ### Actions -/

/-- What an exchange comes to. -/
def outcomeOf : Result α → Except Break α
  | .returned a => .ok a
  | .raised f => .error (.fault f)
  | .hung => .error .hung
  | .cancelled => .error .cancelled

theorem outcomeOf_eq_hung {r : Result α} : outcomeOf r = .error .hung ↔ r = .hung := by
  cases r <;> simp [outcomeOf]

theorem outcomeOf_eq_ok {r : Result α} {a : α} : outcomeOf r = .ok a ↔ r = .returned a := by
  cases r <;> simp [outcomeOf]

/-- A conversation after an exchange. -/
def Line.after (line : Line σ) (reply : Reply σ Http.Response) : Line σ :=
  { line with world := reply.world, fires := line.fires || reply.fires }

namespace Talk

theorem bind_apply (x : Talk σ α) (next : α → Talk σ β) (line : Line σ) :
    (x >>= next) line = match x line with
      | (.ok a, line) => next a line
      | (.error b, line) => (.error b, line) := by
  have opened : (x >>= next) line = ExceptT.bindCont next (x line).1 (x line).2 := rfl
  rw [opened]
  rcases x line with ⟨_ | _, _⟩ <;> rfl

theorem tryCatch_apply (x : Talk σ α) (handle : Break → Talk σ α) (line : Line σ) :
    (tryCatch x handle) line = match x line with
      | (.ok a, line) => (.ok a, line)
      | (.error b, line) => handle b line := by
  show (ExceptT.tryCatch x handle line) = _
  unfold ExceptT.tryCatch ExceptT.mk
  simp only [bind, StateT.bind]
  rcases x line with ⟨_ | _, _⟩ <;> rfl

theorem ofExcept_apply (e : Except Fault α) (line : Line σ) :
    ofExcept e line = (e.mapError .fault, line) := by
  cases e <;> rfl

theorem ofExcept_ok (a : α) (line : Line σ) : ofExcept (.ok a) line = (.ok a, line) := rfl

/-- Header fields with the name of a session, if there is one. -/
def withSession (session : Option String) (fields : List (String × String)) :
    List (String × String) :=
  match session with
  | some name => Entries.insert sessionField name fields
  | none => fields

theorem inSession_apply (fields : List (String × String)) (line : Line σ) :
    inSession fields line = (.ok (withSession line.session fields), line) := by
  have opened : inSession fields line = (match line.session with
      | some name => pure (Entries.insert sessionField name fields)
      | none => pure fields : Talk σ _) line := rfl
  rw [opened]
  cases line.session <;> rfl

theorem exchange_apply (server : Server σ) (q : Http.Request) (line : Line σ) :
    exchange server q line =
      (outcomeOf (server.send q line.world).result, line.after (server.send q line.world)) := by
  unfold exchange
  dsimp only
  cases (server.send q line.world).result <;> rfl

end Talk

/-! ### Messages -/

/-- The fields of every message but the last. -/
def postFields (fields : List (String × String)) : List (String × String) :=
  Entries.merge [("Content-Type", "application/json"),
    ("Accept", "application/json, text/event-stream")] fields

/-- A message as it is sent. -/
structure IsPost (url : String) (fields : List (String × String)) (session : Option String)
    (m : Value) (q : Http.Request) : Prop where
  url : q.url = url
  method : q.method = "POST"
  content : ∃ b, bytesOf m = .ok b ∧ q.content = some b
  headers : Http.sentFields (Talk.withSession session (postFields fields)) = .ok q.headers

/-- A failure that is told as the server's: one that the client has found in a reply, or one that the
transport has reported. -/
def isTold : Fault → Bool
  | .toolServer _ | .transport _ => true
  | _ => false

theorem untold_of_sentFields {fields : List (String × String)} {f : Fault}
    (h : Http.sentFields fields = .error f) : isTold f = false := by
  unfold Http.sentFields at h
  split at h <;> cases h
  rfl

theorem untold_of_bytesOf {m : Value} {f : Fault} (h : bytesOf m = .error f) : isTold f = false := by
  rcases bind_eq_error.mp h with stopped | ⟨text, -, behind⟩
  · rcases Json.render_error stopped with rfl | rfl <;> rfl
  · split at behind <;> cases behind
    rfl

/-- A message is sent, or it cannot be written and nothing happens. -/
theorem post_cases (server : Server σ) (m : Value) (line : Line σ) :
    (∀ q, ¬ IsPost server.url server.headers line.session m q) ∧
        (∃ f, isTold f = false ∧ Talk.post server m line = (.error (.fault f), line)) ∨
      ∃ q, IsPost server.url server.headers line.session m q ∧
        Talk.post server m line =
          (outcomeOf (server.send q line.world).result, line.after (server.send q line.world)) := by
  have opened : Talk.post server m line = (do
      let fields ← Talk.inSession (postFields server.headers)
      let headers ← Talk.ofExcept (Http.sentFields fields)
      let content ← Talk.ofExcept (bytesOf m)
      Talk.exchange server
        { url := server.url, method := "POST", headers, content := some content } : Talk _ _) line := rfl
  rw [opened]
  simp only [Talk.bind_apply, Talk.inSession_apply, Talk.ofExcept_apply]
  cases sent : Http.sentFields (Talk.withSession line.session (postFields server.headers)) with
  | error f =>
    exact .inl ⟨fun q isPost => (nomatch sent.symm.trans isPost.headers), f,
      untold_of_sentFields sent, rfl⟩
  | ok headers =>
    cases written : bytesOf m with
    | error f =>
      refine .inl ⟨fun q isPost => ?_, f, untold_of_bytesOf written, rfl⟩
      obtain ⟨b, ok, -⟩ := isPost.content
      cases written.symm.trans ok
    | ok b =>
      refine .inr ⟨{ url := server.url, method := "POST", headers, content := some b },
        ⟨rfl, rfl, ⟨b, written, rfl⟩, sent⟩, ?_⟩
      exact Talk.exchange_apply server _ line

/-- A request that was sent, and what came of it. -/
structure Exchange where
  sent : Http.Request
  result : Result Http.Response

namespace Exchange

/-- The session that a reply of success names. -/
def session? (e : Exchange) : Option String :=
  match e.result with
  | .returned r =>
    match Talk.checkStatus r with
    | .ok _ => (r.field? "mcp-session-id").filter (!·.isEmpty)
    | .error _ => none
  | _ => none

/-- What a request comes to: the result in a reply of success, if there is no error in it. -/
def answer (e : Exchange) : Except Break Value :=
  match e.result with
  | .returned r => (do Talk.checkStatus r; resultOf (← message r) : Except Fault Value).mapError .fault
  | .raised f => .error (.fault f)
  | .hung => .error .hung
  | .cancelled => .error .cancelled

theorem answer_eq_hung {e : Exchange} : e.answer = .error .hung ↔ e.result = .hung := by
  obtain ⟨q, result⟩ := e
  cases result with
  | returned r =>
    simp only [answer, reduceCtorEq, iff_false]
    intro h
    cases read : (do Talk.checkStatus r; resultOf (← message r) : Except Fault Value) <;>
      rw [read] at h <;> cases h
  | _ => simp [answer]

end Exchange

/-- A request is sent, or it cannot be written and nothing happens but that its number is spent. -/
theorem request_cases (server : Server σ) (method : String) (params : Value) (line : Line σ) :
    (∀ q, ¬ IsPost server.url server.headers line.session (requestMessage line.nextId method params) q) ∧
        (∃ f, isTold f = false ∧ Talk.request server method params line =
          (.error (.fault f), { line with nextId := line.nextId + 1 })) ∨
      ∃ q, IsPost server.url server.headers line.session (requestMessage line.nextId method params) q ∧
        let reply := server.send q line.world
        let e : Exchange := ⟨q, reply.result⟩
        Talk.request server method params line =
          (e.answer, { line.after reply with
            nextId := line.nextId + 1, session := e.session?.or line.session }) := by
  have opened : Talk.request server method params line = (do
      let r ← Talk.post server (requestMessage line.nextId method params)
      Talk.ofExcept (Talk.checkStatus r)
      match (r.field? "mcp-session-id").filter (!·.isEmpty) with
      | some name => modify fun line => { line with session := some name }
      | none => pure ()
      Talk.ofExcept (do resultOf (← message r)) : Talk _ _)
        { line with nextId := line.nextId + 1 } := rfl
  rw [opened, Talk.bind_apply]
  rcases post_cases server (requestMessage line.nextId method params)
    { line with nextId := line.nextId + 1 } with ⟨none, f, own, refused⟩ | ⟨q, isPost, sent⟩
  · exact .inl ⟨none, f, own, by rw [refused]⟩
  · refine .inr ⟨q, isPost, ?_⟩
    rw [sent]
    dsimp only
    cases came : (server.send q line.world).result with
    | returned r =>
      simp only [outcomeOf, Talk.bind_apply, Talk.ofExcept_apply, Exchange.answer, Exchange.session?]
      cases Talk.checkStatus r with
      | error f => rfl
      | ok _ =>
        cases (r.field? "mcp-session-id").filter (!·.isEmpty) with
        | none => exact Talk.ofExcept_apply (do resultOf (← message r)) _
        | some name => exact Talk.ofExcept_apply (do resultOf (← message r)) _
    | _ => rfl

/-! ### The last message -/

/-- The message that closes a session. -/
structure IsClose (url : String) (fields : List (String × String)) (name : String)
    (q : Http.Request) : Prop where
  url : q.url = url
  method : q.method = "DELETE"
  content : q.content = none
  headers : Http.sentFields (Entries.insert Talk.sessionField name fields) = .ok q.headers

theorem closing_apply (server : Server σ) (line : Line σ) :
    Talk.closing server line = if line.session.isSome then (do
      let fields ← Talk.inSession server.headers
      let headers ← Talk.ofExcept (Http.sentFields fields)
      tryCatch (do let _ ← Talk.exchange server { url := server.url, method := "DELETE", headers })
        fun
        | .fault (.transport _) => pure ()
        | b => throw b : Talk σ Unit) line
    else (.ok (), line) := by
  have opened : Talk.closing server line = (if line.session.isSome then (do
      let fields ← Talk.inSession server.headers
      let headers ← Talk.ofExcept (Http.sentFields fields)
      tryCatch (do let _ ← Talk.exchange server { url := server.url, method := "DELETE", headers })
        fun
        | .fault (.transport _) => pure ()
        | b => throw b) else pure () : Talk σ Unit) line := rfl
  rw [opened]
  split <;> rfl

/-- What the last message comes to: that the server was not reached does not count. -/
def closed : Except Break α → Except Break Unit
  | .ok _ | .error (.fault (.transport _)) => .ok ()
  | .error b => .error b

/-- A session is closed unless its name cannot be sent; without a session nothing is. -/
theorem closing_cases (server : Server σ) (line : Line σ) :
    line.session = none ∧ Talk.closing server line = (.ok (), line) ∨
      (∃ name f, line.session = some name ∧
        (¬ ∃ sent, Http.sentFields (Entries.insert Talk.sessionField name server.headers) = .ok sent) ∧
        isTold f = false ∧ Talk.closing server line = (.error (.fault f), line)) ∨
      ∃ name q, line.session = some name ∧ IsClose server.url server.headers name q ∧
        Talk.closing server line =
          (closed (outcomeOf (server.send q line.world).result),
            line.after (server.send q line.world)) := by
  rw [closing_apply]
  cases named : line.session with
  | none => exact .inl ⟨rfl, rfl⟩
  | some name =>
    rw [Option.isSome_some, if_pos rfl]
    simp only [Talk.bind_apply, Talk.inSession_apply, named, Talk.withSession]
    cases written : Http.sentFields (Entries.insert Talk.sessionField name server.headers) with
    | error f =>
      refine .inr (.inl ⟨name, f, rfl, ?_, untold_of_sentFields written, rfl⟩)
      rintro ⟨sent, ok⟩
      cases written.symm.trans ok
    | ok headers =>
      refine .inr (.inr ⟨name, { url := server.url, method := "DELETE", headers }, rfl,
        ⟨rfl, rfl, rfl, written⟩, ?_⟩)
      simp only [Talk.ofExcept_ok, Talk.tryCatch_apply, Talk.bind_apply, Talk.exchange_apply]
      rcases outcomeOf (server.send _ line.world).result with (f | _ | _) | r
      · cases f <;> rfl
      all_goals rfl

/-! ### Whole conversations -/

/-- What is said before the session is closed. -/
def call (server : Server σ) (tool : String) (args : Value) : Talk σ Value := do
  Talk.opening server
  Talk.request server "tools/call" (.record [("name", .str tool), ("arguments", args)])

theorem call_apply (server : Server σ) (tool : String) (args : Value) (line : Line σ) :
    call server tool args line = (match Talk.request server "initialize" openingParams line with
      | (.error b, line) => (.error b, line)
      | (.ok _, line) =>
        match Talk.post server (noticeMessage "notifications/initialized") line with
        | (.error b, line) => (.error b, line)
        | (.ok _, line) =>
          Talk.request server "tools/call" (.record [("name", .str tool), ("arguments", args)]) line) := by
  simp only [call, Talk.opening, Talk.bind_apply]
  rcases Talk.request server "initialize" openingParams line with ⟨_ | _, line⟩
  · rfl
  · dsimp only
    rcases Talk.post server (noticeMessage "notifications/initialized") line with ⟨_ | _, line⟩ <;> rfl

theorem about_apply (server : Server σ) (tool : String) (args : Value) (line : Line σ) :
    Talk.about server tool args line = match call server tool args line with
      | (.error .hung, line) => (.error .hung, line)
      | (outcome, line) =>
        match Talk.closing server line with
        | (.ok (), line) => (outcome.mapError Talk.explained, line)
        | (.error b, line) => (.error b, line) := rfl

theorem about_hung {server : Server σ} {tool : String} {args : Value} {line last : Line σ}
    (h : call server tool args line = (.error .hung, last)) :
    Talk.about server tool args line = (.error .hung, last) := by
  rw [about_apply, h]

/-- A conversation that does not hang is closed. -/
theorem about_closed {server : Server σ} {tool : String} {args : Value} {line last : Line σ}
    {outcome : Except Break Value} (h : call server tool args line = (outcome, last))
    (goes : outcome ≠ .error .hung) :
    Talk.about server tool args line = (match Talk.closing server last with
      | (.ok (), line) => (outcome.mapError Talk.explained, line)
      | (.error b, line) => (.error b, line)) := by
  rw [about_apply, h]
  rcases outcome with (_ | _ | _) | _
  · rfl
  · exact absurd rfl goes
  · rfl
  · rfl

/-! ### Noting what is exchanged -/

/-- Requests are sent as before, and every exchange is noted. -/
def noted (send : Http.Request → Call σ Http.Response) :
    Http.Request → Call (σ × List Exchange) Http.Response := fun q world =>
  let reply := send q world.1
  { world := (reply.world, world.2 ++ [⟨q, reply.result⟩])
    fires := reply.fires
    result := reply.result }

def Server.noted (server : Server σ) : Server (σ × List Exchange) :=
  ⟨server.url, server.headers, ToolServer.noted server.send⟩

theorem Server.noted_log (server : Server σ) (q : Http.Request) (world : σ × List Exchange) :
    (server.noted.send q world).world.2 = world.2 ++ [⟨q, (server.noted.send q world).result⟩] := rfl

/-- A conversation without its log. -/
def Line.plain (line : Line (σ × List Exchange)) : Line σ :=
  ⟨line.world.1, line.fires, line.nextId, line.session⟩

theorem Line.plain_after (server : Server σ) (q : Http.Request) (line : Line (σ × List Exchange)) :
    (line.after (server.noted.send q line.world)).plain =
      line.plain.after (server.send q line.plain.world) := rfl

/-- An action that is another one for whoever does not look at the log. -/
def Erases (x : Talk (σ × List Exchange) α) (y : Talk σ α) : Prop :=
  ∀ line, y line.plain = ((x line).1, (x line).2.plain)

namespace Erases

theorem pure (a : α) : Erases (σ := σ) (Pure.pure a) (Pure.pure a) := fun _ => rfl

theorem throw (b : Break) : Erases (σ := σ) (α := α) (MonadExcept.throw b) (MonadExcept.throw b) :=
  fun _ => rfl

theorem ofExcept (e : Except Fault α) : Erases (σ := σ) (Talk.ofExcept e) (Talk.ofExcept e) :=
  fun line => by rw [Talk.ofExcept_apply, Talk.ofExcept_apply]

theorem bind {x : Talk (σ × List Exchange) α} {y : Talk σ α} {f : α → Talk (σ × List Exchange) β}
    {g : α → Talk σ β} (first : Erases x y) (rest : ∀ a, Erases (f a) (g a)) :
    Erases (x >>= f) (y >>= g) := by
  intro line
  rw [Talk.bind_apply, Talk.bind_apply, first line]
  rcases x line with ⟨_ | a, line⟩
  · rfl
  · exact rest a line

theorem tryCatch {x : Talk (σ × List Exchange) α} {y : Talk σ α}
    {f : Break → Talk (σ × List Exchange) α} {g : Break → Talk σ α} (first : Erases x y)
    (rest : ∀ b, Erases (f b) (g b)) : Erases (tryCatch x f) (tryCatch y g) := by
  intro line
  rw [Talk.tryCatch_apply, Talk.tryCatch_apply, first line]
  rcases x line with ⟨b | _, line⟩
  · exact rest b line
  · rfl

theorem inSession (fields : List (String × String)) :
    Erases (σ := σ) (Talk.inSession fields) (Talk.inSession fields) :=
  fun line => by rw [Talk.inSession_apply, Talk.inSession_apply]; rfl

theorem exchange (server : Server σ) (q : Http.Request) :
    Erases (Talk.exchange server.noted q) (Talk.exchange server q) :=
  fun line => by rw [Talk.exchange_apply, Talk.exchange_apply, Line.plain_after]; rfl

theorem post (server : Server σ) (m : Value) :
    Erases (Talk.post server.noted m) (Talk.post server m) :=
  .bind (.inSession _) fun _ => .bind (.ofExcept _) fun _ => .bind (.ofExcept _) fun _ =>
    .exchange server _

theorem request (server : Server σ) (method : String) (params : Value) :
    Erases (Talk.request server.noted method params) (Talk.request server method params) := by
  refine .bind (fun _ => rfl) fun id => .bind (.post server _) fun r => .bind (.ofExcept _) fun _ => ?_
  dsimp only
  split
  · exact .bind (fun _ => rfl) fun _ => .ofExcept _
  · exact .ofExcept _

theorem call (server : Server σ) (tool : String) (args : Value) :
    Erases (ToolServer.call server.noted tool args) (ToolServer.call server tool args) :=
  .bind (.bind (.request server _ _) fun _ => .bind (.post server _) fun _ => .pure _) fun _ =>
    .request server _ _

theorem closing (server : Server σ) :
    Erases (Talk.closing server.noted) (Talk.closing server) := by
  intro line
  rw [closing_apply, closing_apply]
  by_cases known : line.session.isSome
  · rw [if_pos known, if_pos (show line.plain.session.isSome from known)]
    refine Erases.bind (.inSession _) (fun _ => .bind (.ofExcept _) fun _ => ?_) line
    refine .tryCatch (.bind (.exchange server _) fun _ => .pure _) fun b => ?_
    split
    · exact .pure _
    · exact .throw _
  · rw [if_neg known, if_neg (show ¬ line.plain.session.isSome from known)]

theorem about (server : Server σ) (tool : String) (args : Value) :
    Erases (Talk.about server.noted tool args) (Talk.about server tool args) := by
  intro line
  have called := Erases.call server tool args line
  rcases came : ToolServer.call server.noted tool args line with ⟨outcome, last⟩
  rw [came] at called
  by_cases hangs : outcome = .error .hung
  · subst hangs
    rw [about_hung came, about_hung called]
  · rw [about_closed came hangs, about_closed called hangs, Erases.closing server last]
    rcases Talk.closing server.noted last with ⟨_ | _, _⟩ <;> rfl

end Erases

/-- What a tool gives does not depend on the log, nor does what becomes of the world. -/
theorem callTool_noted (send : Http.Request → Call σ Http.Response) (url tool : String)
    (args : Value) (headers : Option Value) (world : σ) (log : List Exchange) :
    let reply := callTool (noted send) url tool args headers (world, log)
    callTool send url tool args headers world = ⟨reply.world.1, reply.fires, reply.result⟩ := by
  unfold callTool
  cases headerFields headers with
  | error f => rfl
  | ok fields =>
    have same := Erases.about ⟨url, fields, send⟩ tool args { world := (world, log) }
    dsimp only
    rw [show ({ world } : Line σ) = Line.plain { world := (world, log) } from rfl, same]
    rfl

end Runbook.ToolServer
