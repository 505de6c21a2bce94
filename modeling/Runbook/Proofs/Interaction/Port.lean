import Runbook.Interaction.Queue

/-! A queue, the calls that ask through it, and what a log tells of them.

Of the requests in the queue one that still waits is settled, and one that was settled stays as it
is; asking and settling leave what became of the others alone. A call is suspended from its request
on, and an answer reaches it only when it is given its turn. The log of events tells of each ticket
what became of its request and where its call stands (`Log.Tells`), and each event keeps that so. -/
namespace Runbook.Interaction

namespace Queue

variable {q : Queue} {ticket : Nat}

theorem getElem?_concat {α : Type} (xs : List α) (x : α) (i : Nat) :
    (xs ++ [x])[i]? = if i = xs.length then some x else xs[i]? := by
  rcases Nat.lt_trichotomy i xs.length with inside | rfl | outside
  · rw [List.getElem?_append_left inside, if_neg (Nat.ne_of_lt inside)]
  · rw [List.getElem?_concat_length, if_pos rfl]
  · rw [if_neg (Nat.ne_of_gt outside), List.getElem?_eq_none (Nat.le_of_lt outside)]
    exact List.getElem?_eq_none (by simpa using Nat.succ_le_of_lt outside)

theorem getElem?_set {α : Type} {xs : List α} {x : α} {i : Nat} (there : xs[i]? = some x) (y : α)
    (j : Nat) : (xs.set i y)[j]? = if j = i then some y else xs[j]? := by
  have inside : i < xs.length := (List.getElem?_eq_some_iff.mp there).1
  by_cases same : j = i
  · rw [same, List.getElem?_set_self inside, if_pos rfl]
  · rw [List.getElem?_set_ne (Ne.symm same), if_neg same]

theorem fate?_ask (q : Queue) (request : Request) (u : Nat) :
    (q.ask request).2.fate? u = if u = q.entries.length then some .waiting else q.fate? u := by
  simp only [ask, fate?, getElem?_concat]
  split <;> rfl

theorem isWaiting_iff : q.isWaiting ticket = true ↔ q.fate? ticket = some .waiting := by
  unfold isWaiting
  split <;> simp_all

theorem settle_waiting (waits : q.fate? ticket = some .waiting) (fate : Fate) :
    ∃ q', q.settle ticket fate = (true, q') ∧ q'.taken = q.taken ∧
      q'.entries.map (·.request) = q.entries.map (·.request) ∧
      ∀ u, q'.fate? u = if u = ticket then some fate else q.fate? u := by
  refine ⟨_, if_pos (isWaiting_iff.mpr waits), rfl, ?_, fun u => ?_⟩
  · refine List.ext_getElem? fun u => ?_
    simp only [List.getElem?_map, List.getElem?_modify]
    cases q.entries[u]? with
    | none => rfl
    | some e =>
      simp only [Option.map_eq_map, Option.map_some]
      split <;> rfl
  · simp only [fate?, List.getElem?_modify] at waits ⊢
    by_cases same : u = ticket
    · subst same
      obtain ⟨e, there, -⟩ := Option.map_eq_some_iff.mp waits
      simp [there]
    · simp [same, Ne.symm same]

theorem settle_not_waiting (settled : q.fate? ticket ≠ some .waiting) (fate : Fate) :
    q.settle ticket fate = (false, q) :=
  if_neg fun waits => settled (isWaiting_iff.mp waits)

theorem take_eq_some {ticket : Nat} {request : Request} {q' : Queue}
    (h : q.take = some ((ticket, request), q')) :
    ticket = q.taken ∧ q' = { q with taken := q.taken + 1 } ∧
      (q.entries.map (·.request))[q.taken]? = some request := by
  obtain ⟨e, there, made⟩ := Option.map_eq_some_iff.mp h
  cases made
  exact ⟨rfl, rfl, by rw [List.getElem?_map, there]; rfl⟩

end Queue

/-! ### Calls -/

/-- Where a call that asked stands. -/
inductive Caller
  | suspended
  | returned (response : Option Response)
  /-- It was cancelled before it could return. -/
  | stopped

/-- A queue and the calls that asked through it, by their tickets. -/
structure Port where
  queue : Queue := {}
  callers : List Caller := []

inductive Event
  /-- A call asks and is suspended. -/
  | ask (request : Request)
  | take
  | respond (ticket : Nat) (response : Option Response)
  | cancel (ticket : Nat)
  /-- The call that asked is cancelled. -/
  | abandon (ticket : Nat)
  /-- The call that asked is given its turn. -/
  | resume (ticket : Nat)

/-- What comes of an event; nothing, where it has to wait or comes too late. -/
inductive Answer
  | asked (ticket : Nat)
  | handed (ticket : Nat) (request : Request)
  | told (accepted : Bool)
  | stopped
  | returned (response : Option Response)
  | nothing

/-- The answer that an event passes, with its ticket. -/
def Event.response? : Event → Option (Nat × Option Response)
  | .respond ticket response => some (ticket, response)
  | .cancel ticket => some (ticket, none)
  | _ => none

namespace Port

def tell (p : Port) (ticket : Nat) (response : Option Response) : Answer × Port :=
  let (accepted, queue) := p.queue.respond ticket response
  (.told accepted, { p with queue })

def step (p : Port) : Event → Answer × Port
  | .ask request =>
    let (ticket, queue) := p.queue.ask request
    (.asked ticket, { queue, callers := p.callers ++ [.suspended] })
  | .take =>
    match p.queue.take with
    | some ((ticket, request), queue) => (.handed ticket request, { p with queue })
    | none => (.nothing, p)
  | .respond ticket response => p.tell ticket response
  | .cancel ticket => p.tell ticket none
  | .abandon ticket =>
    match p.callers[ticket]? with
    | some .suspended =>
      (.stopped, { queue := p.queue.abandon ticket, callers := p.callers.set ticket .stopped })
    | _ => (.nothing, p)
  | .resume ticket =>
    match p.callers[ticket]?, p.queue.fate? ticket with
    | some .suspended, some (.answered response) =>
      (.returned response, { p with callers := p.callers.set ticket (.returned response) })
    | _, _ => (.nothing, p)

/-- The log of a schedule, each event with what came of it, and the port behind it. -/
def run (p : Port) : List Event → List (Event × Answer) × Port
  | [] => ([], p)
  | e :: rest => ((e, (p.step e).1) :: ((p.step e).2.run rest).1, ((p.step e).2.run rest).2)

end Port

/-! ### What a log tells -/

namespace Log

variable (log : List (Event × Answer))

/-- The requests that were asked, with their tickets. -/
def asked : List (Nat × Request) :=
  log.filterMap fun
    | (.ask request, .asked ticket) => some (ticket, request)
    | _ => none

def handed : List (Nat × Request) :=
  log.filterMap fun
    | (.take, .handed ticket request) => some (ticket, request)
    | _ => none

/-- The answers that were accepted, with the tickets that they were passed under. -/
def delivered : List (Nat × Option Response) :=
  log.filterMap fun
    | (e, .told true) => e.response?
    | _ => none

def stopped : List Nat :=
  log.filterMap fun
    | (.abandon ticket, .stopped) => some ticket
    | _ => none

def returned : List (Nat × Option Response) :=
  log.filterMap fun
    | (.resume ticket, .returned response) => some (ticket, response)
    | _ => none

variable (more : List (Event × Answer))

@[simp] theorem asked_append : asked (log ++ more) = asked log ++ asked more :=
  List.filterMap_append

@[simp] theorem handed_append : handed (log ++ more) = handed log ++ handed more :=
  List.filterMap_append

@[simp] theorem delivered_append : delivered (log ++ more) = delivered log ++ delivered more :=
  List.filterMap_append

@[simp] theorem stopped_append : stopped (log ++ more) = stopped log ++ stopped more :=
  List.filterMap_append

@[simp] theorem returned_append : returned (log ++ more) = returned log ++ returned more :=
  List.filterMap_append

end Log

/-! ### One ticket -/

/-- What became of a request, and where the call that asked it stands. -/
inductive Fits : Option Queue.Fate → Option Caller → Prop
  | unasked : Fits none none
  | waits : Fits (some .waiting) (some .suspended)
  | answered (response : Option Response) : Fits (some (.answered response)) (some .suspended)
  | returned (response : Option Response) :
    Fits (some (.answered response)) (some (.returned response))
  /-- The answer was accepted, but the call was cancelled before its turn. -/
  | late (response : Option Response) : Fits (some (.answered response)) (some .stopped)
  | abandoned : Fits (some .abandoned) (some .stopped)

theorem Fits.none_iff {fate : Option Queue.Fate} {caller : Option Caller} (h : Fits fate caller) :
    fate = none ↔ caller = none := by
  cases h <;> simp

namespace Log

variable {log : List (Event × Answer)} {t : Nat} {fate : Option Queue.Fate}
  {caller : Option Caller}

/-- A log tells of a ticket what became of its request and where the call stands. -/
structure Tells (log : List (Event × Answer)) (t : Nat) (fate : Option Queue.Fate)
    (caller : Option Caller) : Prop where
  delivered : ∀ x, (t, x) ∈ delivered log ↔ fate = some (.answered x)
  stopped : t ∈ stopped log ↔ caller = some .stopped
  returned : ∀ x, (t, x) ∈ returned log ↔ caller = some (.returned x)
  fits : Fits fate caller

namespace Tells

theorem append (h : Tells log t fate caller) {e : Event × Answer} {fate' : Option Queue.Fate}
    {caller' : Option Caller}
    (delivered : ∀ x, fate = some (.answered x) ∨ (t, x) ∈ Log.delivered [e] ↔
      fate' = some (.answered x))
    (stopped : caller = some .stopped ∨ t ∈ Log.stopped [e] ↔ caller' = some .stopped)
    (returned : ∀ x, caller = some (.returned x) ∨ (t, x) ∈ Log.returned [e] ↔
      caller' = some (.returned x))
    (fits : Fits fate' caller') : Tells (log ++ [e]) t fate' caller' := by
  refine ⟨fun x => ?_, ?_, fun x => ?_, fits⟩
  · rw [delivered_append, List.mem_append, h.delivered]
    exact delivered x
  · rw [stopped_append, List.mem_append, h.stopped]
    exact stopped
  · rw [returned_append, List.mem_append, h.returned]
    exact returned x

/-- An event of which nothing comes for the ticket. -/
theorem other (h : Tells log t fate caller) {e : Event × Answer}
    (delivered : ∀ x, (t, x) ∉ Log.delivered [e]) (stopped : t ∉ Log.stopped [e])
    (returned : ∀ x, (t, x) ∉ Log.returned [e]) : Tells (log ++ [e]) t fate caller :=
  h.append (fun x => or_iff_left (delivered x)) (or_iff_left stopped)
    (fun x => or_iff_left (returned x)) h.fits

/-- An event of which nothing comes for any ticket. -/
theorem silent (h : Tells log t fate caller) {e : Event × Answer}
    (delivered : Log.delivered [e] = []) (stopped : Log.stopped [e] = [])
    (returned : Log.returned [e] = []) : Tells (log ++ [e]) t fate caller :=
  h.other (by simp [delivered]) (by simp [stopped]) (by simp [returned])

theorem asked (h : Tells log t none none) (request : Request) :
    Tells (log ++ [(.ask request, .asked t)]) t (some .waiting) (some .suspended) :=
  h.append (by simp [Log.delivered]) (by simp [Log.stopped]) (by simp [Log.returned]) .waits

theorem answered (h : Tells log t (some .waiting) caller) {e : Event} {x : Option Response}
    (passes : e.response? = some (t, x)) :
    Tells (log ++ [(e, .told true)]) t (some (.answered x)) caller := by
  have suspended : caller = some .suspended := by
    cases h.fits
    rfl
  subst suspended
  exact h.append (by simp [Log.delivered, passes, eq_comm]) (by simp [Log.stopped])
    (by simp [Log.returned]) (.answered x)

/-- A call that is cancelled before its turn does not get an answer that was accepted. -/
theorem stops (h : Tells log t fate (some .suspended)) {fate' : Option Queue.Fate}
    (kept : ∀ x, fate = some (.answered x) ↔ fate' = some (.answered x))
    (fits : Fits fate' (some .stopped)) :
    Tells (log ++ [(.abandon t, .stopped)]) t fate' (some .stopped) :=
  h.append (by simp [Log.delivered, kept]) (by simp [Log.stopped]) (by simp [Log.returned]) fits

theorem returns {x : Option Response} (h : Tells log t (some (.answered x)) (some .suspended)) :
    Tells (log ++ [(.resume t, .returned x)]) t (some (.answered x)) (some (.returned x)) :=
  h.append (by simp [Log.delivered]) (by simp [Log.stopped]) (by simp [Log.returned, eq_comm])
    (.returned x)

end Tells
end Log

end Runbook.Interaction
