import Runbook.Proofs.Interaction.Port

/-! The queue under any schedule.

Any number of calls ask through one queue while others take requests from it, answer them, dismiss
them or cancel the calls that asked, in any order.

The requests are handed out once each, in the order in which they were asked. An answer is accepted
while the call still waits for its first one, and a call that returns gives the first answer that
was accepted under its own ticket (`Port.run_delivers`). -/
namespace Runbook.Interaction

namespace Port

/-- What a log tells is how a port stands. -/
structure Agrees (p : Port) (log : List (Event × Answer)) : Prop where
  asked : Log.asked log = (p.queue.entries.map (·.request)).zipIdx.map Prod.swap
  handed : Log.handed log = (Log.asked log).take p.queue.taken
  within : p.queue.taken ≤ p.queue.entries.length
  once : ((Log.delivered log).map (·.1)).Nodup
  tells : ∀ t, Log.Tells log t (p.queue.fate? t) p.callers[t]?

theorem agrees_new : Agrees {} [] where
  asked := rfl
  handed := rfl
  within := Nat.le_refl 0
  once := .nil
  tells _ := ⟨fun _ => ⟨nofun, nofun⟩, ⟨nofun, nofun⟩, fun _ => ⟨nofun, nofun⟩, .unasked⟩

/-! ### One event -/

namespace Agrees

variable {p : Port} {log : List (Event × Answer)}

theorem length (h : p.Agrees log) : p.callers.length = p.queue.entries.length := by
  have bound (t : Nat) : p.callers.length ≤ t ↔ p.queue.entries.length ≤ t := by
    rw [← List.getElem?_eq_none_iff, ← List.getElem?_eq_none_iff, ← (h.tells t).fits.none_iff]
    exact Option.map_eq_none_iff
  exact Nat.le_antisymm ((bound _).mpr (Nat.le_refl _)) ((bound _).mp (Nat.le_refl _))

/-- An event by which no answer is accepted. -/
theorem once_append (h : p.Agrees log) {e : Event × Answer} (delivers : Log.delivered [e] = []) :
    ((Log.delivered (log ++ [e])).map (·.1)).Nodup := by
  rw [Log.delivered_append, delivers, List.append_nil]
  exact h.once

/-- An event for a ticket that leaves the queue of requests as it is. -/
theorem settled (h : p.Agrees log) {p' : Port} {e : Event × Answer}
    (requests : p'.queue.entries.map (·.request) = p.queue.entries.map (·.request))
    (taken : p'.queue.taken = p.queue.taken) (asks : Log.asked [e] = [])
    (hands : Log.handed [e] = []) (once : ((Log.delivered (log ++ [e])).map (·.1)).Nodup)
    (tells : ∀ t, Log.Tells (log ++ [e]) t (p'.queue.fate? t) p'.callers[t]?) :
    p'.Agrees (log ++ [e]) := by
  have asked : Log.asked (log ++ [e]) = Log.asked log := by
    rw [Log.asked_append, asks, List.append_nil]
  have length : p'.queue.entries.length = p.queue.entries.length := by
    simpa using congrArg List.length requests
  refine ⟨?_, ?_, ?_, once, tells⟩
  · rw [asked, requests]
    exact h.asked
  · rw [Log.handed_append, hands, List.append_nil, asked, taken]
    exact h.handed
  · rw [taken, length]
    exact h.within

/-- An event of which nothing comes. -/
theorem same (h : p.Agrees log) (e : Event) {a : Answer} (nothing : a = .nothing ∨ a = .told false) :
    p.Agrees (log ++ [(e, a)]) := by
  have told : Log.asked [(e, a)] = [] ∧ Log.handed [(e, a)] = [] ∧ Log.delivered [(e, a)] = [] ∧
      Log.stopped [(e, a)] = [] ∧ Log.returned [(e, a)] = [] := by
    rcases nothing with rfl | rfl <;> cases e <;> exact ⟨rfl, rfl, rfl, rfl, rfl⟩
  obtain ⟨asks, hands, delivers, stops, returns⟩ := told
  exact h.settled rfl rfl asks hands (h.once_append delivers)
    fun t => (h.tells t).silent delivers stops returns

theorem ask (h : p.Agrees log) (request : Request) :
    (p.step (.ask request)).2.Agrees (log ++ [(.ask request, (p.step (.ask request)).1)]) := by
  let n := p.queue.entries.length
  let e : Event × Answer := (.ask request, .asked n)
  show Port.Agrees { queue := (p.queue.ask request).2, callers := p.callers ++ [.suspended] }
    (log ++ [e])
  have asked : Log.asked (log ++ [e]) = Log.asked log ++ [(n, request)] := Log.asked_append ..
  have handed : Log.handed (log ++ [e]) = Log.handed log :=
    (Log.handed_append ..).trans (List.append_nil _)
  refine ⟨?_, ?_, Nat.le_trans h.within (by simp [Queue.ask]), h.once_append rfl, fun t => ?_⟩
  · rw [asked, h.asked]
    simp [Queue.ask, List.zipIdx_append, n]
  · have enough : p.queue.taken ≤ (Log.asked log).length := by simpa [h.asked] using h.within
    rw [handed, asked, h.handed, Queue.ask, List.take_append_of_le_length enough]
  · rw [Queue.fate?_ask, Queue.getElem?_concat, h.length]
    have before := h.tells t
    by_cases new : t = n
    · subst new
      have noCaller : p.callers[n]? = none := List.getElem?_eq_none (Nat.le_of_eq h.length)
      have noFate : p.queue.fate? n = none := before.fits.none_iff.mpr noCaller
      rw [noCaller, noFate] at before
      rw [if_pos rfl, if_pos rfl]
      exact before.asked request
    · rw [if_neg new, if_neg new]
      exact before.silent rfl rfl rfl

theorem take (h : p.Agrees log) :
    (p.step .take).2.Agrees (log ++ [(.take, (p.step .take).1)]) := by
  simp only [Port.step]
  cases taken : p.queue.take with
  | none => exact h.same .take (.inl rfl)
  | some out =>
    obtain ⟨⟨ticket, request⟩, queue⟩ := out
    obtain ⟨rfl, rfl, there⟩ := Queue.take_eq_some taken
    let e : Event × Answer := (.take, .handed p.queue.taken request)
    have asked : Log.asked (log ++ [e]) = Log.asked log :=
      (Log.asked_append ..).trans (List.append_nil _)
    have handed : Log.handed (log ++ [e]) = Log.handed log ++ [(p.queue.taken, request)] :=
      Log.handed_append ..
    have next : (Log.asked log)[p.queue.taken]? = some (p.queue.taken, request) := by
      simp [h.asked, List.getElem?_zipIdx, there]
    refine ⟨asked ▸ h.asked, ?_, ?_, h.once_append rfl, fun t => (h.tells t).silent rfl rfl rfl⟩
    · show Log.handed (log ++ [e]) = (Log.asked (log ++ [e])).take (p.queue.taken + 1)
      rw [asked, handed, h.handed, List.take_add_one, next]
      rfl
    · have inside := (List.getElem?_eq_some_iff.mp there).1
      simpa using Nat.succ_le_of_lt inside

theorem tell (h : p.Agrees log) {e : Event} {t : Nat} {x : Option Response}
    (passes : e.response? = some (t, x)) :
    (p.tell t x).2.Agrees (log ++ [(e, (p.tell t x).1)]) := by
  unfold Port.tell Queue.respond
  by_cases waits : p.queue.fate? t = some .waiting
  · obtain ⟨q, accepted, taken, requests, fate⟩ := Queue.settle_waiting waits (.answered x)
    have delivers : Log.delivered [(e, .told true)] = [(t, x)] := by simp [Log.delivered, passes]
    rw [accepted]
    refine h.settled requests taken ?_ ?_ ?_ fun u => ?_
    · cases e <;> rfl
    · cases e <;> rfl
    · rw [Log.delivered_append, delivers, List.map_append, List.nodup_append]
      refine ⟨h.once, List.pairwise_singleton .., fun u known v new => ?_⟩
      obtain ⟨⟨u, y⟩, there, rfl⟩ := List.mem_map.mp known
      cases List.mem_singleton.mp new
      rintro rfl
      cases waits.symm.trans (((h.tells u).delivered y).mp there)
    · have before := h.tells u
      rw [fate]
      by_cases same : u = t
      · subst same
        rw [waits] at before
        rw [if_pos rfl]
        exact before.answered passes
      · rw [if_neg same]
        refine before.other (fun y told => ?_) ?_ ?_
        · rw [delivers] at told
          cases List.mem_singleton.mp told
          exact same rfl
        · cases e <;> exact List.not_mem_nil
        · cases e <;> exact fun _ => List.not_mem_nil
  · rw [Queue.settle_not_waiting waits]
    exact h.same e (.inr rfl)

theorem stops (h : p.Agrees log) {t : Nat} (suspended : p.callers[t]? = some .suspended)
    {q : Queue} (requests : q.entries.map (·.request) = p.queue.entries.map (·.request))
    (taken : q.taken = p.queue.taken) {fate : Option Queue.Fate}
    (fates : ∀ u, q.fate? u = if u = t then fate else p.queue.fate? u)
    (kept : ∀ x, p.queue.fate? t = some (.answered x) ↔ fate = some (.answered x))
    (fits : Fits fate (some .stopped)) :
    Port.Agrees { queue := q, callers := p.callers.set t .stopped }
      (log ++ [(.abandon t, .stopped)]) := by
  refine h.settled requests taken rfl rfl (h.once_append rfl) fun u => ?_
  have before := h.tells u
  rw [fates, Queue.getElem?_set suspended]
  by_cases same : u = t
  · subst same
    rw [suspended] at before
    rw [if_pos rfl, if_pos rfl]
    exact before.stops kept fits
  · rw [if_neg same, if_neg same]
    exact before.other (fun _ => List.not_mem_nil) (by simpa [Log.stopped] using same)
      fun _ => List.not_mem_nil

theorem abandon (h : p.Agrees log) (t : Nat) :
    (p.step (.abandon t)).2.Agrees (log ++ [(.abandon t, (p.step (.abandon t)).1)]) := by
  simp only [Port.step]
  split
  · rename_i suspended
    have here := (h.tells t).fits
    rw [suspended] at here
    cases fate : p.queue.fate? t with
    | none => cases fate ▸ here
    | some f =>
      rw [fate] at here
      cases here with
      | waits =>
        obtain ⟨q, settled, taken, requests, fates⟩ := Queue.settle_waiting fate .abandoned
        have left : p.queue.abandon t = q := congrArg Prod.snd settled
        rw [left]
        refine h.stops suspended requests taken fates (fun x => ?_) .abandoned
        simp [fate]
      | answered x =>
        -- The queue keeps the answer, but the call that was to get it is gone.
        have left : p.queue.abandon t = p.queue :=
          congrArg Prod.snd (Queue.settle_not_waiting (by simp [fate]) _)
        rw [left]
        refine h.stops suspended rfl rfl (fun u => ?_) (fun y => ?_) (.late x)
        · split <;> simp_all
        · rw [fate]
  · exact h.same _ (.inl rfl)

theorem resume (h : p.Agrees log) (t : Nat) :
    (p.step (.resume t)).2.Agrees (log ++ [(.resume t, (p.step (.resume t)).1)]) := by
  simp only [Port.step]
  split
  · rename_i x suspended fate
    refine h.settled rfl rfl rfl rfl (h.once_append rfl) fun u => ?_
    have before := h.tells u
    rw [Queue.getElem?_set suspended]
    by_cases same : u = t
    · subst same
      rw [if_pos rfl, fate]
      rw [suspended, fate] at before
      exact before.returns
    · rw [if_neg same]
      refine before.other (fun _ => List.not_mem_nil) List.not_mem_nil fun y told => ?_
      cases List.mem_singleton.mp told
      exact same rfl
  · exact h.same _ (.inl rfl)

theorem step (h : p.Agrees log) (e : Event) :
    (p.step e).2.Agrees (log ++ [(e, (p.step e).1)]) := by
  cases e with
  | ask request => exact h.ask request
  | take => exact h.take
  | respond t x => exact h.tell (e := .respond t x) rfl
  | cancel t => exact h.tell (e := .cancel t) rfl
  | abandon t => exact h.abandon t
  | resume t => exact h.resume t

theorem run (h : p.Agrees log) (events : List Event) :
    (p.run events).2.Agrees (log ++ (p.run events).1) := by
  induction events generalizing p log with
  | nil =>
    rw [Port.run, List.append_nil]
    exact h
  | cons e rest ih =>
    have behind := ih (h.step e)
    rwa [List.append_assoc] at behind

/-! ### What an event is answered -/

theorem length_asked (h : p.Agrees log) : (Log.asked log).length = p.queue.entries.length := by
  simp [h.asked]

theorem length_handed (h : p.Agrees log) : (Log.handed log).length = p.queue.taken := by
  rw [h.handed, List.length_take, h.length_asked, Nat.min_eq_left h.within]

theorem tickets (h : p.Agrees log) :
    (Log.asked log).map (·.1) = List.range (Log.asked log).length := by
  rw [h.length_asked, h.asked, List.map_map, List.range_eq_range']
  exact (List.zipIdx_map_snd ..).trans (by rw [List.length_map])

theorem mem_tickets (h : p.Agrees log) (t : Nat) :
    t ∈ (Log.asked log).map (·.1) ↔ p.queue.fate? t ≠ none := by
  rw [h.tickets, List.mem_range, h.length_asked, Ne, Queue.fate?, Option.map_eq_none_iff,
    List.getElem?_eq_none_iff, Nat.not_le]

theorem mem_delivered (h : p.Agrees log) (t : Nat) :
    t ∈ (Log.delivered log).map (·.1) ↔ ∃ x, p.queue.fate? t = some (.answered x) := by
  simp [(h.tells t).delivered]

theorem mem_returned (h : p.Agrees log) (t : Nat) :
    t ∈ (Log.returned log).map (·.1) ↔ ∃ x, p.callers[t]? = some (.returned x) := by
  simp [(h.tells t).returned]

/-- The first answer that was accepted under a ticket is what became of its request. -/
theorem find_delivered (h : p.Agrees log) (t : Nat) (x : Option Response) :
    (Log.delivered log).find? (·.1 == t) = some (t, x) ↔
      p.queue.fate? t = some (.answered x) := by
  constructor
  · exact fun found => ((h.tells t).delivered x).mp (List.mem_of_find?_eq_some found)
  · intro fate
    have there : (t, x) ∈ Log.delivered log := ((h.tells t).delivered x).mpr fate
    cases found : (Log.delivered log).find? (·.1 == t) with
    | none => exact absurd (beq_self_eq_true t) (List.find?_eq_none.mp found _ there)
    | some y =>
      obtain ⟨u, y⟩ := y
      have own : (u == t) = true :=
        List.find?_some (p := fun y : Nat × Option Response => y.1 == t) found
      cases eq_of_beq own
      have other := ((h.tells t).delivered y).mp (List.mem_of_find?_eq_some found)
      cases fate.symm.trans other
      rfl

theorem answer_take (h : p.Agrees log) :
    (p.step .take).1 = match (Log.asked log)[(Log.handed log).length]? with
      | some (ticket, request) => .handed ticket request
      | none => .nothing := by
  have next : (Log.asked log)[p.queue.taken]? =
      p.queue.entries[p.queue.taken]?.map fun e => (p.queue.taken, e.request) := by
    simp [h.asked, List.getElem?_zipIdx, Function.comp_def]
  rw [h.length_handed, next]
  simp only [Port.step, Queue.take]
  cases p.queue.entries[p.queue.taken]? <;> rfl

theorem answer_tell (h : p.Agrees log) {e : Event} {t : Nat} {x : Option Response}
    (passes : e.response? = some (t, x)) :
    ∃ accepted, (p.step e).1 = .told accepted ∧
      (accepted = true ↔ t ∈ (Log.asked log).map (·.1) ∧ t ∉ (Log.delivered log).map (·.1) ∧
        t ∉ Log.stopped log) := by
  have told : (p.step e).1 = .told (p.queue.respond t x).1 := by
    cases e <;> cases passes <;> rfl
  have accepts : (p.queue.respond t x).1 = true ↔ p.queue.fate? t = some .waiting := by
    unfold Queue.respond
    by_cases waits : p.queue.fate? t = some .waiting
    · obtain ⟨q, settled, -⟩ := Queue.settle_waiting waits (.answered x)
      simp [settled, waits]
    · simp [Queue.settle_not_waiting waits, waits]
  refine ⟨_, told, ?_⟩
  have fits := (h.tells t).fits
  rw [accepts, h.mem_tickets, h.mem_delivered, (h.tells t).stopped]
  generalize p.queue.fate? t = fate, p.callers[t]? = caller at fits ⊢
  cases fits <;> simp

theorem answer_abandon (h : p.Agrees log) (t : Nat) :
    (p.step (.abandon t)).1 = .stopped ↔ t ∈ (Log.asked log).map (·.1) ∧ t ∉ Log.stopped log ∧
      t ∉ (Log.returned log).map (·.1) := by
  have stops : (p.step (.abandon t)).1 = .stopped ↔ p.callers[t]? = some .suspended := by
    simp only [Port.step]
    split <;> simp_all
  have fits := (h.tells t).fits
  rw [stops, h.mem_tickets, h.mem_returned, (h.tells t).stopped]
  generalize p.queue.fate? t = fate, p.callers[t]? = caller at fits ⊢
  cases fits <;> simp

theorem answer_resume (h : p.Agrees log) (t : Nat) (x : Option Response) :
    (p.step (.resume t)).1 = .returned x ↔
      (Log.delivered log).find? (·.1 == t) = some (t, x) ∧ t ∉ Log.stopped log ∧
        t ∉ (Log.returned log).map (·.1) := by
  have returns : (p.step (.resume t)).1 = .returned x ↔
      p.callers[t]? = some .suspended ∧ p.queue.fate? t = some (.answered x) := by
    simp only [Port.step]
    split <;> simp_all
  have fits := (h.tells t).fits
  rw [returns, h.find_delivered, h.mem_returned, (h.tells t).stopped]
  generalize p.queue.fate? t = fate, p.callers[t]? = caller at fits ⊢
  cases fits <;> simp

end Agrees

/-! ### Every schedule -/

theorem run_split {p : Port} {events : List Event} {before after : List (Event × Answer)}
    {e : Event} {a : Answer} (h : (p.run events).1 = before ++ (e, a) :: after) :
    ∃ first, (p.run first).1 = before ∧ ((p.run first).2.step e).1 = a := by
  induction events generalizing p before with
  | nil => simp [run] at h
  | cons d rest ih =>
    cases before with
    | nil =>
      cases h
      exact ⟨[], rfl, rfl⟩
    | cons first before =>
      obtain ⟨here, behind⟩ := List.cons.inj h
      subst here
      obtain ⟨first, same, answered⟩ := ih behind
      exact ⟨d :: first, congrArg _ same, answered⟩

open Log

/-- Two calls are answered in the other order, and the one that is dismissed is not answered any
more. -/
example :
    let first : Request := { kind := .confirm }
    let second : Request := { kind := .dialog }
    let log := (run {} [.ask first, .ask second, .take, .take, .respond 1 (some default), .cancel 0,
      .respond 0 (some default), .resume 0, .resume 1]).1
    handed log = [(0, first), (1, second)] ∧
      returned log = [(0, none), (1, some default)] := ⟨rfl, rfl⟩

end Port
end Runbook.Interaction
