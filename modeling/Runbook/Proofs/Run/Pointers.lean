import Runbook.Proofs.Run.Conclusion
import Runbook.Proofs.Visit.Prelude
import Runbook.Proofs.Walk.Isolation

/-! Where a run looks for its nodes.

Every walk of a run is one of an accepted workflow, if the provider returns no others: and there
every way on leads to a node. The exception is the branch that does not hold and has the empty text
for its pointer. A run that takes that way looks for a node that is not there. -/
namespace Runbook

open Visit

variable {σ : Type}

namespace Workflow

/-- Whether the workflow was accepted as the value of some file. -/
def Accepted (w : Workflow) : Prop := ∃ v path, ofValue v path = .ok w

/-- Whether the node is a branch whose pointer counts although it is the empty text, and leads
nowhere. -/
def Misleads (w : Workflow) (n : Node) : Prop :=
  n.isBranch = true ∧ n.falseNext = some "" ∧ "" ∉ w.ids

theorem Accepted.sound {w : Workflow} (h : w.Accepted) : w.fault? = none := by
  obtain ⟨v, path, accepted⟩ := h
  exact fault?_of_ofValue accepted

theorem node?_eq_none {w : Workflow} {id : String} : w.node? id = none ↔ id ∉ w.ids := by
  constructor
  · intro missing there
    have found := isSome_node? there
    rw [missing] at found
    cases found
  · intro unknown
    refine List.find?_eq_none.mpr fun n hn same => unknown ?_
    exact List.mem_map.mpr ⟨n, hn, beq_iff_eq.mp same⟩

/-- Every way on from a node leads to a node of the graph, unless the node is a branch that does not
hold and misleads. -/
theorem successor_known {w : Workflow} (sound : w.fault? = none) {n : Node} (hn : n ∈ w.nodes)
    (branch : Option Bool) :
    (∀ id, w.successor n branch = some id → id ∈ w.ids) ↔
      ¬ (branch = some false ∧ w.Misleads n) := by
  constructor
  · rintro known ⟨rfl, isBranch, empty, unknown⟩
    exact unknown (known "" (successor_empty isBranch empty))
  · intro leads id way
    rcases successor_mem sound hn way with known | ⟨rfl, isBranch, rfl, empty⟩
    · exact known
    · exact Classical.not_not.mp fun unknown => leads ⟨rfl, isBranch, empty, unknown⟩

end Workflow

/-! ### One visit -/

namespace Walk

variable {w : Walk σ} {place place' : Place} {n : Node}

theorem start_known {scope : Scope} (h : w.start scope = .goOn place) :
    place.current ∈ w.workflow.ids := by
  unfold start start? Workflow.entry? at h
  cases nodes : w.workflow.nodes with
  | nil =>
    rw [nodes] at h
    cases h
  | cons n rest =>
    rw [nodes] at h
    cases h
    rw [Workflow.ids, nodes]
    exact List.mem_cons_self ..

theorem follow_goOn {target : Option String} {scope : Scope}
    (h : follow place n target scope = .goOn place') : target = some place'.current := by
  cases target with
  | none => cases h
  | some id => cases h; rfl

/-- A walk that goes on behind a visit follows its node: behind an outcome as the branch says, and
behind a failure to the node's own target for a dismissed request or, where the failure is passed
over, as if there were no branch. -/
theorem onward_follows {r : Except Halt Visited} (h : w.onward place n r = .goOn place') :
    ∃ target scope, follow place n target scope = .goOn place' ∧
      ((∃ x, r = .ok x ∧ w.workflow.successor n x.outcome.branch = target) ∨
        ∃ f, r = .error (.fault f) ∧
          ((∃ id, Workflow.pointed? n.onCancel = some id ∧
              target = if id = Workflow.endMark then none else some id) ∨
            w.workflow.successor n none = target)) := by
  have treats := w.treats place n r
  generalize w.closing? place.scope r = c, w.onward place n r = p at treats h
  cases treats with
  | redirected _ set => exact ⟨_, _, h, .inr ⟨_, rfl, .inl ⟨_, set, rfl⟩⟩⟩
  | passed => exact ⟨_, _, h, .inr ⟨_, rfl, .inr rfl⟩⟩
  | bound => exact ⟨_, _, h, .inl ⟨_, rfl, rfl⟩⟩
  | _ => cases h

theorem onward_goOn {r : Except Halt Visited} (h : w.onward place n r = .goOn place') :
    (∃ x, r = .ok x ∧ w.workflow.successor n x.outcome.branch = some place'.current) ∨
      ∃ f, r = .error (.fault f) ∧
        ((Workflow.pointed? n.onCancel = some place'.current ∧
            place'.current ≠ Workflow.endMark) ∨
          w.workflow.successor n none = some place'.current) := by
  obtain ⟨target, scope, follows, way⟩ := onward_follows h
  obtain rfl := follow_goOn follows
  rcases way with outcome | ⟨f, failed, ⟨id, set, same⟩ | way⟩
  · exact .inl outcome
  · split at same
    · cases same
    · rename_i on
      cases same
      exact .inr ⟨f, failed, .inl ⟨set, on⟩⟩
  · exact .inr ⟨f, failed, .inr way⟩

/-- Behind a visit the walk looks for a node that is not there just where the visit strayed. -/
theorem onward_lost (sound : w.workflow.fault? = none) (hn : n ∈ w.workflow.nodes) {v : Station}
    (node : v.node = n) (h : w.onward place n v.result = .goOn place') :
    w.workflow.node? place'.current = none ↔ v.Strays ∧ "" ∉ w.workflow.ids := by
  subst node
  rw [Workflow.node?_eq_none]
  rcases onward_goOn h with ⟨x, came, way⟩ | ⟨f, failed, way⟩
  · constructor
    · intro unknown
      rcases Workflow.successor_mem sound hn way with known | ⟨empty, isBranch, branch, pointer⟩
      · exact absurd known unknown
      · exact ⟨⟨x, came, isBranch, branch, pointer⟩, empty ▸ unknown⟩
    · rintro ⟨⟨y, came', isBranch, branch, pointer⟩, unknown⟩
      cases came.symm.trans came'
      rw [branch, Workflow.successor_empty isBranch pointer] at way
      rwa [← Option.some.inj way]
  · have known : place'.current ∈ w.workflow.ids := by
      rcases way with ⟨set, on⟩ | way
      · exact Workflow.onCancel_mem sound hn set on
      · exact successor_known sound hn _ way
    refine ⟨fun unknown => absurd known unknown, ?_⟩
    rintro ⟨⟨x, came, -⟩, -⟩
    cases failed.symm.trans came

end Walk

/-! ### Walks -/

/-- The provider returns no workflow that was not accepted. -/
def Providers.FindsAccepted (p : Providers σ) : Prop :=
  ∀ find, p.workflows = some find → ∀ path name world w,
    (find path name world).result = .returned w → w.Accepted

theorem Visiting.descends_accepted {v : Visiting σ} (finds : v.walk.providers.FindsAccepted)
    {d : Descent σ} {s : Session σ} (visit : v.prelude = (.descends d, s)) :
    d.workflow.Accepted := by
  obtain ⟨nested, properties, filled, -⟩ := prelude_descends visit
  rw [v.prelude_eq_descend nested filled] at visit
  split at visit
  · rename_i descended
    cases visit
    obtain ⟨-, find, -, given, found, -⟩ := descend_eq_ok.mp descended
    exact finds find given _ _ _ _ found
  · cases visit

namespace Walk

/-- The walks, and the places on them, at which a node is looked for from where a walk stands. The
token, once it has fired, turns a walk back before it looks. -/
inductive LooksAt : Walk σ → Progress → Session σ → Walk σ → Place → Prop
  | here {w : Walk σ} {place : Place} {s : Session σ} (quiet : s.fired = false) :
    LooksAt w (.goOn place) s w place
  | inside {v : Visiting σ} {d : Descent σ} {s₁ : Session σ} {u : Walk σ} {place : Place}
    (starts : v.Starts) (visit : v.prelude = (.descends d, s₁))
    (within : LooksAt (v.inside d.workflow) ((v.inside d.workflow).start d.inputs) s₁ u place) :
    LooksAt v.walk (.goOn v.place) v.session u place
  | behind {v : Visiting σ} {r : Except Halt Visited} {s₁ : Session σ} {u : Walk σ} {place : Place}
    (starts : v.Starts) (came : v.ComesTo r s₁)
    (onward : LooksAt v.walk (v.onward r) (s₁.leave (v.station r)) u place) :
    LooksAt v.walk (.goOn v.place) v.session u place

/-- A walk comes to a visit that strays, and goes on to a place from there. -/
def StraysTo (w : Walk σ) (p : Progress) (s : Session σ) (u : Walk σ) (place : Place) : Prop :=
  ∃ vs v r s₁, w.Comes p s vs ∧ vs.getLast? = some v ∧ v.ComesTo r s₁ ∧ v.walk = u ∧
    v.onward r = .goOn place ∧ (s₁.leave (v.station r)).fired = false ∧
    (v.station r).Strays ∧ "" ∉ u.workflow.ids

/-- A node that is not there is looked for where the walk stands already, or where a visit strays
to. -/
theorem LooksAt.lost {w u : Walk σ} {p : Progress} {s : Session σ} {place : Place}
    (h : w.LooksAt p s u place) (accepted : w.workflow.Accepted)
    (finds : w.providers.FindsAccepted) (missing : u.workflow.node? place.current = none) :
    (u = w ∧ p = .goOn place ∧ s.fired = false) ∨ w.StraysTo p s u place := by
  induction h with
  | here quiet => exact .inl ⟨rfl, rfl, quiet⟩
  | @inside v d s₁ u place starts visit within ih =>
    rcases ih (Visiting.descends_accepted finds visit) finds missing with ⟨rfl, begins, -⟩ | strays
    · exact absurd (start_known begins) (Workflow.node?_eq_none.mp missing)
    · obtain ⟨vs, x, r, s', comes, last, came⟩ := strays
      exact .inr ⟨v :: vs, x, r, s', .inside starts visit comes, by rwa [comes.getLast?_cons], came⟩
  | @behind v r s₁ u place starts came onward ih =>
    rcases ih accepted finds missing with ⟨rfl, goes, quiet⟩ | strays
    · have found := Workflow.mem_of_node? starts.here
      have way : v.walk.onward v.place v.node (v.station r).result = .goOn place := goes
      obtain ⟨strays, unknown⟩ := (onward_lost accepted.sound found rfl way).mp missing
      exact .inr ⟨[v], v, r, s₁, .here starts, rfl, came, rfl, goes, quiet, strays, unknown⟩
    · obtain ⟨vs, x, r, s', comes, more⟩ := strays
      exact .inr ⟨vs, x, r, s', .behind starts came comes, more⟩

/-- Where a visit strays to, there is no node. -/
theorem StraysTo.lost {w u : Walk σ} {p : Progress} {s : Session σ} {place : Place}
    (h : w.StraysTo p s u place) : u.workflow.node? place.current = none := by
  obtain ⟨-, v, r, s₁, -, -, -, rfl, goes, -, ⟨x, came, isBranch, branch, pointer⟩, unknown⟩ := h
  have came : r = .ok x := came
  have empty : v.walk.workflow.successor v.node (some false) = some "" :=
    Workflow.successor_empty isBranch pointer
  subst came
  rcases onward_goOn goes with ⟨y, same, way⟩ | ⟨f, failed, -⟩
  · cases same
    rw [branch, empty] at way
    rw [← Option.some.inj way]
    exact Workflow.node?_eq_none.mpr unknown
  · cases failed

end Walk

/-! ### Runs -/

namespace Start

/-- The walks of a run, and the places on them, at which it looks for a node. -/
def LooksAt (r : Start σ) (world : σ) (u : Walk σ) (place : Place) : Prop :=
  r.outermost.LooksAt (r.outermost.start ⟨r.bindings⟩) (r.session world) u place

/-- In an accepted workflow every node leads to nodes, also for a dismissed request, but for the
branch that misleads. So a run looks for a node that is not there in no case but one: a walk goes on
there from such a branch, which did not hold. -/
theorem run_leads {r : Start σ} (accepted : r.workflow.Accepted)
    (finds : r.providers.FindsAccepted) :
    (∀ w : Workflow, w.Accepted → ∀ n ∈ w.nodes,
      (∀ branch, (∀ id, w.successor n branch = some id → id ∈ w.ids) ↔
        ¬ (branch = some false ∧ w.Misleads n)) ∧
      ∀ id, Workflow.pointed? n.onCancel = some id → id ≠ Workflow.endMark → id ∈ w.ids) ∧
    ∀ world u place, r.LooksAt world u place →
      (u.workflow.node? place.current = none ↔
        r.outermost.StraysTo (r.outermost.start ⟨r.bindings⟩) (r.session world) u place) := by
  refine ⟨fun w h n hn => ⟨Workflow.successor_known h.sound hn,
    fun id => Workflow.onCancel_mem h.sound hn⟩, fun world u place looks => ⟨?_, (·.lost)⟩⟩
  intro missing
  rcases Walk.LooksAt.lost looks accepted finds missing with ⟨rfl, begins, -⟩ | strays
  · exact absurd (Walk.start_known begins) (Workflow.node?_eq_none.mp missing)
  · exact strays

/-- What `found` returns is accepted as it is written. -/
theorem found_accepted : (recordsOnly found).FindsAccepted := by
  rintro find given path name world w returned
  cases given
  cases returned
  refine ⟨written [("id", .str "x"), ("type", .str "variable"), ("name", .str "x"),
    ("value", .str "")], none, ?_⟩
  with_unfolding_all rfl

theorem run_leads_calling :
    (handing calling found).workflow.Accepted ∧ (handing calling found).providers.FindsAccepted ∧
      (∀ w : Workflow, w.Accepted → ∀ n ∈ w.nodes,
        (∀ branch, (∀ id, w.successor n branch = some id → id ∈ w.ids) ↔
          ¬ (branch = some false ∧ w.Misleads n)) ∧
        ∀ id, Workflow.pointed? n.onCancel = some id → id ≠ Workflow.endMark → id ∈ w.ids) ∧
      ∀ world u place, (handing calling found).LooksAt world u place →
        (u.workflow.node? place.current = none ↔
          (handing calling found).outermost.StraysTo ((handing calling found).outermost.start ⟨[]⟩)
            ((handing calling found).session world) u place) := by
  have accepted : (handing calling found).workflow.Accepted :=
    ⟨writtenCalling, none, by with_unfolding_all rfl⟩
  exact ⟨accepted, found_accepted, run_leads accepted found_accepted⟩

/-- An accepted workflow with a node whose way on leads to no node of it, and a run of that
workflow, which ends in looking for one. -/
theorem successor_strays :
    (handing straying found).workflow.Accepted ∧
      straying ∈ (handing straying found).workflow.nodes ∧
      (handing straying found).workflow.successor straying (some false) = some "" ∧
      (handing straying found).workflow.node? "" = none ∧
      ((handing straying found).run 2 []).1 = .raised (.noSuchKey "") := by
  refine ⟨⟨written [("id", .str "c"), ("type", .str "if"), ("condition", .str "false"),
    ("falseNext", .str "")], none, ?_⟩, List.mem_singleton_self _, rfl, rfl, rfl⟩
  with_unfolding_all rfl

end Start
end Runbook
