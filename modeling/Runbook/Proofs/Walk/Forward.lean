import Mathlib.Data.List.Perm.Subperm
import Runbook.Proofs.Run.Pointers
import Runbook.Proofs.Walk.Order

/-! Walks that only go forward.

Where every pointer of a graph names a node behind its own, each way on leads forward: by a branch
that holds or does not, in order, for a dismissed request and for a failure that is passed over. So
the nodes that a walk visits stand in their order and each of them once (`Walks.forward`), and a
walk whose visits end comes to an end (`Walk.exists_walks_forward`). -/
namespace Runbook

open Visit

variable {σ : Type}

/-! ### Graphs -/

namespace Workflow

/-- One node stands before another one in order. -/
def Precedes (w : Workflow) (id other : String) : Prop :=
  ∃ i j, w.indexOf? id = some i ∧ w.indexOf? other = some j ∧ i < j

/-- Every pointer that names a node, and not the end, names one behind its own node. -/
def Forward (w : Workflow) : Prop :=
  ∀ n ∈ w.nodes, ∀ p ∈ n.pointers, ∀ target, p.2 = some target → target ∈ w.ids →
    target = endMark ∨ w.Precedes n.id target

/-- How many nodes there are from a node on; what is no node has none. -/
def ahead (w : Workflow) (id : String) : Nat :=
  match w.indexOf? id with
  | some i => w.nodes.length - i
  | none => 0

variable {w : Workflow} {n : Node} {id other last target : String}

theorem id_of_node? (h : w.node? id = some n) : n.id = id :=
  eq_of_beq (List.find?_some (p := fun n : Node => n.id == id) h)

theorem Precedes.trans (h : w.Precedes id other) (behind : w.Precedes other last) :
    w.Precedes id last := by
  obtain ⟨i, j, first, second, less⟩ := h
  obtain ⟨j', k, second', third, less'⟩ := behind
  cases second.symm.trans second'
  exact ⟨i, k, first, third, Nat.lt_trans less less'⟩

theorem Precedes.ne (h : w.Precedes id other) : id ≠ other := by
  rintro rfl
  obtain ⟨i, j, first, second, less⟩ := h
  cases first.symm.trans second
  exact Nat.lt_irrefl i less

theorem Precedes.mem_ids (h : w.Precedes id other) : id ∈ w.ids := by
  obtain ⟨i, -, first, -⟩ := h
  obtain ⟨inside, same, -⟩ := List.findIdx?_eq_some_iff_getElem.mp first
  exact List.mem_map.mpr ⟨_, List.getElem_mem inside, eq_of_beq same⟩

/-- There are fewer nodes from a later node on, and none from what is no node. -/
theorem ahead_lt (h : target ∈ w.ids → w.Precedes id target) (known : id ∈ w.ids) :
    w.ahead target < w.ahead id := by
  obtain ⟨i, first⟩ : ∃ i, w.indexOf? id = some i := by
    obtain ⟨n, there, same⟩ := List.mem_map.mp known
    refine Option.isSome_iff_exists.mp ?_
    exact List.findIdx?_isSome.trans (List.any_eq_true.mpr ⟨n, there, beq_iff_eq.mpr same⟩)
  have inside : i < w.nodes.length := (List.findIdx?_eq_some_iff_getElem.mp first).1
  rw [ahead, ahead, first]
  cases second : w.indexOf? target with
  | none => exact Nat.sub_pos_of_lt inside
  | some j =>
    obtain ⟨within, same, -⟩ := List.findIdx?_eq_some_iff_getElem.mp second
    have there : target ∈ w.ids := List.mem_map.mpr ⟨_, List.getElem_mem within, eq_of_beq same⟩
    obtain ⟨i', j', first', second', less⟩ := h there
    cases first.symm.trans first'
    cases second.symm.trans second'
    exact Nat.sub_lt_sub_left inside less

/-- The node behind another one in order stands behind it, where no id is given twice. -/
theorem precedes_of_idBehind {nodes : List Node} (distinct : (nodes.map (·.id)).Nodup)
    (h : idBehind id nodes = some target) :
    ∃ i, nodes.findIdx? (·.id == id) = some i ∧ nodes.findIdx? (·.id == target) = some (i + 1) := by
  induction nodes with
  | nil => cases h
  | cons m rest ih =>
    obtain ⟨fresh, distinct'⟩ := List.nodup_cons.mp distinct
    have apart (there : target ∈ rest.map (·.id)) : (m.id == target) = false := by
      refine beq_eq_false_iff_ne.mpr ?_
      rintro rfl
      exact fresh there
    rw [idBehind] at h
    split at h
    · rename_i same
      obtain ⟨next, first, rfl⟩ := Option.map_eq_some_iff.mp h
      obtain ⟨rest, rfl⟩ := List.head?_eq_some_iff.mp first
      refine ⟨0, by rw [List.findIdx?_cons, same]; rfl, ?_⟩
      rw [List.findIdx?_cons, apart (List.mem_cons_self ..), List.findIdx?_cons, beq_self_eq_true]
      rfl
    · rename_i differs
      obtain ⟨i, here, behind⟩ := ih distinct' h
      refine ⟨i + 1, ?_, ?_⟩
      · rw [List.findIdx?_cons, Bool.eq_false_iff.mpr differs, here]
        rfl
      · rw [List.findIdx?_cons, apart (mem_ids_of_idBehind h), behind]
        rfl

theorem precedes_positional (distinct : w.ids.Nodup) (h : w.positional id = some target) :
    w.Precedes id target := by
  obtain ⟨i, here, behind⟩ := precedes_of_idBehind distinct h
  exact ⟨i, i + 1, here, behind, Nat.lt_succ_self i⟩

/-- A pointer, or else the order of the nodes, leads forward. -/
theorem Forward.or (forward : w.Forward) (distinct : w.ids.Nodup) (hn : n ∈ w.nodes)
    {label : String} {p : Option String} (hp : (label, p) ∈ n.pointers)
    (h : (pointed? p).or (w.positional n.id) = some target) (on : target ≠ endMark)
    (known : target ∈ w.ids) : w.Precedes n.id target := by
  cases set : pointed? p with
  | none =>
    rw [set] at h
    exact precedes_positional distinct h
  | some other =>
    rw [set] at h
    cases h
    exact (forward n hn _ hp _ (pointed?_eq_some.mp set).1 known).resolve_left on

/-- Every way on from a node leads forward. -/
theorem Forward.successor (forward : w.Forward) (distinct : w.ids.Nodup) (hn : n ∈ w.nodes)
    {branch : Option Bool} (h : w.successor n branch = some target) (known : target ∈ w.ids) :
    w.Precedes n.id target := by
  obtain ⟨on, ⟨label, p, pointer, way⟩ | ⟨-, -, way⟩⟩ := successor_cases h
  · exact forward.or distinct hn pointer way on known
  · have pointer : ("falseNext", n.falseNext) ∈ n.pointers := by simp [Node.pointers]
    exact (forward n hn _ pointer _ way known).resolve_left on

/-- So does the way on for a dismissed request. -/
theorem Forward.onCancel (forward : w.Forward) (hn : n ∈ w.nodes)
    (h : pointed? n.onCancel = some target) (on : target ≠ endMark) (known : target ∈ w.ids) :
    w.Precedes n.id target := by
  have pointer : ("onCancel", n.onCancel) ∈ n.pointers := by simp [Node.pointers]
  exact (forward n hn _ pointer _ (pointed?_eq_some.mp h).1 known).resolve_left on

end Workflow

/-! ### Steps -/

namespace Walk

variable {w : Walk σ} {place place' : Place} {n : Node} {s : Session σ}

theorem onward_forward (forward : w.workflow.Forward) (distinct : w.workflow.ids.Nodup)
    (hn : n ∈ w.workflow.nodes) {r : Except Halt Visited}
    (h : w.onward place n r = .goOn place') (known : place'.current ∈ w.workflow.ids) :
    w.workflow.Precedes n.id place'.current := by
  rcases onward_goOn h with ⟨x, -, way⟩ | ⟨f, -, ⟨way, on⟩ | way⟩
  · exact forward.successor distinct hn way known
  · exact forward.onCancel hn way on known
  · exact forward.successor distinct hn way known

end Walk

/-! ### Walks -/

/-- Visits at nodes of a graph, each behind the one before, from where a walk stands on. -/
structure Workflow.InTurn (w : Workflow) (p : Progress) (vs : List Station) : Prop where
  ordered : vs.Pairwise fun u v => w.Precedes u.node.id v.node.id
  nodes : ∀ v ∈ vs, v.node ∈ w.nodes
  onward : ∀ place, p = .goOn place → ∀ v ∈ vs,
    v.node.id = place.current ∨ w.Precedes place.current v.node.id

theorem Workflow.InTurn.nil (w : Workflow) (p : Progress) : w.InTurn p [] :=
  ⟨.nil, List.forall_mem_nil _, fun _ _ => List.forall_mem_nil _⟩

namespace Walk

variable {w : Walk σ} {place : Place} {n : Node} {s s₁ s' : Session σ} {r : Except Halt Visited}
  {rest : Trail}

/-- A visit stands before those that the walk makes behind it. -/
theorem precedes_behind (forward : w.workflow.Forward) (distinct : w.workflow.ids.Nodup)
    (hn : n ∈ w.workflow.nodes) (onward : Walks w (w.onward place n r) s₁ rest s')
    (behind : w.workflow.InTurn (w.onward place n r) rest.stations) :
    ∀ v ∈ rest.stations, w.workflow.Precedes n.id v.node.id := by
  intro v hv
  cases way : w.onward place n r with
  | ended e scope =>
    rw [way] at onward
    obtain ⟨rfl, -⟩ := onward.of_ended
    cases hv
  | goOn place' =>
    rcases behind.onward place' way v hv with own | later
    · rw [own]
      refine onward_forward forward distinct hn way (own ▸ ?_)
      exact List.mem_map_of_mem (behind.nodes v hv)
    · exact (onward_forward forward distinct hn way later.mem_ids).trans later

theorem visit_inTurn (forward : w.workflow.Forward) (distinct : w.workflow.ids.Nodup)
    (here : w.workflow.node? place.current = some n)
    (onward : Walks w (w.onward place n r) s₁ rest s')
    (behind : w.workflow.InTurn (w.onward place n r) rest.stations) :
    w.workflow.InTurn (.goOn place) (w.station place n s r :: rest.stations) := by
  have hn := Workflow.mem_of_node? here
  have own := Workflow.id_of_node? here
  have before := precedes_behind forward distinct hn onward behind
  refine ⟨.cons before behind.ordered, List.forall_mem_cons.mpr ⟨hn, behind.nodes⟩, ?_⟩
  rintro _ ⟨⟩
  exact List.forall_mem_cons.mpr ⟨.inl own, fun v hv => .inr (own ▸ before v hv)⟩

end Walk

theorem Walks.inTurn {w : Walk σ} {p : Progress} {s s' : Session σ} {t : Trail}
    (h : Walks w p s t s') (forward : w.workflow.Forward) (distinct : w.workflow.ids.Nodup) :
    w.workflow.InTurn p t.stations := by
  induction h with
  | ended | fired | lost => exact .nil _ _
  | plain quiet here visit onward ih =>
    exact Walk.visit_inTurn forward distinct here onward (ih forward distinct)
  | nested quiet here visit inside onward _ ih =>
    exact Walk.visit_inTurn forward distinct here onward (ih forward distinct)

namespace Workflow.InTurn

variable {w : Workflow} {p : Progress} {vs : List Station}

/-- No node is visited twice. -/
theorem nodup (h : w.InTurn p vs) : (vs.map (·.node.id)).Nodup :=
  List.pairwise_map.mpr (h.ordered.imp Precedes.ne)

/-- There are no more visits than nodes. -/
theorem length_le (h : w.InTurn p vs) : vs.length ≤ w.nodes.length := by
  have among : vs.map (·.node.id) ⊆ w.ids :=
    List.forall_mem_map.mpr fun v hv => List.mem_map_of_mem (h.nodes v hv)
  have fewer := (h.nodup.subperm among).length_le
  rwa [List.length_map, ids, List.length_map] at fewer

end Workflow.InTurn

/-- The visit comes to something: it neither hangs nor runs a workflow that never ends. -/
def Visiting.Ends (v : Visiting σ) : Prop := ∃ r s, v.ComesTo r s ∧ r ≠ .error .unfinished

/-- A walk that only goes forward ends, if its visits do. -/
theorem Walk.exists_walks_forward {w : Walk σ} (forward : w.workflow.Forward)
    (distinct : w.workflow.ids.Nodup) {place : Place} {s : Session σ}
    (ends : ∀ v, w.Comes (.goOn place) s [v] → v.Ends) :
    ∃ t s', Walks w (.goOn place) s t s' ∧ t.ending ≠ .unfinished := by
  induction left : w.workflow.ahead place.current using Nat.strongRecOn generalizing place s with
  | _ left ih =>
    subst left
    cases fired : s.fired with
    | true => exact ⟨_, s, .fired fired, nofun⟩
    | false =>
      cases here : w.workflow.node? place.current with
      | none => exact ⟨_, s, .lost fired here, nofun⟩
      | some n =>
        let v : Visiting σ := ⟨w, place, n, s⟩
        have starts : v.Starts := ⟨fired, here⟩
        have hn := Workflow.mem_of_node? here
        have own := Workflow.id_of_node? here
        obtain ⟨r, s₁, came, ended⟩ := ends v (.here starts)
        have behind : ∃ t s', Walks w (v.onward r) (s₁.leave (v.station r)) t s' ∧
            t.ending ≠ .unfinished := by
          cases way : v.onward r with
          | ended e scope =>
            refine ⟨_, _, .ended, ?_⟩
            rintro rfl
            exact w.onward_ends place n ended scope way
          | goOn place' =>
            have fewer : w.workflow.ahead place'.current < w.workflow.ahead place.current := by
              rw [← own]
              refine Workflow.ahead_lt ?_ (List.mem_map_of_mem hn)
              exact onward_forward forward distinct hn way
            refine ih _ fewer (fun u comes => ends u ?_) rfl
            exact .behind starts came (by rwa [way])
        obtain ⟨rest, s', onward, stops⟩ := behind
        obtain ⟨t, walks, -, ending, -⟩ := came.leads starts onward
        exact ⟨t, s', walks, ending ▸ stops⟩

end Runbook
