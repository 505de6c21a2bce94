import Runbook.Workflow.Loading

/-! Sound graphs and where their pointers lead.

In a graph without fault every way on leads to a node of the graph, with one exception: the
pointer of a branch that does not hold counts also where it is the empty text. `Sound` says what
such a graph is without regard to how faults are looked for: it has nodes, no two with one id, and
every pointer that is set leads to a node of it or to the end. -/
namespace Runbook.Workflow

theorem fault?_of_ofValue {v : Value} {path : Option String} {w : Workflow}
    (h : ofValue v path = .ok w) : w.fault? = none := by
  unfold ofValue at h
  split at h
  · split at h
    · rename_i raws _
      rcases nodes : nodesOfValues 1 raws with f | nodes <;> rw [nodes] at h
      · cases h
      · simp only [bind, Except.bind] at h
        split at h
        · cases h
        · split at h
          · cases h
          · rename_i sound
            cases h
            exact sound
    · cases h
  · cases h

theorem leads_of_fault? {w : Workflow} (h : w.fault? = none) {n : Node} (hn : n ∈ w.nodes)
    {p : String × Option String} (hp : p ∈ n.pointers) : leads w.ids p.2 = true := by
  unfold fault? at h
  split at h
  · cases h
  · split at h
    · cases h
    · have sound := List.findSome?_eq_none_iff.mp h n hn
      unfold danglingOf? at sound
      split at sound
      · cases sound
      · rename_i none
        simpa using List.find?_eq_none.mp none p hp

/-- A pointer that is set and does not end the walk leads to a node. -/
theorem mem_ids_of_leads {w : Workflow} {target : String}
    (h : leads w.ids (some target) = true) (filled : target ≠ "") (on : target ≠ endMark) :
    target ∈ w.ids := by
  simpa [leads, filled, on] using h

theorem mem_ids_of_idBehind {id target : String} {nodes : List Node}
    (h : idBehind id nodes = some target) : target ∈ nodes.map (·.id) := by
  induction nodes with
  | nil => cases h
  | cons n rest ih =>
    simp only [idBehind] at h
    split at h
    · cases rest with
      | nil => cases h
      | cons m rest =>
        cases h
        simp
    · exact List.mem_cons_of_mem _ (ih h)

theorem isSome_node? {w : Workflow} {id : String} (h : id ∈ w.ids) :
    (w.node? id).isSome = true := by
  obtain ⟨n, hn, same⟩ := List.mem_map.mp h
  exact List.find?_isSome.mpr ⟨n, hn, beq_iff_eq.mpr same⟩

theorem mem_of_node? {w : Workflow} {id : String} {n : Node} (h : w.node? id = some n) :
    n ∈ w.nodes := List.mem_of_find?_eq_some h

theorem pointed?_eq_some {p : Option String} {target : String} :
    pointed? p = some target ↔ p = some target ∧ target ≠ "" := by
  unfold pointed?
  split
  · simp
  · rename_i notEmpty
    refine ⟨fun h => ⟨h, ?_⟩, And.left⟩
    rintro rfl
    exact notEmpty h

/-- A pointer, or else the order of the nodes, leads to a node. -/
theorem mem_ids_of_or {w : Workflow} {p : Option String} {id target : String}
    (leads : leads w.ids p = true) (h : (pointed? p).or (w.positional id) = some target)
    (on : target ≠ endMark) : target ∈ w.ids := by
  cases set : pointed? p with
  | none =>
    rw [set] at h
    exact mem_ids_of_idBehind h
  | some other =>
    rw [set] at h
    cases h
    obtain ⟨rfl, filled⟩ := pointed?_eq_some.mp set
    exact mem_ids_of_leads leads filled on

/-- The way on from a node is one of its pointers or else the order of the nodes, but for the branch
that does not hold, for which there is its pointer alone. -/
theorem successor_cases {w : Workflow} {n : Node} {branch : Option Bool} {target : String}
    (h : w.successor n branch = some target) :
    target ≠ endMark ∧
      ((∃ label p, (label, p) ∈ n.pointers ∧
          (pointed? p).or (w.positional n.id) = some target) ∨
        (n.isBranch = true ∧ branch = some false ∧ n.falseNext = some target)) := by
  have reached {p : Option String} (h : (if p = some endMark then none else p) = some target) :
      p = some target ∧ target ≠ endMark := by
    split at h
    · cases h
    · rename_i on
      exact ⟨h, fun same => on (same ▸ h)⟩
  unfold successor at h
  dsimp only at h
  split at h <;> obtain ⟨way, on⟩ := reached h
  · exact ⟨on, .inl ⟨"trueNext", _, by simp [Node.pointers], way⟩⟩
  · exact ⟨on, .inr ⟨‹_›, rfl, way⟩⟩
  · exact ⟨on, .inl ⟨"next", _, by simp [Node.pointers], way⟩⟩

/-- The way on from a node leads to a node, but for the empty pointer of a branch that does not
hold. -/
theorem successor_mem {w : Workflow} (sound : w.fault? = none) {n : Node} (hn : n ∈ w.nodes)
    {branch : Option Bool} {target : String} (h : w.successor n branch = some target) :
    target ∈ w.ids ∨
      (target = "" ∧ n.isBranch = true ∧ branch = some false ∧ n.falseNext = some "") := by
  obtain ⟨on, ⟨label, p, pointer, way⟩ | ⟨isBranch, rfl, way⟩⟩ := successor_cases h
  · exact .inl (mem_ids_of_or (leads_of_fault? sound hn pointer) way on)
  · by_cases empty : target = ""
    · exact .inr ⟨empty, isBranch, rfl, empty ▸ way⟩
    · have led := leads_of_fault? sound hn (p := ("falseNext", n.falseNext))
        (by simp [Node.pointers])
      rw [way] at led
      exact .inl (mem_ids_of_leads led empty on)

theorem successor_empty {w : Workflow} {n : Node} (isBranch : n.isBranch = true)
    (empty : n.falseNext = some "") : w.successor n (some false) = some "" := by
  unfold successor
  simp [isBranch, empty, endMark]

/-- The node's own way on for a dismissed request leads to a node. -/
theorem onCancel_mem {w : Workflow} (sound : w.fault? = none) {n : Node} (hn : n ∈ w.nodes)
    {target : String} (h : pointed? n.onCancel = some target) (on : target ≠ endMark) :
    target ∈ w.ids := by
  obtain ⟨set, filled⟩ := pointed?_eq_some.mp h
  refine mem_ids_of_leads ?_ filled on
  rw [← set]
  exact leads_of_fault? sound hn (p := ("onCancel", n.onCancel)) (by simp [Node.pointers])

/-! ### Sound graphs -/

/-- A graph with nodes, no two of them with one id, whose pointers that are set lead to nodes of it
or to the end. -/
structure Sound (w : Workflow) : Prop where
  nonempty : w.nodes ≠ []
  distinct : w.ids.Nodup
  leads : ∀ n ∈ w.nodes, ∀ p ∈ n.pointers, ∀ target, p.2 = some target → target ≠ "" →
    target = endMark ∨ target ∈ w.ids

theorem duplicate?_eq_none {seen ids : List String} :
    duplicate? seen ids = none ↔ ids.Nodup ∧ ∀ id ∈ ids, id ∉ seen := by
  induction ids generalizing seen with
  | nil => simp [duplicate?]
  | cons id rest ih =>
    by_cases known : id ∈ seen
    · simp [duplicate?, known]
    · rw [duplicate?, if_neg (by simpa using known), ih, List.nodup_cons, List.forall_mem_cons]
      constructor
      · rintro ⟨distinct, fresh⟩
        exact ⟨⟨fun again => fresh id again (List.mem_cons_self ..), distinct⟩, known,
          fun other hm before => fresh other hm (List.mem_cons_of_mem _ before)⟩
      · rintro ⟨⟨once, distinct⟩, -, fresh⟩
        refine ⟨distinct, fun other hm before => ?_⟩
        rcases List.mem_cons.mp before with rfl | before
        · exact once hm
        · exact fresh other hm before

theorem leads_eq_true {ids : List String} {p : Option String} :
    leads ids p = true ↔
      ∀ target, p = some target → target ≠ "" → target = endMark ∨ target ∈ ids := by
  cases p with
  | none => simp [leads]
  | some target =>
    by_cases filled : target = ""
    · simp [leads, filled]
    · simp [leads, filled]

theorem danglingOf?_eq_none {ids : List String} {n : Node} :
    danglingOf? ids n = none ↔ ∀ p ∈ n.pointers, leads ids p.2 = true := by
  unfold danglingOf?
  split
  · rename_i found
    have bad := List.find?_some found
    refine ⟨nofun, fun all => ?_⟩
    have led := all _ (List.mem_of_find?_eq_some found)
    simp [led] at bad
  · rename_i none
    exact ⟨fun _ p hp => by simpa using List.find?_eq_none.mp none p hp, fun _ => rfl⟩

/-- A graph has no fault just where it is sound. -/
theorem fault?_eq_none {w : Workflow} : w.fault? = none ↔ w.Sound := by
  have pointers : w.nodes.findSome? (danglingOf? w.ids) = none ↔
      ∀ n ∈ w.nodes, ∀ p ∈ n.pointers, ∀ target, p.2 = some target → target ≠ "" →
        target = endMark ∨ target ∈ w.ids := by
    simp only [List.findSome?_eq_none_iff, danglingOf?_eq_none, leads_eq_true]
  have ids : duplicate? [] w.ids = none ↔ w.ids.Nodup ∧ ∀ id ∈ w.ids, id ∉ [] := duplicate?_eq_none
  unfold fault?
  by_cases empty : w.nodes = []
  · simp only [empty, List.isEmpty_nil, if_true]
    exact ⟨nofun, fun sound => absurd empty sound.nonempty⟩
  · rw [if_neg (by simpa using empty)]
    split
    · rename_i twice
      rw [twice] at ids
      exact ⟨nofun, fun sound => nomatch ids.mpr ⟨sound.distinct, fun _ _ => List.not_mem_nil⟩⟩
    · rename_i once
      exact ⟨fun led => ⟨empty, (ids.mp once).1, pointers.mp led⟩,
        fun sound => pointers.mpr sound.leads⟩

end Runbook.Workflow
