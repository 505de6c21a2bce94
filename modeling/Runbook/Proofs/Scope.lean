import Runbook.Proofs.Entries
import Runbook.Scope

/-! Binding several names at once, and what a nested call hands back.

The empty name is the only one that is refused, so binding goes through exactly where every name
is another one. A child whose variables have names hands all of them back under those names, in
their order, where no beginning and no mapping is asked for. -/
namespace Runbook.Scope

theorem set_of_ne {s : Scope} {name : String} (v : Value) (h : name ≠ "") :
    s.set name v = .ok ⟨Entries.insert name v s.bindings⟩ := if_neg h

theorem setAll_of_named {s : Scope} {writes : List (String × Value)}
    (h : ∀ b ∈ writes, b.1 ≠ "") :
    s.setAll writes = (⟨Entries.merge s.bindings writes⟩, none) := by
  induction writes generalizing s with
  | nil => rfl
  | cons b rest ih =>
    obtain ⟨named, rest_named⟩ := List.forall_mem_cons.mp h
    rw [setAll, set_of_ne b.2 named]
    exact ih rest_named

theorem setAll_of_unnamed {s : Scope} {writes : List (String × Value)}
    (h : "" ∈ Entries.keys writes) : (s.setAll writes).2 = some (invalidName "''") := by
  induction writes generalizing s with
  | nil => cases h
  | cons b rest ih =>
    by_cases unnamed : b.1 = ""
    · rw [setAll, unnamed]
      rfl
    · rw [setAll, set_of_ne b.2 unnamed]
      refine ih ((List.mem_cons.mp h).resolve_left fun here => unnamed here.symm)

/-- Binding goes through just where no name is the empty one. -/
theorem setAll_eq_none {s : Scope} {writes : List (String × Value)} :
    (s.setAll writes).2 = none ↔ "" ∉ Entries.keys writes := by
  constructor
  · intro bound unnamed
    rw [setAll_of_unnamed unnamed] at bound
    cases bound
  · intro named
    rw [setAll_of_named fun b hb unnamed => named (unnamed ▸ List.mem_map_of_mem hb)]

theorem unnamed_of_setAll {s : Scope} {writes : List (String × Value)} {f : Fault}
    (h : (s.setAll writes).2 = some f) : "" ∈ Entries.keys writes := by
  refine Decidable.byContradiction fun named => ?_
  rw [setAll_eq_none.mpr named] at h
  cases h

/-- Behind several bindings a variable has its value from before, or one that was bound to it. -/
theorem get?_setAll (s : Scope) (name : String) (writes : List (String × Value)) :
    (s.setAll writes).1.get? name = s.get? name ∨
      ∃ v, (name, v) ∈ writes ∧ (s.setAll writes).1.get? name = some v := by
  induction writes generalizing s with
  | nil => exact .inl rfl
  | cons b rest ih =>
    by_cases unnamed : b.1 = ""
    · rw [setAll, unnamed]
      exact .inl rfl
    · rw [setAll, set_of_ne b.2 unnamed]
      rcases ih ⟨Entries.insert b.1 b.2 s.bindings⟩ with same | ⟨v, later, bound⟩
      · by_cases here : name = b.1
        · subst here
          exact .inr ⟨b.2, List.mem_cons_self .., same.trans (Entries.get?_insert_self ..)⟩
        · exact .inl (same.trans (Entries.get?_insert_of_ne _ _ here))
      · exact .inr ⟨v, List.mem_cons_of_mem _ later, bound⟩

theorem get?_setAll_of_not_mem {s : Scope} {name : String} {writes : List (String × Value)}
    (h : name ∉ Entries.keys writes) : (s.setAll writes).1.get? name = s.get? name := by
  refine (get?_setAll s name writes).resolve_right ?_
  rintro ⟨v, bound, -⟩
  exact h (List.mem_map_of_mem bound)

/-- The names of a scope are real ones, and each stands once. -/
structure Named (s : Scope) : Prop where
  distinct : s.names.Nodup
  filled : "" ∉ s.names

theorem Named.setAll {s : Scope} (h : s.Named) (writes : List (String × Value)) :
    (s.setAll writes).1.Named := by
  induction writes generalizing s with
  | nil => exact h
  | cons b rest ih =>
    by_cases unnamed : b.1 = ""
    · rw [Scope.setAll, unnamed]
      exact h
    · rw [Scope.setAll, set_of_ne b.2 unnamed]
      refine ih ⟨Entries.keys_nodup_insert h.distinct, fun empty => ?_⟩
      rcases Entries.mem_keys_insert.mp empty with same | there
      · exact unnamed same.symm
      · exact h.filled there

theorem exports_all {child : Scope} (h : child.names.Nodup) :
    child.exports [] "" = child.bindings := by
  have same : child.bindings.map (fun b => ("" ++ b.1, b.2)) = child.bindings := by
    rw [List.map_congr_left (g := id) fun b _ => by rw [String.empty_append]; rfl, List.map_id]
  show Entries.ofList (child.bindings.map fun b => ("" ++ b.1, b.2)) = _
  rw [same, Entries.ofList_of_nodup h]

end Runbook.Scope
