/-! Results in sequence.

Readers and evaluators are steps one behind the other, and the first failure is the failure of
the whole. These lemmas take such a sequence apart. -/
namespace Runbook

variable {ε α β : Type}

/-- A step that cannot fail has the one result, and what is known of it besides. -/
theorem ok_eq_ok_iff {p : Prop} (holds : p) {a b : α} :
    (.ok a : Except ε α) = .ok b ↔ p ∧ b = a := by
  rw [Except.ok.injEq, and_iff_right holds, eq_comm]

theorem bind_eq_ok {x : Except ε α} {f : α → Except ε β} {b : β} :
    x >>= f = .ok b ↔ ∃ a, x = .ok a ∧ f a = .ok b := by
  cases x <;> simp [bind, Except.bind]

/-- A sequence fails with its first step or behind it. -/
theorem bind_eq_error {x : Except ε α} {f : α → Except ε β} {e : ε} :
    x >>= f = .error e ↔ x = .error e ∨ ∃ a, x = .ok a ∧ f a = .error e := by
  cases x <;> simp [bind, Except.bind]

theorem map_eq_ok {x : Except ε α} {f : α → β} {b : β} :
    x.map f = .ok b ↔ ∃ a, x = .ok a ∧ f a = b := by
  cases x <;> simp [Except.map]

theorem map_eq_error {x : Except ε α} {f : α → β} {e : ε} :
    x.map f = .error e ↔ x = .error e := by
  cases x <;> simp [Except.map]

theorem mapError_ok {δ : Type} (a : α) (f : ε → δ) :
    (.ok a : Except ε α).mapError f = .ok a := rfl

theorem mapError_error {δ : Type} (e : ε) (f : ε → δ) :
    (.error e : Except ε α).mapError f = .error (f e) := rfl

theorem mapError_eq_ok {δ : Type} {x : Except ε α} {f : ε → δ} {a : α} :
    x.mapError f = .ok a ↔ x = .ok a := by
  cases x with
  | ok b => rw [mapError_ok, Except.ok.injEq, Except.ok.injEq]
  | error e => simp only [mapError_error, reduceCtorEq]

theorem mapM_congr {l : List α} {f g : α → Except ε β} (same : ∀ a ∈ l, f a = g a) :
    l.mapM f = l.mapM g := by
  induction l with
  | nil => rfl
  | cons a rest ih =>
    obtain ⟨here, behind⟩ := List.forall_mem_cons.mp same
    rw [List.mapM_cons, List.mapM_cons, here, ih behind]

/-- Steps of which one fails do not come to an end, whichever fails first. -/
theorem exists_mapM_eq_error {l : List α} {f : α → Except ε β} {a : α} {e : ε} (there : a ∈ l)
    (failed : f a = .error e) : ∃ e, l.mapM f = .error e := by
  induction l with
  | nil => cases there
  | cons b rest ih =>
    rw [List.mapM_cons]
    rcases List.mem_cons.mp there with rfl | behind
    · exact ⟨e, by rw [failed]; rfl⟩
    · obtain ⟨g, later⟩ := ih behind
      cases first : f b with
      | error g => exact ⟨g, rfl⟩
      | ok c => exact ⟨g, by rw [later]; rfl⟩

/-- Steps fail as one of them does. -/
theorem mapM_eq_error {l : List α} {f : α → Except ε β} {e : ε} (h : l.mapM f = .error e) :
    ∃ a ∈ l, f a = .error e := by
  induction l with
  | nil => cases h
  | cons b rest ih =>
    rw [List.mapM_cons] at h
    rcases bind_eq_error.mp h with here | ⟨c, -, h⟩
    · exact ⟨b, List.mem_cons_self, here⟩
    · rcases bind_eq_error.mp h with behind | ⟨_, -, done⟩
      · obtain ⟨a, there, failed⟩ := ih behind
        exact ⟨a, List.mem_cons_of_mem b there, failed⟩
      · cases done

/-- Steps that all come to an end give their results in order. -/
theorem mapM_map_eq_ok {γ : Type} {l : List γ} {f : γ → α} {g : γ → β} {F : α → Except ε β}
    (each : ∀ c ∈ l, F (f c) = .ok (g c)) : (l.map f).mapM F = .ok (l.map g) := by
  induction l with
  | nil => rfl
  | cons c rest ih =>
    obtain ⟨here, behind⟩ := List.forall_mem_cons.mp each
    rw [List.map_cons, List.mapM_cons, here, ih behind]
    rfl

end Runbook
