import Runbook.Entries
import Runbook.Value

/-! The keys of ordered entries.

Inserting never makes a key out of nothing and never doubles one, and a mapping that has each
key once is what its own pairs build up. A mapping with text keys is told apart from other mappings
by its keys alone, so looking up a field is looking up its name. -/
namespace Runbook.Entries

variable {κ α : Type} [BEq κ]

/-- Inserting brings in no key and no value but its own; the two may come from different pairs. -/
theorem forall_mem_insert {P : κ → Prop} {Q : α → Prop} {key : κ} {a : α} {entries : List (κ × α)}
    (hk : P key) (ha : Q a) (h : ∀ e ∈ entries, P e.1 ∧ Q e.2) :
    ∀ e ∈ insert key a entries, P e.1 ∧ Q e.2 := by
  induction entries with
  | nil => exact List.forall_mem_singleton.mpr ⟨hk, ha⟩
  | cons e rest ih =>
    obtain ⟨here, behind⟩ := List.forall_mem_cons.mp h
    by_cases same : e.1 == key
    · simp only [insert, same, if_true]
      exact List.forall_mem_cons.mpr ⟨⟨here.1, ha⟩, behind⟩
    · simp only [insert, same, Bool.false_eq_true, if_false]
      exact List.forall_mem_cons.mpr ⟨here, ih behind⟩

theorem forall_mem_merge {P : κ → Prop} {Q : α → Prop} {entries more : List (κ × α)}
    (h : ∀ e ∈ entries, P e.1 ∧ Q e.2) (hmore : ∀ e ∈ more, P e.1 ∧ Q e.2) :
    ∀ e ∈ merge entries more, P e.1 ∧ Q e.2 := by
  induction more generalizing entries with
  | nil => exact h
  | cons e rest ih =>
    obtain ⟨here, behind⟩ := List.forall_mem_cons.mp hmore
    exact ih (forall_mem_insert here.1 here.2 h) behind

theorem exists_mem_of_get? {key : κ} {a : α} {entries : List (κ × α)}
    (h : get? key entries = some a) : ∃ k, (k, a) ∈ entries := by
  induction entries with
  | nil => cases h
  | cons e rest ih =>
    simp only [get?] at h
    split at h
    · exact ⟨e.1, Option.some.inj h ▸ List.mem_cons_self ..⟩
    · exact (ih h).imp fun _ there => List.mem_cons_of_mem _ there

theorem get?_insert_same {key : κ} (same : (key == key) = true) (a : α) (entries : List (κ × α)) :
    get? key (insert key a entries) = some a := by
  induction entries with
  | nil => exact if_pos same
  | cons e rest ih =>
    by_cases here : e.1 == key
    · rw [insert, if_pos here]
      exact if_pos here
    · rw [insert, if_neg here, get?, if_neg here]
      exact ih

theorem mem_of_get? [LawfulBEq κ] {key : κ} {a : α} {entries : List (κ × α)}
    (h : get? key entries = some a) : (key, a) ∈ entries := by
  induction entries with
  | nil => cases h
  | cons e rest ih =>
    simp only [get?] at h
    split at h
    · rename_i same
      rw [← eq_of_beq same, ← Option.some.inj h]
      exact List.mem_cons_self ..
    · exact List.mem_cons_of_mem _ (ih h)

theorem mem_insert [LawfulBEq κ] {key : κ} {a : α} {b : κ × α} {entries : List (κ × α)}
    (h : b ∈ insert key a entries) : b = (key, a) ∨ b ∈ entries := by
  induction entries with
  | nil => exact .inl (List.mem_singleton.mp h)
  | cons e rest ih =>
    by_cases same : e.1 == key
    · simp only [insert, same, if_true] at h
      rcases List.mem_cons.mp h with rfl | there
      · exact .inl (by rw [eq_of_beq same])
      · exact .inr (List.mem_cons_of_mem _ there)
    · simp only [insert, same, Bool.false_eq_true, if_false] at h
      rcases List.mem_cons.mp h with rfl | there
      · exact .inr (List.mem_cons_self ..)
      · exact (ih there).imp_right (List.mem_cons_of_mem _)

theorem mem_merge [LawfulBEq κ] {b : κ × α} {entries more : List (κ × α)}
    (h : b ∈ merge entries more) : b ∈ entries ∨ b ∈ more := by
  induction more generalizing entries with
  | nil => exact .inl h
  | cons e rest ih =>
    rcases ih h with there | later
    · rcases mem_insert there with rfl | before
      · exact .inr (List.mem_cons_self ..)
      · exact .inl before
    · exact .inr (List.mem_cons_of_mem _ later)

/-- A mapping holds none but the pairs that it was built from. -/
theorem mem_of_mem_ofList [LawfulBEq κ] {b : κ × α} {pairs : List (κ × α)}
    (h : b ∈ ofList pairs) : b ∈ pairs :=
  (mem_merge h).resolve_left List.not_mem_nil

theorem mem_keys_insert [LawfulBEq κ] {key k : κ} {a : α} {entries : List (κ × α)} :
    k ∈ keys (insert key a entries) ↔ k = key ∨ k ∈ keys entries := by
  induction entries with
  | nil => simp [insert, keys]
  | cons e rest ih =>
    by_cases same : e.1 == key
    · simp [insert, keys, eq_of_beq same]
    · simp only [keys, insert, same] at ih ⊢
      simp only [Bool.false_eq_true, if_false, List.map_cons, List.mem_cons, ih]
      exact or_left_comm

theorem keys_nodup_insert [LawfulBEq κ] {key : κ} {a : α} {entries : List (κ × α)}
    (h : (keys entries).Nodup) : (keys (insert key a entries)).Nodup := by
  induction entries with
  | nil => simp [insert, keys]
  | cons e rest ih =>
    obtain ⟨fresh, rest_nodup⟩ := List.nodup_cons.mp h
    by_cases same : e.1 == key
    · simpa [insert, keys, same] using h
    · simp only [insert, same, Bool.false_eq_true, if_false]
      refine List.nodup_cons.mpr ⟨fun there => ?_, ih rest_nodup⟩
      rcases mem_keys_insert.mp there with equal | there
      · exact same (beq_iff_eq.mpr equal)
      · exact fresh there

/-- A later value leaves the keys as they are. -/
theorem keys_insert_of_mem [LawfulBEq κ] {key : κ} {a : α} {entries : List (κ × α)}
    (h : key ∈ keys entries) : keys (insert key a entries) = keys entries := by
  induction entries with
  | nil => cases h
  | cons e rest ih =>
    rw [insert]
    cases same : e.1 == key with
    | true => rfl
    | false =>
      have behind := (List.mem_cons.mp h).resolve_left fun here => by simp [here] at same
      rw [if_neg Bool.false_ne_true]
      exact congrArg (e.1 :: ·) (ih behind)

theorem get?_erase_of_ne [LawfulBEq κ] {key other : κ} (entries : List (κ × α)) (h : other ≠ key) :
    get? other (erase key entries) = get? other entries := by
  induction entries with
  | nil => rfl
  | cons e rest ih =>
    rw [erase]
    cases same : e.1 == key with
    | true =>
      have apart : (e.1 == other) = false := by
        rw [eq_of_beq same]
        exact beq_eq_false_iff_ne.mpr (Ne.symm h)
      rw [if_pos rfl, get?, if_neg (by rw [apart]; exact Bool.false_ne_true)]
    | false => rw [if_neg Bool.false_ne_true, get?, get?, ih]

theorem mem_of_mem_erase {key : κ} {b : κ × α} {entries : List (κ × α)}
    (h : b ∈ erase key entries) : b ∈ entries := by
  induction entries with
  | nil => exact h
  | cons e rest ih =>
    rw [erase] at h
    split at h
    · exact List.mem_cons_of_mem _ h
    · rcases List.mem_cons.mp h with rfl | behind
      · exact List.mem_cons_self ..
      · exact List.mem_cons_of_mem _ (ih behind)

theorem keys_erase_sublist (key : κ) (entries : List (κ × α)) :
    (keys (erase key entries)).Sublist (keys entries) := by
  induction entries with
  | nil => exact .slnil
  | cons e rest ih =>
    rw [erase]
    split
    · exact List.sublist_cons_self ..
    · exact ih.cons_cons e.1

theorem mem_keys_merge [LawfulBEq κ] {k : κ} {entries more : List (κ × α)} :
    k ∈ keys (merge entries more) ↔ k ∈ keys entries ∨ k ∈ keys more := by
  induction more generalizing entries with
  | nil => simp [merge, keys]
  | cons e rest ih =>
    show k ∈ keys (merge (insert e.1 e.2 entries) rest) ↔ _
    rw [ih, mem_keys_insert, or_comm (a := k = e.1), or_assoc]
    simp only [keys, List.map_cons, List.mem_cons]

theorem mem_keys_ofList [LawfulBEq κ] {k : κ} {pairs : List (κ × α)} :
    k ∈ keys (ofList pairs) ↔ k ∈ keys pairs := by
  rw [ofList, mem_keys_merge]
  simp [keys]

theorem get?_merge_of_not_mem [LawfulBEq κ] {k : κ} {entries more : List (κ × α)}
    (h : k ∉ keys more) : get? k (merge entries more) = get? k entries := by
  induction more generalizing entries with
  | nil => rfl
  | cons e rest ih =>
    simp only [keys, List.map_cons, List.mem_cons, not_or] at h
    show get? k (merge (insert e.1 e.2 entries) rest) = _
    rw [ih h.2, get?_insert_of_ne _ _ h.1]

/-- What is merged in is found, where no key is given twice. -/
theorem get?_merge_of_mem [LawfulBEq κ] {b : κ × α} {entries more : List (κ × α)}
    (distinct : (keys more).Nodup) (h : b ∈ more) : get? b.1 (merge entries more) = some b.2 := by
  induction more generalizing entries with
  | nil => cases h
  | cons e rest ih =>
    obtain ⟨fresh, rest_distinct⟩ := List.nodup_cons.mp distinct
    show get? b.1 (merge (insert e.1 e.2 entries) rest) = _
    rcases List.mem_cons.mp h with rfl | there
    · rw [get?_merge_of_not_mem fresh, get?_insert_self]
    · exact ih rest_distinct there

/-- What stands in a mapping without a repeated key is found there. -/
theorem get?_of_mem [LawfulBEq κ] {b : κ × α} {entries : List (κ × α)}
    (distinct : (keys entries).Nodup) (h : b ∈ entries) : get? b.1 entries = some b.2 := by
  induction entries with
  | nil => cases h
  | cons e rest ih =>
    obtain ⟨fresh, rest_distinct⟩ := List.nodup_cons.mp distinct
    rcases List.mem_cons.mp h with rfl | there
    · rw [get?, if_pos (beq_self_eq_true _)]
    · have other : e.1 ≠ b.1 := fun same =>
        fresh (List.mem_map.mpr ⟨b, there, same.symm⟩)
      rw [get?, if_neg (by simpa using other), ih rest_distinct there]

/-- A new value takes the place of the old one for its key and leaves the others. -/
theorem mem_insert_iff [LawfulBEq κ] {key : κ} {a : α} {b : κ × α} {entries : List (κ × α)}
    (distinct : (keys entries).Nodup) :
    b ∈ insert key a entries ↔ b = (key, a) ∨ (b ∈ entries ∧ b.1 ≠ key) := by
  have found {more : List (κ × α)} (distinct : (keys more).Nodup) :
      b ∈ more ↔ get? b.1 more = some b.2 := ⟨get?_of_mem distinct, mem_of_get?⟩
  rw [found (keys_nodup_insert distinct), found distinct]
  by_cases same : b.1 = key
  · rw [same, get?_insert_self, Option.some_inj]
    simp [Prod.ext_iff, same, eq_comm]
  · rw [get?_insert_of_ne _ _ same]
    simp [Prod.ext_iff, same]

theorem keys_nodup_merge [LawfulBEq κ] {entries more : List (κ × α)} (h : (keys entries).Nodup) :
    (keys (merge entries more)).Nodup := by
  induction more generalizing entries with
  | nil => exact h
  | cons e rest ih => exact ih (keys_nodup_insert h)

/-- A mapping has each key once. -/
theorem keys_nodup_ofList [LawfulBEq κ] (pairs : List (κ × α)) : (keys (ofList pairs)).Nodup :=
  keys_nodup_merge List.nodup_nil

theorem get?_append (key : κ) (entries more : List (κ × α)) :
    get? key (entries ++ more) = (get? key entries).or (get? key more) := by
  induction entries with
  | nil => rfl
  | cons e rest ih =>
    by_cases same : e.1 == key
    · simp [get?, same]
    · simp [get?, same, ih]

theorem get?_merge [LawfulBEq κ] (key : κ) (entries more : List (κ × α)) :
    get? key (merge entries more) = get? key (more.reverse ++ entries) := by
  induction more generalizing entries with
  | nil => rfl
  | cons e rest ih =>
    show get? key (merge (insert e.1 e.2 entries) rest) = _
    rw [ih, List.reverse_cons, List.append_assoc, get?_append, get?_append, List.singleton_append,
      get?]
    by_cases same : e.1 = key
    · rw [same, get?_insert_self, if_pos (BEq.refl key)]
    · rw [get?_insert_of_ne _ _ (Ne.symm same), if_neg (by simpa using same)]

/-- Of the pairs with a key, the last one counts. -/
theorem get?_ofList [LawfulBEq κ] (key : κ) (pairs : List (κ × α)) :
    get? key (ofList pairs) = get? key pairs.reverse := by
  rw [ofList, get?_merge, List.append_nil]

theorem get?_of_not_mem [LawfulBEq κ] {key : κ} {entries : List (κ × α)}
    (h : key ∉ keys entries) : get? key entries = none := by
  cases found : get? key entries with
  | none => rfl
  | some a => exact absurd (List.mem_map_of_mem (mem_of_get? found)) h

theorem get?_eq_none [LawfulBEq κ] {key : κ} {entries : List (κ × α)} :
    get? key entries = none ↔ key ∉ keys entries := by
  refine ⟨fun none there => ?_, get?_of_not_mem⟩
  induction entries with
  | nil => cases there
  | cons e rest ih =>
    simp only [get?] at none
    split at none
    · cases none
    · rename_i other
      have behind := (List.mem_cons.mp there).resolve_left (by rintro rfl; simp at other)
      exact ih none behind

theorem erase_of_not_mem [LawfulBEq κ] {key : κ} {entries : List (κ × α)}
    (h : key ∉ keys entries) : erase key entries = entries := by
  induction entries with
  | nil => rfl
  | cons e rest ih =>
    simp only [keys, List.map_cons, List.mem_cons, not_or] at h
    have other : (e.1 == key) = false := beq_eq_false_iff_ne.mpr (Ne.symm h.1)
    rw [erase, other, if_neg Bool.false_ne_true, ih h.2]

/-- A key that comes once is gone with its entry. -/
theorem get?_erase_self [LawfulBEq κ] (key : κ) {entries : List (κ × α)}
    (distinct : (keys entries).Nodup) : get? key (erase key entries) = none := by
  induction entries with
  | nil => rfl
  | cons e rest ih =>
    obtain ⟨fresh, rest_distinct⟩ := List.nodup_cons.mp distinct
    rw [erase]
    cases same : e.1 == key with
    | true => exact get?_of_not_mem (eq_of_beq same ▸ fresh)
    | false =>
      rw [if_neg Bool.false_ne_true, get?, same, if_neg Bool.false_ne_true, ih rest_distinct]

/-- The entries with a key are the one that is found. -/
theorem filter_key [LawfulBEq κ] {key : κ} {entries : List (κ × α)}
    (distinct : (keys entries).Nodup) :
    entries.filter (·.1 == key) = (get? key entries).toList.map (key, ·) := by
  induction entries with
  | nil => rfl
  | cons e rest ih =>
    obtain ⟨fresh, rest_distinct⟩ := List.nodup_cons.mp distinct
    rw [List.filter_cons, get?, ih rest_distinct]
    cases same : e.1 == key with
    | true =>
      have here := eq_of_beq same
      rw [get?_of_not_mem (here ▸ fresh), if_pos rfl, if_pos rfl, ← here]
      rfl
    | false => rw [if_neg Bool.false_ne_true, if_neg Bool.false_ne_true]

/-- A new key goes to the end. -/
theorem insert_of_not_mem [LawfulBEq κ] {key : κ} {a : α} {entries : List (κ × α)}
    (h : key ∉ keys entries) : insert key a entries = entries ++ [(key, a)] := by
  induction entries with
  | nil => rfl
  | cons e rest ih =>
    simp only [keys, List.map_cons, List.mem_cons, not_or] at h
    have other : (e.1 == key) = false := beq_eq_false_iff_ne.mpr (Ne.symm h.1)
    simp only [insert, other, Bool.false_eq_true, if_false, List.cons_append]
    rw [ih h.2]

theorem merge_single (key : κ) (a : α) (entries : List (κ × α)) :
    merge entries [(key, a)] = insert key a entries := rfl

/-- The later of two values for a key stands in its place. -/
theorem insert_insert [LawfulBEq κ] (key : κ) (a b : α) (entries : List (κ × α)) :
    insert key b (insert key a entries) = insert key b entries := by
  induction entries with
  | nil => simp [insert]
  | cons e rest ih =>
    cases same : e.1 == key with
    | true => simp [insert, same]
    | false => simp [insert, same, ih]

theorem merge_of_nodup [LawfulBEq κ] {entries more : List (κ × α)}
    (h : (keys (entries ++ more)).Nodup) : merge entries more = entries ++ more := by
  induction more generalizing entries with
  | nil => simp [merge]
  | cons e rest ih =>
    have fresh : e.1 ∉ keys entries := by
      simp only [keys, List.map_append, List.map_cons] at h ⊢
      exact fun there => (List.nodup_append.mp h).2.2 _ there _ (List.mem_cons_self ..) rfl
    show merge (insert e.1 e.2 entries) rest = _
    rw [insert_of_not_mem fresh, ih (by simpa using h)]
    simp

/-- Pairs without a repeated key are the mapping that they build up. -/
theorem ofList_of_nodup [LawfulBEq κ] {pairs : List (κ × α)} (h : (keys pairs).Nodup) :
    ofList pairs = pairs := by
  show merge [] pairs = [] ++ pairs
  exact merge_of_nodup h

omit [BEq κ] in
/-- Pairs whose value is missing are left out, and their keys with them. -/
theorem keys_given_sublist (pairs : List (κ × Option α)) :
    (keys (pairs.filterMap fun (k, a) => a.map (k, ·))).Sublist (pairs.map (·.1)) := by
  induction pairs with
  | nil => exact .slnil
  | cons p rest ih =>
    obtain ⟨k, a⟩ := p
    cases a with
    | none => exact ih.cons k
    | some a => exact ih.cons_cons k

/-! ### Entries under other keys -/

section Renamed

variable {κ' β : Type} [BEq κ'] {f : κ → κ'}

/-- Keys that are told apart as before find what they found before. -/
theorem get?_map (same : ∀ a b, (f a == f b) = (a == b)) (g : α → β) (key : κ)
    (entries : List (κ × α)) :
    get? (f key) (entries.map fun e => (f e.1, g e.2)) = (get? key entries).map g := by
  induction entries with
  | nil => rfl
  | cons e rest ih =>
    simp only [List.map_cons, get?, same, ih]
    split <;> rfl

theorem insert_map (same : ∀ a b, (f a == f b) = (a == b)) (g : α → β) (key : κ) (a : α)
    (entries : List (κ × α)) :
    insert (f key) (g a) (entries.map fun e => (f e.1, g e.2)) =
      (insert key a entries).map fun e => (f e.1, g e.2) := by
  induction entries with
  | nil => rfl
  | cons e rest ih =>
    simp only [List.map_cons, insert, same, ih]
    split <;> rfl

theorem merge_map (same : ∀ a b, (f a == f b) = (a == b)) (g : α → β)
    (entries more : List (κ × α)) :
    merge (entries.map fun e => (f e.1, g e.2)) (more.map fun e => (f e.1, g e.2)) =
      (merge entries more).map fun e => (f e.1, g e.2) := by
  induction more generalizing entries with
  | nil => rfl
  | cons e rest ih =>
    show merge (insert (f e.1) (g e.2) _) _ = _
    rw [insert_map same]
    exact ih (insert e.1 e.2 entries)

theorem ofList_map (same : ∀ a b, (f a == f b) = (a == b)) (g : α → β) (pairs : List (κ × α)) :
    ofList (pairs.map fun e => (f e.1, g e.2)) =
      (ofList pairs).map fun e => (f e.1, g e.2) :=
  merge_map same g [] pairs

end Renamed

/-! ### Entries of which some go under other keys -/

section Rekeyed

variable {κ' : Type} [BEq κ'] [LawfulBEq κ] [LawfulBEq κ'] {g : κ → Option κ'} {key : κ} {key' : κ'}

/-- The entries whose keys have another name, under that name. -/
def rekey (g : κ → Option κ') (entries : List (κ × α)) : List (κ' × α) :=
  entries.filterMap fun e => (g e.1).map (·, e.2)

/-- No two keys have the same other name. -/
def Apart (g : κ → Option κ') : Prop := ∀ {a b c}, g a = some c → g b = some c → a = b

omit [BEq κ] [BEq κ'] [LawfulBEq κ] [LawfulBEq κ'] in
theorem rekey_cons (e : κ × α) (rest : List (κ × α)) :
    rekey g (e :: rest) =
      match g e.1 with
      | some k => (k, e.2) :: rekey g rest
      | none => rekey g rest := by
  cases named : g e.1 <;> simp [rekey, named]

theorem Apart.beq (apart : Apart g) (named : g key = some key') {k : κ} {k' : κ'}
    (other : g k = some k') : (k' == key') = (k == key) := by
  by_cases same : k = key
  · subst same
    cases named.symm.trans other
    simp
  · rw [beq_eq_false_iff_ne.mpr same, beq_eq_false_iff_ne]
    rintro rfl
    exact same (apart other named)

theorem get?_rekey (apart : Apart g) (named : g key = some key') (entries : List (κ × α)) :
    get? key' (rekey g entries) = get? key entries := by
  induction entries with
  | nil => rfl
  | cons e rest ih =>
    rw [rekey_cons]
    cases other : g e.1 with
    | some k => simp only [get?, apart.beq named other, ih]
    | none =>
      have unnamed : (e.1 == key) = false := by
        refine beq_eq_false_iff_ne.mpr ?_
        rintro rfl
        cases named.symm.trans other
      simp only [get?, unnamed, Bool.false_eq_true, if_false, ih]

theorem rekey_insert (apart : Apart g) (named : g key = some key') (a : α)
    (entries : List (κ × α)) :
    rekey g (insert key a entries) = insert key' a (rekey g entries) := by
  induction entries with
  | nil => simp [insert, rekey, named]
  | cons e rest ih =>
    rw [insert]
    cases same : e.1 == key with
    | true =>
      have here := eq_of_beq same
      rw [if_pos rfl, rekey_cons, rekey_cons]
      simp only [here, named, insert, beq_self_eq_true, if_true]
    | false =>
      rw [if_neg Bool.false_ne_true, rekey_cons, rekey_cons, ih]
      cases other : g e.1 with
      | some k => simp only [insert, apart.beq named other, same, Bool.false_eq_true, if_false]
      | none => rfl

theorem rekey_erase (apart : Apart g) (named : g key = some key') (entries : List (κ × α)) :
    rekey g (erase key entries) = erase key' (rekey g entries) := by
  induction entries with
  | nil => rfl
  | cons e rest ih =>
    rw [erase]
    cases same : e.1 == key with
    | true =>
      rw [if_pos rfl, rekey_cons, eq_of_beq same]
      simp only [named, erase, beq_self_eq_true, if_true]
    | false =>
      rw [if_neg Bool.false_ne_true, rekey_cons, rekey_cons, ih]
      cases other : g e.1 with
      | some k => simp only [erase, apart.beq named other, same, Bool.false_eq_true, if_false]
      | none => rfl

end Rekeyed

end Runbook.Entries

namespace Runbook

theorem Scalar.str_beq (a b : String) : (Scalar.str a == Scalar.str b) = (a == b) := by
  show decide (Scalar.str a = Scalar.str b) = (a == b)
  by_cases same : a = b <;> simp [same]

theorem Value.field?_record (fields : List (String × Value)) (name : String) :
    (Value.record fields).field? name = Entries.get? name fields := by
  show Entries.get? (.str name) (fields.map fun e => (Scalar.str e.1, id e.2)) = _
  rw [Entries.get?_map Scalar.str_beq, Option.map_id, id]

end Runbook
