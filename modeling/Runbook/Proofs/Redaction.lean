import Runbook.Proofs.History.Document
import Runbook.Proofs.Text.Cutting

/-! What redaction leaves of a value.

Redaction goes into lists and mappings, and into the data text of a mapping where a text looks like
a file. A value stays as it is exactly where no part of it is a payload and each text that is opened
is spelled as redaction spells it (`redact_eq`). Elsewhere it differs in the contents of payloads and
in the spelling of such texts, and in nothing else; and a value is lost only where something in it is
nested too deeply (`kept_redacts`).

A text that is read has shorter texts in it only (`length_of_parse`). So a proof about all values may
go into texts as redaction does (`Value.induction`), and a depth that is enough is as good as any
other (`text_eq`). -/
namespace Runbook

/-! ### Parts of values -/

namespace Value

mutual

/-- What holds of scalars, and of containers of what it holds of, holds of every value. -/
theorem forall_of_containers {P : Value → Prop} (scalar : ∀ s, P (.scalar s))
    (list : ∀ items, (∀ v ∈ items, P v) → P (.list items))
    (map : ∀ entries, (∀ e ∈ entries, P e.2) → P (.map entries)) : (v : Value) → P v
  | .scalar s => scalar s
  | .list items => list items (forall_mem_of_containers scalar list map items)
  | .map entries => map entries (forall_entries_of_containers scalar list map entries)

theorem forall_mem_of_containers {P : Value → Prop} (scalar : ∀ s, P (.scalar s))
    (list : ∀ items, (∀ v ∈ items, P v) → P (.list items))
    (map : ∀ entries, (∀ e ∈ entries, P e.2) → P (.map entries)) :
    (items : List Value) → ∀ v ∈ items, P v
  | [] => List.forall_mem_nil _
  | v :: rest => List.forall_mem_cons.mpr
    ⟨forall_of_containers scalar list map v, forall_mem_of_containers scalar list map rest⟩

theorem forall_entries_of_containers {P : Value → Prop} (scalar : ∀ s, P (.scalar s))
    (list : ∀ items, (∀ v ∈ items, P v) → P (.list items))
    (map : ∀ entries, (∀ e ∈ entries, P e.2) → P (.map entries)) :
    (entries : List (Scalar × Value)) → ∀ e ∈ entries, P e.2
  | [] => List.forall_mem_nil _
  | e :: rest => List.forall_mem_cons.mpr
    ⟨forall_of_containers scalar list map e.2, forall_entries_of_containers scalar list map rest⟩

end

/-- A part of a value, so many levels down: the value itself, or a part of an item, of a value of a
mapping, or of the mapping that a text is the data text of, if the text is one of those that are
opened. -/
inductive Part (opens : String → Prop) (w : Value) : Nat → Value → Prop
  | self : Part opens w 0 w
  | item {n : Nat} {items : List Value} {v : Value} (there : v ∈ items) (part : Part opens w n v) :
    Part opens w (n + 1) (.list items)
  | entry {n : Nat} {entries : List (Scalar × Value)} {e : Scalar × Value} (there : e ∈ entries)
    (part : Part opens w n e.2) : Part opens w (n + 1) (.map entries)
  | inside {n : Nat} {s : String} {entries : List (Scalar × Value)} (opened : opens s)
    (read : Json.parse s = .ok (.map entries)) (part : Part opens w n (.map entries)) :
    Part opens w (n + 1) (.str s)

theorem Part.mono {opens more : String → Prop} (le : ∀ s, opens s → more s) {n : Nat} {v w : Value}
    (h : Part opens w n v) : Part more w n v := by
  induction h with
  | self => exact .self
  | item there _ ih => exact .item there ih
  | entry there _ ih => exact .entry there ih
  | inside opened read _ ih => exact .inside (le _ opened) read ih

/-- What holds of each part of a value at its level. -/
def Throughout (opens : String → Prop) (P : Nat → Value → Prop) (v : Value) : Prop :=
  ∀ n w, Part opens w n v → P n w

section Throughout
variable {opens more : String → Prop} {P Q : Nat → Value → Prop}

theorem Throughout.mono {v : Value} (h : Throughout more P v) (le : ∀ s, opens s → more s)
    (imp : ∀ n w, P n w → Q n w) : Throughout opens Q v :=
  fun n w part => imp n w (h n w (part.mono le))

theorem throughout_scalar {s : Scalar} (noText : ∀ t, s ≠ .str t) :
    Throughout opens P (.scalar s) ↔ P 0 (.scalar s) := by
  refine ⟨fun h => h _ _ .self, fun h n w part => ?_⟩
  cases part with
  | self => exact h
  | inside => exact absurd rfl (noText _)

theorem throughout_str {s : String} : Throughout opens P (.str s) ↔
    P 0 (.str s) ∧ (opens s → ∀ entries, Json.parse s = .ok (.map entries) →
      Throughout opens (fun n => P (n + 1)) (.map entries)) := by
  constructor
  · exact fun h => ⟨h _ _ .self, fun opened _ read n w part => h _ w (.inside opened read part)⟩
  · intro h n w part
    cases part with
    | self => exact h.1
    | inside opened read part => exact h.2 opened _ read _ w part

theorem throughout_list {items : List Value} : Throughout opens P (.list items) ↔
    P 0 (.list items) ∧ ∀ v ∈ items, Throughout opens (fun n => P (n + 1)) v := by
  constructor
  · exact fun h => ⟨h _ _ .self, fun _ there n w part => h _ w (.item there part)⟩
  · intro h n w part
    cases part with
    | self => exact h.1
    | item there part => exact h.2 _ there _ w part

theorem throughout_map {entries : List (Scalar × Value)} : Throughout opens P (.map entries) ↔
    P 0 (.map entries) ∧ ∀ e ∈ entries, Throughout opens (fun n => P (n + 1)) e.2 := by
  constructor
  · exact fun h => ⟨h _ _ .self, fun _ there n w part => h _ w (.entry there part)⟩
  · intro h n w part
    cases part with
    | self => exact h.1
    | entry there part => exact h.2 _ there _ w part

end Throughout

/-- A text in a value that stands there as it is, in no other text. -/
def TextIn (s : String) (v : Value) : Prop := ∃ n, Part (fun _ => False) (.str s) n v

theorem textIn_str {s t : String} : TextIn t (.str s) ↔ t = s := by
  constructor
  · rintro ⟨_, _ | _ | _ | ⟨opened, -, -⟩⟩
    · rfl
    · exact opened.elim
  · rintro rfl
    exact ⟨_, .self⟩

theorem TextIn.of_scalar {s : Scalar} {t : String} (h : TextIn t (.scalar s)) : s = .str t := by
  obtain ⟨_, _ | _ | _ | ⟨opened, -, -⟩⟩ := h
  · rfl
  · exact opened.elim

theorem TextIn.item {s : String} {items : List Value} {v : Value} (there : v ∈ items)
    (h : TextIn s v) : TextIn s (.list items) := h.imp' _ fun _ part => .item there part

theorem TextIn.entry {s : String} {entries : List (Scalar × Value)} {e : Scalar × Value}
    (there : e ∈ entries) (h : TextIn s e.2) : TextIn s (.map entries) :=
  h.imp' _ fun _ part => .entry there part

end Value

namespace Json

/-! ### Texts in data text -/

theorem ne_str_of_atom {cs rest : List Char} {v : Value} (h : atom cs = .ok (v, rest)) (s : String) :
    v ≠ .str s := by
  rintro rfl
  rcases atom_cases h with ⟨name, listed, -⟩ | ⟨⟨t, same, -, number⟩, -⟩
  · simp [named, Value.str, Value.null, Value.bool, Value.float] at listed
  · cases same
    rcases number with ⟨_, same⟩ | ⟨_, same⟩ <;> cases same

theorem readable_shorter : Readable fun _ n v => ∀ s, Value.TextIn s v → s.length + 2 ≤ n where
  text short s there := Value.textIn_str.mp there ▸ short
  atom h s there := by
    obtain ⟨t, rfl, -⟩ := scalar_of_atom h
    exact absurd (congrArg Value.scalar there.of_scalar) (ne_str_of_atom h s)
  list h := by
    rintro s ⟨_, _ | ⟨there, part⟩⟩
    exact h _ there s ⟨_, part⟩
  record _ h := by
    rintro s ⟨_, _ | _ | ⟨there, part⟩⟩
    obtain ⟨e, listed, rfl⟩ := List.mem_map.mp there
    exact h e listed s ⟨_, part⟩

/-- A text in a value is shorter than the data text that the value is read from. -/
theorem length_of_parse {s t : String} {v : Value} (read : parse s = .ok v) (there : Value.TextIn t v) :
    t.length < s.length := Nat.le_of_succ_le (readable_shorter.parse read t there)

end Json

namespace Value

variable {P : Value → Prop}

theorem forall_of_texts (scalar : ∀ s : Scalar, (∀ t, s ≠ .str t) → P (.scalar s))
    (list : ∀ items, (∀ v ∈ items, P v) → P (.list items))
    (map : ∀ entries, (∀ e ∈ entries, P e.2) → P (.map entries)) {v : Value}
    (texts : ∀ s, TextIn s v → P (.str s)) : P v := by
  induction v using forall_of_containers with
  | scalar s =>
    cases s with
    | str s => exact texts s (textIn_str.mpr rfl)
    | _ => exact scalar _ nofun
  | list items ih =>
    exact list items fun v there => ih v there fun s inside => texts s (.item there inside)
  | map entries ih =>
    exact map entries fun e there => ih e there fun s inside => texts s (.entry there inside)

/-- What holds of scalars, of containers of what it holds of, and of texts if it holds of the mapping
that they are the data text of, holds of every value: each text inside a text is shorter. -/
theorem induction (scalar : ∀ s : Scalar, (∀ t, s ≠ .str t) → P (.scalar s))
    (text : ∀ s, (∀ entries, Json.parse s = .ok (.map entries) → P (.map entries)) → P (.str s))
    (list : ∀ items, (∀ v ∈ items, P v) → P (.list items))
    (map : ∀ entries, (∀ e ∈ entries, P e.2) → P (.map entries)) (v : Value) : P v := by
  have texts (n : Nat) : ∀ s : String, s.length < n → P (.str s) := by
    induction n with
    | zero => exact fun s less => absurd less (Nat.not_lt_zero _)
    | succ n ih =>
      intro s less
      refine text s fun entries read => forall_of_texts scalar list map fun t there => ih t ?_
      exact Nat.lt_of_lt_of_le (Json.length_of_parse read there) (Nat.le_of_lt_succ less)
  exact forall_of_texts scalar list map fun s _ => texts _ s (Nat.lt_succ_self _)

end Value

namespace Redaction

variable {v w : Value} {s t : String} {entries : List (Scalar × Value)}

/-! ### Enough depth -/

/-- Redacting depends on what is made of the texts that stand in a value. -/
theorem value_congr {f g : String → String} (same : ∀ s, Value.TextIn s v → f s = g s) :
    value f v = value g v := by
  induction v using Value.forall_of_containers with
  | scalar s =>
    cases s with
    | str s => exact congrArg Value.str (same s (Value.textIn_str.mpr rfl))
    | _ => rfl
  | list items ih =>
    rw [value, value, values_eq, values_eq]
    exact congrArg Value.list (List.map_congr_left fun v there =>
      ih v there fun s inside => same s (.item there inside))
  | map entries ih =>
    rw [value, value, entryValues_eq, entryValues_eq]
    refine congrArg (Value.map <| content entries ·) (List.map_congr_left fun e there => ?_)
    rw [ih e there fun s inside => same s (.entry there inside)]

/-- A text that looks like a file, and the mapping that it is the data text of. -/
def Opens (s : String) (entries : List (Scalar × Value)) : Prop :=
  isSuspect s = true ∧ Json.parse s = .ok (.map entries)

theorem text_of_opens (opens : Opens s entries) (n : Nat) :
    text (n + 1) s =
      (Json.render Json.spaced (value (text n) (.map entries))).toOption.getD s := by
  simp only [text, opens.1, opens.2, if_true]
  cases Json.render Json.spaced (value (text n) (.map entries)) <;> rfl

theorem text_of_closed (closed : ∀ entries, ¬ Opens s entries) (n : Nat) : text n s = s := by
  cases n with
  | zero => rfl
  | succ n =>
    rw [text]
    split
    · rename_i suspect
      split
      · rename_i read
        exact absurd ⟨suspect, read⟩ (closed _)
      · rfl
    · rfl

/-- No depth beyond the length of a text makes a difference. -/
theorem text_eq {n : Nat} (enough : s.length ≤ n) : text n s = keptText s := by
  induction n using Nat.strong_induction_on generalizing s with
  | _ n ih =>
  by_cases opened : ∃ entries, Opens s entries
  · obtain ⟨entries, opens⟩ := opened
    have long : 0 < s.length := Nat.zero_lt_of_lt (length_of_suspect opens.1)
    obtain ⟨k, length⟩ := Nat.exists_eq_succ_of_ne_zero (Nat.ne_of_gt long)
    obtain ⟨m, rfl⟩ := Nat.exists_eq_succ_of_ne_zero (Nat.ne_of_gt (Nat.lt_of_lt_of_le long enough))
    have same : value (text m) (.map entries) = value (text k) (.map entries) := by
      refine value_congr fun t there => ?_
      have shorter := Json.length_of_parse opens.2 there
      rw [ih m (Nat.lt_succ_self _) (by omega), ih k (by omega) (by omega)]
    rw [keptText, length, text_of_opens opens, text_of_opens opens, same]
  · have closed := not_exists.mp opened
    rw [keptText, text_of_closed closed, text_of_closed closed]

theorem keptText_of_closed (closed : ∀ entries, ¬ Opens s entries) : keptText s = s :=
  text_of_closed closed _

/-- A text that is opened becomes the data text of the redacted mapping, which is read as that. -/
theorem render_of_opens (opens : Opens s entries) :
    Json.render Json.spaced (redact (.map entries)) = .ok (keptText s) ∧
      Json.parse (keptText s) = .ok (redact (.map entries)) := by
  have legible : Json.Legible Json.depthLimit (redact (.map entries)) :=
    legible_value (Json.readable_legible.parse opens.2)
  obtain ⟨t, rendered⟩ := (Json.render_isOk Json.spaced _).mpr legible.writable
  obtain ⟨k, length⟩ := Nat.exists_eq_succ_of_ne_zero
    (Nat.ne_of_gt (Nat.zero_lt_of_lt (length_of_suspect opens.1)))
  have enough : value (text k) (.map entries) = redact (.map entries) := by
    refine value_congr fun t there => text_eq ?_
    have shorter := Json.length_of_parse opens.2 there
    omega
  have kept : keptText s = t := by
    rw [keptText, length, text_of_opens opens, enough, rendered]
    rfl
  rw [kept]
  exact ⟨rendered, Json.parse_of_legible (by simp [Json.layouts]) legible rendered⟩

/-! ### Payloads -/

/-- A mapping with binary content that is too long to be kept. -/
def IsPayload (entries : List (Scalar × Value)) (data : String) : Prop :=
  Entries.get? (.str "contentType") entries = some (.str "binary") ∧
    Entries.get? (.str "data") entries = some (.str data) ∧ limit < data.length

theorem content_of_payload {data : String} (payload : IsPayload entries data)
    (inside : List (Scalar × Value)) :
    content entries inside = Entries.insert (.str "data") (.str (note data.length)) inside := by
  rw [content, payload.1, payload.2.1]
  exact if_pos payload.2.2

theorem content_of_other (other : ∀ data, ¬ IsPayload entries data)
    (inside : List (Scalar × Value)) : content entries inside = inside := by
  unfold content
  split
  · rename_i data contentType found
    exact if_neg fun long => other data ⟨contentType, found, long⟩
  · rfl

theorem length_note (n : Nat) : (note n).length = 14 + (Nat.repr n).length + 7 := by
  rw [note, String.length_append, String.length_append]
  rfl

/-- What is kept of a long content is shorter than the content. -/
theorem length_note_lt {data : String} (long : limit < data.length) :
    (note data.length).length < data.length := by
  have room : 1000 < data.length := long
  obtain ⟨k, length⟩ := Nat.exists_eq_add_of_le (Nat.le_of_lt room)
  have below : data.length < 10 ^ (k + 977) := by
    have grown : k + 976 < 10 ^ (k + 976) := Nat.lt_pow_self (by decide)
    rw [Nat.pow_succ]
    omega
  have digits := Nat.repr_length _ (k + 977) (Nat.succ_pos _) below
  have whole := length_note data.length
  omega

/-! ### What redaction leaves as it is -/

theorem redact_list_eq {items : List Value} :
    redact (.list items) = .list items ↔ ∀ v ∈ items, redact v = v := by
  show Value.list (values keptText items) = .list items ↔ _
  have each := List.map_inj_left (l := items) (f := redact) (g := id)
  rw [List.map_id] at each
  rw [Value.list.injEq, values_eq]
  exact each

theorem redact_map_of_payload {data : String} (payload : IsPayload entries data) :
    redact (.map entries) ≠ .map entries := by
  intro same
  have inside : Entries.insert (.str "data") (.str (note data.length))
      (entryValues keptText entries) = entries := by
    rw [← content_of_payload payload]
    exact Value.map.inj same
  have noted : Entries.get? (.str "data") entries = some (.str (note data.length)) := by
    rw [← inside]
    exact Entries.get?_insert_same (by rw [Scalar.str_beq, beq_self_eq_true]) _ _
  rw [payload.2.1] at noted
  have kept : data = note data.length := Scalar.str.inj (Value.scalar.inj (Option.some.inj noted))
  exact absurd (congrArg String.length kept) (Nat.ne_of_gt (length_note_lt payload.2.2))

theorem redact_map_eq :
    redact (.map entries) = .map entries ↔
      (∀ data, ¬ IsPayload entries data) ∧ ∀ e ∈ entries, redact e.2 = e.2 := by
  by_cases payload : ∃ data, IsPayload entries data
  · obtain ⟨data, payload⟩ := payload
    exact ⟨fun same => absurd same (redact_map_of_payload payload),
      fun each => absurd payload (each.1 data)⟩
  · have other := not_exists.mp payload
    show Value.map (content entries (entryValues keptText entries)) = .map entries ↔ _
    have each := List.map_inj_left (l := entries) (f := fun e => (e.1, redact e.2)) (g := id)
    rw [List.map_id] at each
    rw [Value.map.injEq, content_of_other other, entryValues_eq]
    exact each.trans ⟨fun same => ⟨other, fun e there => congrArg Prod.snd (same e there)⟩,
      fun same e there => Prod.ext rfl (same.2 e there)⟩

theorem redact_str_eq : redact (.str s) = .str s ↔ ∀ entries, Opens s entries →
    Json.render Json.spaced (.map entries) = .ok s ∧ redact (.map entries) = .map entries := by
  show Value.scalar (.str (keptText s)) = .scalar (.str s) ↔ _
  rw [Value.scalar.injEq, Scalar.str.injEq]
  constructor
  · intro same entries opens
    obtain ⟨written, read⟩ := render_of_opens opens
    rw [same] at written read
    have whole : redact (.map entries) = .map entries := Except.ok.inj (read.symm.trans opens.2)
    exact ⟨whole ▸ written, whole⟩
  · intro spelled
    by_cases opened : ∃ entries, Opens s entries
    · obtain ⟨entries, opens⟩ := opened
      obtain ⟨written, whole⟩ := spelled entries opens
      have kept := (render_of_opens opens).1
      rw [whole, written] at kept
      exact (Except.ok.inj kept).symm
    · exact keptText_of_closed (not_exists.mp opened)

/-- A value that is no payload. -/
def NoPayload : Value → Prop
  | .map entries => ∀ data, ¬ IsPayload entries data
  | _ => True

/-- A value that is spelled as redaction spells it: a text that is opened is the spaced data text of
its mapping. -/
def Spelled : Value → Prop
  | .str s => ∀ entries, Opens s entries → Json.render Json.spaced (.map entries) = .ok s
  | _ => True

/-- Redaction leaves a value as it is where no part of it is a payload and none spelled otherwise. -/
theorem redact_eq (v : Value) :
    redact v = v ↔ v.Throughout (isSuspect · = true) fun _ w => NoPayload w ∧ Spelled w := by
  induction v using Value.induction with
  | scalar s noText =>
    rw [Value.throughout_scalar noText]
    cases s with
    | str s => exact absurd rfl (noText s)
    | _ => exact ⟨fun _ => ⟨trivial, trivial⟩, fun _ => rfl⟩
  | text s ih =>
    rw [redact_str_eq, Value.throughout_str]
    constructor
    · intro kept
      exact ⟨⟨trivial, fun entries opens => (kept entries opens).1⟩, fun suspect entries read =>
        (ih entries read).mp (kept entries ⟨suspect, read⟩).2⟩
    · intro h entries opens
      exact ⟨h.1.2 entries opens, (ih entries opens.2).mpr (h.2 opens.1 entries opens.2)⟩
  | list items ih =>
    rw [redact_list_eq, Value.throughout_list]
    exact ⟨fun kept => ⟨⟨trivial, trivial⟩, fun v there => (ih v there).mp (kept v there)⟩,
      fun h v there => (ih v there).mpr (h.2 v there)⟩
  | map entries ih =>
    rw [redact_map_eq, Value.throughout_map]
    exact ⟨fun kept => ⟨⟨kept.1, trivial⟩, fun e there => (ih e there).mp (kept.2 e there)⟩,
      fun h => ⟨h.1.1, fun e there => (ih e there).mpr (h.2 e there)⟩⟩

/-- A short text that is no data text of a mapping has nothing in it for redaction. -/
theorem throughout_of_short (short : s.length ≤ limit)
    (closed : ∀ entries, Json.parse s ≠ .ok (.map entries)) :
    (Value.str s).Throughout (fun _ => True) fun _ w => NoPayload w ∧ Spelled w :=
  Value.throughout_str.mpr
    ⟨⟨trivial, fun _ opens => absurd (length_of_suspect opens.1) (Nat.not_lt.mpr short)⟩,
      fun _ entries read => absurd read (closed entries)⟩

/-! ### What redaction changes -/

/-- `Redacts v w` says that `w` is `v` but for two things: the content of a payload is replaced by a
note of its length, and a text that is opened by the spaced data text of its redacted mapping, which
is read as that mapping. -/
inductive Redacts : Value → Value → Prop
  | scalar {s : Scalar} (noText : ∀ t, s ≠ .str t) : Redacts (.scalar s) (.scalar s)
  | closed {s : String} (closed : ∀ entries, ¬ Opens s entries) : Redacts (.str s) (.str s)
  | opened {s t : String} {entries : List (Scalar × Value)} {w : Value} (opens : Opens s entries)
    (redacted : Redacts (.map entries) w) (written : Json.render Json.spaced w = .ok t)
    (read : Json.parse t = .ok w) : Redacts (.str s) (.str t)
  | list {items redacted : List Value} (each : List.Forall₂ Redacts items redacted) :
    Redacts (.list items) (.list redacted)
  | other {entries redacted : List (Scalar × Value)} (other : ∀ data, ¬ IsPayload entries data)
    (keys : Entries.keys redacted = Entries.keys entries)
    (each : List.Forall₂ Redacts (entries.map (·.2)) (redacted.map (·.2))) :
    Redacts (.map entries) (.map redacted)
  | payload {entries redacted : List (Scalar × Value)} {data : String}
    (payload : IsPayload entries data) (keys : Entries.keys redacted = Entries.keys entries)
    (each : List.Forall₂ Redacts (entries.map (·.2)) (redacted.map (·.2))) :
    Redacts (.map entries)
      (.map (Entries.insert (.str "data") (.str (note data.length)) redacted))

theorem redacts_redact (v : Value) : Redacts v (redact v) := by
  induction v using Value.induction with
  | scalar s noText =>
    cases s with
    | str s => exact absurd rfl (noText s)
    | _ => exact .scalar noText
  | text s ih =>
    show Redacts (.str s) (.str (keptText s))
    by_cases opened : ∃ entries, Opens s entries
    · obtain ⟨entries, opens⟩ := opened
      obtain ⟨written, read⟩ := render_of_opens opens
      exact .opened opens (ih entries opens.2) written read
    · have closed := not_exists.mp opened
      rw [keptText_of_closed closed]
      exact .closed closed
  | list items ih =>
    show Redacts (.list items) (.list (values keptText items))
    rw [values_eq]
    exact .list (List.forall₂_map_right_iff.mpr (List.forall₂_same.mpr ih))
  | map entries ih =>
    show Redacts (.map entries) (.map (content entries (entryValues keptText entries)))
    have keys : Entries.keys (entryValues keptText entries) = Entries.keys entries := by
      rw [entryValues_eq, Entries.keys, List.map_map]
      rfl
    have each : List.Forall₂ Redacts (entries.map (·.2))
        ((entryValues keptText entries).map (·.2)) := by
      rw [entryValues_eq, List.map_map, List.forall₂_map_left_iff, List.forall₂_map_right_iff]
      exact List.forall₂_same.mpr ih
    by_cases payload : ∃ data, IsPayload entries data
    · obtain ⟨data, payload⟩ := payload
      rw [content_of_payload payload]
      exact .payload payload keys each
    · have other := not_exists.mp payload
      rw [content_of_other other]
      exact .other other keys each

/-! ### How deep redaction goes -/

/-- What there is room for inside `level` others where `limit` may stand inside one another: any
scalar but a text that looks like a file, and containers and such texts while `level` is below
`limit`. Such a text must not be nested too deeply to be read, either. -/
def HasRoom (limit level : Nat) : Value → Prop
  | .str s => isSuspect s = true →
    level < limit ∧ ∀ f, Json.parse s = .error f → f.isBadValue = true
  | .scalar _ => True
  | _ => level < limit

theorem hasRoom_succ {limit level : Nat} : HasRoom (limit + 1) (level + 1) v ↔ HasRoom limit level v := by
  cases v with
  | scalar s =>
    cases s with
    | str s => exact imp_congr_right fun _ => and_congr_left' Nat.succ_lt_succ_iff
    | _ => exact Iff.rfl
  | list | map => exact Nat.succ_lt_succ_iff

theorem throughout_hasRoom_succ {opens : String → Prop} {limit : Nat} :
    (v.Throughout opens fun level => HasRoom (limit + 1) (level + 1)) ↔
      v.Throughout opens (HasRoom limit) :=
  forall₂_congr fun _ _ => imp_congr_right fun _ => hasRoom_succ

theorem fits_of_closed (closed : isSuspect s = false) (limit : Nat) : fits limit (.str s) = true := by
  cases limit <;> unfold fits <;> rw [closed] <;> rfl

theorem fits_str {limit : Nat} : fits (limit + 1) (.str s) = true ↔ (isSuspect s = true →
    (∀ f, Json.parse s = .error f → f.isBadValue = true) ∧
      ∀ entries, Json.parse s = .ok (.map entries) → fits limit (.map entries) = true) := by
  rw [fits.eq_def]
  dsimp only
  cases isSuspect s with
  | false => exact iff_of_true rfl nofun
  | true =>
    rw [Bool.not_true, Bool.false_or]
    cases Json.parse s with
    | error f => simp
    | ok w =>
      cases w with
      | map entries =>
        constructor
        · intro fit _
          refine ⟨nofun, fun _ same => ?_⟩
          cases same
          exact fit
        · exact fun h => (h rfl).2 entries rfl
      | scalar | list => exact iff_of_true rfl fun _ => ⟨nofun, nofun⟩

/-- A value can be redacted within a depth exactly where there is room for each of its parts. -/
theorem fits_iff {limit : Nat} :
    fits limit v = true ↔ v.Throughout (isSuspect · = true) (HasRoom limit) := by
  induction v using Value.induction generalizing limit with
  | scalar s noText =>
    rw [Value.throughout_scalar noText]
    cases s with
    | str s => exact absurd rfl (noText s)
    | _ => exact iff_of_true (by cases limit <;> rfl) trivial
  | text s ih =>
    rw [Value.throughout_str]
    cases limit with
    | zero =>
      cases suspect : isSuspect s with
      | false =>
        refine iff_of_true (fits_of_closed suspect 0) ⟨fun opened => ?_, nofun⟩
        exact absurd (suspect.symm.trans opened) Bool.false_ne_true
      | true =>
        refine iff_of_false ?_ fun h => absurd (h.1 suspect).1 (Nat.not_lt_zero _)
        unfold fits
        rw [suspect]
        exact Bool.false_ne_true
    | succ limit =>
      rw [fits_str]
      constructor
      · intro fit
        exact ⟨fun suspect => ⟨Nat.zero_lt_succ _, (fit suspect).1⟩, fun suspect entries read =>
          throughout_hasRoom_succ.mpr ((ih entries read).mp ((fit suspect).2 entries read))⟩
      · intro room suspect
        exact ⟨(room.1 suspect).2, fun entries read =>
          (ih entries read).mpr (throughout_hasRoom_succ.mp (room.2 suspect entries read))⟩
  | list items ih =>
    rw [Value.throughout_list]
    cases limit with
    | zero => exact iff_of_false nofun fun h => absurd h.1 (Nat.not_lt_zero _)
    | succ limit =>
      have room : HasRoom (limit + 1) 0 (.list items) := Nat.zero_lt_succ _
      rw [fits, List.all_eq_true, and_iff_right room]
      exact forall₂_congr fun v there => (ih v there).trans throughout_hasRoom_succ.symm
  | map entries ih =>
    rw [Value.throughout_map]
    cases limit with
    | zero => exact iff_of_false nofun fun h => absurd h.1 (Nat.not_lt_zero _)
    | succ limit =>
      have room : HasRoom (limit + 1) 0 (.map entries) := Nat.zero_lt_succ _
      rw [fits, List.all_eq_true, and_iff_right room]
      exact forall₂_congr fun v there => (ih v there).trans throughout_hasRoom_succ.symm

/-- A value is kept unless something in it is nested too deeply. What is kept is the value itself
exactly where no part of it is a payload and each text that is opened is spelled as redaction spells
it; elsewhere it differs in the contents of payloads and in the spelling of such texts. -/
theorem kept_redacts (v : Value) :
    ¬ v.Throughout (isSuspect · = true) (HasRoom depthLimit) ∧ kept v = .error .tooDeep ∨
      v.Throughout (isSuspect · = true) (HasRoom depthLimit) ∧ ∃ w, kept v = .ok w ∧ Redacts v w ∧
        (w = v ↔ v.Throughout (isSuspect · = true) fun _ u => NoPayload u ∧ Spelled u) ∧
        (v.Throughout (fun _ => True) (fun _ => NoPayload) →
          (w = v ↔ v.Throughout (isSuspect · = true) fun _ => Spelled)) := by
  rw [← fits_iff]
  by_cases fit : fits depthLimit v = true
  · refine .inr ⟨fit, redact v, if_pos fit, redacts_redact v, redact_eq v, fun none => ?_⟩
    rw [redact_eq]
    constructor
    · exact fun h => h.mono (fun _ => id) fun _ _ both => both.2
    · exact fun h n u part => ⟨none n u (part.mono fun _ _ => trivial), h n u part⟩
  · exact .inl ⟨fit, if_neg fit⟩

/-- A payload that is short enough to be kept. -/
def smallPayload : Value := .list [.record [("contentType", .str "binary"), ("data", .str "AAAA")]]

theorem kept_redacts_small : kept smallPayload = .ok smallPayload := by
  have whole : smallPayload.Throughout (fun _ => True) fun _ w => NoPayload w ∧ Spelled w := by
    refine Value.throughout_list.mpr ⟨⟨trivial, trivial⟩, List.forall_mem_singleton.mpr
      (Value.throughout_map.mpr ⟨⟨fun data payload => ?_, trivial⟩, List.forall_mem_cons.mpr
        ⟨throughout_of_short (by decide) nofun, List.forall_mem_singleton.mpr
          (throughout_of_short (by decide) nofun)⟩⟩)⟩
    have found : some (Value.str "AAAA") = some (.str data) := payload.2.1
    cases found
    exact absurd payload.2.2 (by decide)
  have none := whole.mono (fun _ => id) fun _ _ both => both.1
  have spelled : smallPayload.Throughout (isSuspect · = true) fun _ => Spelled :=
    whole.mono (fun _ _ => trivial) fun _ _ both => both.2
  obtain ⟨unfit, -⟩ | ⟨-, w, kept, -, -, same⟩ := kept_redacts smallPayload
  · exact absurd (fits_iff.mp rfl) unfit
  · rw [kept, (same none).mpr spelled]

/-! ### A text that is spelled otherwise -/

/-- A mapping that speaks of binary content and has none, with a text in it. -/
def mention (run : List Char) : Value :=
  .record [("kind", .str "binary"), ("text", .str (String.ofList run))]

/-- The data text of such a mapping, on one line. -/
def mentionText (style : Json.Style) (run : List Char) : List Char :=
  '{' :: "\"kind\"".toList ++ style.colon.toList ++ "\"binary\"".toList ++
    (style.comma.toList ++ "\"text\"".toList ++ style.colon.toList ++ ('"' :: (run ++ ['"'])) ++
      ['}'])

section Mention
variable {run : List Char}

theorem length_mentionText (style : Json.Style) (run : List Char) :
    (mentionText style run).length =
      24 + 2 * style.colon.length + style.comma.length + run.length := by
  have kind : "\"kind\"".length = 6 := rfl
  have binary : "\"binary\"".length = 8 := rfl
  have text : "\"text\"".length = 6 := rfl
  simp only [mentionText, List.length_append, List.length_cons, List.length_nil,
    String.length_toList]
  omega

theorem render_mention (plain : ∀ c ∈ run, Json.IsPlain c) {style : Json.Style}
    (flat : style.indent = none) :
    Json.render style (mention run) = .ok (String.ofList (mentionText style run)) := by
  have quoted : Json.quote (String.ofList run) = '"' :: (run ++ ['"']) := by
    rw [Json.quote, String.toList_ofList, Json.escapeAll_of_plain plain]
    rfl
  have kind : Json.quote "kind" = "\"kind\"".toList := by decide
  have binary : Json.quote "binary" = "\"binary\"".toList := by decide
  have text : Json.quote "text" = "\"text\"".toList := by decide
  have written : Json.write style 0 (mention run) = .ok (mentionText style run) := by
    show Json.write style 0 (.map [(.str "kind", .scalar (.str "binary")),
      (.str "text", .scalar (.str (String.ofList run)))]) = _
    simp only [Json.write, Json.writeEntries, Json.writeKey, Json.writeScalar, kind, binary, text,
      quoted, Json.Written.refused_ok, Json.newline, flat, Json.Written.ok_append, List.append_nil,
      List.nil_append, mentionText, List.singleton_append]
  rw [Json.render, written]
  rfl

theorem throughout_mention (short : run.length ≤ limit)
    (closed : ∀ entries, Json.parse (String.ofList run) ≠ .ok (.map entries)) :
    (mention run).Throughout (fun _ => True) fun _ w => NoPayload w ∧ Spelled w := by
  refine Value.throughout_map.mpr ⟨⟨fun data payload => ?_, trivial⟩, List.forall_mem_cons.mpr
    ⟨throughout_of_short (by decide) nofun, List.forall_mem_singleton.mpr
      (throughout_of_short ?_ closed)⟩⟩
  · cases payload.1
  · rwa [String.length_ofList]

/-- The compact data text is opened where it is long. -/
theorem opens_mention (plain : ∀ c ∈ run, Json.IsPlain c)
    (long : limit < (mentionText Json.compact run).length) :
    isSuspect (String.ofList (mentionText Json.compact run)) = true ∧
      Json.parse (String.ofList (mentionText Json.compact run)) = .ok (mention run) := by
  have legible : Json.Legible 1 (mention run) := .record (show ["kind", "text"].Nodup by decide)
    (List.forall_mem_cons.mpr ⟨.scalar trivial, List.forall_mem_singleton.mpr (.scalar trivial)⟩)
  refine ⟨?_, Json.parse_of_legible (by simp [Json.layouts]) (legible.mono (by decide))
    (render_mention plain rfl)⟩
  rw [isSuspect, String.length_ofList, String.toList_ofList, Bool.and_eq_true, Bool.and_eq_true]
  refine ⟨⟨decide_eq_true long, rfl⟩, (Text.contains_iff _ _).mpr ?_⟩
  exact ⟨"\x7b\"kind\":".toList, ",\"text\":".toList ++ '"' :: (run ++ ['"', '\x7d']), by
    simp [mentionText, Json.compact]⟩

/-- It is kept with blanks between its parts, though nothing in it is a payload. -/
theorem kept_mention (plain : ∀ c ∈ run, Json.IsPlain c) (short : run.length ≤ limit)
    (long : limit < (mentionText Json.compact run).length)
    (closed : ∀ entries, Json.parse (String.ofList run) ≠ .ok (.map entries)) :
    ((Value.str (String.ofList (mentionText Json.compact run))).Throughout (fun _ => True)
        fun _ => NoPayload) ∧
      kept (.str (String.ofList (mentionText Json.compact run))) =
        .ok (.str (String.ofList (mentionText Json.spaced run))) := by
  have opens := opens_mention plain long
  have inside := throughout_mention short closed
  constructor
  · refine Value.throughout_str.mpr ⟨trivial, fun _ entries read => ?_⟩
    rw [Except.ok.inj (read.symm.trans opens.2)]
    exact inside.mono (fun _ => id) fun _ _ both => both.1
  · have whole : redact (mention run) = mention run :=
      (redact_eq _).mpr (inside.mono (fun _ _ => trivial) fun _ _ => id)
    have written : Json.render Json.spaced (mention run) =
        .ok (keptText (String.ofList (mentionText Json.compact run))) := by
      rw [← whole]
      exact (render_of_opens opens).1
    rw [render_mention plain rfl] at written
    have fit : fits (493 + 1) (.str (String.ofList (mentionText Json.compact run))) = true := by
      refine fits_str.mpr fun _ => ⟨fun f failed => ?_, fun entries read => ?_⟩
      · cases opens.2.symm.trans failed
      rw [← Except.ok.inj (opens.2.symm.trans read)]
      show ([("kind", Value.str "binary"), ("text", .str (String.ofList run))].map _).all _ = true
      simp only [List.map_cons, List.all_cons, List.map_nil, List.all_nil]
      rw [fits_of_closed (suspect_of_short (by decide)),
        fits_of_closed (suspect_of_short (by rwa [String.length_ofList]))]
      rfl
    rw [kept, depthLimit, if_pos fit, Except.ok.inj written]
    rfl

theorem kept_respaced : ∃ s t, Json.render Json.compact (mention (List.replicate 1000 'x')) = .ok s ∧
    ((Value.str s).Throughout (fun _ => True) fun _ => NoPayload) ∧ kept (.str s) = .ok (.str t) ∧ t ≠ s := by
  have plain : ∀ c ∈ List.replicate 1000 'x', Json.IsPlain c := fun c there =>
    List.eq_of_mem_replicate there ▸ rfl
  have short : (List.replicate 1000 'x').length ≤ limit := Nat.le_of_eq List.length_replicate
  have long : limit < (mentionText Json.compact (List.replicate 1000 'x')).length := by
    rw [length_mentionText, List.length_replicate]
    decide
  have closed : ∀ entries,
      Json.parse (String.ofList (List.replicate 1000 'x')) ≠ .ok (.map entries) := by
    intro entries read
    rw [Json.parse, String.toList_ofList] at read
    cases read
  obtain ⟨none, kept⟩ := kept_mention plain short long closed
  refine ⟨_, _, render_mention plain rfl, none, kept, fun same => ?_⟩
  have lengths := congrArg String.length same
  rw [String.length_ofList, String.length_ofList, length_mentionText, length_mentionText,
    List.length_replicate] at lengths
  exact absurd lengths (by decide)

end Mention

end Redaction
end Runbook
