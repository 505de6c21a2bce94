import Mathlib.Tactic.Common
import Runbook.Text.Base64
import Runbook.Text.Utf8

/-! Text and bytes come back out of each other.

Text comes back out of its bytes. Bytes come back out of their digits: four digits of whole groups
are three bytes, and the padding behind a shorter last group ends the text just where its bytes are
complete. -/
namespace Runbook.Text

/-- The bytes from a place on, behind what was collected before. -/
theorem toList_loop (b : ByteArray) (i : Nat) (before : List UInt8) :
    ByteArray.toList.loop b i before = before.reverse ++ b.data.toList.drop i := by
  induction i, before using ByteArray.toList.loop.induct b with
  | case1 i before inside ih =>
    have bound : i < b.data.toList.length := by simpa using inside
    have here : b.get! i = b.data.toList[i] := by
      rw [ByteArray.get!, Array.getElem_toList]
      exact getElem!_pos b.data i (by simpa using inside)
    rw [ByteArray.toList.loop, if_pos inside, ih, List.drop_eq_getElem_cons bound, here,
      List.reverse_cons, List.append_assoc, List.singleton_append]
  | case2 i before outside =>
    have bound : b.data.toList.length ≤ i := by simpa using Nat.le_of_not_lt outside
    rw [ByteArray.toList.loop, if_neg outside, List.drop_eq_nil_of_le bound, List.append_nil]

theorem toList_toArray (b : ByteArray) : (⟨b.toList.toArray⟩ : ByteArray) = b := by
  rw [ByteArray.toList, toList_loop]
  rfl

theorem decode?_encode (s : String) : decode? (encode s) = some s := by
  have valid : s.toUTF8.IsValidUTF8 := s.isValidUTF8
  rw [decode?, encode, toList_toArray, String.fromUTF8?, dif_pos valid]
  rfl

theorem toArray_toList (bytes : List UInt8) : (⟨bytes.toArray⟩ : ByteArray).toList = bytes := by
  rw [ByteArray.toList, toList_loop]
  rfl

/-- Bytes hold a text where they are the bytes of that text. -/
theorem decode?_eq_some {bytes : List UInt8} {s : String} :
    decode? bytes = some s ↔ bytes = encode s := by
  refine ⟨fun h => ?_, fun h => h ▸ decode?_encode s⟩
  unfold decode? String.fromUTF8? at h
  split at h
  · cases h
    exact (toArray_toList bytes).symm
  · cases h

/-! ### Reading with replacements -/

theorem encode_eq (s : String) : encode s = s.toList.flatMap String.utf8EncodeChar := by
  have bytes : s.toUTF8 = (s.toList.flatMap String.utf8EncodeChar).toByteArray :=
    String.utf8Encode_toList.symm
  rw [encode, bytes, ByteArray.toList, toList_loop, List.data_toByteArray]
  rfl

/-- A byte that goes on with a character adds its six bits. -/
theorem completed_more {bits count low high n : Nat} (rest : List UInt8)
    (fits : low ≤ n % 64 + 128 ∧ n % 64 + 128 ≤ high) :
    completed bits (count + 1) low high (UInt8.ofNat (n % 64 + 128) :: rest) =
      completed (bits * 64 + n % 64) count 0x80 0xBF rest := by
  have byte : (UInt8.ofNat (n % 64 + 128)).toNat = n % 64 + 128 := by
    rw [UInt8.toNat_ofNat']
    omega
  simp only [completed, byte, fits, decide_true, Bool.and_self, if_true, Nat.add_sub_cancel]

/-- A byte that goes on with a character in any way but as the first one behind some openings. -/
theorem fits_tail (n : Nat) : 0x80 ≤ n % 64 + 128 ∧ n % 64 + 128 ≤ 0xBF := by omega

/-- What the first of two, three and four bytes announces, and that the second one fits. -/
theorem leading?_two {v : Nat} (more : ¬ v ≤ 127) (less : v ≤ 2047) :
    leading? (UInt8.ofNat (v / 64 % 32 + 192)) = some (1, 0x80, 0xBF, v / 64) := by
  have byte : (UInt8.ofNat (v / 64 % 32 + 192)).toNat = v / 64 + 192 := by
    rw [UInt8.toNat_ofNat']
    omega
  unfold leading?
  rw [byte]
  simp only [Bool.and_eq_true, decide_eq_true_eq, beq_iff_eq]
  rw [if_neg (by omega), if_pos (by omega)]
  simp

theorem leading?_three {v : Nat} (more : ¬ v ≤ 2047) (less : v ≤ 65535)
    (valid : v < 0xD800 ∨ 0xDFFF < v) :
    ∃ low high, leading? (UInt8.ofNat (v / 4096 % 16 + 224)) = some (2, low, high, v / 4096) ∧
      low ≤ v / 64 % 64 + 128 ∧ v / 64 % 64 + 128 ≤ high := by
  have byte : (UInt8.ofNat (v / 4096 % 16 + 224)).toNat = v / 4096 + 224 := by
    rw [UInt8.toNat_ofNat']
    omega
  unfold leading?
  rw [byte]
  simp only [Bool.and_eq_true, decide_eq_true_eq, beq_iff_eq]
  rw [if_neg (by omega), if_neg (by omega)]
  by_cases least : v / 4096 = 0
  · exact ⟨0xA0, 0xBF, by rw [if_pos (by omega), least], by omega⟩
  by_cases halves : v / 4096 = 13
  · exact ⟨0x80, 0x9F, by rw [if_neg (by omega), if_pos (by omega), halves], by omega⟩
  · refine ⟨0x80, 0xBF, ?_, fits_tail _⟩
    rw [if_neg (by omega), if_neg (by omega), if_pos (by omega), Nat.add_sub_cancel]

theorem leading?_four {v : Nat} (more : ¬ v ≤ 65535) (less : v < 0x110000) :
    ∃ low high, leading? (UInt8.ofNat (v / 262144 % 8 + 240)) = some (3, low, high, v / 262144) ∧
      low ≤ v / 4096 % 64 + 128 ∧ v / 4096 % 64 + 128 ≤ high := by
  have byte : (UInt8.ofNat (v / 262144 % 8 + 240)).toNat = v / 262144 + 240 := by
    rw [UInt8.toNat_ofNat']
    omega
  unfold leading?
  rw [byte]
  simp only [Bool.and_eq_true, decide_eq_true_eq, beq_iff_eq]
  rw [if_neg (by omega), if_neg (by omega), if_neg (by omega), if_neg (by omega), if_neg (by omega)]
  by_cases least : v / 262144 = 0
  · exact ⟨0x90, 0xBF, by rw [if_pos (by omega), least], by omega⟩
  by_cases most : v / 262144 = 4
  · refine ⟨0x80, 0x8F, ?_, by omega⟩
    rw [if_neg (by omega), if_neg (by omega), if_pos (by omega), most]
  · refine ⟨0x80, 0xBF, ?_, fits_tail _⟩
    rw [if_neg (by omega), if_pos (by omega), Nat.add_sub_cancel]

/-- The first character of bytes that begin with a character is that character. -/
theorem firstLossy_encodeChar (c : Char) (rest : List UInt8) :
    ∃ b bytes, String.utf8EncodeChar c ++ rest = b :: bytes ∧ firstLossy b bytes = (c, rest) := by
  have valid : c.toNat < 0xD800 ∨ 0xDFFF < c.toNat ∧ c.toNat < 0x110000 := c.valid
  have back : Char.ofNat c.toNat = c := Char.ofNat_toNat c
  have value : c.val.toNat = c.toNat := rfl
  have whole {n : Nat} (same : n = c.toNat) : (Char.ofNat n, rest) = (c, rest) := by
    rw [same, back]
  unfold String.utf8EncodeChar
  rw [value]
  generalize c.toNat = v at *
  dsimp only
  split
  · rename_i one
    have byte : (UInt8.ofNat v).toNat = v := by
      rw [UInt8.toNat_ofNat']
      omega
    have first : leading? (UInt8.ofNat v) = some (0, 0, 0, v) := by
      unfold leading?
      rw [byte]
      exact if_pos (by omega)
    refine ⟨_, _, rfl, ?_⟩
    rw [firstLossy, first]
    exact whole rfl
  split
  · rename_i more less
    refine ⟨_, UInt8.ofNat (v % 64 + 128) :: rest, rfl, ?_⟩
    rw [firstLossy, leading?_two more less]
    dsimp only
    rw [completed_more rest (fits_tail v), completed]
    exact whole (by omega)
  split
  · rename_i more less
    obtain ⟨low, high, first, fits⟩ := leading?_three more less (by omega)
    refine ⟨_, UInt8.ofNat (v / 64 % 64 + 128) :: UInt8.ofNat (v % 64 + 128) :: rest, rfl, ?_⟩
    rw [firstLossy, first]
    dsimp only
    rw [completed_more _ fits, completed_more rest (fits_tail v), completed]
    exact whole (by omega)
  · rename_i more
    obtain ⟨low, high, first, fits⟩ := leading?_four more (by omega)
    refine ⟨_, UInt8.ofNat (v / 4096 % 64 + 128) :: UInt8.ofNat (v / 64 % 64 + 128) ::
      UInt8.ofNat (v % 64 + 128) :: rest, rfl, ?_⟩
    rw [firstLossy, first]
    dsimp only
    rw [completed_more _ fits, completed_more _ (fits_tail (v / 64)),
      completed_more rest (fits_tail v), completed]
    exact whole (by omega)

/-- Nothing is replaced in the bytes of a text. -/
theorem decodeLossy_encode (s : String) : decodeLossy (encode s) = s.toList := by
  rw [encode_eq]
  induction s.toList with
  | nil => rw [List.flatMap_nil, decodeLossy]
  | cons c cs ih =>
    obtain ⟨b, bytes, whole, first⟩ := firstLossy_encodeChar c (cs.flatMap String.utf8EncodeChar)
    rw [List.flatMap_cons, whole, decodeLossy, first, ih]

end Runbook.Text

namespace Runbook.Base64

/-! ### Digits -/

/-- The digits are characters of ASCII other than the padding, each with its own bits. -/
theorem value?_digit {n : Nat} (h : n < 64) :
    value? (digit n) = some n ∧ digit n ≠ '=' ∧ (digit n).toNat < 128 := by
  have each : ∀ n < 64, value? (digit n) = some n ∧ digit n ≠ '=' ∧ (digit n).toNat < 128 := by
    decide
  exact each n h

/-- The byte that a decoded number stands for. -/
theorem byte_eq {n : Nat} {b : UInt8} (h : n = b.toNat) : UInt8.ofNat (n % 256) = b := by
  rw [h, Nat.mod_eq_of_lt b.toNat_lt, UInt8.ofNat_toNat]

variable (total carry : Nat) (bytes : List UInt8) (cs : List Char)

theorem decodeFrom_first {n : Nat} (h : n < 64) :
    decodeFrom total ⟨0, carry, 0⟩ bytes (digit n :: cs) =
      decodeFrom (total + 1) ⟨1, n, 0⟩ bytes cs := by
  obtain ⟨value, apart, -⟩ := value?_digit h
  rw [decodeFrom, if_neg apart, value]
  rfl

/-- The second digit completes a byte with the first. -/
theorem decodeFrom_second {n : Nat} (h : n < 64) {b : UInt8} (hb : carry * 4 + n / 16 = b.toNat) :
    decodeFrom total ⟨1, carry, 0⟩ bytes (digit n :: cs) =
      decodeFrom (total + 1) ⟨2, n % 16, 0⟩ (b :: bytes) cs := by
  obtain ⟨value, apart, -⟩ := value?_digit h
  rw [decodeFrom, if_neg apart, value]
  simp only [byte_eq hb]

theorem decodeFrom_third {n : Nat} (h : n < 64) {b : UInt8} (hb : carry * 16 + n / 4 = b.toNat) :
    decodeFrom total ⟨2, carry, 0⟩ bytes (digit n :: cs) =
      decodeFrom (total + 1) ⟨3, n % 4, 0⟩ (b :: bytes) cs := by
  obtain ⟨value, apart, -⟩ := value?_digit h
  rw [decodeFrom, if_neg apart, value]
  simp only [byte_eq hb]

theorem decodeFrom_fourth {n : Nat} (h : n < 64) {b : UInt8} (hb : carry * 64 + n = b.toNat) :
    decodeFrom total ⟨3, carry, 0⟩ bytes (digit n :: cs) =
      decodeFrom (total + 1) ⟨0, 0, 0⟩ (b :: bytes) cs := by
  obtain ⟨value, apart, -⟩ := value?_digit h
  rw [decodeFrom, if_neg apart, value]
  simp only [byte_eq hb]

/-! ### Round trip -/

theorem decodeFrom_encode (b : List UInt8) :
    decodeFrom total ⟨0, 0, 0⟩ bytes (encode b) = .ok (bytes.reverse ++ b) := by
  induction b using encode.induct generalizing total bytes with
  | case1 a b c rest ih =>
    have := a.toNat_lt
    have := b.toNat_lt
    have := c.toNat_lt
    rw [encode, decodeFrom_first _ _ _ _ (by omega),
      decodeFrom_second _ _ _ _ (by omega) (b := a) (by omega),
      decodeFrom_third _ _ _ _ (by omega) (b := b) (by omega),
      decodeFrom_fourth _ _ _ _ (by omega) (b := c) (by omega), ih]
    simp
  | case2 a b =>
    have := a.toNat_lt
    have := b.toNat_lt
    rw [encode, decodeFrom_first _ _ _ _ (by omega),
      decodeFrom_second _ _ _ _ (by omega) (b := a) (by omega),
      decodeFrom_third _ _ _ _ (by omega) (b := b) (by omega)]
    simp [decodeFrom]
  | case3 a =>
    have := a.toNat_lt
    rw [encode, decodeFrom_first _ _ _ _ (by omega),
      decodeFrom_second _ _ _ _ (by omega) (b := a) (by omega)]
    simp [decodeFrom]
  | case4 => simp [encode, decodeFrom]

theorem ascii_encode (b : List UInt8) : ∀ c ∈ encode b, c.toNat < 128 := by
  induction b using encode.induct with
  | case1 a b c rest ih =>
    have := a.toNat_lt
    have := b.toNat_lt
    have := c.toNat_lt
    simp only [encode, List.forall_mem_cons]
    exact ⟨(value?_digit (by omega)).2.2, (value?_digit (by omega)).2.2,
      (value?_digit (by omega)).2.2, (value?_digit (by omega)).2.2, ih⟩
  | case2 a b =>
    have := a.toNat_lt
    have := b.toNat_lt
    simp only [encode, List.forall_mem_cons]
    exact ⟨(value?_digit (by omega)).2.2, (value?_digit (by omega)).2.2,
      (value?_digit (by omega)).2.2, by decide, nofun⟩
  | case3 a =>
    have := a.toNat_lt
    simp only [encode, List.forall_mem_cons]
    exact ⟨(value?_digit (by omega)).2.2, (value?_digit (by omega)).2.2, by decide, by decide,
      nofun⟩
  | case4 => exact nofun

/-- Whatever the bytes are, their text decodes to them. -/
theorem decode_text (b : List UInt8) : decode (text b).toList = .ok b := by
  have ascii : (encode b).all (fun c => c.toNat < 128) = true :=
    List.all_eq_true.mpr fun c there => decide_eq_true (ascii_encode b c there)
  rw [text, String.toList_ofList, decode, if_pos ascii, decodeFrom_encode]
  rfl

/-- Some bytes have some text. -/
theorem text_isEmpty {b : List UInt8} (h : b ≠ []) : (text b).isEmpty = false := by
  cases encoded : encode b with
  | cons c cs => simp [text, encoded]
  | nil =>
    have back := decodeFrom_encode 0 [] b
    rw [encoded] at back
    cases back
    exact absurd rfl h

end Runbook.Base64
