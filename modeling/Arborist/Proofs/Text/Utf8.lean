import Arborist.Edit.Render

/-!
# Characters and their bytes

A source is a list of bytes, but edits are judged by where the characters of its text begin and
end. This module ties the two views together:

* `decode?_eq_some_iff` — the bytes that decode to a text are exactly its encoding;
* `boundary_or_inside` — every offset of an encoded text falls between two characters or strictly
  inside one, and `insideCharacter_iff` shows that the test on a single byte tells which; and
* `ValidUtf8.take`, `ValidUtf8.drop`, `ValidUtf8.slice` — cutting valid bytes between characters
  leaves valid bytes, and so does joining them (`ValidUtf8.append`).

All of it rests on one fact about a single character, `utf8EncodeChar_eq_lead_cons`: its first
byte is no continuation byte and all its other bytes are.
-/

namespace Arborist.Text

/-! ## The bytes of one character -/

/-- Continuation bytes are those from `80` to `BF`. -/
theorem isContinuation_iff {byte : UInt8} :
    isContinuation byte = true ↔ 0x80 ≤ byte.toNat ∧ byte.toNat < 0xC0 := by
  have table : ∀ n : Fin 256,
      isContinuation (UInt8.ofNat n) = true ↔ 0x80 ≤ n.val ∧ n.val < 0xC0 := by
    decide +kernel
  have h := table ⟨byte.toNat, byte.toNat_lt⟩
  simpa using h

/-- A character is written as a byte that continues nothing, followed by continuation bytes. -/
theorem utf8EncodeChar_eq_lead_cons (c : Char) :
    ∃ lead tail, String.utf8EncodeChar c = lead :: tail ∧ isContinuation lead = false ∧
      ∀ byte ∈ tail, isContinuation byte = true := by
  have tailByte (n : Nat) : isContinuation (UInt8.ofNat (n % 0x40 + 0x80)) = true := by
    rw [isContinuation_iff, UInt8.toNat_ofNat']
    omega
  have leadByte (n : Nat) (h : n < 0x80 ∨ 0xC0 ≤ n ∧ n < 0x100) :
      isContinuation (UInt8.ofNat n) = false := by
    rw [← Bool.not_eq_true, isContinuation_iff, UInt8.toNat_ofNat']
    omega
  -- One case per length of the encoding, from one byte to four.
  fun_cases String.utf8EncodeChar c
  · exact ⟨_, _, rfl, leadByte _ (by omega), by simp⟩
  all_goals
    refine ⟨_, _, rfl, leadByte _ (by omega), ?_⟩
    simp only [List.forall_mem_cons, tailByte, true_and, List.not_mem_nil, false_imp_iff,
      implies_true]

/-- A character whose first byte is ASCII is this byte alone. -/
theorem eq_nil_of_utf8EncodeChar_eq_cons {c : Char} {lead : UInt8} {tail : Bytes}
    (h : String.utf8EncodeChar c = lead :: tail) (hascii : lead.toNat < 0x80) : tail = [] := by
  revert h
  fun_cases String.utf8EncodeChar c
  · intro h
    exact (List.cons.inj h).2.symm
  all_goals
    intro h
    rw [← (List.cons.inj h).1, UInt8.toNat_ofNat'] at hascii
    omega

/-! ## The bytes of a text -/

/-- The UTF-8 bytes of characters, one character after another. -/
def bytesOf (cs : List Char) : Bytes := cs.flatMap String.utf8EncodeChar

@[simp] theorem bytesOf_nil : bytesOf [] = [] := rfl

@[simp] theorem bytesOf_cons (c : Char) (cs : List Char) :
    bytesOf (c :: cs) = String.utf8EncodeChar c ++ bytesOf cs := rfl

@[simp] theorem bytesOf_append (cs ds : List Char) :
    bytesOf (cs ++ ds) = bytesOf cs ++ bytesOf ds := by
  simp [bytesOf]

/-- A text is encoded character by character. -/
theorem encode_eq_bytesOf (text : String) : encode text = bytesOf text.toList := by
  obtain ⟨cs, rfl⟩ := text.exists_eq_ofList
  rw [encode, String.toByteArray_ofList, String.toList_ofList, List.utf8Encode, bytesOf]
  simp

/-- The encoding of characters put together to a text. -/
theorem encode_ofList (cs : List Char) : encode (String.ofList cs) = bytesOf cs := by
  rw [encode_eq_bytesOf, String.toList_ofList]

/-- Decoding inverts encoding, and nothing else decodes. -/
theorem decode?_eq_some_iff {bytes : Bytes} {text : String} :
    decode? bytes = some text ↔ bytes = encode text := by
  have asArray : (encode text).toByteArray = text.toByteArray := by
    unfold encode
    ext1
    simp
  unfold decode? String.fromUTF8?
  constructor
  · intro h
    split at h
    · next valid =>
      obtain rfl := Option.some.inj h
      change bytes = (List.toByteArray bytes).data.toList
      simp
    · cases h
  · rintro rfl
    rw [dif_pos (asArray ▸ text.isValidUTF8), Option.some.injEq, ← String.toByteArray_inj]
    exact asArray

/-- A text is read back from its encoding. -/
@[simp] theorem decode?_encode (text : String) : decode? (encode text) = some text :=
  decode?_eq_some_iff.mpr rfl

/-- Different texts have different encodings. -/
theorem encode_injective {first second : String} (h : encode first = encode second) :
    first = second := by
  have hdecode := congrArg decode? h
  rw [decode?_encode, decode?_encode] at hdecode
  exact Option.some.inj hdecode

theorem bytesOf_injective {cs ds : List Char} (h : bytesOf cs = bytesOf ds) : cs = ds := by
  rw [← encode_ofList, ← encode_ofList] at h
  simpa using congrArg String.toList (encode_injective h)

/-! ## Offsets between and inside characters -/

/-- An offset strictly inside a character of a text: after the character starts and before it
ends. -/
def InsideCharacter (text : String) (offset : Int) : Prop :=
  ∃ before c after, text.toList = before ++ c :: after ∧
    (encode (String.ofList before)).length < offset ∧
    offset < (encode (String.ofList (before ++ [c]))).length

/-- Every offset of the bytes of some characters either splits the characters in two, or lies
strictly inside one of them. -/
theorem boundary_or_inside (cs : List Char) (n : Nat) (h : n ≤ (bytesOf cs).length) :
    (∃ before after, cs = before ++ after ∧ (bytesOf before).length = n) ∨
      (∃ before c after, cs = before ++ c :: after ∧ (bytesOf before).length < n ∧
        n < (bytesOf (before ++ [c])).length) := by
  induction cs generalizing n with
  | nil => exact .inl ⟨[], [], rfl, (Nat.le_zero.mp h).symm⟩
  | cons c cs ih =>
      rw [bytesOf_cons, List.length_append] at h
      by_cases hzero : n = 0
      · exact .inl ⟨[], c :: cs, rfl, by simp [hzero]⟩
      by_cases hlt : n < (String.utf8EncodeChar c).length
      · refine .inr ⟨[], c, cs, rfl, by simp only [bytesOf_nil, List.length_nil]; omega, ?_⟩
        simpa only [List.nil_append, bytesOf_cons, bytesOf_nil, List.append_nil] using hlt
      -- Past the first character the question is the same for the others.
      rcases ih (n - (String.utf8EncodeChar c).length) (by omega) with
        ⟨before, after, rfl, hlen⟩ | ⟨before, d, after, rfl, hstart, hstop⟩
      · refine .inl ⟨c :: before, after, rfl, ?_⟩
        rw [bytesOf_cons, List.length_append, hlen]
        omega
      · refine .inr ⟨c :: before, d, after, rfl, ?_, ?_⟩
        · rw [bytesOf_cons, List.length_append]
          omega
        · rw [List.cons_append, bytesOf_cons, List.length_append]
          omega

/-- Between two characters, and at the end, stands no continuation byte. -/
theorem not_continuation_of_boundary (before after : List Char) :
    (((bytesOf (before ++ after))[(bytesOf before).length]?).map isContinuation).getD false
      = false := by
  rw [bytesOf_append, List.getElem?_append_right (Nat.le_refl _), Nat.sub_self]
  cases after with
  | nil => rfl
  | cons c cs =>
      obtain ⟨lead, tail, hc, hlead, -⟩ := utf8EncodeChar_eq_lead_cons c
      simp [hc, hlead]

/-- Strictly inside a character stands a continuation byte. -/
theorem continuation_of_inside {before : List Char} (after : List Char) {c : Char} {n : Nat}
    (hstart : (bytesOf before).length < n) (hstop : n < (bytesOf (before ++ [c])).length) :
    (((bytesOf (before ++ c :: after))[n]?).map isContinuation).getD false = true := by
  obtain ⟨lead, tail, hc, -, htail⟩ := utf8EncodeChar_eq_lead_cons c
  simp only [bytesOf_append, bytesOf_cons, bytesOf_nil, List.append_nil, List.length_append, hc,
    List.length_cons] at hstop
  -- The byte is one of the tail of `c`, at the place `k`.
  obtain ⟨k, hk⟩ : ∃ k, n = (bytesOf before).length + (k + 1) :=
    ⟨n - (bytesOf before).length - 1, by omega⟩
  have hktail : k < tail.length := by omega
  have hbyte : (bytesOf (before ++ c :: after))[n]? = some (tail.get ⟨k, hktail⟩) := by
    rw [bytesOf_append, hk, List.getElem?_append_right (Nat.le_add_right _ _),
      Nat.add_sub_cancel_left, bytesOf_cons, hc, List.cons_append, List.getElem?_cons_succ,
      List.getElem?_append_left hktail, List.getElem?_eq_getElem hktail]
    rfl
  rw [hbyte]
  exact htail _ (List.get_mem _ _)

/-- The test on the byte at an offset finds out the offsets strictly inside a character. -/
theorem insideCharacter_iff {text : String} {offset : Int} (hpos : 0 ≤ offset)
    (hle : offset ≤ (encode text).length) :
    Edit.insideCharacter (encode text) offset = true ↔ InsideCharacter text offset := by
  obtain ⟨n, rfl⟩ := Int.eq_ofNat_of_zero_le hpos
  rw [encode_eq_bytesOf] at hle ⊢
  unfold Edit.insideCharacter InsideCharacter
  simp only [encode_ofList, Int.toNat_natCast, Int.ofNat_lt]
  constructor
  · intro h
    rcases boundary_or_inside text.toList n (by omega) with
      ⟨before, after, hsplit, hlen⟩ | hinside
    · rw [hsplit, ← hlen, not_continuation_of_boundary] at h
      cases h
    · exact hinside
  · rintro ⟨before, c, after, hsplit, hstart, hstop⟩
    rw [hsplit]
    exact continuation_of_inside after hstart hstop

/-- Past the end of a text there are no characters to be inside of, and the test finds none. -/
theorem insideCharacter_natCast_iff {text : String} {offset : Nat} :
    Edit.insideCharacter (encode text) offset = true ↔ InsideCharacter text offset := by
  by_cases hle : offset ≤ (encode text).length
  · exact insideCharacter_iff (Int.natCast_nonneg offset) (Int.ofNat_le.mpr hle)
  · refine iff_of_false ?_ ?_
    · unfold Edit.insideCharacter
      rw [Int.toNat_natCast, List.getElem?_eq_none (by omega)]
      exact Bool.false_ne_true
    · rintro ⟨before, c, after, hsplit, -, hstop⟩
      rw [encode_ofList] at hstop
      rw [encode_eq_bytesOf, hsplit, List.append_cons, bytesOf_append, List.length_append] at hle
      omega

/-! ## Cutting and joining valid bytes -/

/-- Bytes that some text is encoded by. -/
def ValidUtf8 (bytes : Bytes) : Prop := ∃ text, decode? bytes = some text

namespace ValidUtf8

theorem iff_bytesOf {bytes : Bytes} : ValidUtf8 bytes ↔ ∃ cs, bytes = bytesOf cs := by
  simp only [ValidUtf8, decode?_eq_some_iff]
  constructor
  · rintro ⟨text, rfl⟩
    exact ⟨text.toList, encode_eq_bytesOf text⟩
  · rintro ⟨cs, rfl⟩
    exact ⟨String.ofList cs, (encode_ofList cs).symm⟩

theorem encode (text : String) : ValidUtf8 (encode text) := ⟨text, decode?_encode text⟩

theorem append {first second : Bytes} (hfirst : ValidUtf8 first) (hsecond : ValidUtf8 second) :
    ValidUtf8 (first ++ second) := by
  obtain ⟨cs, rfl⟩ := iff_bytesOf.mp hfirst
  obtain ⟨ds, rfl⟩ := iff_bytesOf.mp hsecond
  exact iff_bytesOf.mpr ⟨cs ++ ds, (bytesOf_append cs ds).symm⟩

/-- Valid bytes that are cut where no character is split fall into valid bytes. -/
theorem splitAt {bytes : Bytes} {n : Nat} (hvalid : ValidUtf8 bytes) (hle : n ≤ bytes.length)
    (hcut : Edit.insideCharacter bytes n = false) :
    ValidUtf8 (bytes.take n) ∧ ValidUtf8 (bytes.drop n) := by
  obtain ⟨cs, rfl⟩ := iff_bytesOf.mp hvalid
  rcases boundary_or_inside cs n hle with
    ⟨before, after, rfl, rfl⟩ | ⟨before, c, after, rfl, hstart, hstop⟩
  · rw [bytesOf_append, List.take_left, List.drop_left]
    exact ⟨iff_bytesOf.mpr ⟨before, rfl⟩, iff_bytesOf.mpr ⟨after, rfl⟩⟩
  · have hinside := continuation_of_inside after hstart hstop
    rw [Edit.insideCharacter, Int.toNat_natCast, hinside] at hcut
    cases hcut

theorem take {bytes : Bytes} {n : Nat} (hvalid : ValidUtf8 bytes) (hle : n ≤ bytes.length)
    (hcut : Edit.insideCharacter bytes n = false) : ValidUtf8 (bytes.take n) :=
  (hvalid.splitAt hle hcut).1

theorem drop {bytes : Bytes} {n : Nat} (hvalid : ValidUtf8 bytes) (hle : n ≤ bytes.length)
    (hcut : Edit.insideCharacter bytes n = false) : ValidUtf8 (bytes.drop n) :=
  (hvalid.splitAt hle hcut).2

/-- Behind an ASCII character another one begins, or nothing. -/
theorem insideCharacter_succ {bytes : Bytes} {offset : Nat} {byte : UInt8}
    (hvalid : ValidUtf8 bytes) (hcut : Edit.insideCharacter bytes offset = false)
    (hbyte : bytes[offset]? = some byte) (hascii : byte.toNat < 0x80) :
    Edit.insideCharacter bytes (offset + 1 : Nat) = false := by
  obtain ⟨hlt, -⟩ := List.getElem?_eq_some_iff.mp hbyte
  obtain ⟨cs, hcs⟩ := iff_bytesOf.mp (hvalid.drop (Nat.le_of_lt hlt) hcut)
  rw [← Nat.add_zero offset, ← List.getElem?_drop, hcs] at hbyte
  unfold Edit.insideCharacter
  rw [Int.toNat_natCast, ← List.getElem?_drop, hcs]
  cases cs with
  | nil => cases hbyte
  | cons c cs =>
      obtain ⟨lead, tail, hc, -, -⟩ := utf8EncodeChar_eq_lead_cons c
      rw [bytesOf_cons, hc, List.cons_append, List.getElem?_cons_zero] at hbyte
      obtain rfl := Option.some.inj hbyte
      rw [bytesOf_cons, hc, eq_nil_of_utf8EncodeChar_eq_cons hc hascii]
      exact not_continuation_of_boundary [] cs

/-- A slice between two offsets that split no character is valid. -/
theorem slice {bytes : Bytes} {start stop : Nat} (hvalid : ValidUtf8 bytes)
    (hle : start ≤ stop) (hstop : stop ≤ bytes.length)
    (hcutStart : Edit.insideCharacter bytes start = false)
    (hcutStop : Edit.insideCharacter bytes stop = false) :
    ValidUtf8 (slice bytes start stop) := by
  have htake := hvalid.take hstop hcutStop
  refine htake.drop (by rw [List.length_take]; omega) ?_
  -- What is left of the bytes has the same byte at `start`, or none.
  unfold Edit.insideCharacter at hcutStart ⊢
  simp only [Int.toNat_natCast, List.getElem?_take] at hcutStart ⊢
  split
  · exact hcutStart
  · rfl

end ValidUtf8

end Arborist.Text
